import HouseStyle.Evidence.Constructs
import HouseStyle.Restyle.Context
import HouseStyle.Tree.Signature

/-! # Ternaries

Under the value `leading`, a ternary over several lines whose operators end their lines gets them at
the start of the next ones, one step further than its first line. With a reference, a ternary on one
line that the reference shows over several, with leading operators, is broken again with the
operators in the columns of the reference. Only ternaries without comments and with parts on one
line each are changed; the parts are copied as they are. -/

namespace HouseStyle.Ternaries

open HouseStyle.Constructs

/-- The visual columns of the two operators. -/
structure Layout where
  question : Nat
  colon : Nat

/-- Whether a comment stands inside a ternary. -/
def hasInteriorComment (s : Source) (n : Node) (p : TernaryParts) : Bool :=
  n.containsComment || (s.between p.test p.consequence).hasCommentMark ||
    (s.between p.consequence p.alternative).hasCommentMark

/-- The visual column of the first occurrence of an operator between two nodes. -/
def operatorColumn (s : Source) (indent : Indent) (operator : Char) (m n : Node) : Nat :=
  let before : Text :=
    s.text.take (s.stop m) ++ (s.between m n).takeWhile (· ≠ operator)
  indent.measure before.lastLine

/-- The layout of a ternary with leading operators and without comments. -/
def layout? (s : Source) (indent : Indent) (n : Node) : Option Layout :=
  match ternaryParts? n with
  | some p =>
    if n.kind = "ternary_expression" ∧ ternaryPlacement? s n = some .leading ∧
        hasInteriorComment s n p = false then
      some ⟨operatorColumn s indent '?' p.test p.consequence,
        operatorColumn s indent ':' p.consequence p.alternative⟩
    else none
  | none => none

/-- Records the layout of a node. -/
def record (s : Source) (indent : Indent) (q : SignatureQueue Layout) (n : Node) :
    SignatureQueue Layout :=
  match layout? s indent n with
  | some l => q.push (n.signature s.text.encode) l
  | none => q

/-- The layouts that a reference shows, by signature. -/
def layouts (indent : Indent) (reference : Source) : SignatureQueue Layout :=
  reference.root.walkNodes.foldl (record reference indent) .empty

/-- Three parts with leading operators in the columns of a layout. -/
def broken (indent : Indent) (l : Layout) (test consequence alternative : Text) : Text :=
  test ++ '\n' :: indent.render l.question ++ ['?', ' '] ++ consequence ++
    '\n' :: indent.render l.colon ++ [':', ' '] ++ alternative

/-- Whether a text can be a part: it is not empty and stands on one line. -/
def isPart (t : Text) : Bool := !t.isEmpty && !t.contains '\n'

/-- The replacement of a ternary by one with the given layout. -/
def rebuild? (s : Source) (indent : Indent) (l : Layout) (n : Node) (p : TernaryParts) :
    Option Replacement :=
  let test := (s.nodeText p.test).trim
  let consequence := (s.nodeText p.consequence).trim
  let alternative := (s.nodeText p.alternative).trim
  if hasInteriorComment s n p || !isPart test || !isPart consequence ||
      !isPart alternative then none
  else some ⟨s.start n, s.stop n, broken indent l test consequence alternative⟩

/-- The replacement of a ternary for which a layout may wait. -/
def change? (s : Source) (indent : Indent) (waiting : Option Layout) (n : Node) (p : TernaryParts) :
    Option Replacement :=
  match waiting, s.isMultiline n with
  | some l, false => rebuild? s indent l n p
  | _, _ =>
    if ternaryPlacement? s n = some .trailing then
      let column := indent.measure (s.lineIndent (s.row n)) + indent.step
      rebuild? s indent ⟨column, column⟩ n p
    else none

/-- One step of a pass: a ternary takes the layout that waits for it. -/
def step (s : Source) (indent : Indent) (acc : SignatureQueue Layout × List Replacement)
    (n : Node) : SignatureQueue Layout × List Replacement :=
  match ternaryParts? n with
  | some p =>
    if n.kind = "ternary_expression" then
      let r := acc.1.pop (n.signature s.text.encode)
      (r.2, acc.2 ++ (change? s indent r.1 n p).toList)
    else acc
  | none => acc

/-- One pass over a text, with the layouts of the reference. -/
def pass (ctx : Context) (known : SignatureQueue Layout) : Text → Text :=
  ctx.onSource fun s =>
    Replacement.apply s.text (s.root.walkNodes.foldl (step s ctx.indent) (known, [])).2

/-- Gives ternaries leading operators. -/
def restyle : Restyler := fun ctx value t =>
  if value.isStr "leading" then
    match ctx.reference? with
    | none => settle (pass ctx .empty) t
    | some r =>
      match ctx.clean? r with
      | some reference => settle (pass ctx (layouts ctx.indent reference)) t
      | none => t
  else t

end HouseStyle.Ternaries
