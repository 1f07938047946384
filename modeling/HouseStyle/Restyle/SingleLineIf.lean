import HouseStyle.Restyle.Context

/-! # Conditionals on one line

Under the value `omit`, a conditional without alternative whose single statement stands alone on the
next line is put on one line, without the braces if it had any:

    if (ready) {
      start();      becomes    if (ready) start();
    }

The parts are copied as they are. Comments in the way, and declarations, which cannot stand without
braces, leave the conditional as it is. -/

namespace HouseStyle.SingleLineIf

/-- The kinds of statements that need their braces. -/
def bracedKinds : List String :=
  ["lexical_declaration", "class_declaration", "function_declaration",
    "generator_function_declaration"]

/-- The single statement of a body: the body itself, or what its braces hold if they open on the
conditional's row, close two rows below, and hold nothing after the statement. -/
def statement? (s : Source) (row : Nat) (body : Node) : Option Node :=
  if body.kind = "statement_block" then
    if body.containsComment then none
    else
      match body.codeChildren with
      | [st] =>
        if s.row body = row ∧ s.endRow body = row + 2 ∧
            (s.text.slice (s.stop st) (s.stop body - 1)).isBlankText then some st
        else none
      | _ => none
  else some body

/-- Whether a statement can follow its condition on one line: it stands on the row below `row`
alone, can do without braces, and no comment is near. -/
def fits (s : Source) (row : Nat) (condition st : Node) : Bool :=
  !bracedKinds.contains st.kind && s.row st == row + 1 && s.endRow st == s.row st &&
    !(s.line (s.row st)).has ['/', '/'] && !(s.between condition st).hasCommentMark

/-- A conditional on one line. -/
def oneLine (s : Source) (condition st : Node) : Text :=
  ['i', 'f', ' '] ++ s.nodeText condition ++ [' '] ++ s.nodeText st

/-- The replacement of a conditional that can be put on one line. -/
def collapse? (s : Source) (n : Node) : Option Replacement :=
  if n.kind ≠ "if_statement" ∨ (n.child? .alternative).isSome then none
  else
    match n.child? .condition, n.child? .consequence with
    | some condition, some body =>
      let row := s.row n
      if s.row condition ≠ row ∨ s.endRow condition ≠ row then none
      else
        match statement? s row body with
        | some st =>
          if fits s row condition st then some ⟨s.start n, s.stop n, oneLine s condition st⟩
          else none
        | none => none
    | _, _ => none

/-- One pass over a text. -/
def pass (ctx : Context) : Text → Text := ctx.onSource fun s => s.replaceNodes (collapse? s)

/-- Puts conditionals on one line. -/
def restyle : Restyler := fun ctx value t =>
  if value.isStr "omit" then settle (pass ctx) t else t

end HouseStyle.SingleLineIf
