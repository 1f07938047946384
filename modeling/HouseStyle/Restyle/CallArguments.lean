import HouseStyle.Evidence.Constructs
import HouseStyle.Restyle.Context

/-! # Call arguments

Under the value `compact`, the arguments of a call that are broken after the parenthesis, between
one another or before the closing parenthesis are joined again with a comma and a space. A trailing
comma stays. Lines inside an argument lose the indent that the broken form had given them. Comments
among the arguments, and literals over several lines, leave the call as it is. -/

namespace HouseStyle.CallArguments

/-- The kinds of nodes whose line breaks belong to the program's data. -/
def textKinds : List String := ["string", "template_string", "jsx_text"]

/-- Whether a node holds a literal over several lines. -/
def hasMultilineText (s : Source) (n : Node) : Bool :=
  n.walkNodes.any fun m => textKinds.contains m.kind && s.isMultiline m

/-- A text in which every line but the first loses its first spaces and tabs, at most `count` of
them. `left` is how many the present line may still lose. -/
def dedentLines (count : Nat) : Nat → Text → Text
  | _, [] => []
  | left, c :: t =>
    if c = '\n' then c :: dedentLines count count t
    else if Text.isIndentChar c && 0 < left then dedentLines count (left - 1) t
    else c :: dedentLines count 0 t

/-- Whether a text ends with a comma, blanks aside. -/
def endsWithComma (t : Text) : Bool := t.trimRight.getLast? == some ','

/-- Arguments in parentheses, on one line as far as they are themselves. -/
def joined (s : Source) (args : List Node) (trailingComma : Bool) : Text :=
  '(' :: [',', ' '].intercalate (args.map s.nodeText) ++ (if trailingComma then [','] else []) ++
    [')']

/-- How much deeper than the call its arguments are indented, if the first stands on a later row. -/
def extraIndent (s : Source) (arguments first : Node) : Nat :=
  if s.row arguments < s.row first then
    (s.lineIndent (s.row first)).length - (s.lineIndent (s.row arguments)).length
  else 0

/-- The gaps between neighbouring arguments. -/
def gaps (s : Source) (args : List Node) : List Text :=
  (Constructs.neighbours args).map fun p => s.between p.1 p.2

/-- The replacement of a node of arguments that is broken over lines. -/
def compactArguments? (s : Source) (arguments : Node) : Option Replacement :=
  let args := arguments.codeChildren
  match args.head?, args.getLast? with
  | some first, some last =>
    let opening := s.start arguments
    let closing := s.stop arguments - 1
    let head := s.text.slice (opening + 1) (s.start first)
    let tail := s.text.slice (s.stop last) closing
    if !s.isMultiline arguments || arguments.containsComment || args.any (hasMultilineText s) ||
        s.text[opening]? != some '(' || s.text[closing]? != some ')' ||
        (gaps s args).any (!·.contains ',') then none
    else if head.contains '\n' || (gaps s args).any (·.contains '\n') || tail.contains '\n' then
      some ⟨opening, closing + 1,
        dedentLines (extraIndent s arguments first) 0 (joined s args (endsWithComma tail))⟩
    else none
  | _, _ => none

/-- The replacement of the arguments of a call. -/
def compact? (s : Source) (n : Node) : Option Replacement :=
  if n.kind = "call_expression" then
    match n.child? .arguments with
    | some a => if a.kind = "arguments" then compactArguments? s a else none
    | none => none
  else none

/-- One pass over a text. -/
def pass (ctx : Context) : Text → Text := ctx.onSource fun s => s.replaceNodes (compact? s)

/-- Joins the arguments of calls. -/
def restyle : Restyler := fun ctx value t =>
  if value.isStr "compact" then settle (pass ctx) t else t

end HouseStyle.CallArguments
