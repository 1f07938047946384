import HouseStyle.Text.Lowercase
import HouseStyle.Tree.Node

/-! # Classification of constructs

How single constructs of a program are written: comparisons with the literal first, guards that
leave early, where the operators of a ternary and the commas of a declaration stand, and whether a
list of modules is in order. Only kinds, children and pieces of text are read here, no positions. -/

namespace HouseStyle

/-- Where a separator stands when its list is broken over lines. -/
inductive Placement where
  | leading | trailing
deriving DecidableEq

namespace Placement

/-- The name of a placement. -/
def name : Placement → String
  | leading => "leading"
  | trailing => "trailing"

end Placement

namespace Expression

/-! ### Nodes -/

/-- The kinds of literals. -/
def literalKinds : List String :=
  ["string", "number", "true", "false", "null", "undefined", "regex"]

/-- The operators that compare. -/
def comparisonOperators : List String := ["==", "===", "!=", "!==", "<", "<=", ">", ">="]

/-- The operators that join conditions. -/
def logicalOperators : List String := ["&&", "||", "??"]

/-- Whether a node is a literal; a template counts if nothing is substituted in it. -/
def isLiteralLike : Option Node → Bool
  | none => false
  | some n =>
    literalKinds.contains n.kind ||
      (n.kind == "template_string" && !n.namedChildren.any (·.kind == "template_substitution"))

/-- Whether a comparison has its literal first; nothing is said if both sides are literals or
neither is. -/
def literalFirst? (left right : Option Node) : Option Bool :=
  let l := isLiteralLike left
  if l == isLiteralLike right then none else some l

/-- Whether a node leaves its function: a return or a throw, perhaps alone in blocks. -/
def isGuardExit (n : Node) : Bool :=
  if n.kind = "return_statement" ∨ n.kind = "throw_statement" then true
  else if n.kind = "statement_block" then
    match _h : n.codeChildren with
    | [b] => isGuardExit b
    | _ => false
  else false
termination_by n.size
decreasing_by exact Node.size_lt_of_codeChild (by simp [_h])

/-! ### Texts between nodes -/

/-- Where the operators of a ternary stand, given the texts in which they are looked for: leading,
if a line feed precedes one of them. -/
def ternaryPlacement? (question colon : Text) : Option Placement :=
  if question.contains '?' && colon.contains ':' then
    if (question.takeWhile (· ≠ '?')).contains '\n' ||
        (colon.takeWhile (· ≠ ':')).contains '\n' then
      some .leading
    else some .trailing
  else none

/-- Where the comma between two declarators stands, given the text between them: leading, if it
opens the second one's line, trailing, if it ends the first one's. A text with comments is not
classified. -/
def commaPlacement? (between : Text) : Option Placement :=
  if !between.contains '\n' || between.hasCommentMark || !between.contains ',' then none
  else
    let before : Text := between.takeWhile (· ≠ ',')
    let after : Text := (between.dropWhile (· ≠ ',')).drop 1
    if before.contains '\n' then if before.lastLine.isBlankText then some .leading else none
    else if after.contains '\n' then some .trailing
    else none

/-- Whether each text is at most the next one, by code points. -/
def isSorted : List Text → Bool
  | a :: b :: ts => decide (a ≤ b) && isSorted (b :: ts)
  | _ => true

/-- Whether a list of module names is sorted when case is ignored, and how much the list counts: one
less than its length. A list of fewer than two names does not count. -/
def orderingVote? (names : List Text) : Option (Bool × Nat) :=
  if names.length < 2 then none else some (isSorted (names.map Text.lower), names.length - 1)

/-- Whether the line above a row is blank. -/
def blankLineBefore (row : Int) (lines : List Text) : Bool :=
  if row ≤ 0 then false
  else
    match lines[(row - 1).toNat]? with
    | some l => l.isBlankText
    | none => false

end Expression

end HouseStyle
