import HouseStyle.Value.Basic

/-! # Dimensions

A dimension is one question of style. Its name has a group and, after a point, a name inside the
group. Each dimension has a *descriptor*: the values it can take, the favoured one first, or that it
is a number; and whether a change under its rule can be made without review. -/

namespace HouseStyle

/-- A question of style. -/
inductive Dimension where
  | lineCommentSpacing | preferDocComments | commentBlockFraming | trailingInlineCommentAlignment
  | functionWordCount | functionExpressionNaming | singleLineIfBraces | guardClauses | quotes
  | semicolons | trailingCommas | declarationCommaPlacement | yodaConditions
  | ternaryOperatorPlacement | lineWidth | indentationKind | indentationSize
  | switchCaseIndentation | switchBreakIndentation | memberChainIndentation | callArgumentLayout
  | blankLineDensity | blankLineBeforeReturn | blankLineBeforeIf | importOrdering
deriving DecidableEq

/-- The values of a dimension, and whether changes under it are safe. A numeric dimension has no
list of values. -/
structure Descriptor where
  values : List Value
  numeric : Bool
  safe : Bool

namespace Dimension

/-- The dimensions with the group and the name of each, in the order in which they are reported. -/
def table : List (Dimension × String × String) := [
  (lineCommentSpacing, "comments", "lineCommentSpacing"),
  (preferDocComments, "comments", "preferJsdocForFunctions"),
  (commentBlockFraming, "comments", "commentBlockFraming"),
  (trailingInlineCommentAlignment, "comments", "trailingInlineCommentAlignment"),
  (functionWordCount, "naming", "functionWordCountPreference"),
  (functionExpressionNaming, "naming", "functionExpressionNamingPreference"),
  (singleLineIfBraces, "controlFlow", "singleLineIfBraces"),
  (guardClauses, "controlFlow", "guardClauses"), (quotes, "syntax", "quotes"),
  (semicolons, "syntax", "semicolons"), (trailingCommas, "syntax", "trailingCommas"),
  (declarationCommaPlacement, "syntax", "variableDeclarationCommaPlacement"),
  (yodaConditions, "syntax", "yodaConditions"),
  (ternaryOperatorPlacement, "syntax", "multilineTernaryOperatorPlacement"),
  (lineWidth, "syntax", "lineWidth"), (indentationKind, "whitespace", "indentationKind"),
  (indentationSize, "whitespace", "indentationSize"),
  (switchCaseIndentation, "whitespace", "switchCaseIndentation"),
  (switchBreakIndentation, "whitespace", "switchCaseBreakIndentation"),
  (memberChainIndentation, "whitespace", "memberExpressionIndentation"),
  (callArgumentLayout, "whitespace", "multilineCallArgumentLayout"),
  (blankLineDensity, "whitespace", "blankLineDensity"),
  (blankLineBeforeReturn, "whitespace", "blankLineBeforeReturn"),
  (blankLineBeforeIf, "whitespace", "blankLineBeforeIf"), (importOrdering, "imports", "ordering")]

/-- All dimensions. -/
def all : List Dimension := table.map (·.1)

/-- The group of a dimension. -/
def group (d : Dimension) : String := ((table.lookup d).map (·.1)).getD ""

/-- The name of a dimension inside its group. -/
def shortName (d : Dimension) : String := ((table.lookup d).map (·.2)).getD ""

/-- The full name of a dimension. -/
def name (d : Dimension) : String := d.group ++ "." ++ d.shortName

/-- The dimension of a full name. -/
def ofName? (s : String) : Option Dimension := all.find? (·.name == s)

/-- A dimension with two values, given by their names. -/
def choice (first second : String) (safe : Bool) : Descriptor :=
  ⟨[.str first, .str second], false, safe⟩

/-- A dimension whose value is a number. -/
def number (safe : Bool) : Descriptor := ⟨[], true, safe⟩

/-- The descriptor of a dimension. -/
def descriptor : Dimension → Descriptor
  | lineCommentSpacing => choice "space-after-slashes" "tight" true
  | preferDocComments => ⟨[.bool true, .bool false], false, false⟩
  | commentBlockFraming => choice "framed" "plain" false
  | trailingInlineCommentAlignment => choice "aligned" "single-space" false
  | functionWordCount => choice "single-word" "multi-word" false
  | functionExpressionNaming => choice "named" "allow-anonymous" false
  | singleLineIfBraces => choice "omit" "require" false
  | guardClauses => choice "prefer" "neutral" false
  | quotes => choice "double" "single" false
  | semicolons => choice "always" "never" false
  | trailingCommas => choice "always-multiline" "never" false
  | declarationCommaPlacement => choice "leading" "trailing" false
  | yodaConditions => choice "always" "never" true
  | ternaryOperatorPlacement => choice "leading" "trailing" false
  | lineWidth => number false
  | indentationKind => choice "space" "tab" true
  | indentationSize => number true
  | switchCaseIndentation => choice "indent" "flat" true
  | switchBreakIndentation => choice "match-case" "indent" true
  | memberChainIndentation => choice "aligned" "indented" false
  | callArgumentLayout => choice "compact" "expanded" false
  | blankLineDensity => choice "compact" "spacious" false
  | blankLineBeforeReturn => choice "always" "never" false
  | blankLineBeforeIf => choice "always" "never" false
  | importOrdering => choice "alphabetical" "none" false

end Dimension

namespace Descriptor

/-- Whether two values are the same text or the same truth value. -/
def sameChoice : Value → Value → Bool
  | .str a, .str b => a == b
  | .bool a, .bool b => a == b
  | _, _ => false

/-- Whether a value is one of those listed; a numeric dimension lists none. -/
def accepts (d : Descriptor) (v : Value) : Bool := !d.numeric && d.values.any (sameChoice v)

end Descriptor

end HouseStyle
