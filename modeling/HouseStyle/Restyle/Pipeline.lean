import HouseStyle.Learning.Path
import HouseStyle.Learning.Settings
import HouseStyle.Restyle.CallArguments
import HouseStyle.Restyle.DeclarationCommas
import HouseStyle.Restyle.MemberChains
import HouseStyle.Restyle.SingleLineIf
import HouseStyle.Restyle.SwitchBreaks
import HouseStyle.Restyle.Ternaries
import HouseStyle.Restyle.TrailingComments
import HouseStyle.Rule.Basic

/-! # Applying rules

Every restyler has a dimension. `restyle` runs those whose dimension has an enforced rule, in a
fixed order and each on the result of the one before, and repeats the whole until nothing changes:
compact arguments can make a conditional fit on a line, and so on. -/

namespace HouseStyle

/-- The restylers with their dimensions, in the order in which they run. -/
def restylers : List (Dimension × Restyler) :=
  [(.singleLineIfBraces, SingleLineIf.restyle), (.ternaryOperatorPlacement, Ternaries.restyle),
    (.callArgumentLayout, CallArguments.restyle), (.memberChainIndentation, MemberChains.restyle),
    (.declarationCommaPlacement, DeclarationCommas.restyle),
    (.switchBreakIndentation, SwitchBreaks.restyle),
    (.trailingInlineCommentAlignment, TrailingComments.restyle)]

namespace Rules

/-- The kind and the width of indents that rules ask for: two spaces unless they say otherwise. A
width is a positive integer, or a yes, which counts as one. -/
def indentation (rs : Rules) : Value × Value :=
  let kind := rs.enforcedValue .indentationKind
  let width := rs.enforcedValue .indentationSize
  (if kind.truthy then kind else .str "space",
    match width with
    | .int n => if n < 1 then .int 2 else .int n
    | .bool true => .bool true
    | _ => .int 2)

/-- How to indent under rules. -/
def indent (rs : Rules) : Indent :=
  let i := rs.indentation
  ⟨if i.1.isStr "tab" then .tab else .space,
    match i.2 with
    | .int n => n
    | _ => 1⟩

/-- The restylers whose dimension has an enforced rule, each with the value of the rule. -/
def activeRestylers (rs : Rules) : List (Restyler × Value) :=
  (restylers.map fun r => (r.2, rs.enforcedValue r.1)).filter (!·.2.isNull)

end Rules

/-- One round of all active restylers. -/
def restyleOnce (ctx : Context) (active : List (Restyler × Value)) (t : Text) : Text :=
  active.foldl (fun t r => r.1 ctx r.2 t) t

/-- A text in the style of rules. -/
def restyle (p : Parser) (rs : Rules) (reference : Option Text) (language : String) (t : Text) :
    Text :=
  settle (restyleOnce ⟨p, language, rs.indent, reference⟩ rs.activeRestylers) t

/-- A file in the style of rules: in the language of its path, if it has one, and with safe changes
only if the configuration says so. -/
def restyleFile (p : Parser) (config : Config) (rs : Rules) (reference : Option Text)
    (path : Option String) (t : Text) : Text :=
  let language :=
    match path.filter (!·.isEmpty) with
    | some path => Path.language path.toList
    | none => config.defaultLanguage
  restyle p (if config.safeOnly then rs.safeOnly else rs) reference language.name t

end HouseStyle
