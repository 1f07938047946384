import HouseStyle.Edit.Indent
import HouseStyle.Edit.Replacement
import HouseStyle.Edit.Settle
import HouseStyle.Tree.Parser
import HouseStyle.Value.Basic

/-! # Restyling

A restyler takes a text to the same program in another layout. It gets the value of its rule, and a
context: the parser and the language, how to indent, and perhaps a reference, an earlier form of the
program whose layout is to be restored. A text that does not parse cleanly is left as it is, and so
is every text under a value that the restyler does not know. -/

namespace HouseStyle

/-- What a restyler works with. -/
structure Context where
  parser : Parser
  language : String
  indent : Indent
  reference : Option Text

/-- A restyler: a context and the value of its rule make it a function on texts. -/
abbrev Restyler := Context → Value → Text → Text

namespace Context

/-- The source of a text that parses cleanly. -/
def clean? (ctx : Context) (t : Text) : Option Source := ctx.parser.parseClean? ctx.language t

/-- The reference, unless it is empty. -/
def reference? (ctx : Context) : Option Text := ctx.reference.filter (!·.isEmpty)

/-- A change of a text through its source; a text that does not parse cleanly is left as it is. -/
def onSource (ctx : Context) (change : Source → Text) (t : Text) : Text :=
  match ctx.clean? t with
  | some s => change s
  | none => t

end Context

/-- Carries out the replacements that the nodes of a source give rise to. -/
def Source.replaceNodes (s : Source) (f : Node → Option Replacement) : Text :=
  Replacement.apply s.text (s.root.walkNodes.filterMap f)

end HouseStyle
