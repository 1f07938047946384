import HouseStyle.Evidence.Constructs
import HouseStyle.Restyle.Context

/-! # Commas of declarations

Under the values `leading` and `trailing`, the commas of a declaration over several lines go to the
start of the next line or to the end of the line before it; the indent of the next declarator stays.
-/

namespace HouseStyle.DeclarationCommas

/-- A comma with its line break, before a declarator with the given indent. -/
def separator (p : Placement) (indent : Text) : Text :=
  match p with
  | .leading => '\n' :: indent ++ [',', ' ']
  | .trailing => ',' :: '\n' :: indent

/-- The replacement of what stands between two declarators, if its comma is not where it should be.
-/
def move? (s : Source) (want : Placement) (p : Node × Node) : Option Replacement :=
  match Expression.commaPlacement? (s.between p.1 p.2) with
  | some placement =>
    if placement = want then none
    else some ⟨s.stop p.1, s.start p.2, separator want (s.lineIndent (s.row p.2))⟩
  | none => none

/-- The replacements for a declaration. -/
def replacements (s : Source) (want : Placement) (n : Node) : List Replacement :=
  if Functions.variableKinds.contains n.kind then
    (Constructs.neighbours (Constructs.declarators n)).filterMap (move? s want)
  else []

/-- The text of a source with its commas in place. -/
def place (want : Placement) (s : Source) : Text :=
  Replacement.apply s.text (s.root.walkNodes.flatMap (replacements s want))

/-- The placement that a value asks for. -/
def want? (v : Value) : Option Placement :=
  if v.isStr "leading" then some .leading
  else if v.isStr "trailing" then some .trailing
  else none

/-- Puts the commas of declarations in place. -/
def restyle : Restyler := fun ctx value t =>
  match want? value with
  | some want => ctx.onSource (place want) t
  | none => t

end HouseStyle.DeclarationCommas
