import HouseStyle.Evidence.Constructs
import HouseStyle.Restyle.Context

/-! # Breaks in switches

Under the values `match-case` and `indent`, a break that opens its own line, below a label that
opens its line, is indented like the label or one step further. Nothing but the blanks before the
break changes. -/

namespace HouseStyle.SwitchBreaks

/-- The replacement of the blanks before a break by `target`. -/
def reindent? (s : Source) (caseRow : Nat) (target : Text) (b : Node) : Option Replacement :=
  let row := s.row b
  let current := s.beforeNode b
  if row = caseRow ∨ !current.isBlankText ∨ current = target then none
  else some ⟨s.lineStart row, s.lineStart row + current.length, target⟩

/-- The replacements for a case label; `extra` columns are added to its own. -/
def replacements (indent : Indent) (extra : Nat) (s : Source) (n : Node) : List Replacement :=
  let before := s.beforeNode n
  if Constructs.isCase n && before.isBlankText then
    (Constructs.breaks n).filterMap
      (reindent? s (s.row n) (indent.render (indent.measure before + extra)))
  else []

/-- The text of a source with its breaks indented. -/
def place (indent : Indent) (extra : Nat) (s : Source) : Text :=
  Replacement.apply s.text (s.root.walkNodes.flatMap (replacements indent extra s))

/-- Indents the breaks of switches. -/
def restyle : Restyler := fun ctx value t =>
  if value.isStr "match-case" then ctx.onSource (place ctx.indent 0) t
  else if value.isStr "indent" then ctx.onSource (place ctx.indent ctx.indent.step) t
  else t

end HouseStyle.SwitchBreaks
