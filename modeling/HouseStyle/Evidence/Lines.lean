import HouseStyle.Evidence.Vote
import HouseStyle.Text.Basic

/-! # Evidence from lines

What the lines of a text show without its tree: how many are blank, how long the longest other one
is, and what they are indented with. Carriage returns at the end of a line do not count to its
length. -/

namespace HouseStyle.Lines

open HouseStyle.Text

/-- Whether a line that is not blank is indented by spaces alone. -/
def isSpaceIndented (line : Text) : Bool :=
  !line.isBlankText && !line.indentOf.isEmpty && !line.indentOf.contains '\t'

/-- The votes of a line. -/
def votes (line : Text) : List Vote :=
  if line.isBlankText then Vote.one .blankLines
  else if line.indentOf.isEmpty then []
  else Vote.either (line.indentOf.contains '\t') .indentTabLines .indentSpaceLines

/-- The length of a line without carriage returns at its end. -/
def visibleLength (line : Text) : Nat := (line.reverse.dropWhile (· == '\r')).length

/-- The length of the longest line that is not blank. -/
def longest (lines : List Text) : Nat :=
  ((lines.filter (!·.isBlankText)).map visibleLength).foldl max 0

/-- The widths of the indents made of spaces, each with a count of one. -/
def indentWidths (lines : List Text) : List (Int × Int) :=
  (lines.filter isSpaceIndented).map fun l => (l.indentOf.length, 1)

end HouseStyle.Lines
