import HouseStyle.Text.Basic

/-! # Words in names

An identifier is cut into words at underscores, hyphens and blanks, and where a capital follows a
small letter or a digit. -/

namespace HouseStyle.Naming

open HouseStyle.Text

/-- A small letter or a digit, of ASCII. -/
def isLowerOrDigit (c : Char) : Bool := c.isLower || c.isDigit

/-- The name with a space at every change of case. -/
def splitCase : Text → Text
  | a :: b :: t =>
    if isLowerOrDigit a && b.isUpper then a :: ' ' :: splitCase (b :: t)
    else a :: splitCase (b :: t)
  | t => t

/-- A separator as a space. -/
def spaceSeparator (c : Char) : Char := if c = '_' ∨ c = '-' then ' ' else c

/-- The number of words in a name. -/
def wordCount (name : Text) : Nat := (words ((splitCase name).map spaceSeparator)).length

end HouseStyle.Naming
