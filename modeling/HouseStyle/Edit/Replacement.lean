import HouseStyle.Text.Basic

/-! # Replacements

A replacement puts a text in the place of a range of a source. `apply` carries out a list of them,
all stated against the same source. Those out of range and those that change nothing are dropped,
and of equal ones all but one. The others are taken from the end of the source to its start; one
that overlaps a replacement already taken is dropped. Two insertions at one place overlap. -/

namespace HouseStyle

/-- The range from `start` up to `stop`, and the text to be put in its place. -/
structure Replacement where
  start : Int
  stop : Int
  text : Text
deriving DecidableEq

namespace Replacement

/-- Whether the range lies in the source. -/
def inRange (source : Text) (r : Replacement) : Bool :=
  0 ≤ r.start && r.start ≤ r.stop && r.stop ≤ source.length

/-- What stands in the range. -/
def replaced (source : Text) (r : Replacement) : Text := source.slice r.start.toNat r.stop.toNat

/-- Whether the replacement is in range and changes the source. -/
def isEffective (source : Text) (r : Replacement) : Bool :=
  r.inRange source && r.replaced source ≠ r.text

/-- Whether `r` is taken no later than `r'`: it starts later, or with the same start does not end
earlier. -/
def takenFirst (r r' : Replacement) : Bool :=
  r'.start < r.start || (r'.start == r.start && r'.stop ≤ r.stop)

/-- The replacements that may be taken, in the order in which they are taken. -/
def candidates (source : Text) (rs : List Replacement) : List Replacement :=
  (rs.filter (isEffective source)).eraseDups.mergeSort takenFirst

/-- Whether a replacement reaches into what was already taken, which starts at `limit`. -/
def collides (limit : Int) (r : Replacement) : Bool :=
  limit < r.stop || (r.stop == limit && r.start == limit)

/-- The replacements that are taken, where everything from `limit` on is taken already. -/
def keep (limit : Int) : List Replacement → List Replacement
  | [] => []
  | r :: rs => if r.collides limit then keep limit rs else r :: keep r.start rs

/-- Carries out replacements from right to left. The source is finished from `cursor` on, and `done`
is what it became there. -/
def splice (source : Text) (cursor : Nat) (done : Text) : List Replacement → Text
  | [] => source.take cursor ++ done
  | r :: rs =>
    splice source r.start.toNat (r.text ++ source.slice r.stop.toNat cursor ++ done) rs

/-- The replacements of a list that are carried out, the last in the source first. -/
def taken (source : Text) (rs : List Replacement) : List Replacement :=
  keep (source.length + 1) (candidates source rs)

/-- The source after a list of replacements. -/
def apply (source : Text) (rs : List Replacement) : Text :=
  splice source source.length [] (taken source rs)

end Replacement

end HouseStyle
