import HouseStyle.Number.Double

/-! # Numbers as given

A number that comes from outside is a truth value, which counts as zero or one, an integer of any
size, or a floating-point number. It stays what it was: an integer is reported as an integer, and
rounding to decimal places leaves it alone. Comparison is by exact value, across the three kinds; an
integer is rounded only where a floating-point number is needed (`toDouble`). -/

namespace HouseStyle

/-- A number of the kind in which it was given. -/
inductive Number where
  | truth (b : Bool)
  | int (n : Int)
  | float (x : Double)
deriving DecidableEq

namespace Number

/-- The integer that a truth value counts as. -/
def ofTruth (b : Bool) : Int := if b then 1 else 0

/-- The exact value. Integers are not rounded here, however large. -/
def exact : Number → Double
  | truth b => .finite (ofTruth b)
  | int n => .finite n
  | float x => x

/-- The nearest floating-point number. -/
def toDouble : Number → Double
  | truth b => .finite (ofTruth b)
  | int n => .round n
  | float x => x

/-- At most, by exact value. -/
def le (x y : Number) : Bool := x.exact.le y.exact

/-- Less, by exact value. -/
def lt (x y : Number) : Bool := x.exact.lt y.exact

/-- Equal, by exact value. -/
def same (x y : Number) : Bool := x.le y && y.le x

/-- Whether a number lies between zero and one. -/
def inUnit (x : Number) : Bool := (int 0).le x && x.le (int 1)

/-- Whether a number is below zero. -/
def isNegative (x : Number) : Bool := x.lt (int 0)

/-- The number, or zero if it is not above zero. -/
def atLeastZero (x : Number) : Number := if (int 0).lt x then x else int 0

/-- The number rounded to `k` decimal places; truth values become integers. -/
def roundPlaces (k : Nat) : Number → Number
  | truth b => int (ofTruth b)
  | int n => int n
  | float x => float (x.roundPlaces k)

/-- Integers compare as integers. -/
@[simp] theorem int_le_int (m n : Int) : (int m).le (int n) = decide (m ≤ n) := by
  simp only [le, exact, Double.le, Double.toRat, Rat.intCast_le_intCast]

/-- What is not above zero becomes zero, so nothing becomes negative. -/
theorem isNegative_atLeastZero (x : Number) : x.atLeastZero.isNegative = false := by
  unfold atLeastZero
  split
  · rename_i h
    simp only [lt, Double.lt, Bool.and_eq_true, Bool.not_eq_true'] at h
    simp [isNegative, lt, Double.lt, h.1, h.2]
  · rfl

end Number

end HouseStyle
