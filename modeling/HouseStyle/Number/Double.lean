/-! # Double-precision numbers

A binary floating-point number of double precision is, when finite, the rational number it stands
for. Every operation computes the exact rational result and then rounds it: `round` goes to the
nearest number of 53 significant bits, a half to the even neighbour, with a smallest step of `2 ^
(-1074)` and with infinity from `2 ^ 1024` on. Negative zero, the infinities and the undefined
number have constructors of their own. As a type, `Double` holds every rational; what was rounded is
`Double.Representable`.

Comparison is by exact value; the undefined number compares as false with everything. -/

namespace HouseStyle

/-- A floating-point number of double precision. Zero with a minus sign is `negZero`. -/
inductive Double where
  | finite (value : Rat)
  | negZero
  | infinite (negative : Bool)
  | nan
deriving DecidableEq

namespace Double

/-! ### Rounding -/

/-- The nearest integer, a half going to the even neighbour. -/
def nearestInt (q : Rat) : Int :=
  let below := q.floor
  let rest := q - below
  if rest < 1 / 2 then below
  else if 1 / 2 < rest then below + 1
  else if below % 2 = 0 then below
  else below + 1

/-- The exponent `e` of a positive `a`, with `2 ^ e ≤ a < 2 ^ (e + 1)`. -/
def binaryExponent (a : Rat) : Int :=
  let k : Int := (a.num.natAbs.log2 : Int) - (a.den.log2 : Int)
  if (2 : Rat) ^ k ≤ a then k else k - 1

/-- The distance between neighbouring numbers around `q`. -/
def step (q : Rat) : Rat := (2 : Rat) ^ max (binaryExponent q.abs - 52) (-1074)

/-- The number nearest to a rational. -/
def round (q : Rat) : Double :=
  if q = 0 then finite 0
  else
    let v := (nearestInt (q / step q) : Rat) * step q
    if (2 : Rat) ^ (1024 : Int) ≤ v then infinite false
    else if v ≤ -(2 : Rat) ^ (1024 : Int) then infinite true
    else if v = 0 then if q < 0 then negZero else finite 0
    else finite v

/-- A rational as a number, unless it is too large for one. -/
def ofRat? (q : Rat) : Option Double :=
  match round q with
  | infinite _ => none
  | x => some x

/-! ### Values and comparison -/

/-- The exact value of a finite number, and zero for the others. -/
def toRat : Double → Rat
  | finite q => q
  | _ => 0

/-- Neither infinite nor undefined. -/
def isFinite : Double → Bool
  | finite _ => true
  | negZero => true
  | _ => false

/-- At most, by exact value. -/
def le : Double → Double → Bool
  | nan, _ => false
  | _, nan => false
  | infinite true, _ => true
  | _, infinite false => true
  | infinite false, _ => false
  | _, infinite true => false
  | x, y => x.toRat ≤ y.toRat

/-- Less, by exact value. -/
def lt (x y : Double) : Bool := le x y && !le y x

/-- The larger of two numbers: the first unless the second exceeds it. -/
def larger (x y : Double) : Double := if lt x y then y else x

/-- The smaller of two numbers: the first unless the second is below it. -/
def smaller (x y : Double) : Double := if lt y x then y else x

/-! ### Arithmetic -/

/-- The same number with the other sign. -/
def neg : Double → Double
  | finite q => if q = 0 then negZero else finite (-q)
  | negZero => finite 0
  | infinite b => infinite !b
  | nan => nan

/-- The number without its sign. -/
def abs : Double → Double
  | finite q => finite q.abs
  | negZero => finite 0
  | infinite _ => infinite false
  | nan => nan

/-- The rounded sum. -/
def add : Double → Double → Double
  | nan, _ => nan
  | _, nan => nan
  | infinite a, infinite b => if a = b then infinite a else nan
  | infinite a, _ => infinite a
  | _, infinite b => infinite b
  | negZero, negZero => negZero
  | x, y => round (x.toRat + y.toRat)

/-- The rounded difference. -/
def sub (x y : Double) : Double := add x (neg y)

/-- The rounded quotient by a positive integer. -/
def divNat (x : Double) (n : Nat) : Double :=
  match x with
  | finite q => round (q / n)
  | y => y

/-- The number rounded to `k` decimal places: of the two neighbours with that many places the nearer
by exact value, a half going to the even one, and then the number nearest to it. -/
def roundPlaces (k : Nat) : Double → Double
  | finite q =>
    match round (nearestInt (q * 10 ^ k) / 10 ^ k) with
    | finite v => if v = 0 ∧ q < 0 then negZero else finite v
    | y => y
  | y => y

/-- The integer part, without the fraction. -/
def truncate (x : Double) : Int := Int.tdiv x.toRat.num x.toRat.den

end Double

end HouseStyle
