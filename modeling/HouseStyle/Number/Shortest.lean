import HouseStyle.Number.Double

/-! # Shortest decimals

The decimal of a number is the one with the fewest significant digits that reads back as that
number, and of those the nearest to it. For each count of digits the two neighbours on the decimal
grid are tried; seventeen digits always suffice.

`Double.text` writes it: positionally, and with at least one digit after the point, when the
exponent of the first digit lies between -4 and 15, and otherwise with a signed exponent of at least
two digits. -/

namespace HouseStyle.Double

/-- The decimal `digits * 10 ^ scale`. -/
structure Decimal where
  digits : Nat
  scale : Int
deriving DecidableEq

/-- The value of a decimal. -/
def Decimal.value (d : Decimal) : Rat := d.digits * (10 : Rat) ^ d.scale

/-- How many decimal digits a number has. -/
def digitCount (n : Nat) : Nat := (Nat.toDigits 10 n).length

/-- The exponent `e` of a positive `a`, with `10 ^ e ≤ a < 10 ^ (e + 1)`. -/
def decimalExponent (a : Rat) : Int :=
  let k : Int := (digitCount a.num.natAbs : Int) - (digitCount a.den : Int)
  if (10 : Rat) ^ k ≤ a then k else k - 1

/-- Whether a decimal reads back as the number of value `a`. -/
def readsBack (a : Rat) (d : Decimal) : Bool := round d.value = finite a

/-- Of the two neighbours of `a` with the given scale, the one that reads back, the nearer if both
do, and the even one if both are as near. -/
def neighbour? (a : Rat) (scale : Int) : Option Decimal :=
  let low : Decimal := ⟨(a / (10 : Rat) ^ scale).floor.toNat, scale⟩
  let high : Decimal := ⟨low.digits + 1, scale⟩
  if readsBack a low then
    if readsBack a high then
      let below := a - low.value
      let above := high.value - a
      if below < above then some low
      else if above < below then some high
      else if low.digits % 2 = 0 then some low
      else some high
    else some low
  else if readsBack a high then some high
  else none

/-- The decimal without trailing zeros among its digits; `fuel` bounds their number. -/
def Decimal.stripZeros : Nat → Decimal → Decimal
  | 0, d => d
  | fuel + 1, d =>
    if d.digits ≠ 0 ∧ d.digits % 10 = 0 then stripZeros fuel ⟨d.digits / 10, d.scale + 1⟩ else d

/-- The shortest decimal of a positive value. -/
def shortest (a : Rat) : Decimal :=
  let e := decimalExponent a
  let found := (List.range 17).findSome? fun (k : Nat) => neighbour? a (e - k)
  (found.getD ⟨0, 0⟩).stripZeros 20

/-- An integer with a sign and at least two digits. -/
def signedExponent (e : Int) : String :=
  let ds := String.ofList (Nat.toDigits 10 e.natAbs)
  (if e < 0 then "-" else "+") ++ (if e.natAbs < 10 then "0" ++ ds else ds)

/-- A run of zeros. -/
def zeroRun (n : Nat) : List Char := List.replicate n '0'

/-- A positive decimal as text. -/
def Decimal.text (d : Decimal) : String :=
  let ds := Nat.toDigits 10 d.digits
  let e : Int := ds.length - 1 + d.scale
  if e < -4 ∨ 16 ≤ e then
    let tail := ds.tail
    String.ofList (ds.take 1) ++ (if tail.isEmpty then "" else "." ++ String.ofList tail) ++ "e" ++
      signedExponent e
  else if 0 ≤ d.scale then String.ofList (ds ++ zeroRun d.scale.toNat) ++ ".0"
  else if 0 ≤ e then
    String.ofList (ds.take (e.toNat + 1)) ++ "." ++ String.ofList (ds.drop (e.toNat + 1))
  else "0." ++ String.ofList (zeroRun (-e - 1).toNat ++ ds)

/-- A number as text. -/
def text : Double → String
  | finite q =>
    if q = 0 then "0.0"
    else if q < 0 then "-" ++ (shortest (-q)).text
    else (shortest q).text
  | negZero => "-0.0"
  | infinite negative => if negative then "-inf" else "inf"
  | nan => "nan"

end HouseStyle.Double
