import HouseStyle.Number.Shortest
import HouseStyle.Text.Digit

/-! # Reading numbers

A decimal numeral is an optional sign, digits with an optional point among them or at one end, and
an optional exponent; the words `inf`, `infinity` and `nan` stand for the special numbers, in any
case. `ofText?` reads one with blanks around it, with the digits of any script, and with single
underscores between digits. The result is the number nearest to the decimal. -/

namespace HouseStyle.Double

open HouseStyle.Text

/-- The value of a run of decimal digits, read from the left. -/
def digitsValue (ds : Text) : Nat := ds.foldl (fun n c => 10 * n + (c.toNat - 48)) 0

/-- The number nearest to `m * 10 ^ e`. The number of digits tells beforehand when this is far too
large or far too small. -/
def ofDecimal (m : Nat) (e : Int) : Double :=
  if m = 0 then finite 0
  else
    let size := (digitCount m : Int) + e
    if 400 < size then infinite false
    else if size < -400 then finite 0
    else round (m * (10 : Rat) ^ e)

/-- The digits at the start of a text and what follows them. -/
def takeDigits (t : Text) : Text × Text := (t.takeWhile Char.isDigit, t.dropWhile Char.isDigit)

/-- A sign at the start of a text (true for minus) and what follows it. -/
def takeSign : Text → Bool × Text
  | '-' :: t => (true, t)
  | '+' :: t => (false, t)
  | t => (false, t)

/-- The exponent that fills the rest of a numeral: none at all, or a mark, a sign and digits. -/
def readExponent? : Text → Option Int
  | [] => some 0
  | c :: t =>
    if c = 'e' ∨ c = 'E' then
      let s := takeSign t
      let d := takeDigits s.2
      if d.1.isEmpty ∨ !d.2.isEmpty then none
      else some (if s.1 then -(digitsValue d.1 : Int) else digitsValue d.1)
    else none

/-- The number of an unsigned numeral. -/
def readNumeral? (t : Text) : Option Double :=
  let whole := takeDigits t
  let part :=
    match whole.2 with
    | '.' :: r => takeDigits r
    | r => ([], r)
  if whole.1.isEmpty ∧ part.1.isEmpty then none
  else
    (readExponent? part.2).map fun e =>
      ofDecimal (digitsValue (whole.1 ++ part.1)) (e - part.1.length)

/-- The text without its underscores, if each of them stands between two digits; `afterDigit` tells
whether a digit came before. -/
def dropUnderscores? (afterDigit : Bool) : Text → Option Text
  | [] => some []
  | '_' :: c :: t =>
    if afterDigit && c.isDigit then (dropUnderscores? true t).map (c :: ·) else none
  | c :: t => if c = '_' then none else (dropUnderscores? c.isDigit t).map (c :: ·)

/-- A character beyond ASCII as the ASCII character that it counts as: a blank as a space, a digit
as its digit, anything else as a question mark, which no numeral has. -/
def plainChar (c : Char) : Char :=
  if c.toNat < 0x80 then c
  else if isBlank c then ' '
  else
    match digitValue? c with
    | some d => Char.ofNat (48 + d)
    | none => '?'

/-- The blanks that may surround a numeral, once it is in ASCII. -/
def isPlainBlank (c : Char) : Bool := c == ' ' || (0x09 ≤ c.toNat && c.toNat ≤ 0x0d)

/-- The number that a text stands for. -/
def ofText? (t : Text) : Option Double :=
  let plain := ((t.map plainChar).dropWhile isPlainBlank).reverse.dropWhile isPlainBlank
  match dropUnderscores? false plain.reverse with
  | none => none
  | some u =>
    let s := takeSign u
    let word := s.2.map Char.toLower
    let size :=
      if word = ['i', 'n', 'f'] ∨ word = ['i', 'n', 'f', 'i', 'n', 'i', 't', 'y'] then
        some (infinite false)
      else if word = ['n', 'a', 'n'] then some nan
      else readNumeral? s.2
    size.map fun x => if s.1 then x.neg else x

end HouseStyle.Double
