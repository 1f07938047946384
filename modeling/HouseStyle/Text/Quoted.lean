import HouseStyle.Text.Printable

/-! # Quoted texts

A text as it is shown inside a message: between single quotes, or between double quotes if it holds
a single quote and no double one. The quote in use and the backslash are escaped, and so is
everything that is not printable: `\n`, `\r` and `\t` by their letters, anything else by its code
point in two, four or eight hexadecimal digits. -/

namespace HouseStyle.Text

/-- The lower-case hexadecimal digits of a number, padded with zeros to a given width. -/
def hexDigits (width n : Nat) : Text :=
  let ds := Nat.toDigits 16 n
  List.replicate (width - ds.length) '0' ++ ds

/-- The quote a text is shown in. -/
def quoteFor (t : Text) : Char := if t.contains '\x27' && !t.contains '\x22' then '\x22' else '\x27'

/-- One character between two quotes `q`. -/
def quotedChar (q c : Char) : Text :=
  if c = q ∨ c = '\\' then ['\\', c]
  else if c = '\n' then ['\\', 'n']
  else if c = '\r' then ['\\', 'r']
  else if c = '\t' then ['\\', 't']
  else if isPrintable c then [c]
  else if c.toNat < 0x100 then '\\' :: 'x' :: hexDigits 2 c.toNat
  else if c.toNat < 0x10000 then '\\' :: 'u' :: hexDigits 4 c.toNat
  else '\\' :: 'U' :: hexDigits 8 c.toNat

/-- A text as shown in a message. -/
def quoted (t : Text) : Text :=
  let q := quoteFor t
  q :: t.flatMap (quotedChar q) ++ [q]

end HouseStyle.Text
