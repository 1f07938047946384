/-! # Blank characters

The blank characters are the white space of Unicode together with the four information separators
`U+001C` to `U+001F`: 29 characters in all. The zero-width space and the byte-order mark are not
among them. -/

namespace HouseStyle.Text

/-- White space, in the whole of Unicode. -/
def isBlank (c : Char) : Bool :=
  let n := c.toNat
  (0x09 ≤ n && n ≤ 0x0d) || (0x1c ≤ n && n ≤ 0x20) || n == 0x85 || n == 0xa0 || n == 0x1680 ||
    (0x2000 ≤ n && n ≤ 0x200a) || n == 0x2028 || n == 0x2029 || n == 0x202f || n == 0x205f ||
    n == 0x3000

/-- A space or a tab. -/
def isIndentChar (c : Char) : Bool := c == ' ' || c == '\t'

/-- A space or a tab is blank. -/
theorem isBlank_of_isIndentChar {c : Char} (h : isIndentChar c) : isBlank c := by
  simp only [isIndentChar, Bool.or_eq_true, beq_iff_eq] at h
  rcases h with rfl | rfl <;> rfl

end HouseStyle.Text
