import HouseStyle.Text.Basic

/-! # UTF-8

Texts as byte sequences and back. `encode` writes one to four bytes per character. Reading takes the
longest start of the bytes that is, or could have become, one character: `decode?` refuses bytes
that are no character, `decode` puts the replacement character in the place of each such piece. -/

namespace HouseStyle.Text

/-- The bytes of a text. -/
def encode (t : Text) : List UInt8 := t.flatMap String.utf8EncodeChar

/-- How many bytes a text takes. -/
def byteLength (t : Text) : Nat := (t.map Char.utf8Size).foldr (· + ·) 0

/-- The number of bytes that follow a first byte, with the range that the byte right after it must
lie in; none if no character starts with that byte. -/
def leadByte? (b : Nat) : Option (Nat × Nat × Nat) :=
  if b < 0x80 then some (0, 0x80, 0xbf)
  else if 0xc2 ≤ b ∧ b ≤ 0xdf then some (1, 0x80, 0xbf)
  else if b = 0xe0 then some (2, 0xa0, 0xbf)
  else if b = 0xed then some (2, 0x80, 0x9f)
  else if 0xe1 ≤ b ∧ b ≤ 0xef then some (2, 0x80, 0xbf)
  else if b = 0xf0 then some (3, 0x90, 0xbf)
  else if 0xf1 ≤ b ∧ b ≤ 0xf3 then some (3, 0x80, 0xbf)
  else if b = 0xf4 then some (3, 0x80, 0x8f)
  else none

/-- The bits of a first byte that belong to the code point, when `n` bytes follow it. -/
def leadBits (b n : Nat) : Nat :=
  match n with
  | 0 => b
  | 1 => b % 32
  | 2 => b % 16
  | _ => b % 8

/-- Reads `n` more bytes of a character, the next of which lies between `lo` and `hi`. It gives the
code point, if all are there, and the number of bytes taken. -/
def continueChar (n lo hi code : Nat) : List UInt8 → Option Nat × Nat
  | [] => (if n = 0 then some code else none, 0)
  | b :: bs =>
    match n with
    | 0 => (some code, 0)
    | m + 1 =>
      if lo ≤ b.toNat ∧ b.toNat ≤ hi then
        let r := continueChar m 0x80 0xbf (code * 64 + b.toNat % 64) bs
        (r.1, r.2 + 1)
      else (none, 0)

/-- The character at the start of the bytes `b :: bs`, if there is one, and how many of `bs` belong
to it. -/
def readChar (b : UInt8) (bs : List UInt8) : Option Char × Nat :=
  match leadByte? b.toNat with
  | none => (none, 0)
  | some (n, lo, hi) =>
    let r := continueChar n lo hi (leadBits b.toNat n) bs
    (r.1.map Char.ofNat, r.2)

/-- The text that bytes stand for; a piece that is no character becomes the replacement character.
-/
def decode : List UInt8 → Text
  | [] => []
  | b :: bs =>
    let r := readChar b bs
    r.1.getD (Char.ofNat 0xfffd) :: decode (bs.drop r.2)
termination_by bs => bs.length
decreasing_by simp only [List.length_drop, List.length_cons]; omega

/-- The text that bytes stand for, if every piece is a character. -/
def decode? : List UInt8 → Option Text
  | [] => some []
  | b :: bs =>
    let r := readChar b bs
    match r.1 with
    | none => none
    | some c => (decode? (bs.drop r.2)).map (c :: ·)
termination_by bs => bs.length
decreasing_by simp only [List.length_drop, List.length_cons]; omega

end HouseStyle.Text
