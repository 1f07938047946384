import HouseStyle.Text.Blank

/-! # Texts

A text is the list of its characters, so that every offset, column and length counts characters.
This module holds the operations that the rest of the library reads texts with: slices, lines,
searches and the removal of blank characters at the ends.

`lines` cuts at the line feed alone and always gives at least one line; `joinLines` is its inverse.
-/

namespace HouseStyle

/-- A text, as the list of its characters. -/
abbrev Text := List Char

namespace Text

/-! ### Slices -/

/-- The characters from offset `a` up to, and without, offset `b`. -/
def slice (t : Text) (a b : Nat) : Text := (t.drop a).take (b - a)

/-- Everything but the first and the last character. -/
def inner (t : Text) : Text := t.tail.dropLast

/-! ### Lines -/

/-- The parts of a text between occurrences of a separator. -/
def parts (sep : Char) : Text → List Text
  | [] => [[]]
  | c :: cs =>
    if c = sep then [] :: parts sep cs
    else
      match parts sep cs with
      | [] => [[c]]
      | p :: ps => (c :: p) :: ps

/-- The lines of a text: its parts between line feeds. -/
def lines (t : Text) : List Text := parts '\n' t

/-- Lines put together again, a line feed between neighbours. -/
def joinLines (ls : List Text) : Text := ['\n'].intercalate ls

/-- The part of a text after its last line feed. -/
def lastLine (t : Text) : Text := (t.reverse.takeWhile (· ≠ '\n')).reverse

/-- Every line ending, be it a line feed, a carriage return or both, as one line feed. -/
def unifyNewlines : Text → Text
  | [] => []
  | '\r' :: '\n' :: cs => '\n' :: unifyNewlines cs
  | c :: cs => (if c = '\r' then '\n' else c) :: unifyNewlines cs

/-! ### Searches -/

/-- Where `p` first occurs in a text. -/
def indexOf? (p : Text) : Text → Option Nat
  | [] => if p.isEmpty then some 0 else none
  | c :: cs => if p.isPrefixOf (c :: cs) then some 0 else (indexOf? p cs).map (· + 1)

/-- Whether `p` occurs in a text. -/
def has (t p : Text) : Bool := (indexOf? p t).isSome

/-- Whether a comment opens somewhere in a text, by its first two characters. -/
def hasCommentMark (t : Text) : Bool := t.has ['/', '/'] || t.has ['/', '*']

/-- A text cut at the last occurrence of a separator: what stands before it and what after it. -/
def cutLast? (sep : Char) (t : Text) : Option (Text × Text) :=
  if t.contains sep then
    let after := (t.reverse.takeWhile (· ≠ sep)).reverse
    some (t.take (t.length - after.length - 1), after)
  else none

/-! ### Blank ends -/

/-- The text without its leading blanks. -/
def trimLeft (t : Text) : Text := t.dropWhile isBlank

/-- The text without its trailing blanks. -/
def trimRight (t : Text) : Text := (t.reverse.dropWhile isBlank).reverse

/-- The text without blanks at either end. -/
def trim (t : Text) : Text := trimRight (trimLeft t)

/-- Whether a text holds nothing but blanks. -/
def isBlankText (t : Text) : Bool := t.all isBlank

/-- The leading spaces and tabs. -/
def indentOf (t : Text) : Text := t.takeWhile isIndentChar

/-- What follows the leading spaces and tabs. -/
def afterIndent (t : Text) : Text := t.dropWhile isIndentChar

/-- One step of the cut into words: a blank closes the word that is open. -/
def wordStep (c : Char) (ws : Bool × List Text) : Bool × List Text :=
  if isBlank c then (false, ws.2)
  else
    match ws with
    | (true, w :: rest) => (true, (c :: w) :: rest)
    | (_, rest) => (true, [c] :: rest)

/-- The maximal runs of characters that are not blank. -/
def words (t : Text) : List Text := (t.foldr wordStep (false, [])).2

/-! ### Character tables -/

/-- Whether the code point of a character lies in one of the inclusive ranges. -/
def inRanges (table : List (Nat × Nat)) (c : Char) : Bool :=
  table.any fun r => r.1 ≤ c.toNat && c.toNat ≤ r.2

end Text

end HouseStyle
