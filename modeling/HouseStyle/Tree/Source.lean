import HouseStyle.Text.Utf8
import HouseStyle.Tree.Node

/-! # Sources

A source is a text with its syntax tree. Trees count bytes, texts count characters; `charOffset`
leads from the one to the other, so that a node's range can be cut out of the text. Rows and columns
count from zero; the row of an offset is the number of line feeds before it.

In a text of single-byte characters both counts agree and `charOffset` is the identity. In any other
it reads the list `charIndex`, which gives for every byte the character that the byte belongs to. -/

namespace HouseStyle

namespace Text

/-- For every byte the offset of its character, counted from `i`, and at the end the offset of the
end. -/
def charIndex (i : Nat) : Text → List Nat
  | [] => [i]
  | c :: cs => List.replicate c.utf8Size i ++ charIndex (i + 1) cs

/-- The character offset of a byte offset. -/
def charOffset (t : Text) (b : Nat) : Nat :=
  if t.byteLength = t.length then b else (charIndex 0 t).getD b t.length

/-- The number of line feeds before a character offset. -/
def rowAt (t : Text) (i : Nat) : Nat := (t.take i).count '\n'

/-- Where each of several lines starts, the first at `i`. -/
def startsFrom (i : Nat) : List Text → List Nat
  | [] => []
  | l :: ls => i :: startsFrom (i + l.length + 1) ls

/-- Where each line of a text starts. -/
def lineStarts (t : Text) : List Nat := startsFrom 0 t.lines

end Text

/-- A text with its syntax tree. -/
structure Source where
  text : Text
  root : Node
  hasErrors : Bool

namespace Source

variable (s : Source)

/-! ### Ranges -/

/-- The character offset at which a node starts. -/
def start (n : Node) : Nat := s.text.charOffset n.start

/-- The character offset at which a node ends. -/
def stop (n : Node) : Nat := s.text.charOffset n.stop

/-- The row on which a node starts. -/
def row (n : Node) : Nat := s.text.rowAt (s.start n)

/-- The row on which a node ends. -/
def endRow (n : Node) : Nat := s.text.rowAt (s.stop n)

/-- The distance of an offset from the start of a row, zero for a row that is not there. -/
def columnOn (row offset : Nat) : Nat :=
  match s.text.lineStarts[row]? with
  | some b => offset - b
  | none => 0

/-- The column at which a node starts. -/
def column (n : Node) : Nat := s.columnOn (s.row n) (s.start n)

/-- The column at which a node ends. -/
def endColumn (n : Node) : Nat := s.columnOn (s.endRow n) (s.stop n)

/-- The text of a node: its bytes, decoded. -/
def nodeText (n : Node) : Text := Text.decode ((s.text.encode.take n.stop).drop n.start)

/-- Whether a node reaches over a line ending. -/
def isMultiline (n : Node) : Bool := s.row n < s.endRow n

/-! ### Lines -/

/-- The lines of the text. -/
def lines : List Text := s.text.lines

/-- A line, empty for a row that is not there. -/
def line (row : Nat) : Text := s.lines.getD row []

/-- The spaces and tabs that open a line. -/
def lineIndent (row : Nat) : Text := (s.line row).indentOf

/-- Where a line starts; the end of the text for a row that is not there. -/
def lineStart (row : Nat) : Nat := s.text.lineStarts.getD row s.text.length

/-- The part of a node's first line that stands before the node. -/
def beforeNode (n : Node) : Text := (s.line (s.row n)).take (s.column n)

/-- The text between two nodes. -/
def between (m n : Node) : Text := s.text.slice (s.stop m) (s.start n)

end Source

end HouseStyle
