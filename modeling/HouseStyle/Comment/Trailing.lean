import HouseStyle.Comment.Basic
import HouseStyle.Tree.Source

/-! # Trailing comments

A trailing comment stands behind code on its line. Those behind alignable code, with a gap between,
are entries; entries form groups. An entry joins the group before it if it has the group's indent,
follows the group's last entry by one to four rows, and no blank line stands between the two. -/

namespace HouseStyle.Comment

/-- A trailing comment: where it stands, how wide the gap before it is, how long the code up to the
gap and how wide the indent of its line. -/
structure Entry where
  row : Nat
  column : Nat
  gap : Nat
  codeLength : Nat
  indent : Nat
deriving DecidableEq

/-- The most lines between neighbours of a group. -/
def maxLinesBetween : Nat := 3

/-- The entry of a comment node, if it is a trailing comment behind alignable code. -/
def entryOf? (s : Source) (n : Node) : Option Entry :=
  if (lineBody? (s.nodeText n)).isNone then none
  else
    let before := s.beforeNode n
    let code := before.trimRight
    if s.column n < 1 ∨ code.isEmpty then none
    else if before.length - code.length < 1 ∨ !isAlignable code then none
    else
      some ⟨s.row n, s.column n, before.length - code.length, code.length,
        before.length - before.trimLeft.length⟩

/-- The entries of several comment nodes. -/
def entries (s : Source) (comments : List Node) : List Entry := comments.filterMap (entryOf? s)

/-- Whether a blank line stands strictly between two rows. -/
def blankBetween (lines : List Text) (first second : Nat) : Bool :=
  ((lines.take second).drop (first + 1)).any (·.isBlankText)

/-- Whether an entry joins the group that starts with `first` and ends with `last`. -/
def joins (lines : List Text) (first last e : Entry) : Bool :=
  e.indent == first.indent && last.row < e.row && e.row ≤ last.row + 1 + maxLinesBetween &&
    !blankBetween lines last.row e.row

/-- Takes the entries off the front that belong to the group of `first` and `last`: these and the
rest. -/
def takeGroup (lines : List Text) (first last : Entry) : List Entry → List Entry × List Entry
  | [] => ([], [])
  | e :: es =>
    if joins lines first last e then
      let r := takeGroup lines first e es
      (e :: r.1, r.2)
    else ([], e :: es)

theorem length_takeGroup (lines : List Text) (first : Entry) : ∀ (es : List Entry) (last : Entry),
    (takeGroup lines first last es).2.length ≤ es.length
  | [], _ => by simp [takeGroup]
  | e :: es, last => by
    unfold takeGroup
    split
    · have := length_takeGroup lines first es e
      simp; omega
    · simp

/-- The groups of a list of entries, in order. -/
def groups (lines : List Text) : List Entry → List (List Entry)
  | [] => []
  | e :: es =>
    let r := takeGroup lines e e es
    (e :: r.1) :: groups lines r.2
termination_by es => es.length
decreasing_by
  have := length_takeGroup lines e es e
  simp; omega

end HouseStyle.Comment
