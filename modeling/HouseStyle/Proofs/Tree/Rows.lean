import HouseStyle.Proofs.Text.Reindented
import HouseStyle.Proofs.Tree.LineFeeds

/-! # Rows and columns

A row and a column lead to an offset by way of the start of the row. This module puts the three
together: in front of a row the text stops at the start of a line and has as many line feeds as the
row says (`take_lineStart`), what stands before a node on its line is the last line of the text
before the node (`beforeNode_eq_lastLine`), and an offset on an earlier row comes before the start
of a later one (`lt_lineStart`).

The main statement is `positions_agree`: both ends of a node lie where their rows and columns say
(`PlacedAt`), and the rows count the line feeds among the bytes before them. An end is dealt with
like a start, since another node could start there (`placedAt_stop`). -/

namespace HouseStyle.Source

open HouseStyle.Text

variable (s : Source)

/-! ### Starts of lines -/

theorem row_lt_length_lines (n : Node) : s.row n < s.lines.length := by
  have hle : s.row n ≤ s.text.count '\n' := (List.take_sublist _ _).count_le _
  have hlen : s.lines.length = s.text.count '\n' + 1 := length_lines s.text
  omega

theorem lineStart_zero : s.lineStart 0 = 0 := by
  obtain ⟨l, ls, hl⟩ := List.exists_cons_of_ne_nil (lines_ne_nil s.text)
  rw [lineStart, lineStarts, hl]
  rfl

theorem line_mem {row : Nat} (h : row < s.lines.length) : s.line row ∈ s.lines := by
  rw [line, List.getD_eq_getElem?_getD, List.getElem?_eq_getElem h]
  exact List.getElem_mem h

/-- **In front of a row** the text stops at the start of a line, and has one line feed for every
row. -/
theorem take_lineStart : ∀ row : Nat, row < s.lines.length →
    EndsAtLineStart (s.text.take (s.lineStart row)) ∧
      (s.text.take (s.lineStart row)).count '\n' = row
  | 0, _ => by
    rw [lineStart_zero]
    exact ⟨Or.inl rfl, rfl⟩
  | row + 1, h => by
    obtain ⟨-, hcount⟩ := take_lineStart row (by omega)
    obtain ⟨hnext, hnl⟩ := s.newline_after_line h
    have hline : '\n' ∉ s.line row := newline_notMem_of_mem_lines (s.line_mem (by omega))
    have htake : s.text.take (s.lineStart (row + 1)) =
        s.text.take (s.lineStart row) ++ s.line row ++ ['\n'] := by
      rw [hnext, ← take_append_slice s.text (Nat.le_succ _), slice_succ hnl,
        ← take_append_slice s.text (Nat.le_add_right (s.lineStart row) _), s.line_eq_slice]
    rw [htake]
    refine ⟨Or.inr ⟨_, rfl⟩, ?_⟩
    rw [List.count_append, List.count_append, hcount, List.count_eq_zero.mpr hline]
    rfl

theorem lineStart_le_length (row : Nat) : s.lineStart row ≤ s.text.length := by
  have := (s.line_spec row).1
  omega

theorem newline_before_lineStart {row : Nat} (hrow : row < s.lines.length)
    (hpos : 0 < s.lineStart row) :
    s.text[s.lineStart row - 1]? = some '\n' := by
  have hlen := s.lineStart_le_length row
  rcases (s.take_lineStart row hrow).1 with hnil | ⟨b, hb⟩
  · have := congrArg List.length hnil
    simp only [List.length_take, List.length_nil] at this
    omega
  · have hblen := congrArg List.length hb
    simp only [List.length_take, List.length_append, List.length_singleton] at hblen
    have hlast : (s.text.take (s.lineStart row))[s.lineStart row - 1]? = some '\n' := by
      rw [hb, List.getElem?_append_right (by omega),
        show s.lineStart row - 1 - b.length = 0 by omega]
      rfl
    rwa [List.getElem?_take_of_lt (by omega)] at hlast

theorem rowAt_lineStart {row : Nat} (h : row < s.lines.length) :
    s.text.rowAt (s.lineStart row) = row :=
  (s.take_lineStart row h).2

theorem rowAt_mono (t : Text) {a b : Nat} (h : a ≤ b) : t.rowAt a ≤ t.rowAt b := by
  rw [rowAt_add t h]
  omega

theorem lt_lineStart {i : Nat} {n : Node} (h : s.text.rowAt i < s.row n) :
    i < s.lineStart (s.row n) := by
  by_contra hle
  have hmono := rowAt_mono s.text (Nat.le_of_not_lt hle)
  rw [s.rowAt_lineStart (s.row_lt_length_lines n)] at hmono
  exact absurd h (Nat.not_lt.mpr hmono)

/-! ### What stands before a node -/

theorem take_beforeNode (n : Node) :
    s.text.take (s.lineStart (s.row n) + (s.beforeNode n).length) =
      s.text.take (s.lineStart (s.row n)) ++ s.beforeNode n := by
  have hlen : (s.beforeNode n).length ≤ (s.line (s.row n)).length := by
    rw [beforeNode, List.length_take]
    omega
  have hbefore : s.beforeNode n = (s.line (s.row n)).take (s.beforeNode n).length := by
    rw [beforeNode, List.length_take, ← List.take_eq_take_min]
  rw [← take_append_slice s.text (Nat.le_add_right _ _), s.take_line_eq_slice _ hlen, ← hbefore]

theorem newline_notMem_beforeNode (n : Node) : '\n' ∉ s.beforeNode n := fun h =>
  newline_notMem_of_mem_lines (s.line_mem (s.row_lt_length_lines n)) (List.mem_of_mem_take h)

theorem column_eq_length {n : Node} (h : s.start n ≤ s.text.length) :
    s.column n = (s.beforeNode n).length := by
  have h1 := lineStart_add_column h
  have h2 := length_beforeNode h
  omega

theorem take_start {n : Node} (h : s.start n ≤ s.text.length) :
    s.text.take (s.start n) = s.text.take (s.lineStart (s.row n)) ++ s.beforeNode n := by
  rw [← s.take_beforeNode n, length_beforeNode h]

theorem beforeNode_eq_lastLine {n : Node} (h : s.start n ≤ s.text.length) :
    s.beforeNode n = lastLine (s.text.take (s.start n)) := by
  obtain ⟨hstart, -⟩ := s.take_lineStart _ (s.row_lt_length_lines n)
  rw [s.take_start h, hstart.lastLine_append (s.newline_notMem_beforeNode n)]

/-! ### Positions -/

/-- **What a row and a column say of an offset.** There is such a row, and its line reaches up to
the column; as many characters behind the start of the row lies the offset; and the line up to the
column is what the text has between the last line feed before the offset, or its own start, and the
offset. -/
structure PlacedAt (row column offset : Nat) : Prop where
  row_lt : row < s.lines.length
  column_le : column ≤ (s.line row).length
  lineStart_add : s.lineStart row + column = offset
  before : (s.line row).take column = lastLine (s.text.take offset)

variable {s} {n : Node}

theorem placedAt_start (h : s.start n ≤ s.text.length) :
    s.PlacedAt (s.row n) (s.column n) (s.start n) := by
  obtain ⟨hrow, -, hline⟩ := start_on_line h
  have hcolumn := lineStart_add_column h
  exact ⟨hrow, by omega, hcolumn, s.beforeNode_eq_lastLine h⟩

theorem placedAt_stop (h : s.stop n ≤ s.text.length) :
    s.PlacedAt (s.endRow n) (s.endColumn n) (s.stop n) :=
  placedAt_start (n := { n with start := n.stop }) h

/-- **Rows, columns and offsets agree.** Let the range of a node lie on character boundaries. Then
its rows are the numbers of line feeds among the bytes before its start and before its end, and both
ends lie where their rows and columns say. The lines joined by line feeds are the text, and every
line is the slice of its length at its start. -/
theorem positions_agree (s : Source) {n : Node} (hstart : s.text.IsBoundary n.start)
    (hstop : s.text.IsBoundary n.stop) :
    s.row n = (s.text.encode.take n.start).count newlineByte ∧
    s.PlacedAt (s.row n) (s.column n) (s.start n) ∧
    s.endRow n = (s.text.encode.take n.stop).count newlineByte ∧
    s.PlacedAt (s.endRow n) (s.endColumn n) (s.stop n) ∧
    joinLines s.lines = s.text ∧
    ∀ row, s.text.slice (s.lineStart row) (s.lineStart row + (s.line row).length) = s.line row := by
  refine ⟨rowAt_charOffset s.text n.start, placedAt_start ?_, rowAt_charOffset s.text n.stop,
    placedAt_stop ?_, joinLines_lines s.text, s.line_eq_slice⟩
  · exact charOffset_le_of_boundary hstart
  · exact charOffset_le_of_boundary hstop

/-- Three lines, the second of them empty, with characters of two and of four bytes. -/
def threeLines : Source := ⟨['é', '\n', '\n', '😀', 'x'], Node.token 0 "" 2 8, false⟩

/-- A node from the end of the first line over the empty one to the middle of the third. -/
theorem positions_agree_threeLines :
    threeLines.text.IsBoundary 2 ∧ threeLines.text.IsBoundary 8 ∧
      threeLines.PlacedAt 0 1 1 ∧ threeLines.PlacedAt 2 1 4 ∧ threeLines.line 1 = [] ∧
      threeLines.text.slice (threeLines.lineStart 2) (threeLines.lineStart 2 + 2) =
        threeLines.line 2 := by
  have hstart : threeLines.text.IsBoundary 2 := by decide
  have hstop : threeLines.text.IsBoundary 8 := by decide
  obtain ⟨-, hfirst, -, hlast, -, hlines⟩ :=
    positions_agree threeLines (n := threeLines.root) hstart hstop
  exact ⟨hstart, hstop, hfirst, hlast, by decide, hlines 2⟩

end HouseStyle.Source
