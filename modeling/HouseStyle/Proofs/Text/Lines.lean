import HouseStyle.Proofs.Text.Ink
import HouseStyle.Proofs.Text.Parts
import HouseStyle.Tree.Source

/-! # Lines, rows and offsets

`lines` and `lineStarts` describe a text twice: by what its lines say and by where they start. Here
the two are put together. A line is the slice of the text that begins at its start
(`line_eq_slice`), the character behind a line that is not the last is a line feed
(`newline_after_line`), and an offset lies on the line whose number is the count of line feeds
before it (`start_on_line`), so that the part of a line before a node is the slice up to the
node (`beforeNode_eq_slice`).

All of it rests on two inductions along the text: `exists_start_of_line`, about a line, and
`exists_line_of_offset`, about an offset. -/

namespace HouseStyle

namespace Text

theorem slice_cons_succ (c : Char) (t : Text) (a b : Nat) :
    slice (c :: t) (a + 1) (b + 1) = t.slice a b := by
  simp [slice]

theorem rowAt_add (t : Text) {a b : Nat} (h : a ≤ b) :
    t.rowAt b = t.rowAt a + (t.slice a b).count '\n' := by
  rw [rowAt, rowAt, ← take_append_slice t h, List.count_append]

theorem count_slice_add (t : Text) (d : Char) {a b c : Nat} (hab : a ≤ b) (hbc : b ≤ c) :
    (t.slice a c).count d = (t.slice a b).count d + (t.slice b c).count d := by
  rw [← slice_append_slice t hab hbc, List.count_append]

theorem rowAt_cons_succ (c : Char) (t : Text) (i : Nat) :
    rowAt (c :: t) (i + 1) = t.rowAt i + (if c = '\n' then 1 else 0) := by
  simp [rowAt, List.count_cons]

theorem rowAt_zero (t : Text) : t.rowAt 0 = 0 := by simp [rowAt]

/-! ### Lines of a longer text -/

theorem lines_nil : lines [] = [[]] := rfl

theorem lines_newline (t : Text) : lines ('\n' :: t) = [] :: lines t := by simp [lines, parts]

theorem lines_cons {c : Char} (hc : c ≠ '\n') (t : Text) :
    ∃ l ls, lines t = l :: ls ∧ lines (c :: t) = (c :: l) :: ls := parts_cons hc t

theorem lines_ne_nil (t : Text) : t.lines ≠ [] := parts_ne_nil '\n' t

theorem newline_notMem_of_mem_lines {t l : Text} (h : l ∈ t.lines) : '\n' ∉ l :=
  notMem_of_mem_parts h

theorem joinLines_lines (t : Text) : joinLines t.lines = t := intercalate_parts '\n' t

theorem startsFrom_cons (o : Nat) (l : Text) (ls : List Text) :
    startsFrom o (l :: ls) = o :: startsFrom (o + l.length + 1) ls := rfl

/-- **A line in its text**: where it starts, what stands there, and what ends it. -/
theorem exists_start_of_line : ∀ (t : Text) (o r : Nat) (l : Text), t.lines[r]? = some l →
    ∃ b, (startsFrom o t.lines)[r]? = some (o + b) ∧ b + l.length ≤ t.length ∧
      t.slice b (b + l.length) = l ∧ (r + 1 < t.lines.length → t[b + l.length]? = some '\n')
  | [], o, r, l, h => by
    cases r with
    | zero => cases h; exact ⟨0, rfl, le_rfl, rfl, by simp [lines_nil]⟩
    | succ r => simp [lines_nil] at h
  | c :: t, o, r, l, h => by
    by_cases hc : c = '\n'
    · subst hc
      rw [lines_newline] at h ⊢
      cases r with
      | zero => cases h; exact ⟨0, rfl, by simp, by simp [slice], by simp⟩
      | succ r =>
        -- the rest of the text, one character further
        obtain ⟨b, hb, hle, hs, hn⟩ := exists_start_of_line t (o + 1) r l h
        refine ⟨b + 1, ?_, ?_, ?_, fun hr => ?_⟩
        · rw [startsFrom_cons, List.getElem?_cons_succ, List.length_nil, Nat.add_zero, hb]
          congr 1; omega
        · rw [List.length_cons]; omega
        · rw [show b + 1 + l.length = b + l.length + 1 by omega, slice_cons_succ, hs]
        · rw [show b + 1 + l.length = b + l.length + 1 by omega, List.getElem?_cons_succ]
          exact hn (by simpa using hr)
    · obtain ⟨p, ps, hp, hcp⟩ := lines_cons hc t
      rw [hcp] at h ⊢
      cases r with
      | zero =>
        obtain rfl : c :: p = l := by simpa using h
        obtain ⟨b, hb, hle, hs, hn⟩ := exists_start_of_line t (o + 1) 0 p (by rw [hp]; rfl)
        obtain rfl : b = 0 := by
          rw [hp, startsFrom_cons, List.getElem?_cons_zero, Option.some.injEq] at hb
          omega
        simp only [Nat.zero_add] at hle hs hn
        refine ⟨0, rfl, by simp only [List.length_cons]; omega, ?_, fun hr => ?_⟩
        · rw [slice_zero, Nat.zero_add, List.length_cons, List.take_succ_cons, ← slice_zero, hs]
        · rw [Nat.zero_add, List.length_cons, List.getElem?_cons_succ]
          exact hn (by rw [hp]; simpa using hr)
      | succ r =>
        obtain ⟨b, hb, hle, hs, hn⟩ :=
          exists_start_of_line t (o + 1) (r + 1) l (by rw [hp]; simpa using h)
        refine ⟨b + 1, ?_, ?_, ?_, fun hr => ?_⟩
        · rw [hp, startsFrom_cons, List.getElem?_cons_succ] at hb
          rw [startsFrom_cons, List.getElem?_cons_succ, List.length_cons,
            show o + (p.length + 1) + 1 = o + 1 + p.length + 1 by omega, hb]
          congr 1; omega
        · rw [List.length_cons]; omega
        · rw [show b + 1 + l.length = b + l.length + 1 by omega, slice_cons_succ, hs]
        · rw [show b + 1 + l.length = b + l.length + 1 by omega, List.getElem?_cons_succ]
          exact hn (by rw [hp]; simpa using hr)

/-- **An offset in its line**: the row of an offset is there, and its line reaches over the offset.
-/
theorem exists_line_of_offset : ∀ (t : Text) (o i : Nat), i ≤ t.length →
    ∃ l b, t.lines[t.rowAt i]? = some l ∧ (startsFrom o t.lines)[t.rowAt i]? = some (o + b) ∧
      b ≤ i ∧ i ≤ b + l.length
  | t, o, 0, _ => by
    have hr : t.rowAt 0 = 0 := by simp [rowAt]
    obtain ⟨l, ls, ht⟩ := List.exists_cons_of_ne_nil (lines_ne_nil t)
    rw [hr, ht]
    exact ⟨l, 0, rfl, rfl, le_rfl, by omega⟩
  | [], _, i + 1, h => by simp at h
  | c :: t, o, i + 1, h => by
    obtain ⟨l, b, hl, hb, hbi, hil⟩ := exists_line_of_offset t (o + 1) i (by simpa using h)
    rw [rowAt_cons_succ]
    by_cases hc : c = '\n'
    · subst hc
      rw [if_pos rfl, lines_newline]
      refine ⟨l, b + 1, hl, ?_, by omega, by omega⟩
      rw [startsFrom_cons, List.getElem?_cons_succ, List.length_nil, Nat.add_zero, hb]
      congr 1; omega
    · rw [if_neg hc, Nat.add_zero]
      obtain ⟨p, ps, hp, hcp⟩ := lines_cons hc t
      rw [hp] at hl hb
      rw [hcp]
      -- the first line has grown by a character, the others have moved by one
      cases hr : rowAt t i with
      | zero =>
        rw [hr, List.getElem?_cons_zero, Option.some.injEq] at hl
        rw [hr, startsFrom_cons, List.getElem?_cons_zero, Option.some.injEq] at hb
        refine ⟨c :: p, 0, rfl, rfl, by omega, ?_⟩
        rw [List.length_cons, hl]; omega
      | succ r =>
        rw [hr, List.getElem?_cons_succ] at hl
        rw [hr, startsFrom_cons, List.getElem?_cons_succ] at hb
        refine ⟨l, b + 1, hl, ?_, by omega, by omega⟩
        rw [startsFrom_cons, List.getElem?_cons_succ, List.length_cons,
          show o + (p.length + 1) + 1 = o + 1 + p.length + 1 by omega, hb]
        congr 1; omega

theorem startsFrom_succ : ∀ (ls : List Text) (o r b : Nat) (l : Text),
    (startsFrom o ls)[r]? = some b → ls[r]? = some l → r + 1 < ls.length →
      (startsFrom o ls)[r + 1]? = some (b + l.length + 1)
  | [], _, _, _, _, _, h, _ => by simp at h
  | [_], _, r, _, _, _, _, hr => by simp at hr
  | l₁ :: l₂ :: ls, o, 0, b, l, hb, hl, _ => by
    cases hb; cases hl; rfl
  | l₁ :: l₂ :: ls, o, r + 1, b, l, hb, hl, hr =>
    startsFrom_succ (l₂ :: ls) (o + l₁.length + 1) r b l hb hl (by simpa using hr)

end Text

namespace Source

variable (s : Source)

/-! ### Lines of a source -/

/-- The start of a line, its extent, and what stands there; a row that is not there is empty and
lies at the end. -/
theorem line_spec (row : Nat) :
    s.lineStart row + (s.line row).length ≤ s.text.length ∧
      s.text.slice (s.lineStart row) (s.lineStart row + (s.line row).length) = s.line row := by
  cases hl : s.lines[row]? with
  | none =>
    have hline : s.line row = [] := by rw [line, List.getD_eq_getElem?_getD, hl]; rfl
    have hlen : s.text.lines.length ≤ row := List.getElem?_eq_none_iff.mp hl
    have hlen' : s.text.lineStarts.length = s.text.lines.length := by
      rw [Text.lineStarts]
      generalize 0 = o
      induction s.text.lines generalizing o with
      | nil => rfl
      | cons l ls ih => rw [Text.startsFrom_cons, List.length_cons, List.length_cons, ih]
    have hstart : s.lineStart row = s.text.length := by
      rw [lineStart, List.getD_eq_getElem?_getD, List.getElem?_eq_none_iff.mpr (by omega)]; rfl
    rw [hline, hstart, List.length_nil, Nat.add_zero, Text.slice_self]
    exact ⟨le_rfl, rfl⟩
  | some l =>
    obtain ⟨b, hb, hle, hs, -⟩ := Text.exists_start_of_line s.text 0 row l hl
    have hline : s.line row = l := by rw [line, List.getD_eq_getElem?_getD, hl]; rfl
    have hstart : s.lineStart row = b := by
      rw [lineStart, List.getD_eq_getElem?_getD, Text.lineStarts, hb, Nat.zero_add]; rfl
    rw [hline, hstart]
    exact ⟨hle, hs⟩

/-- **A line is the slice at its start.** -/
theorem line_eq_slice (row : Nat) :
    s.text.slice (s.lineStart row) (s.lineStart row + (s.line row).length) = s.line row :=
  (s.line_spec row).2

theorem take_line_eq_slice (row : Nat) {k : Nat} (h : k ≤ (s.line row).length) :
    s.text.slice (s.lineStart row) (s.lineStart row + k) = (s.line row).take k := by
  conv => rhs; rw [← s.line_eq_slice row]
  rw [Text.slice_take (by omega)]

theorem newline_after_line {row : Nat} (h : row + 1 < s.lines.length) :
    s.lineStart (row + 1) = s.lineStart row + (s.line row).length + 1 ∧
      s.text[s.lineStart row + (s.line row).length]? = some '\n' := by
  obtain ⟨l, hl⟩ : ∃ l, s.lines[row]? = some l :=
    ⟨_, List.getElem?_eq_getElem (by omega)⟩
  obtain ⟨b, hb, -, -, hn⟩ := Text.exists_start_of_line s.text 0 row l hl
  have hline : s.line row = l := by rw [line, List.getD_eq_getElem?_getD, hl]; rfl
  have hstart : s.lineStart row = b := by
    rw [lineStart, List.getD_eq_getElem?_getD, Text.lineStarts, hb, Nat.zero_add]; rfl
  rw [hline, hstart]
  refine ⟨?_, hn h⟩
  have hs := Text.startsFrom_succ s.text.lines 0 row (0 + b) l hb hl h
  rw [lineStart, List.getD_eq_getElem?_getD, Text.lineStarts, hs, Nat.zero_add]; rfl

variable {s}

/-! ### Nodes in their lines -/

theorem start_on_line {n : Node} (h : s.start n ≤ s.text.length) :
    s.row n < s.lines.length ∧ s.lineStart (s.row n) ≤ s.start n ∧
      s.start n ≤ s.lineStart (s.row n) + (s.line (s.row n)).length := by
  obtain ⟨l, b, hl, hb, hbi, hil⟩ := Text.exists_line_of_offset s.text 0 (s.start n) h
  have hline : s.line (s.row n) = l := by
    rw [line, List.getD_eq_getElem?_getD, lines, row, hl]; rfl
  have hstart : s.lineStart (s.row n) = b := by
    rw [lineStart, List.getD_eq_getElem?_getD, Text.lineStarts, row, hb, Nat.zero_add]; rfl
  rw [hline, hstart]
  exact ⟨(List.getElem?_eq_some_iff.mp hl).1, hbi, hil⟩

theorem lineStart_add_column {n : Node} (h : s.start n ≤ s.text.length) :
    s.lineStart (s.row n) + s.column n = s.start n := by
  obtain ⟨l, b, -, hb, hbi, -⟩ := Text.exists_line_of_offset s.text 0 (s.start n) h
  have hs : s.text.lineStarts[s.row n]? = some b := by
    rw [Text.lineStarts, row, hb, Nat.zero_add]
  rw [column, columnOn, lineStart, List.getD_eq_getElem?_getD, hs]
  simp only [Option.getD_some]
  omega

/-- **What stands before a node on its line** is the slice from the start of the line to the node.
-/
theorem beforeNode_eq_slice {n : Node} (h : s.start n ≤ s.text.length) :
    s.beforeNode n = s.text.slice (s.lineStart (s.row n)) (s.start n) := by
  obtain ⟨-, h1, h2⟩ := start_on_line h
  have hc := lineStart_add_column h
  rw [beforeNode, ← s.take_line_eq_slice (s.row n) (by omega), hc]

theorem stop_pos_of_isMultiline {n : Node} (h : s.isMultiline n = true) : 1 ≤ s.stop n := by
  by_contra hlt
  have h0 : s.stop n = 0 := by omega
  rw [isMultiline, decide_eq_true_eq, endRow, h0, Text.rowAt_zero] at h
  omega

theorem length_beforeNode {n : Node} (h : s.start n ≤ s.text.length) :
    s.lineStart (s.row n) + (s.beforeNode n).length = s.start n := by
  obtain ⟨-, h1, -⟩ := start_on_line h
  rw [beforeNode_eq_slice h, Text.length_slice h]
  omega

end Source

end HouseStyle
