import HouseStyle.Proofs.Restyle.WithinLines
import Mathlib.Data.List.GetD

/-! # Indents replaced line by line

A replacement of the spaces and tabs in front of a line by others (`Reindents`) is a change of that
line and of no other one (`lines_change`). Replacements of this kind that are carried out together
belong to different lines, so the result is known line by line: a line in front of which blanks were
replaced is the new blanks and what followed the old ones (`line_of_taken`), and every other line is
as it was (`line_of_not_taken`). -/

namespace HouseStyle

open HouseStyle.Text

namespace Text

theorem indentOf_append_afterIndent (t : Text) : t.indentOf ++ t.afterIndent = t :=
  List.takeWhile_append_dropWhile

theorem afterIndent_append {b : Text} (hb : ∀ c ∈ b, isIndentChar c = true) (t : Text) :
    afterIndent (b ++ t) = afterIndent t := List.dropWhile_append_of_pos hb

theorem afterIndent_afterIndent (t : Text) : t.afterIndent.afterIndent = t.afterIndent := by
  have hindent : ∀ c ∈ t.indentOf, isIndentChar c = true := fun c hc => List.mem_takeWhile_imp hc
  rw [← afterIndent_append hindent t.afterIndent, indentOf_append_afterIndent]

/-- **Other characters at the start of a line** change that line only. -/
theorem lines_change {a b b' : Text} (ha : a.EndsAtLineStart) (hb : '\n' ∉ b) (hb' : '\n' ∉ b')
    (w : Text) :
    ∃ before l behind, before.length = a.count '\n' ∧
      lines (a ++ b ++ w) = before ++ (b ++ l) :: behind ∧
      lines (a ++ b' ++ w) = before ++ (b' ++ l) :: behind := by
  obtain ⟨before, hlen, hlines⟩ := ha.exists_lines
  obtain ⟨l, behind, hl, hbl⟩ := lines_append_of_notMem hb w
  obtain ⟨l', behind', hl', hbl'⟩ := lines_append_of_notMem hb' w
  rw [hl, List.cons.injEq] at hl'
  refine ⟨before, l, behind, hlen, ?_, ?_⟩
  · rw [List.append_assoc, hlines, hbl]
  · rw [List.append_assoc, hlines, hbl', ← hl'.1, ← hl'.2]

theorem getD_middle (before behind : List Text) (l : Text) :
    (before ++ l :: behind).getD before.length [] = l := by
  rw [List.getD_append_right _ _ _ _ le_rfl, Nat.sub_self, List.getD_cons_zero]

theorem getD_middle_of_ne {before behind : List Text} {i : Nat} (hi : i ≠ before.length)
    (l l' : Text) :
    (before ++ l :: behind).getD i [] = (before ++ l' :: behind).getD i [] := by
  rcases Nat.lt_or_ge i before.length with hlt | hge
  · rw [List.getD_append _ _ _ _ hlt, List.getD_append _ _ _ _ hlt]
  · obtain ⟨k, hk⟩ : ∃ k, i - before.length = k + 1 := ⟨i - before.length - 1, by omega⟩
    rw [List.getD_append_right _ _ _ _ hge, List.getD_append_right _ _ _ _ hge, hk,
      List.getD_cons_succ, List.getD_cons_succ]

theorem eq_of_lines {t u : Text} (hlen : t.lines.length = u.lines.length)
    (h : ∀ i < u.lines.length, t.lines.getD i [] = u.lines.getD i []) : t = u := by
  have hlines : t.lines = u.lines := by
    refine List.ext_getElem hlen fun i hi hi' => ?_
    rw [← List.getD_eq_getElem _ [] hi, ← List.getD_eq_getElem _ [] hi', h i hi']
  rw [← joinLines_lines t, hlines, joinLines_lines]

end Text

namespace Source

variable (s : Source)

theorem newline_notMem_lineIndent (row : Nat) : '\n' ∉ s.lineIndent row := fun h => by
  have := List.mem_takeWhile_imp h
  exact absurd this (by decide)

theorem lineStart_add_lt {i j : Nat} (hij : i < j) (hj : j < s.lines.length) :
    s.lineStart i + (s.line i).length < s.lineStart j := by
  induction j, hij using Nat.le_induction with
  | base =>
    rw [(s.newline_after_line hj).1]
    omega
  | succ j _ ih =>
    have := ih (by omega)
    rw [(s.newline_after_line hj).1]
    omega

theorem length_lineIndent_le (row : Nat) : (s.lineIndent row).length ≤ (s.line row).length :=
  (List.takeWhile_prefix _).length_le

theorem take_lineIndent (row : Nat) :
    s.text.take (s.lineStart row + (s.lineIndent row).length) =
      s.text.take (s.lineStart row) ++ s.lineIndent row := by
  have htake : (s.line row).take (s.lineIndent row).length = s.lineIndent row :=
    (List.prefix_iff_eq_take.mp (List.takeWhile_prefix _)).symm
  rw [← take_append_slice s.text (Nat.le_add_right _ _),
    s.take_line_eq_slice row (s.length_lineIndent_le row), htake]

end Source

namespace Replacement

/-- A replacement of the spaces and tabs in front of a row by others. -/
structure Reindents (s : Source) (row : Nat) (r : Replacement) : Prop where
  row_lt : row < s.lines.length
  start : r.start = s.lineStart row
  stop : r.stop = s.lineStart row + (s.lineIndent row).length
  blank : ∀ c ∈ r.text, isIndentChar c = true

section Reindents
variable {s : Source} {row : Nat} {r : Replacement} (h : r.Reindents s row)
include h

theorem Reindents.replaced : r.replaced s.text = s.lineIndent row := by
  have htake : (s.line row).take (s.lineIndent row).length = s.lineIndent row :=
    (List.prefix_iff_eq_take.mp (List.takeWhile_prefix _)).symm
  have hstop : r.stop.toNat = s.lineStart row + (s.lineIndent row).length := by
    rw [h.stop]
    omega
  rw [Replacement.replaced, h.start, hstop, Int.toNat_natCast,
    s.take_line_eq_slice row (s.length_lineIndent_le row), htake]

theorem Reindents.newline_notMem : '\n' ∉ r.text := fun hc => absurd (h.blank _ hc) (by decide)

theorem Reindents.row_eq {row' : Nat} (h' : r.Reindents s row') : row' = row := by
  have hstart : s.lineStart row' = s.lineStart row := by
    have h1 := h.start
    have h2 := h'.start
    omega
  rw [← s.rowAt_lineStart h'.row_lt, hstart, s.rowAt_lineStart h.row_lt]

theorem Reindents.before {row' : Nat} {r' : Replacement} (h' : r'.Reindents s row')
    (hlt : row < row') :
    r.Before r' := by
  have h1 := h.start
  have h2 := h.stop
  have h3 := h'.start
  have h4 := s.lineStart_add_lt hlt h'.row_lt
  have h5 := s.length_lineIndent_le row
  exact ⟨by omega, by omega⟩

theorem Reindents.beside {n : Node} (hn : s.start n ≤ s.text.length) (hne : row ≠ s.row n) :
    s.Beside n r := by
  have h1 := h.start
  have h2 := h.stop
  have h3 := s.length_lineIndent_le row
  obtain ⟨hrow, -, hstart⟩ := Source.start_on_line hn
  rcases Nat.lt_or_gt_of_ne hne with hlt | hgt
  · have := s.lineStart_add_lt hlt hrow
    exact Or.inl (by omega)
  · have := s.lineStart_add_lt hgt h.row_lt
    exact Or.inr (by omega)

/-- One replacement, with any text behind the cursor: its row gets the new blanks, the other rows
stay. -/
theorem Reindents.lines_put {cursor : Nat} (hcursor : r.stop ≤ cursor) (done : Text) :
    ∃ before l behind, before.length = row ∧
      lines (s.text.take cursor ++ done) = before ++ (s.lineIndent row ++ l) :: behind ∧
      lines (s.text.take r.start.toNat ++ (r.text ++ s.text.slice r.stop.toNat cursor ++ done)) =
        before ++ (r.text ++ l) :: behind := by
  obtain ⟨hends, hcount⟩ := s.take_lineStart row h.row_lt
  obtain ⟨before, l, behind, hlen, hold, hnew⟩ :=
    lines_change hends (s.newline_notMem_lineIndent row)
    h.newline_notMem (s.text.slice r.stop.toNat cursor ++ done)
  have hstop : r.stop.toNat = s.lineStart row + (s.lineIndent row).length := by
    rw [h.stop]
    omega
  refine ⟨before, l, behind, hlen.trans hcount, ?_, ?_⟩
  · rw [← s.take_lineIndent row, ← hstop, ← List.append_assoc,
      take_append_slice s.text (by omega)] at hold
    exact hold
  · rw [h.start, Int.toNat_natCast]
    simpa only [List.append_assoc] using hnew

end Reindents

section Lines
variable {s : Source}

/-- **The lines that `splice` makes**, where the rows of the replacements are still as in the
source. The induction is along the replacements, from the last row to the first: each leaves the
rows of those that follow alone. -/
theorem lines_splice : ∀ (A : List Replacement) (cursor : Nat) (done : Text), Descending A →
    (∀ r ∈ A, r.stop ≤ cursor ∧ ∃ row, r.Reindents s row ∧
      (lines (s.text.take cursor ++ done)).getD row [] = s.line row) →
    (splice s.text cursor done A).lines.length = (lines (s.text.take cursor ++ done)).length ∧
    (∀ row, (∀ r ∈ A, ¬ r.Reindents s row) →
      (splice s.text cursor done A).lines.getD row [] =
        (lines (s.text.take cursor ++ done)).getD row []) ∧
    ∀ r ∈ A, ∀ row, r.Reindents s row →
      (splice s.text cursor done A).lines.getD row [] = r.text ++ (s.line row).afterIndent
  | [], _, _, _, _ => ⟨rfl, fun _ _ => rfl, by simp⟩
  | r :: A, cursor, done, hdesc, h => by
    obtain ⟨hfirst, hrest⟩ := List.pairwise_cons.mp hdesc
    obtain ⟨hcursor, row, hr, hline⟩ := h r List.mem_cons_self
    obtain ⟨before, l, behind, rfl, hold, hnew⟩ := hr.lines_put hcursor done
    have hl : l = (s.line before.length).afterIndent := by
      rw [hold, getD_middle] at hline
      have hboth : s.lineIndent before.length ++ l =
          s.lineIndent before.length ++ (s.line before.length).afterIndent :=
        hline.trans (indentOf_append_afterIndent _).symm
      exact List.append_cancel_left hboth
    -- the rest of the replacements belongs to other rows
    have hrow : ∀ r' ∈ A, ¬ r'.Reindents s before.length := fun r' hr' h' => by
      have h1 := (hfirst r' hr').1
      have h2 := h'.start
      have h3 := hr.start
      omega
    obtain ⟨ih1, ih2, ih3⟩ := lines_splice A r.start.toNat
      (r.text ++ s.text.slice r.stop.toNat cursor ++ done) hrest fun r' hr' => by
        obtain ⟨-, row', h', hline'⟩ := h r' (List.mem_cons_of_mem _ hr')
        have hstop := (hfirst r' hr').2
        have hne : row' ≠ before.length := fun heq => hrow r' hr' (heq ▸ h')
        refine ⟨by omega, row', h', ?_⟩
        rw [hnew, getD_middle_of_ne hne _ (s.lineIndent before.length ++ l), ← hold, hline']
    rw [splice]
    refine ⟨?_, fun i hi => ?_, fun r' hr' i hi => ?_⟩
    · rw [ih1, hnew, hold]
      simp
    · have hne : i ≠ before.length := fun heq => hi r List.mem_cons_self (heq ▸ hr)
      rw [ih2 i fun r' hr' => hi r' (List.mem_cons_of_mem _ hr'), hnew, hold, getD_middle_of_ne hne]
    · rcases List.mem_cons.mp hr' with rfl | hr'
      · obtain rfl := hr.row_eq hi
        rw [ih2 _ hrow, hnew, getD_middle, ← hl]
      · exact ih3 r' hr' i hi

variable {rs : List Replacement} (h : ∀ r ∈ rs, ∃ row, r.Reindents s row)
include h

theorem withinLines_of_reindents : WithinLines s.text (taken s.text rs) := fun r hr => by
  obtain ⟨row, hrow⟩ := h r (isEffective_of_mem_taken hr).1
  rw [hrow.replaced]
  exact ⟨s.newline_notMem_lineIndent row, hrow.newline_notMem⟩

theorem lines_apply :
    (apply s.text rs).lines.length = s.lines.length ∧
    (∀ row, (∀ r ∈ taken s.text rs, ¬ r.Reindents s row) →
      (apply s.text rs).lines.getD row [] = s.line row) ∧
    ∀ r ∈ taken s.text rs, ∀ row, r.Reindents s row →
      (apply s.text rs).lines.getD row [] = r.text ++ (s.line row).afterIndent := by
  have hall := lines_splice (s := s) (taken s.text rs) s.text.length [] (descending_taken s.text rs)
    fun r hr => by
      obtain ⟨row, hrow⟩ := h r (isEffective_of_mem_taken hr).1
      refine ⟨(inRange_taken s.text rs r hr).2.2, row, hrow, ?_⟩
      rw [List.take_length, List.append_nil]
      rfl
  rwa [List.take_length, List.append_nil] at hall

theorem line_of_not_taken {row : Nat} (hrow : ∀ r ∈ taken s.text rs, ¬ r.Reindents s row) :
    (apply s.text rs).lines.getD row [] = s.line row := (lines_apply h).2.1 row hrow

/-- **A row with a replacement** has the new blanks in front of what followed the old ones. -/
theorem line_of_taken {r : Replacement} (hr : r ∈ taken s.text rs) {row : Nat}
    (hrow : r.Reindents s row) :
    (apply s.text rs).lines.getD row [] = r.text ++ (s.line row).afterIndent :=
      (lines_apply h).2.2 r hr row hrow

theorem afterIndent_line (row : Nat) :
    ((apply s.text rs).lines.getD row []).afterIndent = (s.line row).afterIndent := by
  by_cases hrow : ∃ r ∈ taken s.text rs, r.Reindents s row
  · obtain ⟨r, hr, hrow⟩ := hrow
    rw [line_of_taken h hr hrow, afterIndent_append hrow.blank, afterIndent_afterIndent]
  · push Not at hrow
    rw [line_of_not_taken h hrow]

end Lines

end Replacement

end HouseStyle
