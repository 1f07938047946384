import HouseStyle.Proofs.Text.Lines
import Mathlib.Data.List.DropRight

/-! # Texts that differ in indents

`Reindented rows t u` says that `u` has the lines of `t` up to the blanks in front of each, and the
very lines of `t` outside some rows. It is a preorder for fixed rows (`Reindented.refl`,
`Reindented.trans`), so it can be followed along a series of changes.

One change of this kind puts blanks in the place of blanks at the start of a line
(`reindented_of_blanks`). What such a change does to the lines is found from two equations: a line
feed separates the lines on its two sides (`lines_append_newline`), and a text without line feed
goes to the first line of what follows it (`lines_append_of_notMem`). -/

namespace HouseStyle.Text

/-! ### Lines of texts put together -/

/-- **A line feed separates lines.** -/
theorem lines_append_newline (a b : Text) : lines (a ++ '\n' :: b) = lines a ++ lines b :=
  parts_append_cons '\n' a b

theorem lines_append_of_notMem {b : Text} (hb : '\n' ∉ b) (w : Text) :
    ∃ l ls, lines w = l :: ls ∧ lines (b ++ w) = (b ++ l) :: ls := by
  induction b with
  | nil =>
    obtain ⟨l, ls, hl⟩ := List.exists_cons_of_ne_nil (lines_ne_nil w)
    exact ⟨l, ls, hl, hl⟩
  | cons c b ih =>
    obtain ⟨l, ls, hl, hbl⟩ := ih fun h => hb (List.mem_cons_of_mem _ h)
    have hc : c ≠ '\n' := fun h => hb (h ▸ List.mem_cons_self)
    obtain ⟨m, ms, hm, hcm⟩ := lines_cons hc (b ++ w)
    rw [hbl, List.cons.injEq] at hm
    refine ⟨l, ls, hl, ?_⟩
    rw [List.cons_append, hcm, ← hm.1, ← hm.2, List.cons_append]

theorem length_lines : ∀ t : Text, t.lines.length = t.count '\n' + 1
  | [] => rfl
  | c :: t => by
    have ih := length_lines t
    by_cases hc : c = '\n'
    · subst hc
      rw [lines_newline, List.length_cons, List.count_cons_self, ih]
    · obtain ⟨l, ls, hl, hcl⟩ := lines_cons hc t
      rw [hl, List.length_cons] at ih
      rw [hcl, List.length_cons, List.count_cons_of_ne (fun h => hc h), ih]

theorem length_le_of_mem_lines : ∀ {t l : Text}, l ∈ t.lines → l.length ≤ t.length
  | [], l, h => by
    rw [lines_nil, List.mem_singleton] at h
    rw [h]
  | c :: t, l, h => by
    rw [List.length_cons]
    by_cases hc : c = '\n'
    · subst hc
      rw [lines_newline] at h
      rcases List.mem_cons.mp h with rfl | h
      · exact Nat.zero_le _
      · have := length_le_of_mem_lines h
        omega
    · obtain ⟨p, ps, hp, hcp⟩ := lines_cons hc t
      rw [hcp] at h
      rcases List.mem_cons.mp h with rfl | h
      · have := length_le_of_mem_lines (t := t) (l := p) (by simp [hp])
        rw [List.length_cons]
        omega
      · have := length_le_of_mem_lines (t := t) (l := l) (by simp [hp, h])
        omega

/-- Whether a text stops at the start of a line: it is empty, or a line feed ends it. -/
def EndsAtLineStart (a : Text) : Prop := a = [] ∨ ∃ b, a = b ++ ['\n']

theorem EndsAtLineStart.exists_lines {a : Text} (ha : a.EndsAtLineStart) :
    ∃ ls : List Text, ls.length = a.count '\n' ∧ ∀ w, lines (a ++ w) = ls ++ lines w := by
  rcases ha with rfl | ⟨b, rfl⟩
  · exact ⟨[], rfl, fun _ => rfl⟩
  · refine ⟨b.lines, ?_, fun w => ?_⟩
    · rw [length_lines, List.count_append]
      rfl
    · rw [List.append_assoc]
      exact lines_append_newline b w

theorem EndsAtLineStart.lastLine_append {a b : Text} (ha : a.EndsAtLineStart) (hb : '\n' ∉ b) :
    lastLine (a ++ b) = b := by
  have htake : ∀ c ∈ b.reverse, decide (c ≠ '\n') = true := fun c hc =>
    decide_eq_true fun heq => hb (heq ▸ List.mem_reverse.mp hc)
  rw [lastLine, List.reverse_append, List.takeWhile_append_of_pos htake]
  rcases ha with rfl | ⟨a, rfl⟩
  · simp
  · simp

theorem lines_filter {p : Char → Bool} (hp : p '\n' = true) : ∀ t : Text,
    lines (t.filter p) = t.lines.map (·.filter p)
  | [] => rfl
  | c :: t => by
    have ih := lines_filter hp t
    by_cases hc : c = '\n'
    · subst hc
      rw [List.filter_cons_of_pos hp, lines_newline, lines_newline, List.map_cons, ih]
      rfl
    · obtain ⟨l, ls, hl, hcl⟩ := lines_cons hc t
      rw [hl, List.map_cons] at ih
      rw [hcl, List.map_cons]
      by_cases hpc : p c = true
      · obtain ⟨l', ls', hl', hcl'⟩ := lines_cons hc (t.filter p)
        rw [ih, List.cons.injEq] at hl'
        rw [List.filter_cons_of_pos hpc, List.filter_cons_of_pos hpc, hcl', ← hl'.1, ← hl'.2]
      · rw [List.filter_cons_of_neg hpc, List.filter_cons_of_neg hpc, ih]

theorem isBlankText_lines (t : Text) :
    t.lines.map isBlankText =
      (lines (t.filter fun c => !isBlank c || c == '\n')).map List.isEmpty := by
  rw [lines_filter (by decide), List.map_map]
  refine List.map_congr_left fun l hl => ?_
  have hink : l.filter (fun c => !isBlank c || c == '\n') = ink l := by
    refine List.filter_congr fun c hc => ?_
    have hne : c ≠ '\n' := fun heq => newline_notMem_of_mem_lines hl (heq ▸ hc)
    simp [hne]
  rw [Function.comp_apply, hink, Bool.eq_iff_iff, List.isEmpty_iff, ink_eq_nil_iff]

/-! ### Blanks in front of lines -/

theorem trimLeft_append_of_blank {b : Text} (hb : b.isBlankText = true) (l : Text) :
    trimLeft (b ++ l) = trimLeft l := by
  unfold trimLeft
  rw [List.dropWhile_append_of_pos fun c hc => List.all_eq_true.mp hb c hc]

theorem trimRight_append_of_blank (t : Text) {b : Text} (hb : b.isBlankText = true) :
    trimRight (t ++ b) = trimRight t := by
  have hrev : ∀ c ∈ b.reverse, isBlank c = true :=
    fun c hc => List.all_eq_true.mp hb c (List.mem_reverse.mp hc)
  rw [trimRight, trimRight, List.reverse_append, List.dropWhile_append_of_pos hrev]

theorem trimRight_trimRight (t : Text) : t.trimRight.trimRight = t.trimRight := by
  have hblank : isBlankText (t.reverse.takeWhile isBlank).reverse = true := by
    refine List.all_eq_true.mpr fun c hc => ?_
    exact List.mem_takeWhile_imp (List.mem_reverse.mp hc)
  have h := trimRight_append_of_blank t.trimRight hblank
  rw [trimRight_append_blanks] at h
  exact h.symm

theorem isBlankText_trimRight {t : Text} (h : t.trimRight ≠ []) :
    t.trimRight.isBlankText = false := by
  refine Bool.eq_false_iff.mpr fun hblank => h ?_
  have hlast := getLast?_trimRight t
  rw [← ink_trimRight, ink_of_blank hblank] at hlast
  exact List.getLast?_eq_none_iff.mp hlast

theorem trimLeft_append_of_solid {t : Text} (h : t.isBlankText = false) (u : Text) :
    trimLeft (t ++ u) = trimLeft t ++ u := by
  have hsolid : t.dropWhile isBlank ≠ [] := fun hnil => by
    rw [isBlankText, List.all_eq_false] at h
    obtain ⟨c, hc, hno⟩ := h
    exact hno (List.dropWhile_eq_nil_iff.mp hnil c hc)
  rw [trimLeft, trimLeft, List.dropWhile_append, if_neg (by simpa using hsolid)]

theorem trim_trim (t : Text) : t.trim.trim = t.trim := by
  have hleft : trimLeft t.trim = t.trim := by
    by_cases hnil : t.trim = []
    · rw [hnil]
      rfl
    · -- the blanks behind a text without its first blanks play no part in front
      have h :=
        trimLeft_append_of_solid (isBlankText_trimRight hnil)
          (t.trimLeft.reverse.takeWhile isBlank).reverse
      rw [trimRight_append_blanks, trimLeft, trimLeft, List.dropWhile_idempotent] at h
      exact (List.append_cancel_right ((trimRight_append_blanks t.trimLeft).trans h)).symm
  rw [trim, hleft, trim, trimRight_trimRight]

theorem trim_eq_nil_iff {t : Text} : t.trim = [] ↔ t.isBlankText = true := by
  rw [← ink_eq_nil_iff, ← ink_trim]
  constructor
  · intro h
    rw [h, ink_nil]
  · intro h
    by_contra hne
    have hsolid : isBlankText t.trim = false := isBlankText_trimRight hne
    rw [ink_eq_nil_iff.mp h] at hsolid
    cases hsolid

/-- The same lines up to the blanks in front of them, and the very same outside some rows. -/
structure Reindented (rows : Nat → Prop) (t u : Text) : Prop where
  trimmed : u.lines.map trimLeft = t.lines.map trimLeft
  kept : ∀ i, ¬ rows i → u.lines[i]? = t.lines[i]?

namespace Reindented

variable {rows : Nat → Prop} {t u v : Text}

theorem refl (rows : Nat → Prop) (t : Text) : Reindented rows t t := ⟨rfl, fun _ _ => rfl⟩

theorem trans (h : Reindented rows t u) (h' : Reindented rows u v) : Reindented rows t v where
  trimmed := h'.trimmed.trans h.trimmed
  kept i hi := (h'.kept i hi).trans (h.kept i hi)

theorem mono {rows' : Nat → Prop} (hsub : ∀ i, rows i → rows' i) (h : Reindented rows t u) :
    Reindented rows' t u where
  trimmed := h.trimmed
  kept i hi := h.kept i fun hr => hi (hsub i hr)

theorem length_eq (h : Reindented rows t u) : u.lines.length = t.lines.length := by
  have := congrArg List.length h.trimmed
  rwa [List.length_map, List.length_map] at this

theorem trimLeft_line (h : Reindented rows t u) (i : Nat) :
    (u.lines.getD i []).trimLeft = (t.lines.getD i []).trimLeft := by
  have hi := congrArg (fun ls : List Text => ls[i]?) h.trimmed
  simp only [List.getElem?_map] at hi
  rw [List.getD_eq_getElem?_getD, List.getD_eq_getElem?_getD]
  cases hu : u.lines[i]? <;> cases ht : t.lines[i]? <;> simp_all

theorem line_eq (h : Reindented rows t u) {i : Nat} (hi : ¬ rows i) :
    u.lines.getD i [] = t.lines.getD i [] := by
  rw [List.getD_eq_getElem?_getD, List.getD_eq_getElem?_getD, h.kept i hi]

end Reindented

/-- **Blanks in the place of blanks at the start of a line** change that line only. -/
theorem reindented_of_blanks {a b b' : Text} (ha : a.EndsAtLineStart) (hb : b.isBlankText = true)
    (hbn : '\n' ∉ b) (hb' : b'.isBlankText = true) (hbn' : '\n' ∉ b') (w : Text) :
    Reindented (· = a.count '\n') (a ++ b ++ w) (a ++ b' ++ w) := by
  obtain ⟨before, hlen, hlines⟩ := ha.exists_lines
  obtain ⟨l, ls, hl, hbl⟩ := lines_append_of_notMem hbn w
  obtain ⟨l', ls', hl', hbl'⟩ := lines_append_of_notMem hbn' w
  obtain ⟨rfl, rfl⟩ : l' = l ∧ ls' = ls := by
    rw [hl, List.cons.injEq] at hl'
    exact ⟨hl'.1.symm, hl'.2.symm⟩
  refine ⟨?_, fun i hi => ?_⟩
  · rw [List.append_assoc, List.append_assoc, hlines, hlines, hbl, hbl', List.map_append,
      List.map_append, List.map_cons, List.map_cons, trimLeft_append_of_blank hb,
      trimLeft_append_of_blank hb']
  · rw [List.append_assoc, List.append_assoc, hlines, hlines, hbl, hbl']
    -- a row before the changed line, or one behind it
    rcases Nat.lt_or_ge i before.length with hlt | hge
    · rw [List.getElem?_append_left hlt, List.getElem?_append_left hlt]
    · obtain ⟨k, hk⟩ : ∃ k, i - before.length = k + 1 := ⟨i - before.length - 1, by omega⟩
      rw [List.getElem?_append_right hge, List.getElem?_append_right hge, hk,
        List.getElem?_cons_succ, List.getElem?_cons_succ]

end HouseStyle.Text
