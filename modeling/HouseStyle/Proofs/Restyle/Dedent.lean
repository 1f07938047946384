import HouseStyle.Edit.Indent
import HouseStyle.Proofs.Text.Lines
import HouseStyle.Restyle.CallArguments
import Mathlib.Data.List.Induction

/-! # Taking indents off

Taking off indents reads a text from left to right and carries one number, how much the present line
may still lose. Line by line, each loses what `Indent.dedent` takes off a text
(`lines_dedentLines`).

The number behind a text, its `allowance`, is a fold, so the result can be found piece by piece
(`dedentLines_append`). It is positive exactly if the text ends inside the indent of a line, fewer
than `count` characters behind the line feed (`allowance_pos_iff`). Nothing is lost exactly if no
space and no tab of the text stands at such a place (`dedentLines_eq_self_iff`), and nothing but
blanks ever is (`ink_dedentLines`). -/

namespace HouseStyle.CallArguments

open HouseStyle.Text

/-- How much a line may still lose behind one more character. -/
def afterChar (count left : Nat) (c : Char) : Nat :=
  if c = '\n' then count else if isIndentChar c then left - 1 else 0

/-- How much the last line may still lose behind a text, of the `left` that the first could. -/
def allowance (count left : Nat) (t : Text) : Nat := t.foldl (afterChar count) left

/-- Whether a text ends inside the indent of a line other than the first, fewer than `count`
characters behind the line feed. -/
def InIndent (count : Nat) (t : Text) : Prop :=
  ∃ u v, t = u ++ '\n' :: v ∧ v.all isIndentChar = true ∧ v.length < count

variable {count : Nat}

theorem dedentLines_cons (left : Nat) (c : Char) (t : Text) : dedentLines count left (c :: t) =
    (if isIndentChar c && 0 < left then [] else [c]) ++
      dedentLines count (afterChar count left c) t := by
  rw [dedentLines, afterChar]
  by_cases hn : c = '\n'
  · subst hn
    rfl
  · rw [if_neg hn, if_neg hn]
    by_cases hi : isIndentChar c = true
    · rcases Nat.eq_zero_or_pos left with rfl | hpos
      · simp [hi]
      · simp [hi, hpos]
    · simp [hi]

theorem allowance_append (left : Nat) (t u : Text) :
    allowance count left (t ++ u) = allowance count (allowance count left t) u := List.foldl_append

/-- **Indents come off piece by piece.** -/
theorem dedentLines_append (left : Nat) (t u : Text) : dedentLines count left (t ++ u) =
    dedentLines count left t ++ dedentLines count (allowance count left t) u := by
  induction t generalizing left with
  | nil => rfl
  | cons c t ih =>
    rw [List.cons_append, dedentLines_cons, dedentLines_cons, ih, List.append_assoc]
    rfl

theorem dedentLines_cons_solid {c : Char} (hc : isBlank c = false) (left : Nat) (t : Text) :
    dedentLines count left (c :: t) = c :: dedentLines count 0 t := by
  have hn : c ≠ '\n' := by
    rintro rfl
    exact absurd hc (by decide)
  have hi : ¬ isIndentChar c = true := fun hi => by
    rw [isBlank_of_isIndentChar hi] at hc
    cases hc
  rw [dedentLines_cons, afterChar, if_neg hn, if_neg hi]
  simp [hi]

theorem length_dedentLines_le (left : Nat) (t : Text) :
    (dedentLines count left t).length ≤ t.length := by
  induction t generalizing left with
  | nil => exact Nat.le_refl _
  | cons c t ih =>
    have hrest := ih (afterChar count left c)
    rw [dedentLines_cons, List.length_append, List.length_cons]
    split_ifs
    · simp only [List.length_nil]
      omega
    · simp only [List.length_singleton]
      omega

/-- **What stays as it is**: a text without a space or a tab that its line may lose. -/
theorem dedentLines_eq_self_iff {left : Nat} {t : Text} : dedentLines count left t = t ↔
    ∀ p b q, t = p ++ b :: q → isIndentChar b = true → allowance count left p = 0 := by
  induction t generalizing left with
  | nil => simp [dedentLines]
  | cons c t ih =>
    rw [dedentLines_cons]
    by_cases hlost : (isIndentChar c && decide (0 < left)) = true
    · rw [if_pos hlost, List.nil_append]
      rw [Bool.and_eq_true, decide_eq_true_eq] at hlost
      constructor
      · intro heq
        have hlen : (dedentLines count (afterChar count left c) t).length ≤ t.length :=
          length_dedentLines_le _ t
        rw [heq, List.length_cons] at hlen
        omega
      · intro hall
        have hzero : left = 0 := hall [] c t rfl hlost.1
        omega
    · rw [if_neg hlost, List.singleton_append, List.cons.injEq, ih]
      rw [Bool.and_eq_true, decide_eq_true_eq, not_and] at hlost
      constructor
      · rintro ⟨-, hall⟩ p b q heq hb
        cases p with
        | nil =>
          cases heq
          exact Nat.eq_zero_of_not_pos (hlost hb)
        | cons d p =>
          cases heq
          exact hall p b q rfl hb
      · intro hall
        exact ⟨rfl, fun p b q heq hb => hall (c :: p) b q (by rw [heq]; rfl) hb⟩

theorem allowance_of_indent {v : Text} (hv : v.all isIndentChar = true) (left : Nat) :
    allowance count left v = left - v.length := by
  induction v generalizing left with
  | nil => rfl
  | cons c v ih =>
    rw [List.all_cons, Bool.and_eq_true] at hv
    have hn : c ≠ '\n' := by
      rintro rfl
      exact absurd hv.1 (by decide)
    have hstep : allowance count left (c :: v) = allowance count (afterChar count left c) v := rfl
    rw [hstep, ih hv.2, afterChar, if_neg hn, if_pos hv.1, List.length_cons]
    omega

theorem allowance_of_line {u v : Text} (hv : v.all isIndentChar = true) (left : Nat) :
    allowance count left (u ++ '\n' :: v) = count - v.length := by
  rw [allowance_append, ← allowance_of_indent hv]
  rfl

/-- **Where a line may lose something**: inside its indent. -/
theorem allowance_pos_iff {t : Text} : 0 < allowance count 0 t ↔ InIndent count t := by
  constructor
  · intro hpos
    induction t using List.reverseRecOn with
    | nil => exact absurd hpos (Nat.lt_irrefl 0)
    | append_singleton t c ih =>
      rw [allowance_append] at hpos
      have hstep : allowance count (allowance count 0 t) [c] =
          afterChar count (allowance count 0 t) c := rfl
      rw [hstep, afterChar] at hpos
      split_ifs at hpos with hn hi
      · subst hn
        exact ⟨t, [], rfl, rfl, hpos⟩
      · -- the indent of the line goes on
        obtain ⟨u, v, rfl, hv, -⟩ := ih (by omega)
        rw [allowance_of_line hv] at hpos
        refine ⟨u, v ++ [c], by simp, by simp [hv, hi], ?_⟩
        rw [List.length_append, List.length_singleton]
        omega
      · exact absurd hpos (Nat.lt_irrefl 0)
  · rintro ⟨u, v, rfl, hv, hlt⟩
    rw [allowance_of_line hv]
    omega

/-! ### Line by line -/

theorem dedent_zero (t : Text) : Indent.dedent (0 : ℕ) t = t := by cases t <;> rfl

theorem dedent_cons_of_indent {c : Char} (hc : isIndentChar c = true) (left : ℕ) (t : Text) :
    Indent.dedent (left + 1 : ℕ) (c :: t) = Indent.dedent left t := if_pos hc

theorem dedent_cons_of_stays {c : Char} {left : ℕ}
    (h : ¬ (isIndentChar c && decide (0 < left)) = true) (t : Text) :
    Indent.dedent left (c :: t) = c :: t := by
  cases left with
  | zero => rfl
  | succ left => exact if_neg fun hc => h (by simp [hc])

/-- **Each line loses its own indent**, the first as much as it still may. -/
theorem lines_dedentLines {t l : Text} {ls : List Text} (left : ℕ) (h : t.lines = l :: ls) :
    (dedentLines count left t).lines = Indent.dedent left l :: ls.map (Indent.dedent count) := by
  induction t generalizing left l ls with
  | nil =>
    obtain ⟨rfl, rfl⟩ := List.cons.inj h
    cases left <;> rfl
  | cons c t ih =>
    by_cases hn : c = '\n'
    · subst hn
      obtain ⟨l', ls', ht⟩ := List.exists_cons_of_ne_nil (lines_ne_nil t)
      rw [lines_newline, ht] at h
      obtain ⟨rfl, rfl⟩ := List.cons.inj h
      rw [dedentLines, if_pos rfl, lines_newline, ih count ht]
      cases left <;> rfl
    · obtain ⟨m, ms, hm, hc⟩ := lines_cons hn t
      rw [hc] at h
      obtain ⟨rfl, rfl⟩ := List.cons.inj h
      by_cases hlost : (isIndentChar c && decide (0 < left)) = true
      · rw [dedentLines, if_neg hn, if_pos hlost, ih (left - 1) hm]
        rw [Bool.and_eq_true, decide_eq_true_eq] at hlost
        obtain ⟨left, rfl⟩ := Nat.exists_eq_succ_of_ne_zero (Nat.pos_iff_ne_zero.mp hlost.2)
        rw [Nat.succ_sub_one, ← dedent_cons_of_indent hlost.1]
      · -- a character that stays goes to the first line of what is behind it
        obtain ⟨k, ks, hk, hck⟩ := lines_cons hn (dedentLines count 0 t)
        rw [ih 0 hm, dedent_zero] at hk
        obtain ⟨rfl, rfl⟩ := List.cons.inj hk
        rw [dedentLines, if_neg hn, if_neg hlost, hck, dedent_cons_of_stays hlost]

/-! ### What a text keeps -/

theorem ink_dedentLines (left : Nat) (t : Text) : ink (dedentLines count left t) = ink t := by
  induction t generalizing left with
  | nil => rfl
  | cons c t ih =>
    rw [dedentLines_cons, ink_append, ih, ink_cons c t]
    split_ifs with hlost
    · have hi : isIndentChar c = true := (Bool.and_eq_true_iff.mp hlost).1
      rw [ink_cons_blank (isBlank_of_isIndentChar hi)]
    · rfl

theorem isBlankText_dedentLines (left : Nat) {t : Text} (ht : t.isBlankText = true) :
    (dedentLines count left t).isBlankText = true := by
  rw [← ink_eq_nil_iff, ink_dedentLines, ink_of_blank ht]

theorem count_dedentLines (left : Nat) (t : Text) :
    (dedentLines count left t).count '\n' = t.count '\n' := by
  induction t generalizing left with
  | nil => rfl
  | cons c t ih =>
    rw [dedentLines_cons, List.count_append, ih]
    split_ifs with hlost
    · have hn : c ≠ '\n' := by
        rintro rfl
        exact absurd hlost (by simp [isIndentChar])
      rw [List.count_cons_of_ne hn, List.count_nil, Nat.zero_add]
    · rw [List.count_cons, List.count_cons, List.count_nil, Nat.zero_add, Nat.add_comm]

end HouseStyle.CallArguments
