import HouseStyle.Proofs.Restyle.LineIndents

/-! # Texts without spaces and tabs

`bare` leaves the spaces and tabs out of a text. Replacements of spaces and tabs by others do not
show in it: up to an offset and up to where it has gone, a text and the result have the same bare
text (`bare_take_apply`). So for two nodes that have been carried along, the bare text between them
is the same (`bare_slice`), and so is the row of a node, and whether it is the first thing on its
line (`lineIndent_lt_start_iff`). -/

namespace HouseStyle

open HouseStyle.Text

namespace Text

/-- The characters of a text that are neither spaces nor tabs. -/
def bare (t : Text) : Text := t.filter (!isIndentChar ·)

theorem bare_append (t u : Text) : bare (t ++ u) = bare t ++ bare u := List.filter_append ..

theorem mem_bare {t : Text} {c : Char} : c ∈ bare t ↔ c ∈ t ∧ isIndentChar c = false := by
  simp [bare]

theorem bare_eq_nil_iff {t : Text} : bare t = [] ↔ ∀ c ∈ t, isIndentChar c = true := by
  simp [bare]

theorem count_bare (t : Text) : (bare t).count '\n' = t.count '\n' := List.count_filter (by decide)

theorem lastLine_bare (t : Text) : lastLine (bare t) = bare (lastLine t) := by
  have htake : ∀ u : Text, (bare u).takeWhile (· ≠ '\n') = bare (u.takeWhile (· ≠ '\n')) := by
    intro u
    induction u with
    | nil => rfl
    | cons c u ih =>
      by_cases hc : c = '\n'
      · subst hc
        rfl
      · by_cases hindent : isIndentChar c = true
        · simpa [bare, hc, hindent] using ih
        · simpa [bare, hc, hindent] using ih
  have hreverse : ∀ u : Text, (bare u).reverse = bare u.reverse :=
    fun u => (List.filter_reverse ..).symm
  rw [lastLine, lastLine, hreverse, htake, hreverse]

theorem bare_slice (t : Text) (a b : Nat) :
    bare (t.slice a b) = (bare (t.take b)).drop (bare (t.take a)).length := by
  rcases Nat.le_total a b with hab | hba
  · rw [← take_append_slice t hab, bare_append, List.drop_left]
  · have hprefix : (bare (t.take b)).length ≤ (bare (t.take a)).length :=
      ((List.take_prefix_take_left hba).filter _).length_le
    rw [slice, Nat.sub_eq_zero_of_le hba, List.take_zero, List.drop_eq_nil_of_le hprefix]
    rfl

end Text

/-! ### Nodes behind the indent of their line -/

theorem Source.lineIndent_lt_start_iff {s : Source} {n : Node} (h : s.start n ≤ s.text.length) :
    s.lineStart (s.row n) + (s.lineIndent (s.row n)).length < s.start n ↔
      bare (s.beforeNode n) ≠ [] := by
  have hcolumn := lineStart_add_column h
  have hline := (start_on_line h).2.2
  have hsplit : s.lineIndent (s.row n) ++ (s.line (s.row n)).afterIndent = s.line (s.row n) :=
    indentOf_append_afterIndent _
  have hlength := congrArg List.length hsplit
  rw [List.length_append] at hlength
  rw [ne_eq, bare_eq_nil_iff, beforeNode]
  constructor
  · -- the first character behind the indent is no blank
    intro hlt hall
    cases hafter : (s.line (s.row n)).afterIndent with
    | nil =>
      rw [hafter, List.length_nil] at hlength
      omega
    | cons c rest =>
      have hfirst : isIndentChar c = false := by
        have := List.head?_dropWhile_not isIndentChar (s.line (s.row n))
        rw [← afterIndent, hafter] at this
        simpa using this
      obtain ⟨k, hk⟩ : ∃ k, s.column n = (s.lineIndent (s.row n)).length + (k + 1) :=
        ⟨s.column n - (s.lineIndent (s.row n)).length - 1, by omega⟩
      have hmem : c ∈ (s.line (s.row n)).take (s.column n) := by
        rw [← hsplit, hafter, hk, List.take_length_add_append, List.take_succ_cons]
        exact List.mem_append_right _ List.mem_cons_self
      rw [hall c hmem] at hfirst
      cases hfirst
  · intro hsome
    by_contra hle
    refine hsome fun c hc => ?_
    rw [← hsplit, List.take_append_of_le_length (by omega)] at hc
    exact List.mem_takeWhile_imp (List.mem_of_mem_take hc)

namespace Replacement

variable {source : Text} {rs : List Replacement}

/-- Replacements of spaces and tabs by others. -/
def Blanks (source : Text) (rs : List Replacement) : Prop :=
  ∀ r ∈ rs, bare (r.replaced source) = [] ∧ bare r.text = []

theorem blanks_of_reindents {s : Source} (h : ∀ r ∈ rs, ∃ row, r.Reindents s row) :
    Blanks s.text (taken s.text rs) := fun r hr => by
  obtain ⟨row, hrow⟩ := h r (isEffective_of_mem_taken hr).1
  rw [hrow.replaced, bare_eq_nil_iff, bare_eq_nil_iff]
  exact ⟨fun c hc => List.mem_takeWhile_imp hc, hrow.blank⟩

theorem bare_splice :
    ∀ {A : List Replacement} {p : Nat}, Descending A → InRange source A → (∀ r ∈ A, r.stop ≤ p) →
    Blanks source A → bare (splice source p [] A) = bare (source.take p)
  | [], p, _, _, _, _ => by simp [splice]
  | r :: A, p, hdesc, hrange, hstop, hblank => by
    obtain ⟨hfirst, hrest⟩ := List.pairwise_cons.mp hdesc
    have hr := hrange r List.mem_cons_self
    have hrp := hstop r List.mem_cons_self
    have ih := bare_splice (p := r.start.toNat) hrest
      (fun r' hr' => hrange r' (List.mem_cons_of_mem _ hr'))
      (fun r' hr' => by have := (hfirst r' hr').2; omega)
      fun r' hr' => hblank r' (List.mem_cons_of_mem _ hr')
    obtain ⟨hold, hnew⟩ := hblank r List.mem_cons_self
    rw [replaced] at hold
    rw [splice_cons, bare_append, ih, bare_append, hnew,
      ← take_append_slice source (a := r.start.toNat) (b := p) (by omega),
      ← slice_append_slice source (a := r.start.toNat) (b := r.stop.toNat) (c := p)
        (by omega) (by omega), bare_append, bare_append, hold]

/-- **Blanks that are replaced do not show** in the bare text up to an offset, if none stand across
it: not where what starts at the offset has gone, and not where what stops there has gone. -/
theorem bare_take_apply (hblank : Blanks source (taken source rs)) {p p' : Nat}
    (hp : p ≤ source.length) (hclear : ∀ r ∈ taken source rs, r.stop ≤ p ∨ p ≤ r.start)
    (hp' : (p' : Int) = startAfter (taken source rs) p ∨
      (p' : Int) = stopAfter (taken source rs) p) :
    bare ((apply source rs).take p') = bare (source.take p) := by
  have hbare : ∀ q : Replacement → Bool, (∀ r ∈ taken source rs, q r = true → r.stop ≤ p) →
      bare (splice source p [] ((taken source rs).filter q)) = bare (source.take p) := fun q hq =>
    bare_splice ((descending_taken source rs).filter q)
      (fun r hr => inRange_taken source rs r (List.mem_filter.mp hr).1)
      (fun r hr => hq r (List.mem_filter.mp hr).1 (List.mem_filter.mp hr).2)
      fun r hr => hblank r (List.mem_filter.mp hr).1
  rcases hp' with hp' | hp'
  · have hbefore : ∀ r ∈ taken source rs, decide (r.stop ≤ (p : Int)) = true → r.stop ≤ p :=
      fun r _ h => by
      simpa using h
    rw [take_apply hp hbefore (fun r hr h => ?_) hp', hbare _ hbefore]
    have := hclear r hr
    simp only [decide_eq_false_iff_not] at h
    omega
  · have hbefore : ∀ r ∈ taken source rs, decide (r.start < (p : Int)) = true → r.stop ≤ p :=
      fun r hr h => by
      have := hclear r hr
      simp only [decide_eq_true_eq] at h
      omega
    rw [take_apply hp hbefore (fun r _ h => ?_) hp', hbare _ hbefore]
    simpa using h

section Moved
variable {s s' : Source} (htext : s'.text = apply s.text rs)
  (hblank : Blanks s.text (taken s.text rs))
  {n n' : Node} (hmoved : s.Moved (taken s.text rs) s' n n')
include htext hblank hmoved

theorem bare_take_start (hn : s.start n ≤ s.text.length)
    (hclear : ∀ r ∈ taken s.text rs, r.stop ≤ s.start n ∨ s.start n < r.start) :
    bare (s'.text.take (s'.start n')) = bare (s.text.take (s.start n)) := by
  rw [htext]
  refine bare_take_apply hblank hn (fun r hr => ?_) (Or.inl (hmoved.start fun r hr hcross => ?_))
  · have := hclear r hr
    omega
  · have := hclear r hr
    omega

theorem bare_take_stop (hn : s.stop n ≤ s.text.length)
    (hclear : ∀ r ∈ taken s.text rs, r.stop < s.stop n ∨ s.stop n ≤ r.start) :
    bare (s'.text.take (s'.stop n')) = bare (s.text.take (s.stop n)) := by
  rw [htext]
  refine bare_take_apply hblank hn (fun r hr => ?_) (Or.inr (hmoved.stop fun r hr hcross => ?_))
  · have := hclear r hr
    omega
  · have := hclear r hr
    omega

end Moved

end Replacement

end HouseStyle
