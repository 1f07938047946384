import HouseStyle.Edit.Replacement
import HouseStyle.Proofs.Text.Ink
import Mathlib.Data.List.Nodup

/-! # Replacements piece by piece

`Replacement.apply` leaves a source as it is outside the ranges of the replacements it takes, and
takes only replacements whose ranges lie apart. So a relation between texts that can be checked
piece by piece holds of a source and the result as soon as it holds of every range and the text put
in its place (`rel_apply`). Two such relations are used: the same ink (`ink_apply`), and no line
feed more, one less at least where anything changed (`apply_eq_or_count_lt`).

Replacements with different starts are taken in one order only (`candidates_eq_of_perm`), so what
becomes of a source can be worked out without sorting. -/

namespace HouseStyle

/-- A relation that holds of every text and itself, and of texts put together from related pieces.
-/
structure Piecewise (R : Text → Text → Prop) : Prop where
  refl : ∀ t, R t t
  append : ∀ {t t' u u'}, R t t' → R u u' → R (t ++ u) (t' ++ u')

namespace Replacement

/-! ### What is taken -/

theorem mem_candidates {source : Text} {rs : List Replacement} {r : Replacement} :
    r ∈ candidates source rs ↔ r ∈ rs ∧ r.isEffective source = true := by
  rw [candidates, List.mem_mergeSort, List.mem_eraseDups, List.mem_filter]

theorem takenFirst_trans (r r' r'' : Replacement) (h : takenFirst r r' = true)
    (h' : takenFirst r' r'' = true) : takenFirst r r'' = true := by
  simp only [takenFirst, Bool.or_eq_true, Bool.and_eq_true, decide_eq_true_eq, beq_iff_eq] at h h' ⊢
  omega

theorem takenFirst_total (r r' : Replacement) : (takenFirst r r' || takenFirst r' r) = true := by
  simp only [takenFirst, Bool.or_eq_true, Bool.and_eq_true, decide_eq_true_eq, beq_iff_eq]
  omega

theorem sorted_candidates (source : Text) (rs : List Replacement) :
    (candidates source rs).Pairwise fun r r' => takenFirst r r' = true :=
  List.pairwise_mergeSort takenFirst_trans takenFirst_total _

theorem candidates_eq_of_perm {source : Text} {rs l : List Replacement}
    (hperm : l.Perm (rs.filter (isEffective source)).eraseDups)
    (hl : l.Pairwise fun r r' => r'.start < r.start) : candidates source rs = l := by
  have hcand : (candidates source rs).Perm l := (List.mergeSort_perm _ _).trans hperm.symm
  have hnodup : (l.map (·.start)).Nodup := List.pairwise_map.mpr (hl.imp fun h => by omega)
  have hsorted' : l.Pairwise fun r r' => takenFirst r r' = true := hl.imp fun h => by
    simp only [takenFirst, Bool.or_eq_true, decide_eq_true_eq]
    exact Or.inl h
  refine List.Perm.eq_of_pairwise ?_ (sorted_candidates source rs) hsorted' hcand
  intro r r' hr hr' h h'
  refine List.inj_on_of_nodup_map hnodup (hcand.mem_iff.mp hr) hr' ?_
  simp only [takenFirst, Bool.or_eq_true, Bool.and_eq_true, decide_eq_true_eq, beq_iff_eq] at h h'
  omega

theorem inRange_of_isEffective {source : Text} {r : Replacement} (h : r.isEffective source = true) :
    0 ≤ r.start ∧ r.start ≤ r.stop ∧ r.stop ≤ source.length := by
  simp only [isEffective, inRange, Bool.and_eq_true, decide_eq_true_eq] at h
  exact ⟨h.1.1.1, h.1.1.2, h.1.2⟩

theorem toNat_bounds {source : Text} {r : Replacement} (h : r.isEffective source = true)
    {cursor : Nat} (hc : r.stop ≤ cursor) :
    r.start.toNat ≤ r.stop.toNat ∧ r.stop.toNat ≤ cursor := by
  obtain ⟨h1, h2, -⟩ := inRange_of_isEffective h
  omega

/-! ### The result -/

section Rel
variable {R : Text → Text → Prop} (hR : Piecewise R) (source : Text)
include hR

/-- One step of `splice`: a piece that is replaced, and the piece behind it that stays. -/
theorem rel_take_append {r : Replacement} (hr : r.isEffective source = true)
    (h : R (r.replaced source) r.text) {cursor : Nat} (hc : r.stop ≤ cursor) {t : Text}
    (ht : R (source.take r.start.toNat) t) :
    R (source.take cursor) (t ++ (r.text ++ source.slice r.stop.toNat cursor)) := by
  obtain ⟨h1, h2⟩ := toNat_bounds hr hc
  have hsplit : source.take cursor = source.take r.start.toNat ++
      (r.replaced source ++ source.slice r.stop.toNat cursor) := by
    rw [replaced, Text.slice_append_slice source h1 h2, Text.take_append_slice source (by omega)]
  rw [hsplit]
  exact hR.append ht (hR.append h (hR.refl _))

/-- What `splice` makes of the source up to the cursor. The replacements kept lie before the cursor:
each ends before the limit, and the next limit is where it starts. -/
theorem rel_splice_keep : ∀ (rs : List Replacement) (limit : Int) (cursor : Nat) (done : Text),
    (∀ r ∈ rs, r.isEffective source = true ∧ R (r.replaced source) r.text) →
    (∀ stop : Int, stop ≤ limit → stop ≤ source.length → stop ≤ cursor) →
    ∃ t, splice source cursor done (keep limit rs) = t ++ done ∧ R (source.take cursor) t
  | [], _, cursor, done, _, _ => ⟨source.take cursor, rfl, hR.refl _⟩
  | r :: rs, limit, cursor, done, h, hlim => by
    rw [keep]
    have hrs : ∀ r' ∈ rs, r'.isEffective source = true ∧ R (r'.replaced source) r'.text :=
      fun r' hr' => h r' (List.mem_cons_of_mem _ hr')
    split_ifs with hcol
    · exact rel_splice_keep rs limit cursor done hrs hlim
    · obtain ⟨hr, hrel⟩ := h r List.mem_cons_self
      obtain ⟨h1, h2, h3⟩ := inRange_of_isEffective hr
      have hstop : r.stop ≤ cursor := by
        simp only [collides, Bool.or_eq_true, decide_eq_true_eq, not_or] at hcol
        exact hlim r.stop (by omega) h3
      obtain ⟨t, ht, hRt⟩ := rel_splice_keep rs r.start r.start.toNat
        (r.text ++ source.slice r.stop.toNat cursor ++ done) hrs (fun stop hs _ => by omega)
      refine ⟨t ++ (r.text ++ source.slice r.stop.toNat cursor), ?_, ?_⟩
      · rw [splice, ht]
        simp only [List.append_assoc]
      · exact rel_take_append hR source hr hrel hstop hRt

/-- **A result is related to its source** if every effective replacement is to its range. -/
theorem rel_apply (rs : List Replacement)
    (h : ∀ r ∈ rs, r.isEffective source = true → R (r.replaced source) r.text) :
    R source (apply source rs) := by
  have hall : ∀ r ∈ candidates source rs, r.isEffective source = true ∧
      R (r.replaced source) r.text := by
    intro r hr
    obtain ⟨hmem, heff⟩ := mem_candidates.mp hr
    exact ⟨heff, h r hmem heff⟩
  obtain ⟨t, ht, hRt⟩ := rel_splice_keep hR source (candidates source rs) (source.length + 1)
    source.length [] hall (fun stop _ hs => hs)
  rw [apply, taken, ht, List.append_nil]
  rwa [List.take_length] at hRt

end Rel

/-! ### Ink and line feeds -/

theorem piecewise_ink : Piecewise fun t u => u.ink = t.ink where
  refl _ := rfl
  append h h' := by rw [Text.ink_append, Text.ink_append, h, h']

theorem ink_apply {source : Text} {rs : List Replacement}
    (h : ∀ r ∈ rs, r.isEffective source = true → r.text.ink = (r.replaced source).ink) :
    (apply source rs).ink = source.ink := rel_apply piecewise_ink source rs h

theorem piecewise_fewer_lines :
    Piecewise fun t u => u = t ∨ u.count '\n' < t.count '\n' where
  refl _ := Or.inl rfl
  append := by
    rintro t t' u u' (rfl | h) (rfl | h')
    · exact Or.inl rfl
    · right; rw [List.count_append, List.count_append]; omega
    · right; rw [List.count_append, List.count_append]; omega
    · right; rw [List.count_append, List.count_append]; omega

/-- Replacements that take line feeds out of their ranges take some out of the source, unless none
of them is carried out. -/
theorem apply_eq_or_count_lt {source : Text} {rs : List Replacement}
    (h : ∀ r ∈ rs, r.isEffective source = true →
      r.text.count '\n' < (r.replaced source).count '\n') :
    apply source rs = source ∨ (apply source rs).count '\n' < source.count '\n' :=
  rel_apply piecewise_fewer_lines source rs fun r hr he => Or.inr (h r hr he)

end Replacement

end HouseStyle
