import HouseStyle.Proofs.Edit.Displacement
import Mathlib.Data.List.Perm.Subperm

/-! # Which replacements are carried out

Of the replacements that are in range and change the source, `taken` selects some that do not
overlap, as many as the order from right to left allows: one that is left out overlaps one that was
taken before it (`Selection`, `selection_taken`). To carry them out in one go is to put them one by
one, the last in the source first (`foldl_put`), or to take the source apart at their ranges and to
put their texts between the pieces (`weave_outside_text`).

The order in which the replacements were collected does not matter. A list without repetitions can
be sorted in one way only if no two of its members share both ends (`candidates_congr`), and
everything behind the sorting depends on the sorted list alone. -/

namespace HouseStyle.Replacement

variable {source : Text} {rs rs' : List Replacement} {r r' : Replacement}

/-! ### Overlaps -/

/-- An insertion into the range of another replacement: strictly inside it, or where it starts. -/
def InsertsInto (r r' : Replacement) : Prop :=
  r.start = r.stop ∧ r'.start ≤ r.start ∧ (r.start < r'.stop ∨ r.start = r'.start)

/-- Two replacements that stand in each other's way: their ranges have a character in common, or one
of them is an insertion into the other. So two insertions at one place overlap, and an insertion at
the end of a range does not overlap it. -/
def Overlaps (r r' : Replacement) : Prop :=
  max r.start r'.start < min r.stop r'.stop ∨ r.InsertsInto r' ∨ r'.InsertsInto r

instance (r r' : Replacement) : Decidable (r.InsertsInto r') := by
  unfold InsertsInto; infer_instance

instance (r r' : Replacement) : Decidable (r.Overlaps r') := by unfold Overlaps; infer_instance

theorem not_overlaps_iff (hr : r.start ≤ r.stop) (hr' : r'.start ≤ r'.stop) :
    ¬ r.Overlaps r' ↔ r.Before r' ∨ r'.Before r := by
  unfold Overlaps InsertsInto Before
  omega

theorem overlaps_of_collides (hr : r.start ≤ r.stop) (hr' : r'.start ≤ r'.stop)
    (hfirst : r'.takenFirst r = true) (hcol : r.collides r'.start = true) : r.Overlaps r' := by
  simp only [takenFirst, collides, Bool.or_eq_true, Bool.and_eq_true, decide_eq_true_eq, beq_iff_eq]
    at hfirst hcol
  unfold Overlaps InsertsInto
  omega

/-! ### What is selected -/

/-- **What is left out is in the way** of the limit, or of something that was taken before it. The
induction is along the sorted list: the limit of the rest is the start of what was kept last. -/
theorem mem_keep_or_collides : ∀ (limit : Int) {rs : List Replacement},
    (rs.Pairwise fun r r' => takenFirst r r' = true) →
      ∀ r ∈ rs, r ∈ keep limit rs ∨ r.collides limit = true ∨
      ∃ k ∈ keep limit rs, k.takenFirst r = true ∧ r.collides k.start = true
  | _, [], _, r, hr => by simp at hr
  | limit, a :: rs, hsorted, r, hr => by
    obtain ⟨hfirst, hrest⟩ := List.pairwise_cons.mp hsorted
    rw [keep]
    split_ifs with hcol
    · rcases List.mem_cons.mp hr with rfl | hr
      · exact Or.inr (Or.inl hcol)
      · exact mem_keep_or_collides limit hrest r hr
    · rcases List.mem_cons.mp hr with rfl | hr
      · exact Or.inl List.mem_cons_self
      · rcases mem_keep_or_collides a.start hrest r hr with hmem | hin | ⟨k, hk, hfirst', hin⟩
        · exact Or.inl (List.mem_cons_of_mem _ hmem)
        · exact Or.inr (Or.inr ⟨a, List.mem_cons_self, hfirst r hr, hin⟩)
        · exact Or.inr (Or.inr ⟨k, List.mem_cons_of_mem _ hk, hfirst', hin⟩)

/-- A selection of replacements for a source, from right to left: some of a list, all of them in
range and none without effect, that do not overlap. What is in range and has an effect is left out
only if it overlaps one of them that does not come before it, and nothing is left out where nothing
overlaps. -/
structure Selection (source : Text) (rs A : List Replacement) : Prop where
  subperm : A.Subperm rs
  effective : ∀ r ∈ A, r.isEffective source = true
  descending : A.Pairwise fun r r' => r'.start < r.start
  apart : A.Pairwise fun r r' => ¬ r.Overlaps r'
  maximal : ∀ r ∈ rs, r.isEffective source = true → r ∈ A ∨
    ∃ k ∈ A, r.Overlaps k ∧ (r.start < k.start ∨ r.start = k.start ∧ r.stop ≤ k.stop)
  all : (∀ r ∈ rs, ∀ r' ∈ rs, r.isEffective source = true → r'.isEffective source = true → r ≠ r' →
    ¬ r.Overlaps r') → ∀ r ∈ rs, r.isEffective source = true → r ∈ A

theorem subperm_taken (source : Text) (rs : List Replacement) : (taken source rs).Subperm rs := by
  have hnodup : (taken source rs).Nodup := (descending_taken source rs).imp fun {r r'} h heq => by
    have := h.1
    rw [heq] at this
    omega
  exact List.subperm_of_subset hnodup fun r hr => (isEffective_of_mem_taken hr).1

theorem selection_taken (source : Text) (rs : List Replacement) :
    Selection source rs (taken source rs) := by
  have heff : ∀ r ∈ taken source rs, r.isEffective source = true :=
    fun r hr => (isEffective_of_mem_taken hr).2
  have hdesc := descending_taken source rs
  refine ⟨subperm_taken source rs, heff, hdesc.imp fun h => h.1, ?_, ?_, ?_⟩
  · refine hdesc.imp_of_mem fun {r r'} hr hr' h => ?_
    have hrange := inRange_of_isEffective (heff r hr)
    have hrange' := inRange_of_isEffective (heff r' hr')
    exact (not_overlaps_iff hrange.2.1 hrange'.2.1).mpr (Or.inr h)
  · intro r hr hr'
    have hrange := inRange_of_isEffective hr'
    rcases mem_keep_or_collides (source.length + 1) (sorted_candidates source rs) r
      (mem_candidates.mpr ⟨hr, hr'⟩) with hmem | hout | ⟨k, hk, hfirst, hcol⟩
    · exact Or.inl hmem
    · -- nothing in range reaches the first limit
      simp only [collides, Bool.or_eq_true, Bool.and_eq_true, decide_eq_true_eq, beq_iff_eq] at hout
      omega
    · have hrange' := inRange_of_isEffective (heff k hk)
      refine Or.inr ⟨k, hk, overlaps_of_collides hrange.2.1 hrange'.2.1 hfirst hcol, ?_⟩
      simpa only [takenFirst, Bool.or_eq_true, Bool.and_eq_true, decide_eq_true_eq, beq_iff_eq]
        using hfirst
  · intro hapart r hr hr'
    refine (mem_taken_of_apart fun a ha b hb hea heb hne => ?_).mpr ⟨hr, hr'⟩
    have hrange := inRange_of_isEffective hea
    have hrange' := inRange_of_isEffective heb
    exact (not_overlaps_iff hrange.2.1 hrange'.2.1).mp (hapart a ha b hb hea heb hne)

/-! ### The result -/

/-- A text with one replacement put into it. -/
def put (t : Text) (r : Replacement) : Text := t.take r.start.toNat ++ r.text ++ t.drop r.stop.toNat

/-- The pieces of a source from one offset to another that lie outside ranges given from first to
last. -/
def outside (source : Text) (stop : Nat) : Nat → List Replacement → List Text
  | start, [] => [source.slice start stop]
  | start, r :: rs => source.slice start r.start.toNat :: outside source stop r.stop.toNat rs

/-- The texts of two lists in turn. -/
def weave : List Text → List Text → Text
  | g :: gs, t :: ts => g ++ t ++ weave gs ts
  | gs, _ => gs.flatten

/-- One step of the run: what stands behind a replacement is finished, and what stands before it is
still as in the source. -/
theorem put_take_append (source done : Text) {cursor : Nat} (h1 : r.start.toNat ≤ r.stop.toNat)
    (h2 : r.stop.toNat ≤ cursor) (h3 : cursor ≤ source.length) :
    put (source.take cursor ++ done) r =
      source.take r.start.toNat ++ (r.text ++ source.slice r.stop.toNat cursor ++ done) := by
  have hlen : (source.take cursor).length = cursor := by rw [List.length_take]; omega
  have htake : (source.take cursor ++ done).take r.start.toNat = source.take r.start.toNat := by
    rw [List.take_append_of_le_length (by omega), List.take_take, Nat.min_eq_left (by omega)]
  have hdrop : (source.take cursor ++ done).drop r.stop.toNat =
      source.slice r.stop.toNat cursor ++ done := by
    rw [List.drop_append_of_le_length (by omega), List.drop_take, Text.slice]
  rw [put, htake, hdrop]
  simp only [List.append_assoc]

/-- **Carrying out replacements is putting them one by one**, from right to left. -/
theorem foldl_put :
    ∀ {A : List Replacement} {cursor : Nat} (done : Text), Descending A → InRange source A →
    (∀ r ∈ A, r.stop ≤ cursor) → cursor ≤ source.length →
    A.foldl put (source.take cursor ++ done) = splice source cursor done A
  | [], _, _, _, _, _, _ => rfl
  | r :: A, cursor, done, hdesc, hrange, hstop, hcursor => by
    obtain ⟨hfirst, hrest⟩ := List.pairwise_cons.mp hdesc
    have hr := hrange r List.mem_cons_self
    have hrc := hstop r List.mem_cons_self
    rw [List.foldl_cons, put_take_append source done (by omega) (by omega) hcursor, splice]
    refine foldl_put _ hrest (fun r' hr' => hrange r' (List.mem_cons_of_mem _ hr'))
      (fun r' hr' => ?_) (by omega)
    have := (hfirst r' hr').2
    omega

theorem weave_outside_concat (source : Text) (f : Replacement → Text) (r : Replacement)
    (stop : Nat) :
    ∀ (B : List Replacement) (start : Nat),
      weave (outside source stop start (B ++ [r])) ((B ++ [r]).map f) =
        weave (outside source r.start.toNat start B) (B.map f) ++
          (f r ++ source.slice r.stop.toNat stop)
  | [], start => by simp [outside, weave]
  | b :: B, start => by
    simp only [List.cons_append, List.map_cons, outside, weave,
      weave_outside_concat source f r stop B, List.append_assoc]

theorem weave_outside_text (source : Text) : ∀ (A : List Replacement) (stop : Nat),
    weave (outside source stop 0 A.reverse) (A.reverse.map (·.text)) = splice source stop [] A
  | [], stop => by simp [outside, weave, splice, Text.slice_zero]
  | r :: A, stop => by
    rw [List.reverse_cons, weave_outside_concat, weave_outside_text source A, splice_cons]

theorem weave_outside_replaced :
    ∀ {A : List Replacement} (stop : Nat), Descending A → InRange source A →
    (∀ r ∈ A, r.stop ≤ stop) →
    weave (outside source stop 0 A.reverse) (A.reverse.map (·.replaced source)) = source.take stop
  | [], stop, _, _, _ => by simp [outside, weave, Text.slice_zero]
  | r :: A, stop, hdesc, hrange, hstop => by
    obtain ⟨hfirst, hrest⟩ := List.pairwise_cons.mp hdesc
    have hr := hrange r List.mem_cons_self
    have hrs := hstop r List.mem_cons_self
    have ih := weave_outside_replaced r.start.toNat hrest
      (fun r' hr' => hrange r' (List.mem_cons_of_mem _ hr'))
        (fun r' hr' => by have := (hfirst r' hr').2; omega)
    rw [List.reverse_cons, weave_outside_concat, ih, replaced,
      Text.slice_append_slice source (by omega) (by omega),
      Text.take_append_slice source (by omega)]

/-- **Replacements are carried out as far as they do not overlap.** The result is the source with a
selection of them carried out: the pieces outside their ranges stay, in order, and between them the
new texts stand in the place of the old ones. The same comes out when they are put one by one, the
last in the source first. -/
theorem exists_selection_apply (source : Text) (rs : List Replacement) :
    ∃ A, Selection source rs A ∧
      source = weave (outside source source.length 0 A.reverse)
        (A.reverse.map (·.replaced source)) ∧
      apply source rs = weave (outside source source.length 0 A.reverse) (A.reverse.map (·.text)) ∧
      apply source rs = A.foldl put source := by
  have hdesc := descending_taken source rs
  have hrange := inRange_taken source rs
  have hstop : ∀ r ∈ taken source rs, r.stop ≤ (source.length : Int) :=
    fun r hr => (hrange r hr).2.2
  refine ⟨taken source rs, selection_taken source rs, ?_, ?_, ?_⟩
  · rw [weave_outside_replaced source.length hdesc hrange hstop, List.take_length]
  · rw [weave_outside_text, apply]
  · have hfold := foldl_put [] hdesc hrange hstop le_rfl
    rw [List.take_length, List.append_nil] at hfold
    rw [hfold, apply]

/-! ### The order of collection -/

theorem candidates_congr (hmem : ∀ r, r.isEffective source = true → (r ∈ rs ↔ r ∈ rs'))
    (huniq : ∀ r ∈ rs, ∀ r' ∈ rs, r.isEffective source = true → r'.isEffective source = true →
      r.start = r'.start → r.stop = r'.stop → r.text = r'.text) :
    candidates source rs = candidates source rs' := by
  have hperm : (candidates source rs).Perm (candidates source rs') := by
    rw [List.perm_ext_iff_of_nodup (nodup_candidates _ _) (nodup_candidates _ _)]
    intro r
    rw [mem_candidates, mem_candidates]
    exact and_congr_left (hmem r)
  refine List.Perm.eq_of_pairwise ?_ (sorted_candidates source rs)
    (sorted_candidates source rs') hperm
  intro r r' hr hr' hfirst hfirst'
  obtain ⟨hr, heff⟩ := mem_candidates.mp hr
  obtain ⟨hr', heff'⟩ := mem_candidates.mp (hperm.mem_iff.mpr hr')
  simp only [takenFirst, Bool.or_eq_true, Bool.and_eq_true, decide_eq_true_eq, beq_iff_eq]
    at hfirst hfirst'
  have hstart : r.start = r'.start := by omega
  have hstop : r.stop = r'.stop := by omega
  have htext := huniq r hr r' hr' heff heff' hstart hstop
  cases r
  cases r'
  simp_all

/-- **The order of collection does not matter**, even where replacements overlap, if no two of them
that have an effect put different texts in the place of one range. -/
theorem apply_perm (hperm : rs.Perm rs')
    (huniq : ∀ r ∈ rs, ∀ r' ∈ rs, r.isEffective source = true → r'.isEffective source = true →
      r.start = r'.start → r.stop = r'.stop → r.text = r'.text) :
    apply source rs = apply source rs' := by
  rw [apply, apply, taken, taken, candidates_congr (fun r _ => hperm.mem_iff) huniq]

/-- Four replacements of `abcdef`, each of which overlaps the next. -/
def chain : List Replacement := [⟨0, 2, ['w']⟩, ⟨1, 4, ['x']⟩, ⟨3, 5, ['y']⟩, ⟨4, 6, ['z']⟩]

/-- From either end of the chain, the last replacement and the second are carried out. -/
theorem apply_perm_chain :
    chain.reverse.Perm chain ∧ apply "abcdef".toList chain.reverse = apply "abcdef".toList chain ∧
      apply "abcdef".toList chain = "axz".toList := by
  have hperm : chain.reverse.Perm chain := List.reverse_perm chain
  have hsorted : candidates "abcdef".toList chain = chain.reverse :=
    candidates_eq_of_perm (by decide) (by decide)
  refine ⟨hperm, apply_perm hperm (by decide), ?_⟩
  rw [apply, taken, hsorted]
  decide

end HouseStyle.Replacement
