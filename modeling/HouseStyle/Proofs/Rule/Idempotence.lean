import HouseStyle.Proofs.Rule.Augmentation

/-! # Suggestions that are merged in twice

A step of the merge leaves the rules as they are, or puts one candidate in the place of what stood
in its dimension (`mergeStep_cases`). Whatever takes a place is harder to replace than what stood
there: a candidate that could not replace the old rule cannot replace the new one
(`not_replaces_of_replaced`). This is where rounding has to be monotone, since the two are compared
by rounded sums with the margin.

So an entry that has no effect on the rules has none on those after further steps (`Rests.step`),
and an entry has none right after its own step (`rests_of_mergeStep`). At the end of a run no entry
has an effect (`rests_of_foldlM`), and a second run changes nothing. It does not matter whether the
names of the entries are different. -/

namespace HouseStyle

namespace Suggestion

variable {t : Thresholds} {default : Number} {rs rs' : Rules} {entry : String × Value} {n n' : Nat}

/-! ### What takes the place of a rule -/

theorem lt_add_margin_iff (r r' : Rule) :
    (r.confidence.toDouble.add margin).lt r'.confidence.toDouble = true ↔
      (Double.round (r.confidence.exact.toRat + margin.toRat)).toRat <
        r'.confidence.exact.toRat := by
  obtain ⟨-, h0, h1⟩ := Number.exact_of_inUnit r.confidence_inUnit
  have hfin' := (Number.exact_of_inUnit r'.confidence_inUnit).1
  rw [add_margin, Number.toDouble_of_inUnit r'.confidence_inUnit,
    Double.lt_iff_of_isFinite (le_round_add_margin h0 h1).1 hfin']

theorem round_add_margin_mono (r r' : Rule)
    (h : r.confidence.exact.toRat ≤ r'.confidence.exact.toRat) :
    (Double.round (r.confidence.exact.toRat + margin.toRat)).toRat ≤
      (Double.round (r'.confidence.exact.toRat + margin.toRat)).toRat := by
  obtain ⟨-, h0, h1⟩ := Number.exact_of_inUnit r.confidence_inUnit
  obtain ⟨-, h0', h1'⟩ := Number.exact_of_inUnit r'.confidence_inUnit
  have hround := Double.round_mono (add_le_add_left h margin.toRat)
  exact (Double.le_iff_of_isFinite (le_round_add_margin h0 h1).1 (le_round_add_margin h0' h1').1).mp
    hround

/-- **What has taken a place is harder to replace**: it withstands every candidate that the rule
before it withstood. -/
theorem not_replaces_of_replaced {current : Option Rule} {next r : Rule}
    (hnext : replaces current next = true) (hr : ¬ replaces current r = true) :
    ¬ replaces (some next) r = true := by
  intro hreplaced
  cases current with
  | none => exact hr rfl
  | some c =>
    simp only [replaces, Bool.and_eq_true, Bool.or_eq_true, Bool.not_eq_true', lt_add_margin_iff]
      at hnext hr hreplaced
    obtain ⟨henf, hlt⟩ := hreplaced
    refine hr ⟨henf, ?_⟩
    rcases hnext.2 with hopen | hbetter
    · exact Or.inl hopen
    · -- the place was taken by a higher confidence, which has the higher sum
      obtain ⟨-, h0, h1⟩ := Number.exact_of_inUnit c.confidence_inUnit
      have hle := (le_round_add_margin h0 h1).2
      have hmono := round_add_margin_mono c next (by linarith)
      have hlt' := hlt.resolve_left (by simp [hnext.1])
      exact Or.inr (lt_of_le_of_lt hmono hlt')

/-! ### Steps -/

/-- **What a step can do**: the entry can be read, and the rules stay, or its candidate takes the
place of what stood in its dimension. -/
theorem mergeStep_cases (h : mergeStep t default (rs, n) entry = .ok (rs', n')) :
    ∃ found, candidate? t default entry = .ok found ∧
      ((∀ d r, found = some (d, r) → ¬ replaces (rs d) r = true) ∧ rs' = rs ∧ n' = n ∨
        ∃ d r, found = some (d, r) ∧ replaces (rs d) r = true ∧ rs' = rs.set d r ∧ n' = n + 1) := by
  unfold mergeStep at h
  obtain ⟨found, hfound, h⟩ := exists_of_bind_eq_ok h
  refine ⟨found, hfound, ?_⟩
  cases found with
  | none =>
    cases h
    exact Or.inl ⟨by simp, rfl, rfl⟩
  | some p =>
    obtain ⟨d, r⟩ := p
    by_cases hrep : replaces (rs d) r = true
    · simp only [hrep, if_true] at h
      cases h
      exact Or.inr ⟨d, r, rfl, hrep, rfl, rfl⟩
    · simp only [hrep] at h
      cases h
      refine Or.inl ⟨?_, rfl, rfl⟩
      rintro d' r' ⟨⟩
      exact hrep

/-- An entry that can be read and has no effect on rules. -/
def Rests (t : Thresholds) (default : Number) (rs : Rules) (entry : String × Value) : Prop :=
  ∃ found, candidate? t default entry = .ok found ∧ ∀ d r, found = some (d, r) →
  ¬ replaces (rs d) r = true

theorem Rests.mergeStep_eq (h : Rests t default rs entry) (n : Nat) :
    mergeStep t default (rs, n) entry = .ok (rs, n) := by
  obtain ⟨found, hfound, hrest⟩ := h
  rw [mergeStep, hfound]
  cases found with
  | none => rfl
  | some p => exact congrArg Except.ok (if_neg (hrest p.1 p.2 rfl))

theorem rests_of_mergeStep (h : mergeStep t default (rs, n) entry = .ok (rs', n')) :
    Rests t default rs' entry := by
  obtain ⟨found, hfound, ⟨hrest, rfl, -⟩ | ⟨d, r, rfl, -, rfl, -⟩⟩ := mergeStep_cases h
  · exact ⟨found, hfound, hrest⟩
  · refine ⟨_, hfound, ?_⟩
    rintro d' r' ⟨⟩ hrep
    exact ne_of_replaces hrep (if_pos rfl)

theorem Rests.step {other : String × Value} (hother : Rests t default rs other)
    (h : mergeStep t default (rs, n) entry = .ok (rs', n')) : Rests t default rs' other := by
  obtain ⟨-, -, ⟨-, rfl, -⟩ | ⟨d, r, -, hrep, rfl, -⟩⟩ := mergeStep_cases h
  · exact hother
  · obtain ⟨found, hfound, hrest⟩ := hother
    refine ⟨found, hfound, fun e r' hsome => ?_⟩
    by_cases he : e = d
    · subst he
      rw [Rules.set, if_pos rfl]
      exact not_replaces_of_replaced hrep (hrest e r' hsome)
    · rw [Rules.set, if_neg he]
      exact hrest e r' hsome

/-! ### Runs -/

/-- **After a run no entry has an effect**, and those that had none before have none now. -/
theorem rests_of_foldlM : ∀ {es : Value.Fields} {rs rs' : Rules} {n n' : Nat},
    es.foldlM (mergeStep t default) (rs, n) = .ok (rs', n') →
      (∀ other, Rests t default rs other → Rests t default rs' other) ∧
        ∀ entry ∈ es, Rests t default rs' entry
  | [], rs, rs', n, n', h => by
    cases h
    exact ⟨fun _ hother => hother, by simp⟩
  | entry :: es, rs, rs', n, n', h => by
    rw [List.foldlM_cons] at h
    obtain ⟨⟨next, m⟩, hstep, hrun⟩ := exists_of_bind_eq_ok h
    obtain ⟨hkept, hall⟩ := rests_of_foldlM hrun
    refine ⟨fun other hother => hkept other (hother.step hstep), ?_⟩
    exact List.forall_mem_cons.mpr ⟨hkept entry (rests_of_mergeStep hstep), hall⟩

theorem foldlM_of_rests {es : Value.Fields} (h : ∀ entry ∈ es, Rests t default rs entry) (n : Nat) :
    es.foldlM (mergeStep t default) (rs, n) = .ok (rs, n) := by
  induction es with
  | nil => rfl
  | cons entry es ih =>
    obtain ⟨hentry, hes⟩ := List.forall_mem_cons.mp h
    rw [List.foldlM_cons, hentry.mergeStep_eq n]
    exact ih hes

end Suggestion

namespace Rules

variable {rs rs' : Rules} {suggestions : Value} {t : Thresholds} {default : Number} {n : Nat}

/-- **A second merge changes nothing.** Rules in which suggestions were merged stay as they are if
the same suggestions are merged in again, and none counts as applied. -/
theorem augment_augment (h : rs.augment suggestions t default = .ok (rs', n)) :
    rs'.augment suggestions t default = .ok (rs', 0) :=
  Suggestion.foldlM_of_rests (Suggestion.rests_of_foldlM h).2 0

/-- With evidence for quotes alone: single quotes take the place of double quotes, a width without
evidence is added without being enforced, and a second merge finds nothing to do. -/
theorem augment_augment_doubleQuotes : ∃ rs : Rules,
    doubleQuotes.augment (.object quotesAndWidth) .standard (.int 0) = .ok (rs, 2) ∧
      ((rs .quotes).any (·.enforced) = true ∧ (rs .lineWidth).any (!·.enforced) = true) ∧
      rs.augment (.object quotesAndWidth) .standard (.int 0) = .ok (rs, 0) := by
  have hvalues : ((doubleQuotes.augment (.object quotesAndWidth) .standard (.int 0)).toOption.map
      fun p => (p.2, (p.1 .quotes).any (·.enforced), (p.1 .lineWidth).any (!·.enforced))) =
        some (2, true, true) := by
    decide +kernel
  obtain ⟨⟨rs, n⟩, hrun, hparts⟩ := Option.map_eq_some_iff.mp hvalues
  simp only [Prod.mk.injEq] at hparts
  obtain ⟨rfl, hquotes, hwidth⟩ := hparts
  have hok := eq_ok_of_toOption hrun
  exact ⟨rs, hok, ⟨hquotes, hwidth⟩, augment_augment hok⟩

end Rules

end HouseStyle
