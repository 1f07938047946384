import HouseStyle.Proofs.Restyle.Idempotence

/-! # Passes come to rest

A pass that joins arguments, or puts conditionals on one line, either leaves a text as it is or
takes line feeds out of it. There are only so many of them, so passes without a bound come to rest
after as many as the text has line feeds (`passes_come_to_rest`). Of the trees this asks no more
than that children stand in order inside their parents. The bound of eight passes can stop short of
that: nine calls inside one another are joined by nine passes, one by each. -/

namespace HouseStyle

/-- **Passes come to rest.** A pass that changes a text leaves fewer line feeds, whatever
replacements overlap; and where the trees of all texts are nested, no pass has an effect once there
have been as many as the text has line feeds. -/
theorem passes_come_to_rest (ctx : Context) :
    (∀ t, (∀ s, ctx.clean? t = some s → s.Nested) →
      ∀ pass ∈ [SingleLineIf.pass ctx, CallArguments.pass ctx],
        pass t ≠ t → (pass t).count '\n' < t.count '\n') ∧
    ((∀ t s, ctx.clean? t = some s → s.Nested) →
      ∀ pass ∈ [SingleLineIf.pass ctx, CallArguments.pass ctx],
        ∀ t n, t.count '\n' ≤ n → pass (pass^[n] t) = pass^[n] t) := by
  have hstep : ∀ t, (∀ s, ctx.clean? t = some s → s.Nested) →
      ∀ pass ∈ [SingleLineIf.pass ctx, CallArguments.pass ctx],
        pass t = t ∨ (pass t).count '\n' < t.count '\n' := by
    intro t ht pass hpass
    simp only [List.mem_cons, List.not_mem_nil, or_false] at hpass
    rcases hpass with rfl | rfl
    · exact SingleLineIf.pass_eq_or_count_lt_of_nested ht
    · exact CallArguments.pass_eq_or_count_lt_of_nested ht
  constructor
  · intro t ht pass hpass hne
    exact (hstep t ht pass hpass).resolve_left hne
  · intro hall pass hpass t n hn
    exact iterate_fixed_of_measure_le (fun u => hstep u (hall u) pass hpass) hn

/-- Nine broken calls inside one another are at rest after nine passes of either kind, and the first
of them has joined one. -/
theorem passes_come_to_rest_nestedCalls :
    (∀ t s, nestedContext.clean? t = some s → s.Nested) ∧ (nestedCalls 9 9).count '\n' = 9 ∧
      CallArguments.pass nestedContext (nestedCalls 9 9) ≠ nestedCalls 9 9 ∧
      (CallArguments.pass nestedContext (nestedCalls 9 9)).count '\n' < 9 ∧
      ∀ pass ∈ [SingleLineIf.pass nestedContext, CallArguments.pass nestedContext],
        pass (pass^[9] (nestedCalls 9 9)) = pass^[9] (nestedCalls 9 9) := by
  have hnested : ∀ t s, nestedContext.clean? t = some s → s.Nested := fun _ s hs =>
    (nestedContext_regular _ _ s hs).wellFormed.nested
  have hcount : (nestedCalls 9 9).count '\n' = 9 := by decide
  have hne : CallArguments.pass nestedContext (nestedCalls 9 9) ≠ nestedCalls 9 9 := by
    rw [pass_nestedCalls (by omega)]
    decide
  obtain ⟨hfewer, hrest⟩ := passes_come_to_rest nestedContext
  refine ⟨hnested, hcount, hne, ?_, fun pass hpass => hrest hnested pass hpass _ 9 hcount.le⟩
  have := hfewer (nestedCalls 9 9) (hnested _) (CallArguments.pass nestedContext) (by simp) hne
  omega

end HouseStyle
