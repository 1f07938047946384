import HouseStyle.Proofs.Edit.Iteration
import Mathlib.Data.ENat.Lattice

/-! # The time to rest

A change comes to rest on a text after some number of steps, or never (`timeToRest`). One
equivalence says what this number is: it is at most `n` exactly if the step behind the `n`th has no
effect (`timeToRest_le_iff`). From then on the iterates stay where they are
(`iterate_of_timeToRest_le`), so a run of at most `n` passes ends at the iterate whose number is the
smaller of `n` and the time to rest (`settleWithin_eq_iterate_min`), and its result is at rest
exactly if that was the time to rest (`fixed_settleWithin_iff`).

A result at rest is reproduced by a second run. The converse does not hold: a change that goes back
and forth comes back to its result after as many steps as there are passes. -/

namespace HouseStyle

variable {change : Text → Text} {t : Text}

/-- The number of steps after which a change has no further effect on a text, infinite if it always
has one. -/
noncomputable def timeToRest (change : Text → Text) (t : Text) : ℕ∞ :=
  sInf {n | ∃ k : ℕ, n = k ∧ change^[k + 1] t = change^[k] t}

theorem iterate_fixed_of_le {m n : ℕ} (h : change^[m + 1] t = change^[m] t) (hmn : m ≤ n) :
    change^[n] t = change^[m] t := by
  obtain ⟨k, rfl⟩ := Nat.exists_eq_add_of_le hmn
  rw [Function.iterate_succ_apply'] at h
  rw [Nat.add_comm, Function.iterate_add_apply, Function.iterate_fixed h]

/-- **At rest by a step**: the time to rest is at most `n` exactly if the step behind the `n`th has
no effect. -/
theorem timeToRest_le_iff {n : ℕ} : timeToRest change t ≤ n ↔ change^[n + 1] t = change^[n] t := by
  constructor
  · intro h
    have hsome : {m : ℕ∞ | ∃ k : ℕ, m = k ∧ change^[k + 1] t = change^[k] t}.Nonempty := by
      rw [Set.nonempty_iff_ne_empty]
      intro hnone
      rw [timeToRest, hnone, sInf_empty, top_le_iff] at h
      exact ENat.natCast_ne_top n h
    obtain ⟨k, hk, hrest⟩ := csInf_mem hsome
    have hkn : k ≤ n := by
      rw [timeToRest, hk] at h
      exact_mod_cast h
    rw [iterate_fixed_of_le hrest hkn, iterate_fixed_of_le hrest (by omega : k ≤ n + 1)]
  · intro h
    exact sInf_le ⟨n, rfl, h⟩

theorem iterate_of_timeToRest_le {m n : ℕ} (h : timeToRest change t ≤ m) (hmn : m ≤ n) :
    change^[n] t = change^[m] t := iterate_fixed_of_le (timeToRest_le_iff.mp h) hmn

theorem settleWithin_eq_iterate_min (change : Text → Text) (n : ℕ) (t : Text) :
    settleWithin change n t = change^[(min (timeToRest change t) n).toNat] t := by
  rw [settleWithin_eq_iterate]
  rcases le_total (timeToRest change t) n with h | h
  · obtain ⟨m, hm⟩ := ENat.ne_top_iff_exists.mp (ne_top_of_le_ne_top (ENat.natCast_ne_top n) h)
    have hmn : m ≤ n := by
      rw [← hm] at h
      exact_mod_cast h
    rw [min_eq_left h, ← hm, ENat.toNat_natCast]
    exact iterate_of_timeToRest_le hm.ge hmn
  · rw [min_eq_right h, ENat.toNat_natCast]

theorem fixed_settleWithin_iff (change : Text → Text) (n : ℕ) (t : Text) :
    change (settleWithin change n t) = settleWithin change n t ↔ timeToRest change t ≤ n := by
  rw [settleWithin_eq_iterate, timeToRest_le_iff, Function.iterate_succ_apply']

/-- **What settling returns.** It is the iterate whose number is the time to rest, but the eighth if
that is later or never; it is at rest exactly if the time to rest is at most eight; and then
settling it again leaves it as it is. -/
theorem settle_by_timeToRest (change : Text → Text) (t : Text) :
    settle change t = change^[(min (timeToRest change t) 8).toNat] t ∧
    (change (settle change t) = settle change t ↔ timeToRest change t ≤ 8) ∧
    (timeToRest change t ≤ 8 → settle change (settle change t) = settle change t) := by
  refine ⟨settleWithin_eq_iterate_min change maxPasses t, fixed_settleWithin_iff change maxPasses t,
    ?_⟩
  intro h
  have hfixed := (fixed_settleWithin_iff change maxPasses t).mpr h
  exact settle_of_fixed hfixed hfixed

/-- A text of eight characters that loses one with each step is at rest just in time. -/
theorem settle_by_timeToRest_eight :
    timeToRest List.tail (List.replicate 8 'a') ≤ 8 ∧ settle List.tail (List.replicate 8 'a') = [] ∧
      settle List.tail (settle List.tail (List.replicate 8 'a')) =
        settle List.tail (List.replicate 8 'a') := by
  have hrest : timeToRest List.tail (List.replicate 8 'a') ≤ 8 :=
    timeToRest_le_iff.mpr (by decide)
  exact ⟨hrest, by decide, (settle_by_timeToRest List.tail (List.replicate 8 'a')).2.2 hrest⟩

/-- One character more is one too many. -/
example : settle List.tail (List.replicate 9 'a') = ['a'] := by decide

/-- A change that goes back and forth has its result reproduced, but not at rest. -/
example : let turn : Text → Text := fun t => if t = [] then ['a'] else []
    settle turn (settle turn []) = settle turn [] ∧ turn (settle turn []) ≠ settle turn [] := by
      decide

end HouseStyle
