import HouseStyle.Edit.Settle
import Mathlib.Logic.Function.Iterate
import Mathlib.Tactic.SplitIfs

/-! # Repetition as iteration

To stop early when nothing changes makes no difference: `settle` is the eightfold iterate of the
change (`settle_eq_iterate`). So a second run is an iterate too, and `settle` reproduces its own
result exactly if the sixteenth iterate is the eighth (`settle_settle_iff`). Where a change cannot
come back to an earlier text, because a measure falls with every step that has an effect, this comes
down to the ninth iterate (`settle_settle_iff_of_measure`): the result is reproduced exactly if it
is at rest. As many steps as the measure says lead to rest (`iterate_fixed_of_measure_le`), so the
result is at rest if the measure was at most eight in the first place
(`settle_settle_of_measure_le`). -/

namespace HouseStyle

variable {change : Text → Text} {t : Text}

theorem settleWithin_eq_iterate (change : Text → Text) : ∀ (n : Nat) (t : Text),
    settleWithin change n t = change^[n] t
  | 0, _ => rfl
  | n + 1, t => by
    rw [settleWithin]
    split_ifs with h
    · rw [Function.iterate_fixed h]
    · rw [settleWithin_eq_iterate change n, Function.iterate_succ_apply]

theorem settle_eq_iterate (change : Text → Text) (t : Text) :
    settle change t = change^[maxPasses] t := settleWithin_eq_iterate change maxPasses t

theorem settle_induction {P : Text → Prop} (h : ∀ u, P u → P (change u)) (ht : P t) :
    P (settle change t) := by
  rw [settle_eq_iterate]
  exact Function.Iterate.rec P ht h maxPasses

theorem settle_of_fixed {u : Text} (h : change t = u) (hu : change u = u) :
    settle change t = u := by
  rw [settle_eq_iterate, show maxPasses = 7 + 1 from rfl, Function.iterate_succ_apply, h,
    Function.iterate_fixed hu]

theorem settle_settle_iff :
    settle change (settle change t) = settle change t ↔
      change^[maxPasses + maxPasses] t = change^[maxPasses] t := by
  simp only [settle_eq_iterate, Function.iterate_add_apply]

theorem measure_iterate_le {f : Text → Nat} (h : ∀ u, change u = u ∨ f (change u) < f u) (n : Nat)
    (t : Text) : f (change^[n] t) ≤ f t := by
  induction n with
  | zero => exact Nat.le_refl _
  | succ n ih =>
    rw [Function.iterate_succ_apply']
    rcases h (change^[n] t) with h | h
    · rw [h]; exact ih
    · omega

/-- **Settling twice under a measure.** If every effective step makes a measure fall, settling twice
is settling once exactly if the step after the last has no effect. -/
theorem settle_settle_iff_of_measure {f : Text → Nat}
    (h : ∀ u, change u = u ∨ f (change u) < f u) :
    settle change (settle change t) = settle change t ↔
      change^[maxPasses + 1] t = change^[maxPasses] t := by
  rw [settle_settle_iff, Nat.add_comm maxPasses 1, Function.iterate_add_apply,
    Function.iterate_add_apply change 1]
  generalize change^[maxPasses] t = u
  constructor
  · intro hu
    -- seven steps behind the first one lead back to `u`, so the first had no effect
    rcases h u with hfix | hlt
    · exact hfix
    · have hle := measure_iterate_le h (maxPasses - 1) (change u)
      rw [← Function.iterate_succ_apply, show (maxPasses - 1).succ = maxPasses from rfl, hu] at hle
      omega
  · exact fun hfix => Function.iterate_fixed hfix _

/-- Each effective step costs one, so as many steps as the measure says are enough. -/
theorem iterate_fixed_or_add_le {f : Text → Nat} (h : ∀ u, change u = u ∨ f (change u) < f u)
    (t : Text) : ∀ n : Nat, change (change^[n] t) = change^[n] t ∨ f (change^[n] t) + n ≤ f t
  | 0 => Or.inr (Nat.le_refl _)
  | n + 1 => by
    rw [Function.iterate_succ_apply']
    rcases iterate_fixed_or_add_le h t n with hfix | hle
    · exact Or.inl (by rw [hfix, hfix])
    · rcases h (change^[n] t) with hfix | hlt
      · exact Or.inl (by rw [hfix, hfix])
      · right; omega

/-- **As many steps as the measure says lead to rest.** -/
theorem iterate_fixed_of_measure_le {f : Text → Nat} (h : ∀ u, change u = u ∨ f (change u) < f u)
    {n : Nat} (hn : f t ≤ n) : change (change^[n] t) = change^[n] t := by
  rcases iterate_fixed_or_add_le h t n with hfix | hle
  · exact hfix
  · -- nothing is left to fall
    rcases h (change^[n] t) with hfix | hlt
    · exact hfix
    · omega

theorem settle_settle_of_measure_le {f : Text → Nat} (h : ∀ u, change u = u ∨ f (change u) < f u)
    (ht : f t ≤ maxPasses) : settle change (settle change t) = settle change t := by
  rw [settle_settle_iff_of_measure h, Function.iterate_succ_apply']
  exact iterate_fixed_of_measure_le h ht

end HouseStyle
