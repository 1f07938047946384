import HouseStyle.Evidence.Signals
import Mathlib.Algebra.BigOperators.Group.List.Basic
import Mathlib.Algebra.Order.Group.Int
import Mathlib.Tactic.SplitIfs

/-! # Merging in any order

Merged signals do not depend on the order in which files are given (`Signals.aggregate_perm`).
Counters are sums and the longest line is a maximum. The histogram is built count by count, and two
counts can be added in either order (`Histogram.bump_bump`): each finds its place by its width
alone, whatever stands there already. -/

namespace HouseStyle

namespace Histogram

variable {w w' : Int}

theorem bump_bump_of_lt (h : w < w') (n n' : Int) : ∀ l : Histogram,
    bump w n (bump w' n' l) = bump w' n' (bump w n l)
  | [] => by
    simp only [bump, if_pos h, if_neg (not_lt.mpr h.le), if_neg h.ne']
  | e :: l => by
    -- each width goes before `e`, on `e` or behind it, and only behind it the other can follow
    have ih := bump_bump_of_lt h n n' l
    grind [bump]

/-- **Counts can be added in either order.** -/
theorem bump_bump (w n w' n' : Int) (l : Histogram) :
    bump w n (bump w' n' l) = bump w' n' (bump w n l) := by
  rcases lt_trichotomy w w' with h | rfl | h
  · exact bump_bump_of_lt h n n' l
  · induction l with
    | nil => simp [bump, add_comm]
    | cons e l ih => grind [bump]
  · exact (bump_bump_of_lt h n' n l).symm

theorem merge_perm {ps qs : List (Int × Int)} (h : ps.Perm qs) : merge ps = merge qs :=
  h.foldl_eq' (fun p _ q _ l => bump_bump q.1 q.2 p.1 p.2 l) []

end Histogram

namespace Signals

variable {rs rs' : List Signals}

/-- **Merging does not depend on the order of the files.** -/
theorem aggregate_perm (h : rs.Perm rs') : aggregate rs = aggregate rs' := by
  have hcount : ∀ c, (rs.map (·.count c)).foldr (· + ·) 0 = (rs'.map (·.count c)).foldr (· + ·) 0 :=
    fun c => (h.map _).sum_eq
  have hlongest : rs.foldl (fun m r => max m r.longestLine) 0 =
      rs'.foldl (fun m r => max m r.longestLine) 0 :=
    h.foldl_eq' (fun r _ r' _ m => max_right_comm m r.longestLine r'.longestLine) 0
  have hsizes := Histogram.merge_perm (h.flatMap_right (·.indentSizes))
  have hlength := h.length_eq
  unfold aggregate
  rw [hlongest, hsizes, hlength, funext hcount]

end Signals

end HouseStyle
