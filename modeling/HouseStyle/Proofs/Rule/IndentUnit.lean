import HouseStyle.Proofs.Rule.Inference
import Mathlib.Algebra.GCDMonoid.Finset
import Mathlib.Algebra.GCDMonoid.Nat
import Mathlib.Algebra.Order.BigOperators.Group.List
import Mathlib.Data.Finset.Max

/-! # The unit of indentation in closed form

What counts in a histogram are the positive widths with a positive count (`usedWidths`). Folded
along the entries, the greatest common divisor and the minimum are those of the set of these widths
(`foldl_gcd_eq`, `foldl_min_eq`). The search among two, four and eight has no choice: a multiple of
four or eight is one of two, so with positive counts neither scores better than two (`score_anti`),
and two scores at all exactly if some width is even (`score_pos_iff`). -/

namespace HouseStyle.Histogram

/-- The entries that count: a positive width with a positive count. -/
def used (h : Histogram) : Histogram := h.filter fun e => 0 < e.1 && 0 < e.2

/-- The widths that count, once each. -/
def usedWidths (h : Histogram) : Finset Int := (h.used.map (·.1)).toFinset

/-- The search for the best unit among two, four and eight. -/
def bestUnit (h : Histogram) : Int × Int := [2, 4, 8].foldl (bestStep h) (2, -1)

section
variable {h : Histogram}

theorem mem_used {e : Int × Int} : e ∈ h.used ↔ e ∈ h ∧ 0 < e.1 ∧ 0 < e.2 := by
  rw [used, List.mem_filter, Bool.and_eq_true, decide_eq_true_eq, decide_eq_true_eq]

/-! ### Folds along the entries -/

theorem dvd_foldl_gcd_iff {d : Int} : ∀ {l : Histogram} {g : Nat},
    d ∣ (l.foldl (fun g e => Int.gcd g e.1) g : Nat) ↔ d ∣ g ∧ ∀ e ∈ l, d ∣ e.1
  | [], g => by simp
  | e :: l, g => by
    rw [List.foldl_cons, dvd_foldl_gcd_iff, Int.dvd_coe_gcd_iff, List.forall_mem_cons, and_assoc]

theorem le_foldl_min_iff {k : Int} : ∀ {l : Histogram} {m : Int},
    k ≤ l.foldl (fun m e => min m e.1) m ↔ k ≤ m ∧ ∀ e ∈ l, k ≤ e.1
  | [], m => by simp
  | e :: l, m => by
    rw [List.foldl_cons, le_foldl_min_iff, le_min_iff, List.forall_mem_cons, and_assoc]

variable {first : Int × Int} {rest : Histogram} (hused : h.used = first :: rest)
include hused

theorem forall_usedWidths {p : Int → Prop} :
    (∀ w ∈ h.usedWidths, p w) ↔ p first.1 ∧ ∀ e ∈ rest, p e.1 := by
  rw [usedWidths, hused, List.map_cons, List.toFinset_cons, Finset.forall_mem_insert]
  simp only [List.mem_toFinset, List.forall_mem_map]

/-- **The folded divisor** is the greatest one that all widths have in common. -/
theorem foldl_gcd_eq :
    ((rest.foldl (fun g e => Int.gcd g e.1) first.1.natAbs : Nat) : Int) = h.usedWidths.gcd id := by
  have hdvd : ∀ d : Int, d ∣ (rest.foldl (fun g e => Int.gcd g e.1) first.1.natAbs : Nat) ↔
      d ∣ h.usedWidths.gcd id := by
    intro d
    rw [dvd_foldl_gcd_iff, Finset.dvd_gcd_iff, Int.dvd_natAbs, ← forall_usedWidths hused]
    rfl
  have hnonneg : 0 ≤ h.usedWidths.gcd id := Int.nonneg_of_normalize_eq_self Finset.normalize_gcd
  exact Int.dvd_antisymm (Int.natCast_nonneg _) hnonneg ((hdvd _).mp dvd_rfl) ((hdvd _).mpr dvd_rfl)

/-- **The folded minimum** is the smallest of all widths. -/
theorem foldl_min_eq (hne : h.usedWidths.Nonempty) :
    rest.foldl (fun m e => min m e.1) first.1 = h.usedWidths.min' hne := by
  refine eq_of_forall_le_iff fun k => ?_
  rw [le_foldl_min_iff, Finset.le_min'_iff, ← forall_usedWidths hused]

end

/-! ### Scores -/

section
variable {l : Histogram} (hpos : ∀ e ∈ l, 0 < e.2)
include hpos

theorem counts_nonneg (p : Int × Int → Bool) : ∀ n ∈ (l.filter p).map (·.2), 0 ≤ n := by
  intro n hn
  obtain ⟨e, he, rfl⟩ := List.mem_map.mp hn
  exact (hpos e (List.mem_filter.mp he).1).le

/-- **A multiple scores no better** than what it is a multiple of. -/
theorem score_anti {u v : Int} (huv : u ∣ v) : l.score v ≤ l.score u := by
  have hsub : (l.filter (·.1 % v == 0)).Sublist (l.filter (·.1 % u == 0)) := by
    refine List.monotone_filter_right l fun e he => ?_
    rw [beq_iff_eq] at he ⊢
    exact Int.emod_eq_zero_of_dvd (huv.trans (Int.dvd_of_emod_eq_zero he))
  exact (hsub.map _).sum_le_sum (counts_nonneg hpos _)

theorem score_pos_iff {u : Int} : 0 < l.score u ↔ ∃ e ∈ l, u ∣ e.1 := by
  constructor
  · intro hscore
    by_contra hnone
    push Not at hnone
    have hempty : l.filter (·.1 % u == 0) = [] :=
      List.filter_eq_nil_iff.mpr fun e he hdvd =>
        hnone e he (Int.dvd_of_emod_eq_zero (beq_iff_eq.mp hdvd))
    rw [score, hempty] at hscore
    exact absurd hscore (lt_irrefl 0)
  · rintro ⟨e, he, hdvd⟩
    have hmem : e.2 ∈ (l.filter (·.1 % u == 0)).map (·.2) :=
      List.mem_map_of_mem (List.mem_filter.mpr ⟨he, beq_iff_eq.mpr (Int.emod_eq_zero_of_dvd hdvd)⟩)
    exact (hpos e he).trans_le (List.single_le_sum (counts_nonneg hpos _) _ hmem)

/-- **Two is the best unit**, whatever the counts. -/
theorem bestUnit_eq : l.bestUnit = (2, l.score 2) := by
  have hnonneg : 0 ≤ l.score 2 := List.sum_nonneg (counts_nonneg hpos _)
  have hfour : l.score 4 ≤ l.score 2 := score_anti hpos (by decide)
  have height : l.score 8 ≤ l.score 2 := score_anti hpos (by decide)
  have htwo : bestStep l (2, -1) 2 = (2, l.score 2) := if_pos (by dsimp only; omega)
  rw [bestUnit, List.foldl_cons, List.foldl_cons, List.foldl_cons, List.foldl_nil, htwo, bestStep,
    bestStep, if_neg (not_lt.mpr hfour), if_neg (not_lt.mpr height)]

end

/-! ### The unit -/

variable (h : Histogram)

theorem used_pos : ∀ e ∈ h.used, 0 < e.2 := fun _ he => (mem_used.mp he).2.2

theorem score_used_pos_iff : 0 < h.used.score 2 ↔ ∃ w ∈ h.usedWidths, Even w := by
  rw [score_pos_iff h.used_pos]
  simp only [usedWidths, List.mem_toFinset, List.mem_map, exists_exists_and_eq_and,
    even_iff_two_dvd]

theorem indentUnit_parts : h.indentUnit = match h.used with
    | [] => 2
    | first :: rest =>
      let unit : Int := (rest.foldl (fun g e => Int.gcd g e.1) first.1.natAbs : Nat)
      if 2 ≤ unit ∧ unit ≤ 8 then unit
      else if 0 < h.used.bestUnit.2 then h.used.bestUnit.1
      else rest.foldl (fun m e => min m e.1) first.1 := rfl

theorem indentUnit_of_empty (hnone : h.usedWidths = ∅) : h.indentUnit = 2 := by
  have hused : h.used = [] := by simpa [usedWidths] using hnone
  rw [indentUnit_parts, hused]

theorem indentUnit_of_nonempty (hne : h.usedWidths.Nonempty) : h.indentUnit =
    if 2 ≤ h.usedWidths.gcd id ∧ h.usedWidths.gcd id ≤ 8 then h.usedWidths.gcd id
    else if ∃ w ∈ h.usedWidths, Even w then 2 else h.usedWidths.min' hne := by
  rw [indentUnit_parts]
  cases hused : h.used with
  | nil => simp [usedWidths, hused] at hne
  | cons first rest =>
    dsimp only
    rw [← hused, bestUnit_eq h.used_pos, foldl_gcd_eq hused, foldl_min_eq hused hne]
    simp only [score_used_pos_iff]

/-- **The unit of indentation.** It is two if no width counts, else the greatest common divisor of
the widths that do, if that lies between two and eight, else two if one of them is even, and else
the smallest of them. So the search never ends at four or eight, of the counts it only matters which
are positive, and the unit is at least one. -/
theorem indentUnit_eq :
    (h.usedWidths = ∅ → h.indentUnit = 2) ∧
    (∀ hne : h.usedWidths.Nonempty, h.indentUnit =
      if 2 ≤ h.usedWidths.gcd id ∧ h.usedWidths.gcd id ≤ 8 then h.usedWidths.gcd id
      else if ∃ w ∈ h.usedWidths, Even w then 2 else h.usedWidths.min' hne) ∧
    h.used.bestUnit.1 = 2 ∧
    (∀ h' : Histogram, h'.usedWidths = h.usedWidths → h'.indentUnit = h.indentUnit) ∧
    1 ≤ h.indentUnit := by
  refine ⟨h.indentUnit_of_empty, h.indentUnit_of_nonempty, by rw [bestUnit_eq h.used_pos],
    fun h' hsame => ?_, h.indentUnit_pos⟩
  rcases h.usedWidths.eq_empty_or_nonempty with hnone | hne
  · rw [h.indentUnit_of_empty hnone, h'.indentUnit_of_empty (hsame.trans hnone)]
  · rw [h.indentUnit_of_nonempty hne, h'.indentUnit_of_nonempty (hsame ▸ hne)]
    simp only [hsame]

/-- Nine is too wide for a common divisor, and the smallest width only if none is even. -/
example : indentUnit [(9, 3), (27, 1)] = 9 ∧ indentUnit [(9, 3), (10, 1)] = 2 := by decide +kernel

end HouseStyle.Histogram
