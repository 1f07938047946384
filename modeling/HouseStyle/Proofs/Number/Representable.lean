import HouseStyle.Number.Reader
import HouseStyle.Proofs.Number.Rounding

/-! # Representable numbers

A rational is a floating-point number if it is on its own grid. What is rounded to a grid can leave
it only by reaching the power of two at its end, which is on the next grid, too
(`exists_onGrid_eq`). So every rounded number is representable (`representable_round`), and every
number that is read from a text (`representable_ofText?`).

A representable number that exceeds a rounded one exceeds the number before it was rounded
(`lt_of_round_lt`). -/

namespace HouseStyle.Double

/-! ### Grids of grid values -/

theorem abs_onGrid_le {q : ℚ} {m : ℤ} (hm : gridExponent q ≤ m) (h : |q| ≤ (2 : ℚ) ^ m) :
    |onGrid q| ≤ (2 : ℚ) ^ m := by
  obtain ⟨hlow, hhigh⟩ := abs_le.mp h
  have hgrid := exists_mul_step hm
  exact abs_le.mpr ⟨le_onGrid (neg_mem_grid hgrid) hlow, onGrid_le hgrid hhigh⟩

/-- **A grid value is on its own grid.** -/
theorem exists_onGrid_eq (q : ℚ) : ∃ k : ℤ, onGrid q = k * step (onGrid q) := by
  by_cases hfine : gridExponent (onGrid q) ≤ gridExponent q
  · obtain ⟨j, hj⟩ := exists_mul_step hfine
    refine ⟨nearestInt (q / step q) * j, ?_⟩
    rw [Int.cast_mul, mul_assoc, ← hj]
    rfl
  by_cases hv : onGrid q = 0
  · exact ⟨0, by rw [hv, Int.cast_zero, zero_mul]⟩
  have hq : q ≠ 0 := by
    rintro rfl
    exact hv onGrid_zero
  -- the grid got coarser, so the value is the power of two where the next grid begins
  have hlow := (binaryExponent_bounds (abs_pos.mpr hv)).1
  have hup := (binaryExponent_bounds (abs_pos.mpr hq)).2
  set m := binaryExponent |onGrid q| with hm
  have hexp : binaryExponent |q| + 1 ≤ m ∧ gridExponent q ≤ m ∧ gridExponent (onGrid q) ≤ m := by
    unfold gridExponent at hfine ⊢
    rw [abs_eq_abs, abs_eq_abs, ← hm] at hfine ⊢
    omega
  have hpow : |q| ≤ (2 : ℚ) ^ m := hup.le.trans (zpow_le_zpow_right₀ (by norm_num) hexp.1)
  have habs : |onGrid q| = (2 : ℚ) ^ m := le_antisymm (abs_onGrid_le hexp.2.1 hpow) hlow
  have hgrid := exists_mul_step hexp.2.2
  rcases eq_or_eq_neg_of_abs_eq habs with heq | heq
  · obtain ⟨k, hk⟩ := hgrid
    exact ⟨k, heq.trans hk⟩
  · obtain ⟨k, hk⟩ := neg_mem_grid hgrid
    exact ⟨k, heq.trans hk⟩

/-! ### Numbers on their grids -/

/-- A number whose value is a multiple of the distance between its neighbours, as it is for every
number with 53 significant bits. How large it is does not matter. -/
def Representable (x : Double) : Prop := ∃ k : ℤ, x.toRat = k * step x.toRat

theorem representable_of_toRat_eq_zero {x : Double} (h : x.toRat = 0) : x.Representable :=
  ⟨0, by rw [h, Int.cast_zero, zero_mul]⟩

/-- **Rounded numbers are representable.** -/
theorem representable_round (q : ℚ) : (round q).Representable := by
  rcases round_cases q with ⟨h, -⟩ | ⟨h, -⟩ | ⟨-, hval, -, -⟩
  · rw [h]
    exact representable_of_toRat_eq_zero rfl
  · rw [h]
    exact representable_of_toRat_eq_zero rfl
  · unfold Representable
    rw [hval]
    exact exists_onGrid_eq q

theorem representable_of_round_eq {q : ℚ} (h : round q = finite q) : (finite q).Representable := by
  rw [← h]
  exact representable_round q

theorem toRat_neg (x : Double) : x.neg.toRat = -x.toRat := by
  cases x with
  | finite q =>
    by_cases h : q = 0
    · subst h
      exact neg_zero.symm
    · rw [neg_finite h]
      rfl
  | _ => exact neg_zero.symm

theorem step_neg (q : ℚ) : step (-q) = step q := by
  rw [step_eq, step_eq, gridExponent, gridExponent, abs_eq_abs, abs_eq_abs, abs_neg]

namespace Representable

variable {x y : Double}

protected theorem neg (hx : x.Representable) : x.neg.Representable := by
  unfold Representable
  rw [toRat_neg, step_neg]
  exact neg_mem_grid hx

protected theorem larger (hx : x.Representable) (hy : y.Representable) :
    (x.larger y).Representable := by
  unfold larger
  split_ifs
  · exact hy
  · exact hx

protected theorem smaller (hx : x.Representable) (hy : y.Representable) :
    (x.smaller y).Representable := by
  unfold smaller
  split_ifs
  · exact hy
  · exact hx

/-- **What exceeds a rounded number exceeds the number itself**, if it is representable. -/
theorem lt_of_round_lt (hx : x.Representable) (hfin : x.isFinite = true) {q : ℚ}
    (hq : (round q).isFinite = true) (h : (round q).lt x = true) : q < x.toRat := by
  rcases round_cases q with ⟨hinf, -⟩ | ⟨hinf, -⟩ | ⟨-, hval, -, -⟩
  · rw [hinf] at hq
    cases hq
  · rw [hinf] at hq
    cases hq
  · rw [lt_iff_of_isFinite hq hfin, hval] at h
    by_contra hle
    have hmono := onGrid_mono (not_lt.mp hle)
    rw [onGrid_eq_self hx] at hmono
    exact absurd h (not_lt.mpr hmono)

end Representable

/-! ### Numbers from texts -/

theorem representable_ofDecimal (m : ℕ) (e : ℤ) : (ofDecimal m e).Representable := by
  unfold ofDecimal
  split_ifs
  · exact representable_of_toRat_eq_zero rfl
  · dsimp only
    split_ifs
    · exact representable_of_toRat_eq_zero rfl
    · exact representable_of_toRat_eq_zero rfl
    · exact representable_round _

theorem representable_readNumeral? {t : Text} {x : Double} (h : readNumeral? t = some x) :
    x.Representable := by
  unfold readNumeral? at h
  dsimp only at h
  split_ifs at h
  obtain ⟨e, -, rfl⟩ := Option.map_eq_some_iff.mp h
  exact representable_ofDecimal _ _

/-- **Numbers that are read are representable.** -/
theorem representable_ofText? {t : Text} {x : Double} (h : ofText? t = some x) :
    x.Representable := by
  unfold ofText? at h
  dsimp only at h
  split at h
  · cases h
  · obtain ⟨y, hy, rfl⟩ := Option.map_eq_some_iff.mp h
    have hrep : y.Representable := by
      split_ifs at hy
      · cases hy
        exact representable_of_toRat_eq_zero rfl
      · cases hy
        exact representable_of_toRat_eq_zero rfl
      · exact representable_readNumeral? hy
    split_ifs
    · exact hrep.neg
    · exact hrep

end HouseStyle.Double
