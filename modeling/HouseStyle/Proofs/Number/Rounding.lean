import HouseStyle.Number.Double
import Mathlib.Algebra.Order.Field.Power
import Mathlib.Data.Rat.Floor
import Mathlib.Tactic.Linarith
import Mathlib.Tactic.NormNum

/-! # Rounding is monotone

`Double.round` takes a rational to the nearest multiple of a power of two, and this power depends on
the rational. On one grid the nearest multiple is monotone, because the nearest integer is
(`nearestInt_mono`). Between two numbers of different grids lies a power of two that is on both
grids (`exists_zpow_between`), and a point of a grid is not passed by what is rounded to that grid
(`onGrid_le`, `le_onGrid`). So the grid value is monotone everywhere (`onGrid_mono`), and `round` is
(`round_mono`), with the infinities at the ends. Numbers of at most 53 bits stay as they are
(`round_mul_zpow`).

Comparison of floating-point numbers is a preorder on those that are defined (`le_refl`,
`le_trans`), and `larger`, `smaller` and subtraction of a constant respect it. -/

namespace HouseStyle.Double

/-! ### Nearest integers -/

theorem nearestInt_intCast (z : ℤ) : nearestInt (z : ℚ) = z := by
  unfold nearestInt
  simp

theorem abs_nearestInt_sub_le (q : ℚ) : |(nearestInt q : ℚ) - q| ≤ 1 / 2 := by
  have hle : ((q.floor : ℤ) : ℚ) ≤ q := Int.floor_le q
  have hlt : q < (q.floor : ℤ) + 1 := Int.lt_floor_add_one q
  rw [abs_le]
  simp only [nearestInt]
  split_ifs with h1 h2 h3
  · constructor <;> linarith
  · push_cast
    constructor <;> linarith
  · constructor <;> linarith
  · push_cast
    constructor <;> linarith

/-- **The nearest integer is monotone.** Both are within a half of their numbers, so they can only
be out of order if the numbers are equal. -/
theorem nearestInt_mono {p q : ℚ} (h : p ≤ q) : nearestInt p ≤ nearestInt q := by
  by_contra hlt
  have hstep : nearestInt q + 1 ≤ nearestInt p := by omega
  have hcast : (nearestInt q : ℚ) + 1 ≤ nearestInt p := by exact_mod_cast hstep
  have hp := abs_le.mp (abs_nearestInt_sub_le p)
  have hq := abs_le.mp (abs_nearestInt_sub_le q)
  have heq : p = q := by linarith
  subst heq
  omega

/-! ### Exponents -/

theorem abs_eq_abs (q : ℚ) : q.abs = |q| := by
  unfold Rat.abs
  split_ifs with h
  · rw [abs_of_nonneg h]
  · rw [abs_of_neg (not_le.mp h)]

theorem log2_bounds {n : ℕ} (hn : n ≠ 0) :
    (2 : ℚ) ^ (n.log2 : ℤ) ≤ n ∧ (n : ℚ) < (2 : ℚ) ^ ((n.log2 : ℤ) + 1) := by
  rw [← Nat.cast_succ, zpow_natCast, zpow_natCast]
  exact ⟨by exact_mod_cast Nat.log2_self_le hn, by exact_mod_cast Nat.lt_log2_self⟩

/-- The exponent by the lengths of numerator and denominator is right or one too large. -/
theorem binaryExponent_bounds {a : ℚ} (ha : 0 < a) :
    (2 : ℚ) ^ binaryExponent a ≤ a ∧ a < (2 : ℚ) ^ (binaryExponent a + 1) := by
  have h2 : (2 : ℚ) ≠ 0 := by norm_num
  have hnum : 0 < a.num := Rat.num_pos.mpr ha
  have hdpos : (0 : ℚ) < a.den := by exact_mod_cast a.den_pos
  obtain ⟨hn, hn'⟩ := log2_bounds (n := a.num.natAbs) (by omega)
  obtain ⟨hd, hd'⟩ := log2_bounds a.den_nz
  have hcast : ((a.num.natAbs : ℕ) : ℚ) = (a.num : ℚ) := by
    rw [← Int.cast_natCast, Int.natAbs_of_nonneg hnum.le]
  rw [hcast] at hn hn'
  have hquot : a * a.den = a.num := by
    have := Rat.num_div_den a
    rw [div_eq_iff hdpos.ne'] at this
    exact this.symm
  -- `a` lies strictly between the powers next to the estimated one
  have hupper : a < (2 : ℚ) ^ ((a.num.natAbs.log2 : ℤ) - a.den.log2 + 1) := by
    have hsplit : (2 : ℚ) ^ ((a.num.natAbs.log2 : ℤ) + 1) =
        (2 : ℚ) ^ ((a.num.natAbs.log2 : ℤ) - a.den.log2 + 1) * (2 : ℚ) ^ (a.den.log2 : ℤ) := by
      rw [← zpow_add₀ h2]
      congr 1
      omega
    have hpow : (0 : ℚ) < (2 : ℚ) ^ ((a.num.natAbs.log2 : ℤ) - a.den.log2 + 1) := by positivity
    by_contra hge
    have hmul := mul_le_mul (not_lt.mp hge) hd (by positivity) ha.le
    rw [← hsplit, hquot] at hmul
    linarith
  have hlower : (2 : ℚ) ^ ((a.num.natAbs.log2 : ℤ) - a.den.log2 - 1) ≤ a := by
    have hsplit : (2 : ℚ) ^ (a.num.natAbs.log2 : ℤ) =
        (2 : ℚ) ^ ((a.num.natAbs.log2 : ℤ) - a.den.log2 - 1) *
          (2 : ℚ) ^ ((a.den.log2 : ℤ) + 1) := by
      rw [← zpow_add₀ h2]
      congr 1
      omega
    by_contra hlt
    have hmul := mul_lt_mul (not_le.mp hlt) hd'.le hdpos (by positivity)
    rw [← hsplit, hquot] at hmul
    linarith
  unfold binaryExponent
  dsimp only
  split_ifs with hk
  · exact ⟨hk, hupper⟩
  · refine ⟨hlower, ?_⟩
    rw [sub_add_cancel]
    exact not_le.mp hk

theorem binaryExponent_mono {a b : ℚ} (ha : 0 < a) (h : a ≤ b) :
    binaryExponent a ≤ binaryExponent b := by
  have hlow := (binaryExponent_bounds ha).1
  have hhigh := (binaryExponent_bounds (ha.trans_le h)).2
  have hlt : (2 : ℚ) ^ binaryExponent a < (2 : ℚ) ^ (binaryExponent b + 1) := by linarith
  have := (zpow_lt_zpow_iff_right₀ (by norm_num : (1 : ℚ) < 2)).mp hlt
  omega

/-! ### Grids -/

/-- The exponent of the distance between neighbouring numbers around `q`. -/
def gridExponent (q : ℚ) : ℤ := max (binaryExponent q.abs - 52) (-1074)

theorem step_eq (q : ℚ) : step q = (2 : ℚ) ^ gridExponent q := rfl

theorem step_pos (q : ℚ) : 0 < step q := by
  rw [step_eq]
  positivity

/-- The multiple of the step that is nearest to `q`. -/
def onGrid (q : ℚ) : ℚ := (nearestInt (q / step q) : ℚ) * step q

theorem onGrid_le {q b : ℚ} (hb : ∃ k : ℤ, b = k * step q) (h : q ≤ b) : onGrid q ≤ b := by
  obtain ⟨k, rfl⟩ := hb
  have hq : q / step q ≤ k := (div_le_iff₀ (step_pos q)).mpr h
  have hk := nearestInt_mono hq
  rw [nearestInt_intCast] at hk
  exact mul_le_mul_of_nonneg_right (by exact_mod_cast hk) (step_pos q).le

theorem le_onGrid {q b : ℚ} (hb : ∃ k : ℤ, b = k * step q) (h : b ≤ q) : b ≤ onGrid q := by
  obtain ⟨k, rfl⟩ := hb
  have hq : k ≤ q / step q := (le_div_iff₀ (step_pos q)).mpr h
  have hk := nearestInt_mono hq
  rw [nearestInt_intCast] at hk
  exact mul_le_mul_of_nonneg_right (by exact_mod_cast hk) (step_pos q).le

theorem onGrid_eq_self {q : ℚ} (h : ∃ k : ℤ, q = k * step q) : onGrid q = q :=
  le_antisymm (onGrid_le h le_rfl) (le_onGrid h le_rfl)

theorem onGrid_zero : onGrid 0 = 0 := by
  unfold onGrid
  rw [zero_div, ← Int.cast_zero, nearestInt_intCast, Int.cast_zero, zero_mul]

theorem onGrid_nonneg {q : ℚ} (h : 0 ≤ q) : 0 ≤ onGrid q := le_onGrid ⟨0, by simp⟩ h

theorem onGrid_nonpos {q : ℚ} (h : q ≤ 0) : onGrid q ≤ 0 := onGrid_le ⟨0, by simp⟩ h

theorem exists_mul_step {q : ℚ} {m : ℤ} (h : gridExponent q ≤ m) :
    ∃ k : ℤ, (2 : ℚ) ^ m = k * step q := by
  refine ⟨2 ^ (m - gridExponent q).toNat, ?_⟩
  rw [step_eq, Int.cast_pow, Int.cast_ofNat, ← zpow_natCast, ← zpow_add₀ (by norm_num)]
  congr 1
  omega

theorem neg_mem_grid {q b : ℚ} (h : ∃ k : ℤ, b = k * step q) : ∃ k : ℤ, -b = k * step q := by
  obtain ⟨k, rfl⟩ := h
  exact ⟨-k, by push_cast; ring⟩

theorem onGrid_mono_of_step_eq {p q : ℚ} (hstep : step p = step q) (h : p ≤ q) :
    onGrid p ≤ onGrid q := by
  unfold onGrid
  rw [hstep]
  have hdiv : p / step q ≤ q / step q := div_le_div_of_nonneg_right h (step_pos q).le
  exact mul_le_mul_of_nonneg_right (by exact_mod_cast nearestInt_mono hdiv) (step_pos q).le

/-- **Between numbers of different grids** lies a power of two, and it is on both. -/
theorem exists_zpow_between {p q : ℚ} (hp : 0 < |p|) (h : |p| ≤ |q|) (hne : step p ≠ step q) :
    ∃ m : ℤ, |p| ≤ (2 : ℚ) ^ m ∧ (2 : ℚ) ^ m ≤ |q| ∧ gridExponent p ≤ m ∧ gridExponent q ≤ m := by
  have hexp : binaryExponent |p| ≤ binaryExponent |q| := binaryExponent_mono hp h
  have hgrid : gridExponent p ≠ gridExponent q := fun heq => hne (by rw [step_eq, step_eq, heq])
  have hup := (binaryExponent_bounds hp).2
  have hlow := (binaryExponent_bounds (hp.trans_le h)).1
  unfold gridExponent at hgrid ⊢
  rw [abs_eq_abs, abs_eq_abs] at hgrid ⊢
  refine ⟨binaryExponent |q|, ?_, hlow, by omega, by omega⟩
  have hmono : (2 : ℚ) ^ (binaryExponent |p| + 1) ≤ (2 : ℚ) ^ binaryExponent |q| :=
    zpow_le_zpow_right₀ (by norm_num) (by omega)
  linarith

/-- **The grid value is monotone.** -/
theorem onGrid_mono {p q : ℚ} (h : p ≤ q) : onGrid p ≤ onGrid q := by
  by_cases hstep : step p = step q
  · exact onGrid_mono_of_step_eq hstep h
  rcases lt_trichotomy p 0 with hp | rfl | hp
  · rcases lt_or_ge q 0 with hq | hq
    · -- two negative numbers, the first of larger size
      have habs : |q| ≤ |p| := by rw [abs_of_neg hp, abs_of_neg hq]; linarith
      obtain ⟨m, h1, h2, h3, h4⟩ :=
        exists_zpow_between (abs_pos.mpr hq.ne) habs fun heq => hstep heq.symm
      rw [abs_of_neg hq] at h1
      rw [abs_of_neg hp] at h2
      have hpm := onGrid_le (neg_mem_grid (exists_mul_step h4)) (by linarith : p ≤ -(2 : ℚ) ^ m)
      have hqm := le_onGrid (neg_mem_grid (exists_mul_step h3)) (by linarith : -(2 : ℚ) ^ m ≤ q)
      linarith
    · have hp' := onGrid_nonpos hp.le
      have hq' := onGrid_nonneg hq
      linarith
  · rw [onGrid_zero]
    exact onGrid_nonneg h
  · have hq : 0 < q := hp.trans_le h
    have habs : |p| ≤ |q| := by rwa [abs_of_pos hp, abs_of_pos hq]
    obtain ⟨m, h1, h2, h3, h4⟩ := exists_zpow_between (abs_pos.mpr hp.ne') habs hstep
    rw [abs_of_pos hp] at h1
    rw [abs_of_pos hq] at h2
    exact (onGrid_le (exists_mul_step h3) h1).trans (le_onGrid (exists_mul_step h4) h2)

/-! ### Comparison -/

/-- **Comparison, by cases**: below everything, above everything, or by value. -/
theorem le_iff {x y : Double} :
    x.le y = true ↔ x ≠ nan ∧ y ≠ nan ∧ (x = infinite true ∨ y = infinite false ∨
      (x.isFinite = true ∧ y.isFinite = true ∧ x.toRat ≤ y.toRat)) := by
  rcases x with _ | _ | ⟨_ | _⟩ | _ <;> rcases y with _ | _ | ⟨_ | _⟩ | _ <;>
    simp [le, isFinite, toRat, -decide_eq_true_eq]
  all_goals exact decide_eq_true_iff

theorem le_iff_of_isFinite {x y : Double} (hx : x.isFinite = true) (hy : y.isFinite = true) :
    x.le y = true ↔ x.toRat ≤ y.toRat := by
  cases x <;> cases y <;> simp_all [isFinite, le]

theorem ne_nan_of_isFinite {x : Double} (hx : x.isFinite = true) : x ≠ nan := by
  rintro rfl
  exact absurd hx Bool.false_ne_true

protected theorem le_refl {x : Double} (hx : x ≠ nan) : x.le x = true := by
  refine le_iff.mpr ⟨hx, hx, ?_⟩
  cases x with
  | finite q => exact Or.inr (Or.inr ⟨rfl, rfl, le_rfl⟩)
  | negZero => exact Or.inr (Or.inr ⟨rfl, rfl, le_rfl⟩)
  | infinite negative => cases negative <;> simp
  | nan => exact absurd rfl hx

protected theorem le_trans {x y z : Double} (h : x.le y = true) (h' : y.le z = true) :
    x.le z = true := by
  obtain ⟨hx, -, hxy⟩ := le_iff.mp h
  obtain ⟨-, hz, hyz⟩ := le_iff.mp h'
  refine le_iff.mpr ⟨hx, hz, ?_⟩
  rcases hxy with rfl | rfl | ⟨hxf, hyf, hxy⟩
  · exact Or.inl rfl
  · -- nothing but infinity lies above infinity
    rcases hyz with hy | hz | ⟨hyf, -⟩
    · cases hy
    · exact Or.inr (Or.inl hz)
    · cases hyf
  · rcases hyz with rfl | hz | ⟨-, hzf, hyz⟩
    · cases hyf
    · exact Or.inr (Or.inl hz)
    · exact Or.inr (Or.inr ⟨hxf, hzf, hxy.trans hyz⟩)

/-! ### Rounded numbers -/

/-- The least value that is too large for a finite number. -/
def tooLarge : ℚ := (2 : ℚ) ^ (1024 : ℤ)

theorem tooLarge_pos : 0 < tooLarge := by
  unfold tooLarge
  positivity

/-- What becomes of a rational: infinity if the grid value is too large, else a number of that
value. -/
theorem round_cases (q : ℚ) :
    (round q = infinite false ∧ tooLarge ≤ onGrid q) ∨
      (round q = infinite true ∧ onGrid q ≤ -tooLarge) ∨
      ((round q).isFinite = true ∧ (round q).toRat = onGrid q ∧ -tooLarge < onGrid q ∧
        onGrid q < tooLarge) := by
  have hpos := tooLarge_pos
  by_cases h0 : q = 0
  · subst h0
    rw [onGrid_zero, round, if_pos rfl]
    exact Or.inr (Or.inr ⟨rfl, rfl, by linarith, hpos⟩)
  have hround : round q = if tooLarge ≤ onGrid q then infinite false
      else if onGrid q ≤ -tooLarge then infinite true
      else if onGrid q = 0 then if q < 0 then negZero else finite 0 else finite (onGrid q) := by
    rw [round, if_neg h0]
    rfl
  rw [hround]
  split_ifs with h1 h2 h3 h4
  · exact Or.inl ⟨rfl, h1⟩
  · exact Or.inr (Or.inl ⟨rfl, h2⟩)
  · exact Or.inr (Or.inr ⟨rfl, h3.symm, not_le.mp h2, not_le.mp h1⟩)
  · exact Or.inr (Or.inr ⟨rfl, h3.symm, not_le.mp h2, not_le.mp h1⟩)
  · exact Or.inr (Or.inr ⟨rfl, rfl, not_le.mp h2, not_le.mp h1⟩)

/-- **Rounding is monotone.** -/
theorem round_mono {p q : ℚ} (h : p ≤ q) : (round p).le (round q) = true := by
  have hgrid := onGrid_mono h
  have hpos := tooLarge_pos
  rcases round_cases p with ⟨hp, hpb⟩ | ⟨hp, hpb⟩ | ⟨hp, hpv, hpl, -⟩
  · -- what lies above infinity is infinity
    rcases round_cases q with ⟨hq, -⟩ | ⟨-, hqb⟩ | ⟨-, -, -, hqu⟩
    · rw [hp, hq]; rfl
    · exact absurd (hpb.trans (hgrid.trans hqb)) (by linarith)
    · exact absurd (hpb.trans hgrid) (not_le.mpr hqu)
  · rcases round_cases q with ⟨hq, -⟩ | ⟨hq, -⟩ | ⟨hq, -⟩
    · rw [hp, hq]; rfl
    · rw [hp, hq]; rfl
    · rw [hp]
      exact le_iff.mpr ⟨by simp, ne_nan_of_isFinite hq, Or.inl rfl⟩
  · rcases round_cases q with ⟨hq, -⟩ | ⟨-, hqb⟩ | ⟨hq, hqv, -, -⟩
    · rw [hq]
      exact le_iff.mpr ⟨ne_nan_of_isFinite hp, by simp, Or.inr (Or.inl rfl)⟩
    · exact absurd (hgrid.trans hqb) (not_le.mpr hpl)
    · rw [le_iff_of_isFinite hp hq, hpv, hqv]
      exact hgrid

theorem round_ne_nan (q : ℚ) : round q ≠ nan := by
  intro h
  have := round_mono (le_refl q)
  rw [h] at this
  exact absurd this Bool.false_ne_true

theorem isFinite_of_between {a b : ℚ} {x : Double} (hl : (finite a).le x = true)
    (hu : x.le (finite b) = true) : x.isFinite = true := by
  cases x with
  | finite q => rfl
  | negZero => rfl
  | infinite negative =>
    cases negative
    · exact absurd hu Bool.false_ne_true
    · exact absurd hl Bool.false_ne_true
  | nan => exact absurd hl Bool.false_ne_true

theorem round_between {a b q : ℚ} (ha : round a = finite a) (hb : round b = finite b) (hl : a ≤ q)
    (hu : q ≤ b) :
    (round q).isFinite = true ∧ (finite a).le (round q) = true ∧
      (round q).le (finite b) = true := by
  have h1 := round_mono hl
  have h2 := round_mono hu
  rw [ha] at h1
  rw [hb] at h2
  exact ⟨isFinite_of_between h1 h2, h1, h2⟩

theorem ofRat?_of_isFinite {q : ℚ} (h : (round q).isFinite = true) : ofRat? q = some (round q) := by
  unfold ofRat?
  cases hq : round q <;> simp_all [isFinite]

theorem ofRat?_of_not_isFinite {q : ℚ} (h : ¬ (round q).isFinite = true) : ofRat? q = none := by
  unfold ofRat?
  cases hq : round q with
  | finite v => exact absurd (by rw [hq]; rfl) h
  | negZero => exact absurd (by rw [hq]; rfl) h
  | infinite b => rfl
  | nan => exact absurd hq (round_ne_nan q)

/-! ### Numbers that are not rounded -/

theorem abs_mul_zpow_lt {k : ℤ} (hk : |k| < 2 ^ 53) (e : ℤ) : |(k * 2 ^ e : ℚ)| < 2 ^ (53 + e) := by
  have hpow : (0 : ℚ) < 2 ^ e := by positivity
  rw [abs_mul, abs_of_pos hpow, zpow_add₀ (by norm_num)]
  exact mul_lt_mul_of_pos_right (by exact_mod_cast hk) hpow

theorem onGrid_mul_zpow {k e : ℤ} (hk : |k| < 2 ^ 53) (he : -1074 ≤ e) :
    onGrid (k * 2 ^ e) = k * 2 ^ e := by
  by_cases h0 : (k * 2 ^ e : ℚ) = 0
  · rw [h0, onGrid_zero]
  have hexp : binaryExponent |(k * 2 ^ e : ℚ)| < 53 + e :=
    (zpow_lt_zpow_iff_right₀ (by norm_num : (1 : ℚ) < 2)).mp
      ((binaryExponent_bounds (abs_pos.mpr h0)).1.trans_lt (abs_mul_zpow_lt hk e))
  have hgrid : gridExponent (k * 2 ^ e) ≤ e := by
    unfold gridExponent
    rw [abs_eq_abs]
    omega
  obtain ⟨j, hj⟩ := exists_mul_step hgrid
  exact onGrid_eq_self ⟨k * j, by rw [Int.cast_mul, mul_assoc, ← hj]⟩

/-- **Numbers of at most 53 bits are not rounded.** -/
theorem round_mul_zpow {k e : ℤ} (hk : |k| < 2 ^ 53) (he : -1074 ≤ e) (he' : e ≤ 971) :
    round (k * 2 ^ e) = finite (k * 2 ^ e) := by
  have hsmall : |(k * 2 ^ e : ℚ)| < tooLarge :=
    (abs_mul_zpow_lt hk e).trans_le (zpow_le_zpow_right₀ (by norm_num) (by omega))
  obtain ⟨hlow, hhigh⟩ := abs_lt.mp hsmall
  have hcases := round_cases (k * 2 ^ e)
  rw [onGrid_mul_zpow hk he] at hcases
  obtain ⟨-, h⟩ | ⟨-, h⟩ | ⟨hfin, hval, -, -⟩ := hcases
  · exact absurd hhigh (not_lt.mpr h)
  · exact absurd hlow (not_lt.mpr h)
  by_cases h0 : (k * 2 ^ e : ℚ) = 0
  · rw [h0]
    exact if_pos rfl
  cases hround : round (k * 2 ^ e) with
  | finite v => exact congrArg finite (by rw [← hval, hround]; rfl)
  | negZero => exact absurd (by rw [← hval, hround]; rfl) h0
  | infinite negative => simp [hround, isFinite] at hfin
  | nan => simp [hround, isFinite] at hfin

theorem round_two_pow {e : ℕ} (he : e ≤ 1023) : round (2 ^ e) = finite (2 ^ e) := by
  have h := round_mul_zpow (k := 2 ^ 52) (e := e - 52) (by norm_num) (by omega) (by omega)
  have hpow : (2 : ℚ) ^ 52 * 2 ^ ((e : ℤ) - 52) = 2 ^ e := by
    rw [zpow_sub₀ (by norm_num), zpow_natCast]
    exact mul_div_cancel₀ _ (by norm_num)
  rwa [Int.cast_pow, Int.cast_ofNat, hpow] at h

theorem round_div_two_pow {k : ℤ} {e : ℕ} (hk : |k| < 2 ^ 53) (he : e ≤ 1074) :
    round (k / 2 ^ e) = finite (k / 2 ^ e) := by
  have h := round_mul_zpow (e := -e) hk (by omega) (by omega)
  rwa [zpow_neg, zpow_natCast, ← div_eq_mul_inv] at h

theorem round_intCast {n : ℤ} (h : |n| < 2 ^ 53) : round n = finite n := by
  simpa using round_div_two_pow (e := 0) h (by omega)

theorem round_one : round 1 = finite 1 := by
  exact_mod_cast round_intCast (n := 1) (by norm_num)

theorem round_unit {q : ℚ} (h0 : 0 ≤ q) (h1 : q ≤ 1) :
    (round q).isFinite = true ∧ 0 ≤ (round q).toRat ∧ (round q).toRat ≤ 1 := by
  obtain ⟨hfin, hlow, hhigh⟩ := round_between (a := 0) rfl round_one h0 h1
  exact ⟨hfin, (le_iff_of_isFinite rfl hfin).mp hlow, (le_iff_of_isFinite hfin rfl).mp hhigh⟩

theorem round_ne_zero {q : ℚ} {e : ℕ} (he : e ≤ 1074) (h0 : 1 / 2 ^ e ≤ q) (h1 : q ≤ 1) :
    round q = finite (round q).toRat ∧ (round q).toRat ≠ 0 := by
  have hlow : round (1 / 2 ^ e) = finite (1 / 2 ^ e) := by
    simpa using round_div_two_pow (k := 1) (by norm_num) he
  obtain ⟨hfin, hle, -⟩ := round_between hlow round_one h0 h1
  have hpos : 0 < (round q).toRat :=
    lt_of_lt_of_le (by positivity : (0 : ℚ) < 1 / 2 ^ e) ((le_iff_of_isFinite rfl hfin).mp hle)
  refine ⟨?_, hpos.ne'⟩
  cases hround : round q with
  | finite v => rfl
  | negZero => simp [hround, toRat] at hpos
  | infinite negative => simp [hround, toRat] at hpos
  | nan => simp [hround, toRat] at hpos

/-! ### Operations -/

theorem larger_mono {a x y : Double} (ha : a ≠ nan) (h : x.le y = true) :
    (larger a x).le (larger a y) = true := by
  unfold larger
  split_ifs with hx hy hy
  · exact h
  · -- `y` is not above `a`, and `x` lies between
    simp only [lt, Bool.and_eq_true, Bool.not_eq_true'] at hx hy
    have hay : a.le y = true := Double.le_trans hx.1 h
    have hya : y.le a = true := by
      by_contra hno
      exact hy ⟨hay, by simpa using hno⟩
    exact Double.le_trans h hya
  · simp only [lt, Bool.and_eq_true] at hy
    exact hy.1
  · exact Double.le_refl ha

theorem lt_iff_of_isFinite {x y : Double} (hx : x.isFinite = true) (hy : y.isFinite = true) :
    x.lt y = true ↔ x.toRat < y.toRat := by
  rw [lt, Bool.and_eq_true, Bool.not_eq_true', ← Bool.not_eq_true, le_iff_of_isFinite hx hy,
    le_iff_of_isFinite hy hx, not_le]
  exact ⟨fun h => h.2, fun h => ⟨h.le, h⟩⟩

theorem toRat_larger {x y : Double} (hx : x.isFinite = true) (hy : y.isFinite = true) :
    (larger x y).isFinite = true ∧ (larger x y).toRat = max x.toRat y.toRat := by
  unfold larger
  split_ifs with h
  · rw [lt_iff_of_isFinite hx hy] at h
    exact ⟨hy, (max_eq_right h.le).symm⟩
  · rw [lt_iff_of_isFinite hx hy, not_lt] at h
    exact ⟨hx, (max_eq_left h).symm⟩

theorem toRat_smaller {x y : Double} (hx : x.isFinite = true) (hy : y.isFinite = true) :
    (smaller x y).isFinite = true ∧ (smaller x y).toRat = min x.toRat y.toRat := by
  unfold smaller
  split_ifs with h
  · rw [lt_iff_of_isFinite hy hx] at h
    exact ⟨hy, (min_eq_right h.le).symm⟩
  · rw [lt_iff_of_isFinite hy hx, not_lt] at h
    exact ⟨hx, (min_eq_left h).symm⟩

theorem toRat_abs {x : Double} (hx : x.isFinite = true) :
    x.abs.isFinite = true ∧ x.abs.toRat = |x.toRat| := by
  cases x with
  | finite q => exact ⟨rfl, abs_eq_abs q⟩
  | negZero => exact ⟨rfl, abs_zero.symm⟩
  | infinite negative => cases hx
  | nan => cases hx

theorem abs_smaller_of_not_isFinite {x y : Double} (hx : x ≠ nan) (hinf : ¬ x.isFinite = true)
    (hy : y.isFinite = true) : x.abs.smaller y = y := by
  cases x with
  | finite q => exact absurd rfl hinf
  | negZero => exact absurd rfl hinf
  | infinite negative => cases y <;> simp_all [isFinite, abs, smaller, lt, le]
  | nan => exact absurd rfl hx

theorem neg_finite {c : ℚ} (hc : c ≠ 0) : neg (finite c) = finite (-c) := if_neg hc

theorem add_finite {x : Double} (hx : x.isFinite = true) (c : ℚ) :
    x.add (finite c) = round (x.toRat + c) := by
  cases x with
  | finite q => rfl
  | negZero => rfl
  | infinite negative => cases hx
  | nan => cases hx

theorem finite_sub (a : ℚ) {y : Double} (hy : y.isFinite = true) :
    (finite a).sub y = round (a - y.toRat) := by
  cases y with
  | finite q =>
    by_cases h : q = 0
    · subst h
      simp [sub, neg, add, toRat]
    · rw [sub, neg_finite h, sub_eq_add_neg]
      rfl
  | negZero => simp [sub, neg, add, toRat]
  | infinite negative => cases hy
  | nan => cases hy

theorem sub_finite {x : Double} (hx : x.isFinite = true) {c : ℚ} (hc : c ≠ 0) :
    x.sub (finite c) = round (x.toRat - c) := by
  rw [sub, neg_finite hc, sub_eq_add_neg]
  cases x with
  | finite q => rfl
  | negZero => rfl
  | infinite negative => cases hx
  | nan => cases hx

theorem infinite_sub_finite (negative : Bool) {c : ℚ} (hc : c ≠ 0) :
    (infinite negative).sub (finite c) = infinite negative := by
  rw [sub, neg_finite hc]
  rfl

theorem sub_finite_ne_nan {x : Double} (hx : x ≠ nan) {c : ℚ} (hc : c ≠ 0) :
    x.sub (finite c) ≠ nan := by
  cases x with
  | finite q => rw [sub_finite rfl hc]; exact round_ne_nan _
  | negZero => rw [sub_finite rfl hc]; exact round_ne_nan _
  | infinite negative => rw [infinite_sub_finite _ hc]; simp
  | nan => exact absurd rfl hx

/-- **Subtracting a number is monotone.** -/
theorem sub_finite_mono {x y : Double} {c : ℚ} (hc : c ≠ 0) (h : x.le y = true) :
    (x.sub (finite c)).le (y.sub (finite c)) = true := by
  obtain ⟨hx, hy, hxy⟩ := le_iff.mp h
  rcases hxy with rfl | rfl | ⟨hxf, hyf, hxy⟩
  · rw [infinite_sub_finite _ hc]
    exact le_iff.mpr ⟨by simp, sub_finite_ne_nan hy hc, Or.inl rfl⟩
  · rw [infinite_sub_finite _ hc]
    exact le_iff.mpr ⟨sub_finite_ne_nan hx hc, by simp, Or.inr (Or.inl rfl)⟩
  · rw [sub_finite hxf hc, sub_finite hyf hc]
    exact round_mono (by linarith)

end HouseStyle.Double
