import HouseStyle.Proofs.Number.Rounding
import HouseStyle.Rule.Inference

/-! # Rules held to floors

What the counts say about a dimension does not depend on how much is asked for: there is one
*verdict*, and the floors for evidence and confidence only decide whether its value is kept
(`Rule.heldTo`). A majority always has a verdict (`exists_verdict_majority`). The density of blank
lines and the line width have one unless a quotient is too large for a number
(`exists_verdict_density`, `exists_verdict_lineWidth`), and then they fail whatever the floors are.

A verdict is a rule, so its confidence lies between zero and one. For a majority it does because the
winner is a part of the whole, and rounding does not leave an interval with representable ends. -/

namespace HouseStyle

namespace Number

theorem isNegative_int {n : Int} (h : 0 ≤ n) : (int n).isNegative = false := by
  have hle : (int 0).le (int n) = true := by rwa [int_le_int, decide_eq_true_eq]
  unfold le at hle
  rw [isNegative, lt, Double.lt, hle, Bool.not_true, Bool.and_false]

theorem inUnit_float {x : Double} (hx : x.isFinite = true) (h0 : 0 ≤ x.toRat) (h1 : x.toRat ≤ 1) :
    (float x).inUnit = true := by
  rw [inUnit, Bool.and_eq_true]
  exact ⟨(Double.le_iff_of_isFinite rfl hx).mpr h0, (Double.le_iff_of_isFinite hx rfl).mpr h1⟩

theorem inUnit_round {q : ℚ} (h0 : 0 ≤ q) (h1 : q ≤ 1) :
    (Double.round q).isFinite = true ∧ (float (Double.round q)).inUnit = true := by
  obtain ⟨hfin, hlow, hhigh⟩ := Double.round_unit h0 h1
  exact ⟨hfin, inUnit_float hfin hlow hhigh⟩

end Number

namespace Rule

/-! ### Floors -/

/-- Whether a rule has the evidence and the confidence that are asked for. -/
def reaches (r : Rule) (minEvidence : Int) (minConfidence : Double) : Bool :=
  (Number.int minEvidence).le r.evidence && (Number.float minConfidence).le r.confidence

/-- The rule, demoted if it does not reach the floors. -/
def heldTo (r : Rule) (minEvidence : Int) (minConfidence : Double) : Rule :=
  if r.reaches minEvidence minConfidence then r else r.demoted

section

variable (r : Rule) (e : Int) (c : Double)

@[simp] theorem confidence_heldTo : (r.heldTo e c).confidence = r.confidence := by
  unfold heldTo
  split <;> rfl

@[simp] theorem evidence_heldTo : (r.heldTo e c).evidence = r.evidence := by
  unfold heldTo
  split <;> rfl

@[simp] theorem provenance_heldTo : (r.heldTo e c).provenance = r.provenance := by
  unfold heldTo
  split <;> rfl

@[simp] theorem safe_heldTo : (r.heldTo e c).safe = r.safe := by
  unfold heldTo
  split <;> rfl

variable {r e c}

theorem value_ne_null (h : r.enforced = true) : r.value ≠ .null := by
  intro hv
  rw [enforced, hv] at h
  exact absurd h Bool.false_ne_true

theorem heldTo_of_enforced (h : (r.heldTo e c).enforced = true) :
    r.reaches e c = true ∧ r.heldTo e c = r := by
  unfold heldTo at h ⊢
  split_ifs at h ⊢ with hr
  · exact ⟨hr, rfl⟩
  · exact absurd h Bool.false_ne_true

theorem heldTo_of_isNull (h : r.value = .null) : r.heldTo e c = r := by
  unfold heldTo demoted
  split_ifs
  · rfl
  · rw [← h]

theorem reaches_mono {e' : Int} {c' : Double} (he : e ≤ e') (hc : c.le c' = true)
    (h : r.reaches e' c' = true) : r.reaches e c = true := by
  unfold reaches at h ⊢
  rw [Bool.and_eq_true] at h ⊢
  have hint : (Number.int e).le (.int e') = true := by rwa [Number.int_le_int, decide_eq_true_eq]
  exact ⟨Double.le_trans hint h.1, Double.le_trans hc h.2⟩

/-- **Raising floors only demotes**: what is enforced under high floors is enforced under low ones,
with the same value. -/
theorem heldTo_mono {e' : Int} {c' : Double} (he : e ≤ e') (hc : c.le c' = true)
    (h : (r.heldTo e' c').enforced = true) :
    (r.heldTo e c).enforced = true ∧ (r.heldTo e c).value = (r.heldTo e' c').value := by
  obtain ⟨hr, heq⟩ := heldTo_of_enforced h
  have hlow : r.heldTo e c = r := if_pos (reaches_mono he hc hr)
  rw [heq] at h
  rw [hlow, heq]
  exact ⟨h, rfl⟩

end

/-! ### Gates -/

/-- The verdict for a value with its confidence and its evidence. -/
def verdict (value : Value) {x : Double} (hx : (Number.float x).inUnit = true) {n : Int}
    (hn : 0 ≤ n) (safe : Bool) : Rule :=
  ⟨value, .float x, .int n, .deterministic, safe, hx, Number.isNegative_int hn⟩

theorem make_eq {v : Value} {status : Status} (hv : v.isNull = decide (status = .undetermined))
    {c e : Number} (hc : c.inUnit = true) (he : e.isNegative = false) (p : Provenance)
    (safe : Bool) :
    make v status c e p safe = .ok ⟨v, c, e, p, safe, hc, he⟩ := by
  unfold make
  rw [if_neg (not_not.mpr hv), dif_pos hc, dif_pos he]

theorem gated_eq {v : Value} (hv : v ≠ .null) {c : Number} (hc : c.inUnit = true) {n : Int}
    (hn : 0 ≤ n) (passes safe : Bool) : gated v c n passes safe =
      .ok ⟨if passes then v else .null, c, .int n, .deterministic, safe, hc,
        Number.isNegative_int hn⟩ := by
  have hnull : v.isNull = false := by
    cases v with
    | null => exact absurd rfl hv
    | _ => rfl
  unfold gated
  cases passes with
  | true => exact make_eq hnull hc _ _ _
  | false =>
    simp only [Bool.false_eq_true, if_false]
    exact make_eq rfl hc _ _ _

theorem gated_floors {v : Value} (hv : v ≠ .null) {x : Double} (hx : (Number.float x).inUnit = true)
    {n : Int} (hn : 0 ≤ n) (e : Int) (c : Double) (safe : Bool) :
    gated v (.float x) n (e ≤ n && c.le x) safe = .ok ((verdict v hx hn safe).heldTo e c) := by
  have hreach : (verdict v hx hn safe).reaches e c = (decide (e ≤ n) && c.le x) := by
    rw [reaches, verdict, Number.int_le_int]
    rfl
  rw [gated_eq hv hx hn, heldTo, hreach]
  cases decide (e ≤ n) && c.le x with
  | true => rfl
  | false => rfl

/-! ### Shares -/

theorem exists_share {part whole : Int} (h0 : 0 ≤ part) (hle : part ≤ whole) (hpos : 0 < whole) :
    ∃ x, share part whole = .ok x ∧ (Number.float x).inUnit = true := by
  have hw : (0 : ℚ) < whole := by exact_mod_cast hpos
  have hp : (0 : ℚ) ≤ part := by exact_mod_cast h0
  have hl : (part : ℚ) ≤ whole := by exact_mod_cast hle
  obtain ⟨hfin, hunit⟩ := Number.inUnit_round (div_nonneg hp hw.le) ((div_le_one hw).mpr hl)
  refine ⟨_, ?_, hunit⟩
  rw [share, if_neg hpos.ne', Double.ofRat?_of_isFinite hfin]

theorem share_cases {part whole : Int} (h0 : 0 ≤ part) (hpos : 0 < whole) :
    (∃ x, share part whole = .ok x ∧ x.isFinite = true ∧ 0 ≤ x.toRat) ∨
      (2 ^ 1023 ≤ part ∧ share part whole = .error .numberTooLarge) := by
  have hw : (1 : ℚ) ≤ whole := by exact_mod_cast hpos
  have hp : (0 : ℚ) ≤ part := by exact_mod_cast h0
  have hq : (0 : ℚ) ≤ part / whole := div_nonneg hp (by linarith)
  unfold share
  rw [if_neg hpos.ne']
  by_cases hfin : (Double.round (part / whole)).isFinite = true
  · left
    refine ⟨_, by rw [Double.ofRat?_of_isFinite hfin], hfin, ?_⟩
    exact (Double.le_iff_of_isFinite (x := .finite 0) rfl hfin).mp (Double.round_mono hq)
  · right
    refine ⟨?_, ?_⟩
    · -- a smaller part is rounded between two representable numbers
      by_contra hlt
      have hsmall : (part : ℚ) ≤ ((2 ^ 1023 : Int) : ℚ) := Int.cast_le.mpr (not_le.mp hlt).le
      rw [Int.cast_pow, Int.cast_ofNat] at hsmall
      exact hfin (Double.round_between (a := 0) (b := 2 ^ 1023) rfl (Double.round_two_pow le_rfl) hq
        ((div_le_self hp hw).trans hsmall)).1
    · rw [Double.ofRat?_of_not_isFinite hfin]

/-! ### Verdicts -/

theorem exists_verdict_majority {yes no : Int} (hy : 0 ≤ yes) (hn : 0 ≤ no) {v v' : Value}
    (hv : v ≠ .null) (hv' : v' ≠ .null) (safe : Bool) : ∃ r : Rule,
      (∀ e c, majority yes no v v' e c safe = .ok (r.heldTo e c)) ∧ r.safe = safe ∧
      (r.value = .null ∨ (r.value = v ∧ r.evidence = .int yes) ∨
        (r.value = v' ∧ r.evidence = .int no)) := by
  by_cases htotal : yes + no ≤ 0
  · refine ⟨unknown safe, fun e c => ?_, rfl, Or.inl rfl⟩
    rw [majority, if_pos htotal, heldTo_of_isNull rfl]
    rfl
  by_cases hwin : no ≤ yes
  · obtain ⟨x, hx, hunit⟩ := exists_share hy (by omega : yes ≤ yes + no) (by omega)
    refine ⟨verdict v hunit hy safe, fun e c => ?_, rfl, Or.inr (Or.inl ⟨rfl, rfl⟩)⟩
    rw [← gated_floors hv]
    simp only [majority, if_neg htotal, if_pos hwin, hx]
    rfl
  · obtain ⟨x, hx, hunit⟩ := exists_share hn (by omega : no ≤ yes + no) (by omega)
    refine ⟨verdict v' hunit hn safe, fun e c => ?_, rfl, Or.inr (Or.inr ⟨rfl, rfl⟩)⟩
    rw [← gated_floors hv']
    simp only [majority, if_neg htotal, if_neg hwin, hx]
    rfl

theorem inUnit_nearness {d : Double} (hd : d ≠ .nan) :
    (Number.float
      ((Double.finite 1).sub (d.abs.smaller (Double.round (1 / 5))))).inUnit = true := by
  set cut := Double.round (1 / 5)
  have hcut : cut.isFinite = true ∧ 0 ≤ cut.toRat ∧ cut.toRat ≤ 1 :=
    Double.round_unit (by norm_num) (by norm_num)
  have hdist : (d.abs.smaller cut).isFinite = true ∧ 0 ≤ (d.abs.smaller cut).toRat ∧
      (d.abs.smaller cut).toRat ≤ 1 := by
    by_cases hfin : d.isFinite = true
    · obtain ⟨habs, hval⟩ := Double.toRat_abs hfin
      obtain ⟨hmin, hminval⟩ := Double.toRat_smaller habs hcut.1
      rw [hminval, hval]
      exact ⟨hmin, le_min (abs_nonneg _) hcut.2.1, (min_le_right _ _).trans hcut.2.2⟩
    · rw [Double.abs_smaller_of_not_isFinite hd hfin hcut.1]
      exact hcut
  rw [Double.finite_sub 1 hdist.1]
  exact (Number.inUnit_round (sub_nonneg.mpr hdist.2.2) (sub_le_self 1 hdist.2.1)).2

theorem exists_verdict_density {blank : Int} (hb : 0 ≤ blank) (total : Int) :
    (∃ r : Rule, (∀ e c, density blank total e c = .ok (r.heldTo e c)) ∧ r.safe = false ∧
      (r.value = .null ∨ r.value = .str "compact" ∨ r.value = .str "spacious")) ∨
    (total < blank ∧ 2 ^ 1023 ≤ blank ∧
      ∀ e c, density blank total e c = .error .numberTooLarge) := by
  by_cases htotal : total ≤ 0
  · refine Or.inl ⟨unknown false, fun e c => ?_, rfl, Or.inl rfl⟩
    rw [density, if_pos htotal, heldTo_of_isNull rfl]
    rfl
  rcases share_cases hb (not_le.mp htotal) with ⟨x, hx, hfin, -⟩ | ⟨hlarge, hx⟩
  · left
    have hsub : ∀ q : ℚ, 1 / 2 ^ 4 ≤ q → q ≤ 1 → x.sub (Double.round q) ≠ .nan := by
      intro q h0 h1
      obtain ⟨heq, hne⟩ := Double.round_ne_zero (by norm_num) h0 h1
      rw [heq]
      exact Double.sub_finite_ne_nan (Double.ne_nan_of_isFinite hfin) hne
    have hcompact : x.sub compactTarget ≠ .nan := hsub _ (by norm_num) (by norm_num)
    have hspacious : x.sub spaciousTarget ≠ .nan := hsub _ (by norm_num) (by norm_num)
    by_cases hle : x.le compactLimit = true
    · refine ⟨verdict (.str "compact") (inUnit_nearness hcompact) (not_le.mp htotal).le false,
        fun e c => ?_, rfl, Or.inr (Or.inl rfl)⟩
      rw [← gated_floors (by simp)]
      simp only [density, if_neg htotal, hx, bind, Except.bind, if_pos hle]
    · refine ⟨verdict (.str "spacious") (inUnit_nearness hspacious) (not_le.mp htotal).le false,
        fun e c => ?_, rfl, Or.inr (Or.inr rfl)⟩
      rw [← gated_floors (by simp)]
      simp only [density, if_neg htotal, hx, bind, Except.bind, if_neg hle]
  · right
    refine ⟨?_, hlarge, fun e c => ?_⟩
    · by_contra hle
      obtain ⟨y, hy, -⟩ := exists_share hb (not_lt.mp hle) (not_le.mp htotal)
      rw [hy] at hx
      cases hx
    · simp only [density, if_neg htotal, hx]
      rfl

/-! ### Widths -/

theorem usualWidth_mem (n : Int) : usualWidth n ∈ usualWidths := by
  unfold usualWidth
  cases h : usualWidths.find? fun w => max 80 (min n 160) ≤ w with
  | none => decide
  | some w => exact List.mem_of_find?_eq_some h

theorem usualWidth_pos (n : Int) : 0 < usualWidth n := by
  have hall : ∀ w ∈ usualWidths, 0 < w := by decide
  exact hall _ (usualWidth_mem n)

theorem le_usualWidth {n : Int} (h : usualWidth n < 160) : n ≤ usualWidth n := by
  unfold usualWidth at h ⊢
  cases hw : usualWidths.find? fun w => max 80 (min n 160) ≤ w with
  | none =>
    rw [hw] at h
    exact absurd h (by decide)
  | some w =>
    have hfit := List.find?_some hw
    rw [hw] at h
    simp only [Option.getD_some, decide_eq_true_eq] at h hfit ⊢
    omega

theorem exists_verdict_lineWidth (longest lines : Int) :
    (∃ r : Rule, (∀ e c, lineWidth longest lines e c = .ok (r.heldTo e c)) ∧ r.safe = false ∧
      (r.value = .null ∨ r.value = .int (usualWidth longest))) ∨
    (2 ^ 1023 ≤ longest ∧ ∀ e c, lineWidth longest lines e c = .error .numberTooLarge) := by
  have hlines : 0 ≤ max 0 lines := le_max_left _ _
  by_cases hno : (longest ≤ 0 || max 0 lines == 0) = true
  · refine Or.inl ⟨verdict .null (x := .finite 0) (Number.inUnit_float rfl le_rfl zero_le_one)
      hlines false, fun e c => ?_, rfl, Or.inl rfl⟩
    rw [heldTo_of_isNull rfl]
    simp only [lineWidth, if_pos hno]
    exact make_eq rfl _ (Number.isNegative_int hlines) _ _
  have hpos : 0 < longest := by
    by_contra hle
    exact hno (by simp [not_lt.mp hle])
  rcases share_cases hpos.le (usualWidth_pos longest) with ⟨x, hx, hfin, h0⟩ | ⟨hlarge, hx⟩
  · left
    have hunit :
        (Number.float ((Double.finite (1 / 2)).larger ((Double.finite 1).smaller x))).inUnit =
          true := by
      obtain ⟨hs, hsv⟩ := Double.toRat_smaller (x := .finite 1) rfl hfin
      obtain ⟨hl, hlv⟩ := Double.toRat_larger (x := .finite (1 / 2)) rfl hs
      refine Number.inUnit_float hl ?_ ?_
      · rw [hlv]
        exact le_max_of_le_left (by norm_num [Double.toRat])
      · rw [hlv, hsv]
        exact max_le (by norm_num [Double.toRat]) (min_le_left _ _)
    refine ⟨verdict (.int (usualWidth longest)) hunit hlines false, fun e c => ?_, rfl, Or.inr rfl⟩
    rw [← gated_floors (by simp)]
    simp only [lineWidth, if_neg hno, hx]
    rfl
  · refine Or.inr ⟨hlarge, fun e c => ?_⟩
    simp only [lineWidth, if_neg hno, hx]
    rfl

end Rule

end HouseStyle
