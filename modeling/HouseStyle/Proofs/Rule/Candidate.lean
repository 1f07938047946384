import HouseStyle.Proofs.Number.Representable
import HouseStyle.Proofs.Rule.FromFiles

/-! # Candidates

A suggestion becomes a candidate if it is an object under the name of a dimension and has a value
that the dimension takes (`candidate?_eq_some`). An enforced candidate has a value that the
dimension permits and reaches the thresholds (`IsCandidate`), and its confidence is representable,
also if it was given as a text (`representable_confidence`).

The place of an enforced rule is taken if the confidence of the candidate exceeds a rounded sum with
the margin. Representable numbers that exceed the rounded sum exceed the sum (`add_margin_lt`), and
the rounded sum is not below the first summand, so what takes the place of a rule differs from it
(`ne_of_replaces`). -/

namespace HouseStyle

theorem Dimension.name_of_ofName? {s : String} {d : Dimension} (h : ofName? s = some d) :
    d.name = s := by
  have hfound := List.find?_some h
  exact eq_of_beq hfound

/-! ### Numbers between zero and one -/

namespace Number

variable {c : Number}

theorem exact_of_inUnit (h : c.inUnit = true) :
    c.exact.isFinite = true ∧ 0 ≤ c.exact.toRat ∧ c.exact.toRat ≤ 1 := by
  rw [inUnit, Bool.and_eq_true] at h
  have hfin : c.exact.isFinite = true := Double.isFinite_of_between h.1 h.2
  exact ⟨hfin, (Double.le_iff_of_isFinite rfl hfin).mp h.1,
    (Double.le_iff_of_isFinite hfin rfl).mp h.2⟩

theorem toDouble_of_inUnit (h : c.inUnit = true) : c.toDouble = c.exact := by
  cases c with
  | int n =>
    simp only [inUnit, Bool.and_eq_true, int_le_int, decide_eq_true_eq] at h
    exact Double.round_intCast (abs_lt.mpr ⟨by omega, by omega⟩)
  | truth b => rfl
  | float x => rfl

end Number

/-! ### Values -/

namespace Descriptor

/-- The values of rules that are suggested: an integer that is not negative in a numeric dimension,
and one of those listed otherwise. -/
def Permits (d : Descriptor) (v : Value) : Prop :=
  if d.numeric then ∃ n : Int, v = .int n ∧ 0 ≤ n else d.accepts v = true

/-- The values that a suggestion may have: beside those of rules, in a numeric dimension, the finite
numbers that are not negative. -/
def Takes (d : Descriptor) (v : Value) : Prop :=
  d.Permits v ∨ (d.numeric = true ∧ ∃ x : Double, v = .float x ∧ x.isFinite = true ∧ 0 ≤ x.toRat)

end Descriptor

theorem Rule.parts_of_make {v : Value} {status : Status} {c e : Number} {p : Provenance}
    {safe : Bool} {r : Rule} (h : make v status c e p safe = .ok r) :
    r.value = v ∧ r.confidence = c ∧ r.evidence = e ∧ r.provenance = p ∧ r.safe = safe := by
  unfold make at h
  split_ifs at h
  cases h
  exact ⟨rfl, rfl, rfl, rfl, rfl⟩

namespace Suggestion

variable {t : Thresholds} {default : Number}

/-- **A suggested value that is not dropped** is one that the dimension takes, and becomes one that
it permits. -/
theorem takes_of_normalizedValue {v w : Value} {d : Descriptor} (h : normalizedValue v d = .ok w)
    (hw : w.isNull = false) : d.Takes v ∧ d.Permits w := by
  unfold normalizedValue at h
  unfold Descriptor.Takes Descriptor.Permits
  split_ifs at h ⊢ with hnum hacc
  · split at h
    · rename_i n
      split_ifs at h with hlarge hneg
      · cases h
        cases hw
      · cases h
        have hn : ∃ m : Int, Value.int n = .int m ∧ 0 ≤ m := ⟨n, rfl, not_lt.mp hneg⟩
        exact ⟨Or.inl hn, hn⟩
    · rename_i x
      split_ifs at h with hx
      · cases h
        rw [Bool.and_eq_true, Bool.not_eq_true', ← Bool.not_eq_true] at hx
        obtain ⟨hfin, hneg⟩ := hx
        rw [Double.lt_iff_of_isFinite hfin rfl, not_lt] at hneg
        have hround := Double.nearestInt_mono hneg
        rw [show Double.nearestInt (Double.finite 0).toRat = 0 from Double.nearestInt_intCast 0]
          at hround
        exact ⟨Or.inr ⟨hnum, x, rfl, hfin, hneg⟩, _, rfl, hround⟩
      · cases h
        cases hw
    · cases h
      cases hw
  · cases h
    exact ⟨Or.inl hacc, hacc⟩
  · cases h
    cases hw

/-! ### Candidates of entries -/

/-- What a candidate of a dimension is. -/
structure IsCandidate (t : Thresholds) (d : Descriptor) (r : Rule) : Prop where
  provenance : r.provenance = .external
  safe : r.safe = d.safe
  permits : r.enforced = true → d.Permits r.value
  reaches : r.enforced = true → r.reaches t.minEvidence t.minConfidence = true

theorem isCandidate_candidate {d : Descriptor} {v : Value} (hv : d.Permits v) {c : Double}
    {e : Number} {r : Rule} (h : candidate t d v c e = .ok r) :
    IsCandidate t d r ∧ r.confidence = .float c := by
  unfold candidate at h
  split_ifs at h with hfloors
  · obtain ⟨hvalue, hconf, hevid, hprov, hsafe⟩ := Rule.parts_of_make h
    refine ⟨⟨hprov, hsafe, fun _ => hvalue ▸ hv, fun _ => ?_⟩, hconf⟩
    rw [Rule.reaches, hevid, hconf]
    exact hfloors
  · obtain ⟨hvalue, hconf, -, hprov, hsafe⟩ := Rule.parts_of_make h
    have hopen : ¬ r.enforced = true := fun henf => Rule.value_ne_null henf hvalue
    exact ⟨⟨hprov, hsafe, fun henf => absurd henf hopen, fun henf => absurd henf hopen⟩, hconf⟩

/-- **Candidates come from objects** under the name of the dimension, with a value that it takes. -/
theorem candidate?_eq_some {entry : String × Value} {d : Dimension} {r : Rule}
    (h : candidate? t default entry = .ok (some (d, r))) :
    ∃ fields : Value.Fields, entry = (d.name, .object fields) ∧
      d.descriptor.Takes (fields.getD "value") ∧ IsCandidate t d.descriptor r ∧
      ∃ c, confidence (fields.getD "confidence") = .ok c ∧ r.confidence = .float c := by
  unfold candidate? at h
  split at h
  · rename_i d' fields hname hentry
    obtain ⟨value, hvalue, h⟩ := exists_of_bind_eq_ok h
    split_ifs at h with hnull
    · cases h
    · obtain ⟨c, hc, h⟩ := exists_of_bind_eq_ok h
      obtain ⟨r', hr, h⟩ := exists_of_bind_eq_ok h
      cases h
      obtain ⟨htakes, hpermits⟩ := takes_of_normalizedValue hvalue (Bool.not_eq_true _ ▸ hnull)
      obtain ⟨hcand, hconf⟩ := isCandidate_candidate hpermits hr
      refine ⟨fields, ?_, htakes, hcand, c, hc, hconf⟩
      rw [Dimension.name_of_ofName? hname, ← hentry]
  · cases h

theorem representable_number? {v : Value} (hv : ∀ x, v = .float x → x.Representable) {x : Double}
    (h : number? v = .ok (some x)) : x.Representable := by
  cases v with
  | bool b =>
    cases h
    cases b
    · exact Double.representable_of_toRat_eq_zero rfl
    · exact Double.representable_of_round_eq Double.round_one
  | int n =>
    by_cases hfin : (Double.round n).isFinite = true
    · rw [number?, Double.ofRat?_of_isFinite hfin] at h
      cases h
      exact Double.representable_round n
    · rw [number?, Double.ofRat?_of_not_isFinite hfin] at h
      cases h
  | float y =>
    cases h
    exact hv x rfl
  | str s => exact Double.representable_ofText? (Except.ok.inj h)
  | null => cases h
  | list items => cases h
  | object fields => cases h

/-- The confidence of a candidate is representable, whether it was given as a number, and then as
one that is, or as a text. -/
theorem representable_confidence {v : Value} (hv : ∀ x, v = .float x → x.Representable) {c : Double}
    (h : confidence v = .ok c) : c.Representable := by
  have hzero : (Double.finite 0).Representable := Double.representable_of_toRat_eq_zero rfl
  have hone : (Double.finite 1).Representable := Double.representable_of_round_eq Double.round_one
  unfold confidence at h
  obtain ⟨found, hfound, h⟩ := exists_of_bind_eq_ok h
  split at h
  · cases h
    split_ifs
    · exact hone.smaller (hzero.larger (representable_number? hv hfound))
    · exact hzero
  · cases h
    exact hzero

/-! ### The margin -/

theorem margin_bounds :
    margin = .finite margin.toRat ∧ 1 / 20 ≤ margin.toRat ∧ margin.toRat ≤ 1 := by
  decide +kernel

/-- A sum with the margin is not rounded below the first summand: at most one thirty-second above a
number between zero and one there is a representable one. -/
theorem le_round_add_margin {q : ℚ} (h0 : 0 ≤ q) (h1 : q ≤ 1) :
    (Double.round (q + margin.toRat)).isFinite = true ∧
      q ≤ (Double.round (q + margin.toRat)).toRat := by
  have hgrid : ∀ k < 34, Double.round ((k : ℕ) / 32) = .finite (k / 32) := by
    intro k hk
    have h := Double.round_div_two_pow (k := k) (e := 5) (by rw [Nat.abs_cast]; omega) (by norm_num)
    norm_num at h ⊢
    exact h
  obtain ⟨-, hlow, hhigh⟩ := margin_bounds
  set k := ⌊32 * q⌋₊
  have hfloor : (k : ℚ) ≤ 32 * q := Nat.floor_le (by linarith)
  have hnext : 32 * q < k + 1 := Nat.lt_floor_add_one _
  have hk : k < 33 := by
    have : (k : ℚ) < 33 := by linarith
    exact_mod_cast this
  obtain ⟨hfin, hle, -⟩ := Double.round_between (q := q + margin.toRat) (hgrid (k + 1) (by omega))
    (Double.round_two_pow (e := 1) (by norm_num)) (by push_cast; linarith) (by linarith)
  refine ⟨hfin, le_trans ?_ ((Double.le_iff_of_isFinite rfl hfin).mp hle)⟩
  rw [Double.toRat]
  push_cast
  linarith

theorem add_margin (r : Rule) :
    r.confidence.toDouble.add margin = Double.round (r.confidence.exact.toRat + margin.toRat) := by
  have hunit := r.confidence_inUnit
  rw [Number.toDouble_of_inUnit hunit, margin_bounds.1]
  exact Double.add_finite (Number.exact_of_inUnit hunit).1 _

/-- **The margin is kept exactly**: a confidence above the rounded sum is above the sum. -/
theorem add_margin_lt {r r' : Rule} (hrep : r'.confidence.exact.Representable)
    (h : (r.confidence.toDouble.add margin).lt r'.confidence.toDouble = true) :
    r.confidence.exact.toRat + 1 / 20 < r'.confidence.exact.toRat := by
  obtain ⟨-, h0, h1⟩ := Number.exact_of_inUnit r.confidence_inUnit
  have hfin' := (Number.exact_of_inUnit r'.confidence_inUnit).1
  rw [add_margin, Number.toDouble_of_inUnit r'.confidence_inUnit] at h
  have hlt := hrep.lt_of_round_lt hfin' (le_round_add_margin h0 h1).1 h
  have hmargin := margin_bounds.2.1
  linarith

theorem ne_of_replaces {current : Option Rule} {r : Rule} (h : replaces current r = true) :
    current ≠ some r := by
  rintro rfl
  obtain ⟨hfin, h0, h1⟩ := Number.exact_of_inUnit r.confidence_inUnit
  obtain ⟨hsum, hle⟩ := le_round_add_margin h0 h1
  rw [replaces, Bool.and_eq_true, Bool.or_eq_true, Bool.not_eq_true'] at h
  obtain ⟨henf, hopen | hlt⟩ := h
  · rw [henf] at hopen
    cases hopen
  · rw [add_margin, Number.toDouble_of_inUnit r.confidence_inUnit,
      Double.lt_iff_of_isFinite hsum hfin] at hlt
    exact absurd hlt (not_lt.mpr hle)

end Suggestion

end HouseStyle
