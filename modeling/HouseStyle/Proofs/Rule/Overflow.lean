import HouseStyle.Proofs.Rule.Augmentation

/-! # Suggestions of any shape

There is one thing that suggestions can fail by: an integer that is too large, where a
floating-point number is needed. These are the integers from half a step below `2 ^ 1024` on
(`Double.ofRat?_eq_none_iff`), and they are needed as numbers in two places
(`Suggestion.Overflows`): as the value in a numeric dimension, and as the confidence beside a value
that the dimension takes.

Everything else is passed over or read as something usable, which `Suggestion.repaired` spells out:
an entry without use is dropped, a confidence without use is zero, and evidence without use is the
default. An entry that does not overflow has the candidate of the repaired one
(`exists_candidate?`), and so the run over all entries is that over the repaired ones
(`Rules.augment_total`). -/

namespace HouseStyle

/-! ### Integers that are too large -/

/-- **The integers that no finite number is nearest to.** -/
theorem Double.ofRat?_eq_none_iff (n : Int) : ofRat? n = none ↔ 2 ^ 1024 - 2 ^ 970 ≤ |n| := by
  have hedge : round ((2 ^ 1024 - 2 ^ 970 : Int) : ℚ) = infinite false := by decide +kernel
  have hedge' : round ((-(2 ^ 1024 - 2 ^ 970) : Int) : ℚ) = infinite true := by decide +kernel
  have hlast : round ((2 ^ 1024 - 2 ^ 970 - 1 : Int) : ℚ) = finite (2 ^ 1024 - 2 ^ 971) := by
    decide +kernel
  have hlast' : round ((-(2 ^ 1024 - 2 ^ 970 - 1) : Int) : ℚ) = finite (-(2 ^ 1024 - 2 ^ 971)) := by
    decide +kernel
  generalize (2 ^ 1024 - 2 ^ 970 : Int) = edge at hedge hedge' hlast hlast' ⊢
  constructor
  · intro hnone
    by_contra hlt
    obtain ⟨hlow, hhigh⟩ := abs_lt.mp (not_le.mp hlt)
    have h1 :=
        round_mono (p := ((-(edge - 1) : Int) : ℚ)) (q := n)
          (by exact_mod_cast (by omega : -(edge - 1) ≤ n))
    have h2 :=
        round_mono (p := (n : ℚ)) (q := ((edge - 1 : Int) : ℚ))
          (by exact_mod_cast (by omega : n ≤ edge - 1))
    rw [hlast'] at h1
    rw [hlast] at h2
    rw [ofRat?_of_isFinite (isFinite_of_between h1 h2)] at hnone
    cases hnone
  · intro hle
    refine ofRat?_of_not_isFinite fun hfin => ?_
    rcases le_abs.mp hle with hn | hn
    · have h := round_mono (p := (edge : ℚ)) (q := n) (by exact_mod_cast hn)
      rw [hedge] at h
      cases hr : round (n : ℚ) <;> simp_all [isFinite, le]
    · have h := round_mono (p := (n : ℚ)) (q := ((-edge : Int) : ℚ))
        (by exact_mod_cast (by omega : n ≤ -edge))
      rw [hedge'] at h
      cases hr : round (n : ℚ) <;> simp_all [isFinite, le]

/-- An integer that is too large for a floating-point number. -/
def Value.Oversized (v : Value) : Prop := ∃ n : Int, v = .int n ∧ 2 ^ 1024 - 2 ^ 970 ≤ |n|

theorem Value.isNull_iff {v : Value} : v.isNull = true ↔ v = .null := by
  cases v with
  | null => simp [isNull]
  | _ => simp [isNull]

theorem Value.oversized_int_iff {n : Int} : (Value.int n).Oversized ↔ Double.ofRat? n = none := by
  rw [Double.ofRat?_eq_none_iff]
  exact ⟨fun ⟨m, hm, hle⟩ => Value.int.inj hm ▸ hle, fun hle => ⟨n, rfl, hle⟩⟩

/-! ### Values that are taken -/

namespace Descriptor

variable {d : Descriptor} {v : Value}

/-- Whether a suggestion may have a value. -/
def takes (d : Descriptor) : Value → Bool
  | .int n => d.numeric && 0 ≤ n
  | .float x => d.numeric && x.isFinite && !x.lt (.finite 0)
  | v => d.accepts v

theorem accepts_of_numeric (h : d.numeric = true) (v : Value) : d.accepts v = false := by
  rw [accepts, h]
  rfl

theorem takes_eq_accepts (h : d.numeric = false) (v : Value) : d.takes v = d.accepts v := by
  cases v with
  | int n => simp [takes, h, accepts, sameChoice]
  | float x => simp [takes, h, accepts, sameChoice]
  | _ => rfl

theorem takes_iff : d.takes v = true ↔ d.Takes v := by
  unfold Takes Permits
  cases hnum : d.numeric with
  | true =>
    cases v with
    | int n => simp [takes, hnum]
    | float x =>
      have hneg : x.isFinite = true → (x.lt (.finite 0) = false ↔ 0 ≤ x.toRat) := fun hfin => by
        rw [← Bool.not_eq_true, Double.lt_iff_of_isFinite hfin rfl, not_lt]
        rfl
      simpa [takes, hnum] using hneg
    | _ => simp [takes, accepts_of_numeric hnum]
  | false => simp [takes_eq_accepts hnum]

instance (d : Descriptor) (v : Value) : Decidable (d.Takes v) := decidable_of_iff _ takes_iff

end Descriptor

namespace Suggestion

variable {t : Thresholds} {default : Number}

/-! ### What is read -/

theorem normalizedValue_of_oversized {v : Value} {d : Descriptor} (hnum : d.numeric = true)
    (hv : v.Oversized) : normalizedValue v d = .error .numberTooLarge := by
  obtain ⟨n, rfl, -⟩ := id hv
  rw [normalizedValue, if_pos hnum, Value.oversized_int_iff.mp hv]
  rfl

theorem exists_normalizedValue {v : Value} {d : Descriptor}
    (h : ¬ (d.numeric = true ∧ v.Oversized)) :
    ∃ w, normalizedValue v d = .ok w ∧ (w.isNull = false ↔ d.Takes v) := by
  rw [← Descriptor.takes_iff]
  unfold normalizedValue
  split_ifs with hnum hacc
  · split
    · rename_i n
      have hsome : ¬ (Double.ofRat? n).isNone = true := fun hnone =>
        h ⟨hnum, Value.oversized_int_iff.mpr (Option.isNone_iff_eq_none.mp hnone)⟩
      rw [if_neg hsome]
      refine ⟨_, rfl, ?_⟩
      split_ifs with hneg
      · simp [Value.isNull, Descriptor.takes, hnum, hneg]
      · simp [Value.isNull, Descriptor.takes, hnum, not_lt.mp hneg]
    · rename_i x
      refine ⟨_, rfl, ?_⟩
      rw [Descriptor.takes, hnum, Bool.true_and]
      split_ifs with hx
      · simp only [Value.isNull, hx]
      · simp only [Value.isNull, hx, Bool.true_eq_false, Bool.false_eq_true]
    · rename_i hint hfloat
      refine ⟨_, rfl, ?_⟩
      rw [Descriptor.takes, Descriptor.accepts_of_numeric hnum]
      · simp [Value.isNull]
      · exact hint
      · exact hfloat
  · rw [Descriptor.takes_eq_accepts (Bool.not_eq_true _ ▸ hnum)]
    refine ⟨v, rfl, iff_of_true ?_ hacc⟩
    rw [← Bool.not_eq_true, Value.isNull_iff]
    exact Descriptor.ne_null_of_accepts hacc
  · rw [Descriptor.takes_eq_accepts (Bool.not_eq_true _ ▸ hnum)]
    exact ⟨.null, rfl, iff_of_false (by simp [Value.isNull]) hacc⟩

theorem confidence_of_oversized {v : Value} (hv : v.Oversized) :
    confidence v = .error .numberTooLarge := by
  obtain ⟨n, rfl, -⟩ := id hv
  rw [confidence, number?, Value.oversized_int_iff.mp hv]
  rfl

theorem exists_number? {v : Value} (hv : ¬ v.Oversized) : ∃ x, number? v = .ok x := by
  cases v with
  | int n =>
    obtain ⟨x, hx⟩ := Option.ne_none_iff_exists'.mp (mt Value.oversized_int_iff.mpr hv)
    exact ⟨some x, by rw [number?, hx]⟩
  | _ => exact ⟨_, rfl⟩

/-- A confidence that can be read as a finite number, and zero in the place of any other. -/
def usableConfidence (v : Value) : Value :=
  match number? v with
  | .ok (some x) => if x.isFinite then v else .int 0
  | _ => .int 0

theorem inUnit_zero : (Number.float (.finite 0)).inUnit = true :=
  Number.inUnit_float rfl le_rfl zero_le_one

theorem inUnit_clamp {x : Double} (hx : x.isFinite = true) :
    (Number.float ((Double.finite 1).smaller ((Double.finite 0).larger x))).inUnit = true := by
  obtain ⟨hfin, hmax⟩ := Double.toRat_larger (x := .finite 0) rfl hx
  obtain ⟨hfin', hmin⟩ := Double.toRat_smaller (x := .finite 1) rfl hfin
  refine Number.inUnit_float hfin' ?_ ?_
  · rw [hmin, hmax]
    exact le_min zero_le_one (le_max_left _ _)
  · rw [hmin]
    exact min_le_left _ _

/-- **A confidence of any shape** is read as one between zero and one, and as zero if it is of no
use. -/
theorem exists_confidence {v : Value} (hv : ¬ v.Oversized) : ∃ c, confidence v = .ok c ∧
    (Number.float c).inUnit = true ∧ confidence (usableConfidence v) = .ok c := by
  have hzero : confidence (.int 0) = .ok (.finite 0) := by
    rw [confidence, number?, show Double.ofRat? (0 : Int) = some (.finite 0) by decide]
    exact congrArg Except.ok (by decide)
  obtain ⟨x, hx⟩ := exists_number? hv
  rw [usableConfidence, confidence, hx]
  cases x with
  | none => exact ⟨.finite 0, rfl, inUnit_zero, hzero⟩
  | some x =>
    by_cases hfin : x.isFinite = true
    · refine ⟨_, rfl, ?_, ?_⟩
      · rw [if_pos hfin]
        exact inUnit_clamp hfin
      · dsimp only
        rw [if_pos hfin, confidence, hx]
        rfl
    · refine ⟨.finite 0, congrArg Except.ok (if_neg hfin), inUnit_zero, ?_⟩
      dsimp only
      rw [if_neg hfin, hzero]

/-- Evidence that is an integer, and the default in the place of any other. -/
def usableEvidence (default : Number) : Value → Value
  | .int n => .int n
  | _ => .ofNumber default

theorem evidence_usableEvidence (v : Value) :
    evidence (usableEvidence default v) default = evidence v default := by
  have hdefault : evidence (.ofNumber default) default = default.atLeastZero := by
    cases default <;> rfl
  cases v with
  | int n => rfl
  | _ => exact hdefault

theorem evidence_not_negative (v : Value) (default : Number) :
    (evidence v default).isNegative = false := by
  cases v with
  | int n => exact Number.isNegative_atLeastZero _
  | _ => exact Number.isNegative_atLeastZero _

theorem exists_candidate {d : Descriptor} {v : Value} (hv : v.isNull = false) {c : Double}
    (hc : (Number.float c).inUnit = true) {e : Number} (he : e.isNegative = false) :
    ∃ r, candidate t d v c e = .ok r := by
  unfold candidate
  split_ifs
  · exact ⟨_, Rule.make_eq hv hc he _ _⟩
  · exact ⟨_, Rule.make_eq rfl hc he _ _⟩

/-! ### Entries -/

/-- An entry with an integer that is too large where a floating-point number is needed. -/
def Overflows (entry : String × Value) : Prop :=
  ∃ (d : Dimension) (fields : Value.Fields), entry = (d.name, .object fields) ∧
    (d.descriptor.numeric = true ∧ (fields.getD "value").Oversized ∨
      d.descriptor.Takes (fields.getD "value") ∧ (fields.getD "confidence").Oversized)

/-- An entry that is an object under the name of a dimension, with a value that the dimension takes,
with what is of no use in its other fields replaced. Other entries are dropped. -/
def repaired (default : Number) (entry : String × Value) : Option (String × Value) :=
  match Dimension.ofName? entry.1, entry.2 with
  | some d, .object fields =>
    let fields : Value.Fields := fields
    if d.descriptor.Takes (fields.getD "value") then
      some (entry.1, .object [("value", fields.getD "value"),
        ("confidence", usableConfidence (fields.getD "confidence")),
        ("evidenceCount", usableEvidence default (fields.getD "evidenceCount"))])
    else none
  | _, _ => none

theorem candidate?_of_ne (t : Thresholds) (default : Number) {entry : String × Value}
    (h : ∀ (d : Dimension) (fields : Value.Fields), entry ≠ (d.name, .object fields)) :
    candidate? t default entry = .ok none ∧ repaired default entry = none := by
  have hnone : ∀ d fields, Dimension.ofName? entry.1 = some d → entry.2 ≠ .object fields :=
    fun d fields hname hentry =>
    h d fields (Prod.ext (Dimension.name_of_ofName? hname).symm hentry)
  unfold candidate? repaired
  constructor
  · split
    · rename_i hname hentry
      exact absurd hentry (hnone _ _ hname)
    · rfl
  · split
    · rename_i hname hentry
      exact absurd hentry (hnone _ _ hname)
    · rfl

section
variable {d : Dimension} {fields : Value.Fields}

theorem candidate?_object : candidate? t default (d.name, .object fields) = (do
    let value ← normalizedValue (fields.getD "value") d.descriptor
    if value.isNull then return none
    let c ← confidence (fields.getD "confidence")
    let r ← candidate t d.descriptor value c (evidence (fields.getD "evidenceCount") default)
    return some (d, r)) := by
  unfold candidate?
  rw [Dimension.ofName?_name]

theorem repaired_object : repaired default (d.name, .object fields) =
    if d.descriptor.Takes (fields.getD "value") then
      some (d.name, .object [("value", fields.getD "value"),
        ("confidence", usableConfidence (fields.getD "confidence")),
        ("evidenceCount", usableEvidence default (fields.getD "evidenceCount"))])
    else none := by
  unfold repaired
  rw [Dimension.ofName?_name]

theorem overflows_object : Overflows (d.name, .object fields) ↔
    d.descriptor.numeric = true ∧ (fields.getD "value").Oversized ∨
      d.descriptor.Takes (fields.getD "value") ∧ (fields.getD "confidence").Oversized := by
  constructor
  · rintro ⟨d', fields', heq, h⟩
    obtain rfl : d = d' := Dimension.name_injective (congrArg Prod.fst heq)
    obtain rfl : fields = fields' := Value.object.inj (congrArg Prod.snd heq)
    exact h
  · exact fun h => ⟨d, fields, rfl, h⟩

theorem candidate?_of_isNull {w : Value}
    (hw : normalizedValue (fields.getD "value") d.descriptor = .ok w) (hnull : w.isNull = true) :
    candidate? t default (d.name, .object fields) = .ok none := by
  rw [candidate?_object, hw]
  exact if_pos hnull

theorem candidate?_of_confidence {w : Value}
    (hw : normalizedValue (fields.getD "value") d.descriptor = .ok w) (hnull : w.isNull = false)
    {f : Failure} (hf : confidence (fields.getD "confidence") = .error f) :
    candidate? t default (d.name, .object fields) = .error f := by
  rw [candidate?_object, hw, hf]
  exact if_neg (Bool.not_eq_true _ ▸ hnull)

theorem candidate?_of_parts {w : Value}
    (hw : normalizedValue (fields.getD "value") d.descriptor = .ok w) (hnull : w.isNull = false)
    {c : Double} (hc : confidence (fields.getD "confidence") = .ok c) {e : Number}
    (he : evidence (fields.getD "evidenceCount") default = e) {r : Rule}
    (hr : candidate t d.descriptor w c e = .ok r) :
    candidate? t default (d.name, .object fields) = .ok (some (d, r)) := by
  rw [candidate?_object, hw, hc, he]
  refine (if_neg (Bool.not_eq_true _ ▸ hnull)).trans ?_
  change (candidate t d.descriptor w c e >>= fun r => pure (some (d, r))) = _
  rw [hr]
  rfl

end

theorem candidate?_of_overflows {entry : String × Value} (h : Overflows entry) :
    candidate? t default entry = .error .numberTooLarge := by
  obtain ⟨d, fields, rfl, h⟩ := h
  by_cases hvalue : d.descriptor.numeric = true ∧ (fields.getD "value").Oversized
  · rw [candidate?_object, normalizedValue_of_oversized hvalue.1 hvalue.2]
    rfl
  · obtain ⟨htakes, hconf⟩ := h.resolve_left hvalue
    obtain ⟨w, hw, hnull⟩ := exists_normalizedValue hvalue
    exact candidate?_of_confidence hw (hnull.mpr htakes) (confidence_of_oversized hconf)

/-- **An entry of any other shape** has the candidate of the repaired one, if that is not dropped.
-/
theorem exists_candidate? (t : Thresholds) (default : Number) {entry : String × Value}
    (h : ¬ Overflows entry) :
    ∃ found, candidate? t default entry = .ok found ∧
      (repaired default entry = none ∧ found = none ∨
        ∃ entry', repaired default entry = some entry' ∧
          candidate? t default entry' = .ok found) := by
  by_cases hobject : ∃ (d : Dimension) (fields : Value.Fields), entry = (d.name, .object fields)
  · obtain ⟨d, fields, rfl⟩ := hobject
    rw [overflows_object, not_or] at h
    obtain ⟨w, hw, htakes⟩ := exists_normalizedValue h.1
    rw [repaired_object]
    by_cases hnull : w.isNull = false
    · have htakes := htakes.mp hnull
      obtain ⟨c, hc, hunit, husable⟩ := exists_confidence fun hconf => h.2 ⟨htakes, hconf⟩
      obtain ⟨r, hr⟩ := exists_candidate (t := t) (d := d.descriptor) hnull hunit
        (evidence_not_negative (fields.getD "evidenceCount") default)
      refine ⟨some (d, r), candidate?_of_parts hw hnull hc rfl hr, Or.inr ⟨_, if_pos htakes, ?_⟩⟩
      refine candidate?_of_parts ?_ hnull ?_ ?_ hr
      · exact hw
      · exact husable
      · exact evidence_usableEvidence _
    · exact ⟨none, candidate?_of_isNull hw (Bool.not_eq_false _ ▸ hnull),
        Or.inl ⟨if_neg fun h => hnull (htakes.mpr h), rfl⟩⟩
  · push Not at hobject
    obtain ⟨hnone, hdropped⟩ := candidate?_of_ne t default hobject
    exact ⟨none, hnone, Or.inl ⟨hdropped, rfl⟩⟩

/-! ### Runs -/

theorem mergeStep_of_ok {entry : String × Value} {found : Option (Dimension × Rule)}
    (h : candidate? t default entry = .ok found) (acc : Rules × Nat) :
    ∃ acc', mergeStep t default acc entry = .ok acc' ∧
      ∀ entry', candidate? t default entry' = .ok found →
        mergeStep t default acc entry' = .ok acc' := by
  have hstep : ∀ entry', candidate? t default entry' = .ok found → mergeStep t default acc entry' =
      .ok (match found with
        | some (d, r) => if replaces (acc.1 d) r then (acc.1.set d r, acc.2 + 1) else acc
        | none => acc) := by
    intro entry' h'
    rw [mergeStep, h']
    cases found with
    | none => rfl
    | some p => rfl
  exact ⟨_, hstep entry h, hstep⟩

theorem foldlM_of_overflows :
    ∀ {es : Value.Fields}, (∃ entry ∈ es, Overflows entry) → ∀ acc : Rules × Nat,
    es.foldlM (mergeStep t default) acc = .error .numberTooLarge
  | [], ⟨_, hmem, _⟩, _ => absurd hmem List.not_mem_nil
  | entry :: es, ⟨bad, hmem, hbad⟩, acc => by
    rw [List.foldlM_cons]
    by_cases hentry : Overflows entry
    · rw [mergeStep, candidate?_of_overflows hentry]
      rfl
    · obtain ⟨found, hfound, -⟩ := exists_candidate? t default hentry
      obtain ⟨acc', hstep, -⟩ := mergeStep_of_ok hfound acc
      rw [hstep]
      have hrest : bad ∈ es := (List.mem_cons.mp hmem).resolve_left fun heq => hentry (heq ▸ hbad)
      exact foldlM_of_overflows ⟨bad, hrest, hbad⟩ acc'

/-- **A run over entries of any other shape** returns, and is one over the repaired entries. -/
theorem foldlM_repaired :
    ∀ {es : Value.Fields}, (∀ entry ∈ es, ¬ Overflows entry) → ∀ acc : Rules × Nat,
    ∃ acc', es.foldlM (mergeStep t default) acc = .ok acc' ∧
      (es.filterMap (repaired default)).foldlM (mergeStep t default) acc = .ok acc'
  | [], _, acc => ⟨acc, rfl, rfl⟩
  | entry :: es, h, acc => by
    obtain ⟨hentry, hes⟩ := List.forall_mem_cons.mp h
    obtain ⟨found, hfound, hrepaired⟩ := exists_candidate? t default hentry
    obtain ⟨acc', hstep, hsame⟩ := mergeStep_of_ok hfound acc
    obtain ⟨acc'', hrun, hrun'⟩ := foldlM_repaired hes acc'
    refine ⟨acc'', ?_, ?_⟩
    · rw [List.foldlM_cons, hstep]
      exact hrun
    · rcases hrepaired with ⟨hdropped, rfl⟩ | ⟨entry', hkept, hcand⟩
      · have hacc : acc = acc' := by
          rw [mergeStep, hfound] at hstep
          exact Except.ok.inj hstep
        rw [List.filterMap_cons_none hdropped, hacc]
        exact hrun'
      · rw [List.filterMap_cons_some hkept, List.foldlM_cons, hsame entry' hcand]
        exact hrun'

end Suggestion

/-- **Suggestions of any shape.** If an entry has an integer that is too large where a
floating-point number is needed, the merge fails by it. In all other cases the merge returns, and
with the same result as for the entries that are of use, with zero in the place of a confidence and
the default in the place of evidence without use. -/
theorem Rules.augment_total (rs : Rules) (suggestions : Value) (t : Thresholds) (default : Number) :
    ((∃ entry ∈ Suggestion.entries suggestions, Suggestion.Overflows entry) ∧
      rs.augment suggestions t default = .error .numberTooLarge) ∨
    ((∀ entry ∈ Suggestion.entries suggestions, ¬ Suggestion.Overflows entry) ∧
      ∃ result, rs.augment suggestions t default = .ok result ∧
        rs.augment (.object [("rules", .object ((Suggestion.entries suggestions).filterMap
          (Suggestion.repaired default)))]) t default = .ok result) := by
  by_cases h : ∃ entry ∈ Suggestion.entries suggestions, Suggestion.Overflows entry
  · exact Or.inl ⟨h, Suggestion.foldlM_of_overflows h (rs, 0)⟩
  · push Not at h
    exact Or.inr ⟨h, Suggestion.foldlM_repaired h (rs, 0)⟩

/-- A width, and a confidence, far below zero: neither is of use, and yet the merge fails by them.
-/
theorem Rules.augment_oversized :
    Rules.augment (fun _ => none)
      (.object [("syntax.lineWidth", .object [("value", .int (-10 ^ 400))])]) .standard
      (.int 0) = .error .numberTooLarge ∧
    Rules.augment (fun _ => none) (.object [("syntax.quotes", .object [("value", .str "single"),
      ("confidence", .int (-10 ^ 400))])]) .standard (.int 0) = .error .numberTooLarge := by
  have hlarge : (Value.int (-10 ^ 400)).Oversized := ⟨_, rfl, by decide +kernel⟩
  constructor
  · refine Suggestion.foldlM_of_overflows ⟨_, List.mem_cons_self, .lineWidth, _,
      Prod.ext ?_ rfl, ?_⟩ _
    · decide +kernel
    · exact Or.inl ⟨rfl, hlarge⟩
  · refine Suggestion.foldlM_of_overflows ⟨_, List.mem_cons_self, .quotes, _, Prod.ext ?_ rfl, ?_⟩ _
    · decide +kernel
    · exact Or.inr ⟨by decide +kernel, hlarge⟩

end HouseStyle
