import HouseStyle.Learning.Settings
import HouseStyle.Proofs.Rule.Overflow

/-! # Settings from documents

Whatever a document holds, there are three ways in which reading settings from it can end: settings
that pass the check, a report that says which setting is wrong or that there is no mapping
(`Failure.isReport`), or a failure on the way to such a report (`Derails`). Each check of a setting
is described by the values that pass it and by those that it derails on, and `derails_bind` puts
these together in the order of the checks (`check_ok_iff`, `derails_check`).

Three things derail: a document that has no sections to look into, an integer that is too large for
the test whether it is finite, and a list or an object where a name is looked up
(`Settings.load_outcome`). -/

namespace HouseStyle

namespace Failure

variable {α β : Type}

/-- Whether a failure reports what is wrong with a configuration. -/
def isReport : Failure → Bool
  | notPositive _ _ => true
  | invalidConfidence _ => true
  | invalidSamplingMode _ => true
  | invalidLanguage _ _ => true
  | notMapping _ => true
  | _ => false

/-- Whether a run ends by a failure that is no report. -/
def Derails (r : Except Failure α) : Prop := ∃ f, r = .error f ∧ f.isReport = false

@[simp] theorem not_derails_ok (a : α) : ¬ Derails (.ok a) := by
  rintro ⟨f, hf, -⟩
  cases hf

@[simp] theorem derails_error {f : Failure} :
    Derails (.error f : Except Failure α) ↔ f.isReport = false := by
  constructor
  · rintro ⟨g, hg, hreport⟩
    cases hg
    exact hreport
  · intro hreport
    exact ⟨f, rfl, hreport⟩

instance : ∀ r : Except Failure α, Decidable (Derails r)
  | .ok a => .isFalse (not_derails_ok a)
  | .error _ => decidable_of_iff _ derails_error.symm

theorem derails_bind {x : Except Failure α} {g : α → Except Failure β} :
    Derails (x >>= g) ↔ Derails x ∨ ∃ a, x = .ok a ∧ Derails (g a) := by
  cases x with
  | ok a => simp [bind, Except.bind]
  | error f => simp [bind, Except.bind]

theorem ok_bind {x : Except Failure α} {g : α → Except Failure β} :
    (∃ b, (x >>= g) = .ok b) ↔ ∃ a, x = .ok a ∧ ∃ b, g a = .ok b := by
  cases x with
  | ok a => simp [bind, Except.bind]
  | error f => simp [bind, Except.bind]

theorem not_derails_iff {r : Except Failure α} :
    ¬ Derails r ↔ (∃ a, r = .ok a) ∨ ∃ f, r = .error f ∧ f.isReport = true := by
  cases r with
  | ok a => simp
  | error f => simp

end Failure

/-! ### Numbers and names -/

theorem Number.inUnit_int_iff {n : Int} : (int n).inUnit = true ↔ n = 0 ∨ n = 1 := by
  rw [inUnit, Bool.and_eq_true, int_le_int, int_le_int, decide_eq_true_eq, decide_eq_true_eq]
  omega

theorem Number.inUnit_float_iff {x : Double} : (float x).inUnit = true ↔
    (x.isFinite && !x.lt (.finite 0) && !(Double.finite 1).lt x) = true := by
  have hrange : x.isFinite = true → ((x.lt (.finite 0) = false ↔ 0 ≤ x.toRat) ∧
      ((Double.finite 1).lt x = false ↔ x.toRat ≤ 1)) := by
    intro hfin
    rw [← Bool.not_eq_true, ← Bool.not_eq_true, Double.lt_iff_of_isFinite hfin rfl,
      Double.lt_iff_of_isFinite rfl hfin, not_lt, not_lt]
    exact ⟨Iff.rfl, Iff.rfl⟩
  rw [Bool.and_eq_true, Bool.and_eq_true, Bool.not_eq_true', Bool.not_eq_true']
  constructor
  · intro h
    obtain ⟨hfin, hlow, hhigh⟩ := exact_of_inUnit h
    exact ⟨⟨hfin, (hrange hfin).1.mpr hlow⟩, (hrange hfin).2.mpr hhigh⟩
  · rintro ⟨⟨hfin, hlow⟩, hhigh⟩
    exact inUnit_float hfin ((hrange hfin).1.mp hlow) ((hrange hfin).2.mp hhigh)

theorem Value.not_oversized {v : Value} (h : ∀ n, v ≠ .int n) : ¬ v.Oversized := by
  rintro ⟨n, hn, -⟩
  exact h n hn

theorem Language.ofName?_eq_some_iff {s : String} {l : Language} :
    ofName? s = some l ↔ l.name = s := by
  constructor
  · intro h
    have hfound := List.find?_some h
    exact eq_of_beq hfound
  · rintro rfl
    cases l <;> rfl

namespace Settings

open Failure

variable {v : Value} {name : String}

/-! ### Values that pass -/

/-- A positive integer. -/
def IsPositive (v : Value) : Prop := ∃ n : Int, v = .int n ∧ 1 ≤ n

/-- A number between zero and one, truth values included. -/
def IsUnit (v : Value) : Prop := ∃ x, v.number? = some x ∧ x.inUnit = true

/-- The name of a sampling mode. -/
def IsMode (v : Value) : Prop := v = .str "compact" ∨ v = .str "full"

/-- The name of a language. -/
def IsLanguage (v : Value) : Prop := ∃ l : Language, v = .str l.name

/-- A list or an object. -/
def IsCollection (v : Value) : Prop := (∃ xs, v = .list xs) ∨ ∃ fs, v = .object fs

theorem positive_ok_iff : (∃ n, positive name v = .ok n) ↔ IsPositive v := by
  cases v with
  | int n =>
    rw [positive]
    split_ifs with hn
    · simpa [IsPositive] using hn
    · simpa [IsPositive] using hn
  | _ => simp [positive, IsPositive]

theorem not_derails_positive : ¬ Derails (positive name v) := by
  cases v with
  | int n =>
    rw [positive]
    split_ifs
    · simp [isReport]
    · simp
  | _ => simp [positive, isReport]

theorem unitNumber_ok_iff : (∃ x, unitNumber v = .ok x) ↔ IsUnit v := by
  cases v with
  | bool b =>
    have hunit : (Number.truth b).inUnit = true := by cases b <;> decide
    simp [unitNumber, IsUnit, Value.number?, hunit]
  | int n =>
    simp only [unitNumber, IsUnit, Value.number?, Option.some.injEq, exists_eq_left',
      Number.inUnit_int_iff]
    split_ifs with hnone hout
    · have hlarge : ¬ (n = 0 ∨ n = 1) := by
        intro hsmall
        have hround := Double.round_intCast (n := n) (abs_lt.mpr ⟨by omega, by omega⟩)
        rw [Double.ofRat?_of_isFinite (by rw [hround]; rfl)] at hnone
        cases hnone
      simpa using hlarge
    · have hlarge : ¬ (n = 0 ∨ n = 1) := by omega
      simpa using hlarge
    · have hunit : n = 0 ∨ n = 1 := by omega
      simpa using hunit
  | float x =>
    simp only [unitNumber, IsUnit, Value.number?, Option.some.injEq, exists_eq_left',
      Number.inUnit_float_iff]
    split_ifs with hx
    · simp [hx]
    · simp [hx]
  | _ => simp [unitNumber, IsUnit, Value.number?]

theorem derails_unitNumber : Derails (unitNumber v) ↔ v.Oversized := by
  cases v with
  | int n =>
    rw [Value.oversized_int_iff, unitNumber]
    split_ifs with hnone hout
    · simpa [isReport] using hnone
    · simpa [isReport] using hnone
    · simpa using hnone
  | float x =>
    rw [unitNumber]
    split_ifs
    · simp [Value.not_oversized]
    · simp [Value.not_oversized, isReport]
  | _ => simp [unitNumber, Value.not_oversized, isReport]

theorem mode_ok_iff : (∃ m, mode v = .ok m) ↔ IsMode v := by
  cases v with
  | str s =>
    simp only [mode, name?, bind, Except.bind, IsMode, Value.str.injEq]
    split_ifs with hs
    · simp [pure, Except.pure, hs]
    · simp [hs]
  | _ => simp [mode, name?, IsMode, bind, Except.bind]

theorem derails_mode : Derails (mode v) ↔ IsCollection v := by
  cases v with
  | str s =>
    simp only [mode, name?, bind, Except.bind, IsCollection]
    split_ifs
    · simp [pure, Except.pure]
    · simp [isReport]
  | _ => simp [mode, name?, IsCollection, bind, Except.bind, isReport]

theorem language_ok_iff : (∃ l, language v = .ok l) ↔ IsLanguage v := by
  cases v with
  | str s =>
    simp only [language, name?, bind, Except.bind, IsLanguage, Value.str.injEq, eq_comm (a := s),
      ← Language.ofName?_eq_some_iff]
    cases Language.ofName? s with
    | none => simp
    | some l => simp [pure, Except.pure]
  | _ => simp [language, name?, IsLanguage, bind, Except.bind]

theorem derails_language : Derails (language v) ↔ IsCollection v := by
  cases v with
  | str s =>
    simp only [language, name?, bind, Except.bind, IsCollection]
    cases Language.ofName? s with
    | none => simp [isReport]
    | some l => simp [pure, Except.pure]
  | _ => simp [language, name?, IsCollection, bind, Except.bind, isReport]

/-! ### The check -/

/-- Settings that pass the check. -/
structure Valid (s : Settings) : Prop where
  minEvidence : IsPositive s.minEvidence
  minConfidence : IsUnit s.minConfidence
  maxFiles : IsPositive s.maxFiles
  samplingMode : IsMode s.samplingMode
  defaultLanguage : IsLanguage s.defaultLanguage

variable {s : Settings}

theorem check_ok_iff : (∃ c, s.check = .ok c) ↔ s.Valid := by
  unfold check
  simp only [ok_bind, pure, Except.pure, Except.ok.injEq, exists_eq', and_true, exists_and_right,
    positive_ok_iff, unitNumber_ok_iff, mode_ok_iff, language_ok_iff]
  constructor
  · rintro ⟨h1, h2, h3, h4, h5⟩
    exact ⟨h1, h2, h3, h4, h5⟩
  · rintro ⟨h1, h2, h3, h4, h5⟩
    exact ⟨h1, h2, h3, h4, h5⟩

/-- Whether the check of settings comes upon a value that it cannot judge: an integer that is too
large for a floating-point number, or a list or an object where a name is looked up, with nothing
wrong before it. -/
def Derailing (s : Settings) : Prop :=
  IsPositive s.minEvidence ∧ (s.minConfidence.Oversized ∨
    IsUnit s.minConfidence ∧ IsPositive s.maxFiles ∧
      (IsCollection s.samplingMode ∨ IsMode s.samplingMode ∧ IsCollection s.defaultLanguage))

theorem derails_check : Derails s.check ↔ s.Derailing := by
  unfold check Derailing
  simp only [derails_bind, pure, Except.pure, not_derails_ok, and_false, exists_false, or_false,
    exists_and_right, positive_ok_iff, unitNumber_ok_iff, mode_ok_iff, not_derails_positive,
    false_or, derails_unitNumber, derails_mode, derails_language]

/-! ### Fields of a document -/

variable {fields fields' : Value.Fields}

/-- The values of all settings, by name: the last one given, or the one that stands in its place. -/
def overlay (standard : Settings) (fields : Value.Fields) : Value.Fields :=
  standard.toFields.map fun f => (f.1, (fields.reverse.lookup f.1).getD f.2)

theorem toFields_inj {s s' : Settings} (h : s.toFields = s'.toFields) : s = s' := by
  cases s
  cases s'
  simpa [toFields] using h

theorem toFields_set? (s : Settings) (name : String) (v : Value) :
    ((s.set? name v).getD s).toFields = s.toFields.map fun f =>
      (f.1, if name = f.1 then v else f.2) := by
  unfold set?
  split
  all_goals simp_all [toFields]

theorem toFields_ofKnownFields (s : Settings) (fields : Value.Fields) :
    (ofKnownFields s fields).toFields = overlay s fields := by
  induction fields generalizing s with
  | nil => simp [ofKnownFields, overlay]
  | cons f fields ih =>
    obtain ⟨name, v⟩ := f
    have hstep : ofKnownFields s ((name, v) :: fields) =
        ofKnownFields ((s.set? name v).getD s) fields := rfl
    rw [hstep, ih, overlay, overlay, toFields_set?, List.map_map]
    refine List.map_congr_left fun g _ => ?_
    -- the field counts if no later one has its name
    rw [List.reverse_cons, List.lookup_append]
    cases hlater : fields.reverse.lookup g.1 with
    | some w => simp [hlater]
    | none =>
      by_cases hname : name = g.1
      · simp [hlater, hname]
      · have hother : (g.1 == name) = false := beq_eq_false_iff_ne.mpr (Ne.symm hname)
        simp [hlater, hname, List.lookup, hother]

theorem derails_documentFields {path name : String} {d : Value} :
    Derails (documentFields path name d) ↔ d.truthy = true ∧ d.fields? = none := by
  unfold documentFields
  split_ifs with hset
  · cases d with
    | object fields =>
      simp only [Value.fields?]
      cases (Value.Fields.get? fields name).getD (.object fields) <;> simp [isReport]
    | _ => simp [hset, Value.fields?, isReport]
  · simp [hset]

/-! ### Loading -/

/-- The settings of a document at a path, if they pass the check. -/
def load (command : Value) (path : String) (document : Value) : Except Failure Settings := do
  let s ← ofDocument (standard command) path "idiolect" (some document)
  let _ ← s.check
  return s

variable (command : Value) (path : String) (d : Value)

theorem load_eq : load command path d = documentFields path "idiolect" d >>= fun fields =>
    (ofKnownFields (standard command) fields).check >>= fun _ =>
      .ok (ofKnownFields (standard command) fields) := by
  unfold load ofDocument
  dsimp only
  cases documentFields path "idiolect" d with
  | error f => rfl
  | ok fields => rfl

theorem load_ok_iff {s : Settings} : load command path d = .ok s ↔
    ∃ fields, documentFields path "idiolect" d = .ok fields ∧
      s.toFields = overlay (standard command) fields ∧
      s.Valid := by
  rw [load_eq]
  constructor
  · intro h
    obtain ⟨fields, hfields, h⟩ := exists_of_bind_eq_ok h
    obtain ⟨c, hc, h⟩ := exists_of_bind_eq_ok h
    cases h
    exact ⟨fields, hfields, toFields_ofKnownFields _ _, check_ok_iff.mp ⟨c, hc⟩⟩
  · rintro ⟨fields, hfields, hs, hvalid⟩
    obtain rfl : s = ofKnownFields (standard command) fields :=
      toFields_inj (by rw [hs, toFields_ofKnownFields])
    obtain ⟨c, hc⟩ := check_ok_iff.mpr hvalid
    simp only [hfields, hc, bind, Except.bind]

theorem derails_load : Derails (load command path d) ↔ (d.truthy = true ∧ d.fields? = none) ∨
    ∃ fields, documentFields path "idiolect" d = .ok fields ∧
      (ofKnownFields (standard command) fields).Derailing := by
  rw [load_eq]
  simp only [derails_bind, derails_documentFields, derails_check, not_derails_ok, and_false,
    exists_false, or_false]

theorem load_congr {d' : Value} (hd : documentFields path "idiolect" d = .ok fields)
    (hd' : documentFields path "idiolect" d' = .ok fields')
    (h : ∀ f ∈ (standard command).toFields,
      fields.reverse.lookup f.1 = fields'.reverse.lookup f.1) :
    load command path d = load command path d' := by
  have hsettings : ofKnownFields (standard command) fields =
      ofKnownFields (standard command) fields' := by
    refine toFields_inj ?_
    rw [toFields_ofKnownFields, toFields_ofKnownFields, overlay, overlay]
    exact List.map_congr_left fun f hf => by rw [h f hf]
  rw [load_eq, load_eq, hd, hd']
  simp only [bind, Except.bind, hsettings]

theorem valid_standard : (standard command).Valid := by
  refine ⟨⟨30, rfl, by decide⟩, ⟨.float (.finite (3 / 4)), rfl,
    Number.inUnit_float rfl (by norm_num [Double.toRat]) (by norm_num [Double.toRat])⟩,
    ⟨400, rfl, by decide⟩, Or.inl rfl, ⟨.javascript, rfl⟩⟩

theorem load_of_unset (h : d.truthy = false) : load command path d = .ok (standard command) := by
  have hfields : documentFields path "idiolect" d = .ok [] := by simp [documentFields, h]
  refine (load_ok_iff command path d).mpr ⟨[], hfields, ?_, valid_standard command⟩
  simp [overlay]

theorem load_of_section {v : Value} (hd : d.fields? = some fields)
    (hv : fields.get? "idiolect" = some v) (hmap : v.fields? = none) :
    load command path d = .error (.notMapping path) := by
  have hfields : documentFields path "idiolect" d = .error (.notMapping path) := by
    cases d with
    | object fs =>
      cases hd
      have hset : (Value.object fields).truthy = true := by
        cases fields with
        | nil => cases hv
        | cons f fields => rfl
      cases v with
      | object nested => cases hmap
      | _ => simp [documentFields, hset, hv]
    | _ => cases hd
  rw [load_eq, hfields]
  rfl

/-- **How loading ends.** A document gives settings exactly if it has fields of which the last ones
under the names of settings, with the defaults for the others, make valid settings; other names do
not count, and valid settings are those that pass the check. It gives settings or a report unless it
is set without being an object, or unless the check comes upon a value that it cannot judge. A
section that is not an object is reported, and a document that counts as unset gives the defaults.
-/
theorem load_outcome :
    (∀ s, load command path d = .ok s ↔ ∃ fields, documentFields path "idiolect" d = .ok fields ∧
      s.toFields = overlay (standard command) fields ∧ s.Valid) ∧
    (∀ s : Settings, s.Valid ↔ ∃ c, s.check = .ok c) ∧
    (∀ d' fields fields', documentFields path "idiolect" d = .ok fields →
      documentFields path "idiolect" d' = .ok fields' →
      (∀ f ∈ (standard command).toFields, fields.reverse.lookup f.1 = fields'.reverse.lookup f.1) →
      load command path d = load command path d') ∧
    ((∃ s, load command path d = .ok s) ∨
      (∃ f, load command path d = .error f ∧ f.isReport = true) ↔
      ¬ (d.truthy = true ∧ d.fields? = none) ∧
        ∀ fields, documentFields path "idiolect" d = .ok fields →
          ¬ (ofKnownFields (standard command) fields).Derailing) ∧
    (∀ fields v, d.fields? = some fields → Value.Fields.get? fields "idiolect" = some v →
      v.fields? = none →
      load command path d = .error (.notMapping path)) ∧
    (d.truthy = false → load command path d = .ok (standard command)) := by
  refine ⟨fun s => load_ok_iff command path d, fun s => check_ok_iff.symm,
    fun d' fields fields' => load_congr command path d, ?_, fun fields v =>
      load_of_section command path d, load_of_unset command path d⟩
  rw [← not_derails_iff, derails_load, not_or, not_exists]
  simp only [not_and]

/-- **Documents that derail**: a list in the place of the sections, a list in the place of a name,
and an integer that is too large. -/
theorem load_derails :
    Derails (load .null "config.yaml" (.list [.str "one", .str "two"])) ∧
    Derails (load .null "config.yaml" (.object [("sampling_mode", .list [])])) ∧
    Derails (load .null "config.yaml" (.object [("min_confidence", .int (10 ^ 400))])) := by
  refine ⟨?_, ?_, ?_⟩
  all_goals decide +kernel

end Settings

end HouseStyle
