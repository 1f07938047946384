import HouseStyle.Learning.Command
import HouseStyle.Proofs.Rule.Candidate
import HouseStyle.Proofs.Value.Regular
import Mathlib.Data.Set.Card

/-! # Suggestions only strengthen rules

The names of an object stand once, so a dimension has at most one entry, and what the merge does in
a dimension depends on that entry alone (`Suggestion.merged`). One step merges one entry
(`mergeStep_eq`), entries with different names do not meet (`offer_cons`), and so a run over all of
them is this merge, together with the number of dimensions in which it made a change
(`foldlM_mergeStep`). The merge reads entries by name, hence their order does not matter
(`merged_perm`).

That names stand once, and that confidences are numbers as they can be, belongs to suggestions as
they come: a `Suggestion.Document` carries it, and whatever a command prints is one
(`Command.exists_document`).

With what is known of candidates this gives `Rules.augment_strengthens`. -/

namespace HouseStyle

theorem eq_ok_of_toOption {α ε : Type} {x : Except ε α} {a : α} (h : x.toOption = some a) :
    x = .ok a := by
  cases x with
  | error e => cases h
  | ok b => exact congrArg Except.ok (Option.some.inj h)

/-! ### Entries by name -/

namespace Dimension

theorem mem_all (d : Dimension) : d ∈ all := by cases d <;> decide

instance : Finite Dimension :=
  Set.finite_univ_iff.mp ((List.finite_toSet all).subset fun d _ => mem_all d)

theorem ofName?_name (d : Dimension) : ofName? d.name = some d := by cases d <;> decide

theorem name_injective {d e : Dimension} (h : d.name = e.name) : d = e := by
  have hd := ofName?_name d
  rw [h, ofName?_name] at hd
  exact (Option.some.inj hd).symm

end Dimension

namespace Value.Fields

variable {fs fs' : Fields} {k : String}

theorem get?_cons_self (v : Value) : get? ((k, v) :: fs) k = some v := List.lookup_cons_self

theorem get?_cons_of_ne {e : String × Value} (h : k ≠ e.1) : get? (e :: fs) k = get? fs k := by
  rw [get?, List.lookup_cons, beq_eq_false_iff_ne.mpr h]
  rfl

theorem get?_eq_none (h : k ∉ fs.map (·.1)) : fs.get? k = none := by
  refine List.lookup_eq_none_iff.mpr fun e he => ?_
  exact bne_iff_ne.mpr fun heq => h (heq ▸ List.mem_map_of_mem he)

theorem get?_eq_some_iff (hnames : (fs.map (·.1)).Nodup) {v : Value} :
    fs.get? k = some v ↔ (k, v) ∈ fs := by
  induction fs with
  | nil => exact iff_of_false (by rintro ⟨⟩) List.not_mem_nil
  | cons e fs ih =>
    obtain ⟨hnew, hrest⟩ := List.nodup_cons.mp hnames
    by_cases hk : k = e.1
    · subst hk
      have hout : (e.1, v) ∉ fs := fun h => hnew (List.mem_map.mpr ⟨_, h, rfl⟩)
      rw [get?_cons_self (k := e.1) e.2, List.mem_cons, or_iff_left hout, Option.some.injEq,
        Prod.ext_iff]
      exact ⟨fun h => ⟨rfl, h.symm⟩, fun h => h.2.symm⟩
    · have hout : (k, v) ≠ e := fun h => hk (congrArg Prod.fst h)
      rw [get?_cons_of_ne hk, ih hrest, List.mem_cons, or_iff_right hout]

theorem get?_perm (hperm : fs'.Perm fs) (hnames : (fs.map (·.1)).Nodup) (k : String) :
    fs'.get? k = fs.get? k := by
  refine Option.ext fun v => ?_
  rw [get?_eq_some_iff hnames, get?_eq_some_iff ((hperm.map _).nodup_iff.mpr hnames), hperm.mem_iff]

end Value.Fields

namespace Suggestion

/-! ### The merge -/

/-- Entries as an object has them: a name stands once, and confidences that are given as
floating-point numbers are such numbers. -/
structure Regular (es : Value.Fields) : Prop where
  names : (es.map (·.1)).Nodup
  representable : ∀ name (fields : Value.Fields) x, (name, Value.object fields) ∈ es →
    fields.getD "confidence" = .float x → x.Representable

/-- Suggestions with regular entries. -/
structure Document where
  value : Value
  regular : Regular (entries value)

theorem regular_getD {fs : Value.Fields} (h : (Value.object fs).Regular) (name : String) :
    (fs.getD name).Regular := by
  cases h with
  | object names h =>
    unfold Value.Fields.getD
    cases hv : fs.lookup name with
    | none => exact .null
    | some v => exact h _ ((Value.Fields.get?_eq_some_iff names).mp hv)

theorem regular_of_object {es : Value.Fields} (h : (Value.object es).Regular) : Regular es := by
  cases h with
  | object names h =>
    refine ⟨names, fun name fields x hmem hx => ?_⟩
    have hconf := regular_getD (h _ hmem) "confidence"
    rw [hx] at hconf
    cases hconf with
    | float hrep => exact hrep

theorem regular_entries {v : Value} (h : v.Regular) : Regular (entries v) := by
  unfold entries
  split
  · dsimp only
    split
    · next nested hnested =>
      have hrules := regular_getD h "rules"
      rw [hnested] at hrules
      exact regular_of_object hrules
    · exact regular_of_object h
  · exact ⟨List.nodup_nil, by simp⟩

/-- The candidate that entries have for a dimension: that of the entry under its name. -/
def offer (t : Thresholds) (default : Number) (es : Value.Fields) (d : Dimension) :
    Option Rule := do
  let v ← es.get? d.name
  let found ← (candidate? t default (d.name, v)).toOption
  found.map (·.2)

/-- What stands in a dimension after an offer. -/
def settled (current : Option Rule) : Option Rule → Option Rule
  | some r => if replaces current r then some r else current
  | none => current

/-- The rules after all offers of the entries. -/
def merged (t : Thresholds) (default : Number) (rs : Rules) (es : Value.Fields) : Rules := fun d =>
  settled (rs d) (offer t default es d)

/-- The dimensions in which rules differ. -/
def changes (rs rs' : Rules) : Set Dimension := {d | rs' d ≠ rs d}

theorem settled_ne_iff {current offered : Option Rule} : settled current offered ≠ current ↔
    ∃ r, offered = some r ∧ replaces current r = true := by
  cases offered with
  | none => simp [settled]
  | some r =>
    by_cases h : replaces current r = true
    · rw [settled, if_pos h]
      exact ⟨fun _ => ⟨r, rfl, h⟩, fun _ => (ne_of_replaces h).symm⟩
    · rw [settled, if_neg h]
      refine ⟨fun hne => absurd rfl hne, ?_⟩
      rintro ⟨r', ⟨⟩, h'⟩
      exact absurd h' h

section

variable {t : Thresholds} {default : Number} {rs : Rules} {es es' : Value.Fields} {d : Dimension}

theorem offer_congr (h : es.get? d.name = es'.get? d.name) :
    offer t default es d = offer t default es' d := by
  rw [offer, h, offer]

theorem offer_eq_none (h : es.get? d.name = none) : offer t default es d = none := by
  rw [offer, h]
  rfl

theorem offer_eq_some_iff {r : Rule} : offer t default es d = some r ↔
    ∃ v, es.get? d.name = some v ∧ candidate? t default (d.name, v) = .ok (some (d, r)) := by
  unfold offer
  simp only [Option.bind_eq_bind, Option.bind_eq_some_iff, Option.map_eq_some_iff]
  constructor
  · rintro ⟨v, hv, found, hfound, ⟨d', r'⟩, rfl, rfl⟩
    have hc := eq_ok_of_toOption hfound
    obtain ⟨fields, hentry, -⟩ := candidate?_eq_some hc
    obtain rfl : d = d' := Dimension.name_injective (congrArg Prod.fst hentry)
    exact ⟨v, hv, hc⟩
  · rintro ⟨v, hv, hc⟩
    exact ⟨v, hv, some (d, r), by rw [hc]; rfl, (d, r), rfl, rfl⟩

theorem offer_singleton_iff {entry : String × Value} {r : Rule} :
    offer t default [entry] d = some r ↔ candidate? t default entry = .ok (some (d, r)) := by
  rw [offer_eq_some_iff]
  constructor
  · rintro ⟨v, hv, hc⟩
    have hnames : ([entry].map (·.1)).Nodup := List.nodup_singleton _
    rw [Value.Fields.get?_eq_some_iff hnames, List.mem_singleton] at hv
    rwa [← hv]
  · intro hc
    obtain ⟨fields, rfl, -⟩ := candidate?_eq_some hc
    exact ⟨_, Value.Fields.get?_cons_self _, hc⟩

/-- **Entries with different names do not meet**: an offer comes from the first entry or from the
others. -/
theorem offer_cons (t : Thresholds) (default : Number) {entry : String × Value}
    (hnames : ((entry :: es).map (·.1)).Nodup) (d : Dimension) :
    (offer t default (entry :: es) d = offer t default [entry] d ∧ offer t default es d = none) ∨
      (offer t default (entry :: es) d = offer t default es d ∧
        offer t default [entry] d = none) := by
  by_cases hname : d.name = entry.1
  · left
    obtain ⟨hnew, -⟩ := List.nodup_cons.mp hnames
    refine ⟨offer_congr ?_, offer_eq_none (Value.Fields.get?_eq_none (hname ▸ hnew))⟩
    obtain ⟨name, v⟩ := entry
    subst hname
    rw [Value.Fields.get?_cons_self, Value.Fields.get?_cons_self]
  · right
    exact ⟨offer_congr (Value.Fields.get?_cons_of_ne hname),
      offer_eq_none (Value.Fields.get?_cons_of_ne hname)⟩

/-- **A change is a candidate** of the dimension's own entry, an object, that takes the place of
what stood there. -/
theorem exists_of_merged_ne (h : merged t default rs es d ≠ rs d) :
    ∃ (fields : Value.Fields) (r : Rule), es.get? d.name = some (.object fields) ∧
      candidate? t default (d.name, .object fields) = .ok (some (d, r)) ∧ replaces (rs d) r = true ∧
      merged t default rs es d = some r := by
  obtain ⟨r, hoffer, hrep⟩ := settled_ne_iff.mp h
  obtain ⟨v, hv, hc⟩ := offer_eq_some_iff.mp hoffer
  obtain ⟨fields, hentry, -⟩ := candidate?_eq_some hc
  obtain rfl : v = .object fields := congrArg Prod.snd hentry
  refine ⟨fields, r, hv, hc, hrep, ?_⟩
  rw [merged, hoffer, settled, if_pos hrep]

/-- **An enforced rule gives way** only to an enforced one that is clearly better. -/
theorem exceeds_of_merged_ne (hes : Regular es) {r : Rule} (hr : rs d = some r)
    (henf : r.enforced = true) (hne : merged t default rs es d ≠ rs d) :
    ∃ r', merged t default rs es d = some r' ∧ r'.enforced = true ∧
      r.confidence.exact.toRat + 1 / 20 < r'.confidence.exact.toRat := by
  obtain ⟨fields, r', hv, hc, hrep, hr'⟩ := exists_of_merged_ne hne
  rw [hr, replaces, henf, Bool.not_true, Bool.false_or, Bool.and_eq_true] at hrep
  refine ⟨r', hr', hrep.1, add_margin_lt ?_ hrep.2⟩
  -- the comparison is exact because the confidence of the candidate is representable
  obtain ⟨fields', hentry, -, -, c, hconf, hc'⟩ := candidate?_eq_some hc
  obtain rfl : fields = fields' := Value.object.inj (congrArg Prod.snd hentry)
  have hmem := (Value.Fields.get?_eq_some_iff hes.names).mp hv
  rw [hc']
  exact representable_confidence (fun x hx => hes.representable _ fields x hmem hx) hconf

theorem merged_cons {entry : String × Value} (hnames : ((entry :: es).map (·.1)).Nodup) :
    merged t default rs (entry :: es) = merged t default (merged t default rs [entry]) es := by
  funext d
  rcases offer_cons t default hnames d with ⟨hcons, hnone⟩ | ⟨hcons, hnone⟩
  · simp only [merged, hcons, hnone, settled]
  · simp only [merged, hcons, hnone, settled]

theorem ncard_changes_cons {entry : String × Value} (hnames : ((entry :: es).map (·.1)).Nodup) :
    (changes rs (merged t default rs (entry :: es))).ncard =
      (changes rs (merged t default rs [entry])).ncard +
        (changes (merged t default rs [entry]) (merged t default rs (entry :: es))).ncard := by
  have hoffer := offer_cons t default hnames
  rw [← Set.ncard_union_eq]
  · congr 1
    ext d
    rcases hoffer d with ⟨hcons, hnone⟩ | ⟨hcons, hnone⟩
    · simp [changes, merged, hcons]
    · simp [changes, merged, hcons, hnone, settled]
  · refine Set.disjoint_left.mpr fun d hfirst hrest => ?_
    rcases hoffer d with ⟨hcons, hnone⟩ | ⟨hcons, hnone⟩
    · simp [changes, merged, hcons] at hrest
    · simp [changes, merged, hnone, settled] at hfirst

@[simp] theorem changes_self (rs : Rules) : changes rs rs = ∅ := by simp [changes]

theorem changes_set {d : Dimension} {r : Rule} (h : rs d ≠ some r) :
    changes rs (rs.set d r) = {d} := by
  ext e
  by_cases he : e = d
  · subst he
    simp [changes, Rules.set, h.symm]
  · simp [changes, Rules.set, he]

/-- **One step merges one entry**, and counts whether it made a change. -/
theorem mergeStep_eq {entry : String × Value} {found : Option (Dimension × Rule)}
    (h : candidate? t default entry = .ok found) (n : Nat) :
    mergeStep t default (rs, n) entry = .ok (merged t default rs [entry],
      n + (changes rs (merged t default rs [entry])).ncard) := by
  have hoffer : ∀ d r, offer t default [entry] d = some r ↔ found = some (d, r) := by
    intro d r
    rw [offer_singleton_iff, h, Except.ok.injEq]
  have hnone : ∀ d, (∀ r, found ≠ some (d, r)) → offer t default [entry] d = none := fun d hd =>
    Option.eq_none_iff_forall_ne_some.mpr fun r hr => hd r ((hoffer d r).mp hr)
  rw [mergeStep, h]
  cases found with
  | none =>
    have hsame : merged t default rs [entry] = rs := by
      funext d
      rw [merged, hnone d (by simp), settled]
    rw [hsame, changes_self, Set.ncard_empty]
    rfl
  | some p =>
    obtain ⟨d, r⟩ := p
    have hmerged : merged t default rs [entry] = if replaces (rs d) r then rs.set d r else rs := by
      funext e
      by_cases he : e = d
      · subst he
        rw [merged, (hoffer e r).mpr rfl, settled]
        split_ifs
        · simp [Rules.set]
        · rfl
      · rw [merged, hnone e (by simp [Ne.symm he]), settled]
        split_ifs
        · simp [Rules.set, he]
        · rfl
    rw [hmerged]
    by_cases hrep : replaces (rs d) r = true
    · rw [if_pos hrep, changes_set (ne_of_replaces hrep), Set.ncard_singleton]
      exact congrArg Except.ok (if_pos hrep)
    · rw [if_neg hrep, changes_self, Set.ncard_empty]
      exact congrArg Except.ok (if_neg hrep)

/-- **A run merges all entries**, and counts the dimensions in which they made a change. -/
theorem foldlM_mergeStep (hnames : (es.map (·.1)).Nodup)
    (hok : ∀ entry ∈ es, ∃ found, candidate? t default entry = .ok found) (rs : Rules) (n : Nat) :
    es.foldlM (mergeStep t default) (rs, n) =
      .ok (merged t default rs es, n + (changes rs (merged t default rs es)).ncard) := by
  induction es generalizing rs n with
  | nil =>
    have hsame : merged t default rs [] = rs := rfl
    rw [hsame, changes_self, Set.ncard_empty]
    rfl
  | cons entry es ih =>
    obtain ⟨found, hfound⟩ := hok entry List.mem_cons_self
    have hrest := ih (List.nodup_cons.mp hnames).2 fun e he => hok e (List.mem_cons_of_mem _ he)
    rw [List.foldlM_cons, mergeStep_eq hfound, ncard_changes_cons hnames, ← add_assoc,
      merged_cons hnames]
    exact hrest _ _

theorem exists_candidate_of_foldlM {acc acc' : Rules × Nat}
    (h : es.foldlM (mergeStep t default) acc = .ok acc') :
    ∀ entry ∈ es, ∃ found, candidate? t default entry = .ok found := by
  induction es generalizing acc with
  | nil => simp
  | cons entry es ih =>
    rw [List.foldlM_cons] at h
    obtain ⟨next, hstep, hrest⟩ := exists_of_bind_eq_ok h
    obtain ⟨found, hfound, -⟩ := exists_of_bind_eq_ok hstep
    exact List.forall_mem_cons.mpr ⟨⟨found, hfound⟩, ih hrest⟩

theorem merged_perm (hperm : es'.Perm es) (hnames : (es.map (·.1)).Nodup) (rs : Rules) :
    merged t default rs es' = merged t default rs es := by
  funext d
  rw [merged, offer_congr (Value.Fields.get?_perm hperm hnames d.name), merged]

end

end Suggestion

/-- **What a command suggests is a document.** -/
theorem Command.exists_document {r : CommandResult} {v : Value}
    (h : Command.suggestions r = .ok v) :
    ∃ doc : Suggestion.Document, doc.value = v := by
  have hregular : v.Regular := by
    unfold Command.suggestions at h
    dsimp only at h
    split_ifs at h
    · cases h
      exact .null
    · split at h
      · next hread =>
        cases h
        exact Value.regular_ofJson? hread
      · cases h
  exact ⟨⟨v, Suggestion.regular_entries hregular⟩, rfl⟩

namespace Rules

variable {rs rs' : Rules} {suggestions : Value} {t : Thresholds} {default : Number} {n : Nat}

open Suggestion (candidate? merged changes)

/-- **What it means that suggestions are merged in.** All entries can be read, the rules are the
merged ones, and the number is that of the dimensions in which rules differ. -/
theorem augment_eq_ok_iff (hnames : ((Suggestion.entries suggestions).map (·.1)).Nodup) :
    rs.augment suggestions t default = .ok (rs', n) ↔
      (∀ entry ∈ Suggestion.entries suggestions, ∃ found, candidate? t default entry = .ok found) ∧
        rs' = merged t default rs (Suggestion.entries suggestions) ∧
          n = (changes rs rs').ncard := by
  constructor
  · intro h
    have hok := Suggestion.exists_candidate_of_foldlM h
    rw [augment, Suggestion.foldlM_mergeStep hnames hok, zero_add] at h
    cases h
    exact ⟨hok, rfl, rfl⟩
  · rintro ⟨hok, rfl, rfl⟩
    rw [augment, Suggestion.foldlM_mergeStep hnames hok, zero_add]

/-- **Suggestions only strengthen rules.** After suggestions that could be merged in, a dimension
has the rule it had, or the candidate of its own entry. An enforced rule stays, or gives way to an
enforced one whose confidence is higher by more than one twentieth. A dimension without an entry
that is an object and has a value that the dimension takes keeps what it had. An enforced rule that
is new has a value that the dimension permits, reaches the thresholds with a confidence of at most
one, and is marked as external and as safe as the dimension is. The number is that of the dimensions
whose rules differ. And the same entries in another order give the same. -/
theorem augment_strengthens (doc : Suggestion.Document)
    (h : rs.augment doc.value t default = .ok (rs', n)) :
    (∀ d, rs' d = rs d ∨ ∃ v r, (Suggestion.entries doc.value).get? d.name = some v ∧
      candidate? t default (d.name, v) = .ok (some (d, r)) ∧ rs' d = some r) ∧
    (∀ d r, rs d = some r → r.enforced = true → ∃ r', rs' d = some r' ∧ r'.enforced = true ∧
      (r' = r ∨ r.confidence.exact.toRat + 1 / 20 < r'.confidence.exact.toRat)) ∧
    (∀ d, (∀ fields : Value.Fields,
      (Suggestion.entries doc.value).get? d.name = some (.object fields) →
      ¬ d.descriptor.Takes (fields.getD "value")) → rs' d = rs d) ∧
    (∀ d r, rs' d = some r → rs' d ≠ rs d → r.enforced = true → d.descriptor.Permits r.value ∧
      (Number.int t.minEvidence).le r.evidence = true ∧
        (Number.float t.minConfidence).le r.confidence = true ∧
      r.confidence.le (.int 1) = true ∧ r.provenance = .external ∧ r.safe = d.descriptor.safe) ∧
    n = {d | rs' d ≠ rs d}.ncard ∧
    ∀ other, (Suggestion.entries other).Perm (Suggestion.entries doc.value) →
      rs.augment other t default = .ok (rs', n) := by
  have hs := doc.regular
  obtain ⟨hok, rfl, rfl⟩ := (augment_eq_ok_iff hs.names).mp h
  set es := Suggestion.entries doc.value
  refine ⟨fun d => ?_, fun d r hr henf => ?_, fun d hd => ?_, fun d r hr hne henf => ?_, rfl,
    fun other hperm => ?_⟩
  · by_cases hsame : merged t default rs es d = rs d
    · exact Or.inl hsame
    · obtain ⟨fields, r, hv, hc, -, hr⟩ := Suggestion.exists_of_merged_ne hsame
      exact Or.inr ⟨_, r, hv, hc, hr⟩
  · by_cases hsame : merged t default rs es d = rs d
    · exact ⟨r, hsame.trans hr, henf, Or.inl rfl⟩
    · obtain ⟨r', hr', henf', hmargin⟩ := Suggestion.exceeds_of_merged_ne hs hr henf hsame
      exact ⟨r', hr', henf', Or.inr hmargin⟩
  · by_contra hne
    obtain ⟨fields, r, hv, hc, -⟩ := Suggestion.exists_of_merged_ne hne
    obtain ⟨fields', hentry, htakes, -⟩ := Suggestion.candidate?_eq_some hc
    obtain rfl : fields = fields' := Value.object.inj (congrArg Prod.snd hentry)
    exact hd fields hv htakes
  · obtain ⟨fields, r', -, hc, -, hr'⟩ := Suggestion.exists_of_merged_ne hne
    obtain rfl : r' = r := Option.some.inj (hr'.symm.trans hr)
    obtain ⟨-, -, -, hcand, -⟩ := Suggestion.candidate?_eq_some hc
    have hreach := hcand.reaches henf
    have hunit := r'.confidence_inUnit
    rw [Rule.reaches, Bool.and_eq_true] at hreach
    rw [Number.inUnit, Bool.and_eq_true] at hunit
    exact ⟨hcand.permits henf, hreach.1, hreach.2, hunit.2, hcand.provenance, hcand.safe⟩
  · refine (augment_eq_ok_iff ((hperm.map _).nodup_iff.mpr hs.names)).mpr ⟨?_, ?_, rfl⟩
    · exact fun entry hentry => hok entry (hperm.mem_iff.mp hentry)
    · exact (Suggestion.merged_perm hperm hs.names rs).symm

/-- Double quotes, enforced, and nothing else. -/
def doubleQuotes : Rules := fun d =>
  if d = .quotes then some ⟨.str "double", .float (.finite (3 / 4)), .int 40, .deterministic, false,
    by decide +kernel, by decide +kernel⟩
  else none

/-- Suggestions of single quotes and of a width, with two entries that are of no use. -/
def quotesAndWidth : Value.Fields :=
  [("syntax.quotes", .object [("value", .str "single"), ("confidence", .float (.finite (7 / 8))),
      ("evidenceCount", .int 40)]),
    ("syntax.lineWidth", .object [("value", .float (.finite (199 / 2))),
      ("confidence", .str "0.9")]),
    ("syntax.semicolons", .object [("value", .bool true), ("confidence", .int 1)]),
    ("imports.ordering", .null)]

theorem regular_quotesAndWidth : Suggestion.Regular quotesAndWidth := by
  refine ⟨by decide, fun name fields x hmem hx => ?_⟩
  simp only [quotesAndWidth, List.mem_cons, Prod.mk.injEq, List.not_mem_nil, or_false,
    Value.object.injEq, reduceCtorEq, and_false] at hmem
  obtain ⟨-, rfl⟩ | ⟨-, rfl⟩ | ⟨-, rfl⟩ := hmem
  · cases hx
    refine Double.representable_of_round_eq ?_
    have h := Double.round_div_two_pow (k := 7) (e := 3) (by norm_num) (by norm_num)
    norm_num at h ⊢
    exact h
  · cases hx
  · cases hx

/-- The suggestions under a name of their own. -/
def nestedSuggestions : Suggestion.Document where
  value := .object [("rules", .object quotesAndWidth)]
  regular := regular_quotesAndWidth

/-- Single quotes take the place of double quotes, and a width is added, whether the entries stand
under a name of their own or not, and in either order. -/
theorem augment_strengthens_doubleQuotes :
    Suggestion.Regular (Suggestion.entries nestedSuggestions.value) ∧
      ∃ rs : Rules,
        doubleQuotes.augment nestedSuggestions.value .standard (.int 50) = .ok (rs, 2) ∧
        doubleQuotes.augment (.object quotesAndWidth.reverse) .standard (.int 50) = .ok (rs, 2) ∧
        {d | rs d ≠ doubleQuotes d}.ncard = 2 ∧ rs .importOrdering = none ∧
        ∃ r, rs .quotes = some r ∧ r.value = .str "single" ∧ r.provenance = .external ∧
          3 / 4 + 1 / 20 < r.confidence.exact.toRat := by
  have hvalues : ((doubleQuotes.augment nestedSuggestions.value .standard (.int 50)).toOption.map
      fun p => (p.2, (p.1 .quotes).any (·.value.isStr "single"))) =
        some (2, true) := by
    decide +kernel
  obtain ⟨⟨rs, n⟩, hrun, hpair⟩ := Option.map_eq_some_iff.mp hvalues
  obtain ⟨rfl, hsingle⟩ := Prod.mk.inj hpair
  have hok := eq_ok_of_toOption hrun
  rw [Option.any_eq_true] at hsingle
  obtain ⟨r, hr : rs .quotes = some r, hvalue⟩ := hsingle
  rw [Value.isStr_iff] at hvalue
  obtain ⟨-, hstronger, hkept, hnew, hcount, hperm⟩ := augment_strengthens nestedSuggestions hok
  have hne : rs .quotes ≠ doubleQuotes .quotes := by
    rw [hr]
    rintro ⟨⟩
    simp at hvalue
  obtain ⟨r', hr', henf, hmargin⟩ := hstronger .quotes _ rfl rfl
  obtain rfl : r = r' := Option.some.inj (hr.symm.trans hr')
  refine ⟨nestedSuggestions.regular, rs, hok, hperm _ (List.reverse_perm _), hcount.symm, ?_,
    r, hr, hvalue, (hnew .quotes r hr hne henf).2.2.2.2.1, hmargin.resolve_left ?_⟩
  · exact hkept .importOrdering fun fields hentry => by cases hentry
  · rintro rfl
    exact hne hr'

end Rules

end HouseStyle
