import HouseStyle.Proofs.Rule.Floors

/-! # Inference of all rules

Of counts that are not negative every dimension has a verdict, which the thresholds hold to floors
of their own (`Signals.Verdict`); only a width or a density can fail, and only with numbers that no
text reaches (`Signals.Huge`). The size of indents has no floors of its own: it follows their kind,
and because it has the evidence of spaces the floors of the kind are its floors as well
(`Rule.sizeOfIndents_heldTo`).

So the rules of all dimensions are verdicts held to floors (`Signals.inferRules_cases`). Floors rise
with the thresholds (`evidenceFloor_mono`, `confidenceFloor_mono`), and raising thresholds only
demotes rules (`inferRules_mono`). -/

namespace HouseStyle

/-! ### Floors of a dimension -/

namespace Thresholds

variable {t t' : Thresholds}

theorem fraction_mono (h : t.minEvidence ≤ t'.minEvidence) {parts : Int} (hp : 0 < parts) :
    t.fraction parts ≤ t'.fraction parts := by
  unfold fraction
  have := Int.ediv_le_ediv hp h
  omega

theorem evidenceFloor_mono (h : t.minEvidence ≤ t'.minEvidence) (s : Signals) (d : Dimension) :
    t.evidenceFloor s d ≤ t'.evidenceFloor s d := by
  have hsparse : t.sparse ≤ t'.sparse := fraction_mono h (by decide)
  have hquarter : t.quarter ≤ t'.quarter := fraction_mono h (by decide)
  have hultra : t.ultraSparse ≤ t'.ultraSparse := fraction_mono h (by decide)
  cases d with
  | memberChainIndentation =>
    -- one vote is enough up to thresholds of two, and two beyond
    dsimp only [evidenceFloor]
    split_ifs
    all_goals omega
  | _ =>
    dsimp only [evidenceFloor]
    omega

theorem relaxed_mono (h : t.minConfidence.le t'.minConfidence = true) (floor allowance : ℚ)
    (h0 : 1 / 2 ^ 4 ≤ allowance) (h1 : allowance ≤ 1) :
    (t.relaxed floor allowance).le (t'.relaxed floor allowance) = true := by
  obtain ⟨ha, hne⟩ := Double.round_ne_zero (by norm_num) h0 h1
  unfold relaxed
  rw [ha]
  exact Double.larger_mono (Double.round_ne_nan floor) (Double.sub_finite_mono hne h)

theorem confidenceFloor_mono (h : t.minConfidence.le t'.minConfidence = true) (s : Signals)
    (d : Dimension) : (t.confidenceFloor s d).le (t'.confidenceFloor s d) = true := by
  have hbreak := relaxed_mono h (55 / 100) (20 / 100) (by norm_num) (by norm_num)
  have hchain := relaxed_mono h (60 / 100) (15 / 100) (by norm_num) (by norm_num)
  unfold confidenceFloor
  split
  · exact hbreak
  · split_ifs
    · exact hchain
    · exact h
  · exact h

end Thresholds

/-! ### The unit of indentation -/

namespace Histogram

theorem bestStep_pos (h : Histogram) {best : Int × Int} (hb : 0 < best.1) {unit : Int}
    (hu : 0 < unit) : 0 < (bestStep h best unit).1 := by
  unfold bestStep
  split_ifs
  · exact hu
  · exact hb

theorem foldl_min_pos {h : Histogram} (hpos : ∀ e ∈ h, 0 < e.1) {n : Int} (hn : 0 < n) :
    0 < h.foldl (fun m e => min m e.1) n := by
  induction h generalizing n with
  | nil => exact hn
  | cons e h ih =>
    have hmin : 0 < min n e.1 := lt_min hn (hpos e List.mem_cons_self)
    exact ih (fun e' he' => hpos e' (List.mem_cons_of_mem e he')) hmin

/-- **The unit of indentation is positive**, whatever the histogram. -/
theorem indentUnit_pos (h : Histogram) : 0 < h.indentUnit := by
  unfold indentUnit
  have hused : ∀ e ∈ h.filter fun e => 0 < e.1 && 0 < e.2, 0 < e.1 := by
    intro e he
    have := (List.mem_filter.mp he).2
    simp only [Bool.and_eq_true, decide_eq_true_eq] at this
    exact this.1
  dsimp only
  split
  · decide
  · rename_i first rest heq
    rw [heq] at hused
    split_ifs with hgcd hbest
    · omega
    · exact bestStep_pos _ (bestStep_pos _ (bestStep_pos _ (by decide) (by decide)) (by decide))
        (by decide)
    · exact foldl_min_pos (fun e he => hused e (List.mem_cons_of_mem _ he))
        (hused _ List.mem_cons_self)

end Histogram

/-! ### Verdicts -/

theorem Value.isStr_iff {v : Value} {text : String} : v.isStr text = true ↔ v = .str text := by
  cases v <;> simp [isStr]

namespace Descriptor

theorem ne_null_of_accepts {d : Descriptor} {v : Value} (h : d.accepts v = true) : v ≠ .null := by
  rintro rfl
  simp [accepts, sameChoice] at h

end Descriptor

namespace Dimension

/-- The values that a rule of a dimension may have: a positive integer if it is numeric, and one of
those listed otherwise. -/
def Admits (d : Dimension) (v : Value) : Prop :=
  if d.descriptor.numeric then ∃ n : Int, v = .int n ∧ 0 < n else d.descriptor.accepts v = true

theorem accepts_values {d : Dimension} (h : d.descriptor.numeric = false) :
    d.descriptor.accepts (d.descriptor.values.getD 0 .null) = true ∧
      d.descriptor.accepts (d.descriptor.values.getD 1 .null) = true := by
  revert h
  cases d <;> decide

theorem admits_of_accepts {d : Dimension} {v : Value} (h : d.descriptor.accepts v = true) :
    d.Admits v := by
  unfold Admits
  split_ifs with hnum
  · simp [Descriptor.accepts, hnum] at h
  · exact h

end Dimension

namespace Rule

/-- The rule of the size of indents that follows from the rule of their kind. -/
def sizeOfIndents (kind : Rule) (unit : Int) {n : Int} (hn : 0 ≤ n) : Rule :=
  ⟨if kind.value.isStr "space" then .int unit else .null, kind.confidence, .int n,
    .deterministic, true, kind.confidence_inUnit, Number.isNegative_int hn⟩

variable (k : Rule) (unit : Int) {n : Int} (hn : 0 ≤ n)

theorem enforced_sizeOfIndents : (k.sizeOfIndents unit hn).enforced = k.value.isStr "space" := by
  unfold enforced sizeOfIndents
  cases k.value.isStr "space" <;> rfl

/-- **The floors of the kind are those of the size**, if spaces have the evidence that the size has.
-/
theorem sizeOfIndents_heldTo {k : Rule} (hk : k.value.isStr "space" = true → k.evidence = .int n)
    (e : Int) (c : Double) :
    (k.heldTo e c).sizeOfIndents unit hn = (k.sizeOfIndents unit hn).heldTo e c := by
  by_cases hspace : k.value.isStr "space" = true
  · have hreach : (k.sizeOfIndents unit hn).reaches e c = k.reaches e c := by
      rw [reaches, reaches, hk hspace]
      rfl
    unfold heldTo
    rw [hreach]
    split
    · rfl
    · rfl
  · rw [heldTo_of_isNull (r := k.sizeOfIndents unit hn) (if_neg hspace)]
    unfold heldTo
    split
    · rfl
    · simp only [sizeOfIndents, demoted, if_neg hspace]
      rfl

end Rule

namespace Signals

variable {s : Signals}

theorem outcomes_nonneg (hs : ∀ c, 0 ≤ s.count c) (d : Dimension) :
    0 ≤ (s.outcomes d).1 ∧ 0 ≤ (s.outcomes d).2 := by
  cases d with
  | preferDocComments => exact ⟨hs _, le_max_right _ _⟩
  | memberChainIndentation =>
    unfold outcomes
    split_ifs
    · exact ⟨hs _, hs _⟩
    · exact ⟨hs _, hs _⟩
  | lineWidth => exact ⟨le_rfl, le_rfl⟩
  | indentationSize => exact ⟨le_rfl, le_rfl⟩
  | blankLineDensity => exact ⟨le_rfl, le_rfl⟩
  | _ => exact ⟨hs _, hs _⟩

/-- What the signals say about a dimension: the thresholds only hold it to their floors. -/
structure Verdict (s : Signals) (d : Dimension) (r : Rule) : Prop where
  inferRule_eq : ∀ t, inferRule t s d = .ok (r.heldTo (t.evidenceFloor s d) (t.confidenceFloor s d))
  admits : r.enforced = true → d.Admits r.value
  safe : r.safe = d.descriptor.safe

/-- Signals that no text has: a line of `2 ^ 1023` characters, or as many blank lines among fewer
lines. -/
def Huge (s : Signals) : Prop :=
  2 ^ 1023 ≤ s.longestLine ∨
  (2 ^ 1023 ≤ s.count .blankLines ∧ s.count .totalLines < s.count .blankLines)

theorem exists_verdict_choice (hs : ∀ c, 0 ≤ s.count c) {d : Dimension}
    (hd : d.descriptor.numeric = false) : ∃ r : Rule, (∀ t, inferChoice t s d =
        .ok (r.heldTo (t.evidenceFloor s d) (t.confidenceFloor s d))) ∧
      (r.enforced = true → d.Admits r.value) ∧ r.safe = d.descriptor.safe ∧
      (r.value = .null ∨
        (r.value = d.descriptor.values.getD 0 .null ∧ r.evidence = .int (s.outcomes d).1) ∨
        (r.value = d.descriptor.values.getD 1 .null ∧ r.evidence = .int (s.outcomes d).2)) := by
  obtain ⟨hyes, hno⟩ := outcomes_nonneg hs d
  obtain ⟨hfirst, hsecond⟩ := Dimension.accepts_values hd
  obtain ⟨r, hr, hsafe, hvalue⟩ := Rule.exists_verdict_majority hyes hno
    (Descriptor.ne_null_of_accepts hfirst) (Descriptor.ne_null_of_accepts hsecond) d.descriptor.safe
  refine ⟨r, fun t => hr _ _, fun henf => ?_, hsafe, hvalue⟩
  rcases hvalue with hnull | ⟨hv, -⟩ | ⟨hv, -⟩
  · exact absurd hnull (Rule.value_ne_null henf)
  · rw [hv]
    exact Dimension.admits_of_accepts hfirst
  · rw [hv]
    exact Dimension.admits_of_accepts hsecond

theorem inferIndentationSize_eq {t : Thresholds} {k : Rule}
    (hk : inferChoice t s .indentationKind = .ok k) (hn : 0 ≤ s.count .indentSpaceLines) :
    inferIndentationSize t s =
      .ok (k.sizeOfIndents (Histogram.latest s.indentSizes).indentUnit hn) := by
  unfold inferIndentationSize
  rw [hk]
  exact Rule.gated_eq (by simp) k.confidence_inUnit hn _ _

theorem exists_verdict_indentationSize (hs : ∀ c, 0 ≤ s.count c) :
    ∃ r, s.Verdict .indentationSize r := by
  obtain ⟨k, hk, -, -, hvalue⟩ := exists_verdict_choice hs (d := .indentationKind) rfl
  have hevidence : k.value.isStr "space" = true →
      k.evidence = .int (s.count .indentSpaceLines) := by
    intro hspace
    rcases hvalue with hv | ⟨-, hev⟩ | ⟨hv, -⟩
    · rw [hv] at hspace
      exact absurd hspace Bool.false_ne_true
    · exact hev
    · rw [hv] at hspace
      exact absurd hspace (by decide)
  refine ⟨k.sizeOfIndents (Histogram.latest s.indentSizes).indentUnit (hs .indentSpaceLines),
    fun t => ?_, fun henf => ?_, rfl⟩
  · change inferIndentationSize t s = _
    rw [inferIndentationSize_eq (hk t) (hs _), Rule.sizeOfIndents_heldTo _ _ hevidence]
    rfl
  · rw [Rule.enforced_sizeOfIndents] at henf
    exact ⟨_, if_pos henf, Histogram.indentUnit_pos _⟩

end Signals

/-! ### All dimensions -/

theorem mem_inferenceOrder (d : Dimension) : d ∈ inferenceOrder := by
  cases d <;> decide

theorem mapM_eq_error {α β ε : Type} {f : α → Except ε β} {e : ε} {l : List α}
    (h : ∀ x ∈ l, (∃ y, f x = .ok y) ∨ f x = .error e) (herr : ∃ x ∈ l, f x = .error e) :
    l.mapM f = .error e := by
  induction l with
  | nil => simp at herr
  | cons x l ih =>
    rw [List.mapM_cons]
    rcases h x List.mem_cons_self with ⟨y, hy⟩ | hx
    · obtain ⟨z, hz, hzerr⟩ := herr
      have hmem : z ∈ l := by
        rcases List.mem_cons.mp hz with rfl | hz
        · rw [hy] at hzerr
          cases hzerr
        · exact hz
      rw [hy, ih (fun a ha => h a (List.mem_cons_of_mem x ha)) ⟨z, hmem, hzerr⟩]
      rfl
    · rw [hx]
      rfl

section

variable {t : Thresholds} {s : Signals}

theorem inferRules_eq_ok {f : Dimension → Rule} (h : ∀ d, inferRule t s d = .ok (f d)) :
    inferRules t s = .ok fun d => some (f d) := by
  have hpure : (fun d => (inferRule t s d).map (d, ·)) = fun d => pure (d, f d) := by
    funext d
    rw [h d]
    rfl
  have hlookup : (fun d => (inferenceOrder.map fun d => (d, f d)).lookup d) =
      fun d => some (f d) := by
    funext d
    exact List.lookup_graph f (mem_inferenceOrder d)
  unfold inferRules
  rw [hpure, List.mapM_pure, ← hlookup]
  rfl

theorem inferRules_eq_error {e : Failure}
    (h : ∀ d, (∃ r, inferRule t s d = .ok r) ∨ inferRule t s d = .error e)
    (herr : ∃ d, inferRule t s d = .error e) : inferRules t s = .error e := by
  obtain ⟨d, hd⟩ := herr
  unfold inferRules
  rw [mapM_eq_error (e := e)]
  · rfl
  · intro d' _
    rcases h d' with ⟨r, hr⟩ | hd'
    · exact Or.inl ⟨(d', r), by rw [hr]; rfl⟩
    · exact Or.inr (by rw [hd']; rfl)
  · exact ⟨d, mem_inferenceOrder d, by rw [hd]; rfl⟩

end

namespace Signals

variable {s : Signals}

theorem exists_verdict (hs : ∀ c, 0 ≤ s.count c) (d : Dimension) :
    (∃ r, s.Verdict d r) ∨ (s.Huge ∧ ∀ t, inferRule t s d = .error .numberTooLarge) := by
  have hchoice : d.descriptor.numeric = false → (∀ t, inferRule t s d = inferChoice t s d) →
      ∃ r, s.Verdict d r := by
    intro hnum heq
    obtain ⟨r, hr, hadmits, hsafe, -⟩ := exists_verdict_choice hs hnum
    exact ⟨r, fun t => (heq t).trans (hr t), hadmits, hsafe⟩
  cases d with
  | lineWidth =>
    rcases Rule.exists_verdict_lineWidth s.longestLine
      (s.count .totalLines - s.count .blankLines) with
      ⟨r, hr, hsafe, hvalue⟩ | ⟨hlarge, hr⟩
    · refine Or.inl ⟨r, fun t => hr _ _, fun henf => ?_, hsafe⟩
      rcases hvalue with hnull | hv
      · exact absurd hnull (Rule.value_ne_null henf)
      · exact ⟨_, hv, Rule.usualWidth_pos _⟩
    · exact Or.inr ⟨Or.inl hlarge, fun t => hr _ _⟩
  | blankLineDensity =>
    rcases Rule.exists_verdict_density (hs .blankLines) (s.count .totalLines) with
      ⟨r, hr, hsafe, hvalue⟩ | ⟨hlt, hlarge, hr⟩
    · refine Or.inl ⟨r, fun t => hr _ _, fun henf => ?_, hsafe⟩
      rcases hvalue with hnull | hv | hv
      · exact absurd hnull (Rule.value_ne_null henf)
      · rw [hv]
        exact Dimension.admits_of_accepts (by decide)
      · rw [hv]
        exact Dimension.admits_of_accepts (by decide)
    · exact Or.inr ⟨Or.inr ⟨hlarge, hlt⟩, fun t => hr _ _⟩
  | indentationSize => exact Or.inl (exists_verdict_indentationSize hs)
  | _ => exact Or.inl (hchoice rfl fun _ => rfl)

/-- **The rules of all dimensions** are their verdicts, held to the floors of the thresholds; or a
number is too large, whatever the thresholds are. -/
theorem inferRules_cases (hs : ∀ c, 0 ≤ s.count c) :
    (∃ v : Dimension → Rule, (∀ d, s.Verdict d (v d)) ∧ ∀ t, inferRules t s =
      .ok fun d => some ((v d).heldTo (t.evidenceFloor s d) (t.confidenceFloor s d))) ∨
    (s.Huge ∧ ∀ t, inferRules t s = .error .numberTooLarge) := by
  by_cases hall : ∀ d, ∃ r, s.Verdict d r
  · choose v hv using hall
    exact Or.inl ⟨v, hv, fun t => inferRules_eq_ok fun d => (hv d).inferRule_eq t⟩
  · right
    obtain ⟨d, hd⟩ := not_forall.mp hall
    obtain ⟨hhuge, herr⟩ := (exists_verdict hs d).resolve_left hd
    refine ⟨hhuge, fun t => inferRules_eq_error (fun d' => ?_) ⟨d, herr t⟩⟩
    rcases exists_verdict hs d' with ⟨r, hr⟩ | ⟨-, herr'⟩
    · exact Or.inl ⟨_, hr.inferRule_eq t⟩
    · exact Or.inr (herr' t)

theorem value_lineWidth {t : Thresholds} {r : Rule} (h : inferRule t s .lineWidth = .ok r)
    (henf : r.enforced = true) : r.value = .int (Rule.usualWidth s.longestLine) := by
  rcases Rule.exists_verdict_lineWidth s.longestLine
    (s.count .totalLines - s.count .blankLines) with
    ⟨v, hv, -, hvalue⟩ | ⟨-, herr⟩
  · have heq : v.heldTo t.minEvidence t.minConfidence = r := Except.ok.inj ((hv _ _).symm.trans h)
    rw [← heq] at henf ⊢
    have hself := (Rule.heldTo_of_enforced henf).2
    rw [hself] at henf ⊢
    exact hvalue.resolve_left (Rule.value_ne_null henf)
  · exact absurd ((herr _ _).symm.trans h) (by simp)

theorem enforced_indentationSize (hs : ∀ c, 0 ≤ s.count c) {t : Thresholds} {k r : Rule}
    (hk : inferRule t s .indentationKind = .ok k) (hr : inferRule t s .indentationSize = .ok r) :
    r.enforced = true ↔ k.value = .str "space" := by
  have heq : k.sizeOfIndents (Histogram.latest s.indentSizes).indentUnit (hs .indentSpaceLines) =
      r :=
    Except.ok.inj ((inferIndentationSize_eq hk (hs _)).symm.trans hr)
  rw [← heq, Rule.enforced_sizeOfIndents, Value.isStr_iff]

end Signals

/-- **Inference is monotone in the thresholds.** Higher thresholds leave the confidence, the
evidence, the origin and the safety of every rule as they are, and what they enforce lower ones
enforce with the same value. Where a number is too large under some thresholds it is so under all.
-/
theorem inferRules_mono {t t' : Thresholds} (he : t.minEvidence ≤ t'.minEvidence)
    (hc : t.minConfidence.le t'.minConfidence = true) {s : Signals} (hs : ∀ c, 0 ≤ s.count c) :
    (s.Huge ∧ inferRules t s = .error .numberTooLarge ∧ inferRules t' s = .error .numberTooLarge) ∨
    ∃ rs rs' : Rules, inferRules t s = .ok rs ∧ inferRules t' s = .ok rs' ∧
      ∀ d, ∃ r r' : Rule, rs d = some r ∧ rs' d = some r' ∧ r.confidence = r'.confidence ∧
        r.evidence = r'.evidence ∧ r.provenance = r'.provenance ∧ r.safe = r'.safe ∧
        (r'.enforced = true → r.enforced = true ∧ r.value = r'.value) := by
  rcases Signals.inferRules_cases hs with ⟨v, -, hok⟩ | ⟨hhuge, herr⟩
  · refine Or.inr ⟨_, _, hok t, hok t', fun d => ⟨_, _, rfl, rfl, ?_⟩⟩
    simp only [Rule.confidence_heldTo, Rule.evidence_heldTo, Rule.provenance_heldTo,
      Rule.safe_heldTo, true_and]
    exact Rule.heldTo_mono (Thresholds.evidenceFloor_mono he s d)
      (Thresholds.confidenceFloor_mono hc s d)
  · exact Or.inl ⟨hhuge, herr t, herr t'⟩

/-- Twenty pairs of double quotes and nothing else. -/
def twentyQuotes : Signals := Signals.zero.add .quotesDouble 20

/-- The quotes are enough for ten, and not for thirty. -/
theorem inferRules_mono_twentyQuotes : ∃ rs rs' : Rules,
    inferRules ⟨10, .finite (1 / 2)⟩ twentyQuotes = .ok rs ∧
      inferRules .standard twentyQuotes = .ok rs' ∧
      (rs.enforcedValue .quotes).isStr "double" = true ∧ (rs'.enforcedValue .quotes).isNull = true ∧
      ∀ d, ∃ r r' : Rule, rs d = some r ∧ rs' d = some r' ∧ r.confidence = r'.confidence ∧
        r.evidence = r'.evidence ∧ r.provenance = r'.provenance ∧ r.safe = r'.safe ∧
        (r'.enforced = true → r.enforced = true ∧ r.value = r'.value) := by
  have hs : ∀ c, 0 ≤ twentyQuotes.count c := by
    intro c
    cases c <;> decide
  have he : (10 : Int) ≤ Thresholds.standard.minEvidence := by decide
  have hc : (Double.finite (1 / 2)).le Thresholds.standard.minConfidence = true := by decide +kernel
  have hlow : ((inferRules ⟨10, .finite (1 / 2)⟩ twentyQuotes).toOption.map fun rs =>
      (rs.enforcedValue .quotes).isStr "double") = some true := by decide +kernel
  have hhigh : ((inferRules .standard twentyQuotes).toOption.map fun rs =>
      (rs.enforcedValue .quotes).isNull) = some true := by decide +kernel
  rcases inferRules_mono (t := ⟨10, .finite (1 / 2)⟩) he hc hs with ⟨-, herr, -⟩
    | ⟨rs, rs', hrs, hrs', h⟩
  · rw [herr] at hlow
    cases hlow
  · rw [hrs] at hlow
    rw [hrs'] at hhigh
    exact ⟨rs, rs', hrs, hrs', Option.some.inj hlow, Option.some.inj hhigh, h⟩

end HouseStyle
