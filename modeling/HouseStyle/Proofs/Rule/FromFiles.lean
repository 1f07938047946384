import HouseStyle.Proofs.Evidence.Coherence
import HouseStyle.Proofs.Restyle.SafeOnly
import HouseStyle.Proofs.Rule.Inference
import HouseStyle.Rule.Suggestion

/-! # Rules of files

The signals of files are coherent, and so are they when merged; the longest line is no longer than
the longest text. Hence inference from files returns rules, one for every dimension, and an enforced
rule holds what it promises: it has a value that its dimension admits, and reaches the floors of the
thresholds. A size of indents goes with indents by spaces, and every line fits in a width below the
largest (`inferRules_sound`).

Inferred rules are marked as safe as their dimensions are (`faithful_inferRules`), and stay so when
suggestions are merged in, one after the other (`faithful_augment`). -/

namespace HouseStyle

namespace Lines

theorem longest_le_iff {ls : List Text} {b : Nat} :
    longest ls ≤ b ↔ ∀ l ∈ ls, l.isBlankText = false → visibleLength l ≤ b := by
  unfold longest
  rw [List.foldl_map, foldl_max_le_iff]
  simp only [Nat.zero_le, true_and, List.mem_filter, Bool.not_eq_true', and_imp]

theorem visibleLength_le (l : Text) : visibleLength l ≤ l.length := by
  have h := (List.dropWhile_sublist (l := l.reverse) (· == '\r')).length_le
  rwa [List.length_reverse] at h

end Lines

namespace Source

theorem longestLine_le_length (s : Source) : s.signals.longestLine ≤ s.text.length := by
  rw [longestLine_signals, Nat.cast_le, Lines.longest_le_iff]
  intro l hl _
  exact (Lines.visibleLength_le l).trans (Text.length_le_of_mem_lines hl)

variable {files : List Source}

/-- The signals of all files. -/
def mergedSignals (files : List Source) : Signals := (Signals.aggregate (files.map signals)).signals

theorem coherent_mergedSignals (files : List Source) : (mergedSignals files).Coherent := by
  refine Signals.coherent_aggregate fun r hr => ?_
  obtain ⟨f, -, rfl⟩ := List.mem_map.mp hr
  exact f.coherent_signals

theorem not_huge_mergedSignals (h : ∀ f ∈ files, (f.text.length : Int) < 2 ^ 1023) :
    ¬ (mergedSignals files).Huge := by
  rintro (hline | ⟨-, hblank⟩)
  · have hbound : (mergedSignals files).longestLine ≤ 2 ^ 1023 - 1 := by
      refine (Signals.longestLine_aggregate_le_iff
        (Int.sub_nonneg.mpr (one_le_pow₀ (by decide)))).mpr ?_
      intro r hr
      obtain ⟨f, hf, rfl⟩ := List.mem_map.mp hr
      exact Int.le_sub_one_of_lt (lt_of_le_of_lt f.longestLine_le_length (h f hf))
    exact absurd (hline.trans hbound) (not_le.mpr (sub_one_lt _))
  · have hlines := (coherent_mergedSignals files).lines
    have hspace := (coherent_mergedSignals files).nonneg .indentSpaceLines
    have htab := (coherent_mergedSignals files).nonneg .indentTabLines
    omega

end Source

/-- **Inference from files.** It returns a rule for every dimension, in order. An enforced rule has
a value that its dimension admits, and reaches the floors; the size of indents is enforced exactly
if their kind is enforced as spaces; and a width below the largest is one that every line fits in.
All that is asked of the files is that their lengths are in the range of numbers, as those of all
texts in a memory are. -/
theorem inferRules_sound (t : Thresholds) {files : List Source}
    (hfiles : ∀ f ∈ files, (f.text.length : Int) < 2 ^ 1023) :
    ∃ rs : Rules, inferRules t (Source.mergedSignals files) = .ok rs ∧
      rs.entries.map (·.1) = Dimension.all ∧
      (∀ d r, rs d = some r → r.enforced = true → d.Admits r.value ∧
        (Number.float (t.confidenceFloor (Source.mergedSignals files) d)).le r.confidence = true ∧
        (Number.int (t.evidenceFloor (Source.mergedSignals files) d)).le r.evidence = true) ∧
      ((∃ r, rs .indentationSize = some r ∧ r.enforced = true) ↔
        rs.enforcedValue .indentationKind = .str "space") ∧
      ∀ r, rs .lineWidth = some r → r.enforced = true → ∃ w ∈ Rule.usualWidths, r.value = .int w ∧
        (w < 160 → ∀ f ∈ files, ∀ l ∈ f.lines, l.isBlankText = false →
          (Lines.visibleLength l : Int) ≤ w) := by
  set s := Source.mergedSignals files
  have hs : ∀ c, 0 ≤ s.count c := (Source.coherent_mergedSignals files).nonneg
  obtain ⟨v, hv, hok⟩ := (Signals.inferRules_cases hs).resolve_right
    fun h => Source.not_huge_mergedSignals hfiles h.1
  refine ⟨_, hok t, ?_, ?_, ?_, ?_⟩
  · simp [Rules.entries, Function.comp_def]
  · rintro d r ⟨⟩ henf
    obtain ⟨hreach, heq⟩ := Rule.heldTo_of_enforced henf
    rw [heq] at henf
    rw [Rule.reaches, Bool.and_eq_true] at hreach
    rw [heq]
    exact ⟨(hv d).admits henf, hreach.2, hreach.1⟩
  · have hiff := Signals.enforced_indentationSize hs ((hv .indentationKind).inferRule_eq t)
      ((hv .indentationSize).inferRule_eq t)
    refine ⟨?_, fun hspace => ⟨_, rfl, hiff.mpr hspace⟩⟩
    rintro ⟨r, ⟨⟩, henf⟩
    exact hiff.mp henf
  · rintro r ⟨⟩ henf
    refine ⟨_, Rule.usualWidth_mem _, Signals.value_lineWidth ((hv .lineWidth).inferRule_eq t) henf,
      ?_⟩
    intro hlt f hf l hl hblank
    have hlongest : s.longestLine ≤ Rule.usualWidth s.longestLine := Rule.le_usualWidth hlt
    have hfile := (Signals.longestLine_aggregate_le_iff (Rule.usualWidth_pos _).le).mp hlongest _
      (List.mem_map_of_mem hf)
    have hline : Lines.visibleLength l ≤ Lines.longest f.lines :=
      Lines.longest_le_iff.mp le_rfl l hl hblank
    rw [Source.longestLine_signals] at hfile
    exact (Int.ofNat_le.mpr hline).trans hfile

/-- A switch with a break behind four spaces, as a file. -/
def looseBreakFile : Source := ⟨looseBreak 4, looseBreakNode 4, false⟩

/-- From the switch a size of indents and a width are inferred, if one line is enough. -/
theorem inferRules_sound_looseBreak :
    (∀ f ∈ [looseBreakFile], (f.text.length : Int) < 2 ^ 1023) ∧
      ∃ rs : Rules,
        inferRules ⟨1, .finite (1 / 2)⟩ (Source.mergedSignals [looseBreakFile]) = .ok rs ∧
        rs.entries.map (·.1) = Dimension.all ∧
          (∃ r, rs .indentationSize = some r ∧ r.enforced = true) ∧
        ∃ r, rs .lineWidth = some r ∧ r.enforced = true ∧
          ∃ w ∈ Rule.usualWidths, r.value = .int w := by
  have hlen : ∀ f ∈ [looseBreakFile], (f.text.length : Int) < 2 ^ 1023 := by decide +kernel
  obtain ⟨rs, hok, horder, -, hsize, hwidth⟩ := inferRules_sound ⟨1, .finite (1 / 2)⟩ hlen
  have hvalues :
      ((inferRules ⟨1, .finite (1 / 2)⟩ (Source.mergedSignals [looseBreakFile])).toOption.map
        fun rs => (rs.enforcedValue .indentationKind).isStr "space" &&
          (rs .lineWidth).any (·.enforced)) = some true := by decide +kernel
  rw [hok] at hvalues
  have hboth := Option.some.inj hvalues
  rw [Bool.and_eq_true, Value.isStr_iff, Option.any_eq_true] at hboth
  obtain ⟨hspace, r, hr, henf⟩ := hboth
  obtain ⟨w, hw, hvalue, -⟩ := hwidth r hr henf
  exact ⟨hlen, rs, hok, horder, hsize.mpr hspace, r, hr, henf, w, hw, hvalue⟩

/-! ### Safety of rules -/

/-- **Inferred rules** are marked as safe as their dimensions are. -/
theorem Signals.faithful_inferRules {s : Signals} (hs : ∀ c, 0 ≤ s.count c) {t : Thresholds}
    {rs : Rules} (h : inferRules t s = .ok rs) : rs.Faithful := by
  rcases inferRules_cases hs with ⟨v, hv, hok⟩ | ⟨-, herr⟩
  · rw [hok t] at h
    cases h
    rintro d r ⟨⟩
    rw [Rule.safe_heldTo]
    exact (hv d).safe
  · rw [herr t] at h
    cases h

theorem exists_of_bind_eq_ok {α β ε : Type} {x : Except ε α} {f : α → Except ε β} {b : β}
    (h : (x >>= f) = .ok b) : ∃ a, x = .ok a ∧ f a = .ok b := by
  cases x with
  | error e => cases h
  | ok a => exact ⟨a, rfl, h⟩

theorem Rule.safe_of_make {v : Value} {status : Status} {c e : Number} {p : Provenance}
    {safe : Bool} {r : Rule} (h : make v status c e p safe = .ok r) : r.safe = safe := by
  unfold make at h
  split_ifs at h
  cases h
  rfl

namespace Suggestion

variable {t : Thresholds} {default : Number}

theorem safe_candidate {d : Descriptor} {v : Value} {c : Double} {e : Number} {r : Rule}
    (h : candidate t d v c e = .ok r) : r.safe = d.safe := by
  unfold candidate at h
  split_ifs at h
  · exact Rule.safe_of_make h
  · exact Rule.safe_of_make h

theorem safe_candidate? {entry : String × Value} {d : Dimension} {r : Rule}
    (h : candidate? t default entry = .ok (some (d, r))) : r.safe = d.descriptor.safe := by
  unfold candidate? at h
  split at h
  · rename_i d' fields hname hentry
    obtain ⟨value, -, h⟩ := exists_of_bind_eq_ok h
    split_ifs at h
    · cases h
    · obtain ⟨c, -, h⟩ := exists_of_bind_eq_ok h
      obtain ⟨r', hr, h⟩ := exists_of_bind_eq_ok h
      cases h
      exact safe_candidate hr
  · cases h

theorem faithful_mergeStep {acc acc' : Rules × Nat} (hacc : acc.1.Faithful) {entry : String × Value}
    (h : mergeStep t default acc entry = .ok acc') : acc'.1.Faithful := by
  unfold mergeStep at h
  obtain ⟨found, hfound, h⟩ := exists_of_bind_eq_ok h
  split at h
  · rename_i d r
    split_ifs at h
    · cases h
      exact hacc.set (safe_candidate? hfound)
    · cases h
      exact hacc
  · cases h
    exact hacc

end Suggestion

/-- **Suggestions leave rules faithful**, one after the other. -/
theorem Rules.faithful_augment {rs rs' : Rules} (hrs : rs.Faithful) {suggestions : Value}
    {t : Thresholds} {default : Number} {n : Nat}
    (h : rs.augment suggestions t default = .ok (rs', n)) :
      rs'.Faithful := by
  have hrun : ∀ (entries : List (String × Value)) (acc acc' : Rules × Nat), acc.1.Faithful →
      entries.foldlM (Suggestion.mergeStep t default) acc = .ok acc' → acc'.1.Faithful := by
    intro entries
    induction entries with
    | nil =>
      rintro acc acc' hacc ⟨⟩
      exact hacc
    | cons entry entries ih =>
      intro acc acc' hacc hfold
      rw [List.foldlM_cons] at hfold
      obtain ⟨next, hstep, hrest⟩ := exists_of_bind_eq_ok hfold
      exact ih next acc' (Suggestion.faithful_mergeStep hacc hstep) hrest
  exact hrun _ (rs, 0) (rs', n) hrs h

end HouseStyle
