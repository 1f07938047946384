import HouseStyle.Learning.Learn
import HouseStyle.Proofs.Evidence.Aggregation
import HouseStyle.Proofs.Rule.FromFiles

/-! # Learning from files in any order

Learning looks at so many files from the front of a list. Those that have a tree give signals, the
signals are merged, and everything but the list of paths is read off the merged ones. Merging
forgets the order of the files, so learning depends on it only by the order of the paths, and not at
all on the files behind the limit (`learn_perm`).

Nothing else makes two runs differ, not even by failing: without a tree among the files there is
nothing to learn from, and otherwise inference returns, because the signals of files are coherent,
also where the names of function expressions are left out (`coherent_countedSignals`). -/

namespace HouseStyle

/-! ### Files and their signals -/

namespace SourceFile

/-- The source that a file becomes in the language of its path, if it has a tree. -/
def source? (p : Parser) (f : SourceFile) : Option Source :=
  f.text.bind (p.parse? (Path.language f.path.toList).name)

theorem text_of_source? {p : Parser} {f : SourceFile} {s : Source} (h : f.source? p = some s) :
    f.text = some s.text := by
  obtain ⟨t, ht, hs⟩ := Option.bind_eq_some_iff.mp h
  rw [Parser.parse?] at hs
  cases hl : Language.ofName? (Path.language f.path.toList).name with
  | none => simp [hl] at hs
  | some l =>
    rw [hl] at hs
    obtain ⟨r, -, rfl⟩ := Option.map_eq_some_iff.mp hs
    exact ht

end SourceFile

namespace Learning

variable {p : Parser} {config : Config}

/-- The signals that a file counts with: on paths of tests, those without the names of function
expressions. -/
def countedSignals (config : Config) (f : SourceFile) (s : Source) : Signals :=
  if config.skipTestLike && Path.isTestLike f.path.toList then withoutFunctionNames s.signals
  else s.signals

theorem coherent_withoutFunctionNames {r : Signals} (h : r.Coherent) :
    (withoutFunctionNames r).Coherent where
  nonneg c := by
    unfold withoutFunctionNames
    dsimp only
    split_ifs
    · exact le_rfl
    · exact h.nonneg c
  longestLine_nonneg := h.longestLine_nonneg
  lines := h.lines
  proper := h.proper
  sizes := h.sizes
  documented := h.documented
  named := h.named

theorem coherent_countedSignals (config : Config) (f : SourceFile) (s : Source) :
    (countedSignals config f s).Coherent ∧
      (countedSignals config f s).longestLine ≤ s.text.length := by
  unfold countedSignals
  split_ifs
  · exact ⟨coherent_withoutFunctionNames s.coherent_signals, s.longestLine_le_length⟩
  · exact ⟨s.coherent_signals, s.longestLine_le_length⟩

theorem signals?_eq (p : Parser) (config : Config) (f : SourceFile) :
    signals? p config.skipTestLike f = (f.source? p).map fun s => (f, countedSignals config f s) :=
      rfl

theorem exists_of_mem_samples {files : List SourceFile} {e : SourceFile × Signals}
    (h : e ∈ samples p config files) : e.1 ∈ files.take config.maxFiles ∧
      ∃ s, e.1.source? p = some s ∧ e.2 = countedSignals config e.1 s := by
  obtain ⟨f, hf, he⟩ := List.mem_filterMap.mp h
  rw [signals?_eq] at he
  obtain ⟨s, hs, rfl⟩ := Option.map_eq_some_iff.mp he
  exact ⟨hf, s, hs, rfl⟩

theorem samples_eq_nil_iff {files : List SourceFile} :
    samples p config files = [] ↔ ∀ f ∈ files.take config.maxFiles, f.source? p = none := by
  unfold samples
  rw [List.filterMap_eq_nil_iff]
  simp only [signals?_eq, Option.map_eq_none_iff]

/-! ### Merged signals -/

/-- What the files up to the limit show together. -/
def totals (p : Parser) (config : Config) (files : List SourceFile) : Totals :=
  Signals.aggregate ((samples p config files).map (·.2))

theorem coherent_totals (p : Parser) (config : Config) (files : List SourceFile) :
    (totals p config files).signals.Coherent := by
  refine Signals.coherent_aggregate fun r hr => ?_
  obtain ⟨e, he, rfl⟩ := List.mem_map.mp hr
  obtain ⟨-, s, -, hs⟩ := exists_of_mem_samples he
  rw [hs]
  exact (coherent_countedSignals config e.1 s).1

theorem exists_text_of_huge {files : List SourceFile} (h : (totals p config files).signals.Huge) :
    ∃ f ∈ files.take config.maxFiles, ∃ t, f.text = some t ∧ (2 ^ 1023 : Int) ≤ t.length := by
  by_contra hno
  have hshort : (totals p config files).signals.longestLine ≤ 2 ^ 1023 - 1 := by
    refine (Signals.longestLine_aggregate_le_iff
      (Int.sub_nonneg.mpr (one_le_pow₀ (by decide)))).mpr fun r hr => ?_
    obtain ⟨e, he, rfl⟩ := List.mem_map.mp hr
    obtain ⟨hmem, s, hs, hsignals⟩ := exists_of_mem_samples he
    have hline : e.2.longestLine ≤ s.text.length :=
      hsignals ▸ (coherent_countedSignals config e.1 s).2
    have hlength : (s.text.length : Int) < 2 ^ 1023 := by
      by_contra hlong
      exact hno ⟨e.1, hmem, s.text, SourceFile.text_of_source? hs, not_lt.mp hlong⟩
    exact Int.le_sub_one_of_lt (lt_of_le_of_lt hline hlength)
  rcases h with hline | ⟨-, hblank⟩
  · exact absurd (hline.trans hshort) (not_le.mpr (sub_one_lt _))
  · -- blank lines are among all lines
    have hlines := (coherent_totals p config files).lines
    have hspace := (coherent_totals p config files).nonneg .indentSpaceLines
    have htab := (coherent_totals p config files).nonneg .indentTabLines
    omega

theorem inferRules_totals (p : Parser) (config : Config) (files : List SourceFile) :
    (∃ rules, inferRules config.thresholds (totals p config files).signals = .ok rules) ∨
      ((∃ f ∈ files.take config.maxFiles, ∃ t, f.text = some t ∧ (2 ^ 1023 : Int) ≤ t.length) ∧
        inferRules config.thresholds (totals p config files).signals = .error .numberTooLarge) := by
  rcases Signals.inferRules_cases (coherent_totals p config files).nonneg with
    ⟨v, -, hok⟩ | ⟨hhuge, herr⟩
  · exact Or.inl ⟨_, hok config.thresholds⟩
  · exact Or.inr ⟨exists_text_of_huge hhuge, herr config.thresholds⟩

end Learning

/-! ### Runs of learning -/

section

variable {p : Parser} {run : String → Value → CommandResult} {config : Config}
  {files : List SourceFile}

theorem learn_eq_infer (hcommand : config.command.truthy = false) :
    learn p run config files = Learning.infer config (Learning.samples p config files) := by
  have haugment : ∀ profile, Learning.augment run config (Learning.samples p config files) profile =
      .ok profile := by
    intro profile
    unfold Learning.augment
    rw [hcommand]
    rfl
  unfold learn
  simp only [haugment]
  exact bind_pure _

theorem learn_of_no_tree (hcommand : config.command.truthy = false)
    (h : Learning.samples p config files = []) :
    learn p run config files = .error .nothingParsed := by
  rw [learn_eq_infer hcommand, h]
  rfl

theorem learn_of_tree (hcommand : config.command.truthy = false)
    (h : Learning.samples p config files ≠ []) : learn p run config files =
      (inferRules config.thresholds (Learning.totals p config files).signals).map fun rules =>
        ⟨rules, (Learning.totals p config files).signals.evidenceTotals,
          (Learning.totals p config files).fileCount,
          (Learning.samples p config files).map (·.1.path), 0⟩ := by
  have hsome : (Learning.samples p config files).isEmpty = false := List.isEmpty_eq_false_iff.mpr h
  rw [learn_eq_infer hcommand, Learning.infer, hsome]
  rfl

end

/-- **Learning does not depend on the order of files**, nor on those behind the limit. If no file up
to the limit has a tree, learning fails on both lists for that reason, and for no other. Otherwise
both profiles have the same rules, the same evidence and the same number of files, and their paths
are the same in some order, one for each file. A text whose length is out of the range of numbers,
which no memory holds, makes both runs fail alike. -/
theorem learn_perm {p : Parser} {run : String → Value → CommandResult} {config : Config}
    (hcommand : config.command.truthy = false) {fs gs : List SourceFile}
    (h : (fs.take config.maxFiles).Perm (gs.take config.maxFiles)) :
    ((∀ f ∈ fs.take config.maxFiles, f.source? p = none) ∧
      learn p run config fs = .error .nothingParsed ∧
        learn p run config gs = .error .nothingParsed) ∨
    ((∃ f ∈ fs.take config.maxFiles, (f.source? p).isSome = true) ∧
      ((∃ P Q : Profile, learn p run config fs = .ok P ∧ learn p run config gs = .ok Q ∧
          P.rules = Q.rules ∧ P.evidence = Q.evidence ∧ P.filesAnalyzed = Q.filesAnalyzed ∧
          P.sampledFiles.Perm Q.sampledFiles ∧ P.sampledFiles.length = P.filesAnalyzed) ∨
        ((∃ f ∈ fs.take config.maxFiles, ∃ t, f.text = some t ∧ (2 ^ 1023 : Int) ≤ t.length) ∧
          learn p run config fs = .error .numberTooLarge ∧
          learn p run config gs = .error .numberTooLarge))) := by
  have hperm : (Learning.samples p config fs).Perm (Learning.samples p config gs) := h.filterMap _
  have htotals : Learning.totals p config fs = Learning.totals p config gs :=
    Signals.aggregate_perm (hperm.map _)
  by_cases hnone : Learning.samples p config fs = []
  · have hnone' : Learning.samples p config gs = [] := List.perm_nil.mp (hnone ▸ hperm.symm)
    exact Or.inl ⟨Learning.samples_eq_nil_iff.mp hnone, learn_of_no_tree hcommand hnone,
      learn_of_no_tree hcommand hnone'⟩
  have hsome : Learning.samples p config gs ≠ [] :=
    fun hnil => hnone (List.perm_nil.mp (hnil ▸ hperm))
  obtain ⟨e, he⟩ := List.exists_mem_of_ne_nil _ hnone
  obtain ⟨hmem, s, hs, -⟩ := Learning.exists_of_mem_samples he
  refine Or.inr ⟨⟨e.1, hmem, by rw [hs]; rfl⟩, ?_⟩
  rw [learn_of_tree hcommand hnone, learn_of_tree hcommand hsome, ← htotals]
  rcases Learning.inferRules_totals p config fs with ⟨rules, hok⟩ | ⟨hlong, herr⟩
  · rw [hok]
    refine Or.inl ⟨_, _, rfl, rfl, rfl, rfl, rfl, hperm.map _, ?_⟩
    simp [Learning.totals, Signals.aggregate]
  · rw [herr]
    exact Or.inr ⟨hlong, rfl, rfl⟩

/-- A file of a program, one of its tests, and one that cannot be read. -/
def threeFiles : List SourceFile :=
  [⟨"src/a.js", some (looseBreak 4)⟩, ⟨"tests/b.js", some (looseBreak 2)⟩, ⟨"src/c.js", none⟩]

/-- The three files with a fourth behind them. -/
def fourFiles : List SourceFile := threeFiles ++ [⟨"src/d.js", some (looseBreak 4)⟩]

/-- A limit of three files. -/
def threeFilesConfig : Config := { Config.standard with maxFiles := 3 }

/-- No command prints anything. -/
def silent : String → Value → CommandResult := fun _ _ => ⟨"", "", 0⟩

/-- Turning three files around, and dropping a fourth behind the limit, leaves what is learned. -/
theorem learn_perm_threeFiles :
    threeFilesConfig.command.truthy = false ∧ (fourFiles.take 3).Perm (threeFiles.reverse.take 3) ∧
      ∃ P Q : Profile, learn looseBreakParser silent threeFilesConfig fourFiles = .ok P ∧
        learn looseBreakParser silent threeFilesConfig threeFiles.reverse = .ok Q ∧
          P.rules = Q.rules ∧
        P.sampledFiles.Perm Q.sampledFiles ∧ P.sampledFiles.length = P.filesAnalyzed := by
  have hcommand : threeFilesConfig.command.truthy = false := rfl
  have hperm : (fourFiles.take 3).Perm (threeFiles.reverse.take 3) :=
    (List.reverse_perm threeFiles).symm
  refine ⟨hcommand, hperm, ?_⟩
  rcases @learn_perm looseBreakParser silent _ hcommand _ _ hperm with
    ⟨hnone, -⟩ | ⟨-, ⟨P, Q, hP, hQ, hrules, -, -, hpaths, hcount⟩ | ⟨⟨f, hf, t, ht, hlong⟩, -⟩⟩
  · have htree : ∃ f ∈ fourFiles.take 3, (f.source? looseBreakParser).isSome = true := by decide
    obtain ⟨f, hf, hsome⟩ := htree
    rw [hnone f hf] at hsome
    cases hsome
  · exact ⟨P, Q, hP, hQ, hrules, hpaths, hcount⟩
  · have hshort : ∀ f ∈ fourFiles.take 3, (f.text.getD []).length < 100 := by decide
    have hlength := hshort f hf
    rw [ht, Option.getD_some] at hlength
    omega

end HouseStyle
