import HouseStyle.Proofs.Evidence.Accumulator
import HouseStyle.Proofs.Text.Reindented
import Mathlib

/-! # Coherent signals

The parts of a file's signals are found by different means: a look at its lines, a walk along its
tree and a look at its comments. Still they fit together, and `Signals.Coherent` says how: no count
is negative, blank and indented lines are among all lines, the histogram of widths is sorted and
adds up to the lines indented by spaces, and there are at least as many functions as documented ones
and as names of them.

The signals of every source are coherent (`coherent_signals`), and coherence survives when files are
merged (`coherent_aggregate`). The vote of a file on member chains goes to the layout that most of
its chains have (`count_castMemberVote`). `Source.signals_fit` puts together what holds of the
signals of one file. -/

namespace HouseStyle

/-! ### Histograms -/

namespace Histogram

/-- A histogram with rising widths, in which every width and every count is positive. -/
structure Proper (h : Histogram) : Prop where
  rising : h.Pairwise fun e e' => e.1 < e'.1
  positive : ∀ e ∈ h, 1 ≤ e.1 ∧ 1 ≤ e.2

theorem mem_bump {w n : Int} : ∀ {h : Histogram} {e : Int × Int}, e ∈ bump w n h →
    e ∈ h ∨ e = (w, n) ∨ ∃ e' ∈ h, e = (w, e'.2 + n)
  | [], e, he => Or.inr (Or.inl (List.mem_singleton.mp he))
  | d :: h, e, he => by
    rw [bump] at he
    split_ifs at he with hlt heq
    · rcases List.mem_cons.mp he with rfl | he
      · exact Or.inr (Or.inl rfl)
      · exact Or.inl he
    · rcases List.mem_cons.mp he with rfl | he
      · exact Or.inr (Or.inr ⟨d, List.mem_cons_self, rfl⟩)
      · exact Or.inl (List.mem_cons_of_mem _ he)
    · rcases List.mem_cons.mp he with rfl | he
      · exact Or.inl List.mem_cons_self
      · rcases mem_bump he with he | he | ⟨e', he', he⟩
        · exact Or.inl (List.mem_cons_of_mem _ he)
        · exact Or.inr (Or.inl he)
        · exact Or.inr (Or.inr ⟨e', List.mem_cons_of_mem _ he', he⟩)

theorem rising_bump {w n : Int} : ∀ {h : Histogram}, (h.Pairwise fun e e' => e.1 < e'.1) →
    (bump w n h).Pairwise fun e e' => e.1 < e'.1
  | [], _ => List.pairwise_singleton _ _
  | d :: h, hd => by
    obtain ⟨hfirst, hrest⟩ := List.pairwise_cons.mp hd
    rw [bump]
    split_ifs with hlt heq
    · refine List.pairwise_cons.mpr ⟨fun e he => ?_, hd⟩
      rcases List.mem_cons.mp he with rfl | he
      · exact hlt
      · exact Int.lt_trans hlt (hfirst e he)
    · subst heq
      exact List.pairwise_cons.mpr ⟨hfirst, hrest⟩
    · refine List.pairwise_cons.mpr ⟨fun e he => ?_, rising_bump hrest⟩
      rcases mem_bump he with he | rfl | ⟨e', -, rfl⟩
      · exact hfirst e he
      · dsimp only
        omega
      · dsimp only
        omega

theorem Proper.bump {h : Histogram} (hh : h.Proper) {w n : Int} (hw : 1 ≤ w) (hn : 1 ≤ n) :
    (bump w n h).Proper where
  rising := rising_bump hh.rising
  positive e he := by
    rcases mem_bump he with he | rfl | ⟨e', he', rfl⟩
    · exact hh.positive e he
    · exact ⟨hw, hn⟩
    · have := (hh.positive e' he').2
      exact ⟨hw, by dsimp only; omega⟩

theorem sum_bump (w n : Int) : ∀ h : Histogram,
    ((bump w n h).map (·.2)).sum = (h.map (·.2)).sum + n
  | [] => by simp [bump]
  | d :: h => by
    rw [bump]
    split_ifs
    · simp only [List.map_cons, List.sum_cons]
      omega
    · simp only [List.map_cons, List.sum_cons]
      omega
    · simp only [List.map_cons, List.sum_cons, sum_bump w n h]
      omega

theorem merge_concat (ps : List (Int × Int)) (p : Int × Int) :
    merge (ps ++ [p]) = bump p.1 p.2 (merge ps) :=
  List.foldl_append

/-- **Merging** makes a proper histogram of positive widths and counts. -/
theorem proper_merge {pairs : List (Int × Int)} (h : ∀ p ∈ pairs, 1 ≤ p.1 ∧ 1 ≤ p.2) :
    (merge pairs).Proper := by
  induction pairs using List.reverseRecOn with
  | nil => exact ⟨List.Pairwise.nil, by simp [merge]⟩
  | append_singleton ps p ih =>
    obtain ⟨hps, hlast⟩ := List.forall_mem_append.mp h
    have hp := hlast p List.mem_cons_self
    rw [merge_concat]
    exact (ih hps).bump hp.1 hp.2

theorem sum_merge (pairs : List (Int × Int)) :
    ((merge pairs).map (·.2)).sum = (pairs.map (·.2)).sum := by
  induction pairs using List.reverseRecOn with
  | nil => rfl
  | append_singleton ps p ih =>
    rw [merge_concat, sum_bump, ih, List.map_append, List.sum_append, List.map_singleton,
      List.sum_singleton]

end Histogram

/-! ### Lines -/

namespace Lines

open Signals

theorem mem_votes {line : Text} {v : Vote} (h : v ∈ votes line) :
    v = (.blankLines, 1) ∨ v = (.indentTabLines, 1) ∨ v = (.indentSpaceLines, 1) := by
  unfold votes at h
  split_ifs at h
  · exact Or.inl (List.mem_singleton.mp h)
  · simp at h
  · unfold Vote.either at h
    split_ifs at h
    · exact Or.inr (Or.inl (List.mem_singleton.mp h))
    · exact Or.inr (Or.inr (List.mem_singleton.mp h))

theorem tally_votes (line : Text) :
    tally (votes line) .blankLines + tally (votes line) .indentSpaceLines +
        tally (votes line) .indentTabLines ≤ 1 ∧
      tally (votes line) .indentSpaceLines = if isSpaceIndented line then 1 else 0 := by
  unfold votes isSpaceIndented
  generalize line.isBlankText = blank
  generalize line.indentOf.isEmpty = flush
  generalize line.indentOf.contains '\t' = tabbed
  revert blank flush tabbed
  decide

theorem tally_flatMap_votes (lines : List Text) :
    tally (lines.flatMap votes) .blankLines + tally (lines.flatMap votes) .indentSpaceLines +
        tally (lines.flatMap votes) .indentTabLines ≤ lines.length ∧
      tally (lines.flatMap votes) .indentSpaceLines = ((indentWidths lines).map (·.2)).sum := by
  induction lines with
  | nil => exact ⟨le_rfl, rfl⟩
  | cons l lines ih =>
    obtain ⟨h1, h2⟩ := tally_votes l
    obtain ⟨ih1, ih2⟩ := ih
    simp only [List.flatMap_cons, tally_append, List.length_cons]
    refine ⟨by push_cast; omega, ?_⟩
    unfold indentWidths at ih2 ⊢
    rw [ih2, h2, List.filter_cons]
    split_ifs
    · simp
    · simp

theorem positive_indentWidths {lines : List Text} {p : Int × Int} (h : p ∈ indentWidths lines) :
    1 ≤ p.1 ∧ 1 ≤ p.2 := by
  obtain ⟨l, hl, rfl⟩ := List.mem_map.mp h
  have hsp := (List.mem_filter.mp hl).2
  simp only [isSpaceIndented, Bool.and_eq_true, Bool.not_eq_true', List.isEmpty_eq_false_iff] at hsp
  have := List.length_pos_of_ne_nil hsp.1.2
  exact ⟨by dsimp only; omega, le_rfl⟩

end Lines

/-! ### Coherence -/

/-- Signals whose parts fit together. -/
structure Signals.Coherent (r : Signals) : Prop where
  nonneg : ∀ c, 0 ≤ r.count c
  longestLine_nonneg : 0 ≤ r.longestLine
  lines : r.count .blankLines + r.count .indentSpaceLines + r.count .indentTabLines ≤
    r.count .totalLines
  proper : r.indentSizes.Proper
  sizes : (r.indentSizes.map (·.2)).sum = r.count .indentSpaceLines
  documented : r.count .functionsWithDoc ≤ r.count .functionsTotal
  named : r.count .functionNamesSingle + r.count .functionNamesMulti ≤ r.count .functionsTotal

namespace Signals

theorem count_add (s : Signals) (c d : Counter) (amount : Int) :
    (s.add c amount).count d = if d = c then s.count d + amount else s.count d := rfl

/-- **The vote of a file on member chains**: one for the layout that most chains have, if there are
two chains or more, and none otherwise. -/
theorem count_castMemberVote (s : Signals) (c : Counter) :
    s.castMemberVote.count c = s.count c +
      if c = .memberAlignedFiles ∧ 2 ≤ s.count .memberAligned + s.count .memberIndented ∧
          s.count .memberIndented < s.count .memberAligned then 1
      else if c = .memberIndentedFiles ∧ 2 ≤ s.count .memberAligned + s.count .memberIndented ∧
          s.count .memberAligned < s.count .memberIndented then 1
      else 0 := by
  unfold castMemberVote
  dsimp only
  by_cases hfew : s.count .memberAligned + s.count .memberIndented < 2
  · rw [if_pos hfew, if_neg (by omega), if_neg (by omega), add_zero]
  rw [if_neg hfew]
  rcases lt_trichotomy (s.count .memberIndented) (s.count .memberAligned) with h | h | h
  · rw [if_pos h]
    by_cases hc : c = .memberAlignedFiles
    · rw [count_add, if_pos hc, if_pos ⟨hc, by omega, h⟩]
    · rw [count_add, if_neg hc, if_neg fun h' => hc h'.1, if_neg (by omega), add_zero]
  · rw [if_neg (by omega), if_neg (by omega), if_neg (by omega), if_neg (by omega), add_zero]
  · rw [if_neg (by omega), if_pos h]
    by_cases hc : c = .memberIndentedFiles
    · rw [count_add, if_pos hc, if_neg (by omega), if_pos ⟨hc, by omega, h⟩]
    · rw [count_add, if_neg hc, if_neg (by omega), if_neg fun h' => hc h'.1, add_zero]

theorem count_castMemberVote_of_ne (s : Signals) {c : Counter} (h1 : c ≠ .memberAlignedFiles)
    (h2 : c ≠ .memberIndentedFiles) : s.castMemberVote.count c = s.count c := by
  rw [count_castMemberVote, if_neg fun h => h1 h.1, if_neg fun h => h2 h.1, add_zero]

theorem castMemberVote_rest (s : Signals) :
    s.castMemberVote.longestLine = s.longestLine ∧
      s.castMemberVote.indentSizes = s.indentSizes := by
  unfold castMemberVote add
  dsimp only
  split_ifs
  · exact ⟨rfl, rfl⟩
  · exact ⟨rfl, rfl⟩
  · exact ⟨rfl, rfl⟩
  · exact ⟨rfl, rfl⟩

end Signals

namespace Source

open Signals

variable (s : Source)

/-! ### The signals of a file -/

theorem inProportion_treeVotes : InProportion s.treeVotes :=
  ((InProportion.flatMap fun v _ => Constructs.inProportion_nodeVotes s v).append
    (.of_free (Imports.free_votes s))).append (.of_free (Comment.free_votes s s.comments))

theorem tally_votes (c : Counter) :
    tally s.votes c = (if c = .totalLines then (s.lines.length : Int) else 0) +
      tally (s.lines.flatMap Lines.votes) c + tally s.treeVotes c := by
  unfold votes treeVotes
  rw [tally_cons]
  simp only [tally_append, eq_comm]
  omega

theorem tally_treeVotes_eq_zero {c : Counter} (hc : c ∈ [Counter.blankLines, .totalLines,
    .indentSpaceLines, .indentTabLines, .memberAlignedFiles, .memberIndentedFiles]) :
    tally s.treeVotes c = 0 :=
  tally_eq_zero fun v hv heq => s.inProportion_treeVotes.apart v hv (heq ▸ hc)

theorem tally_lines_eq_zero {c : Counter}
    (hc : c ∉ [Counter.blankLines, .indentTabLines, .indentSpaceLines]) :
    tally (s.lines.flatMap Lines.votes) c = 0 := by
  refine tally_eq_zero fun v hv heq => hc ?_
  obtain ⟨l, -, hv⟩ := List.mem_flatMap.mp hv
  rw [← heq]
  rcases Lines.mem_votes hv with rfl | rfl | rfl
  · decide
  · decide
  · decide

theorem tally_votes_nonneg (c : Counter) : 0 ≤ tally s.votes c := by
  have hlines : 0 ≤ tally (s.lines.flatMap Lines.votes) c := by
    refine tally_nonneg fun v hv => ?_
    obtain ⟨l, -, hv⟩ := List.mem_flatMap.mp hv
    rcases Lines.mem_votes hv with rfl | rfl | rfl
    · decide
    · decide
    · decide
  have htree := tally_nonneg (c := c) s.inProportion_treeVotes.nonneg
  rw [tally_votes]
  split_ifs
  · omega
  · omega

theorem count_signals {c : Counter} (h1 : c ≠ .memberAlignedFiles) (h2 : c ≠ .memberIndentedFiles) :
    s.signals.count c = tally s.votes c := count_castMemberVote_of_ne _ h1 h2

theorem longestLine_signals : s.signals.longestLine = Lines.longest s.lines :=
  (castMemberVote_rest _).1

theorem indentSizes_signals :
    s.signals.indentSizes = Histogram.merge (Lines.indentWidths s.lines) :=
  (castMemberVote_rest _).2

theorem count_totalLines : s.signals.count .totalLines = s.lines.length := by
  rw [s.count_signals (by decide) (by decide), tally_votes, if_pos rfl,
    s.tally_lines_eq_zero (by decide), s.tally_treeVotes_eq_zero (by decide), add_zero, add_zero]

theorem count_of_lines {c : Counter}
    (hc : c ∈ [Counter.blankLines, .indentTabLines, .indentSpaceLines]) :
    s.signals.count c = tally (s.lines.flatMap Lines.votes) c := by
  have hsub : c ≠ .totalLines ∧ c ≠ .memberAlignedFiles ∧ c ≠ .memberIndentedFiles ∧
      c ∈ [Counter.blankLines, .totalLines, .indentSpaceLines, .indentTabLines,
        .memberAlignedFiles, .memberIndentedFiles] := by
    simp only [List.mem_cons, List.not_mem_nil, or_false] at hc
    rcases hc with rfl | rfl | rfl
    · decide
    · decide
    · decide
  rw [s.count_signals hsub.2.1 hsub.2.2.1, tally_votes, if_neg hsub.1,
    s.tally_treeVotes_eq_zero hsub.2.2.2, zero_add, add_zero]

theorem count_of_functions {c : Counter} (hc : c ∈ [Counter.functionsTotal, .functionsWithDoc,
    .functionNamesSingle, .functionNamesMulti]) : s.signals.count c = tally s.treeVotes c := by
  have hsub : c ≠ .totalLines ∧ c ≠ .memberAlignedFiles ∧ c ≠ .memberIndentedFiles ∧
      c ∉ [Counter.blankLines, .indentTabLines, .indentSpaceLines] := by
    simp only [List.mem_cons, List.not_mem_nil, or_false] at hc
    rcases hc with rfl | rfl | rfl | rfl
    · decide
    · decide
    · decide
    · decide
  rw [s.count_signals hsub.2.1 hsub.2.2.1, tally_votes, if_neg hsub.1,
    s.tally_lines_eq_zero hsub.2.2.2, zero_add, zero_add]

/-- No vote of a tree or of a line is one of the file, so the file has the vote that it casts at the
end. -/
theorem count_files :
    s.signals.count .memberAlignedFiles =
        (if 2 ≤ s.signals.count .memberAligned + s.signals.count .memberIndented ∧
          s.signals.count .memberIndented < s.signals.count .memberAligned then 1 else 0) ∧
      s.signals.count .memberIndentedFiles =
        (if 2 ≤ s.signals.count .memberAligned + s.signals.count .memberIndented ∧
          s.signals.count .memberAligned < s.signals.count .memberIndented then 1 else 0) := by
  have hzero : ∀ c ∈ [Counter.memberAlignedFiles, .memberIndentedFiles], tally s.votes c = 0 := by
    intro c hc
    simp only [List.mem_cons, List.not_mem_nil, or_false] at hc
    rw [tally_votes]
    rcases hc with rfl | rfl
    · rw [if_neg (by decide), s.tally_lines_eq_zero (by decide),
        s.tally_treeVotes_eq_zero (by decide)]
      rfl
    · rw [if_neg (by decide), s.tally_lines_eq_zero (by decide),
        s.tally_treeVotes_eq_zero (by decide)]
      rfl
  rw [s.count_signals (c := .memberAligned) (by decide) (by decide),
    s.count_signals (c := .memberIndented) (by decide) (by decide)]
  unfold signals
  rw [count_castMemberVote, count_castMemberVote]
  dsimp only
  rw [hzero .memberAlignedFiles (by decide), hzero .memberIndentedFiles (by decide)]
  simp

/-- **The signals of a file are coherent**, whatever its tree looks like. -/
theorem coherent_signals : s.signals.Coherent where
  nonneg c := by
    unfold signals
    rw [count_castMemberVote]
    have := s.tally_votes_nonneg c
    dsimp only
    split_ifs
    · omega
    · omega
    · omega
  longestLine_nonneg := by
    rw [longestLine_signals]
    exact Int.natCast_nonneg _
  lines := by
    rw [s.count_of_lines (by decide), s.count_of_lines (by decide), s.count_of_lines (by decide),
      count_totalLines]
    exact (Lines.tally_flatMap_votes s.lines).1
  proper := by
    rw [indentSizes_signals]
    exact Histogram.proper_merge fun p hp => Lines.positive_indentWidths hp
  sizes := by
    rw [indentSizes_signals, Histogram.sum_merge, s.count_of_lines (by decide),
      (Lines.tally_flatMap_votes s.lines).2]
  documented := by
    rw [s.count_of_functions (by decide), s.count_of_functions (by decide)]
    exact s.inProportion_treeVotes.documented
  named := by
    rw [s.count_of_functions (by decide), s.count_of_functions (by decide),
      s.count_of_functions (by decide)]
    exact s.inProportion_treeVotes.named

/-- **What holds of the signals of a file.** Whatever is counted in the file has the name of a
counter, so that its observations, taken one by one, never meet an unknown counter and amount to its
signals; the signals are coherent; the lines are as many as the line feeds and one more; and the
file votes at most once on member chains, for the layout that most of its chains have if there are
two or more. -/
theorem signals_fit :
    (∀ name amount, .count name amount ∈ s.observations → ∃ c, Counter.ofName? name = some c) ∧
      Signals.accumulate s.observations = .ok s.signals ∧ s.signals.Coherent ∧
      s.signals.count .totalLines = s.text.count '\n' + 1 ∧
      s.signals.count .memberAlignedFiles + s.signals.count .memberIndentedFiles ≤ 1 ∧
      (s.signals.count .memberAlignedFiles =
        if 2 ≤ s.signals.count .memberAligned + s.signals.count .memberIndented ∧
          s.signals.count .memberIndented < s.signals.count .memberAligned then 1 else 0) ∧
      (s.signals.count .memberIndentedFiles =
        if 2 ≤ s.signals.count .memberAligned + s.signals.count .memberIndented ∧
          s.signals.count .memberAligned < s.signals.count .memberIndented then 1 else 0) := by
  obtain ⟨hal, hin⟩ := s.count_files
  refine ⟨fun name amount h => s.known_observations h name amount rfl, s.accumulate_observations,
    s.coherent_signals, ?_, ?_, hal, hin⟩
  · rw [count_totalLines, lines, Text.length_lines]
    rfl
  · rw [hal, hin]
    split_ifs
    · omega
    · omega
    · omega
    · omega

end Source

/-! ### Many files -/

theorem foldl_max_le_iff {α β : Type} [LinearOrder β] (f : α → β) {b : β} : ∀ {l : List α} {a : β},
    l.foldl (fun m x => max m (f x)) a ≤ b ↔ a ≤ b ∧ ∀ x ∈ l, f x ≤ b
  | [], a => by simp
  | x :: l, a => by
    rw [List.foldl_cons, foldl_max_le_iff f, max_le_iff, List.forall_mem_cons, and_assoc]

namespace Signals

variable {records : List Signals}

theorem count_aggregate (records : List Signals) (c : Counter) :
    (aggregate records).signals.count c = (records.map (·.count c)).sum := rfl

theorem longestLine_aggregate_le_iff {b : Int} (hb : 0 ≤ b) :
    (aggregate records).signals.longestLine ≤ b ↔ ∀ r ∈ records, r.longestLine ≤ b := by
  unfold aggregate
  rw [foldl_max_le_iff]
  exact ⟨fun h => h.2, fun h => ⟨hb, h⟩⟩

theorem longestLine_aggregate_nonneg (records : List Signals) :
    0 ≤ (aggregate records).signals.longestLine := by
  unfold aggregate
  exact ((foldl_max_le_iff (fun r : Signals => r.longestLine)).mp le_rfl).1

/-- **Merging keeps signals coherent.** -/
theorem coherent_aggregate (h : ∀ r ∈ records, r.Coherent) :
    (aggregate records).signals.Coherent where
  nonneg c := by
    rw [count_aggregate]
    refine List.sum_nonneg fun x hx => ?_
    obtain ⟨r, hr, rfl⟩ := List.mem_map.mp hx
    exact (h r hr).nonneg c
  longestLine_nonneg := longestLine_aggregate_nonneg records
  lines := by
    simp only [count_aggregate, ← List.sum_map_add]
    exact List.sum_le_sum fun r hr => (h r hr).lines
  proper := by
    refine Histogram.proper_merge fun p hp => ?_
    obtain ⟨r, hr, hp⟩ := List.mem_flatMap.mp hp
    exact (h r hr).proper.positive p hp
  sizes := by
    have hsum : ((records.flatMap (·.indentSizes)).map (·.2)).sum =
        (records.map fun r => (r.indentSizes.map (·.2)).sum).sum := by
      rw [List.map_flatMap, List.flatMap_def, List.sum_flatten, List.map_map]
      rfl
    refine (Histogram.sum_merge _).trans (hsum.trans ?_)
    rw [count_aggregate]
    exact congrArg List.sum (List.map_congr_left fun r hr => (h r hr).sizes)
  documented := by
    simp only [count_aggregate]
    exact List.sum_le_sum fun r hr => (h r hr).documented
  named := by
    simp only [count_aggregate, ← List.sum_map_add]
    exact List.sum_le_sum fun r hr => (h r hr).named

end Signals

end HouseStyle
