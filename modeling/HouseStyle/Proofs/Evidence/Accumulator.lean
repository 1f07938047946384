import HouseStyle.Evidence.Accumulator
import HouseStyle.Proofs.Evidence.Tally

/-! # Accumulated signals

A run over observations with known names returns, whatever it starts from, and what it returns can
be read off the observations (`Signals.after`): each counter has grown by the tally of their votes,
the longest line is the longest of all, and the widths are in the histogram. That is so for one
observation (`observe_eq`), and what is added in two parts is added as one (`after_after`), hence
for a run (`foldlM_observe`). For the observations of a file these are the signals of the file
(`accumulate_observations`). -/

namespace HouseStyle

theorem flatMap_if_singleton {α β : Type} (p : α → Bool) (f : α → β) (xs : List α) :
    (xs.flatMap fun x => if p x then [f x] else []) = (xs.filter p).map f := by
  induction xs with
  | nil => rfl
  | cons x xs ih =>
    rw [List.flatMap_cons, ih, List.filter_cons]
    split_ifs
    · rfl
    · rfl

/-! ### What an observation holds -/

namespace Observation

/-- The vote of an observation, if a counter has its name. -/
def vote? : Observation → Option Vote
  | count name amount => (Counter.ofName? name).map (·, amount)
  | _ => none

/-- The length of a line, if this was observed. -/
def length? : Observation → Option Int
  | lineLength length => some length
  | _ => none

/-- The width of an indent, if this was observed. -/
def width? : Observation → Option Int
  | indentWidth width => some width
  | _ => none

/-- Every name in an observation is that of a counter. -/
def Known (o : Observation) : Prop :=
  ∀ name amount, o = count name amount → ∃ c, Counter.ofName? name = some c

theorem vote?_ofVote (v : Vote) : (ofVote v).vote? = some v := by
  rw [ofVote, vote?, Counter.ofName?_name]
  rfl

theorem known_ofVote (v : Vote) : (ofVote v).Known := by
  rintro name amount ⟨⟩
  exact ⟨v.1, Counter.ofName?_name v.1⟩

end Observation

/-! ### Runs -/

namespace Signals

open Observation

/-- The signals with what observations hold added to them. -/
def after (s : Signals) (os : List Observation) : Signals where
  count c := s.count c + tally (os.filterMap vote?) c
  longestLine := (os.filterMap length?).foldl max s.longestLine
  indentSizes := (os.filterMap width?).foldl (fun h w => h.bump w 1) s.indentSizes

@[simp] theorem after_nil (s : Signals) : s.after [] = s := by
  simp [after]

theorem after_after (s : Signals) (os os' : List Observation) :
    (s.after os).after os' = s.after (os ++ os') := by
  simp only [after, List.filterMap_append, tally_append, List.foldl_append, add_assoc]

/-- **A known observation** is added. -/
theorem observe_eq {o : Observation} (h : o.Known) (s : Signals) :
    s.observe o = .ok (s.after [o]) := by
  cases o with
  | count name amount =>
    obtain ⟨c, hc⟩ := h name amount rfl
    have hvote : (Observation.count name amount).vote? = some (c, amount) := by rw [vote?, hc]; rfl
    rw [observe, addNamed, hc, after, List.filterMap_cons_some hvote]
    refine congrArg Except.ok (congrArg (fun f => { s with count := f }) (funext fun d => ?_))
    rw [List.filterMap_nil, tally_cons, tally_nil, add_zero]
    dsimp only
    simp only [eq_comm (a := d)]
    split_ifs
    · rfl
    · rw [add_zero]
  | lineLength length =>
    simp [observe, observeLine, after, List.filterMap_cons, vote?, length?, width?, max_def_lt]
  | indentWidth width =>
    simp [observe, observeIndent, after, List.filterMap_cons, vote?, length?, width?]

/-- **A run over known observations** returns, and adds up what they hold. -/
theorem foldlM_observe {os : List Observation} (h : ∀ o ∈ os, o.Known) (s : Signals) :
    os.foldlM observe s = .ok (s.after os) := by
  induction os generalizing s with
  | nil => rw [after_nil]; rfl
  | cons o os ih =>
    obtain ⟨ho, hos⟩ := List.forall_mem_cons.mp h
    rw [List.foldlM_cons, observe_eq ho]
    exact (ih hos _).trans (congrArg Except.ok (after_after s [o] os))

end Signals

/-! ### The observations of a file -/

namespace Lines

open Observation

theorem known_observations {line : Text} {o : Observation} (h : o ∈ observations line) :
    o.Known := by
  rintro name amount rfl
  unfold observations at h
  split_ifs at h
  · obtain ⟨rfl, -⟩ : name = "blank_lines" ∧ amount = 1 := by simpa using h
    exact ⟨.blankLines, rfl⟩
  · simp at h
  · obtain ⟨rfl, -⟩ : name = "indent_tab_lines" ∧ amount = 1 := by simpa using h
    exact ⟨.indentTabLines, rfl⟩
  · obtain ⟨rfl, -⟩ : name = "indent_space_lines" ∧ amount = 1 := by simpa using h
    exact ⟨.indentSpaceLines, rfl⟩

theorem filterMap_vote?_observations (line : Text) :
    (observations line).filterMap vote? = votes line := by
  unfold observations votes Vote.either
  split_ifs
  · rfl
  · rfl
  · rfl
  · rfl

theorem filterMap_length?_observations (line : Text) :
    (observations line).filterMap length? =
      if !line.isBlankText then [(visibleLength line : Int)] else [] := by
  unfold observations
  cases line.isBlankText
  · simp only [Bool.false_eq_true, if_false, Bool.not_false, if_true]
    split_ifs
    · rfl
    · rfl
    · rfl
  · rfl

theorem filterMap_width?_observations (line : Text) :
    (observations line).filterMap width? =
      if isSpaceIndented line then [(line.indentOf.length : Int)] else [] := by
  unfold observations isSpaceIndented
  cases line.isBlankText
  · cases line.indentOf.isEmpty
    · cases line.indentOf.contains '\t'
      · rfl
      · rfl
    · rfl
  · rfl

end Lines

namespace Source

open Observation

variable (s : Source)

theorem known_observations {o : Observation} (h : o ∈ s.observations) : o.Known := by
  rw [observations, List.mem_cons, List.mem_append, List.mem_flatMap, List.mem_map] at h
  obtain rfl | ⟨l, -, h⟩ | ⟨v, -, rfl⟩ := h
  · rintro name amount ⟨⟩
    exact ⟨.totalLines, rfl⟩
  · exact Lines.known_observations h
  · exact known_ofVote v

theorem filterMap_vote?_observations : s.observations.filterMap vote? = s.votes := by
  have htree : ∀ votes : List Vote, (votes.map ofVote).filterMap vote? = votes := by
    intro votes
    rw [List.filterMap_map]
    exact (List.filterMap_congr fun v _ => vote?_ofVote v).trans List.filterMap_some
  have htotal : vote? (.count "total_lines" s.lines.length) =
      some (.totalLines, (s.lines.length : Int)) := rfl
  rw [observations, votes, List.filterMap_cons_some htotal, List.filterMap_append,
    List.filterMap_flatMap, htree]
  simp only [Lines.filterMap_vote?_observations, treeVotes, List.append_assoc]

theorem filterMap_observations {α : Type} {f : Observation → Option α}
    (hcount : ∀ name amount, f (.count name amount) = none) :
    s.observations.filterMap f = s.lines.flatMap fun l => (Lines.observations l).filterMap f := by
  have htree : (s.treeVotes.map ofVote).filterMap f = [] := by
    rw [List.filterMap_map, List.filterMap_eq_nil_iff]
    exact fun v _ => hcount _ _
  rw [observations, List.filterMap_cons_none (hcount _ _), List.filterMap_append,
    List.filterMap_flatMap, htree, List.append_nil]

theorem filterMap_length?_observations :
    s.observations.filterMap length? = (s.lines.filter (!·.isBlankText)).map fun l =>
      (Lines.visibleLength l : Int) := by
  rw [s.filterMap_observations fun _ _ => rfl]
  simp only [Lines.filterMap_length?_observations]
  exact flatMap_if_singleton _ _ _

theorem filterMap_width?_observations :
    s.observations.filterMap width? =
      (s.lines.filter Lines.isSpaceIndented).map fun l => (l.indentOf.length : Int) := by
  rw [s.filterMap_observations fun _ _ => rfl]
  simp only [Lines.filterMap_width?_observations]
  exact flatMap_if_singleton _ _ _

/-- **What is observed in a file accumulates to its signals**; in particular every counter is known.
-/
theorem accumulate_observations : Signals.accumulate s.observations = .ok s.signals := by
  have hcasted : (s.observations.filterMap length?).foldl max (0 : Int) =
      (Lines.longest s.lines : Int) := by
    rw [filterMap_length?_observations, Lines.longest, List.foldl_map, List.foldl_map]
    refine List.foldl_hom Nat.cast ?_
    intro m l
    omega
  have hmerged : (s.observations.filterMap width?).foldl (fun h w => Histogram.bump w 1 h) [] =
      Histogram.merge (Lines.indentWidths s.lines) := by
    rw [filterMap_width?_observations, Histogram.merge, Lines.indentWidths, List.foldl_map,
      List.foldl_map]
  rw [Signals.accumulate, Signals.foldlM_observe fun o => s.known_observations, Signals.after,
    filterMap_vote?_observations]
  simp only [Signals.zero, zero_add, hcasted, hmerged]
  rfl

end Source

end HouseStyle
