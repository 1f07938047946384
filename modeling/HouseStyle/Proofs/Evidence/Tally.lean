import HouseStyle.Evidence.Extract
import Mathlib.Algebra.Order.Group.Int
import Mathlib.Algebra.BigOperators.Group.List.Basic
import Mathlib.Tactic.SplitIfs

/-! # Votes added up

`Signals.tally` adds up votes counter by counter, so the tally of lists put together is the sum of
their tallies (`tally_append`). Most counters stand for themselves: they are *free*. The others are
tied to each other, those of the lines of a text, of the functions at its top and of the files that
voted.

Every construct casts free votes only (`Free`), but for the functions: there, each vote on a name
and each on a documenting comment goes along with one on the function
(`inProportion_topLevelVotes`). So along a whole walk there are at most as many names and as many
documented functions as functions (`InProportion`). -/

namespace HouseStyle

namespace Counter

/-- The counters that are tied to others. -/
def tied : List Counter :=
  [functionsTotal, functionsWithDoc, functionNamesSingle, functionNamesMulti,
    blankLines, totalLines, indentSpaceLines, indentTabLines, memberAlignedFiles,
    memberIndentedFiles]

/-- Whether a counter stands for itself. -/
def isFree (c : Counter) : Bool := !tied.contains c

theorem ofName?_name (c : Counter) : ofName? c.name = some c := by cases c <;> rfl

end Counter

/-! ### Tallies -/

namespace Signals

@[simp] theorem tally_nil (c : Counter) : tally [] c = 0 := rfl

theorem tally_cons (v : Vote) (votes : List Vote) (c : Counter) :
    tally (v :: votes) c = (if v.1 = c then v.2 else 0) + tally votes c := by
  unfold tally
  by_cases h : v.1 = c
  · simp [h]
  · simp [h]

@[simp] theorem tally_append (votes votes' : List Vote) (c : Counter) :
    tally (votes ++ votes') c = tally votes c + tally votes' c := by
  induction votes with
  | nil => simp
  | cons v votes ih => rw [List.cons_append, tally_cons, tally_cons, ih, add_assoc]

theorem tally_nonneg {votes : List Vote} {c : Counter} (h : ∀ v ∈ votes, 0 ≤ v.2) :
    0 ≤ tally votes c := by
  induction votes with
  | nil => simp
  | cons v votes ih =>
    have hv := h v List.mem_cons_self
    have hvs := ih fun w hw => h w (List.mem_cons_of_mem _ hw)
    rw [tally_cons]
    split_ifs
    · omega
    · omega

theorem tally_eq_zero {votes : List Vote} {c : Counter} (h : ∀ v ∈ votes, v.1 ≠ c) :
    tally votes c = 0 := by
  unfold tally
  rw [List.filter_eq_nil_iff.mpr fun v hv => by simpa using h v hv]
  rfl

end Signals

/-! ### Free votes -/

/-- Votes on free counters, none of them negative. -/
def Free (votes : List Vote) : Prop := ∀ v ∈ votes, v.1.isFree = true ∧ 0 ≤ v.2

namespace Free

open Signals

theorem nil : Free [] := by simp [Free]

theorem append {votes votes' : List Vote} (h : Free votes) (h' : Free votes') :
    Free (votes ++ votes') := List.forall_mem_append.mpr ⟨h, h'⟩

theorem flatMap {α : Type} {f : α → List Vote} {xs : List α} (h : ∀ x ∈ xs, Free (f x)) :
    Free (xs.flatMap f) := by
  intro v hv
  obtain ⟨x, hx, hv⟩ := List.mem_flatMap.mp hv
  exact h x hx v hv

theorem one {c : Counter} (h : c.isFree = true) : Free (Vote.one c) := by
  intro v hv
  obtain rfl := List.mem_singleton.mp hv
  exact ⟨h, Int.one_nonneg⟩

theorem ite {p : Prop} [Decidable p] {votes votes' : List Vote} (h : Free votes)
    (h' : Free votes') : Free (if p then votes else votes') := by
  split_ifs
  · exact h
  · exact h'

theorem either {yes no : Counter} (hy : yes.isFree = true) (hn : no.isFree = true) (answer : Bool) :
    Free (Vote.either answer yes no) := by
  cases answer
  · exact one hn
  · exact one hy

theorem either? {yes no : Counter} (hy : yes.isFree = true) (hn : no.isFree = true)
    (answer : Option Bool) : Free (Vote.either? answer yes no) := by
  cases answer with
  | none => exact nil
  | some a => exact either hy hn a

theorem tally_eq_zero {votes : List Vote} (h : Free votes) {c : Counter} (hc : c ∈ Counter.tied) :
    tally votes c = 0 := by
  refine Signals.tally_eq_zero fun v hv heq => ?_
  have hfree := (h v hv).1
  rw [heq, Counter.isFree, List.contains_iff_mem.mpr hc] at hfree
  exact absurd hfree Bool.false_ne_true

end Free

/-! ### Votes of constructs -/

namespace Constructs

theorem free_blankBeforeVotes (s : Source) (v : Node.Visit) {yes no : Counter}
    (hy : yes.isFree = true) (hn : no.isFree = true) : Free (blankBeforeVotes s v yes no) :=
  .ite (.either hy hn _) .nil

theorem free_semicolonVotes (s : Source) (v : Node.Visit) : Free (semicolonVotes s v) :=
  .ite .nil (.either rfl rfl _)

theorem free_returnVotes (s : Source) (v : Node.Visit) : Free (returnVotes s v) :=
  (free_semicolonVotes s v).append (free_blankBeforeVotes s v rfl rfl)

theorem free_declarationVotes (s : Source) (v : Node.Visit) : Free (declarationVotes s v) :=
  (free_semicolonVotes s v).append (.flatMap fun _ _ => .either? rfl rfl _)

theorem free_yodaVotes (n : Node) : Free (yodaVotes n) := by
  induction n using yodaVotes.induct with
  | case1 n hk ih =>
    rw [yodaVotes, if_pos hk]
    exact .flatMap fun c _ => ih c
  | case2 n hk hb op hop ihl ihr =>
    rw [yodaVotes, if_neg hk, if_pos hb, if_pos hop]
    refine Free.append ?_ ?_
    · split
      · exact ihl _ ‹_›
      · exact .nil
    · split
      · exact ihr _ ‹_›
      · exact .nil
  | case3 n hk hb op hop hcmp =>
    rw [yodaVotes, if_neg hk, if_pos hb, if_neg hop, if_pos hcmp]
    exact .either? rfl rfl _
  | case4 n hk hb op hop hcmp =>
    rw [yodaVotes, if_neg hk, if_pos hb, if_neg hop, if_neg hcmp]
    exact .nil
  | case5 n hk hb =>
    rw [yodaVotes, if_neg hk, if_neg hb]
    exact .nil

theorem free_braceVotes (s : Source) (n : Node) : Free (braceVotes s n) := by
  unfold braceVotes
  refine .ite .nil ?_
  cases n.child? .consequence with
  | none => exact .nil
  | some c => exact .ite .nil (.ite (.ite (.one rfl) .nil) (.one rfl))

theorem free_ifVotes (s : Source) (v : Node.Visit) : Free (ifVotes s v) := by
  unfold ifVotes
  refine Free.append (Free.append ?_ (free_blankBeforeVotes s v rfl rfl)) (free_braceVotes s v.node)
  cases v.node.child? .condition with
  | none => exact .nil
  | some c => exact free_yodaVotes c

theorem free_switchVotes (s : Source) (n : Node) : Free (switchVotes s n) := by
  unfold switchVotes
  split
  · exact .flatMap fun c _ =>
      Free.append (.either rfl rfl _) (.flatMap fun _ _ => .either rfl rfl _)
  · exact .nil

theorem free_memberVotes (s : Source) (n : Node) : Free (memberVotes s n) := by
  unfold memberVotes
  split
  · exact .ite (.either? rfl rfl _) .nil
  · exact .nil

theorem free_stringVotes (s : Source) (n : Node) : Free (stringVotes s n) := by
  unfold stringVotes
  split
  · exact .one rfl
  · exact .one rfl
  · exact .nil

theorem free_callVotes (s : Source) (n : Node) : Free (callVotes s n) := by
  unfold callVotes
  split
  · split
    · exact .ite (.either rfl rfl _) .nil
    · exact .nil
  · exact .nil

theorem free_listVotes (s : Source) (n : Node) : Free (listVotes s n) := by
  unfold listVotes
  dsimp only
  split
  · exact .ite (.either rfl rfl _) .nil
  · exact .nil

end Constructs

theorem Imports.free_votes (s : Source) : Free (Imports.votes s) := by
  have horder : ∀ names, Free (orderVotes names) := by
    intro names v hv
    unfold orderVotes at hv
    split at hv
    · rename_i sorted weight _
      obtain rfl := List.mem_singleton.mp hv
      cases sorted
      · exact ⟨rfl, Int.natCast_nonneg weight⟩
      · exact ⟨rfl, Int.natCast_nonneg weight⟩
    · simp at hv
  exact (horder _).append (horder _)

theorem Comment.free_votes (s : Source) (comments : List Node) :
    Free (Comment.votes s comments) := by
  unfold Comment.votes
  refine Free.append (Free.append ?_ ?_) ?_
  · exact .flatMap fun _ _ => .either? rfl rfl _
  · exact .flatMap fun g _ => .flatMap fun p _ => .ite .nil (.either rfl rfl _)
  · refine .flatMap fun n _ => ?_
    unfold spacingVotes
    split
    · exact .ite .nil (.either rfl rfl _)
    · exact .nil

/-! ### Votes of functions -/

open Signals in
/-- Votes that leave lines and files alone, with at most one name and one comment for every
function. -/
structure InProportion (votes : List Vote) : Prop where
  nonneg : ∀ v ∈ votes, 0 ≤ v.2
  apart : ∀ v ∈ votes, v.1 ∉ [Counter.blankLines, .totalLines, .indentSpaceLines, .indentTabLines,
    .memberAlignedFiles, .memberIndentedFiles]
  documented : tally votes .functionsWithDoc ≤ tally votes .functionsTotal
  named : tally votes .functionNamesSingle + tally votes .functionNamesMulti ≤
    tally votes .functionsTotal

namespace InProportion

theorem of_free {votes : List Vote} (h : Free votes) : InProportion votes where
  nonneg v hv := (h v hv).2
  apart v hv hmem := by
    have hfree := (h v hv).1
    simp only [List.mem_cons, List.not_mem_nil, or_false] at hmem
    rcases hmem with heq | heq | heq | heq | heq | heq
    all_goals
      rw [heq] at hfree
      exact absurd hfree (by decide)
  documented := by rw [h.tally_eq_zero (by decide), h.tally_eq_zero (by decide)]
  named := by
    rw [h.tally_eq_zero (by decide), h.tally_eq_zero (by decide), h.tally_eq_zero (by decide)]
    rfl

theorem append {votes votes' : List Vote} (h : InProportion votes) (h' : InProportion votes') :
    InProportion (votes ++ votes') where
  nonneg := List.forall_mem_append.mpr ⟨h.nonneg, h'.nonneg⟩
  apart := List.forall_mem_append.mpr ⟨h.apart, h'.apart⟩
  documented := by
    have h1 := h.documented
    have h2 := h'.documented
    simp only [Signals.tally_append]
    omega
  named := by
    have h1 := h.named
    have h2 := h'.named
    simp only [Signals.tally_append]
    omega

theorem ite {p : Prop} [Decidable p] {votes votes' : List Vote} (h : InProportion votes)
    (h' : InProportion votes') : InProportion (if p then votes else votes') := by
  split_ifs
  · exact h
  · exact h'

theorem flatMap {α : Type} {f : α → List Vote} {xs : List α} (h : ∀ x ∈ xs, InProportion (f x)) :
    InProportion (xs.flatMap f) := by
  induction xs with
  | nil => exact of_free .nil
  | cons x xs ih =>
    rw [List.flatMap_cons]
    exact (h x List.mem_cons_self).append (ih fun y hy => h y (List.mem_cons_of_mem _ hy))

end InProportion

namespace Functions

/-- **A function at the top of a file** counts once, its name at most once, and its comment at most
once. -/
theorem inProportion_topLevelVotes (s : Source) (v : Node.Visit) :
    InProportion (topLevelVotes s v) := by
  unfold topLevelVotes
  cases topLevel? v with
  | none => exact .of_free .nil
  | some f =>
    have hname : nameVotes s f = [] ∨ nameVotes s f = Vote.one .functionNamesSingle ∨
        nameVotes s f = Vote.one .functionNamesMulti := by
      unfold nameVotes
      split
      · split_ifs
        · unfold Vote.either
          split_ifs
          · exact Or.inr (Or.inl rfl)
          · exact Or.inr (Or.inr rfl)
        · exact Or.inl rfl
      · exact Or.inl rfl
    dsimp only
    rcases hname with hname | hname | hname
    all_goals
      rw [hname]
      split_ifs
      · constructor <;> decide
      · constructor <;> decide

theorem inProportion_votes (s : Source) (v : Node.Visit) : InProportion (votes s v) := by
  unfold votes
  refine InProportion.append (InProportion.append (.of_free ?_) (inProportion_topLevelVotes s v))
    (.of_free ?_)
  · exact .ite (.either rfl rfl _) .nil
  · unfold guardVotes
    split
    · refine .ite ?_ .nil
      split
      · exact .either rfl rfl _
      · exact .nil
    · exact .nil

end Functions

/-- **The votes of a node**, whatever its kind. -/
theorem Constructs.inProportion_nodeVotes (s : Source) (v : Node.Visit) :
    InProportion (nodeVotes s v) := by
  unfold nodeVotes
  refine .ite (.of_free .nil) ?_
  refine .ite (.of_free (free_ifVotes s v)) ?_
  refine .ite (.of_free (.either? rfl rfl _)) ?_
  refine .ite (.of_free (free_switchVotes s v.node)) ?_
  refine .ite (.of_free (free_memberVotes s v.node)) ?_
  refine .ite (.of_free (free_stringVotes s v.node)) ?_
  refine .ite (.of_free (free_semicolonVotes s v)) ?_
  refine .ite (.of_free (free_semicolonVotes s v)) ?_
  refine .ite (.of_free (free_returnVotes s v)) ?_
  refine .ite (.of_free (free_callVotes s v.node)) ?_
  refine .ite (Functions.inProportion_votes s v) ?_
  refine .ite (.of_free (free_declarationVotes s v)) ?_
  exact .ite (.of_free (free_listVotes s v.node)) (.of_free .nil)

end HouseStyle
