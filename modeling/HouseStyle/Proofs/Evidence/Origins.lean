import HouseStyle.Proofs.Evidence.Coherence

/-! # Where counts come from

Every kind of construct votes on counters of its own (`On`), and the counters of layout belong to
one kind of construct each: the commas between declarators to declarations, the breaks to switches,
and the columns of trailing comments to the groups of comments. So these counts can be read off the
constructs. They say how many pairs of neighbouring declarators have their comma in front or behind
(`count_varComma`), how many breaks stand at the column of their label or further in
(`count_switchBreak`), and what the groups of trailing comments vote (`count_alignedPairs`). -/

namespace HouseStyle

open Signals

/-! ### Counters of votes -/

/-- Votes on counters of a list. -/
def On (cs : List Counter) (votes : List Vote) : Prop := ∀ v ∈ votes, v.1 ∈ cs

namespace On

variable {cs cs' : List Counter} {votes votes' : List Vote}

theorem nil : On cs [] := by simp [On]

theorem mono (h : On cs votes) (hsub : ∀ c ∈ cs, c ∈ cs') : On cs' votes :=
  fun v hv => hsub _ (h v hv)

theorem append (h : On cs votes) (h' : On cs votes') : On cs (votes ++ votes') :=
  List.forall_mem_append.mpr ⟨h, h'⟩

theorem flatMap {α : Type} {f : α → List Vote} {xs : List α} (h : ∀ x ∈ xs, On cs (f x)) :
    On cs (xs.flatMap f) := by
  intro v hv
  obtain ⟨x, hx, hv⟩ := List.mem_flatMap.mp hv
  exact h x hx v hv

theorem one {c : Counter} (h : c ∈ cs) : On cs (Vote.one c) := by
  intro v hv
  obtain rfl := List.mem_singleton.mp hv
  exact h

theorem ite {p : Prop} [Decidable p] (h : p → On cs votes) (h' : ¬ p → On cs votes') :
    On cs (if p then votes else votes') := by
  split_ifs with hp
  · exact h hp
  · exact h' hp

theorem either {yes no : Counter} (hy : yes ∈ cs) (hn : no ∈ cs) (answer : Bool) :
    On cs (Vote.either answer yes no) := by
  cases answer
  · exact one hn
  · exact one hy

theorem either? {yes no : Counter} (hy : yes ∈ cs) (hn : no ∈ cs) (answer : Option Bool) :
    On cs (Vote.either? answer yes no) := by
  cases answer with
  | none => exact nil
  | some a => exact either hy hn a

theorem tally_eq_zero (h : On cs votes) {c : Counter} (hc : c ∉ cs) : tally votes c = 0 :=
  Signals.tally_eq_zero fun v hv heq => hc (heq ▸ h v hv)

end On

/-! ### The counters of constructs -/

namespace Constructs

variable (s : Source) (v : Node.Visit)

theorem on_blankBeforeVotes (yes no : Counter) : On [yes, no] (blankBeforeVotes s v yes no) :=
  .ite (fun _ => .either (by simp) (by simp) _) fun _ => .nil

theorem on_semicolonVotes : On [.semicolonsYes, .semicolonsNo] (semicolonVotes s v) :=
  .ite (fun _ => .nil) fun _ => .either (by decide) (by decide) _

theorem on_returnVotes :
    On [.semicolonsYes, .semicolonsNo, .blankBeforeReturnYes, .blankBeforeReturnNo]
    (returnVotes s v) :=
  ((on_semicolonVotes s v).mono (by decide)).append ((on_blankBeforeVotes s v _ _).mono (by decide))

theorem on_yodaVotes (n : Node) : On [.yodaYes, .yodaNo] (yodaVotes n) := by
  induction n using yodaVotes.induct with
  | case1 n hk ih =>
    rw [yodaVotes, if_pos hk]
    exact .flatMap fun c _ => ih c
  | case2 n hk hb op hop ihl ihr =>
    rw [yodaVotes, if_neg hk, if_pos hb, if_pos hop]
    refine On.append ?_ ?_
    · split
      · exact ihl _ ‹_›
      · exact .nil
    · split
      · exact ihr _ ‹_›
      · exact .nil
  | case3 n hk hb op hop hcmp =>
    rw [yodaVotes, if_neg hk, if_pos hb, if_neg hop, if_pos hcmp]
    exact .either? (by decide) (by decide) _
  | case4 n hk hb op hop hcmp =>
    rw [yodaVotes, if_neg hk, if_pos hb, if_neg hop, if_neg hcmp]
    exact .nil
  | case5 n hk hb =>
    rw [yodaVotes, if_neg hk, if_neg hb]
    exact .nil

theorem on_braceVotes (n : Node) : On [.ifWithBraces, .ifWithoutBraces] (braceVotes s n) := by
  unfold braceVotes
  refine .ite (fun _ => .nil) fun _ => ?_
  cases n.child? .consequence with
  | none => exact .nil
  | some c =>
    refine .ite (fun _ => .nil) fun _ => .ite (fun _ => ?_) fun _ => .one (by decide)
    exact .ite (fun _ => .one (by decide)) fun _ => .nil

theorem on_ifVotes : On [.yodaYes, .yodaNo, .blankBeforeIfYes, .blankBeforeIfNo, .ifWithBraces,
    .ifWithoutBraces] (ifVotes s v) := by
  unfold ifVotes
  refine On.append (On.append ?_ ((on_blankBeforeVotes s v _ _).mono (by decide)))
    ((on_braceVotes s v.node).mono (by decide))
  cases v.node.child? .condition with
  | none => exact .nil
  | some c => exact (on_yodaVotes c).mono (by decide)

theorem on_memberVotes (n : Node) : On [.memberAligned, .memberIndented] (memberVotes s n) := by
  unfold memberVotes
  split
  · exact .ite (fun _ => .either? (by decide) (by decide) _) fun _ => .nil
  · exact .nil

theorem on_stringVotes (n : Node) : On [.quotesSingle, .quotesDouble] (stringVotes s n) := by
  unfold stringVotes
  split
  · exact .one (by decide)
  · exact .one (by decide)
  · exact .nil

theorem on_callVotes (n : Node) : On [.callArgsCompact, .callArgsExpanded] (callVotes s n) := by
  unfold callVotes
  split
  · split
    · exact .ite (fun _ => .either (by decide) (by decide) _) fun _ => .nil
    · exact .nil
  · exact .nil

theorem on_listVotes (n : Node) : On [.trailingCommaYes, .trailingCommaNo] (listVotes s n) := by
  unfold listVotes
  dsimp only
  split
  · exact .ite (fun _ => .either (by decide) (by decide) _) fun _ => .nil
  · exact .nil

theorem on_functionVotes : On [.functionExprNamed, .functionExprAnonymous, .functionsTotal,
    .functionsWithDoc, .functionNamesSingle, .functionNamesMulti, .guardClauseFunctions,
    .nonGuardClauseFunctions] (Functions.votes s v) := by
  unfold Functions.votes
  refine On.append (On.append ?_ ?_) ?_
  · exact .ite (fun _ => .either (by decide) (by decide) _) fun _ => .nil
  · unfold Functions.topLevelVotes
    split
    · rename_i f _
      refine On.append (On.append (.one (by decide)) ?_) ?_
      · unfold Functions.nameVotes
        split
        · exact .ite (fun _ => .either (by decide) (by decide) _) fun _ => .nil
        · exact .nil
      · exact .ite (fun _ => .one (by decide)) fun _ => .nil
    · exact .nil
  · unfold Functions.guardVotes
    split
    · refine .ite (fun _ => ?_) fun _ => .nil
      split
      · exact .either (by decide) (by decide) _
      · exact .nil
    · exact .nil

/-- The counters of commas, of breaks and of trailing comments. -/
def layoutCounters : List Counter :=
  [.varCommaLeading, .varCommaTrailing, .switchBreakMatchCase, .switchBreakIndented,
    .inlineCommentAlignedPairs, .inlineCommentUnalignedPairs]

/-- All other counters. -/
def otherCounters : List Counter := Counter.all.filter (!layoutCounters.contains ·)

/-- **All constructs but declarations and switches** vote on other counters. -/
theorem on_nodeVotes (hdecl : ¬ Functions.variableKinds.contains v.node.kind = true)
    (hswitch : v.node.kind ≠ "switch_statement") : On otherCounters (nodeVotes s v) := by
  unfold nodeVotes
  refine .ite (fun _ => .nil) fun _ => ?_
  refine .ite (fun _ => (on_ifVotes s v).mono (by decide)) fun _ => ?_
  refine .ite (fun _ => .either? (by decide) (by decide) _) fun _ => ?_
  refine .ite (fun hk => absurd hk hswitch) fun _ => ?_
  refine .ite (fun _ => (on_memberVotes s v.node).mono (by decide)) fun _ => ?_
  refine .ite (fun _ => (on_stringVotes s v.node).mono (by decide)) fun _ => ?_
  refine .ite (fun _ => (on_semicolonVotes s v).mono (by decide)) fun _ => ?_
  refine .ite (fun _ => (on_semicolonVotes s v).mono (by decide)) fun _ => ?_
  refine .ite (fun _ => (on_returnVotes s v).mono (by decide)) fun _ => ?_
  refine .ite (fun _ => (on_callVotes s v.node).mono (by decide)) fun _ => ?_
  refine .ite (fun _ => (on_functionVotes s v).mono (by decide)) fun _ => ?_
  refine .ite (fun hk => absurd hk hdecl) fun _ => ?_
  exact .ite (fun _ => (on_listVotes s v.node).mono (by decide)) fun _ => .nil

/-! ### Declarations and switches -/

/-- The neighbouring declarators of a declaration. -/
def commaPairs (n : Node) : List (Node × Node) :=
  if Functions.variableKinds.contains n.kind then neighbours (declarators n) else []

/-- The labels of a switch, each with every break right under it. -/
def breakPairs (n : Node) : List (Node × Node) :=
  if n.kind = "switch_statement" then
    (n.child? .body).toList.flatMap fun body =>
      (body.codeChildren.filter isCase).flatMap fun case => (breaks case).map fun b => (case, b)
  else []

/-- The vote of two neighbouring declarators. -/
def commaVotes (p : Node × Node) : List Vote :=
  Vote.either? ((Expression.commaPlacement? (s.between p.1 p.2)).map (· == .leading))
    .varCommaLeading .varCommaTrailing

/-- The vote of a break under its label. -/
def breakVotes (p : Node × Node) : List Vote :=
  Vote.either (s.column p.2 ≤ s.column p.1) .switchBreakMatchCase .switchBreakIndented

theorem on_commaVotes (ps : List (Node × Node)) :
    On [.varCommaLeading, .varCommaTrailing] (ps.flatMap (commaVotes s)) :=
  .flatMap fun _ _ => .either? (by decide) (by decide) _

theorem on_breakVotes (ps : List (Node × Node)) :
    On [.switchBreakMatchCase, .switchBreakIndented] (ps.flatMap (breakVotes s)) :=
  .flatMap fun _ _ => .either (by decide) (by decide) _

theorem nodeVotes_of_declaration (hdecl : Functions.variableKinds.contains v.node.kind = true) :
    nodeVotes s v = if v.node.missing then []
      else semicolonVotes s v ++ (commaPairs v.node).flatMap (commaVotes s) := by
  have hk : v.node.kind = "lexical_declaration" ∨ v.node.kind = "variable_declaration" := by
    simpa [Functions.variableKinds] using hdecl
  have hvotes : nodeVotes s v = if v.node.missing then [] else declarationVotes s v := by
    rcases hk with hk | hk
    · cases hm : v.node.missing <;>
        simp [nodeVotes, hk, hm, Functions.functionKinds, Functions.variableKinds]
    · cases hm : v.node.missing <;>
        simp [nodeVotes, hk, hm, Functions.functionKinds, Functions.variableKinds]
  rw [hvotes, commaPairs, if_pos hdecl]
  rfl

theorem tally_flatMap {α : Type} (f : α → List Vote) (xs : List α) (c : Counter) :
    tally (xs.flatMap f) c = (xs.map fun x => tally (f x) c).sum := by
  induction xs with
  | nil => rfl
  | cons x xs ih => rw [List.flatMap_cons, tally_append, ih, List.map_cons, List.sum_cons]

theorem tally_switchVotes {n : Node} (hk : n.kind = "switch_statement") {c : Counter}
    (hc : c ∉ [Counter.switchCaseIndented, .switchCaseFlat]) :
    tally (switchVotes s n) c = tally ((breakPairs n).flatMap (breakVotes s)) c := by
  have hcase : ∀ column case, tally (caseVotes s column case) c =
      tally (((breaks case).map fun b => (case, b)).flatMap (breakVotes s)) c := by
    intro column case
    have hlabel : On [.switchCaseIndented, .switchCaseFlat]
        (Vote.either (column < s.column case) .switchCaseIndented .switchCaseFlat) :=
      .either (by decide) (by decide) _
    rw [caseVotes, tally_append, hlabel.tally_eq_zero hc, zero_add, List.flatMap_map]
    rfl
  rw [switchVotes, breakPairs, if_pos hk]
  cases n.child? .body with
  | none => rfl
  | some body =>
    rw [Option.toList_some, List.flatMap_singleton, List.flatMap_assoc, tally_flatMap,
      tally_flatMap]
    exact congrArg List.sum (List.map_congr_left fun case _ => hcase _ case)

theorem nodeVotes_of_switch (hk : v.node.kind = "switch_statement") :
    nodeVotes s v = if v.node.missing then [] else switchVotes s v.node := by
  cases hm : v.node.missing <;> simp [nodeVotes, hk, hm]

/-- **The votes of a node on layout** come from its commas if it is a declaration, and from its
breaks if it is a switch. -/
theorem tally_nodeVotes {c : Counter} (hc : c ∈ layoutCounters) :
    tally (nodeVotes s v) c = if v.node.missing then 0
      else tally ((commaPairs v.node).flatMap (commaVotes s)) c +
        tally ((breakPairs v.node).flatMap (breakVotes s)) c := by
  have hcs : c ∉ otherCounters ∧ c ∉ [Counter.semicolonsYes, .semicolonsNo] ∧
      c ∉ [Counter.switchCaseIndented, .switchCaseFlat] := by
    revert c
    decide
  by_cases hdecl : Functions.variableKinds.contains v.node.kind = true
  · have hk : v.node.kind ≠ "switch_statement" := fun hk => by
      rw [hk] at hdecl; exact absurd hdecl (by decide)
    rw [nodeVotes_of_declaration s v hdecl, breakPairs, if_neg hk]
    split_ifs
    · rfl
    · rw [tally_append, (on_semicolonVotes s v).tally_eq_zero hcs.2.1, zero_add,
        List.flatMap_nil, tally_nil, add_zero]
  rw [commaPairs, if_neg hdecl, List.flatMap_nil, tally_nil, zero_add]
  by_cases hswitch : v.node.kind = "switch_statement"
  · rw [nodeVotes_of_switch s v hswitch]
    split_ifs
    · rfl
    · exact tally_switchVotes s hswitch hcs.2.2
  · rw [(on_nodeVotes s v hdecl hswitch).tally_eq_zero hcs.1, breakPairs, if_neg hswitch,
      List.flatMap_nil, tally_nil, ite_self]

end Constructs

/-! ### Comments -/

namespace Comment

/-- The votes of the groups of trailing comments. -/
def groupVotes (groups : List (List Entry)) : List Vote :=
  groups.flatMap fun g => (Constructs.neighbours g).flatMap alignmentVotes

theorem on_groupVotes (groups : List (List Entry)) :
    On [.inlineCommentAlignedPairs, .inlineCommentUnalignedPairs] (groupVotes groups) :=
  .flatMap fun _ _ => .flatMap fun _ _ => .ite (fun _ => .nil) fun _ =>
    .either (by decide) (by decide) _

theorem tally_votes (s : Source) (comments : List Node) {c : Counter}
    (hc : c ∉ [Counter.lineCommentSpace, .lineCommentTight, .commentFramedBlocks,
      .commentPlainBlocks]) :
    tally (votes s comments) c = tally (groupVotes (groups s.lines (entries s comments))) c := by
  have hframing : On [.lineCommentSpace, .lineCommentTight, .commentFramedBlocks,
      .commentPlainBlocks] (framingVotes s.lines) :=
    .flatMap fun _ _ => .either? (by decide) (by decide) _
  have hspacing : On [.lineCommentSpace, .lineCommentTight, .commentFramedBlocks,
      .commentPlainBlocks] (comments.flatMap (spacingVotes s)) := by
    refine .flatMap fun n _ => ?_
    unfold spacingVotes
    split
    · exact .ite (fun _ => .nil) fun _ => .either (by decide) (by decide) _
    · exact .nil
  rw [votes, tally_append, tally_append, hframing.tally_eq_zero hc, hspacing.tally_eq_zero hc,
    zero_add, add_zero]
  rfl

end Comment

theorem Imports.on_votes (s : Source) :
    On [.importSortedGroups, .importUnsortedGroups] (Imports.votes s) := by
  have horder : ∀ names, On [.importSortedGroups, .importUnsortedGroups] (orderVotes names) := by
    intro names v hv
    unfold orderVotes at hv
    split at hv
    · rename_i sorted weight _
      obtain rfl := List.mem_singleton.mp hv
      cases sorted
      · exact List.mem_cons_of_mem _ List.mem_cons_self
      · exact List.mem_cons_self
    · simp at hv
  exact (horder _).append (horder _)

/-! ### Files -/

namespace Source

open Constructs

variable (s : Source)

/-- The neighbouring declarators of a file. -/
def commaPairs : List (Node × Node) :=
  (s.root.walkNodes.filter (!·.missing)).flatMap Constructs.commaPairs

/-- The labels of a file with their breaks. -/
def breakPairs : List (Node × Node) :=
  (s.root.walkNodes.filter (!·.missing)).flatMap Constructs.breakPairs

/-- The groups of trailing comments of a file. -/
def commentGroups : List (List Comment.Entry) :=
  Comment.groups s.lines (Comment.entries s s.comments)

theorem count_layout {c : Counter} (hc : c ∈ layoutCounters) :
    s.signals.count c = tally (s.commaPairs.flatMap (commaVotes s)) c +
      tally (s.breakPairs.flatMap (breakVotes s)) c +
      tally (Comment.groupVotes s.commentGroups) c := by
  have hcs : c ≠ .memberAlignedFiles ∧ c ≠ .memberIndentedFiles ∧ c ≠ .totalLines ∧
      c ∉ [Counter.blankLines, .indentTabLines, .indentSpaceLines] ∧
      c ∉ [Counter.importSortedGroups, .importUnsortedGroups] ∧
      c ∉ [Counter.lineCommentSpace, .lineCommentTight, .commentFramedBlocks,
        .commentPlainBlocks] := by
    revert c
    decide
  have hwalk : tally ((s.root.walk.filter (!·.node.isComment)).flatMap (nodeVotes s)) c =
      tally (s.commaPairs.flatMap (commaVotes s)) c + tally
        (s.breakPairs.flatMap (breakVotes s)) c := by
    rw [commaPairs, breakPairs, Node.walkNodes]
    induction s.root.walk with
    | nil => rfl
    | cons v vs ih =>
      have hnode := tally_nodeVotes s v hc
      by_cases hcomment : v.node.isComment = true
      · -- a comment is no declaration and no switch
        have hk : v.node.kind = "comment" := by simpa [Node.isComment] using hcomment
        have hpairs : Constructs.commaPairs v.node = [] ∧ Constructs.breakPairs v.node = [] := by
          simp [Constructs.commaPairs, Constructs.breakPairs, hk, Functions.variableKinds]
        rw [List.filter_cons_of_neg (by simpa using hcomment), ih, List.map_cons]
        cases hm : v.node.missing <;> simp [hm, hpairs]
      · rw [List.filter_cons_of_pos (by simpa using hcomment), List.flatMap_cons,
          tally_append, ih, hnode, List.map_cons]
        cases hm : v.node.missing
        · simp only [List.filter_cons, hm, Bool.not_false, if_true, List.flatMap_cons,
            List.flatMap_append, tally_append, Bool.false_eq_true, if_false]
          omega
        · simp [hm]
  rw [s.count_signals hcs.1 hcs.2.1, tally_votes, if_neg hcs.2.2.1,
    s.tally_lines_eq_zero hcs.2.2.2.1, treeVotes, tally_append, tally_append, hwalk,
    (Imports.on_votes s).tally_eq_zero hcs.2.2.2.2.1,
    Comment.tally_votes s s.comments hcs.2.2.2.2.2, commentGroups]
  omega

theorem tally_either? (answer : Option Bool) {yes no : Counter} (hne : yes ≠ no) :
    tally (Vote.either? answer yes no) yes = (if answer = some true then 1 else 0) ∧
      tally (Vote.either? answer yes no) no = (if answer = some false then 1 else 0) := by
  rcases answer with _ | _ | _
  · exact ⟨rfl, rfl⟩
  · simp [Vote.either?, Vote.either, Vote.one, tally_cons, hne.symm]
  · simp [Vote.either?, Vote.either, Vote.one, tally_cons, hne]

theorem tally_answers {α : Type} {yes no : Counter} (hne : yes ≠ no) (answer : α → Option Bool)
    (xs : List α) :
    tally (xs.flatMap fun x => Vote.either? (answer x) yes no) yes =
        xs.countP (answer · = some true) ∧
      tally (xs.flatMap fun x => Vote.either? (answer x) yes no) no =
        xs.countP (answer · = some false) := by
  induction xs with
  | nil => exact ⟨rfl, rfl⟩
  | cons x xs ih =>
    obtain ⟨hyes, hno⟩ := tally_either? (answer x) hne
    rw [List.flatMap_cons, tally_append, tally_append, ih.1, ih.2, hyes, hno, List.countP_cons,
      List.countP_cons]
    simp only [decide_eq_true_eq]
    push_cast
    constructor
    · split_ifs <;> omega
    · split_ifs <;> omega

/-- **The counts of commas** tell in how many pairs of neighbours the comma leads and in how many it
trails. -/
theorem count_varComma :
    s.signals.count .varCommaLeading =
        s.commaPairs.countP
          (fun p => Expression.commaPlacement? (s.between p.1 p.2) = some .leading) ∧
      s.signals.count .varCommaTrailing =
        s.commaPairs.countP
          fun p => Expression.commaPlacement? (s.between p.1 p.2) = some .trailing := by
  have hne : Counter.varCommaLeading ≠ .varCommaTrailing := by decide
  have hplaces : ∀ p : Option Placement, (p.map (· == .leading) = some true ↔ p = some .leading) ∧
      (p.map (· == .leading) = some false ↔ p = some .trailing) := by
    rintro (_ | _ | _) <;> decide
  have hanswers := tally_answers hne
    (fun p : Node × Node => (Expression.commaPlacement? (s.between p.1 p.2)).map (· == .leading))
      s.commaPairs
  simp only [hplaces] at hanswers
  rw [s.count_layout (by decide), s.count_layout (by decide),
    (on_breakVotes s _).tally_eq_zero (by decide), (on_breakVotes s _).tally_eq_zero (by decide),
    (Comment.on_groupVotes _).tally_eq_zero (by decide), (Comment.on_groupVotes _).tally_eq_zero
      (by decide), add_zero, add_zero, add_zero, add_zero]
  exact hanswers

/-- **The counts of breaks** tell how many stand no further in than their label, and how many do. -/
theorem count_switchBreak :
    s.signals.count .switchBreakMatchCase =
        s.breakPairs.countP (fun p => s.column p.2 ≤ s.column p.1) ∧
      s.signals.count .switchBreakIndented =
        s.breakPairs.countP fun p => s.column p.1 < s.column p.2 := by
  have hne : Counter.switchBreakMatchCase ≠ .switchBreakIndented := by decide
  have hanswers := tally_answers hne
    (fun p : Node × Node => some (decide (s.column p.2 ≤ s.column p.1))) s.breakPairs
  simp only [Option.some.injEq, decide_eq_true_eq, decide_eq_false_iff_not, not_le] at hanswers
  rw [s.count_layout (by decide), s.count_layout (by decide),
    (on_commaVotes s _).tally_eq_zero (by decide), (on_commaVotes s _).tally_eq_zero (by decide),
    (Comment.on_groupVotes _).tally_eq_zero (by decide), (Comment.on_groupVotes _).tally_eq_zero
      (by decide), zero_add, zero_add, add_zero, add_zero]
  exact hanswers

/-- **The counts of trailing comments** are what their groups vote. -/
theorem count_alignedPairs {c : Counter}
    (hc : c ∈ [Counter.inlineCommentAlignedPairs, .inlineCommentUnalignedPairs]) :
    s.signals.count c = tally (Comment.groupVotes s.commentGroups) c := by
  have hcs : c ∈ layoutCounters ∧ c ∉ [Counter.varCommaLeading, .varCommaTrailing] ∧
      c ∉ [Counter.switchBreakMatchCase, .switchBreakIndented] := by
    revert c
    decide
  rw [s.count_layout hcs.1, (on_commaVotes s _).tally_eq_zero hcs.2.1,
    (on_breakVotes s _).tally_eq_zero hcs.2.2, zero_add, zero_add]

end Source

end HouseStyle
