import HouseStyle.Proofs.Evidence.Origins
import HouseStyle.Proofs.Restyle.SinglePass
import HouseStyle.Proofs.Tree.Carried

/-! # Commas where they are asked for

The texts between neighbouring declarators, taken over all declarations of a source, lie apart
(`gaps_apart`): two declarations stand one behind the other, or one stands below a declarator of the
other. So every comma that is in the wrong place is moved, and no change reaches into the text of
another pair.

A separator that is written is classified as the placement that was asked for
(`commaPlacement?_separator`), and a pair that stays has the text that it had. So if the result has
the same tree, every pair that was classified before is classified as asked for, and no other one is
(`commaPlacement?_between`). This gives `count_varComma_restyle`: after a run all commas count for
one placement, and a second run changes nothing. -/

namespace HouseStyle

open HouseStyle.Text

/-! ### Neighbours -/

namespace Constructs

theorem mem_neighbours_iff {α : Type} {l : List α} {p : α × α} :
    p ∈ neighbours l ↔ ∃ i, l[i]? = some p.1 ∧ l[i + 1]? = some p.2 := by
  rw [neighbours, List.mem_iff_getElem?]
  refine exists_congr fun i => ?_
  rw [List.getElem?_zip_eq_some, List.getElem?_tail]

theorem forall₂_neighbours {α β : Type} {R : α → β → Prop} {l : List α} {l' : List β}
    (h : List.Forall₂ R l l') :
    List.Forall₂ (fun p p' => R p.1 p'.1 ∧ R p.2 p'.2) (neighbours l) (neighbours l') := by
  induction h with
  | nil => exact .nil
  | cons hfirst hrest ih =>
    cases hrest with
    | nil => exact .nil
    | cons hsecond _ => exact .cons ⟨hfirst, hsecond⟩ ih

theorem forall₂_commaPairs {R : Node → Node → Prop} {n n' : Node} (h : Node.Alike R n n') :
    List.Forall₂ (fun p p' => R p.1 p'.1 ∧ R p.2 p'.2) (commaPairs n) (commaPairs n') := by
  have hdecl : List.Forall₂ (Node.Alike R) (declarators n) (declarators n') :=
    Node.forall₂_filter_of_label (fun _ _ hm => by rw [hm.kind]) h.namedChildren
  rw [commaPairs, commaPairs, h.label.kind]
  split_ifs
  · exact (forall₂_neighbours hdecl).imp fun p p' hp => ⟨hp.1.rel, hp.2.rel⟩
  · exact .nil

end Constructs

namespace Source

/-- Whether the constructs right under a declaration are declarators, which are not empty, or leaves
such as comments. -/
def PlainDeclarations (s : Source) : Prop :=
  ∀ n ∈ s.root.nodes, Functions.variableKinds.contains n.kind = true → ∀ c ∈ n.namedChildren,
    if c.kind = "variable_declarator" then s.start c < s.stop c else c.children.isEmpty = true

instance (s : Source) : Decidable s.PlainDeclarations := by unfold PlainDeclarations; infer_instance

end Source

/-! ### The texts between declarators -/

namespace DeclarationCommas

open Constructs

theorem mem_children_of_mem_commaPairs {n : Node} {p : Node × Node} (hp : p ∈ commaPairs n) :
    p.1 ∈ n.children ∧ p.2 ∈ n.children ∧ Functions.variableKinds.contains n.kind = true := by
  rw [commaPairs] at hp
  split_ifs at hp with hk
  · have hmem : ∀ x ∈ declarators n, x ∈ n.children := fun x hx =>
      (List.mem_filter.mp (List.mem_filter.mp hx).1).1
    obtain ⟨i, h1, h2⟩ := mem_neighbours_iff.mp hp
    exact ⟨hmem _ (List.mem_of_getElem? h1), hmem _ (List.mem_of_getElem? h2), hk⟩
  · simp at hp

section Gaps
variable {s : Source} (hs : s.WellFormed) (hd : s.PlainDeclarations) {n : Node}
  (hn : n ∈ s.root.nodes)
include hs hn

theorem pairwise_declarators : (declarators n).Pairwise fun x y => s.stop x ≤ s.start y :=
  ((Source.pairwise_children hs hn).filter _).filter _

theorem bounds_of_mem_declarators {x : Node} (hx : x ∈ declarators n) :
    s.start n ≤ s.start x ∧ s.start x ≤ s.stop x ∧ s.stop x ≤ s.stop n := by
  have hc : x ∈ n.children := (List.mem_filter.mp (List.mem_filter.mp hx).1).1
  exact ((hs n hn).tiles hc).bounds hc

theorem declarators_mono {i j : Nat} (hij : i ≤ j) {x y : Node} (hx : (declarators n)[i]? = some x)
    (hy : (declarators n)[j]? = some y) : s.start x ≤ s.start y ∧ s.stop x ≤ s.stop y := by
  have hordx := bounds_of_mem_declarators hs hn (List.mem_of_getElem? hx)
  have hordy := bounds_of_mem_declarators hs hn (List.mem_of_getElem? hy)
  rcases Nat.eq_or_lt_of_le hij with rfl | hlt
  · rw [hx, Option.some.injEq] at hy
    rw [hy]
    exact ⟨le_rfl, le_rfl⟩
  · obtain ⟨hi, rfl⟩ := List.getElem?_eq_some_iff.mp hx
    obtain ⟨hj, rfl⟩ := List.getElem?_eq_some_iff.mp hy
    have := List.pairwise_iff_getElem.mp (pairwise_declarators hs hn) i j hi hj hlt
    omega

theorem beside_gap {p : Node × Node} (hp : p ∈ commaPairs n) {x : Node} (hx : x ∈ declarators n) :
    s.stop x ≤ s.stop p.1 ∨ s.start p.2 ≤ s.start x := by
  rw [commaPairs, if_pos (mem_children_of_mem_commaPairs hp).2.2] at hp
  obtain ⟨i, h1, h2⟩ := mem_neighbours_iff.mp hp
  obtain ⟨j, hj⟩ := List.mem_iff_getElem?.mp hx
  rcases Nat.lt_or_ge i j with hlt | hge
  · exact Or.inr (declarators_mono hs hn hlt h2 hj).1
  · exact Or.inl (declarators_mono hs hn hge hj h1).2

include hd

omit hs in
theorem start_lt_stop_of_mem_declarators (hk : Functions.variableKinds.contains n.kind = true)
    {x : Node} (hx : x ∈ declarators n) : s.start x < s.stop x := by
  obtain ⟨hx, hkind⟩ := List.mem_filter.mp hx
  have hplain := hd n hn hk x hx
  rwa [if_pos (by simpa using hkind)] at hplain

theorem gap_bounds {p : Node × Node} (hp : p ∈ commaPairs n) :
    s.start n < s.stop p.1 ∧ s.stop p.1 ≤ s.start p.2 ∧ s.start p.2 < s.stop n := by
  have hk := (mem_children_of_mem_commaPairs hp).2.2
  rw [commaPairs, if_pos hk] at hp
  obtain ⟨i, h1, h2⟩ := mem_neighbours_iff.mp hp
  have hfirst := bounds_of_mem_declarators hs hn (List.mem_of_getElem? h1)
  have hsecond := bounds_of_mem_declarators hs hn (List.mem_of_getElem? h2)
  have hfirst' := start_lt_stop_of_mem_declarators hd hn hk (List.mem_of_getElem? h1)
  have hsecond' := start_lt_stop_of_mem_declarators hd hn hk (List.mem_of_getElem? h2)
  obtain ⟨hi, hi'⟩ := List.getElem?_eq_some_iff.mp h1
  obtain ⟨hj, hj'⟩ := List.getElem?_eq_some_iff.mp h2
  have hlt :=
    List.pairwise_iff_getElem.mp (pairwise_declarators hs hn) i (i + 1) hi hj (Nat.lt_succ_self i)
  rw [hi', hj'] at hlt
  omega

theorem gaps_apart_of_same {p q : Node × Node} (hp : p ∈ commaPairs n) (hq : q ∈ commaPairs n) :
    p = q ∨ s.start p.2 < s.stop q.1 ∨ s.start q.2 < s.stop p.1 := by
  have hk := (mem_children_of_mem_commaPairs hp).2.2
  rw [commaPairs, if_pos hk] at hp hq
  obtain ⟨i, hp1, hp2⟩ := mem_neighbours_iff.mp hp
  obtain ⟨j, hq1, hq2⟩ := mem_neighbours_iff.mp hq
  rcases lt_trichotomy i j with hlt | rfl | hgt
  · have hle := (declarators_mono hs hn hlt hp2 hq1).1
    have hsolid := start_lt_stop_of_mem_declarators hd hn hk (List.mem_of_getElem? hq1)
    omega
  · rw [hp1, Option.some.injEq] at hq1
    rw [hp2, Option.some.injEq] at hq2
    exact Or.inl (Prod.ext hq1 hq2)
  · have hle := (declarators_mono hs hn hgt hq2 hp1).1
    have hsolid := start_lt_stop_of_mem_declarators hd hn hk (List.mem_of_getElem? hp1)
    omega

end Gaps

/-- Pairs of a declaration and of one that the walk comes to later. -/
theorem gaps_apart_of_later {s : Source} (hs : s.WellFormed) (hd : s.PlainDeclarations) {m n : Node}
    (hm : m ∈ s.root.nodes) (hn : n ∈ s.root.nodes) (hlater : s.Later m n) {p q : Node × Node}
    (hp : p ∈ commaPairs m) (hq : q ∈ commaPairs n) :
    s.start p.2 < s.stop q.1 ∨ s.start q.2 < s.stop p.1 := by
  have hgapp := gap_bounds hs hd hm hp
  have hgapq := gap_bounds hs hd hn hq
  rcases hlater with ⟨c, hc, hnc⟩ | hle
  · have hplain := hd m hm (mem_children_of_mem_commaPairs hp).2.2 c hc
    split_ifs at hplain with hk
    · -- the later declaration lies inside a declarator of the earlier one
      have hcn : c ∈ s.root.nodes :=
        Node.mem_nodes_trans (Node.mem_nodes_of_mem_children (List.mem_filter.mp hc).1) hm
      have hin := Source.bounds_of_mem_nodes hs hcn (Node.mem_nodes_of_mem_walkNodes hnc)
      have hbeside := beside_gap hs hm hp (List.mem_filter.mpr ⟨hc, by simpa using hk⟩)
      omega
    · -- a leaf has no declarators
      rw [Node.walkNodes_of_leaf (List.isEmpty_iff.mp hplain), List.mem_singleton] at hnc
      have hchild := (mem_children_of_mem_commaPairs hq).1
      rw [hnc, List.isEmpty_iff.mp hplain] at hchild
      simp at hchild
  · omega

/-- **The texts between neighbours lie apart**, in one declaration or in two. -/
theorem gaps_apart {s : Source} (hs : s.WellFormed) (hd : s.PlainDeclarations) {m n : Node}
    (hm : m ∈ s.root.walkNodes) (hn : n ∈ s.root.walkNodes) {p q : Node × Node}
    (hp : p ∈ commaPairs m) (hq : q ∈ commaPairs n) :
    p = q ∨ s.start p.2 < s.stop q.1 ∨ s.start q.2 < s.stop p.1 := by
  have hmn := Node.mem_nodes_of_mem_walkNodes hm
  have hnn := Node.mem_nodes_of_mem_walkNodes hn
  by_cases heq : m = n
  · subst heq
    exact gaps_apart_of_same hs hd hmn hp hq
  rcases Source.later_or_later hs hm hn heq with hlater | hlater
  · exact Or.inr (gaps_apart_of_later hs hd hmn hnn hlater hp hq)
  · exact Or.inr (gaps_apart_of_later hs hd hnn hmn hlater hq hp).symm

/-! ### Separators -/

theorem mem_indentOf {t : Text} {c : Char} (h : c ∈ t.indentOf) : c = ' ' ∨ c = '\t' := by
  have hc := List.mem_takeWhile_imp h
  simpa [isIndentChar] using hc

theorem hasCommentMark_separator (want : Placement) (t : Text) :
    (separator want t.indentOf).hasCommentMark = false := by
  by_contra hmark
  have hslash : '/' ∈ separator want t.indentOf := by
    rcases hasCommentMark_iff.mp (by simpa using hmark) with h | h
    · exact h.subset List.mem_cons_self
    · exact h.subset List.mem_cons_self
  have hink : '/' ∈ ink (separator want t.indentOf) := mem_ink.mpr ⟨hslash, rfl⟩
  rw [ink_separator] at hink
  exact absurd hink (by decide)

/-- **A separator is classified as what it was written for.** -/
theorem commaPlacement?_separator (want : Placement) (t : Text) :
    Expression.commaPlacement? (separator want t.indentOf) = some want := by
  have hcomma : ',' ∉ t.indentOf :=
    fun h => by rcases mem_indentOf h with h | h <;> exact absurd h (by decide)
  have hnl : '\n' ∉ t.indentOf :=
    fun h => by rcases mem_indentOf h with h | h <;> exact absurd h (by decide)
  have hmark := hasCommentMark_separator want t
  have hchars : '\n' ∈ separator want t.indentOf ∧ ',' ∈ separator want t.indentOf := by
    cases want <;> simp [separator]
  rw [Expression.commaPlacement?, hmark, List.contains_iff_mem.mpr hchars.1,
    List.contains_iff_mem.mpr hchars.2]
  cases want with
  | leading =>
    have hbefore : (separator .leading t.indentOf).takeWhile (· ≠ ',') = '\n' :: t.indentOf := by
      have hall : ∀ c ∈ '\n' :: t.indentOf, decide (c ≠ ',') = true := fun c hc => by
        rcases List.mem_cons.mp hc with rfl | hc
        · rfl
        · exact decide_eq_true fun heq => hcomma (heq ▸ hc)
      rw [separator, List.takeWhile_append_of_pos hall]
      simp
    have hlast : lastLine ('\n' :: t.indentOf) = t.indentOf :=
      EndsAtLineStart.lastLine_append (a := ['\n']) (Or.inr ⟨[], rfl⟩) hnl
    simp only [hbefore, hlast]
    simp [ink_eq_nil_iff.mp (ink_indentOf t)]
  | trailing => simp [separator]

/-! ### Changes -/

/-- All changes of a source. -/
def edits (want : Placement) (s : Source) : List Replacement :=
  s.root.walkNodes.flatMap (replacements s want)

section Edits
variable {s : Source} {want : Placement} {r : Replacement}

theorem mem_edits_iff : r ∈ edits want s ↔
    ∃ n ∈ s.root.walkNodes, ∃ p ∈ commaPairs n, move? s want p = some r := by
  have hnode : ∀ n, replacements s want n = (commaPairs n).filterMap (move? s want) := by
    intro n
    rw [replacements, commaPairs]
    split_ifs
    · rfl
    · rfl
  simp only [edits, List.mem_flatMap, hnode, List.mem_filterMap]

theorem move?_eq_some_iff {p : Node × Node} : move? s want p = some r ↔
    (∃ placement, Expression.commaPlacement? (s.between p.1 p.2) = some placement ∧
      placement ≠ want) ∧
      r = ⟨s.stop p.1, s.start p.2, separator want (s.lineIndent (s.row p.2))⟩ := by
  rw [move?]
  cases Expression.commaPlacement? (s.between p.1 p.2) with
  | none => simp
  | some placement =>
    by_cases heq : placement = want
    · simp [heq]
    · simp only [heq, if_false, Option.some.injEq, exists_eq_left', ne_eq,
        not_false_eq_true, true_and]
      exact eq_comm

theorem stop_lt_start_of_commaPlacement? {p : Node × Node} {placement : Placement}
    (h : Expression.commaPlacement? (s.between p.1 p.2) = some placement) :
    s.stop p.1 < s.start p.2 := by
  by_contra hle
  have hempty : s.between p.1 p.2 = [] := by
    rw [Source.between, slice, show s.start p.2 - s.stop p.1 = 0 by omega, List.take_zero]
  rw [hempty] at h
  exact absurd h (by simp [Expression.commaPlacement?])

variable (hs : s.WellFormed) (hd : s.PlainDeclarations)
include hs

theorem isEffective_of_move? {n : Node} (hn : n ∈ s.root.walkNodes) {p : Node × Node}
    (hp : p ∈ commaPairs n) (h : move? s want p = some r) :
    r.isEffective s.text = true ∧ r.start < r.stop := by
  obtain ⟨⟨placement, hplace, hne⟩, rfl⟩ := move?_eq_some_iff.mp h
  have hlt := stop_lt_start_of_commaPlacement? hplace
  have hnn := Node.mem_nodes_of_mem_walkNodes hn
  have hstart := (hs.sound_child hnn (mem_children_of_mem_commaPairs hp).2.1).start_le
  have htext : s.between p.1 p.2 ≠ separator want (s.lineIndent (s.row p.2)) := fun heq => by
    rw [heq, Source.lineIndent, commaPlacement?_separator, Option.some.injEq] at hplace
    exact hne hplace.symm
  refine ⟨?_, by dsimp only; omega⟩
  simp only [Replacement.isEffective, Replacement.inRange, Bool.and_eq_true, decide_eq_true_eq]
  refine ⟨⟨⟨by omega, by omega⟩, by omega⟩, ?_⟩
  exact htext

include hd

/-- **All commas in the wrong place are moved.** -/
theorem mem_taken_edits_iff : r ∈ Replacement.taken s.text (edits want s) ↔
    ∃ n ∈ s.root.walkNodes, ∃ p ∈ commaPairs n, move? s want p = some r := by
  rw [Replacement.mem_taken_of_apart, mem_edits_iff]
  · refine ⟨fun h => h.1, fun h => ⟨h, ?_⟩⟩
    obtain ⟨n, hn, p, hp, hmove⟩ := h
    exact (isEffective_of_move? hs hn hp hmove).1
  · intro r hr r' hr' _ _ hne
    obtain ⟨m, hm, p, hp, hmove⟩ := mem_edits_iff.mp hr
    obtain ⟨n, hn, q, hq, hmove'⟩ := mem_edits_iff.mp hr'
    have hlt := (isEffective_of_move? hs hm hp hmove).2
    have hlt' := (isEffective_of_move? hs hn hq hmove').2
    rcases gaps_apart hs hd hm hn hp hq with rfl | hapart
    · rw [hmove, Option.some.injEq] at hmove'
      exact absurd hmove' hne
    · obtain ⟨-, rfl⟩ := move?_eq_some_iff.mp hmove
      obtain ⟨-, rfl⟩ := move?_eq_some_iff.mp hmove'
      dsimp only [Replacement.Before] at hlt hlt' ⊢
      omega

/-- A change is that of a pair, or it lies on one side of the pair. -/
theorem beside_taken_edits {n : Node} (hn : n ∈ s.root.walkNodes) {p : Node × Node}
    (hp : p ∈ commaPairs n) (hr : r ∈ Replacement.taken s.text (edits want s)) : r.start < r.stop ∧
      (move? s want p = some r ∧ r.start = s.stop p.1 ∧ r.stop = s.start p.2 ∨
        r.stop < s.stop p.1 ∨ s.start p.2 < r.start) := by
  obtain ⟨m, hm, q, hq, hmove⟩ := (mem_taken_edits_iff hs hd).mp hr
  refine ⟨(isEffective_of_move? hs hm hq hmove).2, ?_⟩
  obtain ⟨-, hr⟩ := move?_eq_some_iff.mp hmove
  rcases gaps_apart hs hd hm hn hq hp with rfl | hapart
  · rw [hr]
    exact Or.inl ⟨by rw [hmove, hr], rfl, rfl⟩
  · rw [hr]
    dsimp only
    omega

/-! ### The result -/

/-- **A pair in the result**: it is classified exactly if it was, and then as asked for. -/
theorem commaPlacement?_between {s' : Source}
    (htext : s'.text = Replacement.apply s.text (edits want s)) {n : Node}
    (hn : n ∈ s.root.walkNodes) {p p' : Node × Node} (hp : p ∈ commaPairs n)
    (h1 : s.Moved (Replacement.taken s.text (edits want s)) s' p.1 p'.1)
    (h2 : s.Moved (Replacement.taken s.text (edits want s)) s' p.2 p'.2) :
    Expression.commaPlacement? (s'.between p'.1 p'.2) =
      (Expression.commaPlacement? (s.between p.1 p.2)).map fun _ => want := by
  have hgap := gap_bounds hs hd (Node.mem_nodes_of_mem_walkNodes hn) hp
  have hlen := (hs.sound_child (Node.mem_nodes_of_mem_walkNodes hn)
    (mem_children_of_mem_commaPairs hp).2.1).start_le
  have hstop := h1.stop fun r hr hcross => by
    have := beside_taken_edits hs hd hn hp hr
    omega
  have hstart := h2.start fun r hr hcross => by
    have := beside_taken_edits hs hd hn hp hr
    omega
  rw [Source.between, htext]
  cases hmove : move? s want p with
  | some r =>
    -- the separator of the pair was written
    obtain ⟨⟨placement, hplace, -⟩, hr⟩ := move?_eq_some_iff.mp hmove
    have hmem := (mem_taken_edits_iff hs hd).mpr ⟨n, hn, p, hp, hmove⟩
    have hnext : ∀ r' ∈ Replacement.taken s.text (edits want s), r.Before r' →
        r.stop < r'.stop := by
      intro r' hr' hbefore
      have hlt := (beside_taken_edits hs hd hn hp hr').1
      have hle := hbefore.2
      omega
    rw [Replacement.slice_apply_put hmem (by rw [hr]) (by rw [hr]) hnext hstop hstart, hplace, hr,
      Source.lineIndent, commaPlacement?_separator]
    rfl
  | none =>
    -- nothing was replaced between the two
    have hkept : ∀ r ∈ Replacement.taken s.text (edits want s),
        r.start < s.stop p.1 ∧ r.stop ≤ s.stop p.1 ∨
          s.start p.2 ≤ r.start ∧ s.start p.2 < r.stop := by
      intro r hr
      obtain ⟨hlt, ⟨hown, -⟩ | hapart⟩ := beside_taken_edits hs hd hn hp hr
      · rw [hmove] at hown
        exact absurd hown (by simp)
      · omega
    rw [Replacement.slice_apply_kept hgap.2.1 hlen hkept hstop hstart]
    change Expression.commaPlacement? (s.between p.1 p.2) = _
    rw [move?] at hmove
    cases hplace : Expression.commaPlacement? (s.between p.1 p.2) with
    | none => rfl
    | some placement =>
      simp only [hplace, ite_eq_left_iff, reduceCtorEq, imp_false, Decidable.not_not] at hmove
      rw [hmove]
      rfl

theorem forall₂_commaPlacement? {s' : Source}
    (htext : s'.text = Replacement.apply s.text (edits want s))
    (hcarried : s.Carried (edits want s) s') :
    List.Forall₂ (fun n n' => n'.missing = n.missing ∧ List.Forall₂ (fun p p' =>
      Expression.commaPlacement? (s'.between p'.1 p'.2) =
        (Expression.commaPlacement? (s.between p.1 p.2)).map fun _ => want)
          (commaPairs n) (commaPairs n'))
      s.root.walkNodes s'.root.walkNodes := by
  refine hcarried.walk.imp fun n n' hn => ⟨hn.2.label.missing, ?_⟩
  have hpairs := (List.forall₂_and_left _ _).mpr
    ⟨fun p (hp : p ∈ commaPairs n) => hp, forall₂_commaPairs hn.2⟩
  exact hpairs.imp fun p p' hp => commaPlacement?_between hs hd htext hn.1 hp.1 hp.2.1 hp.2.2

end Edits

/-! ### Counts and a second run -/

/-- The counter of a placement. -/
def counter : Placement → Counter
  | .leading => .varCommaLeading
  | .trailing => .varCommaTrailing

theorem count_counter (s : Source) (place : Placement) : s.signals.count (counter place) =
    s.commaPairs.countP fun p => Expression.commaPlacement? (s.between p.1 p.2) = some place := by
  cases place with
  | leading => exact s.count_varComma.1
  | trailing => exact s.count_varComma.2

theorem countP_of_forall₂ {α β : Type} {f : α → Option Placement} {g : β → Option Placement}
    {want : Placement} {l : List α} {l' : List β}
    (h : List.Forall₂ (fun a b => g b = (f a).map fun _ => want) l l') :
    l'.countP (g · = some want) = l.countP (f · = some .leading) + l.countP (f · = some .trailing) ∧
      ∀ other, other ≠ want → l'.countP (g · = some other) = 0 := by
  induction h with
  | nil => exact ⟨rfl, fun _ _ => rfl⟩
  | @cons a b l l' hab _ ih =>
    obtain ⟨ihwant, ihother⟩ := ih
    refine ⟨?_, fun other hne => ?_⟩
    · rw [List.countP_cons, List.countP_cons, List.countP_cons, ihwant, hab]
      rcases f a with _ | _ | _
      · simp
      · simp
        omega
      · simp
        omega
    · rw [List.countP_cons, ihother other hne, hab]
      rcases f a with _ | placement
      · simp
      · simp [hne.symm]

theorem restyle_of_clean {ctx : Context} {t : Text} {s : Source} (h : ctx.clean? t = some s)
    (want : Placement) :
    restyle ctx (.str want.name) t = Replacement.apply s.text (edits want s) := by
  cases want with
  | leading => exact Context.onSource_of_clean h
  | trailing => exact Context.onSource_of_clean h

/-- **After a run all commas are where they were asked for.** If the result has the same tree, with
its positions carried through the edits, then no comma of the result counts for the other placement,
all that counted for either of them count for the one asked for, and a second run changes nothing.
-/
theorem count_varComma_restyle {ctx : Context} {t : Text} {s s' : Source} (want : Placement)
    (hclean : ctx.clean? t = some s) (hs : s.WellFormed) (hd : s.PlainDeclarations)
    (hclean' : ctx.clean? (restyle ctx (.str want.name) t) = some s')
    (hcarried : s.Carried (edits want s) s') :
    (∀ other, other ≠ want → s'.signals.count (counter other) = 0) ∧
      s'.signals.count (counter want) =
        s.signals.count .varCommaLeading + s.signals.count .varCommaTrailing ∧
      restyle ctx (.str want.name) (restyle ctx (.str want.name) t) =
        restyle ctx (.str want.name) t := by
  have htext : s'.text = Replacement.apply s.text (edits want s) := by
    rw [Context.text_of_clean? hclean', restyle_of_clean hclean]
  have hwalk := forall₂_commaPlacement? hs hd htext hcarried
  have hpairs : List.Forall₂ (fun p p' => Expression.commaPlacement? (s'.between p'.1 p'.2) =
      (Expression.commaPlacement? (s.between p.1 p.2)).map fun _ => want)
      s.commaPairs s'.commaPairs := by
    have hvoting :=
        List.rel_filter (p := (!·.missing)) (q := (!·.missing))
          (fun n n' hn => by simp [hn.1]) hwalk
    exact List.rel_flatMap hvoting fun n n' hn => hn.2
  obtain ⟨hwant, hother⟩ := countP_of_forall₂ hpairs
  refine ⟨fun other hne => ?_, ?_, ?_⟩
  · rw [count_counter, hother other hne]
    rfl
  · rw [count_counter, hwant, s.count_varComma.1, s.count_varComma.2]
    push_cast
    rfl
  · have hnone : edits want s' = [] := by
      refine List.eq_nil_iff_forall_not_mem.mpr fun r hr => ?_
      obtain ⟨n', hn', p', hp', hmove⟩ := mem_edits_iff.mp hr
      obtain ⟨n, -, -, hn⟩ := exists_of_forall₂ hwalk hn'
      obtain ⟨p, -, hp⟩ := exists_of_forall₂ hn hp'
      obtain ⟨⟨placement, hplace, hne⟩, -⟩ := move?_eq_some_iff.mp hmove
      rw [hp, Option.map_eq_some_iff] at hplace
      obtain ⟨-, -, heq⟩ := hplace
      exact hne heq.symm
    rw [restyle_of_clean hclean', hnone, Replacement.apply_nil, Context.text_of_clean? hclean']

/-- The tree of two lists of declarators, one in a value of the other. The first comma and the name
behind it are at `c` and `y`, the second ones at `d` and `g`. -/
def nestedListsNode (c y d g : Nat) : Node :=
  .construct 0 "program" 0 (g + 2) none
    [.construct 1 "lexical_declaration" 0 (g + 1) none
        [.token 2 "let" 0 3,
          .construct 3 "variable_declarator" 4 (y + 3) none
            [.construct 4 "identifier" 4 5 (some .name) [], .token 5 "=" 6 7,
              .construct 6 "arrow_function" 8 (y + 3) (some .value)
                [.construct 7 "formal_parameters" 8 10 none [.token 8 "(" 8 9, .token 9 ")" 9 10],
                  .token 10 "=>" 11 13,
                  .construct 11 "statement_block" 14 (y + 3) (some .body)
                    [.token 12 "\x7b" 14 15,
                      .construct 13 "lexical_declaration" 18 (y + 1) none
                        [.token 14 "let" 18 21,
                          .construct 15 "variable_declarator" 22 23 none
                            [.construct 16 "identifier" 22 23 (some .name) []],
                          .token 17 "," c (c + 1),
                          .construct 18 "variable_declarator" y (y + 1) none
                            [.construct 19 "identifier" y (y + 1) (some .name) []]],
                      .token 20 "\x7d" (y + 2) (y + 3)]]],
          .token 21 "," d (d + 1),
          .construct 22 "variable_declarator" g (g + 1) none
            [.construct 23 "identifier" g (g + 1) (some .name) []]]]

/-- The lists with their commas at the ends of lines. -/
def trailingLists : Source :=
  ⟨"let f = () => \x7b\n  let x,\n    y\n\x7d,\n  g\n".toList, nestedListsNode 23 29 32 36, false⟩

/-- The lists with their commas at the starts of lines. -/
def leadingLists : Source :=
  ⟨"let f = () => \x7b\n  let x\n    , y\n\x7d\n  , g\n".toList, nestedListsNode 28 30 36 38, false⟩

/-- A parser that knows both. -/
def nestedListsContext : Context :=
  ⟨.ofTable [(trailingLists.text, trailingLists.root), (leadingLists.text, leadingLists.root)],
    "javascript", ⟨.space, 2⟩, none⟩

theorem taken_trailingLists : Replacement.taken trailingLists.text (edits .leading trailingLists) =
    [⟨32, 36, "\n  , ".toList⟩, ⟨23, 29, "\n    , ".toList⟩] := by
  have hedits : edits .leading trailingLists =
      [⟨32, 36, "\n  , ".toList⟩, ⟨23, 29, "\n    , ".toList⟩] := by decide +kernel
  rw [Replacement.taken, hedits, Replacement.candidates_eq_of_perm (l := [⟨32, 36, "\n  , ".toList⟩,
    ⟨23, 29, "\n    , ".toList⟩]) (by decide +kernel) (by decide)]
  decide +kernel

/-- Two commas go to the starts of lines, the one in a list inside of the other. -/
theorem count_varComma_restyle_trailingLists :
    trailingLists.WellFormed ∧ trailingLists.PlainDeclarations ∧
      trailingLists.Carried (edits .leading trailingLists) leadingLists ∧
      restyle nestedListsContext (.str "leading") trailingLists.text = leadingLists.text ∧
      leadingLists.signals.count .varCommaTrailing = 0 ∧
      leadingLists.signals.count .varCommaLeading = trailingLists.signals.count .varCommaLeading +
        trailingLists.signals.count .varCommaTrailing ∧
      restyle nestedListsContext (.str "leading") leadingLists.text = leadingLists.text := by
  have hs : trailingLists.WellFormed := by decide
  have hd : trailingLists.PlainDeclarations := by decide
  have hcarried : trailingLists.Carried (edits .leading trailingLists) leadingLists := by
    rw [Source.Carried, taken_trailingLists]
    decide
  have hclean : nestedListsContext.clean? trailingLists.text = some trailingLists := by rfl
  have hrun : restyle nestedListsContext (.str Placement.leading.name) trailingLists.text =
      leadingLists.text := by
    rw [restyle_of_clean hclean, Replacement.apply, taken_trailingLists]
    decide
  have hclean' : nestedListsContext.clean?
      (restyle nestedListsContext (.str Placement.leading.name) trailingLists.text) =
        some leadingLists := by
    rw [hrun]
    rfl
  obtain ⟨hother, hwant, hagain⟩ := count_varComma_restyle .leading hclean hs hd hclean' hcarried
  rw [hrun] at hagain
  exact ⟨hs, hd, hcarried, hrun, hother .trailing (by decide), hwant, hagain⟩

end DeclarationCommas

end HouseStyle
