import HouseStyle.Proofs.Edit.Columns
import HouseStyle.Proofs.Edit.Selection
import HouseStyle.Proofs.Restyle.OutermostCalls
import HouseStyle.Proofs.Restyle.Pairing
import Mathlib.Data.List.Forall2

/-! # Line breaks of a reference, replayed

A *slot* is a separator of a source with the segment that a reference has for it. The changes of a
replay are those of its slots (`replayBreaks_eq_slots`): a separator is written anew exactly if its
segment has a line break and it has none, or the other way round (`breakAs?_eq`). The separators of
all slots are apart, so all changes are carried out (`taken_perm`), and what stands in the place of
each separator is known (`separatorAfter_eq`).

`follows_replayBreaks` puts this together for the calls of a source and the layouts that they are
paired with. -/

namespace HouseStyle

namespace Replacement

variable (source : Text) (rs : List Replacement)

theorem offsets_nonneg {p : Nat} (hp : p ≤ source.length) (hclear : Clear (taken source rs) p) :
    0 ≤ stopAfter (taken source rs) p ∧ 0 ≤ startAfter (taken source rs) p := by
  have hstop := length_edited hp hclear
  have hrange : InRange source ((taken source rs).filter (·.stop ≤ p)) := fun r hr =>
    inRange_taken source rs r (List.mem_filter.mp hr).1
  have hstart := length_splice ((descending_taken source rs).filter _) hrange
    (fun r hr => by simpa using (List.mem_filter.mp hr).2) hp
  rw [startAfter]
  omega

end Replacement

namespace MemberChains

open HouseStyle.Text
open Node (Visit)

/-! ### Separators without comments -/

/-- A separator of a source that holds its delimiter and blanks. -/
structure Separator.Stands (s : Source) (sep : Separator) : Prop where
  nonempty : sep.start < sep.stop
  inRange : sep.stop ≤ s.text.length
  broken : sep.broken = true ↔ '\n' ∈ s.text.slice sep.start sep.stop
  ink : (s.text.slice sep.start sep.stop).ink = sep.delimiter
  delimiter : sep.delimiter <:+: s.text.slice sep.start sep.stop
  plain : '\n' ∉ sep.delimiter ∧ sep.delimiter.ink = sep.delimiter

theorem stands_of_separator? {s : Source} (hs : s.Regular) {n : Node} (hn : n ∈ s.root.nodes)
    (hk : n.kind = "member_expression") {sep : Separator} (h : separator? s n = some sep)
    (hc : sep.hasComment = false) : sep.Stands s := by
  have hbounds := bounds_of_separator? hs.wellFormed hn h
  have hink := ink_separator? hs hn hk h hc
  have hlen : s.stop n ≤ s.text.length := charOffset_le_of_boundary (hs.wellFormed n hn).boundary.2
  obtain ⟨o, p, -, -, hdot, rfl⟩ := of_separator? h
  have hplain : ∀ b : Bool, '\n' ∉ (if b then ['?', '.'] else ['.']) ∧
      ink (if b then ['?', '.'] else ['.']) = if b then ['?', '.'] else ['.'] := by decide
  refine ⟨hbounds.2.1, hbounds.2.2.trans hlen, List.contains_iff_mem, hink.trans (hplain _).2,
    ?_, hplain _⟩
  change _ <:+: s.between o p
  dsimp only
  split_ifs with hquestion
  · exact has_iff_isInfix.mp hquestion
  · obtain ⟨before, behind, heq⟩ := List.append_of_mem hdot
    exact ⟨before, behind, by rw [heq, List.append_assoc]; rfl⟩

/-! ### Slots -/

/-- What is written for a separator under a segment. -/
def newText (indent : Indent) (x : Segment × Separator) : Text :=
  match x.1 with
  | some column => '\n' :: indent.render column ++ x.2.delimiter
  | none => x.2.delimiter

/-- **A separator is written anew** exactly if it has to get a line break or to lose one. -/
theorem breakAs?_eq (indent : Indent) (x : Segment × Separator) :
    breakAs? indent x =
      if x.1.isSome = x.2.broken then none else some ⟨x.2.start, x.2.stop, newText indent x⟩ := by
  obtain ⟨segment, sep⟩ := x
  rw [breakAs?, newText]
  cases segment with
  | none => cases sep.broken <;> rfl
  | some column => cases sep.broken <;> rfl

/-- The separators of calls, each with its segment; a chain with a comment has none. -/
def slots (s : Source) (ps : List (Visit × List Segment)) : List (Segment × Separator) :=
  ps.flatMap fun p =>
    if (separators s (calleeMembers p.1.node)).any (·.hasComment) then []
    else p.2.zip (separators s (calleeMembers p.1.node))

theorem replayBreaks_eq_slots (s : Source) (indent : Indent) (q : SignatureQueue (List Segment)) :
    replayBreaks s indent q = (slots s (pairs s q s.root.walk)).filterMap (breakAs? indent) := by
  rw [replayBreaks_eq, slots, List.filterMap_flatMap]
  refine congrArg (List.flatMap · _) (funext fun p => ?_)
  rw [breakChain]
  split_ifs
  · rfl
  · rfl

/-- What stands between an object and its property, after changes. -/
def separatorAfter (s : Source) (edits : List Replacement) (sep : Separator) : Text :=
  (Replacement.apply s.text edits).slice
    (Replacement.stopAfter (Replacement.taken s.text edits) sep.start).toNat
    (Replacement.startAfter (Replacement.taken s.text edits) sep.stop).toNat

/-- **A separator that follows a segment** after changes: it has a line break exactly if the segment
has one, and its delimiter as before. With a new line break, the delimiter stands at the column of
the segment; where there was one as asked for, nothing is changed. -/
structure Follows (s : Source) (indent : Indent) (edits : List Replacement) (segment : Segment)
    (sep : Separator) : Prop where
  broken : '\n' ∈ separatorAfter s edits sep ↔ segment.isSome = true
  delimiter : (separatorAfter s edits sep).ink = sep.delimiter ∧
    sep.delimiter <:+: separatorAfter s edits sep
  column : ∀ column, segment = some column → sep.broken = false → ∃ blanks,
    separatorAfter s edits sep = '\n' :: blanks ++ sep.delimiter ∧
    (∀ c ∈ blanks, isIndentChar c = true) ∧
      indent.measure blanks = column
  untouched : segment.isSome = sep.broken →
    separatorAfter s edits sep = s.text.slice sep.start sep.stop

section Slots
variable {s : Source} {indent : Indent} {slots : List (Segment × Separator)}
  (hapart : slots.Pairwise fun x y => x.2.Apart y.2) (hstands : ∀ x ∈ slots, x.2.Stands s)

theorem mem_newText (indent : Indent) {x : Segment × Separator} (hx : x.2.Stands s) :
    '\n' ∈ newText indent x ↔ x.1.isSome = true := by
  rw [newText]
  cases x.1 with
  | none => simpa using hx.plain.1
  | some column => simp

theorem mem_breaks_iff {r : Replacement} : r ∈ slots.filterMap (breakAs? indent) ↔
    ∃ x ∈ slots, x.1.isSome ≠ x.2.broken ∧ r = ⟨x.2.start, x.2.stop, newText indent x⟩ := by
  simp only [List.mem_filterMap, breakAs?_eq, Option.ite_none_left_eq_some,
    Option.some.injEq, ne_eq, @eq_comm _ r]

include hstands

theorem isEffective_of_mem_breaks {r : Replacement} (hr : r ∈ slots.filterMap (breakAs? indent)) :
    r.isEffective s.text = true ∧ r.start < r.stop := by
  obtain ⟨x, hx, hne, rfl⟩ := mem_breaks_iff.mp hr
  have hsep := hstands x hx
  have hlt := hsep.nonempty
  have hlen := hsep.inRange
  refine ⟨?_, by dsimp only; omega⟩
  have hchange : s.text.slice x.2.start x.2.stop ≠ newText indent x := fun heq => by
    refine hne (Bool.eq_iff_iff.mpr ?_)
    rw [← mem_newText indent hsep, ← heq, hsep.broken]
  simp only [Replacement.isEffective, Replacement.inRange, Replacement.replaced, Int.toNat_natCast,
    Bool.and_eq_true, decide_eq_true_eq]
  exact ⟨⟨⟨by omega, by omega⟩, by omega⟩, decide_eq_true hchange⟩

include hapart

theorem pairwise_breaks (indent : Indent) :
    (slots.filterMap (breakAs? indent)).Pairwise fun r r' => r.Before r' ∨ r'.Before r := by
  rw [List.pairwise_filterMap]
  refine hapart.imp_of_mem fun {x y} hx hy hxy r hr r' hr' => ?_
  have hlt := (hstands x hx).nonempty
  have hlt' := (hstands y hy).nonempty
  rw [breakAs?_eq] at hr hr'
  obtain ⟨-, hr⟩ := Option.ite_none_left_eq_some.mp hr
  obtain ⟨-, hr'⟩ := Option.ite_none_left_eq_some.mp hr'
  cases hr
  cases hr'
  unfold Separator.Apart at hxy
  unfold Replacement.Before
  dsimp only
  omega

/-- **No change overlaps another one, and none is dropped.** -/
theorem taken_perm (indent : Indent) :
    ((slots.filterMap (breakAs? indent)).Pairwise fun r r' => ¬ r.Overlaps r') ∧
      (Replacement.taken s.text (slots.filterMap (breakAs? indent))).Perm
        (slots.filterMap (breakAs? indent)) := by
  have hpairs := pairwise_breaks hapart hstands indent
  have hnodup : (slots.filterMap (breakAs? indent)).Nodup := hpairs.imp fun {r r'} h heq => by
    subst heq
    unfold Replacement.Before at h
    omega
  have hsymm : Std.Symm fun r r' : Replacement => r.Before r' ∨ r'.Before r := ⟨fun _ _ => Or.symm⟩
  refine ⟨hpairs.imp_of_mem fun {r r'} hr hr' h => ?_, ?_⟩
  · have hlt := (isEffective_of_mem_breaks hstands hr).2
    have hlt' := (isEffective_of_mem_breaks hstands hr').2
    exact (Replacement.not_overlaps_iff (by omega) (by omega)).mpr h
  · refine (List.perm_ext_iff_of_nodup ?_ hnodup).mpr fun r => ?_
    · exact (Replacement.descending_taken _ _).imp fun {r r'} h heq => by
        subst heq
        have := h.1
        omega
    · rw [Replacement.mem_taken_of_apart fun r hr r' hr' _ _ hne => hpairs.forall hr hr' hne]
      exact and_iff_left_of_imp fun hr => (isEffective_of_mem_breaks hstands hr).1

theorem eq_or_apart {x : Segment × Separator} (hx : x ∈ slots) {r : Replacement}
    (hr : r ∈ Replacement.taken s.text (slots.filterMap (breakAs? indent))) :
    r.start < r.stop ∧ ((x.1.isSome ≠ x.2.broken ∧ r = ⟨x.2.start, x.2.stop, newText indent x⟩) ∨
      r.stop ≤ x.2.start ∨ x.2.stop ≤ r.start) := by
  have hr := (Replacement.isEffective_of_mem_taken hr).1
  have hsymm : Std.Symm fun x y : Segment × Separator => x.2.Apart y.2 := ⟨fun _ _ => Or.symm⟩
  refine ⟨(isEffective_of_mem_breaks hstands hr).2, ?_⟩
  obtain ⟨y, hy, hne, rfl⟩ := mem_breaks_iff.mp hr
  by_cases hxy : x = y
  · exact Or.inl ⟨hxy ▸ hne, by rw [hxy]⟩
  · have := hapart.forall hx hy hxy
    unfold Separator.Apart at this
    dsimp only
    omega

/-- What stands in the place of a separator, after all changes: what was written for it, or what
stood there. -/
theorem separatorAfter_eq (indent : Indent) {x : Segment × Separator} (hx : x ∈ slots) :
    separatorAfter s (slots.filterMap (breakAs? indent)) x.2 =
      if x.1.isSome = x.2.broken then s.text.slice x.2.start x.2.stop else newText indent x := by
  have hsep := hstands x hx
  have hlt := hsep.nonempty
  have hlen := hsep.inRange
  have hall := fun r (hr : r ∈ Replacement.taken s.text (slots.filterMap (breakAs? indent))) =>
    eq_or_apart hapart hstands hx hr
  have hstart := Replacement.offsets_nonneg s.text (slots.filterMap (breakAs? indent))
    (p := x.2.start) (by omega) fun r hr hcross => by
      obtain ⟨-, ⟨-, rfl⟩ | h⟩ := hall r hr
      · dsimp only at hcross
        omega
      · omega
  have hstop := Replacement.offsets_nonneg s.text (slots.filterMap (breakAs? indent))
    (p := x.2.stop) (by omega) fun r hr hcross => by
      obtain ⟨-, ⟨-, rfl⟩ | h⟩ := hall r hr
      · dsimp only at hcross
        omega
      · omega
  have ha := Int.toNat_of_nonneg hstart.1
  have hb := Int.toNat_of_nonneg hstop.2
  split_ifs with hsame
  · refine Replacement.slice_apply_kept hlt.le hlen (fun r hr => ?_) ha hb
    obtain ⟨hpos, ⟨hne, -⟩ | h⟩ := hall r hr
    · exact absurd hsame hne
    · omega
  · refine Replacement.slice_apply_put (r := ⟨x.2.start, x.2.stop, newText indent x⟩) ?_ rfl rfl
      (fun r' hr' hbefore => ?_) ha hb
    · exact (taken_perm hapart hstands indent).2.mem_iff.mpr
        (mem_breaks_iff.mpr ⟨x, hx, hsame, rfl⟩)
    · have := (hall r' hr').1
      have := hbefore.2
      omega

/-- **Every separator follows its segment.** -/
theorem follows_of_mem {x : Segment × Separator} (hx : x ∈ slots) :
    Follows s indent (slots.filterMap (breakAs? indent)) x.1 x.2 := by
  have hsep := hstands x hx
  have heq := separatorAfter_eq hapart hstands indent hx
  have hnew : (newText indent x).ink = x.2.delimiter ∧ x.2.delimiter <:+: newText indent x := by
    rw [newText]
    cases x.1 with
    | none => exact ⟨hsep.plain.2, List.infix_rfl⟩
    | some column =>
      refine ⟨?_, (List.suffix_append _ _).isInfix⟩
      dsimp only
      rw [List.cons_append, ink_cons_blank rfl, ink_append, ink_render, List.nil_append,
        hsep.plain.2]
  by_cases hsame : x.1.isSome = x.2.broken
  · rw [if_pos hsame] at heq
    refine ⟨?_, ?_, fun column hcolumn hbroken => ?_, fun _ => heq⟩
    · rw [heq, ← hsep.broken, hsame]
    · rw [heq]
      exact ⟨hsep.ink, hsep.delimiter⟩
    · rw [hcolumn, hbroken] at hsame
      cases hsame
  · rw [if_neg hsame] at heq
    refine ⟨?_, ?_, fun column hcolumn _ => ?_, fun h => absurd h hsame⟩
    · rw [heq, mem_newText indent hsep]
    · rw [heq]
      exact hnew
    · refine ⟨indent.render column, ?_, fun c hc => indent.isIndentChar_of_mem_render hc, ?_⟩
      · rw [heq, newText, hcolumn]
      · rw [Indent.measure_render, Int.toNat_natCast]

end Slots

/-! ### All calls of a source -/

theorem pairwise_zip {α β : Type} {R : β → β → Prop} : ∀ {l : List α} {l' : List β}, l'.Pairwise R →
    (l.zip l').Pairwise fun x y => R x.2 y.2
  | [], _, _ => by simp
  | _ :: _, [], _ => by simp
  | a :: l, b :: l', h => by
    obtain ⟨hfirst, hrest⟩ := List.pairwise_cons.mp h
    exact List.pairwise_cons.mpr ⟨fun x hx => hfirst x.2 (List.of_mem_zip hx).2, pairwise_zip hrest⟩

section Source
variable {s : Source} (hs : s.Regular)
include hs

theorem stands_of_mem_slots {ps : List (Visit × List Segment)}
    (hps : ∀ p ∈ ps, p.1.node ∈ s.root.nodes) {x : Segment × Separator} (hx : x ∈ slots s ps) :
    x.2.Stands s := by
  obtain ⟨p, hp, hx⟩ := List.mem_flatMap.mp hx
  split_ifs at hx with hc
  · simp at hx
  · have hsep := (List.of_mem_zip hx).2
    obtain ⟨m, hm, hmsep⟩ := List.mem_filterMap.mp hsep
    obtain ⟨h1, h2⟩ := mem_calleeMembers hm
    have hcomment : x.2.hasComment = false := by
      simpa using List.any_eq_false.mp (Bool.not_eq_true _ ▸ hc) x.2 hsep
    exact stands_of_separator? hs (Node.mem_nodes_trans h1 (hps p hp)) h2 hmsep hcomment

theorem pairwise_slots (ha : s.PlainAccesses) (hcalls : s.NoCalledCalls)
    (q : SignatureQueue (List Segment)) :
    (slots s (pairs s q s.root.walk)).Pairwise fun x y => x.2.Apart y.2 := by
  have hsub := pairs_sublist s s.root.walk q
  have hnode : ∀ p ∈ pairs s q s.root.walk, p.1.node ∈ s.root.nodes := fun p hp =>
    Node.mem_nodes_of_mem_walk (hsub.subset (List.mem_map_of_mem hp))
  have hlater : (pairs s q s.root.walk).Pairwise fun p p' => s.VisitedLater p.1 p'.1 :=
    List.pairwise_map.mp ((Source.pairwise_walkFrom hs.wellFormed (v := ⟨s.root, []⟩)
      (Node.mem_nodes_self s.root)).sublist hsub)
  have hmem : ∀ (p : Visit × List Segment) (x : Segment × Separator),
      x ∈ (if (separators s (calleeMembers p.1.node)).any (·.hasComment) then []
        else p.2.zip (separators s (calleeMembers p.1.node))) →
          x.2 ∈ separators s (calleeMembers p.1.node) := by
    intro p x hx
    split_ifs at hx
    · simp at hx
    · exact (List.of_mem_zip hx).2
  rw [slots, List.pairwise_flatMap]
  refine ⟨fun p hp => ?_, hlater.imp_of_mem fun {p p'} hp hp' h x hx y hy => ?_⟩
  · have hkind : p.1.node.kind = "call_expression" := by
      simpa using (Bool.and_eq_true_iff.mp (isOutermostCall_of_mem_pairs hp)).1
    split_ifs
    · exact List.Pairwise.nil
    · exact pairwise_zip (pairwise_separators hs ha (hnode p hp) hkind)
  · exact apart_chains hs ha hcalls (hnode p hp) (hnode p' hp') h (isOutermostCall_of_mem_pairs hp)
      (isOutermostCall_of_mem_pairs hp') (hmem p x hx) (hmem p' y hy)

/-- **A replay reproduces the line breaks of a reference.** No two of its changes overlap, and all
are carried out. Where the walk has passed `earlier` and comes to an outermost call, the call is
paired with the layout of its signature that as many precede as there were calls of that signature.
If the layout has as many segments as the chain of the call has separators, none of them with a
comment, then each separator follows its segment. -/
theorem follows_replayBreaks (ha : s.PlainAccesses) (hcalls : s.NoCalledCalls) (reference : Source)
    (indent : Indent) :
    let edits := replayBreaks s indent (layouts reference indent)
    (edits.Pairwise fun r r' => ¬ r.Overlaps r') ∧ (Replacement.taken s.text edits).Perm edits ∧
      ∀ (earlier : List Visit) (v : Visit) (later : List Visit) (segments : List Segment),
        s.root.walk = earlier ++ v :: later → isOutermostCall v = true →
        (recorded reference indent (v.node.signature s.text.encode))[
          callCount s (v.node.signature s.text.encode) earlier]? = some segments →
        segments.length = (separators s (calleeMembers v.node)).length →
        (∀ sep ∈ separators s (calleeMembers v.node), sep.hasComment = false) →
        List.Forall₂ (Follows s indent edits) segments (separators s (calleeMembers v.node)) := by
  intro edits
  have hedits : edits = _ := replayBreaks_eq_slots s indent (layouts reference indent)
  have hnode : ∀ p ∈ pairs s (layouts reference indent) s.root.walk, p.1.node ∈ s.root.nodes :=
    fun p hp =>
    Node.mem_nodes_of_mem_walk ((pairs_sublist s s.root.walk _).subset (List.mem_map_of_mem hp))
  have hapart := pairwise_slots hs ha hcalls (layouts reference indent)
  have hstands : ∀ x ∈ slots s (pairs s (layouts reference indent) s.root.walk), x.2.Stands s :=
    fun x hx =>
    stands_of_mem_slots hs hnode hx
  obtain ⟨hoverlap, hperm⟩ := taken_perm hapart hstands indent
  rw [hedits]
  refine ⟨hoverlap, hperm, fun earlier v later segments hwalk hcall hpaired hlength hcomment => ?_⟩
  have hpair : (v, segments) ∈ pairs s (layouts reference indent) s.root.walk := by
    rw [hwalk]
    exact mem_pairs hcall (by rw [waiting_layouts]; exact hpaired)
  refine List.forall₂_iff_zip.mpr ⟨hlength, fun {segment sep} hzip => ?_⟩
  refine follows_of_mem (x := (segment, sep)) hapart hstands ?_
  refine List.mem_flatMap.mpr ⟨(v, segments), hpair, ?_⟩
  rw [if_neg (by simpa using hcomment)]
  exact hzip

end Source

/-- A call of two links, with the dots at `a` and `b`. -/
def chainedCall (a b : Nat) : Node :=
  .construct 2 "call_expression" 0 (b + 4) none
    [.construct 3 "member_expression" 0 (b + 2) (some .function)
        [.construct 4 "member_expression" 0 (a + 2) (some .object)
            [.construct 5 "identifier" 0 1 (some .object) [], .token 6 "." a (a + 1),
              .construct 7 "property_identifier" (a + 1) (a + 2) (some .property) []],
          .token 8 "." b (b + 1), .construct 9 "property_identifier" (b + 1) (b + 2)
            (some .property) []], .construct 10 "arguments" (b + 2) (b + 4) (some .arguments)
        [.token 11 "(" (b + 2) (b + 3), .token 12 ")" (b + 3) (b + 4)]]

/-- The statement of the call. -/
def chainedStatement (a b : Nat) : Node :=
  .construct 1 "expression_statement" 0 (b + 5) none [chainedCall a b,
    .token 13 ";" (b + 4) (b + 5)]

/-- A text of one such statement. -/
def chained (text : String) (a b : Nat) : Source :=
  ⟨text.toList, .construct 0 "program" 0 (b + 6) none [chainedStatement a b], false⟩

/-- The first dot goes to a new line, at the column of the reference, and the second one back to the
line before. The result is the reference. -/
theorem follows_replayBreaks_chained :
    let s := chained "p.a\n.b();\n" 1 4
    let reference := chained "p\n\t.a.b();\n" 3 5
    let edits := replayBreaks s ⟨.tab, 4⟩ (layouts reference ⟨.tab, 4⟩)
    s.Regular ∧ s.PlainAccesses ∧ s.NoCalledCalls ∧
      Replacement.apply s.text edits = reference.text ∧
      List.Forall₂ (Follows s ⟨.tab, 4⟩ edits) [some 4, none]
        (separators s (calleeMembers (chainedCall 1 4))) := by
  intro s reference edits
  have hs : s.Regular := by decide +kernel
  have ha : s.PlainAccesses := by decide +kernel
  have hcalls : s.NoCalledCalls := by decide +kernel
  have hedits : edits = [⟨1, 2, "\n\t.".toList⟩, ⟨3, 5, ".".toList⟩] := by decide +kernel
  let v : Visit := ⟨chainedCall 1 4, [chainedStatement 1 4, s.root]⟩
  have hwalk : s.root.walk =
      [⟨s.root, []⟩, ⟨chainedStatement 1 4, [s.root]⟩] ++ v :: Node.walkFrom v.next := by
    rw [Node.walk, Node.walkFrom]
    change _ :: Node.walkFrom [⟨chainedStatement 1 4, [s.root]⟩] = _
    rw [Node.walkFrom]
    change _ :: _ :: Node.walkFrom [v] = _
    rw [Node.walkFrom, List.append_nil]
    rfl
  obtain ⟨-, -, hfollows⟩ := follows_replayBreaks hs ha hcalls reference ⟨.tab, 4⟩
  refine ⟨hs, ha, hcalls, ?_,
    hfollows _ v _ _ hwalk (by decide +kernel) (by decide +kernel) (by decide +kernel)
    (by decide +kernel)⟩
  rw [hedits, Replacement.apply, Replacement.taken,
    Replacement.candidates_eq_of_perm (l := [⟨3, 5, ".".toList⟩, ⟨1, 2, "\n\t.".toList⟩])
      (by decide +kernel) (by decide)]
  decide +kernel

end MemberChains

end HouseStyle
