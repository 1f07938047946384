import HouseStyle.Proofs.Restyle.BareText
import HouseStyle.Proofs.Restyle.ContinuationLines
import HouseStyle.Proofs.Tree.Twins

/-! # Continuation lines in two trees

A pass over continuation lines writes inside of separators only (`gap_of_mem_edits`), so where the
tree is carried along, objects end and properties start at places with the same bare text before
them (`bare_between`). What makes a line a continuation line can be seen there: the line break and
the delimiter between the two, comments along the chain, and that the delimiter opens its line. So a
line that is one after a pass was one before it (`opens_of_twin`).

The chain of an access is found through the numbers of nodes, which may be others in the second
tree, as long as they tell the same nodes apart (`alike_chainTop`). -/

namespace HouseStyle.MemberChains

open HouseStyle.Text
open Node (Visit Alike AlikeVisits)

/-! ### Chains -/

section Alike
variable {R : Node → Node → Prop} {f : Nat → Nat} (hf : Function.Injective f)
  (hid : ∀ m m', R m m' → m'.id = f m.id)

theorem isMember_of_alike {n n' : Node} (h : Alike R n n') : isMember n' = isMember n := by
  rw [isMember, isMember, h.label.kind]

include hf hid in
theorem isChild_of_alike {p p' n n' : Node} (hp : Alike R p p') (hn : Alike R n n') (g : Field) :
    p'.isChild g n' = p.isChild g n := by
  cases hc : p.child? g with
  | none => rw [Node.isChild, Node.isChild, hc, hp.child?_eq_none hc]
  | some c =>
    obtain ⟨c', hc', halike⟩ := hp.exists_child hc
    rw [Node.isChild, Node.isChild, hc, hc', Bool.eq_iff_iff]
    simp only [Node.same, beq_iff_eq, hid _ _ halike.rel, hid _ _ hn.rel, hf.eq_iff]

include hf hid in
/-- **Chains end at twins.** -/
theorem alike_chainTop {as as' : List Node} (has : List.Forall₂ (Alike R) as as') {n n' : Node}
    (h : Alike R n n') :
    Alike R (chainTop n as) (chainTop n' as') := by
  induction has generalizing n n' with
  | nil => exact h
  | cons hp _ ih =>
    rw [chainTop, chainTop, isMember_of_alike hp, isChild_of_alike hf hid hp h,
      isChild_of_alike hf hid hp h, hp.label.kind]
    split_ifs
    · exact ih hp
    · exact ih hp
    · exact h

theorem alike_spine {n n' : Node} (h : Alike R n n') :
    List.Forall₂ (Alike R) (spine n) (spine n') := by
  rw [spine_eq, spine_eq n', h.label.kind, isMember_of_alike h]
  split_ifs
  · cases hc : n.child? .function with
    | none =>
      rw [h.child?_eq_none hc]
      exact .nil
    | some c =>
      obtain ⟨c', hc', halike⟩ := h.exists_child hc
      have := Node.size_lt_of_child? hc
      rw [hc']
      exact alike_spine halike
  · refine .cons h ?_
    cases hc : n.child? .object with
    | none =>
      rw [h.child?_eq_none hc]
      exact .nil
    | some c =>
      obtain ⟨c', hc', halike⟩ := h.exists_child hc
      have := Node.size_lt_of_child? hc
      rw [hc']
      exact alike_spine halike
  · exact .nil
termination_by n.size

end Alike

/-! ### Where a pass writes -/

theorem rowAt_lt_of_broken {s : Source} {o p : Node} (h : '\n' ∈ s.between o p) :
    s.text.rowAt (s.stop o) < s.row p := by
  have hcount := List.count_pos_iff.mpr h
  rw [Source.between] at hcount
  rw [Source.row, rowAt_add s.text (stop_lt_start h).le]
  omega

theorem Opens.kind {s : Source} {v : Visit} {o p : Node} (h : Opens s v o p) :
    v.node.kind = "member_expression" := by simpa [isMember] using h.member

section Edits
variable {s : Source} {indent : Indent} {extra : Nat} {r : Replacement}

/-- **A pass writes inside of separators.** -/
theorem gap_of_mem_edits (h : r ∈ edits indent extra s) : ∃ v ∈ s.root.walk, ∃ o p, Opens s v o p ∧
    s.stop o < r.start ∧ r.start ≤ r.stop ∧ r.stop < s.start p := by
  obtain ⟨v, hv, o, p, hopens, -, rfl⟩ := mem_edits_iff.mp h
  have h1 := s.lt_lineStart (rowAt_lt_of_broken hopens.broken)
  have h2 := hopens.before
  exact ⟨v, hv, o, p, hopens, by dsimp only; omega, by dsimp only; omega, by dsimp only; omega⟩

theorem reindents_edits (indent : Indent) (extra : Nat) (s : Source) :
    ∀ r ∈ edits indent extra s, ∃ row, r.Reindents s row := fun r hr => by
  obtain ⟨row, hrow, -⟩ := reindents_of_mem_edits hr
  exact ⟨row, hrow⟩

end Edits

section Regular
variable {s : Source} (hs : s.Regular)
include hs

theorem stop_le_start {n o p : Node} (hn : n ∈ s.root.nodes) (hk : n.kind = "member_expression")
    (ho : n.child? .object = some o) (hp : n.child? .property = some p) : s.stop o ≤ s.start p := by
  obtain ⟨o', d, p', hsolid, ho', hp', -⟩ := hs.wellFormed.member_children hs.wellShaped hn hk
  have hpairs : n.solid.Pairwise fun x y => s.stop x ≤ s.start y :=
    (Source.pairwise_children hs.wellFormed hn).filter _
  rw [hsolid] at hpairs
  rw [ho] at ho'
  rw [hp] at hp'
  cases ho'
  cases hp'
  exact (List.pairwise_cons.mp hpairs).1 p (by simp)

theorem clear_of_member (ha : s.PlainAccesses) {indent : Indent} {extra : Nat} {n o p : Node}
    (hn : n ∈ s.root.nodes) (hk : n.kind = "member_expression") (ho : n.child? .object = some o)
    (hp : n.child? .property = some p) {r : Replacement}
    (hr : r ∈ Replacement.taken s.text (edits indent extra s)) :
    (r.stop ≤ s.start p ∨ s.start p < r.start) ∧ (r.stop < s.stop o ∨ s.stop o ≤ r.start) := by
  obtain ⟨v, hv, o', p', hopens, h1, h2, h3⟩ :=
    gap_of_mem_edits (Replacement.isEffective_of_mem_taken hr).1
  have hle := stop_le_start hs hn hk ho hp
  by_cases heq : v.node = n
  · have ho' := hopens.object
    have hp' := hopens.property
    rw [heq, ho] at ho'
    rw [heq, hp] at hp'
    cases ho'
    cases hp'
    omega
  · have := apart_parts hs ha (Node.mem_nodes_of_mem_walk hv) hopens.kind hn hk heq hopens.object
      hopens.property ho hp
    omega

end Regular

/-! ### One pass -/

section Step
variable {s s' : Source} {indent : Indent} {extra : Nat} {f : Nat → Nat} (hs : s.Regular)
  (ha : s.PlainAccesses)
  (htext : s'.text = Replacement.apply s.text (edits indent extra s))
include hs ha htext

theorem bare_of_parts {n o p o' p' : Node} (hn : n ∈ s.root.nodes)
    (hk : n.kind = "member_expression") (ho : n.child? .object = some o)
    (hp : n.child? .property = some p) (hoo : s.Twins (edits indent extra s) f s' o o')
    (hpp : s.Twins (edits indent extra s) f s' p p') :
    bare (s'.text.take (s'.start p')) = bare (s.text.take (s.start p)) ∧
      bare (s'.text.take (s'.stop o')) = bare (s.text.take (s.stop o)) := by
  have hblank := Replacement.blanks_of_reindents (reindents_edits indent extra s)
  have hclear := fun r (hr : r ∈ Replacement.taken s.text (edits indent extra s)) =>
    clear_of_member hs ha hn hk ho hp hr
  refine ⟨Replacement.bare_take_start htext hblank hpp.moved ?_ fun r hr => (hclear r hr).1,
    Replacement.bare_take_stop htext hblank hoo.moved ?_ fun r hr => (hclear r hr).2⟩
  · exact charOffset_le_of_boundary (hs.wellFormed p hpp.mem).boundary.1
  · exact charOffset_le_of_boundary (hs.wellFormed o hoo.mem).boundary.2

/-- **The bare text of a separator stays.** -/
theorem bare_between {n n' o p o' p' : Node} (hn : Alike (s.Twins (edits indent extra s) f s') n n')
    (hk : n.kind = "member_expression") (ho : n.child? .object = some o)
    (hp : n.child? .property = some p) (hoo : Alike (s.Twins (edits indent extra s) f s') o o')
    (hpp : Alike (s.Twins (edits indent extra s) f s') p p') :
    bare (s'.between o' p') = bare (s.between o p) := by
  obtain ⟨hstart, hstop⟩ := bare_of_parts hs ha htext hn.rel.mem hk ho hp hoo.rel hpp.rel
  rw [Source.between, Source.between, bare_slice, bare_slice, hstart, hstop]

theorem hasComment_of_twin (hs' : s'.Regular) {n n' : Node}
    (hn : Alike (s.Twins (edits indent extra s) f s') n n') (hk : n.kind = "member_expression")
    {sep : Separator} (h : separator? s n = some sep) (hc : sep.hasComment = true) :
    ∃ sep', separator? s' n' = some sep' ∧
      sep'.hasComment = true := by
  obtain ⟨o, p, ho, hp, hdot, rfl⟩ := of_separator? h
  obtain ⟨o', ho', hoo⟩ := hn.exists_child ho
  obtain ⟨p', hp', hpp⟩ := hn.exists_child hp
  have hbare := bare_between hs ha htext hn hk ho hp hoo hpp
  have hmem : ∀ c, isIndentChar c = false → c ∈ s.between o p → c ∈ s'.between o' p' :=
    fun c hsolid hc =>
    (mem_bare.mp (hbare ▸ mem_bare.mpr ⟨hc, hsolid⟩)).1
  have hslash : '/' ∈ s.between o p := by
    rcases hasCommentMark_iff.mp hc with h | h
    · exact h.subset (by simp)
    · exact h.subset (by simp)
  refine ⟨_, (separator?_eq ho' hp').trans (if_pos (hmem '.' (by decide) hdot)), ?_⟩
  -- without a comment the separator would hold nothing but its delimiter
  by_contra hno
  have hink :=
    Source.ink_between_member hs' hn.rel.mem_right (hn.label.kind.trans hk) ho' hp'
      (by simpa using hno)
  have hslash' : '/' ∈ (s'.between o' p').ink :=
    mem_ink.mpr ⟨hmem '/' (by decide) hslash, by decide⟩
  rw [hink] at hslash'
  split_ifs at hslash' <;> simp at hslash'

theorem plain_of_twin (hs' : s'.Regular) (hf : Function.Injective f) {v v' : Visit}
    (hv : AlikeVisits (s.Twins (edits indent extra s) f s') v v')
    (h : (separators s' (spineMembers (chainTop v'.node v'.ancestors))).any
      (·.hasComment) = false) :
    (separators s (spineMembers (chainTop v.node v.ancestors))).any (·.hasComment) = false := by
  have hspine := alike_spine (alike_chainTop hf (fun _ _ ht => ht.id) hv.ancestors hv.node)
  refine List.any_eq_false.mpr fun sep hsep hc => ?_
  obtain ⟨m, hm, hmsep⟩ := List.mem_filterMap.mp hsep
  obtain ⟨m', hm', hmm⟩ := exists_of_forall₂ (R := flip _) hspine.flip (List.mem_reverse.mp hm)
  obtain ⟨sep', hsep', hc'⟩ :=
    hasComment_of_twin hs ha htext hs' hmm (mem_spine (List.mem_reverse.mp hm)).2 hmsep hc
  refine List.any_eq_false.mp h sep' (List.mem_filterMap.mpr ⟨m', List.mem_reverse.mpr hm', hsep'⟩)
    hc'

/-- **A continuation line was one before the pass**, with the twins of its object and its property.
-/
theorem opens_of_twin (hs' : s'.Regular) (hf : Function.Injective f) {v v' : Visit}
    (hv : AlikeVisits (s.Twins (edits indent extra s) f s') v v') {o' p' : Node}
    (h : Opens s' v' o' p') :
    ∃ o p, Opens s v o p ∧ Alike (s.Twins (edits indent extra s) f s') o o' ∧
      s'.row p' = s.row p := by
  obtain ⟨o, ho, hoo⟩ := hv.node.exists_child_left h.object
  obtain ⟨p, hp, hpp⟩ := hv.node.exists_child_left h.property
  have hmember : isMember v.node = true := (isMember_of_alike hv.node).symm.trans h.member
  have hk : v.node.kind = "member_expression" := by simpa [isMember] using hmember
  have hbare := bare_between hs ha htext hv.node hk ho hp hoo hpp
  have hmem : ∀ c, isIndentChar c = false → c ∈ s'.between o' p' → c ∈ s.between o p :=
    fun c hsolid hc =>
    (mem_bare.mp (hbare ▸ mem_bare.mpr ⟨hc, hsolid⟩)).1
  obtain ⟨hstart, -⟩ := bare_of_parts hs ha htext hv.node.rel.mem hk ho hp hoo.rel hpp.rel
  have hlen : s.start p ≤ s.text.length :=
    charOffset_le_of_boundary (hs.wellFormed p hpp.rel.mem).boundary.1
  have hlen' : s'.start p' ≤ s'.text.length := charOffset_le_of_boundary hpp.rel.moved.boundary.1
  have hrow : s'.row p' = s.row p := by
    rw [Source.row, Source.row, rowAt, rowAt, ← count_bare, hstart, count_bare]
  have hbefore : bare (s'.beforeNode p') = bare (s.beforeNode p) := by
    rw [s'.beforeNode_eq_lastLine hlen', s.beforeNode_eq_lastLine hlen, ← lastLine_bare,
      ← lastLine_bare, hstart]
  have hline : (s'.line (s.row p)).afterIndent = (s.line (s.row p)).afterIndent := by
    rw [Source.line, Source.lines, htext]
    exact Replacement.afterIndent_line (reindents_edits indent extra s) _
  have hbroken := hmem '\n' (by decide) h.broken
  have hdot := hmem '.' (by decide) h.dot
  refine ⟨o, p, ⟨hmember, ho, hp, hdot, hbroken, plain_of_twin hs ha htext hs' hf hv h.plain, ?_,
    ?_, ?_⟩, hoo, hrow⟩
  · rw [← hline, ← hrow]
    exact h.opens
  · have := s.lt_lineStart (rowAt_lt_of_broken hbroken)
    omega
  · rw [Source.lineIndent_lt_start_iff hlen, ← hbefore, ← Source.lineIndent_lt_start_iff hlen']
    exact h.before

end Step

end HouseStyle.MemberChains
