import HouseStyle.Proofs.Restyle.Separators

/-! # The chains of outermost calls

A chain goes from a call down through callees and objects. An outermost call that stands below
another one stands beside the chain of that one: at the first node where it leaves the chain it is
in an argument, in a property, or elsewhere, and no call on the way is itself an outermost call, if
no call is called directly. So no access belongs to the chains of two outermost calls
(`ne_of_later`), nor twice to one chain (`nodup_spine`), and the separators of all chains are apart
(`apart_chains`, `pairwise_separators`). -/

namespace HouseStyle

namespace Node

theorem size_le_of_mem_nodes {m n : Node} (h : m ∈ n.nodes) : m.size ≤ n.size := by
  rcases mem_nodes_iff.mp h with rfl | ⟨c, hc, hm⟩
  · exact le_rfl
  · exact (size_le_of_mem_nodes hm).trans (size_lt_of_mem hc).le
termination_by n.size
decreasing_by exact size_lt_of_mem hc

end Node

namespace Source

open Node (Visit walkFrom)

/-- Whether no call of a source has a call as its callee. -/
def NoCalledCalls (s : Source) : Prop :=
  ∀ n ∈ s.root.nodes, n.kind = "call_expression" →
    ∀ f ∈ n.child? .function, f.kind ≠ "call_expression"

instance (s : Source) : Decidable s.NoCalledCalls := by unfold NoCalledCalls; infer_instance

/-- A visit of what stands below another visit, or of a node that starts where the other one has
ended. -/
def VisitedLater (s : Source) (u v : Visit) : Prop :=
  (∃ w ∈ u.next, v ∈ walkFrom [w]) ∨ s.stop u.node ≤ s.start v.node

theorem pairwise_walkFrom {s : Source} (hs : s.WellFormed) {v : Visit}
    (hv : v.node ∈ s.root.nodes) :
    (walkFrom [v]).Pairwise s.VisitedLater := by
  have hchild : ∀ w ∈ v.next, w.node ∈ v.node.children ∧ w.node ∈ s.root.nodes := by
    intro w hw
    obtain ⟨c, hc, rfl⟩ := List.mem_map.mp hw
    have hcn := (List.mem_filter.mp hc).1
    exact ⟨hcn, Node.mem_nodes_trans (Node.mem_nodes_of_mem_children hcn) hv⟩
  have hnext : v.next.Pairwise fun x y => s.stop x.node ≤ s.start y.node :=
    List.pairwise_map.mpr ((pairwise_children hs hv).filter _)
  have hbounds : ∀ w ∈ v.next, ∀ x ∈ walkFrom [w],
      s.start w.node ≤ s.start x.node ∧ s.stop x.node ≤ s.stop w.node := by
    intro w hw x hx
    obtain ⟨w', hw', hxw⟩ := Node.mem_nodes_of_mem_walkFrom hx
    obtain rfl := List.mem_singleton.mp hw'
    exact bounds_of_mem_nodes hs (hchild w' hw).2 hxw
  rw [Node.walkFrom_singleton, List.pairwise_cons, List.pairwise_flatMap]
  refine ⟨fun w hw => Or.inl (List.mem_flatMap.mp hw), fun w hw => ?_, ?_⟩
  · exact pairwise_walkFrom hs (hchild w hw).2
  · refine hnext.imp_of_mem fun {x y} hx hy hxy u hu w hw => Or.inr ?_
    have hu' := hbounds x hx u hu
    have hw' := hbounds y hy w hw
    omega
termination_by v.node.size
decreasing_by exact Node.size_lt_of_mem (hchild w hw).1

end Source

namespace MemberChains

open Node (Visit walkFrom)

/-! ### Spines -/

theorem calleeMembers_eq {n : Node} (hk : n.kind = "call_expression") :
    calleeMembers n = (spine n).reverse := by
  rw [spine_eq, if_pos hk, calleeMembers]
  cases n.child? .function with
  | none => rfl
  | some f => rfl

/-- **Where the members of a spine stand**: at the node itself, or in the spine of its callee or its
object. -/
theorem mem_spine_cases {m n : Node} (h : m ∈ spine n) :
    (m = n ∧ n.kind = "member_expression") ∨
    (∃ f, n.kind = "call_expression" ∧ n.child? .function = some f ∧ m ∈ spine f) ∨
    ∃ o, isMember n = true ∧ n.child? .object = some o ∧ m ∈ spine o := by
  rw [spine_eq] at h
  split_ifs at h with hcall hmember
  · cases hf : n.child? .function with
    | none => simp [hf] at h
    | some f => exact Or.inr (Or.inl ⟨f, hcall, rfl, by simpa [hf] using h⟩)
  · rcases List.mem_cons.mp h with rfl | h
    · exact Or.inl ⟨rfl, by simpa [isMember] using hmember⟩
    · cases ho : n.child? .object with
      | none => simp [ho] at h
      | some o => exact Or.inr (Or.inr ⟨o, hmember, rfl, by simpa [ho] using h⟩)
  · simp at h

theorem nodup_spine (n : Node) : (spine n).Nodup := by
  rw [spine_eq]
  split_ifs
  · cases hf : n.child? .function with
    | none => exact List.nodup_nil
    | some f =>
      have := Node.size_lt_of_child? hf
      exact nodup_spine f
  · cases ho : n.child? .object with
    | none => exact List.nodup_singleton n
    | some o =>
      have hlt := Node.size_lt_of_child? ho
      refine List.nodup_cons.mpr ⟨fun hmem => ?_, nodup_spine o⟩
      have := Node.size_le_of_mem_nodes (mem_spine hmem).1
      omega
  · exact List.nodup_nil
termination_by n.size

/-! ### Calls below calls -/

section Source
variable {s : Source} (hs : s.WellFormed) (hcalls : s.NoCalledCalls)
include hs

theorem eq_of_mem_children {m n c d : Node} (hn : n ∈ s.root.nodes) (hc : c ∈ n.children)
    (hd : d ∈ n.children) (hmc : m ∈ c.nodes) (hmd : m ∈ d.nodes) (hpos : s.start m < s.stop m) :
    c = d := by
  by_contra hne
  have hmem : ∀ {x}, x ∈ n.children → x ∈ s.root.nodes := fun hx =>
    Node.mem_nodes_trans (Node.mem_nodes_of_mem_children hx) hn
  have h1 := Source.bounds_of_mem_nodes hs (hmem hc) hmc
  have h2 := Source.bounds_of_mem_nodes hs (hmem hd) hmd
  have := Source.apart_children hs hn hc hd hne
  omega

include hcalls

/-- **An outermost call below a node is beside its spine**: no access on the spine stands below the
call. The induction goes along the spine. -/
theorem notMem_nodes_of_mem_spine {m : Node} {u v w : Visit} (hu : u.node ∈ s.root.nodes)
    (hw : w ∈ u.next) (hv : v ∈ walkFrom [w]) (hcall : isOutermostCall v = true)
    (hpos : s.start m < s.stop m) (hm : m ∈ spine u.node) : m ∉ v.node.nodes := by
  intro hmv
  obtain ⟨c, hc, rfl⟩ := List.mem_map.mp hw
  have hcn := (List.mem_filter.mp hc).1
  have hvc : v.node ∈ c.nodes := by
    obtain ⟨w', hw', hvw⟩ := Node.mem_nodes_of_mem_walkFrom hv
    obtain rfl := List.mem_singleton.mp hw'
    exact hvw
  have hkind : v.node.kind = "call_expression" := by
    simpa using (Bool.and_eq_true_iff.mp hcall).1
  rw [Node.walkFrom_singleton, List.mem_cons, List.mem_flatMap] at hv
  rcases mem_spine_cases hm with ⟨rfl, -⟩ | ⟨f, hk, hf, hmf⟩ | ⟨o, hk, ho, hmo⟩
  · -- the node itself is too large to stand below the call
    have h1 := Node.size_le_of_mem_nodes (Node.mem_nodes_trans hmv hvc)
    have h2 := Node.size_lt_of_mem hcn
    omega
  · obtain rfl := eq_of_mem_children hs hu hcn (Node.mem_children_of_child? hf)
      (Node.mem_nodes_trans hmv hvc)
      (mem_spine hmf).1 hpos
    rcases hv with rfl | ⟨w', hw', hv⟩
    · exact hcalls u.node hu hk c hf hkind
    · exact notMem_nodes_of_mem_spine (u := ⟨c, u.node :: u.ancestors⟩)
        (Node.mem_nodes_trans (Node.mem_nodes_of_mem_children hcn) hu) hw' hv hcall hpos hmf hmv
  · obtain rfl := eq_of_mem_children hs hu hcn (Node.mem_children_of_child? ho)
      (Node.mem_nodes_trans hmv hvc)
      (mem_spine hmo).1 hpos
    rcases hv with rfl | ⟨w', hw', hv⟩
    · -- a call that is the object of an access is not outermost
      have hchild : u.node.isChild .object c = true := by simp [Node.isChild, ho, Node.same]
      simp [isOutermostCall, Visit.parent?, hk, hchild] at hcall
    · exact notMem_nodes_of_mem_spine (u := ⟨c, u.node :: u.ancestors⟩)
        (Node.mem_nodes_trans (Node.mem_nodes_of_mem_children hcn) hu) hw' hv hcall hpos hmo hmv
termination_by u.node.size
decreasing_by all_goals exact Node.size_lt_of_mem hcn

/-- **No access belongs to the chains of two outermost calls.** -/
theorem ne_of_later {u v : Visit} (hu : u.node ∈ s.root.nodes) (hv : v.node ∈ s.root.nodes)
    (hlater : s.VisitedLater u v) (hcall : isOutermostCall v = true) {m m' : Node}
    (hm : m ∈ spine u.node) (hm' : m' ∈ spine v.node) (hpos : s.start m < s.stop m) : m ≠ m' := by
  rintro rfl
  have hmv := (mem_spine hm').1
  rcases hlater with ⟨w, hw, hvw⟩ | hbehind
  · exact notMem_nodes_of_mem_spine hs hcalls hu hw hvw hcall hpos hm hmv
  · have h1 := Source.bounds_of_mem_nodes hs hu (mem_spine hm).1
    have h2 := Source.bounds_of_mem_nodes hs hv hmv
    omega

end Source

/-! ### Separators of chains -/

/-- Two separators of which one ends before the other starts. -/
def Separator.Apart (sep sep' : Separator) : Prop := sep.stop ≤ sep'.start ∨ sep'.stop ≤ sep.start

section Chains
variable {s : Source} (hs : s.Regular) (ha : s.PlainAccesses)
include hs ha

theorem pairwise_separators {n : Node} (hn : n ∈ s.root.nodes) (hk : n.kind = "call_expression") :
    (separators s (calleeMembers n)).Pairwise Separator.Apart := by
  rw [separators, List.pairwise_filterMap, calleeMembers_eq hk]
  refine (List.nodup_reverse.mpr (nodup_spine n)).imp_of_mem
    fun {m m'} hm hm' hne sep hsep sep' hsep' => ?_
  obtain ⟨h1, h2⟩ := mem_spine (List.mem_reverse.mp hm)
  obtain ⟨h1', h2'⟩ := mem_spine (List.mem_reverse.mp hm')
  exact apart_separators hs ha (Node.mem_nodes_trans h1 hn) h2 (Node.mem_nodes_trans h1' hn) h2'
    hne hsep hsep'

theorem apart_chains (hcalls : s.NoCalledCalls) {u v : Visit} (hu : u.node ∈ s.root.nodes)
    (hv : v.node ∈ s.root.nodes) (hlater : s.VisitedLater u v) (hcall : isOutermostCall u = true)
    (hcall' : isOutermostCall v = true) {sep sep' : Separator}
    (hsep : sep ∈ separators s (calleeMembers u.node))
    (hsep' : sep' ∈ separators s (calleeMembers v.node)) : sep.Apart sep' := by
  have hkind : ∀ {x : Visit}, isOutermostCall x = true → x.node.kind = "call_expression" :=
    fun h => by
    simpa using (Bool.and_eq_true_iff.mp h).1
  obtain ⟨m, hm, hmsep⟩ := List.mem_filterMap.mp hsep
  obtain ⟨m', hm', hmsep'⟩ := List.mem_filterMap.mp hsep'
  rw [calleeMembers_eq (hkind hcall), List.mem_reverse] at hm
  rw [calleeMembers_eq (hkind hcall'), List.mem_reverse] at hm'
  obtain ⟨h1, h2⟩ := mem_spine hm
  obtain ⟨h1', h2'⟩ := mem_spine hm'
  have hroot := Node.mem_nodes_trans h1 hu
  have hbounds := bounds_of_separator? hs.wellFormed hroot hmsep
  have hne := ne_of_later hs.wellFormed hcalls hu hv hlater hcall' hm hm' (by omega)
  exact apart_separators hs ha hroot h2 (Node.mem_nodes_trans h1' hv) h2' hne hmsep hmsep'

end Chains

end MemberChains

end HouseStyle
