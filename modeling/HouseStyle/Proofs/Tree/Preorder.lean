import HouseStyle.Proofs.Tree.WellFormed
import Mathlib.Data.List.Basic
import Mathlib.Data.List.Pairwise

/-! # Walks in preorder

A walk keeps a list of pending visits, but what it visits can be said without one: a node, and then
what the walks of its named children visit (`walkNodes_eq`). In a well-formed source this fixes how
the ranges of two visited nodes lie: the later node stands below the earlier one, or it starts where
that one has ended (`pairwise_walkNodes`, `later_or_later`). -/

namespace HouseStyle

namespace Node

theorem walkFrom_append : ∀ (pending rest : List Visit),
    walkFrom (pending ++ rest) = walkFrom pending ++ walkFrom rest
  | [], rest => by simp [walkFrom]
  | v :: pending, rest => by
    rw [List.cons_append, walkFrom, walkFrom, ← List.append_assoc,
      walkFrom_append (v.next ++ pending) rest]
    rfl
termination_by pending => sizeAll (pending.map (·.node))
decreasing_by
  have := sizeAll_next v
  rw [List.map_append, sizeAll_append, List.map_cons, sizeAll_cons]
  omega

theorem walkFrom_eq_flatMap : ∀ pending : List Visit,
    walkFrom pending = pending.flatMap fun v => walkFrom [v]
  | [] => by simp [walkFrom]
  | v :: pending => by
    rw [← List.singleton_append, walkFrom_append, walkFrom_eq_flatMap pending]
    rfl

theorem walkFrom_singleton (v : Visit) :
    walkFrom [v] = v :: v.next.flatMap fun w => walkFrom [w] := by
  rw [walkFrom, List.append_nil, walkFrom_eq_flatMap]

theorem nodes_walkFrom (n : Node) (ancestors : List Node) :
    (walkFrom [⟨n, ancestors⟩]).map (·.node) = n.walkNodes := by
  have hbelow : ∀ ancestors' : List Node, (walkFrom [⟨n, ancestors'⟩]).map (·.node) =
      n :: n.namedChildren.flatMap walkNodes := by
    intro ancestors'
    rw [walkFrom_singleton, List.map_cons, Visit.next, List.flatMap_map, List.map_flatMap]
    congr 1
    refine List.flatMap_congr fun c hc => ?_
    exact nodes_walkFrom c (n :: ancestors')
  rw [walkNodes, walk, hbelow, hbelow]
termination_by n.size
decreasing_by exact size_lt_of_mem (List.mem_filter.mp hc).1

/-- **A walk visits a node and then walks its named children.** -/
theorem walkNodes_eq (n : Node) : n.walkNodes = n :: n.namedChildren.flatMap walkNodes := by
  rw [walkNodes, walk, walkFrom_singleton, List.map_cons, Visit.next, List.flatMap_map,
    List.map_flatMap]
  congr 1
  exact List.flatMap_congr fun c _ => nodes_walkFrom c [n]

theorem mem_walkNodes_iff {m n : Node} :
    m ∈ n.walkNodes ↔ m = n ∨ ∃ c ∈ n.namedChildren, m ∈ c.walkNodes := by
  rw [walkNodes_eq, List.mem_cons, List.mem_flatMap]

theorem mem_walkNodes_trans {l m n : Node} (hl : l ∈ m.walkNodes) (hm : m ∈ n.walkNodes) :
    l ∈ n.walkNodes := by
  rcases mem_walkNodes_iff.mp hm with rfl | ⟨c, hc, hm⟩
  · exact hl
  · exact mem_walkNodes_iff.mpr (Or.inr ⟨c, hc, mem_walkNodes_trans hl hm⟩)
termination_by n.size
decreasing_by exact size_lt_of_mem (List.mem_filter.mp hc).1

theorem walkNodes_of_leaf {n : Node} (h : n.children = []) : n.walkNodes = [n] := by
  rw [walkNodes_eq, namedChildren, h]
  rfl

end Node

namespace Source

variable {s : Source}

theorem InOrder.pairwise : ∀ {cs : List Node} {a b : Nat}, s.InOrder a b cs →
    cs.Pairwise fun x y => s.stop x ≤ s.start y
  | [], _, _, _ => List.Pairwise.nil
  | c :: cs, a, b, h => by
    have hbehind : ∀ {ds : List Node} {o : Nat}, s.InOrder o b ds → ∀ d ∈ ds, o ≤ s.start d := by
      intro ds
      induction ds with
      | nil => simp
      | cons e ds ih =>
        intro o ho d hd
        rcases List.mem_cons.mp hd with rfl | hd
        · exact ho.1
        · have := ih ho.2.2 d hd
          have := ho.1
          have := ho.2.1
          omega
    exact List.pairwise_cons.mpr ⟨hbehind h.2.2, h.2.2.pairwise⟩

/-- A node stands below another one, at one of its named children, or starts where that one has
ended. -/
def Later (s : Source) (u v : Node) : Prop :=
  (∃ c ∈ u.namedChildren, v ∈ c.walkNodes) ∨ s.stop u ≤ s.start v

section WellFormed
variable (hs : s.WellFormed)
include hs

theorem bounds_of_mem_nodes {m n : Node} (hn : n ∈ s.root.nodes) (hm : m ∈ n.nodes) :
    s.start n ≤ s.start m ∧ s.stop m ≤ s.stop n := by
  rcases Node.mem_nodes_iff.mp hm with rfl | ⟨c, hc, hm⟩
  · exact ⟨le_rfl, le_rfl⟩
  · have hcn : c ∈ s.root.nodes := Node.mem_nodes_trans (Node.mem_nodes_of_mem_children hc) hn
    have hbounds := ((hs n hn).tiles hc).bounds hc
    have ih := bounds_of_mem_nodes hcn hm
    omega
termination_by n.size
decreasing_by exact Node.size_lt_of_mem hc

theorem pairwise_children {n : Node} (hn : n ∈ s.root.nodes) :
    n.children.Pairwise fun x y => s.stop x ≤ s.start y := by
  cases hcs : n.children with
  | nil => exact List.Pairwise.nil
  | cons c cs =>
    rw [← hcs]
    exact ((hs n hn).tiles (c := c) (by rw [hcs]; exact List.mem_cons_self)).inOrder.pairwise

/-- **Two nodes of a walk**: the later one stands below the earlier one or behind it. -/
theorem pairwise_walkNodes {n : Node} (hn : n ∈ s.root.nodes) : n.walkNodes.Pairwise s.Later := by
  have hchild : ∀ c ∈ n.namedChildren, c ∈ s.root.nodes := fun c hc =>
    Node.mem_nodes_trans (Node.mem_nodes_of_mem_children (List.mem_filter.mp hc).1) hn
  have hnamed : n.namedChildren.Pairwise fun x y => s.stop x ≤ s.start y :=
    (pairwise_children hs hn).filter _
  rw [Node.walkNodes_eq, List.pairwise_cons, List.pairwise_flatMap]
  refine ⟨fun v hv => Or.inl (List.mem_flatMap.mp hv), fun c hc => ?_, ?_⟩
  · exact pairwise_walkNodes (hchild c hc)
  · refine hnamed.imp_of_mem fun {x y} hx hy hxy u hu v hv => Or.inr ?_
    have hu' := bounds_of_mem_nodes hs (hchild x hx) (Node.mem_nodes_of_mem_walkNodes hu)
    have hv' := bounds_of_mem_nodes hs (hchild y hy) (Node.mem_nodes_of_mem_walkNodes hv)
    omega
termination_by n.size
decreasing_by exact Node.size_lt_of_mem (List.mem_filter.mp hc).1

theorem later_or_later {m n : Node} (hm : m ∈ s.root.walkNodes) (hn : n ∈ s.root.walkNodes)
    (hne : m ≠ n) : s.Later m n ∨ s.Later n m := by
  have hsymm : Std.Symm fun u v => s.Later u v ∨ s.Later v u := ⟨fun _ _ => Or.symm⟩
  have hwalk : s.root.walkNodes.Pairwise fun u v => s.Later u v ∨ s.Later v u :=
    (pairwise_walkNodes hs (Node.mem_nodes_self s.root)).imp Or.inl
  exact hwalk.forall hm hn hne

end WellFormed

end Source

end HouseStyle
