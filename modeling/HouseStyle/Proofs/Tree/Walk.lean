import HouseStyle.Proofs.Tree.Preorder
import Mathlib.Data.List.Basic
import Mathlib.Data.List.Lex
import Mathlib.Logic.Function.Iterate

/-! # A walk as a loop and as a recursion

A walk is a loop over a stack of pending visits. One turn of it (`turn`) takes the first visit off
the stack and puts the visits of its named children in its place. What is on top after `k` turns is
visit number `k` (`head?_iterate_turn`), so the loop ends, after as many turns as there are visits
(`iterate_turn_eq_nil_iff`).

The recursion that the loop replaces is `preorder`: a node, with the nodes above it from the root
down, and behind it the same for its named children from left to right (`map_walk`).

A node of a tree is told from the others by the way to it: for each step down, the number of a named
child (`follow?`). In this sense every node that can be reached is visited exactly once, for a walk
takes the ways of a tree in their lexicographic order (`pairwise_ways`, `mem_ways`, `map_ways`). -/

namespace HouseStyle.Node

/-! ### The loop -/

/-- One turn of the loop: the first pending visit makes way for the visits of its named children. -/
def turn : List Visit → List Visit
  | [] => []
  | v :: pending => v.next ++ pending

theorem iterate_turn_nil (k : ℕ) : turn^[k] [] = [] := Function.iterate_fixed rfl k

/-- **What is on top after some turns** is the visit of that number. -/
theorem head?_iterate_turn : ∀ (k : ℕ) (pending : List Visit),
    (turn^[k] pending).head? = (walkFrom pending)[k]?
  | k, [] => by rw [iterate_turn_nil, walkFrom]; rfl
  | 0, v :: pending => by rw [walkFrom]; rfl
  | k + 1, v :: pending => by
    rw [walkFrom, List.getElem?_cons_succ, Function.iterate_succ_apply]
    exact head?_iterate_turn k (v.next ++ pending)

theorem iterate_turn_eq_nil_iff (k : ℕ) (pending : List Visit) :
    turn^[k] pending = [] ↔ (walkFrom pending).length ≤ k := by
  rw [← List.head?_eq_none_iff, head?_iterate_turn, List.getElem?_eq_none_iff]

/-! ### The recursion -/

/-- A node and the nodes below it that can be reached through named children, each with the nodes
above it from the root down: the node first, and then those below each of its named children from
left to right. -/
def preorder (path : List Node) (n : Node) : List (Node × List Node) :=
  (n, path) :: n.namedChildren.attach.flatMap fun c => preorder (path ++ [n]) c.1
termination_by n.size
decreasing_by exact size_lt_of_mem (List.mem_filter.mp c.2).1

theorem preorder_eq (path : List Node) (n : Node) :
    n.preorder path = (n, path) :: n.namedChildren.flatMap (preorder (path ++ [n])) := by
  rw [preorder]
  conv => rhs; rw [← List.attach_map_subtype_val n.namedChildren, List.flatMap_map]

theorem map_walkFrom (n : Node) (ancestors : List Node) :
    (walkFrom [⟨n, ancestors⟩]).map (fun v => (v.node, v.ancestors.reverse)) =
      n.preorder ancestors.reverse := by
  rw [walkFrom_singleton, preorder_eq, List.map_cons, Visit.next, List.flatMap_map,
    List.map_flatMap]
  congr 1
  refine List.flatMap_congr ?_
  intro c hc
  rw [map_walkFrom c (n :: ancestors), List.reverse_cons]
termination_by n.size
decreasing_by exact size_lt_of_mem (List.mem_filter.mp hc).1

theorem map_walk (root : Node) :
    root.walk.map (fun v => (v.node, v.ancestors.reverse)) = root.preorder [] :=
      map_walkFrom root []

theorem walkNodes_eq_map_preorder (root : Node) :
    root.walkNodes = (root.preorder []).map (·.1) := by
  rw [← map_walk, List.map_map]
  rfl

/-! ### Ways -/

/-- The node at the end of a way, with the nodes from the first one down to its parent. A way says
for each step down which of the named children to take. -/
def follow? : List ℕ → Node → Option (Node × List Node)
  | [], n => some (n, [])
  | i :: way, n => n.namedChildren[i]?.bind fun c => (follow? way c).map fun r => (r.1, n :: r.2)

/-- The ways of a tree: the empty one, and for each named child its number and then a way from
there. -/
def ways (n : Node) : List (List ℕ) :=
  [] :: n.namedChildren.zipIdx.attach.flatMap fun c => (ways c.1.1).map (c.1.2 :: ·)
termination_by n.size
decreasing_by exact size_lt_of_mem (List.mem_filter.mp (List.fst_mem_of_mem_zipIdx c.2)).1

theorem ways_eq (n : Node) :
    n.ways = [] :: n.namedChildren.zipIdx.flatMap fun c => (ways c.1).map (c.2 :: ·) := by
  rw [ways]
  conv => rhs; rw [← List.attach_map_subtype_val n.namedChildren.zipIdx, List.flatMap_map]

/-- **The ways of a tree are those that lead to a node.** -/
theorem mem_ways : ∀ (way : List ℕ) (n : Node), way ∈ n.ways ↔ (follow? way n).isSome = true
  | [], n => by rw [ways_eq]; simp [follow?]
  | i :: way, n => by
    rw [ways_eq, List.mem_cons, List.mem_flatMap, follow?]
    constructor
    · rintro (h | ⟨⟨c, j⟩, hc, h⟩)
      · simp at h
      · obtain ⟨v, hv, heq⟩ := List.mem_map.mp h
        obtain ⟨hj, hway⟩ : j = i ∧ v = way := by simpa using heq
        have hchild : n.namedChildren[i]? = some c := hj ▸ List.mem_zipIdx_iff_getElem?.mp hc
        have ih := (mem_ways way c).mp (hway ▸ hv)
        simpa [hchild] using ih
    · intro h
      obtain ⟨r, hr⟩ := Option.isSome_iff_exists.mp h
      obtain ⟨c, hc, hr⟩ := Option.bind_eq_some_iff.mp hr
      obtain ⟨r', hr', -⟩ := Option.map_eq_some_iff.mp hr
      have ih := (mem_ways way c).mpr (by rw [hr']; rfl)
      exact Or.inr ⟨(c, i), List.mem_zipIdx_iff_getElem?.mpr hc, List.mem_map_of_mem ih⟩

/-- **The ways of a tree rise** in the lexicographic order, so that none stands there twice. -/
theorem pairwise_ways (n : Node) : n.ways.Pairwise (· < ·) := by
  have hnumbers : n.namedChildren.zipIdx.Pairwise fun c d => c.2 < d.2 := by
    rw [← List.pairwise_map (f := Prod.snd) (R := (· < ·)), List.zipIdx_map_snd]
    exact List.pairwise_lt_range'
  rw [ways_eq, List.pairwise_cons, List.pairwise_flatMap]
  refine ⟨?_, ?_, ?_⟩
  · intro way hway
    obtain ⟨c, -, h⟩ := List.mem_flatMap.mp hway
    obtain ⟨v, -, rfl⟩ := List.mem_map.mp h
    exact List.nil_lt_cons _ _
  · intro c hc
    rw [List.pairwise_map]
    exact (pairwise_ways c.1).imp fun h => List.Lex.cons h
  · refine hnumbers.imp ?_
    intro c d hcd v hv w hw
    obtain ⟨v', -, rfl⟩ := List.mem_map.mp hv
    obtain ⟨w', -, rfl⟩ := List.mem_map.mp hw
    exact List.Lex.rel hcd
termination_by n.size
decreasing_by exact size_lt_of_mem (List.mem_filter.mp (List.fst_mem_of_mem_zipIdx hc)).1

/-- **The recursion takes the ways of a tree one after the other.** -/
theorem map_ways (n : Node) (path : List Node) :
    n.ways.map (fun way => (follow? way n).map fun r => (r.1, path ++ r.2)) =
      (n.preorder path).map some := by
  have hfirst : n.namedChildren.zipIdx.map Prod.fst = n.namedChildren := List.zipIdx_map_fst _ _
  rw [ways_eq, preorder_eq, List.map_cons, List.map_cons, List.map_flatMap, List.map_flatMap]
  congr 1
  · simp [follow?]
  · conv => rhs; rw [← hfirst, List.flatMap_map]
    refine List.flatMap_congr ?_
    intro c hc
    have hchild : n.namedChildren[c.2]? = some c.1 := List.mem_zipIdx_iff_getElem?.mp hc
    rw [← map_ways c.1 (path ++ [n]), List.map_map]
    refine List.map_congr_left ?_
    intro way _
    simp [follow?, hchild, Function.comp_def]
termination_by n.size
decreasing_by exact size_lt_of_mem (List.mem_filter.mp (List.fst_mem_of_mem_zipIdx hc)).1

theorem mem_preorder_iff {root n : Node} {path : List Node} :
    (n, path) ∈ root.preorder [] ↔ ∃ way, follow? way root = some (n, path) := by
  have hways : root.ways.map (follow? · root) = (root.preorder []).map some := by
    simpa using map_ways root []
  constructor
  · intro h
    have hsome : some (n, path) ∈ root.ways.map (follow? · root) := by
      rw [hways]
      exact List.mem_map_of_mem h
    obtain ⟨way, -, hway⟩ := List.mem_map.mp hsome
    exact ⟨way, hway⟩
  · rintro ⟨way, hway⟩
    have hmem : way ∈ root.ways := (mem_ways way root).mpr (by rw [hway]; rfl)
    have hsome : some (n, path) ∈ (root.preorder []).map some := by
      rw [← hways, ← hway]
      exact List.mem_map_of_mem hmem
    simpa using hsome

/-- **The loop of a walk is the recursion.** The loop ends after as many turns as there are visits,
and what it has on top from turn to turn are the visits in their order. They are those of the
recursion, each with its ancestors from the root down. Every way from the root that leads to a node
is taken once, and the ways rise in the lexicographic order. In particular a node contains a comment
exactly if some way from it leads to one, be it the empty way. -/
theorem walk_is_preorder (root : Node) :
    (∀ k, (turn^[k] [⟨root, []⟩]).head? = root.walk[k]?) ∧
    (∀ k, turn^[k] [⟨root, []⟩] = [] ↔ root.walk.length ≤ k) ∧
    root.walk.map (fun v => (v.node, v.ancestors.reverse)) = root.preorder [] ∧
    (∃ ways : List (List ℕ), ways.Pairwise (· < ·) ∧
      (∀ way, way ∈ ways ↔ (follow? way root).isSome = true) ∧
      ways.map (follow? · root) = (root.preorder []).map some) ∧
    (root.containsComment = true ↔
      ∃ way n path, follow? way root = some (n, path) ∧ n.kind = "comment") := by
  refine ⟨fun k => head?_iterate_turn k _, fun k => iterate_turn_eq_nil_iff k _, map_walk root,
    ⟨root.ways, pairwise_ways root, fun way => mem_ways way root, by simpa using map_ways root []⟩,
    ?_⟩
  rw [containsComment, walkNodes_eq_map_preorder, List.any_map, List.any_eq_true]
  constructor
  · rintro ⟨⟨n, path⟩, hn, hcomment⟩
    obtain ⟨way, hway⟩ := mem_preorder_iff.mp hn
    exact ⟨way, n, path, hway, by simpa [isComment] using hcomment⟩
  · rintro ⟨way, n, path, hway, hkind⟩
    exact ⟨(n, path), mem_preorder_iff.mpr ⟨way, hway⟩, by simpa [isComment] using hkind⟩

end HouseStyle.Node
