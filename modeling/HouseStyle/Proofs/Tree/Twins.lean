import HouseStyle.Proofs.Tree.Carried

/-! # Twins in two trees

Where a tree is carried through edits, each of its nodes has a twin in the tree of the result
(`Source.Carried.twins`). Relations between trees that are alike can be put together for this
(`Alike.combine`). Walks go to twins together with their ancestors (`AlikeVisits.walkFrom`).

Numbers tell the nodes of one tree apart, and a second tree may have others: `Source.Renames` says
that those of twins go along with each other. -/

namespace HouseStyle

namespace Node

variable {R R' T : Node → Node → Prop} {P Q : Node → Prop}

mutual

theorem Alike.combine (hT : ∀ m m', R m m' → R' m m' → P m → Q m' → T m m') :
    ∀ {n n' : Node}, Alike R n n' →
    Alike R' n n' → (∀ m ∈ n.nodes, P m) → (∀ m ∈ n'.nodes, Q m) → Alike T n n'
  | ⟨_, _, _, _, _, _, _, _⟩, n', ⟨hlabel, h, hcs⟩, ⟨_, h', hcs'⟩, hP, hQ => by
    refine ⟨hlabel, hT _ _ h h' (hP _ (mem_nodes_self _)) (hQ _ (mem_nodes_self _)),
      AllAlike.combine hT hcs hcs' ?_ ?_⟩
    · exact fun m hm => hP m (by rw [nodes_eq]; exact List.mem_cons_of_mem _ hm)
    · exact fun m hm => hQ m (by rw [nodes_eq]; exact List.mem_cons_of_mem _ hm)

theorem AllAlike.combine (hT : ∀ m m', R m m' → R' m m' → P m → Q m' → T m m') :
    ∀ {ns ns' : List Node},
    AllAlike R ns ns' → AllAlike R' ns ns' → (∀ m ∈ allNodes ns, P m) → (∀ m ∈ allNodes ns', Q m) →
    AllAlike T ns ns'
  | [], [], _, _, _, _ => trivial
  | _ :: _, _ :: _, ⟨h, hs⟩, ⟨h', hs'⟩, hP, hQ => by
    refine ⟨Alike.combine hT h h' ?_ ?_, AllAlike.combine hT hs hs' ?_ ?_⟩
    · exact fun m hm => hP m (List.mem_append_left _ hm)
    · exact fun m hm => hQ m (List.mem_append_left _ hm)
    · exact fun m hm => hP m (List.mem_append_right _ hm)
    · exact fun m hm => hQ m (List.mem_append_right _ hm)

end

section Parts
variable {n n' : Node} (h : Alike R n n')
include h

theorem Alike.exists_child {f : Field} {c : Node} (hc : n.child? f = some c) :
    ∃ c', n'.child? f = some c' ∧ Alike R c c' := by
  have hparts := h.child? f
  rw [hc] at hparts
  cases hc' : n'.child? f with
  | none =>
    rw [hc'] at hparts
    cases hparts
  | some c' =>
    rw [hc'] at hparts
    exact ⟨c', rfl, (List.forall₂_cons.mp hparts).1⟩

theorem Alike.exists_child_left {f : Field} {c' : Node} (hc' : n'.child? f = some c') :
    ∃ c, n.child? f = some c ∧ Alike R c c' := by
  have hparts := h.child? f
  rw [hc'] at hparts
  cases hc : n.child? f with
  | none =>
    rw [hc] at hparts
    cases hparts
  | some c =>
    rw [hc] at hparts
    exact ⟨c, rfl, (List.forall₂_cons.mp hparts).1⟩

theorem Alike.child?_eq_none {f : Field} (hc : n.child? f = none) : n'.child? f = none := by
  cases hc' : n'.child? f with
  | none => rfl
  | some c' =>
    obtain ⟨c, hcs, -⟩ := h.exists_child_left hc'
    rw [hc] at hcs
    cases hcs

end Parts

/-! ### Visits -/

/-- Visits of nodes that are alike, with ancestors that are alike one by one. -/
structure AlikeVisits (R : Node → Node → Prop) (v v' : Visit) : Prop where
  node : Alike R v.node v'.node
  ancestors : List.Forall₂ (Alike R) v.ancestors v'.ancestors

theorem AlikeVisits.next {v v' : Visit} (h : AlikeVisits R v v') :
    List.Forall₂ (fun w w' => w ∈ v.next ∧ AlikeVisits R w w') v.next v'.next := by
  have hnext : List.Forall₂ (AlikeVisits R) v.next v'.next := by
    rw [Visit.next, Visit.next, List.forall₂_map_left_iff, List.forall₂_map_right_iff]
    exact h.node.namedChildren.imp fun c c' hc => ⟨hc, .cons h.node h.ancestors⟩
  exact (List.forall₂_and_left _ _).mpr ⟨fun _ hw => hw, hnext⟩

/-- **Walks of trees that are alike** go the same way. -/
theorem AlikeVisits.walkFrom {v v' : Visit} (h : AlikeVisits R v v') :
    List.Forall₂ (AlikeVisits R) (walkFrom [v]) (walkFrom [v']) := by
  rw [walkFrom_singleton, walkFrom_singleton v']
  exact .cons h (List.rel_flatMap h.next fun w w' hw => hw.2.walkFrom)
termination_by v.node.size
decreasing_by
  obtain ⟨c, hc, rfl⟩ := List.mem_map.mp hw.1
  exact size_lt_of_mem (List.mem_filter.mp hc).1

theorem Alike.walk {n n' : Node} (h : Alike R n n') :
    List.Forall₂ (AlikeVisits R) n.walk n'.walk := by
  have hroot : AlikeVisits R ⟨n, []⟩ ⟨n', []⟩ := ⟨h, .nil⟩
  exact hroot.walkFrom

end Node

/-! ### Sources -/

namespace Source

open Replacement

/-- Two sources with trees of one form, where the number of each node follows from that of its twin,
and different numbers stay different. -/
def Renames (s s' : Source) : Prop :=
  ∃ f : Nat → Nat, Function.Injective f ∧ Node.Alike (fun n n' => n'.id = f n.id) s.root s'.root

/-- A node of a source and its twin in the result of replacements; `f` renames nodes. -/
structure Twins (rs : List Replacement) (f : Nat → Nat) (s s' : Source) (n n' : Node) : Prop where
  moved : s.Moved (taken s.text rs) s' n n'
  id : n'.id = f n.id
  mem : n ∈ s.root.nodes
  mem_right : n' ∈ s'.root.nodes

variable {s s' : Source} {rs : List Replacement}

/-- **Every node has a twin.** -/
theorem Carried.twins (h : s.Carried rs s') {f : Nat → Nat}
    (hf : Node.Alike (fun n n' => n'.id = f n.id) s.root s'.root) :
    Node.Alike (Twins rs f s s') s.root s'.root := by
  exact Node.Alike.combine (P := (· ∈ s.root.nodes)) (Q := (· ∈ s'.root.nodes))
    (fun _ _ hmoved hid hmem hmem' => ⟨hmoved, hid, hmem, hmem'⟩) h hf
    (fun _ hm => hm) fun _ hm => hm

end Source

end HouseStyle
