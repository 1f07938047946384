import HouseStyle.Proofs.Tree.WellFormed

/-! # Leaves

The leaves of a tree are its nodes without children, from left to right: those of a node with
children are those of its children, one after the other (`leaves_of_children`). In a well-formed
source they carry the whole text but for blanks.

`Spread xs t` says that `t` is made of the texts `xs`, one behind the other, with nothing but blanks
before, between and behind them. Texts put together spread the pieces of both (`Spread.append`), and
pieces that are made of pieces themselves can be taken apart (`Spread.flatMap`). -/

namespace HouseStyle

namespace Node

theorem allNodes_eq_flatMap : ∀ ns : List Node, allNodes ns = ns.flatMap nodes
  | [] => rfl
  | n :: ns => by rw [allNodes, allNodes_eq_flatMap ns, List.flatMap_cons]

/-- The nodes of a tree that have no children, from left to right. -/
def leaves (n : Node) : List Node := n.nodes.filter (·.children.isEmpty)

theorem leaves_of_isEmpty {n : Node} (h : n.children.isEmpty = true) : n.leaves = [n] := by
  rw [leaves, nodes_eq, List.filter_cons, if_pos h, List.isEmpty_iff.mp h]
  rfl

theorem leaves_of_children {n : Node} (h : n.children.isEmpty = false) :
    n.leaves = n.children.flatMap leaves := by
  rw [leaves, nodes_eq, List.filter_cons_of_neg (by simp [h]), allNodes_eq_flatMap,
    List.filter_flatMap]
  rfl

theorem leaves_of_mem_children {c n : Node} (h : c ∈ n.children) :
    n.leaves = n.children.flatMap leaves :=
  leaves_of_children (List.isEmpty_eq_false_iff.mpr (List.ne_nil_of_mem h))

theorem mem_nodes_of_mem_leaves {l n : Node} (h : l ∈ n.leaves) : l ∈ n.nodes :=
  (List.mem_filter.mp h).1

end Node

namespace Text

/-- Texts one behind the other, with nothing but blanks before, between and behind them. -/
inductive Spread : List Text → Text → Prop where
  | blank {g : Text} : g.isBlankText = true → Spread [] g
  | piece {g x t : Text} {xs : List Text} : g.isBlankText = true → Spread xs t →
    Spread (x :: xs) (g ++ (x ++ t))

namespace Spread

variable {xs ys : List Text} {t u : Text}

theorem singleton (x : Text) : Spread [x] x := by
  have h : Spread [x] ([] ++ (x ++ [])) := piece rfl (blank rfl)
  simpa using h

theorem blank_append {g : Text} (hg : g.isBlankText = true) (h : Spread xs t) :
    Spread xs (g ++ t) := by
  have hall : ∀ {g' : Text}, g'.isBlankText = true → (g ++ g').isBlankText = true := by
    intro g' hg'
    rw [isBlankText, List.all_append, Bool.and_eq_true]
    exact ⟨hg, hg'⟩
  cases h with
  | blank hg' => exact blank (hall hg')
  | piece hg' h =>
    rw [← List.append_assoc]
    exact piece (hall hg') h

theorem append (h : Spread xs t) (h' : Spread ys u) : Spread (xs ++ ys) (t ++ u) := by
  induction h with
  | blank hg => exact h'.blank_append hg
  | piece hg _ ih =>
    rw [List.append_assoc, List.append_assoc]
    exact piece hg ih

theorem flatten : ∀ xs : List Text, Spread xs xs.flatten
  | [] => blank rfl
  | x :: xs => (singleton x).append (flatten xs)

theorem ink_eq (h : Spread xs t) : t.ink = xs.flatMap ink := by
  induction h with
  | blank hg => exact ink_of_blank hg
  | piece hg _ ih =>
    rw [ink_append, ink_append, ink_of_blank hg, ih, List.nil_append, List.flatMap_cons]

theorem flatMap {α : Type} {f : α → List Text} {g : α → Text} : ∀ {cs : List α} {t : Text},
    Spread (cs.map g) t → (∀ c ∈ cs, Spread (f c) (g c)) → Spread (cs.flatMap f) t
  | [], _, h, _ => h
  | c :: cs, _, h, hc => by
    cases h with
    | piece hg h =>
      have hrest := flatMap h fun d hd => hc d (List.mem_cons_of_mem _ hd)
      exact ((hc c List.mem_cons_self).append hrest).blank_append hg

end Spread

end Text

end HouseStyle
