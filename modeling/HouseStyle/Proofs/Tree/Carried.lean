import HouseStyle.Proofs.Edit.Displacement
import HouseStyle.Proofs.Tree.Preorder
import Mathlib.Data.List.Forall2

/-! # Trees carried through edits

A change of layout should leave the tree of a text as it is, but for positions. `Alike R` says that
two trees have one form and the same labels, and that their nodes are related by `R` one by one. So
whatever is collected from such trees along their children, by looks at labels, is related one by
one too (`Alike.namedChildren`, `Alike.childrenAs`, `Alike.child?`, `Alike.walkNodes`).

`Source.Carried` is about a source, replacements of its text and a source of the result: the trees
are alike, and nodes have gone along with their first and last characters, if these stay. Where
nodes start or end whose first or last character was replaced is left open. -/

namespace HouseStyle

theorem exists_of_forall₂ {α β : Type} {R : α → β → Prop} {l : List α} {l' : List β}
    (h : List.Forall₂ R l l') {b : β} (hb : b ∈ l') : ∃ a ∈ l, R a b := by
  induction h with
  | nil => simp at hb
  | cons hfirst _ ih =>
    rcases List.mem_cons.mp hb with rfl | hb
    · exact ⟨_, List.mem_cons_self, hfirst⟩
    · obtain ⟨a, ha, hab⟩ := ih hb
      exact ⟨a, List.mem_cons_of_mem _ ha, hab⟩

namespace Node

/-- Two nodes that differ at most in their number, their range and their children. -/
structure SameLabel (n n' : Node) : Prop where
  kind : n'.kind = n.kind
  named : n'.named = n.named
  missing : n'.missing = n.missing
  field : n'.field = n.field

instance (n n' : Node) : Decidable (SameLabel n n') :=
  decidable_of_iff (_ ∧ _ ∧ _ ∧ _)
    ⟨fun ⟨h1, h2, h3, h4⟩ => ⟨h1, h2, h3, h4⟩, fun h => ⟨h.1, h.2, h.3, h.4⟩⟩

mutual

/-- Two trees of one form with the same labels, whose nodes are related one by one. -/
def Alike (R : Node → Node → Prop) : Node → Node → Prop
  | ⟨i, k, nm, ms, a, b, f, cs⟩, n' =>
    SameLabel ⟨i, k, nm, ms, a, b, f, cs⟩ n' ∧ R ⟨i, k, nm, ms, a, b, f, cs⟩ n' ∧
      AllAlike R cs n'.children

/-- Two lists of trees that are alike one by one. -/
def AllAlike (R : Node → Node → Prop) : List Node → List Node → Prop
  | [], [] => True
  | n :: ns, n' :: ns' => Alike R n n' ∧ AllAlike R ns ns'
  | _, _ => False

end

mutual

def decidableAlike (R : Node → Node → Prop) [∀ n n', Decidable (R n n')] :
    ∀ n n' : Node, Decidable (Alike R n n')
  | ⟨_, _, _, _, _, _, _, cs⟩, n' =>
    have := decidableAllAlike R cs n'.children
    inferInstanceAs (Decidable (_ ∧ _ ∧ _))

def decidableAllAlike (R : Node → Node → Prop) [∀ n n', Decidable (R n n')] :
    ∀ ns ns' : List Node, Decidable (AllAlike R ns ns')
  | [], [] => inferInstanceAs (Decidable True)
  | n :: ns, n' :: ns' =>
    have := decidableAlike R n n'
    have := decidableAllAlike R ns ns'
    inferInstanceAs (Decidable (_ ∧ _))
  | [], _ :: _ => inferInstanceAs (Decidable False)
  | _ :: _, [] => inferInstanceAs (Decidable False)

end

instance (R : Node → Node → Prop) [∀ n n', Decidable (R n n')] (n n' : Node) :
    Decidable (Alike R n n') :=
  decidableAlike R n n'

variable {R : Node → Node → Prop}

theorem allAlike_iff : ∀ {ns ns' : List Node}, AllAlike R ns ns' ↔ List.Forall₂ (Alike R) ns ns'
  | [], [] => by simp [AllAlike]
  | n :: ns, n' :: ns' => by rw [AllAlike, List.forall₂_cons, allAlike_iff]
  | [], _ :: _ => by simp [AllAlike]
  | _ :: _, [] => by simp [AllAlike]

theorem alike_iff {n n' : Node} :
    Alike R n n' ↔ SameLabel n n' ∧ R n n' ∧ List.Forall₂ (Alike R) n.children n'.children := by
  cases n
  rw [Alike, allAlike_iff]

theorem forall₂_filter_of_label {p : Node → Bool} (hp : ∀ m m', SameLabel m m' → p m' = p m)
    {ns ns' : List Node} (h : List.Forall₂ (Alike R) ns ns') :
    List.Forall₂ (Alike R) (ns.filter p) (ns'.filter p) := by
  refine List.rel_filter (fun m m' hm => ?_) h
  change p m = true ↔ p m' = true
  rw [hp m m' (alike_iff.mp hm).1]

section Parts
variable {n n' : Node} (h : Alike R n n')
include h

theorem Alike.label : SameLabel n n' := (alike_iff.mp h).1

theorem Alike.rel : R n n' := (alike_iff.mp h).2.1

theorem Alike.children : List.Forall₂ (Alike R) n.children n'.children := (alike_iff.mp h).2.2

theorem Alike.namedChildren : List.Forall₂ (Alike R) n.namedChildren n'.namedChildren :=
  forall₂_filter_of_label (fun _ _ hm => hm.named) h.children

theorem Alike.codeChildren : List.Forall₂ (Alike R) n.codeChildren n'.codeChildren :=
  forall₂_filter_of_label (fun _ _ hm => by rw [isComment, isComment, hm.kind]) h.namedChildren

theorem Alike.childrenAs (f : Field) : List.Forall₂ (Alike R) (n.childrenAs f) (n'.childrenAs f) :=
  forall₂_filter_of_label (fun _ _ hm => by rw [hm.field]) h.children

theorem Alike.child? (f : Field) :
    List.Forall₂ (Alike R) (n.child? f).toList (n'.child? f).toList := by
  have hparts := h.childrenAs f
  rw [Node.child?, Node.child?, ← List.head?_filter, ← List.head?_filter]
  change List.Forall₂ _ (n.childrenAs f).head?.toList (n'.childrenAs f).head?.toList
  generalize n.childrenAs f = ps, n'.childrenAs f = ps' at hparts
  cases hparts with
  | nil => exact .nil
  | cons hfirst _ => exact .cons hfirst .nil

end Parts

/-- **Walks of trees that are alike** visit nodes that are alike. -/
theorem Alike.walkNodes {n n' : Node} (h : Alike R n n') :
    List.Forall₂ (Alike R) n.walkNodes n'.walkNodes := by
  rw [walkNodes_eq, walkNodes_eq n']
  have hmem : List.Forall₂ (fun c c' => c ∈ n.namedChildren ∧ Alike R c c') n.namedChildren
      n'.namedChildren := (List.forall₂_and_left _ _).mpr ⟨fun _ hc => hc, h.namedChildren⟩
  exact .cons h (List.rel_flatMap hmem fun c c' hc => hc.2.walkNodes)
termination_by n.size
decreasing_by exact size_lt_of_mem (List.mem_filter.mp hc.1).1

end Node

/-! ### Positions -/

namespace Replacement

/-- The character at an offset is not replaced. -/
def Stays (rs : List Replacement) (i : Int) : Prop := ∀ r ∈ rs, ¬ (r.start ≤ i ∧ i < r.stop)

instance (rs : List Replacement) (i : Int) : Decidable (Stays rs i) := by
  unfold Stays; infer_instance

end Replacement

namespace Source

open Replacement

/-- A node of a source and one of the result of replacements: the range of the second lies on
character boundaries, its start has gone along with the first character of the first one, if that
stays, and its end has gone along with the last character. -/
structure Moved (rs : List Replacement) (s s' : Source) (n n' : Node) : Prop where
  boundary : s'.text.IsBoundary n'.start ∧ s'.text.IsBoundary n'.stop
  start : Stays rs (s.start n) → (s'.start n' : Int) = startAfter rs (s.start n)
  stop : Stays rs (s.stop n - 1) → (s'.stop n' : Int) = stopAfter rs (s.stop n)

instance (rs : List Replacement) (s s' : Source) (n n' : Node) : Decidable (Moved rs s s' n n') :=
  decidable_of_iff (_ ∧ _ ∧ _) ⟨fun ⟨h1, h2, h3⟩ => ⟨h1, h2, h3⟩, fun h => ⟨h.1, h.2, h.3⟩⟩

/-- A source of the result of replacements that has the same tree as before, with its positions
carried through the edits. -/
def Carried (s : Source) (rs : List Replacement) (s' : Source) : Prop :=
  Node.Alike (Moved (taken s.text rs) s s') s.root s'.root

theorem Carried.walk {s s' : Source} {rs : List Replacement} (h : s.Carried rs s') :
    List.Forall₂ (fun n n' => n ∈ s.root.walkNodes ∧ Node.Alike (Moved (taken s.text rs) s s') n n')
      s.root.walkNodes s'.root.walkNodes :=
  (List.forall₂_and_left _ _).mpr ⟨fun _ hn => hn, Node.Alike.walkNodes h⟩

section Kept
variable {s s' : Source} {rs : List Replacement} (htext : s'.text = apply s.text rs) {n n' : Node}
  (hmoved : s.Moved (taken s.text rs) s' n n')
include htext hmoved

theorem Moved.slice_start {b : Nat} (hb : b ≤ s.text.length) (hlt : s.start n < b)
    (hkept : ∀ r ∈ taken s.text rs, r.start < r.stop ∧ (r.stop ≤ s.start n ∨ b ≤ r.start)) :
    s'.text.slice (s'.start n') (s'.start n' + (b - s.start n)) = s.text.slice (s.start n) b := by
  have hstart := hmoved.start fun r hr hcross => by
    have := hkept r hr
    omega
  rw [htext]
  exact slice_apply_from hb hlt hkept hstart

theorem Moved.extent_eq (hlen : s.stop n ≤ s.text.length) (hlt : s.start n < s.stop n)
    (hkept : ∀ r ∈ taken s.text rs, r.start < r.stop ∧ (r.stop ≤ s.start n ∨ s.stop n ≤ r.start)) :
    s'.extent n' = s.extent n := by
  have hstart := hmoved.start fun r hr hcross => by
    have := hkept r hr
    omega
  have hstop := hmoved.stop fun r hr hcross => by
    have := hkept r hr
    omega
  have hback := stopAfter_add (p := s.start n) (q := s.stop n) fun r hr => by
    have := hkept r hr
    omega
  have hslice := hmoved.slice_start htext hlen hlt hkept
  rwa [show s'.start n' + (s.stop n - s.start n) = s'.stop n' by omega] at hslice

end Kept

end Source

end HouseStyle
