/-! # Syntax trees

A node of a syntax tree has a kind, a range of bytes in the source, a field name inside its parent,
and children. Named nodes are constructs of the grammar; the others are tokens, whose kind is their
text. `id` tells nodes of one tree apart: two nodes are the same if their numbers are.

`walk` visits the named nodes below a node in preorder, each with its ancestors, nearest first. It
keeps a list of the nodes that are still to be visited. -/

namespace HouseStyle

/-- The part that a node plays in its parent. -/
inductive Field where
  | name | body | alternative | consequence | condition | operator | left | right | object
  | property | arguments | source | value | function
deriving DecidableEq

/-- A node of a syntax tree; `start` and `stop` are byte offsets. -/
structure Node where
  id : Nat
  kind : String
  named : Bool
  missing : Bool
  start : Nat
  stop : Nat
  field : Option Field
  children : List Node

namespace Node

mutual

/-- The number of nodes of a tree. -/
def size : Node → Nat
  | ⟨_, _, _, _, _, _, _, cs⟩ => 1 + sizeAll cs

/-- The number of nodes of several trees. -/
def sizeAll : List Node → Nat
  | [] => 0
  | n :: ns => n.size + sizeAll ns

end

/-! ### Children -/

/-- The children that are constructs of the grammar. -/
def namedChildren (n : Node) : List Node := n.children.filter (·.named)

/-- Whether a node is a comment. -/
def isComment (n : Node) : Bool := n.kind == "comment"

/-- The named children that are not comments. -/
def codeChildren (n : Node) : List Node := n.namedChildren.filter (!·.isComment)

/-- The first child that plays the part `f`. -/
def child? (n : Node) (f : Field) : Option Node := n.children.find? (·.field == some f)

/-- All children that play the part `f`. -/
def childrenAs (n : Node) (f : Field) : List Node := n.children.filter (·.field == some f)

/-- Whether two nodes of a tree are the same node. -/
def same (m n : Node) : Bool := m.id == n.id

/-- Whether `n` is the child that plays the part `f` in `parent`. -/
def isChild (parent : Node) (f : Field) (n : Node) : Bool :=
  match parent.child? f with
  | some c => c.same n
  | none => false

@[simp] theorem sizeAll_nil : sizeAll [] = 0 := rfl

@[simp] theorem sizeAll_cons (n : Node) (ns : List Node) :
    sizeAll (n :: ns) = n.size + sizeAll ns :=
  rfl

theorem size_eq (n : Node) : n.size = 1 + sizeAll n.children := by cases n; rfl

theorem sizeAll_append (ms ns : List Node) : sizeAll (ms ++ ns) = sizeAll ms + sizeAll ns := by
  induction ms with
  | nil => simp
  | cons m ms ih => simp [ih]; omega

theorem sizeAll_filter_le (p : Node → Bool) (ns : List Node) :
    sizeAll (ns.filter p) ≤ sizeAll ns := by
  induction ns with
  | nil => simp
  | cons n ns ih => by_cases h : p n <;> simp [h] <;> omega

theorem size_le_sizeAll {n : Node} {ns : List Node} (h : n ∈ ns) : n.size ≤ sizeAll ns := by
  induction ns with
  | nil => simp at h
  | cons m ms ih =>
    rcases List.mem_cons.mp h with rfl | h
    · simp
    · have := ih h; rw [sizeAll_cons]; omega

theorem size_lt_of_mem {c n : Node} (h : c ∈ n.children) : c.size < n.size := by
  have := size_le_sizeAll h; rw [size_eq n]; omega

theorem mem_children_of_mem_codeChildren {c n : Node} (h : c ∈ n.codeChildren) :
    c ∈ n.children := by
  simp only [codeChildren, namedChildren, List.mem_filter] at h; exact h.1.1

theorem mem_children_of_child? {c n : Node} {f : Field} (h : n.child? f = some c) :
    c ∈ n.children := List.mem_of_find?_eq_some h

theorem size_lt_of_codeChild {c n : Node} (h : c ∈ n.codeChildren) : c.size < n.size :=
  size_lt_of_mem (mem_children_of_mem_codeChildren h)

theorem size_lt_of_child? {c n : Node} {f : Field} (h : n.child? f = some c) : c.size < n.size :=
  size_lt_of_mem (mem_children_of_child? h)

/-! ### Traversal -/

/-- A node together with its ancestors, the parent first and the root last. -/
structure Visit where
  node : Node
  ancestors : List Node

/-- The parent of a visited node. -/
def Visit.parent? (v : Visit) : Option Node := v.ancestors.head?

/-- The visits that follow from a visit: its named children. -/
def Visit.next (v : Visit) : List Visit :=
  v.node.namedChildren.map fun c => ⟨c, v.node :: v.ancestors⟩

theorem nodes_next (v : Visit) : v.next.map (·.node) = v.node.namedChildren := by
  simp [Visit.next, Function.comp_def]

/-- The visits that follow from a visit have fewer nodes below them. -/
theorem sizeAll_next (v : Visit) : sizeAll (v.next.map (·.node)) < v.node.size := by
  have h := sizeAll_filter_le (·.named) v.node.children
  rw [nodes_next, size_eq v.node, namedChildren]
  omega

/-- Visits everything on a list of pending visits, the first of them with all below it before the
second. -/
def walkFrom : List Visit → List Visit
  | [] => []
  | v :: pending => v :: walkFrom (v.next ++ pending)
termination_by pending => sizeAll (pending.map (·.node))
decreasing_by
  have := sizeAll_next v
  rw [List.map_append, sizeAll_append, List.map_cons, sizeAll_cons]
  omega

/-- The named nodes of a tree in preorder, with their ancestors. -/
def walk (root : Node) : List Visit := walkFrom [⟨root, []⟩]

/-- The nodes that `walk` visits. -/
def walkNodes (root : Node) : List Node := (walk root).map (·.node)

/-- Whether a node is a comment or has one below it. -/
def containsComment (n : Node) : Bool := n.walkNodes.any (·.isComment)

end Node

end HouseStyle
