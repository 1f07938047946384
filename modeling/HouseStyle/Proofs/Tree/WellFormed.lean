import HouseStyle.Evidence.Functions
import HouseStyle.Proofs.Text.RoundTrip
import HouseStyle.Tree.Parser

/-! # Well-formed trees

What the library relies on in the trees that a parser gives. Ranges lie on character boundaries. The
children of a node stand one behind the other inside its range, and what none of them covers is
blank (`Tiles`). A few kinds of nodes have a fixed shape once comments are left aside: the parts of
a ternary with `?` and `:` between them, an object and a property with a dot, a condition and a body
behind `if`; arguments and declarators have one comma between neighbours, and blocks have their
braces at the ends. Comments may stand between any two children.

Everything is stated about one node at a time and can be checked by computation. `WellFormed` is
about ranges, `WellShaped` and `WellBraced` about the shapes. `PlainComments` says more about
comments: they are named nodes of the kind `comment` and open with one of the two marks. -/

namespace HouseStyle

namespace Node

/-! ### Nodes of a tree -/

mutual

/-- The nodes of a tree, tokens included. -/
def nodes : Node → List Node
  | ⟨i, k, nm, ms, a, b, f, cs⟩ => ⟨i, k, nm, ms, a, b, f, cs⟩ :: allNodes cs

/-- The nodes of several trees. -/
def allNodes : List Node → List Node
  | [] => []
  | n :: ns => n.nodes ++ allNodes ns

end

theorem nodes_eq (n : Node) : n.nodes = n :: allNodes n.children := by cases n; rfl

theorem mem_allNodes {m : Node} : ∀ {ns : List Node}, m ∈ allNodes ns ↔ ∃ n ∈ ns, m ∈ n.nodes
  | [] => by simp [allNodes]
  | n :: ns => by
    rw [allNodes, List.mem_append, mem_allNodes]
    simp

theorem mem_nodes_self (n : Node) : n ∈ n.nodes := by rw [nodes_eq]; exact List.mem_cons_self

theorem mem_nodes_of_mem_children {c n : Node} (h : c ∈ n.children) : c ∈ n.nodes := by
  rw [nodes_eq]
  exact List.mem_cons_of_mem _ (mem_allNodes.mpr ⟨c, h, mem_nodes_self c⟩)

theorem mem_nodes_iff {m n : Node} : m ∈ n.nodes ↔ m = n ∨ ∃ c ∈ n.children, m ∈ c.nodes := by
  rw [nodes_eq, List.mem_cons, mem_allNodes]

theorem mem_nodes_trans {l m n : Node} (hl : l ∈ m.nodes) (hm : m ∈ n.nodes) : l ∈ n.nodes := by
  rcases mem_nodes_iff.mp hm with rfl | ⟨c, hc, hm⟩
  · exact hl
  · exact mem_nodes_iff.mpr (Or.inr ⟨c, hc, mem_nodes_trans hl hm⟩)
termination_by n.size
decreasing_by exact size_lt_of_mem hc

theorem mem_nodes_of_mem_walkFrom {pending : List Visit} {v : Visit} (h : v ∈ walkFrom pending) :
    ∃ w ∈ pending, v.node ∈ w.node.nodes := by
  induction pending using walkFrom.induct with
  | case1 => rw [walkFrom] at h; simp at h
  | case2 u pending ih =>
    rw [walkFrom] at h
    rcases List.mem_cons.mp h with rfl | h
    · exact ⟨v, List.mem_cons_self, mem_nodes_self _⟩
    · obtain ⟨w, hw, hv⟩ := ih h
      rcases List.mem_append.mp hw with hw | hw
      · -- a child of `u`, which is pending itself
        simp only [Visit.next, namedChildren, List.mem_map, List.mem_filter] at hw
        obtain ⟨c, ⟨hc, -⟩, rfl⟩ := hw
        exact ⟨u, List.mem_cons_self, mem_nodes_trans hv (mem_nodes_of_mem_children hc)⟩
      · exact ⟨w, List.mem_cons_of_mem _ hw, hv⟩

theorem mem_nodes_of_mem_walk {root : Node} {v : Visit} (h : v ∈ root.walk) :
    v.node ∈ root.nodes := by
  obtain ⟨w, hw, hv⟩ := mem_nodes_of_mem_walkFrom h
  obtain rfl := List.mem_singleton.mp hw
  exact hv

theorem mem_nodes_of_mem_walkNodes {root n : Node} (h : n ∈ root.walkNodes) : n ∈ root.nodes := by
  obtain ⟨v, hv, rfl⟩ := List.mem_map.mp h
  exact mem_nodes_of_mem_walk hv

theorem mem_walkFrom {pending : List Visit} {w : Visit} (h : w ∈ pending) :
    w ∈ walkFrom pending := by
  induction pending using walkFrom.induct with
  | case1 => simp at h
  | case2 u pending ih =>
    rw [walkFrom]
    rcases List.mem_cons.mp h with rfl | h
    · exact List.mem_cons_self
    · exact List.mem_cons_of_mem _ (ih (List.mem_append_right _ h))

theorem mem_walkNodes_of_mem_namedChildren {c n : Node} (h : c ∈ n.namedChildren) :
    c ∈ n.walkNodes := by
  refine List.mem_map.mpr ⟨⟨c, [n]⟩, ?_, rfl⟩
  rw [walk, walkFrom]
  refine List.mem_cons_of_mem _ (mem_walkFrom (List.mem_append_left _ ?_))
  exact List.mem_map.mpr ⟨c, h, rfl⟩

/-! ### Comments and lists -/

/-- Whether a node is a comment, one of the language or one of mark-up. -/
def isRemark (n : Node) : Bool := n.isComment || n.kind == "html_comment"

/-- The children that are not comments. -/
def solid (n : Node) : List Node := n.children.filter (!·.isRemark)

/-- Whether a node counts as an item of a list. -/
def isItem (n : Node) : Bool := n.named && !n.isRemark

/-- Whether a node declares a variable. -/
def isDeclarator (n : Node) : Bool := n.named && n.kind == "variable_declarator"

/-- The nodes before the first one that satisfies `p`, and for each that does those between it and
the next one. -/
def runs (p : Node → Bool) : List Node → List Node × List (List Node)
  | [] => ([], [])
  | c :: cs =>
    let r := runs p cs
    if p c then ([], r.1 :: r.2) else (c :: r.1, r.2)

theorem runs_of_filter_cons {p : Node → Bool} {x : Node} {xs : List Node} :
    ∀ {cs : List Node}, cs.filter p = x :: xs → ∃ pre rest, cs = pre ++ x :: rest ∧
      rest.filter p = xs ∧ (runs p cs).1 = pre ∧ (runs p cs).2 = (runs p rest).1 :: (runs p rest).2
  | [], h => by simp at h
  | c :: cs, h => by
    by_cases hc : p c = true
    · rw [List.filter_cons_of_pos hc, List.cons.injEq] at h
      obtain ⟨rfl, rfl⟩ := h
      exact ⟨[], cs, rfl, rfl, by simp [runs, hc], by simp [runs, hc]⟩
    · rw [List.filter_cons_of_neg hc] at h
      obtain ⟨pre, rest, rfl, hf, h1, h2⟩ := runs_of_filter_cons h
      refine ⟨c :: pre, rest, rfl, hf, ?_, ?_⟩
      · rw [runs, if_neg hc, h1]
      · rw [runs, if_neg hc, h2]

theorem runs_of_filter_nil {p : Node → Bool} : ∀ {cs : List Node}, cs.filter p = [] →
    runs p cs = (cs, [])
  | [], _ => rfl
  | c :: cs, h => by
    have hc : ¬ p c = true := fun hc => by rw [List.filter_cons_of_pos hc] at h; simp at h
    rw [List.filter_cons_of_neg hc] at h
    rw [runs, if_neg hc, runs_of_filter_nil h]

end Node

/-! ### Ranges -/

namespace Source

/-- What stands in the range of a node. -/
def extent (s : Source) (n : Node) : Text := s.text.slice (s.start n) (s.stop n)

/-- The texts of several nodes, comments left aside. -/
def tokens (s : Source) (ns : List Node) : List Text := (ns.filter (!·.isRemark)).map s.extent

/-- Nodes that stand one behind the other between two offsets, with nothing but blanks before,
between and behind them. -/
def Tiles (s : Source) (a b : Nat) : List Node → Prop
  | [] => a ≤ b ∧ (s.text.slice a b).isBlankText = true
  | c :: cs =>
    a ≤ s.start c ∧ (s.text.slice a (s.start c)).isBlankText = true ∧ s.start c ≤ s.stop c ∧
      s.Tiles (s.stop c) b cs

instance decidableTiles (s : Source) : ∀ (a b : Nat) (cs : List Node), Decidable (s.Tiles a b cs)
  | _, _, [] => inferInstanceAs (Decidable (_ ∧ _))
  | _, b, c :: cs =>
    have := decidableTiles s (s.stop c) b cs
    inferInstanceAs (Decidable (_ ∧ _ ∧ _ ∧ _))

variable {s : Source} {a b : Nat}

theorem Tiles.le : ∀ {cs : List Node} {a : Nat}, s.Tiles a b cs → a ≤ b
  | [], _, h => h.1
  | c :: cs, a, h => by
    obtain ⟨h1, -, h2, h3⟩ := h
    have := h3.le
    omega

theorem Tiles.split {c : Node} {ys : List Node} : ∀ {xs : List Node} {a : Nat},
    s.Tiles a b (xs ++ c :: ys) → s.Tiles a (s.start c) xs ∧ s.start c ≤ s.stop c ∧
      s.Tiles (s.stop c) b ys
  | [], _, h => ⟨⟨h.1, h.2.1⟩, h.2.2⟩
  | x :: xs, _, h => by
    obtain ⟨h1, h2, h3, h4⟩ := h
    obtain ⟨h5, h6⟩ := h4.split
    exact ⟨⟨h1, h2, h3, h5⟩, h6⟩

/-- **The ink of a range** is the ink of the nodes in it. -/
theorem Tiles.ink : ∀ {cs : List Node} {a : Nat}, s.Tiles a b cs →
    (s.text.slice a b).ink = cs.flatMap fun c => (s.extent c).ink
  | [], _, h => Text.ink_of_blank h.2
  | c :: cs, a, h => by
    obtain ⟨h1, h2, h3, h4⟩ := h
    have hle := h4.le
    rw [Text.ink_slice_add s.text h1 (by omega), Text.ink_slice_add s.text h3 hle, h4.ink,
      Text.ink_of_blank h2, List.nil_append, List.flatMap_cons]
    rfl

theorem Tiles.bounds {cs : List Node} {c : Node} (h : s.Tiles a b cs) (hc : c ∈ cs) :
    a ≤ s.start c ∧ s.start c ≤ s.stop c ∧ s.stop c ≤ b := by
  obtain ⟨xs, ys, rfl⟩ := List.append_of_mem hc
  obtain ⟨h1, h2, h3⟩ := h.split
  exact ⟨h1.le, h2, h3.le⟩

theorem Tiles.extent_isInfix {cs : List Node} {c : Node} (h : s.Tiles a b cs) (hc : c ∈ cs) :
    s.extent c <:+: s.text.slice a b := by
  obtain ⟨h1, h2, h3⟩ := h.bounds hc
  exact Text.slice_infix_slice s.text h1 h2 h3

/-- Nodes that stand one behind the other between two offsets. -/
def InOrder (s : Source) (a b : Nat) : List Node → Prop
  | [] => a ≤ b
  | c :: cs => a ≤ s.start c ∧ s.start c ≤ s.stop c ∧ s.InOrder (s.stop c) b cs

theorem Tiles.inOrder : ∀ {cs : List Node} {a : Nat}, s.Tiles a b cs → s.InOrder a b cs
  | [], _, h => h.1
  | _ :: _, _, h => ⟨h.1, h.2.2.1, h.2.2.2.inOrder⟩

theorem InOrder.le : ∀ {cs : List Node} {a : Nat}, s.InOrder a b cs → a ≤ b
  | [], _, h => h
  | _ :: _, _, h => by
    have hle := h.2.2.le
    obtain ⟨h1, h2, -⟩ := h
    omega

theorem InOrder.mono {a' : Nat} (ha : a ≤ a') : ∀ {cs : List Node}, s.InOrder a' b cs →
    s.InOrder a b cs
  | [], h => Nat.le_trans ha h
  | _ :: _, h => ⟨Nat.le_trans ha h.1, h.2⟩

theorem InOrder.sublist {l cs : List Node} (hl : l.Sublist cs) {a : Nat} (h : s.InOrder a b cs) :
    s.InOrder a b l := by
  induction hl generalizing a with
  | slnil => exact h
  | cons c _ ih => exact (ih h.2.2).mono (Nat.le_trans h.1 h.2.1)
  | cons_cons c _ ih => exact ⟨h.1, h.2.1, ih h.2.2⟩

theorem InOrder.bounds {c : Node} : ∀ {cs : List Node} {a : Nat}, s.InOrder a b cs → c ∈ cs →
    a ≤ s.start c ∧ s.start c ≤ s.stop c ∧ s.stop c ≤ b
  | d :: cs, a, h, hc => by
    obtain ⟨h1, h2, h3⟩ := h
    rcases List.mem_cons.mp hc with rfl | hc
    · exact ⟨h1, h2, h3.le⟩
    · have := h3.bounds hc
      omega

/-- Whether the children of every node stand one behind the other inside its range. -/
def Nested (s : Source) : Prop := ∀ n ∈ s.root.nodes, s.InOrder (s.start n) (s.stop n) n.children

end Source

/-! ### Shapes -/

/-- A place in the shape of a construct: for a child that plays a part, or for a token. -/
inductive Place where
  | part (f : Field)
  | token (texts : List Text)

namespace Place

/-- Whether a node can stand at a place. -/
def Fits (s : Source) : Place → Node → Prop
  | part f, n => n.field = some f
  | token ts, n => n.field = none ∧ s.extent n ∈ ts

instance (s : Source) : ∀ (p : Place) (n : Node), Decidable (p.Fits s n)
  | part _, _ => inferInstanceAs (Decidable (_ = _))
  | token _, _ => inferInstanceAs (Decidable (_ ∧ _))

/-- A test, a question mark, what follows if it holds, a colon, and what follows otherwise. -/
def ternary : List Place :=
  [part .condition, token [['?']], part .consequence, token [[':']], part .alternative]

/-- An object, a dot with or without a question mark, and a property. -/
def member : List Place := [part .object, token [['.'], ['?', '.']], part .property]

/-- The word `if`, a condition and a body. -/
def conditional : List Place := [token [['i', 'f']], part .condition, part .consequence]

end Place

namespace Source

/-- Whether nodes stand at the places of a shape, one by one. -/
def Fits (s : Source) : List Place → List Node → Prop
  | [], [] => True
  | p :: ps, n :: ns => p.Fits s n ∧ s.Fits ps ns
  | _, _ => False

instance decidableFits (s : Source) : ∀ (ps : List Place) (ns : List Node), Decidable (s.Fits ps ns)
  | [], [] => inferInstanceAs (Decidable True)
  | _ :: ps, _ :: ns =>
    have := decidableFits s ps ns
    inferInstanceAs (Decidable (_ ∧ _))
  | [], _ :: _ => inferInstanceAs (Decidable False)
  | _ :: _, [] => inferInstanceAs (Decidable False)

/-- Items in parentheses, comments aside: one comma between neighbours, none before the first, and
at most one behind the last. -/
def IsArgumentList (s : Source) (cs : List Node) : Prop :=
  let r := Node.runs Node.isItem cs
  r.2 ≠ [] → s.tokens r.1 = [['(']] ∧ (∀ g ∈ r.2.dropLast, s.tokens g = [[',']]) ∧
    ∀ g ∈ r.2.getLast?, s.tokens g = [[')']] ∨ s.tokens g = [[','], [')']]

instance (s : Source) (cs : List Node) : Decidable (s.IsArgumentList cs) := by
  unfold IsArgumentList; infer_instance

/-- Declarators with one comma between neighbours, comments aside. -/
def IsDeclaration (s : Source) (cs : List Node) : Prop :=
  ∀ g ∈ (Node.runs Node.isDeclarator cs).2.dropLast, s.tokens g = [[',']]

instance (s : Source) (cs : List Node) : Decidable (s.IsDeclaration cs) := by
  unfold IsDeclaration; infer_instance

/-- Named nodes between two braces. -/
def IsBlock (s : Source) (cs : List Node) : Prop :=
  2 ≤ cs.length ∧ (∀ c ∈ cs.tail.dropLast, c.named = true) ∧
    (∀ c ∈ cs.head?, c.named = false ∧ s.extent c = ['\x7b']) ∧
    ∀ c ∈ cs.getLast?, c.named = false ∧ s.extent c = ['\x7d']

instance (s : Source) (cs : List Node) : Decidable (s.IsBlock cs) := by
  unfold IsBlock; infer_instance

/-- What holds of the range of a node, and of a comment. -/
structure Sound (s : Source) (n : Node) : Prop where
  boundary : s.text.IsBoundary n.start ∧ s.text.IsBoundary n.stop
  ordered : s.start n ≤ s.stop n
  tiled : n.children.isEmpty = false → s.Tiles (s.start n) (s.stop n) n.children
  remark : n.isRemark = true → n.field = none ∧ (s.extent n).isBlankText = false

instance (s : Source) (n : Node) : Decidable (s.Sound n) :=
  decidable_of_iff (_ ∧ _ ∧ _ ∧ _)
    ⟨fun ⟨h1, h2, h3, h4⟩ => ⟨h1, h2, h3, h4⟩, fun h => ⟨h.1, h.2, h.3, h.4⟩⟩

/-- Whether all nodes of a source are sound. -/
def WellFormed (s : Source) : Prop := ∀ n ∈ s.root.nodes, s.Sound n

instance (s : Source) : Decidable s.WellFormed := by unfold WellFormed; infer_instance

/-- The shapes of expressions, arguments and declarations. -/
structure Shaped (s : Source) (n : Node) : Prop where
  ternary : n.kind = "ternary_expression" → s.Fits Place.ternary n.solid
  member : n.kind = "member_expression" → s.Fits Place.member n.solid
  arguments : n.kind = "arguments" → s.IsArgumentList n.children
  declaration : Functions.variableKinds.contains n.kind = true → s.IsDeclaration n.children

instance (s : Source) (n : Node) : Decidable (s.Shaped n) :=
  decidable_of_iff (_ ∧ _ ∧ _ ∧ _)
    ⟨fun ⟨h1, h2, h3, h4⟩ => ⟨h1, h2, h3, h4⟩, fun h => ⟨h.1, h.2, h.3, h.4⟩⟩

/-- Whether the expressions, arguments and declarations of a source have their shapes. -/
def WellShaped (s : Source) : Prop := ∀ n ∈ s.root.nodes, s.Shaped n

instance (s : Source) : Decidable s.WellShaped := by unfold WellShaped; infer_instance

/-- Whether the conditionals and the blocks of a source have their shapes. -/
def WellBraced (s : Source) : Prop :=
  ∀ n ∈ s.root.nodes, (n.kind = "if_statement" → (n.child? .alternative).isSome = false →
    s.Fits Place.conditional n.solid) ∧ (n.kind = "statement_block" → s.IsBlock n.children)

instance (s : Source) : Decidable s.WellBraced := by unfold WellBraced; infer_instance

/-- Whether all comments of a source are named nodes of the kind `comment` that open with a mark. -/
def PlainComments (s : Source) : Prop :=
  ∀ n ∈ s.root.nodes, n.isRemark = true → n.isComment = true ∧ n.named = true ∧
    (List.isPrefixOf ['/', '/'] (s.extent n) || List.isPrefixOf ['/', '*'] (s.extent n)) = true

instance (s : Source) : Decidable s.PlainComments := by unfold PlainComments; infer_instance

/-- Whether the text of a source can be followed through its tree: ranges, shapes and comments are
as they should be. -/
structure Regular (s : Source) : Prop where
  wellFormed : s.WellFormed
  wellShaped : s.WellShaped
  plainComments : s.PlainComments

instance (s : Source) : Decidable s.Regular :=
  decidable_of_iff (_ ∧ _ ∧ _) ⟨fun ⟨h1, h2, h3⟩ => ⟨h1, h2, h3⟩, fun h => ⟨h.1, h.2, h.3⟩⟩

/-! ### What follows for a node -/

variable {s : Source} {n : Node}

theorem Sound.nodeText (h : s.Sound n) : s.nodeText n = s.extent n :=
  Text.decode_bytes_eq_slice h.boundary.1 h.boundary.2

theorem Sound.start_le (h : s.Sound n) : s.start n ≤ s.text.length :=
  Text.charOffset_le_of_boundary h.boundary.1

theorem Sound.tiles (h : s.Sound n) {c : Node} (hc : c ∈ n.children) :
    s.Tiles (s.start n) (s.stop n) n.children := by
  refine h.tiled ?_
  cases hcs : n.children with
  | nil => rw [hcs] at hc; simp at hc
  | cons _ _ => rfl

theorem fits_cons {p : Place} {ps : List Place} {ns : List Node} (h : s.Fits (p :: ps) ns) :
    ∃ m ms, ns = m :: ms ∧ p.Fits s m ∧ s.Fits ps ms := by
  cases ns with
  | nil => exact h.elim
  | cons m ms => exact ⟨m, ms, rfl, h⟩

theorem fits_nil {ns : List Node} (h : s.Fits [] ns) : ns = [] := by
  cases ns with
  | nil => rfl
  | cons m ms => exact h.elim

namespace WellFormed

variable (hs : s.WellFormed)
include hs

theorem nested : s.Nested := by
  intro n hn
  cases hcs : n.children with
  | nil => exact (hs n hn).ordered
  | cons c cs =>
    rw [← hcs]
    exact ((hs n hn).tiles (c := c) (by rw [hcs]; exact List.mem_cons_self)).inOrder

theorem sound_child (hn : n ∈ s.root.nodes) {c : Node} (hc : c ∈ n.children) : s.Sound c :=
  hs c (Node.mem_nodes_trans (Node.mem_nodes_of_mem_children hc) hn)

/-- Comments play no part, so parts can be looked for among the other children. -/
theorem child?_eq (hn : n ∈ s.root.nodes) (f : Field) :
    n.child? f = n.solid.find? (·.field == some f) := by
  have hr : ∀ c ∈ n.children, c.isRemark = true → c.field = none := fun c hc h =>
    ((hs.sound_child hn hc).remark h).1
  rw [Node.child?, Node.solid]
  generalize n.children = cs at hr ⊢
  induction cs with
  | nil => rfl
  | cons c cs ih =>
    have ih' := ih fun d hd => hr d (List.mem_cons_of_mem _ hd)
    by_cases hc : c.isRemark = true
    · rw [List.filter_cons_of_neg (by simp [hc]), List.find?_cons_of_neg, ih']
      simp [hr c List.mem_cons_self hc]
    · rw [List.filter_cons_of_pos (by simp [hc]), List.find?_cons, List.find?_cons, ih']

theorem ternary_children (hw : s.WellShaped) (hn : n ∈ s.root.nodes)
    (hk : n.kind = "ternary_expression") :
    ∃ t q c k a, n.solid = [t, q, c, k, a] ∧ n.child? .condition = some t ∧
      n.child? .consequence = some c ∧ n.child? .alternative = some a ∧
      s.extent q = ['?'] ∧ s.extent k = [':'] := by
  obtain ⟨t, ns, h0, ht, hfit⟩ := fits_cons ((hw n hn).ternary hk)
  obtain ⟨q, ns, rfl, ⟨hqf, hq⟩, hfit⟩ := fits_cons hfit
  obtain ⟨c, ns, rfl, hc, hfit⟩ := fits_cons hfit
  obtain ⟨k, ns, rfl, ⟨hkf, hk'⟩, hfit⟩ := fits_cons hfit
  obtain ⟨a, ns, rfl, ha, hfit⟩ := fits_cons hfit
  obtain rfl := fits_nil hfit
  have ht' : t.field = some .condition := ht
  have hc' : c.field = some .consequence := hc
  have ha' : a.field = some .alternative := ha
  refine ⟨t, q, c, k, a, h0, ?_, ?_, ?_, by simpa using hq, by simpa using hk'⟩
  · rw [hs.child?_eq hn, h0]; simp [ht']
  · rw [hs.child?_eq hn, h0]; simp [ht', hqf, hc']
  · rw [hs.child?_eq hn, h0]; simp [ht', hqf, hc', hkf, ha']

theorem member_children (hw : s.WellShaped) (hn : n ∈ s.root.nodes)
    (hk : n.kind = "member_expression") :
    ∃ o d p, n.solid = [o, d, p] ∧ n.child? .object = some o ∧ n.child? .property = some p ∧
      (s.extent d = ['.'] ∨ s.extent d = ['?', '.']) := by
  obtain ⟨o, ns, h0, ho, hfit⟩ := fits_cons ((hw n hn).member hk)
  obtain ⟨d, ns, rfl, ⟨hdf, hd⟩, hfit⟩ := fits_cons hfit
  obtain ⟨p, ns, rfl, hp, hfit⟩ := fits_cons hfit
  obtain rfl := fits_nil hfit
  have ho' : o.field = some .object := ho
  have hp' : p.field = some .property := hp
  refine ⟨o, d, p, h0, ?_, ?_, by simpa using hd⟩
  · rw [hs.child?_eq hn, h0]; simp [ho']
  · rw [hs.child?_eq hn, h0]; simp [ho', hdf, hp']

theorem conditional_children (hb : s.WellBraced) (hn : n ∈ s.root.nodes)
    (hk : n.kind = "if_statement") (halt : (n.child? .alternative).isSome = false) :
    ∃ w c b, n.solid = [w, c, b] ∧ n.child? .condition = some c ∧
      n.child? .consequence = some b ∧ s.extent w = ['i', 'f'] := by
  obtain ⟨w, ns, h0, ⟨hwf, hw⟩, hfit⟩ := fits_cons ((hb n hn).1 hk halt)
  obtain ⟨c, ns, rfl, hc, hfit⟩ := fits_cons hfit
  obtain ⟨b, ns, rfl, hbf, hfit⟩ := fits_cons hfit
  obtain rfl := fits_nil hfit
  have hc' : c.field = some .condition := hc
  have hb' : b.field = some .consequence := hbf
  refine ⟨w, c, b, h0, ?_, ?_, by simpa using hw⟩
  · rw [hs.child?_eq hn, h0]; simp [hwf, hc']
  · rw [hs.child?_eq hn, h0]; simp [hwf, hc', hb']

end WellFormed

/-! ### Comments -/

theorem PlainComments.solid_eq (hp : s.PlainComments) (hn : n ∈ s.root.nodes)
    (hc : n.containsComment = false) : n.solid = n.children := by
  refine List.filter_eq_self.mpr fun c hcn => ?_
  by_contra hr
  have hr' : c.isRemark = true := by simpa using hr
  obtain ⟨h1, h2, -⟩ := hp c (Node.mem_nodes_trans (Node.mem_nodes_of_mem_children hcn) hn) hr'
  have hmem : c ∈ n.walkNodes :=
    Node.mem_walkNodes_of_mem_namedChildren (List.mem_filter.mpr ⟨hcn, h2⟩)
  have := List.any_eq_false.mp hc c hmem
  exact this h1

theorem PlainComments.hasCommentMark (hp : s.PlainComments) (hn : n ∈ s.root.nodes)
    (hr : n.isRemark = true) {t : Text} (ht : s.extent n <:+: t) : t.hasCommentMark = true := by
  obtain ⟨-, -, hmark⟩ := hp n hn hr
  rw [Text.hasCommentMark_iff]
  rw [Bool.or_eq_true, List.isPrefixOf_iff_prefix, List.isPrefixOf_iff_prefix] at hmark
  rcases hmark with hmark | hmark
  · exact Or.inl (hmark.isInfix.trans ht)
  · exact Or.inr (hmark.isInfix.trans ht)

end Source

/-- Whether all clean trees that a parser gives have a property. -/
def Parser.Gives (p : Parser) (P : Source → Prop) : Prop :=
  ∀ language text s, p.parseClean? language text = some s → P s

/-! ### Trees by hand -/

/-- A token of a tree. -/
def Node.token (id : Nat) (text : String) (a b : Nat) : Node :=
  ⟨id, text, false, false, a, b, none, []⟩

/-- A construct of the grammar. -/
def Node.construct (id : Nat) (kind : String) (a b : Nat) (f : Option Field) (cs : List Node) :
    Node :=
  ⟨id, kind, true, false, a, b, f, cs⟩

/-- A parser that knows the trees of a few texts, all without errors. -/
def Parser.ofTable (table : List (Text × Node)) : Parser := fun _ t =>
  (table.lookup t).map fun root => ⟨root, false⟩

theorem Parser.gives_ofTable {P : Source → Prop} {table : List (Text × Node)}
    (h : ∀ e ∈ table, P ⟨e.1, e.2, false⟩) : (Parser.ofTable table).Gives P := by
  intro language t s hs
  obtain ⟨hs, -⟩ := Option.filter_eq_some_iff.mp hs
  rw [Parser.parse?] at hs
  cases hl : Language.ofName? language with
  | none => rw [hl] at hs; simp at hs
  | some l =>
    rw [hl] at hs
    obtain ⟨r, hr, rfl⟩ := Option.map_eq_some_iff.mp hs
    obtain ⟨root, hroot, rfl⟩ := Option.map_eq_some_iff.mp hr
    obtain ⟨l₁, l₂, rfl, -⟩ := List.lookup_eq_some_iff.mp hroot
    exact h (t, root) (by simp)

end HouseStyle
