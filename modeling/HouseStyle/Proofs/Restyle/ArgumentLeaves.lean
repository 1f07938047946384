import HouseStyle.Proofs.Restyle.CallArguments
import HouseStyle.Proofs.Restyle.WithinLines

/-! # The leaves of joined arguments

When the arguments of a call are joined, their continuation lines lose indents. The text of a node
loses them leaf by leaf, and between the leaves there is nothing to lose but blanks
(`spread_leaves`). So the new text is made of the leaves of the arguments in their order, each as it
is or without some spaces and tabs (`spread_compact?`).

A leaf stays as it is exactly if no space or tab in it stands in an indent that its argument loses
(`dedented_eq_iff`). Literals over several lines are looked for by their kinds, and where the kinds
do not cover all leaves with a line feed, a literal is changed (`compact?_literalType`). -/

namespace HouseStyle

open HouseStyle.Text

/-- Whether the indents of lines reach into a leaf: it has a line feed, or it opens with a space or
a tab and nothing else stands before it on its line. -/
def Source.Exposed (s : Source) (l : Node) : Prop :=
  '\n' ∈ s.extent l ∨
    (s.beforeNode l).all isIndentChar = true ∧ (s.extent l).head?.any isIndentChar = true

instance (s : Source) (l : Node) : Decidable (s.Exposed l) := by
  unfold Source.Exposed; infer_instance

namespace CallArguments

variable {s : Source} {count : Nat}

/-! ### Leaf by leaf -/

/-- What becomes of a leaf when the text of a node that it stands in loses indents. -/
def dedented (s : Source) (count : Nat) (n l : Node) : Text :=
  dedentLines count (allowance count 0 (s.text.slice (s.start n) (s.start l))) (s.extent l)

/-- A range that nodes tile loses indents node by node; `o` is where the loss starts. -/
theorem spread_tiles {f : Node → List Text} {o b : Nat} :
    ∀ {cs : List Node} {a : Nat}, o ≤ a → s.Tiles a b cs →
    (∀ c ∈ cs, o ≤ s.start c → Spread (f c)
      (dedentLines count (allowance count 0 (s.text.slice o (s.start c))) (s.extent c))) →
    Spread (cs.flatMap f) (dedentLines count (allowance count 0 (s.text.slice o a))
      (s.text.slice a b))
  | [], _, _, h, _ => .blank (isBlankText_dedentLines _ h.2)
  | c :: cs, a, ho, h, hc => by
    obtain ⟨h1, h2, h3, h4⟩ := h
    have hle := h4.le
    have hfirst := hc c List.mem_cons_self (by omega)
    have hrest := spread_tiles (by omega) h4 fun d hd => hc d (List.mem_cons_of_mem _ hd)
    have hallow : ∀ {i j : Nat}, o ≤ i → i ≤ j →
        allowance count (allowance count 0 (s.text.slice o i)) (s.text.slice i j) =
          allowance count 0 (s.text.slice o j) := fun hi hj => by
      rw [← allowance_append, slice_append_slice s.text hi hj]
    rw [← slice_append_slice s.text h1 (Nat.le_trans h3 hle), ← slice_append_slice s.text h3 hle,
      dedentLines_append, dedentLines_append, hallow ho h1, hallow (Nat.le_trans ho h1) h3]
    exact (hfirst.append hrest).blank_append (isBlankText_dedentLines _ h2)

/-- **A node loses indents leaf by leaf.** -/
theorem spread_leaves (count : Nat) (hs : s.WellFormed) {n : Node} (hn : n ∈ s.root.nodes) {o : Nat}
    (ho : o ≤ s.start n) :
    Spread (n.leaves.map fun l =>
        dedentLines count (allowance count 0 (s.text.slice o (s.start l))) (s.extent l))
      (dedentLines count (allowance count 0 (s.text.slice o (s.start n))) (s.extent n)) := by
  cases hcs : n.children.isEmpty with
  | true =>
    rw [Node.leaves_of_isEmpty hcs]
    exact Spread.singleton _
  | false =>
    rw [Node.leaves_of_children hcs, List.map_flatMap]
    refine spread_tiles ho ((hs n hn).tiled hcs) fun c hc hoc => ?_
    exact spread_leaves count hs (Node.mem_nodes_trans (Node.mem_nodes_of_mem_children hc) hn) hoc
termination_by n.size
decreasing_by exact Node.size_lt_of_mem hc

theorem spread_dedented (hs : s.WellFormed) {n : Node} (hn : n ∈ s.root.nodes) :
    Spread (n.leaves.map (dedented s count n)) (dedentLines count 0 (s.extent n)) := by
  have h := spread_leaves count hs hn (Nat.le_refl _)
  rw [slice_self] at h
  exact h

/-! ### Leaves that stay -/

/-- **A leaf stays as it is** exactly if none of its spaces and tabs stands in an indent that is
lost. -/
theorem dedented_eq_iff {n l : Node} : dedented s count n l = s.extent l ↔
    ∀ p b q, s.extent l = p ++ b :: q → isIndentChar b = true →
      ¬ InIndent count (s.text.slice (s.start n) (s.start l) ++ p) := by
  rw [dedented, dedentLines_eq_self_iff]
  refine forall₃_congr fun p b q => forall₂_congr fun _ _ => ?_
  rw [← allowance_append, ← allowance_pos_iff, Nat.pos_iff_ne_zero, not_not]

theorem dedented_of_not_exposed {n l : Node} (hle : s.start n ≤ s.start l)
    (hlen : s.start l ≤ s.text.length) (hl : ¬ s.Exposed l) :
    dedented s count n l = s.extent l := by
  refine dedented_eq_iff.mpr ?_
  rintro p b q hext hb ⟨u, v, huv, hv, -⟩
  refine hl ?_
  rw [Source.Exposed, hext]
  rcases List.append_eq_append_iff.mp huv with ⟨w, -, hp⟩ | ⟨w, hslice, hw⟩
  · -- the line feed stands in the leaf
    refine Or.inl (List.mem_append_left _ ?_)
    rw [hp]
    simp
  · cases w with
    | nil =>
      refine Or.inl (List.mem_append_left _ ?_)
      rw [List.nil_append] at hw
      rw [← hw]
      exact List.mem_cons_self
    | cons d w =>
      -- the line feed stands before the leaf, and between the two there are only spaces and tabs
      rw [List.cons_append, List.cons.injEq] at hw
      obtain ⟨rfl, rfl⟩ := hw
      rw [List.all_append, Bool.and_eq_true] at hv
      have hfeed : '\n' ∉ w := fun hmem => absurd (List.all_eq_true.mp hv.1 _ hmem) (by decide)
      have hbefore : s.beforeNode l = w := by
        rw [s.beforeNode_eq_lastLine hlen, ← take_append_slice s.text hle, hslice,
          ← List.singleton_append, ← List.append_assoc, ← List.append_assoc]
        exact EndsAtLineStart.lastLine_append (Or.inr ⟨_, rfl⟩) hfeed
      refine Or.inr ⟨by rw [hbefore, hv.1], ?_⟩
      cases p with
      | nil => exact hb
      | cons d p => exact List.all_eq_true.mp hv.2 d List.mem_cons_self

/-! ### Joined arguments -/

theorem not_isMultiline_of_plain {n : Node} (hk : n.kind = "arguments")
    (hc : n.containsComment = false) (hplain : ∀ y ∈ n.codeChildren, hasMultilineText s y = false)
    {m : Node} (hm : m ∈ n.walkNodes) (ht : textKinds.contains m.kind = true) :
    s.isMultiline m = false := by
  rcases Node.mem_walkNodes_iff.mp hm with rfl | ⟨c, hcn, hmc⟩
  · rw [hk] at ht
    exact absurd ht (by decide)
  · have hcode : c ∈ n.codeChildren := by
      have := List.any_eq_false.mp hc c (Node.mem_walkNodes_of_mem_namedChildren hcn)
      exact List.mem_filter.mpr ⟨hcn, by simpa using this⟩
    have := List.any_eq_false.mp (hplain c hcode) m hmc
    rw [ht, Bool.true_and] at this
    simpa using this

/-- **Joining arguments, leaf by leaf.** The new text is made of the leaves of the arguments in
their order, with nothing but blanks between them. What a leaf has lost are spaces and tabs in the
indents of lines that start inside its argument, so a leaf stays as it is exactly if it has none
there. All leaves stay if those that indents reach into stand in literals over several lines, of the
kinds that are looked for. -/
theorem spread_compact? (hs : s.Regular) {n : Node} (hn : n ∈ s.root.walkNodes) {r : Replacement}
    (h : compact? s n = some r) :
    ∃ a x, n.child? .arguments = some a ∧ a.codeChildren.head? = some x ∧
      Spread (a.children.flatMap fun c => c.leaves.map (dedented s (extraIndent s a x) c)) r.text ∧
      (∀ c ∈ a.children, ∀ l ∈ c.leaves, dedented s (extraIndent s a x) c l = s.extent l ↔
        ∀ p b q, s.extent l = p ++ b :: q → isIndentChar b = true →
          ¬ InIndent (extraIndent s a x) (s.text.slice (s.start c) (s.start l) ++ p)) ∧
      ((∀ l ∈ a.leaves, s.Exposed l → ∃ m ∈ a.walkNodes, textKinds.contains m.kind = true ∧
        s.isMultiline m = true ∧ l ∈ m.leaves) → Spread (a.leaves.map s.extent) r.text) := by
  obtain ⟨a, ha, hchild, hka, h⟩ := of_compact? hn h
  obtain ⟨x, xs, last, hx, hl, hpos, hc, hplain, hpar, -, -, htext⟩ := of_compactArguments? h
  have hxa : x ∈ a.children :=
    Node.mem_children_of_mem_codeChildren (by rw [hx]; exact List.mem_cons_self)
  have hchildren : ∀ c ∈ a.children, c ∈ s.root.nodes := fun c hc =>
    Node.mem_nodes_trans (Node.mem_nodes_of_mem_children hc) ha
  have hspread : Spread (a.children.flatMap fun c =>
      c.leaves.map (dedented s (extraIndent s a x) c)) r.text := by
    have hjoined :=
      spread_joined hs ha hka hc hx hl (Nat.sub_add_cancel hpos) hpar (extraIndent s a x)
    rw [List.map_map, ← htext] at hjoined
    exact hjoined.flatMap fun c hc => spread_dedented hs.wellFormed (hchildren c hc)
  refine ⟨a, x, hchild, by rw [hx]; rfl, hspread, fun c _ l _ => dedented_eq_iff, fun hlit => ?_⟩
  -- no leaf stands in such a literal, so indents reach into none
  have hkept : ∀ c ∈ a.children, ∀ l ∈ c.leaves,
      dedented s (extraIndent s a x) c l = s.extent l := by
    intro c hca l hlc
    have hlc' := Node.mem_nodes_of_mem_leaves hlc
    have hbounds := Source.bounds_of_mem_nodes hs.wellFormed (hchildren c hca) hlc'
    have hlen := (hs.wellFormed l (Node.mem_nodes_trans hlc' (hchildren c hca))).start_le
    refine dedented_of_not_exposed hbounds.1 hlen fun hexp => ?_
    have hla : l ∈ a.leaves := by
      rw [Node.leaves_of_mem_children hca]
      exact List.mem_flatMap.mpr ⟨c, hca, hlc⟩
    obtain ⟨m, hm, hkm, hmulti, -⟩ := hlit l hla hexp
    rw [not_isMultiline_of_plain hka hc (by rw [hx]; exact hplain) hm hkm] at hmulti
    cases hmulti
  rw [Node.leaves_of_mem_children hxa, List.map_flatMap]
  rw [List.flatMap_congr fun c hca => List.map_congr_left fun l hlc => hkept c hca l hlc] at hspread
  exact hspread

/-- A call with a list over several lines. -/
def brokenList : Source where
  text := "f(\n    [\n        1\n    ]\n)".toList
  root := .construct 0 "call_expression" 0 26 none
    [.construct 1 "identifier" 0 1 (some .function) [],
      .construct 2 "arguments" 1 26 (some .arguments)
        [.token 3 "(" 1 2,
          .construct 4 "array" 7 24 none
            [.token 5 "[" 7 8, .construct 6 "number" 17 18 none [], .token 7 "]" 23 24],
          .token 8 ")" 25 26]]
  hasErrors := false

/-- The list comes to the indent of the call, and its leaves stay. -/
theorem spread_compact?_brokenList :
    compact? brokenList brokenList.root = some ⟨1, 26, "([\n    1\n])".toList⟩ ∧
      Spread [['('], ['['], ['1'], [']'], [')']] "([\n    1\n])".toList := by
  have h : compact? brokenList brokenList.root = some ⟨1, 26, "([\n    1\n])".toList⟩ := by
    decide +kernel
  have hleaves : ∀ a ∈ brokenList.root.child? .arguments, (∀ l ∈ a.leaves, ¬ brokenList.Exposed l) ∧
      a.leaves.map brokenList.extent = [['('], ['['], ['1'], [']'], [')']] := by decide +kernel
  obtain ⟨a, x, ha, -, -, -, hspread⟩ :=
    spread_compact? (by decide +kernel) (Node.mem_walkNodes_iff.mpr (Or.inl rfl)) h
  obtain ⟨hnone, htexts⟩ := hleaves a ha
  rw [htexts] at hspread
  exact ⟨h, hspread fun l hl hexp => absurd hexp (hnone l hl)⟩

/-- A call with a literal type over two lines. -/
def literalType : Source where
  text := "f(\n    x as `a\n    b`\n)".toList
  root := .construct 0 "call_expression" 0 23 none
    [.construct 1 "identifier" 0 1 (some .function) [],
      .construct 2 "arguments" 1 23 (some .arguments)
        [.token 3 "(" 1 2,
          .construct 4 "as_expression" 7 21 none
            [.construct 5 "identifier" 7 8 none [], .token 6 "as" 9 11,
              .construct 7 "template_literal_type" 12 21 none
                [.token 8 "`" 12 13, .construct 9 "string_fragment" 13 20 none [],
                  .token 10 "`" 20 21]], .token 11 ")" 22 23]]
  hasErrors := false

/-- The literal loses the indent of its second line. -/
theorem compact?_literalType :
    literalType.Regular ∧
      compact? literalType literalType.root = some ⟨1, 23, "(x as `a\nb`)".toList⟩ ∧
      ∃ a, literalType.root.child? .arguments = some a ∧
        ∃ l ∈ a.leaves, literalType.extent l = "a\n    b".toList ∧
          ¬ literalType.extent l <:+: "(x as `a\nb`)".toList :=
  ⟨by decide +kernel, by decide +kernel, _, rfl, by decide +kernel⟩

end CallArguments

end HouseStyle
