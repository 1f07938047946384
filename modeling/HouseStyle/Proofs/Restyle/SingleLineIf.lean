import HouseStyle.Proofs.Restyle.Context
import HouseStyle.Proofs.Tree.LineFeeds
import HouseStyle.Restyle.SingleLineIf
import Mathlib.Data.List.Flatten

/-! # What putting a conditional on one line does

A conditional is written anew from the word `if`, its condition and its statement. A block that
gives way to its statement holds nothing besides but its braces (`ink_statement?`), so the ink
written is that of the word, the condition and the body, the braces of a block aside
(`ink_collapse?`). This is all the ink of the conditional exactly if none of its children is a
comment (`ink_collapse?_iff`): a comment that stands beside the condition and the body is lost, and
the checks made before do not see one between `if` and the condition.

The statement stood on the next row, so every collapse takes a line feed out (`count_collapse?_lt`),
and a pass that has an effect leaves fewer lines (`pass_eq_or_count_lt`). -/

namespace HouseStyle.SingleLineIf

open HouseStyle.Text

/-- The ink of a body: of a block, what its braces hold. -/
def bodyInk (s : Source) (body : Node) : Text :=
  if body.kind = "statement_block" then (s.extent body).ink.inner else (s.extent body).ink

/-- The ink of a conditional with a body, less the braces of a block. -/
def inkLessBraces (s : Source) (n body : Node) : Text :=
  ink (s.text.slice (s.start n) (s.start body)) ++ bodyInk s body ++
    ink (s.text.slice (s.stop body) (s.stop n))

theorem of_collapse? {s : Source} {n : Node} {r : Replacement} (h : collapse? s n = some r) :
    n.kind = "if_statement" ∧ (n.child? .alternative).isSome = false ∧
      ∃ condition body st, n.child? .condition = some condition ∧
        n.child? .consequence = some body ∧
        s.row condition = s.row n ∧ s.endRow condition = s.row n ∧
        statement? s (s.row n) body = some st ∧ fits s (s.row n) condition st = true ∧
        r = ⟨s.start n, s.stop n, oneLine s condition st⟩ := by
  simp only [collapse?] at h
  split_ifs at h with hno
  rw [not_or, ne_eq, Decidable.not_not, Bool.not_eq_true] at hno
  refine ⟨hno.1, hno.2, ?_⟩
  split at h
  · rename_i condition body hcond hbody
    split_ifs at h with hrow
    rw [not_or, ne_eq, Decidable.not_not, ne_eq, Decidable.not_not] at hrow
    split at h
    · rename_i st hst
      split_ifs at h with hfits
      exact ⟨condition, body, st, hcond, hbody, hrow.1, hrow.2, hst, hfits,
        (Option.some.inj h).symm⟩
    · simp at h
  · simp at h

theorem of_statement? {s : Source} {row : Nat} {body st : Node}
    (h : statement? s row body = some st) :
    (body.kind = "statement_block" ∧ body.containsComment = false ∧ body.codeChildren = [st]) ∨
      (body.kind ≠ "statement_block" ∧ st = body) := by
  rw [statement?] at h
  split_ifs at h with hk hc
  · split at h
    · rename_i st' hst
      split_ifs at h
      cases h
      exact Or.inl ⟨hk, by simpa using hc, hst⟩
    · simp at h
  · exact Or.inr ⟨hk, (Option.some.inj h).symm⟩

section Source
variable {s : Source} (hs : s.WellFormed)
include hs

/-! ### Bodies -/

theorem ink_block (hb : s.WellBraced) {body st : Node} (hn : body ∈ s.root.nodes)
    (hk : body.kind = "statement_block") (hc : body.containsComment = false)
    (hst : body.codeChildren = [st]) : ink (s.extent body) =
      '\x7b' :: ink (s.extent st) ++ ['\x7d'] := by
  obtain ⟨hlen, hmid, hfirst, hlast⟩ := (hb body hn).2 hk
  obtain ⟨x, l, hx⟩ : ∃ x l, body.children = x :: l :=
    List.exists_cons_of_ne_nil fun h => by rw [h] at hlen; simp at hlen
  obtain ⟨mid, y, rfl⟩ : ∃ mid y, l = mid ++ [y] := by
    have hne : l ≠ [] := fun h => by rw [hx, h] at hlen; simp at hlen
    exact ⟨l.dropLast, l.getLast hne, (List.dropLast_concat_getLast hne).symm⟩
  obtain ⟨hxn, hxe⟩ := hfirst x (by rw [hx]; rfl)
  obtain ⟨hyn, hye⟩ := hlast y (by rw [hx, ← List.cons_append, List.getLast?_concat]; rfl)
  have hmid' : ∀ c ∈ mid, c.named = true := fun c hcm => hmid c (by rw [hx]; simpa using hcm)
  -- what stands between the braces is named and no comment, so it is the statement
  have hnc : ∀ c ∈ mid, c.isComment = false := fun c hcm => by
    have hmem : c ∈ body.namedChildren :=
      List.mem_filter.mpr ⟨by rw [hx]; simp [hcm], hmid' c hcm⟩
    simpa using List.any_eq_false.mp hc c (Node.mem_walkNodes_of_mem_namedChildren hmem)
  have hcode : body.codeChildren = mid := by
    rw [Node.codeChildren, Node.namedChildren, hx, List.filter_cons_of_neg (by simp [hxn]),
      List.filter_append, List.filter_eq_self.mpr hmid', List.filter_cons_of_neg (by simp [hyn]),
      List.filter_nil, List.append_nil, List.filter_eq_self.mpr fun c hcm => by rw [hnc c hcm]; rfl]
  rw [hcode] at hst
  have ht := (hs body hn).tiles (c := x) (by rw [hx]; exact List.mem_cons_self)
  rw [Source.extent, ht.ink, hx, hst]
  simp [hxe, hye, ink, isBlank]

/-- **The statement of a body** has the ink of the body, the braces of a block aside. -/
theorem ink_statement? (hb : s.WellBraced) {row : Nat} {body st : Node} (hn : body ∈ s.root.nodes)
    (h : statement? s row body = some st) : ink (s.nodeText st) = bodyInk s body := by
  rcases of_statement? h with ⟨hk, hc, hst⟩ | ⟨hk, rfl⟩
  · have hmem : st ∈ body.children :=
      Node.mem_children_of_mem_codeChildren (by rw [hst]; exact List.mem_cons_self)
    rw [bodyInk, if_pos hk, (hs.sound_child hn hmem).nodeText, ink_block hs hb hn hk hc hst,
      Text.inner, List.cons_append, List.tail_cons, List.dropLast_concat]
  · rw [bodyInk, if_neg hk, (hs _ hn).nodeText]

/-! ### Comments -/

theorem length_ink_solid_lt {n c : Node} (hn : n ∈ s.root.nodes) (hc : c ∈ n.children)
    (hr : c.isRemark = true) :
    (n.solid.flatMap fun c => (s.extent c).ink).length <
      (n.children.flatMap fun c => (s.extent c).ink).length := by
  have hpos : 0 < (s.extent c).ink.length := by
    rw [List.length_pos_iff, ne_eq, ink_eq_nil_iff, ((hs.sound_child hn hc).remark hr).2]
    exact Bool.false_ne_true
  obtain ⟨xs, ys, hcs⟩ := List.append_of_mem hc
  have hle : ∀ cs : List Node,
      ((cs.filter (!·.isRemark)).flatMap fun c => (s.extent c).ink).length ≤
        (cs.flatMap fun c => (s.extent c).ink).length :=
    fun cs => (List.filter_sublist.flatMap _).length_le
  rw [Node.solid, hcs, List.filter_append, List.filter_cons_of_neg (by simp [hr]),
    List.flatMap_append, List.flatMap_append, List.flatMap_cons, List.length_append,
    List.length_append, List.length_append]
  have hxs := hle xs
  have hys := hle ys
  omega

theorem ink_collapse? (hb : s.WellBraced) {n : Node} (hn : n ∈ s.root.nodes) {r : Replacement}
    (h : collapse? s n = some r) :
    ∃ word condition body, n.solid = [word, condition, body] ∧
      n.child? .consequence = some body ∧
      r.text.ink = ink (s.extent word) ++ ink (s.extent condition) ++ bodyInk s body := by
  obtain ⟨hk, halt, condition, body, st, hcond, hbody, -, -, hst, -, rfl⟩ := of_collapse? h
  obtain ⟨w, c, b, hsol, hc, hb', hw⟩ := hs.conditional_children hb hn hk halt
  rw [hcond] at hc; rw [hbody] at hb'
  cases hc; cases hb'
  have hbn := Node.mem_nodes_trans
    (Node.mem_nodes_of_mem_children (Node.mem_children_of_child? hbody)) hn
  refine ⟨w, condition, body, hsol, hbody, ?_⟩
  rw [oneLine, ink_append, ink_append, ink_append, ink_statement? hs hb hbn hst, hw,
    (hs.sound_child hn (Node.mem_children_of_child? hcond)).nodeText]
  simp [ink, isBlank]

theorem ink_around_body {n word condition body : Node} (hn : n ∈ s.root.nodes)
    (hsol : n.solid = [word, condition, body]) :
    ∃ pre post, n.children = pre ++ body :: post ∧
      pre.filter (!·.isRemark) = [word, condition] ∧ post.filter (!·.isRemark) = [] ∧
      ink (s.text.slice (s.start n) (s.start body)) = pre.flatMap (fun c => (s.extent c).ink) ∧
      ink (s.text.slice (s.stop body) (s.stop n)) = post.flatMap (fun c => (s.extent c).ink) := by
  obtain ⟨pre, l, hc, hpre, hl⟩ :=
    List.filter_eq_append_iff.mp (show n.children.filter _ = [word, condition] ++ [body] from hsol)
  obtain ⟨mid, post, rfl, hmid, -, hpost⟩ := List.filter_eq_cons_iff.mp hl
  have hcs : n.children = (pre ++ mid) ++ body :: post := by rw [hc, List.append_assoc]
  have ht := (hs n hn).tiles (c := body) (by rw [hcs]; simp)
  rw [hcs] at ht
  obtain ⟨ht₁, -, ht₂⟩ := ht.split
  refine ⟨pre ++ mid, post, hcs, ?_, hpost, ht₁.ink, ht₂.ink⟩
  rw [List.filter_append, hpre, List.filter_eq_nil_iff.mpr hmid, List.append_nil]

/-- **What a collapse keeps.** Less the braces of a block, the ink written is all the ink of the
range exactly if no child of the conditional is a comment. -/
theorem ink_collapse?_iff (hb : s.WellBraced) {n : Node} (hn : n ∈ s.root.nodes) {r : Replacement}
    (h : collapse? s n = some r) :
    ∃ body, n.child? .consequence = some body ∧
      (r.replaced s.text).ink = ink (s.text.slice (s.start n) (s.start body)) ++
        ink (s.extent body) ++ ink (s.text.slice (s.stop body) (s.stop n)) ∧
      (body.kind = "statement_block" → ∃ t, ink (s.extent body) = '\x7b' :: t ++ ['\x7d']) ∧
      (r.text.ink = inkLessBraces s n body ↔ ∀ c ∈ n.children, c.isRemark = false) := by
  obtain ⟨w, c, body, hsol, hbody, hink⟩ := ink_collapse? hs hb hn h
  obtain ⟨-, -, _, body', st, -, hbody', -, -, hst, -, hr⟩ := of_collapse? h
  rw [hbody] at hbody'
  cases hbody'
  have hmem := Node.mem_children_of_child? hbody
  have hbn := Node.mem_nodes_trans (Node.mem_nodes_of_mem_children hmem) hn
  refine ⟨body, hbody, ?_, ?_, ?_⟩
  · obtain ⟨h1, h2, h3⟩ := ((hs n hn).tiles hmem).bounds hmem
    rw [hr]
    change ink (s.extent n) = _
    rw [Source.extent, ink_slice_add s.text (b := s.stop body) (by omega) h3,
      ink_slice_add s.text h1 h2]
    rfl
  · intro hk
    rcases of_statement? hst with ⟨-, hc, hcode⟩ | ⟨hno, -⟩
    · exact ⟨_, ink_block hs hb hbn hk hc hcode⟩
    · exact absurd hk hno
  · obtain ⟨pre, post, hcs, hpre, hpost, hbefore, hafter⟩ := ink_around_body hs hn hsol
    rw [inkLessBraces, hink, hbefore, hafter]
    constructor
    · -- the lengths would differ by the ink of the comments
      intro heq m hm
      by_contra hrem
      have hlt := length_ink_solid_lt hs hn hm (by simpa using hrem)
      have hlen := congrArg List.length heq
      rw [hsol, hcs] at hlt
      simp only [List.flatMap_append, List.flatMap_cons, List.flatMap_nil, List.length_append,
        List.length_nil] at hlt hlen
      omega
    · intro hno
      rw [List.filter_eq_self.mpr fun m hm => by rw [hno m (by rw [hcs]; simp [hm])]; rfl]
        at hpre hpost
      rw [hpre, hpost]
      simp

end Source

/-- A conditional with its statement in braces. -/
def bracedIf : Source where
  text := "if (a) \x7b\n  go();\n\x7d".toList
  root := .construct 0 "if_statement" 0 18 none
    [.token 1 "if" 0 2,
      .construct 2 "parenthesized_expression" 3 6 (some .condition)
        [.token 3 "(" 3 4, .construct 4 "identifier" 4 5 none [], .token 5 ")" 5 6],
      .construct 6 "statement_block" 7 18 (some .consequence)
        [.token 7 "\x7b" 7 8,
          .construct 8 "expression_statement" 11 16 none
            [.construct 9 "call_expression" 11 15 none
              [.construct 10 "identifier" 11 13 (some .function) [],
                .construct 11 "arguments" 13 15 (some .arguments)
                  [.token 12 "(" 13 14, .token 13 ")" 14 15]], .token 14 ";" 15 16],
          .token 15 "\x7d" 17 18]]
  hasErrors := false

/-- Without comments, all the ink of the conditional is kept but that of the braces. -/
theorem ink_collapse?_bracedIf :
    collapse? bracedIf bracedIf.root = some ⟨0, 18, "if (a) go();".toList⟩ ∧
      ∃ body, bracedIf.root.child? .consequence = some body ∧
        ink "if (a) go();".toList = inkLessBraces bracedIf bracedIf.root body := by
  have h : collapse? bracedIf bracedIf.root = some ⟨0, 18, "if (a) go();".toList⟩ := by
    decide +kernel
  obtain ⟨body, hbody, -, -, hiff⟩ :=
    ink_collapse?_iff (by decide +kernel) (by decide +kernel) (Node.mem_nodes_self _) h
  exact ⟨h, body, hbody, hiff.mpr (by decide +kernel)⟩

/-- A conditional with a comment before its condition. -/
def notedIf : Source where
  text := "if /* why */ (a)\n  go();".toList
  root := .construct 0 "if_statement" 0 24 none
    [.token 1 "if" 0 2, .construct 2 "comment" 3 12 none [],
      .construct 3 "parenthesized_expression" 13 16 (some .condition)
        [.token 4 "(" 13 14, .construct 5 "identifier" 14 15 none [], .token 6 ")" 15 16],
      .construct 7 "expression_statement" 19 24 (some .consequence)
        [.construct 8 "call_expression" 19 23 none
          [.construct 9 "identifier" 19 21 (some .function) [],
            .construct 10 "arguments" 21 23 (some .arguments)
              [.token 11 "(" 21 22, .token 12 ")" 22 23]], .token 13 ";" 23 24]]
  hasErrors := false

/-- A comment between `if` and the condition is lost. -/
theorem ink_collapse?_notedIf :
    notedIf.WellFormed ∧ notedIf.WellBraced ∧ notedIf.PlainComments ∧
      ∃ r, collapse? notedIf notedIf.root = some r ∧
        ∀ body ∈ notedIf.root.child? .consequence,
          (r.replaced notedIf.text).ink = "if/*why*/(a)go();".toList ∧
          r.text.ink = "if(a)go();".toList ∧
          r.text.ink ≠ inkLessBraces notedIf notedIf.root body := by
  refine ⟨by decide +kernel, by decide +kernel, by decide +kernel,
    ⟨0, 24, "if (a) go();".toList⟩, by decide +kernel, by decide +kernel⟩

/-! ### Line feeds -/

theorem bounds_statement? {s : Source} (hs : s.Nested) {row : Nat} {body st : Node}
    (hn : body ∈ s.root.nodes) (h : statement? s row body = some st) :
    s.start body ≤ s.start st ∧ s.start st ≤ s.stop st ∧ s.stop st ≤ s.stop body := by
  rcases of_statement? h with ⟨-, -, hst⟩ | ⟨-, rfl⟩
  · exact (hs body hn).bounds
      (Node.mem_children_of_mem_codeChildren (by rw [hst]; exact List.mem_cons_self))
  · exact ⟨Nat.le_refl _, (hs _ hn).le, Nat.le_refl _⟩

/-- **Putting a conditional on one line takes line feeds out.** -/
theorem count_collapse?_lt {s : Source} (hs : s.Nested) {n : Node} (hn : n ∈ s.root.nodes)
    {r : Replacement} (h : collapse? s n = some r) :
    r.text.count '\n' < (r.replaced s.text).count '\n' := by
  obtain ⟨-, -, condition, body, st, -, hbody, hrow, hend, hst, hfits, rfl⟩ := of_collapse? h
  have hmem := Node.mem_children_of_child? hbody
  obtain ⟨h1, h2, h3⟩ :=
    bounds_statement? hs (Node.mem_nodes_trans (Node.mem_nodes_of_mem_children hmem) hn) hst
  obtain ⟨h4, -, h5⟩ := (hs n hn).bounds hmem
  simp only [fits, Bool.and_eq_true, beq_iff_eq] at hfits
  obtain ⟨⟨⟨⟨-, hnext⟩, hone⟩, -⟩, -⟩ := hfits
  -- what is written has no line feed, since the condition and the statement stand on one row each
  have hwritten : (oneLine s condition st).count '\n' = 0 := by
    rw [oneLine, List.count_append, List.count_append, List.count_append, Source.count_nodeText,
      Source.count_nodeText, hend, hrow, hone]
    simp
  -- the statement stands on the row below, inside the conditional
  have hrows := rowAt_add s.text (a := s.start n) (b := s.start st) (by omega)
  have hsplit := count_slice_add s.text '\n' (a := s.start n) (b := s.start st) (c := s.stop n)
    (by omega) (by omega)
  simp only [Source.row] at hnext
  rw [Replacement.replaced, Int.toNat_natCast, Int.toNat_natCast, hwritten]
  omega

/-- **A pass that has an effect leaves fewer lines.** -/
theorem pass_eq_or_count_lt_of_nested {ctx : Context} {t : Text}
    (h : ∀ s, ctx.clean? t = some s → s.Nested) :
    pass ctx t = t ∨ (pass ctx t).count '\n' < t.count '\n' :=
  Context.replaceNodes_eq_or_count_lt fun s hs _ hn _ hr =>
    count_collapse?_lt (h s hs) (Node.mem_nodes_of_mem_walkNodes hn) hr

theorem pass_eq_or_count_lt {ctx : Context} (hp : ctx.parser.Gives Source.WellFormed) (t : Text) :
    pass ctx t = t ∨ (pass ctx t).count '\n' < t.count '\n' :=
  pass_eq_or_count_lt_of_nested fun s hs => (hp _ _ s hs).nested

end HouseStyle.SingleLineIf
