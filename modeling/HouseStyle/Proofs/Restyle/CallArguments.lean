import HouseStyle.Proofs.Restyle.Context
import HouseStyle.Proofs.Restyle.Dedent
import HouseStyle.Proofs.Tree.Gaps
import HouseStyle.Proofs.Tree.Leaves
import HouseStyle.Proofs.Tree.LineFeeds
import Mathlib.Algebra.GroupWithZero.Nat

/-! # What joining arguments does

The new text of arguments is made of what stood there, child by child, each without its indents
(`spread_joined`): the commas put between the arguments are those that stood there, and the comma
behind the last one is put back if it was there. So joining the arguments of a call keeps its ink
(`ink_restyle`).

Arguments are joined only if there is a line feed outside of them, so joining them takes one out at
least (`count_compactArguments?_lt`), and a pass that has an effect leaves fewer lines
(`pass_eq_or_count_lt`). -/

namespace HouseStyle.CallArguments

open HouseStyle.Text

theorem of_compactArguments? {s : Source} {n : Node} {r : Replacement}
    (h : compactArguments? s n = some r) :
    ∃ x xs last, n.codeChildren = x :: xs ∧ (x :: xs).getLast? = some last ∧ 1 ≤ s.stop n ∧
      n.containsComment = false ∧ (∀ y ∈ x :: xs, hasMultilineText s y = false) ∧
      s.text[s.stop n - 1]? = some ')' ∧
      ('\n' ∈ s.text.slice (s.start n + 1) (s.start x) ∨ (∃ g ∈ gaps s (x :: xs), '\n' ∈ g) ∨
        '\n' ∈ s.text.slice (s.stop last) (s.stop n - 1)) ∧
      r.replaced s.text = s.extent n ∧
      r.text = dedentLines (extraIndent s n x) 0
        (joined s (x :: xs) (endsWithComma (s.text.slice (s.stop last) (s.stop n - 1)))) := by
  rw [compactArguments?] at h
  cases hx : n.codeChildren with
  | nil => simp [hx] at h
  | cons x xs =>
    cases hl : (x :: xs).getLast? with
    | none => simp at hl
    | some last =>
      simp only [hx, List.head?_cons, hl] at h
      split_ifs at h with hno hbroken
      cases h
      simp only [Bool.or_eq_true, not_or, bne_iff_ne, ne_eq, Decidable.not_not,
        Bool.not_eq_true] at hno
      obtain ⟨⟨⟨⟨⟨hm, hc⟩, htext⟩, -⟩, hpar⟩, -⟩ := hno
      simp only [Bool.or_eq_true, List.contains_iff_mem, List.any_eq_true, or_assoc] at hbroken
      have hpos := Source.stop_pos_of_isMultiline (by simpa using hm : s.isMultiline n = true)
      have hrange : ((s.stop n - 1 : Nat) + 1 : Int).toNat = s.stop n := by omega
      have hplain : ∀ y ∈ x :: xs, hasMultilineText s y = false := fun y hy => by
        simpa using List.any_eq_false.mp htext y hy
      refine ⟨x, xs, last, rfl, hl, hpos, hc, hplain, hpar, hbroken, ?_, rfl⟩
      rw [Replacement.replaced, hrange]
      rfl

/-! ### The new text -/

theorem map_intersperse {f : Text → Text} {sep : Text} (hsep : f sep = sep) (t : Text)
    (ts : List Text) :
    ((t :: ts).intersperse sep).map f = ((t :: ts).map f).intersperse sep := by
  induction ts generalizing t with
  | nil => rfl
  | cons u ts ih =>
    rw [List.intersperse_cons_cons, List.map_cons, List.map_cons, ih, hsep]
    rfl

theorem spread_intercalate (t : Text) (ts : List Text) :
    Spread ((t :: ts).intersperse [',']) ([',', ' '].intercalate (t :: ts)) := by
  induction ts generalizing t with
  | nil =>
    rw [List.intercalate_singleton]
    exact Spread.singleton t
  | cons u ts ih =>
    rw [List.intersperse_cons_cons, List.intercalate_cons_cons, List.append_assoc]
    exact (Spread.singleton t).append
      ((Spread.singleton [',']).append ((ih u).blank_append (g := [' ']) rfl))

theorem dedentLines_intercalate (count : Nat) (t : Text) (ts : List Text) {c : Char}
    (hc : isBlank c = false) (u : Text) :
    dedentLines count 0 ([',', ' '].intercalate (t :: ts) ++ c :: u) =
      [',', ' '].intercalate ((t :: ts).map (dedentLines count 0)) ++
        c :: dedentLines count 0 u := by
  induction ts generalizing t with
  | nil =>
    rw [List.map_singleton, List.intercalate_singleton, List.intercalate_singleton,
      dedentLines_append, dedentLines_cons_solid hc]
  | cons t' ts ih =>
    have hcomma : ∀ (left : Nat) (w : Text),
        dedentLines count left (',' :: ' ' :: w) = ',' :: ' ' :: dedentLines count 0 w :=
      fun left _ => dedentLines_cons_solid rfl left _
    rw [List.map_cons, List.map_cons, List.intercalate_cons_cons, List.intercalate_cons_cons,
      ← List.map_cons, List.append_assoc, List.append_assoc, List.append_assoc, List.append_assoc,
      ← ih t', dedentLines_append]
    exact congrArg _ (hcomma _ _)

/-- What may stand behind the last argument: a parenthesis, or a comma and a parenthesis. -/
def IsClosing (run : List Text) : Prop := run = [[')']] ∨ run = [[','], [')']]

theorem dedentLines_closing (count : Nat) {run : List Text} (hrun : IsClosing run) :
    run.map (dedentLines count 0) = run := by
  have hsingle : ∀ {c : Char}, isBlank c = false → dedentLines count 0 [c] = [c] := fun hc =>
    dedentLines_cons_solid hc 0 []
  rcases hrun with rfl | rfl
  · rw [List.map_singleton, hsingle rfl]
  · rw [List.map_cons, List.map_singleton, hsingle rfl, hsingle rfl]

theorem dedentLines_parenthesized (count : Nat) (t : Text) (ts : List Text) {run : List Text}
    (hrun : IsClosing run) :
    dedentLines count 0 ('(' :: ([',', ' '].intercalate (t :: ts) ++ run.flatten)) =
      '(' :: ([',', ' '].intercalate ((t :: ts).map (dedentLines count 0)) ++ run.flatten) := by
  rw [dedentLines_cons_solid rfl]
  congr 1
  rcases hrun with rfl | rfl
  · exact dedentLines_intercalate count t ts rfl []
  · rw [List.flatten_cons, List.singleton_append, dedentLines_intercalate count t ts rfl,
      List.flatten_singleton, dedentLines_cons_solid rfl]
    rfl

theorem closing_eq {tail : Text} {run : List Text} (hrun : IsClosing run)
    (hink : ink (tail ++ [')']) = run.flatMap ink) :
    (if endsWithComma tail then [','] else []) ++ [')'] = run.flatten := by
  rw [ink_append] at hink
  rw [endsWithComma, getLast?_trimRight]
  rcases hrun with rfl | rfl
  · have : ink tail = [] := List.append_cancel_right (hink.trans (List.nil_append _).symm)
    rw [this]
    rfl
  · have : ink tail = [','] := List.append_cancel_right hink
    rw [this]
    rfl

section Source
variable {s : Source} (hs : s.Regular) {n : Node} (hn : n ∈ s.root.nodes)
include hs hn

theorem closing_run {pre run : List Node} {last : Node} (hcs : n.children = pre ++ last :: run)
    (hrun : IsClosing (run.map s.extent)) {closing : Nat} (hcl : closing + 1 = s.stop n)
    (hpar : s.text[closing]? = some ')') :
    (if endsWithComma (s.text.slice (s.stop last) closing) then [','] else []) ++ [')'] =
      (run.map s.extent).flatten := by
  have ht := (hs.wellFormed n hn).tiles (c := last) (by rw [hcs]; simp)
  rw [hcs] at ht
  have htail := ht.split.2.2.ink
  rw [← List.flatMap_map] at htail
  have hle : s.stop last ≤ closing := by
    by_contra hlt
    rw [slice, show s.stop n - s.stop last = 0 by omega, List.take_zero] at htail
    rcases hrun with h | h <;> simp [h, ink, isBlank] at htail
  rw [← hcl, ← slice_append_slice s.text hle (Nat.le_succ closing), slice_succ hpar] at htail
  exact closing_eq hrun htail

/-- **The joined text** is made of the children of the arguments, each without its indents. -/
theorem spread_joined (hk : n.kind = "arguments") (hc : n.containsComment = false) {x last : Node}
    {xs : List Node} (hx : n.codeChildren = x :: xs) (hlast : (x :: xs).getLast? = some last)
    {closing : Nat} (hcl : closing + 1 = s.stop n) (hpar : s.text[closing]? = some ')')
    (count : Nat) :
    Spread ((n.children.map s.extent).map (dedentLines count 0))
      (dedentLines count 0
        (joined s (x :: xs) (endsWithComma (s.text.slice (s.stop last) closing)))) := by
  obtain ⟨pre, y, run, hcs, hy, hitems, hrun⟩ := Source.extents_arguments hs hn hk hc hx
  rw [hlast] at hy
  cases hy
  have hargs : (x :: xs).map s.nodeText = (x :: xs).map s.extent :=
    List.map_congr_left fun y hy => (hs.wellFormed.sound_child hn
      (Node.mem_children_of_mem_codeChildren (hx ▸ hy))).nodeText
  have hpieces : (n.children.map s.extent).map (dedentLines count 0) =
      [['(']] ++ ((((x :: xs).map s.extent).map (dedentLines count 0)).intersperse [','] ++
        run.map s.extent) := by
    rw [hcs, ← List.singleton_append, ← List.append_assoc, List.map_append, hitems, List.map_append,
      dedentLines_closing count hrun, List.map_cons, dedentLines_cons_solid rfl, List.map_cons,
      map_intersperse (dedentLines_cons_solid rfl 0 [])]
    rfl
  rw [joined, List.append_assoc, closing_run hs hn hcs hrun hcl hpar, hargs, List.cons_append,
    List.map_cons, dedentLines_parenthesized count _ _ hrun, ← List.map_cons, hpieces]
  exact (Spread.singleton ['(']).append ((spread_intercalate _ _).append (Spread.flatten _))

theorem ink_compactArguments? (hk : n.kind = "arguments") {r : Replacement}
    (h : compactArguments? s n = some r) : r.text.ink = (r.replaced s.text).ink := by
  obtain ⟨x, xs, last, hx, hl, hpos, hc, -, hpar, -, hrange, htext⟩ := of_compactArguments? h
  have hspread := spread_joined hs hn hk hc hx hl (Nat.sub_add_cancel hpos) hpar (extraIndent s n x)
  have ht := (hs.wellFormed n hn).tiles (c := x)
    (Node.mem_children_of_mem_codeChildren (by rw [hx]; exact List.mem_cons_self))
  rw [htext, hrange, hspread.ink_eq, Source.extent, ht.ink, List.flatMap_map, List.flatMap_map]
  simp only [ink_dedentLines]

end Source

theorem of_compact? {s : Source} {n : Node} {r : Replacement} (hn : n ∈ s.root.walkNodes)
    (h : compact? s n = some r) :
    ∃ a ∈ s.root.nodes, n.child? .arguments = some a ∧ a.kind = "arguments" ∧
      compactArguments? s a = some r := by
  rw [compact?] at h
  split_ifs at h with hk
  split at h
  · rename_i a ha
    split_ifs at h with hka
    exact ⟨a, Node.mem_nodes_trans (Node.mem_nodes_of_mem_children (Node.mem_children_of_child? ha))
      (Node.mem_nodes_of_mem_walkNodes hn), ha, hka, h⟩
  · simp at h

/-- **Joining arguments keeps the ink.** -/
theorem ink_restyle {ctx : Context} (hp : ctx.parser.Gives Source.Regular) (value : Value)
    (t : Text) : (restyle ctx value t).ink = t.ink := by
  rw [restyle]
  split_ifs
  · refine ink_settle (fun t => Context.ink_onSource (fun s t hs => ?_) t) t
    refine Replacement.ink_apply fun r hr _ => ?_
    obtain ⟨n, hn, h⟩ := List.mem_filterMap.mp hr
    obtain ⟨a, ha, -, hka, h⟩ := of_compact? hn h
    exact ink_compactArguments? (hp _ _ s hs) ha hka h
  · rfl

/-! ### Line feeds -/

theorem count_intercalate : ∀ ts : List Text,
    ([',', ' '].intercalate ts).count '\n' = (ts.map (·.count '\n')).sum
  | [] => rfl
  | [t] => by simp
  | t :: u :: ts => by
    rw [List.intercalate_cons_cons, List.count_append, List.count_append,
      count_intercalate (u :: ts), List.map_cons, List.sum_cons, List.map_cons]
    simp

theorem count_joined (s : Source) (args : List Node) (b : Bool) :
    (joined s args b).count '\n' = (args.map fun y => (s.nodeText y).count '\n').sum := by
  rw [joined, List.count_append, List.count_append, List.count_cons_of_ne (by decide),
    count_intercalate, List.map_map]
  cases b <;> simp [Function.comp_def]

theorem count_slice_node {s : Source} {a b : Nat} {x : Node} {xs : List Node}
    (h : s.InOrder a b (x :: xs)) :
    (s.text.slice a b).count '\n' = (s.text.slice a (s.start x)).count '\n' +
      (s.extent x).count '\n' + (s.text.slice (s.stop x) b).count '\n' := by
  obtain ⟨h1, h2, h3⟩ := h
  have hle := h3.le
  rw [count_slice_add s.text '\n' h1 (by omega), count_slice_add s.text '\n' h2 hle, Source.extent,
    Nat.add_assoc]

theorem count_slice_inOrder {s : Source} {b : Nat} {last : Node} :
    ∀ {xs : List Node} {x : Node} {a : Nat},
    s.InOrder a b (x :: xs) → (x :: xs).getLast? = some last →
    (s.text.slice a b).count '\n' = (s.text.slice a (s.start x)).count '\n' +
      ((x :: xs).map fun y => (s.extent y).count '\n').sum +
      ((gaps s (x :: xs)).map (·.count '\n')).sum + (s.text.slice (s.stop last) b).count '\n'
  | [], x, a, h, hl => by
    have hsplit := count_slice_node h
    obtain rfl : x = last := by simpa using hl
    simp only [gaps, Constructs.neighbours, List.zip_nil_right, List.tail_cons, List.map_cons,
      List.map_nil, List.sum_cons, List.sum_nil]
    omega
  | y :: xs, x, a, h, hl => by
    have hsplit := count_slice_node h
    have ih := count_slice_inOrder h.2.2 (by rwa [List.getLast?_cons_cons] at hl)
    have hgaps : gaps s (x :: y :: xs) = s.between x y :: gaps s (y :: xs) := rfl
    simp only [hgaps, List.map_cons, List.sum_cons, Source.between] at ih ⊢
    omega

/-- **Joining arguments takes line feeds out.** -/
theorem count_compactArguments?_lt {s : Source} (hs : s.Nested) {n : Node}
    (hn : n ∈ s.root.nodes) {r : Replacement} (h : compactArguments? s n = some r) :
    r.text.count '\n' < (r.replaced s.text).count '\n' := by
  obtain ⟨x, xs, last, hx, hl, -, -, -, -, hbroken, hrange, htext⟩ := of_compactArguments? h
  have hsub : (x :: xs).Sublist n.children := by
    rw [← hx, Node.codeChildren, Node.namedChildren]
    exact List.filter_sublist.trans List.filter_sublist
  have hcount := count_slice_inOrder ((hs n hn).sublist hsub) hl
  have hargs : (x :: xs).map (fun y => (s.nodeText y).count '\n') =
      (x :: xs).map fun y => (s.extent y).count '\n' :=
    List.map_congr_left fun y hy => Source.count_nodeText_eq ((hs n hn).bounds (hsub.subset hy)).2.1
  rw [htext, hrange, count_dedentLines, count_joined, hargs, Source.extent, hcount]
  -- one of the breaks looked for is in a piece that is not an argument
  rcases hbroken with hhead | ⟨g, hg, hgap⟩ | htail
  · have := List.count_pos_iff.mpr
      (mem_slice_of_le (Nat.le_succ (s.start n)) (Nat.le_refl (s.start x)) hhead)
    omega
  · have : 0 < ((gaps s (x :: xs)).map (·.count '\n')).sum :=
      List.sum_pos_iff_exists_pos_nat.mpr
        ⟨_, List.mem_map_of_mem hg, List.count_pos_iff.mpr hgap⟩
    omega
  · have := List.count_pos_iff.mpr
      (mem_slice_of_le (Nat.le_refl (s.stop last)) (Nat.sub_le (s.stop n) 1) htail)
    omega

/-- **A pass that has an effect leaves fewer lines.** -/
theorem pass_eq_or_count_lt_of_nested {ctx : Context} {t : Text}
    (h : ∀ s, ctx.clean? t = some s → s.Nested) :
    pass ctx t = t ∨ (pass ctx t).count '\n' < t.count '\n' := by
  refine Context.replaceNodes_eq_or_count_lt fun s hs n hn r hr => ?_
  obtain ⟨a, ha, -, -, hr⟩ := of_compact? hn hr
  exact count_compactArguments?_lt (h s hs) ha hr

theorem pass_eq_or_count_lt {ctx : Context} (hp : ctx.parser.Gives Source.WellFormed) (t : Text) :
    pass ctx t = t ∨ (pass ctx t).count '\n' < t.count '\n' :=
  pass_eq_or_count_lt_of_nested fun s hs => (hp _ _ s hs).nested

end HouseStyle.CallArguments
