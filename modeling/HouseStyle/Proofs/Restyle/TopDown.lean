import HouseStyle.Proofs.Restyle.ChainTwins
import Mathlib.Dynamics.PeriodicPts.Defs

/-! # Continuation lines settle from the top down

A continuation line goes to a column that follows from the object of its access, and the object ends
on an earlier line. So if no line up to a row changed in a pass, the line behind them does not
change in the next: whatever opens it was there before (`opens_of_twin`), it got the blanks that
were asked for (`lineIndent_of_opens`), and the same are asked for again (`target_of_twin`). Line by
line, each pass brings one more to rest (`Steady.line_succ`), so there are no more passes with an
effect than there are lines behind the first, and no text comes back (`settles_top_down`). -/

namespace HouseStyle.MemberChains

open HouseStyle.Text
open Node (Visit Alike)

/-! ### What a pass makes of a line -/

section Pass
variable {s : Source} {indent : Indent} {extra : Nat}

theorem isEffective_of_mem_edits {r : Replacement} (h : r ∈ edits indent extra s) :
    r.isEffective s.text = true := by
  obtain ⟨v, -, o, p, -, hne, rfl⟩ := mem_edits_iff.mp h
  have hreplaced := (reindents_target indent extra s o p).replaced
  have hline := (s.line_spec (s.row p)).1
  have hlen := s.length_lineIndent_le (s.row p)
  rw [Replacement.isEffective, hreplaced]
  simp only [Replacement.inRange, Bool.and_eq_true, decide_eq_true_eq]
  exact ⟨⟨⟨by omega, by omega⟩, by omega⟩, hne⟩

section Regular
variable (hs : s.Regular) (ha : s.PlainAccesses) {v : Visit} {o p : Node} (hv : v ∈ s.root.walk)
  (h : Opens s v o p)
include hs ha hv h

theorem Opens.object_eq {v' : Visit} {o' p' : Node} (hv' : v' ∈ s.root.walk) (h' : Opens s v' o' p')
    (hrow : s.row p = s.row p') : o = o' := by
  by_cases heq : v.node = v'.node
  · have ho := h.object
    rw [heq, h'.object] at ho
    exact (Option.some.inj ho).symm
  · -- the delimiter that opens the line would stand in two separators
    have hapart := apart_parts hs ha (Node.mem_nodes_of_mem_walk hv) h.kind
      (Node.mem_nodes_of_mem_walk hv') h'.kind heq h.object h.property h'.object h'.property
    have h1 := h.behind
    have h2 := h.before
    have h3 := h'.behind
    have h4 := h'.before
    rw [hrow] at h1 h2
    omega

end Regular

variable (hs : s.Regular) (ha : s.PlainAccesses)
include hs ha

theorem mem_taken_edits {r : Replacement} :
    r ∈ Replacement.taken s.text (edits indent extra s) ↔ r ∈ edits indent extra s := by
  rw [Replacement.mem_taken_of_apart fun r hr r' hr' _ _ hne => ?_]
  · exact and_iff_left_of_imp isEffective_of_mem_edits
  · obtain ⟨v, hv, o, p, hopens, -, rfl⟩ := mem_edits_iff.mp hr
    obtain ⟨v', hv', o', p', hopens', -, rfl⟩ := mem_edits_iff.mp hr'
    have hrow : s.row p ≠ s.row p' :=
      fun heq => hne (by rw [heq, hopens.object_eq hs ha hv hv' hopens' heq])
    have hre := reindents_target indent extra s o p
    have hre' := reindents_target indent extra s o' p'
    rcases Nat.lt_or_gt_of_ne hrow with hlt | hgt
    · exact Or.inl (hre.before hre' hlt)
    · exact Or.inr (hre'.before hre hgt)

/-- **A continuation line after a pass** has the blanks that were asked for. -/
theorem line_of_opens {v : Visit} {o p : Node} (hv : v ∈ s.root.walk) (h : Opens s v o p) :
    (Replacement.apply s.text (edits indent extra s)).lines.getD (s.row p) [] =
      target indent extra s o ++ (s.line (s.row p)).afterIndent := by
  by_cases heq : s.lineIndent (s.row p) = target indent extra s o
  · have hkept : ∀ r ∈ Replacement.taken s.text (edits indent extra s),
        ¬ r.Reindents s (s.row p) := by
      intro r hr hrow
      obtain ⟨v', hv', o', p', hopens', hne, rfl⟩ :=
        mem_edits_iff.mp (Replacement.isEffective_of_mem_taken hr).1
      have hrow' := hrow.row_eq (reindents_target indent extra s o' p')
      rw [← h.object_eq hs ha hv hv' hopens' hrow'.symm, hrow', heq] at hne
      exact hne rfl
    rw [Replacement.line_of_not_taken (reindents_edits indent extra s) hkept, ← heq]
    exact (indentOf_append_afterIndent _).symm
  · refine Replacement.line_of_taken (reindents_edits indent extra s)
      ((mem_taken_edits hs ha).mpr ?_)
      (reindents_target indent extra s o p)
    exact mem_edits_iff.mpr ⟨v, hv, o, p, h, heq, rfl⟩

theorem lineIndent_of_opens {s' : Source}
    (htext : s'.text = Replacement.apply s.text (edits indent extra s)) {v : Visit} {o p : Node}
    (hv : v ∈ s.root.walk) (h : Opens s v o p) :
    s'.lineIndent (s.row p) = target indent extra s o := by
  have hline : s'.line (s.row p) = target indent extra s o ++ (s.line (s.row p)).afterIndent := by
    rw [Source.line, Source.lines, htext]
    exact line_of_opens hs ha hv h
  have hnone : ∀ {t : Text}, opensAccess t = true → t.takeWhile isIndentChar = [] := by
    intro t ht
    unfold opensAccess at ht
    split at ht
    · rfl
    · rfl
    · cases ht
  have htarget : ∀ c ∈ target indent extra s o, isIndentChar c = true :=
    fun _ => indent.isIndentChar_of_mem_render
  rw [Source.lineIndent, hline, indentOf, List.takeWhile_append_of_pos htarget, hnone h.opens,
    List.append_nil]

end Pass

/-! ### Two passes -/

section Step
variable {s s' : Source} {indent : Indent} {extra : Nat} {f : Nat → Nat} (hs : s.Regular)
  (htext : s'.text = Replacement.apply s.text (edits indent extra s))
include hs htext

/-- **Under an object whose line did not change, the same blanks are asked for.** -/
theorem target_of_twin {o o' : Node} (hoo : s.Twins (edits indent extra s) f s' o o')
    (hline : s'.line (s.row o) = s.line (s.row o)) :
    target indent extra s' o' = target indent extra s o := by
  have hlen : s.start o ≤ s.text.length :=
    charOffset_le_of_boundary (hs.wellFormed o hoo.mem).boundary.1
  have hall := reindents_edits indent extra s
  have hbeside : ∀ r ∈ Replacement.taken s.text (edits indent extra s), s.Beside o r := by
    intro r hr
    obtain ⟨hmem, heffective⟩ := Replacement.isEffective_of_mem_taken hr
    obtain ⟨row, hrow⟩ := hall r hmem
    refine hrow.beside hlen fun heq => ?_
    subst heq
    -- a change on the line of the object would show
    have hnew := Replacement.line_of_taken hall hr hrow
    rw [← htext] at hnew
    change s'.line _ = _ at hnew
    rw [hline] at hnew
    have hsame : s.lineIndent (s.row o) = r.text :=
      List.append_cancel_right ((indentOf_append_afterIndent _).trans hnew)
    rw [Replacement.isEffective, hrow.replaced, hsame] at heffective
    simp at heffective
  have hbefore := (Replacement.beforeNode_of_kept htext
    (Replacement.withinLines_of_reindents hall) hlen hoo.moved hbeside).2
  rw [target, target, visualColumn, visualColumn, hbefore]

/-- **One more line comes to rest.** If the lines up to a row did not change in a pass, the next
line does not change in the pass that follows. -/
theorem settled_row (ha : s.PlainAccesses) (hs' : s'.Regular) (hf : Function.Injective f)
    (htwins : Alike (s.Twins (edits indent extra s) f s') s.root s'.root) {k : Nat}
    (hrows : ∀ i ≤ k, s'.line i = s.line i) :
    (Replacement.apply s'.text (edits indent extra s')).lines.getD (k + 1) [] =
      s'.line (k + 1) := by
  refine Replacement.line_of_not_taken (reindents_edits indent extra s') fun r hr hrow => ?_
  obtain ⟨v', hv', o', p', hopens', hne, rfl⟩ :=
    mem_edits_iff.mp (Replacement.isEffective_of_mem_taken hr).1
  have hrow' : s'.row p' = k + 1 := hrow.row_eq (reindents_target indent extra s' o' p')
  obtain ⟨v, hv, hvv⟩ := exists_of_forall₂ htwins.walk hv'
  obtain ⟨o, p, hopens, hoo, hpp⟩ := opens_of_twin hs ha htext hs' hf hvv hopens'
  have hobject : s.row o ≤ k := by
    have h1 := rowAt_lt_of_broken hopens.broken
    have h2 := Source.rowAt_mono s.text (hs.wellFormed o hoo.rel.mem).ordered
    rw [Source.row]
    omega
  refine hne ?_
  rw [hpp, lineIndent_of_opens hs ha htext hv hopens,
    target_of_twin hs htext hoo.rel (hrows _ hobject)]

end Step

theorem first_row (indent : Indent) (extra : Nat) (s : Source) :
    (Replacement.apply s.text (edits indent extra s)).lines.getD 0 [] = s.line 0 := by
  refine Replacement.line_of_not_taken (reindents_edits indent extra s) fun r hr hrow => ?_
  obtain ⟨v, -, o, p, hopens, -, rfl⟩ :=
    mem_edits_iff.mp (Replacement.isEffective_of_mem_taken hr).1
  have hrow' : s.row p = 0 := hrow.row_eq (reindents_target indent extra s o p)
  have := rowAt_lt_of_broken hopens.broken
  omega

/-! ### All passes -/

/-- A run in which no pass changes the tree: every text of it parses cleanly, and each tree is the
one before with its positions carried through the edits. -/
structure Steady (ctx : Context) (extra : Nat) (t : Text) (source : Nat → Source) : Prop where
  clean : ∀ k, ctx.clean? ((indentPass ctx extra)^[k] t) = some (source k)
  regular : ∀ k, (source k).Regular
  accesses : ∀ k, (source k).PlainAccesses
  carried : ∀ k, (source k).Carried (edits ctx.indent extra (source k)) (source (k + 1))
  renames : ∀ k, (source k).Renames (source (k + 1))

theorem length_lines_iterate (ctx : Context) (extra : Nat) (t : Text) (k : Nat) :
    ((indentPass ctx extra)^[k] t).lines.length = t.lines.length := by
  induction k with
  | zero => rfl
  | succ k ih => rw [Function.iterate_succ_apply', (continues_indentPass ctx extra _).length_eq, ih]

section Run
variable {ctx : Context} {extra : Nat} {t : Text} {source : Nat → Source}
  (h : Steady ctx extra t source)
include h

theorem Steady.text_eq (k : Nat) : (source k).text = (indentPass ctx extra)^[k] t :=
  Context.text_of_clean? (h.clean k)

theorem Steady.text_succ (k : Nat) :
    (source (k + 1)).text =
      Replacement.apply (source k).text (edits ctx.indent extra (source k)) := by
  rw [h.text_eq, Function.iterate_succ_apply', indentPass_of_clean (h.clean k)]

/-- **Each pass brings one more line to rest.** The induction is on the row: what is above it has
come to rest one pass earlier. -/
theorem Steady.line_succ (k : Nat) :
    ∀ j i, i ≤ k → k ≤ j → (source (j + 1)).line i = (source j).line i := by
  have hline : ∀ j i, (source (j + 1)).line i =
      (Replacement.apply (source j).text (edits ctx.indent extra (source j))).lines.getD i [] := by
    intro j i
    rw [Source.line, Source.lines, h.text_succ]
  induction k with
  | zero =>
    intro j i hi _
    obtain rfl : i = 0 := by omega
    rw [hline, first_row]
  | succ k ih =>
    intro j i hi hj
    rcases Nat.lt_or_ge i (k + 1) with hlt | hge
    · exact ih j i (by omega) (by omega)
    · obtain rfl : i = k + 1 := by omega
      obtain ⟨j, rfl⟩ : ∃ j', j = j' + 1 := ⟨j - 1, by omega⟩
      obtain ⟨f, hf, hids⟩ := h.renames j
      rw [hline]
      exact settled_row (h.regular j) (h.text_succ j) (h.accesses j) (h.regular (j + 1)) hf
        ((h.carried j).twins hids) fun i hi => ih j i hi (by omega)

theorem Steady.line_eq {k j i : Nat} (hi : i ≤ k) (hj : k ≤ j) :
    (source j).line i = (source k).line i := by
  induction j, hj using Nat.le_induction with
  | base => rfl
  | succ j hj ih => rw [h.line_succ k j i hi hj, ih]

theorem Steady.fixed {n : Nat} (hn : t.lines.length ≤ n + 1) :
    indentPass ctx extra ((indentPass ctx extra)^[n] t) = (indentPass ctx extra)^[n] t := by
  rw [← Function.iterate_succ_apply' (indentPass ctx extra)]
  refine eq_of_lines ((length_lines_iterate ..).trans (length_lines_iterate ..).symm) fun i hi => ?_
  rw [length_lines_iterate] at hi
  have hline := h.line_succ n n i (by omega) le_rfl
  rw [Source.line, Source.line, Source.lines, Source.lines, h.text_eq, h.text_eq] at hline
  exact hline

/-- **Continuation lines settle from the top down.** After `k` passes the first `k + 1` lines stay
in all that follow. So as many passes as there are lines lead to rest, one less even, and a text
that comes back is at rest already. -/
theorem settles_top_down :
    (∀ k j i, i ≤ k → k ≤ j →
      ((indentPass ctx extra)^[j] t).lines.getD i [] =
        ((indentPass ctx extra)^[k] t).lines.getD i []) ∧
    (∀ n, t.lines.length ≤ n + 1 →
      indentPass ctx extra ((indentPass ctx extra)^[n] t) = (indentPass ctx extra)^[n] t) ∧
    ∀ a b, a < b → (indentPass ctx extra)^[a] t = (indentPass ctx extra)^[b] t →
      indentPass ctx extra ((indentPass ctx extra)^[a] t) = (indentPass ctx extra)^[a] t := by
  refine ⟨fun k j i hi hj => ?_, fun n hn => h.fixed hn, fun a b hab heq => ?_⟩
  · have hline := h.line_eq hi hj
    rwa [Source.line, Source.line, Source.lines, Source.lines, h.text_eq, h.text_eq] at hline
  · -- what comes back once comes back at any later time
    obtain ⟨d, rfl⟩ := Nat.exists_eq_add_of_lt hab
    have hperiod : Function.IsPeriodicPt (indentPass ctx extra) (d + 1)
        ((indentPass ctx extra)^[a] t) := by
      rw [Function.IsPeriodicPt, Function.IsFixedPt, ← Function.iterate_add_apply, Nat.add_comm,
        ← Nat.add_assoc, ← heq]
    have hlater : (indentPass ctx extra)^[t.lines.length * (d + 1) + a] t =
        (indentPass ctx extra)^[a] t := by
      rw [Function.iterate_add_apply]
      exact hperiod.const_mul t.lines.length
    have hlong : t.lines.length ≤ t.lines.length * (d + 1) :=
      Nat.le_mul_of_pos_right _ (Nat.succ_pos d)
    have hfixed := h.fixed (n := t.lines.length * (d + 1) + a) (by omega)
    rwa [hlater] at hfixed

end Run

/-- A chain of two links with another chain as an argument, each link on a line of its own behind
spaces. -/
def nestedChain (a b c : Nat) : Source where
  text := "o\n".toList ++ List.replicate a ' ' ++ ".p(q\n".toList ++ List.replicate b ' ' ++
    ".r)\n".toList ++ List.replicate c ' ' ++ ".s;\n".toList
  root :=
    .construct 0 "program" 0 (15 + a + b + c) none
      [.construct 1 "expression_statement" 0 (14 + a + b + c) none
          [.construct 2 "member_expression" 0 (13 + a + b + c) none
              [.construct 3 "call_expression" 0 (10 + a + b) (some .object)
                  [.construct 4 "member_expression" 0 (4 + a) (some .function)
                      [.construct 5 "identifier" 0 1 (some .object) [],
                        .token 6 "." (2 + a) (3 + a), .construct 7 "property_identifier" (3 + a)
                          (4 + a) (some .property) []],
                    .construct 8 "arguments" (4 + a) (10 + a + b) (some .arguments)
                      [.token 9 "(" (4 + a) (5 + a),
                        .construct 10 "member_expression" (5 + a) (9 + a + b) none
                          [.construct 11 "identifier" (5 + a) (6 + a) (some .object) [],
                            .token 12 "." (7 + a + b) (8 + a + b),
                            .construct 13 "property_identifier" (8 + a + b) (9 + a + b)
                              (some .property) []], .token 14 ")" (9 + a + b) (10 + a + b)]],
                .token 15 "." (11 + a + b + c) (12 + a + b + c),
                .construct 16 "property_identifier" (12 + a + b + c) (13 + a + b + c)
                  (some .property) []], .token 17 ";" (13 + a + b + c) (14 + a + b + c)]]
  hasErrors := false

/-- The chain pass after pass. -/
def nestedRun : Nat → Source
  | 0 => nestedChain 0 0 0
  | 1 => nestedChain 2 5 2
  | _ + 2 => nestedChain 2 7 2

/-- A context that knows the texts of the run. -/
def nestedContext : Context :=
  ⟨.ofTable ([nestedRun 0, nestedRun 1, nestedRun 2].map fun s => (s.text, s.root)), "javascript",
    ⟨.space, 2⟩, none⟩

/-- The changes of the first two passes, all of which are carried out; the third one has none. -/
theorem taken_nestedRun :
    Replacement.taken (nestedRun 0).text (edits ⟨.space, 2⟩ 2 (nestedRun 0)) =
      [⟨11, 11, "  ".toList⟩, ⟨7, 7, "     ".toList⟩, ⟨2, 2, "  ".toList⟩] ∧
    Replacement.taken (nestedRun 1).text (edits ⟨.space, 2⟩ 2 (nestedRun 1)) =
      [⟨9, 14, "       ".toList⟩] ∧
    Replacement.taken (nestedRun 2).text (edits ⟨.space, 2⟩ 2 (nestedRun 2)) = [] := by
  have hfirst : edits ⟨.space, 2⟩ 2 (nestedRun 0) =
      [⟨11, 11, "  ".toList⟩, ⟨2, 2, "  ".toList⟩, ⟨7, 7, "     ".toList⟩] := by decide +kernel
  refine ⟨?_, by decide +kernel, by decide +kernel⟩
  rw [hfirst, Replacement.taken, Replacement.candidates_eq_of_perm (l := [⟨11, 11, "  ".toList⟩,
    ⟨7, 7, "     ".toList⟩, ⟨2, 2, "  ".toList⟩]) (by decide +kernel) (by decide)]
  decide +kernel

theorem nestedRun_steps {P : Source → Source → Prop} (h0 : P (nestedRun 0) (nestedRun 1))
    (h1 : P (nestedRun 1) (nestedRun 2)) (h2 : P (nestedRun 2) (nestedRun 2)) :
    ∀ k, P (nestedRun k) (nestedRun (k + 1))
  | 0 => h0
  | 1 => h1
  | _ + 2 => h2

theorem steady_nestedRun : Steady nestedContext 2 (nestedRun 0).text nestedRun := by
  obtain ⟨h0, h1, h2⟩ := taken_nestedRun
  have hclean : ∀ k, nestedContext.clean? (nestedRun k).text = some (nestedRun k) :=
    nestedRun_steps (P := fun s _ => nestedContext.clean? s.text = some s) rfl rfl rfl
  have hpass : ∀ k, indentPass nestedContext 2 (nestedRun k).text = (nestedRun (k + 1)).text := by
    intro k
    rw [indentPass_of_clean (hclean k)]
    refine nestedRun_steps (P := fun s s' => Replacement.splice s.text s.text.length []
      (Replacement.taken s.text (edits ⟨.space, 2⟩ 2 s)) = s'.text) ?_ ?_ ?_ k
    · rw [h0]
      decide
    · rw [h1]
      decide
    · rw [h2]
      decide
  have htext : ∀ k, (indentPass nestedContext 2)^[k] (nestedRun 0).text = (nestedRun k).text := by
    intro k
    induction k with
    | zero => rfl
    | succ k ih => rw [Function.iterate_succ_apply', ih, hpass]
  refine ⟨fun k => (htext k).symm ▸ hclean k, ?_, ?_, ?_, fun k => ⟨id, Function.injective_id, ?_⟩⟩
  · exact nestedRun_steps (P := fun s _ => s.Regular) (by decide) (by decide) (by decide)
  · exact nestedRun_steps (P := fun s _ => s.PlainAccesses) (by decide) (by decide) (by decide)
  · refine nestedRun_steps (P := fun s s' =>
      Alike (Source.Moved (Replacement.taken s.text (edits ⟨.space, 2⟩ 2 s)) s s') s.root s'.root)
        ?_ ?_ ?_
    · rw [h0]
      decide
    · rw [h1]
      decide
    · rw [h2]
      decide
  · exact nestedRun_steps (P := fun s s' => Alike (fun n n' => n'.id = id n.id) s.root s'.root)
      (by decide) (by decide) (by decide) k

/-- The second line is at rest after one pass. The third one, in the argument, follows it in the
next pass, and then the text of five lines is at rest. -/
theorem settles_top_down_nestedRun :
    Steady nestedContext 2 (nestedRun 0).text nestedRun ∧
      (nestedRun 0).text.lines.length = 5 ∧
      (indentPass nestedContext 2)^[2] (nestedRun 0).text =
        "o\n  .p(q\n       .r)\n  .s;\n".toList ∧
      indentPass nestedContext 2 ((indentPass nestedContext 2)^[4] (nestedRun 0).text) =
        (indentPass nestedContext 2)^[4] (nestedRun 0).text ∧
      ((indentPass nestedContext 2)^[2] (nestedRun 0).text).lines.getD 1 [] =
        ((indentPass nestedContext 2)^[1] (nestedRun 0).text).lines.getD 1 [] := by
  obtain ⟨hlines, hfixed, -⟩ := settles_top_down steady_nestedRun
  refine ⟨steady_nestedRun, by decide, ?_, hfixed 4 (by decide), hlines 1 2 1 le_rfl (by decide)⟩
  rw [← steady_nestedRun.text_eq]
  decide

end HouseStyle.MemberChains
