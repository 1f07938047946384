import HouseStyle.Proofs.Edit.Columns
import HouseStyle.Proofs.Restyle.SafeOnly

/-! # Layouts of ternaries read back

A ternary that is put together from its parts has an operator on a new line between any two of them
(`broken_eq`). Whatever the parts say, the first operator that a search between them finds is that
one, and what stands before it on its line are the blanks that were written for its column. So the
columns that are read are those that were asked for (`operatorColumn_of_gap`), and the operators
count as leading (`ternaryPlacement?_gaps`).

`layout?_rebuild?` says so for a ternary of any source in which the new text stands, with its three
parts where they were put: what was collected from a reference is collected again. -/

namespace HouseStyle.Ternaries

open HouseStyle.Text HouseStyle.Constructs

/-! ### Between two parts -/

/-- What is written between two parts: an operator at a column of a new line, and a space. -/
def gap (indent : Indent) (column : Nat) (operator : Char) : Text :=
  '\n' :: indent.render column ++ [operator, ' ']

theorem broken_eq (indent : Indent) (l : Layout) (test consequence alternative : Text) :
    broken indent l test consequence alternative =
      test ++ gap indent l.question '?' ++ consequence ++ gap indent l.colon ':' ++
        alternative := by
  simp [broken, gap]

section Gap
variable {indent : Indent} {column : Nat} {operator : Char} (hop : isIndentChar operator = false)
  (hnl : operator ≠ '\n')
include hop hnl

theorem takeWhile_gap :
    (gap indent column operator).takeWhile (· ≠ operator) = '\n' :: indent.render column := by
  have hrender : ∀ c ∈ indent.render column, decide (c ≠ operator) = true := by
    intro c hc
    refine decide_eq_true fun heq => ?_
    rcases Indent.mem_render hc with rfl | rfl
    · exact absurd hop (by rw [← heq]; decide)
    · exact absurd hop (by rw [← heq]; decide)
  rw [gap, List.cons_append, List.takeWhile_cons_of_pos (by simpa using hnl.symm),
    List.takeWhile_append_of_pos hrender, List.takeWhile_cons_of_neg (by simp), List.append_nil]

/-- **The column of an operator** is the one that it was written at. -/
theorem operatorColumn_of_gap {s : Source} {m n : Node}
    (h : s.between m n = gap indent column operator) :
    operatorColumn s indent operator m n = column := by
  have hline : lastLine (s.text.take (s.stop m) ++ '\n' :: indent.render column) =
      indent.render column := by
    have hends : EndsAtLineStart (s.text.take (s.stop m) ++ ['\n']) := Or.inr ⟨_, rfl⟩
    have hlast := hends.lastLine_append (indent.newline_notMem_render column)
    rwa [List.append_assoc, List.singleton_append] at hlast
  rw [operatorColumn, h, takeWhile_gap hop hnl, hline, Indent.measure_render, Int.toNat_natCast]

end Gap

theorem ternaryPlacement?_gaps (indent : Indent) (l : Layout) :
    Expression.ternaryPlacement? (gap indent l.question '?') (gap indent l.colon ':') =
      some .leading := by
  have hquestion : (gap indent l.question '?').contains '?' = true := by simp [gap]
  have hcolon : (gap indent l.colon ':').contains ':' = true := by simp [gap]
  rw [Expression.ternaryPlacement?, hquestion, hcolon, takeWhile_gap (by decide) (by decide)]
  simp

theorem hasCommentMark_gap (indent : Indent) (column : Nat) {operator : Char}
    (hop : operator ≠ '/') :
    (gap indent column operator).hasCommentMark = false := by
  have hslash : '/' ∉ gap indent column operator := by
    intro h
    simp only [gap, List.cons_append, List.mem_cons, List.mem_append, List.not_mem_nil, or_false]
      at h
    rcases h with h | h | h | h
    · exact absurd h (by decide)
    · rcases Indent.mem_render h with h | h
      · exact absurd h (by decide)
      · exact absurd h (by decide)
    · exact hop h.symm
    · exact absurd h (by decide)
  refine Bool.eq_false_iff.mpr fun h => hslash ?_
  rcases hasCommentMark_iff.mp h with h | h
  · exact h.subset (by simp)
  · exact h.subset (by simp)

/-! ### A ternary in its place -/

/-- A ternary of a source at offset `a`, each of its parts where it was put: the test at the start,
the others behind the gaps in front of them. -/
structure StandsAt (s : Source) (a : Nat) (indent : Indent) (l : Layout)
    (test consequence alternative : Text) (n : Node) (p : TernaryParts) : Prop where
  parts : ternaryParts? n = some p
  start : s.start n = a
  stop : s.stop n = s.stop p.alternative
  test_start : s.start p.test = a
  test_stop : s.stop p.test = a + test.length
  consequence_start : s.start p.consequence = s.stop p.test + (gap indent l.question '?').length
  consequence_stop : s.stop p.consequence = s.start p.consequence + consequence.length
  alternative_start : s.start p.alternative = s.stop p.consequence + (gap indent l.colon ':').length
  alternative_stop : s.stop p.alternative = s.start p.alternative + alternative.length

theorem slice_middle {t a b c : Text} (h : t = a ++ b ++ c) {i j : Nat} (hi : i = a.length)
    (hj : j = i + b.length) : t.slice i j = b := by
  subst hi hj h
  rw [slice, List.append_assoc, List.drop_left, Nat.add_sub_cancel_left, List.take_left]

section Stands
variable {s : Source} {before after : Text} {indent : Indent} {l : Layout}
  {test consequence alternative : Text}
  (htext : s.text = before ++ broken indent l test consequence alternative ++ after) {n : Node} {p :
    TernaryParts}
  (h : StandsAt s before.length indent l test consequence alternative n p)
include htext h

/-- **The parts and the gaps** are where they were put. -/
theorem StandsAt.pieces :
    s.extent p.test = test ∧ s.between p.test p.consequence = gap indent l.question '?' ∧
      s.extent p.consequence = consequence ∧
      s.between p.consequence p.alternative = gap indent l.colon ':' ∧
      s.extent p.alternative = alternative := by
  obtain ⟨-, -, -, h1, h2, h3, h4, h5, h6⟩ := h
  rw [broken_eq] at htext
  refine ⟨?_, ?_, ?_, ?_, ?_⟩
  · refine slice_middle (a := before) (c := gap indent l.question '?' ++ consequence ++
      gap indent l.colon ':' ++ alternative ++ after) ?_ h1 (by omega)
    simpa only [List.append_assoc] using htext
  · refine slice_middle (a := before ++ test) (c := consequence ++ gap indent l.colon ':' ++
      alternative ++ after) ?_ (by rw [List.length_append]; omega) h3
    simpa only [List.append_assoc] using htext
  · refine slice_middle (a := before ++ test ++ gap indent l.question '?')
      (c := gap indent l.colon ':' ++ alternative ++ after) ?_
        (by simp only [List.length_append]; omega) h4
    simpa only [List.append_assoc] using htext
  · refine slice_middle (a := before ++ test ++ gap indent l.question '?' ++ consequence)
      (c := alternative ++ after) ?_
      (by simp only [List.length_append]; omega) h5
    simpa only [List.append_assoc] using htext
  · refine slice_middle (a := before ++ test ++ gap indent l.question '?' ++ consequence ++
      gap indent l.colon ':') (c := after) ?_ (by simp only [List.length_append]; omega) h6
    simpa only [List.append_assoc] using htext

theorem StandsAt.isMultiline : s.isMultiline n = true := by
  have hgap := (h.pieces htext).2.1
  obtain ⟨-, h0, h1, h2, h3, h4, h5, h6, h7⟩ := h
  have hfeed : 0 < (s.text.slice (s.stop p.test) (s.start p.consequence)).count '\n' := by
    change 0 < (s.between p.test p.consequence).count '\n'
    rw [hgap]
    exact List.count_pos_iff.mpr List.mem_cons_self
  rw [Source.isMultiline, decide_eq_true_eq, Source.row, Source.endRow, h1,
    rowAt_add s.text (a := s.start n) (b := s.stop p.alternative) (by omega),
    count_slice_add s.text '\n' (a := s.start n) (b := s.stop p.test) (by omega) (by omega),
    count_slice_add s.text '\n' (a := s.stop p.test) (b := s.start p.consequence)
      (by omega) (by omega)]
  omega

theorem StandsAt.ternaryPlacement? : Constructs.ternaryPlacement? s n = some .leading := by
  obtain ⟨-, hquestion, -, hcolon, -⟩ := h.pieces htext
  rw [Constructs.ternaryPlacement?, h.parts]
  simp only [h.isMultiline htext, if_true, hquestion, hcolon]
  exact ternaryPlacement?_gaps indent l

/-- **A ternary that was put together is read back** with the layout it got, unless it holds a
comment. -/
theorem StandsAt.layout? (hk : n.kind = "ternary_expression") (hc : n.containsComment = false) :
    layout? s indent n = some l := by
  obtain ⟨-, hquestion, -, hcolon, -⟩ := h.pieces htext
  have hplain : hasInteriorComment s n p = false := by
    rw [hasInteriorComment, hc, hquestion, hcolon, hasCommentMark_gap _ _ (by decide),
      hasCommentMark_gap _ _ (by decide)]
    rfl
  rw [Ternaries.layout?, h.parts]
  simp only [hk, h.ternaryPlacement? htext, hplain, and_self, if_true,
    operatorColumn_of_gap (by decide) (by decide) hquestion,
    operatorColumn_of_gap (by decide) (by decide) hcolon]

end Stands

/-! ### The round trip -/

theorem text_of_rebuild? {s : Source} {indent : Indent} {l : Layout} {n : Node} {p : TernaryParts}
    {r : Replacement} (h : rebuild? s indent l n p = some r) :
    r.text = broken indent l (s.nodeText p.test).trim (s.nodeText p.consequence).trim
      (s.nodeText p.alternative).trim := by
  rw [rebuild?] at h
  split_ifs at h
  cases h
  rfl

/-- **Layouts of ternaries round-trip.** Where a ternary is put together again with a layout, its
parts are copied without the blanks around them, and in every source in which the new text stands,
with the parts where they were put, its operators count as leading and are found at the columns of
the layout. So the layout, collected from a reference, is collected again from the result. -/
theorem layout?_rebuild? {s : Source} {indent : Indent} {l : Layout} {n : Node} {p : TernaryParts}
    {r : Replacement} (h : rebuild? s indent l n p = some r) {s' : Source} {before after : Text}
    (htext : s'.text = before ++ r.text ++ after) {n' : Node} {p' : TernaryParts}
    (hstands : StandsAt s' before.length indent l (s.nodeText p.test).trim
      (s.nodeText p.consequence).trim (s.nodeText p.alternative).trim n' p') :
    (s'.extent p'.test = (s.nodeText p.test).trim ∧
      s'.extent p'.consequence = (s.nodeText p.consequence).trim ∧
      s'.extent p'.alternative = (s.nodeText p.alternative).trim) ∧
    ternaryPlacement? s' n' = some .leading ∧
    operatorColumn s' indent '?' p'.test p'.consequence = l.question ∧
    operatorColumn s' indent ':' p'.consequence p'.alternative = l.colon ∧
    (n'.kind = "ternary_expression" → n'.containsComment = false →
      layout? s' indent n' = some l) := by
  rw [text_of_rebuild? h] at htext
  obtain ⟨h1, h2, h3, h4, h5⟩ := hstands.pieces htext
  exact ⟨⟨h1, h3, h5⟩, hstands.ternaryPlacement? htext,
    operatorColumn_of_gap (by decide) (by decide) h2, operatorColumn_of_gap (by decide)
      (by decide) h4, hstands.layout? htext⟩

/-- A test, a string with both operators in it and a name, at offset 4; the operators and the two
last parts are at `q`, `c`, `k` and `a`. -/
def choice (q c k a : Nat) : Node :=
  .construct 5 "ternary_expression" 4 (a + 1) (some .right)
    [.construct 6 "identifier" 4 5 (some .condition) [], .token 7 "?" q (q + 1),
      .construct 8 "string" c (c + 4) (some .consequence)
        [.token 9 "\x22" c (c + 1), .construct 10 "string_fragment" (c + 1) (c + 3) none [],
          .token 11 "\x22" (c + 3) (c + 4)],
      .token 12 ":" k (k + 1), .construct 13 "identifier" a (a + 1) (some .alternative) []]

/-- The parts of the ternary. -/
def choiceParts (c a : Nat) : TernaryParts where
  test := .construct 6 "identifier" 4 5 (some .condition) []
  consequence := .construct 8 "string" c (c + 4) (some .consequence)
    [.token 9 "\x22" c (c + 1), .construct 10 "string_fragment" (c + 1) (c + 3) none [],
      .token 11 "\x22" (c + 3) (c + 4)]
  alternative := .construct 13 "identifier" a (a + 1) (some .alternative) []

/-- The assignment of the ternary to a variable. -/
def choiceSource (text : String) (q c k a : Nat) : Source where
  text := text.toList
  root := .construct 0 "program" 0 (a + 3) none
    [.construct 1 "expression_statement" 0 (a + 2) none
        [.construct 2 "assignment_expression" 0 (a + 1) none
            [.construct 3 "identifier" 0 1 (some .left) [], .token 4 "=" 2 3, choice q c k a],
          .token 14 ";" (a + 1) (a + 2)]]
  hasErrors := false

/-- A reference has the operators behind a tab and a space, and behind two tabs. The ternary on one
line, put together with its columns, is the reference again, and the layout that the reference shows
is that of the columns. -/
theorem layout?_rebuild?_choice :
    let reference := choiceSource "x = a\n\t ? \"?:\"\n\t\t: b;\n" 8 10 17 19
    let s := choiceSource "x = a ? \"?:\" : b;\n" 6 8 13 15
    let r : Replacement := ⟨4, 16, "a\n\t ? \"?:\"\n\t\t: b".toList⟩
    rebuild? s ⟨.tab, 4⟩ ⟨5, 8⟩ (choice 6 8 13 15) (choiceParts 8 15) = some r ∧
      reference.text = "x = ".toList ++ r.text ++ ";\n".toList ∧
      reference.extent (choiceParts 10 19).consequence = "\"?:\"".toList ∧
      ternaryPlacement? reference (choice 8 10 17 19) = some .leading ∧
      operatorColumn reference ⟨.tab, 4⟩ ':' (choiceParts 10 19).consequence
        (choiceParts 10 19).alternative = 8 ∧
      layout? reference ⟨.tab, 4⟩ (choice 8 10 17 19) = some ⟨5, 8⟩ := by
  intro reference s r
  have hrebuild : rebuild? s ⟨.tab, 4⟩ ⟨5, 8⟩ (choice 6 8 13 15) (choiceParts 8 15) = some r := by
    decide +kernel
  have htext : reference.text = "x = ".toList ++ r.text ++ ";\n".toList := by decide
  have hstands : StandsAt reference "x = ".toList.length ⟨.tab, 4⟩ ⟨5, 8⟩
      (s.nodeText (choiceParts 8 15).test).trim (s.nodeText (choiceParts 8 15).consequence).trim
      (s.nodeText (choiceParts 8 15).alternative).trim (choice 8 10 17 19) (choiceParts 10 19) :=
    ⟨rfl, by decide +kernel, by decide +kernel, by decide +kernel, by decide +kernel,
      by decide +kernel, by decide +kernel, by decide +kernel, by decide +kernel⟩
  obtain ⟨⟨-, hextent, -⟩, hplacement, -, hcolon, hagain⟩ := layout?_rebuild? hrebuild htext hstands
  refine ⟨hrebuild, htext, hextent.trans ?_, hplacement, hcolon, hagain rfl ?_⟩
  · decide +kernel
  · decide +kernel

end HouseStyle.Ternaries
