import HouseStyle.Proofs.Restyle.Context
import HouseStyle.Proofs.Tree.Gaps
import HouseStyle.Restyle.DeclarationCommas
import HouseStyle.Restyle.SwitchBreaks
import HouseStyle.Restyle.TrailingComments

/-! # What changes in one pass do

Three restylers go over a text once. Commas of declarations are written in the place of all that
stands between two declarators, which is a comma (`ink_move?`). Breaks of switches and gaps before
comments put blanks in the place of blanks (`SwitchBreaks.ink_reindent?`, `ink_setGap?`). A comment
that goes back to the line above crosses a line ending and the blanks around it, and keeps its text
(`ink_reattach?`). -/

namespace HouseStyle

open HouseStyle.Text

/-! ### Commas of declarations -/

namespace DeclarationCommas

theorem ink_separator (p : Placement) (t : Text) : ink (separator p t.indentOf) = [','] := by
  cases p with
  | leading =>
    rw [separator, List.cons_append, ink_cons_blank rfl, ink_append, ink_indentOf]
    rfl
  | trailing =>
    rw [separator, ink_cons_solid rfl, ink_cons_blank rfl, ink_indentOf]

theorem hasCommentMark_of_commaPlacement? {t : Text} {p : Placement}
    (h : Expression.commaPlacement? t = some p) : t.hasCommentMark = false := by
  unfold Expression.commaPlacement? at h
  split at h
  · simp at h
  · rename_i hno
    simp only [Bool.or_eq_true, not_or, Bool.not_eq_true] at hno
    exact hno.1.2

/-- **A comma that moves** leaves nothing behind. -/
theorem ink_move? {s : Source} (hs : s.Regular) {n : Node} (hn : n ∈ s.root.nodes)
    (hk : Functions.variableKinds.contains n.kind = true) {p : Node × Node}
    (hp : p ∈ Constructs.neighbours (Constructs.declarators n)) {want : Placement} {r : Replacement}
    (h : move? s want p = some r) : r.text.ink = (r.replaced s.text).ink := by
  rw [move?] at h
  split at h
  · rename_i placement hpl
    split_ifs at h
    cases h
    have hink := Source.ink_between_declarators hs hn hk hp (hasCommentMark_of_commaPlacement? hpl)
    rw [Source.lineIndent, ink_separator, ← hink]
    rfl
  · simp at h

/-- **Placing commas keeps the ink.** -/
theorem ink_restyle {ctx : Context} (hp : ctx.parser.Gives Source.Regular) (value : Value)
    (t : Text) : (restyle ctx value t).ink = t.ink := by
  rw [restyle]
  split
  · refine Context.ink_onSource (fun s t hs => ?_) t
    refine Replacement.ink_apply fun r hr _ => ?_
    obtain ⟨n, hn, h⟩ := List.mem_flatMap.mp hr
    rw [replacements] at h
    split_ifs at h with hk
    · obtain ⟨p, hpn, h⟩ := List.mem_filterMap.mp h
      exact ink_move? (hp _ _ s hs) (Node.mem_nodes_of_mem_walkNodes hn) hk hpn h
    · simp at h
  · rfl

end DeclarationCommas

/-! ### Breaks of switches -/

namespace SwitchBreaks

theorem ink_reindent? {s : Source} {b : Node} (hb : s.start b ≤ s.text.length) {caseRow : Nat}
    {target : Text} (ht : ink target = []) {r : Replacement}
    (h : reindent? s caseRow target b = some r) : r.text.ink = (r.replaced s.text).ink := by
  simp only [reindent?] at h
  split_ifs at h with hno
  cases h
  simp only [not_or, Bool.not_eq_true, Bool.not_eq_false'] at hno
  have hrange : ((s.lineStart (s.row b) : Int) + (s.beforeNode b).length).toNat = s.start b := by
    have := Source.length_beforeNode hb
    omega
  rw [ht, Replacement.replaced, hrange, Int.toNat_natCast, ← Source.beforeNode_eq_slice hb,
    ink_of_blank hno.2.1]

/-- **Indenting breaks keeps the ink.** -/
theorem ink_place {s : Source} (hs : s.WellFormed) (indent : Indent) (extra : Nat) :
    (place indent extra s).ink = s.text.ink := by
  refine Replacement.ink_apply fun r hr _ => ?_
  obtain ⟨n, hn, h⟩ := List.mem_flatMap.mp hr
  simp only [replacements] at h
  split_ifs at h with hk
  · obtain ⟨b, hb, h⟩ := List.mem_filterMap.mp h
    have hbn : b ∈ n.children := by
      simp only [Constructs.breaks, Node.childrenAs, List.mem_filter] at hb
      exact hb.1.1
    have hsound := hs.sound_child (Node.mem_nodes_of_mem_walkNodes hn) hbn
    exact ink_reindent? hsound.start_le (ink_render _ _) h
  · simp at h

theorem ink_restyle {ctx : Context} (hp : ctx.parser.Gives Source.Regular) (value : Value)
    (t : Text) : (restyle ctx value t).ink = t.ink := by
  rw [restyle]
  split_ifs
  · exact Context.ink_onSource (fun s t hs => ink_place (hp _ _ s hs).wellFormed _ _) t
  · exact Context.ink_onSource (fun s t hs => ink_place (hp _ _ s hs).wellFormed _ _) t
  · rfl

end SwitchBreaks

/-! ### Groups of trailing comments -/

namespace Comment

theorem mem_of_mem_takeGroup {lines : List Text} {first : Entry} {e : Entry} :
    ∀ {es : List Entry} {last : Entry},
      e ∈ (takeGroup lines first last es).1 ∨ e ∈ (takeGroup lines first last es).2 → e ∈ es
  | [], _, h => by simp [takeGroup] at h
  | d :: es, last, h => by
    rw [takeGroup] at h
    split_ifs at h
    · rcases h with h | h
      · rcases List.mem_cons.mp h with rfl | h
        · exact List.mem_cons_self
        · exact List.mem_cons_of_mem _ (mem_of_mem_takeGroup (Or.inl h))
      · exact List.mem_cons_of_mem _ (mem_of_mem_takeGroup (Or.inr h))
    · simpa using h

theorem mem_of_mem_groups {lines : List Text} {e : Entry} {es g : List Entry}
    (hg : g ∈ groups lines es) (he : e ∈ g) : e ∈ es := by
  induction es using groups.induct lines with
  | case1 => simp [groups] at hg
  | case2 d es r ih =>
    rw [groups] at hg
    rcases List.mem_cons.mp hg with rfl | hg
    · rcases List.mem_cons.mp he with rfl | he
      · exact List.mem_cons_self
      · exact List.mem_cons_of_mem _ (mem_of_mem_takeGroup (Or.inl he))
    · exact List.mem_cons_of_mem _ (mem_of_mem_takeGroup (Or.inr (ih hg)))

theorem ink_gap {s : Source} {n : Node} (hn : s.start n ≤ s.text.length) {e : Entry}
    (h : entryOf? s n = some e) :
    ink (s.text.slice (s.lineStart e.row + e.codeLength)
      (s.lineStart e.row + e.codeLength + e.gap)) = [] := by
  simp only [entryOf?] at h
  split_ifs at h
  cases h
  have hle := trimRight_length_le (s.beforeNode n)
  have hend := Source.length_beforeNode hn
  rw [Nat.add_assoc, Nat.add_sub_cancel' hle, hend, ← slice_drop, ← Source.beforeNode_eq_slice hn,
    ink_drop_trimRight]

end Comment

/-! ### Trailing comments -/

namespace TrailingComments

theorem ink_setGap? {s : Source} {n : Node} (hn : s.start n ≤ s.text.length) {e : Comment.Entry}
    (he : Comment.entryOf? s n = some e) {gap : Nat} {r : Replacement}
    (h : setGap? s gap e = some r) :
    r.text.ink = (r.replaced s.text).ink := by
  simp only [setGap?] at h
  split_ifs at h
  cases h
  rw [ink_replicate_space, Replacement.replaced]
  exact (Comment.ink_gap hn he).symm

section Source
variable {s : Source} (hs : s.WellFormed)
include hs

theorem start_le_of_mem_lineComments {n : Node} (h : n ∈ lineComments s) :
    s.start n ≤ s.text.length :=
  (hs n (Node.mem_nodes_of_mem_walkNodes (List.mem_filter.mp h).1)).start_le

theorem ink_respace {change : Source → List Comment.Entry → List Replacement}
    (hchange : ∀ g, ∀ r ∈ change s g, ∃ e ∈ g, ∃ gap, setGap? s gap e = some r) :
    (respace change s).ink = s.text.ink := by
  refine Replacement.ink_apply fun r hr _ => ?_
  obtain ⟨g, hg, hrg⟩ := List.mem_flatMap.mp hr
  obtain ⟨e, heg, gap, h⟩ := hchange g r hrg
  obtain ⟨n, hn, he⟩ := List.mem_filterMap.mp (Comment.mem_of_mem_groups hg heg)
  exact ink_setGap? (start_le_of_mem_lineComments hs hn) he h

theorem ink_respace_alignGroup : (respace alignGroup s).ink = s.text.ink := by
  refine ink_respace hs fun g r hr => ?_
  rw [alignGroup] at hr
  split_ifs at hr
  · simp at hr
  · obtain ⟨e, he, h⟩ := List.mem_filterMap.mp hr
    exact ⟨e, he, _, h⟩

theorem ink_respace_tightenGroup : (respace tightenGroup s).ink = s.text.ink := by
  refine ink_respace hs fun g r hr => ?_
  obtain ⟨e, he, h⟩ := List.mem_filterMap.mp hr
  exact ⟨e, he, _, h⟩

/-- **A comment that goes back** to the line above crosses nothing but blanks. -/
theorem ink_reattach? {n : Node} (hn : n ∈ lineComments s) {known : List (Text × Text)}
    {rows : List Nat} {r : Replacement} (h : reattach? s known rows n = some r) :
    r.text.ink = (r.replaced s.text).ink := by
  have hsound := hs n (Node.mem_nodes_of_mem_walkNodes (List.mem_filter.mp hn).1)
  have hle := hsound.start_le
  unfold reattach? at h
  split at h
  · simp at h
  · rename_i above hrow
    rw [Nat.succ_eq_add_one] at hrow
    dsimp only at h
    split_ifs at h with hno
    cases h
    simp only [Bool.or_eq_true, not_or, Bool.not_eq_true, Bool.not_eq_false'] at hno
    have hblank : ink (s.text.slice (s.lineStart (above + 1)) (s.start n)) = [] := by
      rw [← hrow, ← Source.beforeNode_eq_slice hle]
      exact ink_of_blank hno.1.1.1.1
    obtain ⟨hlines, hstart, -⟩ := Source.start_on_line hle
    rw [hrow] at hlines hstart
    obtain ⟨hnext, hnl⟩ := s.newline_after_line hlines
    have hcode := trimRight_length_le (s.line above)
    have hrest : ink (s.text.slice (s.lineStart above + (s.line above).trimRight.length)
        (s.lineStart above + (s.line above).length)) = [] := by
      rw [← slice_drop, s.line_eq_slice, ink_drop_trimRight]
    -- the range: the end of the line above, its line feed, the blanks before the comment, the
    -- comment
    rw [ink_cons_blank rfl, hsound.nodeText, Replacement.replaced]
    change _ = ink (s.text.slice (s.lineStart above + (s.line above).trimRight.length) (s.stop n))
    have hord := hsound.ordered
    rw [ink_slice_add s.text (b := s.start n) (by omega) hord,
      ink_slice_add s.text (b := s.lineStart (above + 1)) (by omega) hstart, hblank,
      ink_slice_add s.text (b := s.lineStart above + (s.line above).length) (by omega) (by omega),
      hrest, hnext, slice_succ hnl]
    rfl

end Source

section Context
variable {ctx : Context} (hp : ctx.parser.Gives Source.Regular)
include hp

theorem ink_alignWithReference {reference : Text} {s : Source} {t : Text}
    (hs : ctx.clean? t = some s) :
    (alignWithReference ctx reference s).ink = s.text.ink := by
  unfold alignWithReference
  split
  · rfl
  · rename_i known hknown
    have hback : (reattach known s).ink = s.text.ink := by
      refine Replacement.ink_apply fun r hr _ => ?_
      obtain ⟨n, hn, h⟩ := List.mem_filterMap.mp hr
      exact ink_reattach? (hp _ _ s hs).wellFormed hn h
    dsimp only
    split_ifs with heq
    · exact ink_respace_alignGroup (hp _ _ s hs).wellFormed
    · split
      · rename_i s' hs'
        rw [ink_respace_alignGroup (hp _ _ s' hs').wellFormed, Context.text_of_clean? hs', hback]
      · rfl

/-- **Setting gaps keeps the ink.** -/
theorem ink_restyle (value : Value) (t : Text) : (restyle ctx value t).ink = t.ink := by
  rw [restyle]
  split_ifs
  · split
    · exact Context.ink_onSource (fun s t hs => ink_alignWithReference hp hs) t
    · exact Context.ink_onSource (fun s t hs => ink_respace_alignGroup (hp _ _ s hs).wellFormed) t
  · exact Context.ink_onSource (fun s t hs => ink_respace_tightenGroup (hp _ _ s hs).wellFormed) t
  · rfl

end Context

end TrailingComments

end HouseStyle
