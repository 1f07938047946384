import HouseStyle.Proofs.Restyle.SafeOnly
import HouseStyle.Proofs.Tree.Carried

/-! # Changes within lines

Replacements that neither hold a line feed nor stand in the place of one (`WithinLines`) leave the
lines of a text where they are: what becomes of the text in front of a row stops at the start of a
line again, and has as many line feeds as before (`endsAtLineStart_edited`, `count_edited`). So if
it is known what the result has from the start of a line up to a node, it is known what stands
before the node on its line, and on which row the node is (`beforeNode_of_take`): all that stood
there, if no replacement reaches into it (`beforeNode_of_kept`), and the text of a replacement
behind what stays, if one ends at the node (`beforeNode_of_put`). -/

namespace HouseStyle

open HouseStyle.Text

/-! ### Replacements beside a node and up to it -/

namespace Source

/-- A replacement that leaves alone what stands before a node on its line: it ends in front of the
row, or starts behind the start of the node. -/
def Beside (s : Source) (n : Node) (r : Replacement) : Prop :=
  r.stop < s.lineStart (s.row n) ∨ s.start n < r.start

/-- A replacement on the line of a node that ends at the node. -/
structure UpTo (s : Source) (n : Node) (r : Replacement) : Prop where
  onLine : s.lineStart (s.row n) ≤ r.start
  ordered : r.start ≤ r.stop
  stop : r.stop = s.start n

section UpTo
variable {s : Source} {m n : Node} {r r' : Replacement} (h : s.UpTo m r)
include h

theorem UpTo.beside (hrow : s.row m ≠ s.row n) : s.Beside n r := by
  have h1 := h.onLine
  have h2 := h.stop
  rcases Nat.lt_or_gt_of_ne hrow with hlt | hgt
  · have := s.lt_lineStart hlt
    exact Or.inl (by omega)
  · have := s.lt_lineStart hgt
    exact Or.inr (by omega)

theorem UpTo.before (h' : s.UpTo n r') (hrow : s.row m < s.row n) : r.Before r' := by
  have h1 := h.ordered
  have h2 := h.stop
  have h3 := h'.onLine
  have h4 := s.lt_lineStart hrow
  exact ⟨by omega, by omega⟩

end UpTo

end Source

/-! ### Replacements within lines -/

namespace Replacement

/-- Replacements that have no line feed, neither in their ranges nor in their texts. -/
def WithinLines (source : Text) (rs : List Replacement) : Prop :=
  ∀ r ∈ rs, '\n' ∉ r.replaced source ∧ '\n' ∉ r.text

variable {source : Text} {rs : List Replacement}

theorem edited_extend {a b : Nat} (hab : a ≤ b)
    (h : ∀ r ∈ rs, r.start < a ∧ r.stop ≤ a ∨ b ≤ r.start) :
    edited source rs b = edited source rs a ++ source.slice a b := by
  have hsame : rs.filter (·.start < (b : Int)) = rs.filter (·.start < (a : Int)) := by
    refine List.filter_congr fun r hr => ?_
    have := h r hr
    rw [decide_eq_decide]
    omega
  rw [edited, edited, hsame, splice_extend hab fun r hr => ?_]
  obtain ⟨hr, hlt⟩ := List.mem_filter.mp hr
  have := h r hr
  simp only [decide_eq_true_eq] at hlt
  omega

theorem count_splice : ∀ {rs : List Replacement} {p : Nat}, Descending rs → InRange source rs →
    (∀ r ∈ rs, r.stop ≤ p) → WithinLines source rs →
    (splice source p [] rs).count '\n' = (source.take p).count '\n'
  | [], p, _, _, _, _ => by simp [splice]
  | r :: rs, p, hdesc, hrange, hstop, hlines => by
    obtain ⟨hfirst, hrest⟩ := List.pairwise_cons.mp hdesc
    have hr := hrange r List.mem_cons_self
    have hrp := hstop r List.mem_cons_self
    have ih := count_splice (p := r.start.toNat) hrest
      (fun r' hr' => hrange r' (List.mem_cons_of_mem _ hr'))
      (fun r' hr' => by have := (hfirst r' hr').2; omega)
      fun r' hr' => hlines r' (List.mem_cons_of_mem _ hr')
    obtain ⟨hold, hnew⟩ := hlines r List.mem_cons_self
    rw [splice_cons, List.count_append, ih, List.count_append, List.count_eq_zero.mpr hnew,
      ← Text.take_append_slice source (a := r.start.toNat) (b := p) (by omega),
      ← Text.slice_append_slice source (a := r.start.toNat) (b := r.stop.toNat) (c := p)
        (by omega) (by omega), List.count_append, List.count_append]
    rw [replaced] at hold
    rw [List.count_eq_zero.mpr hold]

section Source
variable {s : Source} (hlines : WithinLines s.text (taken s.text rs)) {row : Nat}
  (hrow : row < s.lines.length)
include hlines hrow

theorem stop_lt_lineStart {r : Replacement} (hr : r ∈ taken s.text rs)
    (hlt : r.start < s.lineStart row) :
    r.stop < s.lineStart row := by
  have hrange := inRange_taken s.text rs r hr
  by_contra hle
  have hnl := s.newline_before_lineStart hrow (by omega)
  have hmem : '\n' ∈ s.text.slice (s.lineStart row - 1) (s.lineStart row - 1 + 1) := by
    rw [Text.slice_succ hnl]
    exact List.mem_cons_self
  exact (hlines r hr).1 (Text.mem_slice_of_le (by omega) (by omega) hmem)

theorem count_edited : (edited s.text (taken s.text rs) (s.lineStart row)).count '\n' = row := by
  have hcount := (s.take_lineStart row hrow).2
  rw [edited, count_splice ((descending_taken s.text rs).filter _)
    (fun r hr => inRange_taken s.text rs r (List.mem_filter.mp hr).1) (fun r hr => ?_)
    (fun r hr => hlines r (List.mem_filter.mp hr).1), hcount]
  obtain ⟨hr, hlt⟩ := List.mem_filter.mp hr
  have := stop_lt_lineStart hlines hrow hr (by simpa using hlt)
  omega

/-- **What becomes of the text in front of a row** stops at the start of a line. -/
theorem endsAtLineStart_edited :
    EndsAtLineStart (edited s.text (taken s.text rs) (s.lineStart row)) := by
  rcases Nat.eq_zero_or_pos (s.lineStart row) with hzero | hpos
  · have hnone : (taken s.text rs).filter (·.start < ((s.lineStart row : Nat) : Int)) = [] := by
      refine List.filter_eq_nil_iff.mpr fun r hr => ?_
      have := inRange_taken s.text rs r hr
      rw [decide_eq_true_eq]
      omega
    rw [edited, hnone, hzero]
    exact Or.inl rfl
  · have hnl := s.newline_before_lineStart hrow hpos
    have hslice : s.text.slice (s.lineStart row - 1) (s.lineStart row) = ['\n'] := by
      have := Text.slice_succ hnl
      rwa [Nat.sub_add_cancel hpos] at this
    rw [edited, splice_extend (p := s.lineStart row - 1) (by omega) fun r hr => ?_, hslice]
    · exact Or.inr ⟨_, rfl⟩
    · obtain ⟨hr, hlt⟩ := List.mem_filter.mp hr
      have := stop_lt_lineStart hlines hrow hr (by simpa using hlt)
      omega

theorem beforeNode_of_take {s' : Source} {n' : Node} (hn' : s'.start n' ≤ s'.text.length) {v : Text}
    (hv : '\n' ∉ v)
    (h : s'.text.take (s'.start n') = edited s.text (taken s.text rs) (s.lineStart row) ++ v) :
    s'.row n' = row ∧ s'.beforeNode n' = v := by
  constructor
  · rw [Source.row, rowAt, h, List.count_append, count_edited hlines hrow,
      List.count_eq_zero.mpr hv, Nat.add_zero]
  · rw [s'.beforeNode_eq_lastLine hn', h, (endsAtLineStart_edited hlines hrow).lastLine_append hv]

end Source

/-- **Blanks in the place of blanks**, within lines, keep which lines are blank. -/
theorem isBlankText_lines_apply {source : Text} {rs : List Replacement}
    (h : ∀ r ∈ rs, r.isEffective source = true → (r.replaced source).isBlankText = true ∧
      r.text.isBlankText = true ∧ '\n' ∉ r.replaced source ∧ '\n' ∉ r.text) :
    (apply source rs).lines.map isBlankText = source.lines.map isBlankText := by
  have hnone : ∀ t : Text, t.isBlankText = true → '\n' ∉ t →
      t.filter (fun c => !isBlank c || c == '\n') = [] := by
    intro t hblank hfeed
    refine List.filter_eq_nil_iff.mpr fun c hc => ?_
    have hne : c ≠ '\n' := fun heq => hfeed (heq ▸ hc)
    simp [hne, List.all_eq_true.mp hblank c hc]
  have hpiece : Piecewise fun t u => u.filter (fun c => !isBlank c || c == '\n') =
      t.filter fun c => !isBlank c || c == '\n' :=
    ⟨fun _ => rfl, fun h h' => by rw [List.filter_append, List.filter_append, h, h']⟩
  rw [isBlankText_lines, isBlankText_lines source, rel_apply hpiece source rs fun r hr heff => ?_]
  obtain ⟨h1, h2, h3, h4⟩ := h r hr heff
  rw [hnone _ h1 h3, hnone _ h2 h4]

section Moved
variable {s s' : Source} (htext : s'.text = apply s.text rs)
  (hlines : WithinLines s.text (taken s.text rs))
  {n n' : Node} (hn : s.start n ≤ s.text.length) (hmoved : s.Moved (taken s.text rs) s' n n')
include htext hlines hn hmoved

theorem beforeNode_of_kept (h : ∀ r ∈ taken s.text rs, s.Beside n r) :
    s'.row n' = s.row n ∧ s'.beforeNode n' = s.beforeNode n := by
  have hline := (Source.start_on_line hn).2.1
  have hbeside : ∀ r ∈ taken s.text rs,
      r.start < s.lineStart (s.row n) ∧ r.stop ≤ s.lineStart (s.row n) ∨
        s.start n ≤ r.start ∧ s.start n < r.stop := by
    intro r hr
    have hrange := inRange_taken s.text rs r hr
    rcases h r hr with hlt | hlt
    · omega
    · omega
  have hstart := hmoved.start fun r hr hcross => by
    rcases h r hr with hlt | hlt
    · omega
    · omega
  have htake := take_apply_kept hline hn hbeside hstart
  rw [← htext, ← Source.beforeNode_eq_slice hn] at htake
  exact beforeNode_of_take hlines (s.row_lt_length_lines n)
    (charOffset_le_of_boundary hmoved.boundary.1)
    (s.newline_notMem_beforeNode n) htake

/-- **A node at the end of a replacement**, which starts `k` characters behind the start of the
line. -/
theorem beforeNode_of_put {r : Replacement} (hr : r ∈ taken s.text rs) {k : Nat}
    (h1 : r.start = s.lineStart (s.row n) + k) (h2 : r.stop = s.start n)
    (h : ∀ r' ∈ taken s.text rs, r' = r ∨ s.Beside n r') :
    s'.row n' = s.row n ∧ s'.beforeNode n' = (s.beforeNode n).take k ++ r.text := by
  have hrange := inRange_taken s.text rs r hr
  have hstart := hmoved.start fun r' hr' hcross => by
    have hline := (Source.start_on_line hn).2.1
    rcases h r' hr' with rfl | hlt | hlt
    · omega
    · omega
    · omega
  have htake :=
      take_apply_put (a := s.lineStart (s.row n) + k) hr (by omega) h2 (fun r' hr' hbefore => by
    have hlt := hbefore.1
    have hrange' := inRange_taken s.text rs r' hr'
    rcases h r' hr' with rfl | hbeside | hbeside
    · omega
    · omega
    · omega) hstart
  -- in front of the replacement the line is as it was
  have hcode : edited s.text (taken s.text rs) (s.lineStart (s.row n) + k) =
      edited s.text (taken s.text rs) (s.lineStart (s.row n)) ++ (s.beforeNode n).take k := by
    rw [edited_extend (Nat.le_add_right _ k) fun r' hr' => ?_, Source.beforeNode_eq_slice hn,
      Text.slice_take (by omega)]
    have hrange' := inRange_taken s.text rs r' hr'
    rcases h r' hr' with rfl | hbeside | hbeside
    · omega
    · omega
    · omega
  rw [← htext, hcode, List.append_assoc] at htake
  refine beforeNode_of_take hlines (s.row_lt_length_lines n)
    (charOffset_le_of_boundary hmoved.boundary.1)
    (fun hmem => ?_) htake
  rcases List.mem_append.mp hmem with hmem | hmem
  · exact s.newline_notMem_beforeNode n (List.mem_of_mem_take hmem)
  · exact (hlines r hr).2 hmem

end Moved

end Replacement

end HouseStyle
