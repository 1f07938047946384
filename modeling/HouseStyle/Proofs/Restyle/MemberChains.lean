import HouseStyle.Proofs.Restyle.Context
import HouseStyle.Proofs.Tree.Gaps
import HouseStyle.Restyle.MemberChains

/-! # What laying out chains does

The replay of line breaks writes a separator as its delimiter, perhaps on a new line, and without
comments the delimiter is all that the separator holds (`ink_breakAs?`). The indents of continuation
lines are blanks in the place of blanks (`ink_reindent?`). Together: `ink_restyle`. -/

namespace HouseStyle.MemberChains

open HouseStyle.Text

/-! ### Spines -/

theorem spine_eq (n : Node) :
    spine n = if n.kind = "call_expression" then ((n.child? .function).map spine).getD []
      else if isMember n then n :: ((n.child? .object).map spine).getD [] else [] := by
  rw [spine]
  split_ifs
  · split
    · rename_i f hf
      rw [hf]
      rfl
    · rename_i hf
      rw [hf]
      rfl
  · split
    · rename_i o ho
      rw [ho]
      rfl
    · rename_i ho
      rw [ho]
      rfl
  · rfl

theorem mem_spine {m n : Node} (h : m ∈ spine n) : m ∈ n.nodes ∧ m.kind = "member_expression" := by
  rw [spine] at h
  split_ifs at h with hcall hmem
  · split at h
    · rename_i f hf
      have hlt := Node.size_lt_of_child? hf
      obtain ⟨h1, h2⟩ := mem_spine h
      exact ⟨Node.mem_nodes_trans h1
        (Node.mem_nodes_of_mem_children (Node.mem_children_of_child? hf)), h2⟩
    · simp at h
  · rcases List.mem_cons.mp h with rfl | h
    · exact ⟨Node.mem_nodes_self _, by simpa [isMember] using hmem⟩
    · split at h
      · rename_i o ho
        have hlt := Node.size_lt_of_child? ho
        obtain ⟨h1, h2⟩ := mem_spine h
        exact ⟨Node.mem_nodes_trans h1
          (Node.mem_nodes_of_mem_children (Node.mem_children_of_child? ho)), h2⟩
      · simp at h
  · simp at h
termination_by n.size

theorem mem_calleeMembers {m call : Node} (h : m ∈ calleeMembers call) :
    m ∈ call.nodes ∧ m.kind = "member_expression" := by
  rw [calleeMembers] at h
  cases hf : call.child? .function with
  | none => simp [hf] at h
  | some f =>
    simp only [hf, Option.map_some, Option.getD_some, spineMembers, List.mem_reverse] at h
    obtain ⟨h1, h2⟩ := mem_spine h
    exact ⟨Node.mem_nodes_trans h1
      (Node.mem_nodes_of_mem_children (Node.mem_children_of_child? hf)), h2⟩

/-! ### Line breaks -/

section Source
variable {s : Source} (hs : s.Regular)
include hs

theorem ink_separator? {n : Node} (hn : n ∈ s.root.nodes) (hk : n.kind = "member_expression")
    {sep : Separator} (h : separator? s n = some sep) (hc : sep.hasComment = false) :
    ink (s.text.slice sep.start sep.stop) = ink sep.delimiter := by
  rw [separator?] at h
  split at h
  · rename_i o p ho hp
    dsimp only at h
    split at h
    · cases h
      change ink (s.between o p) = _
      rw [Source.ink_between_member hs hn hk ho hp hc]
      split_ifs <;> rfl
    · simp at h
  · simp at h

/-- **A line break put in or taken out** keeps the ink of its separator. -/
theorem ink_breakAs? {n : Node} (hn : n ∈ s.root.nodes) (hk : n.kind = "member_expression")
    {sep : Separator} (hsep : separator? s n = some sep) (hc : sep.hasComment = false)
    {seg : Segment} {indent : Indent} {r : Replacement} (h : breakAs? indent (seg, sep) = some r) :
    r.text.ink = (r.replaced s.text).ink := by
  have hink := ink_separator? hs hn hk hsep hc
  unfold breakAs? at h
  split at h
  · cases h
    rw [Replacement.replaced, Int.toNat_natCast, Int.toNat_natCast, hink, List.cons_append,
      ink_cons_blank rfl, ink_append, ink_render, List.nil_append]
  · cases h
    rw [Replacement.replaced, Int.toNat_natCast, Int.toNat_natCast, hink]
  · simp at h

theorem ink_breakChain {call : Node} (hn : call ∈ s.root.nodes) {indent : Indent}
    {segments : List Segment} {r : Replacement} (h : r ∈ breakChain s indent call segments) :
    r.text.ink = (r.replaced s.text).ink := by
  rw [breakChain] at h
  split_ifs at h with hc
  · simp at h
  · obtain ⟨⟨seg, sep⟩, hzip, hr⟩ := List.mem_filterMap.mp h
    have hsep := (List.of_mem_zip hzip).2
    obtain ⟨m, hm, hms⟩ := List.mem_filterMap.mp hsep
    obtain ⟨h1, h2⟩ := mem_calleeMembers hm
    have hcm : sep.hasComment = false := by
      simpa using List.any_eq_false.mp (Bool.not_eq_true _ ▸ hc) sep hsep
    exact ink_breakAs? hs (Node.mem_nodes_trans h1 hn) h2 hms hcm hr

theorem ink_replayBreaks {indent : Indent} {q : SignatureQueue (List Segment)} {r : Replacement}
    (h : r ∈ replayBreaks s indent q) : r.text.ink = (r.replaced s.text).ink := by
  refine List.foldlRecOn (motive := fun acc : SignatureQueue (List Segment) × List Replacement =>
    ∀ r ∈ acc.2, r.text.ink = (r.replaced s.text).ink) _ _ (by simp) ?_ r h
  intro acc hacc v hv r hr
  rw [replayStep] at hr
  split_ifs at hr with hcall
  · split at hr
    · rcases List.mem_append.mp hr with hr | hr
      · exact hacc r hr
      · exact ink_breakChain hs (Node.mem_nodes_of_mem_walk hv) hr
    · exact hacc r hr
  · exact hacc r hr

end Source

/-! ### Indents -/

theorem ink_reindent? {s : Source} {indent : Indent} {extra : Nat} {v : Node.Visit}
    {r : Replacement} (h : reindent? s indent extra v = some r) :
    r.text.ink = (r.replaced s.text).ink := by
  unfold reindent? at h
  split at h
  · rename_i sep o p hsep ho hp
    dsimp only at h
    split_ifs at h with hcond
    cases h
    have hlen : (s.line (s.row p)).indentOf.length ≤ (s.line (s.row p)).length :=
      (List.takeWhile_prefix _).length_le
    have hrange : ((s.lineStart (s.row p) : Int) + (s.line (s.row p)).indentOf.length).toNat =
        s.lineStart (s.row p) + (s.line (s.row p)).indentOf.length := by omega
    have htake : (s.line (s.row p)).take (s.line (s.row p)).indentOf.length =
        (s.line (s.row p)).indentOf :=
      (List.prefix_iff_eq_take.mp (List.takeWhile_prefix _)).symm
    rw [ink_render, Replacement.replaced, hrange, Int.toNat_natCast, s.take_line_eq_slice _ hlen,
      htake, ink_indentOf]
  · simp at h

theorem ink_indentPass (ctx : Context) (extra : Nat) (t : Text) :
    (indentPass ctx extra t).ink = t.ink := by
  refine Context.ink_onSource (fun s t _ => ?_) t
  refine Replacement.ink_apply fun r hr _ => ?_
  obtain ⟨v, -, h⟩ := List.mem_filterMap.mp hr
  exact ink_reindent? h

/-! ### Both -/

section Context
variable {ctx : Context} (hp : ctx.parser.Gives Source.Regular)
include hp

theorem ink_layOut {extra : Nat} {s : Source} {t : Text} (hs : ctx.clean? t = some s) :
    (layOut ctx extra s).ink = s.text.ink := by
  have hreplay : ∀ reference, (replay ctx reference s).ink = s.text.ink := by
    intro reference
    simp only [replay]
    split_ifs
    · exact Replacement.ink_apply fun r hr _ => ink_replayBreaks (hp _ _ s hs) hr
    · rfl
    · rfl
  rw [layOut]
  split
  · exact ink_settle (ink_indentPass ctx extra) _
  · split
    · exact (ink_settle (ink_indentPass ctx extra) _).trans (hreplay _)
    · rfl

/-- **Laying out chains keeps the ink.** -/
theorem ink_restyle (value : Value) (t : Text) : (restyle ctx value t).ink = t.ink := by
  rw [restyle]
  split_ifs
  · exact Context.ink_onSource (fun s t hs => ink_layOut hp hs) t
  · exact Context.ink_onSource (fun s t hs => ink_layOut hp hs) t
  · rfl

end Context

end HouseStyle.MemberChains
