import HouseStyle.Proofs.Restyle.MemberChains
import HouseStyle.Proofs.Tree.Preorder

/-! # Separators in a tree

Of two nodes of a tree one stands below the other, or one stands behind the other
(`nested_or_apart`). An access holds further accesses in its object and in its property, on either
side of its separator, and not in a delimiter or a comment (`PlainAccesses`). So what stands between
object and property of one access is apart from that of any other, however the accesses are nested
(`apart_parts`, `apart_separators`). -/

namespace HouseStyle

namespace Source

/-- Whether the accesses of a source hold further accesses only in what plays a part in them, not in
a delimiter or a comment. -/
def PlainAccesses (s : Source) : Prop :=
  ∀ n ∈ s.root.nodes, n.kind = "member_expression" → ∀ c ∈ n.children, c.field = none →
    ∀ m ∈ c.nodes, m.kind ≠ "member_expression"

instance (s : Source) : Decidable s.PlainAccesses := by unfold PlainAccesses; infer_instance

variable {s : Source}

section WellFormed
variable (hs : s.WellFormed)
include hs

theorem bounds_of_mem_children {c n : Node} (hn : n ∈ s.root.nodes) (hc : c ∈ n.children) :
    s.start n ≤ s.start c ∧ s.start c ≤ s.stop c ∧ s.stop c ≤ s.stop n :=
      ((hs n hn).tiles hc).bounds hc

theorem apart_children {c d n : Node} (hn : n ∈ s.root.nodes) (hc : c ∈ n.children)
    (hd : d ∈ n.children) (hne : c ≠ d) : s.stop c ≤ s.start d ∨ s.stop d ≤ s.start c := by
  have hsymm : Std.Symm fun x y => s.stop x ≤ s.start y ∨ s.stop y ≤ s.start x :=
    ⟨fun _ _ => Or.symm⟩
  have hall : n.children.Pairwise fun x y => s.stop x ≤ s.start y ∨ s.stop y ≤ s.start x :=
    (pairwise_children hs hn).imp Or.inl
  exact hall.forall hc hd hne

/-- **Two nodes of a tree**: one stands below the other, or one stands behind the other. -/
theorem nested_or_apart {m n r : Node} (hr : r ∈ s.root.nodes) (hm : m ∈ r.nodes)
    (hn : n ∈ r.nodes) :
    m ∈ n.nodes ∨ n ∈ m.nodes ∨ s.stop m ≤ s.start n ∨ s.stop n ≤ s.start m := by
  rcases Node.mem_nodes_iff.mp hm with rfl | ⟨c, hc, hmc⟩
  · exact Or.inr (Or.inl hn)
  · rcases Node.mem_nodes_iff.mp hn with rfl | ⟨d, hd, hnd⟩
    · exact Or.inl hm
    · have hcr := Node.mem_nodes_trans (Node.mem_nodes_of_mem_children hc) hr
      have hdr := Node.mem_nodes_trans (Node.mem_nodes_of_mem_children hd) hr
      by_cases hcd : c = d
      · subst hcd
        exact nested_or_apart hcr hmc hnd
      · have hm' := bounds_of_mem_nodes hs hcr hmc
        have hn' := bounds_of_mem_nodes hs hdr hnd
        have := apart_children hs hr hc hd hcd
        omega
termination_by r.size
decreasing_by exact Node.size_lt_of_mem hc

end WellFormed

theorem mem_object_or_property (hs : s.Regular) (ha : s.PlainAccesses) {n o p : Node}
    (hn : n ∈ s.root.nodes) (hk : n.kind = "member_expression") (ho : n.child? .object = some o)
    (hp : n.child? .property = some p) {m : Node} (hm : m ∈ n.nodes)
    (hmk : m.kind = "member_expression") (hne : m ≠ n) :
    m ∈ o.nodes ∨ m ∈ p.nodes := by
  obtain ⟨c, hc, hmc⟩ := (Node.mem_nodes_iff.mp hm).resolve_left hne
  have hfield : c.field ≠ none := fun hnone => ha n hn hk c hc hnone m hmc hmk
  have hsolid : c ∈ n.solid := by
    refine List.mem_filter.mpr ⟨hc, ?_⟩
    by_contra hremark
    exact hfield ((hs.wellFormed.sound_child hn hc).remark (by simpa using hremark)).1
  obtain ⟨o', ns, h0, ho', hfit⟩ := fits_cons ((hs.wellShaped n hn).member hk)
  obtain ⟨d, ns, rfl, ⟨hdf, -⟩, hfit⟩ := fits_cons hfit
  obtain ⟨p', ns, rfl, hp', hfit⟩ := fits_cons hfit
  obtain rfl := fits_nil hfit
  have ho'' : o'.field = some .object := ho'
  have hp'' : p'.field = some .property := hp'
  rw [hs.wellFormed.child?_eq hn, h0] at ho hp
  obtain rfl : o' = o := by simpa [ho''] using ho
  obtain rfl : p' = p := by simpa [ho'', hdf, hp''] using hp
  rw [h0] at hsolid
  simp only [List.mem_cons, List.not_mem_nil, or_false] at hsolid
  rcases hsolid with rfl | rfl | rfl
  · exact Or.inl hmc
  · exact absurd hdf hfield
  · exact Or.inr hmc

end Source

namespace MemberChains

open HouseStyle.Text

variable {s : Source} {m n o p o' p' : Node} {sep sep' : Separator}

theorem separator?_eq (ho : n.child? .object = some o) (hp : n.child? .property = some p) :
    separator? s n = if '.' ∈ s.between o p then
      some ⟨s.stop o, s.start p, if (s.between o p).has ['?', '.'] then ['?', '.'] else ['.'],
        (s.between o p).contains '\n', (s.between o p).hasCommentMark⟩ else none := by
  simp only [separator?, ho, hp, List.contains_iff_mem]

/-- **What a separator is**: the text between an object and its property, if it has a dot. -/
theorem of_separator? (h : separator? s n = some sep) :
    ∃ o p, n.child? .object = some o ∧ n.child? .property = some p ∧ '.' ∈ s.between o p ∧
      sep = ⟨s.stop o, s.start p, if (s.between o p).has ['?', '.'] then ['?', '.'] else ['.'],
        (s.between o p).contains '\n', (s.between o p).hasCommentMark⟩ := by
  cases ho : n.child? .object with
  | none => simp [separator?, ho] at h
  | some o =>
    cases hp : n.child? .property with
    | none => simp [separator?, ho, hp] at h
    | some p =>
      rw [separator?_eq ho hp] at h
      obtain ⟨hdot, hsep⟩ := Option.ite_none_right_eq_some.mp h
      exact ⟨o, p, rfl, rfl, hdot, (Option.some.inj hsep).symm⟩

theorem stop_lt_start {c : Char} (h : c ∈ s.between o p) : s.stop o < s.start p := by
  by_contra hle
  rw [Source.between, slice, Nat.sub_eq_zero_of_le (Nat.le_of_not_lt hle), List.take_zero] at h
  simp at h

section WellFormed
variable (hs : s.WellFormed) (hn : n ∈ s.root.nodes)
include hs hn

theorem bounds_of_parts (ho : n.child? .object = some o) (hp : n.child? .property = some p) :
    s.start n ≤ s.stop o ∧ s.start p ≤ s.stop n := by
  have hobject := Source.bounds_of_mem_children hs hn (Node.mem_children_of_child? ho)
  have hproperty := Source.bounds_of_mem_children hs hn (Node.mem_children_of_child? hp)
  omega

theorem bounds_of_separator? (h : separator? s n = some sep) :
    s.start n ≤ sep.start ∧ sep.start < sep.stop ∧ sep.stop ≤ s.stop n := by
  obtain ⟨o, p, ho, hp, hdot, rfl⟩ := of_separator? h
  have hlt := stop_lt_start hdot
  have hbounds := bounds_of_parts hs hn ho hp
  exact ⟨hbounds.1, hlt, hbounds.2⟩

end WellFormed

section Regular
variable (hs : s.Regular) (ha : s.PlainAccesses)
include hs ha

theorem apart_of_below (hn : n ∈ s.root.nodes) (hk : n.kind = "member_expression")
    (hm : m ∈ n.nodes) (hmk : m.kind = "member_expression") (hne : m ≠ n)
    (ho : m.child? .object = some o) (hp : m.child? .property = some p)
    (ho' : n.child? .object = some o') (hp' : n.child? .property = some p') :
    s.start p ≤ s.stop o' ∨ s.start p' ≤ s.stop o := by
  have hbounds := bounds_of_parts hs.wellFormed (Node.mem_nodes_trans hm hn) ho hp
  have hchild : ∀ {f c}, n.child? f = some c → c ∈ s.root.nodes := fun hc =>
    Node.mem_nodes_trans (Node.mem_nodes_of_mem_children (Node.mem_children_of_child? hc)) hn
  rcases Source.mem_object_or_property hs ha hn hk ho' hp' hm hmk hne with hmo | hmp
  · have := Source.bounds_of_mem_nodes hs.wellFormed (hchild ho') hmo
    omega
  · have := Source.bounds_of_mem_nodes hs.wellFormed (hchild hp') hmp
    omega

/-- **Two accesses**: what stands between object and property of the one is before or behind that of
the other. -/
theorem apart_parts (hm : m ∈ s.root.nodes) (hmk : m.kind = "member_expression")
    (hn : n ∈ s.root.nodes) (hk : n.kind = "member_expression") (hne : m ≠ n)
    (ho : m.child? .object = some o) (hp : m.child? .property = some p)
    (ho' : n.child? .object = some o') (hp' : n.child? .property = some p') :
    s.start p ≤ s.stop o' ∨ s.start p' ≤ s.stop o := by
  rcases Source.nested_or_apart hs.wellFormed (Node.mem_nodes_self s.root) hm hn with
    hbelow | habove | hapart
  · exact apart_of_below hs ha hn hk hbelow hmk hne ho hp ho' hp'
  · exact (apart_of_below hs ha hm hmk habove hk hne.symm ho' hp' ho hp).symm
  · have hbounds := bounds_of_parts hs.wellFormed hm ho hp
    have hbounds' := bounds_of_parts hs.wellFormed hn ho' hp'
    omega

/-- **The separators of two accesses are apart.** -/
theorem apart_separators (hm : m ∈ s.root.nodes) (hmk : m.kind = "member_expression")
    (hn : n ∈ s.root.nodes) (hk : n.kind = "member_expression") (hne : m ≠ n)
    (h : separator? s m = some sep) (h' : separator? s n = some sep') :
    sep.stop ≤ sep'.start ∨ sep'.stop ≤ sep.start := by
  obtain ⟨o, p, ho, hp, -, rfl⟩ := of_separator? h
  obtain ⟨o', p', ho', hp', -, rfl⟩ := of_separator? h'
  exact apart_parts hs ha hm hmk hn hk hne ho hp ho' hp'

end Regular

end MemberChains

end HouseStyle
