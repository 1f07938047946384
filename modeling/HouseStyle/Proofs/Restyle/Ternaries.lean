import HouseStyle.Proofs.Restyle.Context
import HouseStyle.Proofs.Tree.Gaps
import HouseStyle.Restyle.Ternaries

/-! # What moving the operators of ternaries does

A ternary without comments is its three parts with the two operators between them, so a ternary that
is put together again from its parts has its old ink (`ink_rebuild?`), whatever the layout. Which
layout it gets, and from where, does not matter for `ink_restyle`. -/

namespace HouseStyle.Ternaries

open HouseStyle.Text HouseStyle.Constructs

theorem ink_broken (indent : Indent) (l : Layout) (test consequence alternative : Text) :
    ink (broken indent l test consequence alternative) =
      ink test ++ '?' :: ink consequence ++ ':' :: ink alternative := by
  have hnl : ∀ t : Text, ink ('\n' :: t) = ink t := fun t => ink_cons_blank rfl t
  have hop : ∀ c : Char, isBlank c = false → ∀ t, ink (c :: ' ' :: t) = c :: ink t :=
    fun c hc t => by
    rw [ink_cons_solid hc, ink_cons_blank rfl]
  simp only [broken, ink_append, List.cons_append, hnl, ink_render, hop '?' rfl, hop ':' rfl,
    List.nil_append, List.append_assoc]

section Source
variable {s : Source} (hs : s.Regular) {n : Node} (hn : n ∈ s.root.nodes)
  (hk : n.kind = "ternary_expression") {p : TernaryParts} (hparts : ternaryParts? n = some p)
include hs hn hk hparts

/-- **A ternary put together again** has its old ink. -/
theorem ink_rebuild? {indent : Indent} {l : Layout} {r : Replacement}
    (h : rebuild? s indent l n p = some r) : r.text.ink = (r.replaced s.text).ink := by
  rw [rebuild?] at h
  split_ifs at h with hno
  cases h
  simp only [Bool.or_eq_true, not_or, hasInteriorComment, Bool.not_eq_true] at hno
  obtain ⟨⟨⟨⟨⟨hc, -⟩, -⟩, -⟩, -⟩, -⟩ := hno
  obtain ⟨t, c, a, ht, hcq, ha, hink⟩ := Source.ink_ternary hs hn hk hc
  have hp : p = ⟨t, c, a⟩ := by
    rw [ternaryParts?, ht, hcq, ha] at hparts
    exact (Option.some.inj hparts).symm
  subst hp
  have htext : ∀ {f : Field} {m : Node}, n.child? f = some m → ink (s.nodeText m).trim =
      ink (s.extent m) := by
    intro f m hm
    rw [ink_trim, (hs.wellFormed.sound_child hn (Node.mem_children_of_child? hm)).nodeText]
  rw [ink_broken, htext ht, htext hcq, htext ha, Replacement.replaced, Int.toNat_natCast,
    Int.toNat_natCast]
  exact hink.symm

theorem ink_change? {indent : Indent} {waiting : Option Layout} {r : Replacement}
    (h : change? s indent waiting n p = some r) : r.text.ink = (r.replaced s.text).ink := by
  unfold change? at h
  split at h
  · exact ink_rebuild? hs hn hk hparts h
  · split_ifs at h
    exact ink_rebuild? hs hn hk hparts h

end Source

theorem ink_pass {ctx : Context} (hp : ctx.parser.Gives Source.Regular)
    (known : SignatureQueue Layout) (t : Text) : (pass ctx known t).ink = t.ink := by
  refine Context.ink_onSource (fun s t hs => ?_) t
  refine Replacement.ink_apply fun r hr _ => ?_
  -- the replacements collected so far keep the ink of their ranges
  refine List.foldlRecOn (motive := fun acc : SignatureQueue Layout × List Replacement =>
    ∀ r ∈ acc.2, r.text.ink = (r.replaced s.text).ink) _ _ (by simp) ?_ r hr
  intro acc hacc n hn r hr
  rw [step] at hr
  split at hr
  · rename_i p hparts
    split_ifs at hr with hk
    · rcases List.mem_append.mp hr with hr | hr
      · exact hacc r hr
      · exact ink_change? (hp _ _ s hs) (Node.mem_nodes_of_mem_walkNodes hn) hk hparts
          (Option.mem_toList.mp hr)
    · exact hacc r hr
  · exact hacc r hr

/-- **Moving operators keeps the ink.** -/
theorem ink_restyle {ctx : Context} (hp : ctx.parser.Gives Source.Regular) (value : Value)
    (t : Text) : (restyle ctx value t).ink = t.ink := by
  rw [restyle]
  split_ifs
  · split
    · exact ink_settle (ink_pass hp _) t
    · split
      · exact ink_settle (ink_pass hp _) t
      · rfl
  · rfl

end HouseStyle.Ternaries
