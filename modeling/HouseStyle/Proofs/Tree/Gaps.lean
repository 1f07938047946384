import HouseStyle.Evidence.Constructs
import HouseStyle.Proofs.Tree.WellFormed

/-! # What stands between nodes

In a well-formed source the text between two children of a node is known up to blanks and comments:
it holds the tokens between them. `ink_between` says so for any two children between which no
comment opens. It gives the comma between two declarators (`ink_between_declarators`) and the
delimiter between an object and its property (`ink_between_member`). A ternary without comments is
put together from its parts in this way (`ink_ternary`), and of the arguments of a call without
comments the texts of all children are known (`extents_arguments`). -/

namespace HouseStyle.Source

open HouseStyle.Text

variable {s : Source}

/-! ### Runs and neighbours -/

theorem map_extent_of_solid {cs : List Node} (h : ∀ c ∈ cs, c.isRemark = false) :
    cs.map s.extent = s.tokens cs := by
  rw [tokens, List.filter_eq_self.mpr fun c hc => by simp [h c hc]]

theorem flatMap_ink_of_solid {cs : List Node} (h : ∀ c ∈ cs, c.isRemark = false) :
    (cs.flatMap fun c => (s.extent c).ink) = (s.tokens cs).flatMap ink := by
  rw [← map_extent_of_solid h, List.flatMap_map]

theorem exists_run_of_neighbours {p : Node → Bool} {x y : Node} : ∀ {l cs : List Node},
    cs.filter p = l → (x, y) ∈ Constructs.neighbours l →
      ∃ pre mid post, cs = pre ++ x :: (mid ++ y :: post) ∧ mid ∈ (Node.runs p cs).2.dropLast
  | [], _, _, h => by simp [Constructs.neighbours] at h
  | [_], _, _, h => by simp [Constructs.neighbours] at h
  | x₀ :: y₀ :: l, cs, hf, h => by
    obtain ⟨pre, rest, rfl, hrest, -, hruns⟩ := Node.runs_of_filter_cons hf
    obtain ⟨mid, post, rfl, -, hmid, hruns'⟩ := Node.runs_of_filter_cons hrest
    have hdrop : (Node.runs p (pre ++ x₀ :: (mid ++ y₀ :: post))).2.dropLast =
        mid :: (Node.runs p (mid ++ y₀ :: post)).2.dropLast := by
      rw [hruns, hmid, hruns']
      rfl
    rcases List.mem_cons.mp h with hxy | h
    · cases hxy
      exact ⟨pre, mid, post, rfl, by rw [hdrop]; exact List.mem_cons_self⟩
    · obtain ⟨pre', mid', post', he, hm⟩ := exists_run_of_neighbours hrest h
      refine ⟨pre ++ x₀ :: pre', mid', post', by rw [he]; simp, ?_⟩
      rw [hdrop]
      exact List.mem_cons_of_mem _ hm

section Gap
variable (hs : s.Regular) {n : Node} (hn : n ∈ s.root.nodes)
include hs hn

/-- **The ink between two children** is that of the tokens between them, unless a comment opens
there. -/
theorem ink_between {pre mid post : List Node} {x y : Node}
    (hc : n.children = pre ++ x :: (mid ++ y :: post))
    (hm : (s.between x y).hasCommentMark = false) :
    (s.between x y).ink = (s.tokens mid).flatMap ink := by
  have ht := (hs.wellFormed n hn).tiles (c := x) (by rw [hc]; simp)
  rw [hc] at ht
  obtain ⟨-, -, ht⟩ := ht.split
  obtain ⟨hmid, -, -⟩ := ht.split
  rw [between, hmid.ink, flatMap_ink_of_solid]
  intro c hcm
  by_contra hr
  have hr' : c.isRemark = true := by simpa using hr
  have hcn : c ∈ s.root.nodes :=
    Node.mem_nodes_trans (Node.mem_nodes_of_mem_children (by rw [hc]; simp [hcm])) hn
  have := hs.plainComments.hasCommentMark hcn hr' (hmid.extent_isInfix hcm)
  rw [between] at hm
  rw [hm] at this
  exact Bool.false_ne_true this

theorem ink_between_declarators (hk : Functions.variableKinds.contains n.kind = true) {x y : Node}
    (hxy : (x, y) ∈ Constructs.neighbours (Constructs.declarators n))
    (hm : (s.between x y).hasCommentMark = false) : (s.between x y).ink = [','] := by
  have hf : n.children.filter Node.isDeclarator = Constructs.declarators n := by
    rw [Constructs.declarators, Node.namedChildren, List.filter_filter]
    exact List.filter_congr fun c _ => Bool.and_comm ..
  obtain ⟨pre, mid, post, hc, hmid⟩ := exists_run_of_neighbours hf hxy
  rw [ink_between hs hn hc hm, (hs.wellShaped n hn).declaration hk mid hmid]
  rfl

/-- An object and its property have a delimiter between them and nothing else. Which of the two it
is can be found by a search, since the longer one stands in one piece. -/
theorem ink_between_member (hk : n.kind = "member_expression") {o p : Node}
    (ho : n.child? .object = some o) (hpr : n.child? .property = some p)
    (hm : (s.between o p).hasCommentMark = false) :
    (s.between o p).ink = if (s.between o p).has ['?', '.'] then ['?', '.'] else ['.'] := by
  obtain ⟨o', d, p', hsol, ho', hp', hd⟩ := hs.wellFormed.member_children hs.wellShaped hn hk
  rw [ho] at ho'; rw [hpr] at hp'
  cases ho'; cases hp'
  -- comments may stand before, behind and between the three
  obtain ⟨pre, l, hc, -, -, hl⟩ := List.filter_eq_cons_iff.mp hsol
  obtain ⟨r, l', rfl, hr, hdr, hl'⟩ := List.filter_eq_cons_iff.mp hl
  obtain ⟨r', post, rfl, hr', -, -⟩ := List.filter_eq_cons_iff.mp hl'
  have htok : s.tokens (r ++ d :: r') = [s.extent d] := by
    rw [tokens, List.filter_append, List.filter_cons, if_pos hdr, List.filter_eq_nil_iff.mpr hr,
      List.filter_eq_nil_iff.mpr hr']
    rfl
  have hc' : n.children = pre ++ o :: ((r ++ d :: r') ++ p :: post) := by rw [hc]; simp
  have hink : (s.between o p).ink = (s.extent d).ink := by
    rw [ink_between hs hn hc' hm, htok, List.flatMap_singleton]
  rcases hd with hd | hd
  · have hno : ¬ (s.between o p).has ['?', '.'] = true := fun h => by
      have hq : '?' ∈ (s.between o p).ink :=
        mem_ink.mpr ⟨(has_iff_isInfix.mp h).subset (by simp), rfl⟩
      rw [hink, hd] at hq
      simp [ink, isBlank] at hq
    rw [if_neg hno, hink, hd]
    rfl
  · have ht := (hs.wellFormed n hn).tiles (c := o) (by rw [hc']; simp)
    rw [hc'] at ht
    have hinf : s.extent d <:+: s.between o p := ht.split.2.2.split.1.extent_isInfix (by simp)
    rw [hd] at hinf
    rw [if_pos (has_iff_isInfix.mpr hinf), hink, hd]
    rfl

end Gap

/-! ### Ternaries -/

/-- **The ink of a ternary** without comments: its three parts and the two operators. -/
theorem ink_ternary (hs : s.Regular) {n : Node} (hn : n ∈ s.root.nodes)
    (hk : n.kind = "ternary_expression") (hc : n.containsComment = false) :
    ∃ t c a, n.child? .condition = some t ∧ n.child? .consequence = some c ∧
      n.child? .alternative = some a ∧
      (s.extent n).ink =
        (s.extent t).ink ++ '?' :: (s.extent c).ink ++ ':' :: (s.extent a).ink := by
  obtain ⟨t, q, c, k, a, hsol, ht, hcq, ha, hq, hcol⟩ :=
    hs.wellFormed.ternary_children hs.wellShaped hn hk
  rw [hs.plainComments.solid_eq hn hc] at hsol
  have htiles := (hs.wellFormed n hn).tiles (c := t) (by rw [hsol]; simp)
  refine ⟨t, c, a, ht, hcq, ha, ?_⟩
  rw [extent, htiles.ink, hsol]
  simp [hq, hcol, ink, isBlank]

/-! ### Arguments -/

/-- The items of a list from a first one up to the last: each but the first stands behind a comma,
and a last run follows. -/
theorem exists_last_run {p : Node → Bool} : ∀ (l : List Node) {x : Node} {rest : List Node},
    (∀ c ∈ rest, c.isRemark = false) → rest.filter p = l →
    (∀ g ∈ ((Node.runs p rest).1 :: (Node.runs p rest).2).dropLast, s.tokens g = [[',']]) →
    ∃ pre y run, x :: rest = pre ++ y :: run ∧ (x :: l).getLast? = some y ∧
      ((Node.runs p rest).1 :: (Node.runs p rest).2).getLast? = some run ∧
      (pre ++ [y]).map s.extent = ((x :: l).map s.extent).intersperse [',']
  | [], x, rest, _, hf, _ => by
    rw [Node.runs_of_filter_nil hf]
    exact ⟨[], x, rest, rfl, rfl, rfl, rfl⟩
  | y :: l, x, rest, hr, hf, hg => by
    obtain ⟨mid, rest', rfl, hf', hmid, hruns⟩ := Node.runs_of_filter_cons hf
    rw [hmid, hruns] at hg ⊢
    have hcomma : mid.map s.extent = [[',']] := by
      rw [map_extent_of_solid fun c hc => hr c (List.mem_append_left _ hc)]
      exact hg mid List.mem_cons_self
    obtain ⟨pre, z, run, hsplit, hlast, hrun, hitems⟩ := exists_last_run (x := y) l
      (fun c hc => hr c (List.mem_append_right _ (List.mem_cons_of_mem _ hc))) hf'
      (fun g hgm => hg g (List.mem_cons_of_mem _ hgm))
    refine ⟨x :: mid ++ pre, z, run, by rw [hsplit]; simp, ?_, hrun, ?_⟩
    · rw [List.getLast?_cons_cons, hlast]
    · rw [List.append_assoc, List.map_append, hitems, List.map_cons, hcomma]
      rfl

theorem codeChildren_eq {n : Node} (h : n.solid = n.children) :
    n.codeChildren = n.children.filter Node.isItem := by
  rw [Node.codeChildren, Node.namedChildren, List.filter_filter]
  refine List.filter_congr fun c hc => ?_
  have hr : c.isRemark = false := by simpa using List.filter_eq_self.mp h c hc
  have hcm : c.isComment = false := (Bool.or_eq_false_iff.mp hr).1
  simp [Node.isItem, hr, hcm]

/-- **The children of arguments** without comments: a parenthesis, the items with commas between
them, perhaps a comma, and a parenthesis. -/
theorem extents_arguments (hs : s.Regular) {n : Node} (hn : n ∈ s.root.nodes)
    (hk : n.kind = "arguments") (hc : n.containsComment = false) {x : Node} {xs : List Node}
    (hx : n.codeChildren = x :: xs) :
    ∃ pre last run, n.children = pre ++ last :: run ∧ (x :: xs).getLast? = some last ∧
      (pre ++ [last]).map s.extent = ['('] :: ((x :: xs).map s.extent).intersperse [','] ∧
      (run.map s.extent = [[')']] ∨ run.map s.extent = [[','], [')']]) := by
  have hsol := hs.plainComments.solid_eq hn hc
  rw [codeChildren_eq hsol] at hx
  obtain ⟨pre, rest, hcs, hrest, hpre, hruns⟩ := Node.runs_of_filter_cons hx
  have hsolid : ∀ c ∈ n.children, c.isRemark = false := fun c hc => by
    simpa using List.filter_eq_self.mp hsol c hc
  rw [hcs] at hsolid
  have hlist := (hs.wellShaped n hn).arguments hk
  simp only [IsArgumentList, hpre, hruns] at hlist
  obtain ⟨hopen, hcommas, hclose⟩ := hlist (by simp)
  obtain ⟨pre', y, run, hsplit, hlast, hrun, hitems⟩ := exists_last_run (x := x) xs
    (fun c hc => hsolid c (by simp [hc])) hrest hcommas
  rw [hsplit] at hsolid
  refine ⟨pre ++ pre', y, run, by rw [hcs, hsplit, List.append_assoc], hlast, ?_, ?_⟩
  · rw [List.append_assoc, List.map_append, hitems,
      map_extent_of_solid fun c hc => hsolid c (by simp [hc]), hopen]
    rfl
  · rw [map_extent_of_solid fun c hc => hsolid c (by simp [hc])]
    exact hclose run hrun

end HouseStyle.Source
