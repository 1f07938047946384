import HouseStyle.Proofs.Edit.Columns
import HouseStyle.Proofs.Restyle.LineIndents
import HouseStyle.Proofs.Restyle.Separators

/-! # Continuation lines

A pass over the chains of a source looks for accesses whose delimiter opens a line (`Opens`) and
replaces the blanks in front of the line if they are not those of the target
(`reindent?_eq_some_iff`). Whatever tree is given, the line starts with a dot, perhaps behind a
question mark, and nothing but its spaces and tabs is replaced. Both stay so from pass to pass, so
without a reference a run moves continuation lines and does nothing else (`lines_restyle`). -/

namespace HouseStyle.MemberChains

open HouseStyle.Text

/-! ### What a pass replaces -/

/-- A visited access with a line break before its property, whose delimiter opens the line of the
property. No link of its chain has a comment. -/
structure Opens (s : Source) (v : Node.Visit) (o p : Node) : Prop where
  member : isMember v.node = true
  object : v.node.child? .object = some o
  property : v.node.child? .property = some p
  dot : '.' ∈ s.between o p
  broken : '\n' ∈ s.between o p
  plain : (separators s (spineMembers (chainTop v.node v.ancestors))).any (·.hasComment) = false
  opens : opensAccess (s.line (s.row p)).afterIndent = true
  behind : s.stop o ≤ s.lineStart (s.row p) + (s.lineIndent (s.row p)).length
  before : s.lineStart (s.row p) + (s.lineIndent (s.row p)).length < s.start p

/-- The blanks that are asked for in front of the delimiter of an access, given its object. -/
def target (indent : Indent) (extra : Nat) (s : Source) (o : Node) : Text :=
  indent.render (visualColumn s indent o + extra)

/-- **What is replaced**: the blanks in front of a delimiter that opens its line, if they are not
the target. -/
theorem reindent?_eq_some_iff {s : Source} {indent : Indent} {extra : Nat} {v : Node.Visit}
    {r : Replacement} :
    reindent? s indent extra v = some r ↔ ∃ o p, Opens s v o p ∧
      s.lineIndent (s.row p) ≠ target indent extra s o ∧
      r = ⟨s.lineStart (s.row p), s.lineStart (s.row p) + (s.lineIndent (s.row p)).length,
        target indent extra s o⟩ := by
  constructor
  · intro h
    unfold reindent? at h
    split at h
    · rename_i sep o p hsep ho hp
      obtain ⟨o', p', ho', hp', hdot, rfl⟩ := of_separator? hsep
      obtain rfl : o' = o := Option.some.inj (ho'.symm.trans ho)
      obtain rfl : p' = p := Option.some.inj (hp'.symm.trans hp)
      dsimp only at h
      obtain ⟨hcond, hr⟩ := Option.ite_none_right_eq_some.mp h
      simp only [Bool.and_eq_true, decide_eq_true_eq, Bool.not_eq_true', List.contains_iff_mem]
        at hcond
      obtain ⟨⟨⟨⟨⟨⟨hmember, hbroken⟩, hplain⟩, hopens⟩, hbehind⟩, hbefore⟩, hne⟩ := hcond
      exact ⟨o', p', ⟨hmember, ho, hp, hdot, hbroken, hplain, hopens, hbehind, hbefore⟩, hne,
        (Option.some.inj hr).symm⟩
    · simp at h
  · rintro ⟨o, p, ho, hne, rfl⟩
    have hcond : (isMember v.node && (s.between o p).contains '\n' &&
        !(separators s (spineMembers (chainTop v.node v.ancestors))).any (·.hasComment) &&
        opensAccess (s.line (s.row p)).afterIndent &&
        decide (s.stop o ≤ s.lineStart (s.row p) + (s.line (s.row p)).indentOf.length) &&
        decide (s.lineStart (s.row p) + (s.line (s.row p)).indentOf.length < s.start p) &&
        decide ((s.line (s.row p)).indentOf ≠ indent.render (visualColumn s indent o + extra))) =
          true := by
      simp only [Bool.and_eq_true, decide_eq_true_eq, Bool.not_eq_true', List.contains_iff_mem]
      exact ⟨⟨⟨⟨⟨⟨ho.member, ho.broken⟩, ho.plain⟩, ho.opens⟩, ho.behind⟩, ho.before⟩, hne⟩
    simp only [reindent?, separator?_eq ho.object ho.property, if_pos ho.dot, ho.object,
      ho.property]
    exact if_pos hcond

/-- All changes of a pass. -/
def edits (indent : Indent) (extra : Nat) (s : Source) : List Replacement :=
  s.root.walk.filterMap (reindent? s indent extra)

theorem indentPass_of_clean {ctx : Context} {extra : Nat} {t : Text} {s : Source}
    (h : ctx.clean? t = some s) :
    indentPass ctx extra t = Replacement.apply s.text (edits ctx.indent extra s) :=
  Context.onSource_of_clean h

section Edits
variable {s : Source} {indent : Indent} {extra : Nat} {r : Replacement}

theorem mem_edits_iff : r ∈ edits indent extra s ↔ ∃ v ∈ s.root.walk, ∃ o p, Opens s v o p ∧
    s.lineIndent (s.row p) ≠ target indent extra s o ∧
    r = ⟨s.lineStart (s.row p), s.lineStart (s.row p) + (s.lineIndent (s.row p)).length,
      target indent extra s o⟩ := by
  simp only [edits, List.mem_filterMap, reindent?_eq_some_iff]

theorem reindents_target (indent : Indent) (extra : Nat) (s : Source) (o p : Node) :
    Replacement.Reindents s (s.row p) ⟨s.lineStart (s.row p),
      s.lineStart (s.row p) + (s.lineIndent (s.row p)).length,
      target indent extra s o⟩ :=
  ⟨s.row_lt_length_lines p, rfl, rfl, fun _ => indent.isIndentChar_of_mem_render⟩

/-- **A change stays in the indent** of a line that opens with a delimiter. -/
theorem reindents_of_mem_edits (h : r ∈ edits indent extra s) :
    ∃ row, r.Reindents s row ∧ opensAccess (s.line row).afterIndent = true := by
  obtain ⟨v, -, o, p, hopens, -, rfl⟩ := mem_edits_iff.mp h
  exact ⟨s.row p, reindents_target indent extra s o p, hopens.opens⟩

end Edits

/-! ### Texts -/

/-- As many lines, of which some that open with a delimiter have other spaces and tabs in front. -/
structure Continues (t u : Text) : Prop where
  length_eq : u.lines.length = t.lines.length
  line : ∀ i, u.lines.getD i [] ≠ t.lines.getD i [] →
    opensAccess (t.lines.getD i []).afterIndent = true ∧
      (u.lines.getD i []).afterIndent = (t.lines.getD i []).afterIndent

namespace Continues

theorem refl (t : Text) : Continues t t := ⟨rfl, fun _ h => absurd rfl h⟩

theorem trans {t u v : Text} (h : Continues t u) (h' : Continues u v) : Continues t v where
  length_eq := h'.length_eq.trans h.length_eq
  line i hne := by
    by_cases hu : u.lines.getD i [] = t.lines.getD i []
    · rw [← hu] at hne ⊢
      exact h'.line i hne
    · obtain ⟨hopens, hafter⟩ := h.line i hu
      refine ⟨hopens, ?_⟩
      by_cases hv : v.lines.getD i [] = u.lines.getD i []
      · rw [hv, hafter]
      · exact (h'.line i hv).2.trans hafter

end Continues

theorem continues_indentPass (ctx : Context) (extra : Nat) (t : Text) :
    Continues t (indentPass ctx extra t) := by
  refine Context.rel_onSource Continues.refl (fun s _ _ => ?_) t
  have hall : ∀ r ∈ edits ctx.indent extra s, ∃ row, r.Reindents s row := fun r hr => by
    obtain ⟨row, hrow, -⟩ := reindents_of_mem_edits hr
    exact ⟨row, hrow⟩
  refine ⟨(Replacement.lines_apply hall).1, fun i hne => ⟨?_, Replacement.afterIndent_line hall i⟩⟩
  by_contra hopens
  refine hne (Replacement.line_of_not_taken hall fun r hr hrow => hopens ?_)
  obtain ⟨row, hrow', h⟩ := reindents_of_mem_edits (Replacement.isEffective_of_mem_taken hr).1
  rw [hrow.row_eq hrow'] at h
  exact h

/-- **Without a reference only continuation lines are moved.** The result has as many lines as the
text, whatever trees the parser gives. A line that differs starts with a dot or with a question mark
and a dot, spaces and tabs aside, and differs in these spaces and tabs only. -/
theorem lines_restyle (ctx : Context) (h : ctx.reference? = none) (value : Value) (t : Text) :
    (restyle ctx value t).lines.length = t.lines.length ∧
      ∀ i, (restyle ctx value t).lines.getD i [] ≠ t.lines.getD i [] →
        (['.'] <+: (t.lines.getD i []).afterIndent ∨
          ['?', '.'] <+: (t.lines.getD i []).afterIndent) ∧
          ((restyle ctx value t).lines.getD i []).afterIndent =
            (t.lines.getD i []).afterIndent := by
  have hlayOut : ∀ extra, Continues t (ctx.onSource (layOut ctx extra) t) := by
    intro extra
    refine Context.rel_onSource Continues.refl (fun s _ _ => ?_) t
    rw [layOut, h]
    exact trans_settle Continues.refl Continues.trans s.text fun u _ =>
      continues_indentPass ctx extra u
  have hrun : Continues t (restyle ctx value t) := by
    rw [restyle]
    split_ifs
    · exact hlayOut 0
    · exact hlayOut _
    · exact Continues.refl t
  refine ⟨hrun.length_eq, fun i hne => ?_⟩
  obtain ⟨hopens, hafter⟩ := hrun.line i hne
  refine ⟨?_, hafter⟩
  unfold opensAccess at hopens
  split at hopens
  · rename_i heq
    exact Or.inl ⟨_, heq.symm⟩
  · rename_i heq
    exact Or.inr ⟨_, heq.symm⟩
  · cases hopens

/-- An access on two lines. -/
def brokenAccess : Text := "p\n.then;\n".toList

/-- The tree of the access. -/
def brokenAccessNode : Node :=
  .construct 0 "program" 0 9 none
    [.construct 1 "expression_statement" 0 8 none
        [.construct 2 "member_expression" 0 7 none
            [.construct 3 "identifier" 0 1 (some .object) [], .token 4 "." 2 3,
              .construct 5 "property_identifier" 3 7 (some .property) []],
          .token 6 ";" 7 8]]

/-- A context that knows the access and nothing else. -/
def brokenAccessContext : Context :=
  ⟨.ofTable [(brokenAccess, brokenAccessNode)], "javascript", ⟨.space, 2⟩, none⟩

/-- The second line of the access is moved, and opens with its dot. -/
theorem lines_restyle_brokenAccess :
    brokenAccessContext.reference? = none ∧
      restyle brokenAccessContext (.str "indented") brokenAccess = "p\n  .then;\n".toList ∧
      (restyle brokenAccessContext (.str "indented") brokenAccess).lines.length =
        brokenAccess.lines.length ∧
      (['.'] <+: (brokenAccess.lines.getD 1 []).afterIndent ∨
        ['?', '.'] <+: (brokenAccess.lines.getD 1 []).afterIndent) := by
  have hrun : restyle brokenAccessContext (.str "indented") brokenAccess =
      "p\n  .then;\n".toList := by
    decide +kernel
  obtain ⟨hlength, hline⟩ := lines_restyle brokenAccessContext rfl (.str "indented") brokenAccess
  refine ⟨rfl, hrun, hlength, (hline 1 ?_).1⟩
  rw [hrun]
  decide

end HouseStyle.MemberChains
