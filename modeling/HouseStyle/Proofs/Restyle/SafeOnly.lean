import HouseStyle.Proofs.Edit.Stepwise
import HouseStyle.Proofs.Restyle.Context
import HouseStyle.Proofs.Tree.Rows
import HouseStyle.Restyle.Pipeline

/-! # Safe changes

Of the restylers only the one for breaks in switches belongs to a dimension in which changes are
safe (`Rules.restyleOnce_safeOnly`). It puts blanks in the place of the blanks before a break that
opens its line (`reindented_place`). So a run with safe changes only touches indents, pass after
pass, and only those of lines that open with a break in one of the passes (`restyleFile_safeOnly`).
Nothing is asked of the trees: wherever their nodes lie, what is replaced is the start of a line and
blank. -/

namespace HouseStyle

open HouseStyle.Text

/-! ### Breaks of switches -/

/-- Whether a line opens with a break statement: one starts there, and nothing but blanks stands
before it. -/
def Source.OpensWithBreak (s : Source) (row : Nat) : Prop :=
  ∃ b ∈ s.root.nodes, b.kind = "break_statement" ∧ s.row b = row ∧
  (s.beforeNode b).isBlankText = true

theorem Indent.mem_render {i : Indent} {column : Int} {c : Char} (h : c ∈ i.render column) :
    c = ' ' ∨ c = '\t' := by
  rw [render] at h
  split at h
  · exact Or.inl (List.eq_of_mem_replicate h)
  · rcases List.mem_append.mp h with h | h
    · exact Or.inr (List.eq_of_mem_replicate h)
    · exact Or.inl (List.eq_of_mem_replicate h)

theorem Indent.isBlankText_render (i : Indent) (column : Int) :
    (i.render column).isBlankText = true := by
  refine List.all_eq_true.mpr fun c hc => ?_
  rcases mem_render hc with rfl | rfl
  · rfl
  · rfl

theorem Indent.newline_notMem_render (i : Indent) (column : Int) : '\n' ∉ i.render column := by
  intro h
  rcases mem_render h with h | h
  · exact absurd h (by decide)
  · exact absurd h (by decide)

namespace SwitchBreaks

/-- One break: whatever follows, its own line gets other blanks in front, and no other line changes.
-/
theorem reindented_reindent? {s : Source} {caseRow : Nat} {indent : Indent} {column : Int}
    {b : Node} {r : Replacement} (h : reindent? s caseRow (indent.render column) b = some r)
    (w : Text) :
    (s.beforeNode b).isBlankText = true ∧ Reindented (· = s.row b)
      (s.text.take r.stop.toNat ++ w) (s.text.take r.start.toNat ++ r.text ++ w) := by
  simp only [reindent?] at h
  split_ifs at h with hno
  simp only [not_or, Bool.not_eq_true, Bool.not_eq_false'] at hno
  cases h
  obtain ⟨hstart, hcount⟩ := s.take_lineStart _ (s.row_lt_length_lines b)
  have hstop : ((s.lineStart (s.row b) : Int) + (s.beforeNode b).length).toNat =
      s.lineStart (s.row b) + (s.beforeNode b).length := by omega
  have hre := reindented_of_blanks hstart hno.2.1 (s.newline_notMem_beforeNode b)
    (indent.isBlankText_render column) (indent.newline_notMem_render column) w
  rw [hcount, ← s.take_beforeNode b] at hre
  dsimp only
  rw [hstop, Int.toNat_natCast]
  exact ⟨hno.2.1, hre⟩

/-- **Placing breaks changes indents** of lines that open with a break. -/
theorem reindented_place (indent : Indent) (extra : Nat) (s : Source) :
    Reindented s.OpensWithBreak s.text (place indent extra s) := by
  refine Replacement.trans_apply (Reindented.refl _) Reindented.trans s.text _ fun r hr _ w => ?_
  obtain ⟨n, hn, h⟩ := List.mem_flatMap.mp hr
  simp only [replacements] at h
  split_ifs at h with hk
  · obtain ⟨b, hb, h⟩ := List.mem_filterMap.mp h
    obtain ⟨hblank, hre⟩ := reindented_reindent? h w
    simp only [Constructs.breaks, Node.childrenAs, List.mem_filter, beq_iff_eq] at hb
    have hbn : b ∈ s.root.nodes := Node.mem_nodes_trans (Node.mem_nodes_of_mem_children hb.1.1)
      (Node.mem_nodes_of_mem_walkNodes hn)
    refine hre.mono fun row hrow => ⟨b, hbn, hb.2, hrow.symm, hblank⟩
  · simp at h

theorem reindented_restyle (ctx : Context) (value : Value) (t : Text) :
    Reindented (fun row => ∃ s, ctx.clean? t = some s ∧ s.OpensWithBreak row) t
      (restyle ctx value t) := by
  have hsource : ∀ extra, Reindented (fun row => ∃ s, ctx.clean? t = some s ∧ s.OpensWithBreak row)
      t (ctx.onSource (place ctx.indent extra) t) := by
    intro extra
    cases hs : ctx.clean? t with
    | none =>
      rw [Context.onSource_of_unclean hs]
      exact Reindented.refl _ t
    | some s =>
      have hplace := reindented_place ctx.indent extra s
      rw [Context.text_of_clean? hs] at hplace
      rw [Context.onSource_of_clean hs]
      exact hplace.mono fun row hrow => ⟨s, rfl, hrow⟩
  rw [restyle]
  split_ifs
  · exact hsource 0
  · exact hsource _
  · exact Reindented.refl _ t

end SwitchBreaks

/-! ### Rules of safe changes -/

namespace Rules

/-- Whether every rule has the safety of its dimension. -/
def Faithful (rs : Rules) : Prop := ∀ d r, rs d = some r → r.safe = d.descriptor.safe

theorem Faithful.set {rs : Rules} (hrs : rs.Faithful) {d : Dimension} {r : Rule}
    (hr : r.safe = d.descriptor.safe) : (rs.set d r).Faithful := by
  intro d' r' h
  unfold Rules.set at h
  split_ifs at h with heq
  · cases h
    rw [hr, heq]
  · exact hrs d' r' h

variable {rs : Rules} (hrs : rs.Faithful)
include hrs

theorem enforcedValue_safeOnly {d : Dimension} (hd : d.descriptor.safe = false) :
    rs.safeOnly.enforcedValue d = .null := by
  unfold enforcedValue safeOnly
  cases hr : rs d with
  | none => rfl
  | some r =>
    have hsafe : r.safe = false := (hrs d r hr).trans hd
    simp only [Option.map_some, Option.getD_some, hsafe, Bool.false_or, Rule.enforced, Bool.not_not]
    cases hv : r.value <;> simp [Value.isNull, Rule.demoted, hv]

/-- **One round of safe changes** places breaks and does nothing else. -/
theorem restyleOnce_safeOnly (ctx : Context) (t : Text) :
    restyleOnce ctx rs.safeOnly.activeRestylers t =
      SwitchBreaks.restyle ctx (rs.safeOnly.enforcedValue .switchBreakIndentation) t := by
  have hactive : rs.safeOnly.activeRestylers =
      [(SwitchBreaks.restyle, rs.safeOnly.enforcedValue .switchBreakIndentation)].filter
        (!·.2.isNull) := by
    simp only [activeRestylers, restylers, List.map_cons, List.map_nil,
      enforcedValue_safeOnly hrs (d := .singleLineIfBraces) rfl,
      enforcedValue_safeOnly hrs (d := .ternaryOperatorPlacement) rfl,
      enforcedValue_safeOnly hrs (d := .callArgumentLayout) rfl,
      enforcedValue_safeOnly hrs (d := .memberChainIndentation) rfl,
      enforcedValue_safeOnly hrs (d := .declarationCommaPlacement) rfl,
      enforcedValue_safeOnly hrs (d := .trailingInlineCommentAlignment) rfl]
    cases rs.safeOnly.enforcedValue .switchBreakIndentation <;> rfl
  rw [hactive]
  -- without a rule for breaks no restyler runs, and that of breaks would do nothing
  cases rs.safeOnly.enforcedValue .switchBreakIndentation <;> rfl

end Rules

/-! ### Files -/

/-- The language that a file is read in. -/
def fileLanguage (config : Config) (path : Option String) : Language :=
  match path.filter (!·.isEmpty) with
  | some path => Path.language path.toList
  | none => config.defaultLanguage

section File
variable (p : Parser) (config : Config) (rs : Rules) (reference : Option Text)
  (path : Option String)

/-- What restylers work with when safe changes are made to a file. -/
def safeContext : Context :=
  ⟨p, (fileLanguage config path).name, rs.safeOnly.indent, reference⟩

/-- The sources that safe changes of a file go over: those of the passes that parse cleanly. -/
def safePasses (t : Text) : List Source :=
  (passes (restyleOnce (safeContext p config rs reference path) rs.safeOnly.activeRestylers)
    maxPasses t).filterMap (safeContext p config rs reference path).clean?

end File

/-- **Safe changes touch indents only.** A file keeps the number of its lines and every line up to
leading blanks, and a line that does not open with a break in any pass stays as it is. -/
theorem restyleFile_safeOnly (p : Parser) (config : Config) (hsafe : config.safeOnly = true)
    {rs : Rules} (hrs : rs.Faithful) (reference : Option Text) (path : Option String) (t : Text) :
    (restyleFile p config rs reference path t).lines.length = t.lines.length ∧
      (∀ i, ((restyleFile p config rs reference path t).lines.getD i []).trimLeft =
        (t.lines.getD i []).trimLeft) ∧
      ∀ i, (∀ s ∈ safePasses p config rs reference path t, ¬ s.OpensWithBreak i) →
        (restyleFile p config rs reference path t).lines.getD i [] = t.lines.getD i [] := by
  have hrun : restyleFile p config rs reference path t = settle
      (restyleOnce (safeContext p config rs reference path) rs.safeOnly.activeRestylers) t := by
    rw [restyleFile, hsafe]
    rfl
  have hre : Reindented (fun i => ∃ s ∈ safePasses p config rs reference path t, s.OpensWithBreak i)
      t (restyleFile p config rs reference path t) := by
    rw [hrun]
    refine trans_settle (Reindented.refl _) Reindented.trans t fun u hu => ?_
    rw [Rules.restyleOnce_safeOnly hrs]
    refine (SwitchBreaks.reindented_restyle _ _ u).mono ?_
    rintro i ⟨s, hs, hopen⟩
    exact ⟨s, List.mem_filterMap.mpr ⟨u, hu, hs⟩, hopen⟩
  refine ⟨hre.length_eq, hre.trimLeft_line, fun i hi => hre.line_eq ?_⟩
  rintro ⟨s, hs, hopen⟩
  exact hi s hs hopen

/-- A switch with a break behind `gap` spaces. -/
def looseBreak (gap : Nat) : Text :=
  "switch (a) \x7b\ncase 1:\n".toList ++ List.replicate gap ' ' ++ "break;\n\x7d\n".toList

/-- The tree of the switch. -/
def looseBreakNode (gap : Nat) : Node :=
  .construct 0 "program" 0 (30 + gap) none
    [.construct 1 "switch_statement" 0 (29 + gap) none
        [.token 2 "switch" 0 6,
          .construct 3 "parenthesized_expression" 7 10 (some .value)
            [.token 4 "(" 7 8, .construct 5 "identifier" 8 9 none [], .token 6 ")" 9 10],
          .construct 7 "switch_body" 11 (29 + gap) (some .body)
            [.token 8 "\x7b" 11 12,
              .construct 9 "switch_case" 13 (27 + gap) none
                [.token 10 "case" 13 17, .construct 11 "number" 18 19 (some .value) [],
                  .token 12 ":" 19 20,
                  .construct 13 "break_statement" (21 + gap) (27 + gap) (some .body)
                    [.token 14 "break" (21 + gap) (26 + gap), .token 15 ";" (26 + gap) (27 + gap)]],
              .token 16 "\x7d" (28 + gap) (29 + gap)]]]

/-- A parser that knows the switch with gaps of four and of two. -/
def looseBreakParser : Parser :=
  .ofTable [(looseBreak 4, looseBreakNode 4), (looseBreak 2, looseBreakNode 2)]

/-- Two rules, of which that for breaks is safe and that for braces is not. -/
def indentBreaks : Rules :=
  Rules.set
    (Rules.set (fun _ => none) .switchBreakIndentation
      { Rule.unknown true with value := .str "indent" })
    .singleLineIfBraces { Rule.unknown false with value := .str "omit" }

/-- The usual configuration, with safe changes only. -/
def safeConfig : Config :=
  ⟨.standard, 400, true, .null, "compact", .javascript, true, false, .str "INFO"⟩

theorem faithful_indentBreaks : indentBreaks.Faithful := by
  have hnone : Rules.Faithful fun _ => none := fun _ _ h => by cases h
  exact (hnone.set rfl).set rfl

theorem restyleFile_looseBreak :
    restyleFile looseBreakParser safeConfig indentBreaks none none (looseBreak 4) =
      looseBreak 2 := by
  refine settle_of_fixed ?_ ?_
  · refine (Rules.restyleOnce_safeOnly faithful_indentBreaks _ _).trans ?_
    decide +kernel
  · refine (Rules.restyleOnce_safeOnly faithful_indentBreaks _ _).trans ?_
    decide +kernel

/-- The break goes to its place, and no other line changes. -/
theorem restyleFile_safeOnly_looseBreak :
    safeConfig.safeOnly = true ∧ indentBreaks.Faithful ∧ looseBreak 2 ≠ looseBreak 4 ∧
      restyleFile looseBreakParser safeConfig indentBreaks none none (looseBreak 4) = looseBreak 2 ∧
      (looseBreak 2).lines.length = (looseBreak 4).lines.length ∧
      (∀ i, ((looseBreak 2).lines.getD i []).trimLeft = ((looseBreak 4).lines.getD i []).trimLeft) ∧
      ∀ i, (∀ s ∈ safePasses looseBreakParser safeConfig indentBreaks none none (looseBreak 4),
          ¬ s.OpensWithBreak i) →
        (looseBreak 2).lines.getD i [] = (looseBreak 4).lines.getD i [] := by
  have h := restyleFile_safeOnly looseBreakParser safeConfig rfl faithful_indentBreaks
    none none (looseBreak 4)
  rw [restyleFile_looseBreak] at h
  exact ⟨rfl, faithful_indentBreaks, by decide, restyleFile_looseBreak, h⟩

end HouseStyle
