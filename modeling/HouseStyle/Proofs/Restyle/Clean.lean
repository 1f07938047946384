import HouseStyle.Proofs.Restyle.Context
import HouseStyle.Restyle.Pipeline

/-! # Clean texts along a run

Two changes check what they wrote: replayed line breaks and comments put back are kept only if the
text parses cleanly. All others are written without a look at the result. `drafts` lists what a
restyler writes in this way, pass by pass, and `restyleDrafts` lists it for a whole run.

No restyler touches a text that does not parse cleanly, so a draft that is not clean is never
repaired, and goes to the end of the run. `Audits` says both of a change and its drafts. It holds of
every restyler and is kept by composition and repetition, which gives `clean_restyle_iff`: a clean
text stays clean exactly if all drafts of the run are clean. -/

namespace HouseStyle

/-- Whether a text parses cleanly. -/
def Context.IsClean (ctx : Context) (t : Text) : Prop := (ctx.clean? t).isSome = true

theorem Context.IsClean.exists_source {ctx : Context} {t : Text} (h : ctx.IsClean t) :
    ∃ s, ctx.clean? t = some s := Option.isSome_iff_exists.mp h

theorem Context.clean?_of_not_isClean {ctx : Context} {t : Text} (h : ¬ ctx.IsClean t) :
    ctx.clean? t = none := by
  cases hs : ctx.clean? t with
  | none => rfl
  | some s => exact absurd (by rw [IsClean, hs]; rfl) h

/-! ### Audits -/

/-- A change that leaves unclean texts as they are, whose result is any draft that is not clean, and
whose result is clean if all drafts are. -/
structure Audits (ctx : Context) (change : Text → Text) (drafts : Text → List Text) : Prop where
  fixed : ∀ t, ¬ ctx.IsClean t → change t = t
  stuck : ∀ t, ∀ u ∈ drafts t, ¬ ctx.IsClean u → change t = u
  sound : ∀ t, ctx.IsClean t → (∀ u ∈ drafts t, ctx.IsClean u) → ctx.IsClean (change t)

/-- The drafts of a repeated change, given those of one pass. -/
def repeatedDrafts (change : Text → Text) (drafts : Text → List Text) : Nat → Text → List Text
  | 0, _ => []
  | n + 1, t =>
    drafts t ++ if change t = t then [] else repeatedDrafts change drafts n (change t)

namespace Audits

variable {ctx : Context} {f g : Text → Text} {d e : Text → List Text}

theorem isClean_iff (h : Audits ctx f d) {t : Text} (ht : ctx.IsClean t) :
    ctx.IsClean (f t) ↔ ∀ u ∈ d t, ctx.IsClean u := by
  constructor
  · intro hf u hu
    by_contra hno
    rw [h.stuck t u hu hno] at hf
    exact hno hf
  · exact h.sound t ht

theorem id : Audits ctx (fun t => t) (fun _ => []) where
  fixed _ _ := rfl
  stuck _ _ hu := by simp at hu
  sound _ ht _ := ht

theorem single (h : ∀ t, ¬ ctx.IsClean t → f t = t) : Audits ctx f (fun t => [f t]) where
  fixed := h
  stuck _ _ hu _ := (List.mem_singleton.mp hu).symm
  sound _ _ hd := hd _ List.mem_cons_self

theorem onSource (ctx : Context) (change : Source → Text) :
    Audits ctx (ctx.onSource change) (fun t => [ctx.onSource change t]) :=
  single fun _ h => Context.onSource_of_unclean (Context.clean?_of_not_isClean h)

/-- **One change after another**: the drafts of both. -/
theorem comp (hf : Audits ctx f d) (hg : Audits ctx g e) :
    Audits ctx (fun t => g (f t)) (fun t => d t ++ e (f t)) where
  fixed t h := by rw [hf.fixed t h, hg.fixed t h]
  stuck t u hu hno := by
    rcases List.mem_append.mp hu with hu | hu
    · -- the second change leaves what the first one spoiled
      rw [hf.stuck t u hu hno, hg.fixed u hno]
    · exact hg.stuck (f t) u hu hno
  sound t ht hd := by
    obtain ⟨hd, he⟩ := List.forall_mem_append.mp hd
    exact hg.sound (f t) (hf.sound t ht hd) he

theorem settleWithin (hf : Audits ctx f d) : ∀ n : Nat,
    Audits ctx (settleWithin f n) (repeatedDrafts f d n)
  | 0 => id
  | n + 1 => by
    have h := hf.comp (settleWithin hf n)
    refine ⟨fun t ht => ?_, fun t => ?_, fun t => ?_⟩
    · rw [HouseStyle.settleWithin, if_pos (hf.fixed t ht)]
    · rw [HouseStyle.settleWithin, repeatedDrafts]
      by_cases hft : f t = t
      · have := hf.stuck t
        rw [hft] at this
        simpa [hft] using this
      · rw [if_neg hft, if_neg hft]
        exact h.stuck t
    · rw [HouseStyle.settleWithin, repeatedDrafts]
      by_cases hft : f t = t
      · have := hf.sound t
        rw [hft] at this
        simpa [hft] using this
      · rw [if_neg hft, if_neg hft]
        exact h.sound t

/-- **Repetition**: the drafts of all passes. -/
theorem settle (hf : Audits ctx f d) : Audits ctx (settle f) (repeatedDrafts f d maxPasses) :=
  settleWithin hf maxPasses

theorem ite (b : Bool) (hf : Audits ctx f d) (hg : Audits ctx g e) :
    Audits ctx (fun t => if b then f t else g t) (fun t => if b then d t else e t) := by
  cases b
  · exact hg
  · exact hf

end Audits

/-! ### Drafts of restylers -/

/-- The drafts of a change of sources that is repeated, one for each pass. -/
def passDrafts (pass : Text → Text) : Text → List Text :=
  repeatedDrafts pass (fun t => [pass t]) maxPasses

/-- A restyler with its dimension and with the texts that it writes without a check. -/
structure Audited where
  dimension : Dimension
  restyle : Restyler
  drafts : Context → Value → Text → List Text
  audits : ∀ ctx value, Audits ctx (restyle ctx value) (drafts ctx value)

theorem audits_pass (ctx : Context) (change : Source → Text) :
    Audits ctx (settle (ctx.onSource change)) (passDrafts (ctx.onSource change)) :=
  (Audits.onSource ctx change).settle

def SingleLineIf.audited : Audited where
  dimension := .singleLineIfBraces
  restyle := restyle
  drafts ctx value t := if value.isStr "omit" then passDrafts (pass ctx) t else []
  audits ctx _ := (audits_pass ctx _).ite _ .id

def CallArguments.audited : Audited where
  dimension := .callArgumentLayout
  restyle := restyle
  drafts ctx value t := if value.isStr "compact" then passDrafts (pass ctx) t else []
  audits ctx _ := (audits_pass ctx _).ite _ .id

namespace Ternaries

/-- The drafts of the passes, with the layouts of the reference. -/
def drafts (ctx : Context) (t : Text) : List Text :=
  match ctx.reference? with
  | none => passDrafts (pass ctx .empty) t
  | some r =>
    match ctx.clean? r with
    | some reference => passDrafts (pass ctx (layouts ctx.indent reference)) t
    | none => []

def audited : Audited where
  dimension := .ternaryOperatorPlacement
  restyle := restyle
  drafts ctx value t := if value.isStr "leading" then drafts ctx t else []
  audits ctx _ := by
    refine Audits.ite _ ?_ .id
    unfold drafts
    cases ctx.reference? with
    | none => exact audits_pass ctx _
    | some r =>
      dsimp only
      cases ctx.clean? r with
      | none => exact .id
      | some reference => exact audits_pass ctx _

end Ternaries

namespace MemberChains

/-- The drafts of the indents of continuation lines. The line breaks of the reference, which come
before, are checked. -/
def drafts (ctx : Context) (extra : Nat) (t : Text) : List Text :=
  match ctx.clean? t, ctx.reference? with
  | none, _ => []
  | some s, none => passDrafts (indentPass ctx extra) s.text
  | some s, some r =>
    match ctx.clean? r with
    | some reference => passDrafts (indentPass ctx extra) (replay ctx reference s)
    | none => []

theorem isClean_replay {ctx : Context} {reference s : Source} (hs : ctx.IsClean s.text) :
    ctx.IsClean (replay ctx reference s) := by
  simp only [replay]
  split_ifs with hq hc
  · exact hc
  · exact hs
  · exact hs

theorem audits_layOut (ctx : Context) (extra : Nat) :
    Audits ctx (ctx.onSource (layOut ctx extra)) (drafts ctx extra) := by
  have hset := audits_pass ctx fun s =>
    Replacement.apply s.text (s.root.walk.filterMap (reindent? s ctx.indent extra))
  refine ⟨fun t h => Context.onSource_of_unclean (Context.clean?_of_not_isClean h), ?_, ?_⟩
  · intro t u hu hno
    rw [drafts] at hu
    cases hs : ctx.clean? t with
    | none => simp [hs] at hu
    | some s =>
      rw [Context.onSource_of_clean hs, layOut]
      rw [hs] at hu
      cases href : ctx.reference? with
      | none =>
        rw [href] at hu
        exact hset.stuck _ u hu hno
      | some r =>
        rw [href] at hu
        dsimp only at hu ⊢
        cases hr : ctx.clean? r with
        | none => simp [hr] at hu
        | some reference =>
          rw [hr] at hu
          exact hset.stuck _ u hu hno
  · intro t ht hd
    obtain ⟨s, hs⟩ := ht.exists_source
    have htext : ctx.IsClean s.text := by rwa [Context.text_of_clean? hs]
    rw [Context.onSource_of_clean hs, layOut]
    rw [drafts, hs] at hd
    cases href : ctx.reference? with
    | none =>
      rw [href] at hd
      exact hset.sound _ htext hd
    | some r =>
      rw [href] at hd
      dsimp only at hd ⊢
      cases hr : ctx.clean? r with
      | none => exact htext
      | some reference =>
        rw [hr] at hd
        exact hset.sound _ (isClean_replay htext) hd

def audited : Audited where
  dimension := .memberChainIndentation
  restyle := restyle
  drafts ctx value t :=
    if value.isStr "aligned" then drafts ctx 0 t
    else if value.isStr "indented" then drafts ctx ctx.indent.step t
    else []
  audits ctx _ := (audits_layOut ctx 0).ite _ ((audits_layOut ctx _).ite _ .id)

end MemberChains

/-- A restyler of one pass has a single draft, its result. -/
def Audited.ofSinglePass (dimension : Dimension) (restyle : Restyler)
    (h : ∀ ctx value t, ¬ Context.IsClean ctx t → restyle ctx value t = t) : Audited where
  dimension := dimension
  restyle := restyle
  drafts ctx value t := [restyle ctx value t]
  audits ctx value := Audits.single (h ctx value)

def DeclarationCommas.audited : Audited :=
  .ofSinglePass .declarationCommaPlacement restyle fun ctx value t h => by
    rw [restyle]
    split
    · exact Context.onSource_of_unclean (Context.clean?_of_not_isClean h)
    · rfl

def SwitchBreaks.audited : Audited :=
  .ofSinglePass .switchBreakIndentation restyle fun ctx value t h => by
    rw [restyle]
    split_ifs
    · exact Context.onSource_of_unclean (Context.clean?_of_not_isClean h)
    · exact Context.onSource_of_unclean (Context.clean?_of_not_isClean h)
    · rfl

def TrailingComments.audited : Audited :=
  .ofSinglePass .trailingInlineCommentAlignment restyle fun ctx value t h => by
    rw [restyle]
    split_ifs
    · exact Context.onSource_of_unclean (Context.clean?_of_not_isClean h)
    · exact Context.onSource_of_unclean (Context.clean?_of_not_isClean h)
    · rfl

/-! ### Drafts of a run -/

/-- The restylers with their drafts, in the order in which they run. -/
def auditedRestylers : List Audited :=
  [SingleLineIf.audited, Ternaries.audited, CallArguments.audited, MemberChains.audited,
    DeclarationCommas.audited, SwitchBreaks.audited, TrailingComments.audited]

theorem auditedRestylers_eq :
    auditedRestylers.map (fun a => (a.dimension, a.restyle)) = restylers := rfl

/-- The restylers whose dimension has an enforced rule, with their drafts and the value of the rule.
-/
def Rules.activeAudited (rs : Rules) : List (Audited × Value) :=
  (auditedRestylers.map fun a => (a, rs.enforcedValue a.dimension)).filter (!·.2.isNull)

theorem Rules.activeAudited_eq (rs : Rules) :
    rs.activeAudited.map (fun a => (a.1.restyle, a.2)) = rs.activeRestylers := by
  rw [activeAudited, activeRestylers, ← auditedRestylers_eq, List.map_map, List.filter_map,
    List.filter_map, List.map_map]
  rfl

/-- The drafts of one round. -/
def roundDrafts (ctx : Context) : List (Audited × Value) → Text → List Text
  | [], _ => []
  | a :: active, t => a.1.drafts ctx a.2 t ++ roundDrafts ctx active (a.1.restyle ctx a.2 t)

theorem audits_round (ctx : Context) : ∀ active : List (Audited × Value),
    Audits ctx (restyleOnce ctx (active.map fun a => (a.1.restyle, a.2))) (roundDrafts ctx active)
  | [] => .id
  | a :: active => (a.1.audits ctx a.2).comp (audits_round ctx active)

/-- The drafts of a whole run. -/
def restyleDrafts (p : Parser) (rs : Rules) (reference : Option Text) (language : String)
    (t : Text) : List Text :=
  let ctx : Context := ⟨p, language, rs.indent, reference⟩
  repeatedDrafts (restyleOnce ctx rs.activeRestylers) (roundDrafts ctx rs.activeAudited) maxPasses t

/-- **A clean text stays clean exactly if all drafts are clean.** A draft that is not clean is the
result. -/
theorem clean_restyle_iff (p : Parser) (rs : Rules) (reference : Option Text) (language : String)
    {t : Text} (ht : (p.parseClean? language t).isSome = true) :
    ((p.parseClean? language (restyle p rs reference language t)).isSome = true ↔
      ∀ u ∈ restyleDrafts p rs reference language t, (p.parseClean? language u).isSome = true) ∧
    ∀ u ∈ restyleDrafts p rs reference language t, (p.parseClean? language u).isSome ≠ true →
      restyle p rs reference language t = u := by
  have h := (audits_round ⟨p, language, rs.indent, reference⟩ rs.activeAudited).settle
  rw [rs.activeAudited_eq] at h
  exact ⟨h.isClean_iff ht, h.stuck t⟩

/-- A conditional in braces without a final semicolon, and a statement behind it on the last line.
-/
def crowdedIf : Text := "if (a) \x7b\n  b()\n\x7d c();\n".toList

/-- The tree of the two statements. -/
def crowdedIfNode : Node :=
  .construct 0 "program" 0 22 none
    [.construct 1 "if_statement" 0 16 none
        [.token 2 "if" 0 2,
          .construct 3 "parenthesized_expression" 3 6 (some .condition)
            [.token 4 "(" 3 4, .construct 5 "identifier" 4 5 none [], .token 6 ")" 5 6],
          .construct 7 "statement_block" 7 16 (some .consequence)
            [.token 8 "\x7b" 7 8,
              .construct 9 "expression_statement" 11 14 none
                [.construct 10 "call_expression" 11 14 none
                    [.construct 11 "identifier" 11 12 (some .function) [],
                      .construct 12 "arguments" 12 14 (some .arguments)
                        [.token 13 "(" 12 13, .token 14 ")" 13 14]]],
              .token 15 "\x7d" 15 16]],
      .construct 16 "expression_statement" 17 21 none
        [.construct 17 "call_expression" 17 20 none
            [.construct 18 "identifier" 17 18 (some .function) [],
              .construct 19 "arguments" 18 20 (some .arguments)
                [.token 20 "(" 18 19, .token 21 ")" 19 20]],
          .token 22 ";" 20 21]]

/-- A parser that knows these two statements and nothing else. -/
def crowdedIfParser : Parser := .ofTable [(crowdedIf, crowdedIfNode)]

/-- The single rule that braces are to be left out. -/
def omitBraces : Rules :=
  Rules.set (fun _ => none) .singleLineIfBraces { Rule.unknown false with value := .str "omit" }

theorem pass_crowdedIf (indent : Indent) (reference : Option Text) :
    SingleLineIf.pass ⟨crowdedIfParser, "javascript", indent, reference⟩ crowdedIf =
      "if (a) b() c();\n".toList := by
  rw [SingleLineIf.pass, Context.onSource_of_clean (s := ⟨crowdedIf, crowdedIfNode, false⟩) rfl,
    Source.replaceNodes_of_ascending (by decide +kernel)]
  decide +kernel

theorem restyle_crowdedIf :
    restyle crowdedIfParser omitBraces none "javascript" crowdedIf =
      "if (a) b() c();\n".toList := by
  have hround : ∀ t, restyleOnce ⟨crowdedIfParser, "javascript", omitBraces.indent, none⟩
      omitBraces.activeRestylers t =
        settle (SingleLineIf.pass ⟨crowdedIfParser, "javascript", omitBraces.indent, none⟩) t :=
    fun _ => rfl
  have hrest : SingleLineIf.pass ⟨crowdedIfParser, "javascript", omitBraces.indent, none⟩
      "if (a) b() c();\n".toList = "if (a) b() c();\n".toList := Context.onSource_of_unclean rfl
  refine settle_of_fixed ?_ ?_
  · rw [hround]
    exact settle_of_fixed (pass_crowdedIf _ _) hrest
  · rw [hround]
    exact settle_of_fixed hrest hrest

/-- The draft that is not clean is found among those of the run. -/
theorem exists_draft_crowdedIf :
    ∃ u ∈ restyleDrafts crowdedIfParser omitBraces none "javascript" crowdedIf,
      ¬ (crowdedIfParser.parseClean? "javascript" u).isSome = true := by
  obtain ⟨hiff, -⟩ :=
    clean_restyle_iff crowdedIfParser omitBraces none "javascript" (t := crowdedIf) rfl
  rw [restyle_crowdedIf] at hiff
  by_contra hno
  simp only [not_exists, not_and, Decidable.not_not] at hno
  exact absurd (hiff.mpr hno) Bool.false_ne_true

/-- A clean text that does not stay clean. -/
theorem not_clean_restyle_crowdedIf :
    (crowdedIfParser.parseClean? "javascript" crowdedIf).isSome = true ∧
      (crowdedIfParser.parseClean? "javascript"
        (restyle crowdedIfParser omitBraces none "javascript" crowdedIf)).isSome = false := by
  rw [restyle_crowdedIf]
  exact ⟨rfl, rfl⟩

end HouseStyle
