import HouseStyle.Proofs.Restyle.Clean
import HouseStyle.Proofs.Restyle.SafeOnly

/-! # Texts that are left alone

A parser rejects a text in three ways: it does not know the language, it has no tree for the text,
or the tree has errors (`Parser.Rejects`). Every restyler leaves a rejected text as it is
(`restyler_of_rejects`), hence so does a whole run, on a text or on a file, whatever the rules ask
for.

The three restylers that look at a reference also do nothing if it is rejected. They look at it at
different places, before the passes, inside the change of a source, and before comments are put
back, so each has a lemma of its own. `untouched_of_rejects` puts all of it together. -/

namespace HouseStyle

/-- A text that is not read cleanly: the language is unknown, there is no tree, or the tree has
errors. -/
def Parser.Rejects (p : Parser) (language : String) (t : Text) : Prop :=
  Language.ofName? language = none ∨
    ∃ l, Language.ofName? language = some l ∧
      (p l t = none ∨ ∃ r, p l t = some r ∧ r.hasErrors = true)

theorem Parser.rejects_iff {p : Parser} {language : String} {t : Text} :
    p.Rejects language t ↔ p.parseClean? language t = none := by
  rw [Rejects, parseClean?, parse?]
  cases hl : Language.ofName? language with
  | none => simp
  | some l =>
    cases hr : p l t with
    | none => simp [hr]
    | some r => simp [hr, Option.filter]

theorem restyleFile_eq (p : Parser) (config : Config) (rs : Rules) (reference : Option Text)
    (path : Option String) (t : Text) :
    restyleFile p config rs reference path t =
      restyle p (if config.safeOnly then rs.safeOnly else rs) reference
        (fileLanguage config path).name t :=
  rfl

/-! ### Rejected texts -/

/-- **No restyler touches a rejected text.** -/
theorem restyler_of_rejects {r : Dimension × Restyler} (hr : r ∈ restylers) (ctx : Context)
    {t : Text} (h : ctx.parser.Rejects ctx.language t) (value : Value) : r.2 ctx value t = t := by
  rw [← auditedRestylers_eq] at hr
  obtain ⟨a, -, rfl⟩ := List.mem_map.mp hr
  refine (a.audits ctx value).fixed t fun hclean => ?_
  rw [Context.IsClean, Context.clean?, Parser.rejects_iff.mp h] at hclean
  exact Bool.false_ne_true hclean

theorem restyle_of_rejects {p : Parser} {language : String} {t : Text} (h : p.Rejects language t)
    (rs : Rules) (reference : Option Text) : restyle p rs reference language t = t := by
  have hround := (audits_round ⟨p, language, rs.indent, reference⟩ rs.activeAudited).settle
  rw [rs.activeAudited_eq] at hround
  refine hround.fixed t fun hclean => ?_
  rw [Context.IsClean, Context.clean?, Parser.rejects_iff.mp h] at hclean
  exact Bool.false_ne_true hclean

/-! ### Rejected references -/

section Reference
variable {ctx : Context} {r : Text} (href : ctx.reference? = some r) (hr : ctx.clean? r = none)
include href hr

theorem Ternaries.restyle_of_rejects (value : Value) (t : Text) : restyle ctx value t = t := by
  rw [restyle, href]
  simp only [hr, ite_self]

theorem MemberChains.restyle_of_rejects (value : Value) (t : Text) : restyle ctx value t = t := by
  have hsource : ∀ extra, ctx.onSource (layOut ctx extra) t = t := by
    intro extra
    refine Context.rel_onSource (R := fun t u => u = t) (fun _ => rfl) (fun s _ _ => ?_) t
    rw [layOut, href]
    simp only [hr]
  simp only [restyle, hsource, ite_self]

theorem TrailingComments.restyle_of_rejects (t : Text) : restyle ctx (.str "aligned") t = t := by
  rw [restyle, if_pos (by rfl), href]
  refine Context.rel_onSource (R := fun t u => u = t) (fun _ => rfl) (fun s _ _ => ?_) t
  simp only [alignWithReference, hr]

end Reference

/-! ### Both -/

/-- **What is not read cleanly is left alone.** A rejected text comes back from every restyler, from
every run on the text and from every run on a file; and with a reference that is rejected, the
restylers of ternaries and of member chains give back every text under every value, and so does that
of trailing comments where it would align them. -/
theorem untouched_of_rejects (p : Parser) :
    (∀ language t, p.Rejects language t →
      (∀ r ∈ restylers, ∀ indent reference value,
        r.2 ⟨p, language, indent, reference⟩ value t = t) ∧
      ∀ rs reference, restyle p rs reference language t = t) ∧
    (∀ config path t, p.Rejects (fileLanguage config path).name t →
      ∀ rs reference, restyleFile p config rs reference path t = t) ∧
    ∀ language reference, reference ≠ [] → p.Rejects language reference →
      ∀ indent t, let ctx : Context := ⟨p, language, indent, some reference⟩
        (∀ value, Ternaries.restyle ctx value t = t ∧ MemberChains.restyle ctx value t = t) ∧
          TrailingComments.restyle ctx (.str "aligned") t = t := by
  refine ⟨fun language t h => ⟨fun r hr indent reference value => ?_, restyle_of_rejects h⟩,
    fun config path t h rs reference => ?_, fun language reference hne h indent t => ?_⟩
  · exact restyler_of_rejects hr ⟨p, language, indent, reference⟩ h value
  · rw [restyleFile_eq]
    exact restyle_of_rejects h _ _
  · have href : Context.reference? ⟨p, language, indent, some reference⟩ = some reference := by
      simp [Context.reference?, Option.filter, hne]
    have hclean : Context.clean? ⟨p, language, indent, some reference⟩ reference = none :=
      Parser.rejects_iff.mp h
    exact ⟨fun value => ⟨Ternaries.restyle_of_rejects href hclean value t,
      MemberChains.restyle_of_rejects href hclean value t⟩,
      TrailingComments.restyle_of_rejects href hclean t⟩

/-- The conditional whose braces would be left out, with an error in its tree; the language decides
whether there is a tree at all. -/
def brokenIfParser : Parser := fun l t =>
  if l = .javascript ∧ t = crowdedIf then some ⟨crowdedIfNode, true⟩ else none

/-- The conditional is rejected in all three ways, and left alone in each of them. -/
theorem untouched_of_rejects_brokenIf :
    (brokenIfParser.Rejects "javascript" crowdedIf ∧
      restyle brokenIfParser omitBraces none "javascript" crowdedIf = crowdedIf) ∧
    (brokenIfParser.Rejects "typescript" crowdedIf ∧
      restyleFile brokenIfParser safeConfig omitBraces none (some "a.ts") crowdedIf = crowdedIf) ∧
    (brokenIfParser.Rejects "latin" crowdedIf ∧
      MemberChains.restyle ⟨brokenIfParser, "latin", ⟨.space, 2⟩, some crowdedIf⟩
        (.str "aligned") [] = []) := by
  obtain ⟨htext, hfile, href⟩ := untouched_of_rejects brokenIfParser
  have herrors : brokenIfParser.Rejects "javascript" crowdedIf :=
    Or.inr ⟨.javascript, rfl, Or.inr ⟨⟨crowdedIfNode, true⟩, rfl, rfl⟩⟩
  have hnone : brokenIfParser.Rejects "typescript" crowdedIf :=
    Or.inr ⟨.typescript, rfl, Or.inl rfl⟩
  have hunknown : brokenIfParser.Rejects "latin" crowdedIf := Or.inl rfl
  refine ⟨⟨herrors, (htext _ _ herrors).2 _ _⟩, ⟨hnone, hfile safeConfig (some "a.ts") _ ?_ _ _⟩,
    ⟨hunknown, ((href _ _ (by decide) hunknown _ _).1 _).2⟩⟩
  exact hnone

end HouseStyle
