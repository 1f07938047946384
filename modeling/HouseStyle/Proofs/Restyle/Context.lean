import HouseStyle.Proofs.Edit.Iteration
import HouseStyle.Proofs.Edit.Piecewise
import HouseStyle.Proofs.Text.Lines
import HouseStyle.Proofs.Tree.WellFormed
import HouseStyle.Restyle.Context

/-! # Changes of clean texts

A source that comes from a clean text holds that text (`text_of_clean?`). So what a change of
sources does to the text of every clean source, `onSource` does to every text (`rel_onSource`), and
a repeated change does it too (`ink_settle`). Replacements that each take line feeds out take line
feeds out of every text that they change (`replaceNodes_eq_or_count_lt`). A walk mostly finds
replacements in the order of their starts; then they are carried out from the last to the first
(`replaceNodes_of_ascending`). -/

namespace HouseStyle

theorem Parser.text_of_parseClean? {p : Parser} {language : String} {t : Text} {s : Source}
    (h : p.parseClean? language t = some s) : s.text = t := by
  obtain ⟨h, -⟩ := Option.filter_eq_some_iff.mp h
  rw [Parser.parse?] at h
  cases hl : Language.ofName? language with
  | none => rw [hl] at h; simp at h
  | some l =>
    rw [hl] at h
    obtain ⟨r, -, rfl⟩ := Option.map_eq_some_iff.mp h
    rfl

namespace Context

variable {ctx : Context} {change : Source → Text}

/-- **The source of a text holds that text.** -/
theorem text_of_clean? {t : Text} {s : Source} (h : ctx.clean? t = some s) : s.text = t :=
  Parser.text_of_parseClean? h

theorem onSource_of_clean {t : Text} {s : Source} (h : ctx.clean? t = some s) :
    ctx.onSource change t = change s := by rw [onSource, h]

theorem onSource_of_unclean {t : Text} (h : ctx.clean? t = none) : ctx.onSource change t = t := by
  rw [onSource, h]

theorem rel_onSource {R : Text → Text → Prop} (hR : ∀ t, R t t)
    (h : ∀ s t, ctx.clean? t = some s → R s.text (change s)) (t : Text) :
    R t (ctx.onSource change t) := by
  cases hs : ctx.clean? t with
  | none => rw [onSource_of_unclean hs]; exact hR t
  | some s =>
    have := h s t hs
    rwa [onSource_of_clean hs, text_of_clean? hs] at *

theorem ink_onSource (h : ∀ s t, ctx.clean? t = some s → (change s).ink = s.text.ink) (t : Text) :
    (ctx.onSource change t).ink = t.ink :=
  rel_onSource (R := fun t u => u.ink = t.ink) (fun _ => rfl) h t

/-- **Replacements that take line feeds out**: a text that they change has fewer line feeds behind
them. -/
theorem replaceNodes_eq_or_count_lt {f : Source → Node → Option Replacement} {t : Text}
    (h : ∀ s, ctx.clean? t = some s → ∀ n ∈ s.root.walkNodes, ∀ r, f s n = some r →
      r.text.count '\n' < (r.replaced s.text).count '\n') :
    ctx.onSource (fun s => s.replaceNodes (f s)) t = t ∨
      (ctx.onSource (fun s => s.replaceNodes (f s)) t).count '\n' < t.count '\n' := by
  cases hs : ctx.clean? t with
  | none => exact Or.inl (onSource_of_unclean hs)
  | some s =>
    rw [onSource_of_clean hs, ← text_of_clean? hs]
    refine Replacement.apply_eq_or_count_lt fun r hr _ => ?_
    obtain ⟨n, hn, hnr⟩ := List.mem_filterMap.mp hr
    exact h s hs n hn r hnr

end Context

theorem Source.replaceNodes_of_ascending {s : Source} {f : Node → Option Replacement}
    (h : ((s.root.walkNodes.filterMap f).filter (·.isEffective s.text)).eraseDups.Pairwise
      fun r r' => r.start < r'.start) :
    s.replaceNodes f = Replacement.splice s.text s.text.length []
      (Replacement.keep (s.text.length + 1)
        ((s.root.walkNodes.filterMap f).filter (·.isEffective s.text)).eraseDups.reverse) := by
  rw [replaceNodes, Replacement.apply, Replacement.taken,
    Replacement.candidates_eq_of_perm (List.reverse_perm _) (List.pairwise_reverse.mpr h)]

theorem ink_settle {change : Text → Text} (h : ∀ t, (change t).ink = t.ink) (t : Text) :
    (settle change t).ink = t.ink :=
  settle_induction (P := fun u => u.ink = t.ink) (fun u hu => (h u).trans hu) rfl

end HouseStyle
