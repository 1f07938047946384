import HouseStyle.Text.Basic
import Mathlib.Data.List.Basic

/-! # Parts of a text

`parts` cuts a text at each occurrence of a separator, as the library splits lists
(`parts_eq_splitOn`). The parts hold no separator (`notMem_of_mem_parts`), joined by it they give
the text back (`intercalate_parts`), and a separator keeps the parts on its two sides apart
(`parts_append_cons`).

So the parts can be found in the text itself: a part is what stands there without separator between
a place where a part opens and one where it closes (`mem_parts_iff`), and the last part is what
stands there up to the end (`getLast?_parts_iff`). `cutLast?` looks for the last separator only
(`cutLast?_eq_some_iff`). -/

namespace HouseStyle.Text

variable {sep : Char} {t w : Text}

theorem parts_eq_splitOn (sep : Char) : ∀ t : Text, parts sep t = List.splitOn sep t
  | [] => (List.splitOn_nil sep).symm
  | c :: t => by
    rw [parts, List.splitOn_cons_eq_if_modifyHead, parts_eq_splitOn sep t]
    by_cases hc : c = sep
    · simp [hc]
    · obtain ⟨p, ps, hp⟩ := List.exists_cons_of_ne_nil (List.splitOn_ne_nil sep t)
      simp [hc, hp]

theorem parts_ne_nil (sep : Char) (t : Text) : parts sep t ≠ [] := by
  rw [parts_eq_splitOn]
  exact List.splitOn_ne_nil sep t

theorem parts_cons {c : Char} (hc : c ≠ sep) (t : Text) :
    ∃ p ps, parts sep t = p :: ps ∧ parts sep (c :: t) = (c :: p) :: ps := by
  obtain ⟨p, ps, hp⟩ := List.exists_cons_of_ne_nil (parts_ne_nil sep t)
  refine ⟨p, ps, hp, ?_⟩
  rw [parts, if_neg hc, hp]

theorem parts_append_cons (sep : Char) (t u : Text) :
    parts sep (t ++ sep :: u) = parts sep t ++ parts sep u := by
  simp only [parts_eq_splitOn]
  exact List.splitOn_append_cons_self t u

theorem parts_of_notMem (h : sep ∉ t) : parts sep t = [t] := by
  rw [parts_eq_splitOn]
  exact List.splitOn_eq_singleton h

theorem notMem_of_mem_parts : ∀ {t p : Text}, p ∈ parts sep t → sep ∉ p
  | [], p, h => by
    obtain rfl : p = [] := by simpa [parts] using h
    simp
  | c :: t, p, h => by
    by_cases hc : c = sep
    · rw [parts, if_pos hc] at h
      rcases List.mem_cons.mp h with rfl | h
      · simp
      · exact notMem_of_mem_parts h
    · obtain ⟨q, qs, hq, hcq⟩ := parts_cons hc t
      rw [hcq] at h
      rcases List.mem_cons.mp h with rfl | h
      · have hrest : sep ∉ q := notMem_of_mem_parts (t := t) (by simp [hq])
        rw [List.mem_cons, not_or]
        exact ⟨Ne.symm hc, hrest⟩
      · exact notMem_of_mem_parts (t := t) (by simp [hq, h])

/-- **Parts are joined to the text** that they were cut from. -/
theorem intercalate_parts (sep : Char) (t : Text) : [sep].intercalate (parts sep t) = t := by
  rw [parts_eq_splitOn, List.intercalate_splitOn]

/-! ### Parts where they stand -/

/-- Whether a part opens behind a text: nothing stands there, or a separator ends it. -/
def OpensPart (sep : Char) (before : Text) : Prop := before = [] ∨ ∃ b, before = b ++ [sep]

/-- Whether a part closes in front of a text: nothing stands there, or a separator starts it. -/
def ClosesPart (sep : Char) (after : Text) : Prop := after = [] ∨ ∃ a, after = sep :: a

theorem exists_opensPart (sep : Char) (w : Text) : ∀ (ps qs : List Text), ∃ before,
    OpensPart sep before ∧ [sep].intercalate (ps ++ w :: qs) = before ++ [sep].intercalate (w :: qs)
  | [], qs => ⟨[], Or.inl rfl, rfl⟩
  | p :: ps, qs => by
    obtain ⟨before, hopens, hjoin⟩ := exists_opensPart sep w ps qs
    refine ⟨p ++ [sep] ++ before, Or.inr ?_, ?_⟩
    · rcases hopens with rfl | ⟨b, rfl⟩
      · exact ⟨p, by simp⟩
      · exact ⟨p ++ [sep] ++ b, by simp⟩
    · rw [List.cons_append, List.intercalate_cons_of_ne_nil (by simp), hjoin]
      simp

theorem exists_closesPart (sep : Char) (w : Text) (qs : List Text) :
    ∃ after, ClosesPart sep after ∧ [sep].intercalate (w :: qs) = w ++ after := by
  cases qs with
  | nil => exact ⟨[], Or.inl rfl, by simp⟩
  | cons q qs =>
    exact ⟨sep :: [sep].intercalate (q :: qs), Or.inr ⟨_, rfl⟩,
      by simp [List.intercalate_cons_cons]⟩

/-- What opens behind a text is its last part as long as no separator follows. -/
theorem parts_of_opensPart {before : Text} (h : OpensPart sep before) (hw : sep ∉ w) :
    ∃ ps, parts sep (before ++ w) = ps ++ [w] := by
  rcases h with rfl | ⟨b, rfl⟩
  · exact ⟨[], parts_of_notMem hw⟩
  · refine ⟨parts sep b, ?_⟩
    rw [List.append_assoc, List.singleton_append, parts_append_cons, parts_of_notMem hw]

/-- **A part in its text**: it has no separator, and stands where a part opens up to where a part
closes. -/
theorem mem_parts_iff : w ∈ parts sep t ↔
    sep ∉ w ∧ ∃ before after, t = before ++ w ++ after ∧ OpensPart sep before ∧
      ClosesPart sep after := by
  constructor
  · intro h
    obtain ⟨ps, qs, hpq⟩ := List.append_of_mem h
    obtain ⟨before, hopens, hbefore⟩ := exists_opensPart sep w ps qs
    obtain ⟨after, hcloses, hafter⟩ := exists_closesPart sep w qs
    refine ⟨notMem_of_mem_parts h, before, after, ?_, hopens, hcloses⟩
    rw [List.append_assoc, ← hafter, ← hbefore, ← hpq, intercalate_parts]
  · rintro ⟨hw, before, after, rfl, hopens, rfl | ⟨a, rfl⟩⟩
    · obtain ⟨ps, hps⟩ := parts_of_opensPart hopens hw
      simp [hps]
    · obtain ⟨ps, hps⟩ := parts_of_opensPart hopens hw
      rw [parts_append_cons, hps]
      simp

/-- **The last part of a text** has no separator, and stands where a part opens up to the end. -/
theorem getLast?_parts_iff : (parts sep t).getLast? = some w ↔
    sep ∉ w ∧ ∃ before, t = before ++ w ∧ OpensPart sep before := by
  constructor
  · intro h
    obtain ⟨ps, hps⟩ := List.getLast?_eq_some_iff.mp h
    obtain ⟨before, hopens, hbefore⟩ := exists_opensPart sep w ps []
    refine ⟨notMem_of_mem_parts (t := t) (by simp [hps]), before, ?_, hopens⟩
    rw [← intercalate_parts sep t, hps, hbefore, List.intercalate_singleton]
  · rintro ⟨hw, before, rfl, hopens⟩
    obtain ⟨ps, hps⟩ := parts_of_opensPart hopens hw
    simp [hps]

theorem cutLast?_append {after : Text} (h : sep ∉ after) (before : Text) :
    cutLast? sep (before ++ sep :: after) = some (before, after) := by
  have hrun : (before ++ sep :: after).reverse.takeWhile (· ≠ sep) = after.reverse := by
    have hall : ∀ c ∈ after.reverse, decide (c ≠ sep) = true := by
      intro c hc
      exact decide_eq_true fun heq => h (heq ▸ List.mem_reverse.mp hc)
    rw [List.reverse_append, List.reverse_cons, List.append_assoc,
      List.takeWhile_append_of_pos hall]
    simp
  have hlength : (before ++ sep :: after).length - after.length - 1 = before.length := by
    simp only [List.length_append, List.length_cons]
    omega
  unfold cutLast?
  simp only [hrun, List.reverse_reverse, hlength]
  simp

/-- **The cut at the last separator**: behind it there is none. -/
theorem cutLast?_eq_some_iff {before after : Text} :
    cutLast? sep t = some (before, after) ↔ t = before ++ sep :: after ∧ sep ∉ after := by
  constructor
  · intro h
    have hmem : sep ∈ t := by
      by_contra hno
      simp [cutLast?, hno] at h
    -- the last separator of the text is the first of the text turned around
    obtain ⟨a, b, hab, ha⟩ := List.eq_append_cons_of_mem (List.mem_reverse.mpr hmem)
    have ha' : sep ∉ a.reverse := by simpa using ha
    have ht : t = b.reverse ++ sep :: a.reverse := by
      rw [← List.reverse_reverse t, hab]
      simp
    rw [ht, cutLast?_append ha', Option.some.injEq, Prod.mk.injEq] at h
    rw [ht, ← h.1, ← h.2]
    exact ⟨rfl, ha'⟩
  · rintro ⟨rfl, hafter⟩
    exact cutLast?_append hafter before

end HouseStyle.Text
