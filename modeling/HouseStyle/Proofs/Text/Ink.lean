import HouseStyle.Edit.Indent
import Mathlib.Data.List.TakeWhile
import Mathlib.Tactic.SplitIfs

/-! # Slices and ink

The *ink* of a text is what remains of it without its blanks: the characters that a reader of the
program cares for, in order. It goes through concatenation (`ink_append`), so a text that is put
together from pieces has the ink of its pieces; trimming, indents and empty gaps do not contribute
to it. A slice splits at every offset inside it (`slice_append_slice`), which is how the ink of a
range is found from the ranges inside it.

`has` finds a text exactly if that text stands somewhere in the other (`has_iff_isInfix`). -/

namespace HouseStyle.Text

/-! ### Slices -/

theorem slice_self (t : Text) (a : Nat) : t.slice a a = [] := by simp [slice]

theorem slice_zero (t : Text) (b : Nat) : t.slice 0 b = t.take b := by simp [slice]

theorem length_slice {t : Text} {a b : Nat} (hb : b ≤ t.length) : (t.slice a b).length = b - a := by
  simp only [slice, List.length_take, List.length_drop]; omega

theorem slice_append_slice (t : Text) {a b c : Nat} (hab : a ≤ b) (hbc : b ≤ c) :
    t.slice a b ++ t.slice b c = t.slice a c := by
  have hd : (t.drop a).drop (b - a) = t.drop b := by rw [List.drop_drop]; congr 1; omega
  have hc : c - a = (b - a) + (c - b) := by omega
  rw [slice, slice, slice, hc, List.take_add, hd]

theorem take_append_slice (t : Text) {a b : Nat} (hab : a ≤ b) :
    t.take a ++ t.slice a b = t.take b := by
  rw [← slice_zero, ← slice_zero, slice_append_slice t (Nat.zero_le a) hab]

theorem slice_succ {t : Text} {a : Nat} {c : Char} (h : t[a]? = some c) :
    t.slice a (a + 1) = [c] := by
  obtain ⟨ha, rfl⟩ := List.getElem?_eq_some_iff.mp h
  rw [slice, List.drop_eq_getElem_cons ha, show a + 1 - a = 1 by omega]
  rfl

theorem slice_take {t : Text} {a b k : Nat} (h : k ≤ b - a) :
    (t.slice a b).take k = t.slice a (a + k) := by
  rw [slice, slice, List.take_take, Nat.min_eq_left h, Nat.add_sub_cancel_left]

theorem slice_drop (t : Text) (a b k : Nat) : (t.slice a b).drop k = t.slice (a + k) b := by
  rw [slice, slice, List.drop_take, List.drop_drop, Nat.sub_sub]

theorem slice_infix_slice (t : Text) {a b c d : Nat} (hab : a ≤ b) (hbc : b ≤ c) (hcd : c ≤ d) :
    t.slice b c <:+: t.slice a d := by
  refine ⟨t.slice a b, t.slice c d, ?_⟩
  rw [slice_append_slice t hab hbc, slice_append_slice t (by omega) hcd]

theorem mem_slice_of_le {t : Text} {a a' b b' : Nat} {c : Char} (ha : a ≤ a') (hb : b' ≤ b)
    (h : c ∈ t.slice a' b') : c ∈ t.slice a b := by
  have hk : t.slice a' b' = (t.slice a' b).take (b' - a') := by
    rw [slice, slice, List.take_take, Nat.min_eq_left (by omega)]
  rw [hk] at h
  have h' := List.mem_of_mem_take h
  rw [show a' = a + (a' - a) by omega, ← slice_drop] at h'
  exact List.mem_of_mem_drop h'

/-! ### Ink -/

/-- The characters of a text that are not blank. -/
def ink (t : Text) : Text := t.filter (!isBlank ·)

@[simp] theorem ink_nil : ink [] = [] := rfl

@[simp] theorem ink_append (t u : Text) : ink (t ++ u) = ink t ++ ink u := List.filter_append ..

theorem ink_cons (c : Char) (t : Text) : ink (c :: t) = ink [c] ++ ink t := ink_append [c] t

@[simp] theorem ink_cons_blank {c : Char} (h : isBlank c = true) (t : Text) :
    ink (c :: t) = ink t := by
  simp [ink, h]

@[simp] theorem ink_cons_solid {c : Char} (h : isBlank c = false) (t : Text) :
    ink (c :: t) = c :: ink t := by
  simp [ink, h]

theorem mem_ink {t : Text} {c : Char} : c ∈ ink t ↔ c ∈ t ∧ isBlank c = false := by
  simp [ink, List.mem_filter]

theorem ink_eq_nil_iff {t : Text} : ink t = [] ↔ t.isBlankText = true := by
  simp [ink, isBlankText, List.filter_eq_nil_iff]

theorem ink_of_blank {t : Text} (h : t.isBlankText = true) : ink t = [] := ink_eq_nil_iff.mpr h

theorem ink_slice_add (t : Text) {a b c : Nat} (hab : a ≤ b) (hbc : b ≤ c) :
    ink (t.slice a c) = ink (t.slice a b) ++ ink (t.slice b c) := by
  rw [← slice_append_slice t hab hbc, ink_append]

/-! ### What has no ink -/

theorem ink_takeWhile_isBlank (t : Text) : ink (t.takeWhile isBlank) = [] := by
  refine ink_eq_nil_iff.mpr (List.all_eq_true.mpr fun c hc => ?_)
  exact List.mem_takeWhile_imp hc

theorem ink_trimLeft (t : Text) : ink t.trimLeft = ink t := by
  have h := congrArg ink (List.takeWhile_append_dropWhile (p := isBlank) (l := t))
  rw [ink_append, ink_takeWhile_isBlank, List.nil_append] at h
  exact h

theorem ink_reverse (t : Text) : ink t.reverse = (ink t).reverse := List.filter_reverse ..

theorem ink_trimRight (t : Text) : ink t.trimRight = ink t := by
  rw [trimRight, ink_reverse]
  have h := ink_trimLeft t.reverse
  rw [trimLeft] at h
  rw [h, ink_reverse, List.reverse_reverse]

theorem ink_trim (t : Text) : ink t.trim = ink t := by
  rw [trim, ink_trimRight, ink_trimLeft]

theorem ink_indentOf (t : Text) : ink t.indentOf = [] := by
  refine ink_eq_nil_iff.mpr (List.all_eq_true.mpr fun c hc => ?_)
  exact isBlank_of_isIndentChar (List.mem_takeWhile_imp hc)

theorem ink_replicate_space (n : Nat) : ink (List.replicate n ' ') = [] := by
  refine ink_eq_nil_iff.mpr (List.all_eq_true.mpr fun c hc => ?_)
  rw [List.eq_of_mem_replicate hc]
  rfl

theorem ink_render (i : Indent) (column : Int) : ink (i.render column) = [] := by
  refine ink_eq_nil_iff.mpr (List.all_eq_true.mpr fun c hc => ?_)
  unfold Indent.render at hc
  cases hk : i.kind with
  | space =>
    rw [hk] at hc
    rw [List.eq_of_mem_replicate hc]
    rfl
  | tab =>
    rw [hk] at hc
    rcases List.mem_append.mp hc with hc | hc
    · rw [List.eq_of_mem_replicate hc]; rfl
    · rw [List.eq_of_mem_replicate hc]; rfl

theorem trimRight_append_blanks (t : Text) :
    t.trimRight ++ (t.reverse.takeWhile isBlank).reverse = t := by
  rw [trimRight, ← List.reverse_append, List.takeWhile_append_dropWhile, List.reverse_reverse]

theorem trimRight_length_le (t : Text) : t.trimRight.length ≤ t.length := by
  have h := congrArg List.length (trimRight_append_blanks t)
  rw [List.length_append] at h
  omega

theorem take_trimRight_length (t : Text) : t.take t.trimRight.length = t.trimRight := by
  have h : t.trimRight <+: t := ⟨_, trimRight_append_blanks t⟩
  exact (List.prefix_iff_eq_take.mp h).symm

theorem ink_drop_trimRight (t : Text) : ink (t.drop t.trimRight.length) = [] := by
  have h : t.drop t.trimRight.length = (t.reverse.takeWhile isBlank).reverse := by
    have hd := List.take_append_drop t.trimRight.length t
    rw [take_trimRight_length] at hd
    exact List.append_cancel_left (hd.trans (trimRight_append_blanks t).symm)
  rw [h, ink_reverse, ink_takeWhile_isBlank]
  rfl

theorem getLast?_trimRight (t : Text) : t.trimRight.getLast? = (ink t).getLast? := by
  rw [trimRight, List.getLast?_reverse, ink, ← List.head?_reverse, ← List.filter_reverse,
    List.head?_filter, List.find?_eq_head?_dropWhile_not]
  simp

/-! ### Searches -/

theorem indexOf?_isSome_iff (p : Text) : ∀ t : Text, (indexOf? p t).isSome = true ↔ p <:+: t
  | [] => by
    cases p <;> simp [indexOf?]
  | c :: cs => by
    rw [indexOf?, List.infix_cons_iff]
    split_ifs with h
    · simp [List.isPrefixOf_iff_prefix.mp h]
    · rw [Option.isSome_map, indexOf?_isSome_iff p cs]
      have hp : ¬ p <+: c :: cs := fun hp => h (List.isPrefixOf_iff_prefix.mpr hp)
      simp [hp]

/-- **Searching finds exactly what stands in the text.** -/
theorem has_iff_isInfix {t p : Text} : t.has p = true ↔ p <:+: t := indexOf?_isSome_iff p t

theorem hasCommentMark_iff {t : Text} :
    t.hasCommentMark = true ↔ ['/', '/'] <:+: t ∨ ['/', '*'] <:+: t := by
  rw [hasCommentMark, Bool.or_eq_true, has_iff_isInfix, has_iff_isInfix]

end HouseStyle.Text
