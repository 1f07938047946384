import HouseStyle.Naming
import HouseStyle.Proofs.Text.Ink
import Mathlib

/-! # Where words start and end

The words of a text are gathered from its end, so what is easy to say is where they end: at each
character that is not blank and that no such character follows (`length_words_cons`). For the words
of a name this becomes a relation between a character and the next one (`EndsWord`,
`wordCount_cons`), in which the inserted spaces no longer occur.

Read from the front, words start (`StartsWord`). Of two neighbours, a start at the second and an end
at the first are the same event but for separators (`count_startsWord_cons_cons`), so that as many
words start as end (`wordCount_eq_count`). A separator between two names keeps their words apart
(`wordCount_append_separator`).

The spaces can also be put in by two substitutions, one behind the other, which replace what they
find from left to right and never look at a character again that they have replaced (`spaceChanges`,
`joinMarks`). The first misses no change of case, for a capital that it has passed does not open
another one (`spaceChanges_eq_splitCase`). The second writes one space for several separators, and
blanks at the ends may be taken off: neither has to do with the number of words
(`length_words_joinMarks`, `words_trim`). -/

namespace HouseStyle

/-! ### Words of a text -/

namespace Text

variable {c : Char}

theorem wordStep_blank (hc : isBlank c = true) (state : Bool × List Text) :
    wordStep c state = (false, state.2) := if_pos hc

theorem wordStep_open (hc : ¬ isBlank c = true) (w : Text) (ws : List Text) :
    wordStep c (true, w :: ws) = (true, (c :: w) :: ws) := if_neg hc

theorem wordStep_closed (hc : ¬ isBlank c = true) (ws : List Text) :
    wordStep c (false, ws) = (true, [c] :: ws) := if_neg hc

/-- What the cut into words has found behind some place: a word that is still open if the place
holds a character that is not blank, and no open word otherwise. -/
theorem foldr_wordStep : ∀ t : Text,
    (∃ w ws, t.foldr wordStep (false, []) = (true, w :: ws) ∧ ¬ ∀ d ∈ t.head?, isBlank d = true) ∨
      (∃ ws, t.foldr wordStep (false, []) = (false, ws) ∧ ∀ d ∈ t.head?, isBlank d = true)
  | [] => Or.inr ⟨[], rfl, by simp⟩
  | c :: t => by
    rw [List.foldr_cons]
    by_cases hc : isBlank c = true
    · exact Or.inr ⟨_, wordStep_blank hc _, by simpa using hc⟩
    · have hhead : ¬ ∀ d ∈ (c :: t).head?, isBlank d = true := by simpa using hc
      rcases foldr_wordStep t with ⟨w, ws, hfold, -⟩ | ⟨ws, hfold, -⟩
      · rw [hfold, wordStep_open hc]
        exact Or.inl ⟨_, _, rfl, hhead⟩
      · rw [hfold, wordStep_closed hc]
        exact Or.inl ⟨_, _, rfl, hhead⟩

/-- **A word ends** at a character that is not blank and that no such character follows. -/
theorem length_words_cons (c : Char) (t : Text) :
    (words (c :: t)).length = (words t).length +
      if ¬ isBlank c = true ∧ ∀ d ∈ t.head?, isBlank d = true then 1 else 0 := by
  rw [words, words, List.foldr_cons]
  by_cases hc : isBlank c = true
  · rw [wordStep_blank hc, if_neg fun h => h.1 hc]
    rfl
  · rcases foldr_wordStep t with ⟨w, ws, hfold, hnext⟩ | ⟨ws, hfold, hnext⟩
    · rw [hfold, wordStep_open hc, if_neg fun h => hnext h.2]
      rfl
    · rw [hfold, wordStep_closed hc, if_pos ⟨hc, hnext⟩]
      rfl

theorem words_append_of_blank_left {b : Text} (hb : b.isBlankText = true) (t : Text) :
    words (b ++ t) = words t := by
  induction b with
  | nil => rfl
  | cons c b ih =>
    obtain ⟨hc, hb⟩ : isBlank c = true ∧ isBlankText b = true := by simpa [isBlankText] using hb
    rw [List.cons_append, words, List.foldr_cons, wordStep_blank hc]
    exact ih hb

theorem words_append_of_blank_right (t : Text) {b : Text} (hb : b.isBlankText = true) :
    words (t ++ b) = words t := by
  have hfold : b.foldr wordStep (false, []) = (false, []) := by
    induction b with
    | nil => rfl
    | cons c b ih =>
      obtain ⟨hc, hb⟩ : isBlank c = true ∧ isBlankText b = true := by simpa [isBlankText] using hb
      rw [List.foldr_cons, wordStep_blank hc, ih hb]
  rw [words, words, List.foldr_append, hfold]

theorem words_trim (t : Text) : words t.trim = words t := by
  have hfront : isBlankText (t.takeWhile isBlank) = true :=
    ink_eq_nil_iff.mp (ink_takeWhile_isBlank t)
  have hback : isBlankText (t.trimLeft.reverse.takeWhile isBlank).reverse = true := by
    rw [isBlankText, List.all_reverse]
    exact ink_eq_nil_iff.mp (ink_takeWhile_isBlank _)
  calc words t.trim = words (t.trim ++ (t.trimLeft.reverse.takeWhile isBlank).reverse) :=
        (words_append_of_blank_right _ hback).symm
    _ = words t.trimLeft := congrArg words (trimRight_append_blanks t.trimLeft)
    _ = words (t.takeWhile isBlank ++ t.trimLeft) := (words_append_of_blank_left hfront _).symm
    _ = words t := congrArg words List.takeWhile_append_dropWhile

end Text

open HouseStyle.Text

namespace Naming

/-! ### Separators and changes of case -/

/-- The characters between words. -/
def IsSeparator (c : Char) : Prop := isBlank c = true ∨ c = '_' ∨ c = '-'

instance : DecidablePred IsSeparator :=
  fun c => inferInstanceAs (Decidable (isBlank c = true ∨ c = '_' ∨ c = '-'))

/-- A small letter or a digit, and then a capital. -/
def IsCaseChange (b c : Char) : Prop := ('a' ≤ b ∧ b ≤ 'z' ∨ '0' ≤ b ∧ b ≤ '9') ∧ 'A' ≤ c ∧ c ≤ 'Z'

instance (b c : Char) : Decidable (IsCaseChange b c) := by unfold IsCaseChange; infer_instance

theorem isCaseChange_iff {b c : Char} :
    IsCaseChange b c ↔ (isLowerOrDigit b && c.isUpper) = true := by
  simp only [IsCaseChange, isLowerOrDigit, Char.isLower, Char.isDigit, Char.isUpper, Char.le_def,
    Bool.and_eq_true, Bool.or_eq_true, decide_eq_true_eq]

theorem isBlank_spaceSeparator {c : Char} : isBlank (spaceSeparator c) = true ↔ IsSeparator c := by
  rw [spaceSeparator, IsSeparator]
  split_ifs with h
  · exact iff_of_true rfl (Or.inr h)
  · exact (or_iff_left h).symm

theorem IsCaseChange.not_isSeparator {b c : Char} (h : IsCaseChange b c) : ¬ IsSeparator b := by
  have hrange : 0x61 ≤ b.toNat ∧ b.toNat ≤ 0x7a ∨ 0x30 ≤ b.toNat ∧ b.toNat ≤ 0x39 := h.1
  rintro (hblank | rfl | rfl)
  · simp only [isBlank, Bool.or_eq_true, Bool.and_eq_true, decide_eq_true_eq, beq_iff_eq] at hblank
    omega
  · exact absurd hrange (by decide)
  · exact absurd hrange (by decide)

/-! ### Ends of words -/

/-- Whether a word ends at a character, from the next one: the character is no separator, and what
follows it is nothing, a separator or a change of case. -/
def EndsWord (c : Char) (next : Option Char) : Prop :=
  ¬ IsSeparator c ∧ ∀ d ∈ next, IsSeparator d ∨ IsCaseChange c d

instance (c : Char) (next : Option Char) : Decidable (EndsWord c next) := by
  unfold EndsWord; infer_instance

theorem head?_splitCase : ∀ t : Text, (splitCase t).head? = t.head?
  | [] => rfl
  | [_] => rfl
  | a :: b :: t => by
    rw [splitCase]
    split_ifs
    · rfl
    · rfl

theorem length_words_map_cons (c : Char) (t : Text) :
    (words ((c :: t).map spaceSeparator)).length = (words (t.map spaceSeparator)).length +
      if ¬ IsSeparator c ∧ ∀ d ∈ t.head?, IsSeparator d then 1 else 0 := by
  rw [List.map_cons, length_words_cons]
  simp [isBlank_spaceSeparator]

@[simp] theorem wordCount_nil : wordCount [] = 0 := rfl

/-- **A name has a word for each character that ends one.** -/
theorem wordCount_cons (c : Char) : ∀ t : Text,
    wordCount (c :: t) = wordCount t + if EndsWord c t.head? then 1 else 0
  | [] => by
    have hend : EndsWord c none ↔ ¬ IsSeparator c ∧ ∀ d ∈ (none : Option Char), IsSeparator d := by
      simp [EndsWord]
    simp only [List.head?_nil, hend]
    exact length_words_map_cons c []
  | d :: t => by
    rw [List.head?_cons, wordCount, splitCase]
    by_cases hchange : IsCaseChange c d
    · have hspace : IsSeparator ' ' := Or.inl rfl
      have hend : EndsWord c (some d) := ⟨hchange.not_isSeparator, by simp [hchange]⟩
      rw [if_pos (isCaseChange_iff.mp hchange), length_words_map_cons,
        if_pos ⟨hchange.not_isSeparator, by simpa using hspace⟩, length_words_map_cons,
        if_neg fun h => h.1 hspace, if_pos hend]
      rfl
    · have hend : EndsWord c (some d) ↔ ¬ IsSeparator c ∧ ∀ e ∈ some d, IsSeparator e := by
        simp [EndsWord, hchange]
      rw [if_neg (isCaseChange_iff.not.mp hchange), length_words_map_cons, head?_splitCase]
      simp only [List.head?_cons, hend]
      rfl

/-- **A separator keeps words apart.** -/
theorem wordCount_append_separator {s : Char} (hs : IsSeparator s) (b : Text) : ∀ a : Text,
    wordCount (a ++ s :: b) = wordCount a + wordCount b
  | [] => by
    rw [List.nil_append, wordCount_cons, if_neg fun h => h.1 hs]
    exact (Nat.zero_add _).symm
  | c :: a => by
    have hend : EndsWord c (a ++ s :: b).head? ↔ EndsWord c a.head? := by
      cases a with
      | nil => simp [EndsWord, hs]
      | cons d a => rfl
    rw [List.cons_append, wordCount_cons, wordCount_cons, wordCount_append_separator hs b a]
    simp only [hend]
    omega

/-! ### Starts of words -/

/-- Whether a word starts at a position: it holds no separator, and it is the first one, or there is
a separator before it, or a change of case to it. -/
def StartsWord (name : Text) (i : ℕ) : Prop :=
  ∃ c ∈ name[i]?, ¬ IsSeparator c ∧ (i = 0 ∨ ∃ b ∈ name[i - 1]?, IsSeparator b ∨ IsCaseChange b c)

instance (name : Text) (i : ℕ) : Decidable (StartsWord name i) := by
  unfold StartsWord; infer_instance

theorem startsWord_zero {c : Char} {t : Text} : StartsWord (c :: t) 0 ↔ ¬ IsSeparator c := by
  simp [StartsWord]

theorem startsWord_one {b c : Char} {t : Text} :
    StartsWord (b :: c :: t) 1 ↔ ¬ IsSeparator c ∧ (IsSeparator b ∨ IsCaseChange b c) := by
  simp [StartsWord]

theorem startsWord_succ_succ {b c : Char} {t : Text} {i : ℕ} :
    StartsWord (b :: c :: t) (i + 2) ↔ StartsWord (c :: t) (i + 1) := by
  simp [StartsWord]

/-- **A start for an end.** With one more character in front, as many more words start as end at
that character. -/
theorem count_startsWord_cons_cons (b c : Char) (t : Text) :
    Nat.count (StartsWord (b :: c :: t)) (b :: c :: t).length =
      Nat.count (StartsWord (c :: t)) (c :: t).length + if EndsWord b (some c) then 1 else 0 := by
  have hend : EndsWord b (some c) ↔ ¬ IsSeparator b ∧ (IsSeparator c ∨ IsCaseChange b c) := by
    simp [EndsWord]
  simp only [List.length_cons, Nat.count_succ', Nat.zero_add, startsWord_zero, startsWord_one,
    startsWord_succ_succ, hend]
  by_cases hb : IsSeparator b
  · by_cases hc : IsSeparator c
    · simp [hb, hc]
    · simp [hb, hc]
  · by_cases hc : IsSeparator c
    · simp [hb, hc]
    · simp [hb, hc]
      omega

/-- **As many words as starts of words.** -/
theorem wordCount_eq_count : ∀ name : Text, wordCount name = Nat.count (StartsWord name) name.length
  | [] => rfl
  | [c] => by
    rw [wordCount_cons]
    simp [EndsWord, Nat.count_succ, startsWord_zero]
  | b :: c :: t => by
    rw [wordCount_cons, wordCount_eq_count (c :: t), count_startsWord_cons_cons, List.head?_cons]

/-! ### Spaces by substitution -/

/-- The name with a space in each change of case, one found after the other: behind a change, the
search goes on with the character that follows the capital. -/
def spaceChanges : Text → Text
  | a :: b :: t =>
    if isLowerOrDigit a && b.isUpper then a :: ' ' :: b :: spaceChanges t
    else a :: spaceChanges (b :: t)
  | t => t

/-- An underscore or a hyphen. -/
def isMark (c : Char) : Bool := c == '_' || c == '-'

/-- The name with one space for each run of underscores and hyphens. -/
def joinMarks : Text → Text
  | [] => []
  | c :: t => if isMark c then ' ' :: joinMarks (t.dropWhile isMark) else c :: joinMarks t
termination_by t => t.length
decreasing_by
  · exact Nat.lt_succ_of_le (List.dropWhile_sublist _).length_le
  · exact Nat.lt_succ_self _

theorem splitCase_cons_of_isUpper {c : Char} (hc : c.isUpper = true) (t : Text) :
    splitCase (c :: t) = c :: splitCase t := by
  have hlower : isLowerOrDigit c = false := by
    refine Bool.eq_false_iff.mpr fun h => ?_
    have hboth : (0x61 ≤ c.toNat ∧ c.toNat ≤ 0x7a ∨ 0x30 ≤ c.toNat ∧ c.toNat ≤ 0x39) ∧
        0x41 ≤ c.toNat ∧ c.toNat ≤ 0x5a := isCaseChange_iff.mpr (Bool.and_eq_true_iff.mpr ⟨h, hc⟩)
    omega
  cases t with
  | nil => rfl
  | cons d t => rw [splitCase, hlower, Bool.false_and, if_neg Bool.false_ne_true]

/-- **No change of case is missed.** -/
theorem spaceChanges_eq_splitCase : ∀ t : Text, spaceChanges t = splitCase t
  | [] => rfl
  | [_] => rfl
  | a :: b :: t => by
    rw [spaceChanges, splitCase, spaceChanges_eq_splitCase t, spaceChanges_eq_splitCase (b :: t)]
    split_ifs with h
    · rw [splitCase_cons_of_isUpper (Bool.and_eq_true_iff.mp h).2]
    · rfl

theorem spaceSeparator_eq (c : Char) : spaceSeparator c = if isMark c then ' ' else c := by
  simp [spaceSeparator, isMark]

theorem head?_joinMarks : ∀ t : Text, (joinMarks t).head? = (t.map spaceSeparator).head?
  | [] => by simp [joinMarks]
  | c :: t => by
    rw [joinMarks, List.map_cons, List.head?_cons, spaceSeparator_eq]
    split_ifs
    · rfl
    · rfl

/-- **One space is as good as several.** -/
theorem length_words_joinMarks (t : Text) :
    (words (joinMarks t)).length = (words (t.map spaceSeparator)).length := by
  induction t using joinMarks.induct with
  | case1 => simp [joinMarks]
  | case2 c t hc ih =>
    have hspace : isBlankText [' '] = true := rfl
    have hmarks : isBlankText ((t.takeWhile isMark).map spaceSeparator) = true := by
      refine List.all_eq_true.mpr fun d hd => ?_
      obtain ⟨e, he, rfl⟩ := List.mem_map.mp hd
      rw [spaceSeparator_eq, if_pos (List.mem_takeWhile_imp he)]
      rfl
    have hsplit : t.map spaceSeparator =
        (t.takeWhile isMark).map spaceSeparator ++ (t.dropWhile isMark).map spaceSeparator := by
      rw [← List.map_append, List.takeWhile_append_dropWhile]
    have hdrop (u : Text) : words (' ' :: u) = words u := words_append_of_blank_left hspace u
    rw [joinMarks, if_pos hc, List.map_cons, spaceSeparator_eq, if_pos hc, hdrop, hdrop, ih, hsplit,
      words_append_of_blank_left hmarks]
  | case3 c t hc ih =>
    rw [joinMarks, if_neg hc, List.map_cons, spaceSeparator_eq, if_neg hc, length_words_cons,
      length_words_cons, head?_joinMarks, ih]

/-- **The words of a name** are those that are left between the spaces once substitutions have put
them in, and they are counted by the positions at which one starts. So an underscore between two
names keeps their words apart. -/
theorem wordCount_eq_starts :
    (∀ name : Text, wordCount name = (words (joinMarks (spaceChanges name)).trim).length ∧
      wordCount name = Nat.count (StartsWord name) name.length) ∧
    ∀ a b : Text, wordCount (a ++ '_' :: b) = wordCount a + wordCount b := by
  refine ⟨fun name => ⟨?_, wordCount_eq_count name⟩, fun a b => ?_⟩
  · rw [words_trim, length_words_joinMarks, spaceChanges_eq_splitCase, wordCount]
  · exact wordCount_append_separator (Or.inr (Or.inl rfl)) b a

/-- Capitals next to each other stay together, a digit before a capital does not, and separators at
the ends count for nothing. -/
example : wordCount "_getHTTP2Response--now-".toList = 4 := by decide +kernel

end Naming

end HouseStyle
