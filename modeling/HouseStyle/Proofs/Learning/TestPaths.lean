import HouseStyle.Learning.Path
import HouseStyle.Proofs.Text.Parts
import Mathlib.Data.List.TFAE
import Mathlib.Tactic.TFAE

/-! # Paths of tests

Whether a path belongs to tests, examples and the like can be said in three ways, and they come to
the same (`Path.isTestLike_tfae`). `isTestLike` cuts the path at its slashes and looks at the names
between them. `TestLike` says which names count, by what they are made of. And two patterns say what
to search for: `testFolder` in the path as a whole, where a name may stand at the start, between two
slashes or at the end, and `testFile` in its last component.

A search finds a pattern wherever it fits a piece of the text (`Pattern.FoundIn`); whether it does
may depend on what stands before and behind the piece (`Pattern.Fits`). The end of a text also
counts as reached in front of a line feed that is its last character. No name has a slash in it, so
a search for `testFolder` finds whole components only (`foundIn_testFolder_iff`). -/

namespace HouseStyle

open HouseStyle.Text

/-! ### Patterns -/

/-- What a search looks for. -/
inductive Pattern where
  /-- The start of the text. -/
  | opening
  /-- The end of the text, or the place in front of a line feed that ends it. -/
  | ending
  /-- A given word. -/
  | word (w : String)
  /-- One character of a class. -/
  | one (p : Char → Bool)
  /-- One character of a class or more. -/
  | many (p : Char → Bool)
  /-- One pattern or the other. -/
  | either (p q : Pattern)
  /-- One pattern and behind it the other. -/
  | both (p q : Pattern)

namespace Pattern

instance : Append Pattern := ⟨both⟩

instance : OrOp Pattern := ⟨either⟩

/-- A word that may be left out. -/
def optional (w : String) : Pattern := word w ||| word ""

/-- Whether a pattern fits a piece of a text, between what stands before the piece and what behind
it. -/
def Fits : Pattern → Text → Text → Text → Prop
  | opening, before, piece, _ => before = [] ∧ piece = []
  | ending, _, piece, after => piece = [] ∧ (after = [] ∨ after = ['\n'])
  | word w, _, piece, _ => piece = w.toList
  | one p, _, piece, _ => ∃ c, p c = true ∧ piece = [c]
  | many p, _, piece, _ => piece ≠ [] ∧ ∀ c ∈ piece, p c = true
  | either p q, before, piece, after => p.Fits before piece after ∨ q.Fits before piece after
  | both p q, before, piece, after => ∃ first second, piece = first ++ second ∧
      p.Fits before first (second ++ after) ∧ q.Fits (before ++ first) second after

/-- Whether a search finds a pattern in a text. -/
def FoundIn (p : Pattern) (t : Text) : Prop :=
  ∃ before piece after, t = before ++ piece ++ after ∧ p.Fits before piece after

variable {p q : Pattern} {w : String} {before piece after t : Text}

theorem fits_either : (p ||| q).Fits before piece after ↔
    p.Fits before piece after ∨ q.Fits before piece after := Iff.rfl

theorem fits_both : (p ++ q).Fits before piece after ↔ ∃ first second, piece = first ++ second ∧
    p.Fits before first (second ++ after) ∧ q.Fits (before ++ first) second after := Iff.rfl

theorem fits_word : (word w).Fits before piece after ↔ piece = w.toList := Iff.rfl

theorem fits_word_optional {s : String} :
    (word w ++ optional s).Fits before piece after ↔
      piece = w.toList ∨ piece = (w ++ s).toList := by
  rw [fits_both, String.toList_append]
  constructor
  · rintro ⟨first, second, rfl, rfl, hsecond⟩
    rcases hsecond with rfl | rfl
    · exact Or.inr rfl
    · exact Or.inl (by simp)
  · rintro (rfl | rfl)
    · exact ⟨w.toList, [], by simp, rfl, Or.inr rfl⟩
    · exact ⟨w.toList, s.toList, rfl, rfl, Or.inl rfl⟩

theorem foundIn_either : (p ||| q).FoundIn t ↔ p.FoundIn t ∨ q.FoundIn t := by
  constructor
  · rintro ⟨before, piece, after, ht, hp | hq⟩
    · exact Or.inl ⟨before, piece, after, ht, hp⟩
    · exact Or.inr ⟨before, piece, after, ht, hq⟩
  · rintro (⟨before, piece, after, ht, hp⟩ | ⟨before, piece, after, ht, hq⟩)
    · exact ⟨before, piece, after, ht, Or.inl hp⟩
    · exact ⟨before, piece, after, ht, Or.inr hq⟩

end Pattern

namespace Path

open Pattern

/-- The names of directories and files that hold tests, examples and the like. -/
def testName : Pattern :=
  word "test" ++ optional "s" ||| word "example" ++ optional "s" |||
    word "fixture" ++ optional "s" ||| word "bench" ++ optional "mark" |||
    word "__tests__" ||| word "__mocks__" ||| word "__fixtures__" |||
    word "spec" ++ optional "s" ||| word "demo" ++ optional "s" |||
    word "sample" ++ optional "s" ||| word "script" ++ optional "s" |||
    word "doc" ++ optional "s" ||| word "dist"

/-- One of the names, between the start of the path or a slash and a slash or the end of the path.
-/
def testFolder : Pattern := (opening ||| word "/") ++ testName ++ (word "/" ||| ending)

/-- What file names of tests start with. -/
def testStart : Pattern :=
  opening ++ (word "test" ||| word "example" ||| word "bench") ++ one fun c => c == '.' || c == '-'

/-- What file names of tests end with. -/
def testEnd : Pattern :=
  word "." ++ (word "test" ||| word "spec") ++ word "." ++ many (· != '.') ++ ending

/-- The start of a file name of a test, or its end. -/
def testFile : Pattern := testStart ||| testEnd

/-- Whether a file name starts with a word and a mark. -/
def StartsAsTest (name : Text) : Prop :=
  ∃ w ∈ ["test", "example", "bench"], ∃ mark, (mark = '.' ∨ mark = '-') ∧
  w.toList ++ [mark] <+: name

/-- Whether a file name ends in a word between points and an extension. -/
def EndsAsTest (name : Text) : Prop :=
  ∃ w ∈ ["test", "spec"], ∃ x, x ≠ [] ∧ '.' ∉ x ∧ '.' :: w.toList ++ '.' :: x <:+ name

/-- What makes a path one of tests, by its components: all but the last one, and the last one. A
component is one of the names, the last one perhaps with a line feed behind it, or the last one
starts or ends like a file name of a test. -/
def TestLike (folders : List Text) (base : Text) : Prop :=
  (∃ w ∈ testNames, w.toList ∈ folders ++ [base] ∨ base = w.toList ++ ['\n']) ∨
    StartsAsTest base ∨ EndsAsTest base

/-- The path that the names are looked for in: with slashes only, and in lower case. -/
def normal (path : Text) : Text := lower (path.map fun c => if c = '\\' then '/' else c)

/-! ### Names -/

theorem fits_testName {before piece after : Text} :
    testName.Fits before piece after ↔ ∃ w ∈ testNames, piece = w.toList := by
  simp only [testName, fits_either, fits_word_optional, fits_word, testNames, List.mem_cons,
    List.not_mem_nil, or_false, exists_eq_or_imp, exists_eq_left, String.reduceAppend, or_assoc]

theorem slash_notMem_testNames : ∀ w ∈ testNames, '/' ∉ w.toList := by decide

theorem isTestName_iff {c : Text} : isTestName c = true ↔ ∃ w ∈ testNames, c = w.toList := by
  rw [isTestName, List.any_eq_true]
  refine exists_congr fun w => and_congr_right fun _ => ?_
  rw [beq_iff_eq]
  exact eq_comm

theorem isLastTestName_iff {c : Text} : isLastTestName c = true ↔
    ∃ w ∈ testNames, c = w.toList ∨ c = w.toList ++ ['\n'] := by
  rw [isLastTestName, Bool.or_eq_true, Bool.and_eq_true, beq_iff_eq, isTestName_iff, isTestName_iff]
  constructor
  · rintro (⟨w, hw, h⟩ | ⟨hlast, w, hw, h⟩)
    · exact ⟨w, hw, Or.inl h⟩
    · obtain ⟨d, rfl⟩ := List.getLast?_eq_some_iff.mp hlast
      rw [List.dropLast_concat] at h
      exact ⟨w, hw, Or.inr (by rw [h])⟩
  · rintro ⟨w, hw, rfl | rfl⟩
    · exact Or.inl ⟨w, hw, rfl⟩
    · exact Or.inr ⟨by simp, w, hw, by simp⟩

/-- A name that stands where a component opens is found, if a slash or the end follows. The slash in
front of it and the one behind it belong to the piece that fits. -/
theorem foundIn_testFolder {w : String} (hw : w ∈ testNames) {before : Text}
    (hopens : OpensPart '/' before) (last after : Text)
    (hlast : (word "/" ||| ending).Fits (before ++ w.toList) last after) :
    testFolder.FoundIn (before ++ w.toList ++ last ++ after) := by
  have hname : ∀ b a : Text, testName.Fits b w.toList a := fun b a => fits_testName.mpr ⟨w, hw, rfl⟩
  rcases hopens with rfl | ⟨b, rfl⟩
  · exact ⟨[], w.toList ++ last, after, by simp, w.toList, last, rfl,
      ⟨[], w.toList, rfl, Or.inl ⟨rfl, rfl⟩, hname _ _⟩, hlast⟩
  · exact ⟨b, '/' :: w.toList ++ last, after, by simp, '/' :: w.toList, last, rfl,
      ⟨['/'], w.toList, rfl, Or.inr rfl, hname _ _⟩, by simpa using hlast⟩

/-- **A search in the path finds whole components**: one of the names, the last perhaps with a line
feed. -/
theorem foundIn_testFolder_iff {t : Text} : testFolder.FoundIn t ↔
    ∃ w ∈ testNames, w.toList ∈ parts '/' t ∨
      (parts '/' t).getLast? = some (w.toList ++ ['\n']) := by
  constructor
  · rintro ⟨before, piece, after, rfl, _, last, rfl, ⟨first, name, rfl, hfirst, hname⟩, hlast⟩
    obtain ⟨w, hw, rfl⟩ := fits_testName.mp hname
    have hslash := slash_notMem_testNames w hw
    have hopens : OpensPart '/' (before ++ first) := by
      rcases hfirst with ⟨rfl, rfl⟩ | rfl
      · exact Or.inl rfl
      · exact Or.inr ⟨before, rfl⟩
    refine ⟨w, hw, ?_⟩
    rcases hlast with rfl | ⟨rfl, rfl | rfl⟩
    · refine Or.inl (mem_parts_iff.mpr ⟨hslash, before ++ first, '/' :: after, ?_, hopens,
        Or.inr ⟨after, rfl⟩⟩)
      simp
    · refine Or.inl (mem_parts_iff.mpr ⟨hslash, before ++ first, [], ?_, hopens, Or.inl rfl⟩)
      simp
    · refine Or.inr (getLast?_parts_iff.mpr ⟨by simpa using hslash, before ++ first, ?_, hopens⟩)
      simp
  · rintro ⟨w, hw, h | h⟩
    · obtain ⟨-, before, after, rfl, hopens, rfl | ⟨a, rfl⟩⟩ := mem_parts_iff.mp h
      · simpa using foundIn_testFolder hw hopens [] [] (Or.inr ⟨rfl, Or.inl rfl⟩)
      · simpa using foundIn_testFolder hw hopens ['/'] a (Or.inl rfl)
    · obtain ⟨-, before, rfl, hopens⟩ := getLast?_parts_iff.mp h
      simpa using foundIn_testFolder hw hopens [] ['\n'] (Or.inr ⟨rfl, Or.inr rfl⟩)

/-! ### File names -/

theorem startsLikeTest_iff {name : Text} : startsLikeTest name = true ↔ StartsAsTest name := by
  rw [startsLikeTest, List.any_eq_true]
  refine exists_congr fun w => and_congr_right fun _ => ?_
  rw [Bool.and_eq_true, List.isPrefixOf_iff_prefix, Bool.or_eq_true, beq_iff_eq, beq_iff_eq]
  constructor
  · rintro ⟨⟨rest, rfl⟩, hmark⟩
    have hdrop : (w.toList ++ rest).drop w.length = rest := by
      rw [← String.length_toList, List.drop_left]
    rw [hdrop] at hmark
    rcases hmark with hmark | hmark
    · obtain ⟨tail, rfl⟩ := List.head?_eq_some_iff.mp hmark
      exact ⟨'.', Or.inl rfl, tail, by simp⟩
    · obtain ⟨tail, rfl⟩ := List.head?_eq_some_iff.mp hmark
      exact ⟨'-', Or.inr rfl, tail, by simp⟩
  · rintro ⟨mark, hmark, tail, rfl⟩
    have hdrop : (w.toList ++ [mark] ++ tail).drop w.length = mark :: tail := by
      rw [← String.length_toList, List.append_assoc, List.drop_left, List.singleton_append]
    rw [hdrop]
    exact ⟨⟨mark :: tail, by simp⟩, by simpa using hmark⟩

theorem endsLikeTest_iff {name : Text} : endsLikeTest name = true ↔ EndsAsTest name := by
  unfold endsLikeTest
  constructor
  · intro h
    cases hcut : cutLast? '.' name with
    | none => simp [hcut] at h
    | some cut =>
      obtain ⟨before, x⟩ := cut
      obtain ⟨rfl, hpoint⟩ := cutLast?_eq_some_iff.mp hcut
      simp only [hcut, Bool.and_eq_true, Bool.not_eq_true', List.isEmpty_eq_false_iff,
        List.any_cons, List.any_nil, Bool.or_false, Bool.or_eq_true, List.isSuffixOf_iff_suffix]
        at h
      obtain ⟨hx, ⟨b, rfl⟩ | ⟨b, rfl⟩⟩ := h
      · exact ⟨"test", by simp, x, hx, hpoint, b, by simp⟩
      · exact ⟨"spec", by simp, x, hx, hpoint, b, by simp⟩
  · rintro ⟨w, hw, x, hx, hpoint, before, rfl⟩
    have hcut : cutLast? '.' (before ++ ('.' :: w.toList ++ '.' :: x)) =
        some (before ++ '.' :: w.toList, x) :=
      cutLast?_eq_some_iff.mpr ⟨by simp, hpoint⟩
    rw [hcut]
    simp only [List.mem_cons, List.not_mem_nil, or_false] at hw
    rcases hw with rfl | rfl
    · simp [hx]
    · simp [hx]

theorem foundIn_testStart_iff {name : Text} : testStart.FoundIn name ↔ StartsAsTest name := by
  have hwords : ∀ before piece after : Text,
      (word "test" ||| word "example" ||| word "bench").Fits before piece after ↔
        ∃ w ∈ ["test", "example", "bench"], piece = w.toList := by
    intro before piece after
    simp only [fits_either, fits_word, List.mem_cons, List.not_mem_nil, or_false, exists_eq_or_imp,
      exists_eq_left, or_assoc]
  constructor
  · rintro ⟨_, _, after, rfl, _, _, rfl, ⟨_, piece, rfl, ⟨rfl, rfl⟩, hword⟩, mark, hmark, rfl⟩
    obtain ⟨w, hw, rfl⟩ := (hwords _ _ _).mp hword
    exact ⟨w, hw, mark, by simpa using hmark, after, by simp⟩
  · rintro ⟨w, hw, mark, hmark, after, rfl⟩
    exact ⟨[], w.toList ++ [mark], after, by simp, w.toList, [mark], rfl,
      ⟨[], w.toList, rfl, ⟨rfl, rfl⟩, (hwords _ _ _).mpr ⟨w, hw, rfl⟩⟩, mark,
      by simpa using hmark, rfl⟩

theorem foundIn_testEnd_iff {name : Text} : testEnd.FoundIn name ↔ EndsAsTest name := by
  have hwords : ∀ before piece after : Text, (word "test" ||| word "spec").Fits before piece after ↔
      ∃ w ∈ ["test", "spec"], piece = w.toList := by
    intro before piece after
    simp only [fits_either, fits_word, List.mem_cons, List.not_mem_nil, or_false, exists_eq_or_imp,
      exists_eq_left]
  constructor
  · rintro ⟨before, _, after, rfl, _, _, rfl,
      ⟨_, x, rfl, ⟨_, _, rfl, ⟨_, piece, rfl, rfl, hword⟩, rfl⟩, hx, hclass⟩, rfl, hend⟩
    obtain ⟨w, hw, rfl⟩ := (hwords _ _ _).mp hword
    have hpoint : '.' ∉ x := fun h => by simpa using hclass '.' h
    rcases hend with rfl | rfl
    · exact ⟨w, hw, x, hx, hpoint, before, by simp⟩
    · -- a line feed behind the piece belongs to the extension
      exact ⟨w, hw, x ++ ['\n'], by simp, by simpa using hpoint, before, by simp⟩
  · rintro ⟨w, hw, x, hx, hpoint, before, rfl⟩
    have hclass : ∀ c ∈ x, (c != '.') = true :=
      fun c hc => bne_iff_ne.mpr fun heq => hpoint (heq ▸ hc)
    exact ⟨before, '.' :: w.toList ++ '.' :: x, [], by simp, '.' :: w.toList ++ '.' :: x,
      [], by simp, ⟨'.' :: w.toList ++ ['.'], x, by simp, ⟨'.' :: w.toList, ['.'], rfl,
        ⟨['.'], w.toList, rfl, rfl, (hwords _ _ _).mpr ⟨w, hw, rfl⟩⟩, rfl⟩, hx, hclass⟩,
        rfl, Or.inl rfl⟩

/-! ### Paths -/

variable {folders : List Text} {base : Text}

theorem found_iff {t : Text} (h : parts '/' t = folders ++ [base]) :
    testFolder.FoundIn t ∨ testFile.FoundIn base ↔ TestLike folders base := by
  rw [foundIn_testFolder_iff, testFile, foundIn_either, foundIn_testStart_iff, foundIn_testEnd_iff,
    TestLike, h]
  simp

theorem isTestLike_iff_of_parts {path : Text} (h : parts '/' (normal path) = folders ++ [base]) :
    isTestLike path = true ↔ TestLike folders base := by
  have hnames : folders.any isTestName = true ∨ isLastTestName base = true ↔
      ∃ w ∈ testNames, w.toList ∈ folders ++ [base] ∨ base = w.toList ++ ['\n'] := by
    rw [List.any_eq_true, isLastTestName_iff]
    constructor
    · rintro (⟨c, hc, hname⟩ | ⟨w, hw, rfl | hline⟩)
      · obtain ⟨w, hw, rfl⟩ := isTestName_iff.mp hname
        exact ⟨w, hw, Or.inl (List.mem_append_left _ hc)⟩
      · exact ⟨w, hw, Or.inl (by simp)⟩
      · exact ⟨w, hw, Or.inr hline⟩
    · rintro ⟨w, hw, hmem | hline⟩
      · rcases List.mem_append.mp hmem with hmem | hmem
        · exact Or.inl ⟨w.toList, hmem, isTestName_iff.mpr ⟨w, hw, rfl⟩⟩
        · exact Or.inr ⟨w, hw, Or.inl (List.mem_singleton.mp hmem).symm⟩
      · exact Or.inr ⟨w, hw, Or.inr hline⟩
  have hlike : isTestLike path = (folders.any isTestName || isLastTestName base ||
      startsLikeTest base || endsLikeTest base) := by
    unfold normal at h
    unfold isTestLike
    simp [h]
  rw [hlike, Bool.or_eq_true, Bool.or_eq_true, Bool.or_eq_true, hnames, startsLikeTest_iff,
    endsLikeTest_iff, or_assoc, TestLike]

/-- **Test-like paths, in three ways.** A path with slashes for its backslashes, in lower case, has
components without slashes. For these it is the same that the path counts as one of tests, that a
component is one of the names or the last one is made like the name of a test file, and that a
search finds one of the two patterns. -/
theorem isTestLike_tfae (path : Text) : ∃ folders base,
    normal path = ['/'].intercalate (folders ++ [base]) ∧ (∀ c ∈ folders ++ [base], '/' ∉ c) ∧
    [isTestLike path = true, TestLike folders base,
      testFolder.FoundIn (normal path) ∨ testFile.FoundIn base].TFAE := by
  obtain ⟨folders, base, h⟩ : ∃ folders base, parts '/' (normal path) = folders ++ [base] :=
    ⟨_, _, (List.dropLast_concat_getLast (parts_ne_nil '/' (normal path))).symm⟩
  refine ⟨folders, base, ?_, ?_, ?_⟩
  · rw [← h, intercalate_parts]
  · rw [← h]
    exact fun c hc => notMem_of_mem_parts hc
  · tfae_have 1 ↔ 2 := isTestLike_iff_of_parts h
    tfae_have 3 ↔ 2 := found_iff h
    tfae_finish

/-- A name inside a longer one does not count, one behind a line feed does not, one in front of it
does. -/
example :
    isTestLike "src\\Tests\\a.js".toList = true ∧ isTestLike "src/contest/a.js".toList = false ∧
    isTestLike "src/docs\n".toList = true ∧ isTestLike "src/\ndocs".toList = false ∧
    isTestLike "src/a.spec.d.ts".toList = false := by decide +kernel

end Path

end HouseStyle
