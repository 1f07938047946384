import HouseStyle.Comment.Trailing
import HouseStyle.Proofs.Restyle.WithinLines

/-! # Entries and their groups

The entry of a line comment depends on its row and on what stands before it (`entryOf?_eq`). With
other blanks behind the code only its gap and its column change (`entryAt?_append`). Groups share
out the entries in order (`flatten_groups`) and look at rows, indents and blank lines only, so
entries that agree in these are grouped alike (`forall₂_groups`). -/

namespace HouseStyle

open HouseStyle.Text

namespace Comment

theorem lineBody?_isSome_iff {t : Text} :
    (lineBody? t).isSome = true ↔ ∃ body, t = '/' :: '/' :: body := by
  rw [Option.isSome_iff_exists]
  exact exists_congr fun _ => lineBody?_eq_some_iff

/-- An entry with another gap, and at the column that this brings it to. -/
def Entry.withGap (e : Entry) (gap : Nat) : Entry :=
  { e with column := e.codeLength + gap, gap := gap }

/-- The entry of a line comment, from its row and from what stands before it. -/
def entryAt? (row : Nat) (before : Text) : Option Entry :=
  if before.trimRight ≠ [] ∧ before.trimRight.length < before.length ∧
      isAlignable before.trimRight = true then
    some ⟨row, before.length, before.length - before.trimRight.length, before.trimRight.length,
      before.length - before.trimLeft.length⟩
  else none

theorem entryOf?_eq {s : Source} {n : Node} (hn : s.start n ≤ s.text.length) :
    entryOf? s n =
      if (lineBody? (s.nodeText n)).isSome then entryAt? (s.row n) (s.beforeNode n) else none := by
  have hcolumn := s.column_eq_length hn
  rw [entryOf?, entryAt?, hcolumn]
  cases hbody : lineBody? (s.nodeText n) with
  | none => rfl
  | some body =>
    have hshort : (s.beforeNode n).length < 1 → (s.beforeNode n).trimRight = [] := fun h =>
      List.length_eq_zero_iff.mp (by have := trimRight_length_le (s.beforeNode n); omega)
    simp only [Option.isNone_some, Option.isSome_some, Bool.false_eq_true, if_false, if_true,
      List.isEmpty_iff]
    by_cases hcode : (s.beforeNode n).trimRight = []
    · rw [if_pos (Or.inr hcode), if_neg fun h => h.1 hcode]
    · rw [if_neg fun h => hcode (h.elim hshort id)]
      by_cases hal : isAlignable (s.beforeNode n).trimRight = true
      · by_cases hlt : (s.beforeNode n).trimRight.length < (s.beforeNode n).length
        · rw [if_neg (by simp only [hal, Bool.not_true, Bool.false_eq_true, or_false]; omega),
            if_pos ⟨hcode, hlt, hal⟩]
        · rw [if_pos (Or.inl (by omega)), if_neg fun h => hlt h.2.1]
      · rw [if_pos (Or.inr (by simpa using hal)), if_neg fun h => hal h.2.2]

theorem entryAt?_eq_some_iff {row : Nat} {before : Text} {e : Entry} :
    entryAt? row before = some e ↔
      (before.trimRight ≠ [] ∧ before.trimRight.length < before.length ∧
        isAlignable before.trimRight = true) ∧
      ⟨row, before.length, before.length - before.trimRight.length, before.trimRight.length,
        before.length - before.trimLeft.length⟩ = e := by
  rw [entryAt?, Option.ite_none_right_eq_some, Option.some.injEq]

/-- **Another gap, another entry**: only the gap and the column change. -/
theorem entryAt?_append {row : Nat} {before gap : Text} {e : Entry}
    (h : entryAt? row before = some e) (hblank : gap.isBlankText = true) (hgap : gap ≠ []) :
    entryAt? row (before.trimRight ++ gap) = some (e.withGap gap.length) := by
  obtain ⟨⟨hcode, -, hal⟩, rfl⟩ := entryAt?_eq_some_iff.mp h
  have htrim : (before.trimRight ++ gap).trimRight = before.trimRight := by
    rw [trimRight_append_of_blank _ hblank, trimRight_trimRight]
  have hsolid := isBlankText_trimRight hcode
  have hpos : 0 < gap.length := List.length_pos_iff.mpr hgap
  -- the first blanks are those of the code
  have hindent : ∀ u, (before.trimRight ++ u).length - (before.trimRight ++ u).trimLeft.length =
      before.trimRight.length - before.trimRight.trimLeft.length := by
    intro u
    rw [trimLeft_append_of_solid hsolid, List.length_append, List.length_append]
    omega
  have hbefore := hindent (before.reverse.takeWhile isBlank).reverse
  rw [trimRight_append_blanks] at hbefore
  refine entryAt?_eq_some_iff.mpr ⟨⟨by rwa [htrim], ?_, by rwa [htrim]⟩, ?_⟩
  · rw [htrim, List.length_append]
    omega
  · rw [htrim, hindent, ← hbefore, List.length_append, Entry.withGap, Nat.add_sub_cancel_left]

/-! ### Groups -/

theorem takeGroup_append (lines : List Text) (first : Entry) : ∀ (es : List Entry) (last : Entry),
    (takeGroup lines first last es).1 ++ (takeGroup lines first last es).2 = es
  | [], _ => rfl
  | e :: es, last => by
    rw [takeGroup]
    split_ifs
    · exact congrArg (e :: ·) (takeGroup_append lines first es e)
    · rfl

/-- **Every entry is in one group**, and groups keep the order. -/
theorem flatten_groups (lines : List Text) (es : List Entry) : (groups lines es).flatten = es := by
  induction es using groups.induct lines with
  | case1 => simp [groups]
  | case2 e es r ih =>
    rw [groups, List.flatten_cons, ih, List.cons_append, takeGroup_append]

section Forall₂
variable {lines lines' : List Text}
  (hblank : ∀ a b, blankBetween lines' a b = blankBetween lines a b)
  {S : Entry → Entry → Prop} (hS : ∀ e e', S e e' → e'.row = e.row ∧ e'.indent = e.indent)
include hblank hS

theorem joins_eq {first last e first' last' e' : Entry} (hfirst : S first first')
    (hlast : S last last') (he : S e e') :
    joins lines' first' last' e' = joins lines first last e := by
  rw [joins, joins, (hS _ _ hfirst).2, (hS _ _ hlast).1, (hS _ _ he).1, (hS _ _ he).2, hblank]

theorem forall₂_takeGroup {first first' : Entry} (hfirst : S first first') {es es' : List Entry}
    (h : List.Forall₂ S es es') : ∀ {last last' : Entry}, S last last' →
    List.Forall₂ S (takeGroup lines first last es).1 (takeGroup lines' first' last' es').1 ∧
      List.Forall₂ S (takeGroup lines first last es).2 (takeGroup lines' first' last' es').2 := by
  induction h with
  | nil => exact fun _ => ⟨.nil, .nil⟩
  | cons he hes ih =>
    intro last last' hlast
    rw [takeGroup, takeGroup, joins_eq hblank hS hfirst hlast he]
    split_ifs
    · exact ⟨.cons he (ih he).1, (ih he).2⟩
    · exact ⟨.nil, .cons he hes⟩

/-- **Groups depend on rows and indents only**, and on which lines are blank. -/
theorem forall₂_groups : ∀ {es es' : List Entry}, List.Forall₂ S es es' →
    List.Forall₂ (List.Forall₂ S) (groups lines es) (groups lines' es')
  | [], _, .nil => by
    rw [groups, groups]
    exact .nil
  | e :: es, e' :: es', .cons he hes => by
    obtain ⟨hfront, hrest⟩ := forall₂_takeGroup hblank hS he hes he
    rw [groups, groups]
    exact .cons (.cons he hfront) (forall₂_groups hrest)
termination_by es => es.length
decreasing_by
  have := length_takeGroup lines e es e
  simp only [List.length_cons]
  omega

end Forall₂

end Comment

end HouseStyle
