import HouseStyle.Proofs.Comment.Groups
import Mathlib.Data.List.SplitBy

/-! # Groups as runs of neighbours

An entry joins a group by its indent, which is compared with that of the first entry, and by its
row, which is compared with that of the last. Since all entries of a group share their indent, the
last entry can stand in for the first one: what decides is a relation between two entries alone
(`Neighbours`, `joins_iff`).

So a group goes on as long as this relation holds (`isChain_takeGroup`) and ends where it fails
(`not_neighbours_takeGroup`). The groups are the runs into which the relation splits the entries
(`groups_eq_splitBy`), and no other way to cut the list has neighbours within groups only and none
across (`groups_eq_iff`). -/

namespace HouseStyle.Comment

variable {lines : List Text} {first last : Entry}

/-- Two entries that belong into one group if they stand next to each other: of one indent, the
second one to four rows below the first, and no blank line strictly between them. -/
structure Neighbours (lines : List Text) (a b : Entry) : Prop where
  indent : b.indent = a.indent
  below : a.row + 1 ≤ b.row
  near : b.row ≤ a.row + 4
  unbroken : ∀ row line, a.row < row → row < b.row → lines[row]? = some line →
    line.isBlankText = false

theorem blankBetween_eq_false_iff {a b : Nat} : blankBetween lines a b = false ↔
    ∀ row line, a < row → row < b → lines[row]? = some line → line.isBlankText = false := by
  have hrow : ∀ i, ((lines.take b).drop (a + 1))[i]? =
      if a + 1 + i < b then lines[a + 1 + i]? else none := by
    intro i
    rw [List.getElem?_drop, List.getElem?_take]
  rw [blankBetween, List.any_eq_false]
  constructor
  · intro h row line hfirst hsecond hline
    obtain ⟨i, rfl⟩ := Nat.exists_eq_add_of_le (Nat.succ_le_of_lt hfirst)
    have hmem : line ∈ (lines.take b).drop (a + 1) :=
      List.mem_iff_getElem?.mpr ⟨i, by rw [hrow, if_pos hsecond, hline]⟩
    simpa using h line hmem
  · intro h line hmem
    obtain ⟨i, hi⟩ := List.mem_iff_getElem?.mp hmem
    rw [hrow, Option.ite_none_right_eq_some] at hi
    simpa using h (a + 1 + i) line (by omega) hi.1 hi.2

/-- **The last entry of a group decides** who joins it, as it has the indent of the first. -/
theorem joins_iff (h : last.indent = first.indent) {e : Entry} :
    joins lines first last e = true ↔ Neighbours lines last e := by
  simp only [joins, Bool.and_eq_true, beq_iff_eq, decide_eq_true_eq, Bool.not_eq_true',
    blankBetween_eq_false_iff]
  constructor
  · rintro ⟨⟨⟨hindent, hbelow⟩, hnear⟩, hblank⟩
    exact ⟨hindent.trans h.symm, hbelow, hnear, hblank⟩
  · rintro ⟨hindent, hbelow, hnear, hblank⟩
    exact ⟨⟨⟨hindent.trans h, hbelow⟩, hnear⟩, hblank⟩

instance (a b : Entry) : Decidable (Neighbours lines a b) := decidable_of_iff _ (joins_iff rfl)

/-! ### One group -/

theorem isChain_takeGroup : ∀ (es : List Entry) {last : Entry}, last.indent = first.indent →
    (last :: (takeGroup lines first last es).1).IsChain (Neighbours lines)
  | [], last, _ => List.isChain_singleton last
  | e :: es, last, h => by
    rw [takeGroup]
    split_ifs with he
    · have hnext := (joins_iff h).mp he
      exact List.isChain_cons_cons.mpr ⟨hnext, isChain_takeGroup es (hnext.indent.trans h)⟩
    · exact List.isChain_singleton last

theorem not_neighbours_takeGroup : ∀ (es : List Entry) {last : Entry}, last.indent = first.indent →
    ∀ a ∈ (last :: (takeGroup lines first last es).1).getLast?,
      ∀ b ∈ (takeGroup lines first last es).2.head?,
      ¬ Neighbours lines a b
  | [], _, _ => by simp [takeGroup]
  | e :: es, last, h => by
    rw [takeGroup]
    split_ifs with he
    · have hnext := (joins_iff h).mp he
      rw [List.getLast?_cons_cons]
      exact not_neighbours_takeGroup es (hnext.indent.trans h)
    · simpa using mt (joins_iff h).mpr he

/-! ### All groups -/

/-- **Groups are runs of neighbours.** -/
theorem groups_eq_splitBy (es : List Entry) :
    groups lines es = es.splitBy fun a b => decide (Neighbours lines a b) := by
  induction es using groups.induct lines with
  | case1 => rw [groups, List.splitBy_nil]
  | case2 e es r ih =>
    have hgroup : (e :: r.1).splitBy (fun a b => decide (Neighbours lines a b)) = [e :: r.1] :=
      List.splitBy_of_isChain (List.cons_ne_nil _ _) (by simpa using isChain_takeGroup es rfl)
    have hend : ∀ a ∈ (e :: r.1).getLast?, ∀ b ∈ r.2.head?, decide (Neighbours lines a b) = false :=
      fun a ha b hb => decide_eq_false (not_neighbours_takeGroup es rfl a ha b hb)
    have hes : e :: es = (e :: r.1) ++ r.2 := by rw [List.cons_append, takeGroup_append]
    rw [groups, ih]
    conv => rhs; rw [hes, List.splitBy_append hend, hgroup]
    rfl

/-- **The groups are the one split of the entries into runs of neighbours**: no group is empty,
together they are the entries in their order, within a group every two entries next to each other
are neighbours, and the last entry of a group is no neighbour of the first entry of the next. -/
theorem groups_eq_iff (lines : List Text) (es : List Entry) (gs : List (List Entry)) :
    groups lines es = gs ↔ [] ∉ gs ∧ gs.flatten = es ∧ (∀ g ∈ gs, g.IsChain (Neighbours lines)) ∧
      gs.IsChain fun g h => ∃ hg hh, ¬ Neighbours lines (g.getLast hg) (h.head hh) := by
  rw [groups_eq_splitBy, List.splitBy_eq_iff]
  simp only [decide_eq_true_eq, decide_eq_false_iff_not]
  constructor
  · rintro ⟨rfl, hnil, hwithin, hacross⟩
    exact ⟨hnil, rfl, hwithin, hacross⟩
  · rintro ⟨hnil, rfl, hwithin, hacross⟩
    exact ⟨rfl, hnil, hwithin, hacross⟩

end HouseStyle.Comment
