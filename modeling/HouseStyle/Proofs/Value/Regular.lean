import HouseStyle.Proofs.Number.Representable
import HouseStyle.Value.Json

/-! # Values that are read

As a type, `Value` holds objects in which a name stands twice, and numbers that are not on their
grid. A value that was read from a text is free of both, at any depth: it is `Regular`. A field is
put in the place of an earlier one of its name, so names stay apart (`Fields.nodup_set`), and a
numeral is rounded. The three readers call each other, so this is one induction on their common
bound (`readsRegular`), from which it follows for a whole text (`regular_ofJson?`). -/

namespace HouseStyle.Value

/-! ### Names that stand once -/

namespace Fields

variable {fs : Fields} {name : String} {v : Value}

theorem any_name_iff : fs.any (·.1 == name) = true ↔ name ∈ fs.map (·.1) := by
  simp only [List.any_eq_true, beq_iff_eq, List.mem_map]

theorem names_set_of_mem (h : name ∈ fs.map (·.1)) : (fs.set name v).map (·.1) = fs.map (·.1) := by
  rw [set, if_pos (any_name_iff.mpr h), List.map_map]
  refine List.map_congr_left fun f _ => ?_
  by_cases hf : f.1 = name
  · simp [hf]
  · simp [hf]

theorem set_of_notMem (h : name ∉ fs.map (·.1)) : fs.set name v = fs ++ [(name, v)] :=
  if_neg fun hany => h (any_name_iff.mp hany)

/-- **Names stay apart** when a value is put under one of them, or under a new one. -/
theorem nodup_set (hfs : (fs.map (·.1)).Nodup) : ((fs.set name v).map (·.1)).Nodup := by
  by_cases h : name ∈ fs.map (·.1)
  · rw [names_set_of_mem h]
    exact hfs
  · rw [set_of_notMem h, List.map_append, List.nodup_append]
    refine ⟨hfs, List.pairwise_singleton _ _, fun k hk k' hk' heq => h ?_⟩
    obtain rfl : k' = name := List.mem_singleton.mp hk'
    exact heq ▸ hk

theorem mem_set {f : String × Value} (h : f ∈ fs.set name v) : f ∈ fs ∨ f = (name, v) := by
  unfold set at h
  split_ifs at h
  · obtain ⟨g, hg, rfl⟩ := List.mem_map.mp h
    split_ifs
    · exact Or.inr rfl
    · exact Or.inl hg
  · rcases List.mem_append.mp h with h | h
    · exact Or.inl h
    · exact Or.inr (List.mem_singleton.mp h)

end Fields

/-! ### Regular values -/

/-- A value in which no object has a name twice and every floating-point number is on its grid. -/
inductive Regular : Value → Prop
  | null : Regular null
  | bool (b : Bool) : Regular (bool b)
  | int (n : Int) : Regular (int n)
  | float {x : Double} (h : x.Representable) : Regular (float x)
  | str (s : String) : Regular (str s)
  | list {items : List Value} (h : ∀ v ∈ items, Regular v) : Regular (list items)
  | object {fields : Fields} (names : (fields.map (·.1)).Nodup) (h : ∀ f ∈ fields, Regular f.2) :
    Regular (object fields)

theorem regular_set {fs : Fields} {v : Value} (hfs : (object fs).Regular) (name : String)
    (hv : v.Regular) : (object (fs.set name v)).Regular := by
  cases hfs with
  | object names h =>
    refine .object (Fields.nodup_set names) fun f hf => ?_
    rcases Fields.mem_set hf with hf | rfl
    · exact h f hf
    · exact hv

theorem regular_readNumber? {negative : Bool} {t : Text} {r : Value × Text}
    (h : readNumber? negative t = some r) : r.1.Regular := by
  unfold readNumber? at h
  dsimp only at h
  split_ifs at h
  · cases h
    exact .int _
  · cases h
    exact .int _
  · obtain ⟨x, hx, rfl⟩ := Option.map_eq_some_iff.mp h
    exact .float (Double.representable_readNumeral? hx).neg
  · obtain ⟨x, hx, rfl⟩ := Option.map_eq_some_iff.mp h
    exact .float (Double.representable_readNumeral? hx)

theorem regular_readWord? {t : Text} {r : Value × Text} (h : readWord? t = some r) :
    r.1.Regular := by
  unfold readWord? at h
  obtain ⟨w, hw, h⟩ := List.exists_of_findSome?_eq_some h
  dsimp only at h
  split_ifs at h
  cases h
  have hspecial : ∀ x : Double, x.toRat = 0 → (Value.float x).Regular := fun x hx =>
    .float (Double.representable_of_toRat_eq_zero hx)
  simp only [List.mem_cons, List.not_mem_nil, or_false] at hw
  obtain rfl | rfl | rfl | rfl | rfl | rfl := hw
  · exact .null
  · exact .bool true
  · exact .bool false
  · exact hspecial _ rfl
  · exact hspecial _ rfl
  · exact hspecial _ rfl

/-! ### The readers -/

/-- What is read within a bound is regular: a value, a list from regular items so far, and an object
from fields so far that make a regular one. -/
structure ReadsRegular (fuel : ℕ) : Prop where
  value : ∀ {t r}, readValue? fuel t = some r → r.1.Regular
  items : ∀ {acc t r}, (∀ v ∈ acc, v.Regular) → readItems? fuel acc t = some r → r.1.Regular
  fields : ∀ {acc t r}, (object acc).Regular → readFields? fuel acc t = some r → r.1.Regular

namespace ReadsRegular

variable {fuel : ℕ} (hfuel : ReadsRegular fuel) {t : Text} {r : Value × Text}
include hfuel

theorem value_succ (h : readValue? (fuel + 1) t = some r) : r.1.Regular := by
  have hnone : (object []).Regular := .object List.nodup_nil (by simp)
  unfold readValue? at h
  split at h
  · cases h
  · obtain ⟨s, -, rfl⟩ := Option.map_eq_some_iff.mp h
    exact .str _
  · split at h
    · cases h
      exact .list (by simp)
    · exact hfuel.items (by simp) h
  · split at h
    · cases h
      exact hnone
    · exact hfuel.fields hnone h
  · split at h
    · next hword =>
      cases h
      exact regular_readWord? hword
    · split_ifs at h
      · exact regular_readNumber? h
      · exact regular_readNumber? h

theorem items_succ {acc : List Value} (hacc : ∀ v ∈ acc, v.Regular)
    (h : readItems? (fuel + 1) acc t = some r) : r.1.Regular := by
  unfold readItems? at h
  split at h
  · cases h
  · next v rest hv =>
    have hmore : ∀ w ∈ v :: acc, w.Regular := List.forall_mem_cons.mpr ⟨hfuel.value hv, hacc⟩
    split at h
    · cases h
      exact .list fun w hw => hmore w (List.mem_reverse.mp hw)
    · exact hfuel.items hmore h
    · cases h

theorem fields_succ {acc : Fields} (hacc : (object acc).Regular)
    (h : readFields? (fuel + 1) acc t = some r) : r.1.Regular := by
  unfold readFields? at h
  split at h
  · split at h
    · cases h
    · split at h
      · split at h
        · cases h
        · next hv =>
          have hmore := fun name => regular_set hacc name (hfuel.value hv)
          dsimp only at h
          split at h
          · cases h
            exact hmore _
          · exact hfuel.fields (hmore _) h
          · cases h
      · cases h
  · cases h

end ReadsRegular

theorem readsRegular (fuel : ℕ) : ReadsRegular fuel := by
  induction fuel with
  | zero => exact ⟨by simp [readValue?], by simp [readItems?], by simp [readFields?]⟩
  | succ fuel ih => exact ⟨ih.value_succ, ih.items_succ, ih.fields_succ⟩

/-- **What is read from a text is regular.** -/
theorem regular_ofJson? {t : Text} {v : Value} (h : ofJson? t = some v) : v.Regular := by
  unfold ofJson? at h
  split at h
  · next w rest hread =>
    split_ifs at h
    cases h
    exact (readsRegular _).value hread
  · cases h

end HouseStyle.Value
