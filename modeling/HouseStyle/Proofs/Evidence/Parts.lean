import HouseStyle.Proofs.Evidence.Aggregation
import HouseStyle.Proofs.Evidence.Coherence

/-! # Merging in parts

A merged histogram has rising widths (`rising_merge`). They are the widths that were recorded, and
with each of them stands the sum of all counts recorded for it (`mem_merge_iff`). A histogram with
rising widths is known by its entries (`eq_of_rising`), and the sums of parts add up to the sum of
all, so histograms that were merged in parts are merged into the same one (`merge_flatMap_merge`).

Counters and the longest line are sums and maxima, and so the signals of parts merge into those of
all files (`aggregate_flatten`). -/

namespace HouseStyle

namespace Histogram

/-- A histogram with rising widths. -/
def Rising (h : Histogram) : Prop := h.Pairwise fun e e' => e.1 < e'.1

/-- The sum of all counts of a width. -/
def total (ps : List (Int × Int)) (w : Int) : Int := ((ps.filter (·.1 = w)).map (·.2)).sum

/-! ### Sums of counts -/

@[simp] theorem total_nil (w : Int) : total [] w = 0 := rfl

theorem total_cons (p : Int × Int) (ps : List (Int × Int)) (w : Int) :
    total (p :: ps) w = (if p.1 = w then p.2 else 0) + total ps w := by
  unfold total
  by_cases h : p.1 = w
  · simp [h]
  · simp [h]

theorem total_append (ps qs : List (Int × Int)) (w : Int) :
    total (ps ++ qs) w = total ps w + total qs w := by
  rw [total, List.filter_append, List.map_append, List.sum_append, total, total]

theorem total_flatMap {α : Type} (f : α → List (Int × Int)) (xs : List α) (w : Int) :
    total (xs.flatMap f) w = (xs.map fun x => total (f x) w).sum := by
  induction xs with
  | nil => rfl
  | cons x xs ih => rw [List.flatMap_cons, total_append, ih, List.map_cons, List.sum_cons]

theorem total_eq_zero {ps : List (Int × Int)} {w : Int} (h : w ∉ ps.map (·.1)) :
    total ps w = 0 := by
  have hnone : ps.filter (·.1 = w) = [] := by
    refine List.filter_eq_nil_iff.mpr fun p hp heq => h ?_
    rw [← of_decide_eq_true heq]
    exact List.mem_map_of_mem hp
  rw [total, hnone]
  rfl

theorem total_bump (w n v : Int) :
    ∀ h : Histogram, total (bump w n h) v = total h v + if w = v then n else 0
  | [] => by rw [bump, total_cons, add_comm]
  | e :: h => by
    rw [bump]
    split
    · rw [total_cons, add_comm]
    · split
      · rename_i heq
        rw [total_cons, total_cons, heq]
        split_ifs
        · omega
        · omega
      · rw [total_cons, total_cons, total_bump w n v h, add_assoc]

theorem mem_widths_bump {w n v : Int} : ∀ {h : Histogram}, v ∈ (bump w n h).map (·.1) ↔
    v = w ∨ v ∈ h.map (·.1)
  | [] => by simp [bump]
  | e :: h => by
    have ih := mem_widths_bump (w := w) (n := n) (v := v) (h := h)
    rw [bump]
    grind

/-! ### Merged histograms -/

theorem rising_merge (ps : List (Int × Int)) : (merge ps).Rising := by
  induction ps using List.reverseRecOn with
  | nil => exact List.Pairwise.nil
  | append_singleton ps p ih =>
    rw [merge_concat]
    exact rising_bump ih

theorem total_merge (ps : List (Int × Int)) (w : Int) : total (merge ps) w = total ps w := by
  induction ps using List.reverseRecOn with
  | nil => rfl
  | append_singleton ps p ih =>
    rw [merge_concat, total_bump, ih, total_append, total_cons, total_nil, add_zero]

theorem mem_widths_merge {ps : List (Int × Int)} {w : Int} :
    w ∈ (merge ps).map (·.1) ↔ w ∈ ps.map (·.1) := by
  induction ps using List.reverseRecOn with
  | nil => rfl
  | append_singleton ps p ih =>
    rw [merge_concat, mem_widths_bump, ih, List.map_append, List.mem_append, or_comm,
      List.map_singleton, List.mem_singleton]

/-- **With rising widths** an entry is a width and the sum of its counts. -/
theorem Rising.mem_iff : ∀ {h : Histogram}, h.Rising → ∀ {w n : Int},
    (w, n) ∈ h ↔ w ∈ h.map (·.1) ∧ n = total h w
  | [], _, w, n => by simp
  | e :: h, hrise, w, n => by
    obtain ⟨hfirst, hrest⟩ := List.pairwise_cons.mp hrise
    rw [List.mem_cons, List.map_cons, List.mem_cons, Rising.mem_iff hrest, total_cons]
    by_cases hw : e.1 = w
    · -- the width stands here, hence not further behind
      have hout : w ∉ h.map (·.1) := fun hmem => by
        obtain ⟨e', he', heq⟩ := List.mem_map.mp hmem
        have := hfirst e' he'
        omega
      rw [if_pos hw, total_eq_zero hout, Prod.ext_iff]
      simp [hout, hw]
    · have hne : (w, n) ≠ e := fun heq => hw (congrArg Prod.fst heq).symm
      have hne' : w ≠ e.1 := Ne.symm hw
      rw [if_neg hw, zero_add, or_iff_right hne, or_iff_right hne']

/-- **The entries of a merged histogram**: the widths that were recorded, each with the sum of all
its counts. -/
theorem mem_merge_iff {ps : List (Int × Int)} {w n : Int} :
    (w, n) ∈ merge ps ↔ w ∈ ps.map (·.1) ∧ n = total ps w := by
  rw [(rising_merge ps).mem_iff, mem_widths_merge, total_merge]

theorem eq_of_rising {h h' : Histogram} (hh : h.Rising) (hh' : h'.Rising)
    (hmem : ∀ e, e ∈ h ↔ e ∈ h') : h = h' := by
  have hnodup : h.Nodup := hh.imp fun hlt heq => by rw [heq] at hlt; exact lt_irrefl _ hlt
  have hnodup' : h'.Nodup := hh'.imp fun hlt heq => by rw [heq] at hlt; exact lt_irrefl _ hlt
  have hperm : h.Perm h' := (List.perm_ext_iff_of_nodup hnodup hnodup').mpr hmem
  exact hperm.eq_of_pairwise (fun e e' _ _ hlt hgt => absurd hlt (not_lt.mpr hgt.le)) hh hh'

/-- **Histograms merged in parts** give the histogram of all. -/
theorem merge_flatMap_merge {α : Type} (f : α → List (Int × Int)) (xs : List α) :
    merge (xs.flatMap fun x => merge (f x)) = merge (xs.flatMap f) := by
  refine eq_of_rising (rising_merge _) (rising_merge _) fun e => ?_
  have hwidths : e.1 ∈ (xs.flatMap fun x => merge (f x)).map (·.1) ↔
      e.1 ∈ (xs.flatMap f).map (·.1) := by
    rw [List.map_flatMap, List.map_flatMap, List.mem_flatMap, List.mem_flatMap]
    simp only [mem_widths_merge]
  rw [mem_merge_iff, mem_merge_iff, hwidths, total_flatMap, total_flatMap]
  simp only [total_merge]

theorem Rising.latest_eq {h : Histogram} (hh : h.Rising) : latest h = h := by
  induction h using List.reverseRecOn with
  | nil => rfl
  | append_singleton h e ih =>
    obtain ⟨hrise, -, hlast⟩ := List.pairwise_append.mp hh
    have hkept : h.filter (·.1 ≠ e.1) = h := List.filter_eq_self.mpr fun e' he' =>
      decide_eq_true (hlast e' he' e List.mem_cons_self).ne
    have hstep : latest (h ++ [e]) = (latest h).filter (·.1 ≠ e.1) ++ [e] := List.foldl_append
    rw [hstep, ih hrise, hkept]

end Histogram

namespace Signals

open Histogram (Rising total latest)

/-! ### Merged signals -/

theorem count_aggregate_flatten (parts : List (List Signals)) (c : Counter) :
    (aggregate (parts.map fun xs => (aggregate xs).signals)).signals.count c =
      (aggregate parts.flatten).signals.count c := by
  rw [count_aggregate, count_aggregate, List.map_flatten, List.sum_flatten, List.map_map,
    List.map_map]
  rfl

theorem longestLine_aggregate_flatten (parts : List (List Signals)) :
    (aggregate (parts.map fun xs => (aggregate xs).signals)).signals.longestLine =
      (aggregate parts.flatten).signals.longestLine := by
  refine eq_of_forall_ge_iff fun b => ?_
  by_cases hb : 0 ≤ b
  · rw [longestLine_aggregate_le_iff hb, longestLine_aggregate_le_iff hb, List.forall_mem_map]
    simp only [longestLine_aggregate_le_iff hb, List.mem_flatten]
    exact ⟨fun h r ⟨xs, hxs, hr⟩ => h xs hxs r hr, fun h xs hxs r hr => h r ⟨xs, hxs, hr⟩⟩
  · have hnone : ∀ rs : List Signals, ¬ (aggregate rs).signals.longestLine ≤ b := fun rs h =>
      hb ((longestLine_aggregate_nonneg rs).trans h)
    exact iff_of_false (hnone _) (hnone _)

/-- **The signals of parts merge into those of all files**, however many parts there are. -/
theorem aggregate_flatten (parts : List (List Signals)) :
    (aggregate (parts.map fun xs => (aggregate xs).signals)).signals =
      (aggregate parts.flatten).signals := by
  have hcount := funext (count_aggregate_flatten parts)
  have hlongest := longestLine_aggregate_flatten parts
  have hsizes : (aggregate (parts.map fun xs => (aggregate xs).signals)).signals.indentSizes =
      (aggregate parts.flatten).signals.indentSizes := by
    have hparts :=
      Histogram.merge_flatMap_merge (fun xs : List Signals => xs.flatMap (·.indentSizes)) parts
    have hall : parts.flatten.flatMap (·.indentSizes) = parts.flatMap fun xs =>
        xs.flatMap (·.indentSizes) := by
      rw [← List.flatMap_id, List.flatMap_assoc]
      rfl
    simpa only [aggregate, List.flatMap_map, hall] using hparts
  exact (Signals.mk.injEq ..).mpr ⟨hcount, hlongest, hsizes⟩

/-- **Merging can be done in any order and in parts.** Files in another order have the same totals.
The merged signals of two lists of files merge into those of all files, and only the number of files
is lost. The histogram has rising widths, so that each has one count: the widths that some file
recorded, each with the sum of all counts recorded for it, also where one file recorded it several
times. -/
theorem aggregate_in_parts (xs ys : List Signals) :
    (∀ zs, zs.Perm xs → aggregate zs = aggregate xs) ∧
    (aggregate [(aggregate xs).signals, (aggregate ys).signals]).signals =
      (aggregate (xs ++ ys)).signals ∧
    (aggregate [(aggregate xs).signals, (aggregate ys).signals]).fileCount = 2 ∧
    (aggregate (xs ++ ys)).fileCount = (aggregate xs).fileCount + (aggregate ys).fileCount ∧
    Rising (aggregate xs).signals.indentSizes ∧
    latest (aggregate xs).signals.indentSizes = (aggregate xs).signals.indentSizes ∧
    ∀ w n, (w, n) ∈ (aggregate xs).signals.indentSizes ↔
      (∃ r ∈ xs, ∃ m, (w, m) ∈ r.indentSizes) ∧
        n = (xs.map fun r => total r.indentSizes w).sum := by
  have hrise : Rising (aggregate xs).signals.indentSizes := Histogram.rising_merge _
  refine ⟨fun zs hperm => aggregate_perm hperm, ?_, rfl, ?_, hrise, hrise.latest_eq, fun w n => ?_⟩
  · have hparts := aggregate_flatten [xs, ys]
    rwa [List.flatten_cons, List.flatten_singleton] at hparts
  · simp only [aggregate, List.length_append]
    push_cast
    rfl
  · have hmem : w ∈ (xs.flatMap (·.indentSizes)).map (·.1) ↔
        ∃ r ∈ xs, ∃ m, (w, m) ∈ r.indentSizes := by
      rw [List.map_flatMap, List.mem_flatMap]
      simp
    rw [← hmem, ← Histogram.total_flatMap]
    exact Histogram.mem_merge_iff

end Signals

end HouseStyle
