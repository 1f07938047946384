import HouseStyle.Proofs.Edit.Piecewise
import Mathlib.Data.List.Pairwise

/-! # Where offsets go

Replacements that lie apart from each other are all carried out (`mem_taken_of_apart`). Each of them
moves what stands behind it by its growth, so an offset outside their ranges goes to itself plus the
growth of those before it. An insertion at the offset counts for what starts there (`startAfter`)
and not for what ends there (`stopAfter`).

`edited` is what becomes of the text before an offset. The result up to a later offset is `edited`
followed by what the source has between the two, if nothing is replaced there (`take_apply_kept`),
or by the text of a replacement, if the two are its ends (`take_apply_put`). Hence slices of the
result are known: those between replacements are slices of the source (`slice_apply_kept`), the
others are the texts of replacements (`slice_apply_put`). -/

namespace HouseStyle.Replacement

variable {source : Text} {rs : List Replacement}

theorem apply_nil (source : Text) : apply source [] = source := by
  simp [apply, taken, candidates, keep, splice]

/-! ### Replacements that lie apart -/

/-- One replacement before another: it starts earlier, and ends no later than the other starts. -/
def Before (r r' : Replacement) : Prop := r.start < r'.start ∧ r.stop ≤ r'.start

/-- Replacements from the last to the first, each before those in front of it. -/
def Descending (rs : List Replacement) : Prop := rs.Pairwise fun r r' => r'.Before r

theorem Descending.eq_or_before (h : Descending rs) {r r' : Replacement} (hr : r ∈ rs)
    (hr' : r' ∈ rs) : r = r' ∨ r.Before r' ∨ r'.Before r := by
  have hsymm : Std.Symm fun r r' : Replacement => r.Before r' ∨ r'.Before r := ⟨fun _ _ => Or.symm⟩
  have hall : rs.Pairwise fun r r' => r.Before r' ∨ r'.Before r := h.imp Or.inr
  by_cases heq : r = r'
  · exact Or.inl heq
  · exact Or.inr (hall.forall hr hr' heq)

theorem descending_keep : ∀ (rs : List Replacement) (limit : Int), (∀ r ∈ rs, r.start ≤ r.stop) →
    Descending (keep limit rs) ∧ ∀ r ∈ keep limit rs, r.start < limit ∧ r.stop ≤ limit
  | [], _, _ => ⟨List.Pairwise.nil, by simp [keep]⟩
  | r :: rs, limit, h => by
    have hrs := fun r' hr' => h r' (List.mem_cons_of_mem r hr')
    rw [keep]
    split_ifs with hcol
    · exact descending_keep rs limit hrs
    · have hr := h r List.mem_cons_self
      simp only [collides, Bool.or_eq_true, Bool.and_eq_true, decide_eq_true_eq, beq_iff_eq] at hcol
      have hlim : r.start < limit ∧ r.stop ≤ limit := by omega
      obtain ⟨hdesc, hbound⟩ := descending_keep rs r.start hrs
      refine ⟨List.pairwise_cons.mpr ⟨hbound, hdesc⟩, fun r' hr' => ?_⟩
      rcases List.mem_cons.mp hr' with rfl | hr'
      · exact hlim
      · have := hbound r' hr'
        omega

theorem keep_of_descending : ∀ {rs : List Replacement} {limit : Int}, Descending rs →
    (∀ r ∈ rs, r.start < limit ∧ r.stop ≤ limit) → keep limit rs = rs
  | [], _, _, _ => rfl
  | r :: rs, limit, hdesc, h => by
    obtain ⟨hfirst, hrest⟩ := List.pairwise_cons.mp hdesc
    have hr := h r List.mem_cons_self
    have hcol : ¬ r.collides limit = true := by
      simp only [collides, Bool.or_eq_true, Bool.and_eq_true, decide_eq_true_eq, beq_iff_eq]
      omega
    rw [keep, if_neg hcol, keep_of_descending hrest hfirst]

theorem nodup_eraseDups : ∀ rs : List Replacement, rs.eraseDups.Nodup
  | [] => by simp
  | r :: rs => by
    rw [List.eraseDups_cons, List.nodup_cons]
    exact ⟨by simp, nodup_eraseDups _⟩
termination_by rs => rs.length
decreasing_by
  have := List.length_filter_le (fun r' => !r' == r) rs
  simp only [List.length_cons]
  omega

theorem nodup_candidates (source : Text) (rs : List Replacement) : (candidates source rs).Nodup :=
  (List.mergeSort_perm _ _).nodup_iff.mpr (nodup_eraseDups _)

theorem isEffective_of_mem_taken {r : Replacement} (h : r ∈ taken source rs) :
    r ∈ rs ∧ r.isEffective source = true := by
  have hsub : ∀ (l : List Replacement) (limit : Int), r ∈ keep limit l → r ∈ l := by
    intro l
    induction l with
    | nil => exact fun _ h => h
    | cons r' l ih =>
      intro limit h
      rw [keep] at h
      split_ifs at h
      · exact List.mem_cons_of_mem _ (ih limit h)
      · rcases List.mem_cons.mp h with rfl | h
        · exact List.mem_cons_self
        · exact List.mem_cons_of_mem _ (ih _ h)
  exact mem_candidates.mp (hsub _ _ h)

theorem descending_taken (source : Text) (rs : List Replacement) :
    Descending (taken source rs) := by
  refine (descending_keep _ _ fun r hr => ?_).1
  exact (inRange_of_isEffective (mem_candidates.mp hr).2).2.1

/-- **Replacements that lie apart are all carried out.** -/
theorem mem_taken_of_apart (h : ∀ r ∈ rs, ∀ r' ∈ rs, r.isEffective source = true →
    r'.isEffective source = true → r ≠ r' → r.Before r' ∨ r'.Before r) {r : Replacement} :
    r ∈ taken source rs ↔ r ∈ rs ∧ r.isEffective source = true := by
  have hdesc : Descending (candidates source rs) := by
    refine ((sorted_candidates source rs).and (nodup_candidates source rs)).imp_of_mem
      fun {a b} ha hb hab => ?_
    obtain ⟨ha, hea⟩ := mem_candidates.mp ha
    obtain ⟨hb, heb⟩ := mem_candidates.mp hb
    rcases h a ha b hb hea heb hab.2 with hlt | hlt
    · -- then `b` would have been taken first
      have hfirst := hab.1
      simp only [takenFirst, Bool.or_eq_true, Bool.and_eq_true, decide_eq_true_eq, beq_iff_eq]
        at hfirst
      have := hlt.1
      omega
    · exact hlt
  have hkeep : taken source rs = candidates source rs := by
    refine keep_of_descending hdesc fun r hr => ?_
    have hrange := inRange_of_isEffective (mem_candidates.mp hr).2
    omega
  rw [hkeep, mem_candidates]

/-! ### Growth -/

/-- By how much a replacement makes its source longer. -/
def growth (r : Replacement) : Int := r.text.length - (r.stop - r.start)

/-- By how much replacements make their source longer. -/
def totalGrowth (rs : List Replacement) : Int := rs.foldr (fun r n => r.growth + n) 0

/-- Where an offset goes at which something starts: all replacements up to it come before it. -/
def startAfter (rs : List Replacement) (p : Nat) : Int := p + totalGrowth (rs.filter (·.stop ≤ p))

/-- Where an offset goes at which something ends: insertions at the offset come behind it. -/
def stopAfter (rs : List Replacement) (p : Nat) : Int := p + totalGrowth (rs.filter (·.start < p))

theorem startAfter_add {p q : Nat} (h : ∀ r ∈ rs, r.stop ≤ q ↔ r.stop ≤ p) :
    startAfter rs q = startAfter rs p + (q - p) := by
  have hsame : rs.filter (·.stop ≤ (q : Int)) = rs.filter (·.stop ≤ (p : Int)) :=
    List.filter_congr fun r hr => decide_eq_decide.mpr (h r hr)
  rw [startAfter, startAfter, hsame]
  omega

theorem stopAfter_add {p q : Nat} (h : ∀ r ∈ rs, r.start < q ↔ r.stop ≤ p) :
    stopAfter rs q = startAfter rs p + (q - p) := by
  have hsame : rs.filter (·.start < (q : Int)) = rs.filter (·.stop ≤ (p : Int)) :=
    List.filter_congr fun r hr => decide_eq_decide.mpr (h r hr)
  rw [stopAfter, startAfter, hsame]
  omega

/-- What becomes of the text before an offset. -/
def edited (source : Text) (rs : List Replacement) (p : Nat) : Text :=
  splice source p [] (rs.filter (·.start < p))

theorem splice_eq_append (source : Text) : ∀ (rs : List Replacement) (cursor : Nat) (done : Text),
    splice source cursor done rs = splice source cursor [] rs ++ done
  | [], cursor, done => by simp [splice]
  | r :: rs, cursor, done => by
    rw [splice, splice, splice_eq_append source rs, splice_eq_append source rs _ (_ ++ []),
      List.append_nil]
    simp only [List.append_assoc]

theorem splice_cons (source : Text) (r : Replacement) (rs : List Replacement) (p : Nat) :
    splice source p [] (r :: rs) =
      splice source r.start.toNat [] rs ++ (r.text ++ source.slice r.stop.toNat p) := by
  rw [splice, splice_eq_append, List.append_nil]

theorem splice_extend {p q : Nat} (hpq : p ≤ q) (h : ∀ r ∈ rs, r.stop ≤ p) :
    splice source q [] rs = splice source p [] rs ++ source.slice p q := by
  cases rs with
  | nil => simp only [splice, List.append_nil, Text.take_append_slice source hpq]
  | cons r rs =>
    have hr := h r List.mem_cons_self
    rw [splice_cons, splice_cons, ← Text.slice_append_slice source (b := p) (by omega) hpq]
    simp only [List.append_assoc]

/-- Whether all ranges lie in the source. -/
def InRange (source : Text) (rs : List Replacement) : Prop :=
  ∀ r ∈ rs, 0 ≤ r.start ∧ r.start ≤ r.stop ∧ r.stop ≤ source.length

theorem inRange_taken (source : Text) (rs : List Replacement) : InRange source (taken source rs) :=
  fun _ hr => inRange_of_isEffective (isEffective_of_mem_taken hr).2

theorem Descending.filter_stop_le (h : Descending rs) (hrange : InRange source rs) {r : Replacement}
    (hr : r ∈ rs) (hnext : ∀ r' ∈ rs, r.Before r' → r.stop < r'.stop) :
    rs.filter (·.stop ≤ r.stop) = r :: rs.filter (·.start < r.start) := by
  obtain ⟨late, early, rfl⟩ := List.append_of_mem hr
  obtain ⟨-, hrest, hlate⟩ := List.pairwise_append.mp h
  obtain ⟨hearly, -⟩ := List.pairwise_cons.mp hrest
  have hstop : ∀ r' ∈ late, ¬ r'.stop ≤ r.stop := fun r' hr' => by
    have := hnext r' (List.mem_append_left _ hr') (hlate r' hr' r List.mem_cons_self)
    omega
  have hstart : ∀ r' ∈ late, ¬ r'.start < r.start := fun r' hr' => by
    have := (hlate r' hr' r List.mem_cons_self).1
    omega
  have hstop' : ∀ r' ∈ early, r'.stop ≤ r.stop := fun r' hr' => by
    have h1 := (hearly r' hr').2
    have h2 := hrange r hr
    omega
  have hstart' : ∀ r' ∈ early, r'.start < r.start := fun r' hr' => (hearly r' hr').1
  have hleft : (late ++ r :: early).filter (·.stop ≤ r.stop) = r :: early := by
    rw [List.filter_append, List.filter_cons_of_pos (by simp),
      List.filter_eq_nil_iff.mpr (by simpa using hstop),
      List.filter_eq_self.mpr (by simpa using hstop')]
    rfl
  have hright : (late ++ r :: early).filter (·.start < r.start) = early := by
    rw [List.filter_append, List.filter_cons_of_neg (by simp),
      List.filter_eq_nil_iff.mpr (by simpa using hstart),
      List.filter_eq_self.mpr (by simpa using hstart')]
    rfl
  rw [hleft, hright]

theorem length_splice : ∀ {rs : List Replacement} {p : Nat}, Descending rs → InRange source rs →
    (∀ r ∈ rs, r.stop ≤ p) → p ≤ source.length →
    ((splice source p [] rs).length : Int) = p + totalGrowth rs
  | [], p, _, _, _, hp => by
    simp only [splice, List.append_nil, List.length_take, totalGrowth, List.foldr_nil]
    omega
  | r :: rs, p, hdesc, hrange, hstop, hp => by
    obtain ⟨hfirst, hrest⟩ := List.pairwise_cons.mp hdesc
    have hr := hrange r List.mem_cons_self
    have hrp := hstop r List.mem_cons_self
    have ih := length_splice (p := r.start.toNat) hrest
      (fun r' hr' => hrange r' (List.mem_cons_of_mem _ hr'))
      (fun r' hr' => by have := (hfirst r' hr').2; omega) (by omega)
    rw [splice_cons, List.length_append, List.length_append, Text.length_slice hp]
    simp only [totalGrowth, List.foldr_cons, growth] at ih ⊢
    push_cast
    omega

/-! ### The result up to an offset -/

theorem filter_append_filter {q : Replacement → Bool} : ∀ {rs : List Replacement},
    (rs.Pairwise fun r r' => q r = true → q r' = true) → rs = rs.filter (!q ·) ++ rs.filter q
  | [], _ => rfl
  | r :: rs, h => by
    obtain ⟨hfirst, hrest⟩ := List.pairwise_cons.mp h
    by_cases hr : q r = true
    · have hall : ∀ r' ∈ rs, q r' = true := fun r' hr' => hfirst r' hr' hr
      have hnone : (r :: rs).filter (!q ·) = [] := by simpa [hr] using hall
      have hsome : (r :: rs).filter q = r :: rs := by simpa [hr] using hall
      rw [hnone, hsome]
      rfl
    · rw [List.filter_cons_of_pos (by simp [hr]), List.filter_cons_of_neg hr, List.cons_append,
        ← filter_append_filter hrest]

theorem isPrefix_splice : ∀ {late rs : List Replacement} {p cursor : Nat} {done : Text},
    Descending late → (∀ r ∈ late, p ≤ r.start ∧ r.stop ≤ cursor) → (∀ r ∈ rs, r.stop ≤ p) →
    p ≤ cursor → splice source p [] rs <+: splice source cursor done (late ++ rs)
  | [], rs, p, cursor, done, _, _, hrs, hp => by
    rw [List.nil_append, splice_eq_append source rs cursor, splice_extend hp hrs, List.append_assoc]
    exact List.prefix_append _ _
  | r :: late, rs, p, cursor, done, hdesc, hlate, hrs, hp => by
    obtain ⟨hfirst, hrest⟩ := List.pairwise_cons.mp hdesc
    have hr := hlate r List.mem_cons_self
    rw [List.cons_append, splice]
    refine isPrefix_splice hrest (fun r' hr' => ⟨(hlate r' (List.mem_cons_of_mem _ hr')).1, ?_⟩) hrs
      (by omega)
    have := (hfirst r' hr').2
    omega

/-- **The result up to an offset** of which it is known what comes before it. -/
theorem take_apply {q : Replacement → Bool} {p p' : Nat} (hp : p ≤ source.length)
    (hbefore : ∀ r ∈ taken source rs, q r = true → r.stop ≤ p)
    (hbehind : ∀ r ∈ taken source rs, q r = false → p ≤ r.start)
    (hp' : (p' : Int) = p + totalGrowth ((taken source rs).filter q)) :
    (apply source rs).take p' = splice source p [] ((taken source rs).filter q) := by
  have hdesc := descending_taken source rs
  have hrange := inRange_taken source rs
  have hsplit : taken source rs =
      (taken source rs).filter (!q ·) ++ (taken source rs).filter q := by
    refine filter_append_filter (hdesc.imp_of_mem fun {r r'} hr hr' hlt hq => ?_)
    by_contra hq'
    have h1 := hbefore r hr hq
    have h2 := hbehind r' hr' (by simpa using hq')
    have h3 := hrange r hr
    have h4 := hlt.1
    omega
  have hpre : splice source p [] ((taken source rs).filter q) <+: apply source rs := by
    conv => rhs; rw [apply, hsplit]
    refine isPrefix_splice (hdesc.filter _) (fun r hr => ?_) (fun r hr => ?_) hp
    · obtain ⟨hr, hq⟩ := List.mem_filter.mp hr
      exact ⟨hbehind r hr (by simpa using hq), (hrange r hr).2.2⟩
    · obtain ⟨hr, hq⟩ := List.mem_filter.mp hr
      exact hbefore r hr hq
  have hlen := length_splice (p := p) (hdesc.filter q)
    (fun r hr => hrange r (List.mem_filter.mp hr).1)
    (fun r hr => hbefore r (List.mem_filter.mp hr).1 (List.mem_filter.mp hr).2) hp
  rw [List.prefix_iff_eq_take.mp hpre]
  congr 1
  omega

section Result
variable {a b a' b' : Nat}

/-- Nothing is replaced across an offset. -/
def Clear (rs : List Replacement) (p : Nat) : Prop := ∀ r ∈ rs, ¬ (r.start < p ∧ p < r.stop)

/-- **Up to the end of an untouched stretch**: nothing is replaced from `a` to `b`. -/
theorem take_apply_kept (hab : a ≤ b) (hb : b ≤ source.length)
    (hkept : ∀ r ∈ taken source rs, r.start < a ∧ r.stop ≤ a ∨ b ≤ r.start ∧ b < r.stop)
    (hb' : (b' : Int) = startAfter (taken source rs) b) :
    (apply source rs).take b' = edited source (taken source rs) a ++ source.slice a b := by
  have hsame : (taken source rs).filter (·.stop ≤ (b : Int)) =
      (taken source rs).filter (·.start < (a : Int)) := by
    refine List.filter_congr fun r hr => ?_
    have := hkept r hr
    rw [decide_eq_decide]
    omega
  have htake := take_apply (q := (·.stop ≤ (b : Int))) hb (fun r _ hq => by simpa using hq)
    (fun r hr hq => ?_) hb'
  · rw [htake, hsame, edited, splice_extend hab fun r hr => ?_]
    obtain ⟨hr, hlt⟩ := List.mem_filter.mp hr
    have := hkept r hr
    simp only [decide_eq_true_eq] at hlt
    omega
  · have := hkept r hr
    simp only [decide_eq_false_iff_not] at hq
    omega

/-- **Up to the end of a replacement** that no insertion follows at once. -/
theorem take_apply_put {r : Replacement} (hr : r ∈ taken source rs) (ha : r.start = a)
    (hb : r.stop = b) (hnext : ∀ r' ∈ taken source rs, r.Before r' → r.stop < r'.stop)
    (hb' : (b' : Int) = startAfter (taken source rs) b) :
    (apply source rs).take b' = edited source (taken source rs) a ++ r.text := by
  have hrange := inRange_taken source rs r hr
  have hdesc := descending_taken source rs
  have hup := hdesc.filter_stop_le (inRange_taken source rs) hr hnext
  rw [ha, hb] at hup
  have htake := take_apply (q := (·.stop ≤ (b : Int))) (p := b) (by omega)
    (fun r' _ hq => by simpa using hq) (fun r' hr' hq => ?_) hb'
  · rw [htake, hup, splice_cons, ha, hb, Int.toNat_natCast, Int.toNat_natCast, Text.slice_self,
      List.append_nil, edited]
  · simp only [decide_eq_false_iff_not] at hq
    rcases hdesc.eq_or_before hr hr' with rfl | h | h
    · omega
    · have := h.2
      omega
    · have := h.2
      omega

theorem length_edited (ha : a ≤ source.length) (hclear : Clear (taken source rs) a) :
    ((edited source (taken source rs) a).length : Int) = stopAfter (taken source rs) a := by
  refine length_splice ((descending_taken source rs).filter _)
    (fun r hr => inRange_taken source rs r (List.mem_filter.mp hr).1) (fun r hr => ?_) ha
  obtain ⟨hr, hlt⟩ := List.mem_filter.mp hr
  have := hclear r hr
  simp only [decide_eq_true_eq] at hlt
  omega

theorem slice_eq_of_take {t x y : Text} (hx : x.length = a) (h : t.take b = x ++ y) :
    t.slice a b = y := by
  rw [Text.slice, ← List.drop_take, h, ← hx, List.drop_left]

/-- **A slice that nothing is replaced in** is one of the source. -/
theorem slice_apply_kept (hab : a ≤ b) (hb : b ≤ source.length)
    (hkept : ∀ r ∈ taken source rs, r.start < a ∧ r.stop ≤ a ∨ b ≤ r.start ∧ b < r.stop)
    (ha' : (a' : Int) = stopAfter (taken source rs) a)
    (hb' : (b' : Int) = startAfter (taken source rs) b) :
    (apply source rs).slice a' b' = source.slice a b := by
  have hclear : Clear (taken source rs) a := fun r hr => by
    have := hkept r hr
    omega
  have hlen := length_edited (by omega) hclear
  exact slice_eq_of_take (by omega) (take_apply_kept hab hb hkept hb')

/-- **From where something starts** up to an offset before which nothing is replaced. -/
theorem slice_apply_from (hb : b ≤ source.length) (hlt : a < b)
    (hkept : ∀ r ∈ taken source rs, r.start < r.stop ∧ (r.stop ≤ a ∨ b ≤ r.start))
    (ha' : (a' : Int) = startAfter (taken source rs) a) :
    (apply source rs).slice a' (a' + (b - a)) = source.slice a b := by
  have hfront := stopAfter_add (p := a) (q := a) fun r hr => by
    have := hkept r hr
    omega
  have hback := startAfter_add (p := a) (q := b) fun r hr => by
    have := hkept r hr
    omega
  refine slice_apply_kept (by omega) hb (fun r hr => ?_) (by omega) (by omega)
  have := hkept r hr
  omega

/-- **The slice of a replacement** is its text. -/
theorem slice_apply_put {r : Replacement} (hr : r ∈ taken source rs) (ha : r.start = a)
    (hb : r.stop = b) (hnext : ∀ r' ∈ taken source rs, r.Before r' → r.stop < r'.stop)
    (ha' : (a' : Int) = stopAfter (taken source rs) a)
    (hb' : (b' : Int) = startAfter (taken source rs) b) :
    (apply source rs).slice a' b' = r.text := by
  have hrange := inRange_taken source rs r hr
  have hclear : Clear (taken source rs) a := by
    intro r' hr' hcross
    rcases (descending_taken source rs).eq_or_before hr hr' with rfl | h | h
    · omega
    · have := h.1
      omega
    · have := h.2
      omega
  have hlen := length_edited (by omega) hclear
  exact slice_eq_of_take (by omega) (take_apply_put hr ha hb hnext hb')

end Result

end HouseStyle.Replacement
