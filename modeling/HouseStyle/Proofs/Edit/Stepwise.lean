import HouseStyle.Edit.Settle
import HouseStyle.Proofs.Edit.Piecewise

/-! # Replacements one by one

`Replacement.apply` goes over a source from right to left. What stands before a replacement is still
as in the source when its turn comes, and what stands behind it may be anything. So a preorder on
texts that holds across every single replacement, whatever follows it, holds of a source and the
result (`trans_apply`). In the same way a preorder that holds across every pass of a repeated change
holds across all of them (`trans_settle`). -/

namespace HouseStyle

variable {R : Text → Text → Prop}

namespace Replacement

section Trans
variable (hrefl : ∀ t, R t t) (htrans : ∀ {t u v}, R t u → R u v → R t v) (source : Text)
include hrefl htrans

theorem trans_splice_keep : ∀ (rs : List Replacement) (limit : Int) (cursor : Nat) (done : Text),
    (∀ r ∈ rs, r.isEffective source = true ∧
      ∀ w, R (source.take r.stop.toNat ++ w) (source.take r.start.toNat ++ r.text ++ w)) →
    (∀ stop : Int, stop ≤ limit → stop ≤ source.length → stop ≤ cursor) →
    R (source.take cursor ++ done) (splice source cursor done (keep limit rs))
  | [], _, cursor, done, _, _ => hrefl _
  | r :: rs, limit, cursor, done, h, hlim => by
    rw [keep]
    have hrs := fun r' hr' => h r' (List.mem_cons_of_mem r hr')
    split_ifs with hcol
    · exact trans_splice_keep rs limit cursor done hrs hlim
    · obtain ⟨hr, hstep⟩ := h r List.mem_cons_self
      have h3 := (inRange_of_isEffective hr).2.2
      have hstop : r.stop ≤ cursor := by
        simp only [collides, Bool.or_eq_true, decide_eq_true_eq, not_or] at hcol
        exact hlim r.stop (by omega) h3
      obtain ⟨-, hle⟩ := toNat_bounds hr hstop
      have hrest := trans_splice_keep rs r.start r.start.toNat
        (r.text ++ source.slice r.stop.toNat cursor ++ done) hrs (fun stop hs _ => by omega)
      have hhere := hstep (source.slice r.stop.toNat cursor ++ done)
      rw [← List.append_assoc, Text.take_append_slice source hle] at hhere
      rw [splice]
      refine htrans hhere ?_
      simpa only [List.append_assoc] using hrest

/-- **A preorder that holds across every single replacement** holds of the source and the result. -/
theorem trans_apply (rs : List Replacement)
    (h : ∀ r ∈ rs, r.isEffective source = true →
      ∀ w, R (source.take r.stop.toNat ++ w) (source.take r.start.toNat ++ r.text ++ w)) :
    R source (apply source rs) := by
  have hall := trans_splice_keep hrefl htrans source (candidates source rs) (source.length + 1)
    source.length [] (fun r hr => ⟨(mem_candidates.mp hr).2,
      h r (mem_candidates.mp hr).1 (mem_candidates.mp hr).2⟩) (fun stop _ hs => hs)
  rwa [List.take_length, List.append_nil] at hall

end Trans

end Replacement

section Settle
variable {change : Text → Text} (hrefl : ∀ t, R t t) (htrans : ∀ {t u v}, R t u → R u v → R t v)
include hrefl htrans

theorem trans_settleWithin : ∀ (n : Nat) (t : Text), (∀ u ∈ passes change n t, R u (change u)) →
    R t (settleWithin change n t)
  | 0, t, _ => hrefl t
  | n + 1, t, h => by
    rw [passes] at h
    rw [settleWithin]
    have hstep := h t List.mem_cons_self
    split_ifs at h ⊢ with hfix
    · exact hrefl t
    · exact htrans hstep (trans_settleWithin n _ fun u hu => h u (List.mem_cons_of_mem _ hu))

/-- **A preorder that holds across every pass** holds across all of them. -/
theorem trans_settle (t : Text) (h : ∀ u ∈ passes change maxPasses t, R u (change u)) :
    R t (settle change t) := trans_settleWithin hrefl htrans maxPasses t h

end Settle

end HouseStyle
