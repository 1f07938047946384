import HouseStyle.Proofs.Tree.Queues
import HouseStyle.Restyle.MemberChains

/-! # Calls and the layouts they are paired with

A queue gives out the observations of a signature in the order in which they came
(`SignatureQueue.waiting_push`). So the queue of a reference holds, under each signature, the
layouts of its calls in the order of the walk (`waiting_layouts`), and the replay pairs the calls of
a source with them one by one: a call takes the layout at the place that the number of earlier
outermost calls of its signature says (`mem_pairs`). The changes of the replay are those of the
pairs, in the same order (`replayBreaks_eq`). -/

namespace HouseStyle

namespace MemberChains

open Node (Visit)

variable {s reference : Source} {indent : Indent}

/-! ### What a reference shows -/

/-- The layouts that a reference shows under a signature, in the order of the walk. -/
def recorded (reference : Source) (indent : Indent) (signature : Text) : List (List Segment) :=
  (reference.root.walk.filter fun v => v.node.signature reference.text.encode = signature).filterMap
    (layout? reference indent)

theorem waiting_foldl_record (key : Text) : ∀ (vs : List Visit) (q : SignatureQueue (List Segment)),
    (vs.foldl (record reference indent) q).waiting key = q.waiting key ++
      (vs.filter fun v => v.node.signature reference.text.encode = key).filterMap
        (layout? reference indent)
  | [], q => by simp
  | v :: vs, q => by
    rw [List.foldl_cons, waiting_foldl_record key vs, record]
    cases hl : layout? reference indent v with
    | none => by_cases hkey : v.node.signature reference.text.encode = key <;> simp [hkey, hl]
    | some segments =>
      by_cases hkey : v.node.signature reference.text.encode = key
      · simp [SignatureQueue.waiting_push, hkey, hl]
      · have hne : ¬ key = v.node.signature reference.text.encode := fun h => hkey h.symm
        simp [SignatureQueue.waiting_push, hkey, hne]

/-- **The queue of a reference** holds what was recorded. -/
theorem waiting_layouts (reference : Source) (indent : Indent) (key : Text) :
    (layouts reference indent).waiting key = recorded reference indent key :=
  waiting_foldl_record key reference.root.walk .empty

/-! ### Pairs -/

/-- The visited outermost calls that a layout waits for, with their layouts. -/
def pairs (s : Source) (q : SignatureQueue (List Segment)) :
    List Visit → List (Visit × List Segment)
  | [] => []
  | v :: vs =>
    if isOutermostCall v then
      match q.pop (v.node.signature s.text.encode) with
      | (some segments, q') => (v, segments) :: pairs s q' vs
      | (none, q') => pairs s q' vs
    else pairs s q vs

theorem foldl_replayStep (s : Source) (indent : Indent) :
    ∀ (vs : List Visit) (q : SignatureQueue (List Segment)) (rs : List Replacement),
      (vs.foldl (replayStep s indent) (q, rs)).2 =
        rs ++ (pairs s q vs).flatMap fun p => breakChain s indent p.1.node p.2
  | [], q, rs => by simp [pairs]
  | v :: vs, q, rs => by
    rw [List.foldl_cons, replayStep, pairs]
    split_ifs
    · split
      · rename_i segments q' hpop
        rw [hpop, foldl_replayStep s indent vs, List.flatMap_cons, List.append_assoc]
      · rename_i q' hpop
        rw [hpop, foldl_replayStep s indent vs]
    · exact foldl_replayStep s indent vs q rs

/-- **The changes of a replay** are those of the pairs. -/
theorem replayBreaks_eq (s : Source) (indent : Indent) (q : SignatureQueue (List Segment)) :
    replayBreaks s indent q = (pairs s q s.root.walk).flatMap fun p =>
      breakChain s indent p.1.node p.2 :=
  foldl_replayStep s indent s.root.walk q []

theorem pairs_sublist (s : Source) : ∀ (vs : List Visit) (q : SignatureQueue (List Segment)),
    ((pairs s q vs).map (·.1)).Sublist vs
  | [], _ => by simp [pairs]
  | v :: vs, q => by
    rw [pairs]
    split_ifs
    · split
      · exact (pairs_sublist s vs _).cons_cons v
      · exact (pairs_sublist s vs _).cons v
    · exact (pairs_sublist s vs q).cons v

theorem isOutermostCall_of_mem_pairs {p : Visit × List Segment} : ∀ {vs : List Visit}
    {q : SignatureQueue (List Segment)}, p ∈ pairs s q vs → isOutermostCall p.1 = true
  | [], _, h => by simp [pairs] at h
  | v :: vs, q, h => by
    rw [pairs] at h
    split_ifs at h with hcall
    · split at h
      · rcases List.mem_cons.mp h with rfl | h
        · exact hcall
        · exact isOutermostCall_of_mem_pairs h
      · exact isOutermostCall_of_mem_pairs h
    · exact isOutermostCall_of_mem_pairs h

/-- The number of outermost calls with a signature among visits. -/
def callCount (s : Source) (signature : Text) (vs : List Visit) : Nat :=
  vs.countP fun v => isOutermostCall v && v.node.signature s.text.encode = signature

theorem callCount_cons (s : Source) (signature : Text) (v : Visit) (vs : List Visit) :
    callCount s signature (v :: vs) = callCount s signature vs +
      if (isOutermostCall v && v.node.signature s.text.encode = signature) = true then 1 else 0 :=
          List.countP_cons ..

/-- **What a call is paired with**: of the layouts that wait under its signature, as many are passed
over as there are calls of that signature before it. The induction is on the visits before the call.
-/
theorem mem_pairs {v : Visit} {later : List Visit} (hcall : isOutermostCall v = true)
    {segments : List Segment} :
    ∀ {earlier : List Visit} {q : SignatureQueue (List Segment)},
      (q.waiting (v.node.signature s.text.encode))[
        callCount s (v.node.signature s.text.encode) earlier]? = some segments →
        (v, segments) ∈ pairs s q (earlier ++ v :: later)
  | [], q, h => by
    have hpop : (q.pop (v.node.signature s.text.encode)).1 = some segments := by
      rw [q.pop_fst, List.head?_eq_getElem?]
      exact h
    rw [List.nil_append, pairs, if_pos hcall]
    split
    · rename_i segments' q' heq
      rw [heq] at hpop
      rw [Option.some.inj hpop]
      exact List.mem_cons_self
    · rename_i q' heq
      rw [heq] at hpop
      cases hpop
  | u :: earlier, q, h => by
    rw [callCount_cons] at h
    rw [List.cons_append, pairs]
    by_cases hu : isOutermostCall u = true
    · -- the queue has moved on by one, if the signatures agree
      have hrest : (v, segments) ∈
          pairs s (q.pop (u.node.signature s.text.encode)).2 (earlier ++ v :: later) := by
        refine mem_pairs hcall ?_
        rw [q.waiting_pop]
        by_cases hkey : v.node.signature s.text.encode = u.node.signature s.text.encode
        · rw [if_pos hkey, List.getElem?_tail]
          simpa [hu, hkey] using h
        · have hkey' : ¬ u.node.signature s.text.encode = v.node.signature s.text.encode :=
            fun h => hkey h.symm
          rw [if_neg hkey]
          simpa [hu, hkey'] using h
      rw [if_pos hu]
      split
      · rename_i heq
        rw [heq] at hrest
        exact List.mem_cons_of_mem _ hrest
      · rename_i heq
        rw [heq] at hrest
        exact hrest
    · rw [if_neg hu]
      exact mem_pairs hcall (by simpa [hu] using h)

end MemberChains

end HouseStyle
