import HouseStyle.Tree.Signature
import Mathlib.Data.List.Basic

/-! # Queues of observations

A queue gives out the observations of a signature in the order in which they came. One operation
changes what waits under its own signature and nothing else (`waiting_push`, `waiting_pop`). So over
a run of operations, what was pushed under a signature is what was popped under it, followed by what
still waits (`popped_append_waiting`), and the answers under a signature are those to its own
operations (`answersUnder_own`).

A signature of which nothing waits any more keeps its entry. The entry counts for nothing: every
operation changes the size by what it moves (`size_push`, `size_pop`), and an observation waits
exactly if the size is not zero (`nonempty_iff`). -/

namespace HouseStyle.SignatureQueue

variable {α : Type}

/-! ### One operation -/

theorem lookup_cons (k : Text) (e : Text × List α) (es : List (Text × List α)) :
    List.lookup k (e :: es) = if k = e.1 then some e.2 else es.lookup k := by
  obtain ⟨key, xs⟩ := e
  rw [List.lookup_cons]
  by_cases hk : k = key
  · rw [if_pos hk, beq_iff_eq.mpr hk]
  · rw [if_neg hk, beq_false_of_ne hk]

theorem lookup_put (key k : Text) (xs : List α) : ∀ es : List (Text × List α),
    (put key xs es).lookup k = if k = key then some xs else es.lookup k
  | [] => lookup_cons k (key, xs) []
  | e :: es => by
    rw [put]
    split_ifs with he hk hk
    · rw [lookup_cons, if_pos hk]
    · rw [lookup_cons, if_neg hk, lookup_cons, if_neg (he ▸ hk)]
    · rw [lookup_cons, if_neg fun h => he (h.symm.trans hk), lookup_put key k xs es, if_pos hk]
    · rw [lookup_cons, lookup_cons, lookup_put key k xs es, if_neg hk]

theorem waiting_push (q : SignatureQueue α) (key k : Text) (x : α) :
    (q.push key x).waiting k = if k = key then q.waiting key ++ [x] else q.waiting k := by
  rw [waiting, push, lookup_put]
  split_ifs
  · rfl
  · rfl

theorem pop_fst (q : SignatureQueue α) (key : Text) : (q.pop key).1 = (q.waiting key).head? := by
  rw [pop]
  split
  · rename_i h
    rw [h]
    rfl
  · rename_i h
    rw [h]
    rfl

theorem waiting_pop (q : SignatureQueue α) (key k : Text) :
    (q.pop key).2.waiting k = if k = key then (q.waiting key).tail else q.waiting k := by
  rw [pop]
  split
  · rename_i h
    split_ifs with hk
    · rw [hk, h]
      rfl
    · rfl
  · rename_i x xs h
    rw [waiting, lookup_put, h]
    split_ifs
    · rfl
    · rfl

theorem size_put (q : SignatureQueue α) (key : Text) (xs : List α) :
    size ⟨put key xs q.queues⟩ + (q.waiting key).length = q.size + xs.length := by
  obtain ⟨es⟩ := q
  induction es with
  | nil => simp [put, size, waiting]
  | cons e es ih =>
    simp only [size, waiting] at ih
    simp only [put, size, waiting, lookup_cons]
    by_cases he : e.1 = key
    · simp only [he, if_true, List.map_cons, List.foldr_cons, Option.getD_some]
      omega
    · simp only [he, Ne.symm he, if_false, List.map_cons, List.foldr_cons]
      omega

theorem size_push (q : SignatureQueue α) (key : Text) (x : α) :
    (q.push key x).size = q.size + 1 := by
  have h := q.size_put key (q.waiting key ++ [x])
  rw [List.length_append, List.length_singleton] at h
  rw [push]
  omega

theorem size_pop (q : SignatureQueue α) (key : Text) :
    (q.pop key).2.size + (if (q.pop key).1.isSome then 1 else 0) = q.size := by
  rw [pop]
  split
  · rfl
  · rename_i x xs h
    have hput := q.size_put key xs
    rw [h, List.length_cons] at hput
    simp only [Option.isSome_some, if_true]
    omega

/-- **An observation waits exactly if the size is not zero**, also if signatures without
observations have entries. -/
theorem nonempty_iff (q : SignatureQueue α) : q.nonempty = true ↔ q.size ≠ 0 := by
  obtain ⟨es⟩ := q
  induction es with
  | nil => simp [nonempty, size]
  | cons e es ih =>
    simp only [nonempty, size, List.any_cons, List.map_cons, List.foldr_cons, Bool.or_eq_true]
      at ih ⊢
    rw [ih, Bool.not_eq_true', ← Bool.not_eq_true, List.isEmpty_iff, ← List.length_eq_zero_iff]
    omega

/-! ### Runs -/

/-- What is done with a queue: an observation is pushed, or one is asked for. -/
inductive Operation (α : Type) where
  | push (key : Text) (x : α)
  | pop (key : Text)

namespace Operation

/-- The signature that an operation is about. -/
def key : Operation α → Text
  | push k _ => k
  | pop k => k

/-- The observation that is pushed. -/
def pushed? : Operation α → Option α
  | push _ x => some x
  | pop _ => none

/-- The queue after an operation. -/
def apply (q : SignatureQueue α) : Operation α → SignatureQueue α
  | push k x => q.push k x
  | pop k => (q.pop k).2

end Operation

/-- The queue after operations. -/
def run (q : SignatureQueue α) (ops : List (Operation α)) : SignatureQueue α :=
  ops.foldl Operation.apply q

/-- The operations that are about a signature. -/
def own (k : Text) (ops : List (Operation α)) : List (Operation α) := ops.filter (·.key = k)

/-- The observations that are pushed under a signature, in order. -/
def pushed (k : Text) (ops : List (Operation α)) : List α := (own k ops).filterMap (·.pushed?)

/-- The answers to the pops among operations, in order, each with its signature. -/
def answers (q : SignatureQueue α) : List (Operation α) → List (Text × Option α)
  | [] => []
  | .push k x :: ops => answers (q.push k x) ops
  | .pop k :: ops => (k, (q.pop k).1) :: answers (q.pop k).2 ops

/-- The answers to the pops of a signature. -/
def answersUnder (q : SignatureQueue α) (k : Text) (ops : List (Operation α)) : List (Option α) :=
  ((q.answers ops).filter (·.1 = k)).map (·.2)

/-- The observations that successful pops of a signature gave. -/
def popped (q : SignatureQueue α) (k : Text) (ops : List (Operation α)) : List α :=
  (q.answersUnder k ops).filterMap id

section

variable (q : SignatureQueue α) (k : Text) (op : Operation α) (ops : List (Operation α))

theorem run_cons : q.run (op :: ops) = (op.apply q).run ops := rfl

theorem answersUnder_push (key : Text) (x : α) :
    q.answersUnder k (.push key x :: ops) = (q.push key x).answersUnder k ops := rfl

theorem answersUnder_pop (key : Text) :
    q.answersUnder k (.pop key :: ops) =
      if key = k then (q.pop key).1 :: (q.pop key).2.answersUnder k ops
      else (q.pop key).2.answersUnder k ops := by
  simp only [answersUnder, answers, List.filter_cons, decide_eq_true_eq]
  split_ifs
  · rfl
  · rfl

theorem own_cons : own k (op :: ops) = if op.key = k then op :: own k ops else own k ops := by
  simp only [own, List.filter_cons, decide_eq_true_eq]

theorem pushed_cons : pushed k (op :: ops) =
    if op.key = k then op.pushed?.toList ++ pushed k ops else pushed k ops := by
  rw [pushed, own_cons]
  split_ifs
  · cases op <;> rfl
  · rfl

end

/-- **What was pushed is what was popped, followed by what waits.** What waited before the run
counts as pushed. -/
theorem popped_append_waiting (k : Text) : ∀ (ops : List (Operation α)) (q : SignatureQueue α),
    q.popped k ops ++ (q.run ops).waiting k = q.waiting k ++ pushed k ops
  | [], q => by simp [popped, answersUnder, answers, pushed, own, run]
  | .push key x :: ops, q => by
    have ih := popped_append_waiting k ops (q.push key x)
    rw [waiting_push] at ih
    rw [popped, answersUnder_push, run_cons, pushed_cons]
    refine ih.trans ?_
    by_cases hk : k = key
    · simp [hk, Operation.key, Operation.pushed?]
    · simp [hk, Ne.symm hk, Operation.key]
  | .pop key :: ops, q => by
    have ih := popped_append_waiting k ops (q.pop key).2
    rw [waiting_pop, popped] at ih
    rw [popped, answersUnder_pop, run_cons, pushed_cons, pop_fst, Operation.apply]
    by_cases hk : k = key
    · subst hk
      rw [if_pos rfl] at ih
      -- the first that waits leaves, if there is one
      cases hw : q.waiting k with
      | nil => simpa [Operation.key, Operation.pushed?, hw] using ih
      | cons x xs => simpa [Operation.key, Operation.pushed?, hw] using ih
    · rw [if_neg hk] at ih
      simpa [Ne.symm hk, Operation.key] using ih

theorem waiting_apply_of_ne {op : Operation α} {k : Text} (h : op.key ≠ k) (q : SignatureQueue α) :
    (op.apply q).waiting k = q.waiting k := by
  cases op with
  | push key x => exact (waiting_push q key k x).trans (if_neg (Ne.symm h))
  | pop key => exact (waiting_pop q key k).trans (if_neg (Ne.symm h))

theorem waiting_apply_congr (op : Operation α) {k : Text} {q q' : SignatureQueue α}
    (h : q.waiting k = q'.waiting k) : (op.apply q).waiting k = (op.apply q').waiting k := by
  by_cases hk : op.key = k
  · cases op with
    | push key x =>
      obtain rfl : key = k := hk
      simp only [Operation.apply, waiting_push, if_true, h]
    | pop key =>
      obtain rfl : key = k := hk
      simp only [Operation.apply, waiting_pop, if_true, h]
  · rw [waiting_apply_of_ne hk, waiting_apply_of_ne hk, h]

/-- **Signatures do not meet**: what happens under one is what its own operations do, and of the
queue before them only what waits under the signature matters. -/
theorem answersUnder_own (k : Text) : ∀ (ops : List (Operation α)) {q q' : SignatureQueue α},
    q.waiting k = q'.waiting k → q.answersUnder k ops = q'.answersUnder k (own k ops) ∧
      (q.run ops).waiting k = (q'.run (own k ops)).waiting k
  | [], _, _, h => ⟨rfl, h⟩
  | op :: ops, q, q', h => by
    by_cases hk : op.key = k
    · obtain ⟨hanswers, hwaiting⟩ := answersUnder_own k ops (waiting_apply_congr op h)
      rw [own_cons, if_pos hk]
      refine ⟨?_, hwaiting⟩
      cases op with
      | push key x => exact hanswers
      | pop key =>
        obtain rfl : key = k := hk
        rw [answersUnder_pop, answersUnder_pop, if_pos rfl, if_pos rfl, pop_fst, pop_fst, h]
        exact congrArg _ hanswers
    · obtain ⟨hanswers, hwaiting⟩ := answersUnder_own k ops ((waiting_apply_of_ne hk q).trans h)
      rw [own_cons, if_neg hk]
      refine ⟨?_, hwaiting⟩
      cases op with
      | push key x => exact hanswers
      | pop key =>
        rw [answersUnder_pop, if_neg (show ¬ key = k from hk)]
        exact hanswers

theorem size_run : ∀ (ops : List (Operation α)) (q : SignatureQueue α),
    (q.run ops).size + (q.answers ops).countP (·.2.isSome) = q.size + ops.countP (·.pushed?.isSome)
  | [], q => rfl
  | .push key x :: ops, q => by
    have ih := size_run ops (q.push key x)
    rw [size_push] at ih
    rw [run_cons, answers, Operation.apply, List.countP_cons_of_pos rfl]
    omega
  | .pop key :: ops, q => by
    have ih := size_run ops (q.pop key).2
    have hpop := q.size_pop key
    rw [run_cons, answers, Operation.apply, List.countP_cons,
      List.countP_cons_of_neg Bool.false_ne_true]
    dsimp only
    omega

/-- **First in, first out.** After any operations on an empty queue: what the successful pops of a
signature gave is, one by one, what was pushed under it first; a pop fails exactly if all that was
pushed has been popped; the answers under a signature, and what waits under it, are as if no other
signature had been used; the size is the number of pushes less that of the successful pops; and an
observation waits exactly if the size is not zero. -/
theorem first_in_first_out (ops : List (Operation α)) :
    (∀ k, empty.popped k ops <+: pushed k ops) ∧
    (∀ k, ((empty.run ops).pop k).1 = none ↔ empty.popped k ops = pushed k ops) ∧
    (∀ k, empty.answersUnder k ops = empty.answersUnder k (own k ops) ∧
      (empty.run ops).waiting k = (empty.run (own k ops)).waiting k) ∧
    (empty.run ops).size + (empty.answers ops).countP (·.2.isSome) = ops.countP (·.pushed?.isSome) ∧
    ((empty.run ops).nonempty = true ↔ (empty.run ops).size ≠ 0) := by
  have hsplit : ∀ k, empty.popped k ops ++ (empty.run ops).waiting k = pushed k ops := fun k =>
    popped_append_waiting k ops empty
  refine ⟨fun k => ⟨_, hsplit k⟩, fun k => ?_, fun k => answersUnder_own k ops rfl, ?_,
    nonempty_iff _⟩
  · rw [pop_fst, List.head?_eq_none_iff, ← hsplit k, List.self_eq_append_right]
  · have h := size_run ops empty
    rwa [show (empty : SignatureQueue α).size = 0 from rfl, Nat.zero_add] at h

/-- An emptied entry stays, and counts for nothing. -/
example :
    let q := (empty : SignatureQueue Nat).run
      [.push ['k'] 1, .push ['l'] 2, .pop ['k'], .pop ['k']]
    q.queues = [(['k'], []), (['l'], [2])] ∧ q.size = 1 ∧ q.nonempty = true := by decide

end HouseStyle.SignatureQueue
