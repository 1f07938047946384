import HouseStyle.Tree.Signature
import Mathlib

/-! # Tokens as a loop and as a recursion

The tokens of a node can be written by a loop over a stack. What waits on it is a node or a text
(`Pending`). One turn takes the first item off: a text is written as it is, a comment and
punctuation are dropped, an operator and a leaf are written, and a node with children writes its
opening mark and leaves the children on the stack, above the text of the closing mark
(`Pending.write`).

Two things carry the loop. What was written and the tokens of what waits are together the same from
turn to turn (`output_tokenTurn`), and each turn takes one off the number of turns to come
(`turnsLeft_tokenTurn`). So the loop ends, and then it has written the tokens that the recursion
gives (`signatureTokens_by_loop`). -/

namespace HouseStyle.Node

/-- What waits on the stack of the loop: a node whose tokens are to be written, or a text. -/
inductive Pending where
  | node (n : Node)
  | text (t : Text)

namespace Pending

/-- What a turn writes for an item, and what it leaves on the stack in its place. -/
def write (data : List UInt8) : Pending → List Text × List Pending
  | text t => ([t], [])
  | node n =>
    if n.isComment then ([], [])
    else if !n.named then (if ignoredTokens.contains n.kind then [] else [n.kind.toList], [])
    else if isLeaf n.kind n.children then
      ([n.kind.toList ++ '=' :: leafText data n.kind n.start n.stop], [])
    else
      ([openMark :: n.kind.toList],
        (n.children.filter (!·.isComment)).map node ++ [text [closeMark]])

/-- The tokens of an item. -/
def tokens (data : List UInt8) : Pending → List Text
  | node n => signatureTokens data n
  | text t => [t]

/-- The number of nodes of an item. -/
def size : Pending → ℕ
  | node n => n.size
  | text _ => 0

end Pending

open Pending

variable {data : List UInt8}

/-! ### One item -/

theorem signatureTokens_of_isComment {n : Node} (h : n.isComment = true) :
    signatureTokens data n = [] := by
  cases n
  exact if_pos (beq_iff_eq.mp h)

theorem allSignatureTokens_eq_flatMap (ns : List Node) :
    allSignatureTokens data ns = (ns.filter (!·.isComment)).flatMap (signatureTokens data) := by
  induction ns with
  | nil => rfl
  | cons n ns ih =>
    rw [allSignatureTokens, ih, List.filter_cons]
    by_cases h : n.isComment = true
    · simp [h, signatureTokens_of_isComment h]
    · simp [h]

/-- **A turn writes the first tokens of an item** and leaves the others on the stack. -/
theorem tokens_eq (p : Pending) :
    p.tokens data = (p.write data).1 ++ (p.write data).2.flatMap (tokens data) := by
  cases p with
  | text t => rfl
  | node n =>
    obtain ⟨id, kind, named, missing, start, stop, field, children⟩ := n
    rw [tokens, signatureTokens, write, isComment, allSignatureTokens_eq_flatMap]
    by_cases hcomment : kind = "comment"
    · simp [hcomment]
    cases named with
    | false => simp [hcomment]
    | true =>
      by_cases hleaf : isLeaf kind children = true
      · simp [hcomment, hleaf]
      · simp [hcomment, hleaf, List.flatMap_map, tokens]

theorem size_lt_of_mem_write {p q : Pending} (h : q ∈ (p.write data).2) : q.size < p.size := by
  cases p with
  | text t => simp [write] at h
  | node n =>
    rw [write] at h
    split_ifs at h
    · simp at h
    · simp at h
    · simp at h
    · simp at h
    · simp only [List.mem_append, List.mem_map, List.mem_filter, List.mem_singleton] at h
      obtain ⟨c, hc, rfl⟩ | rfl := h
      · exact size_lt_of_mem hc.1
      · have hsize := size_eq n
        simp only [Pending.size]
        omega

/-- The number of turns that an item takes: its own, and those of what it leaves on the stack. -/
def turns (data : List UInt8) (p : Pending) : ℕ :=
  1 + ((p.write data).2.attach.map fun q => turns data q.1).sum
termination_by p.size
decreasing_by exact size_lt_of_mem_write q.2

theorem turns_eq (p : Pending) : turns data p = 1 + ((p.write data).2.map (turns data)).sum := by
  rw [turns, List.attach_map_val]

/-! ### The loop -/

/-- One turn of the loop: what was written so far and the stack. -/
def tokenTurn (data : List UInt8) : List Text × List Pending → List Text × List Pending
  | (out, []) => (out, [])
  | (out, p :: stack) => (out ++ (p.write data).1, (p.write data).2 ++ stack)

/-- What was written, and the tokens of what waits. -/
def output (data : List UInt8) (st : List Text × List Pending) : List Text :=
  st.1 ++ st.2.flatMap (tokens data)

/-- The turns of all that waits. -/
def turnsLeft (data : List UInt8) (st : List Text × List Pending) : ℕ := (st.2.map (turns data)).sum

/-- **A turn keeps what was written and what waits together.** -/
theorem output_tokenTurn (st : List Text × List Pending) :
    output data (tokenTurn data st) = output data st := by
  obtain ⟨out, stack⟩ := st
  cases stack with
  | nil => rfl
  | cons p stack =>
    simp only [output, tokenTurn, List.flatMap_append, List.flatMap_cons, tokens_eq p,
      List.append_assoc]

/-- **A turn takes one off the turns to come.** -/
theorem turnsLeft_tokenTurn (st : List Text × List Pending) :
    turnsLeft data (tokenTurn data st) = turnsLeft data st - 1 := by
  obtain ⟨out, stack⟩ := st
  cases stack with
  | nil => rfl
  | cons p stack =>
    simp only [turnsLeft, tokenTurn, List.map_append, List.sum_append, List.map_cons,
      List.sum_cons, turns_eq p]
    omega

theorem output_iterate (data : List UInt8) (k : ℕ) (st : List Text × List Pending) :
    output data ((tokenTurn data)^[k] st) = output data st := by
  induction k generalizing st with
  | zero => rfl
  | succ k ih => rw [Function.iterate_succ_apply, ih, output_tokenTurn]

theorem turnsLeft_iterate (k : ℕ) (st : List Text × List Pending) :
    turnsLeft data ((tokenTurn data)^[k] st) = turnsLeft data st - k := by
  induction k generalizing st with
  | zero => rfl
  | succ k ih =>
    rw [Function.iterate_succ_apply, ih, turnsLeft_tokenTurn]
    omega

theorem turnsLeft_eq_zero_iff (data : List UInt8) {st : List Text × List Pending} :
    turnsLeft data st = 0 ↔ st.2 = [] := by
  obtain ⟨out, stack⟩ := st
  cases stack with
  | nil => exact iff_of_true rfl rfl
  | cons p stack =>
    simp only [turnsLeft, List.map_cons, List.sum_cons, turns_eq p, reduceCtorEq, iff_false]
    omega

/-- **The loop writes the tokens of a node.** It has nothing left on its stack after as many turns
as the node takes, and not before, and what it has written then are the tokens of the recursion. At
any earlier time it has written a first part of them. -/
theorem signatureTokens_by_loop (n : Node) (k : ℕ) :
    (((tokenTurn data)^[k] ([], [.node n])).2 = [] ↔ turns data (.node n) ≤ k) ∧
      ((tokenTurn data)^[k] ([], [.node n])).1 <+: signatureTokens data n ∧
      (turns data (.node n) ≤ k →
        (tokenTurn data)^[k] ([], [.node n]) = (signatureTokens data n, [])) := by
  have hstart : turnsLeft data ([], [.node n]) = turns data (.node n) := by simp [turnsLeft]
  have htokens : output data ([], [.node n]) = signatureTokens data n := by simp [output, tokens]
  have hout := output_iterate data k ([], [.node n])
  have hempty : ((tokenTurn data)^[k] ([], [.node n])).2 = [] ↔ turns data (.node n) ≤ k := by
    rw [← turnsLeft_eq_zero_iff data, turnsLeft_iterate, hstart]
    omega
  rw [htokens] at hout
  refine ⟨hempty, ?_, fun hk => ?_⟩
  · rw [← hout]
    exact List.prefix_append _ _
  · have hdone := hempty.mpr hk
    rw [output, hdone, List.flatMap_nil, List.append_nil] at hout
    exact Prod.ext hout hdone

end HouseStyle.Node
