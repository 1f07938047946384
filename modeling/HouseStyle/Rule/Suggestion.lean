import HouseStyle.Number.Reader
import HouseStyle.Rule.Basic
import HouseStyle.Rule.Thresholds

/-! # Suggested rules

Rules can be suggested from outside, as data: an object from names of dimensions to a value, a
confidence and an amount of evidence. A suggestion with a value that its dimension does not take is
passed over. The others become candidates, which have to reach the same thresholds as inferred
rules. A candidate takes the place of a rule if there is none, if it is enforced and the rule is
not, or if it is enforced with a confidence that is higher by more than a margin. -/

namespace HouseStyle

namespace Suggestion

/-- What a suggested confidence must be better by. -/
def margin : Double := Double.round (5 / 100)

/-- The value that a suggested one stands for in a dimension, null if it is rejected. Numbers are
rounded to integers. -/
def normalizedValue (v : Value) (d : Descriptor) : Except Failure Value :=
  if d.numeric then
    match v with
    | .int n =>
      if (Double.ofRat? n).isNone then .error .numberTooLarge
      else .ok (if n < 0 then .null else .int n)
    | .float x =>
      .ok (if x.isFinite && !x.lt (.finite 0) then .int (Double.nearestInt x.toRat) else .null)
    | _ => .ok .null
  else .ok (if d.accepts v then v else .null)

/-- The number that a value stands for, if it can stand for one. -/
def number? : Value → Except Failure (Option Double)
  | .bool b => .ok (some (.finite (if b then 1 else 0)))
  | .int n =>
    match Double.ofRat? n with
    | some x => .ok (some x)
    | none => .error .numberTooLarge
  | .float x => .ok (some x)
  | .str s => .ok (Double.ofText? s.toList)
  | _ => .ok none

/-- The confidence that a value stands for: a number, moved into the range from zero to one; zero
for everything else. -/
def confidence (v : Value) : Except Failure Double := do
  match ← number? v with
  | some x =>
    return if x.isFinite then (Double.finite 1).smaller ((Double.finite 0).larger x) else .finite 0
  | none => return .finite 0

/-- The evidence that a value stands for: an integer, or else the given default; at least zero. -/
def evidence (v : Value) (default : Number) : Number :=
  match v with
  | .int n => (Number.int n).atLeastZero
  | _ => default.atLeastZero

/-- The rule that a suggestion amounts to. -/
def candidate (t : Thresholds) (d : Descriptor) (value : Value) (confidence : Double)
    (evidence : Number) : Except Failure Rule :=
  if (Number.int t.minEvidence).le evidence && t.minConfidence.le confidence then
    Rule.make value .enforced (.float confidence) evidence .external d.safe
  else Rule.make .null .undetermined (.float confidence) evidence .external d.safe

/-- Whether a candidate takes the place of what stands there. -/
def replaces (current : Option Rule) (candidate : Rule) : Bool :=
  match current with
  | none => true
  | some r =>
    candidate.enforced &&
      (!r.enforced || (r.confidence.toDouble.add margin).lt candidate.confidence.toDouble)

/-- The candidate of one entry of the suggestions, if the entry names a dimension and is usable. -/
def candidate? (t : Thresholds) (defaultEvidence : Number) (entry : String × Value) :
    Except Failure (Option (Dimension × Rule)) := do
  match Dimension.ofName? entry.1, entry.2 with
  | some d, .object fields =>
    let fields : Value.Fields := fields
    let value ← normalizedValue (fields.getD "value") d.descriptor
    if value.isNull then return none
    let c ← confidence (fields.getD "confidence")
    let r ← candidate t d.descriptor value c
      (evidence (fields.getD "evidenceCount") defaultEvidence)
    return some (d, r)
  | _, _ => return none

/-- One step of the merge: the rules so far and how many were replaced. -/
def mergeStep (t : Thresholds) (defaultEvidence : Number) (acc : Rules × Nat)
    (entry : String × Value) : Except Failure (Rules × Nat) := do
  match ← candidate? t defaultEvidence entry with
  | some (d, r) => return if replaces (acc.1 d) r then (acc.1.set d r, acc.2 + 1) else acc
  | none => return acc

/-- The entries of suggestions: those under `rules`, if there is an object of that name, or all. -/
def entries : Value → Value.Fields
  | .object fields =>
    let fields : Value.Fields := fields
    match fields.getD "rules" with
    | .object nested => nested
    | _ => fields
  | _ => []

end Suggestion

/-- The rules after suggestions, and how many were replaced. -/
def Rules.augment (rs : Rules) (suggestions : Value) (t : Thresholds) (defaultEvidence : Number) :
    Except Failure (Rules × Nat) :=
  (Suggestion.entries suggestions).foldlM (Suggestion.mergeStep t defaultEvidence) (rs, 0)

end HouseStyle
