import HouseStyle.Failure
import HouseStyle.Rule.Dimension

/-! # Rules

A rule is what was decided in a dimension: a value, with a confidence between zero and one and an
amount of evidence. A rule without value is *undetermined*, every other is *enforced*. `Rule.make`
checks what it is given and says what is wrong with it; of several faults it reports the first in
the order status, confidence, evidence. `Rule.ofData` does so for parts of any shape. -/

namespace HouseStyle

/-- Whether a rule is to be followed. -/
inductive Status where
  | enforced | undetermined
deriving DecidableEq

/-- Where a rule comes from. -/
inductive Provenance where
  | deterministic | external
deriving DecidableEq

/-- The name of a status. -/
def Status.name : Status → String
  | enforced => "enforced"
  | undetermined => "undetermined"

/-- The status that a value names. -/
def Status.ofValue (v : Value) : Except Failure Status :=
  if v.isStr "enforced" then .ok .enforced
  else if v.isStr "undetermined" then .ok .undetermined
  else .error (.unknownStatus v)

/-- The name of an origin. -/
def Provenance.name : Provenance → String
  | deterministic => "deterministic"
  | external => "externally-augmented"

/-- The origin that a value names. -/
def Provenance.ofValue (v : Value) : Except Failure Provenance :=
  if v.isStr "deterministic" then .ok .deterministic
  else if v.isStr "externally-augmented" then .ok .external
  else .error (.unknownProvenance v)

/-- What was decided in a dimension. -/
structure Rule where
  value : Value
  confidence : Number
  evidence : Number
  provenance : Provenance
  safe : Bool
  confidence_inUnit : confidence.inUnit = true
  evidence_not_negative : evidence.isNegative = false

namespace Rule

/-- A rule is enforced exactly if it has a value. -/
def status (r : Rule) : Status := if r.value.isNull then .undetermined else .enforced

/-- Whether a rule is enforced. -/
def enforced (r : Rule) : Bool := !r.value.isNull

/-- The rule of these parts, if they make one. -/
def make (value : Value) (status : Status) (confidence evidence : Number)
    (provenance : Provenance) (safe : Bool) : Except Failure Rule :=
  if value.isNull ≠ (status = .undetermined : Bool) then
    .error (.inconsistentRule value status.name)
  else if hc : confidence.inUnit = true then
    if he : evidence.isNegative = false then
      .ok ⟨value, confidence, evidence, provenance, safe, hc, he⟩
    else .error (.negativeEvidence evidence)
  else .error (.confidenceOutOfRange confidence)

/-- The rule of parts of any shape, if they make one. A part that should be a number and is none is
a fault of its own; it is reported where the fault of a wrong number would be. -/
def ofData (value status confidence evidence provenance : Value) (safe : Bool) :
    Except Failure Rule := do
  let status ← Status.ofValue status
  let provenance ← Provenance.ofValue provenance
  match confidence.number?, evidence.number? with
  | some c, some e => make value status c e provenance safe
  | some c, none => do
    let _ ← make value status c (.int 0) provenance safe
    .error (.notANumber evidence)
  | none, _ => do
    let _ ← make value status (.int 0) (.int 0) provenance safe
    .error (.notANumber confidence)

/-- The rule of a dimension about which nothing is known. -/
def unknown (safe : Bool) : Rule :=
  ⟨.null, .float (.finite 0), .int 0, .deterministic, safe, by decide +kernel, by decide +kernel⟩

/-- The rule with the same evidence and no value. -/
def demoted (r : Rule) : Rule := { r with value := .null }

end Rule

/-- The rules of some of the dimensions. -/
abbrev Rules := Dimension → Option Rule

namespace Rules

/-- The rules with that of one dimension exchanged. -/
def set (rs : Rules) (d : Dimension) (r : Rule) : Rules := fun e => if e = d then some r else rs e

/-- The dimensions that have a rule, each with its rule, in order. -/
def entries (rs : Rules) : List (Dimension × Rule) :=
  Dimension.all.filterMap fun d => (rs d).map (d, ·)

/-- The value of an enforced rule, null if there is none. -/
def enforcedValue (rs : Rules) (d : Dimension) : Value := ((rs d).map (·.value)).getD .null

/-- The rules, with those that are not safe demoted. -/
def safeOnly (rs : Rules) : Rules := fun d =>
  (rs d).map fun r => if r.safe || !r.enforced then r else r.demoted

end Rules

end HouseStyle
