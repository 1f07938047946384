import HouseStyle.Failure
import HouseStyle.Rule.Thresholds
import HouseStyle.Tree.Parser

/-! # Settings

Settings are data that come from a program or from a document, so each holds a value of any shape.
`Settings.check` looks at them in a fixed order and gives the configuration that they amount to, or
says what is wrong with the first bad one. Settings that are read as a yes or no, and the command,
are not checked. -/

namespace HouseStyle

/-- The settings, as given. -/
structure Settings where
  minEvidence : Value
  minConfidence : Value
  maxFiles : Value
  skipTestLike : Value
  command : Value
  samplingMode : Value
  defaultLanguage : Value
  safeOnly : Value
  structuredLogging : Value
  logLevel : Value

/-- Checked settings. -/
structure Config where
  thresholds : Thresholds
  maxFiles : Nat
  skipTestLike : Bool
  command : Value
  samplingMode : String
  defaultLanguage : Language
  safeOnly : Bool
  structuredLogging : Bool
  logLevel : Value

namespace Settings

/-- The settings in use when none are given; `command` is that of the environment. -/
def standard (command : Value) : Settings :=
  ⟨.int 30, .float (.finite (3 / 4)), .int 400, .bool true, command, .str "compact",
    .str "javascript", .bool false, .bool false, .str "INFO"⟩

/-- The settings with one of them changed, if there is one of that name. -/
def set? (s : Settings) (name : String) (v : Value) : Option Settings :=
  match name with
  | "min_evidence" => some { s with minEvidence := v }
  | "min_confidence" => some { s with minConfidence := v }
  | "max_files_per_repo" => some { s with maxFiles := v }
  | "skip_test_like_paths" => some { s with skipTestLike := v }
  | "augmenter_command" => some { s with command := v }
  | "sampling_mode" => some { s with samplingMode := v }
  | "default_language" => some { s with defaultLanguage := v }
  | "safe_only" => some { s with safeOnly := v }
  | "structured_logging" => some { s with structuredLogging := v }
  | "log_level" => some { s with logLevel := v }
  | _ => none

/-- The settings by name. -/
def toFields (s : Settings) : Value.Fields :=
  [("min_evidence", s.minEvidence), ("min_confidence", s.minConfidence),
    ("max_files_per_repo", s.maxFiles), ("skip_test_like_paths", s.skipTestLike),
    ("augmenter_command", s.command), ("sampling_mode", s.samplingMode),
    ("default_language", s.defaultLanguage), ("safe_only", s.safeOnly),
    ("structured_logging", s.structuredLogging), ("log_level", s.logLevel)]

/-! ### Checks -/

/-- A positive integer. -/
def positive (name : String) (v : Value) : Except Failure Nat :=
  match v with
  | .int n => if n < 1 then .error (.notPositive name v) else .ok n.toNat
  | _ => .error (.notPositive name v)

/-- A number between zero and one. -/
def unitNumber (v : Value) : Except Failure Double :=
  match v with
  | .bool b => .ok (.finite (if b then 1 else 0))
  | .int n =>
    if (Double.ofRat? n).isNone then .error .numberTooLarge
    else if n < 0 ∨ 1 < n then .error (.invalidConfidence v)
    else .ok (.finite n)
  | .float x =>
    if x.isFinite && !x.lt (.finite 0) && !(Double.finite 1).lt x then .ok x
    else .error (.invalidConfidence v)
  | _ => .error (.invalidConfidence v)

/-- The text of a value that can be looked up among names; a list or an object cannot. -/
def name? (v : Value) : Except Failure (Option String) :=
  match v with
  | .str s => .ok (some s)
  | .list _ => .error (.notAName v)
  | .object _ => .error (.notAName v)
  | _ => .ok none

/-- One of the two sampling modes. -/
def mode (v : Value) : Except Failure String := do
  match ← name? v with
  | some s => if s = "compact" ∨ s = "full" then return s else .error (.invalidSamplingMode v)
  | none => .error (.invalidSamplingMode v)

/-- One of the languages. -/
def language (v : Value) : Except Failure Language := do
  let languages := Language.all.map (·.name)
  match ← name? v with
  | some s =>
    match Language.ofName? s with
    | some l => return l
    | none => .error (.invalidLanguage v languages)
  | none => .error (.invalidLanguage v languages)

/-- The configuration that settings amount to. -/
def check (s : Settings) : Except Failure Config := do
  let evidence ← positive "min_evidence" s.minEvidence
  let confidence ← unitNumber s.minConfidence
  let maxFiles ← positive "max_files_per_repo" s.maxFiles
  let mode ← mode s.samplingMode
  let language ← language s.defaultLanguage
  return ⟨⟨evidence, confidence⟩, maxFiles, s.skipTestLike.truthy, s.command, mode, language,
    s.safeOnly.truthy, s.structuredLogging.truthy, s.logLevel⟩

/-! ### Sources of settings -/

/-- Settings by name; a name that no setting has is an error. -/
def ofFields (standard : Settings) (fields : Value.Fields) : Except Failure Settings :=
  fields.foldlM (fun s f =>
    match s.set? f.1 f.2 with
    | some s => .ok s
    | none => .error (.unknownSetting f.1)) standard

/-- Settings by name; a name that no setting has is passed over. -/
def ofKnownFields (standard : Settings) (fields : Value.Fields) : Settings :=
  fields.foldl (fun s f => (s.set? f.1 f.2).getD s) standard

/-- The fields of a document that hold the settings: those of the section, if there is one of that
name, or all of them. A document that counts as unset is empty. -/
def documentFields (path sectionName : String) (document : Value) :
    Except Failure Value.Fields :=
  if document.truthy then
    match document with
    | .object fields =>
      let fields : Value.Fields := fields
      match (fields.get? sectionName).getD document with
      | .object nested => .ok nested
      | _ => .error (.notMapping path)
    | _ => .error .noSections
  else .ok []

/-- The settings of a document at a path, none if there is no document. -/
def ofDocument (standard : Settings) (path sectionName : String) (document : Option Value) :
    Except Failure Settings := do
  match document with
  | none => .error (.missingDocument path)
  | some d => return ofKnownFields standard (← documentFields path sectionName d)

end Settings

/-- The configuration in use when no settings are given. -/
def Config.standard : Config :=
  ⟨Thresholds.standard, 400, true, .null, "compact", .javascript, false, false, .str "INFO"⟩

end HouseStyle
