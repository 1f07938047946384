import HouseStyle.Evidence.Extract
import HouseStyle.Learning.Command
import HouseStyle.Learning.Path
import HouseStyle.Learning.Settings
import HouseStyle.Profile
import HouseStyle.Rule.Suggestion

/-! # Learning a profile

A profile is learned from files: each is parsed in the language of its path, its signals are merged,
and rules are inferred. Only so many files are looked at; a file without tree counts among them but
says nothing. If the configuration has a command, its suggestions are merged in. -/

namespace HouseStyle

/-- A file: its path and its text, if the text can be parsed at all. -/
structure SourceFile where
  path : String
  text : Option Text

namespace Learning

/-- The signals with nothing on the names of function expressions. -/
def withoutFunctionNames (s : Signals) : Signals :=
  { s with
    count := fun c =>
      if c = .functionExprNamed ∨ c = .functionExprAnonymous then 0 else s.count c }

/-- The signals of a file, if it has a tree. On paths of tests the names of function expressions do
not count. -/
def signals? (p : Parser) (skipTestLike : Bool) (f : SourceFile) : Option (SourceFile × Signals) :=
  (f.text.bind (p.parse? (Path.language f.path.toList).name)).map fun s =>
    (f, if skipTestLike && Path.isTestLike f.path.toList then withoutFunctionNames s.signals
      else s.signals)

/-- The files that are looked at and have a tree, with their signals. -/
def samples (p : Parser) (config : Config) (files : List SourceFile) :
    List (SourceFile × Signals) :=
  (files.take config.maxFiles).filterMap (signals? p config.skipTestLike)

/-- The profile of files, without suggestions. -/
def infer (config : Config) (found : List (SourceFile × Signals)) : Except Failure Profile :=
  if found.isEmpty then .error .nothingParsed
  else
    inferProfile config.thresholds (Signals.aggregate (found.map (·.2)))
      (found.map (·.1.path))

/-- Merges the suggestions of a command into a profile. -/
def augment (run : String → Value → CommandResult) (config : Config)
    (found : List (SourceFile × Signals)) (profile : Profile) : Except Failure Profile := do
  if !config.command.truthy then return profile
  let files : List Value.Fields := found.map fun f =>
    [("path", .str f.1.path), ("source", .str (String.ofList (f.1.text.getD [])))]
  match config.command with
  | .str command =>
    let payload ← Command.payload config.samplingMode profile.toValue files
    match ← Command.suggestions (run command payload) with
    | .null => return profile
    | suggestions =>
      let (rules, applied) ← profile.rules.augment suggestions config.thresholds
        (.int found.length)
      return { profile with rules := rules, augmentedRules := applied }
  | _ => .error .commandNotText

end Learning

/-- Learns a profile from files. `run` runs a command on a payload. -/
def learn (p : Parser) (run : String → Value → CommandResult) (config : Config)
    (files : List SourceFile) : Except Failure Profile := do
  let found := Learning.samples p config files
  let profile ← Learning.infer config found
  Learning.augment run config found profile

/-! ### Files on disk -/

/-- What a path leads to, if it can be read: its bytes. -/
structure StoredFile where
  path : String
  bytes : Option (List UInt8)

/-- The file of a path that leads to UTF-8, every line ending as one line feed. -/
def StoredFile.read? (f : StoredFile) : Option SourceFile :=
  (f.bytes.bind Text.decode?).map fun t => ⟨f.path, some t.unifyNewlines⟩

/-- Learns a profile from those files that can be read. -/
def learnStored (p : Parser) (run : String → Value → CommandResult) (config : Config)
    (files : List StoredFile) : Except Failure Profile :=
  learn p run config (files.filterMap StoredFile.read?)

end HouseStyle
