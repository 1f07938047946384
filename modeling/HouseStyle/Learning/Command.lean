import HouseStyle.Failure
import HouseStyle.Value.Json

/-! # Asking a command

Suggestions can come from a command: it gets the profile and a sample of the files as JSON and
prints suggestions as JSON. A compact sample has at most twelve files, each cut after five thousand
characters; a full one has all of them as they are. Running the command is not done here: its result
is an argument. -/

namespace HouseStyle

/-- What a command printed, and the code that it ended with. -/
structure CommandResult where
  stdout : String
  stderr : String
  exitCode : Int

namespace Command

/-- The most files of a compact sample. -/
def maxFiles : Nat := 12

/-- The most characters of a file in a compact sample. -/
def maxCharacters : Nat := 5000

/-- What stands behind a file that was cut. -/
def truncationMark : Text := "\n/* ...truncated... */\n".toList

/-- A text cut to the size of a compact sample. -/
def truncate (t : Text) : Text :=
  if maxCharacters < t.length then t.take maxCharacters ++ truncationMark else t

/-- A source as it stands in a compact sample. What has no length is no source; lists and objects
are not cut. -/
def compactSource : Value → Except Failure Value
  | .str s => .ok (.str (String.ofList (truncate s.toList)))
  | .list xs => .ok (.list xs)
  | .object fs => .ok (.object fs)
  | _ => .error .sourceNotText

/-- A file as it stands in a compact sample. -/
def compactFile (file : Value.Fields) : Except Failure Value := do
  let source ← compactSource ((file.get? "source").getD (.str ""))
  return .object [("path", (file.get? "path").getD (.str "")), ("source", source)]

/-- The sample of files in a mode. -/
def sample (mode : String) (files : List Value.Fields) : Except Failure (List Value) :=
  if mode = "full" then .ok (files.map .object) else (files.take maxFiles).mapM compactFile

/-- What a command gets. -/
def payload (mode : String) (profile : Value) (files : List Value.Fields) :
    Except Failure Value := do
  return .object [("profile", profile), ("sampledFiles", .list (← sample mode files))]

/-- What a command suggested: null if it printed nothing. -/
def suggestions (r : CommandResult) : Except Failure Value :=
  if r.exitCode ≠ 0 then
    .error (.commandFailed r.exitCode
      (String.ofList (Text.trim (Text.unifyNewlines r.stderr.toList))))
  else
    let out := Text.trim (Text.unifyNewlines r.stdout.toList)
    if out.isEmpty then .ok .null
    else
      match Value.ofJson? out with
      | some v => .ok v
      | none => .error .commandPrintedNoJson

end Command

end HouseStyle
