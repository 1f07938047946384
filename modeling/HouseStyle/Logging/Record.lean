import HouseStyle.Failure
import HouseStyle.Value.Json

/-! # Log records

A log record is written as one line of JSON: the time in UTC with milliseconds, the level, the
logger, the message with its arguments filled in, and where in the program it was logged. -/

namespace HouseStyle

/-- A log record. The time is given in seconds since 1970 and in milliseconds, each of which loses
its fraction. -/
structure LogRecord where
  logger : String
  level : Number
  path : String
  line : Value
  message : String
  arguments : List Value
  function : Value
  seconds : Number
  milliseconds : Number
  error : Option (String × String)

namespace LogRecord

/-! ### Times -/

/-- A day of the calendar. -/
structure Date where
  year : Int
  month : Int
  day : Int

/-- The date of a day, counted from the first of January 1970. Years are counted from March, so that
the leap day is the last of its year, in eras of 400 years. -/
def dateOfDay (days : Int) : Date :=
  let z := days + 719468
  let era := z / 146097
  let dayOfEra := z % 146097
  let yearOfEra := (dayOfEra - dayOfEra / 1460 + dayOfEra / 36524 - dayOfEra / 146096) / 365
  let dayOfYear := dayOfEra - (365 * yearOfEra + yearOfEra / 4 - yearOfEra / 100)
  let monthFromMarch := (5 * dayOfYear + 2) / 153
  let month := if monthFromMarch < 10 then monthFromMarch + 3 else monthFromMarch - 9
  ⟨yearOfEra + era * 400 + (if month ≤ 2 then 1 else 0), month,
    dayOfYear - (153 * monthFromMarch + 2) / 5 + 1⟩

/-- An integer with zeros in front, up to a width in which a sign counts. -/
def padded (width : Nat) (n : Int) : String :=
  let digits := Nat.toDigits 10 n.natAbs
  let sign := if n < 0 then ['-'] else []
  String.ofList (sign ++ List.replicate (width - sign.length - digits.length) '0' ++ digits)

/-- A number without its fraction. -/
def wholePart : Number → Except Failure Int
  | .truth b => .ok (Number.ofTruth b)
  | .int n => .ok n
  | .float .nan => .error .undefinedNumber
  | .float (.infinite _) => .error .numberTooLarge
  | .float x => .ok x.truncate

/-- The last whole second up to a time. -/
def wholeSecond : Number → Except Failure Int
  | .truth b => .ok (Number.ofTruth b)
  | .int n => .ok n
  | .float .nan => .error .undefinedTime
  | .float (.infinite _) => .error .numberTooLarge
  | .float x => .ok x.toRat.floor

/-- One more than the largest count of seconds, which has 64 bits. -/
def secondLimit : Int := 9223372036854775808

/-- One more than the largest year that is written, which has 32 bits. -/
def yearLimit : Int := 2147483648

/-- The date of a second. The calendar has the years that differ from 1900 by a number of 32 bits.
-/
def dateOfSecond (second : Int) : Except Failure Date :=
  let date := dateOfDay (second / 86400)
  if second < -secondLimit ∨ secondLimit ≤ second then .error .numberTooLarge
  else if date.year < 1900 - yearLimit ∨ 1900 + yearLimit ≤ date.year then .error .timeOutOfRange
  else if yearLimit ≤ date.year then .error .numberTooLarge
  else .ok date

/-- A time as text: date, time of day and milliseconds. -/
def timestamp (seconds milliseconds : Number) : Except Failure String := do
  let second ← wholeSecond seconds
  let date ← dateOfSecond second
  let fraction ← wholePart milliseconds
  let time := second % 86400
  return toString date.year ++ "-" ++ padded 2 date.month ++ "-" ++ padded 2 date.day ++ "T" ++
    padded 2 (time / 3600) ++ ":" ++ padded 2 (time / 60 % 60) ++ ":" ++ padded 2 (time % 60) ++
    "." ++ padded 3 fraction ++ "Z"

/-! ### Messages -/

/-- A value as a whole number inside a message. -/
def wholeNumber (v : Value) : Except Failure String :=
  match v.number? with
  | some x => do return toString (← wholePart x)
  | none => .error .argumentMismatch

/-- Fills arguments into the places of a message: `%s` for any value, `%d` for a whole number, and
`%%` for a percent sign. Places and arguments must be as many. -/
def fill : Text → List Value → Except Failure String
  | [], [] => .ok ""
  | [], _ :: _ => .error .argumentMismatch
  | '%' :: '%' :: t, args => do return "%" ++ (← fill t args)
  | '%' :: 's' :: t, v :: args => do return v.plain ++ (← fill t args)
  | '%' :: 'd' :: t, v :: args => do
    let n ← wholeNumber v
    return n ++ (← fill t args)
  | '%' :: [], _ => .error .incompletePlace
  | '%' :: _, _ => .error .argumentMismatch
  | c :: t, args => do return String.singleton c ++ (← fill t args)

/-- The message of a record; without arguments it stands as it is. A single object among the
arguments may go unused, if it has entries. -/
def text (r : LogRecord) : Except Failure String :=
  let m := r.message.toList
  match r.arguments with
  | [] => .ok r.message
  | [.object (_ :: _)] => fill m [] <|> fill m r.arguments
  | args => fill m args

/-! ### Records -/

/-- The levels that have a name. -/
def levelNames : List (Int × String) :=
  [(50, "CRITICAL"), (40, "ERROR"), (30, "WARNING"), (20, "INFO"), (10, "DEBUG"), (0, "NOTSET")]

/-- The name of a level. -/
def levelName (level : Number) : String :=
  match levelNames.find? fun e => level.same (.int e.1) with
  | some e => e.2
  | none => "Level " ++ (Value.ofNumber level).plain

/-- The base name of a path without its last extension; points at its start make no extension. -/
def moduleName (path : String) : String :=
  let base := (Text.parts '/' path.toList).getLast?.getD []
  match Text.cutLast? '.' base with
  | some (before, _) =>
    String.ofList (if before.all (· == '.') then base else before)
  | none => String.ofList base

/-- An error as text: its class and its message, if there is one. -/
def errorText (e : String × String) : String := if e.2.isEmpty then e.1 else e.1 ++ ": " ++ e.2

/-- A record as a line of JSON. Of two faults, that of the time is reported. -/
def toJson (r : LogRecord) : Except Failure String := do
  let time ← timestamp r.seconds r.milliseconds
  let message ← r.text
  let fields : Value.Fields :=
    [("ts", .str time), ("level", .str (levelName r.level)), ("logger", .str r.logger),
      ("msg", .str message), ("module", .str (moduleName r.path)), ("func", r.function),
      ("line", r.line)]
  let error : Value.Fields :=
    match r.error with
    | some e => [("exception", .str (errorText e))]
    | none => []
  return (Value.object (fields ++ error)).toJson

end LogRecord

end HouseStyle
