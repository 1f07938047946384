import HouseStyle.Value.Literal

/-! # Failures

Every way in which an operation of the library can fail, with the message of those that have one. -/

namespace HouseStyle

/-- Why an operation failed. -/
inductive Failure where
  /-- No counter has this name. -/
  | unknownCounter (name : String)
  /-- This is not the name of a status of rules. -/
  | unknownStatus (name : Value)
  /-- This is not the name of an origin of rules. -/
  | unknownProvenance (name : Value)
  /-- A rule has a value exactly if it is enforced. -/
  | inconsistentRule (value : Value) (status : String)
  /-- A confidence lies between zero and one. -/
  | confidenceOutOfRange (confidence : Number)
  /-- Evidence is not negative. -/
  | negativeEvidence (count : Number)
  /-- Something else stands where a number is expected. -/
  | notANumber (value : Value)
  /-- An integer is too large for a floating-point number. -/
  | numberTooLarge
  /-- A number is divided by zero. -/
  | divisionByZero
  /-- A setting that counts something is a positive integer. -/
  | notPositive (setting : String) (value : Value)
  /-- The least confidence is a number between zero and one. -/
  | invalidConfidence (value : Value)
  /-- There are two sampling modes. -/
  | invalidSamplingMode (value : Value)
  /-- The default language is one of those that can be read. -/
  | invalidLanguage (value : Value) (languages : List String)
  /-- A list or an object stands where a name is expected. -/
  | notAName (value : Value)
  /-- No setting has this name. -/
  | unknownSetting (name : String)
  /-- There is no configuration file. -/
  | missingDocument (path : String)
  /-- The section of a configuration file that holds the settings is not an object. -/
  | notMapping (path : String)
  /-- A configuration file holds something that has no sections. -/
  | noSections
  /-- A log level is given by something that is not a text. -/
  | levelNotText
  /-- A log level names something else that has a text. -/
  | unknownLevel (text : String)
  /-- A log level names something else. -/
  | levelNotNumber
  /-- The arguments of a message do not fit its places. -/
  | argumentMismatch
  /-- A place in a message breaks off. -/
  | incompletePlace
  /-- An undefined number stands where a whole number is expected. -/
  | undefinedNumber
  /-- An undefined number stands where a time is expected. -/
  | undefinedTime
  /-- A time lies outside the calendar. -/
  | timeOutOfRange
  /-- None of the given files could be parsed. -/
  | nothingParsed
  /-- The source of a file has no length. -/
  | sourceNotText
  /-- A command is given by something that is not a text. -/
  | commandNotText
  /-- A command ended with an exit code other than zero. -/
  | commandFailed (exitCode : Int) (detail : String)
  /-- A command printed something that is not JSON. -/
  | commandPrintedNoJson

namespace Failure

/-- The message of a failure, for those that have one. -/
def message? : Failure → Option String
  | unknownCounter name => some ("Unknown signal counter: " ++ name)
  | unknownStatus name => some (name.literal ++ " is not a valid RuleStatus")
  | unknownProvenance name => some (name.literal ++ " is not a valid Provenance")
  | inconsistentRule value status =>
    some ("Inconsistent rule: value=" ++ value.literal ++ " with status=" ++ status)
  | confidenceOutOfRange x =>
    some ("Rule confidence out of range: " ++ (Value.ofNumber x).literal)
  | negativeEvidence n => some ("Negative evidence count: " ++ (Value.ofNumber n).literal)
  | notANumber _ => none
  | numberTooLarge => none
  | divisionByZero => none
  | notPositive setting value =>
    some ("Invalid " ++ setting ++ ": " ++ value.literal ++ ". Expected a positive integer.")
  | invalidConfidence value =>
    some ("Invalid min_confidence: " ++ value.literal ++ ". Expected a number between 0 and 1.")
  | invalidSamplingMode value =>
    some ("Invalid sampling_mode: " ++ value.literal ++ ". Use compact or full.")
  | invalidLanguage value languages =>
    some ("Invalid default_language: " ++ value.literal ++ "; expected one of " ++
      (Value.list (languages.map .str)).literal)
  | notAName _ => none
  | unknownSetting _ => none
  | missingDocument path => some ("Config file not found: " ++ path)
  | notMapping path => some ("Config file " ++ path ++ " does not contain a mapping")
  | noSections => none
  | levelNotText => none
  | unknownLevel text => some ("Unknown level: " ++ Value.quoteText text)
  | levelNotNumber => none
  | argumentMismatch => none
  | incompletePlace => some "incomplete format"
  | undefinedNumber => some "cannot convert float NaN to integer"
  | undefinedTime => some "Invalid value NaN (not a number)"
  | timeOutOfRange => none
  | nothingParsed =>
    some "No parsable source files were found. Check the file list and extensions."
  | sourceNotText => none
  | commandNotText => none
  | commandFailed exitCode detail =>
    some ("Augmenter command failed with exit code " ++ toString exitCode ++
      if detail.isEmpty then "" else ": " ++ detail)
  | commandPrintedNoJson => some "Augmenter command printed invalid JSON"

end Failure

end HouseStyle
