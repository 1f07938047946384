import HouseStyle.Failure
import HouseStyle.Value.Basic

/-! # Loggers

Loggers have a level, hand their records on to the logger above or not, and have handlers.
Configuring one sets its level; if structured lines are asked for, it also gets a single handler
that writes them and hands nothing on. Loggers are kept by name; the one above all others has the
name `root`, and no name at all stands for it too. -/

namespace HouseStyle

/-- What a handler writes. -/
inductive LogFormat where
  | structured
deriving DecidableEq

/-- A logger. -/
structure Logger where
  level : Int
  propagate : Bool
  handlers : List LogFormat

/-- A logger that was never configured. -/
def Logger.pristine : Logger := ⟨0, true, []⟩

/-- Loggers by name. -/
abbrev Loggers := String → Logger

namespace Loggers

/-- Loggers that were never configured. -/
def pristine : Loggers := fun _ => .pristine

/-- The logger of a name. -/
def get (ls : Loggers) (name : String) : Logger := ls (if name.isEmpty then "root" else name)

/-- The loggers with that of one name exchanged. -/
def set (ls : Loggers) (name : String) (logger : Logger) : Loggers := fun other =>
  if other = (if name.isEmpty then "root" else name) then logger else ls other

/-- The capitals of a character, as far as they are capitals of ASCII. -/
def capitals (c : Char) : List Char :=
  if c.toNat = 0x131 then ['I']
  else if c.toNat = 0x17f then ['S']
  else if c.toNat = 0xfb05 ∨ c.toNat = 0xfb06 then ['S', 'T']
  else [c.toUpper]

/-- The level of a name in any case; a name that means nothing stands for `INFO`. Two names mean
something that is not a level. -/
def levelOf (name : String) : Except Failure Int :=
  match String.ofList (name.toList.flatMap capitals) with
  | "NOTSET" => .ok 0
  | "DEBUG" => .ok 10
  | "INFO" => .ok 20
  | "WARN" => .ok 30
  | "WARNING" => .ok 30
  | "ERROR" => .ok 40
  | "CRITICAL" => .ok 50
  | "FATAL" => .ok 50
  | "BASIC_FORMAT" => .error (.unknownLevel "%(levelname)s:%(name)s:%(message)s")
  | "_STYLES" => .error .levelNotNumber
  | _ => .ok 20

/-- Configures a logger. -/
def configure (ls : Loggers) (name : String) (structured : Bool) (level : Value) :
    Except Failure Loggers :=
  match level with
  | .str s => do
    let level ← levelOf s
    let logger : Logger :=
      if structured then ⟨level, false, [.structured]⟩ else { ls.get name with level := level }
    return ls.set name logger
  | _ => .error .levelNotText

end Loggers

end HouseStyle
