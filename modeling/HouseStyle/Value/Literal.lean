import HouseStyle.Number.Shortest
import HouseStyle.Text.Quoted
import HouseStyle.Value.Basic

/-! # Values in messages

How a value is written inside a message: `None`, `True` and `False` for null and the truth values,
numbers as numerals, texts in quotes, lists in brackets and objects in braces. Written by itself
(`Value.plain`), a text stands without its quotes. -/

namespace HouseStyle.Value

/-- A text in quotes. -/
def quoteText (s : String) : String := String.ofList (Text.quoted s.toList)

/-- Pieces with a comma and a space between neighbours. -/
def commaSeparated (pieces : List String) : String := ", ".intercalate pieces

mutual

/-- A value as written inside a message. -/
def literal : Value → String
  | null => "None"
  | bool b => if b then "True" else "False"
  | int n => toString n
  | float x => x.text
  | str s => quoteText s
  | list xs => "[" ++ commaSeparated (literals xs) ++ "]"
  | object fs => "\x7b" ++ commaSeparated (fieldLiterals fs) ++ "\x7d"

/-- Each of several values as written inside a message. -/
def literals : List Value → List String
  | [] => []
  | v :: vs => literal v :: literals vs

/-- Each of several fields as written inside a message. -/
def fieldLiterals : List (String × Value) → List String
  | [] => []
  | (name, v) :: fs => (quoteText name ++ ": " ++ literal v) :: fieldLiterals fs

end

/-- A value as written by itself. -/
def plain : Value → String
  | str s => s
  | v => v.literal

end HouseStyle.Value
