import HouseStyle.Number.Basic
import HouseStyle.Text.Basic

/-! # Values

Settings, suggestions and payloads are data of no fixed shape: `Value` is null, a truth value, an
integer, a floating-point number, a text, a list, or an object. The fields of an object keep the
order in which they were first written, and a name stands once: `Fields.set` keeps it so, and values
that are read are `Value.Regular`. -/

namespace HouseStyle

/-- Data of any shape. -/
inductive Value where
  | null
  | bool (b : Bool)
  | int (n : Int)
  | float (x : Double)
  | str (s : String)
  | list (items : List Value)
  | object (fields : List (String × Value))

namespace Value

instance : Inhabited Value := ⟨null⟩

/-- Whether a value is null. -/
def isNull : Value → Bool
  | null => true
  | _ => false

/-- Whether a value counts as set: neither null, nor false, nor zero, nor empty. -/
def truthy : Value → Bool
  | null => false
  | bool b => b
  | int n => n ≠ 0
  | float (.finite q) => q ≠ 0
  | float .negZero => false
  | float _ => true
  | str s => !s.isEmpty
  | list xs => !xs.isEmpty
  | object fs => !fs.isEmpty

/-- Whether a value is the text `s`. -/
def isStr (s : String) : Value → Bool
  | str s' => s' == s
  | _ => false

/-- The number, if the value is one; a truth value counts. -/
def number? : Value → Option Number
  | bool b => some (.truth b)
  | int n => some (.int n)
  | float x => some (.float x)
  | _ => none

/-- A number as a value. -/
def ofNumber : Number → Value
  | .truth b => bool b
  | .int n => int n
  | .float x => float x

/-- The fields, if the value is an object. -/
def fields? : Value → Option (List (String × Value))
  | object fs => some fs
  | _ => none

/-- A list of names with values. -/
abbrev Fields := List (String × Value)

/-- The value under a name. -/
def Fields.get? (fs : Fields) (name : String) : Option Value := fs.lookup name

/-- The value under a name, null if there is none. -/
def Fields.getD (fs : Fields) (name : String) : Value := (fs.lookup name).getD null

/-- Puts a value under a name: in the place of the one that stood there, or at the end. -/
def Fields.set (fs : Fields) (name : String) (v : Value) : Fields :=
  if fs.any (·.1 == name) then fs.map fun f => if f.1 == name then (name, v) else f
  else fs ++ [(name, v)]

end Value

end HouseStyle
