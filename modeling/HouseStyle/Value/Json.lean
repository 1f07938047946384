import HouseStyle.Number.Reader
import HouseStyle.Text.Quoted
import HouseStyle.Value.Basic

/-! # JSON texts

Reading and writing values as JSON.

`Value.ofJson?` reads one value with blanks around it. A number with a point or an exponent is a
floating-point number, any other an integer of whatever size; `NaN`, `Infinity` and `-Infinity` are
read as well. Control characters inside a string are refused. Of two fields with one name the later
gives the value. An escaped surrogate that has no partner becomes the replacement character.

`Value.toJson` writes `", "` between items and `": "` after names, and everything outside printable
ASCII by its UTF-16 units. -/

namespace HouseStyle.Value

open HouseStyle.Text

/-! ### Reading -/

/-- The text without leading JSON blanks. -/
def skipBlanks (t : Text) : Text :=
  t.dropWhile fun c => c == ' ' || c == '\t' || c == '\n' || c == '\r'

/-- The value of a hexadecimal digit. -/
def hexValue? (c : Char) : Option Nat :=
  if c.isDigit then some (c.toNat - 48)
  else if 'a' ≤ c ∧ c ≤ 'f' then some (c.toNat - 87)
  else if 'A' ≤ c ∧ c ≤ 'F' then some (c.toNat - 55)
  else none

/-- The value of four hexadecimal digits. -/
def hexValue4? (a b c d : Char) : Option Nat :=
  match hexValue? a, hexValue? b, hexValue? c, hexValue? d with
  | some a, some b, some c, some d => some (((a * 16 + b) * 16 + c) * 16 + d)
  | _, _, _, _ => none

/-- The character that an escape letter stands for. -/
def escaped? (c : Char) : Option Char :=
  match c with
  | '\x22' => some '\x22'
  | '\\' => some '\\'
  | '/' => some '/'
  | 'b' => some '\x08'
  | 'f' => some '\x0c'
  | 'n' => some '\n'
  | 'r' => some '\r'
  | 't' => some '\t'
  | _ => none

/-- The character of a surrogate pair. -/
def pairChar (high low : Nat) : Char :=
  Char.ofNat (0x10000 + (high - 0xd800) * 0x400 + (low - 0xdc00))

/-- Reads the rest of a string, up to and with its closing quote. `high` is a high surrogate that
waits for its partner, `acc` the characters read so far, latest first. -/
def readString? (high : Option Nat) (acc : Text) : Text → Option (Text × Text)
  | [] => none
  | '\x22' :: t => some ((flush high acc).reverse, t)
  | '\\' :: 'u' :: a :: b :: c :: d :: t =>
    match hexValue4? a b c d with
    | none => none
    | some n =>
      if 0xdc00 ≤ n ∧ n < 0xe000 ∧ high.isSome then
        readString? none (pairChar (high.getD 0) n :: acc) t
      else if 0xd800 ≤ n ∧ n < 0xdc00 then readString? (some n) (flush high acc) t
      else
        let c := if 0xd800 ≤ n ∧ n < 0xe000 then Char.ofNat 0xfffd else Char.ofNat n
        readString? none (c :: flush high acc) t
  | '\\' :: e :: t =>
    match escaped? e with
    | none => none
    | some c => readString? none (c :: flush high acc) t
  | c :: t =>
    if c = '\\' ∨ c.toNat < 0x20 then none else readString? none (c :: flush high acc) t
where
  /-- A surrogate that waited in vain. -/
  flush (high : Option Nat) (acc : Text) : Text :=
    if high.isSome then Char.ofNat 0xfffd :: acc else acc

/-- The fraction of a number, with its point; nothing if no digit follows the point. -/
def takeFraction (t : Text) : Text × Text :=
  match t with
  | '.' :: r =>
    let d := Double.takeDigits r
    if d.1.isEmpty then ([], t) else ('.' :: d.1, d.2)
  | _ => ([], t)

/-- The exponent of a number, with its mark; nothing if no digit ends it. -/
def takeExponent (t : Text) : Text × Text :=
  match t with
  | c :: r =>
    if c = 'e' ∨ c = 'E' then
      let sign := r.take 1 |>.filter fun s => s == '+' || s == '-'
      let d := Double.takeDigits (r.drop sign.length)
      if d.1.isEmpty then ([], t) else (c :: sign ++ d.1, d.2)
    else ([], t)
  | [] => ([], t)

/-- Reads a number without its sign. -/
def readNumber? (negative : Bool) (t : Text) : Option (Value × Text) :=
  let whole :=
    match t with
    | '0' :: r => (['0'], r)
    | _ => Double.takeDigits t
  if whole.1.isEmpty then none
  else
    let fraction := takeFraction whole.2
    let exponent := takeExponent fraction.2
    if fraction.1.isEmpty ∧ exponent.1.isEmpty then
      let n : Int := Double.digitsValue whole.1
      some (int (if negative then -n else n), exponent.2)
    else
      (Double.readNumeral? (whole.1 ++ fraction.1 ++ exponent.1)).map fun x =>
        (float (if negative then x.neg else x), exponent.2)

/-- Reads a word that stands for a value. -/
def readWord? (t : Text) : Option (Value × Text) :=
  let words : List (String × Value) :=
    [("null", null), ("true", bool true), ("false", bool false), ("NaN", float .nan),
      ("Infinity", float (.infinite false)), ("-Infinity", float (.infinite true))]
  words.findSome? fun w =>
    let cs := w.1.toList
    if cs.isPrefixOf t then some (w.2, t.drop cs.length) else none

mutual

/-- Reads one value; `fuel` bounds the depth and the number of items. -/
def readValue? : Nat → Text → Option (Value × Text)
  | 0, _ => none
  | fuel + 1, t =>
    match t with
    | [] => none
    | '\x22' :: r => (readString? none [] r).map fun s => (str (String.ofList s.1), s.2)
    | '[' :: r =>
      match skipBlanks r with
      | ']' :: r => some (list [], r)
      | r => readItems? fuel [] r
    | '\x7b' :: r =>
      match skipBlanks r with
      | '\x7d' :: r => some (object [], r)
      | r => readFields? fuel [] r
    | c :: r =>
      match readWord? t with
      | some v => some v
      | none => if c = '-' then readNumber? true r else readNumber? false t

/-- Reads the rest of a list, of which `acc` holds the items so far, latest first. -/
def readItems? : Nat → List Value → Text → Option (Value × Text)
  | 0, _, _ => none
  | fuel + 1, acc, t =>
    match readValue? fuel t with
    | none => none
    | some (v, r) =>
      match skipBlanks r with
      | ']' :: r => some (list (v :: acc).reverse, r)
      | ',' :: r => readItems? fuel (v :: acc) (skipBlanks r)
      | _ => none

/-- Reads the rest of an object, of which `acc` holds the fields so far. -/
def readFields? : Nat → Fields → Text → Option (Value × Text)
  | 0, _, _ => none
  | fuel + 1, acc, t =>
    match t with
    | '\x22' :: r =>
      match readString? none [] r with
      | none => none
      | some (name, r) =>
        match skipBlanks r with
        | ':' :: r =>
          match readValue? fuel (skipBlanks r) with
          | none => none
          | some (v, r) =>
            let acc := acc.set (String.ofList name) v
            match skipBlanks r with
            | '\x7d' :: r => some (object acc, r)
            | ',' :: r => readFields? fuel acc (skipBlanks r)
            | _ => none
        | _ => none
    | _ => none

end

/-- The value of a JSON text. Every step takes a character, so the length of the text bounds them.
-/
def ofJson? (t : Text) : Option Value :=
  match readValue? (t.length + 1) (skipBlanks t) with
  | some (v, r) => if (skipBlanks r).isEmpty then some v else none
  | none => none

/-! ### Writing -/

/-- One UTF-16 unit, escaped. -/
def escapeUnit (n : Nat) : Text := '\\' :: 'u' :: hexDigits 4 n

/-- One character of a JSON string. -/
def jsonChar (c : Char) : Text :=
  if c = '\x22' ∨ c = '\\' then ['\\', c]
  else if c = '\n' then ['\\', 'n']
  else if c = '\r' then ['\\', 'r']
  else if c = '\t' then ['\\', 't']
  else if c = '\x08' then ['\\', 'b']
  else if c = '\x0c' then ['\\', 'f']
  else if 0x20 ≤ c.toNat ∧ c.toNat < 0x7f then [c]
  else if c.toNat < 0x10000 then escapeUnit c.toNat
  else
    let n := c.toNat - 0x10000
    escapeUnit (0xd800 + n / 0x400) ++ escapeUnit (0xdc00 + n % 0x400)

/-- A JSON string. -/
def jsonString (s : String) : String :=
  "\"" ++ String.ofList (s.toList.flatMap jsonChar) ++ "\""

/-- A floating-point number in JSON. -/
def jsonNumber : Double → String
  | .nan => "NaN"
  | .infinite negative => if negative then "-Infinity" else "Infinity"
  | x => x.text

mutual

/-- A value as JSON text. -/
def toJson : Value → String
  | null => "null"
  | bool b => if b then "true" else "false"
  | int n => toString n
  | float x => jsonNumber x
  | str s => jsonString s
  | list xs => "[" ++ ", ".intercalate (toJsonItems xs) ++ "]"
  | object fs => "\x7b" ++ ", ".intercalate (toJsonFields fs) ++ "\x7d"

/-- Each of several values as JSON text. -/
def toJsonItems : List Value → List String
  | [] => []
  | v :: vs => toJson v :: toJsonItems vs

/-- Each of several fields as JSON text. -/
def toJsonFields : List (String × Value) → List String
  | [] => []
  | (name, v) :: fs => (jsonString name ++ ": " ++ toJson v) :: toJsonFields fs

end

end HouseStyle.Value
