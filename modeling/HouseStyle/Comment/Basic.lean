import HouseStyle.Text.Word

/-! # Comments and the code before them

Which line comments say something, and which code is worth lining up comments behind.

A line comment is *ignorable* if its body is blank, a ruler of punctuation, or addressed to a tool.
Code is *alignable* if it looks like an item of a list, an opening bracket, a key or an assignment;
headers of control flow, exits and case labels are not. -/

namespace HouseStyle.Comment

open HouseStyle.Text

/-- The characters that rulers are made of. -/
def isRulerChar (c : Char) : Bool := ['-', '=', '*', '_', '/', '#'].contains c

/-- The letter that a character counts as when case is ignored: besides the capitals, the long `s`,
the dotted capital and the dotless small `i`, and the Kelvin sign. -/
def foldChar (c : Char) : Char :=
  if c.toNat = 0x17f then 's'
  else if c.toNat = 0x130 ∨ c.toNat = 0x131 then 'i'
  else if c.toNat = 0x212a then 'k'
  else c.toLower

/-- Whether a text starts with a word, given in small letters, when case is ignored. -/
def startsFolded (word t : Text) : Bool := word.isPrefixOf ((t.take word.length).map foldChar)

/-- The first words of comments that are addressed to tools, in small letters. -/
def directiveWords : List String :=
  ["eslint", "istanbul", "jshint", "jscs", "sourcemappingurl", "region", "endregion"]

/-- Whether a text opens with a directive. -/
def isDirective (t : Text) : Bool :=
  directiveWords.any fun w => startsFolded w.toList t && endsWord (t.drop w.length)

/-- Whether a text opens with a pragma. -/
def isPragma (t : Text) : Bool := t.head? == some '#' || startsFolded ['@', 't', 's', '-'] t

/-- Whether the body of a line comment says nothing about its author's habits. -/
def isIgnorable (body : Text) : Bool :=
  let t := body.trim
  t.isEmpty || t.all isRulerChar || isDirective t || isPragma t

/-- Whether the body of a line comment says something. -/
def isMeaningful (body : Text) : Bool := !isIgnorable body

/-- The body of a line comment. -/
def lineBody? : Text → Option Text
  | '/' :: '/' :: body => some body
  | _ => none

theorem lineBody?_eq_some_iff {t body : Text} :
    lineBody? t = some body ↔ t = '/' :: '/' :: body := by
  constructor
  · intro h
    unfold lineBody? at h
    split at h
    · rw [Option.some.inj h]
    · cases h
  · rintro rfl
    rfl

/-- Whether a comment documents what follows it. -/
def isDoc (t : Text) : Bool :=
  List.isPrefixOf ['/', '*', '*'] t && !List.isPrefixOf ['/', '*', '*', '/'] t

/-! ### Code before a comment -/

/-- Whether a text starts with one of several words that end there. -/
def startsWithWord (words : List String) (t : Text) : Bool :=
  words.any fun w => w.toList.isPrefixOf t && endsWord (t.drop w.length)

/-- Whether a text opens with the header of a control-flow construct. -/
def isControlHeader (t : Text) : Bool :=
  ["if", "for", "while", "switch", "catch"].any fun w =>
    w.toList.isPrefixOf t && (trimLeft (t.drop w.length)).head? == some '('

/-- A character that can start a plain key. -/
def isKeyStart (c : Char) : Bool := c.isAlpha || c == '_' || c == '$'

/-- A quote. -/
def isQuote (c : Char) : Bool := c == '\x27' || c == '\x22'

/-- What follows a key, plain or in quotes, at the start of a text. -/
def afterKey? : Text → Option Text
  | [] => none
  | c :: t =>
    if isQuote c then
      let body := t.takeWhile (!isQuote ·)
      match t.dropWhile (!isQuote ·) with
      | _ :: rest => if body.isEmpty then none else some rest
      | [] => none
    else if isKeyStart c then some (t.dropWhile fun d => isWord d || d == '$')
    else none

/-- Whether a text opens with a key and a colon. -/
def startsWithKey (t : Text) : Bool :=
  match afterKey? t with
  | some rest => (trimLeft rest).head? == some ':'
  | none => false

/-- Whether a text holds an equals sign that assigns: not followed by another, and not preceded by a
character that makes it part of a comparison. `before` is the character read last. -/
def hasAssignmentAfter (before : Option Char) : Text → Bool
  | [] => false
  | c :: t =>
    (c == '=' && t.head? != some '=' &&
        !(before.any fun b => ['=', '!', '<', '>'].contains b)) ||
      hasAssignmentAfter (some c) t

/-- Whether a text holds an assignment. -/
def hasAssignment (t : Text) : Bool := hasAssignmentAfter none t

/-- Whether code is worth lining up a comment behind. -/
def isAlignable (code : Text) : Bool :=
  let t := code.trim
  if t.isEmpty || isControlHeader t || startsWithWord ["return", "throw"] t ||
      startsWithWord ["case", "default"] t then
    false
  else
    t.head? == some '[' || t.getLast? == some ',' || t.getLast? == some '\x7b' ||
      startsWithKey t || hasAssignment t

end HouseStyle.Comment
