import HouseStyle.Tree.Source

/-! # Languages and parsers

The library takes its parser as an argument: a function from a language and a text to a tree, which
may fail. `parse?` puts the text beside its tree; `parseClean?` also refuses a tree with syntax
errors. A language is chosen by name or by the extension of a path; every extension that is not one
of TypeScript's counts as JavaScript. -/

namespace HouseStyle

/-- The languages that can be read. -/
inductive Language where
  | javascript | typescript | tsx
deriving DecidableEq

namespace Language

/-- The name of a language. -/
def name : Language → String
  | javascript => "javascript"
  | typescript => "typescript"
  | tsx => "tsx"

/-- The languages in the order of their names. -/
def all : List Language := [javascript, tsx, typescript]

/-- The language of a name. -/
def ofName? (s : String) : Option Language := all.find? (·.name == s)

end Language

/-- A tree and whether it has syntax errors. -/
structure Parse where
  root : Node
  hasErrors : Bool

/-- A parser gives the tree of a text, if it has one. -/
abbrev Parser := Language → Text → Option Parse

namespace Parser

/-- The source that a text becomes in the language of that name. -/
def parse? (p : Parser) (language : String) (text : Text) : Option Source :=
  match Language.ofName? language with
  | none => none
  | some l => (p l text).map fun r => ⟨text, r.root, r.hasErrors⟩

/-- The source that a text becomes, if it has no syntax error. -/
def parseClean? (p : Parser) (language : String) (text : Text) : Option Source :=
  (p.parse? language text).filter (!·.hasErrors)

end Parser

end HouseStyle
