import HouseStyle.Evidence.Functions

/-! # Evidence from imports

The modules that a file imports, and those that it requires, each make a list in the order of the
file. A list of at least two names votes for or against alphabetical order, with one less than its
length. -/

namespace HouseStyle.Imports

/-- The text of a string between its quotes. -/
def stringValue (s : Source) (n : Node) : Text := (s.nodeText n).inner

/-- The module that a call requires: a call of `require` with one string. -/
def required? (s : Source) (n : Node) : Option Text :=
  if n.kind = "call_expression" then
    match n.child? .function, n.child? .arguments with
    | some f, some a =>
      if f.kind = "identifier" ∧ s.nodeText f = "require".toList then
        match a.codeChildren with
        | [m] => if m.kind = "string" then some (stringValue s m) else none
        | _ => none
      else none
    | _, _ => none
  else none

/-- The modules that a statement imports. -/
def importedBy (s : Source) (n : Node) : List Text :=
  if n.kind = "import_statement" then
    match n.child? .source with
    | some m => [stringValue s m]
    | none => []
  else []

/-- The modules that a statement requires: in its declarators, or by itself. -/
def requiredBy (s : Source) (n : Node) : List Text :=
  if Functions.variableKinds.contains n.kind then
    (n.namedChildren.filter (·.kind == "variable_declarator")).filterMap fun d =>
      (d.child? .value).bind (required? s)
  else if n.kind = "expression_statement" then (n.codeChildren.head?.bind (required? s)).toList
  else []

/-- The vote of a list of modules. -/
def orderVotes (names : List Text) : List Vote :=
  match Expression.orderingVote? names with
  | some (sorted, weight) =>
    [(if sorted then .importSortedGroups else .importUnsortedGroups, (weight : Int))]
  | none => []

/-- The votes of a file on the order of its imports. -/
def votes (s : Source) : List Vote :=
  let statements := s.root.codeChildren
  orderVotes (statements.flatMap (importedBy s)) ++ orderVotes (statements.flatMap (requiredBy s))

end HouseStyle.Imports
