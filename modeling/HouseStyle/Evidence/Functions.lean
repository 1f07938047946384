import HouseStyle.Comment.Basic
import HouseStyle.Evidence.Vote
import HouseStyle.Expression
import HouseStyle.Naming
import HouseStyle.Tree.Source

/-! # Evidence from functions

A function at the top of a file, declared there or bound to a variable there, perhaps exported, is
looked at for its name and for a documenting comment right above it. Every function expression is
looked at for whether it has a name, and every body of at least two statements for whether it opens
with a guard. -/

namespace HouseStyle.Functions

/-- The kinds of functions. -/
def functionKinds : List String :=
  ["function_declaration", "generator_function_declaration", "function_expression", "function",
    "generator_function", "arrow_function", "method_definition"]

/-- The kinds of function expressions that may have a name. -/
def expressionKinds : List String := ["function_expression", "function", "generator_function"]

/-- The kinds of function declarations. -/
def declarationKinds : List String := ["function_declaration", "generator_function_declaration"]

/-- The kinds of variable declarations. -/
def variableKinds : List String := ["lexical_declaration", "variable_declaration"]

/-- A function at the top of a file: the node of its name, the statement that holds it, and the node
that this statement stands in. -/
structure TopLevel where
  name : Option Node
  statement : Node
  parent : Node

/-- The statement at the top of the file for a statement with the given ancestors: itself, or the
export around it. -/
def outermost? (statement : Node) : List Node → Option (Node × Node)
  | [] => none
  | p :: rest =>
    if p.kind = "program" then some (statement, p)
    else if p.kind = "export_statement" then
      match rest with
      | q :: _ => if q.kind = "program" then some (p, q) else none
      | [] => none
    else none

/-- The place of a function at the top of the file, if it has one. -/
def topLevel? (v : Node.Visit) : Option TopLevel :=
  let n := v.node
  if declarationKinds.contains n.kind then
    (outermost? n v.ancestors).map fun o => ⟨n.child? .name, o.1, o.2⟩
  else if expressionKinds.contains n.kind || n.kind == "arrow_function" then
    match v.ancestors with
    | declarator :: declaration :: rest =>
      if declarator.kind = "variable_declarator" ∧ variableKinds.contains declaration.kind ∧
          declarator.isChild .value n then
        (outermost? declaration rest).map fun o => ⟨declarator.child? .name, o.1, o.2⟩
      else none
    | _ => none
  else none

/-- The nearest named child of `parent` before `n`. -/
def previousNamed? (parent n : Node) : Option Node :=
  (parent.namedChildren.takeWhile (!·.same n)).getLast?

/-- Whether a documenting comment ends on the line of a statement or on the one above. -/
def isDocumented (s : Source) (f : TopLevel) : Bool :=
  match previousNamed? f.parent f.statement with
  | some c =>
    c.isComment && Comment.isDoc (s.nodeText c) && s.row f.statement ≤ s.endRow c + 1
  | none => false

/-- The votes on the name of a function at the top of a file. -/
def nameVotes (s : Source) (f : TopLevel) : List Vote :=
  match f.name with
  | some m =>
    if m.kind = "identifier" then
      Vote.either (Naming.wordCount (s.nodeText m) ≤ 1) .functionNamesSingle .functionNamesMulti
    else []
  | none => []

/-- The votes on a function at the top of a file. -/
def topLevelVotes (s : Source) (v : Node.Visit) : List Vote :=
  match topLevel? v with
  | some f =>
    Vote.one .functionsTotal ++ nameVotes s f ++
      if isDocumented s f then Vote.one .functionsWithDoc else []
  | none => []

/-- Whether a statement is a guard: a conditional without alternative that leaves the function. -/
def isGuard (n : Node) : Bool :=
  n.kind == "if_statement" && (n.child? .alternative).isNone &&
    match n.child? .consequence with
    | some c => Expression.isGuardExit c
    | none => false

/-- The votes on the first statement of a function's body. -/
def guardVotes (n : Node) : List Vote :=
  match n.child? .body with
  | some b =>
    if b.kind = "statement_block" then
      match b.codeChildren.filter (·.kind ≠ "empty_statement") with
      | first :: _ :: _ =>
        Vote.either (isGuard first) .guardClauseFunctions .nonGuardClauseFunctions
      | _ => []
    else []
  | none => []

/-- The votes of a function. -/
def votes (s : Source) (v : Node.Visit) : List Vote :=
  (if expressionKinds.contains v.node.kind then
      Vote.either (v.node.child? .name).isSome .functionExprNamed .functionExprAnonymous
    else []) ++
    topLevelVotes s v ++ guardVotes v.node

end HouseStyle.Functions
