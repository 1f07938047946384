import HouseStyle.Evidence.Functions

/-! # Evidence from constructs

The votes of every kind of construct that shows a habit: conditionals, ternaries, switches, chains
of member accesses, strings, calls, lists, and statements that may end with a semicolon. `nodeVotes`
chooses by the kind of the node; a node that is missing from the text or that stands for an error
does not vote. -/

namespace HouseStyle.Constructs

/-! ### Statements -/

/-- Whether a statement stands in a block of several, and not first. -/
def isLaterStatement (v : Node.Visit) : Bool :=
  match v.parent? with
  | some p =>
    if p.kind = "statement_block" ∨ p.kind = "program" then
      match p.codeChildren with
      | first :: _ :: _ => !first.same v.node
      | _ => false
    else false
  | none => false

/-- The votes on the line above a statement. -/
def blankBeforeVotes (s : Source) (v : Node.Visit) (yes no : Counter) : List Vote :=
  if isLaterStatement v then Vote.either (Expression.blankLineBefore (s.row v.node) s.lines) yes no
  else []

/-- Whether a statement stands in the header of a loop, where a semicolon is not a matter of style.
-/
def isLoopHeader (v : Node.Visit) : Bool :=
  match v.parent? with
  | some p =>
    (p.kind == "for_statement" || p.kind == "for_in_statement") && !p.isChild .body v.node
  | none => false

/-- The votes on the end of a statement. -/
def semicolonVotes (s : Source) (v : Node.Visit) : List Vote :=
  let t := s.nodeText v.node
  if isLoopHeader v || t.isEmpty then []
  else Vote.either (t.trimRight.getLast? == some ';') .semicolonsYes .semicolonsNo

/-- The votes of a return. -/
def returnVotes (s : Source) (v : Node.Visit) : List Vote :=
  semicolonVotes s v ++ blankBeforeVotes s v .blankBeforeReturnYes .blankBeforeReturnNo

/-- The declarators of a declaration. -/
def declarators (n : Node) : List Node := n.namedChildren.filter (·.kind == "variable_declarator")

/-- Neighbours of a list, as pairs. -/
def neighbours {α : Type} (xs : List α) : List (α × α) := xs.zip xs.tail

/-- The votes of a declaration: its end, and the commas between its declarators. -/
def declarationVotes (s : Source) (v : Node.Visit) : List Vote :=
  semicolonVotes s v ++
    (neighbours (declarators v.node)).flatMap fun p =>
      Vote.either? ((Expression.commaPlacement? (s.between p.1 p.2)).map (· == .leading))
        .varCommaLeading .varCommaTrailing

/-! ### Conditionals -/

/-- The votes on the order of comparisons in a condition. -/
def yodaVotes (n : Node) : List Vote :=
  if n.kind = "parenthesized_expression" then
    n.codeChildren.attach.flatMap fun c => yodaVotes c.1
  else if n.kind = "binary_expression" then
    let op := ((n.child? .operator).map (·.kind)).getD ""
    if Expression.logicalOperators.contains op then
      (match _h : n.child? .left with
        | some c => yodaVotes c
        | none => []) ++
        match _h : n.child? .right with
        | some c => yodaVotes c
        | none => []
    else if Expression.comparisonOperators.contains op then
      Vote.either? (Expression.literalFirst? (n.child? .left) (n.child? .right)) .yodaYes .yodaNo
    else []
  else []
termination_by n.size
decreasing_by
  · exact Node.size_lt_of_codeChild c.2
  · exact Node.size_lt_of_child? _h
  · exact Node.size_lt_of_child? _h

/-- The votes on the braces of a conditional on one line, without alternative. -/
def braceVotes (s : Source) (n : Node) : List Vote :=
  if (n.child? .alternative).isSome then []
  else
    match n.child? .consequence with
    | some c =>
      if s.isMultiline n then []
      else if c.kind = "statement_block" then
        if c.codeChildren.length = 1 then Vote.one .ifWithBraces else []
      else Vote.one .ifWithoutBraces
    | none => []

/-- The votes of a conditional. -/
def ifVotes (s : Source) (v : Node.Visit) : List Vote :=
  ((v.node.child? .condition).map yodaVotes).getD [] ++
    blankBeforeVotes s v .blankBeforeIfYes .blankBeforeIfNo ++ braceVotes s v.node

/-- The three parts of a ternary. -/
structure TernaryParts where
  test : Node
  consequence : Node
  alternative : Node

/-- The parts of a ternary, if all are there. -/
def ternaryParts? (n : Node) : Option TernaryParts :=
  match n.child? .condition, n.child? .consequence, n.child? .alternative with
  | some t, some c, some a => some ⟨t, c, a⟩
  | _, _, _ => none

/-- Where the operators of a ternary over several lines stand. -/
def ternaryPlacement? (s : Source) (n : Node) : Option Placement :=
  match ternaryParts? n with
  | some p =>
    if s.isMultiline n then
      Expression.ternaryPlacement? (s.between p.test p.consequence)
        (s.between p.consequence p.alternative)
    else none
  | none => none

/-- The votes of a ternary. -/
def ternaryVotes (s : Source) (n : Node) : List Vote :=
  Vote.either? ((ternaryPlacement? s n).map (· == .leading)) .ternaryLeading .ternaryTrailing

/-! ### Switches -/

/-- Whether a node is a label of a switch. -/
def isCase (n : Node) : Bool := n.kind == "switch_case" || n.kind == "switch_default"

/-- The break statements right under a case label. -/
def breaks (case : Node) : List Node := (case.childrenAs .body).filter (·.kind == "break_statement")

/-- The votes of a case label and its breaks, in a switch at a column. -/
def caseVotes (s : Source) (switchColumn : Nat) (case : Node) : List Vote :=
  let column := s.column case
  Vote.either (switchColumn < column) .switchCaseIndented .switchCaseFlat ++
    (breaks case).flatMap fun b =>
      Vote.either (s.column b ≤ column) .switchBreakMatchCase .switchBreakIndented

/-- The votes of a switch. -/
def switchVotes (s : Source) (n : Node) : List Vote :=
  match n.child? .body with
  | some b => (b.codeChildren.filter isCase).flatMap (caseVotes s (s.column n))
  | none => []

/-! ### Expressions -/

/-- The width of the blanks before the member access that a line continues with. -/
def continuationWidth? (line : Text) : Option Nat :=
  match line.trimLeft with
  | '.' :: _ => some (line.length - line.trimLeft.length)
  | '?' :: '.' :: _ => some (line.length - line.trimLeft.length)
  | _ => none

/-- The votes of a member access on a later line than its object. -/
def memberVotes (s : Source) (n : Node) : List Vote :=
  match n.child? .object, n.child? .property with
  | some o, some p =>
    if s.row o < s.row p then
      Vote.either? ((continuationWidth? (s.line (s.row p))).map (· ≤ s.column o))
        .memberAligned .memberIndented
    else []
  | _, _ => []

/-- The votes of a string: the quote it is written with. -/
def stringVotes (s : Source) (n : Node) : List Vote :=
  match (s.nodeText n).head? with
  | some '\x27' => Vote.one .quotesSingle
  | some '\x22' => Vote.one .quotesDouble
  | _ => []

/-- The votes of a call with arguments over several lines: whether the first one stands on the line
of the parenthesis. -/
def callVotes (s : Source) (n : Node) : List Vote :=
  match n.child? .arguments with
  | some a =>
    match a.kind, a.codeChildren with
    | "arguments", first :: _ =>
      if s.isMultiline a then
        Vote.either (s.row first = s.row a) .callArgsCompact .callArgsExpanded
      else []
    | _, _ => []
  | none => []

/-- The votes of a list over several lines: whether a comma follows its last item. -/
def listVotes (s : Source) (n : Node) : List Vote :=
  let items := n.codeChildren
  match items.getLast? with
  | some last =>
    if 2 ≤ items.length ∧ s.isMultiline n then
      Vote.either ((s.text.slice (s.stop last) (s.stop n - 1)).contains ',')
        .trailingCommaYes .trailingCommaNo
    else []
  | none => []

/-! ### All kinds -/

/-- The kinds of lists that may end with a comma. -/
def listKinds : List String := ["formal_parameters", "arguments", "array", "object"]

/-- The votes of a node. -/
def nodeVotes (s : Source) (v : Node.Visit) : List Vote :=
  let n := v.node
  if n.missing || n.kind == "ERROR" then []
  else if n.kind = "if_statement" then ifVotes s v
  else if n.kind = "ternary_expression" then ternaryVotes s n
  else if n.kind = "switch_statement" then switchVotes s n
  else if n.kind = "member_expression" then memberVotes s n
  else if n.kind = "string" then stringVotes s n
  else if n.kind = "expression_statement" then semicolonVotes s v
  else if n.kind = "import_statement" then semicolonVotes s v
  else if n.kind = "return_statement" then returnVotes s v
  else if n.kind = "call_expression" then callVotes s n
  else if Functions.functionKinds.contains n.kind then Functions.votes s v
  else if Functions.variableKinds.contains n.kind then declarationVotes s v
  else if listKinds.contains n.kind then listVotes s n
  else []

end HouseStyle.Constructs
