import HouseStyle.Restyle.Context
import HouseStyle.Tree.Signature

/-! # Chains of member accesses

Two changes are made under the values `aligned` and `indented`.

With a reference, every outermost call whose callee is a chain of two or more member accesses is
paired, by its signature, with the same call in the reference, and its line breaks before the dots
are put in or taken out as the reference has them. The result is kept only if it parses cleanly.

Then every line that starts with the dot of a member access is indented to the column of the object,
or one step further; this is repeated until nothing changes. A chain with a comment between its
links is left as it is by both. -/

namespace HouseStyle.MemberChains

/-! ### Chains -/

/-- Whether a node is a member access. -/
def isMember (n : Node) : Bool := n.kind == "member_expression"

/-- The visual column of a node. -/
def visualColumn (s : Source) (indent : Indent) (n : Node) : Nat := indent.measure (s.beforeNode n)

/-- Whether a visited node is a call that is not the object of a member access. -/
def isOutermostCall (v : Node.Visit) : Bool :=
  v.node.kind == "call_expression" &&
    match v.parent? with
    | some p => !(isMember p && p.isChild .object v.node)
    | none => true

/-- The outermost call or member access whose spine contains `n`, which has the given ancestors. -/
def chainTop (n : Node) : List Node → Node
  | [] => n
  | p :: up =>
    if isMember p && p.isChild .object n then chainTop p up
    else if p.kind == "call_expression" && p.isChild .function n then chainTop p up
    else n

/-- The member accesses along the spine of a node, the outermost first. -/
def spine (n : Node) : List Node :=
  if n.kind = "call_expression" then
    match _h : n.child? .function with
    | some f => spine f
    | none => []
  else if isMember n then
    n ::
      match _h : n.child? .object with
      | some o => spine o
      | none => []
  else []
termination_by n.size
decreasing_by
  · exact Node.size_lt_of_child? _h
  · exact Node.size_lt_of_child? _h

/-- The member accesses along the spine of a node, the innermost first. -/
def spineMembers (n : Node) : List Node := (spine n).reverse

/-- The member accesses along the callee of a call, the innermost first. -/
def calleeMembers (call : Node) : List Node := ((call.child? .function).map spineMembers).getD []

/-- What stands between an object and its property: a range, the delimiter in it, and whether it
holds a line break or a comment. -/
structure Separator where
  start : Nat
  stop : Nat
  delimiter : Text
  broken : Bool
  hasComment : Bool

/-- The separator of a member access. -/
def separator? (s : Source) (member : Node) : Option Separator :=
  match member.child? .object, member.child? .property with
  | some o, some p =>
    let between := s.between o p
    if between.contains '.' then
      some ⟨s.stop o, s.start p, if between.has ['?', '.'] then ['?', '.'] else ['.'],
        between.contains '\n', between.hasCommentMark⟩
    else none
  | _, _ => none

/-- The separators of several member accesses. -/
def separators (s : Source) (members : List Node) : List Separator :=
  members.filterMap (separator? s)

/-! ### Line breaks of the reference -/

/-- What a reference shows at a separator: the visual column of the delimiter after a line break, or
that there is no line break. -/
abbrev Segment := Option Nat

/-- The segment of a member access. -/
def segment? (s : Source) (indent : Indent) (member : Node) : Option Segment :=
  match separator? s member, member.child? .property with
  | some sep, some p =>
    some (if sep.broken then some (visualColumn s indent p - sep.delimiter.length) else none)
  | _, _ => none

/-- The layout of an outermost call with a chain of at least two links, one of them broken and none
with a comment. -/
def layout? (s : Source) (indent : Indent) (v : Node.Visit) : Option (List Segment) :=
  let members := calleeMembers v.node
  let segments := members.filterMap (segment? s indent)
  if isOutermostCall v && 2 ≤ members.length && !(separators s members).any (·.hasComment) &&
      segments.any (·.isSome) then some segments
  else none

/-- Records the layout of a visited call. -/
def record (s : Source) (indent : Indent) (q : SignatureQueue (List Segment)) (v : Node.Visit) :
    SignatureQueue (List Segment) :=
  match layout? s indent v with
  | some segments => q.push (v.node.signature s.text.encode) segments
  | none => q

/-- The layouts that a reference shows, by signature. -/
def layouts (reference : Source) (indent : Indent) : SignatureQueue (List Segment) :=
  reference.root.walk.foldl (record reference indent) .empty

/-- The replacement that gives a separator the line break of a segment, or takes it away. -/
def breakAs? (indent : Indent) (p : Segment × Separator) : Option Replacement :=
  match p.1, p.2.broken with
  | some column, false =>
    some ⟨p.2.start, p.2.stop, '\n' :: indent.render column ++ p.2.delimiter⟩
  | none, true => some ⟨p.2.start, p.2.stop, p.2.delimiter⟩
  | _, _ => none

/-- The replacements that give the chain of a call the line breaks of a layout. -/
def breakChain (s : Source) (indent : Indent) (call : Node) (segments : List Segment) :
    List Replacement :=
  let current := separators s (calleeMembers call)
  if current.any (·.hasComment) then [] else (segments.zip current).filterMap (breakAs? indent)

/-- One step of the replay: a visited outermost call takes the layout that waits for it. -/
def replayStep (s : Source) (indent : Indent)
    (acc : SignatureQueue (List Segment) × List Replacement) (v : Node.Visit) :
    SignatureQueue (List Segment) × List Replacement :=
  if isOutermostCall v then
    match acc.1.pop (v.node.signature s.text.encode) with
    | (some segments, q) => (q, acc.2 ++ breakChain s indent v.node segments)
    | (none, q) => (q, acc.2)
  else acc

/-- The replacements that give the chains of a source the line breaks of a reference. -/
def replayBreaks (s : Source) (indent : Indent) (q : SignatureQueue (List Segment)) :
    List Replacement :=
  (s.root.walk.foldl (replayStep s indent) (q, [])).2

/-! ### Indents of continuation lines -/

/-- Whether a text starts with the delimiter of a member access. -/
def opensAccess : Text → Bool
  | '.' :: _ => true
  | '?' :: '.' :: _ => true
  | _ => false

/-- The replacement of the indent before the delimiter of a member access that opens its line;
`extra` columns are added to those of the object. -/
def reindent? (s : Source) (indent : Indent) (extra : Nat) (v : Node.Visit) :
    Option Replacement :=
  match separator? s v.node, v.node.child? .object, v.node.child? .property with
  | some sep, some o, some p =>
    let row := s.row p
    let line := s.line row
    let current := line.indentOf
    let target := indent.render (visualColumn s indent o + extra)
    let delimiterAt := s.lineStart row + current.length
    if isMember v.node && sep.broken &&
        !(separators s (spineMembers (chainTop v.node v.ancestors))).any (·.hasComment) &&
        opensAccess line.afterIndent && sep.start ≤ delimiterAt && delimiterAt < sep.stop &&
        current ≠ target then
      some ⟨s.lineStart row, s.lineStart row + current.length, target⟩
    else none
  | _, _, _ => none

/-- One pass over a text. -/
def indentPass (ctx : Context) (extra : Nat) : Text → Text :=
  ctx.onSource fun s =>
    Replacement.apply s.text (s.root.walk.filterMap (reindent? s ctx.indent extra))

/-! ### Both changes -/

/-- The text of a source with the line breaks of a reference, if that parses cleanly. -/
def replay (ctx : Context) (reference s : Source) : Text :=
  let q := layouts reference ctx.indent
  if q.nonempty then
    let t := Replacement.apply s.text (replayBreaks s ctx.indent q)
    if (ctx.clean? t).isSome then t else s.text
  else s.text

/-- Lays out the chains of a source, with the reference of the context if it has one. -/
def layOut (ctx : Context) (extra : Nat) (s : Source) : Text :=
  match ctx.reference? with
  | none => settle (indentPass ctx extra) s.text
  | some r =>
    match ctx.clean? r with
    | some reference => settle (indentPass ctx extra) (replay ctx reference s)
    | none => s.text

/-- Lays out chains of member accesses. -/
def restyle : Restyler := fun ctx value t =>
  if value.isStr "aligned" then ctx.onSource (layOut ctx 0) t
  else if value.isStr "indented" then ctx.onSource (layOut ctx ctx.indent.step) t
  else t

end HouseStyle.MemberChains
