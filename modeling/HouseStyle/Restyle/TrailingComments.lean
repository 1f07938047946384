import HouseStyle.Comment.Trailing
import HouseStyle.Restyle.Context

/-! # Trailing comments

Under the value `aligned`, the comments of a group of at least two go to one column, two columns
behind the longest code of the group; a group that already has one column and gaps of at least two
stays. Under `single-space`, each comment is one space behind its code.

With a reference, `aligned` first puts back comments that went to a line of their own: a comment
whose line holds nothing else goes behind the code of the line above if the reference shows that
very comment behind that very code. The result is kept only if it parses cleanly. -/

namespace HouseStyle.TrailingComments

/-- The gap of lined-up comments behind the longest code. -/
def alignmentGap : Nat := 2

/-- The line comments of a source. -/
def lineComments (s : Source) : List Node :=
  s.root.walkNodes.filter fun n => n.isComment && (Comment.lineBody? (s.nodeText n)).isSome

/-! ### Putting comments back -/

/-- Code with every run of blanks as one space and none at the ends. -/
def contextKey (code : Text) : Text := [' '].intercalate code.words

/-- The pairs of code and comment that a reference shows on one line. -/
def contexts (reference : Source) : List (Text × Text) :=
  (lineComments reference).filterMap fun n =>
    let code := reference.beforeNode n
    if Comment.isAlignable code then some (contextKey code, reference.nodeText n) else none

/-- The kinds of nodes whose line breaks belong to the program's data. -/
def textKinds : List String := ["string", "template_string", "jsx_text"]

/-- Whether an offset lies inside a literal over several lines. -/
def insideText (s : Source) (offset : Nat) : Bool :=
  s.root.walkNodes.any fun n =>
    textKinds.contains n.kind && s.isMultiline n && s.start n < offset && offset < s.stop n

/-- The replacement that puts a comment behind the code of the line above. -/
def reattach? (s : Source) (known : List (Text × Text)) (commentRows : List Nat) (n : Node) :
    Option Replacement :=
  match s.row n with
  | 0 => none
  | above + 1 =>
    let previous := s.line above
    let codeEnd := s.lineStart above + previous.trimRight.length
    let comment := s.nodeText n
    if !(s.beforeNode n).isBlankText || !Comment.isAlignable previous ||
        commentRows.contains above || !known.contains (contextKey previous, comment) ||
        insideText s codeEnd then none
    else some ⟨codeEnd, s.stop n, ' ' :: comment⟩

/-- The text of a source with its comments put back. -/
def reattach (reference s : Source) : Text :=
  let comments := lineComments s
  Replacement.apply s.text
    (comments.filterMap (reattach? s (contexts reference) (comments.map s.row)))

/-! ### Gaps -/

/-- The replacement that gives an entry a gap. -/
def setGap? (s : Source) (gap : Nat) (e : Comment.Entry) : Option Replacement :=
  if gap = e.gap then none
  else
    let start := s.lineStart e.row + e.codeLength
    some ⟨start, start + e.gap, List.replicate gap ' '⟩

/-- The length of the longest code in a group. -/
def longestCode (group : List Comment.Entry) : Nat := (group.map (·.codeLength)).foldl max 0

/-- Whether a group is lined up already: one column, and every gap wide enough. -/
def isAligned (group : List Comment.Entry) : Bool :=
  group.all fun e => some e.column == group.head?.map (·.column) && alignmentGap ≤ e.gap

/-- The replacements that line up a group. -/
def alignGroup (s : Source) (group : List Comment.Entry) : List Replacement :=
  if group.length < 2 || isAligned group then []
  else
    group.filterMap fun e => setGap? s (longestCode group + alignmentGap - e.codeLength) e

/-- The replacements that give every comment of a group a gap of one space. -/
def tightenGroup (s : Source) (group : List Comment.Entry) : List Replacement :=
  group.filterMap (setGap? s 1)

/-- The text of a source with new gaps in its groups. -/
def respace (change : Source → List Comment.Entry → List Replacement) (s : Source) : Text :=
  Replacement.apply s.text
    ((Comment.groups s.lines (Comment.entries s (lineComments s))).flatMap (change s))

/-- Lines up the comments of a source, after those that the reference shows have been put back. -/
def alignWithReference (ctx : Context) (reference : Text) (s : Source) : Text :=
  match ctx.clean? reference with
  | none => s.text
  | some r =>
    let t := reattach r s
    if t = s.text then respace alignGroup s
    else
      match ctx.clean? t with
      | some s' => respace alignGroup s'
      | none => s.text

/-- Sets the gaps before trailing comments. -/
def restyle : Restyler := fun ctx value t =>
  if value.isStr "aligned" then
    ctx.onSource
      (match ctx.reference? with
        | some r => alignWithReference ctx r
        | none => respace alignGroup) t
  else if value.isStr "single-space" then ctx.onSource (respace tightenGroup) t
  else t

end HouseStyle.TrailingComments
