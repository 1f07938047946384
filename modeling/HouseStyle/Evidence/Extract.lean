import HouseStyle.Comment.Blocks
import HouseStyle.Comment.Trailing
import HouseStyle.Evidence.Constructs
import HouseStyle.Evidence.Imports
import HouseStyle.Evidence.Lines
import HouseStyle.Evidence.Signals

/-! # The signals of a file

`Source.signals` collects everything that a file shows: the votes of its lines, of the constructs of
its tree, of its imports and of its comments, added up, and at the end one vote for the layout of
its member chains. -/

namespace HouseStyle

namespace Comment

/-- The vote of a line comment on the space after its slashes. -/
def spacingVotes (s : Source) (n : Node) : List Vote :=
  match lineBody? (s.nodeText n) with
  | some body =>
    if isIgnorable body then []
    else Vote.either (body.head?.any Text.isBlank) .lineCommentSpace .lineCommentTight
  | none => []

/-- The votes of the blocks of line comments. -/
def framingVotes (lines : List Text) : List Vote :=
  (blocks lines).flatMap fun b => Vote.either? (framing? b) .commentFramedBlocks .commentPlainBlocks

/-- The vote of two neighbours in a group: whether they stand on one column. If both have a gap of
one and code of one length, lined up and not lined up look the same, and there is no vote. -/
def alignmentVotes (p : Entry × Entry) : List Vote :=
  if p.1.gap = 1 ∧ p.2.gap = 1 ∧ p.1.codeLength = p.2.codeLength then []
  else
    Vote.either (p.1.column = p.2.column) .inlineCommentAlignedPairs .inlineCommentUnalignedPairs

/-- The votes of the comments of a file. -/
def votes (s : Source) (comments : List Node) : List Vote :=
  framingVotes s.lines ++
    ((groups s.lines (entries s comments)).flatMap fun g =>
      (Constructs.neighbours g).flatMap alignmentVotes) ++
    comments.flatMap (spacingVotes s)

end Comment

namespace Source

/-- The comments of a file, in the order of the text. -/
def comments (s : Source) : List Node := s.root.walkNodes.filter (·.isComment)

/-- All votes of a file. -/
def votes (s : Source) : List Vote :=
  (.totalLines, (s.lines.length : Int)) ::
    (s.lines.flatMap Lines.votes ++ (s.root.walk.filter (!·.node.isComment)).flatMap
        (Constructs.nodeVotes s) ++ Imports.votes s ++ Comment.votes s s.comments)

/-- The signals of a file. -/
def signals (s : Source) : Signals :=
  let votes := s.votes
  Signals.castMemberVote
    { count := Signals.tally votes
      longestLine := Lines.longest s.lines
      indentSizes := Histogram.merge (Lines.indentWidths s.lines) }

end Source

end HouseStyle
