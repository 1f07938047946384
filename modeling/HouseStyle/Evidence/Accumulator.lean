import HouseStyle.Evidence.Extract
import HouseStyle.Failure

/-! # Signals from single observations

While a file is read, its signals are accumulated: an observation is more on a counter, the length
of a line, or the width of an indent. Counters are known by their names here, and an observation
with a name that no counter has is a failure.

`Source.observations` lists what is observed in a file, in the order of reading: first the lines,
then the constructs of the tree in preorder, the imports, and the comments. `Signals.accumulate`
takes note of one observation after the other and casts the vote on member chains at the end. -/

namespace HouseStyle

/-- One observation. -/
inductive Observation where
  | count (name : String) (amount : Int)
  | lineLength (length : Int)
  | indentWidth (width : Int)

namespace Observation

/-- A vote, by the name of its counter. -/
def ofVote (v : Vote) : Observation := count v.1.name v.2

end Observation

namespace Signals

/-- Adds to the counter of a name. -/
def addNamed (s : Signals) (name : String) (amount : Int) : Except Failure Signals :=
  match Counter.ofName? name with
  | some c => .ok (s.add c amount)
  | none => .error (.unknownCounter name)

/-- Takes note of an observation. -/
def observe (s : Signals) : Observation → Except Failure Signals
  | .count name amount => s.addNamed name amount
  | .lineLength length => .ok (s.observeLine length)
  | .indentWidth width => .ok (s.observeIndent width)

/-- The signals of a file from its observations. -/
def accumulate (os : List Observation) : Except Failure Signals := do
  let s ← os.foldlM observe zero
  return s.castMemberVote

end Signals

/-- What is observed in a line. -/
def Lines.observations (line : Text) : List Observation :=
  if line.isBlankText then [.count "blank_lines" 1]
  else
    .lineLength (visibleLength line) ::
      if line.indentOf.isEmpty then []
      else if line.indentOf.contains '\t' then [.count "indent_tab_lines" 1]
      else [.count "indent_space_lines" 1, .indentWidth line.indentOf.length]

namespace Source

/-- The votes that a file casts by its constructs, its imports and its comments. -/
def treeVotes (s : Source) : List Vote :=
  (s.root.walk.filter (!·.node.isComment)).flatMap (Constructs.nodeVotes s) ++ Imports.votes s ++
    Comment.votes s s.comments

/-- What is observed in a file. -/
def observations (s : Source) : List Observation :=
  .count "total_lines" s.lines.length ::
    (s.lines.flatMap Lines.observations ++ s.treeVotes.map .ofVote)

end Source

end HouseStyle
