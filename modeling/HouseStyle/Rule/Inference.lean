import HouseStyle.Evidence.Signals
import HouseStyle.Rule.Basic
import HouseStyle.Rule.Thresholds

/-! # Inference of rules

Signals become rules. The winner of two outcomes is the value, its share of all observations the
confidence, and its count the evidence; the rule is enforced if both reach their thresholds. Three
dimensions are read off otherwise: the density of blank lines from the share of them, the line width
from the longest line, rounded up to a usual width, and the size of indents from the histogram of
widths.

`inferRule` gives the rule of one dimension, `inferRules` those of all. -/

namespace HouseStyle

namespace Rule

/-! ### Single rules -/

/-- The rule of a value that is enforced if it passes. -/
def gated (value : Value) (confidence : Number) (evidence : Int) (passes safe : Bool) :
    Except Failure Rule :=
  if passes then make value .enforced confidence (.int evidence) .deterministic safe
  else make .null .undetermined confidence (.int evidence) .deterministic safe

/-- The quotient of two integers. -/
def share (part whole : Int) : Except Failure Double :=
  if whole = 0 then .error .divisionByZero
  else
    match Double.ofRat? ((part : Rat) / (whole : Rat)) with
    | some x => .ok x
    | none => .error .numberTooLarge

/-- The rule of a majority between two outcomes; the first wins a tie. -/
def majority (yes no : Int) (yesValue noValue : Value) (minEvidence : Int) (minConfidence : Double)
    (safe : Bool) : Except Failure Rule := do
  if yes + no ≤ 0 then return unknown safe
  let (winner, value) := if no ≤ yes then (yes, yesValue) else (no, noValue)
  let confidence ← share winner (yes + no)
  gated value (.float confidence) winner (minEvidence ≤ winner && minConfidence.le confidence) safe

/-- The largest share of blank lines that counts as compact. -/
def compactLimit : Double := Double.round (15 / 100)

/-- The share of blank lines that is typical of compact code. -/
def compactTarget : Double := Double.round (12 / 100)

/-- The share of blank lines that is typical of spacious code. -/
def spaciousTarget : Double := Double.round (25 / 100)

/-- The rule of the density of blank lines. Its confidence falls with the distance from the typical
share, at most to four fifths. -/
def density (blank total minEvidence : Int) (minConfidence : Double) : Except Failure Rule := do
  if total ≤ 0 then return unknown false
  let ratio ← share blank total
  let (value, target) :=
    if ratio.le compactLimit then ("compact", compactTarget) else ("spacious", spaciousTarget)
  let distance := (ratio.sub target).abs.smaller (Double.round (1 / 5))
  let confidence := (Double.finite 1).sub distance
  gated (.str value) (.float confidence) total
    (minEvidence ≤ total && minConfidence.le confidence) false

/-- The usual line widths. -/
def usualWidths : List Int := [80, 90, 100, 110, 120, 140, 160]

/-- The least usual width that a line of the given length fits in; the largest for longer lines. -/
def usualWidth (length : Int) : Int :=
  (usualWidths.find? fun w => max 80 (min length 160) ≤ w).getD 160

/-- The rule of the line width, from the longest line. -/
def lineWidth (longest lines minEvidence : Int) (minConfidence : Double) : Except Failure Rule := do
  let evidence := max 0 lines
  if longest ≤ 0 || evidence == 0 then
    make .null .undetermined (.float (.finite 0)) (.int evidence) .deterministic false
  else
    let width := usualWidth longest
    let ratio ← share longest width
    let confidence := (Double.finite (1 / 2)).larger ((Double.finite 1).smaller ratio)
    gated (.int width) (.float confidence) evidence
      (minEvidence ≤ evidence && minConfidence.le confidence) false

end Rule

namespace Histogram

/-- The lines whose indent is a multiple of `unit`. -/
def score (h : Histogram) (unit : Int) : Int :=
  ((h.filter (·.1 % unit == 0)).map (·.2)).foldr (· + ·) 0

/-- One step of the search for the best unit: a strictly better score wins. -/
def bestStep (h : Histogram) (best : Int × Int) (unit : Int) : Int × Int :=
  if best.2 < h.score unit then (unit, h.score unit) else best

/-- The step of indentation behind a histogram of widths: the greatest common divisor of the widths
that occur, if it lies between two and eight; else the best of two, four and eight; else the
smallest width. -/
def indentUnit (h : Histogram) : Int :=
  let used := h.filter fun e => 0 < e.1 && 0 < e.2
  match used with
  | [] => 2
  | first :: rest =>
    let unit : Int := (rest.foldl (fun g e => Int.gcd g e.1) first.1.natAbs : Nat)
    if 2 ≤ unit ∧ unit ≤ 8 then unit
    else
      let best := [2, 4, 8].foldl (bestStep used) (2, -1)
      if 0 < best.2 then best.1 else rest.foldl (fun m e => min m e.1) first.1

end Histogram

/-! ### Rules of all dimensions -/

/-- The counts for the first and for the second value of a dimension with two values. -/
def Signals.outcomes (s : Signals) : Dimension → Int × Int
  | .lineCommentSpacing => (s.count .lineCommentSpace, s.count .lineCommentTight)
  | .preferDocComments =>
    (s.count .functionsWithDoc, max (s.count .functionsTotal - s.count .functionsWithDoc) 0)
  | .commentBlockFraming => (s.count .commentFramedBlocks, s.count .commentPlainBlocks)
  | .trailingInlineCommentAlignment =>
    (s.count .inlineCommentAlignedPairs, s.count .inlineCommentUnalignedPairs)
  | .functionWordCount => (s.count .functionNamesSingle, s.count .functionNamesMulti)
  | .functionExpressionNaming => (s.count .functionExprNamed, s.count .functionExprAnonymous)
  | .singleLineIfBraces => (s.count .ifWithoutBraces, s.count .ifWithBraces)
  | .guardClauses => (s.count .guardClauseFunctions, s.count .nonGuardClauseFunctions)
  | .quotes => (s.count .quotesDouble, s.count .quotesSingle)
  | .semicolons => (s.count .semicolonsYes, s.count .semicolonsNo)
  | .trailingCommas => (s.count .trailingCommaYes, s.count .trailingCommaNo)
  | .declarationCommaPlacement => (s.count .varCommaLeading, s.count .varCommaTrailing)
  | .yodaConditions => (s.count .yodaYes, s.count .yodaNo)
  | .ternaryOperatorPlacement => (s.count .ternaryLeading, s.count .ternaryTrailing)
  | .lineWidth => (0, 0)
  | .indentationKind => (s.count .indentSpaceLines, s.count .indentTabLines)
  | .indentationSize => (0, 0)
  | .switchCaseIndentation => (s.count .switchCaseIndented, s.count .switchCaseFlat)
  | .switchBreakIndentation => (s.count .switchBreakMatchCase, s.count .switchBreakIndented)
  | .memberChainIndentation =>
    if 0 < s.count .memberAlignedFiles + s.count .memberIndentedFiles then
      (s.count .memberAlignedFiles, s.count .memberIndentedFiles)
    else (s.count .memberAligned, s.count .memberIndented)
  | .callArgumentLayout => (s.count .callArgsCompact, s.count .callArgsExpanded)
  | .blankLineDensity => (0, 0)
  | .blankLineBeforeReturn => (s.count .blankBeforeReturnYes, s.count .blankBeforeReturnNo)
  | .blankLineBeforeIf => (s.count .blankBeforeIfYes, s.count .blankBeforeIfNo)
  | .importOrdering => (s.count .importSortedGroups, s.count .importUnsortedGroups)

/-- Whether files voted on the layout of member chains; their votes then count, and not the chains.
-/
def Signals.filesVoted (s : Signals) : Bool :=
  0 < s.count .memberAlignedFiles + s.count .memberIndentedFiles

namespace Thresholds

/-- The least evidence of a dimension. -/
def evidenceFloor (t : Thresholds) (s : Signals) : Dimension → Int
  | .preferDocComments | .commentBlockFraming | .functionExpressionNaming | .guardClauses
  | .declarationCommaPlacement | .yodaConditions | .callArgumentLayout | .blankLineBeforeReturn
  | .blankLineBeforeIf => t.sparse
  | .trailingInlineCommentAlignment | .ternaryOperatorPlacement => t.ultraSparse
  | .switchCaseIndentation | .switchBreakIndentation | .importOrdering => t.quarter
  | .memberChainIndentation =>
    if s.filesVoted then if t.minEvidence ≤ 2 then 1 else 2 else t.quarter
  | _ => t.minEvidence

/-- The least confidence, lowered by an allowance but not below a floor. -/
def relaxed (t : Thresholds) (floor allowance : Rat) : Double :=
  (Double.round floor).larger (t.minConfidence.sub (Double.round allowance))

/-- The least confidence of a dimension. -/
def confidenceFloor (t : Thresholds) (s : Signals) : Dimension → Double
  | .switchBreakIndentation => t.relaxed (55 / 100) (20 / 100)
  | .memberChainIndentation =>
    if s.filesVoted then t.relaxed (60 / 100) (15 / 100) else t.minConfidence
  | _ => t.minConfidence

end Thresholds

/-- The rule of a dimension with two values. -/
def inferChoice (t : Thresholds) (s : Signals) (d : Dimension) : Except Failure Rule :=
  let outcomes := s.outcomes d
  Rule.majority outcomes.1 outcomes.2 (d.descriptor.values.getD 0 .null)
    (d.descriptor.values.getD 1 .null) (t.evidenceFloor s d) (t.confidenceFloor s d)
    d.descriptor.safe

/-- The rule of the size of indents: it follows the rule of their kind, and is enforced if that asks
for spaces. -/
def inferIndentationSize (t : Thresholds) (s : Signals) : Except Failure Rule := do
  let kind ← inferChoice t s .indentationKind
  Rule.gated (.int (Histogram.latest s.indentSizes).indentUnit) kind.confidence
    (s.count .indentSpaceLines) (kind.value.isStr "space") Dimension.indentationSize.descriptor.safe

/-- The rule of a dimension. -/
def inferRule (t : Thresholds) (s : Signals) (d : Dimension) : Except Failure Rule :=
  match d with
  | .lineWidth =>
    Rule.lineWidth s.longestLine (s.count .totalLines - s.count .blankLines) t.minEvidence
      t.minConfidence
  | .blankLineDensity =>
    Rule.density (s.count .blankLines) (s.count .totalLines) t.minEvidence t.minConfidence
  | .indentationSize => inferIndentationSize t s
  | d => inferChoice t s d

/-- The dimensions in the order in which their rules are inferred: the indentation comes last. -/
def inferenceOrder : List Dimension :=
  (Dimension.all.filter fun d => d ≠ .indentationKind ∧ d ≠ .indentationSize) ++
    [.indentationKind, .indentationSize]

/-- The rules of all dimensions; a failure is that of the first dimension that has one. -/
def inferRules (t : Thresholds) (s : Signals) : Except Failure Rules := do
  let rules ← inferenceOrder.mapM fun d => (inferRule t s d).map (d, ·)
  return fun d => rules.lookup d

end HouseStyle
