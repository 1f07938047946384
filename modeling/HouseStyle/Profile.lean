import HouseStyle.Rule.Inference

/-! # Profiles

A profile is what a run of learning found: rules, the number of observations behind them, and the
files they come from. `Profile.toValue` is the profile as data; there every confidence is rounded to
four decimal places, and rules are grouped by the first part of their names. -/

namespace HouseStyle

/-- A rule as data. -/
def Rule.toValue (r : Rule) : Value :=
  .object [("value", r.value), ("status", .str r.status.name),
    ("confidence", .ofNumber (r.confidence.roundPlaces 4)), ("evidenceCount", .ofNumber r.evidence),
    ("provenance", .str r.provenance.name), ("autoFixSafe", .bool r.safe)]

/-- The preferences that only a person should act on, and why. -/
def nonFixable : List (Dimension × String) :=
  [(.functionWordCount, "Renaming functions can break public APIs and call sites."),
    (.functionExpressionNaming,
      "Converting anonymous functions to named forms can alter stack traces and callback " ++
        "semantics."),
    (.preferDocComments,
      "Automatically generating doc comments is lossy without semantic context."),
    (.guardClauses, "Guard-clause refactors can alter readability and control flow intent."),
    (.commentBlockFraming,
      "Comment framing style is context-sensitive and should be reviewed before enforcement."),
    (.trailingInlineCommentAlignment,
      "Aligning trailing inline comments is layout-sensitive and can conflict with " ++
        "line-length constraints.")]

/-- The number of observations of each kind of construct. -/
def Signals.evidenceTotals (s : Signals) : List (String × Int) :=
  let n := s.count
  [("lineComments", n .lineCommentSpace + n .lineCommentTight),
    ("functions", n .functionsTotal),
    ("functionNames", n .functionNamesSingle + n .functionNamesMulti),
    ("functionExpressions", n .functionExprNamed + n .functionExprAnonymous),
    ("ifStatements", n .ifWithBraces + n .ifWithoutBraces),
    ("yodaComparisons", n .yodaYes + n .yodaNo),
    ("multilineTernaries", n .ternaryLeading + n .ternaryTrailing),
    ("guardClauseFunctions", n .guardClauseFunctions + n .nonGuardClauseFunctions),
    ("commentBlocks", n .commentFramedBlocks + n .commentPlainBlocks),
    ("trailingInlineCommentPairs",
      n .inlineCommentAlignedPairs + n .inlineCommentUnalignedPairs),
    ("strings", n .quotesSingle + n .quotesDouble),
    ("semicolonStatements", n .semicolonsYes + n .semicolonsNo),
    ("trailingCommaSites", n .trailingCommaYes + n .trailingCommaNo),
    ("variableDeclarationCommaPlacements", n .varCommaLeading + n .varCommaTrailing),
    ("indentationLines", n .indentSpaceLines + n .indentTabLines),
    ("blankLineBeforeReturnSites", n .blankBeforeReturnYes + n .blankBeforeReturnNo),
    ("blankLineBeforeIfSites", n .blankBeforeIfYes + n .blankBeforeIfNo),
    ("switchCaseLabels", n .switchCaseIndented + n .switchCaseFlat),
    ("switchCaseBreaks", n .switchBreakMatchCase + n .switchBreakIndented),
    ("memberExpressionChains", n .memberAligned + n .memberIndented),
    ("multilineCalls", n .callArgsCompact + n .callArgsExpanded),
    ("maxLineLength", s.longestLine),
    ("importGroups", n .importSortedGroups + n .importUnsortedGroups)]

/-- What a run of learning found. -/
structure Profile where
  rules : Rules
  evidence : List (String × Int)
  filesAnalyzed : Int
  sampledFiles : List String
  augmentedRules : Nat

namespace Profile

/-- The profile of nothing but rules. -/
def ofRules (rules : Rules) : Profile := ⟨rules, [], 0, [], 0⟩

/-- The value of a dimension, null if it has none. -/
def value (p : Profile) (d : Dimension) : Value := p.rules.enforcedValue d

/-- The enforced rules, in order. -/
def enforced (p : Profile) : List (Dimension × Rule) := p.rules.entries.filter (·.2.enforced)

/-- The mean of several numbers, added up from the left; zero if there are none. -/
def mean (xs : List Double) : Double :=
  match xs with
  | [] => .finite 0
  | _ => (xs.foldl Double.add (.finite 0)).divNat xs.length

/-- The mean confidence of all rules. -/
def overallConfidence (p : Profile) : Double := mean (p.rules.entries.map (·.2.confidence.toDouble))

/-- The groups of several rules, in order of first occurrence. -/
def groups (entries : List (Dimension × Rule)) : List String := (entries.map (·.1.group)).eraseDups

/-- Rules as data, by group and name. -/
def rulesValue (entries : List (Dimension × Rule)) : Value :=
  .object <| (groups entries).map fun g =>
    (g, .object ((entries.filter (·.1.group == g)).map fun e => (e.1.shortName, e.2.toValue)))

/-- The profile as data. -/
def toValue (p : Profile) : Value :=
  .object
    [("rules", rulesValue p.rules.entries),
      ("evidence", .object (p.evidence.map fun e => (e.1, .int e.2))),
      ("sources", .object
        [("filesAnalyzed", .int p.filesAnalyzed),
          ("sampledFiles", .list (p.sampledFiles.map .str))]),
      ("confidenceSummary", .object
        [("overall", .float (p.overallConfidence.roundPlaces 4)),
          ("byRule", .object (p.rules.entries.map fun e =>
            (e.1.name, .ofNumber (e.2.confidence.roundPlaces 4))))]),
      ("nonFixablePreferences", .list (nonFixable.map fun e =>
        .object [("rule", .str e.1.name), ("reason", .str e.2)])),
      ("augmentedRules", .int p.augmentedRules)]

end Profile

/-- The profile of merged signals. -/
def inferProfile (t : Thresholds) (totals : Totals) (sampledFiles : List String) :
    Except Failure Profile := do
  let rules ← inferRules t totals.signals
  return ⟨rules, totals.signals.evidenceTotals, totals.fileCount, sampledFiles, 0⟩

end HouseStyle
