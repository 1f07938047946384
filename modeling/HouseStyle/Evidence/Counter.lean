/-! # Counters

What is counted while a file is read. Most counters come in pairs, which hold the two outcomes of
one decision of style. -/

namespace HouseStyle

/-- A counter. -/
inductive Counter where
  | lineCommentSpace | lineCommentTight | functionsTotal | functionsWithDoc
  | functionNamesSingle | functionNamesMulti | functionExprNamed | functionExprAnonymous
  | ifWithBraces | ifWithoutBraces | quotesSingle | quotesDouble
  | semicolonsYes | semicolonsNo | trailingCommaYes | trailingCommaNo
  | varCommaLeading | varCommaTrailing | indentSpaceLines | indentTabLines
  | switchCaseIndented | switchCaseFlat | switchBreakMatchCase | switchBreakIndented
  | memberAligned | memberIndented | memberAlignedFiles | memberIndentedFiles
  | yodaYes | yodaNo | ternaryLeading | ternaryTrailing
  | guardClauseFunctions | nonGuardClauseFunctions | blankBeforeReturnYes | blankBeforeReturnNo
  | blankBeforeIfYes | blankBeforeIfNo | commentFramedBlocks | commentPlainBlocks
  | inlineCommentAlignedPairs | inlineCommentUnalignedPairs | callArgsCompact | callArgsExpanded
  | importSortedGroups | importUnsortedGroups | blankLines | totalLines
deriving DecidableEq

namespace Counter

/-- The counters with their names, in the order in which they are reported. -/
def table : List (String × Counter) := [
  ("line_comment_space", lineCommentSpace), ("line_comment_tight", lineCommentTight),
  ("functions_total", functionsTotal), ("functions_with_doc", functionsWithDoc),
  ("function_names_single", functionNamesSingle), ("function_names_multi", functionNamesMulti),
  ("function_expr_named", functionExprNamed), ("function_expr_anonymous", functionExprAnonymous),
  ("if_with_braces", ifWithBraces), ("if_without_braces", ifWithoutBraces),
  ("quotes_single", quotesSingle), ("quotes_double", quotesDouble),
  ("semicolons_yes", semicolonsYes), ("semicolons_no", semicolonsNo),
  ("trailing_comma_yes", trailingCommaYes), ("trailing_comma_no", trailingCommaNo),
  ("var_comma_leading", varCommaLeading), ("var_comma_trailing", varCommaTrailing),
  ("indent_space_lines", indentSpaceLines), ("indent_tab_lines", indentTabLines),
  ("switch_case_indented", switchCaseIndented), ("switch_case_flat", switchCaseFlat),
  ("switch_break_match_case", switchBreakMatchCase), ("switch_break_indented", switchBreakIndented),
  ("member_aligned", memberAligned), ("member_indented", memberIndented),
  ("member_aligned_files", memberAlignedFiles), ("member_indented_files", memberIndentedFiles),
  ("yoda_yes", yodaYes), ("yoda_no", yodaNo), ("ternary_leading", ternaryLeading),
  ("ternary_trailing", ternaryTrailing), ("guard_clause_functions", guardClauseFunctions),
  ("non_guard_clause_functions", nonGuardClauseFunctions),
  ("blank_before_return_yes", blankBeforeReturnYes),
  ("blank_before_return_no", blankBeforeReturnNo), ("blank_before_if_yes", blankBeforeIfYes),
  ("blank_before_if_no", blankBeforeIfNo), ("comment_framed_blocks", commentFramedBlocks),
  ("comment_plain_blocks", commentPlainBlocks),
  ("inline_comment_aligned_pairs", inlineCommentAlignedPairs),
  ("inline_comment_unaligned_pairs", inlineCommentUnalignedPairs),
  ("call_args_compact", callArgsCompact), ("call_args_expanded", callArgsExpanded),
  ("import_sorted_groups", importSortedGroups), ("import_unsorted_groups", importUnsortedGroups),
  ("blank_lines", blankLines), ("total_lines", totalLines)]

/-- All counters. -/
def all : List Counter := table.map (·.2)

/-- The name of a counter. -/
def name (c : Counter) : String := ((table.find? (·.2 = c)).map (·.1)).getD ""

/-- The counter of a name. -/
def ofName? (name : String) : Option Counter := table.lookup name

end Counter

end HouseStyle
