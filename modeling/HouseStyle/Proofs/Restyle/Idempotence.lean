import HouseStyle.Proofs.Restyle.CallArguments
import HouseStyle.Proofs.Restyle.SingleLineIf
import HouseStyle.Restyle.Pipeline
import Mathlib.Tactic.IntervalCases

/-! # Restyling twice

A change that makes room for another is repeated, but at most eight times. Whether a second run
finds something to do is therefore a matter of how much there was to do in the first place
(`restyle_restyle_iff`). Joining arguments and putting conditionals on one line take line feeds out
with every effective pass, so they reproduce their result exactly if it is at rest, and they do so
for every text of at most nine lines. For all rules together, eight more rounds must lead back.

Of calls inside one another, a pass joins the innermost only, since the outer ones overlap it. Nine
of them are too many (`restyle_nestedCalls`). -/

namespace HouseStyle

/-- **Restyling twice is restyling once** exactly if the last pass has left nothing to do. -/
theorem restyle_restyle_iff {ctx : Context} (hp : ctx.parser.Gives Source.WellFormed) (rs : Rules)
    (t : Text) :
    (CallArguments.restyle ctx (.str "compact") (CallArguments.restyle ctx (.str "compact") t) =
        CallArguments.restyle ctx (.str "compact") t ↔
      (CallArguments.pass ctx)^[maxPasses + 1] t = (CallArguments.pass ctx)^[maxPasses] t) ∧
    (SingleLineIf.restyle ctx (.str "omit") (SingleLineIf.restyle ctx (.str "omit") t) =
        SingleLineIf.restyle ctx (.str "omit") t ↔
      (SingleLineIf.pass ctx)^[maxPasses + 1] t = (SingleLineIf.pass ctx)^[maxPasses] t) ∧
    (restyle ctx.parser rs ctx.reference ctx.language
          (restyle ctx.parser rs ctx.reference ctx.language t) =
        restyle ctx.parser rs ctx.reference ctx.language t ↔
      (restyleOnce { ctx with indent := rs.indent } rs.activeRestylers)^[maxPasses + maxPasses] t =
        (restyleOnce { ctx with indent := rs.indent } rs.activeRestylers)^[maxPasses] t) := by
  refine ⟨?_, ?_, settle_settle_iff⟩
  · exact settle_settle_iff_of_measure (CallArguments.pass_eq_or_count_lt hp)
  · exact settle_settle_iff_of_measure (SingleLineIf.pass_eq_or_count_lt hp)

/-- A text of at most nine lines has its arguments joined, and its conditionals put on one line, for
good. -/
theorem restyle_restyle_of_few_lines {ctx : Context} (hp : ctx.parser.Gives Source.WellFormed)
    {t : Text} (ht : t.count '\n' ≤ maxPasses) :
    CallArguments.restyle ctx (.str "compact") (CallArguments.restyle ctx (.str "compact") t) =
        CallArguments.restyle ctx (.str "compact") t ∧
      SingleLineIf.restyle ctx (.str "omit") (SingleLineIf.restyle ctx (.str "omit") t) =
        SingleLineIf.restyle ctx (.str "omit") t :=
  ⟨settle_settle_of_measure_le (CallArguments.pass_eq_or_count_lt hp) ht,
    settle_settle_of_measure_le (SingleLineIf.pass_eq_or_count_lt hp) ht⟩

/-! ### Calls inside one another -/

/-- Calls of `f` inside one another, `depth` of them. The argument of the outer `broken` ones stands
on a new line. -/
def nestedCalls : Nat → Nat → Text
  | 0, _ => ['1']
  | depth + 1, broken =>
    'f' :: '(' :: (if broken = 0 then [] else ['\n']) ++ nestedCalls depth (broken - 1) ++ [')']

/-- The tree of the calls, from an offset on. -/
def nestedCallsNode : Nat → Nat → Nat → Node
  | 0, _, start => .construct 0 "number" start (start + 1) none []
  | depth + 1, broken, start =>
    let stop := start + (nestedCalls (depth + 1) broken).length
    let id := 5 * depth
    .construct (id + 1) "call_expression" start stop none
      [.construct (id + 2) "identifier" start (start + 1) (some .function) [],
        .construct (id + 3) "arguments" (start + 1) stop (some .arguments)
          [.token (id + 4) "(" (start + 1) (start + 2),
            nestedCallsNode depth (broken - 1) (start + if broken = 0 then 2 else 3),
            .token (id + 5) ")" (stop - 1) stop]]

/-- A program of one statement with nine calls. -/
def nestedProgram (broken : Nat) : Source where
  text := nestedCalls 9 broken
  root :=
    let stop := (nestedCalls 9 broken).length
    .construct 47 "program" 0 stop none
      [.construct 46 "expression_statement" 0 stop none [nestedCallsNode 9 broken 0]]
  hasErrors := false

/-- A context that knows all these programs. -/
def nestedContext : Context where
  parser := .ofTable ((List.range 10).map fun k => ((nestedProgram k).text, (nestedProgram k).root))
  language := "javascript"
  indent := ⟨.space, 2⟩
  reference := none

theorem nestedContext_regular : nestedContext.parser.Gives Source.Regular :=
  Parser.gives_ofTable (by decide +kernel)

theorem clean?_nestedCalls : ∀ k < 10,
    nestedContext.clean? (nestedCalls 9 k) = some (nestedProgram k) := by
  intro k hk
  interval_cases k <;> rfl

/-- The replacements for the calls are found from the outermost to the innermost, and the innermost
is carried out. -/
theorem replaceNodes_nestedProgram : ∀ k < 10,
    (nestedProgram k).replaceNodes (CallArguments.compact? (nestedProgram k)) =
      nestedCalls 9 (k - 1) := by
  have h : ∀ k < 10,
      (((nestedProgram k).root.walkNodes.filterMap
        (CallArguments.compact? (nestedProgram k))).filter
        (·.isEffective (nestedProgram k).text)).eraseDups.Pairwise
          (fun r r' => r.start < r'.start) ∧
      Replacement.splice (nestedProgram k).text (nestedProgram k).text.length []
        (Replacement.keep ((nestedProgram k).text.length + 1)
          (((nestedProgram k).root.walkNodes.filterMap
            (CallArguments.compact? (nestedProgram k))).filter
              (·.isEffective (nestedProgram k).text)).eraseDups.reverse) =
                nestedCalls 9 (k - 1) := by
    decide +kernel
  intro k hk
  rw [Source.replaceNodes_of_ascending (h k hk).1, (h k hk).2]

/-- The change to the outer of two broken calls takes in the one to the inner. -/
example : (nestedProgram 2).root.walkNodes.filterMap (CallArguments.compact? (nestedProgram 2)) =
    [⟨1, 30, "(f(\nf(f(f(f(f(f(f(1)))))))))".toList⟩,
      ⟨4, 29, "(f(f(f(f(f(f(f(1))))))))".toList⟩] := by
  decide +kernel

theorem pass_nestedCalls {k : Nat} (hk : k < 10) :
    CallArguments.pass nestedContext (nestedCalls 9 k) = nestedCalls 9 (k - 1) := by
  rw [CallArguments.pass, Context.onSource_of_clean (clean?_nestedCalls k hk),
    replaceNodes_nestedProgram k hk]

theorem iterate_pass_nestedCalls {k : Nat} (hk : k < 10) : ∀ n : Nat,
    (CallArguments.pass nestedContext)^[n] (nestedCalls 9 k) = nestedCalls 9 (k - n)
  | 0 => rfl
  | n + 1 => by
    rw [Function.iterate_succ_apply', iterate_pass_nestedCalls hk n, pass_nestedCalls (by omega),
      Nat.sub_sub]

/-- Eight broken calls are joined for good. -/
theorem restyle_restyle_iff_nestedCalls :
    CallArguments.restyle nestedContext (.str "compact")
        (CallArguments.restyle nestedContext (.str "compact") (nestedCalls 9 8)) =
      CallArguments.restyle nestedContext (.str "compact") (nestedCalls 9 8) := by
  have hp : nestedContext.parser.Gives Source.WellFormed := fun _ _ s hs =>
    (nestedContext_regular _ _ s hs).wellFormed
  refine (restyle_restyle_iff hp (fun _ => none) (nestedCalls 9 8)).1.mpr ?_
  rw [iterate_pass_nestedCalls (by omega), iterate_pass_nestedCalls (by omega)]
  rfl

/-- Of nine broken calls, the second run joins the one that the first has left. -/
theorem restyle_nestedCalls :
    nestedContext.parser.Gives Source.Regular ∧
      CallArguments.restyle nestedContext (.str "compact") (nestedCalls 9 9) = nestedCalls 9 1 ∧
      CallArguments.restyle nestedContext (.str "compact") (nestedCalls 9 1) = nestedCalls 9 0 ∧
      nestedCalls 9 1 ≠ nestedCalls 9 0 := by
  have hrun : ∀ k < 10, CallArguments.restyle nestedContext (.str "compact") (nestedCalls 9 k) =
      nestedCalls 9 (k - 8) := fun k hk =>
    (settle_eq_iterate _ _).trans (iterate_pass_nestedCalls hk _)
  exact ⟨nestedContext_regular, hrun 9 (by omega), hrun 1 (by omega), by decide⟩

end HouseStyle
