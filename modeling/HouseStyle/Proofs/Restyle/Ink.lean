import HouseStyle.Proofs.Restyle.CallArguments
import HouseStyle.Proofs.Restyle.MemberChains
import HouseStyle.Proofs.Restyle.SinglePass
import HouseStyle.Proofs.Restyle.Ternaries
import HouseStyle.Restyle.Pipeline
import Mathlib

/-! # Restylers keep the ink

All restylers but the one that takes braces off conditionals change blanks only (`ink_restyler`):
over all their passes, for every reference and every indent, as long as the parser gives regular
sources. -/

namespace HouseStyle

/-- **A restyler changes blanks only**, in every context and under every value, unless it is the one
that takes braces off. -/
theorem ink_restyler {ctx : Context} (hp : ctx.parser.Gives Source.Regular) {d : Dimension}
    {r : Restyler} (hr : (d, r) ∈ restylers) (hd : d ≠ .singleLineIfBraces) (value : Value)
    (t : Text) : (r ctx value t).ink = t.ink := by
  simp only [restylers, List.mem_cons, Prod.mk.injEq, List.not_mem_nil, or_false] at hr
  rcases hr with ⟨rfl, -⟩ | ⟨-, rfl⟩ | ⟨-, rfl⟩ | ⟨-, rfl⟩ | ⟨-, rfl⟩ | ⟨-, rfl⟩ | ⟨-, rfl⟩
  · exact absurd rfl hd
  · exact Ternaries.ink_restyle hp value t
  · exact CallArguments.ink_restyle hp value t
  · exact MemberChains.ink_restyle hp value t
  · exact DeclarationCommas.ink_restyle hp value t
  · exact SwitchBreaks.ink_restyle hp value t
  · exact TrailingComments.ink_restyle hp value t

/-- A call whose argument stands on a line of its own. -/
def brokenCall : Text := "f(\n1\n)".toList

/-- The tree of the call. -/
def brokenCallNode : Node :=
  .construct 0 "call_expression" 0 6 none
    [.construct 1 "identifier" 0 1 (some .function) [],
      .construct 2 "arguments" 1 6 (some .arguments)
        [.token 3 "(" 1 2, .construct 4 "number" 3 4 none [], .token 5 ")" 5 6]]

/-- A context that knows the call and nothing else. -/
def brokenCallContext : Context :=
  ⟨.ofTable [(brokenCall, brokenCallNode)], "javascript", ⟨.space, 2⟩, none⟩

/-- The call is joined, and keeps its ink. -/
theorem ink_restyler_brokenCall :
    CallArguments.restyle brokenCallContext (.str "compact") brokenCall = "f(1)".toList ∧
      (CallArguments.restyle brokenCallContext (.str "compact") brokenCall).ink =
        brokenCall.ink := by
  refine ⟨by cbv, ink_restyler (d := .callArgumentLayout) ?_ (by simp [restylers]) (by decide) _ _⟩
  exact Parser.gives_ofTable (by decide +kernel)

end HouseStyle
