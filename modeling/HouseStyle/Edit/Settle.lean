import HouseStyle.Text.Basic

/-! # Repetition until nothing changes

A change that makes room for another is repeated until it has no effect, at most eight times. -/

namespace HouseStyle

/-- The most passes of a repeated change. -/
def maxPasses : Nat := 8

/-- Repeats a change until it has no effect, at most `n` times. -/
def settleWithin (change : Text → Text) : Nat → Text → Text
  | 0, t => t
  | n + 1, t =>
    let t' := change t
    if t' = t then t else settleWithin change n t'

/-- Repeats a change until it has no effect, or the passes are used up. -/
def settle (change : Text → Text) (t : Text) : Text := settleWithin change maxPasses t

/-- The texts that a change is carried out on while it is repeated at most `n` times. -/
def passes (change : Text → Text) : Nat → Text → List Text
  | 0, _ => []
  | n + 1, t =>
    let t' := change t
    t :: if t' = t then [] else passes change n t'

end HouseStyle
