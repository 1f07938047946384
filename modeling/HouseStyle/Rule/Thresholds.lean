import HouseStyle.Number.Double

/-! # Thresholds

How much evidence and confidence a rule needs. Dimensions that are rarely met ask for a third, a
quarter or a fifth of the full evidence, rounded down, and never for less than two observations. -/

namespace HouseStyle

/-- The least evidence and the least confidence of an enforced rule. -/
structure Thresholds where
  minEvidence : Int
  minConfidence : Double

namespace Thresholds

/-- The thresholds in use when none are given. -/
def standard : Thresholds := ⟨30, .finite (3 / 4)⟩

/-- A part of the full evidence, at least two. -/
def fraction (t : Thresholds) (parts : Int) : Int := max 2 (t.minEvidence / parts)

/-- The least evidence of a dimension that is met less often. -/
def sparse (t : Thresholds) : Int := t.fraction 3

/-- The least evidence of a dimension that is met rarely. -/
def quarter (t : Thresholds) : Int := t.fraction 4

/-- The least evidence of a dimension that is hardly ever met. -/
def ultraSparse (t : Thresholds) : Int := t.fraction 5

end Thresholds

end HouseStyle
