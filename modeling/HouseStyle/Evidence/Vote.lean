import HouseStyle.Evidence.Counter

/-! # Votes

Reading a construct yields votes: a counter, and by how much it grows. -/

namespace HouseStyle

/-- A counter and the amount by which it grows. -/
abbrev Vote := Counter × Int

namespace Vote

/-- One more on a counter. -/
def one (c : Counter) : List Vote := [(c, 1)]

/-- One more on the first counter if the answer is yes, on the second if it is no. -/
def either (answer : Bool) (yes no : Counter) : List Vote := one (if answer then yes else no)

/-- As `either`, and no vote without an answer. -/
def either? (answer : Option Bool) (yes no : Counter) : List Vote :=
  match answer with
  | some a => either a yes no
  | none => []

end Vote

end HouseStyle
