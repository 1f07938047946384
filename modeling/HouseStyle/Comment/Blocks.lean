import HouseStyle.Comment.Basic

/-! # Blocks of line comments

A block is a maximal run of lines that hold a line comment and nothing else. A block with something
meaningful in it is *framed* if it has at least three lines and its first and last bodies are blank,
and *plain* otherwise; a block of rulers and directives alone says nothing. -/

namespace HouseStyle.Comment

/-- The trimmed body of a line that holds nothing but a line comment. -/
def commentLine? (line : Text) : Option Text := (lineBody? line.trimLeft).map Text.trim

/-- The comment bodies at the start of several lines, and the lines that follow. -/
def takeBlock : List Text → List Text × List Text
  | [] => ([], [])
  | l :: ls =>
    match commentLine? l with
    | none => ([], l :: ls)
    | some b =>
      let r := takeBlock ls
      (b :: r.1, r.2)

theorem length_takeBlock : ∀ ls : List Text, (takeBlock ls).2.length ≤ ls.length
  | [] => by simp [takeBlock]
  | l :: ls => by
    have := length_takeBlock ls
    unfold takeBlock
    split <;> simp
    omega

/-- The blocks of a list of lines, each as the list of its bodies. -/
def blocks : List Text → List (List Text)
  | [] => []
  | l :: ls =>
    match commentLine? l with
    | none => blocks ls
    | some b =>
      let r := takeBlock ls
      (b :: r.1) :: blocks r.2
termination_by ls => ls.length
decreasing_by
  · simp
  · have := length_takeBlock ls
    simp; omega

/-- Whether a block is framed. -/
def isFramed (block : List Text) : Bool :=
  3 ≤ block.length && block.head? == some [] && block.getLast? == some []

/-- What a block says: whether it is framed, if anything in it is meaningful. -/
def framing? (block : List Text) : Option Bool :=
  if block.any isMeaningful then some (isFramed block) else none

end HouseStyle.Comment
