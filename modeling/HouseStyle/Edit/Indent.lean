import HouseStyle.Text.Basic

/-! # Indents

An indent reaches a column with spaces, or with tabs as far as they go and spaces for the rest. A
tab counts as many columns as the width says: two if the width is zero, and at least one. -/

namespace HouseStyle

/-- What indents are made of. -/
inductive IndentKind where
  | space | tab
deriving DecidableEq

/-- The kind of a name; every name but `tab` stands for spaces. -/
def IndentKind.ofName (s : String) : IndentKind := if s = "tab" then .tab else .space

/-- How a text is indented. -/
structure Indent where
  kind : IndentKind
  width : Int

namespace Indent

/-- The columns that a tab counts for. -/
def tabWidth (width : Int) : Nat := (max 1 (if width = 0 then 2 else width)).toNat

/-- The columns of one step. -/
def step (i : Indent) : Nat := (max 1 i.width).toNat

/-- The blanks that reach a column. -/
def render (i : Indent) (column : Int) : Text :=
  match i.kind with
  | .space => List.replicate column.toNat ' '
  | .tab =>
    List.replicate (column.toNat / tabWidth i.width) '\t' ++
      List.replicate (column.toNat % tabWidth i.width) ' '

/-- The column that a text reaches from the start of its line. -/
def measure (i : Indent) (t : Text) : Nat :=
  (t.map fun c => if c = '\t' then tabWidth i.width else 1).foldr (· + ·) 0

/-- The text without its first spaces and tabs, at most `count` of them. -/
def dedent (count : Int) (t : Text) : Text := dropIndent count.toNat t
where
  /-- The text without its first spaces and tabs, at most `n` of them. -/
  dropIndent : Nat → Text → Text
    | n + 1, c :: cs => if Text.isIndentChar c then dropIndent n cs else c :: cs
    | _, t => t

end Indent

end HouseStyle
