import HouseStyle.Edit.Indent

/-! # Columns that indents reach

The column of a text is the sum over its characters, so it goes through concatenation
(`measure_append`), and the blanks that are written for a column reach just that column, whatever
they are made of (`measure_render`).

With tabs, what is written for a column is a run: tabs, and behind them fewer spaces than a tab
counts for (`isRun_render`). A run in turn is what is written for its own column
(`render_measure_of_isRun`). So rendering and measuring are inverse to each other between columns
and runs (`render_inverse_measure`). -/

namespace HouseStyle.Indent

variable (i : Indent)

theorem measure_nil : i.measure [] = 0 := rfl

theorem measure_cons (c : Char) (t : Text) :
    i.measure (c :: t) = (if c = '\t' then tabWidth i.width else 1) + i.measure t := rfl

theorem measure_append (t u : Text) : i.measure (t ++ u) = i.measure t + i.measure u := by
  induction t with
  | nil => rw [List.nil_append, measure_nil, Nat.zero_add]
  | cons c t ih =>
    rw [List.cons_append, measure_cons, measure_cons, ih]
    omega

theorem measure_spaces (n : Nat) : i.measure (List.replicate n ' ') = n := by
  induction n with
  | zero => rfl
  | succ n ih =>
    rw [List.replicate_succ, measure_cons, ih, if_neg (by decide)]
    omega

theorem measure_tabs (n : Nat) : i.measure (List.replicate n '\t') = tabWidth i.width * n := by
  induction n with
  | zero => rfl
  | succ n ih =>
    rw [List.replicate_succ, measure_cons, ih, if_pos rfl, Nat.mul_succ]
    omega

theorem measure_tabs_spaces (tabs spaces : Nat) :
    i.measure (List.replicate tabs '\t' ++ List.replicate spaces ' ') =
      tabWidth i.width * tabs + spaces := by
  rw [measure_append, measure_tabs, measure_spaces]

/-- **What is written for a column reaches it.** -/
theorem measure_render (column : Int) : i.measure (i.render column) = column.toNat := by
  unfold render
  cases i.kind with
  | space => exact i.measure_spaces _
  | tab =>
    dsimp only
    rw [measure_tabs_spaces]
    exact Nat.div_add_mod _ _

theorem isIndentChar_of_mem_render {column : Int} {c : Char} (h : c ∈ i.render column) :
    Text.isIndentChar c = true := by
  rw [render] at h
  split at h
  · rw [List.eq_of_mem_replicate h]
    rfl
  · rcases List.mem_append.mp h with h | h
    · rw [List.eq_of_mem_replicate h]
      rfl
    · rw [List.eq_of_mem_replicate h]
      rfl

/-! ### Runs of tabs and spaces -/

/-- Tabs, and behind them fewer spaces than a tab counts for. -/
def IsRun (width : Int) (t : Text) : Prop :=
  ∃ tabs spaces : Nat, (spaces : Int) < max 1 (if width = 0 then 2 else width) ∧
    t = List.replicate tabs '\t' ++ List.replicate spaces ' '

variable {width : Int}

theorem natCast_tabWidth (width : Int) :
    (tabWidth width : Int) = max 1 (if width = 0 then 2 else width) := by
  rw [tabWidth, Int.toNat_of_nonneg (by omega)]

theorem tabWidth_pos (width : Int) : 0 < tabWidth width := by
  have := natCast_tabWidth width
  omega

theorem isRun_render (width column : Int) : IsRun width (render ⟨.tab, width⟩ column) := by
  have hmod := Nat.mod_lt column.toNat (tabWidth_pos width)
  refine ⟨_, _, ?_, rfl⟩
  rw [← natCast_tabWidth]
  exact_mod_cast hmod

/-- **A run is what is written for its column.** -/
theorem render_measure_of_isRun {t : Text} (h : IsRun width t) (kind : IndentKind) :
    render ⟨.tab, width⟩ (measure ⟨kind, width⟩ t) = t := by
  obtain ⟨tabs, spaces, hspaces, rfl⟩ := h
  rw [← natCast_tabWidth, Int.ofNat_lt] at hspaces
  -- quotient and remainder of the column give the two numbers back
  have hdiv : (tabWidth width * tabs + spaces) / tabWidth width = tabs := by
    rw [Nat.mul_add_div (tabWidth_pos width), Nat.div_eq_of_lt hspaces, Nat.add_zero]
  have hmod : (tabWidth width * tabs + spaces) % tabWidth width = spaces := by
    rw [Nat.mul_add_mod, Nat.mod_eq_of_lt hspaces]
  rw [measure_tabs_spaces, render, Int.toNat_natCast]
  dsimp only
  rw [hdiv, hmod]

/-- **Rendering and measuring are inverse to each other.** The blanks for a column, of either kind,
reach that column, and the start of the line if it is negative. Conversely the tabs and spaces for
the column of a text are this text exactly if it is a run. Both hold for every width, since a width
of zero or less stands for the same tab on both sides. -/
theorem render_inverse_measure (width : Int) :
    (∀ (name name' : String) (column : Int),
      (measure ⟨.ofName name', width⟩ (render ⟨.ofName name, width⟩ column) : Int) = max 0 column) ∧
    ∀ (name : String) (t : Text),
      render ⟨.ofName "tab", width⟩ (measure ⟨.ofName name, width⟩ t) = t ↔ IsRun width t := by
  refine ⟨?_, ?_⟩
  · intro name name' column
    -- measuring looks at the width alone
    have hkind : measure ⟨.ofName name', width⟩ (render ⟨.ofName name, width⟩ column) =
        measure ⟨.ofName name, width⟩ (render ⟨.ofName name, width⟩ column) := rfl
    rw [hkind, measure_render]
    omega
  · intro name t
    constructor
    · intro h
      rw [← h]
      exact isRun_render width _
    · intro h
      exact render_measure_of_isRun h (.ofName name)

end HouseStyle.Indent
