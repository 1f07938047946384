import HouseStyle.Proofs.Evidence.Origins
import HouseStyle.Proofs.Restyle.WithinLines

/-! # Breaks at their columns

A break that opens a line, under a label that opens another one (`OpensUnder`), gets the blanks that
reach the column of its label, or one step further in. No row opens with two such breaks and none
opens with a break and a label (`OpensUnder.eq_of_row`, `OpensUnder.row_ne_case`). So all breaks are
moved, labels stay, and before every break there are the blanks that were asked for
(`beforeNode_case`, `beforeNode_break`).

Blanks are chosen by columns in which a tab counts for several, while votes compare numbers of
characters. Which of the two counters a break at its target votes for thus depends on the tabs
before its label (`either_target_iff`). `breakVotes_restyle` says so for all breaks of a result, and
`spaces_under_tab` is a switch in which a break at the column of its label counts as one further in.
-/

namespace HouseStyle

open HouseStyle.Text

/-! ### Columns and characters -/

namespace Indent

variable {i : Indent} (hwidth : 1 ≤ i.width)

theorem measure_eq (i : Indent) (t : Text) :
    i.measure t = t.count '\t' * tabWidth i.width + t.countP (· ≠ '\t') := by
  induction t with
  | nil => simp [measure]
  | cons c t ih =>
    have hcons : i.measure (c :: t) = (if c = '\t' then tabWidth i.width else 1) + i.measure t :=
      rfl
    rw [hcons, ih, List.count_cons, List.countP_cons]
    by_cases hc : c = '\t'
    · simp [hc]
      ring
    · simp [hc]
      ring

theorem length_eq_count (t : Text) : t.length = t.count '\t' + t.countP (· ≠ '\t') := by
  induction t with
  | nil => rfl
  | cons c t ih =>
    rw [List.length_cons, List.count_cons, List.countP_cons, ih]
    by_cases hc : c = '\t'
    · simp [hc]
      omega
    · simp [hc]
      omega

include hwidth

theorem tabWidth_eq : tabWidth i.width = i.width.toNat ∧ i.step = i.width.toNat := by
  rw [tabWidth, step, if_neg (by omega)]
  omega

theorem length_render_space_le_iff (hkind : i.kind = .space) (t : Text) :
    (i.render (i.measure t)).length ≤ t.length ↔ i.width = 1 ∨ '\t' ∉ t := by
  have hw := (tabWidth_eq hwidth).1
  rw [render, hkind, measure_eq, length_eq_count t, ← List.count_eq_zero, hw]
  simp only [List.length_replicate, Int.toNat_natCast]
  generalize t.count '\t' = tabs
  generalize t.countP (· ≠ '\t') = others
  rcases Nat.eq_zero_or_pos tabs with rfl | hpos
  · simp
  · have hle : tabs * i.width.toNat + others ≤ tabs + others ↔ tabs * i.width.toNat ≤ tabs * 1 := by
      omega
    rw [hle, Nat.mul_le_mul_left_iff hpos]
    omega

theorem length_render_tab_le (hkind : i.kind = .tab) (t : Text) :
    (i.render (i.measure t)).length ≤ t.length := by
  have hw := (tabWidth_eq hwidth).1
  rw [render, hkind, measure_eq, length_eq_count t, hw]
  simp only [List.length_append, List.length_replicate, Int.toNat_natCast]
  generalize t.count '\t' = tabs
  generalize t.countP (· ≠ '\t') = others
  have hpos : 0 < i.width.toNat := by omega
  rw [Nat.mul_comm, Nat.mul_add_div hpos, Nat.mul_add_mod]
  have hdiv := Nat.div_add_mod others i.width.toNat
  have hmul : others / i.width.toNat ≤ i.width.toNat * (others / i.width.toNat) :=
    Nat.le_mul_of_pos_left _ hpos
  omega

theorem lt_length_render_space (hkind : i.kind = .space) (t : Text) :
    t.length < (i.render ((i.measure t + i.step : Nat) : Int)).length := by
  obtain ⟨hw, hstep⟩ := tabWidth_eq hwidth
  rw [render, hkind, measure_eq, length_eq_count t, hw, hstep]
  simp only [List.length_replicate, Int.toNat_natCast]
  generalize t.count '\t' = tabs
  generalize t.countP (· ≠ '\t') = others
  have hmul : tabs ≤ tabs * i.width.toNat := Nat.le_mul_of_pos_right _ (by omega)
  omega

/-- One step further in, tabs and spaces are more than the characters exactly if the text has less
than a tab's width of other characters. -/
theorem lt_length_render_tab_iff (hkind : i.kind = .tab) (t : Text) :
    t.length < (i.render ((i.measure t + i.step : Nat) : Int)).length ↔
      i.width = 1 ∨ t.countP (· ≠ '\t') < i.width := by
  obtain ⟨hw, hstep⟩ := tabWidth_eq hwidth
  rw [render, hkind, measure_eq, length_eq_count t, hw, hstep]
  simp only [List.length_append, List.length_replicate, Int.toNat_natCast]
  generalize t.count '\t' = tabs
  generalize t.countP (· ≠ '\t') = others
  obtain ⟨w, hw⟩ : ∃ w : Nat, i.width = w := ⟨i.width.toNat, by omega⟩
  rw [hw, Int.toNat_natCast]
  have hpos : 0 < w := by omega
  rw [show tabs * w + others + w = w * (tabs + 1) + others by ring, Nat.mul_add_div hpos,
    Nat.mul_add_mod]
  have hdiv := Nat.div_add_mod others w
  have hmod := Nat.mod_lt others hpos
  generalize others / w = q at hdiv ⊢
  rcases Nat.eq_zero_or_pos q with rfl | hq
  · omega
  rcases Nat.lt_or_ge 1 w with hwide | hone
  · -- a tab in the place of at least two characters
    have hmul : 2 * q ≤ w * q := Nat.mul_le_mul_right q hwide
    have hmul' : w ≤ w * q := Nat.le_mul_of_pos_right w hq
    omega
  · obtain rfl : w = 1 := by omega
    omega

end Indent

/-! ### Labels and breaks -/

namespace Source

/-- What holds of labels, breaks and switches: the first two open with their words, and a body is a
construct. -/
structure Worded (s : Source) (n : Node) : Prop where
  label : Constructs.isCase n = true →
    ("case".toList.isPrefixOf (s.extent n) || "default".toList.isPrefixOf (s.extent n)) = true
  breaking : n.kind = "break_statement" → "break".toList.isPrefixOf (s.extent n) = true
  body : n.kind = "switch_statement" → ∀ b ∈ n.child? .body, b.named = true

instance (s : Source) (n : Node) : Decidable (s.Worded n) :=
  decidable_of_iff (_ ∧ _ ∧ _) ⟨fun ⟨h1, h2, h3⟩ => ⟨h1, h2, h3⟩, fun h => ⟨h.1, h.2, h.3⟩⟩

/-- Whether that holds throughout a source. -/
def WellWorded (s : Source) : Prop := ∀ n ∈ s.root.nodes, s.Worded n

instance (s : Source) : Decidable s.WellWorded := by unfold WellWorded; infer_instance

variable {s : Source}

theorem getElem?_start_of_word {c : Char} {w : Text} {n : Node}
    (h : List.isPrefixOf (c :: w) (s.extent n) = true) : s.text[s.start n]? = some c ∧
      s.start n < s.stop n := by
  obtain ⟨rest, hrest⟩ := List.isPrefixOf_iff_prefix.mp h
  have hlt : s.start n < s.stop n := by
    by_contra hle
    rw [extent, slice, show s.stop n - s.start n = 0 by omega, List.take_zero] at hrest
    simp at hrest
  have hhead : (s.extent n)[0]? = some c := by rw [← hrest]; rfl
  rw [extent, slice, List.getElem?_take_of_lt (by omega), List.getElem?_drop, Nat.add_zero] at hhead
  exact ⟨hhead, hlt⟩

theorem row_eq_of_lineStart (s : Source) {m n : Node}
    (h : s.lineStart (s.row m) = s.lineStart (s.row n)) :
    s.row m = s.row n := by
  rw [← s.rowAt_lineStart (s.row_lt_length_lines m), h, s.rowAt_lineStart (s.row_lt_length_lines n)]

theorem start_le_of_blank {m n : Node} (hn : s.start n ≤ s.text.length)
    (hblank : (s.beforeNode n).isBlankText = true) (hrow : s.row m = s.row n) {c : Char}
    (hc : s.text[s.start m]? = some c) (hsolid : isBlank c = false) : s.start n ≤ s.start m := by
  by_contra hlt
  have hm : s.start m ≤ s.text.length := by omega
  have hline := (start_on_line hm).2.1
  have hmem : c ∈ s.beforeNode n := by
    have hone : c ∈ s.text.slice (s.start m) (s.start m + 1) := by
      rw [slice_succ hc]
      exact List.mem_cons_self
    rw [beforeNode_eq_slice hn, ← hrow]
    exact mem_slice_of_le hline (by omega) hone
  have := List.all_eq_true.mp hblank c hmem
  rw [hsolid] at this
  exact Bool.false_ne_true this

section WellWorded
variable (hw : s.WellWorded) {n : Node} (hn : n ∈ s.root.nodes)
include hw hn

theorem WellWorded.break_start (hk : n.kind = "break_statement") :
    s.text[s.start n]? = some 'b' ∧ s.start n < s.stop n :=
  getElem?_start_of_word ((hw n hn).breaking hk)

theorem WellWorded.case_start (hk : Constructs.isCase n = true) :
    ∃ c, s.text[s.start n]? = some c ∧ isBlank c = false ∧ c ≠ 'b' := by
  rcases Bool.or_eq_true_iff.mp ((hw n hn).label hk) with h | h
  · exact ⟨'c', (getElem?_start_of_word h).1, by decide, by decide⟩
  · exact ⟨'d', (getElem?_start_of_word h).1, by decide, by decide⟩

end WellWorded

end Source

namespace SwitchBreaks

open Constructs

/-- A break that opens its line, under a label that opens another one. -/
structure OpensUnder (s : Source) (case b : Node) : Prop where
  mem : case ∈ s.root.walkNodes
  isCase : Constructs.isCase case = true
  mem_breaks : b ∈ breaks case
  rows : s.row b ≠ s.row case
  blank_case : (s.beforeNode case).isBlankText = true
  blank : (s.beforeNode b).isBlankText = true

namespace OpensUnder

variable {s : Source} {case b : Node} (h : OpensUnder s case b)
include h

theorem mem_nodes : case ∈ s.root.nodes := Node.mem_nodes_of_mem_walkNodes h.mem

theorem mem_children : b ∈ case.children :=
  (List.mem_filter.mp (List.mem_filter.mp h.mem_breaks).1).1

theorem kind : b.kind = "break_statement" := by simpa using (List.mem_filter.mp h.mem_breaks).2

theorem break_mem_nodes : b ∈ s.root.nodes :=
  Node.mem_nodes_trans (Node.mem_nodes_of_mem_children h.mem_children) h.mem_nodes

variable (hs : s.WellFormed) (hw : s.WellWorded)
include hs hw

theorem bounds : s.start case < s.start b ∧ s.start b < s.stop b ∧ s.stop b ≤ s.stop case := by
  obtain ⟨hb, hlt⟩ := hw.break_start h.break_mem_nodes h.kind
  obtain ⟨c, hc, -, hne⟩ := hw.case_start h.mem_nodes h.isCase
  have hin := ((hs case h.mem_nodes).tiles h.mem_children).bounds h.mem_children
  have hstart : s.start case ≠ s.start b := fun heq => by
    rw [heq, hb, Option.some.injEq] at hc
    exact hne hc.symm
  omega

theorem not_later {case' b' : Node} (h' : OpensUnder s case' b') (hstart : s.start b' = s.start b) :
    ¬ s.Later case case' := by
  have hb := h.bounds hs hw
  have hb' := h'.bounds hs hw
  rintro (⟨c, hc, hlater⟩ | hle)
  · -- the child that holds the later label would reach over the start of the break
    have hcmem : c ∈ case.children := (List.mem_filter.mp hc).1
    have hcn : c ∈ s.root.nodes :=
      Node.mem_nodes_trans (Node.mem_nodes_of_mem_children hcmem) h.mem_nodes
    have hin := Source.bounds_of_mem_nodes hs hcn (Node.mem_nodes_of_mem_walkNodes hlater)
    have hpair := Source.pairwise_children hs h.mem_nodes
    have hsymm : Std.Symm fun x y => s.stop x ≤ s.start y ∨ s.stop y ≤ s.start x :=
      ⟨fun _ _ => Or.symm⟩
    have hall : case.children.Pairwise fun x y => s.stop x ≤ s.start y ∨ s.stop y ≤ s.start x :=
      hpair.imp Or.inl
    by_cases heq : c = b
    · subst heq
      omega
    · have := hall.forall hcmem h.mem_children heq
      omega
  · omega

/-- **A row opens with one break at most**, and that belongs to one label. -/
theorem eq_of_row {case' b' : Node} (h' : OpensUnder s case' b') (hrow : s.row b' = s.row b) :
    s.start b' = s.start b ∧ case' = case := by
  have hlen := (hs b h.break_mem_nodes).start_le
  have hlen' := (hs b' h'.break_mem_nodes).start_le
  have hle :=
    Source.start_le_of_blank hlen h.blank hrow (hw.break_start h'.break_mem_nodes h'.kind).1
      (by decide)
  have hle' := Source.start_le_of_blank hlen' h'.blank hrow.symm
    (hw.break_start h.break_mem_nodes h.kind).1
    (by decide)
  have hstart : s.start b' = s.start b := by omega
  refine ⟨hstart, ?_⟩
  by_contra hne
  rcases Source.later_or_later hs h'.mem h.mem hne with hlater | hlater
  · exact h'.not_later hs hw h hstart.symm hlater
  · exact h.not_later hs hw h' hstart hlater

theorem row_ne_case {case' b' : Node} (h' : OpensUnder s case' b') : s.row b' ≠ s.row case := by
  intro hrow
  obtain ⟨c, hc, hsolid, hne⟩ := hw.case_start h.mem_nodes h.isCase
  have hb := (hw.break_start h'.break_mem_nodes h'.kind).1
  have hlen := (hs case h.mem_nodes).start_le
  have hlen' := (hs b' h'.break_mem_nodes).start_le
  have hle := Source.start_le_of_blank hlen h.blank_case hrow hb (by decide)
  have hle' := Source.start_le_of_blank hlen' h'.blank hrow.symm hc hsolid
  rw [show s.start case = s.start b' by omega, hb, Option.some.injEq] at hc
  exact hne hc.symm

end OpensUnder

/-! ### Changes -/

/-- Where breaks are asked to stand: at the column of their label, or one step further in. -/
inductive BreakPlace where
  | matchCase | indent

namespace BreakPlace

/-- The name of a place. -/
def name : BreakPlace → String
  | matchCase => "match-case"
  | indent => "indent"

/-- The columns from a label to its breaks. -/
def extra (i : Indent) : BreakPlace → Nat
  | matchCase => 0
  | indent => i.step

/-- The counter of a place. -/
def counter : BreakPlace → Counter
  | matchCase => .switchBreakMatchCase
  | indent => .switchBreakIndented

end BreakPlace

/-- The blanks that are asked for before the breaks of a label. -/
def target (place : BreakPlace) (i : Indent) (s : Source) (case : Node) : Text :=
  i.render ((i.measure (s.beforeNode case) + place.extra i : Nat) : Int)

/-- All changes of a source. -/
def edits (place : BreakPlace) (i : Indent) (s : Source) : List Replacement :=
  s.root.walkNodes.flatMap (replacements i (place.extra i) s)

theorem restyle_of_clean {ctx : Context} {t : Text} {s : Source} (h : ctx.clean? t = some s)
    (place : BreakPlace) :
    restyle ctx (.str place.name) t = Replacement.apply s.text (edits place ctx.indent s) := by
  cases place with
  | matchCase => exact Context.onSource_of_clean h
  | indent => exact Context.onSource_of_clean h

section Edits
variable {s : Source} {place : BreakPlace} {i : Indent} {r : Replacement}

theorem mem_edits_iff : r ∈ edits place i s ↔ ∃ case b, OpensUnder s case b ∧
    s.beforeNode b ≠ target place i s case ∧ r = ⟨s.lineStart (s.row b),
      s.lineStart (s.row b) + (s.beforeNode b).length, target place i s case⟩ := by
  have hnode : ∀ case, replacements i (place.extra i) s case =
      if isCase case && (s.beforeNode case).isBlankText then
        (breaks case).filterMap (reindent? s (s.row case) (target place i s case)) else [] := by
    intro case
    rw [replacements, target]
    rfl
  simp only [edits, List.mem_flatMap, hnode]
  constructor
  · rintro ⟨case, hcase, hr⟩
    split_ifs at hr with hk
    · obtain ⟨b, hb, hr⟩ := List.mem_filterMap.mp hr
      rw [Bool.and_eq_true] at hk
      simp only [reindent?] at hr
      split_ifs at hr with hno
      simp only [not_or, Bool.not_eq_true, Bool.not_eq_false'] at hno
      exact ⟨case, b, ⟨hcase, hk.1, hb, hno.1, hk.2, hno.2.1⟩, hno.2.2, (Option.some.inj hr).symm⟩
    · simp at hr
  · rintro ⟨case, b, hopen, hne, rfl⟩
    refine ⟨case, hopen.mem, ?_⟩
    rw [if_pos (by rw [hopen.isCase, hopen.blank_case]; rfl)]
    refine List.mem_filterMap.mpr ⟨b, hopen.mem_breaks, ?_⟩
    simp only [reindent?]
    rw [if_neg]
    simp only [not_or, Bool.not_eq_true, Bool.not_eq_false']
    exact ⟨hopen.rows, hopen.blank, hne⟩

variable (hs : s.WellFormed) (hw : s.WellWorded)
include hs

theorem exists_of_mem_edits (hr : r ∈ edits place i s) : ∃ case b, OpensUnder s case b ∧
    s.beforeNode b ≠ target place i s case ∧ r.start = s.lineStart (s.row b) ∧ r.stop = s.start b ∧
      r.text = target place i s case := by
  obtain ⟨case, b, hopen, hne, rfl⟩ := mem_edits_iff.mp hr
  have hlen := Source.length_beforeNode (hs b hopen.break_mem_nodes).start_le
  exact ⟨case, b, hopen, hne, rfl, by dsimp only; omega, rfl⟩

theorem upTo_of_break {b : Node} (hb : b ∈ s.root.nodes) (h1 : r.start = s.lineStart (s.row b))
    (h2 : r.stop = s.start b) : s.UpTo b r := by
  have hline := (Source.start_on_line (hs b hb).start_le).2.1
  exact ⟨by omega, by omega, h2⟩

theorem replaced_of_break {b : Node} (hb : b ∈ s.root.nodes) (h1 : r.start = s.lineStart (s.row b))
    (h2 : r.stop = s.start b) : r.replaced s.text = s.beforeNode b := by
  rw [Replacement.replaced, h1, h2, Int.toNat_natCast, Int.toNat_natCast,
    Source.beforeNode_eq_slice (hs b hb).start_le]

theorem isEffective_of_mem_edits (hr : r ∈ edits place i s) : r.isEffective s.text = true := by
  obtain ⟨case, b, hopen, hne, h1, h2, h3⟩ := exists_of_mem_edits hs hr
  have hb := hopen.break_mem_nodes
  have hle := (hs b hb).start_le
  have hup := (upTo_of_break hs hb h1 h2).ordered
  simp only [Replacement.isEffective, Replacement.inRange, Bool.and_eq_true, decide_eq_true_eq,
    replaced_of_break hs hb h1 h2, h3]
  exact ⟨⟨⟨by omega, by omega⟩, by omega⟩, hne⟩

include hw

/-- **All breaks in the wrong place are moved.** -/
theorem mem_taken_edits_iff :
    r ∈ Replacement.taken s.text (edits place i s) ↔ r ∈ edits place i s := by
  rw [Replacement.mem_taken_of_apart]
  · exact ⟨fun h => h.1, fun h => ⟨h, isEffective_of_mem_edits hs h⟩⟩
  · intro r hr r' hr' _ _ hne
    obtain ⟨case, b, hopen, -, h1, h2, h3⟩ := exists_of_mem_edits hs hr
    obtain ⟨case', b', hopen', -, h1', h2', h3'⟩ := exists_of_mem_edits hs hr'
    have hup := upTo_of_break hs hopen.break_mem_nodes h1 h2
    have hup' := upTo_of_break hs hopen'.break_mem_nodes h1' h2'
    rcases lt_trichotomy (s.row b) (s.row b') with hlt | heq | hgt
    · exact Or.inl (hup.before hup' hlt)
    · -- one row has one break, and so one change
      obtain ⟨hstart, rfl⟩ := hopen'.eq_of_row hs hw hopen heq
      cases r
      cases r'
      simp only at h1 h2 h3 h1' h2' h3'
      simp only [h1, h2, h3, h1', h2', h3', heq, hstart, ne_eq, not_true_eq_false] at hne
    · exact Or.inr (hup'.before hup hgt)

theorem withinLines_edits :
    Replacement.WithinLines s.text (Replacement.taken s.text (edits place i s)) := by
  intro r hr
  obtain ⟨case, b, hopen, -, h1, h2, h3⟩ :=
    exists_of_mem_edits hs ((mem_taken_edits_iff hs hw).mp hr)
  rw [replaced_of_break hs hopen.break_mem_nodes h1 h2, h3]
  exact ⟨s.newline_notMem_beforeNode b, i.newline_notMem_render _⟩

/-! ### The result -/

theorem beside_edits {n : Node} (hr : r ∈ Replacement.taken s.text (edits place i s))
    (hrow : r.start ≠ s.lineStart (s.row n)) : s.Beside n r := by
  obtain ⟨case, b, hopen, -, h1, h2, -⟩ :=
    exists_of_mem_edits hs ((mem_taken_edits_iff hs hw).mp hr)
  refine (upTo_of_break hs hopen.break_mem_nodes h1 h2).beside fun heq => hrow ?_
  rw [h1, heq]

section Placed
variable {s' : Source} (htext : s'.text = Replacement.apply s.text (edits place i s))
  {case b case' b' : Node}
  (hopen : OpensUnder s case b)
include htext hopen

theorem beforeNode_case
    (hmoved : s.Moved (Replacement.taken s.text (edits place i s)) s' case case') :
    s'.beforeNode case' = s.beforeNode case := by
  have hlen := (hs case hopen.mem_nodes).start_le
  refine (Replacement.beforeNode_of_kept htext (withinLines_edits hs hw) hlen hmoved
    fun r hr => ?_).2
  refine beside_edits hs hw hr fun heq => ?_
  obtain ⟨_, b₁, hopen₁, -, h1, -⟩ := exists_of_mem_edits hs ((mem_taken_edits_iff hs hw).mp hr)
  refine hopen.row_ne_case hs hw hopen₁ (s.row_eq_of_lineStart ?_)
  omega

/-- **A break under a label** has the blanks before it that are asked for. -/
theorem beforeNode_break (hmoved : s.Moved (Replacement.taken s.text (edits place i s)) s' b b') :
    s'.beforeNode b' = target place i s case := by
  have hlen := (hs b hopen.break_mem_nodes).start_le
  have hlines : Replacement.WithinLines s.text (Replacement.taken s.text (edits place i s)) :=
    withinLines_edits hs hw
  by_cases hplace : s.beforeNode b = target place i s case
  · -- then no change is on its row, for it could only be this one
    rw [← hplace]
    refine (Replacement.beforeNode_of_kept htext hlines hlen hmoved fun r hr => ?_).2
    refine beside_edits hs hw hr fun heq => ?_
    obtain ⟨case₁, b₁, hopen₁, hne, h1, -⟩ :=
      exists_of_mem_edits hs ((mem_taken_edits_iff hs hw).mp hr)
    have hrow : s.row b₁ = s.row b := s.row_eq_of_lineStart (by omega)
    obtain ⟨hstart, rfl⟩ := hopen.eq_of_row hs hw hopen₁ hrow
    refine hne ?_
    rw [← hplace, Source.beforeNode_eq_slice (hs b₁ hopen₁.break_mem_nodes).start_le,
      Source.beforeNode_eq_slice hlen, hrow, hstart]
  · have hlength := Source.length_beforeNode hlen
    obtain ⟨r, hr, h1, h2, h3⟩ : ∃ r ∈ Replacement.taken s.text (edits place i s),
        r.start = s.lineStart (s.row b) ∧ r.stop = s.start b ∧ r.text = target place i s case :=
      ⟨_, (mem_taken_edits_iff hs hw).mpr (mem_edits_iff.mpr ⟨case, b, hopen, hplace, rfl⟩), rfl,
        by dsimp only; omega, rfl⟩
    have hothers : ∀ r' ∈ Replacement.taken s.text (edits place i s), r' = r ∨ s.Beside b r' := by
      intro r' hr'
      rcases (Replacement.descending_taken s.text (edits place i s)).eq_or_before hr hr' with
        rfl | h | h
      · exact Or.inl rfl
      · exact Or.inr (beside_edits hs hw hr' (by have := h.1; omega))
      · exact Or.inr (beside_edits hs hw hr' (by have := h.1; omega))
    rw [(Replacement.beforeNode_of_put htext hlines hlen hmoved hr (k := 0) (by omega) h2
      hothers).2, h3, List.take_zero, List.nil_append]

end Placed

end Edits

/-! ### Votes -/

theorem forall₂_breakPairs {R : Node → Node → Prop} {n n' : Node} (h : Node.Alike R n n') :
    List.Forall₂ (fun p p' => R p.1 p'.1 ∧ R p.2 p'.2) (breakPairs n) (breakPairs n') := by
  rw [breakPairs, breakPairs, h.label.kind]
  split_ifs
  · refine List.rel_flatMap (h.child? .body) fun body body' hbody => ?_
    have hcases := Node.forall₂_filter_of_label (p := isCase)
      (fun _ _ hm => by rw [isCase, isCase, hm.kind]) hbody.codeChildren
    refine List.rel_flatMap hcases fun case case' hcase => ?_
    have hbreaks := Node.forall₂_filter_of_label (p := (·.kind == "break_statement"))
      (fun _ _ hm => by rw [hm.kind]) (hcase.childrenAs .body)
    exact List.rel_map (fun b b' hb => ⟨hcase.rel, hb.rel⟩) hbreaks
  · exact .nil

theorem either_eq_one_iff {a b : Nat} :
    (Vote.either (a ≤ b) .switchBreakMatchCase .switchBreakIndented =
      Vote.one BreakPlace.matchCase.counter ↔
        a ≤ b) ∧
      (Vote.either (a ≤ b) .switchBreakMatchCase .switchBreakIndented =
        Vote.one BreakPlace.indent.counter ↔
        b < a) := by
  rcases Nat.lt_or_ge b a with h | h
  · simp [Vote.either, Vote.one, BreakPlace.counter, h, Nat.not_le.mpr h]
  · simp [Vote.either, Vote.one, BreakPlace.counter, h, Nat.not_lt.mpr h]

theorem count_counter (s : Source) (place : BreakPlace) : s.signals.count place.counter =
    s.breakPairs.countP fun p => breakVotes s p = Vote.one place.counter := by
  cases place with
  | matchCase =>
    simp only [breakVotes, either_eq_one_iff.1]
    exact s.count_switchBreak.1
  | indent =>
    simp only [breakVotes, either_eq_one_iff.2]
    exact s.count_switchBreak.2

theorem of_mem_breakPairs {s : Source} (hw : s.WellWorded) {n : Node} (hn : n ∈ s.root.walkNodes)
    {p : Node × Node} (hp : p ∈ breakPairs n) :
    p.1 ∈ s.root.walkNodes ∧ isCase p.1 = true ∧ p.2 ∈ breaks p.1 := by
  rw [breakPairs] at hp
  split_ifs at hp with hk
  · obtain ⟨body, hbody, hp⟩ := List.mem_flatMap.mp hp
    obtain ⟨case, hcase, hp⟩ := List.mem_flatMap.mp hp
    obtain ⟨b, hb, rfl⟩ := List.mem_map.mp hp
    obtain ⟨hcode, hcase⟩ := List.mem_filter.mp hcase
    have hchild : body ∈ n.child? .body := by simpa using hbody
    have hnamed : body ∈ n.namedChildren := List.mem_filter.mpr ⟨List.mem_of_find?_eq_some hchild,
      (hw n (Node.mem_nodes_of_mem_walkNodes hn)).body hk body hchild⟩
    have hwalk := Node.mem_walkNodes_trans (Node.mem_walkNodes_of_mem_namedChildren hnamed) hn
    exact ⟨Node.mem_walkNodes_trans (Node.mem_walkNodes_of_mem_namedChildren
      (List.mem_filter.mp hcode).1) hwalk, hcase, hb⟩
  · simp at hp

/-- Whether the character columns of a label and its breaks tell the place that was asked for. The
columns that a tab counts for are lost if it is written as spaces, and gained if spaces are written
as a tab. -/
def BreakPlace.Shows (i : Indent) (before : Text) : BreakPlace → Prop
  | matchCase => i.kind = .space → i.width = 1 ∨ '\t' ∉ before
  | indent => i.kind = .tab → i.width = 1 ∨ before.countP (· ≠ '\t') < i.width

/-- **How a break at its target counts.** -/
theorem either_target_iff {i : Indent} (hwidth : 1 ≤ i.width) (place : BreakPlace) (s : Source)
    (case : Node) :
    Vote.either ((target place i s case).length ≤ (s.beforeNode case).length) .switchBreakMatchCase
      .switchBreakIndented = Vote.one place.counter ↔ place.Shows i (s.beforeNode case) := by
  cases place with
  | matchCase =>
    rw [either_eq_one_iff.1]
    change (i.render (i.measure (s.beforeNode case) : Nat)).length ≤ _ ↔ (_ → _)
    cases hkind : i.kind with
    | space => simpa using Indent.length_render_space_le_iff hwidth hkind (s.beforeNode case)
    | tab => simpa using Indent.length_render_tab_le hwidth hkind (s.beforeNode case)
  | indent =>
    rw [either_eq_one_iff.2]
    change _ < (i.render (i.measure (s.beforeNode case) + i.step : Nat)).length ↔ (_ → _)
    cases hkind : i.kind with
    | space => simpa using Indent.lt_length_render_space hwidth hkind (s.beforeNode case)
    | tab => simpa using Indent.lt_length_render_tab_iff hwidth hkind (s.beforeNode case)

/-- **After a run breaks count for the place that was asked for**, as far as character columns can
tell. If the result has the same tree, with its positions carried through the edits, then a break
that opens a line, under a label that opens another one, votes for the place exactly if the place
shows in the columns, and the counts are how many breaks vote for them. -/
theorem breakVotes_restyle {ctx : Context} {t : Text} {s s' : Source} (place : BreakPlace)
    (hwidth : 1 ≤ ctx.indent.width) (hclean : ctx.clean? t = some s) (hs : s.WellFormed)
    (hw : s.WellWorded) (hclean' : ctx.clean? (restyle ctx (.str place.name) t) = some s')
    (hcarried : s.Carried (edits place ctx.indent s) s') :
    List.Forall₂ (fun p p' => s.row p.2 ≠ s.row p.1 → (s.beforeNode p.1).isBlankText = true →
        (s.beforeNode p.2).isBlankText = true →
        (breakVotes s' p' = Vote.one place.counter ↔ place.Shows ctx.indent (s.beforeNode p.1)))
      s.breakPairs s'.breakPairs ∧
    ∀ any : BreakPlace, s'.signals.count any.counter =
      s'.breakPairs.countP fun p' => breakVotes s' p' = Vote.one any.counter := by
  have htext : s'.text = Replacement.apply s.text (edits place ctx.indent s) := by
    rw [Context.text_of_clean? hclean', restyle_of_clean hclean]
  refine ⟨?_, count_counter s'⟩
  have hvoting := List.rel_filter (p := (!·.missing)) (q := (!·.missing))
    (fun n n' hn => by simp [hn.2.label.missing]) hcarried.walk
  refine List.rel_flatMap hvoting fun n n' hn => ?_
  have hpairs := (List.forall₂_and_left _ _).mpr
    ⟨fun p (hp : p ∈ breakPairs n) => hp, forall₂_breakPairs hn.2⟩
  refine hpairs.imp fun p p' ⟨hp, hcase, hbreak⟩ hrows hblank hblank' => ?_
  obtain ⟨hmem, hlabel, hunder⟩ := of_mem_breakPairs hw hn.1 hp
  have hopen : OpensUnder s p.1 p.2 := ⟨hmem, hlabel, hunder, hrows, hblank, hblank'⟩
  rw [breakVotes, s'.column_eq_length (charOffset_le_of_boundary hbreak.boundary.1),
    s'.column_eq_length (charOffset_le_of_boundary hcase.boundary.1),
    beforeNode_break hs hw htext hopen hbreak, beforeNode_case hs hw htext hopen hcase,
    either_target_iff hwidth]

/-- A switch with one label and one break, each behind blanks of its own. -/
def labelled (before gap : Text) : Source where
  text :=
    "switch (x) \x7b\n".toList ++ before ++ "case 1:\n".toList ++ gap ++ "break;\n\x7d\n".toList
  root :=
    let a := before.length
    let b := a + gap.length
    .construct 0 "program" 0 (30 + b) none
      [.construct 1 "switch_statement" 0 (29 + b) none
          [.token 2 "switch" 0 6,
            .construct 3 "parenthesized_expression" 7 10 (some .value)
              [.token 4 "(" 7 8, .construct 5 "identifier" 8 9 none [], .token 6 ")" 9 10],
            .construct 7 "switch_body" 11 (29 + b) (some .body)
              [.token 8 "\x7b" 11 12,
                .construct 9 "switch_case" (13 + a) (27 + b) none
                  [.token 10 "case" (13 + a) (17 + a),
                    .construct 11 "number" (18 + a) (19 + a) (some .value) [],
                    .token 12 ":" (19 + a) (20 + a),
                    .construct 13 "break_statement" (21 + b) (27 + b) (some .body)
                      [.token 14 "break" (21 + b) (26 + b), .token 15 ";" (26 + b) (27 + b)]],
                .token 16 "\x7d" (28 + b) (29 + b)]]]
  hasErrors := false

/-- A break that stands one tab further in than its label counts as such. -/
example : (labelled ['\t'] ['\t', '\t']).signals.count .switchBreakIndented = 1 ∧
    (labelled ['\t'] ['\t', '\t']).signals.count .switchBreakMatchCase = 0 := by decide +kernel

/-- A parser that knows the switch before and after a run. -/
def labelledContext (kind : IndentKind) (before gap gap' : String) : Context :=
  let s := labelled before.toList gap.toList
  let s' := labelled before.toList gap'.toList
  ⟨.ofTable [(s.text, s.root), (s'.text, s'.root)], "javascript", ⟨kind, 4⟩, none⟩

/-- Under a label behind a tab and a space, a break goes one tab further in. -/
theorem breakVotes_restyle_tabs :
    let s := labelled "\t ".toList "\t ".toList
    let s' := labelled "\t ".toList "\t\t ".toList
    let ctx := labelledContext .tab "\t " "\t " "\t\t "
    s.WellFormed ∧ s.WellWorded ∧ s.Carried (edits .indent ctx.indent s) s' ∧
      restyle ctx (.str "indent") s.text = s'.text ∧
      ∃ p p', s.breakPairs = [p] ∧ s'.breakPairs = [p'] ∧
      BreakPlace.indent.Shows ctx.indent (s.beforeNode p.1) ∧
        breakVotes s' p' = Vote.one .switchBreakIndented ∧
        s'.signals.count .switchBreakIndented = 1 := by
  intro s s' ctx
  have hedits : edits .indent ctx.indent s = [⟨23, 25, "\t\t ".toList⟩] := by decide +kernel
  have hs : s.WellFormed := by decide +kernel
  have hw : s.WellWorded := by decide +kernel
  have hcarried : s.Carried (edits .indent ctx.indent s) s' := by
    rw [Source.Carried, hedits]
    decide +kernel
  have hclean : ctx.clean? s.text = some s := by rfl
  have hrun : restyle ctx (.str BreakPlace.indent.name) s.text = s'.text := by
    rw [restyle_of_clean hclean, hedits]
    decide +kernel
  have hclean' : ctx.clean? (restyle ctx (.str BreakPlace.indent.name) s.text) = some s' := by
    rw [hrun]
    rfl
  obtain ⟨hvotes, hcount⟩ := breakVotes_restyle .indent (by decide) hclean hs hw hclean' hcarried
  obtain ⟨p, hp⟩ := List.length_eq_one_iff.mp (show s.breakPairs.length = 1 by decide +kernel)
  obtain ⟨p', hp'⟩ := List.length_eq_one_iff.mp (show s'.breakPairs.length = 1 by decide +kernel)
  have hlines : ∀ p ∈ s.breakPairs, s.row p.2 ≠ s.row p.1 ∧ (s.beforeNode p.1).isBlankText = true ∧
      (s.beforeNode p.2).isBlankText = true ∧ (s.beforeNode p.1).countP (· ≠ '\t') < (4 : Int) := by
    decide +kernel
  obtain ⟨hrow, hblank, hblank', hless⟩ := hlines p (by rw [hp]; exact List.mem_cons_self)
  have hshows : BreakPlace.indent.Shows ctx.indent (s.beforeNode p.1) := fun _ => Or.inr hless
  rw [hp, hp', List.forall₂_cons] at hvotes
  have hvote := (hvotes.1 hrow hblank hblank').mpr hshows
  refine ⟨hs, hw, hcarried, hrun, p, p', hp, hp', hshows, hvote, ?_⟩
  have hone := hcount .indent
  rwa [hp', List.countP_singleton, hvote] at hone

/-- **A label behind a tab, and spaces asked for.** The break goes to the column of the label, as
tabs are measured, and counts as one that stands further in. -/
theorem spaces_under_tab :
    let s := labelled "\t".toList "\t\t".toList
    let s' := labelled "\t".toList "    ".toList
    let ctx := labelledContext .space "\t" "\t\t" "    "
    ctx.clean? s.text = some s ∧ s.WellFormed ∧ s.WellWorded ∧
      restyle ctx (.str "match-case") s.text = s'.text ∧ ctx.clean? s'.text = some s' ∧
      s.Carried (edits .matchCase ctx.indent s) s' ∧
      (∀ p ∈ s.breakPairs, s.row p.2 ≠ s.row p.1 ∧ (s.beforeNode p.1).isBlankText = true ∧
        (s.beforeNode p.2).isBlankText = true) ∧
      s'.breakPairs.length = 1 ∧ s'.signals.count .switchBreakMatchCase = 0 ∧
      s'.signals.count .switchBreakIndented = 1 := by
  intro s s' ctx
  have hedits : edits .matchCase ctx.indent s = [⟨22, 24, "    ".toList⟩] := by decide +kernel
  have hclean : ctx.clean? s.text = some s := by rfl
  have hrun : restyle ctx (.str BreakPlace.matchCase.name) s.text = s'.text := by
    rw [restyle_of_clean hclean, hedits]
    decide +kernel
  have hcarried : s.Carried (edits .matchCase ctx.indent s) s' := by
    rw [Source.Carried, hedits]
    decide +kernel
  exact ⟨hclean, by decide +kernel, by decide +kernel, hrun, by rfl, hcarried, by decide +kernel,
    by decide +kernel, by decide +kernel, by decide +kernel⟩

end SwitchBreaks

end HouseStyle
