import HouseStyle.Proofs.Comment.Groups
import HouseStyle.Proofs.Evidence.Origins
import HouseStyle.Proofs.Restyle.SinglePass

/-! # Trailing comments where they are asked for

A line comment runs to the end of its line, so a row has one of them at most (`eq_of_row`). Hence
all gaps that are not as asked for are changed (`mem_taken_edits_iff`), and before a comment there
is its code with the gap asked for (`entryAt?_eq_withGap`). What is replaced is blank, so the marks
of comments stay, and lines that are blank (`lineBody?_isSome_eq`, `blankBetween_eq`). With them
stay the groups: those of the result are those of the source with other gaps (`commentGroups_eq`).

The rest is about groups. One with the gaps asked for stands as asked for (`Spacing.holds_regap`),
has no gap that would be changed (`Spacing.gap_of_holds`), and no two neighbours that vote against
it (`Spacing.on_of_holds`). Together this is `spaced_restyle`. -/

namespace HouseStyle

open HouseStyle.Text
open HouseStyle.Comment (Entry)

/-! ### Comments on their lines -/

namespace Source

/-- What holds of comments: they open with a mark and have nothing below them, and a line comment
ends on its row, with nothing but blanks behind it. -/
structure Remarks (s : Source) (n : Node) : Prop where
  mark : (List.isPrefixOf ['/', '/'] (s.extent n) || List.isPrefixOf ['/', '*'] (s.extent n)) = true
  leaf : n.children.isEmpty = true
  row : (Comment.lineBody? (s.nodeText n)).isSome = true → s.endRow n = s.row n
  behind : (Comment.lineBody? (s.nodeText n)).isSome = true →
    (s.text.slice (s.stop n) (s.lineStart (s.row n) + (s.line (s.row n)).length)).isBlankText = true

instance (s : Source) (n : Node) : Decidable (s.Remarks n) :=
  decidable_of_iff (_ ∧ _ ∧ _ ∧ _)
    ⟨fun ⟨h1, h2, h3, h4⟩ => ⟨h1, h2, h3, h4⟩, fun h => ⟨h.1, h.2, h.3, h.4⟩⟩

/-- A well-formed source in which comments are as they should be. -/
structure Commented (s : Source) : Prop where
  wellFormed : s.WellFormed
  remarks : ∀ n ∈ s.root.nodes, n.isComment = true → s.Remarks n

instance (s : Source) : Decidable s.Commented :=
  decidable_of_iff (_ ∧ _) ⟨fun ⟨h1, h2⟩ => ⟨h1, h2⟩, fun h => ⟨h.1, h.2⟩⟩

variable {s : Source}

theorem lt_lineEnd {i : Nat} {c : Char} (hc : s.text[i]? = some c) (hne : c ≠ '\n') :
    i < s.lineStart (s.text.rowAt i) + (s.line (s.text.rowAt i)).length := by
  obtain ⟨hi, -⟩ := List.getElem?_eq_some_iff.mp hc
  have hrow : s.text.rowAt (i + 1) = s.text.rowAt i := by
    rw [rowAt_add s.text (Nat.le_add_right i 1), slice_succ hc, List.count_singleton]
    simp [hne]
  obtain ⟨l, b, hl, hb, -, hle⟩ := exists_line_of_offset s.text 0 (i + 1) hi
  rw [hrow] at hl hb
  have hline : s.line (s.text.rowAt i) = l := by
    rw [line, List.getD_eq_getElem?_getD, lines, hl]; rfl
  have hstart : s.lineStart (s.text.rowAt i) = b := by
    rw [lineStart, lineStarts, List.getD_eq_getElem?_getD, hb, Option.getD_some, Nat.zero_add]
  rw [hline, hstart]
  omega

namespace Commented

variable (hs : s.Commented)
include hs

/-- **The mark of a comment**: a slash and, in a line comment, another one. -/
theorem mark {n : Node} (hn : n ∈ s.root.nodes) (hcomment : n.isComment = true) :
    ∃ c, isBlank c = false ∧ s.start n + 2 ≤ s.stop n ∧ s.stop n ≤ s.text.length ∧
      s.text.slice (s.start n) (s.start n + 2) = ['/', c] ∧
      ((Comment.lineBody? (s.nodeText n)).isSome = true ↔ c = '/') := by
  have hsound := hs.wellFormed n hn
  have hlen : s.stop n ≤ s.text.length := charOffset_le_of_boundary hsound.boundary.2
  have hmark := (hs.remarks n hn hcomment).mark
  obtain ⟨c, rest, hc, hrest⟩ : ∃ c rest, (c = '/' ∨ c = '*') ∧ s.extent n = '/' :: c :: rest := by
    rcases Bool.or_eq_true_iff.mp hmark with h | h
    · obtain ⟨rest, hrest⟩ := List.isPrefixOf_iff_prefix.mp h
      exact ⟨'/', rest, Or.inl rfl, hrest.symm⟩
    · obtain ⟨rest, hrest⟩ := List.isPrefixOf_iff_prefix.mp h
      exact ⟨'*', rest, Or.inr rfl, hrest.symm⟩
  have hlong : 2 ≤ (s.extent n).length := by
    rw [hrest, List.length_cons, List.length_cons]
    omega
  rw [extent, length_slice hlen] at hlong
  refine ⟨c, by rcases hc with rfl | rfl <;> rfl, by omega, hlen, ?_, ?_⟩
  · rw [← slice_take (b := s.stop n) (by omega)]
    change (s.extent n).take 2 = _
    rw [hrest]
    rfl
  · rw [hsound.nodeText, hrest]
    rcases hc with rfl | rfl
    · exact ⟨fun _ => rfl, fun _ => rfl⟩
    · exact ⟨fun h => by simp [Comment.lineBody?_isSome_iff] at h, fun h => absurd h (by decide)⟩

theorem getElem?_start {n : Node} (hn : n ∈ s.root.nodes) (hcomment : n.isComment = true) :
    s.text[s.start n]? = some '/' := by
  obtain ⟨c, -, -, -, hslice, -⟩ := hs.mark hn hcomment
  have hhead := congrArg (·[0]?) hslice
  simpa [slice] using hhead

end Commented

end Source

namespace TrailingComments

open Comment

theorem mem_lineComments {s : Source} {n : Node} : n ∈ lineComments s ↔
    n ∈ s.root.walkNodes ∧ n.isComment = true ∧ (lineBody? (s.nodeText n)).isSome = true := by
  rw [lineComments, List.mem_filter, Bool.and_eq_true]

theorem entries_lineComments (s : Source) : entries s (lineComments s) = entries s s.comments := by
  have hnone : ∀ n, entryOf? s n =
      if (lineBody? (s.nodeText n)).isSome then entryOf? s n else none := by
    intro n
    rw [entryOf?]
    cases lineBody? (s.nodeText n) <;> rfl
  have hfilter : lineComments s = s.comments.filter fun n => (lineBody? (s.nodeText n)).isSome := by
    rw [Source.comments, List.filter_filter]
    exact List.filter_congr fun n _ => Bool.and_comm ..
  rw [hfilter, entries, List.filterMap_filter, entries]
  exact List.filterMap_congr fun n _ => (hnone n).symm

/-- A line comment and its entry. -/
structure Enters (s : Source) (n : Node) (e : Entry) : Prop where
  mem : n ∈ lineComments s
  entry : entryAt? (s.row n) (s.beforeNode n) = some e

theorem Enters.parts {s : Source} {n : Node} {e : Entry} (h : Enters s n e) :
    e.row = s.row n ∧ e.codeLength = (s.beforeNode n).trimRight.length ∧ 1 ≤ e.gap ∧
      e.codeLength + e.gap = (s.beforeNode n).length ∧ e.withGap e.gap = e := by
  obtain ⟨⟨-, hlt, -⟩, rfl⟩ := entryAt?_eq_some_iff.mp h.entry
  refine ⟨rfl, rfl, by dsimp only; omega, by dsimp only; omega, ?_⟩
  rw [Entry.withGap]
  congr 1
  dsimp only
  omega

section WellFormed
variable {s : Source} (hs : s.WellFormed)
include hs

theorem entryOf?_of_mem {n : Node} (hn : n ∈ lineComments s) :
    entryOf? s n = entryAt? (s.row n) (s.beforeNode n) := by
  rw [entryOf?_eq (start_le_of_mem_lineComments hs hn), if_pos (mem_lineComments.mp hn).2.2]

theorem exists_enters_of_mem {e : Entry} (he : e ∈ entries s s.comments) : ∃ n, Enters s n e := by
  rw [← entries_lineComments] at he
  obtain ⟨n, hn, hentry⟩ := List.mem_filterMap.mp he
  exact ⟨n, hn, by rw [← entryOf?_of_mem hs hn, hentry]⟩

theorem Enters.exists_group {n : Node} {e : Entry} (h : Enters s n e) :
    ∃ g ∈ s.commentGroups, e ∈ g := by
  rw [← List.mem_flatten, Source.commentGroups, flatten_groups, ← entries_lineComments]
  exact List.mem_filterMap.mpr ⟨n, h.mem, by rw [entryOf?_of_mem hs h.mem, h.entry]⟩

end WellFormed

section Commented
variable {s : Source} (hs : s.Commented)
include hs

theorem exists_enters {g : List Entry} (hg : g ∈ s.commentGroups) {e : Entry} (he : e ∈ g) :
    ∃ n, Enters s n e :=
  exists_enters_of_mem hs.wellFormed (mem_of_mem_groups hg he)

theorem not_later {m n : Node} (hm : m ∈ lineComments s) (hn : n ∈ lineComments s)
    (hrow : s.row m = s.row n) :
    ¬ s.Later m n := by
  obtain ⟨hm, hcm, hbm⟩ := mem_lineComments.mp hm
  obtain ⟨hn, hcn, -⟩ := mem_lineComments.mp hn
  have hends := hs.remarks m (Node.mem_nodes_of_mem_walkNodes hm) hcm
  rintro (⟨c, hc, -⟩ | hle)
  · have hnil := List.isEmpty_iff.mp hends.leaf
    rw [Node.namedChildren, hnil] at hc
    simp at hc
  · -- the later comment would stand in the blanks behind the earlier one
    have hslash := hs.getElem?_start (Node.mem_nodes_of_mem_walkNodes hn) hcn
    have hlt := s.lt_lineEnd hslash (by decide)
    have hmem : '/' ∈ s.text.slice (s.start n) (s.start n + 1) := by
      rw [slice_succ hslash]
      exact List.mem_cons_self
    change s.start n < s.lineStart (s.row n) + (s.line (s.row n)).length at hlt
    rw [← hrow] at hlt
    have hblank := List.all_eq_true.mp (hends.behind hbm) '/' (mem_slice_of_le hle (by omega) hmem)
    exact absurd hblank (by decide)

/-- **A row has one line comment at most.** -/
theorem eq_of_row {m n : Node} (hm : m ∈ lineComments s) (hn : n ∈ lineComments s)
    (hrow : s.row m = s.row n) :
    m = n := by
  by_contra hne
  rcases Source.later_or_later hs.wellFormed (mem_lineComments.mp hm).1 (mem_lineComments.mp hn).1
    hne with h | h
  · exact not_later hs hm hn hrow h
  · exact not_later hs hn hm hrow.symm h

theorem eq_of_mem_groups {g g' : List Entry} (hg : g ∈ s.commentGroups) (hg' : g' ∈ s.commentGroups)
    {e : Entry} (he : e ∈ g) (he' : e ∈ g') : g = g' := by
  have hwalk : (lineComments s).Pairwise s.Later :=
    (Source.pairwise_walkNodes hs.wellFormed (Node.mem_nodes_self s.root)).filter _
  have hnodup : (entries s s.comments).Nodup := by
    rw [← entries_lineComments, entries, List.Nodup, List.pairwise_filterMap]
    refine hwalk.imp_of_mem fun {m n} hm hn hlater e he e' he' heq => ?_
    subst heq
    have hrow := (Enters.mk hm (by rw [← entryOf?_of_mem hs.wellFormed hm, he])).parts.1
    have hrow' := (Enters.mk hn (by rw [← entryOf?_of_mem hs.wellFormed hn, he'])).parts.1
    exact not_later hs hm hn (by omega) hlater
  rw [← flatten_groups s.lines (entries s s.comments), List.nodup_flatten] at hnodup
  have hsymm : Std.Symm fun g g' : List Entry => List.Disjoint g g' :=
    ⟨fun _ _ => List.Disjoint.symm⟩
  by_contra hne
  exact hnodup.2.forall hg hg' hne he he'

end Commented

/-! ### Changes -/

theorem longestCode_le_iff {g : List Entry} {k : Nat} :
    longestCode g ≤ k ↔ ∀ e ∈ g, e.codeLength ≤ k := by
  rw [longestCode, List.foldl_map, foldl_max_le_iff, and_iff_right (Nat.zero_le k)]

/-- How trailing comments are asked to stand: lined up in their groups, or behind one space. -/
inductive Spacing where
  | aligned | single

namespace Spacing

/-- The name of a spacing. -/
def name : Spacing → String
  | aligned => "aligned"
  | single => "single-space"

/-- The replacements for a group. -/
def change : Spacing → Source → List Entry → List Replacement
  | aligned => alignGroup
  | single => tightenGroup

/-- The gap that is asked for in a group. -/
def gap (g : List Entry) (e : Entry) : Spacing → Nat
  | aligned =>
    if g.length < 2 || isAligned g then e.gap else longestCode g + alignmentGap - e.codeLength
  | single => 1

theorem gap_pos {g : List Entry} {e : Entry} (he : e ∈ g) (hpos : 1 ≤ e.gap) (want : Spacing) :
    1 ≤ want.gap g e := by
  cases want with
  | aligned =>
    have hle := (longestCode_le_iff.mp le_rfl) e he
    rw [gap, alignmentGap]
    split_ifs
    · exact hpos
    · omega
  | single => exact le_rfl

theorem change_eq (want : Spacing) (s : Source) (g : List Entry) :
    want.change s g = g.filterMap fun e => setGap? s (want.gap g e) e := by
  cases want with
  | aligned =>
    rw [change, alignGroup]
    split_ifs with h
    · refine (List.filterMap_eq_nil_iff.mpr fun e _ => ?_).symm
      rw [gap, if_pos h, setGap?, if_pos rfl]
    · exact List.filterMap_congr fun e _ => by rw [gap, if_neg h]
  | single => rfl

end Spacing

/-- All changes of a source. -/
def edits (want : Spacing) (s : Source) : List Replacement :=
  s.commentGroups.flatMap (want.change s)

theorem respace_eq (want : Spacing) (s : Source) :
    respace want.change s = Replacement.apply s.text (edits want s) := by
  rw [respace, entries_lineComments]
  rfl

theorem restyle_single_of_clean {ctx : Context} {t : Text} {s : Source}
    (h : ctx.clean? t = some s) :
    restyle ctx (.str Spacing.single.name) t = Replacement.apply s.text (edits .single s) := by
  rw [← respace_eq]
  exact Context.onSource_of_clean h

theorem restyle_of_clean {ctx : Context} (href : ctx.reference? = none) {t : Text} {s : Source}
    (h : ctx.clean? t = some s) (want : Spacing) :
    restyle ctx (.str want.name) t = Replacement.apply s.text (edits want s) := by
  cases want with
  | aligned =>
    rw [← respace_eq, restyle, href]
    exact Context.onSource_of_clean h
  | single => exact restyle_single_of_clean h

/-- The change that gives a comment the gap that is asked for in its group. -/
structure Sets (want : Spacing) (s : Source) (g : List Entry) (e : Entry) (n : Node)
    (r : Replacement) : Prop where
  group : g ∈ s.commentGroups
  mem : e ∈ g
  enters : Enters s n e
  ne : want.gap g e ≠ e.gap
  start : r.start = s.lineStart (s.row n) + e.codeLength
  stop : r.stop = s.start n
  text : r.text = List.replicate (want.gap g e) ' '

section Edits
variable {s : Source} (hs : s.WellFormed) {want : Spacing} {r : Replacement}
include hs

theorem exists_sets (hr : r ∈ edits want s) : ∃ g e n, Sets want s g e n r := by
  obtain ⟨g, hg, hr⟩ := List.mem_flatMap.mp hr
  rw [Spacing.change_eq] at hr
  obtain ⟨e, he, hr⟩ := List.mem_filterMap.mp hr
  obtain ⟨n, hn⟩ := exists_enters_of_mem hs (mem_of_mem_groups hg he)
  obtain ⟨hrow, -, -, hsum, -⟩ := hn.parts
  have hlen := Source.length_beforeNode (start_le_of_mem_lineComments hs hn.mem)
  rw [setGap?] at hr
  split_ifs at hr with hne
  cases hr
  refine ⟨g, e, n, hg, he, hn, hne, ?_, ?_, rfl⟩
  · dsimp only
    rw [hrow]
    omega
  · dsimp only
    rw [hrow]
    omega

theorem exists_mem_edits {g : List Entry} (hg : g ∈ s.commentGroups) {e : Entry} (he : e ∈ g)
    {n : Node} (hn : Enters s n e) (hne : want.gap g e ≠ e.gap) :
    ∃ r ∈ edits want s, Sets want s g e n r := by
  obtain ⟨hrow, -, -, hsum, -⟩ := hn.parts
  have hlen := Source.length_beforeNode (start_le_of_mem_lineComments hs hn.mem)
  refine ⟨⟨s.lineStart (s.row n) + e.codeLength, s.start n, List.replicate (want.gap g e) ' '⟩, ?_,
    hg, he, hn, hne, rfl, rfl, rfl⟩
  refine List.mem_flatMap.mpr ⟨g, hg, ?_⟩
  rw [Spacing.change_eq]
  refine List.mem_filterMap.mpr ⟨e, he, ?_⟩
  rw [setGap?, if_neg hne, Option.some.injEq, Replacement.mk.injEq, hrow]
  exact ⟨rfl, by omega, rfl⟩

end Edits

namespace Sets

variable {s : Source} {want : Spacing} {g : List Entry} {e : Entry} {n : Node} {r : Replacement}
  (h : Sets want s g e n r)
include h

section WellFormed
variable (hs : s.WellFormed)
include hs

theorem range :
    s.start n ≤ s.text.length ∧ s.lineStart (s.row n) + e.codeLength + e.gap = s.start n ∧
    1 ≤ e.gap := by
  obtain ⟨-, -, hpos, hsum, -⟩ := h.enters.parts
  have hle := start_le_of_mem_lineComments hs h.enters.mem
  have hlen := Source.length_beforeNode hle
  exact ⟨hle, by omega, hpos⟩

theorem replaced_eq :
    r.replaced s.text = (s.beforeNode n).drop (s.beforeNode n).trimRight.length := by
  obtain ⟨-, hcode, -⟩ := h.enters.parts
  rw [Replacement.replaced, h.start, h.stop, Source.beforeNode_eq_slice (h.range hs).1, slice_drop,
    ← Source.beforeNode_eq_slice (h.range hs).1, ← hcode]
  rfl

theorem blank :
    (r.replaced s.text).isBlankText = true ∧ r.text.isBlankText = true ∧ '\n' ∉ r.replaced s.text ∧
    '\n' ∉ r.text := by
  refine ⟨?_, ?_, fun hmem => ?_, fun hmem => ?_⟩
  · rw [h.replaced_eq hs]
    exact ink_eq_nil_iff.mp (ink_drop_trimRight _)
  · rw [h.text]
    exact List.all_eq_true.mpr fun c hc => by rw [List.eq_of_mem_replicate hc]; rfl
  · rw [h.replaced_eq hs] at hmem
    exact s.newline_notMem_beforeNode n (List.mem_of_mem_drop hmem)
  · rw [h.text] at hmem
    exact absurd (List.eq_of_mem_replicate hmem) (by decide)

theorem isEffective : r.isEffective s.text = true := by
  obtain ⟨hle, hsum, hpos⟩ := h.range hs
  have hstart := h.start
  have hstop := h.stop
  simp only [Replacement.isEffective, Replacement.inRange, Bool.and_eq_true, decide_eq_true_eq]
  refine ⟨⟨⟨by omega, by omega⟩, by omega⟩, fun heq => h.ne ?_⟩
  have hlength := congrArg List.length heq
  rw [Replacement.replaced, length_slice (by omega), h.text, List.length_replicate] at hlength
  omega

theorem start_lt_stop : r.start < r.stop := by
  obtain ⟨-, hsum, hpos⟩ := h.range hs
  rw [h.start, h.stop]
  omega

theorem upTo : s.UpTo n r := by
  refine ⟨?_, (h.start_lt_stop hs).le, h.stop⟩
  rw [h.start]
  omega

theorem stays {i : Nat} {c : Char} (hc : s.text[i]? = some c) (hsolid : isBlank c = false) :
    r.stop ≤ i ∨ i < r.start := by
  by_contra hin
  obtain ⟨hle, hsum, -⟩ := h.range hs
  have hstart := h.start
  have hmem : c ∈ s.text.slice i (i + 1) := by
    rw [slice_succ hc]
    exact List.mem_cons_self
  have hblank := List.all_eq_true.mp (h.blank hs).1 c (mem_slice_of_le (by omega) (by omega) hmem)
  rw [hsolid] at hblank
  exact Bool.false_ne_true hblank

end WellFormed

/-- **One change for a comment**: there is no other one on its row. -/
theorem eq_of_row (hs : s.Commented) {g' : List Entry} {e' : Entry} {n' : Node} {r' : Replacement}
    (h' : Sets want s g' e' n' r') (hrow : s.row n = s.row n') : r = r' := by
  obtain rfl := TrailingComments.eq_of_row hs h.enters.mem h'.enters.mem hrow
  obtain rfl : e = e' := Option.some.inj (h.enters.entry.symm.trans h'.enters.entry)
  obtain rfl := eq_of_mem_groups hs h.group h'.group h.mem h'.mem
  obtain ⟨a, b, t⟩ := r
  obtain ⟨a', b', t'⟩ := r'
  rw [Replacement.mk.injEq]
  exact ⟨h.start.trans h'.start.symm, h.stop.trans h'.stop.symm, h.text.trans h'.text.symm⟩

end Sets

section Taken
variable {s : Source} (hs : s.Commented) {want : Spacing} {r : Replacement}
include hs

/-- **All gaps that are not as asked for are changed.** -/
theorem mem_taken_edits_iff : r ∈ Replacement.taken s.text (edits want s) ↔ r ∈ edits want s := by
  rw [Replacement.mem_taken_of_apart]
  · refine ⟨fun h => h.1, fun h => ⟨h, ?_⟩⟩
    obtain ⟨g, e, n, hset⟩ := exists_sets hs.wellFormed h
    exact hset.isEffective hs.wellFormed
  · intro r hr r' hr' _ _ hne
    obtain ⟨g, e, n, h⟩ := exists_sets hs.wellFormed hr
    obtain ⟨g', e', n', h'⟩ := exists_sets hs.wellFormed hr'
    rcases lt_trichotomy (s.row n) (s.row n') with hlt | heq | hgt
    · exact Or.inl ((h.upTo hs.wellFormed).before (h'.upTo hs.wellFormed) hlt)
    · exact absurd (h.eq_of_row hs h' heq) hne
    · exact Or.inr ((h'.upTo hs.wellFormed).before (h.upTo hs.wellFormed) hgt)

theorem exists_sets_of_taken (hr : r ∈ Replacement.taken s.text (edits want s)) :
    ∃ g e n, Sets want s g e n r :=
  exists_sets hs.wellFormed ((mem_taken_edits_iff hs).mp hr)

theorem withinLines_edits :
    Replacement.WithinLines s.text (Replacement.taken s.text (edits want s)) := by
  intro r hr
  obtain ⟨g, e, n, h⟩ := exists_sets_of_taken hs hr
  exact (h.blank hs.wellFormed).2.2

/-! ### The result -/

section Result
variable {s' : Source} (htext : s'.text = Replacement.apply s.text (edits want s)) {n n' : Node}
  (hmoved : s.Moved (Replacement.taken s.text (edits want s)) s' n n')
include htext

theorem blankBetween_eq (a b : Nat) : blankBetween s'.lines a b = blankBetween s.lines a b := by
  have hmap : s'.lines.map isBlankText = s.lines.map isBlankText := by
    rw [Source.lines, htext]
    refine Replacement.isBlankText_lines_apply fun r hr _ => ?_
    obtain ⟨g, e, n, h⟩ := exists_sets hs.wellFormed hr
    exact h.blank hs.wellFormed
  have hany : ∀ lines : List Text, blankBetween lines a b =
      (((lines.map isBlankText).take b).drop (a + 1)).any id := by
    intro lines
    rw [blankBetween, ← List.map_take, ← List.map_drop, List.any_map]
    rfl
  rw [hany, hany, hmap]

include hmoved

/-- A comment keeps its mark, because what is replaced is blank. -/
theorem slice_mark (hn : n ∈ s.root.walkNodes) (hcomment : n.isComment = true) :
    s'.text.slice (s'.start n') (s'.start n' + 2) = s.text.slice (s.start n) (s.start n + 2) := by
  have hmem := Node.mem_nodes_of_mem_walkNodes hn
  obtain ⟨c, hsolid, hlong, hlen, hmark, -⟩ := hs.mark hmem hcomment
  have hfirst : s.text[s.start n]? = some '/' := hs.getElem?_start hmem hcomment
  have hsecond : s.text[s.start n + 1]? = some c := by
    have := congrArg (·[1]?) hmark
    simpa [slice] using this
  have hslice := hmoved.slice_start htext (b := s.start n + 2) (by omega) (by omega) fun r hr => by
    obtain ⟨g, e, m, h⟩ := exists_sets_of_taken hs hr
    have hlt := h.start_lt_stop hs.wellFormed
    have h1 := h.stays hs.wellFormed hfirst (by decide)
    have h2 := h.stays hs.wellFormed hsecond hsolid
    omega
  rwa [Nat.add_sub_cancel_left] at hslice

theorem extent_lineComment (hn : n ∈ lineComments s) : s'.extent n' = s.extent n := by
  obtain ⟨hwalk, hcomment, hline⟩ := mem_lineComments.mp hn
  have hmem := Node.mem_nodes_of_mem_walkNodes hwalk
  obtain ⟨c, -, hlong, hlen, -⟩ := hs.mark hmem hcomment
  refine hmoved.extent_eq htext hlen (by omega) fun r hr => ?_
  obtain ⟨g, e, m, h⟩ := exists_sets_of_taken hs hr
  have hup := h.upTo hs.wellFormed
  refine ⟨h.start_lt_stop hs.wellFormed, ?_⟩
  rcases lt_trichotomy (s.row m) (s.row n) with hlt | heq | hgt
  · have h1 := s.lt_lineStart hlt
    have h2 := (Source.start_on_line (start_le_of_mem_lineComments hs.wellFormed hn)).2.1
    have h3 := hup.stop
    omega
  · obtain rfl := eq_of_row hs h.enters.mem hn heq
    exact Or.inl hup.stop.le
  · have hends := (hs.remarks n hmem hcomment).row hline
    have h1 := s.lt_lineStart (i := s.stop n) (hends.trans_lt hgt)
    have h2 := hup.onLine
    omega

/-- **Line comments stay line comments**, and others do not become ones. -/
theorem lineBody?_isSome_eq (hn : n ∈ s.root.walkNodes) (hcomment : n.isComment = true) :
    (lineBody? (s'.nodeText n')).isSome = (lineBody? (s.nodeText n)).isSome := by
  have hmem := Node.mem_nodes_of_mem_walkNodes hn
  obtain ⟨c, -, -, -, hmark, hbody⟩ := hs.mark hmem hcomment
  have htext' : s'.nodeText n' = s'.extent n' :=
    decode_bytes_eq_slice hmoved.boundary.1 hmoved.boundary.2
  rw [htext', Bool.eq_iff_iff]
  constructor
  · intro hline
    obtain ⟨body, hline⟩ := lineBody?_isSome_iff.mp hline
    have hlong : 2 ≤ s'.stop n' - s'.start n' := by
      have := congrArg List.length hline
      rw [Source.extent, slice, List.length_take] at this
      simp only [List.length_cons] at this
      omega
    have hmark' : (s'.extent n').take 2 = ['/', c] := by
      rw [Source.extent, slice_take hlong, slice_mark hs htext hmoved hn hcomment, hmark]
    rw [hline] at hmark'
    exact hbody.mpr (by simpa using hmark'.symm)
  · intro hline
    rw [extent_lineComment hs htext hmoved (mem_lineComments.mpr ⟨hn, hcomment, hline⟩),
      ← (hs.wellFormed n hmem).nodeText, hline]

theorem entryAt?_eq_none (hn : n ∈ lineComments s)
    (hnone : entryAt? (s.row n) (s.beforeNode n) = none) :
    entryAt? (s'.row n') (s'.beforeNode n') = none := by
  have hle := start_le_of_mem_lineComments hs.wellFormed hn
  obtain ⟨hrow, hbefore⟩ :=
    Replacement.beforeNode_of_kept htext (withinLines_edits hs) hle hmoved fun r hr => by
    obtain ⟨g, e, m, h⟩ := exists_sets_of_taken hs hr
    refine (h.upTo hs.wellFormed).beside fun hrow => ?_
    obtain rfl := eq_of_row hs h.enters.mem hn hrow
    rw [h.enters.entry] at hnone
    exact absurd hnone (by simp)
  rw [hrow, hbefore, hnone]

/-- **An entry gets the gap that is asked for** in its group. -/
theorem entryAt?_eq_withGap {e : Entry} (hn : Enters s n e) {g : List Entry}
    (hg : g ∈ s.commentGroups) (he : e ∈ g) :
    entryAt? (s'.row n') (s'.beforeNode n') = some (e.withGap (want.gap g e)) := by
  have hle := start_le_of_mem_lineComments hs.wellFormed hn.mem
  obtain ⟨-, hcode, hpos, hsum, hself⟩ := hn.parts
  by_cases hgap : want.gap g e = e.gap
  · -- nothing is changed on its row
    obtain ⟨hrow, hbefore⟩ :=
      Replacement.beforeNode_of_kept htext (withinLines_edits hs) hle hmoved fun r hr => by
      obtain ⟨g', e', m, h⟩ := exists_sets_of_taken hs hr
      refine (h.upTo hs.wellFormed).beside fun hrow => ?_
      obtain rfl := eq_of_row hs h.enters.mem hn.mem hrow
      obtain rfl : e' = e := Option.some.inj (h.enters.entry.symm.trans hn.entry)
      obtain rfl := eq_of_mem_groups hs h.group hg h.mem he
      exact h.ne hgap
    rw [hrow, hbefore, hgap, hself, hn.entry]
  · obtain ⟨r, hr, hset⟩ := exists_mem_edits hs.wellFormed hg he hn hgap
    have hr := (mem_taken_edits_iff hs).mpr hr
    obtain ⟨hrow, hbefore⟩ := Replacement.beforeNode_of_put htext (withinLines_edits hs) hle hmoved
      hr hset.start hset.stop fun r' hr' => by
        obtain ⟨g', e', m, h⟩ := exists_sets_of_taken hs hr'
        by_cases hrow : s.row m = s.row n
        · exact Or.inl (h.eq_of_row hs hset hrow)
        · exact Or.inr ((h.upTo hs.wellFormed).beside hrow)
    have hblank : isBlankText (List.replicate (want.gap g e) ' ') = true :=
      hset.text ▸ (hset.blank hs.wellFormed).2.1
    have hne : List.replicate (want.gap g e) ' ' ≠ [] := by
      have := want.gap_pos he hpos
      rw [Ne, List.replicate_eq_nil_iff]
      omega
    rw [hrow, hbefore, hcode, take_trimRight_length, hset.text, entryAt?_append hn.entry hblank hne,
      List.length_replicate]

end Result

/-- An entry, and what it becomes with the gap that is asked for in its group. -/
def Respaced (want : Spacing) (s : Source) (e e' : Entry) : Prop :=
  ∃ g ∈ s.commentGroups, e ∈ g ∧ e.withGap (want.gap g e) = e'

/-- A group with the gaps that are asked for. -/
def Spacing.regap (want : Spacing) (g : List Entry) : List Entry :=
  g.map fun e => e.withGap (want.gap g e)

section Carried
variable {s' : Source} (htext : s'.text = Replacement.apply s.text (edits want s))
  (hcarried : s.Carried (edits want s) s')
include htext hcarried

theorem forall₂_entries :
    List.Forall₂ (Respaced want s) (entries s s.comments) (entries s' s'.comments) := by
  have hcomments := Node.forall₂_filter_of_label (p := (·.isComment)) (fun _ _ hm => by
    rw [Node.isComment, Node.isComment, hm.kind]) hcarried.walkNodes
  refine List.rel_filterMap (fun n n' hn => ?_)
    ((List.forall₂_and_left _ _).mpr ⟨fun n hn => hn, hcomments⟩)
  obtain ⟨hmem, halike⟩ := hn
  obtain ⟨hwalk, hcomment⟩ := List.mem_filter.mp hmem
  have hmoved := halike.rel
  have hle := (hs.wellFormed n (Node.mem_nodes_of_mem_walkNodes hwalk)).start_le
  have hle' := charOffset_le_of_boundary hmoved.boundary.1
  rw [entryOf?_eq hle, entryOf?_eq hle', lineBody?_isSome_eq hs htext hmoved hwalk hcomment]
  split_ifs with hbody
  · have hline := mem_lineComments.mpr ⟨hwalk, hcomment, hbody⟩
    cases hentry : entryAt? (s.row n) (s.beforeNode n) with
    | none =>
      rw [entryAt?_eq_none hs htext hmoved hline hentry]
      exact .none
    | some e =>
      have henters : Enters s n e := ⟨hline, hentry⟩
      obtain ⟨g, hg, he⟩ := henters.exists_group hs.wellFormed
      rw [entryAt?_eq_withGap hs htext hmoved henters hg he]
      exact .some ⟨g, hg, he, rfl⟩
  · exact .none

/-- **The groups of the result** are those of the source, with the gaps that are asked for. -/
theorem commentGroups_eq : s'.commentGroups = s.commentGroups.map want.regap := by
  have hplace : ∀ e e', Respaced want s e e' → e'.row = e.row ∧ e'.indent = e.indent := by
    rintro e e' ⟨g, -, -, rfl⟩
    exact ⟨rfl, rfl⟩
  have hgroups :=
    forall₂_groups (blankBetween_eq hs htext) hplace (forall₂_entries hs htext hcarried)
  have hregap : List.Forall₂ (fun g g' => want.regap g = g') s.commentGroups s'.commentGroups := by
    refine ((List.forall₂_and_left _ _).mpr ⟨fun g hg => hg, hgroups⟩).imp fun g g' hg => ?_
    have hgaps : List.Forall₂ (fun e e' => e.withGap (want.gap g e) = e') g g' := by
      refine ((List.forall₂_and_left _ _).mpr ⟨fun e he => he, hg.2⟩).imp fun e e' he => ?_
      obtain ⟨hmem, g₁, hg₁, hmem₁, rfl⟩ := he
      rw [eq_of_mem_groups hs hg.1 hg₁ hmem hmem₁]
    rwa [← List.forall₂_map_left_iff, List.forall₂_eq_eq_eq] at hgaps
  rw [← List.forall₂_map_left_iff, List.forall₂_eq_eq_eq] at hregap
  exact hregap.symm

end Carried

end Taken

/-! ### Groups with the gaps asked for -/

/-- How a group stands that is spaced as asked for. -/
def Spacing.Holds (g : List Entry) : Spacing → Prop
  | aligned => 2 ≤ g.length → ∃ column, ∀ e ∈ g, e.column = column ∧ alignmentGap ≤ e.gap
  | single => ∀ e ∈ g, e.gap = 1

/-- The counter of pairs that are as asked for. -/
def Spacing.counter : Spacing → Counter
  | aligned => .inlineCommentAlignedPairs
  | single => .inlineCommentUnalignedPairs

/-- The counter of pairs that are not as asked for. -/
def Spacing.otherCounter : Spacing → Counter
  | aligned => .inlineCommentUnalignedPairs
  | single => .inlineCommentAlignedPairs

theorem isAligned_of_column {g : List Entry} {column : Nat}
    (h : ∀ e ∈ g, e.column = column ∧ alignmentGap ≤ e.gap) : isAligned g = true := by
  refine List.all_eq_true.mpr fun e he => ?_
  obtain ⟨e₀, es, rfl⟩ := List.exists_cons_of_ne_nil (List.ne_nil_of_mem he)
  rw [Bool.and_eq_true, beq_iff_eq, decide_eq_true_eq, (h e he).1, ← (h e₀ List.mem_cons_self).1]
  exact ⟨rfl, (h e he).2⟩

theorem exists_column_of_isAligned {g : List Entry} (h : isAligned g = true) :
    ∃ column, ∀ e ∈ g, e.column = column ∧ alignmentGap ≤ e.gap := by
  cases g with
  | nil => exact ⟨0, by simp⟩
  | cons e₀ es =>
    refine ⟨e₀.column, fun e he => ?_⟩
    have := List.all_eq_true.mp h e he
    rw [Bool.and_eq_true, beq_iff_eq, decide_eq_true_eq] at this
    exact ⟨Option.some.inj this.1, this.2⟩

/-- **A group gets what it is asked for.** -/
theorem Spacing.holds_regap (want : Spacing) {g : List Entry} (hg : ∀ e ∈ g, e.withGap e.gap = e) :
    want.Holds (want.regap g) := by
  cases want with
  | aligned =>
    intro hlong
    rw [regap, List.length_map] at hlong
    by_cases hal : isAligned g = true
    · -- then nothing is changed
      have hsame : regap aligned g = g := by
        have hid : ∀ e ∈ g, e.withGap (aligned.gap g e) = e := fun e he => by
          rw [gap, if_pos (by rw [hal, Bool.or_true]), hg e he]
        exact (List.map_congr_left hid).trans (List.map_id' g)
      rw [hsame]
      exact exists_column_of_isAligned hal
    · refine ⟨longestCode g + alignmentGap, fun e' he' => ?_⟩
      obtain ⟨e, he, rfl⟩ := List.mem_map.mp he'
      have hle := longestCode_le_iff.mp le_rfl e he
      have hgap : aligned.gap g e = longestCode g + alignmentGap - e.codeLength := by
        rw [gap, if_neg]
        simp only [Bool.or_eq_true, decide_eq_true_eq, not_or]
        exact ⟨by omega, hal⟩
      rw [hgap]
      simp only [Entry.withGap, alignmentGap]
      omega
  | single =>
    intro e' he'
    obtain ⟨e, -, rfl⟩ := List.mem_map.mp he'
    rfl

theorem Spacing.gap_of_holds {want : Spacing} {g : List Entry} (h : want.Holds g) {e : Entry}
    (he : e ∈ g) :
    want.gap g e = e.gap := by
  cases want with
  | aligned =>
    rw [gap, if_pos]
    rw [Bool.or_eq_true, decide_eq_true_eq]
    by_cases hlong : g.length < 2
    · exact Or.inl hlong
    · obtain ⟨column, hcolumn⟩ := h (by omega)
      exact Or.inr (isAligned_of_column hcolumn)
  | single => exact (h e he).symm

theorem Spacing.on_of_holds {want : Spacing} {g : List Entry} (h : want.Holds g)
    (hg : ∀ e ∈ g, e.withGap e.gap = e) :
    On [want.counter] ((Constructs.neighbours g).flatMap alignmentVotes) := by
  refine .flatMap fun ⟨e, e'⟩ hp => .ite (fun _ => .nil) fun hdiffer => ?_
  obtain ⟨he, he'⟩ := List.of_mem_zip hp
  cases want with
  | aligned =>
    have hlong : 2 ≤ g.length := by
      have := List.length_pos_of_mem he'
      rw [List.length_tail] at this
      omega
    obtain ⟨column, hcolumn⟩ := h hlong
    have heq : e.column = e'.column := by
      rw [(hcolumn e he).1, (hcolumn e' (List.mem_of_mem_tail he')).1]
    rw [decide_eq_true heq]
    exact .one List.mem_cons_self
  | single =>
    -- behind one space each, code of one length is left aside, and other code makes other columns
    have h1 := h e he
    have h2 := h e' (List.mem_of_mem_tail he')
    have hc1 := congrArg Entry.column (hg e he)
    have hc2 := congrArg Entry.column (hg e' (List.mem_of_mem_tail he'))
    simp only [Entry.withGap] at hc1 hc2
    have hne : e.column ≠ e'.column := fun heq => hdiffer ⟨h1, h2, by dsimp only; omega⟩
    rw [decide_eq_false hne]
    exact .one List.mem_cons_self

theorem Spacing.count_of_holds {want : Spacing} {s : Source}
    (h : ∀ g ∈ s.commentGroups, want.Holds g)
    (hg : ∀ g ∈ s.commentGroups, ∀ e ∈ g, e.withGap e.gap = e) :
    s.signals.count want.otherCounter = 0 := by
  have hon : On [want.counter] (groupVotes s.commentGroups) :=
    .flatMap fun g hmem => on_of_holds (h g hmem) (hg g hmem)
  cases want with
  | aligned =>
    rw [Spacing.otherCounter, s.count_alignedPairs (by decide), hon.tally_eq_zero (by decide)]
  | single =>
    rw [Spacing.otherCounter, s.count_alignedPairs (by decide), hon.tally_eq_zero (by decide)]

/-- **After a run trailing comments are spaced as asked for.** If the result has the same tree, with
its positions carried through the edits, then its groups are on the same rows as before and each is
spaced as asked for, no two neighbours count against it, and a second run changes nothing. -/
theorem spaced_restyle {ctx : Context} (href : ctx.reference? = none) {t : Text} {s s' : Source}
    (want : Spacing) (hclean : ctx.clean? t = some s) (hs : s.Commented)
    (hclean' : ctx.clean? (restyle ctx (.str want.name) t) = some s')
    (hcarried : s.Carried (edits want s) s') :
    s'.commentGroups.map (·.map (·.row)) = s.commentGroups.map (·.map (·.row)) ∧
      (∀ g ∈ s'.commentGroups, want.Holds g) ∧ s'.signals.count want.otherCounter = 0 ∧
      restyle ctx (.str want.name) (restyle ctx (.str want.name) t) =
        restyle ctx (.str want.name) t := by
  have htext : s'.text = Replacement.apply s.text (edits want s) := by
    rw [Context.text_of_clean? hclean', restyle_of_clean href hclean]
  have hgroups := commentGroups_eq hs htext hcarried
  have hself : ∀ g ∈ s.commentGroups, ∀ e ∈ g, e.withGap e.gap = e := by
    intro g hg e he
    obtain ⟨n, hn⟩ := exists_enters hs hg he
    exact hn.parts.2.2.2.2
  have hholds : ∀ g ∈ s'.commentGroups, want.Holds g := by
    intro g' hg'
    rw [hgroups] at hg'
    obtain ⟨g, hg, rfl⟩ := List.mem_map.mp hg'
    exact want.holds_regap (hself g hg)
  have hself' : ∀ g ∈ s'.commentGroups, ∀ e ∈ g, e.withGap e.gap = e := by
    intro g' hg' e' he'
    rw [hgroups] at hg'
    obtain ⟨g, hg, rfl⟩ := List.mem_map.mp hg'
    obtain ⟨e, he, rfl⟩ := List.mem_map.mp he'
    rfl
  refine ⟨?_, hholds, Spacing.count_of_holds hholds hself', ?_⟩
  · rw [hgroups, List.map_map]
    refine List.map_congr_left fun g _ => ?_
    rw [Function.comp_apply, Spacing.regap, List.map_map]
    rfl
  · have hnone : edits want s' = [] := by
      refine List.flatMap_eq_nil_iff.mpr fun g hg => ?_
      rw [Spacing.change_eq, List.filterMap_eq_nil_iff]
      intro e he
      rw [setGap?, if_pos (Spacing.gap_of_holds (hholds g hg) he)]
    rw [restyle_of_clean href hclean', hnone, Replacement.apply_nil, Context.text_of_clean? hclean']

/-- Two declarations with a comment behind each, `a` and `b` columns away. -/
def noted (a b : Nat) : Source where
  text := "let a = 1;".toList ++ List.replicate a ' ' ++ "// one\nlet bb = 2;".toList ++
    List.replicate b ' ' ++ "// two\n".toList
  root :=
    .construct 0 "program" 0 (35 + a + b) none
      [.construct 1 "lexical_declaration" 0 10 none
          [.token 2 "let" 0 3,
            .construct 3 "variable_declarator" 4 9 none
              [.construct 4 "identifier" 4 5 (some .name) [], .token 5 "=" 6 7,
                .construct 6 "number" 8 9 (some .value) []],
            .token 7 ";" 9 10],
        .construct 8 "comment" (10 + a) (16 + a) none [],
        .construct 9 "lexical_declaration" (17 + a) (28 + a) none
          [.token 10 "let" (17 + a) (20 + a),
            .construct 11 "variable_declarator" (21 + a) (27 + a) none
              [.construct 12 "identifier" (21 + a) (23 + a) (some .name) [],
                .token 13 "=" (24 + a) (25 + a), .construct 14 "number" (26 + a) (27 + a)
                  (some .value) []], .token 15 ";" (27 + a) (28 + a)],
        .construct 16 "comment" (28 + a + b) (34 + a + b) none []]
  hasErrors := false

/-- A parser that knows the declarations before and after their comments are lined up. -/
def notedContext : Context :=
  ⟨.ofTable [((noted 1 1).text, (noted 1 1).root), ((noted 3 2).text, (noted 3 2).root)],
    "javascript", ⟨.space, 2⟩, none⟩

theorem taken_noted : Replacement.taken (noted 1 1).text (edits .aligned (noted 1 1)) =
    [⟨29, 30, "  ".toList⟩, ⟨10, 11, "   ".toList⟩] := by
  have hedits : edits .aligned (noted 1 1) = [⟨10, 11, "   ".toList⟩, ⟨29, 30, "  ".toList⟩] := by
    decide +kernel
  rw [Replacement.taken, hedits, Replacement.candidates_eq_of_perm (l := [⟨29, 30, "  ".toList⟩,
    ⟨10, 11, "   ".toList⟩]) (by decide +kernel) (by decide)]
  decide +kernel

/-- Two comments are lined up. -/
theorem spaced_restyle_noted :
    (noted 1 1).Commented ∧ (noted 1 1).Carried (edits .aligned (noted 1 1)) (noted 3 2) ∧
      restyle notedContext (.str "aligned") (noted 1 1).text = (noted 3 2).text ∧
      (noted 3 2).commentGroups.map (·.map (·.row)) = [[0, 1]] ∧
      (∀ g ∈ (noted 3 2).commentGroups, Spacing.aligned.Holds g) ∧
      (noted 3 2).signals.count .inlineCommentUnalignedPairs = 0 ∧
      restyle notedContext (.str "aligned") (noted 3 2).text = (noted 3 2).text := by
  have hs : (noted 1 1).Commented := by decide +kernel
  have hcarried : (noted 1 1).Carried (edits .aligned (noted 1 1)) (noted 3 2) := by
    rw [Source.Carried, taken_noted]
    decide +kernel
  have hclean : notedContext.clean? (noted 1 1).text = some (noted 1 1) := by rfl
  have hrun : restyle notedContext (.str Spacing.aligned.name) (noted 1 1).text =
      (noted 3 2).text := by
    rw [restyle_of_clean rfl hclean, Replacement.apply, taken_noted]
    decide +kernel
  have hclean' : notedContext.clean?
      (restyle notedContext (.str Spacing.aligned.name) (noted 1 1).text) =
        some (noted 3 2) := by
    rw [hrun]
    rfl
  obtain ⟨hrows, hholds, hcount, hagain⟩ := spaced_restyle rfl .aligned hclean hs hclean' hcarried
  have hgroups : (noted 1 1).commentGroups.map (·.map (·.row)) = [[0, 1]] := by decide +kernel
  rw [hrun] at hagain
  exact ⟨hs, hcarried, hrun, hrows.trans hgroups, hholds, hcount, hagain⟩

end TrailingComments

end HouseStyle
