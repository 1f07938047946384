import HouseStyle.Proofs.Restyle.TrailingComments

/-! # Gaps of one blank

Under `single-space`, a gap that is not one blank wide is replaced by a space, and one that is one
blank wide stays as it is, whatever the blank (`tightened`). So behind one space there are all
trailing comments but those behind one other blank (`gaps_restyle_single`), such as a tab
(`gap_restyle_single_tab`).

That all gaps are replaced that are to be rests on the marks of comments: two comments that start
apart have the slashes of the first between them, so a change that ends at the second starts behind
them (`stop_lt_start`), and comments that start together have one entry (`entry_eq_of_start`).
Neither asks where comments end. -/

namespace HouseStyle

/-! ### Blanks at the end -/

namespace Text

/-- The blanks right before an offset. -/
def gapBefore (t : Text) (p : Nat) : Text := ((t.take p).reverse.takeWhile isBlank).reverse

theorem gapBefore_of_take {t x gap : Text} {p : Nat} {c : Char} (h : t.take p = x ++ c :: gap)
    (hc : isBlank c = false) (hgap : gap.isBlankText = true) : t.gapBefore p = gap := by
  have hrev : ∀ d ∈ gap.reverse, isBlank d = true := fun d hd =>
    List.all_eq_true.mp hgap d (List.mem_reverse.mp hd)
  rw [gapBefore, h, List.reverse_append, List.reverse_cons, List.append_assoc,
    List.takeWhile_append_of_pos hrev, List.singleton_append, List.takeWhile_cons_of_neg
      (by rw [hc]; exact Bool.false_ne_true), List.append_nil, List.reverse_reverse]

theorem getElem?_of_take {t x y : Text} {p : Nat} {c : Char} (h : t.take p = x ++ c :: y) :
    t[x.length]? = some c := by
  have hsplit : t = x ++ c :: (y ++ t.drop p) := by
    rw [← List.cons_append, ← List.append_assoc, ← h, List.take_append_drop]
  rw [hsplit]
  simp

theorem exists_last_solid {t : Text} (h : t.trimRight ≠ []) :
    ∃ (x : Text) (c : Char) (gap : Text), isBlank c = false ∧ gap.isBlankText = true ∧
      t = x ++ c :: gap ∧
      x.length + 1 = t.trimRight.length := by
  refine ⟨t.trimRight.dropLast, t.trimRight.getLast h, (t.reverse.takeWhile isBlank).reverse,
    ?_, ?_, ?_, ?_⟩
  · have hlast := getLast?_trimRight t
    rw [List.getLast?_eq_getLast_of_ne_nil h] at hlast
    exact (mem_ink.mp (List.mem_of_getLast? hlast.symm)).2
  · exact List.all_eq_true.mpr fun c hc => List.mem_takeWhile_imp (List.mem_reverse.mp hc)
  · rw [← List.singleton_append, ← List.append_assoc, List.dropLast_append_getLast,
      trimRight_append_blanks]
  · rw [List.length_dropLast]
    have := List.length_pos_iff.mpr h
    omega

end Text

open HouseStyle.Text
open HouseStyle.Comment (Entry)

namespace TrailingComments

open Comment

/-- What becomes of the gap before a trailing comment: one blank stays, anything else becomes a
space. -/
def tightened (gap : Text) : Text := if gap.length = 1 then gap else [' ']

theorem tightened_eq_space_iff {gap : Text} : tightened gap = [' '] ↔ ∀ c, gap = [c] → c = ' ' := by
  rw [tightened]
  split_ifs with hone
  · obtain ⟨d, rfl⟩ := List.length_eq_one_iff.mp hone
    simp
  · exact ⟨fun _ c hc => absurd (by rw [hc]; rfl) hone, fun _ => rfl⟩

theorem isBlankText_tightened {gap : Text} (h : gap.isBlankText = true) :
    (tightened gap).isBlankText = true := by
  rw [tightened]
  split_ifs
  · exact h
  · rfl

/-- A line comment that is an entry: behind code that could be lined up, with blanks between the
two. -/
def IsEntry (s : Source) (n : Node) : Prop := n ∈ lineComments s ∧ (entryOf? s n).isSome = true

variable {s : Source} {g g' : List Entry} {e e' : Entry} {m n : Node} {r r' : Replacement}

/-- **Comments that start together have one entry.** -/
theorem entry_eq_of_start (hm : Enters s m e) (hn : Enters s n e')
    (hstart : s.start m = s.start n) : e = e' := by
  have hrow : s.row m = s.row n := by rw [Source.row, Source.row, hstart]
  have hbefore : s.beforeNode m = s.beforeNode n := by
    rw [Source.beforeNode, Source.beforeNode, Source.column, Source.column, hrow, hstart]
  have hentry := hm.entry
  rw [hrow, hbefore, hn.entry] at hentry
  exact (Option.some.inj hentry).symm

theorem Sets.eq_of_start (h : Sets .single s g e m r) (h' : Sets .single s g' e' n r')
    (hstart : s.start m = s.start n) : r = r' := by
  obtain rfl := entry_eq_of_start h.enters h'.enters hstart
  have hrow : s.row m = s.row n := by rw [Source.row, Source.row, hstart]
  have hfrom : r.start = r'.start := by rw [h.start, h'.start, hrow]
  have hto : r.stop = r'.stop := by rw [h.stop, h'.stop, hstart]
  have htext : r.text = r'.text := h.text.trans h'.text.symm
  obtain ⟨a, b, t⟩ := r
  obtain ⟨a', b', t'⟩ := r'
  rw [Replacement.mk.injEq]
  exact ⟨hfrom, hto, htext⟩

section WellFormed
variable (hs : s.WellFormed)
include hs

theorem isEntry_iff : IsEntry s n ↔ ∃ e, Enters s n e := by
  constructor
  · rintro ⟨hn, hsome⟩
    obtain ⟨e, he⟩ := Option.isSome_iff_exists.mp hsome
    exact ⟨e, hn, by rw [← entryOf?_of_mem hs hn, he]⟩
  · rintro ⟨e, hn, he⟩
    exact ⟨hn, by rw [entryOf?_of_mem hs hn, he]; rfl⟩

theorem slashes (hn : n ∈ lineComments s) :
    s.start n + 2 ≤ s.text.length ∧ s.text.slice (s.start n) (s.start n + 2) = ['/', '/'] := by
  obtain ⟨hwalk, -, hbody⟩ := mem_lineComments.mp hn
  have hsound := hs n (Node.mem_nodes_of_mem_walkNodes hwalk)
  have hlen : s.stop n ≤ s.text.length := charOffset_le_of_boundary hsound.boundary.2
  rw [hsound.nodeText] at hbody
  obtain ⟨body, hbody⟩ := lineBody?_isSome_iff.mp hbody
  have hlong : 2 ≤ s.stop n - s.start n := by
    have := congrArg List.length hbody
    rw [Source.extent, length_slice hlen, List.length_cons, List.length_cons] at this
    omega
  refine ⟨by omega, ?_⟩
  rw [← slice_take hlong]
  change (s.extent n).take 2 = _
  rw [hbody]
  rfl

theorem getElem?_slashes (hn : n ∈ lineComments s) :
    s.text[s.start n]? = some '/' ∧ s.text[s.start n + 1]? = some '/' := by
  have hslice := (slashes hs hn).2
  have hfirst := congrArg (·[0]?) hslice
  have hsecond := congrArg (·[1]?) hslice
  exact ⟨by simpa [slice] using hfirst, by simpa [slice] using hsecond⟩

/-! ### Changes -/

/-- **A change starts behind the comments before its own.** -/
theorem Sets.stop_lt_start (h : Sets .single s g e m r) (h' : Sets .single s g' e' n r')
    (hlt : s.start m < s.start n) : r.stop < r'.start := by
  have hstays := h'.stays hs (getElem?_slashes hs h.enters.mem).1 (by decide)
  have h1 := h.stop
  have h2 := h'.stop
  omega

/-- **All gaps that are not one blank wide are changed.** -/
theorem mem_taken_single_iff :
    r ∈ Replacement.taken s.text (edits .single s) ↔ r ∈ edits .single s := by
  rw [Replacement.mem_taken_of_apart]
  · refine ⟨fun h => h.1, fun h => ⟨h, ?_⟩⟩
    obtain ⟨g, e, n, hset⟩ := exists_sets hs h
    exact hset.isEffective hs
  · intro r hr r' hr' _ _ hne
    obtain ⟨g, e, m, h⟩ := exists_sets hs hr
    obtain ⟨g', e', n, h'⟩ := exists_sets hs hr'
    have horder := h.start_lt_stop hs
    have horder' := h'.start_lt_stop hs
    rcases lt_trichotomy (s.start m) (s.start n) with hlt | heq | hgt
    · have := h.stop_lt_start hs h' hlt
      exact Or.inl ⟨by omega, by omega⟩
    · exact absurd (h.eq_of_start h' heq) hne
    · have := h'.stop_lt_start hs h hgt
      exact Or.inr ⟨by omega, by omega⟩

theorem exists_sets_of_taken_single (hr : r ∈ Replacement.taken s.text (edits .single s)) :
    ∃ g e n, Sets .single s g e n r :=
  exists_sets hs ((mem_taken_single_iff hs).mp hr)

theorem stays_single {i : Nat} {c : Char} (hc : s.text[i]? = some c) (hsolid : isBlank c = false)
    (hr : r ∈ Replacement.taken s.text (edits .single s)) : r.start < r.stop ∧
      (r.stop ≤ i ∨ i < r.start) := by
  obtain ⟨g, e, n, h⟩ := exists_sets_of_taken_single hs hr
  exact ⟨h.start_lt_stop hs, h.stays hs hc hsolid⟩

/-! ### The result -/

theorem exists_start_after (hn : n ∈ lineComments s) : ∃ p : Nat,
    (p : Int) = Replacement.startAfter (Replacement.taken s.text (edits .single s)) (s.start n) ∧
      slice (Replacement.apply s.text (edits .single s)) p (p + 2) = ['/', '/'] := by
  obtain ⟨hfirst, hsecond⟩ := getElem?_slashes hs hn
  obtain ⟨hlen, hslashes⟩ := slashes hs hn
  have hclear : Replacement.Clear (Replacement.taken s.text (edits .single s)) (s.start n) :=
    fun r hr hcross => by
    have := stays_single hs hfirst (by decide) hr
    omega
  have hstart := Replacement.length_edited (by omega) hclear
  rw [Replacement.stopAfter_add (p := s.start n) fun r hr => by
    have := stays_single hs hfirst (by decide) hr
    omega, sub_self, add_zero] at hstart
  refine ⟨_, hstart, ?_⟩
  have hkept := Replacement.slice_apply_from hlen (by omega) (fun r hr => by
    have h1 := stays_single hs hfirst (by decide) hr
    have h2 := stays_single hs hsecond (by decide) hr
    omega) hstart
  rw [Nat.add_sub_cancel_left] at hkept
  rw [hkept, hslashes]

theorem Enters.exists_gap (h : Enters s n e) :
    ∃ (x : Text) (c : Char) (gap : Text), isBlank c = false ∧
    gap.isBlankText = true ∧ s.text.take (s.start n) = x ++ c :: gap ∧ gap.length = e.gap ∧
      x.length + 1 + e.gap = s.start n ∧ x.length + 1 = s.lineStart (s.row n) + e.codeLength := by
  have hle := start_le_of_mem_lineComments hs h.mem
  obtain ⟨-, hcode, -, hsum, -⟩ := h.parts
  obtain ⟨⟨hne, -⟩, -⟩ := entryAt?_eq_some_iff.mp h.entry
  obtain ⟨x, c, gap, hc, hgap, hbefore, hx⟩ := exists_last_solid hne
  have htake :
      s.text.take (s.start n) = (s.text.take (s.lineStart (s.row n)) ++ x) ++ c :: gap := by
    rw [s.take_start hle, hbefore, List.append_assoc]
  have hlength := congrArg List.length htake
  have hlength' := congrArg List.length hbefore
  have hline := Source.length_beforeNode hle
  refine ⟨_, c, gap, hc, hgap, htake, ?_⟩
  simp only [List.length_append, List.length_cons, List.length_take] at hlength hlength' ⊢
  omega

/-- **What becomes of a gap.** -/
theorem gapBefore_apply (hn : Enters s n e) {p : Nat}
    (hp : (p : Int) = Replacement.startAfter (Replacement.taken s.text (edits .single s))
      (s.start n)) :
    gapBefore (Replacement.apply s.text (edits .single s)) p =
      tightened (s.text.gapBefore (s.start n)) := by
  have hle := start_le_of_mem_lineComments hs hn.mem
  obtain ⟨x, c, gap, hc, hgap, htake, hlength, hstart, hcode⟩ := hn.exists_gap hs
  have hchar := getElem?_of_take htake
  have hslash := (getElem?_slashes hs hn.mem).1
  rw [gapBefore_of_take htake hc hgap]
  -- the last character of the code stays, and behind it there is the old gap or the new one
  suffices ∃ y, (Replacement.apply s.text (edits .single s)).take p = y ++ c :: tightened gap by
    obtain ⟨y, hy⟩ := this
    exact gapBefore_of_take hy hc (isBlankText_tightened hgap)
  by_cases hone : gap.length = 1
  · refine ⟨Replacement.edited s.text (Replacement.taken s.text (edits .single s)) x.length, ?_⟩
    rw [tightened, if_pos hone, ← Replacement.slice_eq_of_take rfl htake]
    refine Replacement.take_apply_kept (by omega) hle (fun r hr => ?_) hp
    have h1 := stays_single hs hchar hc hr
    have h2 := stays_single hs hslash (by decide) hr
    by_contra hcross
    -- the change of this very gap, which asks for no other width
    obtain ⟨g, e', m, h⟩ := exists_sets_of_taken_single hs hr
    have hstop := h.stop
    obtain rfl := entry_eq_of_start h.enters hn (by omega)
    exact h.ne (hone.symm.trans hlength)
  · obtain ⟨g, hg, he⟩ := hn.exists_group hs
    obtain ⟨r, hr, hset⟩ : ∃ r ∈ edits .single s, Sets .single s g e n r :=
      exists_mem_edits hs hg he hn fun h => hone (hlength.trans h.symm)
    have hput := Replacement.take_apply_put ((mem_taken_single_iff hs).mpr hr) (a := x.length + 1)
      (hset.start.trans (by omega)) hset.stop (fun r' hr' hbefore => by
        have h1 := stays_single hs hchar hc hr'
        have h2 := hbefore.2
        omega) hp
    rw [Replacement.edited_extend (Nat.le_succ x.length) fun r' hr' => by
      have := stays_single hs hchar hc hr'
      omega, slice_succ hchar, hset.text] at hput
    exact ⟨_, by rw [tightened, if_neg hone, hput, List.append_assoc]; rfl⟩

end WellFormed

/-- **The entries of the result** come from those of the source. -/
theorem exists_isEntry_of_carried {s s' : Source} (hs : s.Commented)
    (htext : s'.text = Replacement.apply s.text (edits .single s))
    (hcarried : s.Carried (edits .single s) s') {n' : Node} (hn' : IsEntry s' n') :
    ∃ n, IsEntry s n ∧
      (s'.start n' : Int) = Replacement.startAfter (Replacement.taken s.text (edits .single s))
        (s.start n) := by
  obtain ⟨hmem', hsome'⟩ := hn'
  obtain ⟨hwalk', hcomment', hbody'⟩ := mem_lineComments.mp hmem'
  obtain ⟨n, -, hwalk, halike⟩ := exists_of_forall₂ hcarried.walk hwalk'
  have hmoved := halike.rel
  have hcomment : n.isComment = true := by
    rw [← hcomment', Node.isComment, Node.isComment, halike.label.kind]
  have hbody := (lineBody?_isSome_eq hs htext hmoved hwalk hcomment).symm.trans hbody'
  have hmem := mem_lineComments.mpr ⟨hwalk, hcomment, hbody⟩
  have hsome : (entryOf? s n).isSome = true := by
    rw [entryOf?_of_mem hs.wellFormed hmem, Option.isSome_iff_ne_none]
    intro hnone
    rw [entryOf?_eq (charOffset_le_of_boundary hmoved.boundary.1), if_pos hbody',
      entryAt?_eq_none hs htext hmoved hmem hnone] at hsome'
    exact Bool.false_ne_true hsome'
  refine ⟨n, ⟨hmem, hsome⟩, hmoved.start fun r hr hcross => ?_⟩
  have := stays_single hs.wellFormed (getElem?_slashes hs.wellFormed hmem).1 (by decide) hr
  omega

/-- **Behind one space, or behind one other blank.** Every entry of a source is found again in the
result, where a gap of one blank is as it was and any other one is a space: so there is one space
before it unless there was one blank that is no space. If the result has the same tree, with its
positions carried through the edits, then this holds of all entries of the result. -/
theorem gaps_restyle_single {ctx : Context} {t : Text} {s : Source} (hclean : ctx.clean? t = some s)
    (hs : s.WellFormed) :
    (∀ n, IsEntry s n → ∃ p : Nat,
      (p : Int) = Replacement.startAfter (Replacement.taken s.text (edits .single s)) (s.start n) ∧
        slice (restyle ctx (.str "single-space") t) p (p + 2) = ['/', '/'] ∧
        gapBefore (restyle ctx (.str "single-space") t) p =
          tightened (s.text.gapBefore (s.start n)) ∧
        (gapBefore (restyle ctx (.str "single-space") t) p = [' '] ↔
          ∀ c, s.text.gapBefore (s.start n) = [c] → c = ' ')) ∧
    ∀ s', ctx.clean? (restyle ctx (.str "single-space") t) = some s' → s.Commented →
      s.Carried (edits .single s) s' → ∀ n', IsEntry s' n' → ∃ n, IsEntry s n ∧
        (s'.start n' : Int) = Replacement.startAfter (Replacement.taken s.text (edits .single s))
          (s.start n) ∧
        (s'.text.gapBefore (s'.start n') = [' '] ↔ ∀ c, s.text.gapBefore (s.start n) = [c] →
          c = ' ') := by
  have hrun : restyle ctx (.str "single-space") t = Replacement.apply s.text (edits .single s) :=
    restyle_single_of_clean hclean
  rw [hrun]
  constructor
  · intro n hn
    obtain ⟨e, he⟩ := (isEntry_iff hs).mp hn
    obtain ⟨p, hp, hslashes⟩ := exists_start_after hs he.mem
    have hgap := gapBefore_apply hs he hp
    exact ⟨p, hp, hslashes, hgap, by rw [hgap, tightened_eq_space_iff]⟩
  · intro s' hclean' hcommented hcarried n' hn'
    have htext := Context.text_of_clean? hclean'
    obtain ⟨n, hn, hstart⟩ := exists_isEntry_of_carried hcommented htext hcarried hn'
    obtain ⟨e, he⟩ := (isEntry_iff hs).mp hn
    exact ⟨n, hn, hstart, by rw [htext, gapBefore_apply hs he hstart, tightened_eq_space_iff]⟩

/-- A gap of a tab and two spaces. -/
def wide : Text := ['\t', ' ', ' ']

/-- The comment behind a declaration, `k` bytes away. -/
def remark (k : Nat) : Node := .construct 8 "comment" (10 + k) (16 + k) none []

/-- A declaration, a gap and a comment. -/
def remarked (gap : Text) : Source where
  text := "let a = 1;".toList ++ gap ++ "// one\n".toList
  root :=
    .construct 0 "program" 0 (17 + gap.byteLength) none
      [.construct 1 "lexical_declaration" 0 10 none
          [.token 2 "let" 0 3,
            .construct 3 "variable_declarator" 4 9 none
              [.construct 4 "identifier" 4 5 (some .name) [], .token 5 "=" 6 7,
                .construct 6 "number" 8 9 (some .value) []],
            .token 7 ";" 9 10],
        remark gap.byteLength]
  hasErrors := false

/-- A parser that knows the declaration with the wide gap, a tab and a space. -/
def remarkedContext : Context :=
  ⟨.ofTable ([wide, ['\t'], [' ']].map fun gap => ((remarked gap).text, (remarked gap).root)),
    "javascript", ⟨.space, 2⟩, none⟩

theorem isEntry_remark {gap : Text}
    (hbody : (lineBody? ((remarked gap).nodeText (remark gap.byteLength))).isSome = true)
    (hentry : (entryOf? (remarked gap) (remark gap.byteLength)).isSome = true) :
    IsEntry (remarked gap) (remark gap.byteLength) := by
  have hchild : remark gap.byteLength ∈ (remarked gap).root.namedChildren :=
    List.mem_cons_of_mem _ List.mem_cons_self
  exact ⟨mem_lineComments.mpr ⟨Node.mem_walkNodes_of_mem_namedChildren hchild, rfl, hbody⟩, hentry⟩

theorem taken_remarked : Replacement.taken (remarked wide).text (edits .single (remarked wide)) =
    [⟨10, 13, [' ']⟩] := by
  have hedits : edits .single (remarked wide) = [⟨10, 13, [' ']⟩] := by decide +kernel
  rw [Replacement.taken, hedits,
    Replacement.candidates_eq_of_perm (l := [⟨10, 13, [' ']⟩]) (by decide +kernel)
    (by decide)]
  decide +kernel

/-- A tab and two spaces become one space. -/
theorem gaps_restyle_single_wide :
    (remarked wide).WellFormed ∧ IsEntry (remarked wide) (remark 3) ∧
      restyle remarkedContext (.str "single-space") (remarked wide).text = (remarked [' ']).text ∧
      gapBefore (restyle remarkedContext (.str "single-space") (remarked wide).text) 11 = [' '] ∧
      ∀ n', IsEntry (remarked [' ']) n' →
        gapBefore (remarked [' ']).text ((remarked [' ']).start n') = [' '] := by
  have hs : (remarked wide).Commented := by decide +kernel
  have hclean : remarkedContext.clean? (remarked wide).text = some (remarked wide) := by rfl
  have hrun : restyle remarkedContext (.str "single-space") (remarked wide).text =
      (remarked [' ']).text := by
    have h := restyle_single_of_clean hclean
    rw [Replacement.apply, taken_remarked] at h
    exact h.trans (by decide +kernel)
  have hclean' : remarkedContext.clean?
      (restyle remarkedContext (.str "single-space") (remarked wide).text) =
        some (remarked [' ']) := by
    rw [hrun]
    rfl
  have hcarried : (remarked wide).Carried (edits .single (remarked wide)) (remarked [' ']) := by
    rw [Source.Carried, taken_remarked]
    decide +kernel
  have hentry : IsEntry (remarked wide) (remark 3) :=
    isEntry_remark (by decide +kernel) (by decide +kernel)
  have hgap : gapBefore (remarked wide).text 13 = wide := by decide +kernel
  have hwide : ∀ c, gapBefore (remarked wide).text 13 = [c] → c = ' ' := by
    intro c hc
    rw [hgap] at hc
    simp [wide] at hc
  have hstarts : (lineComments (remarked wide)).map (remarked wide).start = [13] := by
    decide +kernel
  have hstart : ∀ n, IsEntry (remarked wide) n → (remarked wide).start n = 13 := by
    intro n hn
    have hmem := List.mem_map_of_mem (f := (remarked wide).start) hn.1
    rw [hstarts] at hmem
    exact List.mem_singleton.mp hmem
  obtain ⟨hsource, hresult⟩ := gaps_restyle_single hclean hs.wellFormed
  refine ⟨hs.wellFormed, hentry, hrun, ?_, ?_⟩
  · obtain ⟨p, hp, -, -, hiff⟩ := hsource (remark 3) hentry
    rw [hstart _ hentry] at hp hiff
    rw [taken_remarked] at hp
    obtain rfl : p = 11 := Int.ofNat.inj (hp.trans (by decide))
    exact hiff.mpr hwide
  · intro n' hn'
    obtain ⟨n, hn, -, hiff⟩ := hresult _ hclean' hs hcarried n' hn'
    rw [hstart n hn] at hiff
    exact hiff.mpr hwide

/-- **A tab stays.** -/
theorem gap_restyle_single_tab :
    (remarked ['\t']).WellFormed ∧
      remarkedContext.clean? (remarked ['\t']).text = some (remarked ['\t']) ∧
      IsEntry (remarked ['\t']) (remark 1) ∧
      restyle remarkedContext (.str "single-space") (remarked ['\t']).text =
        (remarked ['\t']).text ∧
      gapBefore (remarked ['\t']).text ((remarked ['\t']).start (remark 1)) = ['\t'] := by
  have hclean : remarkedContext.clean? (remarked ['\t']).text = some (remarked ['\t']) := by rfl
  have hnone : edits .single (remarked ['\t']) = [] := by decide +kernel
  have hrun := restyle_single_of_clean hclean
  rw [hnone, Replacement.apply_nil] at hrun
  exact ⟨by decide +kernel, hclean, isEntry_remark (by decide +kernel) (by decide +kernel), hrun,
    by decide +kernel⟩

end TrailingComments

end HouseStyle
