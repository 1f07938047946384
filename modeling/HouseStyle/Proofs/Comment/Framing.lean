import HouseStyle.Proofs.Evidence.Origins
import HouseStyle.Proofs.Text.Reindented
import Mathlib.Data.Set.Card

/-! # Runs of line comments and their votes

A run of line comments is a stretch of lines that each hold a comment and nothing before it but
blanks, with no such line next to it on either side (`Run`). No run goes across a place where one of
the two neighbouring lines is no comment, so at such a place the runs of a list of lines are those
in front of it and those behind it (`Run.eq_left_or_right`). In this way the blocks that are taken
off line by line list all runs, each once and in order (`exists_enumerates`).

What a block says can be read off the lines of the run: whether some body is meaningful
(`Run.Meaningful`), and whether there are three lines at least, the first and the last of them blank
(`Run.Framed`). So there is one vote for each run that says something (`tally_framingVotes`). -/

namespace HouseStyle

open HouseStyle.Text

namespace Comment

variable {line body : Text}

/-! ### Lines that hold a comment -/

/-- The body of the line comment that a line opens with, blanks aside. -/
def IsBody (line body : Text) : Prop :=
  ∃ blanks : Text, blanks.isBlankText = true ∧ line = blanks ++ '/' :: '/' :: body

/-- Whether a line opens with a line comment, blanks aside. -/
def IsCommentLine (line : Text) : Prop := ∃ body, IsBody line body

theorem isBody_iff : IsBody line body ↔ lineBody? line.trimLeft = some body := by
  rw [lineBody?_eq_some_iff]
  constructor
  · rintro ⟨blanks, hblanks, rfl⟩
    rw [trimLeft_append_of_blank hblanks]
    rfl
  · intro h
    have hblanks : isBlankText (line.takeWhile isBlank) = true :=
      List.all_eq_true.mpr fun c hc => List.mem_takeWhile_imp hc
    exact ⟨_, hblanks, by rw [← h, trimLeft, List.takeWhile_append_dropWhile]⟩

theorem IsBody.commentLine?_eq (h : IsBody line body) : commentLine? line = some body.trim := by
  rw [commentLine?, isBody_iff.mp h, Option.map_some]

theorem commentLine?_eq_none_iff : commentLine? line = none ↔ ¬ IsCommentLine line := by
  rw [commentLine?, Option.map_eq_none_iff, Option.eq_none_iff_forall_ne_some,
    IsCommentLine, not_exists]
  exact forall_congr' fun body => isBody_iff.not.symm

theorem IsBody.unique {body' : Text} (h : IsBody line body) (h' : IsBody line body') :
    body' = body :=
  Option.some.inj ((isBody_iff.mp h').symm.trans (isBody_iff.mp h))

/-! ### Runs -/

/-- A run of line comments within some lines: what stands before it, its lines and what stands
behind it. It cannot go on to either side. -/
@[ext] structure Run (lines : List Text) where
  before : List Text
  inside : List Text
  after : List Text
  lines_eq : before ++ inside ++ after = lines
  inside_ne_nil : inside ≠ []
  comments : ∀ line ∈ inside, IsCommentLine line
  opens : ∀ line ∈ before.getLast?, ¬ IsCommentLine line
  closes : ∀ line ∈ after.head?, ¬ IsCommentLine line

/-- Whether no run goes across the place between some lines and others. -/
def Apart (front rest : List Text) : Prop :=
  ∀ a ∈ front.getLast?, ∀ b ∈ rest.head?, IsCommentLine a → ¬ IsCommentLine b

namespace Run

variable {lines front rest : List Text}

theorem last_mem (r : Run lines) (hafter : r.after = []) :
    r.inside.getLast r.inside_ne_nil ∈ lines.getLast? := by
  have hlast := congrArg List.getLast? r.lines_eq
  rw [hafter, List.append_nil, List.getLast?_append_of_ne_nil _ r.inside_ne_nil] at hlast
  rw [← hlast]
  exact List.getLast?_eq_some_getLast r.inside_ne_nil

theorem first_mem (r : Run lines) (hbefore : r.before = []) :
    r.inside.head r.inside_ne_nil ∈ lines.head? := by
  have hfirst := congrArg List.head? r.lines_eq
  rw [hbefore, List.nil_append, List.head?_append_of_ne_nil _ r.inside_ne_nil] at hfirst
  rw [← hfirst]
  exact List.head?_eq_some_head r.inside_ne_nil

section Apart
variable (h : front ++ rest = lines) (hapart : Apart front rest)

/-- A run among the first lines, as one among all. -/
def left (r : Run front) : Run lines where
  before := r.before
  inside := r.inside
  after := r.after ++ rest
  lines_eq := by rw [← List.append_assoc, r.lines_eq, h]
  inside_ne_nil := r.inside_ne_nil
  comments := r.comments
  opens := r.opens
  closes := by
    intro b hb
    by_cases hafter : r.after = []
    · rw [hafter, List.nil_append] at hb
      exact hapart _ (r.last_mem hafter) b hb (r.comments _ (List.getLast_mem _))
    · rw [List.head?_append_of_ne_nil _ hafter] at hb
      exact r.closes b hb

/-- A run among the last lines, as one among all. -/
def right (r : Run rest) : Run lines where
  before := front ++ r.before
  inside := r.inside
  after := r.after
  lines_eq := by
    rw [List.append_assoc, List.append_assoc, ← List.append_assoc r.before, r.lines_eq, h]
  inside_ne_nil := r.inside_ne_nil
  comments := r.comments
  opens := by
    intro a ha
    by_cases hbefore : r.before = []
    · rw [hbefore, List.append_nil] at ha
      exact fun hcomment => hapart a ha _ (r.first_mem hbefore) hcomment
        (r.comments _ (List.head_mem _))
    · rw [List.getLast?_append_of_ne_nil _ hbefore] at ha
      exact r.opens a ha
  closes := r.closes

theorem exists_left {r : Run lines} {c : List Text} (hfront : r.before ++ r.inside ++ c = front)
    (hafter : r.after = c ++ rest) : ∃ s : Run front, r = s.left h hapart := by
  have hcloses : ∀ line ∈ c.head?, ¬ IsCommentLine line := by
    intro line hline
    refine r.closes line ?_
    rw [hafter, List.head?_append, Option.mem_def.mp hline]
    rfl
  exact ⟨⟨r.before, r.inside, c, hfront, r.inside_ne_nil, r.comments, r.opens, hcloses⟩,
    Run.ext rfl rfl hafter⟩

theorem exists_right {r : Run lines} {d : List Text} (hbefore : r.before = front ++ d)
    (hrest : d ++ r.inside ++ r.after = rest) : ∃ s : Run rest, r = s.right h hapart := by
  have hopens : ∀ line ∈ d.getLast?, ¬ IsCommentLine line := by
    intro line hline
    refine r.opens line ?_
    rw [hbefore, List.getLast?_append, Option.mem_def.mp hline]
    rfl
  exact ⟨⟨d, r.inside, r.after, hrest, r.inside_ne_nil, r.comments, hopens, r.closes⟩,
    Run.ext hbefore rfl rfl⟩

/-- **Runs at a place that none goes across** stand in front of it or behind it. -/
theorem eq_left_or_right (r : Run lines) :
    (∃ s : Run front, r = s.left h hapart) ∨ ∃ s : Run rest, r = s.right h hapart := by
  rcases List.append_eq_append_iff.mp (r.lines_eq.trans h.symm) with
    ⟨c, hfront, hafter⟩ | ⟨c, hstart, hrest⟩
  · exact Or.inl (exists_left h hapart hfront.symm hafter)
  -- the run ends behind the place, `c` being what stands there up to its end
  rcases List.append_eq_append_iff.mp hstart with ⟨d, hfront, hinside⟩ | ⟨d, hbefore, hc⟩
  · by_cases hd : d = []
    · refine Or.inr (exists_right h hapart (d := []) ?_ ?_)
      · rw [hfront, hd, List.append_nil, List.append_nil]
      · rw [hrest, hinside, hd]
        rfl
    by_cases hc : c = []
    · refine Or.inl (exists_left h hapart (c := []) ?_ ?_)
      · rw [hfront, hinside, hc, List.append_nil, List.append_nil]
      · rw [hrest, hc]
        rfl
    -- a run on both sides has a comment on both sides
    have hlast : d.getLast hd ∈ front.getLast? := by
      rw [hfront, List.getLast?_append_of_ne_nil _ hd]
      exact List.getLast?_eq_some_getLast hd
    have hfirst : c.head hc ∈ rest.head? := by
      rw [hrest, List.head?_append_of_ne_nil _ hc]
      exact List.head?_eq_some_head hc
    have hcomments : ∀ line ∈ d ++ c, IsCommentLine line := by
      rw [← hinside]
      exact r.comments
    exact absurd (hcomments _ (by simp)) (hapart _ hlast _ hfirst (hcomments _ (by simp)))
  · refine Or.inr (exists_right h hapart hbefore ?_)
    rw [hrest, hc]

end Apart

/-! ### All runs in order -/

/-- A list of all runs, by where they start. -/
structure Enumerates (runs : List (Run lines)) : Prop where
  ordered : runs.Pairwise fun r s => r.before.length < s.before.length
  complete : ∀ r, r ∈ runs

theorem Enumerates.nodup {runs : List (Run lines)} (h : Enumerates runs) : runs.Nodup :=
  h.ordered.imp fun {r s} hlt heq => by
    rw [heq] at hlt
    exact Nat.lt_irrefl _ hlt

theorem Enumerates.finite {runs : List (Run lines)} (h : Enumerates runs) : Finite (Run lines) :=
  Set.finite_univ_iff.mp (runs.finite_toSet.subset fun r _ => h.complete r)

theorem Enumerates.ncard_eq_countP {runs : List (Run lines)} (h : Enumerates runs)
    (p : Run lines → Prop) [DecidablePred p] : {r | p r}.ncard = runs.countP p := by
  classical
  have hset : {r | p r} = ((runs.filter p).toFinset : Set (Run lines)) := by
    ext r
    simp [h.complete r]
  rw [hset, Set.ncard_coe_finset, List.toFinset_card_of_nodup (h.nodup.filter _),
    List.countP_eq_length_filter]

theorem enumerates_nil (hnone : ∀ line ∈ lines, ¬ IsCommentLine line) :
    Enumerates ([] : List (Run lines)) where
  ordered := .nil
  complete r := by
    have hmem : r.inside.head r.inside_ne_nil ∈ r.before ++ r.inside ++ r.after := by simp
    rw [r.lines_eq] at hmem
    exact absurd (r.comments _ (List.head_mem _)) (hnone _ hmem)

/-- All lines, if each holds a comment. -/
def whole (hne : lines ≠ []) (hall : ∀ line ∈ lines, IsCommentLine line) : Run lines where
  before := []
  inside := lines
  after := []
  lines_eq := by rw [List.nil_append, List.append_nil]
  inside_ne_nil := hne
  comments := hall
  opens := by simp
  closes := by simp

theorem enumerates_whole (hne : lines ≠ []) (hall : ∀ line ∈ lines, IsCommentLine line) :
    Enumerates [whole hne hall] where
  ordered := List.pairwise_singleton _ _
  complete r := by
    have hall' : ∀ line ∈ r.before ++ r.inside ++ r.after, IsCommentLine line := by
      rw [r.lines_eq]
      exact hall
    have hbefore : r.before = [] := by
      by_contra hne
      exact r.opens _ (List.getLast?_eq_some_getLast hne) (hall' _ (by simp))
    have hafter : r.after = [] := by
      by_contra hne
      exact r.closes _ (List.head?_eq_some_head hne) (hall' _ (by simp))
    have hinside : r.inside = lines := by
      have hlines := r.lines_eq
      rwa [hbefore, hafter, List.nil_append, List.append_nil] at hlines
    exact List.mem_singleton.mpr (Run.ext hbefore hinside hafter)

/-- At a place that no run goes across, the runs in front of it come first and then those behind it.
-/
theorem Enumerates.append {runs : List (Run front)} {runs' : List (Run rest)} (h₁ : Enumerates runs)
    (h₂ : Enumerates runs') (h : front ++ rest = lines) (hapart : Apart front rest) :
    Enumerates (runs.map (left h hapart) ++ runs'.map (right h hapart)) where
  ordered := by
    rw [List.pairwise_append, List.pairwise_map, List.pairwise_map]
    refine ⟨h₁.ordered, h₂.ordered.imp fun hlt => ?_, ?_⟩
    · simpa [right] using hlt
    · intro r hr s hs
      obtain ⟨r, -, rfl⟩ := List.mem_map.mp hr
      obtain ⟨s, -, rfl⟩ := List.mem_map.mp hs
      have hlength := congrArg List.length r.lines_eq
      have hpos := List.length_pos_iff.mpr r.inside_ne_nil
      simp only [left, right, List.length_append] at hlength ⊢
      omega
  complete r := by
    rcases r.eq_left_or_right h hapart with ⟨s, rfl⟩ | ⟨s, rfl⟩
    · exact List.mem_append_left _ (List.mem_map_of_mem (h₁.complete s))
    · exact List.mem_append_right _ (List.mem_map_of_mem (h₂.complete s))

/-- The bodies of a run, without blanks around them. -/
def bodies (r : Run lines) : List Text := r.inside.filterMap commentLine?

end Run

theorem takeBlock_spec : ∀ ls : List Text, ∃ front, front ++ (takeBlock ls).2 = ls ∧
    (∀ line ∈ front, IsCommentLine line) ∧ (∀ line ∈ (takeBlock ls).2.head?, ¬ IsCommentLine line) ∧
      (takeBlock ls).1 = front.filterMap commentLine?
  | [] => ⟨[], by simp [takeBlock]⟩
  | l :: ls => by
    rw [takeBlock]
    cases hl : commentLine? l with
    | none => exact ⟨[], rfl, by simp, by simpa using commentLine?_eq_none_iff.mp hl, rfl⟩
    | some b =>
      obtain ⟨front, hls, hcomments, hends, hbodies⟩ := takeBlock_spec ls
      have hcomment : IsCommentLine l := by
        by_contra hno
        rw [commentLine?_eq_none_iff.mpr hno] at hl
        cases hl
      refine ⟨l :: front, congrArg (l :: ·) hls, List.forall_mem_cons.mpr ⟨hcomment, hcomments⟩,
        hends, ?_⟩
      rw [List.filterMap_cons_some hl]
      exact congrArg (b :: ·) hbodies

open Run in
/-- **The blocks are the runs**, each once and in order. -/
theorem exists_enumerates (lines : List Text) :
    ∃ runs : List (Run lines), Enumerates runs ∧ blocks lines = runs.map bodies := by
  induction lines using blocks.induct with
  | case1 => exact ⟨[], enumerates_nil (by simp), by rw [blocks]; rfl⟩
  | case2 l ls hl ih =>
    obtain ⟨runs, hruns, hblocks⟩ := ih
    have hno : ¬ IsCommentLine l := commentLine?_eq_none_iff.mp hl
    have hapart : Apart [l] ls := fun a ha b _ hcomment => by
      obtain rfl : l = a := by simpa using ha
      exact absurd hcomment hno
    have hls : [l] ++ ls = l :: ls := rfl
    refine ⟨_, (enumerates_nil (by simpa using hno)).append hruns hls hapart, ?_⟩
    rw [blocks, hl, hblocks, List.map_nil, List.nil_append, List.map_map]
    rfl
  | case3 l ls b hl r ih =>
    obtain ⟨runs, hruns, hblocks⟩ := ih
    have hblock : blocks (l :: ls) = (b :: r.1) :: blocks r.2 := by rw [blocks, hl]
    have htake : takeBlock (l :: ls) = (b :: r.1, r.2) := by rw [takeBlock, hl]
    obtain ⟨front, hls, hcomments, hends, hbodies⟩ := takeBlock_spec (l :: ls)
    rw [htake] at hls hends hbodies
    have hne : front ≠ [] := by
      rintro rfl
      cases hbodies
    have hapart : Apart front r.2 := fun _ _ b hb _ => hends b hb
    refine ⟨_, (enumerates_whole hne hcomments).append hruns hls hapart, ?_⟩
    rw [hblock, hblocks, List.map_append, List.map_map, List.map_map]
    exact congrArg (· :: runs.map bodies) hbodies

/-! ### What a run says -/

namespace Run

variable {lines : List Text} (r : Run lines)

/-- Whether some line of a run says something. -/
def Meaningful : Prop := ∃ line ∈ r.inside, ∃ body, IsBody line body ∧ isMeaningful body = true

/-- Whether a run has three lines at least, and the first and the last of them say nothing at all.
-/
def Framed : Prop :=
  3 ≤ r.inside.length ∧
    (∃ line ∈ r.inside.head?, ∃ body, IsBody line body ∧ body.isBlankText = true) ∧
    ∃ line ∈ r.inside.getLast?, ∃ body, IsBody line body ∧ body.isBlankText = true

theorem bodies_eq_map : r.bodies = r.inside.map fun line => (commentLine? line).getD [] := by
  rw [bodies, List.filterMap_eq_map_iff_forall_eq_some]
  intro line hline
  obtain ⟨body, hbody⟩ := r.comments line hline
  rw [hbody.commentLine?_eq, Option.getD_some]

/-- What holds of the trimmed body of a line is said of the body that the line has. -/
theorem exists_isBody_iff {p q : Text → Prop} (hpq : ∀ body, p (trim body) ↔ q body)
    (hline : IsCommentLine line) :
    p ((commentLine? line).getD []) ↔ ∃ body, IsBody line body ∧ q body := by
  obtain ⟨body, hbody⟩ := hline
  rw [hbody.commentLine?_eq, Option.getD_some, hpq]
  constructor
  · intro hq
    exact ⟨body, hbody, hq⟩
  · rintro ⟨body', hbody', hq⟩
    rwa [← hbody.unique hbody']

theorem any_isMeaningful_bodies : r.bodies.any isMeaningful = true ↔ r.Meaningful := by
  have htrim : ∀ body : Text, isMeaningful body.trim = true ↔ isMeaningful body = true := by
    intro body
    rw [isMeaningful, isMeaningful, isIgnorable, isIgnorable, trim_trim]
  rw [bodies_eq_map, List.any_map, List.any_eq_true, Meaningful]
  refine exists_congr fun line => and_congr_right fun hline => ?_
  exact exists_isBody_iff (p := (isMeaningful · = true)) htrim (r.comments line hline)

theorem isFramed_bodies : isFramed r.bodies = true ↔ r.Framed := by
  have hblank : ∀ place : Option Text, (∀ line ∈ place, line ∈ r.inside) →
      (place.map (fun line => (commentLine? line).getD []) = some [] ↔
        ∃ line ∈ place, ∃ body, IsBody line body ∧ body.isBlankText = true) := by
    intro place hplace
    rw [Option.map_eq_some_iff]
    refine exists_congr fun line => and_congr_right fun hline => ?_
    exact exists_isBody_iff (p := (· = [])) (fun _ => trim_eq_nil_iff)
      (r.comments line (hplace line hline))
  rw [isFramed, bodies_eq_map, Bool.and_eq_true, Bool.and_eq_true, decide_eq_true_eq,
    beq_iff_eq, beq_iff_eq, List.length_map, List.head?_map, List.getLast?_map,
    hblank _ fun _ => List.mem_of_mem_head?, hblank _ fun _ => List.mem_of_mem_getLast?, and_assoc,
    Framed]

/-- **The vote of a run** is there if it says something, and tells whether it is framed. -/
theorem framing?_bodies :
    (framing? r.bodies = some true ↔ r.Meaningful ∧ r.Framed) ∧
      (framing? r.bodies = some false ↔ r.Meaningful ∧ ¬ r.Framed) := by
  rw [framing?, ← any_isMeaningful_bodies, ← isFramed_bodies]
  split_ifs with h
  · simp [h]
  · simp [h]

end Run

open Run Signals in
/-- **One vote for each run that says something.** Of the runs of line comments those with a
meaningful body vote, each once: on framed blocks those with three lines at least and blank bodies
first and last, on plain blocks the others. No other counter changes. -/
theorem tally_framingVotes (earlier : List Vote) (lines : List Text) :
    Finite (Run lines) ∧
    tally (earlier ++ framingVotes lines) .commentFramedBlocks =
      tally earlier .commentFramedBlocks + {r : Run lines | r.Meaningful ∧ r.Framed}.ncard ∧
    tally (earlier ++ framingVotes lines) .commentPlainBlocks =
      tally earlier .commentPlainBlocks + {r : Run lines | r.Meaningful ∧ ¬ r.Framed}.ncard ∧
    ∀ c, c ∈ [Counter.commentFramedBlocks, .commentPlainBlocks] ∨
      tally (earlier ++ framingVotes lines) c = tally earlier c := by
  obtain ⟨runs, hruns, hblocks⟩ := exists_enumerates lines
  have hne : Counter.commentFramedBlocks ≠ .commentPlainBlocks := by decide
  obtain ⟨hyes, hno⟩ := Source.tally_answers hne framing? (blocks lines)
  have hvotes : On [.commentFramedBlocks, .commentPlainBlocks] (framingVotes lines) :=
    .flatMap fun _ _ => .either? (by decide) (by decide) _
  refine ⟨hruns.finite, ?_, ?_, ?_⟩
  · simp only [← framing?_bodies]
    rw [tally_append, framingVotes, hyes, hblocks, List.countP_map, hruns.ncard_eq_countP]
    rfl
  · simp only [← framing?_bodies]
    rw [tally_append, framingVotes, hno, hblocks, List.countP_map, hruns.ncard_eq_countP]
    rfl
  · intro c
    by_cases hc : c ∈ [Counter.commentFramedBlocks, .commentPlainBlocks]
    · exact Or.inl hc
    · rw [tally_append, hvotes.tally_eq_zero hc, add_zero]
      exact Or.inr rfl

end Comment

end HouseStyle
