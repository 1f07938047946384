import HouseStyle.Evidence.Counter

/-! # Signals

The signals of a file are its counters, its longest line, and a histogram of the widths of its
indents. `aggregate` merges the signals of many files: counters add up, the longest line is the
longest of all, and histograms are merged width by width. A merged histogram is sorted by width,
without repetition. -/

namespace HouseStyle

/-- Counts by width. -/
abbrev Histogram := List (Int × Int)

namespace Histogram

/-- Adds a count to a width, in a histogram sorted by width. -/
def bump (width count : Int) : Histogram → Histogram
  | [] => [(width, count)]
  | e :: es =>
    if width < e.1 then (width, count) :: e :: es
    else if width = e.1 then (width, e.2 + count) :: es
    else e :: bump width count es

/-- Counts by width as a sorted histogram, the counts of one width added up. -/
def merge (pairs : List (Int × Int)) : Histogram := pairs.foldl (fun h p => bump p.1 p.2 h) []

/-- The histogram in which the last count of a width stands for all of them. -/
def latest (pairs : List (Int × Int)) : Histogram :=
  pairs.foldl (fun h p => h.filter (·.1 ≠ p.1) ++ [p]) []

end Histogram

/-- What was observed in a file, or in many. -/
structure Signals where
  count : Counter → Int
  longestLine : Int
  indentSizes : Histogram

namespace Signals

/-- Nothing observed. -/
def zero : Signals := ⟨fun _ => 0, 0, []⟩

/-- Adds to a counter. -/
def add (s : Signals) (c : Counter) (amount : Int) : Signals :=
  { s with count := fun d => if d = c then s.count d + amount else s.count d }

/-- Takes note of the length of a line. -/
def observeLine (s : Signals) (length : Int) : Signals :=
  { s with longestLine := if s.longestLine < length then length else s.longestLine }

/-- Takes note of the width of an indent. -/
def observeIndent (s : Signals) (width : Int) : Signals :=
  { s with indentSizes := s.indentSizes.bump width 1 }

/-- One vote for the file, from its chains of member accesses: for the more frequent layout, if
there are at least two chains and one layout is more frequent. -/
def castMemberVote (s : Signals) : Signals :=
  let aligned := s.count .memberAligned
  let indented := s.count .memberIndented
  if aligned + indented < 2 then s
  else if indented < aligned then s.add .memberAlignedFiles 1
  else if aligned < indented then s.add .memberIndentedFiles 1
  else s

/-- Single votes added up, counter by counter. -/
def tally (votes : List (Counter × Int)) (c : Counter) : Int :=
  ((votes.filter (·.1 = c)).map (·.2)).foldr (· + ·) 0

end Signals

/-- The merged signals of several files. -/
structure Totals where
  signals : Signals
  fileCount : Int

/-- Merges the signals of files. -/
def Signals.aggregate (records : List Signals) : Totals where
  signals :=
    { count := fun c => (records.map (·.count c)).foldr (· + ·) 0
      longestLine := records.foldl (fun m r => max m r.longestLine) 0
      indentSizes := Histogram.merge (records.flatMap (·.indentSizes)) }
  fileCount := records.length

end HouseStyle
