/-! Tables over the code points, written as texts of decimal lengths. A set is a list of gaps and
    lengths in turn, a labelling a list of lengths with a label after each. Both are looked up by
    counting the boundaries at or below a code point, which a binary search finds. -/

namespace Highlight.Unicode

/-! ### Reading a table -/

/-- Splits a text into its runs, each a decimal length and the letters that follow it. -/
def readRuns (text : List Char) : List (Nat × List Char) :=
  let step := fun (s : Nat × List Char × List (Nat × List Char)) (c : Char) =>
    let (length, label, runs) := s
    if c.isDigit then
      if label.isEmpty then (length * 10 + (c.toNat - '0'.toNat), [], runs)
      else (c.toNat - '0'.toNat, [], (length, label.reverse) :: runs)
    else (length, c :: label, runs)
  let (length, label, runs) := text.foldl step (0, [], [])
  ((length, label.reverse) :: runs).reverse

/-- The sums of the prefixes of `lengths`, each counted from `start`. -/
def boundaries (start : Nat) : List Nat → List Nat
  | [] => []
  | n :: rest => (start + n) :: boundaries (start + n) rest

/-! ### Looking up -/

/-- The number of entries of the increasing array `marks` that are at most `n`, between the indices
    `low` and `high`. -/
def rankBetween (marks : Array Nat) (n low high : Nat) : Nat :=
  if h : low < high then
    let middle := (low + high) / 2
    if marks.getD middle 0 ≤ n then rankBetween marks n (middle + 1) high
    else rankBetween marks n low middle
  else low
termination_by high - low

/-- The number of entries of the increasing array `marks` that are at most `n`. -/
def rank (marks : Array Nat) (n : Nat) : Nat := rankBetween marks n 0 marks.size

/-- A set of code points by its boundaries: a code point belongs to it when an odd number of them
    are at or below it. -/
structure CodeSet where
  marks : Array Nat

namespace CodeSet

/-- The set written as gaps and lengths in turn, parted by blanks. -/
def ofText (lines : List String) : CodeSet :=
  let lengths := ((String.join lines).splitOn " ").filterMap String.toNat?
  ⟨(boundaries 0 lengths).toArray⟩

def contains (s : CodeSet) (c : Char) : Bool := rank s.marks c.toNat % 2 == 1

end CodeSet

/-- A label for every code point, by the code points where the label changes. -/
structure Labelling (α : Type) where
  marks : Array Nat
  labels : Array α

namespace Labelling

/-- The labelling written as runs from code point zero on; `read` gives the meaning of a label. -/
def ofText {α : Type} (read : String → α) (lines : List String) : Labelling α :=
  let runs := readRuns (String.join lines).toList
  ⟨(boundaries 0 (runs.map (·.1))).toArray, (runs.map fun run => read (String.ofList run.2)).toArray⟩

def label? {α : Type} (t : Labelling α) (c : Char) : Option α := t.labels[rank t.marks c.toNat]?

end Labelling
end Highlight.Unicode
