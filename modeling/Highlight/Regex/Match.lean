import Highlight.Regex.Program
import Highlight.Span

/-! Matching a prepared pattern against a text. -/

namespace Highlight.Regex

/-- A match: the span of the whole and the spans of the groups from the first on. Offsets count
    characters from the start of the text. -/
structure Match where
  span : Span
  groups : List (Option Span)
  deriving DecidableEq, Repr, Inhabited

/-- A search was given up because too many ways had failed. -/
inductive SearchError where
  | tooManyFailures
  deriving DecidableEq, Repr

namespace Match

/-- The span of group `i`, the whole being group zero. -/
def group? (m : Match) : Nat → Option Span
  | 0 => some m.span
  | i + 1 => (m.groups[i]?).join

/-- The span of group `index` by its slots, in a text of `length` characters. -/
def slotSpan? (length : Nat) (slots : Slots) (index : Nat) : Option Span :=
  match slots.getD (2 * index) none, slots.getD (2 * index + 1) none with
  | some start, some stop => some ⟨length - start.left, length - stop.left⟩
  | _, _ => none

/-- The match that the slots describe, with `groups` groups. -/
def ofSlots (length groups : Nat) (span : Span) (slots : Slots) : Match :=
  ⟨span, (List.range (groups - 1)).map fun i => slotSpan? length slots (i + 1)⟩

end Match

namespace Program

/-- The leftmost match that starts at offset `start` of the text or later. -/
def search (p : Program) (failures : Nat) (text : List Char) (start : Nat) : Except SearchError (Option Match) :=
  let place := (Place.start text).skip start
  let length := text.length
  match p with
  | .plain e groups =>
    match e.search (Array.replicate (2 * groups) none) place.before place.after place.left (.none length) with
    | some (first, last, slots) =>
      .ok (some (Match.ofSlots length groups ⟨length - first.left, length - last.left⟩ slots))
    | none => .ok none
  | .tree e groups slots =>
    match e.search ⟨failures, place.left⟩ (Array.replicate slots none) place.before place.after place.left 0 with
    | .found last slots _ =>
      -- The start may have been moved past the end, which then counts as the start.
      let stop := length - last.left
      let start := ((Match.slotSpan? length slots 0).map (·.start)).getD stop
      .ok (some (Match.ofSlots length groups ⟨min start stop, stop⟩ slots))
    | .failed _ => .ok none
    | .exceeded => .error .tooManyFailures

end Program
end Highlight.Regex
