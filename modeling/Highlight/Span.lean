/-! Spans: the part of a text between two offsets. -/

namespace Highlight

/-- The offsets from `start` up to and without `stop`. -/
structure Span where
  start : Nat
  stop : Nat
  deriving DecidableEq, Repr, Inhabited

namespace Span

/-- The span `n` further on. -/
def shift (s : Span) (n : Nat) : Span := ⟨s.start + n, s.stop + n⟩

/-- The span with both offsets changed. -/
def map (f : Nat → Nat) (s : Span) : Span := ⟨f s.start, f s.stop⟩

/-- Whether the offsets are in order and within those of another span. -/
def liesIn (s outer : Span) : Bool := outer.start ≤ s.start && s.start ≤ s.stop && s.stop ≤ outer.stop

end Span

/-- The characters of a text within a span. -/
def slice (text : List Char) (s : Span) : List Char := (text.drop s.start).take (s.stop - s.start)

/-- The number of bytes that a text takes. -/
def byteLength : List Char → Nat
  | [] => 0
  | c :: text => c.utf8Size + byteLength text

/-- The byte offset that belongs to an offset in characters. -/
def byteOffset (text : List Char) (n : Nat) : Nat := byteLength (text.take n)

end Highlight
