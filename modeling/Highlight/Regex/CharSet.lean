import Highlight.Unicode.CaseOrbit
import Highlight.Unicode.Property

/-! Sets of characters as a pattern describes them. A set is kept as it was written, and membership is
    decided by following the description. -/

namespace Highlight.Regex

/-- A description of a set of characters. -/
inductive CharSet where
  | none
  | range (low high : Char)
  | digit
  | space
  | word
  | property (property : Unicode.Property)
  | union (left right : CharSet)
  | inter (left right : CharSet)
  | diff (left right : CharSet)
  | symmDiff (left right : CharSet)
  | compl (set : CharSet)
  | fold (set : CharSet)
  deriving DecidableEq, Repr

namespace CharSet

/-- The set of one character. -/
def single (c : Char) : CharSet := .range c c

def contains : CharSet → Char → Bool
  | none, _ => false
  | range low high, c => low ≤ c && c ≤ high
  | digit, c => Unicode.isDigit c
  | space, c => Unicode.isSpace c
  | word, c => Unicode.isWord c
  | property p, c => p.holds c
  | union a b, c => a.contains c || b.contains c
  | inter a b, c => a.contains c && b.contains c
  | diff a b, c => a.contains c && !b.contains c
  | symmDiff a b, c => a.contains c != b.contains c
  | compl a, c => !a.contains c
  | fold a, c => a.contains c || (Unicode.caseOrbit c).any a.contains

/-- Adds the other cases of the members when case is ignored. -/
def foldIf (ignoreCase : Bool) (set : CharSet) : CharSet := if ignoreCase then .fold set else set

/-- Turns the set into its complement when it is negated. -/
def complIf (negated : Bool) (set : CharSet) : CharSet := if negated then .compl set else set

/-- The set of the given ranges. -/
def ofRanges : List (Char × Char) → CharSet
  | [] => .none
  | [(low, high)] => .range low high
  | (low, high) :: rest => .union (.range low high) (ofRanges rest)

/-- Every character but the line feed. -/
def notNewline : CharSet := .compl (.single '\n')

/-- Every character. -/
def all : CharSet := .compl .none

/-- The hexadecimal digits. -/
def hexDigit : CharSet := ofRanges [('0', '9'), ('A', 'F'), ('a', 'f')]

/-- The classes of ASCII characters that a bracketed class may name between colons. -/
def ofClassName? : String → Option CharSet
  | "alnum" => some (ofRanges [('0', '9'), ('A', 'Z'), ('a', 'z')])
  | "alpha" => some (ofRanges [('A', 'Z'), ('a', 'z')])
  | "ascii" => some (ofRanges [('\x00', '\x7f')])
  | "blank" => some (ofRanges [('\t', '\t'), (' ', ' ')])
  | "cntrl" => some (ofRanges [('\x00', '\x1f'), ('\x7f', '\x7f')])
  | "digit" => some (ofRanges [('0', '9')])
  | "graph" => some (ofRanges [('!', '~')])
  | "lower" => some (ofRanges [('a', 'z')])
  | "print" => some (ofRanges [(' ', '~')])
  | "punct" => some (ofRanges [('!', '/'), (':', '@'), ('[', '\x60'), ('\x7b', '~')])
  | "space" => some (ofRanges [('\t', '\r'), (' ', ' ')])
  | "upper" => some (ofRanges [('A', 'Z')])
  | "word" => some (ofRanges [('0', '9'), ('A', 'Z'), ('_', '_'), ('a', 'z')])
  | "xdigit" => some hexDigit
  | _ => Option.none

/-- About how many states the set takes in an automaton over bytes. -/
def weight : CharSet → Nat
  | none => 1
  | range low high => if high.toNat < 128 then 1 else if low = high then high.utf8Size else 8
  | digit => 80
  | space => 12
  | word => 1500
  | property _ => 300
  | union a b => a.weight + b.weight
  | inter a b | diff a b | symmDiff a b => a.weight + b.weight
  | compl a => a.weight + 12
  | fold a => 2 * a.weight

end CharSet
end Highlight.Regex
