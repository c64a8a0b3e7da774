import Highlight.Regex.Match

/-! Patterns of rules. A pattern is compiled twice: as written, for searching, and tied to the start of
    the text, for the cheap question whether it matches right there. -/

namespace Highlight

/-- Why a pattern is refused. -/
inductive PatternError where
  | unsupportedFlag (flag : Char)
  | malformed (cause : Regex.CompileError)
  deriving DecidableEq, Repr

def PatternError.message : PatternError → String
  | unsupportedFlag flag => "unsupported flag '" ++ String.singleton flag ++ "'"
  | malformed cause => cause.message

/-- A compiled pattern, with the text and the flags it was compiled from. A search with it may fail in
    `failures` ways. -/
structure Pattern where
  source : String
  flags : String
  failures : Nat
  program : Regex.Program
  anchored : Regex.Program
  looksBehind : Bool

namespace Pattern

/-- The number of failures that a search may take unless another number is given. -/
def defaultFailures : Nat := 1000000

/-- Patterns are the same when they are written the same, with the same flags. -/
instance : BEq Pattern := ⟨fun p q => p.source == q.source && p.flags == q.flags⟩

/-! ### Flags -/

/-- Flags that change what a pattern means. -/
def isMode (flag : Char) : Bool := flag == 'i' || flag == 'm' || flag == 's' || flag == 'x'

/-- Flags that are allowed and mean nothing here. -/
def isIgnored (flag : Char) : Bool := flag == 'g' || flag == 'u' || flag == 'y'

/-- The modes among the flags, each once, in the order in which they first occur. -/
def modes? : List Char → Except PatternError (List Char)
  | flags => flags.foldlM (fun modes flag =>
      if isMode flag then .ok (if modes.contains flag then modes else modes ++ [flag])
      else if isIgnored flag then .ok modes
      else .error (.unsupportedFlag flag)) []

/-! ### Compiling -/

/-- The modes as they open a pattern. -/
def modePrefix (modes : List Char) : List Char :=
  if modes.isEmpty then [] else ['(', '?'] ++ modes ++ [')']

/-- The text of the pattern as written. -/
def searchText (modes source : List Char) : List Char := modePrefix modes ++ source

/-- The text of the pattern tied to the start. In verbose mode a comment may end the source, so that a
    line end comes before the closing parenthesis. -/
def anchoredText (modes source : List Char) : List Char :=
  modePrefix modes ++ ['\\', 'A', '(', '?', ':'] ++ source ++ (if modes.contains 'x' then ['\n', ')'] else [')'])

/-- Whether a lookbehind is written in the source. -/
def writesLookbehind : List Char → Bool
  | [] => false
  | c :: cs =>
    ['(', '?', '<', '='].isPrefixOf (c :: cs) || ['(', '?', '<', '!'].isPrefixOf (c :: cs) || writesLookbehind cs

/-- Compiles a pattern with flags and the number of failures that a search may take. -/
def compile (source flags : String) (failures : Nat) : Except PatternError Pattern := do
  let modes ← modes? flags.toList
  let program ← (Regex.Program.compile (searchText modes source.toList)).mapError .malformed
  let anchored ← (Regex.Program.compile (anchoredText modes source.toList)).mapError .malformed
  return { source, flags := String.ofList modes, failures, program, anchored,
           looksBehind := writesLookbehind source.toList }

/-! ### Matching -/

/-- The leftmost match at offset `start` of the text or later. -/
def search (p : Pattern) (text : List Char) (start : Nat) : Except Regex.SearchError (Option Regex.Match) :=
  p.program.search p.failures text start

/-- The match at the start of the text. -/
def atStart (p : Pattern) (text : List Char) : Except Regex.SearchError (Option Regex.Match) :=
  p.anchored.search p.failures text 0

/-- Whether the pattern matches anywhere; a search that is given up counts as no match. -/
def isMatch (p : Pattern) (text : List Char) : Bool :=
  match p.search text 0 with
  | .ok (some _) => true
  | _ => false

/-- The pattern between slashes, with its flags. -/
def display (p : Pattern) : String := "/" ++ p.source ++ "/" ++ p.flags

end Pattern
end Highlight
