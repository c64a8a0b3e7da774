import Highlight.Yaml.Text

/-! The three ways of writing a scalar: plain, between quotes, and as a block of lines. In the first two,
    line breaks are folded: a single one stands for a blank, and of several the first is left out. -/

namespace Highlight.Yaml

/-! ### Gaps

What stands between two characters of a scalar that are neither blanks nor line breaks. -/

/-- Blanks on a line, or line breaks with the blanks after the last of them counted. The first break is
    missing if it is escaped. -/
inductive Gap where
  | blanks (text : List Char)
  | breaks (first : Option Char) (more : List Char) (column : Nat)

namespace Gap

/-- No gap at all. -/
def none : Gap := .blanks []

/-- The gap with a blank or a line break after it. Blanks before a line break do not count. -/
def add (c : Char) : Gap → Gap
  | .blanks text => if isBreak c then .breaks (some c) [] 0 else .blanks (text ++ [c])
  | .breaks first more column =>
    if isBreak c then .breaks first (more ++ [c]) 0 else .breaks first more (column + 1)

/-- What a gap stands for. -/
def text : Gap → List Char
  | .blanks text => text
  | .breaks (some '\n') [] _ => [' ']
  | .breaks (some '\n') more _ => more
  | .breaks first more _ => first.toList ++ more

/-- Whether the gap holds a line break. -/
def isBroken : Gap → Bool
  | .blanks _ => false
  | .breaks .. => true

def isEmpty : Gap → Bool
  | .blanks text => text.isEmpty
  | .breaks .. => false

/-- Whether the text after the gap starts a line. -/
def endsAtLineStart : Gap → Bool
  | .breaks _ _ column => column == 0
  | .blanks _ => false

/-- Whether the text after the gap stands on a new line, less far right than a column. -/
def endsBefore (indent : Nat) : Gap → Bool
  | .breaks _ _ column => column < indent
  | .blanks _ => false

end Gap

/-- Puts text in front of what was read. -/
def prepend {α : Type} (text : List Char) (read : List Char × α) : List Char × α := (text ++ read.1, read.2)

/-! ### Plain scalars -/

/-- Where plain scalars stand: whether inside brackets, and the first column that continues them on a new
    line. -/
structure PlainContext where
  inFlow : Bool
  indent : Nat

/-- Whether a character ends a plain scalar, given the text after it. -/
def endsPlain (inFlow : Bool) (c : Char) (rest : List Char) : Bool :=
  c == ':' && atGap rest || inFlow && [',', '[', ']', '\x7b', '\x7d'].contains c

/-- Whether a colon stands before another indicator inside brackets, where it means nothing. -/
def isStrayColon (inFlow : Bool) (c : Char) (rest : List Char) : Bool :=
  inFlow && c == ':' && [',', '?', '[', ']', '\x7b', '\x7d'].any (rest.head? == some ·)

/-- Reads a plain scalar after a gap. The result is its text, what follows it, and whether it ends with a
    line break. -/
def readPlain? (context : PlainContext) (gap : Gap) : List Char → Option (List Char × List Char × Bool)
  | [] => some ([], [], gap.isBroken)
  | c :: rest =>
    if isBlank c || isBreak c then
      if c == '\t' && gap.endsBefore context.indent then none else readPlain? context (gap.add c) rest
    else if !context.inFlow && gap.endsBefore context.indent ||
        gap.endsAtLineStart && (atDocumentMark '-' (c :: rest) || atDocumentMark '.' (c :: rest)) ||
        !gap.isEmpty && c == '#' then
      some ([], c :: rest, gap.isBroken)
    else if isStrayColon context.inFlow c rest then none
    else if endsPlain context.inFlow c rest then some ([], c :: rest, gap.isBroken)
    else (readPlain? context .none rest).map (prepend (gap.text ++ [c]))

/-! ### Scalars between quotes -/

/-- The value of a digit in base sixteen. -/
def hexDigit? (c : Char) : Option Nat :=
  if c.isDigit then some (c.toNat - '0'.toNat)
  else if 'a' ≤ c && c ≤ 'f' then some (c.toNat - 'a'.toNat + 10)
  else if 'A' ≤ c && c ≤ 'F' then some (c.toNat - 'A'.toNat + 10)
  else none

/-- The number that digits in base sixteen stand for. -/
def hexNumber? (digits : List Char) : Option Nat :=
  digits.foldlM (fun n c => (hexDigit? c).map (16 * n + ·)) 0

/-- The character with a code, unless the code is that of a surrogate or too large. -/
def ofCode? (code : Nat) : Option Char :=
  if code.isValidChar then some (Char.ofNat code) else none

/-- The character that a letter after a backslash stands for. -/
def ofEscape? (c : Char) : Option Char :=
  match c with
  | '0' => some '\x00'
  | 'a' => some '\x07'
  | 'b' => some '\x08'
  | 't' => some '\t'
  | '\t' => some '\t'
  | 'n' => some '\n'
  | 'v' => some '\x0b'
  | 'f' => some '\x0c'
  | 'r' => some '\r'
  | 'e' => some '\x1b'
  | ' ' => some ' '
  | '"' => some '"'
  | '/' => some '/'
  | '\\' => some '\\'
  | 'N' => some '\u0085'
  | '_' => some '\u00a0'
  | 'L' => some '\u2028'
  | 'P' => some '\u2029'
  | _ => none

/-- The number of digits of the code after a letter. -/
def codeLength? (c : Char) : Option Nat :=
  match c with
  | 'x' => some 2
  | 'u' => some 4
  | 'U' => some 8
  | _ => none

/-- Whether a mark between documents stands at the start of a line. -/
def isCutOff (gap : Gap) (text : List Char) : Bool :=
  gap.endsAtLineStart && (atDocumentMark '-' text || atDocumentMark '.' text)

/-- Reads a scalar between single quotes, after a gap. A quote in it is written twice. -/
def readSingleQuoted? (gap : Gap) : List Char → Option (List Char × List Char)
  | [] => none
  | '\'' :: '\'' :: rest => (readSingleQuoted? .none rest).map (prepend (gap.text ++ ['\'']))
  | '\'' :: rest => some (gap.text, rest)
  | c :: rest =>
    if isBlank c || isBreak c then readSingleQuoted? (gap.add c) rest
    else if isCutOff gap (c :: rest) then none
    else (readSingleQuoted? .none rest).map (prepend (gap.text ++ [c]))

/-- Reads a scalar between double quotes, after a gap and after digits of a code that stand before the
    text. A line break after a backslash stands for nothing. -/
def readDoubleQuoted? (gap : Gap) (code : Option (Nat × List Char)) : List Char → Option (List Char × List Char)
  | [] => none
  | c :: rest =>
    match code with
    | some (1, digits) => do
      let char ← ofCode? (← hexNumber? (digits ++ [c]))
      return prepend [char] (← readDoubleQuoted? .none none rest)
    | some (left, digits) => readDoubleQuoted? .none (some (left - 1, digits ++ [c])) rest
    | none =>
      if c == '"' then some (gap.text, rest)
      else if isBlank c || isBreak c then readDoubleQuoted? (gap.add c) none rest
      else if isCutOff gap (c :: rest) then none
      else if c == '\\' then
        match rest with
        | [] => none
        | letter :: rest =>
          if isBreak letter then
            (readDoubleQuoted? (.breaks none [] 0) none rest).map (prepend gap.text)
          else
            match codeLength? letter with
            | some length => (readDoubleQuoted? .none (some (length, [])) rest).map (prepend gap.text)
            | none => do
              let char ← ofEscape? letter
              return prepend (gap.text ++ [char]) (← readDoubleQuoted? .none none rest)
      else (readDoubleQuoted? .none none rest).map (prepend (gap.text ++ [c]))

/-! ### Blocks -/

/-- What happens to the line breaks at the end of a block: all but the first are left out, or all are kept,
    or all are left out. -/
inductive Chomping where
  | clip | keep | strip
  deriving DecidableEq

/-- How a block is written: whether its line breaks stand as they are, what happens to those at its end, and
    how far it is indented, if that is given. -/
structure BlockStyle where
  literal : Bool
  chomping : Chomping
  indent : Option Nat

def readChomping? : List Char → Option (Chomping × List Char)
  | '+' :: rest => some (.keep, rest)
  | '-' :: rest => some (.strip, rest)
  | _ => none

/-- Reads the digit for the indentation, which is not zero. -/
def readIndent? : List Char → Option (Option Nat × List Char)
  | [] => some (none, [])
  | c :: rest =>
    if c == '0' then none
    else if c.isDigit then some (some (c.toNat - '0'.toNat), rest)
    else some (none, c :: rest)

/-- Reads the signs after the first of a block, in any order, and the rest of the line. -/
def readBlockStyle? (literal : Bool) (text : List Char) : Option (BlockStyle × List Char) := do
  let (chomping, indent, text) ← match readChomping? text with
    | some (chomping, rest) => do
      let (indent, rest) ← readIndent? rest
      pure (chomping, indent, rest)
    | none => do
      let (indent, rest) ← readIndent? text
      match indent, readChomping? rest with
      | some _, some (chomping, rest) => pure (chomping, indent, rest)
      | _, _ => pure (.clip, indent, rest)
  return (⟨literal, chomping, indent⟩, ← skipLineEnd? text)

/-- The empty lines and the indentation before a line of a block. -/
structure BlockGap where
  breaks : List Char
  /-- The column of the line, and the greatest of this and the empty lines. -/
  column : Nat
  widest : Nat
  rest : List Char

/-- Reads empty lines and indentation, up to the column of the block if it is known. There is no tab in the
    indentation. -/
def readBlockGap? (indent : Option Nat) (breaks : List Char) (column widest : Nat) :
    List Char → Option BlockGap
  | [] => some ⟨breaks, column, max widest column, []⟩
  | c :: rest =>
    let inIndent := indent.all (column < ·)
    if inIndent && c == ' ' then readBlockGap? indent breaks (column + 1) widest rest
    else if inIndent && c == '\t' then none
    else if isBreak c then readBlockGap? indent (breaks ++ [c]) 0 (max widest column) rest
    else some ⟨breaks, column, max widest column, c :: rest⟩

/-- The line break between two lines of a block and the empty lines after it. In a folded block the break of
    a line stands for a blank if there is no empty line after it, and otherwise for nothing, unless one of
    the lines starts with a blank. -/
def blockBreak (literal startsBlank : Bool) (first breaks : List Char) : List Char :=
  if !literal && first == ['\n'] && !startsBlank then (if breaks.isEmpty then [' '] else breaks)
  else first ++ breaks

/-- Reads the lines of a block that start at a column. `first` is the break of the line before, and
    `afterBlank` tells whether that line starts with a blank. -/
def readBlockLines? (style : BlockStyle) (indent : Nat) :
    Nat → List Char → Bool → BlockGap → Option (List Char × List Char)
  | 0, _, _, _ => none
  | fuel + 1, first, afterBlank, gap =>
    match gap.rest with
    | [] => some (ending first gap.breaks, [])
    | c :: _ =>
      if gap.column != indent then some (ending first gap.breaks, gap.rest) else do
        let line := gap.rest.takeWhile (!isBreak ·)
        let rest := gap.rest.dropWhile (!isBreak ·)
        let next ← readBlockGap? (some indent) [] 0 0 (rest.drop 1)
        let read ← readBlockLines? style indent fuel (rest.take 1) (isBlank c) next
        return prepend (blockBreak style.literal (afterBlank || isBlank c) first gap.breaks ++ line) read
where
  ending (first breaks : List Char) : List Char :=
    match style.chomping with
    | .strip => []
    | .clip => first
    | .keep => first ++ breaks

/-- Reads a block after its first sign. `least` is the first column in which its lines may start; if the
    indentation is not given, the first line that is not empty has it. -/
def readBlock? (literal : Bool) (outer : Int) (text : List Char) : Option (List Char × List Char) := do
  let (style, text) ← readBlockStyle? literal text
  let given := style.indent.map fun n => n + outer.toNat
  let gap ← readBlockGap? given [] 0 0 text
  let indent := given.getD (max gap.widest (max (outer + 1).toNat 1))
  readBlockLines? style indent (text.length + 1) [] false gap

end Highlight.Yaml
