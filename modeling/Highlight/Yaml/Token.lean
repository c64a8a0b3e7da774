import Highlight.Yaml.Tag

/-! The tokens of a YAML text. Indentation stands for brackets: a collection that is written over lines
    starts where its first entry is found, and ends before the first line that is indented less. A key is
    known as one only by the colon after it, so its place is kept until then. -/

namespace Highlight.Yaml

inductive Token where
  | directive (directive : Directive)
  | documentStart
  | documentEnd
  | blockSequence
  | blockMapping
  | blockEnd
  | flowSequence
  | flowSequenceEnd
  | flowMapping
  | flowMappingEnd
  | blockEntry
  | flowEntry
  | key
  | value
  | reference (name : String)
  | anchor (name : String)
  | tag (tag : Tag)
  | scalar (text : String) (plain : Bool)
  deriving DecidableEq, Repr

/-- A place where a key may have started: the number of tokens before it, where it is in the text, and
    whether nothing but a key may stand there. -/
structure KeyStart where
  tokens : Nat
  index : Nat
  line : Nat
  column : Nat
  required : Bool

/-- A text that is read up to a place. -/
structure Layout where
  place : Place
  tokens : Array Token := #[]
  /-- The columns of the open collections that are written over lines, innermost first. -/
  columns : List Nat := []
  /-- Where a key may have started, outside all brackets. -/
  outerKey : Option KeyStart := none
  /-- The same within each open bracket, innermost first. -/
  keys : List (Option KeyStart) := []
  keyAllowed : Bool := true

namespace Layout

/-! ### Where the layout stands -/

def inFlow (s : Layout) : Bool := !s.keys.isEmpty

/-- The column of the innermost collection that is written over lines. -/
def indent (s : Layout) : Int := (s.columns.head?.map Int.ofNat).getD (-1)

/-- The place where the key of the innermost collection may have started. -/
def keyStart? (s : Layout) : Option KeyStart :=
  match s.keys with
  | start :: _ => start
  | [] => s.outerKey

def setKeyStart (start : Option KeyStart) (s : Layout) : Layout :=
  match s.keys with
  | _ :: outer => { s with keys := start :: outer }
  | [] => { s with outerKey := start }

/-- Appends a token, and goes on behind it. -/
def push (token : Token) (rest : List Char) (s : Layout) : Layout :=
  { s with place := s.place.moveTo rest, tokens := s.tokens.push token }

/-- Puts a token after the first `n`. -/
def putAt (n : Nat) (token : Token) (s : Layout) : Layout :=
  { s with tokens := s.tokens.extract 0 n ++ #[token] ++ s.tokens.extract n s.tokens.size }

def allowKey (allowed : Bool) (s : Layout) : Layout := { s with keyAllowed := allowed }

/-! ### Collections written over lines -/

/-- Opens a collection at a column that is further right than that of the innermost one. Its token goes
    after the first `n`. -/
def openBlock (token : Token) (column n : Nat) (s : Layout) : Layout :=
  if s.inFlow || (column : Int) ≤ s.indent then s
  else { s.putAt n token with columns := column :: s.columns }

/-- Closes the collections that start further right than a column. -/
def closeBlocks (column : Int) (s : Layout) : Layout :=
  if s.inFlow then s else
    let closed := s.columns.takeWhile fun (c : Nat) => column < (c : Int)
    { s with columns := s.columns.drop closed.length,
             tokens := s.tokens ++ Array.replicate closed.length Token.blockEnd }

/-! ### Keys -/

/-- Gives up the place where a key may have started. -/
def dropKeyStart? (s : Layout) : Option Layout :=
  match s.keyStart? with
  | some start => if start.required then none else some (s.setKeyStart none)
  | none => some s

/-- Keeps the place, if a key may start there. -/
def keepKeyStart? (s : Layout) : Option Layout :=
  if s.keyAllowed then do
    let s ← s.dropKeyStart?
    return s.setKeyStart (some
      { tokens := s.tokens.size, index := s.place.index, line := s.place.line, column := s.place.column,
        required := !s.inFlow && s.indent == (s.place.column : Int) })
  else some s

/-- The most characters between the start of a key and its colon. -/
def maxKeyLength : Nat := 1024

/-- A key ends on the line on which it starts, and is not too long. -/
def isStale (place : Place) (start : KeyStart) : Bool :=
  start.line < place.line || start.index + maxKeyLength < place.index

/-- Gives up a place that is too far back, if a key need not start there. -/
def dropIfStale? (place : Place) (start : Option KeyStart) : Option (Option KeyStart) :=
  match start with
  | some key => if isStale place key then (if key.required then none else some none) else some start
  | none => some none

def dropStaleKeys? (s : Layout) : Option Layout := do
  return { s with outerKey := ← dropIfStale? s.place s.outerKey, keys := ← s.keys.mapM (dropIfStale? s.place) }

/-! ### Reading a token -/

/-- Skips blanks, comments and line breaks. A tab is no blank where a key may start, except within
    brackets. -/
def skipGap (s : Layout) : Nat → Layout
  | 0 => s
  | fuel + 1 =>
    let bare := match s.place.rest with
      | '\uFEFF' :: rest => if s.place.column = 0 then rest else s.place.rest
      | rest => rest
    let text := bare.dropWhile fun c => c == ' ' || (s.inFlow || !s.keyAllowed) && c == '\t'
    let text := match text with
      | '#' :: rest => rest.dropWhile (!isBreak ·)
      | rest => rest
    match text with
    | c :: rest =>
      if isBreak c then
        skipGap { s with place := s.place.moveTo rest, keyAllowed := s.keyAllowed || !s.inFlow } fuel
      else { s with place := s.place.moveTo text }
    | [] => { s with place := s.place.moveTo [] }

/-- A token that stands between documents. -/
def between? (token : Token) (rest : List Char) (s : Layout) : Option Layout := do
  let s ← (s.closeBlocks (-1)).dropKeyStart?
  return (s.allowKey false).push token rest

def openFlow? (token : Token) (rest : List Char) (s : Layout) : Option Layout := do
  let s ← s.keepKeyStart?
  return { (s.allowKey true).push token rest with keys := none :: s.keys }

def closeFlow? (token : Token) (rest : List Char) (s : Layout) : Option Layout := do
  if !s.inFlow then none
  let s ← s.dropKeyStart?
  return { (s.allowKey false).push token rest with keys := s.keys.drop 1 }

def flowEntry? (rest : List Char) (s : Layout) : Option Layout := do
  let s ← s.dropKeyStart?
  return (s.allowKey true).push .flowEntry rest

/-- An entry of a sequence that is written over lines. -/
def blockEntry? (rest : List Char) (s : Layout) : Option Layout := do
  if s.inFlow || !s.keyAllowed then none
  let s ← (s.openBlock .blockSequence s.place.column s.tokens.size).dropKeyStart?
  return (s.allowKey true).push .blockEntry rest

/-- A key after a question mark. -/
def explicitKey? (rest : List Char) (s : Layout) : Option Layout := do
  if !s.inFlow && !s.keyAllowed then none
  let s ← (s.openBlock .blockMapping s.place.column s.tokens.size).dropKeyStart?
  return (s.allowKey !s.inFlow).push .key rest

/-- A value after a colon: its key starts at the place that was kept, or stands after a question mark. -/
def value? (rest : List Char) (s : Layout) : Option Layout :=
  match s.keyStart? with
  | some start =>
    let s := (s.putAt start.tokens .key).openBlock .blockMapping start.column start.tokens
    some (((s.setKeyStart none).allowKey false).push .value rest)
  | none =>
    if !s.inFlow && !s.keyAllowed then none else
      let s := s.openBlock .blockMapping s.place.column s.tokens.size
      some ((s.allowKey !s.inFlow).push .value rest)

/-- The name of an anchor or alias. -/
def name? (token : String → Token) (rest : List Char) (s : Layout) : Option Layout := do
  let s ← s.keepKeyStart?
  let name := rest.takeWhile isName
  let rest := rest.dropWhile isName
  if name.isEmpty || !(atGap rest || rest.head?.any ("?:,]\x7d%@\x60".toList.contains ·)) then none
  return (s.allowKey false).push (token (String.ofList name)) rest

def tag? (rest : List Char) (s : Layout) : Option Layout := do
  let s ← s.keepKeyStart?
  let (tag, rest) ← readTag? s.inFlow rest
  return (s.allowKey false).push (.tag tag) rest

def block? (literal : Bool) (rest : List Char) (s : Layout) : Option Layout := do
  let s ← s.dropKeyStart?
  let (text, rest) ← readBlock? literal s.indent rest
  return (s.allowKey true).push (.scalar (String.ofList text) false) rest

def quoted? (read : List Char → Option (List Char × List Char)) (rest : List Char) (s : Layout) : Option Layout := do
  let s ← s.keepKeyStart?
  let (text, rest) ← read rest
  return (s.allowKey false).push (.scalar (String.ofList text) false) rest

/-- A plain scalar; if a line break follows it, a key may come next. -/
def plain? (text : List Char) (s : Layout) : Option Layout := do
  let s ← s.keepKeyStart?
  let (text, rest, isBroken) ← readPlain? ⟨s.inFlow, (s.indent + 1).toNat⟩ .none text
  return (s.allowKey isBroken).push (.scalar (String.ofList text) true) rest

/-- Whether a plain scalar starts with a character, given the text after it. Dashes, question marks and
    colons start one if no blank follows, the latter two outside brackets only. -/
def startsPlain (inFlow : Bool) (c : Char) (rest : List Char) : Bool :=
  if c == '-' then !(rest.head?.any isBlank)
  else if c == '?' || c == ':' then !inFlow && !atGap rest
  else !(isBlank c || isBreak c) && !",[]\x7b\x7d#&*!|>'\"%@\x60".toList.contains c

/-- Reads the token at a place where the text does not end. -/
def token? (c : Char) (rest : List Char) (s : Layout) : Option Layout :=
  let atStart := s.place.column = 0
  if atStart && c == '%' then do
    let (directive, rest) ← readDirective? rest
    s.between? (.directive directive) rest
  else if atStart && atDocumentMark '-' (c :: rest) then s.between? .documentStart (rest.drop 2)
  else if atStart && atDocumentMark '.' (c :: rest) then s.between? .documentEnd (rest.drop 2)
  else if c == '[' then s.openFlow? .flowSequence rest
  else if c == '\x7b' then s.openFlow? .flowMapping rest
  else if c == ']' then s.closeFlow? .flowSequenceEnd rest
  else if c == '\x7d' then s.closeFlow? .flowMappingEnd rest
  else if c == ',' then s.flowEntry? rest
  else if c == '-' && atGap rest then s.blockEntry? rest
  else if c == '?' && (s.inFlow || atGap rest) then s.explicitKey? rest
  else if c == ':' && (s.inFlow || atGap rest) then s.value? rest
  else if c == '*' then s.name? .reference rest
  else if c == '&' then s.name? .anchor rest
  else if c == '!' then s.tag? rest
  else if c == '|' && !s.inFlow then s.block? true rest
  else if c == '>' && !s.inFlow then s.block? false rest
  else if c == '\'' then s.quoted? (readSingleQuoted? .none) rest
  else if c == '"' then s.quoted? (readDoubleQuoted? .none none) rest
  else if startsPlain s.inFlow c rest then s.plain? (c :: rest)
  else none

/-- Reads all tokens up to the end of the text. -/
def tokens? (s : Layout) : Nat → Option (List Token)
  | 0 => none
  | fuel + 1 => do
    let s ← (s.skipGap (s.place.rest.length + 1)).dropStaleKeys?
    let s := s.closeBlocks s.place.column
    match s.place.rest with
    | [] => do
      let s ← (s.closeBlocks (-1)).dropKeyStart?
      return s.tokens.toList
    | c :: rest => tokens? (← s.token? c rest) fuel

end Layout

/-- The tokens of a text, if it can be read. -/
def Token.ofText? (text : List Char) : Option (List Token) :=
  if text.all isAllowed then
    let text := uniformBreaks text
    Layout.tokens? { place := { rest := text } } (text.length + 1)
  else none

end Highlight.Yaml
