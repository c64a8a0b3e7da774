import Highlight.Yaml.Scalar

/-! Tags and directives, as they are written. -/

namespace Highlight.Yaml

/-- A tag: a handle that stands for the start of its name, and the rest of it. -/
structure Tag where
  handle : String
  suffix : String
  deriving DecidableEq, Repr

/-- The characters of tags that stand for themselves. -/
def isTagChar (verbatim : Bool) (c : Char) : Bool :=
  isName c || ";/?:@&=+$.!~*'()".toList.contains c || verbatim && [',', '[', ']'].contains c

/-- The number of octets of a character by its first, and the bits of the first that count. -/
def octetCount? (first : Nat) : Option (Nat × Nat) :=
  if first < 0x80 then some (1, first)
  else if 0xC0 ≤ first && first < 0xE0 then some (2, first - 0xC0)
  else if 0xE0 ≤ first && first < 0xF0 then some (3, first - 0xE0)
  else if 0xF0 ≤ first && first < 0xF8 then some (4, first - 0xF0)
  else none

/-- Reads the rest of a tag. An octet is written as a percent sign and two digits in base sixteen;
    `pending` holds how many octets a character still lacks, and its code so far. -/
def readTagChars? (verbatim : Bool) (pending : Option (Nat × Nat)) : List Char → Option (List Char × List Char)
  | '%' :: a :: b :: rest => do
    let octet ← hexNumber? [a, b]
    let (left, code) ← match pending with
      | none => octetCount? octet
      | some (left, code) => if 0x80 ≤ octet && octet < 0xC0 then some (left, 64 * code + (octet - 0x80)) else none
    if left = 1 then return prepend [Char.ofNat code] (← readTagChars? verbatim none rest)
    else readTagChars? verbatim (some (left - 1, code)) rest
  | c :: rest =>
    if pending.isSome || c == '%' then none
    else if isTagChar verbatim c then (readTagChars? verbatim none rest).map (prepend [c])
    else some ([], c :: rest)
  | [] => if pending.isSome then none else some ([], [])

/-- Reads a handle after its first mark: a name with a mark after it, or neither. -/
def readHandle (text : List Char) : List Char × Bool × List Char :=
  let name := text.takeWhile isName
  match text.dropWhile isName with
  | '!' :: rest => (name, true, rest)
  | rest => (name, false, rest)

/-- Reads a tag after its first mark. -/
def readTag? (inFlow : Bool) (text : List Char) : Option (Tag × List Char) := do
  let (tag, rest) ← match text with
    | '<' :: text => do
      let (suffix, rest) ← readTagChars? true none text
      match suffix, rest with
      | _ :: _, '>' :: rest => some (⟨"", String.ofList suffix⟩, rest)
      | _, _ => none
    | text =>
      match readHandle text with
      | (name, true, text) => do
        let (suffix, rest) ← readTagChars? false none text
        if suffix.isEmpty then none else some (⟨String.ofList ('!' :: name ++ ['!']), String.ofList suffix⟩, rest)
      | (name, false, text) => do
        let (suffix, rest) ← readTagChars? false none text
        let suffix := name ++ suffix
        some (if suffix.isEmpty then ⟨"", "!"⟩ else ⟨"!", String.ofList suffix⟩, rest)
  if atGap rest || inFlow && rest.head? == some ',' then some (tag, rest) else none

/-! ### Directives -/

/-- What a directive says: the version of the language, or what a handle stands for. -/
inductive Directive where
  | version (major minor : Nat)
  | handle (handle expansion : String)
  deriving DecidableEq, Repr

/-- Reads a number of at most nine digits. -/
def readVersionNumber? (text : List Char) : Option (Nat × List Char) :=
  let digits := text.takeWhile Char.isDigit
  if digits.isEmpty || 9 < digits.length then none
  else some (digits.foldl (fun n c => 10 * n + (c.toNat - '0'.toNat)) 0, text.dropWhile Char.isDigit)

def readVersion? (text : List Char) : Option (Directive × List Char) := do
  match ← readVersionNumber? text with
  | (major, '.' :: rest) => do
    let (minor, rest) ← readVersionNumber? rest
    return (.version major minor, rest)
  | _ => none

def readShorthand? (text : List Char) : Option (Directive × List Char) :=
  match text with
  | '!' :: text => do
    let (name, isClosed, text) := readHandle text
    if !isClosed && !name.isEmpty then none
    let (expansion, rest) ← readTagChars? true none (skipBlanks text)
    if !(text.head?.any isBlank) || expansion.isEmpty || !atGap rest then none
    return (.handle (String.ofList ('!' :: name ++ (if isClosed then ['!'] else []))) (String.ofList expansion), rest)
  | _ => none

/-- Reads a directive after its percent sign, to the end of its line. -/
def readDirective? (text : List Char) : Option (Directive × List Char) := do
  let name := text.takeWhile isName
  let text := text.dropWhile isName
  if !atGap text then none
  let (directive, rest) ←
    if name == "YAML".toList then readVersion? (skipBlanks text)
    else if name == "TAG".toList then readShorthand? (skipBlanks text)
    else none
  return (directive, ← skipLineEnd? rest)

end Highlight.Yaml
