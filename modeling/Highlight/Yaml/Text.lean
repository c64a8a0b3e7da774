/-! The characters of YAML, and places in a text. -/

namespace Highlight.Yaml

/-! ### Characters -/

/-- The line breaks of a text whose breaks are uniform. -/
def isBreak (c : Char) : Bool := c == '\n' || c == '\u2028' || c == '\u2029'

def isBlank (c : Char) : Bool := c == ' ' || c == '\t'

/-- The characters of names, of anchors and of handles. -/
def isName (c : Char) : Bool := c.isAlphanum || c == '_' || c == '-'

/-- Whether a character may stand in a text at all. -/
def isAllowed (c : Char) : Bool :=
  c == '\t' || c == '\n' || c == '\r' || (0x20 ≤ c.toNat && c.toNat ≤ 0x7E) || c.toNat == 0x85 ||
    (0xA0 ≤ c.toNat && c.toNat ≤ 0xFFFD) || 0x10000 ≤ c.toNat

/-- A text with every line break of one character, and all but the separators of lines and paragraphs of the
    same one. -/
def uniformBreaks : List Char → List Char
  | [] => []
  | '\r' :: '\n' :: text => '\n' :: uniformBreaks text
  | c :: text => (if c == '\r' || c == '\u0085' then '\n' else c) :: uniformBreaks text

/-! ### What a text starts with -/

/-- Whether a text is at its end, or at a line break. -/
def atLineEnd : List Char → Bool
  | [] => true
  | c :: _ => isBreak c

/-- Whether a text is at its end, at a line break or at a blank. -/
def atGap : List Char → Bool
  | [] => true
  | c :: _ => isBreak c || isBlank c

/-- Whether a text starts with a mark of a document's start (three dashes) or end (three dots). -/
def atDocumentMark (mark : Char) : List Char → Bool
  | a :: b :: c :: rest => a == mark && b == mark && c == mark && atGap rest
  | _ => false

def skipBlanks (text : List Char) : List Char := text.dropWhile isBlank

/-- Skips the rest of a line that holds nothing more but blanks and a comment, with its break. -/
def skipLineEnd? (text : List Char) : Option (List Char) :=
  let text := match skipBlanks text with
    | '#' :: rest => rest.dropWhile (!isBreak ·)
    | rest => rest
  match text with
  | [] => some []
  | c :: rest => if isBreak c then some rest else none

/-! ### Places -/

/-- A place in a text: what follows it, how many characters come before it in the text and in its line, and
    how many lines. -/
structure Place where
  rest : List Char
  index : Nat := 0
  line : Nat := 0
  column : Nat := 0

namespace Place

/-- The place after the next character. -/
def next (place : Place) : Place :=
  match place.rest with
  | [] => place
  | c :: rest =>
    if isBreak c then ⟨rest, place.index + 1, place.line + 1, 0⟩
    else ⟨rest, place.index + 1, place.line, place.column + 1⟩

/-- The later place that only `rest` follows. -/
def moveTo (place : Place) (rest : List Char) : Place :=
  Nat.repeat next (place.rest.length - rest.length) place

end Place
end Highlight.Yaml
