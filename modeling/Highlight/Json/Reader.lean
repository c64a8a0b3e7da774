import Highlight.Json.Basic

/-! Reading JSON: from the characters of a text to the value at its start and what follows it. -/

namespace Highlight.Json

/-! ### Blanks and digits -/

def isBlank (c : Char) : Bool := c == ' ' || c == '\t' || c == '\n' || c == '\r'

def skipBlanks (text : List Char) : List Char := text.dropWhile isBlank

/-- Reads the digits that a text starts with. -/
def readDigits (text : List Char) : List Nat × List Char :=
  ((text.takeWhile Char.isDigit).map (·.toNat - '0'.toNat), text.dropWhile Char.isDigit)

/-- The number that digits of base ten stand for. -/
def ofDigits (digits : List Nat) : Nat := digits.foldl (fun n d => 10 * n + d) 0

/-! ### Numbers -/

/-- Reads a minus sign, if there is one. -/
def readSign : List Char → Bool × List Char
  | '-' :: rest => (true, rest)
  | text => (false, text)

/-- Reads digits, at least one. -/
def readSomeDigits? (text : List Char) : Option (List Nat × List Char) :=
  match readDigits text with
  | ([], _) => none
  | found => some found

/-- Reads the digits before the point: more than one do not start with a zero. -/
def readWhole? (text : List Char) : Option (Nat × List Char) :=
  match readSomeDigits? text with
  | none => none
  | some (0 :: _ :: _, _) => none
  | some (digits, rest) => some (ofDigits digits, rest)

/-- Reads a point and the digits after it, if there is a point. -/
def readFraction? : List Char → Option (Option (List Nat) × List Char)
  | '.' :: rest => (readSomeDigits? rest).map fun (digits, rest) => (some digits, rest)
  | text => some (none, text)

/-- Reads the sign and the digits of an exponent. -/
def readPower? : List Char → Option ((Bool × Nat) × List Char)
  | '+' :: rest => (readSomeDigits? rest).map fun (digits, rest) => ((false, ofDigits digits), rest)
  | '-' :: rest => (readSomeDigits? rest).map fun (digits, rest) => ((true, ofDigits digits), rest)
  | text => (readSomeDigits? text).map fun (digits, rest) => ((false, ofDigits digits), rest)

/-- Reads an exponent, if there is one. -/
def readExponent? : List Char → Option (Option (Bool × Nat) × List Char)
  | 'e' :: rest => (readPower? rest).map fun (power, rest) => (some power, rest)
  | 'E' :: rest => (readPower? rest).map fun (power, rest) => (some power, rest)
  | text => some (none, text)

def readNumber? (text : List Char) : Option (JsonNumber × List Char) := do
  let (negative, text) := readSign text
  let (whole, text) ← readWhole? text
  let (fraction, text) ← readFraction? text
  let (exponent, text) ← readExponent? text
  return (⟨negative, whole, fraction, exponent⟩, text)

/-! ### Strings -/

/-- The value of a digit in base sixteen. -/
def hexDigit? (c : Char) : Option Nat :=
  if c.isDigit then some (c.toNat - '0'.toNat)
  else if 'a' ≤ c && c ≤ 'f' then some (c.toNat - 'a'.toNat + 10)
  else if 'A' ≤ c && c ≤ 'F' then some (c.toNat - 'A'.toNat + 10)
  else none

/-- The number that four digits in base sixteen stand for. -/
def fourDigits? (a b c d : Char) : Option Nat := do
  return 4096 * (← hexDigit? a) + 256 * (← hexDigit? b) + 16 * (← hexDigit? c) + (← hexDigit? d)

/-- The character that a pair of surrogate codes stands for. -/
def ofSurrogates? (high low : Nat) : Option Char :=
  if 0xD800 ≤ high && high < 0xDC00 && 0xDC00 ≤ low && low < 0xE000 then
    some (Char.ofNat (0x10000 + 0x400 * (high - 0xD800) + (low - 0xDC00)))
  else none

/-- The character with a code that is no surrogate. -/
def ofCode? (code : Nat) : Option Char :=
  if 0xD800 ≤ code && code < 0xE000 then none else some (Char.ofNat code)

/-- The character that a letter after a backslash stands for. -/
def ofEscape? (c : Char) : Option Char :=
  match c with
  | '"' => some '"'
  | '\\' => some '\\'
  | '/' => some '/'
  | 'b' => some '\x08'
  | 'f' => some '\x0c'
  | 'n' => some '\n'
  | 'r' => some '\r'
  | 't' => some '\t'
  | _ => none

/-- Puts a character in front of a string that was read. -/
def consRead (c : Char) (read : List Char × List Char) : List Char × List Char := (c :: read.1, read.2)

/-- Reads a string from after its opening quote to after its closing one. Controls stand in it as escapes
    only, and surrogate codes only in pairs. -/
def readString? : List Char → Option (List Char × List Char)
  | '"' :: rest => some ([], rest)
  | '\\' :: 'u' :: a :: b :: c :: d :: rest =>
    match (fourDigits? a b c d).bind ofCode? with
    | some char => (readString? rest).map (consRead char)
    | none =>
      match rest with
      | '\\' :: 'u' :: e :: f :: g :: h :: rest => do
        let char ← ofSurrogates? (← fourDigits? a b c d) (← fourDigits? e f g h)
        return consRead char (← readString? rest)
      | _ => none
  | '\\' :: letter :: rest => do
    let char ← ofEscape? letter
    return consRead char (← readString? rest)
  | c :: rest => if c.toNat < 0x20 || c == '\\' then none else (readString? rest).map (consRead c)
  | [] => none

/-! ### Values -/

/-- Reads the key of a member, with its quotes. -/
def readKey? (text : List Char) : Option (String × List Char) :=
  match skipBlanks text with
  | '"' :: rest => (readString? rest).map fun (key, rest) => (String.ofList key, rest)
  | _ => none

/-- Reads the colon after a key. -/
def readColon? (text : List Char) : Option (List Char) :=
  match skipBlanks text with
  | ':' :: rest => some rest
  | _ => none

mutual
/-- Reads a value. -/
def readValue? : Nat → List Char → Option (Json × List Char)
  | 0, _ => none
  | fuel + 1, text =>
    match skipBlanks text with
    | 'n' :: 'u' :: 'l' :: 'l' :: rest => some (.null, rest)
    | 't' :: 'r' :: 'u' :: 'e' :: rest => some (.bool true, rest)
    | 'f' :: 'a' :: 'l' :: 's' :: 'e' :: rest => some (.bool false, rest)
    | '"' :: rest => (readString? rest).map fun (s, rest) => (.string (String.ofList s), rest)
    | '[' :: rest =>
      match skipBlanks rest with
      | ']' :: rest => some (.array [], rest)
      | rest => (readItems? fuel rest).map fun (items, rest) => (.array items, rest)
    | '\x7b' :: rest =>
      match skipBlanks rest with
      | '\x7d' :: rest => some (.object [], rest)
      | rest => (readMembers? fuel rest).map fun (members, rest) => (.object members, rest)
    | text => (readNumber? text).map fun (n, rest) => (.number n, rest)

/-- Reads the items of an array, at least one, and the bracket that closes it. -/
def readItems? : Nat → List Char → Option (List Json × List Char)
  | 0, _ => none
  | fuel + 1, text => do
    let (item, rest) ← readValue? fuel text
    match skipBlanks rest with
    | ',' :: rest => do
      let (items, rest) ← readItems? fuel rest
      return (item :: items, rest)
    | ']' :: rest => return ([item], rest)
    | _ => none

/-- Reads the members of an object, at least one, and the brace that closes it. -/
def readMembers? : Nat → List Char → Option (List (String × Json) × List Char)
  | 0, _ => none
  | fuel + 1, text => do
    let (key, rest) ← readKey? text
    let (value, rest) ← readValue? fuel (← readColon? rest)
    match skipBlanks rest with
    | ',' :: rest => do
      let (members, rest) ← readMembers? fuel rest
      return ((key, value) :: members, rest)
    | '\x7d' :: rest => return ([(key, value)], rest)
    | _ => none
end

/-- The fuel for reading a text: each value and each list takes at least one character. -/
def enoughFuel (text : List Char) : Nat := 2 * text.length + 2

/-- Reads the value at the start of a text. -/
def readFirst? (text : List Char) : Option (Json × List Char) := readValue? (enoughFuel text) text

/-- Reads a document: one value, with nothing but blanks around it. -/
def read? (text : List Char) : Option Json := do
  let (value, rest) ← readFirst? text
  if (skipBlanks rest).isEmpty then some value else none

end Highlight.Json
