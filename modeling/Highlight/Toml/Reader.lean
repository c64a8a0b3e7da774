import Highlight.Decimal.Shortest
import Highlight.Toml.Basic

/-! Reading TOML. Each function reads what it is named for at the start of a text, and gives what follows. -/

namespace Highlight.Toml

/-! ### Characters and lines -/

def isBlank (c : Char) : Bool := c == ' ' || c == '\t'

/-- The characters of comments. -/
def isCommentChar (c : Char) : Bool := c == '\t' || 0x20 ≤ c.toNat

/-- The characters that stand for themselves in strings of either kind, but for their quotes and
    backslashes. -/
def isStringChar (c : Char) : Bool := c == '\t' || 0x20 ≤ c.toNat && c.toNat != 0x7F

/-- The characters of keys without quotes. -/
def isKeyChar (c : Char) : Bool := c.isAlphanum || c == '_' || c == '-'

def skipBlanks (text : List Char) : List Char := text.dropWhile isBlank

def lineBreak? : List Char → Option (List Char)
  | '\n' :: rest => some rest
  | '\r' :: '\n' :: rest => some rest
  | _ => none

/-- Skips a comment, if there is one. -/
def skipComment : List Char → List Char
  | '#' :: rest => rest.dropWhile isCommentChar
  | text => text

/-- Skips the rest of a line that holds nothing more but blanks and a comment. -/
def lineEnd? (text : List Char) : Option (List Char) :=
  match skipComment (skipBlanks text) with
  | [] => some []
  | rest => lineBreak? rest

/-- Skips blanks, comments and line breaks. -/
def skipLines : Nat → List Char → List Char
  | 0, text => text
  | fuel + 1, text =>
    let rest := skipComment (skipBlanks text)
    match lineBreak? rest with
    | some rest => skipLines fuel rest
    | none => rest

/-! ### Strings -/

def consRead (c : Char) (read : List Char × List Char) : List Char × List Char := (c :: read.1, read.2)

def hexDigit? (c : Char) : Option Nat :=
  if c.isDigit then some (c.toNat - '0'.toNat)
  else if 'a' ≤ c && c ≤ 'f' then some (c.toNat - 'a'.toNat + 10)
  else if 'A' ≤ c && c ≤ 'F' then some (c.toNat - 'A'.toNat + 10)
  else none

/-- The character with a code in base sixteen. -/
def ofHex? (digits : List Char) : Option Char := do
  let code ← digits.foldlM (fun n c => (hexDigit? c).map (16 * n + ·)) 0
  if code.isValidChar then some (Char.ofNat code) else none

/-- The character that a letter after a backslash stands for. -/
def ofEscape? (c : Char) : Option Char :=
  match c with
  | 'b' => some '\x08'
  | 'f' => some '\x0c'
  | 'n' => some '\n'
  | 'r' => some '\r'
  | 't' => some '\t'
  | '"' => some '"'
  | '\\' => some '\\'
  | _ => none

/-- Reads the escape after a backslash. -/
def escape? : List Char → Option (Char × List Char)
  | 'u' :: a :: b :: c :: d :: rest => (ofHex? [a, b, c, d]).map (·, rest)
  | 'U' :: a :: b :: c :: d :: e :: f :: g :: h :: rest => (ofHex? [a, b, c, d, e, f, g, h]).map (·, rest)
  | c :: rest => (ofEscape? c).map (·, rest)
  | [] => none

/-- Reads a string of one line from after its quote. Between single quotes there are no escapes. -/
def line? (quote : Char) : Nat → List Char → Option (List Char × List Char)
  | 0, _ => none
  | _ + 1, [] => none
  | fuel + 1, c :: rest =>
    if c == quote then some ([], rest)
    else if c == '\\' && quote == '"' then do
      let (char, rest) ← escape? rest
      return consRead char (← line? quote fuel rest)
    else if isStringChar c then (line? quote fuel rest).map (consRead c)
    else none

/-- Skips blanks and line breaks. -/
def skipSpace : Nat → List Char → List Char
  | 0, text => text
  | fuel + 1, text =>
    match lineBreak? (skipBlanks text) with
    | some rest => skipSpace fuel rest
    | none => skipBlanks text

/-- Skips a line break after a backslash with all blanks and line breaks around it. -/
def skipBreak? (text : List Char) : Option (List Char) :=
  (lineBreak? (skipBlanks text)).map fun rest => skipSpace (rest.length + 1) rest

/-- Reads a string of several lines from after its three quotes. Up to two quotes may stand before those
    that close it. -/
def lines? (quote : Char) : Nat → List Char → Option (List Char × List Char)
  | 0, _ => none
  | _ + 1, [] => none
  | fuel + 1, c :: rest =>
    if c == quote then
      let quotes := 1 + (rest.takeWhile (· == quote)).length
      if quotes < 3 then (lines? quote fuel rest).map (consRead c)
      else if quotes ≤ 5 then some (List.replicate (quotes - 3) quote, rest.drop (quotes - 1))
      else none
    else if c == '\\' && quote == '"' then
      match skipBreak? rest with
      | some rest => lines? quote fuel rest
      | none => do
        let (char, rest) ← escape? rest
        return consRead char (← lines? quote fuel rest)
    else match lineBreak? (c :: rest) with
      | some rest => (lines? quote fuel rest).map (consRead '\n')
      | none => if isStringChar c then (lines? quote fuel rest).map (consRead c) else none

/-- Reads a string from after its first quote. -/
def string? (quote : Char) (text : List Char) : Option (String × List Char) := do
  let fuel := text.length + 1
  let (chars, rest) ← match text with
    | a :: b :: rest =>
      if a == quote && b == quote then lines? quote fuel ((lineBreak? rest).getD rest) else line? quote fuel text
    | _ => line? quote fuel text
  return (String.ofList chars, rest)

/-! ### Numbers -/

/-- Reads digits of a base, with single underscores between them. -/
def digits? (base : Nat) (text : List Char) : Option (List Nat × List Char) :=
  match text with
  | [] => none
  | c :: rest =>
    match (hexDigit? c).filter (· < base) with
    | none => none
    | some digit =>
      let more := match rest with
        | '_' :: rest => digits? base rest
        | rest => (digits? base rest).or (some ([], rest))
      more.map fun (digits, rest) => (digit :: digits, rest)

def ofDigits (base : Nat) (digits : List Nat) : Nat := digits.foldl (fun n d => base * n + d) 0

/-- Reads a sign, if there is one. -/
def sign : List Char → Bool × List Char
  | '-' :: rest => (true, rest)
  | '+' :: rest => (false, rest)
  | text => (false, text)

/-- Reads the digits before a point: more than one do not start with a zero. -/
def whole? (text : List Char) : Option (List Nat × List Char) :=
  match text with
  | '0' :: rest => some ([0], rest)
  | text => digits? 10 text

/-- Whole numbers have 64 bits. -/
def ofInt? (value : Int) : Option Toml :=
  let bound : Int := (UInt64.size / 2 : Nat)
  if -bound ≤ value && value < bound then some (.integer value) else none

/-- Reads a whole number. One without sign may have another base than ten. -/
def integer? (text : List Char) : Option (Toml × List Char) := do
  let based (base : Nat) (rest : List Char) : Option (Toml × List Char) := do
    let (digits, rest) ← digits? base rest
    return (← ofInt? (ofDigits base digits), rest)
  match text with
  | '0' :: 'x' :: rest => based 16 rest
  | '0' :: 'o' :: rest => based 8 rest
  | '0' :: 'b' :: rest => based 2 rest
  | text => do
    let (negative, text) := sign text
    let (digits, rest) ← whole? text
    let value : Int := ofDigits 10 digits
    return (← ofInt? (if negative then -value else value), rest)

/-- Reads an exponent. -/
def exponent? : List Char → Option (Int × List Char)
  | c :: rest =>
    if c == 'e' || c == 'E' then do
      let (negative, rest) := sign rest
      let (digits, rest) ← digits? 10 rest
      let value : Int := ofDigits 10 digits
      return (if negative then -value else value, rest)
    else none
  | [] => none

/-- Reads a number with a point or an exponent, which is not too large. -/
def float? (text : List Char) : Option (Toml × List Char) := do
  let (negative, text) := sign text
  let signed (value : Float) : Float := if negative then -value else value
  match text with
  | 'i' :: 'n' :: 'f' :: rest => return (.float (signed (1 / 0)), rest)
  | 'n' :: 'a' :: 'n' :: rest => return (.float (0 / 0), rest)
  | text => do
    let (whole, rest) ← whole? text
    let (fraction, power, rest) ← match rest with
      | '.' :: rest => do
        let (fraction, rest) ← digits? 10 rest
        let (power, rest) := (exponent? rest).getD (0, rest)
        pure (fraction, power, rest)
      | rest => do
        let (power, rest) ← exponent? rest
        pure ([], power, rest)
    let value := signed (Decimal.toFloat ⟨ofDigits 10 (whole ++ fraction), power - fraction.length⟩)
    if value == 1 / 0 then none else return (.float value, rest)

/-! ### Dates and times -/

/-- Reads exactly `n` digits, which stand for a number within bounds. -/
def fixed? (n low high : Nat) (text : List Char) : Option (Nat × List Char) :=
  let digits := text.take n
  if digits.length = n && digits.all Char.isDigit then
    let value := ofDigits 10 (digits.map fun c => c.toNat - '0'.toNat)
    if low ≤ value && value ≤ high then some (value, text.drop n) else none
  else none

/-- Skips a character. -/
def expect? (expected : Char) : List Char → Option (List Char)
  | c :: rest => if c == expected then some rest else none
  | [] => none

/-- The number of days of a month. -/
def daysOf (year month : Nat) : Nat :=
  if month = 2 then (if year % 4 = 0 && (year % 100 != 0 || year % 400 = 0) then 29 else 28)
  else if [4, 6, 9, 11].contains month then 30
  else 31

/-- A number with zeros in front, up to a width. -/
def padded (width n : Nat) : List Char :=
  let digits := Nat.toDigits 10 n
  List.replicate (width - digits.length) '0' ++ digits

def day? (text : List Char) : Option (List Char × List Char) := do
  let (year, rest) ← fixed? 4 0 9999 text
  let (month, rest) ← fixed? 2 1 12 (← expect? '-' rest)
  let (day, rest) ← fixed? 2 1 (daysOf year month) (← expect? '-' rest)
  return (padded 4 year ++ '-' :: padded 2 month ++ '-' :: padded 2 day, rest)

/-- Reads parts of a second, of which nine digits count and zeros at the end do not. -/
def parts? : List Char → Option (List Char × List Char)
  | '.' :: rest =>
    let digits := rest.takeWhile Char.isDigit
    if digits.isEmpty then none else
      let kept := ((digits.take 9).reverse.dropWhile (· == '0')).reverse
      some (if kept.isEmpty then [] else '.' :: kept, rest.dropWhile Char.isDigit)
  | rest => some ([], rest)

def time? (text : List Char) : Option (List Char × List Char) := do
  let (hour, rest) ← fixed? 2 0 23 text
  let (minute, rest) ← fixed? 2 0 59 (← expect? ':' rest)
  let (second, rest) ← fixed? 2 0 60 (← expect? ':' rest)
  let (parts, rest) ← parts? rest
  return (padded 2 hour ++ ':' :: padded 2 minute ++ ':' :: padded 2 second ++ parts, rest)

/-- Reads the distance of a time zone. -/
def zone? : List Char → Option (List Char × List Char)
  | c :: rest =>
    if c == 'Z' || c == 'z' then some (['Z'], rest)
    else if c == '+' || c == '-' then do
      let (hours, rest) ← fixed? 2 0 23 rest
      let (minutes, rest) ← fixed? 2 0 59 (← expect? ':' rest)
      let sign := if hours = 0 && minutes = 0 then '+' else c
      return (sign :: padded 2 hours ++ ':' :: padded 2 minutes, rest)
    else none
  | [] => none

/-- Reads the time after a day. -/
def timeOfDay? : List Char → Option (List Char × List Char)
  | c :: rest =>
    if ['T', 't', ' '].contains c then do
      let (time, rest) ← time? rest
      let (zone, rest) := (zone? rest).getD ([], rest)
      return ('T' :: time ++ zone, rest)
    else none
  | [] => none

def date? (text : List Char) : Option (Toml × List Char) := do
  let (written, rest) ← match day? text with
    | some (day, rest) =>
      let (time, rest) := (timeOfDay? rest).getD ([], rest)
      some (day ++ time, rest)
    | none => time? text
  return (.date (String.ofList written), rest)

/-! ### Keys -/

/-- Reads a key without dots. -/
def simpleKey? : List Char → Option (String × List Char)
  | '"' :: rest => (line? '"' (rest.length + 1) rest).map fun (key, rest) => (String.ofList key, rest)
  | '\'' :: rest => (line? '\'' (rest.length + 1) rest).map fun (key, rest) => (String.ofList key, rest)
  | text =>
    let key := text.takeWhile isKeyChar
    if key.isEmpty then none else some (String.ofList key, text.dropWhile isKeyChar)

/-- The most keys that dots may join, and the deepest nesting of values, less one. -/
def maxDepth : Nat := 79

/-- Reads a key with the blanks around it. -/
def key? : Nat → List Char → Option (List String × List Char)
  | 0, _ => none
  | fuel + 1, text => do
    let (key, rest) ← simpleKey? (skipBlanks text)
    match skipBlanks rest with
    | '.' :: rest => do
      let (keys, rest) ← key? fuel rest
      return (key :: keys, rest)
    | rest => return ([key], rest)

/-! ### Values -/

/-- Whether a number or a date starts with a character. -/
def startsNumber (c : Char) : Bool := c.isDigit || ['+', '-', 'i', 'n'].contains c

mutual
/-- Reads a value in which arrays and tables are nested no deeper than `depth`. -/
def value? : (fuel depth : Nat) → List Char → Option (Toml × List Char)
  | 0, _, _ => none
  | fuel + 1, depth, text =>
    match text with
    | '"' :: rest => (string? '"' rest).map fun (s, rest) => (.string s, rest)
    | '\'' :: rest => (string? '\'' rest).map fun (s, rest) => (.string s, rest)
    | '[' :: rest =>
      if depth = 0 then none else (items? fuel (depth - 1) rest).map fun (items, rest) => (.array items, rest)
    | '\x7b' :: rest =>
      if depth = 0 then none else
        match skipBlanks rest with
        | '\x7d' :: rest => some (.table .braces [], rest)
        | rest => (entries? fuel (depth - 1) [] rest).map fun (entries, rest) => (.table .braces entries, rest)
    | 't' :: 'r' :: 'u' :: 'e' :: rest => some (.boolean true, rest)
    | 'f' :: 'a' :: 'l' :: 's' :: 'e' :: rest => some (.boolean false, rest)
    | c :: rest =>
      if startsNumber c then
        ((date? (c :: rest)).or (float? (c :: rest))).or (integer? (c :: rest))
      else none
    | [] => none

/-- Reads the items of an array, with the bracket that closes it. -/
def items? : (fuel depth : Nat) → List Char → Option (List Toml × List Char)
  | 0, _, _ => none
  | fuel + 1, depth, text =>
    match skipLines (text.length + 1) text with
    | ']' :: rest => some ([], rest)
    | text => do
      let (item, rest) ← value? fuel depth text
      match skipLines (rest.length + 1) rest with
      | ',' :: rest => do
        let (items, rest) ← items? fuel depth rest
        return (item :: items, rest)
      | ']' :: rest => return ([item], rest)
      | _ => none

/-- Reads the entries of a table in braces, at least one, with the brace that closes it. They stand on one
    line. -/
def entries? : (fuel depth : Nat) → Entries → List Char → Option (Entries × List Char)
  | 0, _, _, _ => none
  | fuel + 1, depth, entries, text => do
    let (path, rest) ← key? maxDepth text
    let (value, rest) ← value? fuel depth (skipBlanks (← expect? '=' rest))
    let entries ← assign? path value .braces entries
    match skipBlanks rest with
    | ',' :: rest => entries? fuel depth entries rest
    | '\x7d' :: rest => some (entries, rest)
    | _ => none
end

/-! ### Documents -/

/-- A document that is read up to some line: the path of the last header, and the table of all. -/
structure Document where
  header : List String := []
  entries : Entries := []

/-- Reads a header after its bracket. -/
def header? (repeated : Bool) (document : Document) (text : List Char) : Option (Document × List Char) := do
  let (path, rest) ← key? maxDepth text
  let rest ← expect? ']' rest
  let rest ← if repeated then expect? ']' rest else some rest
  return (⟨path, ← openTable? repeated path document.entries⟩, ← lineEnd? rest)

/-- Reads a line with a key and its value; values may go on over further lines. -/
def assignment? (document : Document) (text : List Char) : Option (Document × List Char) := do
  let (path, rest) ← key? maxDepth text
  let rest ← expect? '=' rest
  let (value, rest) ← value? (2 * rest.length + 2) maxDepth (skipBlanks rest)
  return ({ document with entries := ← assignUnder? document.header path value document.entries }, ← lineEnd? rest)

/-- Reads the lines of a document. -/
def document? : Nat → Document → List Char → Option Document
  | 0, _, _ => none
  | fuel + 1, document, text =>
    match skipLines (text.length + 1) text with
    | [] => some document
    | '[' :: '[' :: rest => do
      let (document, rest) ← header? true document rest
      document? fuel document rest
    | '[' :: rest => do
      let (document, rest) ← header? false document rest
      document? fuel document rest
    | text => do
      let (document, rest) ← assignment? document text
      document? fuel document rest

/-- The entries of a document, which may start with a mark of the byte order. -/
def read? (text : List Char) : Option Entries :=
  let text := match text with
    | '\uFEFF' :: rest => rest
    | text => text
  (document? (text.length + 1) {} text).map (·.entries)

end Highlight.Toml
