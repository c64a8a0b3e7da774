import Highlight.Json.Basic

/-! Writing JSON over several lines, with two blanks for each level. -/

namespace Highlight.Json

/-- The four digits of a code in base sixteen. -/
def fourDigits (n : Nat) : List Char :=
  [n / 4096 % 16, n / 256 % 16, n / 16 % 16, n % 16].map Nat.digitChar

/-- A character as it stands in a string: quotes, backslashes and controls are escaped. -/
def escapeChar (c : Char) : List Char :=
  match c with
  | '"' => ['\\', '"']
  | '\\' => ['\\', '\\']
  | '\x08' => ['\\', 'b']
  | '\x0c' => ['\\', 'f']
  | '\n' => ['\\', 'n']
  | '\r' => ['\\', 'r']
  | '\t' => ['\\', 't']
  | c => if c.toNat < 0x20 then ['\\', 'u'] ++ fourDigits c.toNat else [c]

def writeString (s : String) : List Char := '"' :: s.toList.flatMap escapeChar ++ ['"']

def writeNumber (n : JsonNumber) : List Char :=
  let fraction := match n.fraction with
    | some digits => '.' :: digits.map Nat.digitChar
    | none => []
  let exponent := match n.exponent with
    | some (negative, e) => 'e' :: (if negative then ['-'] else []) ++ Nat.toDigits 10 e
    | none => []
  (if n.negative then ['-'] else []) ++ Nat.toDigits 10 n.whole ++ fraction ++ exponent

/-- A new line at a level. -/
def lineBreak (level : Nat) : List Char := '\n' :: List.replicate (2 * level) ' '

mutual
/-- Writes a value that starts at a level. Each item of an array and each member of an object has a line
    of its own; an array or object without any takes no line. -/
def write (level : Nat) : Json → List Char
  | .null => "null".toList
  | .bool true => "true".toList
  | .bool false => "false".toList
  | .number n => writeNumber n
  | .string s => writeString s
  | .array [] => ['[', ']']
  | .array (item :: items) =>
    '[' :: lineBreak (level + 1) ++ write (level + 1) item ++ writeItems (level + 1) items ++ lineBreak level ++ [']']
  | .object [] => ['\x7b', '\x7d']
  | .object ((key, value) :: members) =>
    '\x7b' :: lineBreak (level + 1) ++ writeString key ++ [':', ' '] ++ write (level + 1) value ++
      writeMembers (level + 1) members ++ lineBreak level ++ ['\x7d']

/-- Writes further items, each after a comma. -/
def writeItems (level : Nat) : List Json → List Char
  | [] => []
  | item :: items => ',' :: lineBreak level ++ write level item ++ writeItems level items

/-- Writes further members, each after a comma. -/
def writeMembers (level : Nat) : List (String × Json) → List Char
  | [] => []
  | (key, value) :: members =>
    ',' :: lineBreak level ++ writeString key ++ [':', ' '] ++ write level value ++ writeMembers level members
end

/-- A document of one value. -/
def render (value : Json) : String := String.ofList (write 0 value)

end Highlight.Json
