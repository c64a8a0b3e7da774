import Highlight.Unicode.Property

/-! Quoted text for messages and listings: every character that has no form of its own on a line is
    written as an escape, so that the quoted text stays on one line. -/

namespace Highlight.Text

/-- The digits of `n` in base sixteen, at least one. -/
def hexDigits (n : Nat) : List Char := Nat.toDigits 16 n

/-- A character by its code. -/
def codeEscape (c : Char) : List Char := "\\u\x7b".toList ++ hexDigits c.toNat ++ ['\x7d']

/-- A character as it stands between quotes. -/
def quotedChar (c : Char) : List Char :=
  match c with
  | '\x00' => ['\\', '0']
  | '\t' => ['\\', 't']
  | '\r' => ['\\', 'r']
  | '\n' => ['\\', 'n']
  | '"' => ['\\', '"']
  | '\\' => ['\\', '\\']
  | c => if Unicode.isGraphemeExtend c || !Unicode.isPrintable c then codeEscape c else [c]

/-- A text between quotes. -/
def quoted (text : String) : String :=
  String.ofList ('"' :: text.toList.flatMap quotedChar ++ ['"'])

/-- An optional text, quoted if it is there. -/
def quotedOption : Option String → String
  | some text => "Some(" ++ quoted text ++ ")"
  | none => "None"

end Highlight.Text
