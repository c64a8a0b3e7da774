import Highlight.Json.Basic

/-! The syntax of JSON, as a relation between values and the texts that stand for them. It says nothing of how a text is
    read. The code of a surrogate stands for a character only together with its other half, so that no value has a text
    with one half alone. -/

namespace Highlight.Json

/-! ### Numbers -/

/-- Digits of base ten, at least one. -/
def Digits (s : List Char) : Prop := s ≠ [] ∧ ∀ c ∈ s, c.isDigit = true

/-- The digits before the point: of several, the first is no zero. -/
def WholeText (n : Nat) (s : List Char) : Prop :=
  Digits s ∧ (s.head? = some '0' → s = ['0']) ∧ n = Nat.ofDigitChars 10 s 0

/-- The point and the digits after it. -/
inductive FractionText : Option (List Nat) → List Char → Prop
  | absent : FractionText none []
  | present {s} : Digits s → FractionText (some (s.map (·.toNat - '0'.toNat))) ('.' :: s)

/-- The sign of an exponent, which may be given for positive ones too. -/
inductive SignText : Bool → List Char → Prop
  | absent : SignText false []
  | plus : SignText false ['+']
  | minus : SignText true ['-']

inductive ExponentText : Option (Bool × Nat) → List Char → Prop
  | absent : ExponentText none []
  | present {e negative sign s} : e = 'e' ∨ e = 'E' → SignText negative sign → Digits s →
      ExponentText (some (negative, Nat.ofDigitChars 10 s 0)) (e :: (sign ++ s))

inductive NumberText : JsonNumber → List Char → Prop
  | mk {negative n fraction exponent whole point power} : WholeText n whole → FractionText fraction point →
      ExponentText exponent power →
      NumberText ⟨negative, n, fraction, exponent⟩ ((if negative then ['-'] else []) ++ (whole ++ (point ++ power)))

/-! ### Strings -/

/-- The letters after a backslash, each with the character that it stands for. -/
def escapes : List (Char × Char) :=
  [('"', '"'), ('\\', '\\'), ('/', '/'), ('b', '\x08'), ('f', '\x0c'), ('n', '\n'), ('r', '\r'), ('t', '\t')]

/-- A digit of base sixteen, with a small or a capital letter. -/
def HexDigit (n : Nat) (c : Char) : Prop := n < 16 ∧ (c = n.digitChar ∨ c = n.digitChar.toUpper)

/-- A code of four digits. -/
inductive CodeText : Nat → List Char → Prop
  | mk {i j k l a b c d} : HexDigit i a → HexDigit j b → HexDigit k c → HexDigit l d →
      CodeText (4096 * i + 256 * j + 16 * k + l) [a, b, c, d]

/-- Text between quotes and the characters that it stands for: each stands for itself or is written as an escape, by a
    letter, by its code or by the codes of its two surrogates. -/
inductive StringText : List Char → List Char → Prop
  | nil : StringText [] []
  | plain {c cs s} : 0x20 ≤ c.toNat → c ≠ '"' → c ≠ '\\' → StringText cs s → StringText (c :: cs) (c :: s)
  | letter {letter c cs s} : (letter, c) ∈ escapes → StringText cs s → StringText (c :: cs) ('\\' :: letter :: s)
  | code {c cs code s} : CodeText c.toNat code → StringText cs s → StringText (c :: cs) ('\\' :: 'u' :: (code ++ s))
  | pair {c cs high low s} : 0x10000 ≤ c.toNat → CodeText (0xD800 + (c.toNat - 0x10000) / 0x400) high →
      CodeText (0xDC00 + (c.toNat - 0x10000) % 0x400) low → StringText cs s →
      StringText (c :: cs) ('\\' :: 'u' :: (high ++ '\\' :: 'u' :: (low ++ s)))

def QuotedText (text : String) (s : List Char) : Prop := ∃ body, StringText text.toList body ∧ s = '"' :: (body ++ ['"'])

/-! ### Values -/

def Blanks (s : List Char) : Prop := ∀ c ∈ s, c = ' ' ∨ c = '\t' ∨ c = '\n' ∨ c = '\r'

/-- Text with blanks around it. -/
def Padded (p : List Char → Prop) (s : List Char) : Prop :=
  ∃ front body back, Blanks front ∧ p body ∧ Blanks back ∧ s = front ++ (body ++ back)

mutual
/-- The texts of a value. -/
def IsText : Json → List Char → Prop
  | .null, s => s = "null".toList
  | .bool b, s => s = (if b then "true" else "false").toList
  | .number n, s => NumberText n s
  | .string text, s => QuotedText text s
  | .array items, s => ∃ body, (items = [] ∧ Blanks body ∨ ItemsText items body) ∧ s = '[' :: (body ++ [']'])
  | .object members, s => ∃ body, (members = [] ∧ Blanks body ∨ MembersText members body) ∧ s = '\x7b' :: (body ++ ['\x7d'])

/-- Items with commas between them, at least one. -/
def ItemsText : List Json → List Char → Prop
  | [], _ => False
  | item :: items, s =>
    items = [] ∧ Padded (IsText item) s ∨
      ∃ first more, Padded (IsText item) first ∧ ItemsText items more ∧ s = first ++ ',' :: more

/-- Members with commas between them, at least one, each with a colon after its key. -/
def MembersText : List (String × Json) → List Char → Prop
  | [], _ => False
  | (key, value) :: members, s =>
    ∃ quoted tail, Padded (QuotedText key) quoted ∧ s = quoted ++ ':' :: tail ∧
      (members = [] ∧ Padded (IsText value) tail ∨
        ∃ first more, Padded (IsText value) first ∧ MembersText members more ∧ tail = first ++ ',' :: more)
end

/-- A document is a value with blanks around it. -/
def IsDocument (document : Json) (s : List Char) : Prop := Padded document.IsText s

/-! ### Parts -/

/-- The items of an array or the values of the members of an object. -/
def parts : Json → List Json
  | .array items => items
  | .object members => members.map (·.2)
  | _ => []

theorem sizeOf_lt_of_mem_parts {v x : Json} (h : x ∈ v.parts) : sizeOf x < sizeOf v := by
  cases v with
  | array items =>
    have hlt := List.sizeOf_lt_of_mem (show x ∈ items from h)
    rw [array.sizeOf_spec]
    omega
  | object members =>
    obtain ⟨m, hm, rfl⟩ := List.mem_map.mp h
    have hlt := List.sizeOf_lt_of_mem hm
    have hm : sizeOf m = 1 + sizeOf m.1 + sizeOf m.2 := rfl
    rw [object.sizeOf_spec]
    omega
  | _ => cases h

/-- What holds of a value if it holds of its parts holds of all values. -/
theorem byParts {P : Json → Prop} (step : ∀ v, (∀ x ∈ v.parts, P x) → P v) (v : Json) : P v :=
  step v fun x hx =>
    have := sizeOf_lt_of_mem_parts hx
    byParts step x

end Highlight.Json
