/-! Places in a text. A place splits the text into what lies before it, nearest character first, and
    what lies after it, so that looking one character back or ahead needs no index. -/

namespace Highlight.Regex

/-- A place in a text; `left` is the number of characters after it. -/
structure Place where
  before : List Char
  after : List Char
  left : Nat
  deriving Repr, Inhabited

namespace Place

/-- The start of a text. -/
def start (text : List Char) : Place := ⟨[], text, text.length⟩

/-- The place after the next character, or the same place at the end. -/
def next (p : Place) : Place :=
  match p.after with
  | [] => p
  | c :: rest => ⟨c :: p.before, rest, p.left - 1⟩

/-- The place `n` characters on. -/
def skip : Nat → Place → Place
  | 0, p => p
  | n + 1, p => skip n p.next

/-- The place `n` characters back, if the text reaches that far. -/
def back? : Nat → Place → Option Place
  | 0, p => some p
  | n + 1, ⟨c :: before, after, left⟩ => back? n ⟨before, c :: after, left + 1⟩
  | _ + 1, ⟨[], _, _⟩ => none

/-- The place after the text `cs`, if the text goes on with it. -/
def skipText? : List Char → Place → Option Place
  | [], p => some p
  | c :: cs, ⟨before, d :: after, left⟩ =>
    if c == d then skipText? cs ⟨d :: before, after, left - 1⟩ else none
  | _ :: _, ⟨_, [], _⟩ => none

end Place
end Highlight.Regex
