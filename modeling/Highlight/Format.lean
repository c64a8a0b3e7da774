import Highlight.Format.Tag
import Highlight.Format.Tokens
import Highlight.Format.Tree

/-! Formats for tokens, by their names. -/

namespace Highlight

/-- A format: its name, a line about it, and how it writes tokens. -/
structure Format where
  name : String
  summary : String
  render : List Token → String

/-- No format has this name. -/
structure UnknownFormat where
  name : String
  deriving DecidableEq, Repr

def UnknownFormat.message (e : UnknownFormat) : String := "Unknown output format '" ++ e.name ++ "'"

namespace Format

/-- All formats, sorted by name. -/
def all : List Format := [
  ⟨"json", "Token tree as pretty-printed JSON", Token.renderJson⟩,
  ⟨"tag", "Input text with XML-like tags around classified tokens", Token.renderTag⟩,
  ⟨"treeviz", "One line per token with box-drawing nesting", Token.renderTree⟩]

/-- The format with a name. -/
def ofName? (name : String) : Option Format := all.find? (·.name == name)

/-- Writes tokens in the format with a name. -/
def renderAs (name : String) (tokens : List Token) : Except UnknownFormat String :=
  match ofName? name with
  | some format => .ok (format.render tokens)
  | none => .error ⟨name⟩

end Format
end Highlight
