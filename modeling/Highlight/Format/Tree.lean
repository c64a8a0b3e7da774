import Highlight.Text.Quoted
import Highlight.Token

/-! The format "treeviz": a line for every token, with lines drawn from each token to those inside. -/

namespace Highlight.Token

/-- The number of characters of its text that a line shows of a token. -/
def labelWidth : Nat := 30

/-- Cuts a text that is too long and marks the cut by dots. -/
def shorten (width : Nat) (text : List Char) : List Char :=
  if width < text.length then text.take width ++ "...".toList else text

/-- What the token is called: its alias with the name of its rule, its name alone, or "text". -/
def title (aliasName name : Option String) : String :=
  match aliasName, name with
  | some aliasName, some name => aliasName ++ " (" ++ name ++ ")"
  | none, some name => name
  | _, none => "text"

/-- The mark before a token. -/
def connector (last : Bool) : List Char := if last then "└─".toList else "├─".toList

/-- What a token adds to the start of the lines for the tokens inside it. -/
def indent (last : Bool) : List Char := if last then "  ".toList else "│ ".toList

mutual
/-- The lines for a token and those inside it. -/
def drawn (start : List Char) (last : Bool) : Token → List Char
  | ⟨name, aliasName, content, _⟩ =>
    start ++ connector last ++ [' '] ++ (title aliasName name).toList ++ [' '] ++
      (Text.quoted (String.ofList (shorten labelWidth (contentChars content)))).toList ++ ['\n'] ++
      contentDrawn (start ++ indent last) content

def contentDrawn (start : List Char) : Content → List Char
  | .text _ => []
  | .nested tokens => drawnOf start tokens

/-- The lines for a list of tokens, the last of which is marked. -/
def drawnOf (start : List Char) : List Token → List Char
  | [] => []
  | t :: ts => drawn start ts.isEmpty t ++ drawnOf start ts
end

/-- The lines for all tokens. -/
def renderTree (tokens : List Token) : String := String.ofList (drawnOf [] tokens)

end Highlight.Token
