import Highlight.Token

/-! The format "tag": the text with a tag around every token that a rule has found. -/

namespace Highlight.Token

/-- A character as it stands between tags and in attributes. -/
def escapeTagChar (c : Char) : List Char :=
  match c with
  | '&' => "&amp;".toList
  | '<' => "&lt;".toList
  | '>' => "&gt;".toList
  | '"' => "&quot;".toList
  | '\'' => "&apos;".toList
  | c => [c]

def escapeTag (text : String) : List Char := text.toList.flatMap escapeTagChar

/-- The attribute that gives the rule, which is there when the tag is named by an alias. -/
def ruleAttribute : (aliasName name : Option String) → List Char
  | some _, some name => " rule=\"".toList ++ escapeTag name ++ ['"']
  | _, _ => []

mutual
/-- Plain text is escaped; other tokens have their content between two tags named for their kind. -/
def tagged : Token → List Char
  | ⟨name, aliasName, content, _⟩ =>
    match aliasName.or name with
    | none => plainTagged content
    | some kind =>
      '<' :: kind.toList ++ ruleAttribute aliasName name ++ ['>'] ++ contentTagged content ++
        ['<', '/'] ++ kind.toList ++ ['>']

def contentTagged : Content → List Char
  | .text text => escapeTag text
  | .nested tokens => taggedOf tokens

def taggedOf : List Token → List Char
  | [] => []
  | t :: ts => tagged t ++ taggedOf ts

/-- The content of plain text; it holds no tokens. -/
def plainTagged : Content → List Char
  | .text text => escapeTag text
  | .nested _ => []
end

/-- The text with its tags. -/
def renderTag (tokens : List Token) : String := String.ofList (taggedOf tokens)

end Highlight.Token
