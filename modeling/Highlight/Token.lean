import Highlight.Span

/-! Tokens: a text split into parts, each named by the rule that found it or left as plain text. A token
    whose rule has a grammar for its inside holds tokens in turn. -/

namespace Highlight

mutual
/-- What a token holds: its text, or the tokens that its text was split into. -/
inductive Content where
  | text (text : String)
  | nested (tokens : List Token)

/-- A part of a text. The name is that of the rule that found it; plain text has none. -/
structure Token where
  name : Option String
  aliasName : Option String
  content : Content
  span : Span
end

mutual
/-- Whether two tokens are the same. -/
def Token.decEq : (t u : Token) → Decidable (t = u)
  | ⟨name, aliasName, content, span⟩, ⟨name', aliasName', content', span'⟩ =>
    have := Content.decEq content content'
    decidable_of_iff (name = name' ∧ aliasName = aliasName' ∧ content = content' ∧ span = span') (by simp)

def Content.decEq : (c d : Content) → Decidable (c = d)
  | .text text, .text text' => decidable_of_iff (text = text') (by simp)
  | .nested tokens, .nested tokens' =>
    have := tokensDecEq tokens tokens'
    decidable_of_iff (tokens = tokens') (by simp)
  | .text _, .nested _ => isFalse (by simp)
  | .nested _, .text _ => isFalse (by simp)

def tokensDecEq : (ts us : List Token) → Decidable (ts = us)
  | [], [] => isTrue rfl
  | t :: ts, u :: us =>
    have := Token.decEq t u
    have := tokensDecEq ts us
    decidable_of_iff (t = u ∧ ts = us) (by simp)
  | [], _ :: _ => isFalse (by simp)
  | _ :: _, [] => isFalse (by simp)
end

instance : DecidableEq Token := Token.decEq
instance : DecidableEq Content := Content.decEq

namespace Token

/-- Text that no rule has found. -/
def plain (text : String) (span : Span) : Token := ⟨none, none, .text text, span⟩

instance : Inhabited Token := ⟨plain "" default⟩

/-- What the token is called: by its alias if it has one, else by the name of its rule. -/
def kind? (t : Token) : Option String := t.aliasName.or t.name

/-- Whether a rule has found the token. -/
def isClassified (t : Token) : Bool := t.name.isSome

/-- The tokens inside. -/
def children (t : Token) : List Token :=
  match t.content with
  | .text _ => []
  | .nested tokens => tokens

/-- The text, if the token holds text. -/
def text? (t : Token) : Option String :=
  match t.content with
  | .text text => some text
  | .nested _ => none

mutual
/-- The text that a token covers, that of the tokens inside it joined. -/
def chars : Token → List Char
  | ⟨_, _, content, _⟩ => contentChars content

def contentChars : Content → List Char
  | .text text => text.toList
  | .nested tokens => charsOf tokens

/-- The text that a list of tokens covers. -/
def charsOf : List Token → List Char
  | [] => []
  | t :: ts => chars t ++ charsOf ts
end

def text (t : Token) : String := String.ofList t.chars

mutual
/-- Changes every offset, in the tokens inside too. -/
def mapOffsets (f : Nat → Nat) : Token → Token
  | ⟨name, aliasName, content, span⟩ => ⟨name, aliasName, mapContent f content, span.map f⟩

def mapContent (f : Nat → Nat) : Content → Content
  | .text text => .text text
  | .nested tokens => .nested (mapOffsetsOf f tokens)

def mapOffsetsOf (f : Nat → Nat) : List Token → List Token
  | [] => []
  | t :: ts => mapOffsets f t :: mapOffsetsOf f ts
end

end Token

/-- The text of a list of tokens. -/
def flatten (tokens : List Token) : String := String.ofList (Token.charsOf tokens)

end Highlight
