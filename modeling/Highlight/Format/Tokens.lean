import Highlight.Json.Printer
import Highlight.Token

/-! The format "json": tokens as a JSON document. -/

namespace Highlight.Token

/-- A span as an object. -/
def spanJson (s : Span) : Json := .object [("start", .ofNat s.start), ("end", .ofNat s.stop)]

/-- A member for what is there, and none for what is not. -/
def optionalMember (key : String) : Option String → List (String × Json)
  | some value => [(key, .string value)]
  | none => []

mutual
/-- A token as an object; its content is a string or an array of tokens. -/
def toJson : Token → Json
  | ⟨name, aliasName, content, span⟩ =>
    .object (optionalMember "name" name ++ optionalMember "alias" aliasName ++
      [("content", contentJson content), ("span", spanJson span)])

def contentJson : Content → Json
  | .text text => .string text
  | .nested tokens => .array (toJsonOf tokens)

def toJsonOf : List Token → List Json
  | [] => []
  | t :: ts => toJson t :: toJsonOf ts
end

/-- The document for a list of tokens. -/
def renderJson (tokens : List Token) : String := (Json.array (toJsonOf tokens)).render

end Highlight.Token
