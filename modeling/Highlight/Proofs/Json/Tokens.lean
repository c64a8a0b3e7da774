import Highlight.Format.Tokens
import Highlight.Proofs.Json.Written

/-! The format "json" is lossless. The document of tokens is a text of one value only, and the tokens are read back from
    that: a name or alias that is missing is none, a string is the text of a token, and an array the tokens inside it. -/

namespace Highlight.Token

/-! ### Reading tokens -/

/-- The span that an object gives. -/
def span? (v : Json) : Option Span := do
  let start ← (← v.member? "start").toNat?
  let stop ← (← v.member? "end").toNat?
  return ⟨start, stop⟩

/-- The text of a member that may be missing. -/
def optional? (key : String) (v : Json) : Option (Option String) :=
  match v.member? key with
  | none => some none
  | some (.string value) => some (some value)
  | some _ => none

mutual
/-- The token that an object gives. -/
def ofJson? : Json → Option Token
  | .object members => do
    let name ← optional? "name" (.object members)
    let aliasName ← optional? "alias" (.object members)
    let content ← content? members
    let span ← span? (← (Json.object members).member? "span")
    return ⟨name, aliasName, content, span⟩
  | _ => none

/-- What the first member for it gives as the content. -/
def content? : List (String × Json) → Option Content
  | [] => none
  | (key, value) :: members => if key = "content" then ofContent? value else content? members

def ofContent? : Json → Option Content
  | .string text => some (.text text)
  | .array items => (ofJsons? items).map .nested
  | _ => none

def ofJsons? : List Json → Option (List Token)
  | [] => some []
  | v :: vs => do
    let t ← ofJson? v
    let ts ← ofJsons? vs
    return t :: ts
end

/-- The tokens that a document gives. -/
def ofDocument? : Json → Option (List Token)
  | .array items => ofJsons? items
  | _ => none

theorem span?_spanJson (s : Span) : span? (spanJson s) = some s := rfl

mutual
theorem ofJson?_toJson : ∀ t : Token, ofJson? t.toJson = some t
  | ⟨name, aliasName, content, span⟩ => by
    have hcontent := ofContent?_contentJson content
    have hspan := span?_spanJson span
    cases name <;> cases aliasName <;>
      simp [toJson, optionalMember, ofJson?, optional?, content?, Json.member?, hcontent, hspan]

theorem ofContent?_contentJson : ∀ content : Content, ofContent? (contentJson content) = some content
  | .text _ => rfl
  | .nested tokens => by simp [contentJson, ofContent?, ofJsons?_toJsonOf tokens]

theorem ofJsons?_toJsonOf : ∀ tokens : List Token, ofJsons? (toJsonOf tokens) = some tokens
  | [] => rfl
  | t :: ts => by simp [toJsonOf, ofJsons?, ofJson?_toJson t, ofJsons?_toJsonOf ts]
end

theorem ofDocument?_toJsonOf (tokens : List Token) : ofDocument? (.array (toJsonOf tokens)) = some tokens :=
  ofJsons?_toJsonOf tokens

/-! ### Writing tokens -/

open Json (Writable)

theorem writable_string (text : String) : Writable (.string text) :=
  .mk (fun _ h => nomatch h) (List.forall_mem_nil _)

theorem writable_array {items : List Json} (h : ∀ v ∈ items, Writable v) : Writable (.array items) :=
  .mk (fun _ h => nomatch h) h

theorem writable_object {members : List (String × Json)} (h : ∀ m ∈ members, Writable m.2) : Writable (.object members) :=
  .mk (fun _ h => nomatch h) (List.forall_mem_map.mpr h)

theorem writable_ofNat (n : Nat) : Writable (.ofNat n) := by
  refine .mk ?_ (List.forall_mem_nil _)
  rintro _ ⟨⟩ _ ⟨⟩

theorem writable_spanJson (s : Span) : Writable (spanJson s) := by
  refine writable_object ?_
  simp [writable_ofNat]

theorem writable_optionalMember {key : String} {value : Option String} : ∀ m ∈ optionalMember key value, Writable m.2 := by
  cases value <;> simp [optionalMember, writable_string]

mutual
theorem writable_toJson : ∀ t : Token, Writable t.toJson
  | ⟨name, aliasName, content, span⟩ => by
    refine writable_object ?_
    simp only [List.forall_mem_append, List.forall_mem_cons]
    exact ⟨⟨writable_optionalMember, writable_optionalMember⟩, writable_contentJson content, writable_spanJson span,
      List.forall_mem_nil _⟩

theorem writable_contentJson : ∀ content : Content, Writable (contentJson content)
  | .text text => writable_string text
  | .nested tokens => writable_array (writable_toJsonOf tokens)

theorem writable_toJsonOf : ∀ tokens : List Token, ∀ v ∈ toJsonOf tokens, Writable v
  | [] => List.forall_mem_nil _
  | t :: ts => List.forall_mem_cons.mpr ⟨writable_toJson t, writable_toJsonOf ts⟩
end

/-- The document of tokens is one of a single value, and reading it gives back the tokens with all that they hold. So
    tokens with the same document are the same. -/
theorem renderJson_lossless (tokens : List Token) :
    (∃ document, (∀ v : Json, v.IsDocument (renderJson tokens).toList ↔ v = document) ∧
        ofDocument? document = some tokens) ∧
      (Json.read? (renderJson tokens).toList).bind ofDocument? = some tokens ∧
      ∀ us, renderJson us = renderJson tokens ↔ us = tokens := by
  have hdocument : ∀ us (v : Json), v.IsDocument (renderJson us).toList ↔ v = .array (toJsonOf us) := fun us =>
    (writable_array (writable_toJsonOf us)).isDocument_render
  have hread : ∀ us, (Json.read? (renderJson us).toList).bind ofDocument? = some us := by
    intro us
    rw [Json.read?_eq_some.mpr ((hdocument us _).mpr rfl)]
    exact ofDocument?_toJsonOf us
  refine ⟨⟨_, hdocument tokens, ofDocument?_toJsonOf tokens⟩, hread tokens, fun us => ⟨fun h => ?_, congrArg renderJson⟩⟩
  have heq := hread us
  rw [h, hread tokens] at heq
  exact (Option.some.inj heq).symm

end Highlight.Token
