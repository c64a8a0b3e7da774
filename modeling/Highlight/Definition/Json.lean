import Highlight.Definition.Reading
import Highlight.Error
import Highlight.Json.Number
import Highlight.Json.Reader

/-! Definitions in JSON files.

    A document that is no JSON still has a first fault that may be one of shape: the members of its object are
    looked at one after the other, and a shape fault counts if it comes before the place where the document
    breaks off. -/

namespace Highlight

namespace Json

/-- How deep the arrays and objects of a document may be nested. -/
def maxDepth : Nat := 127

mutual
/-- How deep arrays and objects are nested in a value. -/
def depth : Json → Nat
  | .array items => depthOfItems items + 1
  | .object members => depthOfMembers members + 1
  | _ => 0

def depthOfItems : List Json → Nat
  | [] => 0
  | item :: items => max item.depth (depthOfItems items)

def depthOfMembers : List (String × Json) → Nat
  | [] => 0
  | (_, value) :: members => max value.depth (depthOfMembers members)
end

mutual
/-- The value as data files have it, if all its numbers have a value. -/
def datum? : Json → Option Datum
  | .null => some .null
  | .bool b => some (.bool b)
  | .number n =>
    match n.toInt? with
    | some (.ofNat k) => some (.natural k)
    | _ => if n.hasValue then some .number else none
  | .string s => some (.text s)
  | .array items => (datumOfItems? items).map .list
  | .object members => (datumOfMembers? members).map .mapping

def datumOfItems? : List Json → Option (List Datum)
  | [] => some []
  | item :: items => do return (← item.datum?) :: (← datumOfItems? items)

def datumOfMembers? : List (String × Json) → Option (List (Datum × Datum))
  | [] => some []
  | (key, value) :: members => do return (.text key, ← value.datum?) :: (← datumOfMembers? members)
end

/-- What a value is, for a message. -/
def found? : Json → Option Found
  | .null => some .null
  | .bool b => some (.boolean b)
  | .number n =>
    match n.toInt? with
    | some k => some (.integer k)
    | none => n.toFloat?.map fun value => .decimal (JsonNumber.layout.write value)
  | .string s => some (.text s)
  | .array _ => some .sequence
  | .object _ => some .mapping

/-- What the value at the start of a text is, for a message. Of an array or object the text may hold no more
    than the start. -/
def foundFirst? (text : List Char) : Option Found :=
  match skipBlanks text with
  | '[' :: _ => some .sequence
  | '\x7b' :: _ => some .mapping
  | text => (readFirst? text).bind fun (value, _) => value.found?

end Json

namespace Definition

/-- The rules that the value of a token name stands for. The object of the document counts for the depth. -/
def rulesOfJson (value : Json) : Except DefinitionError RulesDefinition :=
  if value.depth + 1 > Json.maxDepth then .error .unreadable else
    match value.datum? with
    | none => .error .unreadable
    | some datum =>
      match rulesOf? datum with
      | some rules => .ok rules
      | none => .error .notRules

/-- The language that the value of `rest` names. -/
def restOfJson (value : Json) : Except DefinitionError String :=
  match value with
  | .string language => .ok language
  | value =>
    match value.found? with
    | some found => .error (.restNotName found)
    | none => .error .unreadable

/-- The definition whose entries are the members of an object, in their order. The first fault is the one
    that counts. -/
def ofJsonMembers (rest : Option String) : List (String × Json) → Except DefinitionError Definition
  | [] => .ok { entries := [], rest }
  | (key, value) :: members =>
    if key = restKey then
      if rest.isSome then .error .repeatedRest else do
        let language ← restOfJson value
        ofJsonMembers (some language) members
    else do
      let rules ← rulesOfJson value
      return consEntry key rules (← ofJsonMembers rest members)

/-- The definition that a JSON document is. -/
def ofJson (document : Json) : Except DefinitionError Definition :=
  match document with
  | .object members => ofJsonMembers none members
  | value =>
    match value.found? with
    | some found => .error (.notGrammar found)
    | none => .error .unreadable

/-! ### Broken documents -/

/-- The fault of a member, if it has one, and otherwise the text after it. -/
def memberFault (hasRest : Bool) (key : String) (text : List Char) : Except DefinitionError (List Char) :=
  if key = restKey && hasRest then .error .repeatedRest else
    match Json.readColon? text with
    | none => .error .unreadable
    | some text =>
      if key = restKey then
        match Json.foundFirst? text, Json.readFirst? text with
        | some (.text _), some (_, rest) => .ok rest
        | some found, _ => .error (.restNotName found)
        | none, _ => .error .unreadable
      else
        match Json.readFirst? text with
        | none => .error .unreadable
        | some (value, rest) => (rulesOfJson value).map fun _ => rest

/-- The first fault in the members of an object that is not closed, or that something follows. -/
def membersFault (hasRest : Bool) : Nat → List Char → DefinitionError
  | 0, _ => .unreadable
  | fuel + 1, text =>
    match Json.readKey? text with
    | none => .unreadable
    | some (key, text) =>
      match memberFault hasRest key text with
      | .error fault => fault
      | .ok text =>
        match Json.skipBlanks text with
        | ',' :: text => membersFault (hasRest || key = restKey) fuel text
        | _ => .unreadable

/-- The first fault of a text that is no JSON document. -/
def jsonFault (text : List Char) : DefinitionError :=
  match Json.skipBlanks text with
  | '\x7b' :: rest => membersFault false text.length rest
  | text =>
    match Json.foundFirst? text with
    | some found => .notGrammar found
    | none => .unreadable

/-- Reads a definition from the text of a JSON file. -/
def readJson (source : String) : Except DefinitionError Definition :=
  match Json.read? source.toList with
  | some document => ofJson document
  | none => .error (jsonFault source.toList)

end Definition
end Highlight
