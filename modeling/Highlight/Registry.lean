import Highlight.Error
import Highlight.Named
import Highlight.Tokenizer

/-! Registries of languages: grammars by name, and further names that stand for a language. A grammar
    once looked up is a value of its own, which later changes to the registry leave alone. -/

namespace Highlight

/-- Languages with their grammars, and aliases with the languages they stand for. -/
structure Registry where
  languages : List (String × Grammar)
  aliases : List (String × String)

namespace Registry

/-- The registry without languages. -/
def empty : Registry := ⟨[], []⟩

instance : Inhabited Registry := ⟨empty⟩

/-- The language that a name stands for: an alias for another, any other name for itself. -/
def canonical (r : Registry) (name : String) : String := (getValue? name r.aliases).getD name

/-- The grammar that a name stands for. -/
def get? (r : Registry) (name : String) : Option Grammar := getValue? (r.canonical name) r.languages

def has (r : Registry) (name : String) : Bool := (r.get? name).isSome

/-- The grammar that a name stands for, or the error that there is none. -/
def resolve (r : Registry) (name : String) : Except GrammarError Grammar :=
  match r.get? name with
  | some g => .ok g
  | none => .error (.unknownGrammar name)

/-- All languages and aliases, sorted. -/
def names (r : Registry) : List String :=
  (r.languages.map (·.1) ++ r.aliases.map (·.1)).mergeSort fun a b => a ≤ b

/-- Registers a grammar under a name. An alias becomes a language of its own that way. -/
def define (r : Registry) (name : String) (g : Grammar) : Registry :=
  ⟨putValue name g r.languages, dropValue name r.aliases⟩

/-- Registers the grammar of `base` with others on top. -/
def extend (r : Registry) (name base : String) (overrides : Grammar) : Except GrammarError Registry := do
  return r.define name ((← r.resolve base).merged overrides)

/-- Puts entries next to an entry of a language. -/
def insert (r : Registry) (language target : String) (placement : Placement) (entries : Grammar) :
    Except GrammarError Registry := do
  let g ← r.resolve language
  match g.splice? target placement entries with
  | some g => return { r with languages := putValue (r.canonical language) g r.languages }
  | none => throw (.unknownToken language target)

/-- Takes an entry out of a language. -/
def removeToken (r : Registry) (language token : String) : Except GrammarError (Entry × Registry) := do
  let g ← r.resolve language
  match g.remove? token with
  | some (e, g) => return (e, { r with languages := putValue (r.canonical language) g r.languages })
  | none => throw (.unknownToken language token)

/-- Makes a name stand for the language that another name stands for. A language of that name is gone. -/
def addAlias (r : Registry) (name target : String) : Except GrammarError Registry := do
  let language := r.canonical target
  match getValue? language r.languages with
  | none => throw (.unknownGrammar target)
  | some _ =>
    if name == language then return r
    else return ⟨dropValue name r.languages, putValue name language r.aliases⟩

/-- A tokenizer for which references name the languages of the registry. -/
def tokenizer (r : Registry) (maxDepth : Nat := Tokenizer.defaultMaxDepth) : Tokenizer :=
  { language? := r.get?, maxDepth }

/-- Splits a text with a language. -/
def tokenize (r : Registry) (text language : String) : Except GrammarError (List Token) := do
  return r.tokenizer.tokenize (← r.resolve language) text

end Registry
end Highlight
