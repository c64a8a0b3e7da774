import Highlight.Definition.Json
import Highlight.Definition.Yaml
import Highlight.Registry

/-! Grammar files: definitions in one of two languages for data. -/

namespace Highlight

/-- The languages in which grammar files are written. -/
inductive FileLanguage where
  | json
  | yaml
  deriving DecidableEq, Repr

/-- The language of a file by the extension of its name. -/
def FileLanguage.ofExtension? (extension : String) : Option FileLanguage :=
  if extension = "json" then some .json
  else if extension = "yaml" || extension = "yml" then some .yaml
  else none

/-- Reads the definition that a grammar file holds. -/
def Definition.read (language : FileLanguage) (source : String) : Except GrammarError Definition :=
  (match language with
    | .json => readJson source
    | .yaml => readYaml source).mapError .invalidDefinition

/-- Reads a grammar file and compiles its patterns. -/
def Grammar.ofFile (language : FileLanguage) (source : String) (failures : Nat) : Except GrammarError Grammar := do
  (← Definition.read language source).compile failures

/-- Defines a language by a grammar file. -/
def Registry.defineFile (language : FileLanguage) (name source : String) (registry : Registry) :
    Except GrammarError Registry := do
  return registry.define name (← Grammar.ofFile language source Pattern.defaultFailures)

end Highlight
