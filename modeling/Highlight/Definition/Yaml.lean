import Highlight.Definition.Reading
import Highlight.Error
import Highlight.Yaml.Value

/-! Definitions in YAML files. The token names of the whole file and the name of its `rest` are taken as they
    are written, and not as numbers or truth values. -/

namespace Highlight.Definition

/-- The definition whose entries are the members of a mapping, in their order. -/
def ofYamlMembers? : List (Yaml.Node × Yaml.Node) → Option Definition
  | [] => some { entries := [] }
  | (key, value) :: members => do
    let name ← key.text?
    if name = restKey then (← ofYamlMembers? members).withRest? (← value.text?) 
    else do
      let rules ← rulesOf? (← value.datum?)
      return consEntry name rules (← ofYamlMembers? members)

/-- The definition that a YAML document is. A document without content is one without entries. -/
def ofYaml? : Option Yaml.Node → Option Definition
  | none => some { entries := [] }
  | some (.scalar "" true _) => some { entries := [] }
  | some (.mapping members _) => ofYamlMembers? members
  | some _ => none

/-- Reads a definition from the text of a YAML file. -/
def readYaml (source : String) : Except DefinitionError Definition :=
  match (Yaml.Node.ofText? source.toList).bind ofYaml? with
  | some definition => .ok definition
  | none => .error .unreadable

end Highlight.Definition
