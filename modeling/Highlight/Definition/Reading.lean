import Highlight.Datum
import Highlight.Definition

/-! Reading rules and definitions from the values of a data file. What a value stands for is decided by its
    kind alone:

    - a rule is a text, or a mapping from fields to their values, or a list of the values in the order of the
      fields;
    - a list is a list of rules if all its items are rules;
    - the grammar for the inside of a match is a text, or a mapping like that of a whole file. -/

namespace Highlight

/-- The fields of a rule. -/
inductive RuleField where
  | pattern | flags | lookbehind | greedy | aliasName | inside
  deriving DecidableEq, Repr

namespace RuleField

/-- All fields, in the order in which a list gives their values. -/
def all : List RuleField := [pattern, flags, lookbehind, greedy, aliasName, inside]

def name : RuleField → String
  | pattern => "pattern"
  | flags => "flags"
  | lookbehind => "lookbehind"
  | greedy => "greedy"
  | aliasName => "alias"
  | inside => "inside"

/-- The field that a key names, or whose place in the order it gives. -/
def ofKey? : Datum → Option RuleField
  | .text key => all.find? (·.name == key)
  | .natural place => all[place]?
  | _ => none

end RuleField

/-- The fields of a rule as far as they are known. -/
structure RuleFields where
  pattern : Option String := none
  flags : Option String := none
  lookbehind : Option Bool := none
  greedy : Option Bool := none
  aliasName : Option (Option String) := none
  inside : Option (Option InsideDefinition) := none

namespace RuleFields

/-- The rule with these fields: it has a pattern, and the other fields may be left out. -/
def details? (fields : RuleFields) : Option RuleDetails :=
  fields.pattern.map fun pattern =>
    { pattern, flags := fields.flags.getD "", lookbehind := fields.lookbehind.getD false,
      greedy := fields.greedy.getD false, aliasName := fields.aliasName.getD none, inside := fields.inside.getD none }

/-- Enters a field that is not known yet. -/
def enter {α : Type} (known : Option α) (value : α) : Option (Option α) :=
  match known with
  | none => some (some value)
  | some _ => none

def enterInside? (fields : RuleFields) (inside : Option InsideDefinition) : Option RuleFields := do
  return { fields with inside := ← enter fields.inside inside }

/-- Enters the value of a field other than `inside`. -/
def enter? (fields : RuleFields) (field : RuleField) (value : Datum) : Option RuleFields :=
  match field, value with
  | .pattern, .text s => do return { fields with pattern := ← enter fields.pattern s }
  | .flags, .text s => do return { fields with flags := ← enter fields.flags s }
  | .lookbehind, .bool b => do return { fields with lookbehind := ← enter fields.lookbehind b }
  | .greedy, .bool b => do return { fields with greedy := ← enter fields.greedy b }
  | .aliasName, .null => do return { fields with aliasName := ← enter fields.aliasName none }
  | .aliasName, .text s => do return { fields with aliasName := ← enter fields.aliasName (some s) }
  | _, _ => none

end RuleFields

namespace Definition

/-- Puts an entry in front. -/
def consEntry (name : String) (rules : RulesDefinition) (definition : Definition) : Definition :=
  ⟨(name, rules) :: definition.entries, definition.rest⟩

/-- Sets the language whose entries follow, which is named once only. -/
def withRest? (language : String) (definition : Definition) : Option Definition :=
  match definition.rest with
  | none => some ⟨definition.entries, some language⟩
  | some _ => none

mutual
/-- The rules that the value of a token name stands for. -/
def rulesOf? : Datum → Option RulesDefinition
  | .text pattern => some (.one (.bare pattern))
  | .list items =>
    match ruleList? items with
    | some rules => some (.many rules)
    | none => (positional? {} RuleField.all items).map fun details => .one (.detailed details)
  | .mapping members => (named? {} members).map fun details => .one (.detailed details)
  | _ => none

/-- The rule that a value stands for. -/
def rule? : Datum → Option RuleDefinition
  | .text pattern => some (.bare pattern)
  | .list items => (positional? {} RuleField.all items).map .detailed
  | .mapping members => (named? {} members).map .detailed
  | _ => none

def ruleList? : List Datum → Option (List RuleDefinition)
  | [] => some []
  | item :: items => do return (← rule? item) :: (← ruleList? items)

/-- The rule whose fields have the values of a list. -/
def positional? (fields : RuleFields) : List RuleField → List Datum → Option RuleDetails
  | _, [] => fields.details?
  | [], _ :: _ => none
  | .inside :: more, value :: values => do positional? (← fields.enterInside? (← inside? value)) more values
  | field :: more, value :: values => do positional? (← fields.enter? field value) more values

/-- The rule whose fields are the members of a mapping. -/
def named? (fields : RuleFields) : List (Datum × Datum) → Option RuleDetails
  | [] => fields.details?
  | (key, value) :: members =>
    match RuleField.ofKey? key with
    | none => none
    | some .inside => do named? (← fields.enterInside? (← inside? value)) members
    | some field => do named? (← fields.enter? field value) members

/-- The grammar for the inside of a match, or none. -/
def inside? : Datum → Option (Option InsideDefinition)
  | .null => some none
  | .text language => some (some (.named language))
  | .mapping members => (ofMembers? members).map fun definition => some (.inline definition)
  | _ => none

/-- The definition whose entries are the members of a mapping. -/
def ofMembers? : List (Datum × Datum) → Option Definition
  | [] => some { entries := [] }
  | (.text key, value) :: members =>
    if key = restKey then
      match value with
      | .text language => (ofMembers? members).bind (withRest? language)
      | _ => none
    else do
      let rules ← rulesOf? value
      return consEntry key rules (← ofMembers? members)
  | _ :: _ => none
end

end Definition
end Highlight
