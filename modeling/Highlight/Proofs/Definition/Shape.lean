import Mathlib.Data.List.Forall2
import Highlight.Definition.Reading
import Highlight.Json.Basic

/-! The shape of grammar files in JSON: which values are rules and grammars (`IsRule`, `IsGrammar`), and the rules and the
    definition that they give (`GivesRule`, `GivesGrammar`). Neither says how a value is looked through. -/

namespace Highlight
namespace Json
open Definition (restKey)

/-! ### Fields of a rule -/

/-- The value that an object has for a field under its name, or an array at its place. -/
def field? : Json → RuleField → Option Json
  | .object members, field => members.lookup field.name
  | .array items, field => items[RuleField.all.idxOf field]?
  | _, _ => none

/-- The value has nothing but fields: its keys are the names of fields, none of them twice, or it has no more items than
    there are fields. -/
def HasFields : Json → Prop
  | .object members => (members.map (·.1)).Nodup ∧ ∀ m ∈ members, ∃ field : RuleField, field.name = m.1
  | .array items => items.length ≤ RuleField.all.length
  | _ => False

/-! ### Values of the right shape -/

mutual
/-- A rule is a pattern, or has fields, a pattern among them. -/
inductive IsRule : Json → Prop
  | pattern (source : String) : IsRule (.string source)
  | fields {v : Json} : v.HasFields → (∃ s, v.field? .pattern = some (.string s)) →
      (∀ x ∈ v.field? .flags, ∃ s, x = .string s) → (∀ x ∈ v.field? .lookbehind, ∃ b, x = .bool b) →
      (∀ x ∈ v.field? .greedy, ∃ b, x = .bool b) → (∀ x ∈ v.field? .aliasName, x = .null ∨ ∃ s, x = .string s) →
      (∀ x ∈ v.field? .inside, IsInside x) → IsRule v

/-- The grammar for the inside of a match is none, a language or a grammar. -/
inductive IsInside : Json → Prop
  | none : IsInside .null
  | named (language : String) : IsInside (.string language)
  | inline {members : List (String × Json)} : IsGrammar members → IsInside (.object members)

/-- What stands under a token name is a rule or a list of rules. -/
inductive IsRules : Json → Prop
  | one {v : Json} : IsRule v → IsRules v
  | many {items : List Json} : (∀ v ∈ items, IsRule v) → IsRules (.array items)

/-- The members of a grammar are rules, apart from one that may name the language whose entries follow. -/
inductive IsGrammar : List (String × Json) → Prop
  | members {members : List (String × Json)} : (members.filter (·.1 = restKey)).length ≤ 1 →
      (∀ m ∈ members, m.1 = restKey → ∃ language, m.2 = .string language) →
      (∀ m ∈ members, m.1 ≠ restKey → IsRules m.2) → IsGrammar members
end

/-! ### What the values give -/

/-- A name that may be missing. -/
def ofName : Option String → Json
  | none => .null
  | some name => .string name

mutual
/-- A pattern gives a rule of its own. Of a rule with fields, those that are left out are as if they had been given with
    the values of a bare pattern. -/
inductive GivesRule : Json → RuleDefinition → Prop
  | pattern (source : String) : GivesRule (.string source) (.bare source)
  | fields {v : Json} {details : RuleDetails} : v.HasFields →
      v.field? .pattern = some (.string details.pattern) →
      (v.field? .flags).getD (.string "") = .string details.flags →
      (v.field? .lookbehind).getD (.bool false) = .bool details.lookbehind →
      (v.field? .greedy).getD (.bool false) = .bool details.greedy →
      (v.field? .aliasName).getD .null = ofName details.aliasName →
      GivesInside ((v.field? .inside).getD .null) details.inside → GivesRule v (.detailed details)

inductive GivesInside : Json → Option InsideDefinition → Prop
  | none : GivesInside .null none
  | named (language : String) : GivesInside (.string language) (some (.named language))
  | inline {members : List (String × Json)} {definition : Definition} :
      GivesGrammar members definition → GivesInside (.object members) (some (.inline definition))

/-- An array gives the rules of its items if they all are rules, and otherwise one rule as any other value does. -/
inductive GivesRules : Json → RulesDefinition → Prop
  | many {items : List Json} {rules : List RuleDefinition} :
      List.Forall₂ GivesRule items rules → GivesRules (.array items) (.many rules)
  | one {v : Json} {rule : RuleDefinition} :
      GivesRule v rule → (∀ items, v = .array items → ∃ x ∈ items, ¬x.IsRule) → GivesRules v (.one rule)

inductive GivesEntry : String × Json → String × RulesDefinition → Prop
  | mk {name : String} {v : Json} {rules : RulesDefinition} : GivesRules v rules → GivesEntry (name, v) (name, rules)

/-- The entries are those of the members, in their order, apart from one that names the language whose entries follow. -/
inductive GivesGrammar : List (String × Json) → Definition → Prop
  | members {members : List (String × Json)} {entries : List (String × RulesDefinition)} {rest : Option String} :
      members.filter (·.1 = restKey) = rest.toList.map (fun language => (restKey, .string language)) →
      List.Forall₂ GivesEntry (members.filter (·.1 ≠ restKey)) entries → GivesGrammar members ⟨entries, rest⟩
end

end Json
end Highlight
