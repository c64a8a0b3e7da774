import Highlight.Error
import Highlight.Grammar

/-! Grammar definitions: grammars as they are written down, with patterns that are still to be compiled.
    Grammar files hold one, and the bundled languages are written as such. -/

namespace Highlight

mutual
/-- A rule: a pattern on its own, or with options. -/
inductive RuleDefinition where
  | bare (pattern : String)
  | detailed (details : RuleDetails)

/-- A pattern with options, as a rule has them. -/
structure RuleDetails where
  pattern : String
  flags : String := ""
  lookbehind : Bool := false
  greedy : Bool := false
  aliasName : Option String := none
  inside : Option InsideDefinition := none

/-- The grammar for the inside of a match: a language by name, or a definition. -/
inductive InsideDefinition where
  | named (language : String)
  | inline (definition : Definition)

/-- What belongs to a token name: one rule, or a list of rules. -/
inductive RulesDefinition where
  | one (rule : RuleDefinition)
  | many (rules : List RuleDefinition)

/-- Token names with their rules, in the order of their priority, and the language whose entries follow. -/
structure Definition where
  entries : List (String × RulesDefinition)
  rest : Option String := none
end

namespace Definition

/-- The key of a grammar file that names the language whose entries follow. -/
def restKey : String := "rest"

/-- Compiles a pattern of a rule. -/
def compilePattern (failures : Nat) (source flags : String) : Except GrammarError Pattern :=
  (Pattern.compile source flags failures).mapError (.malformedPattern source)

mutual
/-- Compiles a rule: its own pattern first, then those of the grammar for its inside. -/
def compileRule (failures : Nat) : RuleDefinition → Except GrammarError Rule
  | .bare source => do return { pattern := ← compilePattern failures source "" }
  | .detailed details => compileDetails failures details

def compileDetails (failures : Nat) : RuleDetails → Except GrammarError Rule
  | ⟨source, flags, lookbehind, greedy, aliasName, inside⟩ => do
    let pattern ← compilePattern failures source flags
    return { pattern, lookbehind, greedy, aliasName, inside := ← compileInside? failures inside }

def compileInside? (failures : Nat) : Option InsideDefinition → Except GrammarError (Option GrammarRef)
  | none => return none
  | some inside => do return some (← compileInside failures inside)

def compileInside (failures : Nat) : InsideDefinition → Except GrammarError GrammarRef
  | .named language => return .named language
  | .inline definition => do return .inline (← compile failures definition)

def compileRules (failures : Nat) : RulesDefinition → Except GrammarError (List Rule)
  | .one rule => do return [← compileRule failures rule]
  | .many rules => compileRuleList failures rules

def compileRuleList (failures : Nat) : List RuleDefinition → Except GrammarError (List Rule)
  | [] => return []
  | rule :: rules => do return (← compileRule failures rule) :: (← compileRuleList failures rules)

def compileEntries (failures : Nat) : List (String × RulesDefinition) → Except GrammarError (List (String × List Rule))
  | [] => return []
  | (name, rules) :: entries => do
    return (name, ← compileRules failures rules) :: (← compileEntries failures entries)

/-- Compiles all patterns in the order in which they are written. A name that is written twice keeps its
    first place and has the rules written last. -/
def compile (failures : Nat) : Definition → Except GrammarError Grammar
  | ⟨entries, rest⟩ => do
    return Grammar.ofEntries (← compileEntries failures entries) (rest.map .named)
end

end Definition
end Highlight
