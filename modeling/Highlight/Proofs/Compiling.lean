import Highlight.Definition
import Highlight.Proofs.Except

/-! Compiling a definition. All patterns that are written in it are compiled, those of grammars inside among them, in the
    order in which they are written. Nothing else can fail, and the first pattern that does decides the error
    (`compile_eq_error`). -/

namespace Highlight.Definition

/-! ### The patterns of a definition -/

mutual
/-- The patterns of a rule with their flags: its own first, then those of the grammar for its inside. -/
def rulePatterns : RuleDefinition → List (String × String)
  | .bare source => [(source, "")]
  | .detailed details => detailsPatterns details

def detailsPatterns : RuleDetails → List (String × String)
  | ⟨source, flags, _, _, _, inside⟩ => (source, flags) :: inside?Patterns inside

def inside?Patterns : Option InsideDefinition → List (String × String)
  | none => []
  | some inside => insidePatterns inside

def insidePatterns : InsideDefinition → List (String × String)
  | .named _ => []
  | .inline definition => patterns definition

def rulesPatterns : RulesDefinition → List (String × String)
  | .one rule => rulePatterns rule
  | .many rules => ruleListPatterns rules

def ruleListPatterns : List RuleDefinition → List (String × String)
  | [] => []
  | rule :: rules => rulePatterns rule ++ ruleListPatterns rules

def entriesPatterns : List (String × RulesDefinition) → List (String × String)
  | [] => []
  | (_, rules) :: entries => rulesPatterns rules ++ entriesPatterns entries

/-- The patterns of a definition with their flags, in the order in which they are written. -/
def patterns : Definition → List (String × String)
  | ⟨entries, _⟩ => entriesPatterns entries
end

/-- What the first of some patterns that does not compile fails with. -/
def firstError (failures : Nat) (patterns : List (String × String)) : Option GrammarError :=
  patterns.findSome? fun p => errorOf (compilePattern failures p.1 p.2)

section
variable {failures : Nat}

theorem firstError_append (ps qs : List (String × String)) :
    firstError failures (ps ++ qs) = (firstError failures ps).or (firstError failures qs) := List.findSome?_append

theorem firstError_cons (source flags : String) (ps : List (String × String)) :
    firstError failures ((source, flags) :: ps) =
      (errorOf (compilePattern failures source flags)).or (firstError failures ps) := by
  rw [firstError, List.findSome?_cons]
  cases errorOf (compilePattern failures source flags) <;> rfl

mutual
theorem errorOf_compileRule : ∀ rule : RuleDefinition,
    errorOf (compileRule failures rule) = firstError failures (rulePatterns rule)
  | .bare source => by
    rw [compileRule, rulePatterns, errorOf_bind_pure, firstError_cons]
    exact (Option.or_none).symm
  | .detailed details => by
    rw [compileRule, rulePatterns, errorOf_compileDetails details]

theorem errorOf_compileDetails : ∀ details : RuleDetails,
    errorOf (compileDetails failures details) = firstError failures (detailsPatterns details)
  | ⟨source, flags, lookbehind, greedy, aliasName, inside⟩ => by
    rw [compileDetails, detailsPatterns, firstError_cons]
    refine errorOf_bind fun pattern => ?_
    rw [errorOf_bind_pure, errorOf_compileInside? inside]

theorem errorOf_compileInside? : ∀ inside : Option InsideDefinition,
    errorOf (compileInside? failures inside) = firstError failures (inside?Patterns inside)
  | none => rfl
  | some inside => by
    rw [compileInside?, inside?Patterns, errorOf_bind_pure, errorOf_compileInside inside]

theorem errorOf_compileInside : ∀ inside : InsideDefinition,
    errorOf (compileInside failures inside) = firstError failures (insidePatterns inside)
  | .named _ => rfl
  | .inline definition => by
    rw [compileInside, insidePatterns, errorOf_bind_pure, errorOf_compile definition]

theorem errorOf_compileRules : ∀ rules : RulesDefinition,
    errorOf (compileRules failures rules) = firstError failures (rulesPatterns rules)
  | .one rule => by
    rw [compileRules, rulesPatterns, errorOf_bind_pure, errorOf_compileRule rule]
  | .many rules => by
    rw [compileRules, rulesPatterns, errorOf_compileRuleList rules]

theorem errorOf_compileRuleList : ∀ rules : List RuleDefinition,
    errorOf (compileRuleList failures rules) = firstError failures (ruleListPatterns rules)
  | [] => rfl
  | rule :: rules => by
    rw [compileRuleList, ruleListPatterns, firstError_append, ← errorOf_compileRule rule]
    refine errorOf_bind fun _ => ?_
    rw [errorOf_bind_pure, errorOf_compileRuleList rules]

theorem errorOf_compileEntries : ∀ entries : List (String × RulesDefinition),
    errorOf (compileEntries failures entries) = firstError failures (entriesPatterns entries)
  | [] => rfl
  | (name, rules) :: entries => by
    rw [compileEntries, entriesPatterns, firstError_append, ← errorOf_compileRules rules]
    refine errorOf_bind fun _ => ?_
    rw [errorOf_bind_pure, errorOf_compileEntries entries]

/-- A definition fails with what the first of its patterns fails with. -/
theorem errorOf_compile : ∀ d : Definition, errorOf (compile failures d) = firstError failures (patterns d)
  | ⟨entries, rest⟩ => by
    rw [compile, patterns, errorOf_bind_pure, errorOf_compileEntries entries]
end

theorem compile_eq_error {d : Definition} {e : GrammarError} :
    compile failures d = .error e ↔
      ∃ before source flags after cause, d.patterns = before ++ (source, flags) :: after ∧
        (∀ p ∈ before, ∃ compiled, Pattern.compile p.1 p.2 failures = .ok compiled) ∧
        Pattern.compile source flags failures = .error cause ∧ e = .malformedPattern source cause := by
  have hnone : ∀ p : String × String, errorOf (compilePattern failures p.1 p.2) = none ↔
      ∃ compiled, Pattern.compile p.1 p.2 failures = .ok compiled := fun p => by
    rw [compilePattern, errorOf_mapError, Option.map_eq_none_iff, errorOf_eq_none]
  have hsome : ∀ source flags, errorOf (compilePattern failures source flags) = some e ↔
      ∃ cause, Pattern.compile source flags failures = .error cause ∧ .malformedPattern source cause = e := by
    intro source flags
    simp only [compilePattern, errorOf_mapError, Option.map_eq_some_iff, errorOf_eq_some]
  rw [← errorOf_eq_some, errorOf_compile, firstError, List.findSome?_eq_some_iff]
  constructor
  · rintro ⟨before, ⟨source, flags⟩, after, hpatterns, herror, hbefore⟩
    obtain ⟨cause, hcause, rfl⟩ := (hsome source flags).mp herror
    exact ⟨before, source, flags, after, cause, hpatterns, fun p hp => (hnone p).mp (hbefore p hp), hcause, rfl⟩
  · rintro ⟨before, source, flags, after, cause, hpatterns, hbefore, hcause, rfl⟩
    exact ⟨before, (source, flags), after, hpatterns, (hsome source flags).mpr ⟨cause, hcause, rfl⟩,
      fun p hp => (hnone p).mpr (hbefore p hp)⟩

/-- A definition fails to compile exactly if some pattern that is written in it does. -/
theorem compile_fails {d : Definition} :
    (∃ e, compile failures d = .error e) ↔
      ∃ p ∈ d.patterns, ∃ cause, Pattern.compile p.1 p.2 failures = .error cause := by
  have hsome : ∀ p : String × String, (errorOf (compilePattern failures p.1 p.2)).isSome ↔
      ∃ cause, Pattern.compile p.1 p.2 failures = .error cause := fun p => by
    simp only [compilePattern, errorOf_mapError, Option.isSome_map, Option.isSome_iff_exists, errorOf_eq_some]
  calc (∃ e, compile failures d = .error e) ↔ (firstError failures d.patterns).isSome := by
        simp only [← errorOf_eq_some, errorOf_compile, Option.isSome_iff_exists]
    _ ↔ ∃ p ∈ d.patterns, (errorOf (compilePattern failures p.1 p.2)).isSome := List.findSome?_isSome_iff
    _ ↔ ∃ p ∈ d.patterns, ∃ cause, Pattern.compile p.1 p.2 failures = .error cause :=
        exists_congr fun p => and_congr_right fun _ => hsome p

end
end Highlight.Definition
