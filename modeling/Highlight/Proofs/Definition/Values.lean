import Highlight.Proofs.Definition.Accepted
import Highlight.Proofs.Definition.Fields

/-! Reading the values of a grammar file. In each of its uses a value is read as what it gives (`agrees`), and is not read
    if it is not of the right shape for it. -/

namespace Highlight
namespace Json
open Definition RuleFields

/-- The rule that a value stands for. -/
def rule? (v : Json) : Option RuleDefinition := v.datum?.bind Definition.rule?

/-- The grammar for the inside of a match that a value stands for. -/
def inside? (v : Json) : Option (Option InsideDefinition) := v.datum?.bind Definition.inside?

/-- The rules that the value of a token name stands for. -/
def rules? (v : Json) : Option RulesDefinition := v.datum?.bind rulesOf?

section
variable {v : Json} {members : List (String × Json)} {items : List Json}

/-! ### Rules -/

theorem bind_eq_some_of {α : Type} {f : Datum → Option α} {x : α} {d : Datum} {w : Json} (hf : ∀ d', f d' = some x ↔ d' = d)
    (hd : v.datum? = some d ↔ v = w) : v.datum?.bind f = some x ↔ v = w := by
  simp only [Option.bind_eq_some_iff, hf, exists_eq_right, hd]

theorem value?_pattern {s : String} : v.value? .pattern = some s ↔ v = .string s :=
  bind_eq_some_of (fun d => by cases d <;> simp [Datum.value?]) datum?_eq_text

theorem value?_flags {s : String} : v.value? .flags = some s ↔ v = .string s :=
  bind_eq_some_of (fun d => by cases d <;> simp [Datum.value?]) datum?_eq_text

theorem value?_lookbehind {b : Bool} : v.value? .lookbehind = some b ↔ v = .bool b :=
  bind_eq_some_of (fun d => by cases d <;> simp [Datum.value?]) datum?_eq_bool

theorem value?_greedy {b : Bool} : v.value? .greedy = some b ↔ v = .bool b :=
  bind_eq_some_of (fun d => by cases d <;> simp [Datum.value?]) datum?_eq_bool

theorem value?_aliasName {name : Option String} : v.value? .aliasName = some name ↔ v = ofName name := by
  cases name with
  | none => exact bind_eq_some_of (fun d => by cases d <;> simp [Datum.value?]) datum?_eq_null
  | some s => exact bind_eq_some_of (fun d => by cases d <;> simp [Datum.value?]) datum?_eq_text

/-- A field that is left out has the value that a given one would have by default. -/
theorem exists_entered {field : RuleField} {given : Option Json} {d : Json} {z y : field.Value} (hd : d.value? field = some z) :
    (∃ known, Entered none known given ∧ known.getD z = y) ↔ (given.getD d).value? field = some y := by
  cases given with
  | none => simp [Entered, hd]
  | some x => simp [Entered]

theorem inside?_null {inside : Option InsideDefinition} : null.inside? = some inside ↔ GivesInside .null inside := by
  constructor
  · rintro ⟨⟩
    exact .none
  · rintro ⟨⟩
    rfl

/-- A value with the fields of a rule is read as the rule that they give. -/
theorem details?_iff {details : RuleDetails} (h : ∀ x ∈ v.parts, ∀ inside, x.inside? = some inside ↔ GivesInside x inside) :
    v.details? = some details ↔ GivesRule v (.detailed details) := by
  have hinside : ∀ inside, ((v.field? .inside).getD .null).value? .inside = some inside ↔
      GivesInside ((v.field? .inside).getD .null) inside := by
    intro inside
    cases hx : v.field? .inside with
    | none => exact inside?_null
    | some x => exact h x (mem_parts hx) inside
  rw [details?_eq_some]
  constructor
  · rintro ⟨hfields, fields, henter, hdetails⟩
    obtain ⟨pattern, hpattern, rfl⟩ := Option.map_eq_some_iff.mp hdetails
    have hgiven : v.field? .pattern = some (.string pattern) := by
      have hentered := henter .pattern
      cases hx : v.field? .pattern with
      | none =>
        rw [hx] at hentered
        cases hpattern.symm.trans hentered
      | some x =>
        rw [hx] at hentered
        obtain ⟨-, s, hs, hknown⟩ := hentered
        obtain rfl := Option.some.inj (hpattern.symm.trans hknown)
        rw [value?_pattern.mp hs]
    exact .fields hfields hgiven (value?_flags.mp ((exists_entered rfl).mp ⟨_, henter .flags, rfl⟩))
      (value?_lookbehind.mp ((exists_entered rfl).mp ⟨_, henter .lookbehind, rfl⟩))
      (value?_greedy.mp ((exists_entered rfl).mp ⟨_, henter .greedy, rfl⟩))
      (value?_aliasName.mp ((exists_entered rfl).mp ⟨_, henter .aliasName, rfl⟩))
      ((hinside _).mp ((exists_entered rfl).mp ⟨_, henter .inside, rfl⟩))
  · obtain ⟨pattern, flags, lookbehind, greedy, aliasName, inside⟩ := details
    rintro (_ | ⟨hfields, hpattern, hflags, hlookbehind, hgreedy, halias, hin⟩)
    obtain ⟨flags, hflags', rfl⟩ := (exists_entered (z := "") rfl).mpr (value?_flags.mpr hflags)
    obtain ⟨lookbehind, hlookbehind', rfl⟩ := (exists_entered (z := false) rfl).mpr (value?_lookbehind.mpr hlookbehind)
    obtain ⟨greedy, hgreedy', rfl⟩ := (exists_entered (z := false) rfl).mpr (value?_greedy.mpr hgreedy)
    obtain ⟨aliasName, halias', rfl⟩ := (exists_entered (z := none) rfl).mpr (value?_aliasName.mpr halias)
    obtain ⟨inside, hin', rfl⟩ := (exists_entered (z := none) rfl).mpr ((hinside _).mpr hin)
    refine ⟨hfields, ⟨some pattern, flags, lookbehind, greedy, aliasName, inside⟩, fun field => ?_, rfl⟩
    cases field with
    | pattern =>
      rw [hpattern]
      exact ⟨rfl, pattern, value?_pattern.mpr rfl, rfl⟩
    | flags => exact hflags'
    | lookbehind => exact hlookbehind'
    | greedy => exact hgreedy'
    | aliasName => exact halias'
    | inside => exact hin'

theorem rule?_array : (array items).rule? = (array items).details?.map .detailed := by
  cases h : datumOfItems? items with
  | none => simp [rule?, details?, datum?, h]
  | some ds => simp [rule?, details?, datum?, h, Definition.rule?]

theorem rule?_object : (object members).rule? = (object members).details?.map .detailed := by
  cases h : datumOfMembers? members with
  | none => simp [rule?, details?, datum?, h]
  | some ds => simp [rule?, details?, datum?, h, Definition.rule?]

theorem bind_number {α : Type} {n : JsonNumber} {f : Datum → Option α} (hf : ∀ d, d.IsNumber → f d = none) :
    (number n).datum?.bind f = none := by
  cases hd : (number n).datum? with
  | none => rfl
  | some d => exact hf d (isNumber_of_datum? hd)

theorem rule?_number {n : JsonNumber} : (number n).rule? = none :=
  bind_number fun d hd => by cases d <;> first | rfl | exact hd.elim

theorem not_givesRule {rule : RuleDefinition} (hv : ∀ s, v ≠ .string s) (hfields : ¬v.HasFields) : ¬GivesRule v rule := by
  rintro (s | ⟨h, -⟩)
  · exact hv s rfl
  · exact hfields h

/-- A value that is no text is read as a rule only if it has the fields of one. -/
theorem rule?_iff {rule : RuleDefinition} (h : ∀ x ∈ v.parts, ∀ inside, x.inside? = some inside ↔ GivesInside x inside) :
    v.rule? = some rule ↔ GivesRule v rule := by
  have hdetails : (∀ s, v ≠ .string s) → (v.details?.map .detailed = some rule ↔ GivesRule v rule) := by
    intro hv
    simp only [Option.map_eq_some_iff, details?_iff h]
    constructor
    · rintro ⟨details, hgives, rfl⟩
      exact hgives
    · intro hgives
      cases hgives with
      | pattern s => exact absurd rfl (hv s)
      | fields hfields hpattern hflags hlookbehind hgreedy halias hin =>
        exact ⟨_, .fields hfields hpattern hflags hlookbehind hgreedy halias hin, rfl⟩
  cases v with
  | string s =>
    constructor
    · rintro ⟨⟩
      exact .pattern s
    · rintro (_ | ⟨⟨⟩⟩)
      rfl
  | array items => exact rule?_array ▸ hdetails (by simp)
  | object members => exact rule?_object ▸ hdetails (by simp)
  | number n =>
    rw [rule?_number]
    exact iff_of_false (by simp) (not_givesRule (by simp) id)
  | null => exact iff_of_false (by simp [rule?, datum?, Definition.rule?]) (not_givesRule (by simp) id)
  | bool b => exact iff_of_false (by simp [rule?, datum?, Definition.rule?]) (not_givesRule (by simp) id)

/-! ### Grammars -/

theorem withRest?_eq_some {language : String} {definition tail : Definition} :
    withRest? language tail = some definition ↔ tail.rest = none ∧ definition = ⟨tail.entries, some language⟩ := by
  unfold withRest?
  split <;> simp_all [eq_comm]

theorem datumOfMembers?_cons {key : String} {ds' : List (Datum × Datum)} :
    datumOfMembers? ((key, v) :: members) = some ds' ↔
      ∃ d, v.datum? = some d ∧ ∃ ds, datumOfMembers? members = some ds ∧ (.text key, d) :: ds = ds' := by
  simp only [datumOfMembers?, Option.bind_eq_bind, Option.bind_eq_some_iff, pure, Option.some.injEq]

theorem ofMembers?_text {key : String} {d : Datum} {ds : List (Datum × Datum)} : ofMembers? ((.text key, d) :: ds) =
    if key = restKey then
      match d with
      | .text language => (ofMembers? ds).bind (withRest? language)
      | _ => none
    else (rulesOf? d).bind fun rules => (ofMembers? ds).map (consEntry key rules) := by
  by_cases hkey : key = restKey
  · rw [if_pos hkey]
    cases d <;> simp [ofMembers?, hkey]
  · rw [if_neg hkey]
    cases d <;> simp only [ofMembers?, if_neg hkey, Option.bind_eq_bind, Option.map_eq_bind, Option.pure_def, Function.comp_def]

theorem bind_ofMembers?_rest {definition : Definition} :
    (datumOfMembers? ((restKey, v) :: members)).bind ofMembers? = some definition ↔
      ∃ language tail, v = .string language ∧ (datumOfMembers? members).bind ofMembers? = some tail ∧ tail.rest = none ∧
        definition = ⟨tail.entries, some language⟩ := by
  simp only [Option.bind_eq_some_iff, datumOfMembers?_cons]
  constructor
  · rintro ⟨_, ⟨d, hd, ds, hds, rfl⟩, h⟩
    rw [ofMembers?_text, if_pos rfl] at h
    split at h
    · obtain ⟨tail, htail, hrest⟩ := Option.bind_eq_some_iff.mp h
      exact ⟨_, tail, datum?_eq_text.mp hd, ⟨ds, hds, htail⟩, withRest?_eq_some.mp hrest⟩
    · cases h
  · rintro ⟨language, tail, rfl, ⟨ds, hds, htail⟩, hrest⟩
    refine ⟨_, ⟨_, rfl, ds, hds, rfl⟩, ?_⟩
    rw [ofMembers?_text, if_pos rfl]
    exact Option.bind_eq_some_iff.mpr ⟨tail, htail, withRest?_eq_some.mpr hrest⟩

theorem bind_ofMembers?_entry {key : String} (hkey : key ≠ restKey) {definition : Definition} :
    (datumOfMembers? ((key, v) :: members)).bind ofMembers? = some definition ↔
      ∃ rules tail, v.rules? = some rules ∧ (datumOfMembers? members).bind ofMembers? = some tail ∧
        definition = consEntry key rules tail := by
  simp only [rules?, Option.bind_eq_some_iff, datumOfMembers?_cons]
  constructor
  · rintro ⟨_, ⟨d, hd, ds, hds, rfl⟩, h⟩
    rw [ofMembers?_text, if_neg hkey] at h
    obtain ⟨rules, hrules, h⟩ := Option.bind_eq_some_iff.mp h
    obtain ⟨tail, htail, rfl⟩ := Option.map_eq_some_iff.mp h
    exact ⟨rules, tail, ⟨d, hd, hrules⟩, ⟨ds, hds, htail⟩, rfl⟩
  · rintro ⟨rules, tail, ⟨d, hd, hrules⟩, ⟨ds, hds, htail⟩, rfl⟩
    refine ⟨_, ⟨d, hd, ds, hds, rfl⟩, ?_⟩
    rw [ofMembers?_text, if_neg hkey, hrules, htail]
    rfl

theorem ofMembers?_iff (h : ∀ m ∈ members, ∀ rules, m.2.rules? = some rules ↔ GivesRules m.2 rules) {definition : Definition} :
    (datumOfMembers? members).bind ofMembers? = some definition ↔ GivesGrammar members definition := by
  induction members generalizing definition with
  | nil => simp [datumOfMembers?, ofMembers?, givesGrammar_nil, eq_comm]
  | cons m members ih =>
    obtain ⟨key, v⟩ := m
    obtain ⟨hv, hmembers⟩ := List.forall_mem_cons.mp h
    by_cases hkey : key = restKey
    · subst hkey
      simp only [bind_ofMembers?_rest, givesGrammar_rest, ih hmembers]
    · simp only [bind_ofMembers?_entry hkey, givesGrammar_entry hkey, ih hmembers, hv]

theorem inside?_iff (h : ∀ x ∈ v.parts, ∀ rules, x.rules? = some rules ↔ GivesRules x rules)
    {inside : Option InsideDefinition} : v.inside? = some inside ↔ GivesInside v inside := by
  cases v with
  | null => exact inside?_null
  | string language =>
    constructor
    · rintro ⟨⟩
      exact .named language
    · rintro ⟨⟩
      rfl
  | object members =>
    have hof : (object members).inside? = ((datumOfMembers? members).bind ofMembers?).map fun d => some (.inline d) := by
      cases hds : datumOfMembers? members <;> simp [inside?, datum?, hds, Definition.inside?]
    simp only [hof, Option.map_eq_some_iff, ofMembers?_iff (List.forall_mem_map.mp h)]
    constructor
    · rintro ⟨definition, hgives, rfl⟩
      exact .inline hgives
    · rintro (_ | _ | hgives)
      exact ⟨_, hgives, rfl⟩
  | number n =>
    have hnone : (number n).inside? = none := bind_number fun d hd => by cases d <;> first | rfl | exact hd.elim
    rw [hnone]
    exact iff_of_false (by simp) fun h => by cases h
  | array items =>
    have hnone : (array items).inside? = none := by
      cases hds : datumOfItems? items <;> simp [inside?, datum?, hds, Definition.inside?]
    rw [hnone]
    exact iff_of_false (by simp) fun h => by cases h
  | bool b => exact iff_of_false (by simp [inside?, datum?, Definition.inside?]) fun h => by cases h

/-! ### Rules under a token name -/

theorem ruleList?_iff (h : ∀ x ∈ items, ∀ rule, x.rule? = some rule ↔ GivesRule x rule) {rules : List RuleDefinition} :
    (datumOfItems? items).bind ruleList? = some rules ↔ List.Forall₂ GivesRule items rules := by
  induction items generalizing rules with
  | nil => simp [datumOfItems?, ruleList?, eq_comm]
  | cons v items ih =>
    obtain ⟨hv, hitems⟩ := List.forall_mem_cons.mp h
    rw [List.forall₂_cons_left_iff]
    simp only [← hv, ← ih hitems, rule?, datumOfItems?, Option.bind_eq_bind, Option.bind_eq_some_iff, pure, Option.some.injEq]
    constructor
    · rintro ⟨_, ⟨d, hd, ds, hds, rfl⟩, hrules⟩
      simp only [ruleList?, Option.bind_eq_bind, Option.bind_eq_some_iff, pure, Option.some.injEq] at hrules
      obtain ⟨rule, hrule, rules, hrules, rfl⟩ := hrules
      exact ⟨rule, rules, ⟨d, hd, hrule⟩, ⟨ds, hds, hrules⟩, rfl⟩
    · rintro ⟨rule, rules, ⟨d, hd, hrule⟩, ⟨ds, hds, hrules⟩, rfl⟩
      refine ⟨_, ⟨d, hd, ds, hds, rfl⟩, ?_⟩
      simp only [ruleList?, Option.bind_eq_bind, hrule, hrules, Option.bind_some, pure]

/-- Items are read as rules, all of them, unless one of them is none. -/
theorem ruleList?_eq_none_iff (h : ∀ x ∈ items, ∀ rule, x.rule? = some rule ↔ GivesRule x rule) :
    (datumOfItems? items).bind ruleList? = none ↔ ∃ x ∈ items, ¬x.IsRule := by
  simp only [Option.eq_none_iff_forall_ne_some, ne_eq, ruleList?_iff h, ← not_exists, exists_forall₂, ← (accepted _).rule]
  simp only [not_forall, exists_prop]

theorem rules?_array {rules : RulesDefinition} : (array items).rules? = some rules ↔
    (∃ list, (datumOfItems? items).bind ruleList? = some list ∧ rules = .many list) ∨
      (datumOfItems? items).bind ruleList? = none ∧ ∃ rule, (array items).rule? = some rule ∧ rules = .one rule := by
  cases hds : datumOfItems? items with
  | none => simp [rules?, rule?, datum?, hds]
  | some ds =>
    cases hlist : ruleList? ds with
    | none =>
      cases hone : positional? {} RuleField.all ds <;>
        simp [rules?, rule?, datum?, hds, rulesOf?, Definition.rule?, hlist, hone, eq_comm]
    | some list => simp [rules?, rule?, datum?, hds, rulesOf?, hlist, eq_comm]

theorem rules?_of_ne_array (hv : ∀ items, v ≠ .array items) : v.rules? = v.rule?.map .one := by
  cases v with
  | array items => exact absurd rfl (hv items)
  | object members => cases hds : datumOfMembers? members <;> simp [rules?, rule?, datum?, hds, rulesOf?, Definition.rule?, Function.comp_def]
  | number n =>
    rw [rule?_number]
    exact bind_number fun d hd => by cases d <;> first | rfl | exact hd.elim
  | _ => rfl

/-- An array is read as one rule only if not all of its items are rules. -/
theorem rules?_iff (hv : ∀ rule, v.rule? = some rule ↔ GivesRule v rule)
    (h : ∀ x ∈ v.parts, ∀ rule, x.rule? = some rule ↔ GivesRule x rule) {rules : RulesDefinition} :
    v.rules? = some rules ↔ GivesRules v rules := by
  by_cases harray : ∃ items, v = .array items
  · obtain ⟨items, rfl⟩ := harray
    have hitems : ∀ x ∈ items, ∀ rule, x.rule? = some rule ↔ GivesRule x rule := h
    simp only [rules?_array, ruleList?_iff hitems, ruleList?_eq_none_iff hitems, hv]
    constructor
    · rintro (⟨list, hlist, rfl⟩ | ⟨hnot, rule, hrule, rfl⟩)
      · exact .many hlist
      · exact .one hrule fun _ heq => array.inj heq ▸ hnot
    · rintro (hlist | ⟨hrule, hnot⟩)
      · exact Or.inl ⟨_, hlist, rfl⟩
      · exact Or.inr ⟨hnot _ rfl, _, hrule, rfl⟩
  · have hne : ∀ items, v ≠ .array items := fun items heq => harray ⟨items, heq⟩
    simp only [rules?_of_ne_array hne, Option.map_eq_some_iff, hv]
    constructor
    · rintro ⟨rule, hrule, rfl⟩
      exact .one hrule fun items heq => absurd heq (hne items)
    · rintro (_ | ⟨hrule, -⟩)
      · exact absurd rfl (hne _)
      · exact ⟨_, hrule, rfl⟩

/-- A value is read as what it gives, in each of its uses. -/
structure Agrees (v : Json) : Prop where
  rule : ∀ rule, v.rule? = some rule ↔ GivesRule v rule
  inside : ∀ inside, v.inside? = some inside ↔ GivesInside v inside
  rules : ∀ rules, v.rules? = some rules ↔ GivesRules v rules

theorem agrees (v : Json) : Agrees v := by
  refine byParts (fun v ih => ?_) v
  have hrule : ∀ rule, v.rule? = some rule ↔ GivesRule v rule := fun rule => rule?_iff fun x hx => (ih x hx).inside
  exact ⟨hrule, fun inside => inside?_iff fun x hx => (ih x hx).rules,
    fun rules => rules?_iff hrule fun x hx => (ih x hx).rule⟩

end
end Json
end Highlight
