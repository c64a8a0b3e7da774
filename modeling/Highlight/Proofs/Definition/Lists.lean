import Mathlib.Logic.Relation
import Highlight.Definition.File
import Highlight.Proofs.Definition.JsonFile

/-! Lists under a token name, at any depth. The members of a mapping that name tokens and the definition that is read from it
    make up a level, and the levels of a file are those of the whole file and of the grammars for the inside of a match. On
    each level a list is read as one rule if its third item is a truth value, and as the list of its items otherwise
    (`Definition.read_lists`). -/

namespace Highlight

/-! ### Fields that a value has -/

/-- The values that are given for the fields of a rule: those of a list by their places, those of a mapping by their keys. -/
def Datum.fields : Datum → List (RuleField × Datum)
  | .list items => RuleField.all.zip items
  | .mapping members => members.filterMap fun m => (RuleField.ofKey? m.1).map (·, m.2)
  | _ => []

namespace RuleFields
variable {fields known : RuleFields} {field other : RuleField} {d : Datum}

/-- What is known of a field once the values are entered: the one that is given for it, or what was known before. -/
def Given (before after : Option field.Value) : Option Datum → Prop
  | none => after = before
  | some d => before = none ∧ ∃ x, d.value? field = some x ∧ after = some x

def enterEach? (fields : RuleFields) (values : List (RuleField × Datum)) : Option RuleFields :=
  values.foldlM (fun fields m => fields.enterAny? m.1 m.2) fields

theorem enterEach?_cons {values : List (RuleField × Datum)} : fields.enterEach? ((field, d) :: values) = some known ↔
    ∃ x, d.value? field = some x ∧ fields.get field = none ∧ (fields.set field x).enterEach? values = some known := by
  simp only [enterEach?, List.foldlM_cons, enterAny?_eq, Option.bind_eq_bind, Option.bind_eq_some_iff, put?_eq_some]
  constructor
  · rintro ⟨_, ⟨x, hx, hnone, rfl⟩, h⟩
    exact ⟨x, hx, hnone, h⟩
  · rintro ⟨x, hx, hnone, h⟩
    exact ⟨_, ⟨x, hx, hnone, rfl⟩, h⟩

theorem given_of_enterEach? {values : List (RuleField × Datum)} (h : fields.enterEach? values = some known)
    (field : RuleField) : Given (fields.get field) (known.get field) (values.lookup field) := by
  induction values generalizing fields with
  | nil =>
    obtain rfl := Option.some.inj h
    rfl
  | cons m values ih =>
    obtain ⟨other, d⟩ := m
    obtain ⟨x, hx, hnone, h⟩ := enterEach?_cons.mp h
    have htail := ih h
    rw [List.lookup_cons]
    by_cases heq : field = other
    · subst heq
      rw [get_set_self] at htail
      rw [beq_self_eq_true]
      -- The field is known by now, so that no further value is for it.
      cases hlookup : values.lookup field with
      | none =>
        rw [hlookup] at htail
        exact ⟨hnone, x, hx, htail⟩
      | some e =>
        rw [hlookup] at htail
        cases htail.1
    · rw [beq_eq_false_iff_ne.mpr heq]
      exact get_set_of_ne heq x ▸ htail

end RuleFields

namespace Definition
open RuleFields
variable {fields : RuleFields} {details : RuleDetails} {v : Datum}

theorem enterEach?_of_positional? {places : List RuleField} {items : List Datum}
    (h : positional? fields places items = some details) :
    ∃ known, fields.enterEach? (places.zip items) = some known ∧ known.details? = some details := by
  induction items generalizing fields places with
  | nil =>
    rw [List.zip_nil_right]
    exact ⟨fields, rfl, by rwa [positional?] at h⟩
  | cons d items ih =>
    cases places with
    | nil => simp [positional?] at h
    | cons field places =>
      rw [positional?_cons, enterAny?_eq] at h
      obtain ⟨entered, hentered, h⟩ := Option.bind_eq_some_iff.mp h
      obtain ⟨x, hx, hput⟩ := Option.bind_eq_some_iff.mp hentered
      obtain ⟨hnone, rfl⟩ := put?_eq_some.mp hput
      obtain ⟨known, hknown, hdetails⟩ := ih h
      exact ⟨known, enterEach?_cons.mpr ⟨x, hx, hnone, hknown⟩, hdetails⟩

theorem enterEach?_of_named? {members : List (Datum × Datum)} (h : named? fields members = some details) :
    ∃ known, fields.enterEach? (Datum.mapping members).fields = some known ∧ known.details? = some details := by
  induction members generalizing fields with
  | nil => exact ⟨fields, rfl, by rwa [named?] at h⟩
  | cons m members ih =>
    obtain ⟨key, d⟩ := m
    rw [named?_cons] at h
    obtain ⟨field, hfield, h⟩ := Option.bind_eq_some_iff.mp h
    rw [enterAny?_eq] at h
    obtain ⟨entered, hentered, h⟩ := Option.bind_eq_some_iff.mp h
    obtain ⟨x, hx, hput⟩ := Option.bind_eq_some_iff.mp hentered
    obtain ⟨hnone, rfl⟩ := put?_eq_some.mp hput
    obtain ⟨known, hknown, hdetails⟩ := ih h
    refine ⟨known, ?_, hdetails⟩
    rw [Datum.fields, List.filterMap_cons_some (by rw [hfield]; rfl)]
    exact enterEach?_cons.mpr ⟨x, hx, hnone, hknown⟩

/-- The fields of a rule with options are those that its value has. -/
theorem given_of_rule? (h : rule? v = some (.detailed details)) :
    ∃ known : RuleFields, (∀ field, Given none (known.get field) (v.fields.lookup field)) ∧ known.details? = some details := by
  have hknown : ∃ known, ({} : RuleFields).enterEach? v.fields = some known ∧ known.details? = some details := by
    cases v with
    | list items =>
      rw [rule?] at h
      obtain ⟨details', hpositional, ⟨⟩⟩ := Option.map_eq_some_iff.mp h
      exact enterEach?_of_positional? hpositional
    | mapping members =>
      rw [rule?] at h
      obtain ⟨details', hnamed, ⟨⟩⟩ := Option.map_eq_some_iff.mp h
      exact enterEach?_of_named? hnamed
    | _ => simp [rule?] at h
  obtain ⟨known, henter, hdetails⟩ := hknown
  refine ⟨known, fun field => ?_, hdetails⟩
  have hgiven := given_of_enterEach? henter field
  rwa [get_empty] at hgiven

/-- The inside of a rule's matches is what its value has for that, and nothing if it has nothing. -/
theorem inside_of_rule? (h : rule? v = some (.detailed details)) :
    (details.inside = none ∧ v.fields.lookup .inside = none) ∨
      ∃ x, v.fields.lookup .inside = some x ∧ inside? x = some details.inside := by
  obtain ⟨known, hgiven, hdetails⟩ := given_of_rule? h
  obtain ⟨pattern, -, rfl⟩ := Option.map_eq_some_iff.mp hdetails
  have hinside := hgiven .inside
  cases hlookup : v.fields.lookup .inside with
  | none =>
    rw [hlookup] at hinside
    exact .inl ⟨congrArg (Option.getD · none) hinside, rfl⟩
  | some x =>
    rw [hlookup] at hinside
    obtain ⟨-, inside, hvalue, hknown⟩ := hinside
    exact .inr ⟨x, rfl, hvalue.trans (congrArg some (congrArg (Option.getD · none) hknown).symm)⟩

/-! ### Lists of rules -/

section
variable {items : List Datum} {rules : RulesDefinition}

theorem ruleList?_eq_some {list : List RuleDefinition} :
    ruleList? items = some list ↔ List.Forall₂ (fun item rule => rule? item = some rule) items list := by
  induction items generalizing list with
  | nil => simp [ruleList?, eq_comm]
  | cons item items ih =>
    rw [List.forall₂_cons_left_iff]
    simp only [ruleList?, Option.bind_eq_bind, Option.bind_eq_some_iff, pure, Option.some.injEq, ih]
    constructor
    · rintro ⟨rule, hrule, list, hlist, rfl⟩
      exact ⟨rule, list, hrule, hlist, rfl⟩
    · rintro ⟨rule, list, hrule, hlist, rfl⟩
      exact ⟨rule, hrule, list, hlist, rfl⟩

/-- The third place is that of a truth value. -/
theorem lookup_lookbehind : (RuleField.all.zip items).lookup .lookbehind = items[2]? := by
  rcases items with _ | ⟨_, _ | ⟨_, _ | ⟨_, _⟩⟩⟩ <;> rfl

theorem exists_bool_of_rule? (h : rule? (.list items) = some (.detailed details)) {x : Datum} (hx : items[2]? = some x) :
    ∃ b, x = .bool b := by
  obtain ⟨known, hgiven, -⟩ := given_of_rule? h
  have hlookbehind := hgiven .lookbehind
  rw [Datum.fields, lookup_lookbehind, hx] at hlookbehind
  obtain ⟨-, b, hb, -⟩ := hlookbehind
  cases x <;> simp [Datum.value?] at hb
  exact ⟨_, rfl⟩

/-- A list of a pattern, or of a pattern and its flags, is also a list of bare rules. -/
theorem exists_ruleList?_of_short (h : rule? (.list items) = some (.detailed details)) (hlength : items[2]? = none) :
    ∃ list, ruleList? items = some list := by
  obtain ⟨known, hgiven, hdetails⟩ := given_of_rule? h
  have htext : ∀ {d : Datum} {s : String}, d.value? .pattern = some s ∨ d.value? .flags = some s → rule? d = some (.bare s) := by
    rintro d s (hd | hd) <;> cases d <;> simp_all [Datum.value?, rule?]
  rcases items with _ | ⟨pattern, _ | ⟨flags, _ | ⟨third, more⟩⟩⟩
  · exact ⟨[], rfl⟩
  · obtain ⟨-, s, hs, -⟩ := hgiven .pattern
    exact ⟨[.bare s], ruleList?_eq_some.mpr (.cons (htext (.inl hs)) .nil)⟩
  · obtain ⟨-, s, hs, -⟩ := hgiven .pattern
    obtain ⟨-, t, ht, -⟩ := hgiven .flags
    exact ⟨[.bare s, .bare t], ruleList?_eq_some.mpr (.cons (htext (.inl hs)) (.cons (htext (.inr ht)) .nil))⟩
  · cases hlength

/-- How a list under a token name is read: as one rule if its third item is a truth value, and otherwise as its items. -/
inductive ListRead (items : List Datum) : RulesDefinition → Prop
  | items {list : List RuleDefinition} : (∀ b, items[2]? ≠ some (.bool b)) →
      List.Forall₂ (fun item rule => rule? item = some rule) items list → ListRead items (.many list)
  | positional {b : Bool} {details : RuleDetails} : items[2]? = some (.bool b) →
      rule? (.list items) = some (.detailed details) → ListRead items (.one (.detailed details))

theorem listRead_of_rulesOf? (h : rulesOf? (.list items) = some rules) : ListRead items rules := by
  rw [rulesOf?] at h
  split at h
  next list hlist =>
    obtain rfl := Option.some.inj h
    have hrules := ruleList?_eq_some.mp hlist
    refine .items (fun b hb => ?_) hrules
    -- A truth value is no rule.
    obtain ⟨rule, hrule⟩ := Json.exists_forall₂.mp ⟨list, hrules⟩ _ (List.mem_of_getElem? hb)
    cases hrule
  next hlist =>
    obtain ⟨details, hpositional, rfl⟩ := Option.map_eq_some_iff.mp h
    have hrule : rule? (.list items) = some (.detailed details) := by rw [rule?, hpositional]; rfl
    cases hthird : items[2]? with
    | none =>
      obtain ⟨list, hsome⟩ := exists_ruleList?_of_short hrule hthird
      cases hlist.symm.trans hsome
    | some x =>
      obtain ⟨b, rfl⟩ := exists_bool_of_rule? hrule hthird
      exact .positional hthird hrule

end

end Definition

/-- The text that a value is, as the key of a YAML mapping has to be one. -/
def Datum.text? : Datum → Option String
  | .text s => some s
  | _ => none

namespace Definition

/-! ### Levels -/

open Json (ofMembers?_text withRest?_eq_some)

section
variable {κ ν : Type} {name? : κ → Option String} {datum? : ν → Option Datum} {members : List (κ × ν)}
  {tokens : List (String × Datum)} {definition : Definition} {k : κ} {value : ν} {name : String} {d : Datum}
  {rules : RulesDefinition}

/-- The members of a mapping that name tokens, each with its value: all but one that names the language whose entries
    follow. -/
def TokensOf (name? : κ → Option String) (datum? : ν → Option Datum) (members : List (κ × ν))
    (tokens : List (String × Datum)) : Prop :=
  List.Forall₂ (fun member token => name? member.1 = some token.1 ∧ datum? member.2 = some token.2)
    (members.filter (name? ·.1 ≠ some restKey)) tokens

theorem tokensOf_rest (hname : name? k = some restKey) (h : TokensOf name? datum? members tokens) :
    TokensOf name? datum? ((k, value) :: members) tokens := by
  rwa [TokensOf, List.filter_cons_of_neg (by simp [hname])]

theorem tokensOf_cons (hname : name? k = some name) (hne : name ≠ restKey) (hd : datum? value = some d)
    (h : TokensOf name? datum? members tokens) : TokensOf name? datum? ((k, value) :: members) ((name, d) :: tokens) := by
  rw [TokensOf, List.filter_cons_of_pos (by simp [hname, hne])]
  exact .cons ⟨hname, hd⟩ h

theorem tokensOf_unique {tokens' : List (String × Datum)} (h : TokensOf name? datum? members tokens)
    (h' : TokensOf name? datum? members tokens') : tokens = tokens' := by
  refine List.right_unique_forall₂' (fun member token token' ht ht' => ?_) h h'
  exact Prod.ext (Option.some.inj (ht.1.symm.trans ht'.1)) (Option.some.inj (ht.2.symm.trans ht'.2))

end

/-- What is written under the token names of a mapping, and the definition that is read from the mapping. -/
structure Level where
  tokens : List (String × Datum)
  definition : Definition

/-- The value from which each rule of a token name is read: the value of the name itself, or an item of it. -/
inductive RuleAt : Datum → RulesDefinition → Datum → RuleDefinition → Prop
  | one (v : Datum) (rule : RuleDefinition) : RuleAt v (.one rule) v rule
  | many {items : List Datum} {list : List RuleDefinition} {item : Datum} {rule : RuleDefinition} :
      (item, rule) ∈ items.zip list → RuleAt (.list items) (.many list) item rule

namespace Level

/-- The level inside the matches of a rule. -/
inductive Inside : Level → Level → Prop
  | rule {level : Level} {token : String × Datum} {entry : String × RulesDefinition} {v : Datum} {details : RuleDetails}
      {members : List (Datum × Datum)} {tokens : List (String × Datum)} {definition : Definition} :
      (token, entry) ∈ level.tokens.zip level.definition.entries → RuleAt token.2 entry.2 v (.detailed details) →
      v.fields.lookup .inside = some (.mapping members) → details.inside = some (.inline definition) →
      TokensOf Datum.text? some members tokens → Inside level ⟨tokens, definition⟩

/-- The entries of the definition are read from what is written under the token names, one by one. -/
def Read (level : Level) : Prop :=
  List.Forall₂ (fun token entry => token.1 = entry.1 ∧ rulesOf? token.2 = some entry.2) level.tokens level.definition.entries

end Level

/-! ### Reading a level -/

section
variable {κ ν : Type} {name? : κ → Option String} {datum? : ν → Option Datum} {members : List (κ × ν)}
  {definition tail : Definition} {k : κ} {value : ν} {name : String} {d : Datum} {rules : RulesDefinition}

/-- The members of a mapping make up a level with a definition. -/
def LevelOf (name? : κ → Option String) (datum? : ν → Option Datum) (members : List (κ × ν))
    (definition : Definition) : Prop :=
  ∃ tokens, TokensOf name? datum? members tokens ∧ Level.Read ⟨tokens, definition⟩

theorem levelOf_nil (h : definition.entries = []) : LevelOf name? datum? [] definition :=
  ⟨[], .nil, by rw [Level.Read, h]; exact .nil⟩

theorem levelOf_rest (h : LevelOf name? datum? members tail) (hname : name? k = some restKey)
    (hentries : definition.entries = tail.entries) : LevelOf name? datum? ((k, value) :: members) definition := by
  obtain ⟨tokens, htokens, hread⟩ := h
  exact ⟨tokens, tokensOf_rest hname htokens, by rwa [Level.Read, hentries]⟩

theorem levelOf_entry (h : LevelOf name? datum? members tail) (hname : name? k = some name) (hne : name ≠ restKey)
    (hd : datum? value = some d) (hrules : rulesOf? d = some rules) :
    LevelOf name? datum? ((k, value) :: members) (consEntry name rules tail) := by
  obtain ⟨tokens, htokens, hread⟩ := h
  exact ⟨(name, d) :: tokens, tokensOf_cons hname hne hd htokens, .cons ⟨rfl, hrules⟩ hread⟩

end

theorem levelOf_of_ofMembers? {members : List (Datum × Datum)} {definition : Definition}
    (h : ofMembers? members = some definition) :
    LevelOf Datum.text? some members definition := by
  induction members generalizing definition with
  | nil =>
    rw [ofMembers?] at h
    obtain rfl := Option.some.inj h
    exact levelOf_nil rfl
  | cons m members ih =>
    obtain ⟨key, d⟩ := m
    cases key with
    | text key =>
      rw [ofMembers?_text] at h
      split at h
      next hkey =>
        subst hkey
        split at h
        next language =>
          obtain ⟨tail, htail, hrest⟩ := Option.bind_eq_some_iff.mp h
          obtain ⟨-, rfl⟩ := withRest?_eq_some.mp hrest
          exact levelOf_rest (ih htail) rfl rfl
        next => cases h
      next hkey =>
        obtain ⟨rules, hrules, h⟩ := Option.bind_eq_some_iff.mp h
        obtain ⟨tail, htail, rfl⟩ := Option.map_eq_some_iff.mp h
        exact levelOf_entry (ih htail) rfl hkey rfl hrules
    | _ => simp [ofMembers?] at h

theorem exists_mem_zip {α β : Type} {R : α → β → Prop} {as : List α} {bs : List β} (h : List.Forall₂ R as bs) {b : β}
    (hb : b ∈ bs) : ∃ a, (a, b) ∈ as.zip bs := by
  have hunzip : bs = (as.zip bs).map Prod.snd := (List.map_snd_zip h.length_eq.ge).symm
  rw [hunzip] at hb
  obtain ⟨⟨a, _⟩, hmem, rfl⟩ := List.mem_map.mp hb
  exact ⟨a, hmem⟩

/-- Each rule is read from its value. -/
theorem rule?_of_ruleAt {v value : Datum} {rules : RulesDefinition} {rule : RuleDefinition} (hrules : rulesOf? v = some rules)
    (h : RuleAt v rules value rule) : rule? value = some rule := by
  cases h with
  | one v rule =>
    cases v with
    | list items =>
      cases listRead_of_rulesOf? hrules with
      | positional _ hrule => exact hrule
    | text pattern =>
      cases hrules
      rfl
    | mapping members =>
      rw [rulesOf?] at hrules
      obtain ⟨details, hnamed, ⟨⟩⟩ := Option.map_eq_some_iff.mp hrules
      rw [rule?, hnamed]
      rfl
    | _ => simp [rulesOf?] at hrules
  | many hmem =>
    cases listRead_of_rulesOf? hrules with
    | items _ hlist => exact (List.forall₂_iff_zip.mp hlist).2 hmem

theorem exists_ruleAt {v : Datum} {rules : RulesDefinition} {rule : RuleDefinition} (hrules : rulesOf? v = some rules)
    (h : rule ∈ rules.toList) : ∃ value, RuleAt v rules value rule := by
  cases rules with
  | one first =>
    obtain rfl := List.mem_singleton.mp h
    exact ⟨v, .one v rule⟩
  | many list =>
    cases v with
    | list items =>
      cases listRead_of_rulesOf? hrules with
      | items _ hlist =>
        obtain ⟨item, hmem⟩ := exists_mem_zip hlist h
        exact ⟨item, .many hmem⟩
    | mapping members =>
      rw [rulesOf?] at hrules
      obtain ⟨details, -, ⟨⟩⟩ := Option.map_eq_some_iff.mp hrules
    | _ => simp [rulesOf?] at hrules

namespace Level
variable {level inner : Level}

theorem Read.rule? (h : level.Read) {token : String × Datum} {entry : String × RulesDefinition}
    (hentry : (token, entry) ∈ level.tokens.zip level.definition.entries) {v : Datum} {rule : RuleDefinition}
    (hrule : RuleAt token.2 entry.2 v rule) : Definition.rule? v = some rule :=
  rule?_of_ruleAt ((List.forall₂_iff_zip.mp h).2 hentry).2 hrule

theorem levelOf_of_inside? {v : Datum} {details : RuleDetails} {definition : Definition}
    (hrule : Definition.rule? v = some (.detailed details)) (hinside : details.inside = some (.inline definition)) :
    ∃ members, v.fields.lookup .inside = some (.mapping members) ∧ LevelOf Datum.text? some members definition := by
  rcases inside_of_rule? hrule with ⟨hnone, -⟩ | ⟨x, hx, hvalue⟩
  · cases hnone.symm.trans hinside
  · rw [hinside] at hvalue
    cases x with
    | mapping members =>
      rw [inside?] at hvalue
      obtain ⟨_, hmembers, ⟨⟩⟩ := Option.map_eq_some_iff.mp hvalue
      exact ⟨members, hx, levelOf_of_ofMembers? hmembers⟩
    | _ => simp [inside?] at hvalue

/-- The level inside the matches of a rule is read as the one around it is. -/
theorem Read.inside (h : level.Read) (hinside : Inside level inner) : inner.Read := by
  obtain ⟨hentry, hrule, hx, hinline, htokens⟩ := hinside
  obtain ⟨members, hmembers, tokens, htokens', hread⟩ := levelOf_of_inside? (h.rule? hentry hrule) hinline
  obtain ⟨rfl⟩ := Option.some.inj (hx.symm.trans hmembers)
  exact tokensOf_unique htokens' htokens ▸ hread

theorem Read.reached (h : level.Read) (hreached : Relation.ReflTransGen Inside level inner) : inner.Read := by
  induction hreached with
  | refl => exact h
  | tail _ hstep ih => exact ih.inside hstep

theorem Read.exists_inside (h : level.Read) {entry : String × RulesDefinition} (hentry : entry ∈ level.definition.entries)
    {details : RuleDetails} (hdetails : .detailed details ∈ entry.2.toList) {definition : Definition}
    (hinline : details.inside = some (.inline definition)) : ∃ tokens, Inside level ⟨tokens, definition⟩ := by
  obtain ⟨token, hmem⟩ := exists_mem_zip h hentry
  have hrules := ((List.forall₂_iff_zip.mp h).2 hmem).2
  obtain ⟨v, hrule⟩ := exists_ruleAt hrules hdetails
  obtain ⟨members, hmembers, tokens, htokens, -⟩ := levelOf_of_inside? (rule?_of_ruleAt hrules hrule) hinline
  exact ⟨tokens, .rule hmem hrule hmembers hinline htokens⟩

/-- All that stands within the definition of a level is the definition of a level inside. -/
theorem Read.exists_reached {tokens : List (String × Datum)} {definition inner : Definition} (h : Level.Read ⟨tokens, definition⟩)
    (hw : inner.Within definition) :
    ∃ innerTokens, Relation.ReflTransGen Inside ⟨tokens, definition⟩ ⟨innerTokens, inner⟩ := by
  induction hw generalizing tokens with
  | self => exact ⟨tokens, .refl⟩
  | inside hentry hdetails hinline _ ih =>
    obtain ⟨tokens', hstep⟩ := h.exists_inside hentry hdetails hinline
    obtain ⟨innerTokens, hreached⟩ := ih (h.inside hstep)
    exact ⟨innerTokens, .head hstep hreached⟩

theorem Read.lists (h : level.Read) : List.Forall₂ (fun token entry => token.1 = entry.1 ∧
    ∀ items, token.2 = .list items → ListRead items entry.2) level.tokens level.definition.entries :=
  h.imp fun _ _ hentry => ⟨hentry.1, fun _ hitems => listRead_of_rulesOf? (hitems ▸ hentry.2)⟩

end Level

/-! ### Files -/

theorem levelOf_of_givesGrammar {members : List (String × Json)} {definition : Definition}
    (h : Json.GivesGrammar members definition) : LevelOf some Json.datum? members definition := by
  induction members generalizing definition with
  | nil => exact levelOf_nil (Json.givesGrammar_nil.mp h ▸ rfl)
  | cons m members ih =>
    obtain ⟨key, v⟩ := m
    by_cases hkey : key = restKey
    · subst hkey
      obtain ⟨language, tail, -, htail, -, rfl⟩ := Json.givesGrammar_rest.mp h
      exact levelOf_rest (ih htail) rfl rfl
    · obtain ⟨rules, tail, hrules, htail, rfl⟩ := (Json.givesGrammar_entry hkey).mp h
      obtain ⟨d, hd, hrules⟩ := Option.bind_eq_some_iff.mp (((Json.agrees v).rules rules).mpr hrules)
      exact levelOf_entry (ih htail) rfl hkey hd hrules

theorem levelOf_of_ofYamlMembers? {members : List (Yaml.Node × Yaml.Node)} {definition : Definition}
    (h : ofYamlMembers? members = some definition) : LevelOf Yaml.Node.text? Yaml.Node.datum? members definition := by
  induction members generalizing definition with
  | nil =>
    rw [ofYamlMembers?] at h
    exact levelOf_nil (Option.some.inj h ▸ rfl)
  | cons m members ih =>
    obtain ⟨key, value⟩ := m
    rw [ofYamlMembers?] at h
    obtain ⟨name, hname, h⟩ := Option.bind_eq_some_iff.mp h
    split at h
    next hkey =>
      subst hkey
      obtain ⟨tail, htail, h⟩ := Option.bind_eq_some_iff.mp h
      obtain ⟨language, -, hrest⟩ := Option.bind_eq_some_iff.mp h
      obtain ⟨-, rfl⟩ := withRest?_eq_some.mp hrest
      exact levelOf_rest (ih htail) hname rfl
    next hkey =>
      obtain ⟨d, hd, h⟩ := Option.bind_eq_some_iff.mp h
      obtain ⟨rules, hrules, h⟩ := Option.bind_eq_some_iff.mp h
      obtain ⟨tail, htail, ⟨⟩⟩ := Option.bind_eq_some_iff.mp h
      exact levelOf_entry (ih htail) hname hkey hd hrules

end Definition

open Definition

/-- What a grammar file has under its token names, in its order. A file in YAML may have no content. -/
inductive FileLanguage.Tokens : FileLanguage → String → List (String × Datum) → Prop
  | json {source : String} {members : List (String × Json)} {tokens : List (String × Datum)} :
      Json.read? source.toList = some (.object members) → TokensOf some Json.datum? members tokens → Tokens .json source tokens
  | yaml {source : String} {members : List (Yaml.Node × Yaml.Node)} {tag : Option String} {tokens : List (String × Datum)} :
      Yaml.Node.ofText? source.toList = some (some (.mapping members tag)) →
      TokensOf Yaml.Node.text? Yaml.Node.datum? members tokens → Tokens .yaml source tokens
  | blank {source : String} {content : Option Yaml.Node} : Yaml.Node.ofText? source.toList = some content →
      (∀ node ∈ content, ∃ tag, node = .scalar "" true tag) → Tokens .yaml source []

namespace Definition

theorem exists_level {language : FileLanguage} {source : String} {definition : Definition}
    (h : read language source = .ok definition) :
    ∃ tokens, language.Tokens source tokens ∧ Level.Read ⟨tokens, definition⟩ := by
  cases language with
  | json =>
    have hread : readJson source = .ok definition := mapError_eq_ok h
    obtain ⟨members, hdocument, -, hgives⟩ := readJson_eq_ok.mp hread
    obtain ⟨tokens, htokens, hlevel⟩ := levelOf_of_givesGrammar hgives
    exact ⟨tokens, .json (Json.read?_eq_some.mpr hdocument) htokens, hlevel⟩
  | yaml =>
    have hread : readYaml source = .ok definition := mapError_eq_ok h
    rw [readYaml] at hread
    split at hread
    next hdocument =>
      cases hread
      obtain ⟨content, hcontent, hyaml⟩ := Option.bind_eq_some_iff.mp hdocument
      unfold ofYaml? at hyaml
      split at hyaml
      next =>
        cases hyaml
        exact ⟨[], .blank hcontent (by simp), .nil⟩
      next =>
        cases hyaml
        exact ⟨[], .blank hcontent (by simp), .nil⟩
      next =>
        obtain ⟨tokens, htokens, hlevel⟩ := levelOf_of_ofYamlMembers? hyaml
        exact ⟨tokens, .yaml hcontent htokens, hlevel⟩
      next => cases hyaml
    next => cases hread

/-- On each level of a grammar file that is read, each entry of the definition belongs to a token name of the file, and a
    list under the name is one rule if its third item is a truth value, and otherwise the list of the rules that its items
    are. The definitions of the levels are all those within the one that is read. -/
theorem read_lists {language : FileLanguage} {source : String} {definition : Definition}
    (h : read language source = .ok definition) : ∃ tokens, language.Tokens source tokens ∧
      (∀ level : Level, Relation.ReflTransGen Level.Inside ⟨tokens, definition⟩ level →
        List.Forall₂ (fun token entry => token.1 = entry.1 ∧ ∀ items, token.2 = .list items → ListRead items entry.2)
          level.tokens level.definition.entries) ∧
      ∀ inner : Definition, inner.Within definition →
        ∃ innerTokens, Relation.ReflTransGen Level.Inside ⟨tokens, definition⟩ ⟨innerTokens, inner⟩ := by
  obtain ⟨tokens, htokens, hread⟩ := exists_level h
  exact ⟨tokens, htokens, fun level hreached => (hread.reached hreached).lists, fun inner hw => hread.exists_reached hw⟩

/-- A file with a list of a list, which is a rule with a grammar for its inside, and a pattern. -/
def nestedSource : String :=
  "\x7b\"s\": [[\"a\", \"i\", true, false, null, \x7b\"kw\": [\"x\", \"y\"]\x7d], \"b\"]\x7d"

def nestedSample : Definition :=
  let inside : Definition := ⟨[("kw", .many [.bare "x", .bare "y"])], none⟩
  ⟨[("s", .many [.detailed { pattern := "a", flags := "i", lookbehind := true, inside := some (.inline inside) }, .bare "b"])], none⟩

theorem read_lists_nested : read .json nestedSource = .ok nestedSample ∧
    ∃ tokens, FileLanguage.json.Tokens nestedSource tokens ∧
      (∀ level : Level, Relation.ReflTransGen Level.Inside ⟨tokens, nestedSample⟩ level →
        List.Forall₂ (fun token entry => token.1 = entry.1 ∧ ∀ items, token.2 = .list items → ListRead items entry.2)
          level.tokens level.definition.entries) ∧
      ∀ inner : Definition, inner.Within nestedSample →
        ∃ innerTokens, Relation.ReflTransGen Level.Inside ⟨tokens, nestedSample⟩ ⟨innerTokens, inner⟩ := by
  have hread : read .json nestedSource = .ok nestedSample := by
    have hjson : readJson nestedSource = .ok nestedSample := by cbv
    rw [read, hjson]
    rfl
  exact ⟨hread, read_lists hread⟩

/-- A file with a list whose third item is a truth value. -/
def flaggedSource : String := "\x7b\"kw\": [\"a\", \"i\", true]\x7d"

def flaggedItems : List Datum := [.text "a", .text "i", .bool true]

def flaggedRules : RulesDefinition := .one (.detailed { pattern := "a", flags := "i", lookbehind := true })

/-- Not every list under a token name is read as a list of rules: one that is not all rules can be one rule. -/
theorem read_flagged_as_one : FileLanguage.json.Tokens flaggedSource [("kw", .list flaggedItems)] ∧
    read .json flaggedSource = .ok ⟨[("kw", flaggedRules)], none⟩ ∧ ∀ rules, flaggedRules ≠ .many rules := by
  have hdocument : Json.read? flaggedSource.toList =
      some (.object [("kw", .array [.string "a", .string "i", .bool true])]) := by cbv
  have hjson : readJson flaggedSource = .ok ⟨[("kw", flaggedRules)], none⟩ := by cbv
  refine ⟨.json hdocument ?_, ?_, fun rules h => by cases h⟩
  · exact tokensOf_cons rfl (by decide) rfl .nil
  · rw [read, hjson]
    rfl

end Definition
end Highlight
