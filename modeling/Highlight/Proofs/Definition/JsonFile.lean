import Mathlib.Data.List.Permutation
import Highlight.Proofs.Definition.Values
import Highlight.Proofs.Except
import Highlight.Proofs.Json.Documents

/-! Reading grammar files in JSON. A file is accepted exactly if it is a document of the right shape whose arrays and
    objects are not nested too deeply, and it is read as the definition that its members give (`readJson_reads`). -/

namespace Highlight

/-! ### Definitions for the inside of a match -/

/-- The rules of a token name, in their order. -/
def RulesDefinition.toList : RulesDefinition → List RuleDefinition
  | .one rule => [rule]
  | .many rules => rules

namespace Definition
open Json

/-- A definition stands within itself and within all that have it for the inside of a match, at any depth. -/
inductive Within : Definition → Definition → Prop
  | self (definition : Definition) : Within definition definition
  | inside {inner definition outer : Definition} {entry : String × RulesDefinition} {details : RuleDetails} :
      entry ∈ outer.entries → .detailed details ∈ entry.2.toList → details.inside = some (.inline definition) →
      Within inner definition → Within inner outer

section
variable {v : Json} {members : List (String × Json)} {definition inner : Definition}

theorem exists_of_mem_right {α β : Type} {R : α → β → Prop} {as : List α} {bs : List β} (h : List.Forall₂ R as bs) {b : β}
    (hb : b ∈ bs) : ∃ a ∈ as, R a b := by
  induction h with
  | nil => cases hb
  | cons hab _ ih =>
    rcases List.mem_cons.mp hb with rfl | hb
    · exact ⟨_, List.mem_cons_self, hab⟩
    · obtain ⟨a, ha, hr⟩ := ih hb
      exact ⟨a, List.mem_cons_of_mem _ ha, hr⟩

theorem givesRule_of_mem {rules : RulesDefinition} (h : GivesRules v rules) {rule : RuleDefinition} (hr : rule ∈ rules.toList) :
    ∃ x, GivesRule x rule := by
  cases h with
  | many hall =>
    obtain ⟨x, -, hx⟩ := exists_of_mem_right hall hr
    exact ⟨x, hx⟩
  | one hrule => exact ⟨v, List.mem_singleton.mp hr ▸ hrule⟩

/-- Each entry is that of a member, which is not the one that names the language whose entries follow. -/
theorem exists_member (h : GivesGrammar members definition) {entry : String × RulesDefinition} (he : entry ∈ definition.entries) :
    entry.1 ≠ restKey ∧ ∃ x, GivesRules x entry.2 := by
  obtain ⟨⟨key, x⟩, hm, ⟨hrules⟩⟩ := exists_of_mem_right (givesGrammar_iff.mp h).2 he
  exact ⟨of_decide_eq_true (List.mem_filter.mp hm).2, x, hrules⟩

theorem givesGrammar_of_inline (h : GivesInside v (some (.inline definition))) : ∃ members, GivesGrammar members definition := by
  cases h with
  | inline hgives => exact ⟨_, hgives⟩

/-- All that stands within the definition that members give is given by the members of an object in turn. -/
theorem Within.gives (hw : inner.Within definition) (h : GivesGrammar members definition) :
    ∃ members, GivesGrammar members inner := by
  induction hw generalizing members with
  | self => exact ⟨members, h⟩
  | inside he hr hinside _ ih =>
    obtain ⟨-, x, hrules⟩ := exists_member h he
    obtain ⟨y, hrule⟩ := givesRule_of_mem hrules hr
    cases hrule with
    | fields _ _ _ _ _ _ hin =>
      obtain ⟨_, hgives⟩ := givesGrammar_of_inline (hinside ▸ hin)
      exact ih hgives

/-! ### Members -/

theorem depthOfMembers_lt_iff {n : Nat} (hn : 0 < n) : depthOfMembers members < n ↔ ∀ m ∈ members, m.2.depth < n := by
  induction members with
  | nil => simpa [depthOfMembers] using hn
  | cons m members ih => rw [depthOfMembers, Nat.max_lt, ih, List.forall_mem_cons]

theorem rulesOfJson_eq_ok {rules : RulesDefinition} :
    rulesOfJson v = .ok rules ↔ v.depth < Json.maxDepth ∧ GivesRules v rules := by
  rw [← (agrees v).rules, Json.rules?, rulesOfJson]
  by_cases hdepth : v.depth + 1 > Json.maxDepth
  · rw [if_pos hdepth]
    exact iff_of_false (by simp) fun h => absurd h.1 (by omega)
  · have hlt : v.depth < Json.maxDepth := by omega
    rw [if_neg hdepth]
    cases v.datum? with
    | none => simp
    | some d => cases hrules : rulesOf? d <;> simp [hrules, hlt]

theorem restOfJson_eq_ok {language : String} : restOfJson v = .ok language ↔ v = .string language := by
  unfold restOfJson
  split
  · simp
  · rename_i hv
    split <;> exact iff_of_false (by simp) (hv language)

/-- The members are read one after the other, where the language whose entries follow may have been named before them. -/
theorem ofJsonMembers_eq_ok {rest : Option String} : ofJsonMembers rest members = .ok definition ↔
    (∀ m ∈ members, m.2.depth < Json.maxDepth) ∧ ∃ tail, GivesGrammar members tail ∧
      (rest = none ∨ tail.rest = none) ∧ definition = ⟨tail.entries, rest.or tail.rest⟩ := by
  induction members generalizing rest definition with
  | nil => simp [ofJsonMembers, givesGrammar_nil, eq_comm]
  | cons m members ih =>
    obtain ⟨key, v⟩ := m
    rw [ofJsonMembers, List.forall_mem_cons]
    by_cases hkey : key = restKey
    · subst hkey
      rw [if_pos rfl]
      simp only [givesGrammar_rest]
      cases rest with
      | some named =>
        refine iff_of_false (by simp) ?_
        rintro ⟨-, _, ⟨language, tail, -, -, -, rfl⟩, hnone | hnone, -⟩ <;> cases hnone
      | none =>
        simp only [Option.isSome_none, Bool.false_eq_true, if_false, bind_eq_ok_iff, restOfJson_eq_ok, ih]
        constructor
        · rintro ⟨language, rfl, hdepths, tail, htail, hnone | hnone, rfl⟩
          · cases hnone
          · exact ⟨⟨Nat.succ_pos 126, hdepths⟩, _, ⟨language, tail, rfl, htail, hnone, rfl⟩, Or.inl trivial, rfl⟩
        · rintro ⟨⟨-, hdepths⟩, _, ⟨language, tail, rfl, htail, hnone, rfl⟩, -, rfl⟩
          exact ⟨language, rfl, hdepths, tail, htail, Or.inr hnone, rfl⟩
    · rw [if_neg hkey]
      simp only [bind_eq_ok_iff, rulesOfJson_eq_ok, ih, givesGrammar_entry hkey]
      constructor
      · rintro ⟨rules, ⟨hdepth, hrules⟩, _, ⟨hdepths, tail, htail, hrest, rfl⟩, h⟩
        cases h
        exact ⟨⟨hdepth, hdepths⟩, _, ⟨rules, tail, hrules, htail, rfl⟩, hrest, rfl⟩
      · rintro ⟨⟨hdepth, hdepths⟩, _, ⟨rules, tail, hrules, htail, rfl⟩, hrest, rfl⟩
        exact ⟨rules, ⟨hdepth, hrules⟩, _, ⟨hdepths, tail, htail, hrest, rfl⟩, rfl⟩

/-! ### Documents -/

theorem ofJson_eq_ok {document : Json} : ofJson document = .ok definition ↔
    document.depth ≤ Json.maxDepth ∧ ∃ members, document = .object members ∧ GivesGrammar members definition := by
  have hother : (∀ members, document ≠ .object members) → (ofJson document = .ok definition ↔
      document.depth ≤ Json.maxDepth ∧ ∃ members, document = .object members ∧ GivesGrammar members definition) := by
    intro hne
    refine iff_of_false ?_ fun h => h.2.elim fun members h => hne members h.1
    unfold ofJson
    split
    · exact absurd rfl (hne _)
    · split <;> simp
  cases document with
  | object members =>
    have hdepth : (object members).depth ≤ Json.maxDepth ↔ ∀ m ∈ members, m.2.depth < Json.maxDepth :=
      depthOfMembers_lt_iff (by decide)
    rw [hdepth, ofJson, ofJsonMembers_eq_ok]
    simp only [Option.none_or, true_or, true_and]
    constructor
    · rintro ⟨hdepths, ⟨entries, rest⟩, hgives, rfl⟩
      exact ⟨hdepths, members, rfl, hgives⟩
    · obtain ⟨entries, rest⟩ := definition
      rintro ⟨hdepths, _, ⟨⟩, hgives⟩
      exact ⟨hdepths, ⟨entries, rest⟩, hgives, rfl⟩
  | _ => exact hother (by simp)

theorem readJson_eq_ok {source : String} : readJson source = .ok definition ↔ ∃ members,
    (object members).IsDocument source.toList ∧ (object members).depth ≤ Json.maxDepth ∧ GivesGrammar members definition := by
  constructor
  · intro h
    rw [readJson] at h
    split at h
    · rename_i hread
      obtain ⟨hdepth, members, rfl, hgives⟩ := ofJson_eq_ok.mp h
      exact ⟨members, read?_eq_some.mp hread, hdepth, hgives⟩
    · cases h
  · rintro ⟨members, hdocument, hdepth, hgives⟩
    rw [readJson, read?_eq_some.mpr hdocument]
    exact ofJson_eq_ok.mpr ⟨hdepth, members, rfl, hgives⟩

end

/-- A grammar file is accepted exactly if it is an object of the right shape, as long as arrays and objects are not nested
    too deeply. It is read as the definition that the members of the object give, and in no definition within that, at any
    depth, an entry has the name of the language whose entries follow. -/
theorem readJson_reads (source : String) :
    (∀ document : Json, document.IsDocument source.toList → document.depth ≤ Json.maxDepth →
      ((∃ definition, readJson source = .ok definition) ↔ ∃ members, document = .object members ∧ IsGrammar members)) ∧
    (∀ definition, readJson source = .ok definition ↔ ∃ members, (object members).IsDocument source.toList ∧
      (object members).depth ≤ Json.maxDepth ∧ GivesGrammar members definition) ∧
    ∀ definition, readJson source = .ok definition → ∀ inner : Definition, inner.Within definition →
      ∀ entry ∈ inner.entries, entry.1 ≠ restKey := by
  have haccepted : ∀ members, IsGrammar members ↔ ∃ definition, GivesGrammar members definition :=
    fun members => isGrammar_iff fun m _ => (accepted m.2).rules
  refine ⟨fun document hdocument hdepth => ?_, fun definition => readJson_eq_ok, fun definition hread inner hw entry he => ?_⟩
  · constructor
    · rintro ⟨definition, hread⟩
      obtain ⟨members, hobject, -, hgives⟩ := readJson_eq_ok.mp hread
      -- A text is one of no two values.
      have heq := (read?_eq_some.mpr hdocument).symm.trans (read?_eq_some.mpr hobject)
      exact ⟨members, Option.some.inj heq, (haccepted members).mpr ⟨definition, hgives⟩⟩
    · rintro ⟨members, rfl, hgrammar⟩
      obtain ⟨definition, hgives⟩ := (haccepted members).mp hgrammar
      exact ⟨definition, readJson_eq_ok.mpr ⟨members, hdocument, hdepth, hgives⟩⟩
  · obtain ⟨members, -, -, hgives⟩ := readJson_eq_ok.mp hread
    obtain ⟨_, hinner⟩ := hw.gives hgives
    exact (exists_member hinner he).1

/-- A file with a name that is given twice: once with a list of rules, and once with a list that is a single rule. -/
def repeatedSource : String :=
  "\x7b\"n\": [\"a\", \"i\"], \"rest\": \"lua\", \"n\": [\"x\", \"i\", true, false, null, \x7b\"b\": \"y\"\x7d]\x7d"

def repeatedSample : Definition :=
  let inside : Definition := ⟨[("b", .one (.bare "y"))], none⟩
  ⟨[("n", .many [.bare "a", .bare "i"]),
      ("n", .one (.detailed { pattern := "x", flags := "i", lookbehind := true, inside := some (.inline inside) }))],
    some "lua"⟩

theorem readJson_reads_repeated :
    readJson repeatedSource = .ok repeatedSample ∧
      (∃ members, (object members).IsDocument repeatedSource.toList ∧ (object members).depth ≤ Json.maxDepth ∧
        IsGrammar members ∧ GivesGrammar members repeatedSample) ∧
      ∀ inner : Definition, inner.Within repeatedSample → ∀ entry ∈ inner.entries, entry.1 ≠ restKey := by
  obtain ⟨haccepts, hreads, hrest⟩ := readJson_reads repeatedSource
  have hread : readJson repeatedSource = .ok repeatedSample := by cbv
  obtain ⟨members, hdocument, hdepth, hgives⟩ := (hreads repeatedSample).mp hread
  obtain ⟨_, ⟨⟩, hgrammar⟩ := (haccepts _ hdocument hdepth).mp ⟨_, hread⟩
  exact ⟨hread, ⟨members, hdocument, hdepth, hgrammar, hgives⟩, hrest repeatedSample hread⟩

end Definition
end Highlight
