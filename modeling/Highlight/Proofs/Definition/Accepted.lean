import Highlight.Proofs.Definition.Shape
import Highlight.Proofs.Json.Syntax

/-! What a value gives is found member by member (`givesGrammar_entry`, `givesGrammar_rest`), and a value gives something
    exactly if it is of the right shape (`accepted`). -/

namespace Highlight
namespace Json
open Definition (restKey consEntry)

/-! ### Members of a grammar -/

section
variable {members : List (String × Json)} {definition : Definition} {key : String} {v : Json}

theorem givesGrammar_iff : GivesGrammar members definition ↔
    members.filter (·.1 = restKey) = definition.rest.toList.map (fun language => (restKey, .string language)) ∧
      List.Forall₂ GivesEntry (members.filter (·.1 ≠ restKey)) definition.entries := by
  constructor
  · rintro ⟨hrest, hentries⟩
    exact ⟨hrest, hentries⟩
  · obtain ⟨entries, rest⟩ := definition
    rintro ⟨hrest, hentries⟩
    exact .members hrest hentries

theorem givesEntry_iff {entry : String × RulesDefinition} : GivesEntry (key, v) entry ↔
    ∃ rules, GivesRules v rules ∧ entry = (key, rules) := by
  constructor
  · rintro ⟨h⟩
    exact ⟨_, h, rfl⟩
  · rintro ⟨rules, h, rfl⟩
    exact .mk h

theorem givesGrammar_nil : GivesGrammar [] definition ↔ definition = { entries := [] } := by
  obtain ⟨entries, rest⟩ := definition
  cases rest <;> simp [givesGrammar_iff]

theorem givesGrammar_entry (hkey : key ≠ restKey) : GivesGrammar ((key, v) :: members) definition ↔
    ∃ rules tail, GivesRules v rules ∧ GivesGrammar members tail ∧ definition = consEntry key rules tail := by
  obtain ⟨entries, rest⟩ := definition
  simp only [givesGrammar_iff, List.filter_cons, hkey, decide_false, Bool.false_eq_true, if_false, ne_eq, not_false_eq_true,
    decide_true, if_true]
  constructor
  · rintro ⟨hrest, hentries⟩
    obtain ⟨_, entries, hentry, htail, rfl⟩ := List.forall₂_cons_left_iff.mp hentries
    obtain ⟨rules, hrules, rfl⟩ := givesEntry_iff.mp hentry
    exact ⟨rules, ⟨entries, rest⟩, hrules, ⟨hrest, htail⟩, rfl⟩
  · rintro ⟨rules, tail, hrules, ⟨hrest, hentries⟩, ⟨⟩⟩
    exact ⟨hrest, .cons (.mk hrules) hentries⟩

/-- The language whose entries follow is named once. -/
theorem givesGrammar_rest : GivesGrammar ((restKey, v) :: members) definition ↔
    ∃ language tail, v = .string language ∧ GivesGrammar members tail ∧ tail.rest = none ∧
      definition = ⟨tail.entries, some language⟩ := by
  obtain ⟨entries, rest⟩ := definition
  simp only [givesGrammar_iff, List.filter_cons, decide_true, if_true, ne_eq, not_true_eq_false, decide_false,
    Bool.false_eq_true, if_false]
  constructor
  · rintro ⟨hrest, hentries⟩
    cases rest with
    | none => cases hrest
    | some language =>
      obtain ⟨hv, hnone⟩ := List.cons.inj hrest
      exact ⟨language, ⟨entries, none⟩, (Prod.mk.inj hv).2, ⟨hnone, hentries⟩, rfl, rfl⟩
  · rintro ⟨language, ⟨_, _⟩, rfl, ⟨hrest, hentries⟩, rfl, ⟨⟩⟩
    exact ⟨congrArg _ hrest, hentries⟩

end

/-! ### Shape -/

section
variable {v : Json} {members : List (String × Json)}

/-- A value gives something as a rule, for the inside of a match and under a token name exactly if it is one for that. -/
structure Accepted (v : Json) : Prop where
  rule : v.IsRule ↔ ∃ rule, GivesRule v rule
  inside : v.IsInside ↔ ∃ inside, GivesInside v inside
  rules : v.IsRules ↔ ∃ rules, GivesRules v rules

theorem exists_forall₂ {α β : Type} {R : α → β → Prop} {as : List α} :
    (∃ bs, List.Forall₂ R as bs) ↔ ∀ a ∈ as, ∃ b, R a b := by
  induction as with
  | nil => exact ⟨fun _ _ h => absurd h List.not_mem_nil, fun _ => ⟨[], .nil⟩⟩
  | cons a as ih =>
    rw [List.forall_mem_cons, ← ih]
    constructor
    · rintro ⟨_, _ | ⟨h, hs⟩⟩
      exact ⟨⟨_, h⟩, _, hs⟩
    · rintro ⟨⟨b, h⟩, bs, hs⟩
      exact ⟨b :: bs, .cons h hs⟩

theorem mem_parts {field : RuleField} {x : Json} (h : v.field? field = some x) : x ∈ v.parts := by
  cases v with
  | array items => exact List.mem_of_getElem? h
  | object members =>
    obtain ⟨front, back, rfl, -⟩ := List.lookup_eq_some_iff.mp h
    simp [parts]
  | _ => cases h

/-- What is given for a field is right if what is given by default is. -/
theorem forall_mem_iff {P : Json → Prop} {d : Json} (hd : P d) {given : Option Json} :
    (∀ x ∈ given, P x) ↔ P (given.getD d) := by
  cases given <;> simp [hd]

theorem isRule_iff (h : ∀ x ∈ v.parts, x.IsInside ↔ ∃ inside, GivesInside x inside) :
    v.IsRule ↔ ∃ rule, GivesRule v rule := by
  have hinside : (∀ x ∈ v.field? .inside, IsInside x) ↔ ∃ inside, GivesInside ((v.field? .inside).getD .null) inside := by
    rw [← forall_mem_iff (P := fun x => ∃ inside, GivesInside x inside) ⟨_, .none⟩]
    exact forall₂_congr fun x hx => h x (mem_parts hx)
  constructor
  · rintro (source | ⟨hfields, ⟨pattern, hpattern⟩, hflags, hlookbehind, hgreedy, halias, hin⟩)
    · exact ⟨_, .pattern source⟩
    · obtain ⟨flags, hflags⟩ := (forall_mem_iff (P := fun x => ∃ s, x = .string s) ⟨"", rfl⟩).mp hflags
      obtain ⟨lookbehind, hlookbehind⟩ := (forall_mem_iff (P := fun x => ∃ b, x = .bool b) ⟨false, rfl⟩).mp hlookbehind
      obtain ⟨greedy, hgreedy⟩ := (forall_mem_iff (P := fun x => ∃ b, x = .bool b) ⟨false, rfl⟩).mp hgreedy
      obtain ⟨name, hname⟩ : ∃ name, (v.field? .aliasName).getD .null = ofName name := by
        rcases (forall_mem_iff (Or.inl rfl)).mp halias with hnull | ⟨s, hs⟩
        · exact ⟨none, hnull⟩
        · exact ⟨some s, hs⟩
      obtain ⟨inside, hin⟩ := hinside.mp hin
      exact ⟨.detailed ⟨pattern, flags, lookbehind, greedy, name, inside⟩,
        .fields hfields hpattern hflags hlookbehind hgreedy hname hin⟩
  · rintro ⟨_, source | @⟨_, details, hfields, hpattern, hflags, hlookbehind, hgreedy, halias, hin⟩⟩
    · exact .pattern source
    · refine .fields hfields ⟨_, hpattern⟩ ((forall_mem_iff ⟨"", rfl⟩).mpr ⟨_, hflags⟩)
        ((forall_mem_iff ⟨false, rfl⟩).mpr ⟨_, hlookbehind⟩) ((forall_mem_iff ⟨false, rfl⟩).mpr ⟨_, hgreedy⟩)
        ((forall_mem_iff (Or.inl rfl)).mpr ?_) (hinside.mpr ⟨_, hin⟩)
      rw [halias]
      cases details.aliasName with
      | none => exact Or.inl rfl
      | some s => exact Or.inr ⟨s, rfl⟩

theorem isGrammar_iff (h : ∀ m ∈ members, m.2.IsRules ↔ ∃ rules, GivesRules m.2 rules) :
    IsGrammar members ↔ ∃ definition, GivesGrammar members definition := by
  have hentries : (∃ entries, List.Forall₂ GivesEntry (members.filter (·.1 ≠ restKey)) entries) ↔
      ∀ m ∈ members, m.1 ≠ restKey → m.2.IsRules := by
    rw [exists_forall₂]
    simp only [List.mem_filter, decide_eq_true_eq, and_imp]
    refine forall₂_congr fun m hm => imp_congr_right fun _ => ?_
    rw [h m hm]
    constructor
    · rintro ⟨entry, hentry⟩
      obtain ⟨rules, hrules, -⟩ := givesEntry_iff.mp hentry
      exact ⟨rules, hrules⟩
    · rintro ⟨rules, hrules⟩
      exact ⟨(m.1, rules), .mk hrules⟩
  constructor
  · rintro ⟨hcount, hnames, hrules⟩
    obtain ⟨entries, hentries⟩ := hentries.mpr hrules
    have hrest : ∃ rest : Option String, members.filter (·.1 = restKey) =
        rest.toList.map fun language => (restKey, .string language) := by
      rcases hfilter : members.filter (·.1 = restKey) with _ | ⟨⟨key, v⟩, _ | ⟨_, _⟩⟩
      · exact ⟨none, hfilter⟩
      · have hm : (key, v) ∈ members.filter (·.1 = restKey) := hfilter ▸ List.mem_singleton_self _
        obtain ⟨hm, hkey⟩ := List.mem_filter.mp hm
        obtain rfl : key = restKey := of_decide_eq_true hkey
        obtain ⟨language, rfl⟩ : ∃ language, v = .string language := hnames _ hm rfl
        exact ⟨some language, hfilter⟩
      · rw [hfilter] at hcount
        simp at hcount
    obtain ⟨rest, hrest⟩ := hrest
    exact ⟨⟨entries, rest⟩, .members hrest hentries⟩
  · rintro ⟨_, @⟨_, entries, rest, hrest, hgives⟩⟩
    refine .members ?_ (fun m hm hkey => ?_) (hentries.mp ⟨entries, hgives⟩)
    · rw [hrest]
      cases rest <;> simp
    · have hmem : m ∈ members.filter (·.1 = restKey) := List.mem_filter.mpr ⟨hm, decide_eq_true hkey⟩
      rw [hrest] at hmem
      obtain ⟨language, -, rfl⟩ := List.mem_map.mp hmem
      exact ⟨language, rfl⟩

theorem isInside_iff (h : ∀ x ∈ v.parts, x.IsRules ↔ ∃ rules, GivesRules x rules) :
    v.IsInside ↔ ∃ inside, GivesInside v inside := by
  constructor
  · rintro (_ | language | hmembers)
    · exact ⟨_, .none⟩
    · exact ⟨_, .named language⟩
    · obtain ⟨definition, hd⟩ := (isGrammar_iff (List.forall_mem_map.mp h)).mp hmembers
      exact ⟨_, .inline hd⟩
  · rintro ⟨_, _ | language | hd⟩
    · exact .none
    · exact .named language
    · exact .inline ((isGrammar_iff (List.forall_mem_map.mp h)).mpr ⟨_, hd⟩)

theorem isRules_iff (hv : v.IsRule ↔ ∃ rule, GivesRule v rule) (h : ∀ x ∈ v.parts, x.IsRule ↔ ∃ rule, GivesRule x rule) :
    v.IsRules ↔ ∃ rules, GivesRules v rules := by
  have hitems : ∀ {items}, v = .array items → (∀ x ∈ items, x.IsRule) → ∃ rules, GivesRules v rules := by
    rintro items rfl hall
    obtain ⟨rules, hrules⟩ := exists_forall₂.mpr fun x hx => (h x hx).mp (hall x hx)
    exact ⟨_, .many hrules⟩
  constructor
  · rintro (hrule | hall)
    · by_cases hall : ∃ items, v = .array items ∧ ∀ x ∈ items, x.IsRule
      · obtain ⟨items, hv, hall⟩ := hall
        exact hitems hv hall
      · simp only [not_exists, not_and, not_forall] at hall
        obtain ⟨rule, hgives⟩ := hv.mp hrule
        refine ⟨_, .one hgives fun items heq => ?_⟩
        obtain ⟨x, hx, hnot⟩ := hall items heq
        exact ⟨x, hx, hnot⟩
    · exact hitems rfl hall
  · rintro ⟨_, hgives | ⟨hgives, -⟩⟩
    · exact .many fun x hx => (h x hx).mpr (exists_forall₂.mp ⟨_, hgives⟩ x hx)
    · exact .one (hv.mpr ⟨_, hgives⟩)

theorem accepted (v : Json) : Accepted v := by
  refine byParts (fun v ih => ?_) v
  have hrule := isRule_iff fun x hx => (ih x hx).inside
  exact ⟨hrule, isInside_iff fun x hx => (ih x hx).rules, isRules_iff hrule fun x hx => (ih x hx).rule⟩

end
end Json
end Highlight
