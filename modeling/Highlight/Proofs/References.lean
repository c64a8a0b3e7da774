import Highlight.Proofs.Insides
import Mathlib.Logic.Relation

/-! References. A grammar refers to others for the insides of its rules and for its rest, in place or by the name of a
    language. Of all languages, splitting a text with a grammar asks for no others than those that the grammar, and the
    grammars that are reached from it by references, give by name (`tokenize_naming`). -/

namespace Highlight

/-! ### What a grammar refers to -/

namespace Grammar

/-- The references of a grammar: those for the insides of its rules, and its rest. -/
def refs (g : Grammar) : List GrammarRef := (g.entries.flatMap (·.rules)).filterMap (·.inside) ++ g.rest.toList

/-- The grammar has a reference to another, where `find` tells what the names of languages stand for. -/
inductive RefersTo (find : String → Option Grammar) (g : Grammar) : Grammar → Prop
  | inline {h : Grammar} : .inline h ∈ g.refs → RefersTo find g h
  | named {name : String} {h : Grammar} : .named name ∈ g.refs → find name = some h → RefersTo find g h

/-- The other grammar is reached by references, or is the grammar itself. -/
def Reaches (find : String → Option Grammar) : Grammar → Grammar → Prop := Relation.ReflTransGen (RefersTo find)

/-- The name is that of a language to which the grammar refers, directly or through grammars that it reaches. -/
def Mentions (find : String → Option Grammar) (g : Grammar) (name : String) : Prop :=
  ∃ h, g.Reaches find h ∧ .named name ∈ h.refs

/-- The languages that a grammar mentions are found alike by another function. -/
def FindsAlike (find find' : String → Option Grammar) (g : Grammar) : Prop :=
  ∀ name, g.Mentions find name → find' name = find name

section
variable {find find' : String → Option Grammar} {g h : Grammar}

theorem refersTo_iff : g.RefersTo find h ↔ .inline h ∈ g.refs ∨ ∃ name, .named name ∈ g.refs ∧ find name = some h := by
  constructor
  · rintro (hmem | ⟨hmem, hfind⟩)
    · exact Or.inl hmem
    · exact Or.inr ⟨_, hmem, hfind⟩
  · rintro (hmem | ⟨name, hmem, hfind⟩)
    · exact .inline hmem
    · exact .named hmem hfind

theorem Mentions.of_reaches {name : String} (hreach : g.Reaches find h) (h : h.Mentions find name) :
    g.Mentions find name := by
  obtain ⟨i, hi, hmem⟩ := h
  exact ⟨i, hreach.trans hi, hmem⟩

theorem FindsAlike.of_reaches (halike : FindsAlike find find' g) (hreach : g.Reaches find h) :
    FindsAlike find find' h := fun name hname => halike name (hname.of_reaches hreach)

theorem mem_refs_inside {e : Entry} {rule : Rule} {ref : GrammarRef} (he : e ∈ g.entries) (hrule : rule ∈ e.rules)
    (hinside : rule.inside = some ref) : ref ∈ g.refs :=
  List.mem_append_left _ (List.mem_filterMap.mpr ⟨rule, List.mem_flatMap.mpr ⟨e, he, hrule⟩, hinside⟩)

theorem mem_refs_rest {ref : GrammarRef} (h : g.rest = some ref) : ref ∈ g.refs :=
  List.mem_append_right _ (Option.mem_toList.mpr h)

end
end Grammar

/-! ### What a run asks for -/

namespace Tokenizer
open Grammar

/-- The tokenizer with other languages. -/
def naming (t : Tokenizer) (find : String → Option Grammar) : Tokenizer := { t with language? := find }

section
variable {t : Tokenizer} {find find' : String → Option Grammar} {g h : Grammar} {ref : GrammarRef}

theorem refersTo_of_resolve (hmem : ref ∈ g.refs) (hh : (t.resolve ref).value = some h) : g.RefersTo t.language? h := by
  cases ref with
  | inline i =>
    obtain rfl : i = h := Option.some.inj hh
    exact .inline hmem
  | named name =>
    refine .named hmem ?_
    rw [resolve] at hh
    cases hfind : t.language? name with
    | none => rw [hfind] at hh; cases hh
    | some i => rw [hfind] at hh; exact hh

theorem reaches_of_walk {hs : List Grammar} (hwalk : Walk t g.rest hs) : ∀ h ∈ hs, g.Reaches t.language? h := by
  induction hs generalizing g with
  | nil =>
    intro h hmem
    cases hmem
  | cons first hs ih =>
    obtain ⟨⟨ref, hrest, hfirst⟩, hwalk⟩ := hwalk
    have hrefers := refersTo_of_resolve (mem_refs_rest hrest) hfirst
    intro h hmem
    rcases List.mem_cons.mp hmem with rfl | hmem
    · exact .single hrefers
    · exact .head hrefers (ih hwalk h hmem)

/-- A rule that is active in a level stands in the grammar of the level or in one of its rest chain. -/
theorem entry_of_levelRules {active : ActiveRule} (hactive : active ∈ t.levelRules g) :
    ∃ h, g.Reaches t.language? h ∧ ∃ e ∈ h.entries, active.name = e.name ∧ active.rule ∈ e.rules := by
  rw [levelRules, activeEntries_eq, activeRules] at hactive
  obtain ⟨e, he, hactive⟩ := List.mem_flatMap.mp hactive
  obtain ⟨rule, hrule, rfl⟩ := List.mem_map.mp hactive
  rcases mem_setEntries he with he | he
  · cases he
  · obtain ⟨h, hmem, he⟩ := List.mem_flatMap.mp he
    refine ⟨h, ?_, e, he, rfl, hrule⟩
    rcases List.mem_cons.mp hmem with rfl | hmem
    · exact .refl
    · exact reaches_of_walk (walked_chain t g).walk h hmem

/-- The grammar for the inside of a rule that is active in a level is one to which the grammar of the level refers, or
    one of its rest chain does. -/
theorem reaches_of_levelRules {active : ActiveRule} (hactive : active ∈ t.levelRules g)
    (hinside : active.rule.inside = some ref) : ∃ h, g.Reaches t.language? h ∧ ref ∈ h.refs := by
  obtain ⟨h, hreaches, e, he, -, hrule⟩ := entry_of_levelRules hactive
  exact ⟨h, hreaches, mem_refs_inside he hrule hinside⟩

/-! ### Languages that are found alike -/

theorem value_resolve_naming (halike : FindsAlike find find' g) (hmem : ref ∈ g.refs) :
    ((t.naming find').resolve ref).value = ((t.naming find).resolve ref).value := by
  cases ref with
  | inline h => rfl
  | named name =>
    have hname : find' name = find name := halike name ⟨g, .refl, hmem⟩
    simp only [resolve, naming, hname]

theorem value_restChain_naming (halike : FindsAlike find find' g) (hops : Nat) :
    ((t.naming find').restChain hops g.rest).value = ((t.naming find).restChain hops g.rest).value := by
  induction hops generalizing g with
  | zero => cases g.rest <;> rfl
  | succ hops ih =>
    cases hrest : g.rest with
    | none => rfl
    | some ref =>
      have hresolve := value_resolve_naming (t := t) halike (mem_refs_rest hrest)
      cases hh : ((t.naming find).resolve ref).value with
      | none => rw [restChain_unresolved hh, restChain_unresolved (hresolve.trans hh)]
      | some h =>
        have hrefers : g.RefersTo find h := refersTo_of_resolve (mem_refs_rest hrest) hh
        rw [restChain_resolved hh, restChain_resolved (hresolve.trans hh), ih (halike.of_reaches (.single hrefers))]

theorem levelRules_naming (halike : FindsAlike find find' g) :
    (t.naming find').levelRules g = (t.naming find).levelRules g :=
  congrArg (fun chain => activeRules (activeEntries g chain)) (value_restChain_naming halike t.maxDepth)

theorem levels_naming (halike : FindsAlike find find' g) (depth : Nat) (text : List Char) :
    ((t.naming find').levels depth g text).value = ((t.naming find).levels depth g text).value := by
  induction depth generalizing g text with
  | zero =>
    rw [levels_eq, levels_eq, value_level, value_level, levelRules_naming halike]
    refine value_steps_congr fun active _ matched => ?_
    rw [deeper, deeper, value_content_none, value_content_none]
  | succ depth ih =>
    rw [levels_eq, levels_eq, value_level, value_level, levelRules_naming halike]
    refine value_steps_congr fun active hactive matched => ?_
    rw [actives_contenders] at hactive
    refine value_content_map (f := id) (fun _ => rfl) (fun ref hinside => ?_) fun ref h hinside hh => ?_
    · obtain ⟨i, hi, hmem⟩ := reaches_of_levelRules hactive hinside
      exact value_resolve_naming (halike.of_reaches hi) hmem
    · obtain ⟨i, hi, hmem⟩ := reaches_of_levelRules hactive hinside
      have hrefers : i.RefersTo find h := refersTo_of_resolve hmem hh
      rw [ih (halike.of_reaches (hi.tail hrefers))]
      rfl

/-- The tokens of a text depend on the languages that the grammar mentions, and on no others. -/
theorem tokenize_naming (halike : FindsAlike find find' g) (text : String) :
    (t.naming find').tokenize g text = (t.naming find).tokenize g text :=
  congrArg (Token.mapOffsetsOf _) (levels_naming halike t.maxDepth text.toList)

end
end Tokenizer
end Highlight
