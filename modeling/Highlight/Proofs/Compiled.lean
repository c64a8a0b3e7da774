import Mathlib.Data.List.Forall2
import Highlight.Proofs.Compiling
import Highlight.Proofs.Entries

/-! What a definition compiles to. The rules of the grammar have the patterns and the options that are written down, at
    every depth, and its names stand in the order in which they are written first, with the rules that are written last
    (`compile_law`). -/

namespace Highlight

namespace Pattern

/-! ### Patterns -/

/-- Notes one flag after the modes that are known. -/
def noteFlag (known : List Char) (flag : Char) : Except PatternError (List Char) :=
  if isMode flag then .ok (if known.contains flag then known else known ++ [flag])
  else if isIgnored flag then .ok known
  else .error (.unsupportedFlag flag)

theorem foldlM_noteFlag {known flags modes : List Char} (hknown : known.Nodup)
    (h : flags.foldlM noteFlag known = .ok modes) : modes = (known ++ flags.filter isMode).eraseDups := by
  induction flags generalizing known with
  | nil =>
    obtain rfl := Except.ok.inj h
    rw [List.filter_nil, List.append_nil, eraseDups_of_nodup hknown]
  | cons flag flags ih =>
    obtain ⟨known', hstep, h⟩ := bind_eq_ok h
    unfold noteFlag at hstep
    split at hstep
    · rename_i hmode
      obtain rfl := Except.ok.inj hstep
      rw [List.filter_cons_of_pos hmode]
      by_cases hmem : flag ∈ known
      · rw [if_pos (List.contains_iff_mem.mpr hmem)] at h
        rw [ih hknown h, List.eraseDups_append, List.eraseDups_append, List.cons_removeAll, if_neg (by simpa using hmem)]
      · rw [if_neg (mt List.contains_iff_mem.mp hmem)] at h
        have hnodup : (known ++ [flag]).Nodup := by
          refine List.nodup_append.mpr ⟨hknown, by simp, fun a ha b hb heq => hmem ?_⟩
          obtain rfl := List.mem_singleton.mp hb
          exact heq ▸ ha
        rw [ih hnodup h, List.append_assoc, List.singleton_append]
    · rename_i hmode
      rw [List.filter_cons_of_neg hmode]
      split at hstep
      · obtain rfl := Except.ok.inj hstep
        exact ih hknown h
      · cases hstep

/-- The modes among flags are noted each once, in the order in which they first occur. -/
theorem modes?_eq_ok {flags modes : List Char} (h : modes? flags = .ok modes) :
    modes = (flags.filter isMode).eraseDups := foldlM_noteFlag List.nodup_nil h

/-- The pattern that a source is compiled to with flags, of which it has the modes, and with a limit for its searches. -/
structure CompiledFrom (failures : Nat) (source flags : String) (p : Pattern) : Prop where
  compile : Pattern.compile source flags failures = .ok p
  source : p.source = source
  flags : p.flags.toList = (flags.toList.filter isMode).eraseDups
  failures : p.failures = failures

theorem compiledFrom_of_compile {failures : Nat} {source flags : String} {p : Pattern}
    (h : Pattern.compile source flags failures = .ok p) : CompiledFrom failures source flags p := by
  obtain ⟨modes, hmodes, hp⟩ := bind_eq_ok h
  obtain ⟨program, -, hp⟩ := bind_eq_ok hp
  obtain ⟨anchored, -, hp⟩ := bind_eq_ok hp
  obtain rfl := Except.ok.inj hp
  exact ⟨h, rfl, String.toList_ofList.trans (modes?_eq_ok hmodes), rfl⟩

end Pattern

namespace Definition

/-! ### Rules and grammars -/

/-- The entries that count: each name once, in the order in which the names are written first, with the rules that are
    written for it last. -/
def lastEntries (entries : List (String × RulesDefinition)) : List (String × RulesDefinition) :=
  (entries.map (·.1)).eraseDups.filterMap fun name => entries.findRev? (·.1 == name)

mutual
/-- A rule has the pattern that is written for it, with the options that are written with it. -/
inductive CompiledRule (failures : Nat) : RuleDefinition → Rule → Prop
  | bare {source : String} {p : Pattern} :
      p.CompiledFrom failures source "" → CompiledRule failures (.bare source) { pattern := p }
  | detailed {details : RuleDetails} {p : Pattern} {inside : Option GrammarRef} :
      p.CompiledFrom failures details.pattern details.flags → CompiledInside failures details.inside inside →
      CompiledRule failures (.detailed details)
        { pattern := p, lookbehind := details.lookbehind, greedy := details.greedy, aliasName := details.aliasName, inside }

/-- The grammar for the inside of a match is a language by its name, or what is written in place. -/
inductive CompiledInside (failures : Nat) : Option InsideDefinition → Option GrammarRef → Prop
  | none : CompiledInside failures none none
  | named (language : String) : CompiledInside failures (some (.named language)) (some (.named language))
  | inline {definition : Definition} {g : Grammar} :
      Compiled failures definition g → CompiledInside failures (some (.inline definition)) (some (.inline g))

inductive CompiledRules (failures : Nat) : RulesDefinition → List Rule → Prop
  | one {definition : RuleDefinition} {rule : Rule} :
      CompiledRule failures definition rule → CompiledRules failures (.one definition) [rule]
  | many {definitions : List RuleDefinition} {rules : List Rule} :
      List.Forall₂ (CompiledRule failures) definitions rules → CompiledRules failures (.many definitions) rules

inductive CompiledEntry (failures : Nat) : String × RulesDefinition → Entry → Prop
  | mk {name : String} {definition : RulesDefinition} {rules : List Rule} :
      CompiledRules failures definition rules → CompiledEntry failures (name, definition) ⟨name, rules⟩

/-- A grammar has the entries that count, and the language whose entries follow by its name. -/
inductive Compiled (failures : Nat) : Definition → Grammar → Prop
  | mk {definition : Definition} {entries : List Entry} :
      List.Forall₂ (CompiledEntry failures) (lastEntries definition.entries) entries →
      Compiled failures definition ⟨entries, definition.rest.map .named⟩
end

/-! ### Compiling -/

section
variable {failures : Nat}

theorem compiledFrom_of_compilePattern {source flags : String} {p : Pattern}
    (h : compilePattern failures source flags = .ok p) : p.CompiledFrom failures source flags :=
  Pattern.compiledFrom_of_compile (mapError_eq_ok h)

theorem CompiledEntry.name_eq {d : String × RulesDefinition} {e : Entry} (h : CompiledEntry failures d e) :
    d.1 = e.name := by
  cases h
  rfl

theorem names_of_forall₂ {entries : List (String × RulesDefinition)} {compiled : List Entry}
    (h : List.Forall₂ (CompiledEntry failures) entries compiled) : entries.map (·.1) = compiled.map (·.name) := by
  rw [← List.forall₂_eq_eq_eq, List.forall₂_map_left_iff, List.forall₂_map_right_iff]
  exact h.imp fun _ _ => CompiledEntry.name_eq

theorem rel_findRev? {α β : Type} {R : α → β → Prop} {as : List α} {bs : List β} (h : List.Forall₂ R as bs)
    {p : α → Bool} {q : β → Bool} (hpq : ∀ a b, R a b → p a = q b) : Option.Rel R (as.findRev? p) (bs.findRev? q) := by
  induction h with
  | nil => exact .none
  | @cons a b as bs hab _ ih =>
    rw [List.findRev?, List.findRev?]
    generalize as.findRev? p = a', bs.findRev? q = b' at ih
    cases ih with
    | some hab' => exact .some hab'
    | none =>
      rw [hpq a b hab]
      cases q b with
      | true => exact .some hab
      | false => exact .none

/-- Setting compiled entries one after the other leaves those that count. -/
theorem forall₂_lastEntries {entries : List (String × RulesDefinition)} {compiled : List Entry}
    (h : List.Forall₂ (CompiledEntry failures) entries compiled) :
    List.Forall₂ (CompiledEntry failures) (lastEntries entries) (setEntries [] compiled) := by
  rw [lastEntries, setEntries_eq_filterMap, names_of_forall₂ h]
  refine List.rel_filterMap (R := Eq) (fun name _ hname => ?_) (List.forall₂_eq_eq_eq ▸ rfl)
  subst hname
  exact rel_findRev? h fun d e hde => by rw [hde.name_eq]

mutual
theorem compiledRule_of_ok : ∀ {definition : RuleDefinition} {rule : Rule}, compileRule failures definition = .ok rule →
    CompiledRule failures definition rule
  | .bare source, _, h => by
    obtain ⟨p, hp, h⟩ := bind_eq_ok h
    obtain rfl := Except.ok.inj h
    exact .bare (compiledFrom_of_compilePattern hp)
  | .detailed ⟨source, flags, lookbehind, greedy, aliasName, inside⟩, _, h => by
    rw [compileRule, compileDetails] at h
    obtain ⟨p, hp, h⟩ := bind_eq_ok h
    obtain ⟨ref, href, h⟩ := bind_eq_ok h
    obtain rfl := Except.ok.inj h
    exact .detailed (compiledFrom_of_compilePattern hp) (compiledInside_of_ok href)

theorem compiledInside_of_ok : ∀ {inside : Option InsideDefinition} {ref : Option GrammarRef},
    compileInside? failures inside = .ok ref → CompiledInside failures inside ref
  | none, _, h => by
    obtain rfl := Except.ok.inj h
    exact .none
  | some (.named language), _, h => by
    obtain rfl := Except.ok.inj h
    exact .named language
  | some (.inline definition), _, h => by
    rw [compileInside?, compileInside] at h
    obtain ⟨_, href, h⟩ := bind_eq_ok h
    obtain rfl := Except.ok.inj h
    obtain ⟨g, hg, href⟩ := bind_eq_ok href
    obtain rfl := Except.ok.inj href
    exact .inline (compiled_of_ok hg)

theorem compiledRules_of_ok : ∀ {definition : RulesDefinition} {rules : List Rule},
    compileRules failures definition = .ok rules → CompiledRules failures definition rules
  | .one definition, _, h => by
    obtain ⟨rule, hrule, h⟩ := bind_eq_ok h
    obtain rfl := Except.ok.inj h
    exact .one (compiledRule_of_ok hrule)
  | .many definitions, _, h => .many (compiledRuleList_of_ok h)

theorem compiledRuleList_of_ok : ∀ {definitions : List RuleDefinition} {rules : List Rule},
    compileRuleList failures definitions = .ok rules → List.Forall₂ (CompiledRule failures) definitions rules
  | [], _, h => by
    obtain rfl := Except.ok.inj h
    exact .nil
  | definition :: definitions, _, h => by
    rw [compileRuleList] at h
    obtain ⟨rule, hrule, h⟩ := bind_eq_ok h
    obtain ⟨rules, hrules, h⟩ := bind_eq_ok h
    obtain rfl := Except.ok.inj h
    exact .cons (compiledRule_of_ok hrule) (compiledRuleList_of_ok hrules)

theorem compiledEntries_of_ok : ∀ {definitions : List (String × RulesDefinition)} {entries : List (String × List Rule)},
    compileEntries failures definitions = .ok entries →
      List.Forall₂ (CompiledEntry failures) definitions (entries.map fun e => ⟨e.1, e.2⟩)
  | [], _, h => by
    obtain rfl := Except.ok.inj h
    exact .nil
  | (name, definition) :: definitions, _, h => by
    rw [compileEntries] at h
    obtain ⟨rules, hrules, h⟩ := bind_eq_ok h
    obtain ⟨entries, hentries, h⟩ := bind_eq_ok h
    obtain rfl := Except.ok.inj h
    exact .cons (.mk (compiledRules_of_ok hrules)) (compiledEntries_of_ok hentries)

theorem compiled_of_ok : ∀ {definition : Definition} {g : Grammar}, compile failures definition = .ok g →
    Compiled failures definition g
  | ⟨entries, rest⟩, _, h => by
    rw [compile] at h
    obtain ⟨compiled, hcompiled, h⟩ := bind_eq_ok h
    obtain rfl := Except.ok.inj h
    exact .mk (forall₂_lastEntries (compiledEntries_of_ok hcompiled))
end

theorem names_lastEntries (entries : List (String × RulesDefinition)) :
    (lastEntries entries).map (·.1) = (entries.map (·.1)).eraseDups := by
  have hlast : ∀ name ∈ (entries.map (·.1)).eraseDups, (entries.findRev? (·.1 == name)).map (·.1) = some name := by
    intro name hname
    obtain ⟨entry, hentry, rfl⟩ := List.mem_map.mp (List.mem_eraseDups.mp hname)
    rw [List.findRev?_eq_find?_reverse]
    cases hfind : entries.reverse.find? (·.1 == entry.1) with
    | none =>
      have hne := List.find?_eq_none.mp hfind entry (List.mem_reverse.mpr hentry)
      exact absurd (beq_self_eq_true _) hne
    | some found =>
      have hfound := List.find?_some hfind
      rw [Option.map_some, eq_of_beq hfound]
  rw [lastEntries, List.map_filterMap]
  exact (List.filterMap_eq_map_iff_forall_eq_some.mpr hlast).trans (List.map_id _)

theorem Compiled.names_eq {definition : Definition} {g : Grammar} (h : Compiled failures definition g) :
    g.names = (definition.entries.map (·.1)).eraseDups := by
  obtain ⟨hentries⟩ := h
  exact (names_of_forall₂ hentries).symm.trans (names_lastEntries _)

theorem exists_compile_iff {definition : Definition} : (∃ g, compile failures definition = .ok g) ↔
    ∀ p ∈ definition.patterns, ∃ compiled, Pattern.compile p.1 p.2 failures = .ok compiled := by
  rw [← errorOf_eq_none, errorOf_compile, firstError, List.findSome?_eq_none_iff]
  refine forall₂_congr fun p _ => ?_
  rw [compilePattern, errorOf_mapError, Option.map_eq_none_iff, errorOf_eq_none]

end

/-- A definition compiles exactly if all patterns that are written in it do, those of rules that do not count and those of
    grammars for the inside of a match among them. Otherwise the first that does not decides the error. The grammar has the
    names in the order in which they are written first, each with the rules that are written for it last, and the rules
    have the patterns and the options that are written, at every depth. -/
theorem compile_law (failures : Nat) (definition : Definition) :
    ((∃ g, compile failures definition = .ok g) ↔
      ∀ p ∈ definition.patterns, ∃ compiled, Pattern.compile p.1 p.2 failures = .ok compiled) ∧
    (∀ e, compile failures definition = .error e ↔
      ∃ before source flags after cause, definition.patterns = before ++ (source, flags) :: after ∧
        (∀ p ∈ before, ∃ compiled, Pattern.compile p.1 p.2 failures = .ok compiled) ∧
        Pattern.compile source flags failures = .error cause ∧ e = .malformedPattern source cause) ∧
    ∀ g, compile failures definition = .ok g → Compiled failures definition g ∧
      g.names = (definition.entries.map (·.1)).eraseDups := by
  refine ⟨exists_compile_iff, fun e => compile_eq_error, fun g hg => ?_⟩
  have hcompiled := compiled_of_ok hg
  exact ⟨hcompiled, hcompiled.names_eq⟩

/-- A definition in which a name is written twice, and that has another one within. -/
def overridingSample : Definition :=
  let inner : Definition := ⟨[("variable", .one (.bare "c"))], some "lua"⟩
  let quoted : RuleDetails :=
    { pattern := "b", flags := "gmim", greedy := true, aliasName := some "q", inside := some (.inline inner) }
  ⟨[("word", .one (.bare "a")), ("string", .one (.detailed quoted)),
    ("word", .many [.bare "d", .detailed { pattern := "e", lookbehind := true, inside := some (.named "c") }])], some "base"⟩

/-- Two patterns of it do not compile: one within a rule that does not count, and one behind that. -/
def brokenSample : Definition :=
  let inner : Definition := ⟨[("variable", .one (.bare "(b"))], none⟩
  ⟨[("word", .one (.detailed { pattern := "a", inside := some (.inline inner) })), ("word", .one (.bare "c)"))], none⟩

theorem compile_law_overriding :
    (∃ g, compile Pattern.defaultFailures overridingSample = .ok g ∧ Compiled Pattern.defaultFailures overridingSample g ∧
      g.names = ["word", "string"] ∧ g.entries.map (fun e => e.rules.map fun r => (r.pattern.source, r.pattern.flags)) =
        [[("d", ""), ("e", "")], [("b", "mi")]]) ∧
    compile Pattern.defaultFailures brokenSample = .error (.malformedPattern "(b" (.malformed .unclosedGroup)) ∧
    ∃ before flags after, brokenSample.patterns = before ++ ("(b", flags) :: after ∧
      ∀ p ∈ before, ∃ compiled, Pattern.compile p.1 p.2 Pattern.defaultFailures = .ok compiled := by
  have hrun : (compile Pattern.defaultFailures overridingSample).toOption.map (fun g =>
      g.entries.map fun e => e.rules.map fun r => (r.pattern.source, r.pattern.flags)) =
      some [[("d", ""), ("e", "")], [("b", "mi")]] := by decide +kernel
  have hfail : errorOf (compile Pattern.defaultFailures brokenSample) =
      some (.malformedPattern "(b" (.malformed .unclosedGroup)) := by decide +kernel
  obtain ⟨g, hg, hrules⟩ := Option.map_eq_some_iff.mp hrun
  have hok := toOption_eq_some hg
  have herror := errorOf_eq_some.mp hfail
  obtain ⟨hcompiled, hnames⟩ := (compile_law Pattern.defaultFailures overridingSample).2.2 g hok
  obtain ⟨before, source, flags, after, cause, hpatterns, hbefore, -, heq⟩ :=
    ((compile_law Pattern.defaultFailures brokenSample).2.1 _).mp herror
  obtain ⟨rfl, -⟩ := GrammarError.malformedPattern.inj heq
  exact ⟨⟨g, hok, hcompiled, hnames.trans (by decide), hrules⟩, herror, before, flags, after, hpatterns, hbefore⟩

end Definition
end Highlight
