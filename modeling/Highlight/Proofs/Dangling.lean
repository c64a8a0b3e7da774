import Highlight.Proofs.Except
import Highlight.Proofs.Operation

/-! Aliases whose language is gone. Making an alias of a language takes its grammar away, and the aliases that
    stood for that language are left without one. Such an alias stays listed and resolves to nothing until it, or
    the language that it stands for, is given a grammar again. Nothing else makes a listed name fail. -/

namespace Highlight.Registry

/-- The name is an alias for a language that is not there. -/
def Dangles (r : Registry) (name : String) : Prop :=
  ∃ language, getValue? name r.aliases = some language ∧ getValue? language r.languages = none

/-- The operation makes an alias of the language that another alias stands for. -/
def Strands (r : Registry) (op : Operation) (name : String) : Prop :=
  ∃ language target, r.Aliases op language target ∧ name ≠ language ∧ getValue? name r.aliases = some language

/-- The operation gives the alias, or the language that it stands for, a grammar. -/
inductive Rescues (r : Registry) (op : Operation) (name : String) : Prop
  | defined {g} : r.Defines op name g → Rescues r op name
  | language {g} : r.Defines op (r.canonical name) g → Rescues r op name
  | aliased {language} : r.Aliases op name language → Rescues r op name

/-! ### One operation -/

section
variable {r : Registry} {op : Operation} {name name' language language' : String} {g g' : Grammar}

theorem canonical_of_alias (h : getValue? name r.aliases = some language) : r.canonical name = language := by
  rw [canonical, h, Option.getD_some]

theorem Defines.name_unique (h : r.Defines op name g) (h' : r.Defines op name' g') : name = name' := by
  cases h <;> cases h' <;> rfl

theorem Defines.not_aliases (h : r.Defines op name g) : ¬ r.Aliases op name' language := by
  intro h'
  cases h <;> cases h'

theorem Aliases.unique (h : r.Aliases op name language) (h' : r.Aliases op name' language') :
    name = name' ∧ language = language' := by
  cases h
  cases h'
  exact ⟨rfl, rfl⟩

theorem Aliases.not_defines (h : r.Aliases op name language) : ¬ r.Defines op name' g := fun h' => h'.not_aliases h

theorem Aliases.language_ne (h : r.Aliases op name language) : language ≠ name := by
  cases h with
  | addAlias _ hne => exact hne

theorem Aliases.language_some (h : r.Aliases op name language) : ∃ g, getValue? language r.languages = some g := by
  cases h with
  | addAlias hg _ => exact ⟨_, hg⟩

theorem Edits.not_defines (h : r.Edits op language g) : ¬ r.Defines op name g' := by
  intro h'
  cases h <;> cases h'

theorem Edits.not_aliases (h : r.Edits op language g) : ¬ r.Aliases op name language' := by
  intro h'
  cases h <;> cases h'

theorem Edits.language_some (h : r.Edits op language g) : ∃ g', getValue? language r.languages = some g' := by
  cases h with
  | insert hg _ => exact ⟨_, hg⟩
  | removeToken hg _ => exact ⟨_, hg⟩

/-- After an operation an alias dangles if it did before and was not rescued, or if the operation took its language
    away. -/
theorem dangles_perform (r : Registry) (op : Operation) (name : String) :
    (r.perform op).Dangles name ↔ r.Dangles name ∧ ¬ r.Rescues op name ∨ r.Strands op name := by
  have hchange := change_perform r op
  generalize r.perform op = r' at hchange ⊢
  cases hchange with
  | @defined defined g hdef =>
    have hstrands : ¬ r.Strands op name := fun ⟨_, _, halias, _⟩ => hdef.not_aliases halias
    simp only [Dangles, define, getValue?_dropValue, getValue?_putValue, hstrands, or_false]
    constructor
    · rintro ⟨language, halias, hgone⟩
      by_cases hname : defined = name
      · simp [hname] at halias
      · by_cases hlanguage : defined = language
        · simp [hlanguage] at hgone
        · simp only [hname, hlanguage, if_false] at halias hgone
          refine ⟨⟨language, halias, hgone⟩, ?_⟩
          rintro (hdef' | hdef' | halias')
          · exact hname (hdef.name_unique hdef')
          · exact hlanguage ((hdef.name_unique hdef').trans (canonical_of_alias halias))
          · exact hdef.not_aliases halias'
    · rintro ⟨⟨language, halias, hgone⟩, hrescues⟩
      have hname : defined ≠ name := by
        rintro rfl
        exact hrescues (.defined hdef)
      have hlanguage : defined ≠ language := by
        rintro rfl
        exact hrescues (.language (canonical_of_alias halias ▸ hdef))
      exact ⟨language, by simp only [hname, if_false, halias], by simp only [hlanguage, if_false, hgone]⟩
  | @aliased added target hadd =>
    simp only [Dangles, getValue?_dropValue, getValue?_putValue]
    constructor
    · rintro ⟨language, halias, hgone⟩
      by_cases hname : added = name
      · -- The alias that was added stands for a language that is there.
        obtain ⟨g, hg⟩ := hadd.language_some
        simp only [hname, if_true, Option.some.injEq] at halias
        subst halias
        rw [if_neg (Ne.symm hadd.language_ne)] at hgone
        exact nomatch hgone.symm.trans hg
      · simp only [hname, if_false] at halias
        by_cases hlanguage : added = language
        · subst hlanguage
          exact Or.inr ⟨added, target, hadd, Ne.symm hname, halias⟩
        · rw [if_neg hlanguage] at hgone
          refine Or.inl ⟨⟨language, halias, hgone⟩, ?_⟩
          rintro (hdef | hdef | hadd')
          · exact hadd.not_defines hdef
          · exact hadd.not_defines hdef
          · exact hname (hadd.unique hadd').1
    · rintro (⟨⟨language, halias, hgone⟩, hrescues⟩ | ⟨language, target', hadd', hne, halias⟩)
      · have hname : added ≠ name := by
          rintro rfl
          exact hrescues (.aliased hadd)
        refine ⟨language, by simp only [hname, if_false, halias], ?_⟩
        split
        · rfl
        · exact hgone
      · obtain ⟨rfl, rfl⟩ := hadd.unique hadd'
        exact ⟨added, by simp only [Ne.symm hne, if_false, halias], by simp⟩
  | @edited edited g hedit =>
    have hstrands : ¬ r.Strands op name := fun ⟨_, _, halias, _⟩ => hedit.not_aliases halias
    have hrescues : ¬ r.Rescues op name := by
      rintro (hdef | hdef | halias)
      · exact hedit.not_defines hdef
      · exact hedit.not_defines hdef
      · exact hedit.not_aliases halias
    simp only [hstrands, hrescues, or_false, not_false_eq_true, and_true, Dangles, getValue?_putValue]
    obtain ⟨g', hg'⟩ := hedit.language_some
    constructor
    · rintro ⟨language, halias, hgone⟩
      by_cases hlanguage : edited = language
      · simp [hlanguage] at hgone
      · exact ⟨language, halias, by simpa only [hlanguage, if_false] using hgone⟩
    · rintro ⟨language, halias, hgone⟩
      have hlanguage : edited ≠ language := by
        rintro rfl
        exact nomatch hgone.symm.trans hg'
      exact ⟨language, halias, by simp only [hlanguage, if_false, hgone]⟩
  | unchanged hdef halias _ =>
    have hstrands : ¬ r.Strands op name := fun ⟨_, _, halias', _⟩ => halias _ _ halias'
    have hrescues : ¬ r.Rescues op name := by
      rintro (hdef' | hdef' | halias')
      · exact hdef _ _ hdef'
      · exact hdef _ _ hdef'
      · exact halias _ _ halias'
    simp only [hstrands, hrescues, or_false, not_false_eq_true, and_true]

end

/-! ### Operations in turn -/

/-- One of the operations gives the alias, or the language that it stands for, a grammar. -/
def Rescued (r : Registry) (ops : List Operation) (name : String) : Prop :=
  ∃ before op after, ops = before ++ op :: after ∧ (r.run before).Rescues op name

/-- One of the operations takes away the language that the alias stands for, and none after it gives one back. -/
def Stranded (r : Registry) (ops : List Operation) (name : String) : Prop :=
  ∃ before op after, ops = before ++ op :: after ∧ (r.run before).Strands op name ∧
    ¬ (r.run (before ++ [op])).Rescued after name

theorem run_concat (r : Registry) (ops : List Operation) (op : Operation) :
    r.run (ops ++ [op]) = (r.run ops).perform op := run_append r ops [op]

section
variable {r : Registry} {op : Operation} {ops : List Operation} {name : String}

theorem not_rescued_nil : ¬ r.Rescued [] name := by
  rintro ⟨before, op, after, h, -⟩
  simp at h

theorem not_stranded_nil : ¬ r.Stranded [] name := by
  rintro ⟨before, op, after, h, -⟩
  simp at h

theorem rescued_cons : r.Rescued (op :: ops) name ↔ r.Rescues op name ∨ (r.perform op).Rescued ops name := by
  constructor
  · rintro ⟨_ | ⟨op', before⟩, op'', after, h, hrescues⟩
    · cases h
      exact Or.inl hrescues
    · cases h
      exact Or.inr ⟨before, op'', after, rfl, hrescues⟩
  · rintro (hrescues | ⟨before, op', after, rfl, hrescues⟩)
    · exact ⟨[], op, ops, rfl, hrescues⟩
    · exact ⟨op :: before, op', after, rfl, hrescues⟩

theorem stranded_cons : r.Stranded (op :: ops) name ↔
    r.Strands op name ∧ ¬ (r.perform op).Rescued ops name ∨ (r.perform op).Stranded ops name := by
  constructor
  · rintro ⟨_ | ⟨op', before⟩, op'', after, h, hstrands⟩
    · cases h
      exact Or.inl hstrands
    · cases h
      exact Or.inr ⟨before, op'', after, rfl, hstrands⟩
  · rintro (hstrands | ⟨before, op', after, rfl, hstrands⟩)
    · exact ⟨[], op, ops, rfl, hstrands⟩
    · exact ⟨op :: before, op', after, rfl, hstrands⟩

/-- In the end an alias dangles if it did at first and was not rescued, or if it was stranded on the way. -/
theorem dangles_run (r : Registry) (ops : List Operation) (name : String) :
    (r.run ops).Dangles name ↔ r.Dangles name ∧ ¬ r.Rescued ops name ∨ r.Stranded ops name := by
  induction ops generalizing r with
  | nil => simp [not_rescued_nil, not_stranded_nil]
  | cons op ops ih =>
    rw [run_cons, ih, dangles_perform, rescued_cons, stranded_cons, not_or, and_assoc.symm, or_assoc.symm,
      or_and_right]

end

/-! ### The registries to start from -/

def Aliasless (ops : List Operation) : Prop := ∀ op ∈ ops, ∀ name target, op ≠ .addAlias name target

section
variable {r r' : Registry}

theorem aliases_perform {op : Operation} (h : r.aliases = []) (hop : ∀ name target, op ≠ .addAlias name target) :
    (r.perform op).aliases = [] := by
  have hchange := change_perform r op
  generalize r.perform op = r' at hchange ⊢
  cases hchange with
  | defined => simp [define, dropValue, h]
  | aliased halias =>
    cases halias
    exact absurd rfl (hop _ _)
  | edited => exact h
  | unchanged => exact h

theorem aliases_run {ops : List Operation} (h : r.aliases = []) (hops : Aliasless ops) : (r.run ops).aliases = [] := by
  induction ops generalizing r with
  | nil => exact h
  | cons op ops ih =>
    obtain ⟨hop, hops⟩ := List.forall_mem_cons.mp hops
    exact ih (aliases_perform h hop) hops

end

theorem registerC_eq_run {r r' : Registry} (h : Bundled.C.register r = .ok r') :
    ∃ ops, Aliasless ops ∧ r' = r.run ops := by
  unfold Bundled.C.register at h
  obtain ⟨overrides, -, h⟩ := bind_eq_ok h
  obtain ⟨extended, hextend, h⟩ := bind_eq_ok h
  obtain ⟨preprocessor, -, h⟩ := bind_eq_ok h
  obtain ⟨inserted, hinsert, h⟩ := bind_eq_ok h
  obtain ⟨removed, hremove, h⟩ := bind_eq_ok h
  cases h
  have h1 : r.perform (.extend Bundled.C.language Bundled.CLike.language overrides) = extended := perform_of_ok hextend
  have h2 : extended.perform (.insert Bundled.C.language "string" .before preprocessor) = inserted :=
    perform_of_ok hinsert
  have h3 : inserted.perform (.removeToken Bundled.C.language "boolean") = removed.2 :=
    perform_of_ok (by rw [perform?, hremove]; rfl)
  refine ⟨[.extend Bundled.C.language Bundled.CLike.language overrides,
    .insert Bundled.C.language "string" .before preprocessor, .removeToken Bundled.C.language "boolean"], ?_, ?_⟩
  · simp [Aliasless]
  · rw [run_cons, h1, run_cons, h2, run_cons, h3, run_nil]

theorem registerBash_eq_run {r r' : Registry} (h : Bundled.Bash.register r = .ok r') :
    ∃ ops name target, Aliasless ops ∧ r' = r.run (ops ++ [.addAlias name target]) := by
  unfold Bundled.Bash.register at h
  obtain ⟨bash, -, h⟩ := bind_eq_ok h
  obtain ⟨delimiters, -, h⟩ := bind_eq_ok h
  have halias : ∀ {inside}, ((r.define Bundled.Bash.language bash).define Bundled.Bash.substitution inside).addAlias
      "shell" Bundled.Bash.language = .ok r' →
      ∃ ops name target, Aliasless ops ∧ r' = r.run (ops ++ [.addAlias name target]) := by
    intro inside h
    refine ⟨[.define Bundled.Bash.language bash, .define Bundled.Bash.substitution inside], "shell",
      Bundled.Bash.language, by simp [Aliasless], ?_⟩
    have halias : ((r.define Bundled.Bash.language bash).define Bundled.Bash.substitution inside).perform
        (.addAlias "shell" Bundled.Bash.language) = r' := perform_of_ok h
    rw [run_concat, ← halias]
    rfl
  simp only [Bundled.Bash.aliases, List.foldlM_cons, List.foldlM_nil, bind_pure] at h
  exact halias h

/-- The bundled languages are registered by operations, and the last adds the only alias. -/
theorem bundled_eq_run {r : Registry} (h : Bundled.registry? = .ok r) :
    ∃ ops name target, Aliasless ops ∧ r = Registry.empty.run (ops ++ [.addAlias name target]) := by
  unfold Bundled.registry? Bundled.register at h
  obtain ⟨lua, -, h⟩ := bind_eq_ok h
  obtain ⟨nelua, -, h⟩ := bind_eq_ok h
  obtain ⟨clike, -, h⟩ := bind_eq_ok h
  obtain ⟨c, hc, h⟩ := bind_eq_ok h
  obtain ⟨opsC, hopsC, rfl⟩ := registerC_eq_run hc
  obtain ⟨opsBash, name, target, hopsBash, rfl⟩ := registerBash_eq_run h
  refine ⟨[.define Bundled.Lua.language lua, .define Bundled.Nelua.language nelua,
    .define Bundled.CLike.language clike] ++ opsC ++ opsBash, name, target, ?_, ?_⟩
  · intro op hop
    simp only [List.mem_append] at hop
    rcases hop with (hop | hop) | hop
    · revert op
      simp
    · exact hopsC op hop
    · exact hopsBash op hop
  · simp only [List.append_assoc, run_append]
    rfl

theorem bundled_cases : Bundled.registry = Registry.empty ∨ Bundled.registry? = .ok Bundled.registry := by
  unfold Bundled.registry
  generalize Bundled.registry? = bundled
  cases bundled with
  | ok r => exact Or.inr rfl
  | error e => exact Or.inl rfl

theorem origin_eq_run (origin : Origin) :
    origin.registry = Registry.empty ∨
      ∃ ops name target, Aliasless ops ∧ origin.registry = Registry.empty.run (ops ++ [.addAlias name target]) := by
  cases origin with
  | empty => exact Or.inl rfl
  | bundled =>
    simp only [Origin.registry]
    rcases bundled_cases with h | h
    · exact Or.inl h
    · exact Or.inr (bundled_eq_run h)

theorem not_dangles_origin (origin : Origin) (name : String) : ¬ origin.registry.Dangles name := by
  rcases origin_eq_run origin with h | ⟨ops, added, target, hops, h⟩
  · rw [h]
    rintro ⟨language, halias, -⟩
    cases halias
  · have haliases : (Registry.empty.run ops).aliases = [] := aliases_run rfl hops
    rw [h, run_concat, dangles_perform]
    rintro (⟨⟨language, halias, -⟩, -⟩ | ⟨language, _, -, -, halias⟩)
    · rw [haliases] at halias
      cases halias
    · rw [haliases] at halias
      cases halias

/-! ### Names that resolve -/

section
variable {r : Registry} {name : String}

theorem mem_names : name ∈ r.names ↔
    (∃ g, getValue? name r.languages = some g) ∨ ∃ language, getValue? name r.aliases = some language := by
  rw [names, (List.mergeSort_perm _ _).mem_iff, List.mem_append, mem_keys, mem_keys]

/-- A listed name resolves unless it dangles. -/
theorem get?_isSome_iff (hname : name ∈ r.names) : (∃ g, r.get? name = some g) ↔ ¬ r.Dangles name := by
  rw [get?]
  cases halias : getValue? name r.aliases with
  | some language =>
    rw [canonical_of_alias halias, Dangles, halias]
    cases hlanguage : getValue? language r.languages <;> simp [hlanguage]
  | none =>
    have hcanonical : r.canonical name = name := by rw [canonical, halias, Option.getD_none]
    rcases mem_names.mp hname with ⟨g, hg⟩ | ⟨language, hlanguage⟩
    · rw [hcanonical, hg]
      simp [Dangles, halias]
    · rw [halias] at hlanguage
      cases hlanguage

end

/-- After any operations, failing ones among them, every listed name resolves exactly if none of the operations
    made an alias of a language that another alias stood for, or each alias stranded that way was rescued later. -/
theorem names_resolve_iff (origin : Origin) (ops : List Operation) :
    (∀ name ∈ (origin.registry.run ops).names,
        (origin.registry.run ops).has name = true ∧ ∃ g, (origin.registry.run ops).resolve name = .ok g) ↔
      ∀ name, ¬ origin.registry.Stranded ops name := by
  have hdangles : ∀ name, (origin.registry.run ops).Dangles name ↔ origin.registry.Stranded ops name := by
    intro name
    rw [dangles_run]
    simp [not_dangles_origin]
  constructor
  · intro h name hstranded
    obtain ⟨language, halias, hgone⟩ := (hdangles name).mpr hstranded
    have hname : name ∈ (origin.registry.run ops).names := mem_names.mpr (Or.inr ⟨language, halias⟩)
    obtain ⟨g, hg⟩ := Option.isSome_iff_exists.mp (h name hname).1
    exact (get?_isSome_iff hname).mp ⟨g, hg⟩ ⟨language, halias, hgone⟩
  · intro h name hname
    obtain ⟨g, hg⟩ := (get?_isSome_iff hname).mpr fun hdangle => h name ((hdangles name).mp hdangle)
    exact ⟨by rw [has, hg]; rfl, g, resolve_of_some hg⟩

/-- A language that becomes an alias leaves another alias behind that is listed and does not resolve. -/
theorem names_resolve_fails :
    let r := Origin.empty.registry.run
      [.define "a" .empty, .addAlias "b" "a", .define "c" .empty, .addAlias "a" "c"]
    "b" ∈ r.names ∧ r.has "b" = false ∧ r.resolve "b" = .error (.unknownGrammar "b") :=
  ⟨mem_names.mpr (Or.inr ⟨"a", rfl⟩), rfl, rfl⟩

end Highlight.Registry
