import Highlight.Proofs.Except
import Highlight.Proofs.Operation
import Highlight.Proofs.References

/-! What operations leave alone. An operation on a registry writes under one name, its key. Every name that is neither
    the key nor an alias of it stands for the same grammar afterwards, and a text is split as before with every language
    that uses no other names, however its references go (`run_apart`). -/

namespace Highlight.Registry

/-! ### Keys -/

/-- The name under which an operation writes: the one that it is given, or, where it changes the grammar of a language,
    the language that the given name stands for. -/
def key (r : Registry) : Operation → String
  | .define name _ => name
  | .defineFile _ name _ => name
  | .extend name _ _ => name
  | .insert language _ _ _ => r.canonical language
  | .removeToken language _ => r.canonical language
  | .addAlias name _ => name

/-- The keys of operations that run one after the other. -/
def keys : Registry → List Operation → List String
  | _, [] => []
  | r, op :: ops => r.key op :: keys (r.perform op) ops

/-- The name is neither the key nor an alias of it. -/
def Apart (r : Registry) (key name : String) : Prop := name ≠ key ∧ getValue? name r.aliases ≠ some key

section
variable {r : Registry} {op : Operation} {ops : List Operation} {name language : String} {g : Grammar}

theorem Defines.key_eq (h : r.Defines op name g) : r.key op = name := by cases h <;> rfl

theorem Aliases.key_eq (h : r.Aliases op name language) : r.key op = name := by cases h; rfl

theorem Edits.key_eq (h : r.Edits op language g) : r.key op = language := by cases h <;> rfl

/-- Under names other than its key an operation leaves both languages and aliases as they were. -/
theorem values_perform (h : r.key op ≠ name) :
    getValue? name (r.perform op).languages = getValue? name r.languages ∧
      getValue? name (r.perform op).aliases = getValue? name r.aliases := by
  have hchange := change_perform r op
  generalize r.perform op = r' at hchange ⊢
  cases hchange with
  | defined hdef =>
    rw [hdef.key_eq] at h
    simp only [define, getValue?_putValue, getValue?_dropValue, h, if_false, and_self]
  | aliased hadd =>
    rw [hadd.key_eq] at h
    simp only [getValue?_putValue, getValue?_dropValue, h, if_false, and_self]
  | edited hedit =>
    rw [hedit.key_eq] at h
    simp only [getValue?_putValue, h, if_false, and_self]
  | unchanged => exact ⟨rfl, rfl⟩

theorem values_run (h : name ∉ r.keys ops) :
    getValue? name (r.run ops).languages = getValue? name r.languages ∧
      getValue? name (r.run ops).aliases = getValue? name r.aliases := by
  induction ops generalizing r with
  | nil => exact ⟨rfl, rfl⟩
  | cons op ops ih =>
    obtain ⟨hkey, hkeys⟩ := not_or.mp (mt List.mem_cons.mpr h)
    obtain ⟨hlanguages, haliases⟩ := values_perform (Ne.symm hkey)
    obtain ⟨hlanguages', haliases'⟩ := ih hkeys
    exact ⟨hlanguages'.trans hlanguages, haliases'.trans haliases⟩

theorem canonical_run (h : name ∉ r.keys ops) : (r.run ops).canonical name = r.canonical name := by
  rw [canonical, canonical, (values_run h).2]

/-! ### Names apart from all keys -/

theorem Apart.canonical_ne {key : String} (h : r.Apart key name) : r.canonical name ≠ key := by
  rw [canonical]
  cases halias : getValue? name r.aliases with
  | none => exact h.1
  | some language => exact fun heq => h.2 (halias.trans (congrArg some heq))

theorem get?_of_keys (hname : name ∉ r.keys ops) (hcanonical : r.canonical name ∉ r.keys ops) :
    (r.run ops).get? name = r.get? name := by
  rw [get?, get?, canonical_run hname, (values_run hcanonical).1]

theorem get?_run (h : ∀ key ∈ r.keys ops, r.Apart key name) : (r.run ops).get? name = r.get? name :=
  get?_of_keys (fun hmem => (h name hmem).1 rfl) fun hmem => (h _ hmem).canonical_ne rfl

theorem resolve_eq_resolve {r' : Registry} (h : r'.get? name = r.get? name) : r'.resolve name = r.resolve name := by
  rw [resolve, resolve, h]

end

/-! ### Languages apart from all keys -/

/-- Splits a text with a language by a tokenizer for which references name the languages of the registry. -/
def tokenizeWith (r : Registry) (t : Tokenizer) (text language : String) : Except GrammarError (List Token) := do
  return (t.naming r.get?).tokenize (← r.resolve language) text

theorem tokenize_eq (r : Registry) (text language : String) :
    r.tokenize text language = r.tokenizeWith r.tokenizer text language := rfl

/-- The name is that of the language or of one that its grammar mentions. -/
def Uses (r : Registry) (language name : String) : Prop :=
  name = language ∨ ∃ g, r.get? language = some g ∧ g.Mentions r.get? name

section
variable {r r' : Registry} {ops : List Operation} {language : String} {t : Tokenizer} {text : String}

theorem tokenizeWith_of_some {g : Grammar} (h : r.get? language = some g) :
    r.tokenizeWith t text language = .ok ((t.naming r.get?).tokenize g text) := by
  rw [tokenizeWith, resolve_of_some h]
  rfl

theorem tokenizeWith_of_none (h : r.get? language = none) :
    r.tokenizeWith t text language = .error (.unknownGrammar language) := by
  rw [tokenizeWith, resolve_of_none h]
  rfl

theorem tokenizeWith_congr (h : ∀ name, r.Uses language name → r'.get? name = r.get? name) :
    r'.tokenizeWith t text language = r.tokenizeWith t text language := by
  have hlanguage : r'.get? language = r.get? language := h language (Or.inl rfl)
  cases hg : r.get? language with
  | none => rw [tokenizeWith_of_none hg, tokenizeWith_of_none (hlanguage.trans hg)]
  | some g =>
    have halike : Grammar.FindsAlike r.get? r'.get? g := fun name hname => h name (Or.inr ⟨g, hg, hname⟩)
    rw [tokenizeWith_of_some hg, tokenizeWith_of_some (hlanguage.trans hg), Tokenizer.tokenize_naming halike]

theorem extend_eq_ok {derived base : String} {overrides : Grammar} (h : r.extend derived base overrides = .ok r') :
    ∃ g, r' = r.define derived g := by
  obtain ⟨g, -, h⟩ := bind_eq_ok h
  exact ⟨g.merged overrides, (Except.ok.inj h).symm⟩

theorem canonical_define (r : Registry) (name : String) (g : Grammar) : (r.define name g).canonical name = name := by
  rw [canonical, define, getValue?_dropValue, if_pos rfl, Option.getD_none]

theorem get?_define (r : Registry) (name : String) (g : Grammar) : (r.define name g).get? name = some g := by
  rw [get?, canonical_define, define, getValue?_putValue, if_pos rfl]

/-- Operations that write under other names leave a language that has been defined as it is. -/
theorem resolve_run_define {name : String} {g : Grammar} (h : name ∉ (r.define name g).keys ops) :
    ((r.define name g).run ops).resolve name = (r.define name g).resolve name := by
  refine resolve_eq_resolve (get?_of_keys h ?_)
  rwa [canonical_define]

/-- Operations that write under the name of a language that has been defined leave all names as they are that stand for
    another one. -/
theorem resolve_run_of_canonical_ne {name name' : String} {g : Grammar} (h : ∀ key ∈ (r.define name g).keys ops, key = name)
    (hne : (r.define name g).canonical name' ≠ name) :
    ((r.define name g).run ops).resolve name' = (r.define name g).resolve name' := by
  refine resolve_eq_resolve (get?_of_keys (fun hmem => ?_) fun hmem => hne (h _ hmem))
  obtain rfl := h name' hmem
  exact hne (canonical_define r name' g)

end

/-- Operations leave languages alone that have nothing to do with their keys. If neither a language nor any name that its
    grammar mentions, directly or through other grammars, is the key of an operation or an alias of it, then the language
    resolves to the same grammar as before, and every text is split as before, however deep and with whichever engine.
    In particular a language that is derived from another one and that other one, if it is not the same, are not changed
    by operations on each other. -/
theorem run_apart (r : Registry) :
    (∀ ops language, (∀ key ∈ r.keys ops, ∀ name, r.Uses language name → r.Apart key name) →
      (r.run ops).resolve language = r.resolve language ∧
        ∀ t text, (r.run ops).tokenizeWith t text language = r.tokenizeWith t text language) ∧
    ∀ derived base overrides r', r.extend derived base overrides = .ok r' → derived ≠ r.canonical base → ∀ ops,
      (derived ∉ r'.keys ops → (r'.run ops).resolve derived = r'.resolve derived) ∧
        ((∀ key ∈ r'.keys ops, key = derived) →
          ∀ name, r'.canonical name = r.canonical base → (r'.run ops).resolve name = r'.resolve name) := by
  refine ⟨fun ops language hapart => ?_, fun derived base overrides r' hextend hne ops => ?_⟩
  · have hget : ∀ name, r.Uses language name → (r.run ops).get? name = r.get? name := fun name huses =>
      get?_run fun key hkey => hapart key hkey name huses
    exact ⟨resolve_eq_resolve (hget language (Or.inl rfl)), fun t text => tokenizeWith_congr hget⟩
  · obtain ⟨g, rfl⟩ := extend_eq_ok hextend
    refine ⟨resolve_run_define, fun hkeys name hname => ?_⟩
    exact resolve_run_of_canonical_ne hkeys (hname ▸ Ne.symm hne)

def innerSample : Grammar := ⟨[⟨"letter", [{ pattern := .literal "a" }]⟩], some (.named "outer")⟩

def outerSample : Grammar := ⟨[⟨"group", [{ pattern := .literal "(a)", inside := some (.named "inner") }]⟩], none⟩

/-- A registry in which two languages mention each other, and a third does not belong to them. -/
def frameSample : Registry :=
  ⟨[("outer", outerSample), ("inner", innerSample), ("other", innerSample)], [("another", "other")]⟩

/-- Operations on the third language, one of which fails. -/
def frameOperations : List Operation :=
  [.removeToken "another" "letter", .insert "other" "letter" .before outerSample, .define "other" outerSample,
    .addAlias "third" "another"]

theorem mentions_outerSample {name : String} (h : outerSample.Mentions frameSample.get? name) :
    name = "inner" ∨ name = "outer" := by
  have houter : outerSample.refs = [.named "inner"] := rfl
  have hinner : innerSample.refs = [.named "outer"] := rfl
  have houter' : frameSample.get? "outer" = some outerSample := rfl
  have hinner' : frameSample.get? "inner" = some innerSample := rfl
  obtain ⟨h, hreach, hmem⟩ := h
  -- The two grammars mention each other, so that nothing but the two is reached.
  have hreached : h = outerSample ∨ h = innerSample := by
    clear hmem
    induction hreach with
    | refl => exact Or.inl rfl
    | tail _ hrefers ih =>
      rcases ih with rfl | rfl
      · simp only [Grammar.refersTo_iff, houter, List.mem_singleton, reduceCtorEq, GrammarRef.named.injEq, false_or,
          exists_eq_left, hinner', Option.some.injEq] at hrefers
        exact Or.inr hrefers.symm
      · simp only [Grammar.refersTo_iff, hinner, List.mem_singleton, reduceCtorEq, GrammarRef.named.injEq, false_or,
          exists_eq_left, houter', Option.some.injEq] at hrefers
        exact Or.inl hrefers.symm
  rcases hreached with rfl | rfl
  · exact Or.inl (GrammarRef.named.inj (List.mem_singleton.mp (houter ▸ hmem)))
  · exact Or.inr (GrammarRef.named.inj (List.mem_singleton.mp (hinner ▸ hmem)))

theorem run_apart_sample :
    (∀ key ∈ frameSample.keys frameOperations, ∀ name, frameSample.Uses "outer" name → frameSample.Apart key name) ∧
      (frameSample.run frameOperations).resolve "outer" = .ok outerSample ∧
      (∀ t text, (frameSample.run frameOperations).tokenizeWith t text "outer" = frameSample.tokenizeWith t text "outer") ∧
      ∃ r', frameSample.extend "derived" "another" outerSample = .ok r' ∧ "derived" ≠ frameSample.canonical "another" ∧
        (r'.run [.removeToken "another" "letter"]).resolve "derived" = r'.resolve "derived" ∧
        (r'.run [.removeToken "derived" "letter"]).resolve "another" = r'.resolve "another" := by
  have hkeys : frameSample.keys frameOperations = ["other", "other", "other", "third"] := by decide
  have hapart : ∀ key ∈ frameSample.keys frameOperations, ∀ name, frameSample.Uses "outer" name →
      frameSample.Apart key name := by
    intro key hkey name huses
    have hname : name = "inner" ∨ name = "outer" := by
      rcases huses with rfl | ⟨g, hg, hmentions⟩
      · exact Or.inr rfl
      · obtain rfl : outerSample = g := Option.some.inj hg
        exact mentions_outerSample hmentions
    rw [hkeys] at hkey
    have hall : ∀ key ∈ ["other", "other", "other", "third"], ∀ name ∈ ["inner", "outer"], name ≠ key ∧
        getValue? name frameSample.aliases ≠ some key := by decide
    exact hall key hkey name (by simpa using hname)
  obtain ⟨hframe, hderived⟩ := run_apart frameSample
  obtain ⟨hresolve, htokens⟩ := hframe frameOperations "outer" hapart
  have houter : frameSample.resolve "outer" = .ok outerSample := rfl
  have hne : "derived" ≠ frameSample.canonical "another" := by decide
  have hextend : frameSample.extend "derived" "another" outerSample =
      .ok (frameSample.define "derived" (innerSample.merged outerSample)) := rfl
  refine ⟨hapart, hresolve.trans houter, htokens, _, hextend, hne, ?_, ?_⟩
  · exact (hderived _ _ _ _ hextend hne [.removeToken "another" "letter"]).1 (by decide)
  · exact (hderived _ _ _ _ hextend hne [.removeToken "derived" "letter"]).2 (by decide) "another" (by decide)

end Highlight.Registry
