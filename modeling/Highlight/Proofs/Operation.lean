import Highlight.Bundled
import Highlight.Definition.File
import Highlight.Proofs.Named

/-! Operations on a registry. Whoever has a registry may run operations on it in any order, and one that fails
    leaves the registry as it was. What a single operation can do is stated once (`change_perform`). -/

namespace Highlight.Registry

/-- A call that may change a registry. -/
inductive Operation where
  | define (name : String) (g : Grammar)
  | defineFile (format : FileLanguage) (name source : String)
  | extend (name base : String) (overrides : Grammar)
  | insert (language target : String) (placement : Placement) (entries : Grammar)
  | removeToken (language token : String)
  | addAlias (name target : String)

/-- What an operation gives, if it does not fail. -/
def perform? (r : Registry) : Operation → Except GrammarError Registry
  | .define name g => .ok (r.define name g)
  | .defineFile format name source => r.defineFile format name source
  | .extend name base overrides => r.extend name base overrides
  | .insert language target placement entries => r.insert language target placement entries
  | .removeToken language token => (r.removeToken language token).map (·.2)
  | .addAlias name target => r.addAlias name target

def perform (r : Registry) (op : Operation) : Registry :=
  match r.perform? op with
  | .ok r' => r'
  | .error _ => r

/-- The registry after operations, one after the other. -/
def run (r : Registry) (ops : List Operation) : Registry := ops.foldl perform r

@[simp] theorem run_nil (r : Registry) : r.run [] = r := rfl

@[simp] theorem run_cons (r : Registry) (op : Operation) (ops : List Operation) :
    r.run (op :: ops) = (r.perform op).run ops := rfl

theorem run_append (r : Registry) (ops ops' : List Operation) : r.run (ops ++ ops') = (r.run ops).run ops' :=
  List.foldl_append

/-- The registries to start from. -/
inductive Origin where
  | empty
  | bundled
  deriving DecidableEq, Repr

def Origin.registry : Origin → Registry
  | .empty => Registry.empty
  | .bundled => Bundled.registry

/-! ### What an operation does -/

/-- The operation registers a grammar under a name. -/
inductive Defines (r : Registry) : Operation → String → Grammar → Prop
  | define {name g} : Defines r (.define name g) name g
  | defineFile {format name source g} : Grammar.ofFile format source Pattern.defaultFailures = .ok g →
      Defines r (.defineFile format name source) name g
  | extend {name base overrides g} : r.get? base = some g →
      Defines r (.extend name base overrides) name (g.merged overrides)

/-- The operation makes a name stand for what `target` stands for. -/
inductive Aliases (r : Registry) : Operation → String → String → Prop
  | addAlias {name target g} : r.get? target = some g → r.canonical target ≠ name →
      Aliases r (.addAlias name target) name (r.canonical target)

/-- The operation changes the grammar of a language. -/
inductive Edits (r : Registry) : Operation → String → Grammar → Prop
  | insert {language target placement entries g g'} : r.get? language = some g →
      g.splice? target placement entries = some g' →
      Edits r (.insert language target placement entries) (r.canonical language) g'
  | removeToken {language token g e g'} : r.get? language = some g → g.remove? token = some (e, g') →
      Edits r (.removeToken language token) (r.canonical language) g'

/-- What an operation can come to. -/
inductive Change (r : Registry) (op : Operation) : Registry → Prop
  | defined {name g} : r.Defines op name g → Change r op (r.define name g)
  | aliased {name language} : r.Aliases op name language →
      Change r op ⟨dropValue name r.languages, putValue name language r.aliases⟩
  | edited {language g} : r.Edits op language g →
      Change r op { r with languages := putValue language g r.languages }
  | unchanged : (∀ name g, ¬ r.Defines op name g) → (∀ name language, ¬ r.Aliases op name language) →
      (∀ language g, ¬ r.Edits op language g) → Change r op r

section
variable {r r' : Registry} {op : Operation} {name language : String} {g : Grammar}

theorem resolve_of_some (h : r.get? name = some g) : r.resolve name = .ok g := by
  rw [resolve, h]

theorem resolve_of_none (h : r.get? name = none) : r.resolve name = .error (.unknownGrammar name) := by
  rw [resolve, h]

theorem perform_of_ok (h : r.perform? op = .ok r') : r.perform op = r' := by
  rw [perform, h]

theorem perform_of_error {e : GrammarError} (h : r.perform? op = .error e) : r.perform op = r := by
  rw [perform, h]

theorem Defines.perform?_eq (h : r.Defines op name g) : r.perform? op = .ok (r.define name g) := by
  cases h with
  | define => rfl
  | defineFile hg =>
    simp only [perform?, Registry.defineFile, hg]
    rfl
  | extend hg =>
    simp only [perform?, Registry.extend, resolve_of_some hg]
    rfl

theorem Aliases.perform?_eq (h : r.Aliases op name language) :
    r.perform? op = .ok ⟨dropValue name r.languages, putValue name language r.aliases⟩ := by
  cases h with
  | @addAlias _ target g hg hne =>
    have hne' : (name == r.canonical target) = false := beq_eq_false_iff_ne.mpr (Ne.symm hne)
    rw [get?] at hg
    simp only [perform?, Registry.addAlias, hg, hne']
    rfl

theorem Edits.perform?_eq (h : r.Edits op language g) :
    r.perform? op = .ok { r with languages := putValue language g r.languages } := by
  cases h with
  | insert hg hsplice =>
    simp only [perform?, Registry.insert, resolve_of_some hg, bind, Except.bind, hsplice]
    rfl
  | removeToken hg hremove =>
    simp only [perform?, Registry.removeToken, resolve_of_some hg, bind, Except.bind, hremove]
    rfl

theorem change_of_error {e : GrammarError} (h : r.perform? op = .error e) : Change r op r := by
  refine .unchanged ?_ ?_ ?_
  · intro name g hdef
    exact nomatch h.symm.trans hdef.perform?_eq
  · intro name language halias
    exact nomatch h.symm.trans halias.perform?_eq
  · intro language g hedit
    exact nomatch h.symm.trans hedit.perform?_eq

end

theorem change_perform (r : Registry) (op : Operation) : Change r op (r.perform op) := by
  have done : ∀ {r'}, r.perform? op = .ok r' → Change r op r' → Change r op (r.perform op) := by
    intro r' h hchange
    rwa [perform_of_ok h]
  have failed : ∀ {e}, r.perform? op = .error e → Change r op (r.perform op) := by
    intro e h
    rw [perform_of_error h]
    exact change_of_error h
  cases op with
  | define name g => exact done rfl (.defined .define)
  | defineFile format name source =>
    cases hg : Grammar.ofFile format source Pattern.defaultFailures with
    | ok g => exact done (Defines.perform?_eq (.defineFile hg)) (.defined (.defineFile hg))
    | error e => exact failed (e := e) (by simp only [perform?, defineFile, hg]; rfl)
  | extend name base overrides =>
    cases hg : r.get? base with
    | some g => exact done (Defines.perform?_eq (.extend hg)) (.defined (.extend hg))
    | none => exact failed (e := .unknownGrammar base) (by simp only [perform?, extend, resolve_of_none hg]; rfl)
  | insert language target placement entries =>
    cases hg : r.get? language with
    | none => exact failed (e := .unknownGrammar language) (by simp only [perform?, insert, resolve_of_none hg]; rfl)
    | some g =>
      cases hsplice : g.splice? target placement entries with
      | some g' => exact done (Edits.perform?_eq (.insert hg hsplice)) (.edited (.insert hg hsplice))
      | none =>
        exact failed (e := .unknownToken language target)
          (by simp only [perform?, insert, resolve_of_some hg, bind, Except.bind, hsplice]; rfl)
  | removeToken language token =>
    cases hg : r.get? language with
    | none => exact failed (e := .unknownGrammar language) (by simp only [perform?, removeToken, resolve_of_none hg]; rfl)
    | some g =>
      cases hremove : g.remove? token with
      | some removed =>
        exact done (Edits.perform?_eq (.removeToken hg hremove)) (.edited (.removeToken hg hremove))
      | none =>
        exact failed (e := .unknownToken language token)
          (by simp only [perform?, removeToken, resolve_of_some hg, bind, Except.bind, hremove]; rfl)
  | addAlias name target =>
    cases hg : r.get? target with
    | none =>
      have hg' : getValue? (r.canonical target) r.languages = none := hg
      exact failed (e := .unknownGrammar target) (by simp only [perform?, addAlias, hg']; rfl)
    | some g =>
      by_cases hname : r.canonical target = name
      · -- A language keeps its name; the operation succeeds and changes nothing.
        subst hname
        have hg' : getValue? (r.canonical target) r.languages = some g := hg
        have hok : r.perform? (.addAlias (r.canonical target) target) = .ok r := by
          simp only [perform?, addAlias, hg', beq_self_eq_true, if_true]
          rfl
        refine done hok (.unchanged ?_ ?_ ?_)
        · intro _ _ h
          cases h
        · intro _ _ h
          cases h with
          | addAlias _ hne => exact hne rfl
        · intro _ _ h
          cases h
      · exact done (Aliases.perform?_eq (.addAlias hg hname)) (.aliased (.addAlias hg hname))

end Highlight.Registry
