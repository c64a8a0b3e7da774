import Highlight.Proofs.Compiling
import Highlight.Proofs.Entries
import Highlight.Proofs.Operation

/-! Operations that fail. What an operation fails with is read off the registry and what the operation is given
    (`perform?_eq_error`), and one that fails changes nothing. The latter says something only where steps write before
    others fail, so that the operations are taken step by step here, and found to come to the same (`outcome_steps`). -/

namespace Highlight.Registry

/-! ### What operations fail with -/

/-- An entry of a language is not there: there is no such language, or its grammar has no entry of that name. -/
inductive Missing (r : Registry) (language token : String) : GrammarError → Prop
  | language : r.get? language = none → Missing r language token (.unknownGrammar language)
  | token {g} : r.get? language = some g → token ∉ g.names → Missing r language token (.unknownToken language token)

/-- The operation has a fault. Of a file that can be read, the first pattern that does not compile is at fault. -/
inductive Fault (r : Registry) : Operation → GrammarError → Prop
  | extend {name base overrides} : r.get? base = none → Fault r (.extend name base overrides) (.unknownGrammar base)
  | addAlias {name target} : r.get? target = none → Fault r (.addAlias name target) (.unknownGrammar target)
  | insert {language target placement entries e} : r.Missing language target e →
      Fault r (.insert language target placement entries) e
  | removeToken {language token e} : r.Missing language token e → Fault r (.removeToken language token) e
  | unreadable {format name source cause} : Definition.read format source = .error (.invalidDefinition cause) →
      Fault r (.defineFile format name source) (.invalidDefinition cause)
  | malformed {format name source d before pattern flags after cause} : Definition.read format source = .ok d →
      d.patterns = before ++ (pattern, flags) :: after →
      (∀ p ∈ before, ∃ compiled, Pattern.compile p.1 p.2 Pattern.defaultFailures = .ok compiled) →
      Pattern.compile pattern flags Pattern.defaultFailures = .error cause →
      Fault r (.defineFile format name source) (.malformedPattern pattern cause)

section
variable {r : Registry} {op : Operation} {e : GrammarError} {name language token : String} {g : Grammar}

theorem resolve_eq_error : r.resolve name = .error e ↔ r.get? name = none ∧ e = .unknownGrammar name := by
  cases h : r.get? name with
  | none => simp [resolve_of_none h, eq_comm]
  | some g => simp [resolve_of_some h]

theorem resolve_eq_ok : r.resolve name = .ok g ↔ r.get? name = some g := by
  cases h : r.get? name with
  | none => simp [resolve_of_none h]
  | some h' => simp [resolve_of_some h]

/-- What is done with an entry of a language fails for want of the language or of the entry, and for nothing else. -/
theorem bind_resolve_eq_error {α : Type} {edit : Grammar → Except GrammarError α}
    (hin : ∀ g, token ∈ g.names → ∃ a, edit g = .ok a)
    (hout : ∀ g, token ∉ g.names → edit g = .error (.unknownToken language token)) :
    (r.resolve language >>= edit) = .error e ↔ r.Missing language token e := by
  rw [bind_eq_error, resolve_eq_error]
  constructor
  · rintro (⟨hg, rfl⟩ | ⟨g, hg, hedit⟩)
    · exact .language hg
    · by_cases hmem : token ∈ g.names
      · obtain ⟨a, ha⟩ := hin g hmem
        cases ha.symm.trans hedit
      · obtain rfl := Except.error.inj ((hout g hmem).symm.trans hedit)
        exact .token (resolve_eq_ok.mp hg) hmem
  · rintro (hg | ⟨hg, hmem⟩)
    · exact Or.inl ⟨hg, rfl⟩
    · exact Or.inr ⟨_, resolve_eq_ok.mpr hg, hout _ hmem⟩

theorem insert_eq_error {target : String} {placement : Placement} {entries : Grammar} :
    r.insert language target placement entries = .error e ↔ r.Missing language target e := by
  refine bind_resolve_eq_error (fun g hmem => ?_) fun g hmem => ?_
  · obtain ⟨g', hsplice⟩ := Grammar.exists_splice? placement entries hmem
    rw [hsplice]
    exact ⟨_, rfl⟩
  · rw [Grammar.splice?_eq_none.mpr hmem]
    rfl

theorem removeToken_eq_error : r.removeToken language token = .error e ↔ r.Missing language token e := by
  refine bind_resolve_eq_error (fun g hmem => ?_) fun g hmem => ?_
  · obtain ⟨removed, hremove⟩ := Grammar.exists_remove? hmem
    rw [hremove]
    exact ⟨_, rfl⟩
  · rw [Grammar.remove?_eq_none.mpr hmem]
    rfl

theorem addAlias_eq_error {target : String} :
    r.addAlias name target = .error e ↔ r.get? target = none ∧ e = .unknownGrammar target := by
  rw [addAlias, get?]
  cases getValue? (r.canonical target) r.languages with
  | none => simp [throw, throwThe, MonadExceptOf.throw, eq_comm]
  | some g =>
    by_cases hname : name = r.canonical target
    · simp [hname, pure, Except.pure]
    · simp [hname, pure, Except.pure]

theorem read_eq_error {format : FileLanguage} {source : String} (h : Definition.read format source = .error e) :
    ∃ cause, e = .invalidDefinition cause := by
  rw [← errorOf_eq_some, Definition.read.eq_def, errorOf_mapError, Option.map_eq_some_iff] at h
  obtain ⟨cause, -, rfl⟩ := h
  exact ⟨cause, rfl⟩

theorem defineFile_eq_error {format : FileLanguage} {source : String} :
    r.defineFile format name source = .error e ↔ Definition.read format source = .error e ∨
      ∃ d, Definition.read format source = .ok d ∧ d.compile Pattern.defaultFailures = .error e := by
  rw [← errorOf_eq_some, defineFile, errorOf_bind_pure, errorOf_eq_some, Grammar.ofFile, bind_eq_error]

/-- An operation fails exactly with the faults that it has. -/
theorem perform?_eq_error : r.perform? op = .error e ↔ r.Fault op e := by
  cases op with
  | define name g => exact ⟨nofun, nofun⟩
  | defineFile format name source =>
    rw [perform?, defineFile_eq_error]
    constructor
    · rintro (hread | ⟨d, hread, hcompile⟩)
      · obtain ⟨cause, rfl⟩ := read_eq_error hread
        exact .unreadable hread
      · obtain ⟨before, pattern, flags, after, cause, hpatterns, hbefore, hcause, rfl⟩ :=
          Definition.compile_eq_error.mp hcompile
        exact .malformed hread hpatterns hbefore hcause
    · intro h
      cases h with
      | unreadable hread => exact Or.inl hread
      | malformed hread hpatterns hbefore hcause =>
        exact Or.inr ⟨_, hread, Definition.compile_eq_error.mpr ⟨_, _, _, _, _, hpatterns, hbefore, hcause, rfl⟩⟩
  | extend name base overrides =>
    rw [perform?, ← errorOf_eq_some, extend, errorOf_bind_pure, errorOf_eq_some, resolve_eq_error]
    constructor
    · rintro ⟨h, rfl⟩
      exact .extend h
    · rintro ⟨⟩
      exact ⟨‹_›, rfl⟩
  | insert language target placement entries =>
    rw [perform?, insert_eq_error]
    constructor
    · exact .insert
    · rintro ⟨⟩
      assumption
  | removeToken language token =>
    rw [perform?, ← errorOf_eq_some, errorOf_map, errorOf_eq_some, removeToken_eq_error]
    constructor
    · exact .removeToken
    · rintro ⟨⟩
      assumption
  | addAlias name target =>
    rw [perform?, addAlias_eq_error]
    constructor
    · rintro ⟨h, rfl⟩
      exact .addAlias h
    · rintro ⟨⟩
      exact ⟨‹_›, rfl⟩

/-- A file is no definition exactly if it cannot be read or some pattern in it does not compile. -/
theorem defineFile_fails {format : FileLanguage} {source : String} :
    (∃ e, r.defineFile format name source = .error e) ↔ (∃ e, Definition.read format source = .error e) ∨
      ∃ d, Definition.read format source = .ok d ∧
        ∃ p ∈ d.patterns, ∃ cause, Pattern.compile p.1 p.2 Pattern.defaultFailures = .error cause := by
  simp only [defineFile_eq_error, exists_or, ← Definition.compile_fails]
  refine or_congr_right ⟨?_, ?_⟩
  · rintro ⟨e, d, hread, hcompile⟩
    exact ⟨d, hread, e, hcompile⟩
  · rintro ⟨d, hread, e, hcompile⟩
    exact ⟨e, d, hread, hcompile⟩

end

/-! ### Operations step by step -/

/-- Steps that read a registry and write to it, each of which may fail. What was written before stays written then. -/
abbrev Steps := ExceptT GrammarError (StateM Registry)

namespace Steps

/-- What steps come to, and the registry as they leave it. -/
def outcome {α : Type} (steps : Steps α) (r : Registry) : Except GrammarError α × Registry := (steps.run.run r).run

/-- Looks up the grammar that a name stands for. -/
def lookUp (name : String) : Steps Grammar := do MonadExcept.ofExcept ((← get).resolve name)

/-- Puts a grammar in the place of the one that a name stands for. -/
def replace (name : String) (g : Grammar) : Steps Unit :=
  modify fun r => { r with languages := putValue (r.canonical name) g r.languages }

/-- Registers a grammar under a name, which is no alias any more by then. -/
def define (name : String) (g : Grammar) : Steps Unit := do
  modify fun r => { r with aliases := dropValue name r.aliases }
  modify fun r => { r with languages := putValue name g r.languages }

end Steps

/-- The steps of an operation, in their order. -/
def Operation.steps : Operation → Steps Unit
  | .define name g => Steps.define name g
  | .defineFile format name source => do
    let d ← MonadExcept.ofExcept (Definition.read format source)
    let g ← MonadExcept.ofExcept (d.compile Pattern.defaultFailures)
    Steps.define name g
  | .extend name base overrides => do
    let g ← Steps.lookUp base
    Steps.define name (g.merged overrides)
  | .insert language target placement entries => do
    let g ← Steps.lookUp language
    if g.contains target then
      Steps.replace language ((g.splice? target placement entries).getD g)
    else throw (.unknownToken language target)
  | .removeToken language token => do
    let g ← Steps.lookUp language
    if g.contains token then
      -- The grammar is changed by the time that the entry is given back which has been taken out.
      Steps.replace language (((g.remove? token).map (·.2)).getD g)
      if (g.remove? token).isNone then throw (.unknownToken language token)
    else throw (.unknownToken language token)
  | .addAlias name target => do
    let r ← get
    let language := r.canonical target
    if (getValue? language r.languages).isNone then throw (.unknownGrammar target)
    if name != language then
      modify fun r => { r with languages := dropValue name r.languages }
      modify fun r => { r with aliases := putValue name language r.aliases }

/-- The other registry, or the error and the registry as it was. -/
def settled (r : Registry) : Except GrammarError Registry → Except GrammarError Unit × Registry
  | .ok r' => (.ok (), r')
  | .error e => (.error e, r)

section
variable {α : Type} {r : Registry}

theorem settled_eq_error {x : Except GrammarError Registry} {e : GrammarError} {r' : Registry}
    (h : r.settled x = (.error e, r')) : r' = r := by
  cases x with
  | ok => cases h
  | error => exact (Prod.mk.inj h).2.symm

namespace Steps

theorem outcome_get_bind {f : Registry → Steps Unit} : (get >>= f).outcome r = (f r).outcome r := rfl

theorem outcome_ofExcept (x : Except GrammarError α) : (MonadExcept.ofExcept x : Steps α).outcome r = (x, r) := by
  cases x <;> rfl

theorem outcome_lookUp (name : String) : (lookUp name).outcome r = (r.resolve name, r) :=
  outcome_ofExcept (r.resolve name)

theorem outcome_define (name : String) (g : Grammar) :
    (define name g).outcome r = r.settled (.ok (r.define name g)) := rfl

/-- After steps that only read, the others come to what they come to on the registry as it was. -/
theorem outcome_bind {p : Steps α} {x : Except GrammarError α} {f : α → Steps Unit} {k : α → Except GrammarError Registry}
    (hp : p.outcome r = (x, r)) (hf : ∀ a, (f a).outcome r = r.settled (k a)) :
    (p >>= f).outcome r = r.settled (x >>= k) := by
  have hrun : (p >>= f).outcome r = match x with
      | .ok a => (f a).outcome r
      | .error e => (.error e, r) := by
    simp only [outcome, ExceptT.run_bind, StateT.run_bind] at hp ⊢
    simp only [Id.run_bind, hp]
    cases x <;> rfl
  rw [hrun]
  cases x with
  | error e => rfl
  | ok a => exact hf a

end Steps
end

/-- The steps of an operation come to what the operation gives, and leave the registry as it was if one of them fails. -/
theorem outcome_steps (r : Registry) (op : Operation) : op.steps.outcome r = r.settled (r.perform? op) := by
  cases op with
  | define name g => exact Steps.outcome_define name g
  | defineFile format name source =>
    rw [perform?, Registry.defineFile, Grammar.ofFile, bind_assoc]
    exact Steps.outcome_bind (Steps.outcome_ofExcept _) fun d =>
      Steps.outcome_bind (Steps.outcome_ofExcept _) fun g => Steps.outcome_define name g
  | extend name base overrides =>
    exact Steps.outcome_bind (Steps.outcome_lookUp base) fun g => Steps.outcome_define name (g.merged overrides)
  | insert language target placement entries =>
    refine Steps.outcome_bind (Steps.outcome_lookUp language) fun g => ?_
    by_cases hmem : target ∈ g.names
    · obtain ⟨g', hsplice⟩ := Grammar.exists_splice? placement entries hmem
      rw [if_pos (Grammar.contains_iff.mpr hmem), hsplice]
      rfl
    · rw [if_neg (mt Grammar.contains_iff.mp hmem), Grammar.splice?_eq_none.mpr hmem]
      rfl
  | removeToken language token =>
    rw [perform?, Registry.removeToken, map_bind]
    refine Steps.outcome_bind (Steps.outcome_lookUp language) fun g => ?_
    by_cases hmem : token ∈ g.names
    · -- The entry is there, so that the failure behind the change is never met.
      obtain ⟨removed, hremove⟩ := Grammar.exists_remove? hmem
      rw [if_pos (Grammar.contains_iff.mpr hmem), hremove]
      rfl
    · rw [if_neg (mt Grammar.contains_iff.mp hmem), Grammar.remove?_eq_none.mpr hmem]
      rfl
  | addAlias name target =>
    rw [Operation.steps, Steps.outcome_get_bind, perform?, addAlias]
    cases hg : getValue? (r.canonical target) r.languages with
    | none =>
      simp only [hg, Option.isNone_none, if_true]
      rfl
    | some g =>
      by_cases hname : name = r.canonical target
      · simp only [hg, hname, Option.isNone_some, bne_self_eq_false, beq_self_eq_true, Bool.false_eq_true, if_false,
          if_true]
        rfl
      · simp only [hg, bne_iff_ne.mpr hname, beq_eq_false_iff_ne.mpr hname, Option.isNone_some, Bool.false_eq_true,
          if_false, if_true]
        rfl

/-- An operation that fails changes nothing: it leaves the same names, and each stands for the same grammar, although its
    steps write in place. It fails exactly with the faults that it has, and a grammar file exactly if it cannot be read
    or some pattern in it does not compile. -/
theorem operations_fail (r : Registry) :
    (∀ op : Operation, op.steps.outcome r = r.settled (r.perform? op)) ∧
    (∀ (op : Operation) e r', op.steps.outcome r = (.error e, r') →
      r'.names = r.names ∧ ∀ name, r'.resolve name = r.resolve name) ∧
    (∀ op e, r.perform? op = .error e ↔ r.Fault op e) ∧
    ∀ format name source, (∃ e, r.perform? (.defineFile format name source) = .error e) ↔
      (∃ e, Definition.read format source = .error e) ∨ ∃ d, Definition.read format source = .ok d ∧
        ∃ p ∈ d.patterns, ∃ cause, Pattern.compile p.1 p.2 Pattern.defaultFailures = .error cause := by
  refine ⟨outcome_steps r, fun op e r' h => ?_, fun _ _ => perform?_eq_error, fun _ _ _ => defineFile_fails⟩
  rw [outcome_steps] at h
  obtain rfl := settled_eq_error h
  exact ⟨rfl, fun _ => rfl⟩

/-- A registry with an alias of a language and one whose language is gone. -/
def strandedSample : Registry :=
  ⟨[("language", ⟨[⟨"letter", []⟩], none⟩)], [("alias", "language"), ("stranded", "gone")]⟩

theorem operations_fail_stranded :
    (∃ r', (Operation.removeToken "alias" "word").steps.outcome strandedSample =
        (.error (.unknownToken "alias" "word"), r') ∧ r'.names = strandedSample.names ∧
        ∀ name, r'.resolve name = strandedSample.resolve name) ∧
      strandedSample.perform? (.extend "derived" "stranded" .empty) = .error (.unknownGrammar "stranded") ∧
      strandedSample.perform? (.addAlias "another" "gone") = .error (.unknownGrammar "gone") ∧
      ∃ e, strandedSample.perform? (.defineFile .json "letters" "\x7b\"letter\": [\"a\", \"(\"]\x7d") = .error e := by
  obtain ⟨houtcome, hunchanged, hfault, hfile⟩ := operations_fail strandedSample
  have hmissing : strandedSample.Fault (.removeToken "alias" "word") (.unknownToken "alias" "word") :=
    .removeToken (.token rfl (by decide))
  have hremove : (Operation.removeToken "alias" "word").steps.outcome strandedSample =
      (.error (.unknownToken "alias" "word"), strandedSample) := by
    rw [houtcome, (hfault _ _).mpr hmissing]
    rfl
  have hpatterns : (Definition.read .json "\x7b\"letter\": [\"a\", \"(\"]\x7d").toOption.map (·.patterns) =
      some [("a", ""), ("(", "")] := by decide +kernel
  obtain ⟨d, hread, hd⟩ := Option.map_eq_some_iff.mp hpatterns
  have hcompile : errorOf (Pattern.compile "(" "" Pattern.defaultFailures) = some (.malformed .unclosedGroup) := by
    decide +kernel
  refine ⟨⟨_, hremove, hunchanged _ _ _ hremove⟩, (hfault _ _).mpr (.extend rfl), (hfault _ _).mpr (.addAlias rfl), ?_⟩
  refine (hfile _ _ _).mpr (Or.inr ⟨d, toOption_eq_some hread, ("(", ""), ?_, _, errorOf_eq_some.mp hcompile⟩)
  rw [hd]
  exact List.mem_cons_of_mem _ List.mem_cons_self

end Highlight.Registry
