import Highlight.Proofs.Engine
import Highlight.Proofs.Entries
import Highlight.Proofs.Level

/-! Rest chains. A level is split with the rules of its grammar and of those that follow it as its rest. The walk
    along the rests is bounded, so it ends even where grammars name each other, and what it gathers are the rules of
    a single grammar: the first with the others merged into it. -/

namespace Highlight.Tokenizer

/-! ### The walk -/

/-- The grammars that follow a grammar as its rest, nearest first. -/
def chain (t : Tokenizer) (g : Grammar) : List Grammar := (t.restChain t.maxDepth g.rest).value

/-- The reference at which a walk along `hs` ends that began with `ref`. -/
def endOfWalk (ref : Option GrammarRef) : List Grammar → Option GrammarRef
  | [] => ref
  | h :: hs => endOfWalk h.rest hs

/-- Each grammar is found by the rest of the one before it, the first by `ref`. -/
def Walk (t : Tokenizer) (ref : Option GrammarRef) : List Grammar → Prop
  | [] => True
  | h :: hs => (∃ r, ref = some r ∧ (t.resolve r).value = some h) ∧ Walk t h.rest hs

section
variable {t : Tokenizer}

theorem restChain_none (hops : Nat) : (t.restChain hops none).value = [] := by cases hops <;> rfl

theorem restChain_unresolved {hops : Nat} {r : GrammarRef} (h : (t.resolve r).value = none) :
    (t.restChain (hops + 1) (some r)).value = [] := by
  rw [restChain, Logged.value_bind, h]
  rfl

theorem restChain_resolved {hops : Nat} {r : GrammarRef} {h : Grammar} (hr : (t.resolve r).value = some h) :
    (t.restChain (hops + 1) (some r)).value = h :: (t.restChain hops h.rest).value := by
  rw [restChain, Logged.value_bind, hr]
  rfl

/-- What the walk along the rests comes to: it takes at most `hops` steps, each to the grammar that is found by the
    rest before it, and with steps left it stops only where no rest is given or none is found. -/
structure Walked (t : Tokenizer) (hops : Nat) (ref : Option GrammarRef) (hs : List Grammar) : Prop where
  le_hops : hs.length ≤ hops
  walk : Walk t ref hs
  ends : hs.length < hops → ∀ r, endOfWalk ref hs = some r → (t.resolve r).value = none

theorem walked_restChain (hops : Nat) (ref : Option GrammarRef) :
    Walked t hops ref (t.restChain hops ref).value := by
  induction hops generalizing ref with
  | zero => cases ref <;> exact ⟨Nat.le_refl _, trivial, fun h => absurd h (Nat.not_lt_zero _)⟩
  | succ hops ih =>
    cases ref with
    | none => exact ⟨Nat.zero_le _, trivial, fun _ r h => nomatch h⟩
    | some r =>
      cases hr : (t.resolve r).value with
      | none =>
        rw [restChain_unresolved hr]
        refine ⟨Nat.zero_le _, trivial, fun _ r' h => ?_⟩
        obtain rfl := Option.some.inj h
        exact hr
      | some h =>
        obtain ⟨hle, hwalk, hends⟩ := ih h.rest
        rw [restChain_resolved hr]
        exact ⟨Nat.succ_le_succ hle, ⟨⟨r, rfl, hr⟩, hwalk⟩, fun hlt => hends (Nat.lt_of_succ_lt_succ hlt)⟩

theorem walked_chain (t : Tokenizer) (g : Grammar) : Walked t t.maxDepth g.rest (t.chain g) :=
  walked_restChain t.maxDepth g.rest

/-- The walk along the rests can go in one way only. -/
theorem Walked.unique {hops : Nat} {ref : Option GrammarRef} {hs hs' : List Grammar} (h : Walked t hops ref hs)
    (h' : Walked t hops ref hs') : hs = hs' := by
  induction hs generalizing hops ref hs' with
  | nil =>
    cases hs' with
    | nil => rfl
    | cons g hs' =>
      obtain ⟨r, rfl, hr⟩ := h'.walk.1
      cases hr.symm.trans (h.ends (Nat.lt_of_lt_of_le (Nat.succ_pos _) h'.le_hops) r rfl)
  | cons g hs ih =>
    obtain ⟨⟨r, rfl, hr⟩, hwalk⟩ := h.walk
    obtain ⟨hops, rfl⟩ : ∃ n, hops = n + 1 := Nat.exists_eq_succ_of_ne_zero (by have := h.le_hops; simp at this; omega)
    cases hs' with
    | nil => cases hr.symm.trans (h'.ends (Nat.succ_pos _) r rfl)
    | cons g' hs' =>
      obtain ⟨⟨r', hr', hg'⟩, hwalk'⟩ := h'.walk
      cases hr'
      obtain rfl := Option.some.inj (hr.symm.trans hg')
      have hrest : Walked t hops g.rest hs :=
        ⟨Nat.le_of_succ_le_succ h.le_hops, hwalk, fun hlt => h.ends (Nat.succ_lt_succ hlt)⟩
      have hrest' : Walked t hops g.rest hs' :=
        ⟨Nat.le_of_succ_le_succ h'.le_hops, hwalk', fun hlt => h'.ends (Nat.succ_lt_succ hlt)⟩
      rw [ih hrest hrest']

end

/-! ### Rules of a level -/

/-- A rule takes part in the levels of a grammar: of the grammar and those that follow it as its rest, the last one that
    has an entry with the name of the rule has the rule in that entry. -/
def IsActive (t : Tokenizer) (g : Grammar) (active : ActiveRule) : Prop :=
  ∃ hs, Walked t t.maxDepth g.rest hs ∧
    ∃ e, ((g :: hs).flatMap (·.entries)).findRev? (·.name == active.name) = some e ∧ active.rule ∈ e.rules

/-! ### One grammar for the whole chain -/

/-- The grammar with its rest chain merged into it, one grammar after the other, and without a rest. -/
def extended (t : Tokenizer) (g : Grammar) : Grammar := ((t.chain g).foldl Grammar.merged g).setRest none

section
variable {t : Tokenizer} {g h : Grammar}

theorem activeEntries_eq (g : Grammar) (chain : List Grammar) :
    activeEntries g chain = setEntries [] ((g :: chain).flatMap (·.entries)) := by
  have hfold : ∀ (hs : List Grammar) (es : List Entry),
      hs.foldl (fun entries h => setEntries entries h.entries) es = setEntries es (hs.flatMap (·.entries)) := by
    intro hs
    induction hs with
    | nil => intro es; rfl
    | cons h hs ih => intro es; rw [List.foldl_cons, ih, List.flatMap_cons, setEntries_append]
  exact hfold (g :: chain) []

theorem mem_levelRules {active : ActiveRule} : active ∈ t.levelRules g ↔ t.IsActive g active := by
  have hnodup := @nodup_setEntries [] ((g :: t.chain g).flatMap (·.entries)) List.nodup_nil
  have hfind := @find?_setEntries [] ((g :: t.chain g).flatMap (·.entries)) active.name
  rw [List.find?_nil, Option.or_none] at hfind
  have hmem : active ∈ t.levelRules g ↔
      ∃ e ∈ setEntries [] ((g :: t.chain g).flatMap (·.entries)), e.name = active.name ∧ active.rule ∈ e.rules := by
    rw [levelRules, activeEntries_eq, activeRules, List.mem_flatMap]
    refine exists_congr fun e => and_congr_right fun _ => ?_
    rw [List.mem_map]
    constructor
    · rintro ⟨rule, hrule, rfl⟩
      exact ⟨rfl, hrule⟩
    · rintro ⟨hname, hrule⟩
      exact ⟨active.rule, hrule, by rw [hname]⟩
  rw [hmem]
  constructor
  · rintro ⟨e, he, hname, hrule⟩
    exact ⟨t.chain g, walked_chain t g, e, by rw [← hfind, ← hname, find?_of_mem hnodup he], hrule⟩
  · rintro ⟨hs, hwalked, e, he, hrule⟩
    obtain rfl := (walked_chain t g).unique hwalked
    rw [← hfind] at he
    exact ⟨e, List.mem_of_find?_eq_some he, by simpa using List.find?_some he, hrule⟩

theorem entries_extended (hg : g.names.Nodup) :
    (t.extended g).entries = setEntries [] ((g :: t.chain g).flatMap (·.entries)) := by
  rw [extended, Grammar.setRest, entries_foldl_merged, List.flatMap_cons, setEntries_append, setEntries_nil hg]

theorem chain_extended : t.chain (t.extended g) = [] := restChain_none t.maxDepth

/-- The rules of the merged grammar are those of the grammar with its chain. -/
theorem levelRules_extended (hg : g.names.Nodup) : t.levelRules (t.extended g) = t.levelRules g := by
  have hactive : activeEntries (t.extended g) (t.chain (t.extended g)) = activeEntries g (t.chain g) := by
    have hnodup := @nodup_setEntries [] ((g :: t.chain g).flatMap (·.entries)) List.nodup_nil
    rw [chain_extended, activeEntries_eq, activeEntries_eq, List.flatMap_singleton, entries_extended hg,
      setEntries_nil hnodup]
  exact congrArg activeRules hactive

/-- Of a grammar, tokens depend on nothing but the rules of its level. -/
theorem tokenize_congr (hrules : t.levelRules g = t.levelRules h) (text : String) :
    t.tokenize g text = t.tokenize h text := by
  obtain ⟨inside, hlevels⟩ := t.levels_eq_level t.maxDepth
  simp only [tokenize, run, hlevels, value_level, hrules]

/-- A rest chain comes to the same as extending the grammar by it. The tokens of every text are those of the grammar
    with the chain merged into it; in that grammar each name stands where it occurs first along the chain, with the
    rules that the last grammar of the chain gives it. -/
theorem tokenize_extended (t : Tokenizer) (g : Grammar) (hg : g.names.Nodup) :
    (∀ text, t.tokenize (t.extended g) text = t.tokenize g text) ∧ (t.extended g).rest = none ∧
      (t.chain g).length ≤ t.maxDepth ∧
      (t.extended g).names = ((g :: t.chain g).flatMap (·.names)).eraseDups ∧
      ∀ name, (t.extended g).get? name = ((g :: t.chain g).flatMap (·.entries)).findRev? (·.name == name) := by
  refine ⟨tokenize_congr (levelRules_extended hg), rfl, (walked_chain t g).le_hops, ?_, fun name => ?_⟩
  · have hnames := @names_setEntries [] ((g :: t.chain g).flatMap (·.entries)) List.nodup_nil
    rw [List.map_nil, List.nil_append, List.map_flatMap] at hnames
    rw [Grammar.names, entries_extended hg, hnames]
    rfl
  · rw [Grammar.get?, entries_extended hg, find?_setEntries, List.find?_nil, Option.or_none]

/-- A grammar whose rest is a language that has itself for its rest. -/
def loopSample : Grammar :=
  ⟨[⟨"word", [{ pattern := .literal "a" }]⟩, ⟨"letter", [{ pattern := .literal "b" }]⟩], some (.named "loop")⟩

/-- A tokenizer that knows this language, and follows two rests at most. -/
def looping : Tokenizer where
  engine := .literal
  language? name :=
    if name = "loop" then
      some ⟨[⟨"digit", [{ pattern := .literal "1" }]⟩, ⟨"word", [{ pattern := .literal "bb" }]⟩], some (.named "loop")⟩
    else none
  maxDepth := 2

theorem tokenize_extended_loop :
    loopSample.names.Nodup ∧ (looping.chain loopSample).length = 2 ∧
      looping.tokenize loopSample "a1bb" =
        [.plain "a" ⟨0, 1⟩, ⟨some "digit", none, .text "1", ⟨1, 2⟩⟩, ⟨some "word", none, .text "bb", ⟨2, 4⟩⟩] ∧
      (looping.extended loopSample).names = ["word", "letter", "digit"] ∧
      (∀ text, looping.tokenize (looping.extended loopSample) text = looping.tokenize loopSample text) ∧
      ∀ name, (looping.extended loopSample).get? name =
        ((loopSample :: looping.chain loopSample).flatMap (·.entries)).findRev? (·.name == name) := by
  have hnames : loopSample.names.Nodup := by decide
  obtain ⟨htokens, -, -, -, hentries⟩ := tokenize_extended looping loopSample hnames
  exact ⟨hnames, by decide, by decide +kernel, by decide, htokens, hentries⟩

end
end Highlight.Tokenizer
