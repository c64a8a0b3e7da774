import Highlight.Token
import Highlight.Tokenizer.Candidate

/-! Splitting a text into tokens. A level is one text with one grammar. At every step each rule offers
    its next match; the one that starts first is taken, of several the one of the rule with the highest
    priority, and the text before it becomes plain text. A match of lower priority may not run into the
    start of another unless its rule is greedy; it is then searched again in the text before that start.
    The text of a match becomes a level of its own if its rule has a grammar for the inside. -/

namespace Highlight

/-- How texts are split: the engine for patterns, the languages that references may name, and how deep
    levels and how long chains of rest grammars may get. -/
structure Tokenizer where
  engine : Engine := .compiled
  language? : String → Option Grammar
  maxDepth : Nat := 32

/-- The depth that levels may reach unless another is given. -/
def Tokenizer.defaultMaxDepth : Nat := 32

/-- An active rule with what it remembers. -/
structure Contender where
  active : ActiveRule
  cursor : RuleCursor := {}

/-- The match that is taken, with the index of its rule. -/
structure Pick where
  index : Nat
  active : ActiveRule
  found : Candidate

namespace Tokenizer

/-! ### Selecting a match -/

/-- Whether a rule's candidate is taken over the pick of the rules before it, for which `claimed` is the
    start, and in which text it has to be searched again for that. -/
inductive Claim where
  | refused
  | taken
  | windowed
  deriving DecidableEq, Repr

/-- A candidate is taken if it starts earlier and ends before the pick starts, or its rule is greedy. -/
def claim (rule : Rule) (c : Candidate) (claimed : Nat) : Claim :=
  if claimed ≤ c.start then .refused
  else if rule.greedy || c.stop ≤ claimed then .taken
  else .windowed

/-- Asks one rule, given the pick of the rules before it. -/
def contend (engine : Engine) (offset : Nat) (text : List Char) (index : Nat) (r : Contender) (best : Option Pick) :
    Logged (Contender × Option Pick) := do
  let (cursor, offered) ← r.cursor.candidate engine r.active offset text
  match offered, best with
  | none, best => return ({ r with cursor }, best)
  | some c, none => return ({ r with cursor }, some ⟨index, r.active, c⟩)
  | some c, some pick =>
    match claim r.active.rule c pick.found.start with
    | .refused => return ({ r with cursor }, some pick)
    | .taken => return ({ r with cursor }, some ⟨index, r.active, c⟩)
    | .windowed => do
      let (cursor, inside) ← cursor.windowed engine r.active offset pick.found.start text
      return ({ r with cursor }, some ((inside.map fun c => ⟨index, r.active, c⟩).getD pick))

/-- Asks the rules from `index` on in turn, given the pick of the rules before them. -/
def selectFrom (engine : Engine) (offset : Nat) (text : List Char) :
    (index : Nat) → List Contender → Option Pick → Logged (List Contender × Option Pick)
  | _, [], best => return ([], best)
  | index, r :: rs, best => do
    let (r, best) ← contend engine offset text index r best
    let (rs, best) ← selectFrom engine offset text (index + 1) rs best
    return (r :: rs, best)

/-- The match to take next, where `text` is the text from `offset` on. -/
def select (engine : Engine) (offset : Nat) (text : List Char) (rules : List Contender) :
    Logged (List Contender × Option Pick) :=
  selectFrom engine offset text 0 rules none

/-! ### Grammars of a level -/

/-- The grammar that a reference stands for. -/
def resolve (t : Tokenizer) : GrammarRef → Logged (Option Grammar)
  | .inline g => return some g
  | .named language =>
    match t.language? language with
    | some g => return some g
    | none => do
      Logged.warn (.unresolved language)
      return none

/-- The grammars that follow one another from a rest on, at most `hops` of them. -/
def restChain (t : Tokenizer) : (hops : Nat) → Option GrammarRef → Logged (List Grammar)
  | _, none => return []
  | 0, some _ => do
    Logged.warn (.tooManyRests t.maxDepth)
    return []
  | hops + 1, some ref => do
    match ← t.resolve ref with
    | none => return []
    | some g => return g :: (← t.restChain hops g.rest)

/-- The entries of a grammar with those of the grammars that follow it set on top. -/
def activeEntries (g : Grammar) (chain : List Grammar) : List Entry :=
  (g :: chain).foldl (fun entries h => setEntries entries h.entries) []

/-- The rules of a level, in the order of their priority. -/
def activeRules (entries : List Entry) : List ActiveRule :=
  entries.flatMap fun e => e.rules.map fun rule => ⟨e.name, rule⟩

/-! ### Levels -/

/-- The text between `offset` and a match that starts at `start`, as plain text if there is any. -/
def plainBefore (offset start : Nat) (gap : List Char) : List Token :=
  if gap.isEmpty then [] else [Token.plain (String.ofList gap) ⟨offset, start⟩]

/-- The token for a match. The offsets in its content count from the start of the match. -/
def tokenOf (active : ActiveRule) (found : Candidate) (content : Content) : Token :=
  ⟨some active.name, active.rule.aliasName, Token.mapContent (· + found.start) content, ⟨found.start, found.stop⟩⟩

/-- Splits the text of a level from `offset` on; all offsets count from the start of the level. `inside`
    gives the content of a match, with offsets from the start of the match, and `bytes` the byte offset
    that a warning reports. A match that ends at `offset` or before it leaves the level where it was; one of
    the cuts has strayed then. -/
def steps (engine : Engine) (inside : ActiveRule → List Char → Logged Content) (bytes : Nat → Nat)
    (rules : List Contender) (offset : Nat) : List Char → Logged (List Token)
  | [] => pure []
  | c :: cs => do
    let text := c :: cs
    let (rules, pick) ← (select engine offset text rules).mapOffsets bytes
    match pick with
    | none => return [Token.plain (String.ofList text) ⟨offset, offset + text.length⟩]
    | some ⟨_, active, found⟩ => do
      let gap ← Logged.cut offset text ⟨offset, found.start⟩
      let matched ← Logged.cut offset text ⟨found.start, found.stop⟩
      let content ← inside active matched
      let after ←
        if offset < found.stop then steps engine inside bytes rules found.stop (text.drop (found.stop - offset))
        else Logged.forever []
      return plainBefore offset found.start gap ++ tokenOf active found content :: after
termination_by text => text.length
decreasing_by simp only [List.length_drop, List.length_cons]; omega

/-- Splits one text with the rules of a grammar and those of its rest chain. -/
def level (t : Tokenizer) (inside : ActiveRule → List Char → Logged Content) (g : Grammar) (text : List Char) :
    Logged (List Token) :=
  if text.isEmpty then return []
  else do
    let chain ← t.restChain t.maxDepth g.rest
    let rules := (activeRules (activeEntries g chain)).map fun active => { active : Contender }
    steps t.engine inside (byteOffset text) rules 0 text

/-- The content of a match: tokens again if its rule has a grammar for the inside that is found and not
    too deep, else its text. `levels` gives the tokens, unless no level may follow. -/
def content (t : Tokenizer) (levels : Option (Grammar → List Char → Logged (List Token))) (active : ActiveRule)
    (text : List Char) : Logged Content :=
  match active.rule.inside, levels with
  | none, _ => return .text (String.ofList text)
  | some _, none => do
    Logged.warn (.tooDeep active.name t.maxDepth)
    return .text (String.ofList text)
  | some ref, some levels => do
    match ← t.resolve ref with
    | none => return .text (String.ofList text)
    | some g => return .nested (← levels g text)

/-- Splits a text where `depth` more levels may follow. Offsets count characters. -/
def levels (t : Tokenizer) : (depth : Nat) → Grammar → List Char → Logged (List Token)
  | 0 => t.level (t.content none)
  | depth + 1 => t.level (t.content (some (t.levels depth)))

/-- The byte offset of every place in a text, the end among them. -/
def byteOffsets (start : Nat) : List Char → List Nat
  | [] => [start]
  | c :: cs => start :: byteOffsets (start + c.utf8Size) cs

/-- Splits a text with a grammar into tokens that cover it once, in order. Spans count bytes. -/
def run (t : Tokenizer) (g : Grammar) (text : String) : Logged (List Token) :=
  let chars := text.toList
  let offsets := (byteOffsets 0 chars).toArray
  let split := t.levels t.maxDepth g chars
  { split with value := Token.mapOffsetsOf (fun n => offsets.getD n 0) split.value }

/-- The tokens of a text, without the warnings. -/
def tokenize (t : Tokenizer) (g : Grammar) (text : String) : List Token := (t.run g text).value

end Tokenizer
end Highlight
