import Highlight.Grammar
import Highlight.Tokenizer.Warning

/-! The next match of one rule. The text of a level is split from left to right; at every step each rule
    offers its next match in the text not yet split. A rule remembers what it offered, and offers it
    again as long as nothing before it can have changed. -/

namespace Highlight

/-- What answers the patterns: the leftmost match at an offset of a text or later, and the match at the
    start of a text. Offsets count characters. -/
structure Engine where
  search : Pattern → List Char → Nat → Except Regex.SearchError (Option Regex.Match)
  atStart : Pattern → List Char → Except Regex.SearchError (Option Regex.Match)

/-- The engine for compiled patterns. -/
def Engine.compiled : Engine := ⟨Pattern.search, Pattern.atStart⟩

/-- A rule that takes part in a level, with the name of its entry. -/
structure ActiveRule where
  name : String
  rule : Rule

/-- A match of a rule: from `rawStart` to `start` it is context, from there to `stop` the token. -/
structure Candidate where
  rawStart : Nat
  start : Nat
  stop : Nat
  deriving DecidableEq, Repr

namespace Candidate

/-- The candidate for a match. The context is the first group of a rule with lookbehind, kept within the
    match. -/
def ofMatch (rule : Rule) (m : Regex.Match) : Candidate :=
  let start := match rule.lookbehind, m.group? 1 with
    | true, some context => max m.span.start (min context.stop m.span.stop)
    | _, _ => m.span.start
  ⟨m.span.start, start, m.span.stop⟩

/-- Whether nothing is left for the token. -/
def isEmpty (c : Candidate) : Bool := c.start == c.stop

/-- The candidate `n` characters further on. -/
def shift (c : Candidate) (n : Nat) : Candidate := ⟨c.rawStart + n, c.start + n, c.stop + n⟩

/-- The candidate that starts first, `kept` if both start alike. -/
def earlier (fresh kept : Option Candidate) : Option Candidate :=
  match fresh, kept with
  | some f, some k => if k.start ≤ f.start then some k else some f
  | some f, none => some f
  | none, kept => kept

end Candidate

/-- What a rule remembers: the place it was last asked at with what it offered there, and whether it has
    warned of an empty match. -/
structure RuleCursor where
  known : Option (Nat × Option Candidate) := none
  warned : Bool := false
  deriving DecidableEq, Repr

namespace RuleCursor

/-- Takes a match for a candidate, unless it is empty. The text of the match starts at `offset`. -/
def accept (active : ActiveRule) (cursor : RuleCursor) (offset : Nat) (m : Regex.Match) :
    Logged (RuleCursor × Option Candidate) :=
  let c := (Candidate.ofMatch active.rule m).shift offset
  if c.isEmpty then
    if cursor.warned then return (cursor, none)
    else do
      Logged.warn (.emptyMatch active.name active.rule.pattern.source c.start)
      return ({ cursor with warned := true }, none)
  else return (cursor, some c)

/-- A search that was given up counts as one without a match. -/
def giveUp (active : ActiveRule) (cursor : RuleCursor) : Logged (RuleCursor × Option Candidate) := do
  Logged.warn (.failedSearch active.name active.rule.pattern.source)
  return (cursor, none)

/-- The first candidate from offset `start` of the text on; the text starts at `offset`. After an empty
    match the search goes on one character behind its start. As a match may start before the offset that was
    asked for (`\K` in a lookbehind), the search may come back to an offset at which it was: what it does
    then it does for ever. It has come back if it is to call the engine and `calls` are used up, one for each
    offset. -/
def searchFrom (engine : Engine) (active : ActiveRule) (offset : Nat) (text : List Char) (calls : Nat)
    (cursor : RuleCursor) (start : Nat) : Logged (RuleCursor × Option Candidate) :=
  if start ≤ text.length then
    match calls with
    | 0 => Logged.forever (cursor, none)
    | calls + 1 =>
      match engine.search active.rule.pattern text start with
      | .error _ => giveUp active cursor
      | .ok none => pure (cursor, none)
      | .ok (some m) => do
        match ← accept active cursor offset m with
        | (cursor, some c) => return (cursor, some c)
        | (cursor, none) =>
          Logged.reach 0 text.length ⟨m.span.start, text.length⟩
          searchFrom engine active offset text calls cursor (m.span.start + 1)
  else pure (cursor, none)

/-- The first candidate in a text that starts at `offset`. -/
def search (engine : Engine) (active : ActiveRule) (cursor : RuleCursor) (offset : Nat) (text : List Char) :
    Logged (RuleCursor × Option Candidate) :=
  searchFrom engine active offset text (text.length + 1) cursor 0

/-- The candidate right at the start of a text. -/
def atStart (engine : Engine) (active : ActiveRule) (cursor : RuleCursor) (offset : Nat) (text : List Char) :
    Logged (RuleCursor × Option Candidate) :=
  match engine.atStart active.rule.pattern text with
  | .error _ => giveUp active cursor
  | .ok none => pure (cursor, none)
  | .ok (some m) => accept active cursor offset m

/-- Notes what the rule offers at a place. -/
def remember (cursor : RuleCursor) (offset : Nat) (found : Option Candidate) : RuleCursor :=
  { cursor with known := some (offset, found) }

/-- What the rule offers at a place, where `text` is the text from there on. What it offered before is
    kept where the text before it cannot matter; otherwise the text is searched again. -/
def candidate (engine : Engine) (active : ActiveRule) (cursor : RuleCursor) (offset : Nat) (text : List Char) :
    Logged (RuleCursor × Option Candidate) :=
  match cursor.known with
  | none => do
    let (cursor, found) ← search engine active cursor offset text
    return (cursor.remember offset found, found)
  | some (previous, cached) =>
    if previous == offset then return (cursor, cached)
    else do
      let looksBehind := active.rule.pattern.looksBehind
      let (cursor, found) ← match cached with
        | none =>
          -- Places further on saw the same text before.
          if looksBehind then search engine active cursor offset text
          else atStart engine active cursor offset text
        | some c =>
          if c.start < offset || c.rawStart == offset then search engine active cursor offset text
          else if c.rawStart > offset && !looksBehind then do
            let (cursor, fresh) ← atStart engine active cursor offset text
            pure (cursor, Candidate.earlier fresh (some c))
          else do
            -- The context of the candidate may have been split off, its token has not.
            let (cursor, fresh) ← search engine active cursor offset text
            pure (cursor, Candidate.earlier fresh (if c.rawStart < offset then some c else none))
      return (cursor.remember offset found, found)

/-- The first candidate before `limit`. Nothing is remembered of it. -/
def windowed (engine : Engine) (active : ActiveRule) (cursor : RuleCursor) (offset limit : Nat) (text : List Char) :
    Logged (RuleCursor × Option Candidate) := do
  search engine active cursor offset (← Logged.cut offset text ⟨offset, limit⟩)

end RuleCursor
end Highlight
