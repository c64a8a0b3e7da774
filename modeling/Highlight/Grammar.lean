import Highlight.Pattern

/-! Grammars: token names with their rules, in the order of their priority. A grammar may name another
    whose entries follow its own, and a rule may name one for the inside of its matches; both references
    are either a grammar in place or the name of a language, which is looked up while a text is split. -/

namespace Highlight

mutual
/-- A reference to a grammar. -/
inductive GrammarRef where
  | inline (grammar : Grammar)
  | named (language : String)

/-- One way to recognize a token: a pattern with options. With `lookbehind` the first group of a match is
    context and no part of the token; a `greedy` match may run over text that a rule of higher priority
    would take; the tokens may go by an `alias`; and `inside` is the grammar for the text matched. -/
structure Rule where
  pattern : Pattern
  lookbehind : Bool := false
  greedy : Bool := false
  aliasName : Option String := none
  inside : Option GrammarRef := none

/-- A token name with the rules for it, tried in order. -/
structure Entry where
  name : String
  rules : List Rule

/-- Entries in the order of their priority, and the grammar whose entries follow them. -/
structure Grammar where
  entries : List Entry
  rest : Option GrammarRef
end

/-! ### Equality -/

mutual
/-- References are the same when they give the same name or the same grammar. -/
def GrammarRef.same : GrammarRef → GrammarRef → Bool
  | .inline g, .inline h => Grammar.same g h
  | .named a, .named b => a == b
  | .inline _, .named _ => false
  | .named _, .inline _ => false

def optionalSame : Option GrammarRef → Option GrammarRef → Bool
  | none, none => true
  | some a, some b => GrammarRef.same a b
  | none, some _ => false
  | some _, none => false

/-- Rules are the same when their patterns and all their options are. -/
def Rule.same : Rule → Rule → Bool
  | ⟨p, lookbehind, greedy, aliasName, inside⟩, ⟨p', lookbehind', greedy', aliasName', inside'⟩ =>
    p == p' && lookbehind == lookbehind' && greedy == greedy' && aliasName == aliasName' && optionalSame inside inside'

def rulesSame : List Rule → List Rule → Bool
  | [], [] => true
  | r :: rs, r' :: rs' => Rule.same r r' && rulesSame rs rs'
  | [], _ :: _ => false
  | _ :: _, [] => false

def Entry.same : Entry → Entry → Bool
  | ⟨name, rules⟩, ⟨name', rules'⟩ => name == name' && rulesSame rules rules'

def entriesSame : List Entry → List Entry → Bool
  | [], [] => true
  | e :: es, e' :: es' => Entry.same e e' && entriesSame es es'
  | [], _ :: _ => false
  | _ :: _, [] => false

/-- Grammars are the same when they have the same entries in the same order, and the same rest. -/
def Grammar.same : Grammar → Grammar → Bool
  | ⟨entries, rest⟩, ⟨entries', rest'⟩ => entriesSame entries entries' && optionalSame rest rest'
end

instance : BEq GrammarRef := ⟨GrammarRef.same⟩
instance : BEq Rule := ⟨Rule.same⟩
instance : BEq Entry := ⟨Entry.same⟩
instance : BEq Grammar := ⟨Grammar.same⟩

/-- Sets the rules of the first entry with the name of `e`, or adds `e` at the end. -/
def setEntry : List Entry → Entry → List Entry
  | [], e => [e]
  | d :: ds, e => if d.name == e.name then e :: ds else d :: setEntry ds e

/-- Sets the rules of every entry of `overrides` in turn. -/
def setEntries (entries overrides : List Entry) : List Entry := overrides.foldl setEntry entries

/-- Which side of an entry others are put on. -/
inductive Placement where
  | before
  | after
  deriving DecidableEq, Repr

namespace Grammar

/-- The grammar without entries. -/
def empty : Grammar := ⟨[], none⟩

instance : Inhabited Grammar := ⟨empty⟩

/-- The token names, in the order of their priority. -/
def names (g : Grammar) : List String := g.entries.map (·.name)

/-- The first entry with a name. -/
def get? (g : Grammar) (name : String) : Option Entry := g.entries.find? (·.name == name)

/-- The rules of an entry. -/
def rules? (g : Grammar) (name : String) : Option (List Rule) := (g.get? name).map (·.rules)

/-- The place of an entry in the order of priority. -/
def position? (g : Grammar) (name : String) : Option Nat := g.entries.findIdx? (·.name == name)

def contains (g : Grammar) (name : String) : Bool := (g.position? name).isSome

def size (g : Grammar) : Nat := g.entries.length

def isEmpty (g : Grammar) : Bool := g.entries.isEmpty

/-- Sets the rules for a name: an entry that is there keeps its place, a new one comes last. -/
def set (g : Grammar) (name : String) (rules : List Rule) : Grammar :=
  { g with entries := setEntry g.entries ⟨name, rules⟩ }

def setRest (g : Grammar) (rest : Option GrammarRef) : Grammar := { g with rest }

/-- Takes an entry out, if it is there. -/
def remove? (g : Grammar) (name : String) : Option (Entry × Grammar) :=
  (g.get? name).map fun e => (e, { g with entries := g.entries.eraseP (·.name == name) })

/-- The grammar with `overrides` on top: their rules replace those of the same name in place, their new
    names come last, and their rest, if they have one, replaces the rest. -/
def merged (g overrides : Grammar) : Grammar :=
  ⟨setEntries g.entries overrides.entries, overrides.rest.or g.rest⟩

/-- Puts the entries of `inserted` next to the entry `target`, if it is there. Entries that have the name
    of an inserted one are dropped, the target among them. -/
def splice? (g : Grammar) (target : String) (placement : Placement) (inserted : Grammar) : Option Grammar :=
  let kept := fun entries : List Entry => entries.filter fun e => !inserted.names.contains e.name
  let front := g.entries.takeWhile fun e => e.name != target
  match g.entries.drop front.length with
  | [] => none
  | e :: behind =>
    let middle := match placement with
      | .before => inserted.entries ++ kept [e]
      | .after => kept [e] ++ inserted.entries
    some { g with entries := kept front ++ middle ++ kept behind }

/-- The grammar with the given entries, set one after the other, and a rest. -/
def ofEntries (entries : List (String × List Rule)) (rest : Option GrammarRef) : Grammar :=
  ⟨setEntries [] (entries.map fun e => ⟨e.1, e.2⟩), rest⟩

end Grammar
end Highlight
