import Std.Data.HashSet
import Highlight.Regex.Expr
import Highlight.Regex.Place

/-! Expressions without lookaround, backreferences and the like. They are matched in time linear in the
    text: the engine tries the alternatives in order and remembers at which places it has tried each
    part before, since a part that led nowhere once leads nowhere again. -/

namespace Highlight.Regex

/-- Whether the condition holds at a place. -/
def Assertion.holds (a : Assertion) (p : Place) : Bool :=
  let wordBefore := p.before.head?.any Unicode.isWord
  let wordAfter := p.after.head?.any Unicode.isWord
  match a with
  | textStart => p.before.isEmpty
  | textEnd => p.after.isEmpty
  | lineStart => p.before.head?.all (· == '\n')
  | lineEnd => p.after.head?.all (· == '\n')
  | wordBoundary => wordBefore != wordAfter
  | notWordBoundary => wordBefore == wordAfter
  | wordStart => !wordBefore && wordAfter
  | wordEnd => wordBefore && !wordAfter

/-- The places that a match has noted so far: the start and the end of every group in turn. -/
abbrev Slots := Array (Option Place)

/-- How an attempt ends: at a place with slots, or without a match. Both carry what the attempt has
    used up on the way. The attempt may also stop because it has used up too much. -/
inductive Outcome (ρ : Type) where
  | found (place : Place) (slots : Slots) (used : ρ)
  | failed (used : ρ)
  | exceeded

/-- A regular expression in the proper sense. A choice and a loop carry numbers of their own, by which
    the engine remembers them. -/
inductive Plain where
  | empty
  | one (set : CharSet)
  | assertion (assertion : Assertion)
  | seq (first second : Plain)
  | alt (id : Nat) (first second : Plain)
  | group (index : Nat) (body : Plain)
  | loop (id : Nat) (body : Plain) (greedy : Bool)
  deriving Repr, Inhabited

namespace Plain

/-! ### What was tried -/

/-- The parts that were tried, with the places where they were. -/
structure Tried where
  stride : Nat
  marks : Std.HashSet Nat

namespace Tried

/-- Nothing tried yet in a text of `length` characters. -/
def none (length : Nat) : Tried := ⟨length + 1, ∅⟩

def has (t : Tried) (id left : Nat) : Bool := t.marks.contains (id * t.stride + left)

def add (t : Tried) (id left : Nat) : Tried := { t with marks := t.marks.insert (id * t.stride + left) }

end Tried

/-! ### Matching -/

/-- What goes on after a part has matched. -/
abbrev Rest := Place → Slots → Tried → Outcome Tried

/-- Tries the second way if the first fails. -/
@[inline] def orElse (first : Outcome Tried) (second : Tried → Outcome Tried) : Outcome Tried :=
  match first with
  | .failed tried => second tried
  | r => r

/-- Matches `body` once or more. The number of rounds is bounded by `fuel`, one more than the
    characters left, since a round that starts where another did fails. -/
def rounds (id : Nat) (greedy : Bool) (body : Rest → Rest) (k : Rest) : Nat → Rest
  | 0 => fun _ _ tried => .failed tried
  | fuel + 1 => fun p slots tried =>
    if tried.has id p.left then .failed tried
    else
      body (fun p slots tried =>
        if tried.has (id + 1) p.left then .failed tried
        else
          let tried := tried.add (id + 1) p.left
          if greedy then orElse (rounds id greedy body k fuel p slots tried) fun tried => k p slots tried
          else orElse (k p slots tried) fun tried => rounds id greedy body k fuel p slots tried)
        p slots (tried.add id p.left)

/-- Matches the expression at a place and goes on with `k`. -/
def run : Plain → Rest → Rest
  | empty, k => k
  | one set, k => fun p slots tried =>
    match p.after with
    | [] => .failed tried
    | c :: rest =>
      if set.contains c then k ⟨c :: p.before, rest, p.left - 1⟩ slots tried else .failed tried
  | assertion a, k => fun p slots tried => if a.holds p then k p slots tried else .failed tried
  | seq a b, k => a.run (b.run k)
  | alt id a b, k => fun p slots tried =>
    if tried.has id p.left then .failed tried
    else orElse (a.run k p slots (tried.add id p.left)) fun tried => b.run k p slots tried
  | group index body, k => fun p slots tried =>
    body.run (fun q slots tried => k q (slots.set! (2 * index + 1) (some q)) tried) p
      (slots.set! (2 * index) (some p)) tried
  | loop id body greedy, k => fun p slots tried => rounds id greedy body.run k (p.left + 1) p slots tried

/-- The first match at a place, with the slots it fills. -/
def matchAt (e : Plain) (slots : Slots) (p : Place) (tried : Tried) : Outcome Tried :=
  e.run (fun p slots tried => .found p slots tried) p slots tried

/-- Whether the expression can match only at the start of the text. -/
def opensText : Plain → Bool
  | assertion .textStart => true
  | seq a _ => a.opensText
  | group _ body => body.opensText
  | _ => false

/-- The first match at one of the places from `before` and `after` on. What failed from one place is
    not tried again from the next. -/
def search (e : Plain) (slots : Slots) : (before after : List Char) → (left : Nat) → Tried →
    Option (Place × Place × Slots)
  | before, [], left, tried =>
    match e.matchAt slots ⟨before, [], left⟩ tried with
    | .found q slots _ => some (⟨before, [], left⟩, q, slots)
    | _ => none
  | before, c :: after, left, tried =>
    match e.matchAt slots ⟨before, c :: after, left⟩ tried with
    | .found q slots _ => some (⟨before, c :: after, left⟩, q, slots)
    | .failed tried => if e.opensText then none else e.search slots (c :: before) after (left - 1) tried
    | .exceeded => none

/-- The number of groups, the whole match among them: one more than the highest number of a group. -/
def groupCount : Plain → Nat
  | empty | one _ | assertion _ => 1
  | seq a b | alt _ a b => max a.groupCount b.groupCount
  | group index body => max (index + 1) body.groupCount
  | loop _ body _ => body.groupCount

end Plain
end Highlight.Regex
