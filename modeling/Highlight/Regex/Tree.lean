import Highlight.Regex.Plain

/-! Expressions with lookaround, backreferences and the like. They are matched by backtracking, and
    every way that fails is counted: an attempt that has failed too often is given up. Parts that need
    none of this are left to the engine for plain expressions, which tries them at one place and gives
    their first match only. -/

namespace Highlight.Regex

/-- A regular expression prepared for backtracking. -/
inductive Tree where
  | empty
  | text (cs : List Char)
  | any (newline : Bool)
  | assertion (assertion : Assertion)
  | plain (e : Plain) (firstGroup endGroup : Nat)
  | seq (first second : Tree)
  | alt (first second : Tree)
  | group (index : Nat) (body : Tree)
  | repeated (body : Tree) (least : Nat) (most : Option Nat) (greedy : Bool)
  | repeatedEmpty (body : Tree) (least : Nat) (greedy : Bool) (mark : Nat)
  | look (negative : Bool) (back : Nat) (body : Tree)
  | atomic (body : Tree)
  | backref (group : Nat)
  | groupMatched (group : Nat)
  | keepOut
  | searchStart
  | conditional (condition ifTrue ifFalse : Tree)
  deriving Repr, Inhabited

namespace Tree

/-- The limits of one search: how many ways may fail, and how many characters were left where the
    search began. -/
structure Limits where
  failures : Nat
  origin : Nat
  deriving Repr

/-- What goes on after a part has matched, given the number of failures so far. -/
abbrev Rest := Place → Slots → Nat → Outcome Nat

/-- Tries the second way if the first fails, unless too many ways have failed. -/
@[inline] def orElse (limits : Limits) (first : Outcome Nat) (second : Nat → Outcome Nat) : Outcome Nat :=
  match first with
  | .failed n => if n > limits.failures then .exceeded else second n
  | r => r

/-- The end of an attempt: what has matched so far is the match. -/
def done : Rest := fun p slots n => .found p slots n

/-- Repeats a body that takes text each time. `fuel` is the number of rounds that may follow, `count`
    the number of rounds before. -/
def rounds (limits : Limits) (least : Nat) (greedy : Bool) (body : Rest → Rest) (k : Rest) :
    (fuel count : Nat) → Rest
  | 0, _ => k
  | fuel + 1, count => fun p slots n =>
    let more := fun n => body (rounds limits least greedy body k fuel (count + 1)) p slots n
    if count < least then more n
    else if greedy then orElse limits (more n) fun n => k p slots n
    else orElse limits (k p slots n) more

/-- Repeats a body that may take no text. The place of the last round is kept in a slot of its own, and
    a round that would start there again fails. -/
def roundsEmpty (limits : Limits) (least : Nat) (greedy : Bool) (mark : Nat) (body : Rest → Rest) (k : Rest) :
    (fuel count : Nat) → Rest
  | 0, _ => fun _ _ n => .failed (n + 1)
  | fuel + 1, count => fun p slots n =>
    if count > 0 && (slots.getD mark none).any (·.left == p.left) then .failed (n + 1)
    else if count < least then body (roundsEmpty limits least greedy mark body k fuel (count + 1)) p slots n
    else
      let slots := slots.set! mark (some p)
      let more := fun n => body (roundsEmpty limits least greedy mark body k fuel (count + 1)) p slots n
      if greedy then orElse limits (more n) fun n => k p slots n
      else orElse limits (k p slots n) more

/-- The text that a group has taken. -/
def groupText? (slots : Slots) (index : Nat) : Option (List Char) :=
  match slots.getD (2 * index) none, slots.getD (2 * index + 1) none with
  | some start, some stop => if stop.left ≤ start.left then some (start.after.take (start.left - stop.left)) else none
  | _, _ => none

/-- Forgets the groups from `first` on and below `stop`. -/
def forgetGroups (slots : Slots) (first stop : Nat) : Slots :=
  (List.range (2 * (stop - first))).foldl (fun slots i => slots.set! (2 * first + i) none) slots

/-- Matches the expression at a place and goes on with `k`. -/
def run (limits : Limits) : Tree → Rest → Rest
  | empty, k => k
  | text cs, k => fun p slots n =>
    match p.skipText? cs with
    | some q => k q slots n
    | none => .failed (n + 1)
  | any newline, k => fun p slots n =>
    match p.after with
    | [] => .failed (n + 1)
    | c :: rest =>
      if newline || c != '\n' then k ⟨c :: p.before, rest, p.left - 1⟩ slots n else .failed (n + 1)
  | assertion a, k => fun p slots n => if a.holds p then k p slots n else .failed (n + 1)
  | plain e first stop, k => fun p slots n =>
    match e.matchAt (forgetGroups slots first stop) p (.none p.left) with
    | .found q slots _ => k q slots n
    | _ => .failed (n + 1)
  | seq a b, k => a.run limits (b.run limits k)
  | alt a b, k => fun p slots n => orElse limits (a.run limits k p slots n) fun n => b.run limits k p slots n
  | group index body, k => fun p slots n =>
    body.run limits (fun q slots n => k q (slots.set! (2 * index + 1) (some q)) n) p
      (slots.set! (2 * index) (some p)) n
  | repeated body least most greedy, k => fun p slots n =>
    rounds limits least greedy (body.run limits) k (most.getD (least + p.left + 1)) 0 p slots n
  | repeatedEmpty body least greedy mark, k => fun p slots n =>
    roundsEmpty limits least greedy mark (body.run limits) k (least + p.left + 2) 0 p slots n
  | look false back body, k => fun p slots n =>
    match p.back? back with
    | some q => body.run limits (fun _ slots n => k p slots n) q slots n
    | none => .failed (n + 1)
  | look true back body, k => fun p slots n =>
    let inside :=
      match p.back? back with
      | some q => body.run limits done q slots n
      | none => .failed (n + 1)
    match inside with
    | .found _ _ n => .failed (n + 1)
    | .failed n => if n > limits.failures then .exceeded else k p slots n
    | .exceeded => .exceeded
  | atomic body, k => fun p slots n =>
    match body.run limits done p slots n with
    | .found q slots n => k q slots n
    | r => r
  | backref index, k => fun p slots n =>
    match (groupText? slots index).bind fun cs => p.skipText? cs with
    | some q => k q slots n
    | none => .failed (n + 1)
  | groupMatched index, k => fun p slots n =>
    if (slots.getD (2 * index) none).isSome then k p slots n else .failed (n + 1)
  | keepOut, k => fun p slots n => k p (slots.set! 0 (some p)) n
  | searchStart, k => fun p slots n => if p.left < limits.origin then .failed (n + 1) else k p slots n
  | conditional condition ifTrue ifFalse, k => fun p slots n =>
    match condition.run limits done p slots n with
    | .found q slots n => ifTrue.run limits k q slots n
    | .failed n => if n > limits.failures then .exceeded else ifFalse.run limits k p slots n
    | .exceeded => .exceeded

/-- The first match at a place: the expression is the group with number zero. -/
def matchAt (e : Tree) (limits : Limits) (slots : Slots) (p : Place) (n : Nat) : Outcome Nat :=
  (group 0 e).run limits done p slots n

/-- Whether the expression can match only at the start of the text, where one check decides it. -/
def opensText : Tree → Bool
  | assertion .textStart => true
  | plain e _ _ => e.opensText
  | seq a _ => a.opensText
  | _ => false

/-- The first match at one of the places from `before` and `after` on; moving on counts as a failure. -/
def search (e : Tree) (limits : Limits) (slots : Slots) : (before after : List Char) → (left n : Nat) →
    Outcome Nat
  | before, [], left, n => orElse limits (e.matchAt limits slots ⟨before, [], left⟩ n) fun n => .failed (n + 1)
  | before, c :: after, left, n =>
    match e.matchAt limits slots ⟨before, c :: after, left⟩ n with
    | .failed n =>
      if n > limits.failures then .exceeded
      else if e.opensText then
        -- Each place that follows fails by one check.
        if n + left > limits.failures then .exceeded else .failed (n + left + 1)
      else e.search limits slots (c :: before) after (left - 1) n
    | r => r

end Tree
end Highlight.Regex
