import Highlight.Tokenizer

/-! What is assumed of the engine for patterns. For most of what tokens are it is enough that a reported match
    lies in the text that was searched. What the rules remember is right only for an engine that decides at each
    offset whether there is a match, and reports the first. -/

namespace Highlight

def Regex.Match.shift (m : Regex.Match) (n : Nat) : Regex.Match :=
  ⟨m.span.shift n, m.groups.map fun group => group.map (·.shift n)⟩

/-! ### The first offset that has a value -/

/-- The first value of a function from `start` on, up to `stop`. -/
def firstFrom {α : Type} (f : Nat → Option α) (start stop : Nat) : Option α :=
  (List.range' start (stop + 1 - start)).findSome? f

section
variable {α β : Type} {f g : Nat → Option α} {start stop : Nat}

theorem firstFrom_of_lt (h : stop < start) : firstFrom f start stop = none := by
  have hlen : stop + 1 - start = 0 := by omega
  rw [firstFrom, hlen]
  rfl

theorem firstFrom_step (h : start ≤ stop) :
    firstFrom f start stop = (f start).or (firstFrom f (start + 1) stop) := by
  have hlen : stop + 1 - start = (stop + 1 - (start + 1)) + 1 := by omega
  rw [firstFrom, hlen, List.range'_succ, List.findSome?_cons]
  cases f start <;> rfl

theorem firstFrom_eq_none : firstFrom f start stop = none ↔ ∀ i, start ≤ i → i ≤ stop → f i = none := by
  rw [firstFrom, List.findSome?_eq_none_iff]
  constructor
  · intro h i h1 h2
    exact h i (List.mem_range'_1.mpr ⟨h1, by omega⟩)
  · intro h i hi
    obtain ⟨h1, h2⟩ := List.mem_range'_1.mp hi
    exact h i h1 (by omega)

theorem firstFrom_congr (h : ∀ i, start ≤ i → i ≤ stop → f i = g i) :
    firstFrom f start stop = firstFrom g start stop := by
  induction hn : stop + 1 - start generalizing start with
  | zero =>
    have hlt : stop < start := by omega
    rw [firstFrom_of_lt (f := f) hlt, firstFrom_of_lt (f := g) hlt]
  | succ n ih =>
    have hle : start ≤ stop := by omega
    rw [firstFrom_step (f := f) hle, firstFrom_step (f := g) hle, h start (Nat.le_refl _) hle,
      ih (fun i h1 h2 => h i (by omega) h2) (by omega)]

theorem firstFrom_map (k : α → β) :
    firstFrom (fun i => (f i).map k) start stop = (firstFrom f start stop).map k := by
  induction hn : stop + 1 - start generalizing start with
  | zero =>
    have hlt : stop < start := by omega
    rw [firstFrom_of_lt (f := f) hlt, firstFrom_of_lt hlt, Option.map_none]
  | succ n ih =>
    have hle : start ≤ stop := by omega
    rw [firstFrom_step (f := f) hle, firstFrom_step hle, ih (by omega)]
    cases f start <;> rfl

theorem firstFrom_shift (n : Nat) :
    firstFrom (fun i => f (i + n)) start stop = firstFrom f (start + n) (stop + n) := by
  induction hn : stop + 1 - start generalizing start with
  | zero =>
    have hlt : stop < start := by omega
    rw [firstFrom_of_lt hlt, firstFrom_of_lt (Nat.add_lt_add_right hlt n)]
  | succ k ih =>
    have hle : start ≤ stop := by omega
    rw [firstFrom_step hle, firstFrom_step (Nat.add_le_add_right hle n), ih (by omega), Nat.add_right_comm]

/-- The first value is not before a number up to which there is none. -/
theorem firstFrom_skip {middle : Nat} (hle : start ≤ middle) (h : ∀ i, start ≤ i → i < middle → f i = none) :
    firstFrom f start stop = firstFrom f middle stop := by
  induction hn : middle - start generalizing start with
  | zero =>
    obtain rfl : start = middle := by omega
    rfl
  | succ n ih =>
    by_cases hstop : start ≤ stop
    · rw [firstFrom_step hstop, h start (Nat.le_refl _) (by omega), Option.none_or]
      exact ih (by omega) (fun i h1 h2 => h i (by omega) h2) (by omega)
    · have hlt : stop < start := by omega
      rw [firstFrom_of_lt hlt, firstFrom_of_lt (Nat.lt_of_lt_of_le hlt hle)]

theorem firstFrom_eq_some {a : α} (h : firstFrom f start stop = some a) :
    ∃ i, start ≤ i ∧ i ≤ stop ∧ f i = some a ∧ ∀ j, start ≤ j → j < i → f j = none := by
  induction hn : stop + 1 - start generalizing start with
  | zero =>
    rw [firstFrom_of_lt (by omega)] at h
    cases h
  | succ n ih =>
    rw [firstFrom_step (by omega)] at h
    cases hf : f start with
    | some b =>
      rw [hf, Option.some_or] at h
      exact ⟨start, Nat.le_refl _, by omega, hf.trans h, fun j h1 h2 => absurd h1 (by omega)⟩
    | none =>
      rw [hf, Option.none_or] at h
      obtain ⟨i, h1, h2, h3, h4⟩ := ih h (by omega)
      refine ⟨i, by omega, h2, h3, fun j hj hji => ?_⟩
      by_cases hj' : j = start
      · exact hj' ▸ hf
      · exact h4 j (by omega) hji

end

/-! ### Assumptions -/

/-- A reported match lies in the text that was searched. Nothing is said of its groups, of when there is a match,
    and of whether a match starts at the offset that was asked for or later. -/
structure Engine.Bounded (e : Engine) : Prop where
  search : ∀ {p text start m}, start ≤ text.length → e.search p text start = .ok (some m) →
    m.span.start ≤ m.span.stop ∧ m.span.stop ≤ text.length
  atStart : ∀ {p text m}, e.atStart p text = .ok (some m) →
    m.span.start ≤ m.span.stop ∧ m.span.stop ≤ text.length

/-- This holds of the searches for one pattern in one text. -/
def Engine.BoundedIn (e : Engine) (p : Pattern) (text : List Char) : Prop :=
  ∀ ⦃start m⦄, start ≤ text.length → e.search p text start = .ok (some m) →
    m.span.start ≤ m.span.stop ∧ m.span.stop ≤ text.length

theorem Engine.Bounded.boundedIn {e : Engine} (h : e.Bounded) (p : Pattern) (text : List Char) : e.BoundedIn p text :=
  fun _ _ hle hm => h.search hle hm

/-- In one text no match of the pattern starts before the offset that was asked for. -/
def Engine.GoesAheadIn (e : Engine) (p : Pattern) (text : List Char) : Prop :=
  ∀ ⦃start m⦄, start ≤ text.length → e.search p text start = .ok (some m) → start ≤ m.span.start

/-- No match of the pattern starts before the offset that was asked for, whatever the text. -/
def Engine.GoesAhead (e : Engine) (p : Pattern) : Prop := ∀ text, e.GoesAheadIn p text

/-- Whether a pattern matches at an offset of a text, and how. -/
abbrev Attempt := Pattern → List Char → Nat → Option Regex.Match

/-- The engine decides by `attempt` whether the pattern matches at an offset of a text. Searches that do not fail
    report the first match, and the match at the start is the one at offset zero. If the pattern writes no
    lookbehind, whether it matches at a later offset depends on the character before it and the text from there
    on. -/
structure Engine.Attempts (e : Engine) (attempt : Attempt) (p : Pattern) : Prop where
  span : ∀ {text i m}, attempt p text i = some m →
    m.span.start = i ∧ m.span.start ≤ m.span.stop ∧ m.span.stop ≤ text.length
  search : ∀ {text start found}, start ≤ text.length → e.search p text start = .ok found →
    found = firstFrom (attempt p text) start text.length
  atStart : ∀ {text found}, e.atStart p text = .ok found → found = attempt p text 0
  nearby : p.looksBehind = false → ∀ front c back,
    attempt p (front ++ c :: back) (front.length + 1) = (attempt p (c :: back) 1).map (·.shift front.length)

theorem Engine.Attempts.goesAhead {e : Engine} {attempt : Attempt} {p : Pattern} (h : e.Attempts attempt p) :
    e.GoesAhead p := by
  intro text start m hstart hm
  obtain ⟨i, hle, -, hi, -⟩ := firstFrom_eq_some (h.search hstart hm).symm
  exact (h.span hi).1 ▸ hle

/-- The engine decides by `attempt` for every pattern. -/
theorem Engine.bounded_of_attempts {e : Engine} {attempt : Attempt} (h : ∀ p, e.Attempts attempt p) : e.Bounded where
  search {p} {_} {_} {_} hstart hm := by
    obtain ⟨i, -, -, hi, -⟩ := firstFrom_eq_some ((h p).search hstart hm).symm
    exact ((h p).span hi).2
  atStart {p} {_} {_} hm := ((h p).span ((h p).atStart hm).symm).2

/-! ### An engine for literal text -/

namespace Engine

/-- The engine that decides by `attempt` and never fails. -/
def ofAttempts (attempt : Attempt) : Engine where
  search p text start := .ok (firstFrom (attempt p text) start text.length)
  atStart p text := .ok (attempt p text 0)

/-- Whether the text has the source of the pattern at an offset, letter by letter. -/
def literalAt (p : Pattern) (text : List Char) (i : Nat) : Option Regex.Match :=
  if i ≤ text.length ∧ p.source.toList.isPrefixOf (text.drop i) then
    some ⟨⟨i, i + p.source.toList.length⟩, []⟩
  else none

/-- The engine that takes patterns as literal text. -/
def literal : Engine := ofAttempts literalAt

theorem attempts_literal (p : Pattern) : literal.Attempts literalAt p where
  span {text i m} h := by
    unfold literalAt at h
    split at h
    · rename_i hlit
      obtain rfl := Option.some.inj h
      have hlen := (List.isPrefixOf_iff_prefix.mp hlit.2).length_le
      rw [List.length_drop] at hlen
      refine ⟨rfl, Nat.le_add_right _ _, ?_⟩
      have := hlit.1
      simp only
      omega
    · cases h
  search _ h := (Except.ok.inj h).symm
  atStart h := (Except.ok.inj h).symm
  nearby _ front c back := by
    have hdrop : (front ++ c :: back).drop (front.length + 1) = (c :: back).drop 1 := by
      rw [← List.drop_drop, List.drop_left]
    simp only [literalAt, hdrop, List.length_append, List.length_cons]
    by_cases hlit : p.source.toList.isPrefixOf ((c :: back).drop 1) = true
    · have h1 : front.length + 1 ≤ front.length + (back.length + 1) := by omega
      have h2 : 1 ≤ back.length + 1 := by omega
      simp only [hlit, h1, h2, and_self, if_true, Option.map_some, Regex.Match.shift, Span.shift, List.map_nil]
      congr 3 <;> omega
    · simp only [hlit, Bool.false_eq_true, and_false, if_false, Option.map_none]

theorem bounded_literal : literal.Bounded := bounded_of_attempts attempts_literal

end Engine

/-- The expression for a text, letter by letter. -/
def Regex.Plain.letters (cs : List Char) : Regex.Plain := .ofList (cs.map fun c => .one (.single c))

/-- The pattern that is its source, letter by letter. -/
def Pattern.literal (source : String) : Pattern where
  source := source
  flags := ""
  failures := defaultFailures
  program := .plain (.letters source.toList) 1
  anchored := .plain (.seq (.assertion .textStart) (.letters source.toList)) 1
  looksBehind := false

/-- The tokenizer that takes patterns as literal text and finds no languages. -/
def Tokenizer.literal : Tokenizer := { engine := .literal, language? := fun _ => none }

end Highlight
