import Highlight.Proofs.Search

/-! What a rule remembers. Offsets count from the start of a level. A text that is searched from an offset on shows
    a pattern nothing before that offset, so what a rule found from one offset on need not be what it would find
    from a later one. `Answers` says how far an answer is right, and every way to get a new answer from an old one
    keeps it. -/

namespace Highlight

/-! ### Offers in a level -/

namespace Rule

/-- What a rule offers at an offset of a level whose text is searched from `base` on. -/
def offerFrom (attempt : Attempt) (rule : Rule) (text : List Char) (base i : Nat) : Option Candidate :=
  (rule.offer attempt (text.drop base) (i - base)).map (·.shift base)

/-- The leftmost match of a rule in a level whose text is searched from `base` on. -/
def leftmostFrom (attempt : Attempt) (rule : Rule) (text : List Char) (base : Nat) : Option Candidate :=
  (rule.leftmost attempt (text.drop base)).map (·.shift base)

/-- The leftmost match behind an offset, where each offer is looked for with one character before it. -/
def nextFrom (attempt : Attempt) (rule : Rule) (text : List Char) (base : Nat) : Option Candidate :=
  firstFrom (fun i => rule.offerFrom attempt text (i - 1) i) (base + 1) text.length

section
variable {engine : Engine} {attempt : Attempt} {rule : Rule} {text : List Char} {base base' i : Nat} {c : Candidate}

theorem offerFrom_rawStart (he : engine.Attempts attempt rule.pattern) (hle : base ≤ i)
    (h : rule.offerFrom attempt text base i = some c) : c.rawStart = i := by
  obtain ⟨c', hc', rfl⟩ := Option.map_eq_some_iff.mp h
  have hraw := (offer_fits he hc').1
  simp only [Candidate.shift]
  omega

theorem leftmostFrom_eq (hbase : base ≤ text.length) :
    rule.leftmostFrom attempt text base = firstFrom (rule.offerFrom attempt text base) base text.length := by
  have hoffer : ∀ i, rule.offerFrom attempt text base (i + base) =
      (rule.offer attempt (text.drop base) i).map (·.shift base) := by
    intro i
    rw [offerFrom, Nat.add_sub_cancel]
  have hshift := @firstFrom_shift _ (rule.offerFrom attempt text base) 0 (text.length - base) base
  rw [Nat.zero_add, Nat.sub_add_cancel hbase] at hshift
  rw [leftmostFrom, leftmost, List.length_drop, ← firstFrom_map, ← hshift]
  exact firstFrom_congr fun i _ _ => (hoffer i).symm

theorem leftmostFrom_step (hbase : base ≤ text.length) :
    rule.leftmostFrom attempt text base = (rule.offerFrom attempt text base base).or
      (firstFrom (rule.offerFrom attempt text base) (base + 1) text.length) := by
  rw [leftmostFrom_eq hbase, firstFrom_step hbase]

theorem leftmostFrom_start (hrule : rule.lookbehind = false) (h : rule.leftmostFrom attempt text base = some c) :
    c.start = c.rawStart := by
  obtain ⟨c', hc', rfl⟩ := Option.map_eq_some_iff.mp h
  obtain ⟨i, -, -, hi, -⟩ := firstFrom_eq_some hc'
  simp only [Candidate.shift, offer_start hrule hi]

/-- Behind the offset from which the text is searched, a rule that writes no lookbehind offers the same wherever the
    search began. -/
theorem offerFrom_nearby (he : engine.Attempts attempt rule.pattern) (hp : rule.pattern.looksBehind = false)
    (hlt : base < i) (hi : i ≤ text.length) : rule.offerFrom attempt text base i = rule.offerFrom attempt text (i - 1) i := by
  -- The text from `base` on, parted at the character before `i`.
  obtain ⟨front, c, back, htext, hlen⟩ : ∃ front c back, text.drop base = front ++ c :: back ∧
      front.length = i - 1 - base := by
    refine ⟨(text.drop base).take (i - 1 - base), text[i - 1], text.drop i, ?_, ?_⟩
    · have hdrop : (text.drop base).drop (i - 1 - base) = text[i - 1] :: text.drop i := by
        rw [List.drop_drop, Nat.add_sub_cancel' (by omega), List.drop_eq_getElem_cons (by omega),
          Nat.sub_add_cancel (by omega)]
      rw [← hdrop, List.take_append_drop]
    · rw [List.length_take, List.length_drop]
      omega
  have hlast : text.drop (i - 1) = c :: back := by
    have hdrop : text.drop (i - 1) = (text.drop base).drop (i - 1 - base) := by
      rw [List.drop_drop, Nat.add_sub_cancel' (by omega)]
    rw [hdrop, htext, ← hlen, List.drop_left]
  have hi' : i - base = front.length + 1 := by omega
  have h1 : i - (i - 1) = 1 := by omega
  have hsum : front.length + base = i - 1 := by omega
  rw [offerFrom, htext, hi', offer_nearby he hp, Candidate.map_shift_shift, offerFrom, hlast, h1, ← hsum]

theorem leftmostFrom_nearby (he : engine.Attempts attempt rule.pattern) (hp : rule.pattern.looksBehind = false)
    (hbase : base ≤ text.length) :
    rule.leftmostFrom attempt text base =
      (rule.offerFrom attempt text base base).or (rule.nextFrom attempt text base) := by
  have hnext : firstFrom (rule.offerFrom attempt text base) (base + 1) text.length = rule.nextFrom attempt text base :=
    firstFrom_congr fun i h1 h2 => offerFrom_nearby he hp h1 h2
  rw [leftmostFrom_step hbase, hnext]

theorem nextFrom_none (hle : base ≤ base') (h : rule.nextFrom attempt text base = none) :
    rule.nextFrom attempt text base' = none := by
  rw [nextFrom, firstFrom_eq_none] at h ⊢
  exact fun i h1 h2 => h i (by omega) h2

/-- The first match behind an offset stays the first behind a later offset before it. -/
theorem nextFrom_ahead (he : engine.Attempts attempt rule.pattern) (hle : base ≤ base') (hlt : base' < c.rawStart)
    (h : rule.nextFrom attempt text base = some c) : rule.nextFrom attempt text base' = some c := by
  obtain ⟨i, h1, h2, hi, hbefore⟩ := firstFrom_eq_some h
  obtain rfl : c.rawStart = i := offerFrom_rawStart he (Nat.sub_le i 1) hi
  have hskip : rule.nextFrom attempt text base = rule.nextFrom attempt text base' :=
    firstFrom_skip (Nat.succ_le_succ hle) fun j hj hj' => hbefore j hj (by omega)
  rw [← hskip, h]

end
end Rule

/-! ### Answers -/

namespace RuleCursor
open Candidate

/-- How far what a rule offers at an offset of a level is right. If there is a match, the rule offers one that starts
    no later than the leftmost; without the lookbehind option it offers the leftmost match itself. If the pattern
    writes no lookbehind, an offer ahead of the offset is the first match behind it. -/
structure Answers (attempt : Attempt) (rule : Rule) (text : List Char) (offset : Nat) (found : Option Candidate) :
    Prop where
  some_of_leftmost : ∀ {c}, rule.leftmostFrom attempt text offset = some c → ∃ f, found = some f ∧ f.start ≤ c.start
  eq_leftmost : rule.lookbehind = false → found = rule.leftmostFrom attempt text offset
  next : rule.pattern.looksBehind = false → ∀ {c}, found = some c → offset < c.rawStart →
    rule.nextFrom attempt text offset = some c

/-- What the rule remembers was its answer at an offset that is no later. -/
def Recalls (attempt : Attempt) (rule : Rule) (text : List Char) (cursor : RuleCursor) (offset : Nat) : Prop :=
  ∀ previous cached, cursor.known = some (previous, cached) →
    previous ≤ offset ∧ Answers attempt rule text previous cached

section
variable {engine : Engine} {attempt : Attempt} {rule : Rule} {active : ActiveRule} {cursor : RuleCursor}
  {offset previous : Nat} {text : List Char} {found cached fresh : Option Candidate} {c : Candidate}

theorem recalls_fresh : Recalls attempt rule text {} offset := fun _ _ h => nomatch h

theorem Recalls.later {offset' : Nat} (h : Recalls attempt rule text cursor offset) (hle : offset ≤ offset') :
    Recalls attempt rule text cursor offset' := fun previous cached hk =>
  ⟨Nat.le_trans (h previous cached hk).1 hle, (h previous cached hk).2⟩

theorem Recalls.of_known {cursor' : RuleCursor} (h : Recalls attempt rule text cursor offset)
    (hk : cursor'.known = cursor.known) : Recalls attempt rule text cursor' offset := fun previous cached h' =>
  h previous cached (hk ▸ h')

theorem answers_leftmost (he : engine.Attempts attempt rule.pattern) (hle : offset ≤ text.length) :
    Answers attempt rule text offset (rule.leftmostFrom attempt text offset) where
  some_of_leftmost h := ⟨_, h, Nat.le_refl _⟩
  eq_leftmost _ := rfl
  next hp c hc hahead := by
    rw [Rule.leftmostFrom_nearby he hp hle] at hc
    cases hhere : rule.offerFrom attempt text offset offset with
    | none => rwa [hhere, Option.none_or] at hc
    | some c' =>
      rw [hhere, Option.some_or] at hc
      cases hc
      exact absurd (Rule.offerFrom_rawStart he (Nat.le_refl _) hhere) (by omega)

/-- Where there was no match before, only the offset itself has to be looked at. -/
theorem answers_none (he : engine.Attempts attempt rule.pattern) (hle : offset ≤ text.length)
    (hp : rule.pattern.looksBehind = false) (hprevious : previous ≤ offset)
    (h : Answers attempt rule text previous none) :
    Answers attempt rule text offset (rule.offerFrom attempt text offset offset) := by
  have hnone : rule.leftmostFrom attempt text previous = none := by
    cases hleft : rule.leftmostFrom attempt text previous with
    | none => rfl
    | some c =>
      obtain ⟨f, hf, -⟩ := h.some_of_leftmost hleft
      cases hf
  rw [Rule.leftmostFrom_nearby he hp (Nat.le_trans hprevious hle), Option.or_eq_none_iff] at hnone
  have hhere : rule.offerFrom attempt text offset offset = rule.leftmostFrom attempt text offset := by
    rw [Rule.leftmostFrom_nearby he hp hle, Rule.nextFrom_none hprevious hnone.2, Option.or_none]
  rw [hhere]
  exact answers_leftmost he hle

/-- A match that was found ahead is still the first, unless there is one at the offset itself. -/
theorem answers_ahead (he : engine.Attempts attempt rule.pattern) (hle : offset ≤ text.length)
    (hp : rule.pattern.looksBehind = false) (hprevious : previous ≤ offset) (hahead : offset < c.rawStart)
    (h : Answers attempt rule text previous (some c)) :
    Answers attempt rule text offset (earlier (rule.offerFrom attempt text offset offset) (some c)) := by
  have hnext : rule.nextFrom attempt text offset = some c :=
    Rule.nextFrom_ahead he hprevious hahead (h.next hp rfl (Nat.lt_of_le_of_lt hprevious hahead))
  have hleft := Rule.leftmostFrom_nearby he hp hle
  rw [hnext] at hleft
  cases hhere : rule.offerFrom attempt text offset offset with
  | none =>
    rw [hhere, Option.none_or] at hleft
    have heq : earlier none (some c) = rule.leftmostFrom attempt text offset := hleft.symm
    rw [heq]
    exact answers_leftmost he hle
  | some f =>
    rw [hhere, Option.some_or] at hleft
    have hraw : f.rawStart = offset := Rule.offerFrom_rawStart he (Nat.le_refl _) hhere
    by_cases hstart : c.start ≤ f.start
    · -- Only context can put the token of the match at the offset behind that of the one ahead.
      simp only [earlier, hstart, if_true]
      refine ⟨?_, ?_, ?_⟩
      · intro c' hc'
        cases hleft.symm.trans hc'
        exact ⟨c, rfl, hstart⟩
      · intro hrule
        have h1 := Rule.leftmostFrom_start hrule hleft
        have h2 := Rule.leftmostFrom_start hrule (h.eq_leftmost hrule).symm
        omega
      · rintro - c' ⟨⟩ -
        exact hnext
    · have heq : earlier (some f) (some c) = rule.leftmostFrom attempt text offset := by
        rw [hleft, earlier]
        simp only [hstart, if_false]
      rw [heq]
      exact answers_leftmost he hle

/-- A match whose context was overtaken is offered before later ones. -/
theorem answers_overtaken (he : engine.Attempts attempt rule.pattern) (hle : offset ≤ text.length)
    (hstart : offset ≤ c.start) (hraw : c.rawStart < offset) (h : Answers attempt rule text previous (some c)) :
    Answers attempt rule text offset (earlier (rule.leftmostFrom attempt text offset) (some c)) := by
  have hleft : Answers attempt rule text offset (rule.leftmostFrom attempt text offset) := answers_leftmost he hle
  refine ⟨?_, ?_, ?_⟩
  · intro f hf
    rw [hf]
    by_cases hlate : c.start ≤ f.start
    · exact ⟨c, by simp only [earlier, hlate, if_true], hlate⟩
    · exact ⟨f, by simp only [earlier, hlate, if_false], Nat.le_refl _⟩
  · intro hrule
    have hc := Rule.leftmostFrom_start hrule (h.eq_leftmost hrule).symm
    omega
  · intro hp d hd hahead
    rcases earlier_eq hd with hd | hd
    · exact hleft.next hp hd hahead
    · cases hd
      omega

end

/-! ### Asking a rule -/

section
variable {engine : Engine} {attempt : Attempt} {active : ActiveRule} {cursor : RuleCursor} {offset : Nat}
  {text : List Char}

theorem value_ask (he : engine.Attempts attempt active.rule.pattern) (anchored : Bool)
    (hs : (ask engine active cursor offset (text.drop offset) anchored).Succeeds) :
    (ask engine active cursor offset (text.drop offset) anchored).value.2 =
      if anchored then active.rule.offerFrom attempt text offset offset
      else active.rule.leftmostFrom attempt text offset := by
  cases anchored with
  | false => exact value_search he hs
  | true =>
    rw [if_pos rfl, Rule.offerFrom, Nat.sub_self]
    exact value_atStart he hs

/-- What a rule offers is a right answer, given that what it remembers was one. -/
theorem answers_candidate (he : engine.Attempts attempt active.rule.pattern) (hle : offset ≤ text.length)
    (hr : Recalls attempt active.rule text cursor offset)
    (hs : (candidate engine active cursor offset (text.drop offset)).Succeeds) :
    Answers attempt active.rule text offset (candidate engine active cursor offset (text.drop offset)).value.2 := by
  rcases candidate_cases engine active cursor offset (text.drop offset) with
    ⟨cached, hk, heq⟩ | ⟨anchored, kept, hway, heq⟩
  · rw [heq]
    exact (hr _ _ hk).2
  · rw [heq] at hs ⊢
    have hask := value_ask he anchored (Logged.succeeds_bind.mp hs).1
    have hvalue : (settle offset kept (ask engine active cursor offset (text.drop offset) anchored)).value.2 =
        earlier (ask engine active cursor offset (text.drop offset) anchored).value.2 kept := rfl
    rw [hvalue, hask]
    cases hway with
    | first => simpa using answers_leftmost he hle
    | noneBehind => simpa using answers_leftmost he hle
    | passed => simpa using answers_leftmost he hle
    | aheadBehind => simpa using answers_leftmost he hle
    | none hk _ hp =>
      obtain ⟨hprevious, hanswers⟩ := hr _ _ hk
      simpa using answers_none he hle hp hprevious hanswers
    | ahead hk _ _ hahead hp =>
      obtain ⟨hprevious, hanswers⟩ := hr _ _ hk
      exact answers_ahead he hle hp hprevious hahead hanswers
    | overtaken hk _ hstart hraw =>
      obtain ⟨-, hanswers⟩ := hr _ _ hk
      exact answers_overtaken he hle hstart hraw hanswers

theorem recalls_candidate (he : engine.Attempts attempt active.rule.pattern) (hle : offset ≤ text.length)
    (hr : Recalls attempt active.rule text cursor offset)
    (hs : (candidate engine active cursor offset (text.drop offset)).Succeeds) :
    Recalls attempt active.rule text (candidate engine active cursor offset (text.drop offset)).value.1 offset := by
  intro previous cached hk
  rw [known_candidate] at hk
  cases hk
  exact ⟨Nat.le_refl _, answers_candidate he hle hr hs⟩

end
end RuleCursor
end Highlight
