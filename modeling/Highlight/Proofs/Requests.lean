import Highlight.Proofs.Recall
import Highlight.Proofs.Reports

/-! A rule that is asked again and again. What it remembers of its answers makes no difference to them: without the
    lookbehind option every answer is that of a search that knows nothing, and with it an answer may only be a match
    that such a search has found from an earlier place, and whose token is still ahead. -/

namespace Highlight

/-- What a rule is asked for: the match that it offers at a place of a level, or the first one from there up to a
    limit. -/
inductive Request where
  | next (offset : Nat)
  | within (offset limit : Nat)
  deriving DecidableEq, Repr

namespace Request

/-- The place at which a rule is asked for what it offers. -/
def place? : Request → Option Nat
  | next offset => some offset
  | within .. => none

/-- The places at which a rule is asked for what it offers, in order. -/
def places (requests : List Request) : List Nat := requests.filterMap place?

/-- The answer to a request about a level. -/
def answer (engine : Engine) (active : ActiveRule) (text : List Char) (cursor : RuleCursor) :
    Request → Logged (RuleCursor × Option Candidate)
  | next offset => cursor.candidate engine active offset (text.drop offset)
  | within offset limit => cursor.windowed engine active offset limit (text.drop offset)

/-- The answers to requests, one after the other. -/
def answers (engine : Engine) (active : ActiveRule) (text : List Char) :
    RuleCursor → List Request → Logged (List (Option Candidate))
  | _, [] => return []
  | cursor, request :: requests => do
    let (cursor, found) ← request.answer engine active text cursor
    return found :: (← answers engine active text cursor requests)

end Request

namespace RuleCursor
open Candidate

/-! ### Where answers come from -/

/-- The answer at a place is what the rule finds from there on, or what it has found from an earlier place that was
    visited, with a token that is still ahead. -/
def Originates (attempt : Attempt) (rule : Rule) (text : List Char) (visited : List Nat) (offset : Nat)
    (found : Option Candidate) : Prop :=
  ∀ c, found = some c → rule.leftmostFrom attempt text offset = some c ∨
    offset ≤ c.start ∧ ∃ base ∈ visited, base < offset ∧ rule.leftmostFrom attempt text base = some c

/-- What the rule remembers is its answer at a place that was visited: one that is right, and that comes from there or
    from a place before. -/
structure Retains (attempt : Attempt) (rule : Rule) (text : List Char) (visited : List Nat) (cursor : RuleCursor) :
    Prop where
  mem : ∀ {previous cached}, cursor.known = some (previous, cached) → previous ∈ visited
  answers : ∀ {previous cached}, cursor.known = some (previous, cached) → Answers attempt rule text previous cached
  originates : ∀ {previous cached}, cursor.known = some (previous, cached) →
    Originates attempt rule text visited previous cached

section
variable {engine : Engine} {attempt : Attempt} {rule : Rule} {active : ActiveRule} {cursor : RuleCursor}
  {visited visited' : List Nat} {offset : Nat} {text : List Char} {found : Option Candidate} {c : Candidate}

theorem retains_fresh : Retains attempt rule text visited {} := ⟨nofun, nofun, nofun⟩

theorem Originates.mono (h : Originates attempt rule text visited offset found) (hsub : visited ⊆ visited') :
    Originates attempt rule text visited' offset found := by
  intro c hc
  rcases h c hc with hhere | ⟨hahead, base, hbase, hlt, hthere⟩
  · exact Or.inl hhere
  · exact Or.inr ⟨hahead, base, hsub hbase, hlt, hthere⟩

theorem Retains.of_known {cursor' : RuleCursor} (h : Retains attempt rule text visited cursor)
    (hk : cursor'.known = cursor.known) : Retains attempt rule text visited cursor' :=
  ⟨fun hk' => h.mem (hk ▸ hk'), fun hk' => h.answers (hk ▸ hk'), fun hk' => h.originates (hk ▸ hk')⟩

theorem Retains.recalls (h : Retains attempt rule text visited cursor) (hvisited : ∀ base ∈ visited, base ≤ offset) :
    Recalls attempt rule text cursor offset := fun _ _ hk => ⟨hvisited _ (h.mem hk), h.answers hk⟩

/-- A candidate that is kept was the answer at another place, and its token is still ahead. -/
theorem Way.kept_ahead {anchored : Bool} (h : Way rule cursor offset anchored (some c)) :
    ∃ previous, cursor.known = some (previous, some c) ∧ previous ≠ offset ∧ offset ≤ c.start := by
  cases h with
  | ahead hk hne hle _ _ => exact ⟨_, hk, hne, hle⟩
  | overtaken hk hne hle _ => exact ⟨_, hk, hne, hle⟩

theorem originates_candidate (he : engine.Attempts attempt active.rule.pattern) (hle : offset ≤ text.length)
    (hr : Retains attempt active.rule text visited cursor) (hvisited : ∀ base ∈ visited, base ≤ offset)
    (hs : (candidate engine active cursor offset (text.drop offset)).Succeeds) :
    Originates attempt active.rule text visited offset
      (candidate engine active cursor offset (text.drop offset)).value.2 := by
  rcases candidate_cases engine active cursor offset (text.drop offset) with
    ⟨cached, hk, heq⟩ | ⟨anchored, kept, hway, heq⟩
  · rw [heq]
    exact hr.originates hk
  · rw [heq] at hs ⊢
    intro c hc
    rcases earlier_eq (show earlier _ kept = some c from hc) with hfresh | rfl
    · -- A match right at the place is the first one from there on.
      rw [value_ask he anchored (Logged.succeeds_bind.mp hs).1] at hfresh
      refine Or.inl ?_
      split at hfresh
      · rw [Rule.leftmostFrom_step hle, hfresh, Option.some_or]
      · exact hfresh
    · obtain ⟨previous, hk, hne, hahead⟩ := hway.kept_ahead
      have hlt : previous < offset := Nat.lt_of_le_of_ne (hvisited _ (hr.mem hk)) hne
      refine Or.inr ⟨hahead, ?_⟩
      rcases hr.originates hk c rfl with hthere | ⟨-, base, hbase, hbefore, hthere⟩
      · exact ⟨previous, hr.mem hk, hlt, hthere⟩
      · exact ⟨base, hbase, Nat.lt_trans hbefore hlt, hthere⟩

theorem retains_candidate (he : engine.Attempts attempt active.rule.pattern) (hle : offset ≤ text.length)
    (hr : Retains attempt active.rule text visited cursor) (hvisited : ∀ base ∈ visited, base ≤ offset)
    (hs : (candidate engine active cursor offset (text.drop offset)).Succeeds) :
    Retains attempt active.rule text (visited ++ [offset])
      (candidate engine active cursor offset (text.drop offset)).value.1 := by
  have hknown := known_candidate engine active cursor offset (text.drop offset)
  refine ⟨fun hk => ?_, fun hk => ?_, fun hk => ?_⟩ <;>
    obtain ⟨rfl, rfl⟩ := Prod.mk.inj (Option.some.inj (hknown.symm.trans hk))
  · exact List.mem_append_right _ (List.mem_singleton_self _)
  · exact answers_candidate he hle (hr.recalls hvisited) hs
  · exact (originates_candidate he hle hr hvisited hs).mono (List.subset_append_left _ _)

/-! ### Searches that know nothing -/

/-- What a rule finds from a place on when it remembers nothing. -/
def uncached (engine : Engine) (active : ActiveRule) (text : List Char) (offset : Nat) :
    Logged (RuleCursor × Option Candidate) :=
  search engine active {} offset (text.drop offset)

theorem value_uncached (he : engine.Attempts attempt active.rule.pattern)
    (hs : (uncached engine active text offset).Succeeds) :
    (uncached engine active text offset).value.2 = active.rule.leftmostFrom attempt text offset := value_search he hs

/-- How the answer at a place stands to a search from there that knows nothing, where `earlier` are the places at which
    the rule was asked before. Without the lookbehind option it is the same. If the search finds a match, the answer is
    one whose token starts no later; and an answer that is not the one of the search is a match found from an earlier
    place, with a token that is still ahead. -/
structure Transparent (engine : Engine) (active : ActiveRule) (text : List Char) (earlier : List Nat) (offset : Nat)
    (found : Option Candidate) : Prop where
  eq_uncached : active.rule.lookbehind = false → found = (uncached engine active text offset).value.2
  some_of_uncached : ∀ c, (uncached engine active text offset).value.2 = some c → ∃ f, found = some f ∧ f.start ≤ c.start
  origin : ∀ c, found = some c → (uncached engine active text offset).value.2 = some c ∨
    offset ≤ c.start ∧ ∃ base ∈ earlier, base < offset ∧ (uncached engine active text base).value.2 = some c

theorem transparent_of_answers (he : engine.Attempts attempt active.rule.pattern)
    (hanswers : Answers attempt active.rule text offset found)
    (horigin : Originates attempt active.rule text visited offset found)
    (hs : (uncached engine active text offset).Succeeds)
    (hvisited : ∀ base ∈ visited, (uncached engine active text base).Succeeds) :
    Transparent engine active text visited offset found := by
  have hvalue := value_uncached he hs
  refine ⟨fun hrule => hvalue ▸ hanswers.eq_leftmost hrule, fun c hc => ?_, fun c hc => ?_⟩
  · exact hanswers.some_of_leftmost (hvalue ▸ hc)
  · rcases horigin c hc with hhere | ⟨hahead, base, hbase, hlt, hthere⟩
    · exact Or.inl (hvalue ▸ hhere)
    · exact Or.inr ⟨hahead, base, hbase, hlt, (value_uncached he (hvisited base hbase)).trans hthere⟩

end
end RuleCursor

/-! ### Requests in turn -/

namespace Request
open RuleCursor

section
variable {engine : Engine} {attempt : Attempt} {active : ActiveRule} {text : List Char}

theorem transparent_of_retains (he : engine.Attempts attempt active.rule.pattern) {requests : List Request} :
    ∀ {cursor : RuleCursor} {visited : List Nat}, Retains attempt active.rule text visited cursor →
    (visited ++ places requests).Pairwise (· ≤ ·) → (∀ offset ∈ places requests, offset ≤ text.length) →
    (∀ offset ∈ visited ++ places requests, (uncached engine active text offset).Succeeds) →
    (answers engine active text cursor requests).Succeeds →
    ∀ i offset, requests[i]? = some (next offset) →
      ∃ found, (answers engine active text cursor requests).value[i]? = some found ∧
        Transparent engine active text (visited ++ places (requests.take i)) offset found := by
  -- The places visited grow with every request for an offer, and what the rule remembers is from one of them.
  induction requests with
  | nil =>
    intro cursor visited _ _ _ _ _ i offset hi
    cases hi
  | cons request requests ih =>
    intro cursor visited hr hsorted hin hsearch hs i offset hi
    obtain ⟨hfirst, hrest⟩ := Logged.succeeds_bind.mp hs
    obtain ⟨hrest, -⟩ := Logged.succeeds_bind.mp hrest
    cases request with
    | next place =>
      have hplaces : visited ++ places (.next place :: requests) = visited ++ [place] ++ places requests := by
        simp [places, place?]
      have hle : place ≤ text.length := hin place List.mem_cons_self
      have hvisited : ∀ base ∈ visited, base ≤ place := fun base hbase =>
        (List.pairwise_append.mp hsorted).2.2 base hbase place List.mem_cons_self
      cases i with
      | zero =>
        obtain rfl : place = offset := Request.next.inj (Option.some.inj hi)
        refine ⟨_, rfl, ?_⟩
        rw [List.take_zero, places, List.filterMap_nil, List.append_nil]
        exact transparent_of_answers he (answers_candidate he hle (hr.recalls hvisited) hfirst)
          (originates_candidate he hle hr hvisited hfirst)
          (hsearch place (List.mem_append_right _ List.mem_cons_self))
          fun base hbase => hsearch base (List.mem_append_left _ hbase)
      | succ i =>
        rw [hplaces] at hsorted hsearch
        have hlater := ih (retains_candidate he hle hr hvisited hfirst) hsorted
          (fun offset hmem => hin offset (List.mem_cons_of_mem _ hmem)) hsearch hrest i offset hi
        rwa [List.append_assoc] at hlater
    | within place limit =>
      cases i with
      | zero => cases hi
      | succ i => exact ih (hr.of_known known_windowed) hsorted hin hsearch hrest i offset hi

/-- What a rule remembers is transparent. A rule may be asked any number of times, for what it offers at places that do
    not go back, and between these for matches up to any limit. As long as no search is given up, every offer stands to
    a search that knows nothing as `Transparent` says. -/
theorem answers_transparent (active : ActiveRule) (he : engine.Attempts attempt active.rule.pattern) (text : List Char)
    {requests : List Request} (hsorted : (places requests).Pairwise (· ≤ ·))
    (hin : ∀ offset ∈ places requests, offset ≤ text.length)
    (hsearch : ∀ offset ∈ places requests, (uncached engine active text offset).Succeeds)
    (hs : (answers engine active text {} requests).Succeeds) :
    ∀ i offset, requests[i]? = some (next offset) →
      ∃ found, (answers engine active text {} requests).value[i]? = some found ∧
        Transparent engine active text (places (requests.take i)) offset found :=
  @transparent_of_retains engine attempt active text he requests {} [] retains_fresh hsorted hin hsearch hs

/-- Whether the text has the source of the pattern at an offset, with the first letter as a group. -/
def firstLetterAt (p : Pattern) (text : List Char) (i : Nat) : Option Regex.Match :=
  (Engine.literalAt p text i).map fun m => ⟨m.span, [some ⟨m.span.start, m.span.start + 1⟩]⟩

theorem attempts_firstLetter (p : Pattern) : (Engine.ofAttempts firstLetterAt).Attempts firstLetterAt p where
  span h := by
    obtain ⟨m, hm, rfl⟩ := Option.map_eq_some_iff.mp h
    have hspan := (Engine.attempts_literal p).span hm
    exact hspan
  search _ h := (Except.ok.inj h).symm
  atStart h := (Except.ok.inj h).symm
  nearby hp front c back := by
    simp only [firstLetterAt, (Engine.attempts_literal p).nearby hp, Option.map_map]
    congr 1
    funext m
    simp [Regex.Match.shift, Span.shift, Nat.add_right_comm]

/-- The letter behind an "a". -/
def ruleSample : ActiveRule := ⟨"letter", { pattern := .literal "ab", lookbehind := true }⟩

/-- On "xabab" the rule is asked at every place, at one of them twice, and for a match before a limit. -/
def requestSample : List Request := [.next 0, .within 0 2, .next 1, .next 2, .next 2, .next 3, .next 4, .next 5]

/-- The same without context, for a compiled pattern. -/
def pairRule : ActiveRule := ⟨"pair", { pattern := .literal "ab" }⟩

theorem sorted_requestSample : (places requestSample).Pairwise (· ≤ ·) := by decide

theorem within_requestSample : ∀ offset ∈ places requestSample, offset ≤ "xabab".toList.length := by decide +kernel

/-- At the places 2 and 4 the rule offers a token whose context is no longer ahead. A search from place 2 would find
    another one. With the compiled pattern, which has no context, the offers are those of the searches. -/
theorem answers_transparent_context :
    ((places requestSample).Pairwise (· ≤ ·) ∧ (∀ offset ∈ places requestSample, offset ≤ "xabab".toList.length) ∧
      (∀ offset ∈ places requestSample,
        (uncached (.ofAttempts firstLetterAt) ruleSample "xabab".toList offset).Succeeds) ∧
      (answers (.ofAttempts firstLetterAt) ruleSample "xabab".toList {} requestSample).Succeeds ∧
      (answers (.ofAttempts firstLetterAt) ruleSample "xabab".toList {} requestSample).value =
        [some ⟨1, 2, 3⟩, none, some ⟨1, 2, 3⟩, some ⟨1, 2, 3⟩, some ⟨1, 2, 3⟩, some ⟨3, 4, 5⟩, some ⟨3, 4, 5⟩, none] ∧
      (uncached (.ofAttempts firstLetterAt) ruleSample "xabab".toList 2).value.2 = some ⟨3, 4, 5⟩ ∧
      ∀ i offset, requestSample[i]? = some (next offset) →
        ∃ found, (answers (.ofAttempts firstLetterAt) ruleSample "xabab".toList {} requestSample).value[i]? =
            some found ∧
          Transparent (.ofAttempts firstLetterAt) ruleSample "xabab".toList (places (requestSample.take i)) offset
            found) ∧
    Pattern.compile "ab" "" Pattern.defaultFailures = .ok pairRule.rule.pattern ∧
      (∀ offset ∈ places requestSample, (uncached .compiled pairRule "xabab".toList offset).Succeeds) ∧
      (answers .compiled pairRule "xabab".toList {} requestSample).Succeeds ∧
      (answers .compiled pairRule "xabab".toList {} requestSample).value =
        [some ⟨1, 1, 3⟩, none, some ⟨1, 1, 3⟩, some ⟨3, 3, 5⟩, some ⟨3, 3, 5⟩, some ⟨3, 3, 5⟩, none, none] ∧
      ∀ i offset, requestSample[i]? = some (next offset) →
        ∃ found, (answers .compiled pairRule "xabab".toList {} requestSample).value[i]? = some found ∧
          Transparent .compiled pairRule "xabab".toList (places (requestSample.take i)) offset found := by
  constructor
  · have hsearch : ∀ offset ∈ places requestSample,
        (uncached (.ofAttempts firstLetterAt) ruleSample "xabab".toList offset).Succeeds := by decide +kernel
    have hs : (answers (.ofAttempts firstLetterAt) ruleSample "xabab".toList {} requestSample).Succeeds := by
      decide +kernel
    exact ⟨sorted_requestSample, within_requestSample, hsearch, hs, by decide +kernel, by decide +kernel,
      answers_transparent ruleSample (attempts_firstLetter _) _ sorted_requestSample within_requestSample hsearch hs⟩
  · have hsearch : ∀ offset ∈ places requestSample,
        (uncached .compiled pairRule "xabab".toList offset).Succeeds := by decide +kernel
    have hs : (answers .compiled pairRule "xabab".toList {} requestSample).Succeeds := by decide +kernel
    exact ⟨rfl, hsearch, hs, by decide +kernel, answers_transparent pairRule (Engine.attempts_compiled "ab") _
      sorted_requestSample within_requestSample hsearch hs⟩

end
end Request
end Highlight
