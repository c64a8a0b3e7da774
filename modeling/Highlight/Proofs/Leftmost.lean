import Highlight.Proofs.Calls
import Highlight.Proofs.Except
import Highlight.Proofs.Offsets
import Highlight.Proofs.Search

/-! What one search of a rule comes to, for an engine that finds the matches of its pattern in one text. The course of the
    search is the only one (`Searched.unique`) and leads to the first match in which a character is left for the token
    (`Searched.value`), wherever the group for the context lies. -/

namespace Highlight

/-! ### What is left of a match -/

/-- A character of a match is left for the token: if the rule has lookbehind, it does not lie before the end of the first
    group. That group may start before the match, and end behind it. -/
structure Rule.Leaves (rule : Rule) (m : Regex.Match) (i : Nat) : Prop where
  start_le : m.span.start ≤ i
  lt_stop : i < m.span.stop
  behind : ∀ context, rule.lookbehind = true → m.group? 1 = some context → context.stop ≤ i

/-- The match at an offset is the first one in which something is left for the token. -/
structure Rule.LeavesFirst (rule : Rule) (matchAt : Nat → Option Regex.Match) (i : Nat) (m : Regex.Match) : Prop where
  found : matchAt i = some m
  leaves : ∃ k, rule.Leaves m k
  first : ∀ j m', j < i → matchAt j = some m' → ∀ k, ¬ rule.Leaves m' k

/-- In one text the engine finds a pattern by `attempt`: a match starts at the offset that was tried and lies in the text,
    and a search from an offset on never fails and reports the first match. -/
structure Engine.Finds (e : Engine) (attempt : Attempt) (p : Pattern) (text : List Char) : Prop where
  span : ∀ {i m}, attempt p text i = some m →
    m.span.start = i ∧ m.span.start ≤ m.span.stop ∧ m.span.stop ≤ text.length
  search : ∀ {start}, start ≤ text.length → e.search p text start = .ok (firstFrom (attempt p text) start text.length)

section
variable {rule : Rule} {m : Regex.Match} {i : Nat}

/-- The token of a candidate is what is left of the match. -/
theorem Candidate.leaves_iff : rule.Leaves m i ↔ (ofMatch rule m).start ≤ i ∧ i < (ofMatch rule m).stop := by
  unfold ofMatch
  dsimp only
  split
  · rename_i context hlookbehind hgroup
    show _ ↔ max m.span.start (min context.stop m.span.stop) ≤ i ∧ i < m.span.stop
    constructor
    · rintro ⟨hstart, hstop, hbehind⟩
      have hcontext := hbehind context hlookbehind hgroup
      exact ⟨by omega, hstop⟩
    · rintro ⟨hstart, hstop⟩
      refine ⟨by omega, hstop, fun context' _ hgroup' => ?_⟩
      obtain rfl := Option.some.inj (hgroup.symm.trans hgroup')
      omega
  · rename_i hnone
    constructor
    · rintro ⟨hstart, hstop, -⟩
      exact ⟨hstart, hstop⟩
    · rintro ⟨hstart, hstop⟩
      exact ⟨hstart, hstop, fun context hlookbehind hgroup => (hnone context hlookbehind hgroup).elim⟩

theorem Candidate.isEmpty_iff (h : m.span.start ≤ m.span.stop) :
    (ofMatch rule m).isEmpty = true ↔ ∀ i, ¬ rule.Leaves m i := by
  have hstop := (ofMatch_start rule h).2
  rw [← ofMatch_stop rule m] at hstop
  simp only [isEmpty, beq_iff_eq, leaves_iff]
  constructor
  · intro hempty i hi
    omega
  · intro hnone
    have hstart := hnone (ofMatch rule m).start
    omega

end

namespace Rule
open Candidate

section
variable {engine : Engine} {attempt : Attempt} {rule : Rule} {text : List Char} {i : Nat} {c : Candidate}

theorem offer_eq_none_iff (hspan : ∀ {m}, attempt rule.pattern text i = some m → m.span.start ≤ m.span.stop) :
    rule.offer attempt text i = none ↔ ∀ m, attempt rule.pattern text i = some m → ∀ k, ¬ rule.Leaves m k := by
  cases hm : attempt rule.pattern text i with
  | none => simp [offer_of_none hm]
  | some m => simp [offer_of_some hm, isEmpty_iff (hspan hm)]

theorem leftmost_eq_none_iff (he : engine.Finds attempt rule.pattern text) : rule.leftmost attempt text = none ↔
    ∀ i m, attempt rule.pattern text i = some m → ∀ k, ¬ rule.Leaves m k := by
  rw [leftmost, firstFrom_eq_none]
  constructor
  · intro h i m hm
    obtain ⟨rfl, h1, h2⟩ := he.span hm
    exact (offer_eq_none_iff fun hm => (he.span hm).2.1).mp (h _ (Nat.zero_le _) (Nat.le_trans h1 h2)) m hm
  · intro h i _ _
    exact (offer_eq_none_iff fun hm => (he.span hm).2.1).mpr (h i)

/-- The leftmost match that leaves something is the first one that does. -/
theorem leftmost_eq_some_iff (he : engine.Finds attempt rule.pattern text) : rule.leftmost attempt text = some c ↔
    ∃ i m, rule.LeavesFirst (attempt rule.pattern text) i m ∧ ofMatch rule m = c := by
  constructor
  · intro h
    obtain ⟨i, -, -, hi, hbefore⟩ := firstFrom_eq_some h
    obtain ⟨m, hm, rfl, hne⟩ := offer_eq_some hi
    have hleaves : ¬ ∀ k, ¬ rule.Leaves m k := by
      rw [← isEmpty_iff (he.span hm).2.1, hne]
      exact Bool.false_ne_true
    refine ⟨i, m, ⟨hm, not_forall_not.mp hleaves, fun j m' hj hm' => ?_⟩, rfl⟩
    exact (offer_eq_none_iff fun hm => (he.span hm).2.1).mp (hbefore j (Nat.zero_le _) hj) m' hm'
  · rintro ⟨i, m, ⟨hm, hleaves, hfirst⟩, rfl⟩
    obtain ⟨rfl, h1, h2⟩ := he.span hm
    have hne : ¬ (ofMatch rule m).isEmpty = true := fun hempty => not_forall_not.mpr hleaves ((isEmpty_iff h1).mp hempty)
    have hskip : ∀ j, 0 ≤ j → j < m.span.start → rule.offer attempt text j = none := fun j _ hj =>
      (offer_eq_none_iff fun hm => (he.span hm).2.1).mpr fun m' hm' => hfirst j m' hj hm'
    rw [leftmost, firstFrom_skip (Nat.zero_le _) hskip, firstFrom_step (Nat.le_trans h1 h2), offer_of_some hm, if_neg hne,
      Option.some_or]

end
end Rule

/-! ### The course of a search -/

theorem Engine.Finds.goesAheadIn {e : Engine} {attempt : Attempt} {p : Pattern} {text : List Char}
    (h : e.Finds attempt p text) : e.GoesAheadIn p text := by
  intro start m hle hm
  have hfirst := Except.ok.inj (hm.symm.trans (h.search hle))
  obtain ⟨i, hstart, -, hi, -⟩ := firstFrom_eq_some hfirst.symm
  exact (h.span hi).1 ▸ hstart

theorem Engine.Finds.boundedIn {e : Engine} {attempt : Attempt} {p : Pattern} {text : List Char}
    (h : e.Finds attempt p text) : e.BoundedIn p text := by
  intro start m hle hm
  have hfirst := Except.ok.inj (hm.symm.trans (h.search hle))
  obtain ⟨i, -, -, hi, -⟩ := firstFrom_eq_some hfirst.symm
  exact (h.span hi).2

namespace RuleCursor
open Candidate

section
variable {engine : Engine} {attempt : Attempt} {active : ActiveRule} {cursor : RuleCursor} {text part : List Char}
  {offset limit start calls : Nat} {out : RuleCursor × Option Candidate} {c : Candidate}

/-- A search comes to the first offer from the offset on at which it begins. -/
theorem Searched.value (he : engine.Finds attempt active.rule.pattern text)
    (h : Searched engine active offset text cursor start calls out) :
    out.2 = (firstFrom (active.rule.offer attempt text) start text.length).map (·.shift offset) := by
  induction h with
  | past hlt =>
    rw [firstFrom_of_lt hlt]
    rfl
  | failed hle herr => cases herr.symm.trans (he.search hle)
  | nothing hle hnone =>
    have hfirst := Except.ok.inj (hnone.symm.trans (he.search hle))
    rw [Rule.firstOffer_of_none hfirst.symm]
    rfl
  | @found cursor _ _ m _ hle hm haccept =>
    have hfirst := Except.ok.inj (hm.symm.trans (he.search hle))
    have hvalue := value_accept active cursor offset m
    rw [haccept] at hvalue
    rw [Rule.firstOffer_of_some (fun hi => (he.span hi).1) hfirst.symm]
    split at hvalue
    · cases hvalue
    · rename_i hne
      rw [if_neg hne]
      exact hvalue
  | @empty cursor _ _ _ m _ hle hm haccept _ ih =>
    -- The next call begins behind the start of this match, and so does what remains of the first offer.
    have hfirst := Except.ok.inj (hm.symm.trans (he.search hle))
    have hvalue := value_accept active cursor offset m
    rw [haccept] at hvalue
    rw [Rule.firstOffer_of_some (fun hi => (he.span hi).1) hfirst.symm]
    split at hvalue
    · rename_i hempty
      rw [if_pos hempty]
      exact ih
    · cases hvalue

/-- A search before a limit is a search of the text up to there. -/
theorem windowed_eq_search (hpart : HasAt List.length text ⟨offset, limit⟩ part) :
    windowed engine active cursor offset limit (text.drop offset) = search engine active cursor offset part := by
  have hle := hpart.stop_le isSize_length
  have hstop := hpart.stop_eq isSize_length
  dsimp only at hle hstop
  have hslice : slice (text.drop offset) ⟨offset - offset, limit - offset⟩ = part := by
    rw [← hpart.slice_eq]
    simp [slice]
  have hcut : Logged.cut offset (text.drop offset) ⟨offset, limit⟩ = pure part := by
    have hlies : (⟨offset, limit⟩ : Span).liesIn ⟨offset, offset + (text.drop offset).length⟩ = true := by
      simp only [Span.liesIn, List.length_drop, Bool.and_eq_true, decide_eq_true_eq]
      omega
    rw [Logged.cut, Logged.reach, if_pos hlies, hslice]
    rfl
  rw [windowed, hcut, Logged.pure_bind]

/-- One search of a rule in a text, from an offset to a limit, where the engine finds the matches of its pattern. It ends
    after at most one call of the engine for each offset of that part, and finds the candidate of the first match in which
    something is left for the token, wherever the group for the context lies; it finds none just if nothing is left of any
    match. The candidate lies in that part with its context, and its token is not empty. -/
theorem search_leftmost (active : ActiveRule) (cursor : RuleCursor)
    (hpart : HasAt List.length text ⟨offset, limit⟩ part) (he : engine.Finds attempt active.rule.pattern part) :
    (∃ calls ≤ part.length + 1, ∀ n out, Searched engine active offset part cursor 0 n out ↔
        n = calls ∧ out = (search engine active cursor offset part).value) ∧
      (search engine active cursor offset part).endless = false ∧
      windowed engine active cursor offset limit (text.drop offset) = search engine active cursor offset part ∧
      (∀ c, (search engine active cursor offset part).value.2 = some c ↔
        ∃ i m, active.rule.LeavesFirst (attempt active.rule.pattern part) i m ∧
          (ofMatch active.rule m).shift offset = c) ∧
      ((search engine active cursor offset part).value.2 = none ↔
        ∀ i m, attempt active.rule.pattern part i = some m → ∀ k, ¬ active.rule.Leaves m k) ∧
      (∀ c, (search engine active cursor offset part).value.2 = some c →
        offset ≤ c.rawStart ∧ c.rawStart ≤ c.start ∧ c.start < c.stop ∧ c.stop ≤ limit) ∧
      (search engine active cursor offset part).strays = [] := by
  have hends : (search engine active cursor offset part).endless = false := endless_search he.goesAheadIn
  have hasked : Asked cursor offset part.length (search engine active cursor offset part) :=
    asked_searchFrom he.boundedIn _ 0
  obtain ⟨calls, hcalls, hcourse⟩ := searched_search hends
  have hvalue : (search engine active cursor offset part).value.2 =
      (active.rule.leftmost attempt part).map (·.shift offset) := ((hcourse _ _).mpr ⟨rfl, rfl⟩).value he
  refine ⟨⟨calls, hcalls, hcourse⟩, hends, windowed_eq_search hpart, fun c => ?_, ?_, fun c hc => ?_, hasked.strays⟩
  · simp only [hvalue, Option.map_eq_some_iff, Rule.leftmost_eq_some_iff he]
    constructor
    · rintro ⟨_, ⟨i, m, hfirst, rfl⟩, rfl⟩
      exact ⟨i, m, hfirst, rfl⟩
    · rintro ⟨i, m, hfirst, rfl⟩
      exact ⟨_, ⟨i, m, hfirst, rfl⟩, rfl⟩
  · rw [hvalue, Option.map_eq_none_iff, Rule.leftmost_eq_none_iff he]
  · obtain ⟨⟨-, hlt, hstop⟩, hraw, hstart⟩ := hasked.fits hc
    have hlimit : limit = offset + part.length := hpart.stop_eq isSize_length
    exact ⟨hraw, hstart, hlt, hlimit ▸ hstop⟩

end

/-- How "(?=(ab))a|(?=b)|c" matches at the offsets of "abc": all of the first match is context, for the group ends behind it;
    the second match is empty. -/
def contextAttempt : Attempt
  | _, _, 0 => some ⟨⟨0, 1⟩, [some ⟨0, 2⟩]⟩
  | _, _, 1 => some ⟨⟨1, 1⟩, [none]⟩
  | _, _, 2 => some ⟨⟨2, 3⟩, [none]⟩
  | _, _, _ => none

theorem finds_contextAttempt : ∃ p, Pattern.compile "(?=(ab))a|(?=b)|c" "" Pattern.defaultFailures = .ok p ∧
    Engine.compiled.Finds contextAttempt p "abc".toList := by
  have hrun : (Pattern.compile "(?=(ab))a|(?=b)|c" "" Pattern.defaultFailures).toOption.map (fun p =>
      (List.range 4).all fun start => decide ((Engine.compiled.search p "abc".toList start).toOption =
        some (firstFrom (contextAttempt p "abc".toList) start "abc".toList.length))) = some true := by decide +kernel
  obtain ⟨p, hp, hall⟩ := Option.map_eq_some_iff.mp hrun
  refine ⟨p, toOption_eq_some hp, fun {i m} hm => ?_, fun {start} hle => ?_⟩
  · match i with
    | 0 | 1 | 2 =>
      obtain rfl := Option.some.inj hm
      exact ⟨rfl, by decide, by decide⟩
    | _ + 3 => cases hm
  · have hstart := List.all_eq_true.mp hall start (List.mem_range.mpr (Nat.lt_succ_of_le hle))
    exact toOption_eq_some (of_decide_eq_true hstart)

def contextRule (p : Pattern) : ActiveRule := ⟨"letter", { pattern := p, lookbehind := true }⟩

/-- Three calls are made for the letter, of which the first finds a match that is all context, and the second an empty
    one. -/
theorem search_leftmost_context : ∃ p, Pattern.compile "(?=(ab))a|(?=b)|c" "" Pattern.defaultFailures = .ok p ∧
    HasAt List.length "zabcz".toList ⟨1, 4⟩ "abc".toList ∧ Engine.compiled.Finds contextAttempt p "abc".toList ∧
    (∃ calls ≤ 4, Searched .compiled (contextRule p) 1 "abc".toList {} 0 calls
      (windowed .compiled (contextRule p) {} 1 4 ("zabcz".toList.drop 1)).value) ∧
    (windowed .compiled (contextRule p) {} 1 4 ("zabcz".toList.drop 1)).value.2 = some ⟨3, 3, 4⟩ := by
  obtain ⟨p, hp, hfinds⟩ := finds_contextAttempt
  have hpart : HasAt List.length "zabcz".toList ⟨1, 4⟩ "abc".toList := ⟨['z'], ['z'], rfl, rfl, rfl⟩
  have hfirst : (contextRule p).rule.LeavesFirst (contextAttempt p "abc".toList) 2 ⟨⟨2, 3⟩, [none]⟩ := by
    refine ⟨rfl, ⟨2, by decide, by decide, nofun⟩, fun j m' hj hm' k hk => ?_⟩
    match j, hj with
    | 0, _ =>
      obtain rfl := Option.some.inj hm'
      have hbehind : 2 ≤ k := hk.behind ⟨0, 2⟩ rfl rfl
      have hstop : k < 1 := hk.lt_stop
      omega
    | 1, _ =>
      obtain rfl := Option.some.inj hm'
      exact absurd hk.start_le (Nat.not_le_of_lt hk.lt_stop)
  obtain ⟨⟨calls, hcalls, hcourse⟩, -, hwindowed, hfound, -⟩ := search_leftmost (contextRule p) {} hpart hfinds
  refine ⟨p, hp, hpart, hfinds, ⟨calls, hcalls, ?_⟩, ?_⟩
  · rw [hwindowed]
    exact (hcourse _ _).mpr ⟨rfl, rfl⟩
  · rw [hwindowed]
    exact (hfound _).mpr ⟨2, _, hfirst, rfl⟩

end RuleCursor
end Highlight
