import Highlight.Proofs.Candidate
import Mathlib.Data.Fintype.Card

/-! The calls of a search. A search of a rule calls the engine until it is given up, or the engine reports no match, or
    one in which something is left for the token. Told without any count, it may also go on for ever. What a call comes to
    depends on the offset from which it is made, so a search that ends makes at most one call for each offset of the
    text, and a search that makes more goes in a circle (`search_ends_iff`). -/

namespace Highlight.RuleCursor
open Candidate

/-- The course of the search of a rule, from the offset `start` of the text on: after an empty match it goes on one
    character behind its start. It ends after `calls` calls of the engine, with what the rule remembers and finds. -/
inductive Searched (engine : Engine) (active : ActiveRule) (offset : Nat) (text : List Char) :
    (cursor : RuleCursor) → (start calls : Nat) → RuleCursor × Option Candidate → Prop
  | past {cursor start} : text.length < start → Searched engine active offset text cursor start 0 (cursor, none)
  | failed {cursor start e} : start ≤ text.length → engine.search active.rule.pattern text start = .error e →
      Searched engine active offset text cursor start 1 (cursor, none)
  | nothing {cursor start} : start ≤ text.length → engine.search active.rule.pattern text start = .ok none →
      Searched engine active offset text cursor start 1 (cursor, none)
  | found {cursor cursor' start m c} : start ≤ text.length →
      engine.search active.rule.pattern text start = .ok (some m) →
      (accept active cursor offset m).value = (cursor', some c) →
      Searched engine active offset text cursor start 1 (cursor', some c)
  | empty {cursor cursor' start calls m out} : start ≤ text.length →
      engine.search active.rule.pattern text start = .ok (some m) →
      (accept active cursor offset m).value = (cursor', none) →
      Searched engine active offset text cursor' (m.span.start + 1) calls out →
      Searched engine active offset text cursor start (calls + 1) out

section
variable {engine : Engine} {active : ActiveRule} {cursor cursor' : RuleCursor} {text : List Char}
  {offset start calls calls' : Nat} {out out' : RuleCursor × Option Candidate}

/-! ### One course -/

/-- How many calls are still made depends on nothing but the offset of the next one. -/
theorem Searched.alike (h : Searched engine active offset text cursor start calls out)
    (h' : Searched engine active offset text cursor' start calls' out') :
    calls' = calls ∧ (cursor' = cursor → out' = out) := by
  have hfound : ∀ {cursor cursor' : RuleCursor} {m : Regex.Match} {r r' : RuleCursor × Option Candidate},
      (accept active cursor offset m).value = r → (accept active cursor' offset m).value = r' → r'.2 = r.2 := by
    rintro cursor cursor' m _ _ rfl rfl
    rw [value_accept, value_accept]
  induction h generalizing cursor' calls' out' with
  | past hlt =>
    cases h' with
    | past => exact ⟨rfl, fun h => h ▸ rfl⟩
    | failed hle | nothing hle | found hle | empty hle => exact absurd hle (Nat.not_le_of_lt hlt)
  | failed hle herr =>
    cases h' with
    | past hlt => exact absurd hle (Nat.not_le_of_lt hlt)
    | failed => exact ⟨rfl, fun h => h ▸ rfl⟩
    | nothing _ hm | found _ hm | empty _ hm => cases herr.symm.trans hm
  | nothing hle hnone =>
    cases h' with
    | past hlt => exact absurd hle (Nat.not_le_of_lt hlt)
    | nothing => exact ⟨rfl, fun h => h ▸ rfl⟩
    | failed _ hm | found _ hm | empty _ hm => cases hnone.symm.trans hm
  | found hle hm haccept =>
    cases h' with
    | past hlt => exact absurd hle (Nat.not_le_of_lt hlt)
    | failed _ hm' | nothing _ hm' => cases hm.symm.trans hm'
    | found _ hm' haccept' =>
      cases hm.symm.trans hm'
      refine ⟨rfl, ?_⟩
      rintro rfl
      exact haccept'.symm.trans haccept
    | empty _ hm' haccept' =>
      cases hm.symm.trans hm'
      cases hfound haccept haccept'
  | empty hle hm haccept _ ih =>
    cases h' with
    | past hlt => exact absurd hle (Nat.not_le_of_lt hlt)
    | failed _ hm' | nothing _ hm' => cases hm.symm.trans hm'
    | found _ hm' haccept' =>
      cases hm.symm.trans hm'
      cases hfound haccept haccept'
    | empty _ hm' haccept' hrest =>
      cases hm.symm.trans hm'
      obtain ⟨rfl, hout⟩ := ih hrest
      refine ⟨rfl, ?_⟩
      rintro rfl
      cases haccept.symm.trans haccept'
      exact hout rfl

theorem Searched.unique (h : Searched engine active offset text cursor start calls out)
    (h' : Searched engine active offset text cursor start calls' out') : calls' = calls ∧ out' = out :=
  ⟨(h.alike h').1, (h.alike h').2 rfl⟩

/-- For every number of calls up to its own, a search comes to an offset from which it makes so many. -/
theorem Searched.stage (h : Searched engine active offset text cursor start calls out) :
    ∀ left, 0 < left → left ≤ calls → ∃ cursor' start', start' ≤ text.length ∧
      Searched engine active offset text cursor' start' left out := by
  induction h with
  | past hlt =>
    intro left hpos hle
    omega
  | failed hle herr =>
    intro left hpos hleft
    obtain rfl : left = 1 := by omega
    exact ⟨_, _, hle, .failed hle herr⟩
  | nothing hle hnone =>
    intro left hpos hleft
    obtain rfl : left = 1 := by omega
    exact ⟨_, _, hle, .nothing hle hnone⟩
  | found hle hm haccept =>
    intro left hpos hleft
    obtain rfl : left = 1 := by omega
    exact ⟨_, _, hle, .found hle hm haccept⟩
  | @empty cursor cursor' start calls m out hle hm haccept hrest ih =>
    intro left hpos hleft
    by_cases hall : left = calls + 1
    · exact hall ▸ ⟨cursor, start, hle, .empty hle hm haccept hrest⟩
    · exact ih left hpos (by omega)

/-- A search that ends makes at most one call for each offset of the text. -/
theorem Searched.calls_le (h : Searched engine active offset text cursor start calls out) :
    calls ≤ text.length + 1 := by
  have hstage : ∀ left : Fin calls, ∃ start' : Fin (text.length + 1), ∃ cursor',
      Searched engine active offset text cursor' start' (left + 1) out := fun left => by
    obtain ⟨cursor', start', hle, hrest⟩ := h.stage (left + 1) (Nat.succ_pos _) left.isLt
    exact ⟨⟨start', Nat.lt_succ_of_le hle⟩, cursor', hrest⟩
  choose place hplace using hstage
  -- Two stages at the same offset would have the same number of calls left.
  have hinjective : Function.Injective place := fun left left' heq => by
    obtain ⟨cursor₁, h₁⟩ := hplace left
    obtain ⟨cursor₂, h₂⟩ := hplace left'
    rw [heq] at h₁
    exact Fin.ext (Nat.succ.inj (h₁.alike h₂).1.symm)
  simpa using Fintype.card_le_of_injective place hinjective

/-! ### Searches with and without an end -/

/-- A search that does not come back to an offset runs its course. -/
theorem searched_searchFrom (h : (searchFrom engine active offset text calls cursor start).endless = false) :
    ∃ n, Searched engine active offset text cursor start n
      (searchFrom engine active offset text calls cursor start).value := by
  induction calls, cursor, start using searchFrom.induct engine active text with
  | case1 cursor start hle =>
    rw [searchFrom_again hle, Logged.endless_forever] at h
    cases h
  | case2 cursor start hle calls _ herr =>
    rw [searchFrom_failed hle herr]
    exact ⟨1, .failed hle herr⟩
  | case3 cursor start hle calls hnone =>
    rw [searchFrom_nothing hle hnone]
    exact ⟨1, .nothing hle hnone⟩
  | case4 cursor start hle calls m hm ih =>
    cases hc : (accept active cursor offset m).value.2 with
    | some c =>
      rw [searchFrom_found hle hm hc]
      exact ⟨1, .found hle hm (by rw [accept_of_some hc]; rfl)⟩
    | none =>
      rw [searchFrom_empty hle hm hc] at h ⊢
      simp only [Logged.endless_bind, Bool.or_eq_false_iff] at h
      obtain ⟨n, hrest⟩ := ih _ h.2.2
      exact ⟨n + 1, .empty hle hm (Prod.ext rfl hc) hrest⟩
  | case5 calls cursor start hgt =>
    rw [searchFrom_past (Nat.lt_of_not_le hgt)]
    exact ⟨0, .past (Nat.lt_of_not_le hgt)⟩

/-- A search that runs its course comes to its end when enough calls may be made. -/
theorem Searched.searchFrom_eq (h : Searched engine active offset text cursor start calls out) (hle : calls ≤ calls') :
    (searchFrom engine active offset text calls' cursor start).value = out ∧
      (searchFrom engine active offset text calls' cursor start).endless = false := by
  induction h generalizing calls' with
  | past hlt =>
    rw [searchFrom_past hlt]
    exact ⟨rfl, rfl⟩
  | failed hstart herr =>
    obtain ⟨n, rfl⟩ := Nat.exists_eq_add_of_le' hle
    rw [searchFrom_failed hstart herr]
    exact ⟨rfl, rfl⟩
  | nothing hstart hnone =>
    obtain ⟨n, rfl⟩ := Nat.exists_eq_add_of_le' hle
    rw [searchFrom_nothing hstart hnone]
    exact ⟨rfl, rfl⟩
  | @found cursor cursor' start m c hstart hm haccept =>
    obtain ⟨n, rfl⟩ := Nat.exists_eq_add_of_le' hle
    have hc : (accept active cursor offset m).value.2 = some c := by rw [haccept]
    rw [searchFrom_found hstart hm hc, ← accept_of_some hc]
    exact ⟨haccept, endless_accept active cursor offset m⟩
  | @empty cursor cursor' start calls m out hstart hm haccept _ ih =>
    obtain ⟨n, rfl⟩ := Nat.exists_eq_add_of_le' (Nat.le_trans (Nat.le_add_left 1 calls) hle)
    obtain ⟨hvalue, hends⟩ := ih (Nat.le_of_succ_le_succ hle)
    have hnone : (accept active cursor offset m).value.2 = none := by rw [haccept]
    rw [searchFrom_empty hstart hm hnone]
    simp only [Logged.value_bind, Logged.endless_bind, haccept, hvalue, hends, endless_accept, Logged.endless_reach,
      Bool.or_self, and_self]

/-- A search is endless just if it has no course that ends. -/
theorem search_ends_iff : (search engine active cursor offset text).endless = false ↔
    ∃ calls out, Searched engine active offset text cursor 0 calls out := by
  constructor
  · intro h
    obtain ⟨calls, hcourse⟩ := searched_searchFrom h
    exact ⟨calls, _, hcourse⟩
  · rintro ⟨calls, out, h⟩
    exact (h.searchFrom_eq h.calls_le).2

/-- A search that ends has one course, of at most one call for each offset of the text. -/
theorem searched_search (h : (search engine active cursor offset text).endless = false) :
    ∃ calls ≤ text.length + 1, ∀ n out, Searched engine active offset text cursor 0 n out ↔
      n = calls ∧ out = (search engine active cursor offset text).value := by
  obtain ⟨calls, hcourse⟩ := searched_searchFrom h
  refine ⟨calls, hcourse.calls_le, fun n out => ⟨hcourse.unique, ?_⟩⟩
  rintro ⟨rfl, rfl⟩
  exact hcourse

/-! ### Searches that go ahead -/

/-- If no match starts before the offset that was asked for, each call is made from a later offset than the one before
    it. -/
theorem endless_searchFrom (he : engine.GoesAheadIn active.rule.pattern text) (hcalls : text.length < calls + start) :
    (searchFrom engine active offset text calls cursor start).endless = false := by
  induction calls, cursor, start using searchFrom.induct engine active text with
  | case1 cursor start hle => omega
  | case2 cursor start hle calls _ herr =>
    rw [searchFrom_failed hle herr]
    rfl
  | case3 cursor start hle calls hnone =>
    rw [searchFrom_nothing hle hnone]
    rfl
  | case4 cursor start hle calls m hm ih =>
    have hstart : start ≤ m.span.start := he hle hm
    cases hc : (accept active cursor offset m).value.2 with
    | some c =>
      rw [searchFrom_found hle hm hc]
      rfl
    | none =>
      have hrest := ih (accept active cursor offset m).value.1 (by omega)
      rw [searchFrom_empty hle hm hc, Logged.endless_bind, Logged.endless_bind, endless_accept, Logged.endless_reach, hrest]
      rfl
  | case5 calls cursor start hgt =>
    rw [searchFrom_past (Nat.lt_of_not_le hgt)]
    rfl

theorem endless_search (he : engine.GoesAheadIn active.rule.pattern text) :
    (search engine active cursor offset text).endless = false := endless_searchFrom he (Nat.lt_succ_self _)

theorem endless_windowed (he : engine.GoesAhead active.rule.pattern) {limit : Nat} :
    (windowed engine active cursor offset limit text).endless = false := endless_search (he _)

theorem endless_atStart (engine : Engine) (active : ActiveRule) (cursor : RuleCursor) (offset : Nat) (text : List Char) :
    (atStart engine active cursor offset text).endless = false := by
  unfold atStart
  split
  · rfl
  · rfl
  · exact endless_accept active cursor offset _

theorem endless_candidate (he : engine.GoesAhead active.rule.pattern) :
    (candidate engine active cursor offset text).endless = false := by
  rcases candidate_cases engine active cursor offset text with ⟨cached, -, heq⟩ | ⟨anchored, kept, -, heq⟩
  · rw [heq]
    rfl
  · rw [heq, settle, Logged.endless_bind, ask]
    cases anchored
    · simp only [Bool.false_eq_true, if_false, endless_search (he text)]
      rfl
    · simp only [if_true, endless_atStart]
      rfl

end
end Highlight.RuleCursor
