import Highlight.Proofs.Candidate

/-! What a search finds. With an engine that decides at each offset whether there is a match, and as long as it
    gives up no search, a rule finds the leftmost match in which something is left for the token. -/

namespace Highlight

/-! ### Runs without a failure -/

def Warning.isFailure : Warning → Bool
  | failedSearch .. => true
  | _ => false

theorem Warning.isFailure_mapOffset (f : Nat → Nat) (w : Warning) : (w.mapOffset f).isFailure = w.isFailure := by
  cases w <;> rfl

namespace Logged
variable {α β : Type}

/-- No search was given up on the way to the value. -/
def Succeeds (x : Logged α) : Prop := ∀ w ∈ x.warnings, w.isFailure = false

instance (x : Logged α) : Decidable x.Succeeds := inferInstanceAs (Decidable (∀ w ∈ x.warnings, w.isFailure = false))

theorem succeeds_bind {x : Logged α} {f : α → Logged β} : (x >>= f).Succeeds ↔ x.Succeeds ∧ (f x.value).Succeeds :=
  List.forall_mem_append

theorem succeeds_mapOffsets {x : Logged α} {f : Nat → Nat} : (x.mapOffsets f).Succeeds ↔ x.Succeeds := by
  simp [Succeeds, Warning.isFailure_mapOffset]

end Logged

/-! ### Offers -/

theorem Candidate.shift_shift (c : Candidate) (m n : Nat) : (c.shift m).shift n = c.shift (m + n) := by
  simp only [shift, Nat.add_assoc]

theorem Candidate.map_shift_shift (found : Option Candidate) (m n : Nat) :
    (found.map (·.shift m)).map (·.shift n) = found.map (·.shift (m + n)) := by
  rw [Option.map_map]
  congr 1
  funext c
  exact c.shift_shift m n

theorem Candidate.ofMatch_shift (rule : Rule) (m : Regex.Match) (n : Nat) :
    ofMatch rule (m.shift n) = (ofMatch rule m).shift n := by
  have hgroup : (m.shift n).group? 1 = (m.group? 1).map (·.shift n) := by
    simp only [Regex.Match.group?, Regex.Match.shift, List.getElem?_map]
    cases m.groups[0]? with
    | none => rfl
    | some group => cases group <;> rfl
  unfold ofMatch
  rw [hgroup]
  cases rule.lookbehind with
  | false => rfl
  | true =>
    cases m.group? 1 with
    | none => rfl
    | some context =>
      simp only [Option.map_some, Regex.Match.shift, Span.shift, shift, Nat.add_min_add_right, Nat.add_max_add_right]

namespace Rule
open Candidate

/-- What a rule offers at an offset of a text, by the match of its pattern there. -/
def offer (attempt : Attempt) (rule : Rule) (text : List Char) (i : Nat) : Option Candidate :=
  (attempt rule.pattern text i).bind fun m => if (ofMatch rule m).isEmpty then none else some (ofMatch rule m)

/-- The leftmost match of a rule in which something is left for the token. -/
def leftmost (attempt : Attempt) (rule : Rule) (text : List Char) : Option Candidate :=
  firstFrom (rule.offer attempt text) 0 text.length

section
variable {engine : Engine} {attempt : Attempt} {rule : Rule} {text : List Char} {i : Nat} {c : Candidate}
  {m : Regex.Match}

theorem offer_of_none (h : attempt rule.pattern text i = none) : rule.offer attempt text i = none := by
  rw [offer, h, Option.bind_none]

theorem offer_of_some (h : attempt rule.pattern text i = some m) :
    rule.offer attempt text i = if (ofMatch rule m).isEmpty then none else some (ofMatch rule m) := by
  rw [offer, h, Option.bind_some]

theorem offer_eq_some (h : rule.offer attempt text i = some c) :
    ∃ m, attempt rule.pattern text i = some m ∧ ofMatch rule m = c ∧ c.isEmpty = false := by
  cases hm : attempt rule.pattern text i with
  | none => exact nomatch (offer_of_none hm).symm.trans h
  | some m =>
    rw [offer_of_some hm] at h
    split at h
    · cases h
    · rename_i hne
      cases h
      exact ⟨m, rfl, rfl, by simpa using hne⟩

/-- An offer begins where it was looked for, and its token lies in the text. -/
theorem offer_fits (he : engine.Attempts attempt rule.pattern) (h : rule.offer attempt text i = some c) :
    c.rawStart = i ∧ c.Fits i text.length := by
  obtain ⟨m, hm, rfl, hne⟩ := offer_eq_some h
  obtain ⟨hstart, h1, h2⟩ := he.span hm
  have hfits : ((ofMatch rule m).shift 0).Fits 0 (0 + text.length) := ofMatch_fits rule h1 h2 hne
  have hle := (ofMatch_start rule h1).1
  obtain ⟨-, hlt, hstop⟩ := hfits
  simp only [shift, Nat.add_zero, Nat.zero_add] at hlt hstop
  exact ⟨hstart, ⟨hstart ▸ hle, hlt, hstop⟩⟩

theorem offer_start (hrule : rule.lookbehind = false) (h : rule.offer attempt text i = some c) :
    c.start = c.rawStart := by
  obtain ⟨m, -, rfl, -⟩ := offer_eq_some h
  simp only [ofMatch, hrule]

/-- An offer of a rule that writes no lookbehind is the same in a text that starts later, as long as one character
    before it is left. -/
theorem offer_nearby (he : engine.Attempts attempt rule.pattern) (hp : rule.pattern.looksBehind = false)
    (front back : List Char) (c : Char) :
    rule.offer attempt (front ++ c :: back) (front.length + 1) =
      (rule.offer attempt (c :: back) 1).map (·.shift front.length) := by
  have hnear := he.nearby hp front c back
  cases hm : attempt rule.pattern (c :: back) 1 with
  | none =>
    rw [hm, Option.map_none] at hnear
    rw [offer_of_none hnear, offer_of_none hm, Option.map_none]
  | some m =>
    rw [hm, Option.map_some] at hnear
    rw [offer_of_some hnear, offer_of_some hm, ofMatch_shift, isEmpty_shift]
    split <;> rfl

theorem firstOffer_of_none {start : Nat} (h : firstFrom (attempt rule.pattern text) start text.length = none) :
    firstFrom (rule.offer attempt text) start text.length = none :=
  firstFrom_eq_none.mpr fun i h1 h2 => offer_of_none (firstFrom_eq_none.mp h i h1 h2)

/-- No offer comes before the first match, so the first one is its own or comes behind its start. -/
theorem firstOffer_of_some {start : Nat} (hspan : ∀ {i m}, attempt rule.pattern text i = some m → m.span.start = i)
    (h : firstFrom (attempt rule.pattern text) start text.length = some m) :
    firstFrom (rule.offer attempt text) start text.length = if (ofMatch rule m).isEmpty then
      firstFrom (rule.offer attempt text) (m.span.start + 1) text.length else some (ofMatch rule m) := by
  obtain ⟨i, h1, h2, hi, hbefore⟩ := firstFrom_eq_some h
  obtain rfl : m.span.start = i := hspan hi
  rw [firstFrom_skip h1 fun j hj hjm => offer_of_none (hbefore j hj hjm), firstFrom_step h2, offer_of_some hi]
  split <;> rfl

end
end Rule

/-! ### Searches -/

namespace RuleCursor
open Candidate

section
variable {engine : Engine} {attempt : Attempt} {active : ActiveRule} {cursor : RuleCursor} {offset : Nat}
  {text : List Char}

theorem not_succeeds_giveUp : ¬ (giveUp active cursor).Succeeds := by
  intro h
  exact absurd (h _ List.mem_cons_self) (by simp [Warning.isFailure])

/-- A search from an offset of the text finds the first offer from there on. -/
theorem value_searchFrom (he : engine.Attempts attempt active.rule.pattern) {calls start : Nat}
    (hcalls : text.length < calls + start) (hs : (searchFrom engine active offset text calls cursor start).Succeeds) :
    (searchFrom engine active offset text calls cursor start).value.2 =
      (firstFrom (active.rule.offer attempt text) start text.length).map (·.shift offset) := by
  induction calls, cursor, start using searchFrom.induct engine active text with
  | case1 cursor start hle => omega
  | case2 cursor start hle calls _ herr =>
    rw [searchFrom_failed hle herr] at hs
    exact absurd hs not_succeeds_giveUp
  | case3 cursor start hle calls hnone =>
    rw [searchFrom_nothing hle hnone, Rule.firstOffer_of_none (he.search hle hnone).symm]
    rfl
  | case4 cursor start hle calls m hm ih =>
    have h1 : start ≤ m.span.start := he.goesAhead text hle hm
    have hvalue := value_accept active cursor offset m
    rw [Rule.firstOffer_of_some (fun hi => (he.span hi).1) (he.search hle hm).symm]
    by_cases hempty : (ofMatch active.rule m).isEmpty = true
    · rw [if_pos hempty] at hvalue ⊢
      rw [searchFrom_empty hle hm hvalue] at hs ⊢
      exact ih _ (by omega) (Logged.succeeds_bind.mp (Logged.succeeds_bind.mp hs).2).2
    · rw [if_neg hempty] at hvalue ⊢
      rw [searchFrom_found hle hm hvalue]
      rfl
  | case5 calls cursor start hgt =>
    rw [searchFrom_past (Nat.lt_of_not_le hgt), firstFrom_of_lt (Nat.lt_of_not_le hgt)]
    rfl

theorem value_search (he : engine.Attempts attempt active.rule.pattern)
    (hs : (search engine active cursor offset text).Succeeds) :
    (search engine active cursor offset text).value.2 =
      (active.rule.leftmost attempt text).map (·.shift offset) :=
  value_searchFrom he (Nat.lt_succ_self _) hs

theorem value_atStart (he : engine.Attempts attempt active.rule.pattern)
    (hs : (atStart engine active cursor offset text).Succeeds) :
    (atStart engine active cursor offset text).value.2 =
      (active.rule.offer attempt text 0).map (·.shift offset) := by
  unfold atStart at hs ⊢
  split at hs
  · exact absurd hs not_succeeds_giveUp
  · rename_i h
    rw [Rule.offer_of_none (he.atStart h).symm]
    rfl
  · rename_i m h
    rw [Rule.offer_of_some (he.atStart h).symm, value_accept]
    split <;> rfl

theorem value_windowed (he : engine.Attempts attempt active.rule.pattern) {limit : Nat}
    (hs : (windowed engine active cursor offset limit text).Succeeds) :
    (windowed engine active cursor offset limit text).value.2 =
      (active.rule.leftmost attempt (text.take (limit - offset))).map (·.shift offset) := by
  have hcut : slice text ⟨offset - offset, limit - offset⟩ = text.take (limit - offset) := by simp [slice]
  rw [windowed, Logged.succeeds_bind, Logged.value_cut] at hs
  rw [windowed, Logged.value_bind, Logged.value_cut, value_search he hs.2, hcut]

end
end RuleCursor
end Highlight
