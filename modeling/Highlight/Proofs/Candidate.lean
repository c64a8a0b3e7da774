import Highlight.Proofs.Engine

/-! What a rule may offer. Whatever the engine answers, as long as its matches lie in the text that it
    searched, a candidate lies in the text not yet split and is not empty, also one that is remembered from
    an earlier place. -/

namespace Highlight

/-! ### Candidates -/

namespace Candidate

/-- The token of the candidate is not empty and lies between two offsets. Its context need not. -/
structure Fits (c : Candidate) (offset stop : Nat) : Prop where
  offset_le : offset ≤ c.start
  start_lt : c.start < c.stop
  stop_le : c.stop ≤ stop

theorem Fits.later {c : Candidate} {offset offset' stop : Nat} (h : c.Fits offset stop) (hle : offset' ≤ c.start) :
    c.Fits offset' stop :=
  ⟨hle, h.start_lt, h.stop_le⟩

theorem Fits.widen {c : Candidate} {offset stop stop' : Nat} (h : c.Fits offset stop) (hle : stop ≤ stop') :
    c.Fits offset stop' :=
  ⟨h.offset_le, h.start_lt, Nat.le_trans h.stop_le hle⟩

@[simp] theorem isEmpty_shift (c : Candidate) (n : Nat) : (c.shift n).isEmpty = c.isEmpty := by
  rw [Bool.eq_iff_iff]
  simp only [isEmpty, shift, beq_iff_eq]
  omega

@[simp] theorem earlier_none (fresh : Option Candidate) : earlier fresh none = fresh := by cases fresh <;> rfl

theorem earlier_eq {fresh kept : Option Candidate} {c : Candidate} (h : earlier fresh kept = some c) :
    fresh = some c ∨ kept = some c := by
  cases fresh with
  | none => exact Or.inr h
  | some f =>
    cases kept with
    | none => exact Or.inl h
    | some k =>
      simp only [earlier] at h
      split at h
      · exact Or.inr h
      · exact Or.inl h

theorem ofMatch_stop (rule : Rule) (m : Regex.Match) : (ofMatch rule m).stop = m.span.stop := rfl

/-- The token starts within the match, wherever the group for the context lies. -/
theorem ofMatch_start (rule : Rule) {m : Regex.Match} (h : m.span.start ≤ m.span.stop) :
    m.span.start ≤ (ofMatch rule m).start ∧ (ofMatch rule m).start ≤ m.span.stop := by
  unfold ofMatch
  dsimp only
  split
  · exact ⟨Nat.le_max_left _ _, Nat.max_le.mpr ⟨h, Nat.min_le_right _ _⟩⟩
  · exact ⟨Nat.le_refl _, h⟩

/-- A match within a text gives a candidate within it, unless nothing is left for the token. -/
theorem ofMatch_fits (rule : Rule) {m : Regex.Match} {offset length : Nat} (h1 : m.span.start ≤ m.span.stop)
    (h2 : m.span.stop ≤ length) (hne : (ofMatch rule m).isEmpty = false) :
    ((ofMatch rule m).shift offset).Fits offset (offset + length) := by
  have hne' : (ofMatch rule m).start ≠ (ofMatch rule m).stop := by simpa [isEmpty] using hne
  obtain ⟨-, hstop⟩ := ofMatch_start rule h1
  rw [ofMatch_stop] at hne'
  refine ⟨?_, ?_, ?_⟩ <;> simp only [shift, ofMatch_stop] <;> omega

end Candidate

/-! ### One search -/

namespace RuleCursor
open Candidate

/-- What asking the engine for a candidate comes to, in a text of `length` characters that starts at `offset`:
    the rule still knows what it knew, no text is cut out of range, and a candidate lies in the text with its
    context. -/
structure Asked (cursor : RuleCursor) (offset length : Nat) (r : Logged (RuleCursor × Option Candidate)) : Prop where
  known : r.value.1.known = cursor.known
  strays : r.strays = []
  fits : ∀ {c}, r.value.2 = some c → c.Fits offset (offset + length) ∧ offset ≤ c.rawStart ∧ c.rawStart ≤ c.start

theorem Asked.nothing {cursor cursor' : RuleCursor} {offset length : Nat} (h : cursor'.known = cursor.known)
    {ws : List Warning} {endless : Bool} : Asked cursor offset length ⟨(cursor', none), ws, [], endless⟩ :=
  ⟨h, rfl, fun hc => by cases hc⟩

section
variable {engine : Engine} {active : ActiveRule} {cursor : RuleCursor} {offset calls start : Nat}
  {text : List Char} {m : Regex.Match} {c : Candidate}

theorem value_accept (active : ActiveRule) (cursor : RuleCursor) (offset : Nat) (m : Regex.Match) :
    (accept active cursor offset m).value.2 =
      if (ofMatch active.rule m).isEmpty then none else some ((ofMatch active.rule m).shift offset) := by
  unfold accept
  simp only [isEmpty_shift]
  split
  · split <;> rfl
  · rfl

theorem known_accept (active : ActiveRule) (cursor : RuleCursor) (offset : Nat) (m : Regex.Match) :
    (accept active cursor offset m).value.1.known = cursor.known := by
  unfold accept
  dsimp only
  split
  · split <;> rfl
  · rfl

theorem strays_accept (active : ActiveRule) (cursor : RuleCursor) (offset : Nat) (m : Regex.Match) :
    (accept active cursor offset m).strays = [] := by
  unfold accept
  dsimp only
  split
  · split <;> rfl
  · rfl

theorem asked_accept {length : Nat} (h1 : m.span.start ≤ m.span.stop) (h2 : m.span.stop ≤ length) :
    Asked cursor offset length (accept active cursor offset m) where
  known := known_accept active cursor offset m
  strays := strays_accept active cursor offset m
  fits {c} hc := by
    rw [value_accept] at hc
    split at hc
    · cases hc
    · rename_i hne
      cases hc
      refine ⟨ofMatch_fits _ h1 h2 (by simpa using hne), ?_, ?_⟩
      · exact Nat.le_add_left _ _
      · exact Nat.add_le_add_right (ofMatch_start active.rule h1).1 offset

theorem asked_giveUp {length : Nat} : Asked cursor offset length (giveUp active cursor) := .nothing rfl

theorem endless_accept (active : ActiveRule) (cursor : RuleCursor) (offset : Nat) (m : Regex.Match) :
    (accept active cursor offset m).endless = false := by
  unfold accept
  dsimp only
  split
  · split <;> rfl
  · rfl

theorem accept_of_some (h : (accept active cursor offset m).value.2 = some c) :
    accept active cursor offset m = pure (cursor, some c) := by
  rw [value_accept] at h
  split at h
  · cases h
  · rename_i hne
    obtain rfl := Option.some.inj h
    simp only [accept, isEmpty_shift, if_neg hne]

/-! The five ways in which a search goes on from an offset. -/

theorem searchFrom_past (h : text.length < start) :
    searchFrom engine active offset text calls cursor start = pure (cursor, none) := by
  rw [searchFrom.eq_def, if_neg (Nat.not_le_of_lt h)]

theorem searchFrom_again (hle : start ≤ text.length) :
    searchFrom engine active offset text 0 cursor start = Logged.forever (cursor, none) := by
  rw [searchFrom.eq_def, if_pos hle]

theorem searchFrom_failed {e : Regex.SearchError} (hle : start ≤ text.length)
    (h : engine.search active.rule.pattern text start = .error e) :
    searchFrom engine active offset text (calls + 1) cursor start = giveUp active cursor := by
  rw [searchFrom.eq_def, if_pos hle]
  simp only [h]

theorem searchFrom_nothing (hle : start ≤ text.length)
    (h : engine.search active.rule.pattern text start = .ok none) :
    searchFrom engine active offset text (calls + 1) cursor start = pure (cursor, none) := by
  rw [searchFrom.eq_def, if_pos hle]
  simp only [h]

theorem searchFrom_found (hle : start ≤ text.length) (h : engine.search active.rule.pattern text start = .ok (some m))
    (hc : (accept active cursor offset m).value.2 = some c) :
    searchFrom engine active offset text (calls + 1) cursor start = pure (cursor, some c) := by
  rw [searchFrom.eq_def, if_pos hle]
  simp only [h, accept_of_some hc, Logged.pure_bind]

theorem searchFrom_empty (hle : start ≤ text.length) (h : engine.search active.rule.pattern text start = .ok (some m))
    (hnone : (accept active cursor offset m).value.2 = none) :
    searchFrom engine active offset text (calls + 1) cursor start =
      accept active cursor offset m >>= fun accepted =>
        Logged.reach 0 text.length ⟨m.span.start, text.length⟩ >>= fun _ =>
          searchFrom engine active offset text calls accepted.1 (m.span.start + 1) := by
  rw [searchFrom.eq_def, if_pos hle]
  simp only [h]
  generalize accept active cursor offset m = accepted at hnone ⊢
  obtain ⟨⟨cursor', found⟩, ws, strays, endless⟩ := accepted
  obtain rfl : found = none := hnone
  rfl

/-- What the rule knows is not changed by a search. -/
theorem known_searchFrom (calls start : Nat) :
    (searchFrom engine active offset text calls cursor start).value.1.known = cursor.known := by
  induction calls, cursor, start using searchFrom.induct engine active text with
  | case1 cursor start hle => rw [searchFrom_again hle, Logged.value_forever]
  | case2 cursor start hle calls _ herr =>
    rw [searchFrom_failed hle herr]
    rfl
  | case3 cursor start hle calls hnone => rw [searchFrom_nothing hle hnone, Logged.value_pure]
  | case4 cursor start hle calls m hm ih =>
    cases hc : (accept active cursor offset m).value.2 with
    | some c => rw [searchFrom_found hle hm hc, Logged.value_pure]
    | none =>
      rw [searchFrom_empty hle hm hc]
      exact (ih _).trans (known_accept active cursor offset m)
  | case5 calls cursor start hgt => rw [searchFrom_past (Nat.lt_of_not_le hgt), Logged.value_pure]

theorem known_windowed {limit : Nat} :
    (windowed engine active cursor offset limit text).value.1.known = cursor.known :=
  known_searchFrom _ 0

theorem asked_searchFrom (he : engine.BoundedIn active.rule.pattern text) (calls start : Nat) :
    Asked cursor offset text.length (searchFrom engine active offset text calls cursor start) := by
  induction calls, cursor, start using searchFrom.induct engine active text with
  | case1 cursor start hle =>
    rw [searchFrom_again hle]
    exact .nothing rfl
  | case2 cursor start hle calls _ herr =>
    rw [searchFrom_failed hle herr]
    exact asked_giveUp
  | case3 cursor start hle calls hnone =>
    rw [searchFrom_nothing hle hnone]
    exact .nothing rfl
  | case4 cursor start hle calls m hm ih =>
    obtain ⟨h1, h2⟩ := he hle hm
    have ha : Asked cursor offset text.length (accept active cursor offset m) := asked_accept h1 h2
    cases hc : (accept active cursor offset m).value.2 with
    | some c =>
      rw [searchFrom_found hle hm hc, ← accept_of_some hc]
      exact ha
    | none =>
      -- Nothing is left for the token, so the search goes on behind the start of the match.
      have hr : (Logged.reach 0 text.length ⟨m.span.start, text.length⟩).strays = [] :=
        Logged.strays_reach (Nat.zero_le _) (Nat.le_trans h1 h2) (by simp)
      have ih' := ih (accept active cursor offset m).value.1
      rw [searchFrom_empty hle hm hc]
      refine ⟨ih'.known.trans ha.known, ?_, ih'.fits⟩
      simp [ha.strays, hr, ih'.strays]
  | case5 calls cursor start hgt =>
    rw [searchFrom_past (Nat.lt_of_not_le hgt)]
    exact .nothing rfl

theorem asked_search (he : engine.Bounded) : Asked cursor offset text.length (search engine active cursor offset text) :=
  asked_searchFrom (he.boundedIn _ _) _ 0

theorem asked_atStart (he : engine.Bounded) :
    Asked cursor offset text.length (atStart engine active cursor offset text) := by
  unfold atStart
  split
  · exact asked_giveUp
  · exact .nothing rfl
  · rename_i m hm
    obtain ⟨h1, h2⟩ := he.atStart hm
    exact asked_accept h1 h2

/-! ### What a rule offers -/

/-- What a rule goes by at a place where it was not asked before: whether it only asks for a match right there,
    and which candidate it has kept. -/
inductive Way (rule : Rule) (cursor : RuleCursor) (offset : Nat) : (anchored : Bool) → (kept : Option Candidate) → Prop
  | first : cursor.known = none → Way rule cursor offset false none
  | none {previous} : cursor.known = some (previous, none) → previous ≠ offset →
      rule.pattern.looksBehind = false → Way rule cursor offset true none
  | noneBehind {previous} : cursor.known = some (previous, none) → previous ≠ offset →
      rule.pattern.looksBehind = true → Way rule cursor offset false none
  | passed {previous c} : cursor.known = some (previous, some c) → previous ≠ offset →
      c.start < offset ∨ c.rawStart = offset → Way rule cursor offset false none
  | ahead {previous c} : cursor.known = some (previous, some c) → previous ≠ offset → offset ≤ c.start →
      offset < c.rawStart → rule.pattern.looksBehind = false → Way rule cursor offset true (some c)
  | aheadBehind {previous c} : cursor.known = some (previous, some c) → previous ≠ offset → offset ≤ c.start →
      offset < c.rawStart → rule.pattern.looksBehind = true → Way rule cursor offset false none
  | overtaken {previous c} : cursor.known = some (previous, some c) → previous ≠ offset → offset ≤ c.start →
      c.rawStart < offset → Way rule cursor offset false (some c)

def ask (engine : Engine) (active : ActiveRule) (cursor : RuleCursor) (offset : Nat) (text : List Char)
    (anchored : Bool) : Logged (RuleCursor × Option Candidate) :=
  if anchored then atStart engine active cursor offset text else search engine active cursor offset text

/-- Notes the earlier of what was found and what was kept. -/
def settle (offset : Nat) (kept : Option Candidate) (asked : Logged (RuleCursor × Option Candidate)) :
    Logged (RuleCursor × Option Candidate) := do
  let (cursor, fresh) ← asked
  return (cursor.remember offset (earlier fresh kept), earlier fresh kept)

/-- A rule gives its answer again where it was asked before. Elsewhere it asks the engine, and offers the earlier
    of the answer and the candidate it has kept. -/
theorem candidate_cases (engine : Engine) (active : ActiveRule) (cursor : RuleCursor) (offset : Nat)
    (text : List Char) :
    (∃ cached, cursor.known = some (offset, cached) ∧
      candidate engine active cursor offset text = pure (cursor, cached)) ∨
    (∃ anchored kept, Way active.rule cursor offset anchored kept ∧
      candidate engine active cursor offset text =
        settle offset kept (ask engine active cursor offset text anchored)) := by
  unfold candidate
  cases hk : cursor.known with
  | none => exact Or.inr ⟨false, none, .first hk, by simp [settle, ask]⟩
  | some known =>
    obtain ⟨previous, cached⟩ := known
    by_cases hp : previous = offset
    · subst hp
      exact Or.inl ⟨cached, rfl, by simp⟩
    · right
      have hpb : (previous == offset) = false := beq_eq_false_iff_ne.mpr hp
      cases cached with
      | none =>
        cases hb : active.rule.pattern.looksBehind
        · exact ⟨true, none, .none hk hp hb, by simp [settle, ask, hpb]⟩
        · exact ⟨false, none, .noneBehind hk hp hb, by simp [settle, ask, hpb]⟩
      | some c =>
        by_cases hpass : c.start < offset ∨ c.rawStart = offset
        · exact ⟨false, none, .passed hk hp hpass, by simp [settle, ask, hpb, hpass]⟩
        · have hpassb : (decide (c.start < offset) || c.rawStart == offset) = false := by simpa using hpass
          obtain ⟨hstart, hraw⟩ := not_or.mp hpass
          by_cases hahead : offset < c.rawStart
          · cases hb : active.rule.pattern.looksBehind
            · refine ⟨true, some c, .ahead hk hp (Nat.le_of_not_lt hstart) hahead hb, ?_⟩
              simp [settle, ask, hpb, hpassb, hahead]
            · refine ⟨false, none, .aheadBehind hk hp (Nat.le_of_not_lt hstart) hahead hb, ?_⟩
              simp [settle, ask, hpb, hpassb, Nat.lt_asymm hahead]
          · have hover : c.rawStart < offset := by omega
            refine ⟨false, some c, .overtaken hk hp (Nat.le_of_not_lt hstart) hover, ?_⟩
            simp [settle, ask, hpb, hpassb, hahead, hover]

/-- What the rule remembers lies ahead of the place it was asked at, which is no later than `offset`. -/
def Remembers (cursor : RuleCursor) (offset stop : Nat) : Prop :=
  ∀ previous cached, cursor.known = some (previous, cached) →
    previous ≤ offset ∧ ∀ c, cached = some c → c.Fits previous stop

/-- What comes of asking a rule at a place: it remembers its answer for that place, no text is cut out of range,
    and a candidate lies in the text not yet split. -/
structure Offers (offset stop : Nat) (r : Logged (RuleCursor × Option Candidate)) : Prop where
  known : r.value.1.known = some (offset, r.value.2)
  strays : r.strays = []
  fits : ∀ {c}, r.value.2 = some c → c.Fits offset stop

theorem remembers_fresh (offset stop : Nat) : Remembers {} offset stop := fun _ _ h => by cases h

theorem Remembers.later {offset offset' stop : Nat} (h : Remembers cursor offset stop) (hle : offset ≤ offset') :
    Remembers cursor offset' stop := fun previous cached hk =>
  ⟨Nat.le_trans (h previous cached hk).1 hle, (h previous cached hk).2⟩

theorem Offers.remembers {stop : Nat} {r : Logged (RuleCursor × Option Candidate)} (h : Offers offset stop r) :
    Remembers r.value.1 offset stop := fun previous cached hk => by
  rw [h.known] at hk
  cases hk
  exact ⟨Nat.le_refl _, fun c hc => h.fits hc⟩

theorem asked_ask (he : engine.Bounded) (anchored : Bool) :
    Asked cursor offset text.length (ask engine active cursor offset text anchored) := by
  cases anchored
  · exact asked_search he
  · exact asked_atStart he

theorem Way.kept_fits {rule : Rule} {anchored : Bool} {c : Candidate} {stop : Nat}
    (hway : Way rule cursor offset anchored (some c)) (hr : Remembers cursor offset stop) : c.Fits offset stop := by
  cases hway with
  | ahead hk _ hle _ _ => exact ((hr _ _ hk).2 c rfl).later hle
  | overtaken hk _ hle _ => exact ((hr _ _ hk).2 c rfl).later hle

theorem known_candidate (engine : Engine) (active : ActiveRule) (cursor : RuleCursor) (offset : Nat)
    (text : List Char) :
    (candidate engine active cursor offset text).value.1.known =
      some (offset, (candidate engine active cursor offset text).value.2) := by
  rcases candidate_cases engine active cursor offset text with ⟨cached, hk, heq⟩ | ⟨anchored, kept, -, heq⟩
  · rw [heq]
    exact hk
  · rw [heq]
    rfl

theorem offers_candidate (he : engine.Bounded) (hr : Remembers cursor offset (offset + text.length)) :
    Offers offset (offset + text.length) (candidate engine active cursor offset text) := by
  have hknown := known_candidate engine active cursor offset text
  rcases candidate_cases engine active cursor offset text with ⟨cached, hk, heq⟩ | ⟨anchored, kept, hway, heq⟩
  · rw [heq] at hknown ⊢
    exact ⟨hknown, rfl, fun hc => (hr _ _ hk).2 _ hc⟩
  · rw [heq] at hknown ⊢
    have ha : Asked cursor offset text.length (ask engine active cursor offset text anchored) := asked_ask he anchored
    refine ⟨hknown, ?_, ?_⟩
    · simp [settle, ha.strays]
    · intro c hc
      rcases earlier_eq (show earlier _ kept = some c from hc) with hc | rfl
      · exact (ha.fits hc).1
      · exact hway.kept_fits hr

theorem asked_windowed (he : engine.Bounded) {limit : Nat} (h1 : offset ≤ limit) (h2 : limit ≤ offset + text.length) :
    Asked cursor offset (limit - offset) (windowed engine active cursor offset limit text) := by
  have hcut : (Logged.cut offset text ⟨offset, limit⟩).strays = [] := Logged.strays_cut (Nat.le_refl _) h1 h2
  have hlen : (slice text ⟨offset - offset, limit - offset⟩).length = limit - offset := by
    simp only [slice, List.length_take, List.length_drop]
    omega
  have ha : Asked cursor offset (limit - offset) (search engine active cursor offset (slice text _)) :=
    hlen ▸ asked_search he
  refine ⟨known_windowed, ?_, fun hc => ha.fits hc⟩
  rw [windowed, Logged.strays_bind, hcut]
  exact ha.strays

end
end RuleCursor
end Highlight
