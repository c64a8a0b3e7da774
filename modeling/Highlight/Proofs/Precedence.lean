import Highlight.Proofs.Provenance

/-! Which match is selected. The rules of a level contend one after the other, and each pick starts before the one that
    it displaces (`displaces`). A rule with an offer leaves no pick behind its start, unless it is not greedy and its
    offer runs into a pick (`contested`). What a selection says of priorities follows from these two, for any order and
    overlap of the offers. -/

namespace Highlight

namespace RuleCursor

section
variable {engine : Engine} {active : ActiveRule} {cursor : RuleCursor} {offset stop : Nat} {text : List Char}

/-- What the rule remembers was a match in the level. -/
def Holds (cursor : RuleCursor) (stop : Nat) : Prop :=
  ∀ previous c, cursor.known = some (previous, some c) → c.Fits previous stop

theorem holds_fresh : Holds {} stop := nofun

/-- What a rule offers lies in the text not yet split, wherever it was asked before. -/
theorem fits_candidate (he : engine.Bounded) (hr : Holds cursor (offset + text.length)) {c : Candidate}
    (hc : (candidate engine active cursor offset text).value.2 = some c) : c.Fits offset (offset + text.length) := by
  rcases candidate_cases engine active cursor offset text with ⟨cached, hk, heq⟩ | ⟨anchored, kept, hway, heq⟩
  · rw [heq] at hc
    obtain rfl : cached = some c := hc
    exact hr _ _ hk
  · rw [heq] at hc
    rcases Candidate.earlier_eq (show Candidate.earlier _ kept = some c from hc) with hfresh | rfl
    · exact ((asked_ask he anchored).fits hfresh).1
    · cases hway with
      | ahead hk _ hle _ _ => exact (hr _ _ hk).later hle
      | overtaken hk _ hle _ => exact (hr _ _ hk).later hle

/-- A match in front of another one ends where that starts at the latest. -/
theorem windowed_before (he : engine.Bounded) {first c : Candidate} (hfirst : first.Fits offset (offset + text.length))
    (hc : (windowed engine active cursor offset first.start text).value.2 = some c) :
    c.start < c.stop ∧ c.stop ≤ first.start := by
  have hstop : first.start ≤ offset + text.length := Nat.le_trans (Nat.le_of_lt hfirst.start_lt) hfirst.stop_le
  obtain ⟨⟨-, hlt, hends⟩, -, -⟩ := (asked_windowed he hfirst.offset_le hstop).fits hc
  rw [Nat.add_sub_cancel' hfirst.offset_le] at hends
  exact ⟨hlt, hends⟩

end
end RuleCursor

namespace Tokenizer
open RuleCursor

/-! ### Earlier selections -/

/-- What the rules of a level may remember at an offset: they took part in selections at smaller offsets of the level,
    in any order. -/
inductive Prior (engine : Engine) (actives : List ActiveRule) (text : List Char) (offset : Nat) :
    List Contender → Prop
  | start : Prior engine actives text offset (contenders actives)
  | select {rules earlier} : Prior engine actives text offset rules → earlier < offset →
      Prior engine actives text offset (select engine earlier (text.drop earlier) rules).value.1

section
variable {engine : Engine} {actives : List ActiveRule} {text : List Char} {rules : List Contender} {offset : Nat}

theorem holds_of_prior (he : engine.Bounded) (h : Prior engine actives text offset rules) (hle : offset ≤ text.length) :
    ∀ r ∈ rules, r.cursor.Holds text.length ∧ ∀ previous cached, r.cursor.known = some (previous, cached) →
      previous < offset := by
  induction h with
  | start =>
    intro r hr
    obtain ⟨active, -, rfl⟩ := List.mem_map.mp hr
    exact ⟨holds_fresh, nofun⟩
  | @select rules earlier _ hlt ih =>
    intro r' hr'
    obtain ⟨r, hr, -, hknown⟩ := known_selectFrom r' hr'
    have hstop : earlier + (text.drop earlier).length = text.length := by
      rw [List.length_drop]
      omega
    refine ⟨fun previous c hk => ?_, fun previous cached hk => ?_⟩ <;>
      obtain ⟨rfl, hfound⟩ := Prod.mk.inj (Option.some.inj (hknown.symm.trans hk))
    · have hfits := fits_candidate he (hstop.symm ▸ (ih r hr).1) hfound
      rwa [hstop] at hfits
    · exact hlt

theorem allRemember_of_prior (he : engine.Bounded) (h : Prior engine actives text offset rules)
    (hle : offset ≤ text.length) : AllRemember rules offset text.length := by
  intro r hr previous cached hk
  obtain ⟨hholds, hbefore⟩ := holds_of_prior he h hle r hr
  exact ⟨Nat.le_of_lt (hbefore _ _ hk), fun c hc => hholds previous c (hc ▸ hk)⟩

end

/-! ### One contest after the other -/

/-- What a rule offers. -/
def offerOf (engine : Engine) (offset : Nat) (part : List Char) (r : Contender) : Option Candidate :=
  (r.cursor.candidate engine r.active offset part).value.2

/-- The pick when the first `count` rules have contended. -/
def pickAfter (engine : Engine) (offset : Nat) (part : List Char) (rules : List Contender) (count : Nat) :
    Option Pick :=
  (selectFrom engine offset part 0 (rules.take count) none).value.2

/-- The rule with an index makes a pick: it is the pick as soon as the rule has contended. -/
structure Makes (engine : Engine) (offset : Nat) (part : List Char) (rules : List Contender) (index : Nat)
    (pick : Pick) : Prop where
  own : pick.index = index
  after : pickAfter engine offset part rules (index + 1) = some pick

/-- How a rule comes to make a pick, given the pick before. It takes its whole offer if it is the first or greedy; and
    a pick that it displaces starts later, and where its own match ends if it is not greedy. -/
structure Enters (engine : Engine) (offset : Nat) (part : List Char) (r : Contender) (before : Option Pick)
    (pick : Pick) : Prop where
  active : pick.active = r.active
  whole : before = none ∨ r.active.rule.greedy = true → offerOf engine offset part r = some pick.found
  displaces : ∀ first, before = some first → pick.found.start < first.found.start ∧
    (r.active.rule.greedy = false → pick.found.stop ≤ first.found.start)

section
variable {engine : Engine} {offset : Nat} {part : List Char} {rules : List Contender} {r : Contender}
  {count count' index : Nat} {best : Option Pick} {pick pick' : Pick} {c : Candidate}

/-- A rule that makes a pick enters in one of the ways above. -/
theorem enters_of_contend (he : engine.Bounded)
    (hbest : ∀ first, best = some first → first.found.Fits offset (offset + part.length))
    (h : (contend engine offset part index r best).value.2 = some pick) :
    best = some pick ∨ pick.index = index ∧ Enters engine offset part r best pick := by
  have hcontest := contend_contest engine offset part index r best
  generalize contend engine offset part index r best = out at hcontest h
  cases hcontest with
  | nothing => exact Or.inl h
  | first hc =>
    cases h
    exact Or.inr ⟨rfl, rfl, fun _ => hc, nofun⟩
  | refused => exact Or.inl h
  | taken hc hearly hends =>
    cases h
    refine Or.inr ⟨rfl, rfl, fun _ => hc, ?_⟩
    rintro first ⟨⟩
    refine ⟨hearly, fun hgreedy => hends.resolve_left fun hgreedy' => ?_⟩
    cases hgreedy.symm.trans hgreedy'
  | @windowed c first hc hearly hgreedy _ =>
    rcases hv : (windowed engine r.active (r.cursor.candidate engine r.active offset part).value.1 offset
      first.found.start part).value.2 with _ | c'
    · exact Or.inl (by simpa [hv] using h)
    · obtain rfl : ⟨index, r.active, c'⟩ = pick := by simpa [hv] using h
      obtain ⟨hlt, hends⟩ := windowed_before he (hbest first rfl) hv
      refine Or.inr ⟨rfl, rfl, fun hwhole => ?_, ?_⟩
      · rcases hwhole with hnone | hgreedy'
        · cases hnone
        · cases hgreedy.symm.trans hgreedy'
      · rintro first ⟨⟩
        exact ⟨Nat.lt_of_lt_of_le hlt hends, fun _ => hends⟩

/-- A pick is displaced only by another one. -/
theorem contend_some (first : Pick) :
    ∃ pick, (contend engine offset part index r (some first)).value.2 = some pick := by
  have hcontest := contend_contest engine offset part index r (some first)
  generalize contend engine offset part index r (some first) = out at hcontest
  cases hcontest <;> exact ⟨_, rfl⟩

/-- A rule with an offer leaves a pick that starts no later than the offer, unless the rule is not greedy and its offer
    runs into the pick so far. -/
theorem contested (hc : offerOf engine offset part r = some c) :
    (∃ pick, (contend engine offset part index r best).value.2 = some pick ∧ pick.found.start ≤ c.start) ∨
      r.active.rule.greedy = false ∧ ∃ first, best = some first ∧ first.found.start < c.stop := by
  have hcontest := contend_contest engine offset part index r best
  generalize contend engine offset part index r best = out at hcontest
  cases hcontest with
  | nothing hc' => cases hc'.symm.trans hc
  | first hc' =>
    cases hc'.symm.trans hc
    exact Or.inl ⟨_, rfl, Nat.le_refl _⟩
  | refused hc' hlate =>
    cases hc'.symm.trans hc
    exact Or.inl ⟨_, rfl, hlate⟩
  | taken hc' =>
    cases hc'.symm.trans hc
    exact Or.inl ⟨_, rfl, Nat.le_refl _⟩
  | windowed hc' _ hgreedy hruns =>
    cases hc'.symm.trans hc
    exact Or.inr ⟨hgreedy, _, rfl, hruns⟩

theorem contend_none (hc : offerOf engine offset part r = none) :
    (contend engine offset part index r best).value.2 = best := by
  have hcontest := contend_contest engine offset part index r best
  generalize contend engine offset part index r best = out at hcontest
  cases hcontest with
  | nothing => rfl
  | first hc' | refused hc' | taken hc' | windowed hc' => cases hc'.symm.trans hc

/-! ### The picks of a selection -/

theorem pick_selectFrom_append {rules' : List Contender} :
    (selectFrom engine offset part index (rules ++ rules') best).value.2 =
      (selectFrom engine offset part (index + rules.length) rules'
        (selectFrom engine offset part index rules best).value.2).value.2 := by
  induction rules generalizing index best with
  | nil => rfl
  | cons r rules ih =>
    rw [List.cons_append, pick_selectFrom_cons, ih, pick_selectFrom_cons, List.length_cons, Nat.add_right_comm,
      Nat.add_assoc]

theorem pickAfter_succ (h : rules[count]? = some r) :
    pickAfter engine offset part rules (count + 1) =
      (contend engine offset part count r (pickAfter engine offset part rules count)).value.2 := by
  obtain ⟨hlt, -⟩ := List.getElem?_eq_some_iff.mp h
  have hlength : (rules.take count).length = count := List.length_take_of_le (Nat.le_of_lt hlt)
  rw [pickAfter, List.take_add_one, h, Option.toList_some, pick_selectFrom_append, hlength, Nat.zero_add]
  rfl

theorem pickAfter_succ_of_none (h : rules[count]? = none) :
    pickAfter engine offset part rules (count + 1) = pickAfter engine offset part rules count := by
  rw [pickAfter, List.take_add_one, h, Option.toList_none, List.append_nil]
  rfl

theorem pickAfter_length :
    pickAfter engine offset part rules rules.length = (select engine offset part rules).value.2 := by
  rw [pickAfter, List.take_length]
  rfl

theorem fits_of_pickAfter (he : engine.Bounded) (hr : AllRemember rules offset (offset + part.length))
    (h : pickAfter engine offset part rules count = some pick) : pick.found.Fits offset (offset + part.length) := by
  have hr' : AllRemember (rules.take count) offset (offset + part.length) :=
    fun r hmem => hr r (List.mem_of_mem_take hmem)
  rcases (selected_select he hr').pick h with hnone | ⟨-, hfits⟩
  · cases hnone
  · exact hfits

/-- When one more rule has contended, the pick is the same, or the rule has made another. -/
theorem enters_of_pickAfter_succ (he : engine.Bounded) (hr : AllRemember rules offset (offset + part.length))
    (h : pickAfter engine offset part rules (count + 1) = some pick) :
    pickAfter engine offset part rules count = some pick ∨ pick.index = count ∧
      ∃ r, rules[count]? = some r ∧
        Enters engine offset part r (pickAfter engine offset part rules count) pick := by
  cases hrule : rules[count]? with
  | none => exact Or.inl (pickAfter_succ_of_none hrule ▸ h)
  | some r =>
    rw [pickAfter_succ hrule] at h
    rcases enters_of_contend he (fun _ => fits_of_pickAfter he hr) h with hsame | ⟨hindex, henters⟩
    · exact Or.inl hsame
    · exact Or.inr ⟨hindex, r, rfl, henters⟩

/-- Every pick was made by the rule with its index. -/
theorem makes_of_pickAfter (he : engine.Bounded) (hr : AllRemember rules offset (offset + part.length))
    (h : pickAfter engine offset part rules count = some pick) :
    pick.index < count ∧ Makes engine offset part rules pick.index pick ∧ ∃ r, rules[pick.index]? = some r ∧
      Enters engine offset part r (pickAfter engine offset part rules pick.index) pick := by
  induction count with
  | zero => cases h
  | succ count ih =>
    rcases enters_of_pickAfter_succ he hr h with hsame | ⟨rfl, r, hrule, henters⟩
    · obtain ⟨hlt, hmakes⟩ := ih hsame
      exact ⟨Nat.lt_succ_of_lt hlt, hmakes⟩
    · exact ⟨Nat.lt_succ_self _, ⟨rfl, h⟩, r, hrule, henters⟩

/-- Later picks are made by later rules, and start earlier. -/
theorem pickAfter_later (he : engine.Bounded) (hr : AllRemember rules offset (offset + part.length))
    (hle : count ≤ count') (h : pickAfter engine offset part rules count = some pick) :
    ∃ pick', pickAfter engine offset part rules count' = some pick' ∧
      (pick' = pick ∨ count ≤ pick'.index ∧ pick'.found.start < pick.found.start) := by
  induction count' with
  | zero =>
    obtain rfl := Nat.le_zero.mp hle
    exact ⟨pick, h, Or.inl rfl⟩
  | succ count' ih =>
    by_cases hlast : count = count' + 1
    · subst hlast
      exact ⟨pick, h, Or.inl rfl⟩
    obtain ⟨pick', hpick', hlater⟩ := ih (by omega)
    obtain ⟨pick'', hpick''⟩ : ∃ pick'', pickAfter engine offset part rules (count' + 1) = some pick'' := by
      cases hrule : rules[count']? with
      | none => exact ⟨pick', (pickAfter_succ_of_none hrule).trans hpick'⟩
      | some r =>
        rw [pickAfter_succ hrule, hpick']
        exact contend_some pick'
    refine ⟨pick'', hpick'', ?_⟩
    rcases enters_of_pickAfter_succ he hr hpick'' with hsame | ⟨hindex, r, -, henters⟩
    · obtain rfl : pick'' = pick' := Option.some.inj (hsame.symm.trans hpick')
      exact hlater
    · obtain ⟨hearlier, -⟩ := henters.displaces pick' hpick'
      rcases hlater with rfl | ⟨-, hstart⟩ <;> exact Or.inr ⟨by omega, by omega⟩

theorem select_eq_none (he : engine.Bounded) (hr : AllRemember rules offset (offset + part.length)) :
    (select engine offset part rules).value.2 = none ↔ ∀ r ∈ rules, offerOf engine offset part r = none := by
  constructor
  · intro hnone r hmem
    obtain ⟨count, hrule⟩ := List.getElem?_of_mem hmem
    obtain ⟨hlt, -⟩ := List.getElem?_eq_some_iff.mp hrule
    cases hc : offerOf engine offset part r with
    | none => rfl
    | some c =>
      -- After a rule with an offer there is a pick, or there was one before, and there is one from then on.
      obtain ⟨count', hle, pick, hpick⟩ : ∃ count' ≤ rules.length, ∃ pick,
          pickAfter engine offset part rules count' = some pick := by
        rcases contested hc with ⟨pick, hpick, -⟩ | ⟨-, pick, hpick, -⟩
        · exact ⟨count + 1, hlt, pick, (pickAfter_succ hrule).trans hpick⟩
        · exact ⟨count, Nat.le_of_lt hlt, pick, hpick⟩
      obtain ⟨pick', hpick', -⟩ := pickAfter_later he hr hle hpick
      rw [pickAfter_length, hnone] at hpick'
      cases hpick'
  · intro hnone
    rw [← pickAfter_length]
    generalize rules.length = count
    induction count with
    | zero => rfl
    | succ count ih =>
      cases hrule : rules[count]? with
      | none => rw [pickAfter_succ_of_none hrule, ih]
      | some r => rw [pickAfter_succ hrule, contend_none (hnone r (List.mem_of_getElem? hrule)), ih]

/-! ### Precedence -/

/-- How a pick stands to what all rules offer. It is made by the rule with its index. A rule with an offer before it, or
    at the same place if the rule comes first, is not greedy, and its offer runs into a pick that a rule before it has
    made. A pick of a greedy rule is the whole offer, and starts before every offer of a greedy rule that comes first;
    any other pick ends where these start at the latest, and where any pick starts that it has displaced. -/
structure Precedes (engine : Engine) (offset : Nat) (part : List Char) (rules : List Contender) (pick : Pick) :
    Prop where
  rule : ∃ r, rules[pick.index]? = some r ∧ pick.active = r.active
  passed : ∀ {j r c}, rules[j]? = some r → offerOf engine offset part r = some c →
    c.start < pick.found.start ∨ c.start = pick.found.start ∧ j < pick.index →
    r.active.rule.greedy = false ∧
      ∃ k first, k < j ∧ Makes engine offset part rules k first ∧ first.found.start < c.stop
  greedy : pick.active.rule.greedy = true →
    (∃ r, rules[pick.index]? = some r ∧ offerOf engine offset part r = some pick.found) ∧
      ∀ {j r c}, j < pick.index → rules[j]? = some r → r.active.rule.greedy = true →
        offerOf engine offset part r = some c → pick.found.start < c.start
  not_greedy : pick.active.rule.greedy = false →
    (∀ {j r c}, j < pick.index → rules[j]? = some r → r.active.rule.greedy = true →
      offerOf engine offset part r = some c → pick.found.stop ≤ c.start) ∧
    ∀ {k first}, k < pick.index → Makes engine offset part rules k first → pick.found.stop ≤ first.found.start

/-- A greedy rule with an offer leaves a pick that starts no later. -/
theorem pickAfter_of_greedy (hrule : rules[count]? = some r) (hgreedy : r.active.rule.greedy = true)
    (hc : offerOf engine offset part r = some c) :
    ∃ pick, pickAfter engine offset part rules (count + 1) = some pick ∧ pick.found.start ≤ c.start := by
  rcases contested hc with ⟨pick, hpick, hle⟩ | ⟨hgreedy', -⟩
  · exact ⟨pick, (pickAfter_succ hrule).trans hpick, hle⟩
  · cases hgreedy.symm.trans hgreedy'

/-- The pick that a later one displaces starts no later than any before. -/
theorem displaced_le (he : engine.Bounded) (hr : AllRemember rules offset (offset + part.length))
    (hle : count ≤ pick.index) (h : pickAfter engine offset part rules count = some pick') :
    ∃ first, pickAfter engine offset part rules pick.index = some first ∧
      first.found.start ≤ pick'.found.start := by
  obtain ⟨first, hfirst, rfl | ⟨-, hlt⟩⟩ := pickAfter_later he hr hle h
  · exact ⟨first, hfirst, Nat.le_refl _⟩
  · exact ⟨first, hfirst, Nat.le_of_lt hlt⟩

theorem precedes_of_select (he : engine.Bounded) (hr : AllRemember rules offset (offset + part.length))
    (h : (select engine offset part rules).value.2 = some pick) : Precedes engine offset part rules pick := by
  rw [← pickAfter_length] at h
  obtain ⟨-, -, r, hrule, henters⟩ := makes_of_pickAfter he hr h
  refine ⟨⟨r, hrule, henters.active⟩, ?_, ?_, ?_⟩
  · intro j r' c hrule' hc hpassed
    obtain ⟨hlt, -⟩ := List.getElem?_eq_some_iff.mp hrule'
    rcases contested hc with ⟨first, hfirst, hle⟩ | ⟨hgreedy, first, hfirst, hruns⟩
    · -- A pick that starts no later than the offer would have kept the last one from starting behind it.
      exfalso
      rw [← pickAfter_succ hrule'] at hfirst
      obtain ⟨hindex, -⟩ := makes_of_pickAfter he hr hfirst
      obtain ⟨pick', hpick', hlater⟩ := pickAfter_later he hr (Nat.succ_le_of_lt hlt) hfirst
      obtain rfl : pick' = pick := Option.some.inj (hpick'.symm.trans h)
      rcases hlater with rfl | ⟨-, hstart⟩ <;> omega
    · obtain ⟨hindex, hmakes, -⟩ := makes_of_pickAfter he hr hfirst
      exact ⟨hgreedy, _, first, hindex, hmakes, hruns⟩
  · intro hgreedy
    refine ⟨⟨r, hrule, henters.whole (Or.inr (henters.active ▸ hgreedy))⟩, fun {j r' c} hlt hrule' hgreedy' hc => ?_⟩
    obtain ⟨pick', hpick', hle⟩ := pickAfter_of_greedy hrule' hgreedy' hc
    obtain ⟨first, hfirst, hle'⟩ := displaced_le he hr (Nat.succ_le_of_lt hlt) hpick'
    exact Nat.lt_of_lt_of_le (henters.displaces first hfirst).1 (Nat.le_trans hle' hle)
  · intro hgreedy
    have hends : ∀ {count pick'}, count ≤ pick.index → pickAfter engine offset part rules count = some pick' →
        pick.found.stop ≤ pick'.found.start := by
      intro count pick' hle hpick'
      obtain ⟨first, hfirst, hle'⟩ := displaced_le he hr hle hpick'
      exact Nat.le_trans ((henters.displaces first hfirst).2 (henters.active ▸ hgreedy)) hle'
    refine ⟨fun {j r' c} hlt hrule' hgreedy' hc => ?_, fun {k first} hlt hmakes => hends hlt hmakes.after⟩
    obtain ⟨pick', hpick', hle⟩ := pickAfter_of_greedy hrule' hgreedy' hc
    exact Nat.le_trans (hends hlt hpick') hle

/-- The priorities of a selection. At an offset of a level, with whatever the rules remember of selections at smaller
    offsets, there is no pick just if no rule has an offer; and a pick lies in the text not yet split, and stands to the
    offers as `Precedes` says. -/
theorem select_precedes (he : engine.Bounded) {actives : List ActiveRule} {text : List Char}
    (h : Prior engine actives text offset rules) (hlt : offset < text.length) :
    ((select engine offset (text.drop offset) rules).value.2 = none ↔
        ∀ r ∈ rules, offerOf engine offset (text.drop offset) r = none) ∧
      ∀ {pick}, (select engine offset (text.drop offset) rules).value.2 = some pick →
        pick.found.Fits offset text.length ∧ Precedes engine offset (text.drop offset) rules pick := by
  have hstop : offset + (text.drop offset).length = text.length := by
    rw [List.length_drop, Nat.add_sub_cancel' (Nat.le_of_lt hlt)]
  have hr : AllRemember rules offset (offset + (text.drop offset).length) :=
    hstop.symm ▸ allRemember_of_prior he h (Nat.le_of_lt hlt)
  refine ⟨select_eq_none he hr, fun {pick} hpick => ⟨?_, precedes_of_select he hr hpick⟩⟩
  exact hstop ▸ fits_of_pickAfter he hr (pickAfter_length.trans hpick)

/-- Numbers come before words, which may hold digits and are not greedy. -/
def runRules : List ActiveRule := [⟨"number", { pattern := .literal "12" }⟩, ⟨"word", { pattern := .literal "ab12" }⟩]

/-- What the rules remember of "12-ab12" behind the first number. -/
def runContenders : List Contender := (select runs.engine 0 "12-ab12".toList (contenders runRules)).value.1

/-- The word is cut off where the number in it starts. -/
theorem select_precedes_runs :
    Prior runs.engine runRules "12-ab12".toList 2 runContenders ∧ 2 < "12-ab12".toList.length ∧
      (runContenders.map (offerOf runs.engine 2 ("12-ab12".toList.drop 2)) = [some ⟨5, 5, 7⟩, some ⟨3, 3, 7⟩]) ∧
      ((select runs.engine 2 ("12-ab12".toList.drop 2) runContenders).value.2.map fun pick =>
        (pick.index, pick.found)) = some (1, ⟨3, 3, 5⟩) ∧
      ((select runs.engine 2 ("12-ab12".toList.drop 2) runContenders).value.2 = none ↔
        ∀ r ∈ runContenders, offerOf runs.engine 2 ("12-ab12".toList.drop 2) r = none) ∧
      ∀ {pick}, (select runs.engine 2 ("12-ab12".toList.drop 2) runContenders).value.2 = some pick →
        pick.found.Fits 2 "12-ab12".toList.length ∧
          Precedes runs.engine 2 ("12-ab12".toList.drop 2) runContenders pick := by
  have hprior : Prior runs.engine runRules "12-ab12".toList 2 runContenders := .select .start Nat.zero_lt_two
  have hlt : 2 < "12-ab12".toList.length := by decide +kernel
  exact ⟨hprior, hlt, by decide +kernel, by decide +kernel, select_precedes bounded_runs hprior hlt⟩

end
end Tokenizer
end Highlight
