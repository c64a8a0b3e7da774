import Highlight.Proofs.Level
import Highlight.Proofs.Recall

/-! The match that is chosen when no search is given up. How a rule's offer is weighed against the pick of the rules
    before it needs no memory (`weigh`). From right answers follow a pick as soon as any rule has a match, and one that
    starts no later than the leftmost match of a greedy rule; and where no rule has the lookbehind option, the pick
    depends on nothing but the text ahead. -/

namespace Highlight

def Pick.shift (pick : Pick) (n : Nat) : Pick := { pick with found := pick.found.shift n }

namespace Tokenizer
open RuleCursor

/-! ### Weighing an offer -/

/-- The first match of a rule before a limit, in a text that starts at `offset`. -/
def window (attempt : Attempt) (rule : Rule) (text : List Char) (offset limit : Nat) : Option Candidate :=
  (rule.leftmost attempt (text.take (limit - offset))).map (·.shift offset)

/-- The pick after a rule has contended with its offer. -/
def weigh (attempt : Attempt) (text : List Char) (offset index : Nat) (active : ActiveRule) :
    Option Candidate → Option Pick → Option Pick
  | none, best => best
  | some c, none => some ⟨index, active, c⟩
  | some c, some pick =>
    match claim active.rule c pick.found.start with
    | .refused => some pick
    | .taken => some ⟨index, active, c⟩
    | .windowed =>
      some (((window attempt active.rule text offset pick.found.start).map fun c => ⟨index, active, c⟩).getD pick)

section
variable {engine : Engine} {attempt : Attempt} {text : List Char} {offset index : Nat} {active : ActiveRule}
  {offered : Option Candidate} {best : Option Pick} {c : Candidate} {pick : Pick}

theorem window_lt (he : engine.Attempts attempt active.rule.pattern) {limit : Nat}
    (h : window attempt active.rule text offset limit = some c) : c.start < limit := by
  obtain ⟨c', hc', rfl⟩ := Option.map_eq_some_iff.mp h
  obtain ⟨i, -, -, hi, -⟩ := firstFrom_eq_some hc'
  obtain ⟨-, hlt, hstop⟩ := (Rule.offer_fits he hi).2
  rw [List.length_take] at hstop
  have hlimit := Nat.le_trans hstop (Nat.min_le_left _ _)
  simp only [Candidate.shift]
  omega

theorem claim_cases (rule : Rule) (c : Candidate) (claimed : Nat) :
    (claim rule c claimed = .refused ∧ claimed ≤ c.start) ∨ (claim rule c claimed = .taken ∧ c.start < claimed) ∨
      (claim rule c claimed = .windowed ∧ rule.greedy = false) := by
  unfold claim
  by_cases hlate : claimed ≤ c.start
  · exact Or.inl ⟨if_pos hlate, hlate⟩
  · rw [if_neg hlate]
    by_cases htaken : (rule.greedy || c.stop ≤ claimed) = true
    · exact Or.inr (Or.inl ⟨if_pos htaken, Nat.lt_of_not_le hlate⟩)
    · refine Or.inr (Or.inr ⟨if_neg htaken, ?_⟩)
      rw [Bool.or_eq_true, not_or, Bool.not_eq_true] at htaken
      exact htaken.1

/-- A pick is only given up for one that starts earlier. -/
theorem weigh_le (he : engine.Attempts attempt active.rule.pattern) (offered : Option Candidate) (pick : Pick) :
    ∃ pick', weigh attempt text offset index active offered (some pick) = some pick' ∧
      pick'.found.start ≤ pick.found.start := by
  cases offered with
  | none => exact ⟨pick, rfl, Nat.le_refl _⟩
  | some c =>
    rcases claim_cases active.rule c pick.found.start with ⟨hclaim, -⟩ | ⟨hclaim, hearly⟩ | ⟨hclaim, -⟩
    · exact ⟨pick, by rw [weigh, hclaim], Nat.le_refl _⟩
    · exact ⟨_, by rw [weigh, hclaim], Nat.le_of_lt hearly⟩
    · refine ⟨_, by rw [weigh, hclaim], ?_⟩
      cases hw : window attempt active.rule text offset pick.found.start with
      | none => exact Nat.le_refl _
      | some c' => exact Nat.le_of_lt (window_lt he hw)

/-- A rule with an offer leaves a pick, and a greedy rule leaves none that starts behind its offer. -/
theorem weigh_some (c : Candidate) (best : Option Pick) :
    ∃ pick, weigh attempt text offset index active (some c) best = some pick ∧
      (active.rule.greedy = true → pick.found.start ≤ c.start) := by
  cases best with
  | none => exact ⟨_, rfl, fun _ => Nat.le_refl _⟩
  | some pick =>
    rcases claim_cases active.rule c pick.found.start with ⟨hclaim, hlate⟩ | ⟨hclaim, -⟩ | ⟨hclaim, hgreedy⟩
    · exact ⟨pick, by rw [weigh, hclaim], fun _ => hlate⟩
    · exact ⟨_, by rw [weigh, hclaim], fun _ => Nat.le_refl _⟩
    · refine ⟨_, by rw [weigh, hclaim], fun h => ?_⟩
      rw [hgreedy] at h
      cases h

theorem claim_shift (rule : Rule) (c : Candidate) (claimed n : Nat) :
    claim rule (c.shift n) (claimed + n) = claim rule c claimed := by
  simp only [claim, Candidate.shift, Nat.add_le_add_iff_right]

theorem window_shift (limit n : Nat) :
    window attempt active.rule text (offset + n) (limit + n) =
      (window attempt active.rule text offset limit).map (·.shift n) := by
  rw [window, window, Nat.add_sub_add_right, Candidate.map_shift_shift]

theorem weigh_shift (n : Nat) :
    weigh attempt text (offset + n) index active (offered.map (·.shift n)) (best.map (·.shift n)) =
      (weigh attempt text offset index active offered best).map (·.shift n) := by
  cases offered with
  | none => rfl
  | some c =>
    cases best with
    | none => rfl
    | some pick =>
      have hclaim := claim_shift active.rule c pick.found.start n
      have hwindow := @window_shift attempt text offset active pick.found.start n
      simp only [Option.map_some, weigh]
      simp only [Pick.shift, Candidate.shift] at hclaim hwindow ⊢
      rw [hclaim, hwindow]
      split
      · rfl
      · rfl
      · cases window attempt active.rule text offset pick.found.start <;> rfl

/-! ### One contest -/

theorem succeeds_contend {r : Contender} (hs : (contend engine offset text index r best).Succeeds) :
    (r.cursor.candidate engine r.active offset text).Succeeds := by
  have hcontest := contend_contest engine offset text index r best
  generalize contend engine offset text index r best = out at hcontest hs
  cases hcontest with
  | windowed => exact (List.forall_mem_append.mp hs).1
  | _ => exact hs

theorem known_contend (r : Contender) :
    (contend engine offset text index r best).value.1.cursor.known =
      (r.cursor.candidate engine r.active offset text).value.1.known := by
  have hcontest := contend_contest engine offset text index r best
  generalize contend engine offset text index r best = out at hcontest
  cases hcontest with
  | windowed => exact known_windowed
  | _ => rfl

theorem value_contend {r : Contender} (he : engine.Attempts attempt r.active.rule.pattern)
    (hs : (contend engine offset text index r best).Succeeds) :
    (contend engine offset text index r best).value.2 =
      weigh attempt text offset index r.active (r.cursor.candidate engine r.active offset text).value.2 best := by
  have hcontest := contend_contest engine offset text index r best
  generalize contend engine offset text index r best = out at hcontest hs ⊢
  cases hcontest with
  | nothing hc => rw [hc, weigh]
  | first hc => rw [hc, weigh]
  | refused hc hlate => simp only [hc, weigh, claim, hlate, if_true]
  | taken hc hearly htaken =>
    simp only [hc, weigh, claim, Nat.not_le_of_lt hearly, htaken, if_false, Bool.or_eq_true, decide_eq_true_eq, if_true]
  | windowed hc hearly hgreedy hlong =>
    have hwindow := value_windowed he (List.forall_mem_append.mp hs).2
    simp only [hc, weigh, claim, Nat.not_le_of_lt hearly, hgreedy, Nat.not_le_of_lt hlong, if_false, Bool.false_or,
      decide_false, Bool.false_eq_true, hwindow, window]

end

/-! ### All rules in turn -/

def AllRecall (attempt : Attempt) (text : List Char) (rules : List Contender) (offset : Nat) : Prop :=
  ∀ r ∈ rules, Recalls attempt r.active.rule text r.cursor offset

/-- The pick if every rule offers its leftmost match. -/
def weighAll (attempt : Attempt) (text : List Char) (offset : Nat) :
    (index : Nat) → List ActiveRule → Option Pick → Option Pick
  | _, [], best => best
  | index, active :: rules, best =>
    weighAll attempt text offset (index + 1) rules
      (weigh attempt text offset index active ((active.rule.leftmost attempt text).map (·.shift offset)) best)

/-- What a selection comes to, with right answers before it: the answers remembered are right again, there is a pick
    if any rule has a match, and it starts no later than the leftmost match of a greedy rule. Without the lookbehind
    option the pick is that of the leftmost matches. -/
structure Chosen (attempt : Attempt) (text : List Char) (offset index : Nat) (rules : List Contender)
    (best : Option Pick) (out : Logged (List Contender × Option Pick)) : Prop where
  recalls : AllRecall attempt text out.value.1 offset
  le_best : ∀ pick, best = some pick → ∃ pick', out.value.2 = some pick' ∧ pick'.found.start ≤ pick.found.start
  some_of_leftmost : ∀ r ∈ rules, ∀ c, r.active.rule.leftmostFrom attempt text offset = some c →
    ∃ pick, out.value.2 = some pick ∧ (r.active.rule.greedy = true → pick.found.start ≤ c.start)
  eq_weighAll : (∀ r ∈ rules, r.active.rule.lookbehind = false) →
    out.value.2 = weighAll attempt (text.drop offset) offset index (rules.map (·.active)) best

section
variable {engine : Engine} {attempt : Attempt} {text : List Char} {offset : Nat}

theorem chosen_selectFrom (hle : offset ≤ text.length) {rules : List Contender} :
    ∀ {index : Nat} {best : Option Pick}, (∀ active ∈ rules.map (·.active), engine.Attempts attempt active.rule.pattern) →
    AllRecall attempt text rules offset →
    (selectFrom engine offset (text.drop offset) index rules best).Succeeds →
    Chosen attempt text offset index rules best (selectFrom engine offset (text.drop offset) index rules best) := by
  induction rules with
  | nil =>
    intro index best _ _ _
    refine ⟨?_, fun pick h => ⟨pick, h, Nat.le_refl _⟩, ?_, fun _ => rfl⟩
    · intro r hr
      cases hr
    · intro r hr
      cases hr
  | cons r rs ih =>
    intro index best he hr hs
    obtain ⟨he, herest⟩ := List.forall_mem_cons.mp he
    obtain ⟨hs1, hs'⟩ := Logged.succeeds_bind.mp hs
    obtain ⟨hs2, -⟩ := Logged.succeeds_bind.mp hs'
    have hcandidate := succeeds_contend hs1
    have hrecall := hr r List.mem_cons_self
    have hanswer := answers_candidate he hle hrecall hcandidate
    have hvalue := value_contend he hs1
    -- The rest contends with the pick after this rule, which is weighed from a right answer.
    have hrest := ih herest (fun r' hr' => hr r' (List.mem_cons_of_mem _ hr')) hs2
    refine ⟨?_, ?_, ?_, ?_⟩
    · intro r' hr'
      rw [rules_selectFrom_cons] at hr'
      rcases List.mem_cons.mp hr' with rfl | hr'
      · rw [active_contend]
        exact (recalls_candidate he hle hrecall hcandidate).of_known (known_contend r)
      · exact hrest.recalls r' hr'
    · intro pick hpick
      obtain ⟨pick1, h1, hle1⟩ := @weigh_le _ attempt (text.drop offset) offset index r.active he
        (r.cursor.candidate engine r.active offset (text.drop offset)).value.2 pick
      obtain ⟨pick2, h2, hle2⟩ := hrest.le_best pick1 (by rw [hvalue, hpick, h1])
      exact ⟨pick2, h2, Nat.le_trans hle2 hle1⟩
    · intro r' hr' c hc
      rcases List.mem_cons.mp hr' with rfl | hr'
      · obtain ⟨f, hf, hfc⟩ := hanswer.some_of_leftmost hc
        obtain ⟨pick1, h1, hle1⟩ := @weigh_some attempt (text.drop offset) offset index r'.active f best
        obtain ⟨pick2, h2, hle2⟩ := hrest.le_best pick1 (by rw [hvalue, hf, h1])
        exact ⟨pick2, h2, fun hgreedy => Nat.le_trans hle2 (Nat.le_trans (hle1 hgreedy) hfc)⟩
      · exact hrest.some_of_leftmost r' hr' c hc
    · intro hrules
      have hexact := hanswer.eq_leftmost (hrules r List.mem_cons_self)
      have heq := hrest.eq_weighAll fun r' hr' => hrules r' (List.mem_cons_of_mem _ hr')
      rw [pick_selectFrom_cons, heq, hvalue, hexact]
      rfl

theorem chosen_select {part : List Char} (hpart : text.drop offset = part) (hle : offset ≤ text.length)
    {rules : List Contender} (he : ∀ active ∈ rules.map (·.active), engine.Attempts attempt active.rule.pattern)
    (hr : AllRecall attempt text rules offset) (hs : (select engine offset part rules).Succeeds) :
    Chosen attempt text offset 0 rules none (select engine offset part rules) := by
  subst hpart
  exact chosen_selectFrom hle he hr hs

theorem weighAll_shift (n : Nat) {rules : List ActiveRule} :
    ∀ {index : Nat} {best : Option Pick},
    weighAll attempt text (offset + n) index rules (best.map (·.shift n)) =
      (weighAll attempt text offset index rules best).map (·.shift n) := by
  induction rules with
  | nil =>
    intro index best
    rfl
  | cons active rules ih =>
    intro index best
    rw [weighAll, weighAll, ← Candidate.map_shift_shift, weigh_shift, ih]

end

/-! ### Turns -/

section
variable {engine : Engine} {attempt : Attempt} {inside : ActiveRule → List Char → Logged Content} {bytes : Nat → Nat}
  {text : List Char} {rules rules' : List Contender} {offset : Nat} {gap matched back : List Char} {pick : Pick}
  {after : Logged (List Token)}

theorem allRecall_contenders (attempt : Attempt) (text : List Char) (actives : List ActiveRule) (offset : Nat) :
    AllRecall attempt text (contenders actives) offset := by
  intro r hr
  obtain ⟨active, -, rfl⟩ := List.mem_map.mp hr
  exact recalls_fresh

theorem succeeds_select {part : List Char} (hne : part ≠ [])
    (hs : (steps engine inside bytes rules offset part).Succeeds) : (select engine offset part rules).Succeeds := by
  obtain ⟨c, cs, rfl⟩ := List.exists_cons_of_ne_nil hne
  rw [steps] at hs
  exact Logged.succeeds_mapOffsets.mp (Logged.succeeds_bind.mp hs).1

theorem succeeds_turn {tokens : List Token} {strays : List Span} {endless : Bool}
    (hs : (⟨tokens, ((select engine offset text rules).mapOffsets bytes).warnings ++
      ((inside pick.active matched).warnings ++ after.warnings), strays, endless⟩ : Logged (List Token)).Succeeds) :
    (select engine offset text rules).Succeeds ∧ (inside pick.active matched).Succeeds ∧ after.Succeeds := by
  obtain ⟨hselect, hrest⟩ := List.forall_mem_append.mp hs
  exact ⟨Logged.succeeds_mapOffsets.mp hselect, List.forall_mem_append.mp hrest⟩

/-- Behind a turn the rules remember right answers again. -/
theorem recalls_turn (he : ∀ active ∈ rules.map (·.active), engine.Attempts attempt active.rule.pattern)
    (hle : offset ≤ text.length)
    (htext : text.drop offset = gap ++ (matched ++ back)) (hr : AllRecall attempt text rules offset)
    (hs : (select engine offset (gap ++ (matched ++ back)) rules).Succeeds)
    (hv : (select engine offset (gap ++ (matched ++ back)) rules).value = (rules', some pick))
    (hstop : pick.found.stop = offset + gap.length + matched.length) :
    pick.found.stop ≤ text.length ∧ text.drop pick.found.stop = back ∧
      AllRecall attempt text rules' pick.found.stop := by
  have hrecalls := (chosen_select htext hle he hr hs).recalls
  rw [hv] at hrecalls
  obtain ⟨hle', hback⟩ := drop_of_drop hle htext
  rw [hstop]
  exact ⟨hle', hback, fun r hmem => (hrecalls r hmem).later (by omega)⟩

end

theorem succeeds_steps {t : Tokenizer} {inside : ActiveRule → List Char → Logged Content} {g : Grammar}
    {text : List Char} (hs : (t.level inside g text).Succeeds) :
    (steps t.engine inside (byteOffset text) (contenders (t.levelRules g)) 0 text).Succeeds := by
  obtain ⟨ws, heq⟩ := t.level_eq inside g text
  rw [heq] at hs
  exact (List.forall_mem_append.mp hs).2

end Tokenizer
end Highlight
