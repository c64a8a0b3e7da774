import Highlight.Proofs.Candidate

/-! Selecting a match. One rule after the other contends with the pick of the rules before it; what a contest
    can end in is stated once (`contend_contest`), and what a selection keeps follows from it by induction on
    the rules. -/

namespace Highlight.Tokenizer
open RuleCursor

section
variable {engine : Engine} {offset : Nat} {text : List Char}

/-! ### One contest -/

/-- The ways in which a rule contends with the pick of the rules before it, given what it offers at its place
    and what it offers before a limit. -/
inductive Contest (offered : Logged (RuleCursor × Option Candidate))
    (before : Nat → Logged (RuleCursor × Option Candidate)) (index : Nat) (r : Contender) :
    Option Pick → Logged (Contender × Option Pick) → Prop
  | nothing {best} : offered.value.2 = none → Contest offered before index r best
      ⟨({ r with cursor := offered.value.1 }, best), offered.warnings, offered.strays,
        offered.endless⟩
  | first {c} : offered.value.2 = some c → Contest offered before index r none
      ⟨({ r with cursor := offered.value.1 }, some ⟨index, r.active, c⟩), offered.warnings, offered.strays,
        offered.endless⟩
  | refused {c pick} : offered.value.2 = some c → pick.found.start ≤ c.start →
      Contest offered before index r (some pick)
        ⟨({ r with cursor := offered.value.1 }, some pick), offered.warnings, offered.strays,
        offered.endless⟩
  | taken {c pick} : offered.value.2 = some c → c.start < pick.found.start →
      r.active.rule.greedy = true ∨ c.stop ≤ pick.found.start →
      Contest offered before index r (some pick)
        ⟨({ r with cursor := offered.value.1 }, some ⟨index, r.active, c⟩), offered.warnings, offered.strays,
        offered.endless⟩
  | windowed {c pick} : offered.value.2 = some c → c.start < pick.found.start → r.active.rule.greedy = false →
      pick.found.start < c.stop → Contest offered before index r (some pick)
        ⟨({ r with cursor := (before pick.found.start).value.1 },
            some (((before pick.found.start).value.2.map fun c => ⟨index, r.active, c⟩).getD pick)),
          offered.warnings ++ (before pick.found.start).warnings,
          offered.strays ++ (before pick.found.start).strays,
          offered.endless || (before pick.found.start).endless⟩

theorem contend_contest (engine : Engine) (offset : Nat) (text : List Char) (index : Nat) (r : Contender)
    (best : Option Pick) :
    Contest (r.cursor.candidate engine r.active offset text)
      (fun limit => (r.cursor.candidate engine r.active offset text).value.1.windowed engine r.active offset limit text)
      index r best (contend engine offset text index r best) := by
  unfold contend
  generalize r.cursor.candidate engine r.active offset text = offered
  obtain ⟨⟨cursor, found⟩, ws, strays, endless⟩ := offered
  cases found with
  | none => simpa [Logged.mk_bind] using @Contest.nothing ⟨(cursor, none), ws, strays, endless⟩ _ index r best rfl
  | some c =>
    cases best with
    | none => simpa [Logged.mk_bind] using Contest.first rfl
    | some pick =>
      by_cases hlate : pick.found.start ≤ c.start
      · simpa [Logged.mk_bind, claim, hlate] using Contest.refused rfl hlate
      · by_cases htaken : r.active.rule.greedy = true ∨ c.stop ≤ pick.found.start
        · simpa [Logged.mk_bind, claim, hlate, htaken] using Contest.taken rfl (Nat.lt_of_not_le hlate) htaken
        · obtain ⟨hgreedy, hstop⟩ := not_or.mp htaken
          have hgreedy' : r.active.rule.greedy = false := by simpa using hgreedy
          simpa [Logged.mk_bind, claim, hlate, hgreedy', hstop] using
            Contest.windowed rfl (Nat.lt_of_not_le hlate) hgreedy' (Nat.lt_of_not_le hstop)

theorem active_contend (index : Nat) (r : Contender) (best : Option Pick) :
    (contend engine offset text index r best).value.1.active = r.active := by
  have hcontest := contend_contest engine offset text index r best
  generalize contend engine offset text index r best = out at hcontest
  cases hcontest <;> rfl

/-- What a contest keeps: that what it remembers lies ahead, and that no text is cut out of range. A new
    pick is a match of the rule in the text not yet split. -/
structure Contended (r : Contender) (best : Option Pick) (offset stop : Nat)
    (out : Logged (Contender × Option Pick)) : Prop where
  remembers : out.value.1.cursor.Remembers offset stop
  strays : out.strays = []
  pick : ∀ {pick}, out.value.2 = some pick → best = some pick ∨ pick.active = r.active ∧ pick.found.Fits offset stop

theorem contended_contend (he : engine.Bounded) {index : Nat} {r : Contender} {best : Option Pick}
    (hr : r.cursor.Remembers offset (offset + text.length))
    (hbest : ∀ pick, best = some pick → pick.found.Fits offset (offset + text.length)) :
    Contended r best offset (offset + text.length) (contend engine offset text index r best) := by
  have ho : Offers offset _ (r.cursor.candidate engine r.active offset text) := offers_candidate he hr
  have hcontest := contend_contest engine offset text index r best
  generalize contend engine offset text index r best = out at hcontest ⊢
  cases hcontest with
  | nothing => exact ⟨ho.remembers, ho.strays, fun h => Or.inl h⟩
  | first hc =>
    refine ⟨ho.remembers, ho.strays, fun h => Or.inr ?_⟩
    cases h
    exact ⟨rfl, ho.fits hc⟩
  | refused => exact ⟨ho.remembers, ho.strays, fun h => Or.inl h⟩
  | taken hc =>
    refine ⟨ho.remembers, ho.strays, fun h => Or.inr ?_⟩
    cases h
    exact ⟨rfl, ho.fits hc⟩
  | @windowed c pick hc hearly _ _ =>
    have hpick := hbest pick rfl
    have hle : offset ≤ pick.found.start := Nat.le_trans (ho.fits hc).offset_le (Nat.le_of_lt hearly)
    have hstop : pick.found.start ≤ offset + text.length :=
      Nat.le_trans (Nat.le_of_lt hpick.start_lt) hpick.stop_le
    have hw : Asked _ offset _ ((r.cursor.candidate engine r.active offset text).value.1.windowed engine r.active
        offset pick.found.start text) :=
      asked_windowed he hle hstop
    refine ⟨?_, by simp [ho.strays, hw.strays], ?_⟩
    · intro previous cached hk
      exact ho.remembers previous cached (hw.known ▸ hk)
    · intro pick' h
      simp only [Option.some.injEq] at h
      subst h
      rcases hv : (windowed engine r.active _ offset pick.found.start text).value.2 with _ | c'
      · exact Or.inl (by simp)
      · refine Or.inr ⟨by simp, ?_⟩
        have hfits : c'.Fits offset (offset + text.length) := (hw.fits hv).1.widen (by omega)
        simpa [hv] using hfits

/-! ### All rules in turn -/

theorem rules_selectFrom_cons (index : Nat) (r : Contender) (rs : List Contender) (best : Option Pick) :
    (selectFrom engine offset text index (r :: rs) best).value.1 =
      (contend engine offset text index r best).value.1 ::
        (selectFrom engine offset text (index + 1) rs (contend engine offset text index r best).value.2).value.1 := rfl

theorem pick_selectFrom_cons (index : Nat) (r : Contender) (rs : List Contender) (best : Option Pick) :
    (selectFrom engine offset text index (r :: rs) best).value.2 =
      (selectFrom engine offset text (index + 1) rs (contend engine offset text index r best).value.2).value.2 := rfl

theorem actives_selectFrom {rules : List Contender} {index : Nat} {best : Option Pick} :
    (selectFrom engine offset text index rules best).value.1.map (·.active) = rules.map (·.active) := by
  induction rules generalizing index best with
  | nil => rfl
  | cons r rs ih => rw [rules_selectFrom_cons, List.map_cons, active_contend, ih, List.map_cons]

theorem actives_select (engine : Engine) (offset : Nat) (text : List Char) (rules : List Contender) :
    (select engine offset text rules).value.1.map (·.active) = rules.map (·.active) := actives_selectFrom

/-- What a selection keeps, and that the match taken is one of a rule in the text not yet split. -/
structure Selected (rules : List Contender) (best : Option Pick) (offset stop : Nat)
    (out : Logged (List Contender × Option Pick)) : Prop where
  remembers : ∀ r ∈ out.value.1, r.cursor.Remembers offset stop
  strays : out.strays = []
  pick : ∀ {pick}, out.value.2 = some pick →
    best = some pick ∨ pick.active ∈ rules.map (·.active) ∧ pick.found.Fits offset stop

theorem selected_selectFrom (he : engine.Bounded) {rules : List Contender} :
    ∀ {index : Nat} {best : Option Pick}, (∀ r ∈ rules, r.cursor.Remembers offset (offset + text.length)) →
    (∀ pick, best = some pick → pick.found.Fits offset (offset + text.length)) →
    Selected rules best offset (offset + text.length) (selectFrom engine offset text index rules best) := by
  -- A later rule may only search up to the pick so far, so the induction is over every pick that fits.
  induction rules with
  | nil =>
    intro index best _ _
    exact ⟨fun r hr => (by cases hr), rfl, fun h => Or.inl h⟩
  | cons r rs ih =>
    intro index best hr hbest
    have hc : Contended r best offset _ (contend engine offset text index r best) :=
      contended_contend he (hr r List.mem_cons_self) hbest
    have hbest' : ∀ pick, (contend engine offset text index r best).value.2 = some pick →
        pick.found.Fits offset (offset + text.length) := fun pick h => by
      rcases hc.pick h with h | h
      · exact hbest pick h
      · exact h.2
    have hs := @ih (index + 1) _ (fun r' hr' => hr r' (List.mem_cons_of_mem _ hr')) hbest'
    refine ⟨?_, ?_, ?_⟩
    · intro r' hr'
      rw [rules_selectFrom_cons] at hr'
      rcases List.mem_cons.mp hr' with rfl | hr'
      · exact hc.remembers
      · exact hs.remembers r' hr'
    · simp [selectFrom, hc.strays, hs.strays]
    · intro pick h
      rcases hs.pick h with h | ⟨hmem, hfits⟩
      · rcases hc.pick h with h | ⟨hactive, hfits⟩
        · exact Or.inl h
        · exact Or.inr ⟨hactive ▸ List.mem_cons_self, hfits⟩
      · exact Or.inr ⟨List.mem_cons_of_mem _ hmem, hfits⟩

def AllRemember (rules : List Contender) (offset stop : Nat) : Prop := ∀ r ∈ rules, r.cursor.Remembers offset stop

theorem selected_select (he : engine.Bounded) {rules : List Contender}
    (hr : AllRemember rules offset (offset + text.length)) :
    Selected rules none offset (offset + text.length) (select engine offset text rules) :=
  selected_selectFrom he hr fun _ h => by cases h

end
end Highlight.Tokenizer
