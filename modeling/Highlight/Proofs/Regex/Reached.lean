import Highlight.Proofs.Regex.Numbering

/-! Where an attempt at a match leads. It goes back over no text, and where the match starts stays noted as it was,
    unless the pattern moves the start. Both engines match a part and then go on with what follows; so what is said of a
    part is that it goes on from a place that it reaches. -/

namespace Highlight.Regex

/-- From a place with its slots an attempt comes to another: no character has been given back, and the slots are the
    same as to their number and the start of the whole match. -/
structure Reached (p : Place) (slots : Slots) (q : Place) (slots' : Slots) : Prop where
  left : q.left ≤ p.left
  size : slots'.size = slots.size
  start : slots'.getD 0 none = slots.getD 0 none

/-- If the outcome is a match, it has the property `G`. -/
def Outcome.Ends {ρ : Type} (G : Place → Slots → Prop) : Outcome ρ → Prop
  | found q slots _ => G q slots
  | failed _ | exceeded => True

/-- From every place that is reached from here, going on ends in `G` if it ends in a match. -/
def GoesOn {ρ : Type} (G : Place → Slots → Prop) (k : Place → Slots → ρ → Outcome ρ) (p : Place)
    (slots : Slots) : Prop :=
  ∀ q slots', Reached p slots q slots' → ∀ r, (k q slots' r).Ends G

section
variable {ρ : Type} {G : Place → Slots → Prop} {k : Place → Slots → ρ → Outcome ρ}
  {p q : Place} {slots slots' slots'' : Slots}

theorem Reached.refl (p : Place) (slots : Slots) : Reached p slots p slots := ⟨Nat.le_refl _, rfl, rfl⟩

theorem Reached.trans {r : Place} (h : Reached p slots q slots') (h' : Reached q slots' r slots'') :
    Reached p slots r slots'' :=
  ⟨Nat.le_trans h'.left h.left, h'.size.trans h.size, h'.start.trans h.start⟩

theorem Reached.set {i : Nat} {value : Option Place} (h : Reached p slots q slots') (hi : i ≠ 0) :
    Reached p slots q (slots'.set! i value) where
  left := h.left
  size := by simpa using h.size
  start := by simpa [Array.getD_eq_getD_getElem?, Array.getElem?_setIfInBounds, hi] using h.start

theorem Reached.forget {first stop : Nat} (h : Reached p slots q slots') (hfirst : 0 < first ∨ stop = first) :
    Reached p slots q (Tree.forgetGroups slots' first stop) := by
  unfold Tree.forgetGroups
  rcases hfirst with hfirst | rfl
  · generalize List.range (2 * (stop - first)) = is
    induction is generalizing slots' with
    | nil => exact h
    | cons i is ih => exact ih (h.set (by omega))
  · rw [Nat.sub_self]
    exact h

theorem GoesOn.here (h : GoesOn G k p slots) (r : ρ) : (k p slots r).Ends G := h p slots (.refl p slots) r

theorem GoesOn.from (h : GoesOn G k p slots) (hq : Reached p slots q slots') : GoesOn G k q slots' :=
  fun q' slots'' hq' => h q' slots'' (hq.trans hq')

/-- An attempt may end where it is. -/
theorem goesOn_found : GoesOn (Reached p slots) (fun q slots (r : ρ) => .found q slots r) p slots := fun _ _ hq _ => hq

end

/-! ### Plain expressions -/

namespace Plain

section
variable {G : Place → Slots → Prop} {k : Rest} {p : Place} {slots : Slots}

theorem ends_orElse {first : Outcome Tried} {second : Tried → Outcome Tried} (h : first.Ends G)
    (h' : ∀ tried, (second tried).Ends G) : (orElse first second).Ends G := by
  cases first with
  | failed tried => exact h' tried
  | found | exceeded => exact h

theorem ends_rounds {id : Nat} {greedy : Bool} {body : Rest → Rest}
    (hbody : ∀ k p slots, GoesOn G k p slots → ∀ tried, (body k p slots tried).Ends G)
    (hk : GoesOn G k p slots) (fuel : Nat) (tried : Tried) :
    (rounds id greedy body k fuel p slots tried).Ends G := by
  induction fuel generalizing p slots tried with
  | zero => trivial
  | succ fuel ih =>
    unfold rounds
    split
    · trivial
    · refine hbody _ p slots (fun q slots' hq tried => ?_) _
      dsimp only
      have hmore := ih (hk.from hq)
      have hnone := hk q slots' hq
      split
      · trivial
      · split
        · exact ends_orElse (hmore _) hnone
        · exact ends_orElse (hnone _) hmore

theorem ends_run {e : Plain} (he : e.Numbered) (hk : GoesOn G k p slots) (tried : Tried) :
    (e.run k p slots tried).Ends G := by
  induction e generalizing k p slots tried with
  | empty => exact hk.here tried
  | one set =>
    unfold run
    split
    · trivial
    · split
      · exact hk _ _ ⟨Nat.sub_le _ _, rfl, rfl⟩ tried
      · trivial
  | assertion a =>
    unfold run
    split
    · exact hk.here tried
    · trivial
  | seq a b iha ihb => exact iha he.1 (fun q slots' hq => ihb he.2 (hk.from hq)) tried
  | alt id a b iha ihb =>
    unfold run
    split
    · trivial
    · exact ends_orElse (iha he.1 hk _) fun tried => ihb he.2 hk tried
  | group index body ih =>
    obtain ⟨hindex, hbody⟩ := he
    refine ih hbody (fun q slots' hq tried => ?_) tried
    exact hk q _ (((Reached.refl p slots).set (by omega)).trans hq |>.set (by omega)) tried
  | loop id body greedy ih => exact ends_rounds (fun k p slots hk => ih he hk) hk _ tried

theorem ends_matchAt {e : Plain} (he : e.Numbered) (tried : Tried) : (e.matchAt slots p tried).Ends (Reached p slots) :=
  ends_run he goesOn_found tried

end
end Plain

/-! ### Expressions with hard parts -/

theorem Place.left_of_skipText? {cs : List Char} {p q : Place} (h : p.skipText? cs = some q) : q.left ≤ p.left := by
  fun_induction Place.skipText? cs p with
  | case1 => exact Option.some.inj h ▸ Nat.le_refl _
  | case2 c cs before d after left _ ih => exact Nat.le_trans (ih h) (Nat.sub_le _ _)
  | case3 => cases h
  | case4 => cases h

namespace Tree

/-- Whether a part of the expression moves the start of the match. -/
def movesStart : Tree → Bool
  | keepOut => true
  | seq a b | alt a b => a.movesStart || b.movesStart
  | group _ body | repeated body .. | repeatedEmpty body .. | look _ _ body | atomic body => body.movesStart
  | conditional condition ifTrue ifFalse => condition.movesStart || ifTrue.movesStart || ifFalse.movesStart
  | empty | text _ | any _ | assertion _ | plain .. | backref _ | groupMatched _ | searchStart => false

section
variable {limits : Limits} {G : Place → Slots → Prop} {k : Rest} {p : Place} {slots : Slots}

theorem ends_orElse {first : Outcome Nat} {second : Nat → Outcome Nat} (h : first.Ends G)
    (h' : ∀ n, (second n).Ends G) : (orElse limits first second).Ends G := by
  cases first with
  | failed n =>
    show Outcome.Ends G (if n > limits.failures then .exceeded else second n)
    split
    · trivial
    · exact h' n
  | found | exceeded => exact h

theorem ends_rounds {least : Nat} {greedy : Bool} {body : Rest → Rest}
    (hbody : ∀ k p slots, GoesOn G k p slots → ∀ n, (body k p slots n).Ends G)
    (hk : GoesOn G k p slots) (fuel count n : Nat) :
    (rounds limits least greedy body k fuel count p slots n).Ends G := by
  induction fuel generalizing count p slots n with
  | zero => exact hk.here n
  | succ fuel ih =>
    have hmore := hbody (rounds limits least greedy body k fuel (count + 1)) p slots
      fun q slots' hq n => ih (hk.from hq) _ n
    unfold rounds
    split
    · exact hmore n
    · split
      · exact ends_orElse (hmore n) hk.here
      · exact ends_orElse (hk.here n) hmore

theorem ends_roundsEmpty {least mark : Nat} {greedy : Bool} {body : Rest → Rest} (hmark : 2 ≤ mark)
    (hbody : ∀ k p slots, GoesOn G k p slots → ∀ n, (body k p slots n).Ends G)
    (hk : GoesOn G k p slots) (fuel count n : Nat) :
    (roundsEmpty limits least greedy mark body k fuel count p slots n).Ends G := by
  induction fuel generalizing count p slots n with
  | zero => trivial
  | succ fuel ih =>
    have hmore : ∀ slots', Reached p slots p slots' → ∀ n,
        (body (roundsEmpty limits least greedy mark body k fuel (count + 1)) p slots' n).Ends G := by
      intro slots' hslots' n
      exact hbody _ p slots' (fun q slots'' hq n => ih (hk.from (hslots'.trans hq)) _ n) n
    unfold roundsEmpty
    split
    · trivial
    · split
      · exact hmore slots (.refl p slots) n
      · have hmarked : Reached p slots p (slots.set! mark (some p)) := (Reached.refl p slots).set (by omega)
        have hend := (hk.from hmarked).here
        dsimp only
        split
        · exact ends_orElse (hmore _ hmarked n) hend
        · exact ends_orElse (hend n) (hmore _ hmarked)

theorem ends_run {e : Tree} (he : e.Numbered) (hmoves : e.movesStart = false) (hk : GoesOn G k p slots) (n : Nat) :
    (e.run limits k p slots n).Ends G := by
  induction e generalizing G k p slots n with
  | empty => exact hk.here n
  | text cs =>
    unfold run
    split
    · rename_i q hq
      exact hk q slots ⟨Place.left_of_skipText? hq, rfl, rfl⟩ n
    · trivial
  | any newline =>
    unfold run
    split
    · trivial
    · split
      · exact hk _ _ ⟨Nat.sub_le _ _, rfl, rfl⟩ n
      · trivial
  | assertion a =>
    unfold run
    split
    · exact hk.here n
    · trivial
  | plain e first stop =>
    have hmatch := @Plain.ends_matchAt p (forgetGroups slots first stop) e he.1 (.none p.left)
    unfold run
    split
    · rename_i q slots' tried hfound
      rw [hfound] at hmatch
      exact hk q slots' (((Reached.refl p slots).forget he.2).trans hmatch) n
    · trivial
  | seq a b iha ihb =>
    obtain ⟨ha, hb⟩ := Bool.or_eq_false_iff.mp hmoves
    exact iha he.1 ha (fun q slots' hq => ihb he.2 hb (hk.from hq)) n
  | alt a b iha ihb =>
    obtain ⟨ha, hb⟩ := Bool.or_eq_false_iff.mp hmoves
    exact ends_orElse (iha he.1 ha hk n) (ihb he.2 hb hk)
  | group index body ih =>
    obtain ⟨hindex, hbody⟩ := he
    refine ih hbody hmoves (fun q slots' hq n => ?_) n
    exact hk q _ (((Reached.refl p slots).set (by omega)).trans hq |>.set (by omega)) n
  | repeated body least most greedy ih => exact ends_rounds (fun k p slots hk => ih he hmoves hk) hk _ _ n
  | repeatedEmpty body least greedy mark ih =>
    exact ends_roundsEmpty he.1 (fun k p slots hk => ih he.2 hmoves hk) hk _ _ n
  | look negative back body ih =>
    cases negative with
    | false =>
      unfold run
      split
      · exact ih he hmoves (fun q slots' hq n => hk p slots' ⟨Nat.le_refl _, hq.size, hq.start⟩ n) n
      · trivial
    | true =>
      unfold run
      dsimp only
      split
      · trivial
      · split
        · trivial
        · exact hk.here _
      · trivial
  | atomic body ih =>
    have hbody : (body.run limits done p slots n).Ends (Reached p slots) := ih he hmoves goesOn_found n
    unfold run
    cases hrun : body.run limits done p slots n with
    | found q slots' n =>
      rw [hrun] at hbody
      exact hk q slots' hbody n
    | failed | exceeded => trivial
  | backref index =>
    unfold run
    split
    · rename_i q hq
      obtain ⟨cs, -, hq⟩ := Option.bind_eq_some_iff.mp hq
      exact hk q slots ⟨Place.left_of_skipText? hq, rfl, rfl⟩ n
    · trivial
  | groupMatched index =>
    unfold run
    split
    · exact hk.here n
    · trivial
  | keepOut => cases hmoves
  | searchStart =>
    unfold run
    split
    · trivial
    · exact hk.here n
  | conditional condition ifTrue ifFalse ihc iht ihf =>
    obtain ⟨hct, hf⟩ := Bool.or_eq_false_iff.mp hmoves
    obtain ⟨hc, ht⟩ := Bool.or_eq_false_iff.mp hct
    have hcondition : (condition.run limits done p slots n).Ends (Reached p slots) := ihc he.1 hc goesOn_found n
    unfold run
    cases hrun : condition.run limits done p slots n with
    | found q slots' n =>
      rw [hrun] at hcondition
      exact iht he.2.1 ht (hk.from hcondition) n
    | failed n =>
      dsimp only
      split
      · trivial
      · exact ihf he.2.2 hf hk n
    | exceeded => trivial

/-- A match that is found at a place is noted as starting there. -/
theorem ends_matchAt {e : Tree} (he : e.Numbered) (hmoves : e.movesStart = false) (hslots : 2 ≤ slots.size) (n : Nat) :
    (e.matchAt limits slots p n).Ends fun q slots' =>
      q.left ≤ p.left ∧ slots'.getD 0 none = some p ∧ slots'.getD 1 none = some q := by
  refine ends_run he hmoves (fun q slots' hq n => ?_) n
  have hstart : slots'.getD 0 none = some p := by
    rw [hq.start]
    simp [Array.getD_eq_getD_getElem?, Nat.lt_of_lt_of_le Nat.two_pos hslots]
  have hsize : 2 ≤ slots'.size := by
    rw [hq.size]
    simpa using hslots
  refine ⟨hq.left, ?_, ?_⟩
  · rw [← hstart]
    exact ((Reached.refl q slots').set Nat.one_ne_zero).start
  · simp [Array.getD_eq_getD_getElem?, Nat.lt_of_lt_of_le Nat.one_lt_two hsize]

end
end Tree
end Highlight.Regex
