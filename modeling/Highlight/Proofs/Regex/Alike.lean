import Highlight.Regex.Match

/-! Attempts at places of two texts that look alike: the texts have the same character before the place and are the same
    from there on. Both engines find the same, unless the pattern looks further back. Two runs are taken side by side: from
    places that look alike they come to places that look alike, and note places that look alike (`Plain.alike_run`,
    `Tree.alike_run`). -/

namespace Highlight.Regex

/-- Two places with the same character before and the same text behind, of which no more than `reach` characters are left. -/
inductive Place.Alike (reach : Nat) : Place → Place → Prop
  | mk {c : Char} {before before' after : List Char} {left : Nat} :
      left ≤ reach → Alike reach ⟨c :: before, after, left⟩ ⟨c :: before', after, left⟩

/-- The same slots are filled, and with places that look alike. -/
structure SlotsAlike (reach : Nat) (slots slots' : Slots) : Prop where
  size : slots'.size = slots.size
  get : ∀ i, Option.Rel (Place.Alike reach) (slots.getD i none) (slots'.getD i none)

/-- Two attempts end in the same way, where `U` compares what they have used up. -/
inductive Outcome.Alike {ρ : Type} (reach : Nat) (U : ρ → ρ → Prop) : Outcome ρ → Outcome ρ → Prop
  | found {q q' : Place} {slots slots' : Slots} {r r' : ρ} : Place.Alike reach q q' → SlotsAlike reach slots slots' →
      U r r' → Alike reach U (.found q slots r) (.found q' slots' r')
  | failed {r r' : ρ} : U r r' → Alike reach U (.failed r) (.failed r')
  | exceeded : Alike reach U .exceeded .exceeded

/-- Going on from places that look alike ends in the same way. -/
def RestAlike {ρ : Type} (reach : Nat) (U : ρ → ρ → Prop) (k k' : Place → Slots → ρ → Outcome ρ) : Prop :=
  ∀ {p p' slots slots' r r'}, Place.Alike reach p p' → SlotsAlike reach slots slots' → U r r' →
    (k p slots r).Alike reach U (k' p' slots' r')

section
variable {reach : Nat} {p p' : Place} {slots slots' : Slots}

theorem Place.Alike.left (h : Alike reach p p') : p'.left = p.left := by
  cases h
  rfl

theorem Place.Alike.le (h : Alike reach p p') : p.left ≤ reach := by
  cases h
  assumption

theorem Place.Alike.step {d : Char} {before before' after : List Char} {left : Nat}
    (h : Alike reach ⟨before, d :: after, left⟩ ⟨before', d :: after, left⟩) :
    Alike reach ⟨d :: before, after, left - 1⟩ ⟨d :: before', after, left - 1⟩ :=
  .mk (Nat.le_trans (Nat.sub_le _ _) h.le)

theorem SlotsAlike.set {i : Nat} {v v' : Option Place} (h : SlotsAlike reach slots slots')
    (hv : Option.Rel (Place.Alike reach) v v') : SlotsAlike reach (slots.set! i v) (slots'.set! i v') where
  size := by simpa using h.size
  get j := by
    have hget := h.get j
    simp only [Array.getD_eq_getD_getElem?, Array.set!_eq_setIfInBounds, Array.getElem?_setIfInBounds, h.size] at hget ⊢
    by_cases hij : i = j
    · subst hij
      by_cases hi : i < slots.size
      · simpa [hi] using hv
      · simp [hi]
    · simpa [hij] using hget

theorem SlotsAlike.place {i : Nat} (h : SlotsAlike reach slots slots') (hp : Place.Alike reach p p') :
    SlotsAlike reach (slots.set! i (some p)) (slots'.set! i (some p')) := h.set (.some hp)

theorem slotsAlike_replicate (n : Nat) : SlotsAlike reach (Array.replicate n none) (Array.replicate n none) where
  size := rfl
  get i := by
    have hnone : (Array.replicate n (none : Option Place)).getD i none = none := by
      rw [Array.getD_eq_getD_getElem?, Array.getElem?_replicate]
      split <;> rfl
    rw [hnone]
    exact .none

theorem SlotsAlike.forget (h : SlotsAlike reach slots slots') (first stop : Nat) :
    SlotsAlike reach (Tree.forgetGroups slots first stop) (Tree.forgetGroups slots' first stop) := by
  unfold Tree.forgetGroups
  generalize List.range (2 * (stop - first)) = is
  induction is generalizing slots slots' with
  | nil => exact h
  | cons i is ih => exact ih (h.set .none)

theorem SlotsAlike.groupText? (h : SlotsAlike reach slots slots') (index : Nat) :
    Tree.groupText? slots' index = Tree.groupText? slots index := by
  have hstart := h.get (2 * index)
  have hstop := h.get (2 * index + 1)
  unfold Tree.groupText?
  generalize slots.getD (2 * index) none = start at hstart
  generalize slots'.getD (2 * index) none = start' at hstart
  generalize slots.getD (2 * index + 1) none = stop at hstop
  generalize slots'.getD (2 * index + 1) none = stop' at hstop
  cases hstart with
  | none => rfl
  | some hstart =>
    cases hstop with
    | none => rfl
    | some hstop =>
      cases hstart
      cases hstop
      rfl

theorem Assertion.holds_alike (a : Assertion) (h : Place.Alike reach p p') : a.holds p' = a.holds p := by
  cases h
  cases a <;> rfl

theorem Place.Alike.skipText? {cs : List Char} (h : Alike reach p p') :
    Option.Rel (Alike reach) (p.skipText? cs) (p'.skipText? cs) := by
  induction cs generalizing p p' with
  | nil => exact .some h
  | cons c cs ih =>
    cases h with
    | @mk _ _ _ after left hle =>
      cases after with
      | nil => exact .none
      | cons d after =>
        unfold Place.skipText?
        split
        · exact ih (Alike.step (.mk hle))
        · exact .none

end

/-! ### Plain expressions -/

namespace Plain

/-- What was tried is compared by `U`, in such a way that the same parts count as tried at the places of the one text and of
    the other. -/
structure Tracks (reach : Nat) (U : Tried → Tried → Prop) : Prop where
  has : ∀ {t t' id left}, U t t' → left ≤ reach → t'.has id left = t.has id left
  add : ∀ {t t' id left}, U t t' → left ≤ reach → U (t.add id left) (t'.add id left)

theorem tracks_eq (reach : Nat) : Tracks reach Eq where
  has h _ := h ▸ rfl
  add h _ := h ▸ rfl

/-- The same parts were tried in two texts, as far as the places go that both have. -/
structure Tried.Same (reach : Nat) (t t' : Tried) : Prop where
  stride : reach < t.stride
  stride' : reach < t'.stride
  has : ∀ id left, left ≤ reach → t'.has id left = t.has id left

theorem Tried.has_add {t : Tried} {id left id' left' : Nat} (h : left < t.stride) (h' : left' < t.stride) :
    (t.add id left).has id' left' = (decide (id = id' ∧ left = left') || t.has id' left') := by
  have hkey : id * t.stride + left = id' * t.stride + left' ↔ id = id' ∧ left = left' := by
    constructor
    · intro heq
      have hid : id = id' := by
        have hdiv := congrArg (· / t.stride) heq
        simpa [Nat.add_comm, Nat.add_mul_div_right _ _ (Nat.zero_lt_of_lt h), Nat.div_eq_of_lt h, Nat.div_eq_of_lt h'] using hdiv
      subst hid
      exact ⟨rfl, Nat.add_left_cancel heq⟩
    · rintro ⟨rfl, rfl⟩
      rfl
  simp [has, add, Std.HashSet.contains_insert, ← hkey, Bool.beq_eq_decide_eq]

theorem tracks_same (reach : Nat) : Tracks reach (Tried.Same reach) where
  has h hle := h.has _ _ hle
  add h hle := by
    refine ⟨h.stride, h.stride', fun id' left' hle' => ?_⟩
    rw [Tried.has_add (Nat.lt_of_le_of_lt hle h.stride) (Nat.lt_of_le_of_lt hle' h.stride),
      Tried.has_add (Nat.lt_of_le_of_lt hle h.stride') (Nat.lt_of_le_of_lt hle' h.stride'), h.has _ _ hle']

theorem same_none {reach length length' : Nat} (h : reach ≤ length) (h' : reach ≤ length') :
    Tried.Same reach (.none length) (.none length') where
  stride := Nat.lt_succ_of_le h
  stride' := Nat.lt_succ_of_le h'
  has id left _ := by simp [Tried.has, Tried.none]

section
variable {reach : Nat} {U : Tried → Tried → Prop} (hU : Tracks reach U) {k k' : Rest} {slots slots' : Slots} {tried tried' : Tried}

theorem alike_orElse {first first' : Outcome Tried} {second second' : Tried → Outcome Tried} (h : first.Alike reach U first')
    (h' : ∀ {t t'}, U t t' → (second t).Alike reach U (second' t')) :
    (orElse first second).Alike reach U (orElse first' second') := by
  cases h with
  | found hq hs ht => exact .found hq hs ht
  | failed ht => exact h' ht
  | exceeded => exact .exceeded

include hU

theorem alike_rounds {id : Nat} {greedy : Bool} {body : Rest → Rest}
    (hbody : ∀ {k k'}, RestAlike reach U k k' → RestAlike reach U (body k) (body k')) (hk : RestAlike reach U k k')
    (fuel : Nat) : RestAlike reach U (rounds id greedy body k fuel) (rounds id greedy body k' fuel) := by
  induction fuel with
  | zero => exact fun _ _ ht => .failed ht
  | succ fuel ih =>
    intro p p' slots slots' tried tried' hp hs ht
    unfold rounds
    rw [hp.left, hU.has ht hp.le]
    split
    · exact .failed ht
    · refine hbody (fun hq hs ht => ?_) hp hs (hU.add ht hp.le)
      dsimp only
      rw [hq.left, hU.has ht hq.le]
      split
      · exact .failed ht
      · have ht' := @Tracks.add _ _ hU _ _ (id + 1) _ ht hq.le
        split
        · exact alike_orElse (ih hq hs ht') (hk hq hs)
        · exact alike_orElse (hk hq hs ht') (ih hq hs)

theorem alike_run (e : Plain) (hk : RestAlike reach U k k') : RestAlike reach U (e.run k) (e.run k') := by
  induction e generalizing k k' with
  | empty => exact hk
  | one set =>
    intro p p' slots slots' tried tried' hp hs ht
    cases hp with
    | @mk _ _ _ after _ hle =>
      unfold run
      cases after with
      | nil => exact .failed ht
      | cons c after =>
        dsimp only
        split
        · exact hk (Place.Alike.step (.mk hle)) hs ht
        · exact .failed ht
  | assertion a =>
    intro p p' slots slots' tried tried' hp hs ht
    unfold run
    rw [a.holds_alike hp]
    split
    · exact hk hp hs ht
    · exact .failed ht
  | seq a b iha ihb => exact iha (ihb hk)
  | alt id a b iha ihb =>
    intro p p' slots slots' tried tried' hp hs ht
    unfold run
    rw [hp.left, hU.has ht hp.le]
    split
    · exact .failed ht
    · exact alike_orElse (iha hk hp hs (hU.add ht hp.le)) (ihb hk hp hs)
  | group index body ih =>
    intro p p' slots slots' tried tried' hp hs ht
    exact ih (fun hq hs ht => hk hq (hs.place hq) ht) hp (hs.place hp) ht
  | loop id body greedy ih =>
    intro p p' slots slots' tried tried' hp hs ht
    unfold run
    rw [hp.left]
    exact alike_rounds hU ih hk _ hp hs ht

theorem alike_matchAt (e : Plain) {p p' : Place} (hp : p.Alike reach p') (hs : SlotsAlike reach slots slots') (ht : U tried tried') :
    (e.matchAt slots p tried).Alike reach U (e.matchAt slots' p' tried') :=
  alike_run hU e (fun hq hs ht => .found hq hs ht) hp hs ht

/-- Two matches that were found start and end at places that look alike. -/
structure FoundAlike (reach : Nat) (m m' : Place × Place × Slots) : Prop where
  first : m.1.Alike reach m'.1
  last : m.2.1.Alike reach m'.2.1
  slots : SlotsAlike reach m.2.2 m'.2.2

theorem alike_search (e : Plain) {before before' after : List Char} {left : Nat}
    (hp : Place.Alike reach ⟨before, after, left⟩ ⟨before', after, left⟩) (hs : SlotsAlike reach slots slots')
    (ht : U tried tried') :
    Option.Rel (FoundAlike reach) (e.search slots before after left tried) (e.search slots' before' after left tried') := by
  induction after generalizing before before' left tried tried' with
  | nil =>
    have hmatch := alike_matchAt hU e hp hs ht
    unfold search
    generalize e.matchAt slots ⟨before, [], left⟩ tried = r at hmatch
    generalize e.matchAt slots' ⟨before', [], left⟩ tried' = r' at hmatch
    cases hmatch with
    | found hq hs _ => exact .some ⟨hp, hq, hs⟩
    | failed | exceeded => exact .none
  | cons c after ih =>
    have hmatch := alike_matchAt hU e hp hs ht
    unfold search
    generalize e.matchAt slots ⟨before, c :: after, left⟩ tried = r at hmatch
    generalize e.matchAt slots' ⟨before', c :: after, left⟩ tried' = r' at hmatch
    cases hmatch with
    | found hq hs _ => exact .some ⟨hp, hq, hs⟩
    | failed ht =>
      dsimp only
      split
      · exact .none
      · exact ih hp.step ht
    | exceeded => exact .none

end
end Plain

/-! ### Expressions with hard parts -/

namespace Tree

/-- Whether a part of the expression goes back over text. -/
def looksBack : Tree → Bool
  | look _ back body => decide (0 < back) || body.looksBack
  | seq a b | alt a b => a.looksBack || b.looksBack
  | group _ body | repeated body .. | repeatedEmpty body .. | atomic body => body.looksBack
  | conditional condition ifTrue ifFalse => condition.looksBack || ifTrue.looksBack || ifFalse.looksBack
  | empty | text _ | any _ | assertion _ | plain .. | backref _ | groupMatched _ | keepOut | searchStart => false

/-- Two searches may fail equally often, and the same of the places ahead lie behind where they began. -/
structure Limits.Alike (reach : Nat) (limits limits' : Limits) : Prop where
  failures : limits'.failures = limits.failures
  origin : ∀ left, left ≤ reach → (left < limits'.origin ↔ left < limits.origin)

section
variable {reach : Nat} {limits limits' : Limits} (hlimits : limits.Alike reach limits') {k k' : Rest} {p p' : Place}
  {slots slots' : Slots}

theorem alike_goOn {found found' : Option Place} {n : Nat} (hk : RestAlike reach Eq k k') (hs : SlotsAlike reach slots slots') :
    Option.Rel (Place.Alike reach) found found' → Outcome.Alike reach Eq
      (match found with
        | some q => k q slots n
        | none => .failed (n + 1))
      (match found' with
        | some q => k' q slots' n
        | none => .failed (n + 1)) := by
  rintro (hq | _)
  · exact hk hq hs rfl
  · exact .failed rfl

theorem alike_done : RestAlike reach Eq done done := fun hq hs hr => .found hq hs hr

include hlimits

theorem alike_limited {r r' : Outcome Nat} (h : r.Alike reach Eq r') (n : Nat) :
    Outcome.Alike reach Eq (if n > limits.failures then .exceeded else r) (if n > limits'.failures then .exceeded else r') := by
  rw [hlimits.failures]
  split
  · exact .exceeded
  · exact h

theorem alike_orElse {first first' : Outcome Nat} {second second' : Nat → Outcome Nat} (h : first.Alike reach Eq first')
    (h' : ∀ n, (second n).Alike reach Eq (second' n)) :
    (orElse limits first second).Alike reach Eq (orElse limits' first' second') := by
  cases h with
  | found hq hs hr => exact .found hq hs hr
  | failed hr =>
    subst hr
    exact alike_limited hlimits (h' _) _
  | exceeded => exact .exceeded

theorem alike_rounds {least : Nat} {greedy : Bool} {body body' : Rest → Rest}
    (hbody : ∀ {k k'}, RestAlike reach Eq k k' → RestAlike reach Eq (body k) (body' k')) (hk : RestAlike reach Eq k k')
    (fuel count : Nat) :
    RestAlike reach Eq (rounds limits least greedy body k fuel count) (rounds limits' least greedy body' k' fuel count) := by
  induction fuel generalizing count with
  | zero => exact hk
  | succ fuel ih =>
    intro p p' slots slots' n _ hp hs hn
    subst hn
    have hmore := fun n => hbody (ih (count + 1)) hp hs (rfl : n = n)
    unfold rounds
    split
    · exact hmore n
    · split
      · exact alike_orElse hlimits (hmore n) fun n => hk hp hs rfl
      · exact alike_orElse hlimits (hk hp hs rfl) hmore

theorem alike_roundsEmpty {least mark : Nat} {greedy : Bool} {body body' : Rest → Rest}
    (hbody : ∀ {k k'}, RestAlike reach Eq k k' → RestAlike reach Eq (body k) (body' k')) (hk : RestAlike reach Eq k k')
    (fuel count : Nat) : RestAlike reach Eq (roundsEmpty limits least greedy mark body k fuel count)
      (roundsEmpty limits' least greedy mark body' k' fuel count) := by
  induction fuel generalizing count with
  | zero => exact fun _ _ hn => .failed (congrArg (· + 1) hn)
  | succ fuel ih =>
    intro p p' slots slots' n _ hp hs hn
    subst hn
    have hmark : (slots'.getD mark none).any (·.left == p'.left) = (slots.getD mark none).any (·.left == p.left) := by
      have hget := hs.get mark
      generalize slots.getD mark none = known at hget
      generalize slots'.getD mark none = known' at hget
      cases hget with
      | none => rfl
      | some hq => simp only [Option.any_some, hq.left, hp.left]
    unfold roundsEmpty
    rw [hmark]
    split
    · exact .failed rfl
    · split
      · exact hbody (ih (count + 1)) hp hs rfl
      · have hmore := fun n => hbody (ih (count + 1)) hp (hs.place (i := mark) hp) (rfl : n = n)
        have hend := fun n => hk hp (hs.place (i := mark) hp) (rfl : n = n)
        dsimp only
        split
        · exact alike_orElse hlimits (hmore n) hend
        · exact alike_orElse hlimits (hend n) hmore

/-! One lemma for each expression that runs another to its end. -/

omit hlimits in
theorem alike_plain (e : Plain) (first stop : Nat) (hk : RestAlike reach Eq k k') :
    RestAlike reach Eq ((plain e first stop).run limits k) ((plain e first stop).run limits' k') := by
  intro p p' slots slots' n _ hp hs hn
  subst hn
  have hmatch := Plain.alike_matchAt (Plain.tracks_eq reach) e hp (hs.forget first stop)
    (congrArg Plain.Tried.none hp.left.symm)
  unfold run
  generalize e.matchAt (forgetGroups slots first stop) p (.none p.left) = r at hmatch
  generalize e.matchAt (forgetGroups slots' first stop) p' (.none p'.left) = r' at hmatch
  cases hmatch with
  | found hq hs _ => exact hk hq hs rfl
  | failed | exceeded => exact .failed rfl

omit hlimits in
theorem alike_atomic {body : Tree} (hbody : RestAlike reach Eq (body.run limits done) (body.run limits' done))
    (hk : RestAlike reach Eq k k') :
    RestAlike reach Eq ((atomic body).run limits k) ((atomic body).run limits' k') := by
  intro p p' slots slots' n n' hp hs hn
  have hend := hbody hp hs hn
  unfold run
  generalize body.run limits done p slots n = r at hend
  generalize body.run limits' done p' slots' n' = r' at hend
  cases hend with
  | found hq hs hn => exact hk hq hs hn
  | failed hn => exact .failed hn
  | exceeded => exact .exceeded

theorem alike_lookNot {body : Tree} (hbody : RestAlike reach Eq (body.run limits done) (body.run limits' done))
    (hk : RestAlike reach Eq k k') :
    RestAlike reach Eq ((look true 0 body).run limits k) ((look true 0 body).run limits' k') := by
  intro p p' slots slots' n n' hp hs hn
  have hend := hbody hp hs hn
  unfold run
  dsimp only [Place.back?]
  generalize body.run limits done p slots n = r at hend
  generalize body.run limits' done p' slots' n' = r' at hend
  cases hend with
  | found _ _ hn => exact .failed (congrArg (· + 1) hn)
  | failed hn =>
    subst hn
    exact alike_limited hlimits (hk hp hs rfl) _
  | exceeded => exact .exceeded

theorem alike_conditional {condition ifTrue ifFalse : Tree}
    (hcondition : RestAlike reach Eq (condition.run limits done) (condition.run limits' done))
    (htrue : RestAlike reach Eq (ifTrue.run limits k) (ifTrue.run limits' k'))
    (hfalse : RestAlike reach Eq (ifFalse.run limits k) (ifFalse.run limits' k')) :
    RestAlike reach Eq ((conditional condition ifTrue ifFalse).run limits k)
      ((conditional condition ifTrue ifFalse).run limits' k') := by
  intro p p' slots slots' n n' hp hs hn
  have hend := hcondition hp hs hn
  unfold run
  generalize condition.run limits done p slots n = r at hend
  generalize condition.run limits' done p' slots' n' = r' at hend
  cases hend with
  | found hq hs hn => exact htrue hq hs hn
  | failed hn =>
    subst hn
    exact alike_limited hlimits (hfalse hp hs rfl) _
  | exceeded => exact .exceeded

/-- An expression that goes back over no text runs alike at places that look alike. The induction is on the expression,
    for all that can follow it. -/
theorem alike_run {e : Tree} (he : e.looksBack = false) (hk : RestAlike reach Eq k k') :
    RestAlike reach Eq (e.run limits k) (e.run limits' k') := by
  induction e generalizing k k' with
  | empty => exact hk
  | text cs =>
    intro p p' slots slots' n _ hp hs hn
    subst hn
    exact alike_goOn hk hs hp.skipText?
  | any newline =>
    intro p p' slots slots' n _ hp hs hn
    subst hn
    cases hp with
    | @mk _ _ _ after _ hle =>
      unfold run
      cases after with
      | nil => exact .failed rfl
      | cons c after =>
        dsimp only
        split
        · exact hk (Place.Alike.step (.mk hle)) hs rfl
        · exact .failed rfl
  | assertion a =>
    intro p p' slots slots' n _ hp hs hn
    subst hn
    unfold run
    rw [a.holds_alike hp]
    split
    · exact hk hp hs rfl
    · exact .failed rfl
  | plain e first stop => exact alike_plain e first stop hk
  | seq a b iha ihb =>
    obtain ⟨ha, hb⟩ := Bool.or_eq_false_iff.mp he
    exact iha ha (ihb hb hk)
  | alt a b iha ihb =>
    obtain ⟨ha, hb⟩ := Bool.or_eq_false_iff.mp he
    intro p p' slots slots' n _ hp hs hn
    exact alike_orElse hlimits (iha ha hk hp hs hn) fun n => ihb hb hk hp hs rfl
  | group index body ih =>
    intro p p' slots slots' n _ hp hs hn
    exact ih he (fun hq hs hn => hk hq (hs.place hq) hn) hp (hs.place hp) hn
  | repeated body least most greedy ih =>
    intro p p' slots slots' n _ hp hs hn
    unfold run
    rw [hp.left]
    exact alike_rounds hlimits (ih he) hk _ _ hp hs hn
  | repeatedEmpty body least greedy mark ih =>
    intro p p' slots slots' n _ hp hs hn
    unfold run
    rw [hp.left]
    exact alike_roundsEmpty hlimits (ih he) hk _ _ hp hs hn
  | look negative back body ih =>
    obtain ⟨hback, hbody⟩ := Bool.or_eq_false_iff.mp he
    obtain rfl : back = 0 := Nat.eq_zero_of_not_pos (of_decide_eq_false hback)
    cases negative with
    | false =>
      intro p p' slots slots' n _ hp hs hn
      exact ih hbody (fun _ hs hn => hk hp hs hn) hp hs hn
    | true => exact alike_lookNot hlimits (ih hbody alike_done) hk
  | atomic body ih => exact alike_atomic (ih he alike_done) hk
  | backref index =>
    intro p p' slots slots' n _ hp hs hn
    subst hn
    unfold run
    rw [hs.groupText?]
    cases groupText? slots index with
    | none => exact .failed rfl
    | some cs => exact alike_goOn hk hs hp.skipText?
  | groupMatched index =>
    intro p p' slots slots' n _ hp hs hn
    subst hn
    have hget := hs.get (2 * index)
    unfold run
    generalize slots.getD (2 * index) none = start at hget
    generalize slots'.getD (2 * index) none = start' at hget
    cases hget with
    | some => exact hk hp hs rfl
    | none => exact .failed rfl
  | keepOut =>
    intro p p' slots slots' n _ hp hs hn
    exact hk hp (hs.place hp) hn
  | searchStart =>
    intro p p' slots slots' n _ hp hs hn
    subst hn
    unfold run
    simp only [hp.left, hlimits.origin p.left hp.le]
    split
    · exact .failed rfl
    · exact hk hp hs rfl
  | conditional condition ifTrue ifFalse ihc iht ihf =>
    obtain ⟨hct, hf⟩ := Bool.or_eq_false_iff.mp he
    obtain ⟨hc, ht⟩ := Bool.or_eq_false_iff.mp hct
    exact alike_conditional hlimits (ihc hc alike_done) (iht ht hk) (ihf hf hk)

theorem alike_matchAt {e : Tree} (he : e.looksBack = false) (hp : p.Alike reach p') (hs : SlotsAlike reach slots slots') (n : Nat) :
    (e.matchAt limits slots p n).Alike reach Eq (e.matchAt limits' slots' p' n) :=
  alike_run (e := .group 0 e) hlimits he alike_done hp hs rfl

theorem alike_search {e : Tree} (he : e.looksBack = false) {before before' after : List Char} {left : Nat}
    (hp : Place.Alike reach ⟨before, after, left⟩ ⟨before', after, left⟩) (hs : SlotsAlike reach slots slots') (n : Nat) :
    (e.search limits slots before after left n).Alike reach Eq (e.search limits' slots' before' after left n) := by
  induction after generalizing before before' left n with
  | nil => exact alike_orElse hlimits (alike_matchAt hlimits he hp hs n) fun n => .failed rfl
  | cons c after ih =>
    have hmatch := alike_matchAt hlimits he hp hs n
    unfold search
    generalize e.matchAt limits slots ⟨before, c :: after, left⟩ n = r at hmatch
    generalize e.matchAt limits' slots' ⟨before', c :: after, left⟩ n = r' at hmatch
    cases hmatch with
    | found hq hs hn => exact .found hq hs hn
    | @failed n _ hn =>
      subst hn
      refine alike_limited hlimits ?_ n
      split
      · exact alike_limited hlimits (.failed rfl) _
      · exact ih hp.step n
    | exceeded => exact .exceeded

end
end Tree
end Highlight.Regex
