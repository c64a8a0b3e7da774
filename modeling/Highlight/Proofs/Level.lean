import Highlight.Proofs.Offsets
import Highlight.Proofs.Selection

/-! Splitting a level. A level is split in turns: a turn takes a match, and the text before it becomes plain
    text; when no match is left, the rest becomes plain text. `Split` describes the turns with the parts that
    the text falls into, and what holds of every level is shown by induction on it. -/

namespace Highlight

/-- Nothing but warnings is given on the way to the value: no cut strays, and the value is reached. -/
structure Logged.Smooth {α : Type} (x : Logged α) : Prop where
  strays : x.strays = []
  endless : x.endless = false

theorem Logged.Smooth.eq {α : Type} {x : Logged α} (h : x.Smooth) : x = ⟨x.value, x.warnings, [], false⟩ := by
  obtain ⟨value, ws, strays, endless⟩ := x
  obtain ⟨rfl, rfl⟩ := h
  rfl

theorem Logged.Smooth.bind {α β : Type} {x : Logged α} {f : α → Logged β} (hx : x.Smooth) (hf : (f x.value).Smooth) :
    (x >>= f).Smooth :=
  ⟨by rw [strays_bind, hx.strays, hf.strays, List.append_nil], by rw [endless_bind, hx.endless, hf.endless, Bool.or_false]⟩

namespace Tokenizer
open RuleCursor

/-- The text from `offset` on as plain text. -/
def remainder (offset : Nat) (text : List Char) : Token :=
  Token.plain (String.ofList text) ⟨offset, offset + text.length⟩

/-- The turns in which the text from `offset` on is split, and what comes of them. -/
inductive Split (engine : Engine) (inside : ActiveRule → List Char → Logged Content) (bytes : Nat → Nat) :
    List Contender → Nat → List Char → Logged (List Token) → Prop
  | done {rules offset} : Split engine inside bytes rules offset [] (pure [])
  | rest {rules rules' offset text} : text ≠ [] → (select engine offset text rules).value = (rules', none) →
      Split engine inside bytes rules offset text
        ⟨[remainder offset text], ((select engine offset text rules).mapOffsets bytes).warnings, [],
          (select engine offset text rules).endless⟩
  | turn {rules rules' offset gap matched back pick after} : matched ≠ [] →
      (select engine offset (gap ++ (matched ++ back)) rules).value = (rules', some pick) →
      rules'.map (·.active) = rules.map (·.active) → pick.active ∈ rules.map (·.active) →
      pick.found.start = offset + gap.length → pick.found.stop = offset + gap.length + matched.length →
      Split engine inside bytes rules' pick.found.stop back after →
      Split engine inside bytes rules offset (gap ++ (matched ++ back))
        ⟨plainBefore offset pick.found.start gap ++
            tokenOf pick.active pick.found (inside pick.active matched).value :: after.value,
          ((select engine offset (gap ++ (matched ++ back)) rules).mapOffsets bytes).warnings ++
            ((inside pick.active matched).warnings ++ after.warnings),
          (inside pick.active matched).strays ++ after.strays,
          (select engine offset (gap ++ (matched ++ back)) rules).endless ||
            ((inside pick.active matched).endless || after.endless)⟩

/-- A candidate in a text parts the text into what stands before its token, the token and the rest. -/
theorem parts_of_fits {c : Candidate} {offset : Nat} {text : List Char} (h : c.Fits offset (offset + text.length)) :
    ∃ gap matched back, text = gap ++ (matched ++ back) ∧ matched ≠ [] ∧ c.start = offset + gap.length ∧
      c.stop = offset + gap.length + matched.length := by
  obtain ⟨h1, h2, h3⟩ := h
  have hlen : (slice text ⟨c.start - offset, c.stop - offset⟩).length = c.stop - c.start := by
    simp only [slice, List.length_take, List.length_drop]
    omega
  have hat : HasAt List.length text ⟨c.start - offset, c.stop - offset⟩ (slice text _) :=
    hasAt_slice (by simp only; omega) (by simp only; omega)
  obtain ⟨gap, back, htext, hgap, hmatched⟩ := hat
  simp only at hgap hmatched
  refine ⟨gap, _, back, htext, ?_, by omega, by omega⟩
  rw [← List.length_pos_iff]
  omega

section
variable {engine : Engine} {inside : ActiveRule → List Char → Logged Content} {bytes : Nat → Nat}
  {rules rules' : List Contender} {offset : Nat}

theorem steps_of_none {text : List Char} (hne : text ≠ [])
    (hv : (select engine offset text rules).value = (rules', none)) :
    steps engine inside bytes rules offset text =
      ⟨[remainder offset text], ((select engine offset text rules).mapOffsets bytes).warnings,
        (select engine offset text rules).strays, (select engine offset text rules).endless⟩ := by
  obtain ⟨c, cs, rfl⟩ := List.exists_cons_of_ne_nil hne
  rw [steps]
  generalize select engine offset (c :: cs) rules = sel at hv ⊢
  obtain ⟨value, ws, strays, endless⟩ := sel
  simp only at hv
  subst hv
  simp [Logged.mk_bind, Logged.mapOffsets, remainder]

/-- The parts of a text before, in and behind a span. -/
theorem cuts_of_parts {gap matched : List Char} {start stop : Nat} (back : List Char)
    (hstart : start = offset + gap.length) (hstop : stop = offset + gap.length + matched.length) :
    slice (gap ++ (matched ++ back)) ⟨offset - offset, start - offset⟩ = gap ∧
      slice (gap ++ (matched ++ back)) ⟨start - offset, stop - offset⟩ = matched ∧
      (gap ++ (matched ++ back)).drop (stop - offset) = back := by
  subst hstart hstop
  rw [Nat.add_assoc, Nat.add_sub_cancel_left, Nat.add_sub_cancel_left, drop_parts, slice_append]
  simp [slice]

theorem steps_of_pick {gap matched back : List Char} {pick : Pick} (hne : matched ≠ [])
    (hv : (select engine offset (gap ++ (matched ++ back)) rules).value = (rules', some pick))
    (hstart : pick.found.start = offset + gap.length)
    (hstop : pick.found.stop = offset + gap.length + matched.length) :
    steps engine inside bytes rules offset (gap ++ (matched ++ back)) =
      let after := steps engine inside bytes rules' pick.found.stop back
      ⟨plainBefore offset pick.found.start gap ++
          tokenOf pick.active pick.found (inside pick.active matched).value :: after.value,
        ((select engine offset (gap ++ (matched ++ back)) rules).mapOffsets bytes).warnings ++
          ((inside pick.active matched).warnings ++ after.warnings),
        (select engine offset (gap ++ (matched ++ back)) rules).strays ++
          ((inside pick.active matched).strays ++ after.strays),
        (select engine offset (gap ++ (matched ++ back)) rules).endless ||
          ((inside pick.active matched).endless || after.endless)⟩ := by
  have hpos := List.length_pos_iff.mpr hne
  obtain ⟨c, cs, htext⟩ := List.exists_cons_of_ne_nil (l := gap ++ (matched ++ back)) (by simp [hne])
  obtain ⟨hgap, hmatched, hback⟩ := cuts_of_parts back hstart hstop
  rw [htext] at hgap hmatched hback
  have hlen : (c :: cs).length = gap.length + (matched.length + back.length) := by simp [← htext]
  have hcut1 : (Logged.cut offset (c :: cs) ⟨offset, pick.found.start⟩).strays = [] :=
    Logged.strays_cut (Nat.le_refl _) (by simp only; omega) (by simp only; omega)
  have hcut2 : (Logged.cut offset (c :: cs) ⟨pick.found.start, pick.found.stop⟩).strays = [] :=
    Logged.strays_cut (by simp only; omega) (by simp only; omega) (by simp only; omega)
  have hlt : offset < pick.found.stop := by omega
  rw [htext] at hv ⊢
  rw [steps]
  generalize select engine offset (c :: cs) rules = sel at hv ⊢
  obtain ⟨value, ws, strays, endless⟩ := sel
  simp only at hv
  subst hv
  obtain ⟨index, active, found⟩ := pick
  simp only [Logged.mk_bind, Logged.mapOffsets, if_pos hlt, Logged.value_bind, Logged.warnings_bind,
    Logged.strays_bind, Logged.endless_bind, Logged.value_cut, Logged.warnings_cut, Logged.endless_cut, hcut1, hcut2,
    hgap, hmatched, hback, Logged.value_pure, Logged.warnings_pure, Logged.strays_pure, Logged.endless_pure,
    List.nil_append, List.append_nil, Bool.false_or, Bool.or_false]

theorem split_steps (he : engine.Bounded) {text : List Char}
    (hr : AllRemember rules offset (offset + text.length)) :
    Split engine inside bytes rules offset text (steps engine inside bytes rules offset text) := by
  induction rules, offset, text using steps.induct with
  | case1 rules offset =>
    rw [steps]
    exact .done
  | case2 rules offset c cs text ih =>
    have hsel := selected_select he hr
    rcases hv : (select engine offset (c :: cs) rules).value with ⟨rules', _ | pick⟩
    · rw [steps_of_none (List.cons_ne_nil c cs) hv, hsel.strays]
      exact .rest (List.cons_ne_nil _ _) hv
    · obtain ⟨hmem, hfits⟩ : pick.active ∈ rules.map (·.active) ∧
          pick.found.Fits offset (offset + (c :: cs).length) := by
        rcases hsel.pick (by rw [hv]) with h | h
        · cases h
        · exact h
      have hactives := actives_select engine offset (c :: cs) rules
      rw [hv] at hactives
      obtain ⟨gap, matched, back, htext, hne, hstart, hstop⟩ := parts_of_fits hfits
      have hback : List.drop (pick.found.stop - offset) (c :: cs) = back := by
        rw [htext, hstop, Nat.add_assoc, Nat.add_sub_cancel_left, drop_parts]
      have ih' := ih rules' pick.found (Nat.lt_of_le_of_lt hfits.offset_le hfits.start_lt)
      have hlen : (c :: cs).length = gap.length + (matched.length + back.length) := by simp [htext]
      have hrules' : AllRemember rules' pick.found.stop (pick.found.stop + back.length) := by
        have hstop' : pick.found.stop + back.length = offset + (c :: cs).length := by omega
        rw [hstop']
        intro r hmem
        exact (hsel.remembers r (by rw [hv]; exact hmem)).later
          (Nat.le_of_lt (Nat.lt_of_le_of_lt hfits.offset_le hfits.start_lt))
      rw [hback] at ih'
      rw [htext] at hv hsel ⊢
      rw [steps_of_pick hne hv hstart hstop, hsel.strays]
      exact .turn hne hv hactives hmem hstart hstop (ih' hrules')

end

/-! ### Levels of a run -/

/-- The rules of a level with a grammar, those of its rest chain among them, in the order of their priority. -/
def levelRules (t : Tokenizer) (g : Grammar) : List ActiveRule :=
  activeRules (activeEntries g (t.restChain t.maxDepth g.rest).value)

/-- Rules that remember nothing yet. -/
def contenders (rules : List ActiveRule) : List Contender := rules.map fun active => { active }

theorem allRemember_contenders (rules : List ActiveRule) (offset stop : Nat) :
    AllRemember (contenders rules) offset stop := by
  intro r hr
  obtain ⟨active, -, rfl⟩ := List.mem_map.mp hr
  exact remembers_fresh offset stop

theorem actives_contenders (rules : List ActiveRule) : (contenders rules).map (·.active) = rules := by
  rw [contenders, List.map_map]
  exact List.map_id rules

section
variable {t : Tokenizer}

theorem smooth_resolve (t : Tokenizer) (ref : GrammarRef) : (t.resolve ref).Smooth := by
  cases ref with
  | inline g => exact ⟨rfl, rfl⟩
  | named language =>
    rw [resolve]
    cases t.language? language <;> exact ⟨rfl, rfl⟩

theorem smooth_restChain (t : Tokenizer) (hops : Nat) (ref : Option GrammarRef) : (t.restChain hops ref).Smooth := by
  induction hops generalizing ref with
  | zero => cases ref <;> exact ⟨rfl, rfl⟩
  | succ hops ih =>
    cases ref with
    | none => exact ⟨rfl, rfl⟩
    | some ref =>
      rw [restChain]
      refine (t.smooth_resolve ref).bind ?_
      cases (t.resolve ref).value with
      | none => exact ⟨rfl, rfl⟩
      | some g => exact (ih g.rest).bind ⟨rfl, rfl⟩

theorem level_eq (t : Tokenizer) (inside : ActiveRule → List Char → Logged Content) (g : Grammar) (text : List Char) :
    ∃ ws, t.level inside g text =
      ⟨(steps t.engine inside (byteOffset text) (contenders (t.levelRules g)) 0 text).value,
        ws ++ (steps t.engine inside (byteOffset text) (contenders (t.levelRules g)) 0 text).warnings,
        (steps t.engine inside (byteOffset text) (contenders (t.levelRules g)) 0 text).strays,
        (steps t.engine inside (byteOffset text) (contenders (t.levelRules g)) 0 text).endless⟩ := by
  cases text with
  | nil =>
    refine ⟨[], ?_⟩
    rw [steps]
    rfl
  | cons c cs =>
    refine ⟨(t.restChain t.maxDepth g.rest).warnings, ?_⟩
    have hchain := (t.smooth_restChain t.maxDepth g.rest).eq
    unfold level levelRules
    generalize t.restChain t.maxDepth g.rest = chain at hchain ⊢
    rw [hchain]
    rfl

theorem value_level {inside : ActiveRule → List Char → Logged Content} {g : Grammar} {text : List Char} :
    (t.level inside g text).value =
      (steps t.engine inside (byteOffset text) (contenders (t.levelRules g)) 0 text).value := by
  obtain ⟨ws, heq⟩ := t.level_eq inside g text
  rw [heq]

theorem split_level (he : t.engine.Bounded) (inside : ActiveRule → List Char → Logged Content) (g : Grammar)
    (text : List Char) :
    Split t.engine inside (byteOffset text) (contenders (t.levelRules g)) 0 text
      (steps t.engine inside (byteOffset text) (contenders (t.levelRules g)) 0 text) :=
  split_steps he (allRemember_contenders (t.levelRules g) 0 (0 + text.length))

/-- The levels of one depth differ in nothing but the grammar and the text. -/
theorem levels_eq_level (t : Tokenizer) (depth : Nat) :
    ∃ inside, ∀ g text, t.levels depth g text = t.level inside g text := by
  cases depth with
  | zero => exact ⟨_, fun _ _ => rfl⟩
  | succ depth => exact ⟨_, fun _ _ => rfl⟩

/-- The content of a match is its text, or the tokens that its text was split into with the grammar for its
    inside. -/
theorem content_cases (levels : Option (Grammar → List Char → Logged (List Token))) (active : ActiveRule)
    (text : List Char) :
    (∃ ws, t.content levels active text = ⟨.text (String.ofList text), ws, [], false⟩) ∨
    (∃ ref split g ws, active.rule.inside = some ref ∧ levels = some split ∧ (t.resolve ref).value = some g ∧
      t.content levels active text =
        ⟨.nested (split g text).value, ws ++ (split g text).warnings, (split g text).strays,
          (split g text).endless⟩) := by
  unfold content
  cases hin : active.rule.inside with
  | none => exact Or.inl ⟨[], rfl⟩
  | some ref =>
    cases levels with
    | none => exact Or.inl ⟨[.tooDeep active.name t.maxDepth], rfl⟩
    | some split =>
      obtain ⟨hstrays, hendless⟩ := t.smooth_resolve ref
      rcases hres : t.resolve ref with ⟨_ | g, ws, strays, endless⟩ <;> rw [hres] at hstrays hendless
      all_goals obtain rfl : strays = [] := hstrays
      all_goals obtain rfl : endless = false := hendless
      · exact Or.inl ⟨ws, by simp [hres, Logged.mk_bind]⟩
      · exact Or.inr ⟨ref, split, g, ws, rfl, rfl, by rw [hres], by simp [hres, Logged.mk_bind]⟩

end

/-! ### Levels below one another -/

/-- The grammar of a level that may stand `n` levels below one with the grammar `g`. -/
inductive Below (t : Tokenizer) : (n : Nat) → (g h : Grammar) → Prop
  | self {g : Grammar} : Below t 0 g g
  | inside {n : Nat} {g h i : Grammar} {active : ActiveRule} {ref : GrammarRef} : active ∈ t.levelRules g →
      active.rule.inside = some ref → (t.resolve ref).value = some h → Below t n h i → Below t (n + 1) g i

/-- The pattern is that of a rule which may be asked in a level with the grammar `g`, or up to `depth` levels below. -/
def InPlay (t : Tokenizer) (depth : Nat) (g : Grammar) (p : Pattern) : Prop :=
  ∃ n ≤ depth, ∃ h, t.Below n g h ∧ ∃ active ∈ t.levelRules h, active.rule.pattern = p

theorem Below.step {t : Tokenizer} {n : Nat} {g h i : Grammar} {active : ActiveRule} {ref : GrammarRef}
    (hbelow : t.Below n g h) (hactive : active ∈ t.levelRules h) (hinside : active.rule.inside = some ref)
    (hi : (t.resolve ref).value = some i) : t.Below (n + 1) g i := by
  induction hbelow with
  | self => exact .inside hactive hinside hi .self
  | inside hactive' hinside' hh _ ih => exact .inside hactive' hinside' hh (ih hactive)

theorem inPlay_of_levelRules {t : Tokenizer} {depth : Nat} {g : Grammar} {active : ActiveRule}
    (hactive : active ∈ t.levelRules g) : t.InPlay depth g active.rule.pattern :=
  ⟨0, Nat.zero_le _, g, .self, active, hactive, rfl⟩

theorem InPlay.inside {t : Tokenizer} {depth : Nat} {g h : Grammar} {active : ActiveRule} {ref : GrammarRef}
    {p : Pattern} (hactive : active ∈ t.levelRules g) (hinside : active.rule.inside = some ref)
    (hh : (t.resolve ref).value = some h) (hp : t.InPlay depth h p) : t.InPlay (depth + 1) g p := by
  obtain ⟨n, hn, i, hbelow, hrule⟩ := hp
  exact ⟨n + 1, Nat.succ_le_succ hn, i, .inside hactive hinside hh hbelow, hrule⟩

/-! ### The course of a level -/

/-- The offsets at which a level stands on its way through the text, with what its rules remember there. -/
inductive Reached (engine : Engine) (actives : List ActiveRule) (text : List Char) : List Contender → Nat → Prop
  | start : Reached engine actives text (contenders actives) 0
  | turn {rules offset pick} : Reached engine actives text rules offset → offset < text.length →
      (select engine offset (text.drop offset) rules).value.2 = some pick →
      Reached engine actives text (select engine offset (text.drop offset) rules).value.1 pick.found.stop

/-- A step of a level: at an offset where it stands it takes a match. -/
structure Takes (engine : Engine) (actives : List ActiveRule) (text : List Char) (rules : List Contender) (offset : Nat)
    (pick : Pick) : Prop where
  reached : Reached engine actives text rules offset
  offset_lt : offset < text.length
  picked : (select engine offset (text.drop offset) rules).value.2 = some pick

/-- What holds wherever a level stands. -/
structure Standing (actives : List ActiveRule) (text : List Char) (rules : List Contender) (offset : Nat) : Prop where
  offset_le : offset ≤ text.length
  actives : rules.map (·.active) = actives
  remember : AllRemember rules offset text.length

section
variable {engine : Engine} {actives : List ActiveRule} {text : List Char} {rules : List Contender} {offset : Nat}
  {pick : Pick}

theorem selected_standing (he : engine.Bounded) (h : Standing actives text rules offset) :
    Selected rules none offset text.length (select engine offset (text.drop offset) rules) := by
  have hstop : offset + (text.drop offset).length = text.length := by
    rw [List.length_drop, Nat.add_sub_cancel' h.offset_le]
  have hsel : Selected rules none offset (offset + (text.drop offset).length)
      (select engine offset (text.drop offset) rules) :=
    selected_select he (hstop.symm ▸ h.remember)
  rwa [hstop] at hsel

theorem fits_of_picked (he : engine.Bounded) (h : Standing actives text rules offset)
    (hpick : (select engine offset (text.drop offset) rules).value.2 = some pick) :
    pick.found.Fits offset text.length := by
  rcases (selected_standing he h).pick hpick with h | ⟨-, hfits⟩
  · cases h
  · exact hfits

theorem standing_of_reached (he : engine.Bounded) (h : Reached engine actives text rules offset) :
    Standing actives text rules offset := by
  induction h with
  | start => exact ⟨Nat.zero_le _, actives_contenders actives, allRemember_contenders actives 0 text.length⟩
  | @turn rules offset pick _ _ hpick ih =>
    obtain ⟨hle, hlt, hstop⟩ := fits_of_picked he ih hpick
    refine ⟨hstop, ?_, fun r hr => ?_⟩
    · rw [actives_select, ih.actives]
    · exact ((selected_standing he ih).remembers r hr).later (Nat.le_of_lt (Nat.lt_of_le_of_lt hle hlt))

end
end Tokenizer
end Highlight
