import Highlight.Proofs.Choice
import Highlight.Proofs.Tiling

/-! Splitting can begin again behind any token that a rule has found. Rules without the lookbehind option carry
    nothing over a token that a new run would not find by itself: both runs choose the same matches, and so they
    split the rest of the text alike. -/

namespace Highlight

/-! ### Shifted tokens -/

namespace Token

theorem mapOffsetsOf_append (f : Nat → Nat) (ts us : List Token) :
    mapOffsetsOf f (ts ++ us) = mapOffsetsOf f ts ++ mapOffsetsOf f us := by
  rw [mapOffsetsOf_eq_map, mapOffsetsOf_eq_map, mapOffsetsOf_eq_map, List.map_append]

theorem mapOffsetsOf_eq_append {f : Nat → Nat} {ts before after : List Token} {token : Token}
    (h : mapOffsetsOf f ts = before ++ token :: after) :
    ∃ before' token' after', ts = before' ++ token' :: after' ∧ mapOffsets f token' = token ∧
      mapOffsetsOf f after' = after := by
  rw [mapOffsetsOf_eq_map] at h
  obtain ⟨before', rest, rfl, -, hrest⟩ := List.map_eq_append_iff.mp h
  obtain ⟨token', after', rfl, htoken, hafter⟩ := List.map_eq_cons_iff.mp hrest
  exact ⟨before', token', after', rfl, htoken, by rw [mapOffsetsOf_eq_map, hafter]⟩

end Token

namespace Tokenizer
open RuleCursor

theorem mapOffsetsOf_plainBefore (offset start n : Nat) (gap : List Char) :
    Token.mapOffsetsOf (· + n) (plainBefore offset start gap) = plainBefore (offset + n) (start + n) gap := by
  cases gap <;> rfl

theorem mapOffsets_tokenOf (active : ActiveRule) (found : Candidate) (content : Content) (n : Nat) :
    (tokenOf active found content).mapOffsets (· + n) = tokenOf active (found.shift n) content := by
  rw [tokenOf, tokenOf, Token.mapOffsets, Token.mapContent_mapContent]
  simp only [Candidate.shift, Span.map, Nat.add_assoc]

theorem mapOffsets_remainder (offset n : Nat) (text : List Char) :
    (remainder offset text).mapOffsets (· + n) = remainder (offset + n) text := by
  simp only [remainder, Token.plain, Token.mapOffsets, Token.mapContent, Span.map, Nat.add_right_comm]

/-- A token that a rule has found stands behind the plain text before a match: it is that of the match, or one that
    follows. -/
theorem eq_or_after_of_classified {offset start : Nat} {gap : List Char} {first token : Token}
    {ts before after : List Token} (h : plainBefore offset start gap ++ first :: ts = before ++ token :: after)
    (hc : token.isClassified = true) :
    (first = token ∧ ts = after) ∨ ∃ before', ts = before' ++ token :: after := by
  have hcons : ∀ {before}, first :: ts = before ++ token :: after →
      (first = token ∧ ts = after) ∨ ∃ before', ts = before' ++ token :: after := by
    rintro (_ | ⟨u, before⟩) h
    · cases h
      exact Or.inl ⟨rfl, rfl⟩
    · cases h
      exact Or.inr ⟨before, rfl⟩
  cases gap with
  | nil => exact hcons h
  | cons c gap =>
    cases before with
    | nil =>
      cases h
      cases hc
    | cons u before => exact hcons (List.cons.inj h).2

/-! ### Behind a token -/

section
variable {engine : Engine} {attempt : Attempt} {inside : ActiveRule → List Char → Logged Content}
  {bytes bytes' : Nat → Nat} {text : List Char} {rules rules' : List Contender} {offset : Nat}
  {gap matched back : List Char} {pick : Pick} {after out : Logged (List Token)}

/-- How a level goes on at an offset: the rest of its text is split in turns without a failure, by rules that remember
    right answers. -/
structure GoesOn (engine : Engine) (attempt : Attempt) (inside : ActiveRule → List Char → Logged Content)
    (bytes : Nat → Nat) (text : List Char) (actives : List ActiveRule) (offset : Nat) (tokens : List Token) :
    Prop where
  le : offset ≤ text.length
  split : ∃ rules out, AllRecall attempt text rules offset ∧ rules.map (·.active) = actives ∧
    Split engine inside bytes rules offset (text.drop offset) out ∧ out.Succeeds ∧ out.value = tokens

/-- A level goes on behind every token that a rule has found. -/
theorem goesOn_of_split {part : List Char} (h : Split engine inside bytes rules offset part out) :
    (∀ active ∈ rules.map (·.active), engine.Attempts attempt active.rule.pattern) → text.drop offset = part →
    offset ≤ text.length → AllRecall attempt text rules offset → out.Succeeds →
    ∀ {before token after}, out.value = before ++ token :: after → token.isClassified = true →
    GoesOn engine attempt inside bytes text (rules.map (·.active)) token.span.stop after := by
  induction h with
  | done =>
    intro _ _ _ _ _ before token after h _
    simp at h
  | rest =>
    intro _ _ _ _ _ before token after h hc
    cases before with
    | nil =>
      cases h
      cases hc
    | cons u before => simp at h
  | @turn rules rules' offset gap matched back pick rest hne hv hactives hmem hstart hstop hrest ih =>
    intro he htext hle hr hs before token after h hc
    obtain ⟨hselect, -, hafter⟩ := succeeds_turn hs
    obtain ⟨hle', hback, hr'⟩ := recalls_turn he hle htext hr hselect hv hstop
    rcases eq_or_after_of_classified h hc with ⟨rfl, rfl⟩ | ⟨before', h'⟩
    · refine ⟨hle', rules', rest, hr', hactives, ?_, hafter, rfl⟩
      rw [← hback] at hrest
      exact hrest
    · rw [← hactives]
      exact ih (hactives ▸ he) hback hle' hr' hafter h' hc

/-! ### Two runs side by side -/

theorem drop_of_later {part : List Char} {n k : Nat} (hpart : text.drop (k + n) = part) (hle : k + n ≤ text.length) :
    (text.drop n).drop k = part ∧ k ≤ (text.drop n).length := by
  refine ⟨by rw [List.drop_drop, Nat.add_comm, hpart], ?_⟩
  rw [List.length_drop]
  omega

/-- Two runs at the same place in a text, one of which began `n` characters earlier, choose the same match. -/
theorem pick_select_shift {part : List Char} {n k : Nat} {rules₂ : List Contender}
    (he : ∀ active ∈ rules.map (·.active), engine.Attempts attempt active.rule.pattern)
    (hpart : text.drop (k + n) = part) (hle : k + n ≤ text.length)
    (hlook : ∀ active ∈ rules.map (·.active), active.rule.lookbehind = false)
    (hactives : rules₂.map (·.active) = rules.map (·.active))
    (hr : AllRecall attempt text rules (k + n)) (hr₂ : AllRecall attempt (text.drop n) rules₂ k)
    (hs : (select engine (k + n) part rules).Succeeds) (hs₂ : (select engine k part rules₂).Succeeds) :
    (select engine (k + n) part rules).value.2 = (select engine k part rules₂).value.2.map (·.shift n) := by
  obtain ⟨hpart₂, hle₂⟩ := drop_of_later hpart hle
  have hlook₁ : ∀ r ∈ rules, r.active.rule.lookbehind = false := fun r hmem =>
    hlook r.active (List.mem_map_of_mem hmem)
  have hlook₂ : ∀ r ∈ rules₂, r.active.rule.lookbehind = false := fun r hmem =>
    hlook r.active (hactives ▸ List.mem_map_of_mem hmem)
  have hpick₁ := (chosen_select hpart hle he hr hs).eq_weighAll hlook₁
  have hpick₂ := (chosen_select hpart₂ hle₂ (hactives ▸ he) hr₂ hs₂).eq_weighAll hlook₂
  -- Both picks come of the same offers, made `n` characters apart.
  rw [hpick₁, hpick₂, hpart, hpart₂, hactives]
  exact @weighAll_shift attempt part k n _ 0 none

/-- Two runs over the same rest of a text, one of which began `n` characters earlier, split it alike. -/
theorem value_of_split {part : List Char} (h : Split engine inside bytes rules offset part out) :
    ∀ {n k : Nat} {rules₂ : List Contender},
    (∀ active ∈ rules.map (·.active), engine.Attempts attempt active.rule.pattern) → offset = k + n →
    text.drop offset = part → offset ≤ text.length →
    (∀ active ∈ rules.map (·.active), active.rule.lookbehind = false) →
    rules₂.map (·.active) = rules.map (·.active) →
    AllRecall attempt text rules offset → AllRecall attempt (text.drop n) rules₂ k →
    out.Succeeds → (steps engine inside bytes' rules₂ k part).Succeeds →
    out.value = Token.mapOffsetsOf (· + n) (steps engine inside bytes' rules₂ k part).value := by
  -- Along the turns of the longer run the other one stays `n` characters behind. Its rules are not the same, but they
  -- remember right answers of their own.
  induction h with
  | done =>
    intros
    rw [steps]
    rfl
  | @rest rules rules' offset part hne hv =>
    rintro n k rules₂ he rfl hpart hle hlook hactives hr hr₂ hs hs₂
    have hpick := pick_select_shift he hpart hle hlook hactives hr hr₂ (Logged.succeeds_mapOffsets.mp hs)
      (succeeds_select hne hs₂)
    rw [hv] at hpick
    rcases hv₂ : (select engine k part rules₂).value with ⟨rules₂', _ | pick₂⟩
    · rw [steps_of_none hne hv₂, Token.mapOffsetsOf, Token.mapOffsetsOf, mapOffsets_remainder]
    · rw [hv₂] at hpick
      cases hpick
  | @turn rules rules' offset gap matched back pick rest hne hv hactives' hmem hstart hstop hrest ih =>
    rintro n k rules₂ he rfl hpart hle hlook hactives hr hr₂ hs hs₂
    obtain ⟨hselect, -, hafter⟩ := succeeds_turn hs
    have hselect₂ := succeeds_select (by simp [hne]) hs₂
    have hpick := pick_select_shift he hpart hle hlook hactives hr hr₂ hselect hselect₂
    rw [hv] at hpick
    rcases hv₂ : (select engine k (gap ++ (matched ++ back)) rules₂).value with ⟨rules₂', _ | pick₂⟩
    · rw [hv₂] at hpick
      cases hpick
    · rw [hv₂] at hpick
      obtain rfl : pick = pick₂.shift n := Option.some.inj hpick
      have hstart₂ : pick₂.found.start = k + gap.length := by
        simp only [Pick.shift, Candidate.shift] at hstart
        omega
      have hstop₂ : pick₂.found.stop = k + gap.length + matched.length := by
        simp only [Pick.shift, Candidate.shift] at hstop
        omega
      obtain ⟨hpart₂, hle₂⟩ := drop_of_later hpart hle
      obtain ⟨hle', hback, hr'⟩ := recalls_turn he hle hpart hr hselect hv hstop
      obtain ⟨-, -, hr₂'⟩ := recalls_turn (hactives ▸ he) hle₂ hpart₂ hr₂ hselect₂ hv₂ hstop₂
      have hactives₂ : rules₂'.map (·.active) = rules'.map (·.active) := by
        have h := actives_select engine k (gap ++ (matched ++ back)) rules₂
        rw [hv₂] at h
        exact h.trans (hactives.trans hactives'.symm)
      rw [steps_of_pick hne hv₂ hstart₂ hstop₂] at hs₂ ⊢
      have hlook' : ∀ active ∈ rules'.map (·.active), active.rule.lookbehind = false := fun active hmem =>
        hlook active (hactives' ▸ hmem)
      have hrest := ih (hactives' ▸ he) rfl hback hle' hlook' hactives₂ hr' hr₂' hafter (succeeds_turn hs₂).2.2
      rw [Token.mapOffsetsOf_append, mapOffsetsOf_plainBefore, Token.mapOffsetsOf, mapOffsets_tokenOf, hrest]
      rfl

end

/-! ### Levels and runs -/

section
variable {t : Tokenizer} {attempt : Attempt} {inside : ActiveRule → List Char → Logged Content} {g : Grammar}
  {text : List Char}

theorem goesOn_level (hb : t.engine.Bounded)
    (he : ∀ active ∈ t.levelRules g, t.engine.Attempts attempt active.rule.pattern) (hs : (t.level inside g text).Succeeds)
    {before after : List Token} {token : Token} (h : (t.level inside g text).value = before ++ token :: after)
    (hc : token.isClassified = true) :
    GoesOn t.engine attempt inside (byteOffset text) text (t.levelRules g) token.span.stop after := by
  rw [← actives_contenders (t.levelRules g)] at he
  have hgoesOn := goesOn_of_split (split_level hb inside g text) he rfl (Nat.zero_le _)
    (allRecall_contenders attempt text (t.levelRules g) 0) (succeeds_steps hs) (value_level ▸ h) hc
  rwa [actives_contenders] at hgoesOn

/-- Behind such a token the level is split as the text from there on is. -/
theorem restart_level (hb : t.engine.Bounded)
    (he : ∀ active ∈ t.levelRules g, t.engine.Attempts attempt active.rule.pattern)
    (hlook : ∀ active ∈ t.levelRules g, active.rule.lookbehind = false) (hs : (t.level inside g text).Succeeds)
    {before after : List Token} {token : Token} (h : (t.level inside g text).value = before ++ token :: after)
    (hc : token.isClassified = true) (hs' : (t.level inside g (text.drop token.span.stop)).Succeeds) :
    after = Token.mapOffsetsOf (· + token.span.stop) (t.level inside g (text.drop token.span.stop)).value := by
  obtain ⟨hle, rules, out, hr, hactives, hsplit, hsucceeds, rfl⟩ := goesOn_level hb he hs h hc
  rw [value_level]
  refine value_of_split hsplit (hactives ▸ he) (Nat.zero_add _).symm rfl hle (hactives ▸ hlook) ?_ hr ?_ hsucceeds
    (succeeds_steps hs')
  · rw [actives_contenders, hactives]
  · exact allRecall_contenders attempt _ (t.levelRules g) 0

/-- Splitting can begin again behind every token that a rule has found. If no rule of the grammar or of its rest chain
    has the lookbehind option and no search is given up, the tokens behind it are those of the text from there on. -/
theorem tokenize_restarts (hb : t.engine.Bounded) (g : Grammar) (text : String)
    (he : ∀ active ∈ t.levelRules g, t.engine.Attempts attempt active.rule.pattern)
    (hlook : ∀ active ∈ t.levelRules g, active.rule.lookbehind = false) (hs : (t.run g text).Succeeds)
    {before after : List Token} {token : Token} (h : t.tokenize g text = before ++ token :: after)
    (hc : token.isClassified = true) :
    ∃ front rest, text = front ++ rest ∧ front.utf8ByteSize = token.span.stop ∧
      ((t.run g rest).Succeeds →
        after = Token.mapOffsetsOf (· + token.span.stop) (t.tokenize g rest)) := by
  obtain ⟨inside, hlevels⟩ := t.levels_eq_level t.maxDepth
  rw [tokenize, value_run hb, hlevels] at h
  obtain ⟨before', token', after', hsplit, rfl, rfl⟩ := Token.mapOffsetsOf_eq_append h
  have hs' : (t.level inside g text.toList).Succeeds := hlevels g text.toList ▸ hs
  rw [Token.isClassified_mapOffsets] at hc
  have hle := (goesOn_level hb he hs' hsplit hc).le
  rw [Token.span_mapOffsets]
  refine ⟨String.ofList (text.toList.take token'.span.stop), String.ofList (text.toList.drop token'.span.stop),
    ?_, ?_, ?_⟩
  · rw [← String.ofList_append, List.take_append_drop, String.ofList_toList]
  · rw [← byteLength_toList, String.toList_ofList]
    rfl
  · intro hrest
    have hrest' : (t.level inside g (text.toList.drop token'.span.stop)).Succeeds := by
      rw [run, hlevels, String.toList_ofList] at hrest
      exact hrest
    have htile := (tiled_levels hb t.maxDepth g (text.toList.drop token'.span.stop)).1
    have hwithin := @inBytes_within _ _ _ 0 _ _ (hasAt_drop hle rfl) htile
    rw [hlevels] at hwithin
    rw [restart_level hb he hlook hs' hsplit hc hrest', tokenize, value_run hb, String.toList_ofList, hlevels]
    refine hwithin.trans ?_
    rw [inBytes, inBytes, Token.mapOffsetsOf_mapOffsetsOf]
    rfl

/-- The token of "bab" from an offset on. -/
def outerToken (start : Nat) : Token :=
  ⟨some "outer", none, .nested [.plain "b" ⟨start, start + 1⟩, ⟨some "inner", none, .text "a", ⟨start + 1, start + 2⟩⟩,
    .plain "b" ⟨start + 2, start + 3⟩], ⟨start, start + 3⟩⟩

/-- Splitting begins again behind the first token of a rule, for patterns taken as literal text and for compiled ones. -/
theorem tokenize_restarts_nested :
    Pattern.compile "bab" "" Pattern.defaultFailures = .ok (.literal "bab") ∧
      ∀ t, t = Tokenizer.literal ∨ t = Tokenizer.compiled →
        (∀ active ∈ t.levelRules nestedSample, active.rule.lookbehind = false) ∧
          (t.run nestedSample "ébab.bab").Succeeds ∧ (t.run nestedSample ".bab").Succeeds ∧
          t.tokenize nestedSample "ébab.bab" =
            [.plain "é" ⟨0, 2⟩] ++ outerToken 2 :: [.plain "." ⟨5, 6⟩, outerToken 6] ∧
          ∃ front rest, "ébab.bab" = front ++ rest ∧ front.utf8ByteSize = 5 ∧
            ((t.run nestedSample rest).Succeeds →
              [.plain "." ⟨5, 6⟩, outerToken 6] = Token.mapOffsetsOf (· + 5) (t.tokenize nestedSample rest)) := by
  refine ⟨rfl, ?_⟩
  rintro t (rfl | rfl)
  · have hlook : ∀ active ∈ Tokenizer.literal.levelRules nestedSample, active.rule.lookbehind = false := by decide
    have hs : (Tokenizer.literal.run nestedSample "ébab.bab").Succeeds := by decide +kernel
    have htokens : Tokenizer.literal.tokenize nestedSample "ébab.bab" =
        [.plain "é" ⟨0, 2⟩] ++ outerToken 2 :: [.plain "." ⟨5, 6⟩, outerToken 6] := by decide +kernel
    exact ⟨hlook, hs, by decide +kernel, htokens, tokenize_restarts Engine.bounded_literal nestedSample "ébab.bab"
      (fun _ _ => Engine.attempts_literal _) hlook hs htokens rfl⟩
  · have he : ∀ active ∈ Tokenizer.compiled.levelRules nestedSample,
        Engine.compiled.Attempts Engine.literalAt active.rule.pattern := by
      intro active hactive
      obtain rfl := List.mem_singleton.mp hactive
      exact Engine.attempts_compiled "bab"
    have hlook : ∀ active ∈ Tokenizer.compiled.levelRules nestedSample, active.rule.lookbehind = false := by decide
    have hs : (Tokenizer.compiled.run nestedSample "ébab.bab").Succeeds := by decide +kernel
    have htokens : Tokenizer.compiled.tokenize nestedSample "ébab.bab" =
        [.plain "é" ⟨0, 2⟩] ++ outerToken 2 :: [.plain "." ⟨5, 6⟩, outerToken 6] := by decide +kernel
    exact ⟨hlook, hs, by decide +kernel, htokens, tokenize_restarts Engine.bounded_compiled nestedSample "ébab.bab"
      he hlook hs htokens rfl⟩

end
end Tokenizer
end Highlight
