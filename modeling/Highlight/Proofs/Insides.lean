import Highlight.Proofs.Limits
import Highlight.Proofs.Provenance

/-! Levels with the same rules. Which matches a level takes depends on its rules and its text, and not on what is made
    of the text of a match. Two runs that differ in nothing but the insides of matches have tokens that differ in
    nothing but their contents (`value_steps_map`). -/

namespace Highlight

/-- The token with its content changed. -/
def Token.withContent (f : Content → Content) (t : Token) : Token := { t with content := f t.content }

namespace Tokenizer

section
variable {engine : Engine} {inside inside' : ActiveRule → List Char → Logged Content} {bytes bytes' : Nat → Nat}
  {rules rules' : List Contender} {offset : Nat} {text : List Char} {pick : Pick}

/-- The match that a level takes is one of its rules, whatever the engine answers. -/
theorem active_of_select (h : (select engine offset text rules).value.2 = some pick) :
    pick.active ∈ rules.map (·.active) := by
  rcases made_of_selectFrom h with h | ⟨before, r, after, rfl, -, hactive, -⟩
  · cases h
  · exact List.mem_map.mpr ⟨r, List.mem_append_right before List.mem_cons_self, hactive.symm⟩

theorem value_steps_of_pick (hne : text ≠ []) (hv : (select engine offset text rules).value = (rules', some pick)) :
    (steps engine inside bytes rules offset text).value =
      plainBefore offset pick.found.start (slice text ⟨offset - offset, pick.found.start - offset⟩) ++
        tokenOf pick.active pick.found (inside pick.active (slice text (pick.within offset))).value ::
          if offset < pick.found.stop then
            (steps engine inside bytes rules' pick.found.stop (text.drop (pick.found.stop - offset))).value
          else [] := by
  obtain ⟨c, cs, rfl⟩ := List.exists_cons_of_ne_nil hne
  rw [steps]
  generalize select engine offset (c :: cs) rules = selected at hv ⊢
  obtain ⟨value, warnings, strays, endless⟩ := selected
  simp only at hv
  subst hv
  obtain ⟨index, active, found⟩ := pick
  simp only [Logged.value_bind, Logged.value_mapOffsets]
  split <;> rfl

end

section
variable {f : Content → Content}

theorem map_withContent_plainBefore (htext : ∀ part, f (.text part) = .text part) (offset start : Nat) (gap : List Char) :
    (plainBefore offset start gap).map (Token.withContent f) = plainBefore offset start gap := by
  cases gap with
  | nil => rfl
  | cons c gap => simp [plainBefore, Token.withContent, Token.plain, htext]

theorem map_withContent_remainder (htext : ∀ part, f (.text part) = .text part) (offset : Nat) (text : List Char) :
    [remainder offset text].map (Token.withContent f) = [remainder offset text] := by
  simp [remainder, Token.withContent, Token.plain, htext]

theorem withContent_tokenOf
    (hshift : ∀ n content, f (Token.mapContent (· + n) content) = Token.mapContent (· + n) (f content))
    (active : ActiveRule) (found : Candidate) (content : Content) :
    (tokenOf active found content).withContent f = tokenOf active found (f content) := by
  rw [tokenOf, tokenOf, Token.withContent, hshift]

/-- If two levels have the same rules, and what one makes of the text of a match is by `f` what the other makes of it,
    then the tokens of the one are by `f` those of the other. -/
theorem value_steps_map (htext : ∀ part, f (.text part) = .text part)
    (hshift : ∀ n content, f (Token.mapContent (· + n) content) = Token.mapContent (· + n) (f content))
    {engine : Engine} {inside inside' : ActiveRule → List Char → Logged Content} {bytes bytes' : Nat → Nat}
    {rules : List Contender} {offset : Nat} {text : List Char}
    (hinside : ∀ active ∈ rules.map (·.active), ∀ matched,
      (inside' active matched).value = f (inside active matched).value) :
    (steps engine inside' bytes' rules offset text).value =
      (steps engine inside bytes rules offset text).value.map (Token.withContent f) := by
  -- Both levels select with the same rules from the same text, so each turn takes the same match.
  induction rules, offset, text using steps.induct with
  | case1 rules offset =>
    rw [steps, steps]
    rfl
  | case2 rules offset c cs text ih =>
    have hne : c :: cs ≠ [] := List.cons_ne_nil c cs
    rcases hv : (select engine offset (c :: cs) rules).value with ⟨rules', _ | pick⟩
    · rw [steps_of_none hne hv, steps_of_none hne hv]
      exact (map_withContent_remainder htext _ _).symm
    · have hactive : pick.active ∈ rules.map (·.active) := active_of_select (by rw [hv])
      have hactives : rules'.map (·.active) = rules.map (·.active) := by
        have h := actives_select engine offset (c :: cs) rules
        rwa [hv] at h
      rw [value_steps_of_pick hne hv, value_steps_of_pick hne hv, List.map_append, List.map_cons,
        map_withContent_plainBefore htext, withContent_tokenOf hshift, hinside _ hactive]
      split
      · rename_i hlt
        rw [ih rules' pick.found hlt (hactives ▸ hinside)]
      · rfl

theorem value_steps_congr {engine : Engine} {inside inside' : ActiveRule → List Char → Logged Content}
    {bytes bytes' : Nat → Nat} {rules : List Contender} {offset : Nat} {text : List Char}
    (hinside : ∀ active ∈ rules.map (·.active), ∀ matched,
      (inside' active matched).value = (inside active matched).value) :
    (steps engine inside' bytes' rules offset text).value = (steps engine inside bytes rules offset text).value := by
  have hid : ∀ token : Token, token.withContent id = token := fun token => by
    cases token
    rfl
  have hmap : (steps engine inside' bytes' rules offset text).value =
      (steps engine inside bytes rules offset text).value.map (Token.withContent id) :=
    value_steps_map (fun _ => rfl) (fun _ _ => rfl) hinside
  rw [hmap, List.map_congr_left fun token _ => hid token, List.map_id']

/-- What two tokenizers make of the text of a match is related by `f` if they find the same grammar for its inside, and
    so are the tokens of the level that it becomes. -/
theorem value_content_map (htext : ∀ part, f (.text part) = .text part) {t u : Tokenizer}
    {split split' : Grammar → List Char → Logged (List Token)} {active : ActiveRule} {matched : List Char}
    (hresolve : ∀ ref, active.rule.inside = some ref → (u.resolve ref).value = (t.resolve ref).value)
    (hsplit : ∀ ref h, active.rule.inside = some ref → (t.resolve ref).value = some h →
      .nested (split' h matched).value = f (.nested (split h matched).value)) :
    (u.content (some split') active matched).value = f (t.content (some split) active matched).value := by
  by_cases hfound : ∃ ref h, active.rule.inside = some ref ∧ (t.resolve ref).value = some h
  · obtain ⟨ref, h, hinside, hh⟩ := hfound
    rw [value_content_nested hinside hh, value_content_nested hinside ((hresolve ref hinside).trans hh),
      hsplit ref h hinside hh]
  · have hnone : ∀ ref, active.rule.inside = some ref → (t.resolve ref).value = none := by
      intro ref hinside
      cases hh : (t.resolve ref).value with
      | none => rfl
      | some h => exact absurd ⟨ref, h, hinside, hh⟩ hfound
    rw [(content_text fun _ ref _ hinside => hnone ref hinside).1,
      (content_text fun _ ref _ hinside => (hresolve ref hinside).trans (hnone ref hinside)).1, htext]

/-- Where no level may follow, the text of a match is kept. -/
theorem value_content_none (t : Tokenizer) (active : ActiveRule) (matched : List Char) :
    (t.content none active matched).value = .text (String.ofList matched) := by
  refine (content_text fun _ _ h => ?_).1
  cases h

end
end Tokenizer
end Highlight
