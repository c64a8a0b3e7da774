import Highlight.Proofs.Choice
import Highlight.Proofs.Tiling

/-! Levels of a tree. The tokens inside a token are those of a level of their own: the text of the token, split with the
    grammar for the inside of the rule that found it. What holds of the tokens of every run thereby holds of every
    level of a tree (`everyLevel_levels`). -/

namespace Highlight

namespace Token

@[simp] theorem content_mapOffsets (f : Nat → Nat) (t : Token) : (t.mapOffsets f).content = mapContent f t.content := by
  obtain ⟨_, _, _, _⟩ := t
  rfl

theorem mem_mapOffsetsOf {f : Nat → Nat} {ts : List Token} {token : Token} (h : token ∈ mapOffsetsOf f ts) :
    ∃ t ∈ ts, t.mapOffsets f = token := by
  rw [mapOffsetsOf_eq_map] at h
  exact List.mem_map.mp h

theorem mapContent_eq_nested {f : Nat → Nat} {content : Content} {tokens : List Token}
    (h : mapContent f content = .nested tokens) : ∃ inner, content = .nested inner ∧ mapOffsetsOf f inner = tokens := by
  cases content with
  | text => cases h
  | nested inner => exact ⟨inner, rfl, Content.nested.inj h⟩

end Token

namespace Tokenizer

def NamedBy (active : ActiveRule) (token : Token) : Prop :=
  token.name = some active.name ∧ token.aliasName = active.rule.aliasName

theorem namedBy_mapOffsets {f : Nat → Nat} {active : ActiveRule} {token : Token} :
    NamedBy active (token.mapOffsets f) ↔ NamedBy active token := by
  obtain ⟨_, _, _, _⟩ := token
  exact Iff.rfl

/-- A property of every level of a tree, given how deep levels may still get, the grammar of the level, its span and
    its tokens. The grammar of an inner level is that for the inside of a rule that is active in the outer one. -/
def EveryLevel (t : Tokenizer) (P : Nat → Grammar → Span → List Token → Prop) :
    (depth : Nat) → Grammar → Span → List Token → Prop
  | 0, g, span, tokens => P 0 g span tokens ∧ ∀ token ∈ tokens, ∀ inner, token.content ≠ .nested inner
  | depth + 1, g, span, tokens => P (depth + 1) g span tokens ∧
      ∀ token ∈ tokens, ∀ inner, token.content = .nested inner →
        ∃ active ∈ t.levelRules g, NamedBy active token ∧ ∃ ref h, active.rule.inside = some ref ∧
          (t.resolve ref).value = some h ∧ EveryLevel t P depth h token.span inner

section
variable {engine : Engine} {inside : ActiveRule → List Char → Logged Content} {bytes : Nat → Nat} {text : List Char}
  {actives : List ActiveRule}

theorem active_of_takes (he : engine.Bounded) {rules : List Contender} {offset : Nat} {pick : Pick}
    (h : Takes engine actives text rules offset pick) : pick.active ∈ actives := by
  have hstanding := standing_of_reached he h.reached
  rcases (selected_standing he hstanding).pick h.picked with hnone | ⟨hmem, -⟩
  · cases hnone
  · exact hstanding.actives ▸ hmem

/-- A token that a rule has found is that of a match which the level takes, with the content that the rule gives its
    text. -/
theorem found_of_split {rules : List Contender} {offset : Nat} {part : List Char} {out : Logged (List Token)}
    (h : Split engine inside bytes rules offset part out) :
    text.drop offset = part → offset ≤ text.length → Reached engine actives text rules offset →
    ∀ token ∈ out.value, token.isClassified = true →
    ∃ rules offset pick matched, Takes engine actives text rules offset pick ∧
      HasAt List.length text ⟨pick.found.start, pick.found.stop⟩ matched ∧
      token = tokenOf pick.active pick.found (inside pick.active matched).value ∧
      (out.Succeeds → (inside pick.active matched).Succeeds) := by
  -- The turns of a split are steps of the level, so the level stands wherever a turn begins.
  induction h with
  | done =>
    intro _ _ _ token hmem
    cases hmem
  | rest =>
    intro _ _ _ token hmem hc
    obtain rfl := List.mem_singleton.mp hmem
    cases hc
  | @turn rules rules' offset gap matched back pick rest hne hv _ _ hstart hstop hrest ih =>
    intro htext hle hreached token htoken hc
    obtain ⟨hle', hback⟩ := drop_of_drop hle htext
    have hat := hasAt_of_drop hle htext
    rw [← hstop] at hle' hback hat
    rw [← hstart] at hat
    have hpos := List.length_pos_iff.mpr hne
    have htakes : Takes engine actives text rules offset pick := ⟨hreached, by omega, by rw [htext, hv]⟩
    rcases List.mem_append.mp htoken with hplain | htoken
    · cases gap with
      | nil => cases hplain
      | cons c gap =>
        obtain rfl := List.mem_singleton.mp hplain
        cases hc
    · rcases List.mem_cons.mp htoken with rfl | htoken
      · exact ⟨rules, offset, pick, matched, htakes, hat, rfl, fun hs => (succeeds_turn hs).2.1⟩
      · have hreached' := hreached.turn htakes.offset_lt htakes.picked
        rw [htext, hv] at hreached'
        obtain ⟨rules₂, offset₂, pick₂, matched₂, htakes₂, hat₂, heq, hs₂⟩ := ih hback hle' hreached' token htoken hc
        exact ⟨rules₂, offset₂, pick₂, matched₂, htakes₂, hat₂, heq, fun hs => hs₂ (succeeds_turn hs).2.2⟩

end

section
variable {t : Tokenizer} {g : Grammar} {part : List Char}

theorem found_of_level (he : t.engine.Bounded) {inside : ActiveRule → List Char → Logged Content} {token : Token}
    (hmem : token ∈ (t.level inside g part).value) (hc : token.isClassified = true) :
    ∃ rules offset pick matched, Takes t.engine (t.levelRules g) part rules offset pick ∧
      HasAt List.length part ⟨pick.found.start, pick.found.stop⟩ matched ∧
      token = tokenOf pick.active pick.found (inside pick.active matched).value ∧
      ((t.level inside g part).Succeeds → (inside pick.active matched).Succeeds) := by
  obtain ⟨rules, offset, pick, matched, htakes, hat, heq, hs⟩ :=
    found_of_split (split_level he inside g part) rfl (Nat.zero_le _) .start token (value_level ▸ hmem) hc
  exact ⟨rules, offset, pick, matched, htakes, hat, heq, fun h => hs (succeeds_steps h)⟩

/-- The levels that may follow one after which `depth` more may follow. -/
def deeper (t : Tokenizer) : Nat → Option (Grammar → List Char → Logged (List Token))
  | 0 => none
  | depth + 1 => some (t.levels depth)

theorem levels_eq (t : Tokenizer) (depth : Nat) (g : Grammar) (text : List Char) :
    t.levels depth g text = t.level (t.content (t.deeper depth)) g text := by
  cases depth <;> rfl

theorem value_content_nested {levels : Grammar → List Char → Logged (List Token)} {active : ActiveRule} {ref : GrammarRef}
    {h : Grammar} (hinside : active.rule.inside = some ref) (hh : (t.resolve ref).value = some h) :
    (t.content (some levels) active part).value = .nested (levels h part).value := by
  unfold content
  simp only [hinside, Logged.value_bind, hh, Logged.value_pure]

/-- Tokens inside a match are those of a level with the grammar for the inside of its rule. -/
theorem nested_of_content {levels : Option (Grammar → List Char → Logged (List Token))} {active : ActiveRule}
    {inner : List Token} (h : (t.content levels active part).value = .nested inner) :
    ∃ ref split g, active.rule.inside = some ref ∧ levels = some split ∧ (t.resolve ref).value = some g ∧
      inner = (split g part).value ∧ ((t.content levels active part).Succeeds → (split g part).Succeeds) := by
  rcases t.content_cases levels active part with ⟨ws, heq⟩ | ⟨ref, split, g, ws, hinside, hlevels, hg, heq⟩
  · rw [heq] at h
    cases h
  · rw [heq] at h
    refine ⟨ref, split, g, hinside, hlevels, hg, (Content.nested.inj h).symm, fun hs => ?_⟩
    rw [heq] at hs
    exact (List.forall_mem_append.mp hs).2

/-- Tokens inside a token of a level are those of a level further in, for which its rule gives the grammar. -/
theorem nested_of_levels (he : t.engine.Bounded) {depth : Nat} {token : Token}
    (hmem : token ∈ (t.levels depth g part).value) {inner : List Token} (hinner : token.content = .nested inner) :
    ∃ depth', depth = depth' + 1 ∧ ∃ active ∈ t.levelRules g, NamedBy active token ∧ ∃ ref h, active.rule.inside = some ref ∧
      (t.resolve ref).value = some h ∧ ∃ matched, HasAt List.length part token.span matched ∧
      inner = Token.mapOffsetsOf (· + token.span.start) (t.levels depth' h matched).value ∧
      ((t.levels depth g part).Succeeds → (t.levels depth' h matched).Succeeds) := by
  have hc := ((tiled_levels he depth g part).1.covers token hmem).classified hinner
  rw [levels_eq] at hmem ⊢
  obtain ⟨rules, offset, pick, matched, htakes, hat, rfl, hs⟩ := found_of_level he hmem hc
  obtain ⟨inner', hcontent, rfl⟩ := Token.mapContent_eq_nested hinner
  obtain ⟨ref, split, h, hinside, hsplit, hh, rfl, hs'⟩ := nested_of_content hcontent
  cases depth with
  | zero => cases hsplit
  | succ depth =>
    obtain rfl := Option.some.inj hsplit
    exact ⟨depth, rfl, pick.active, active_of_takes he htakes, ⟨rfl, rfl⟩, ref, h, hinside, hh, matched, hat, rfl,
      fun h => hs' (hs h)⟩

/-- A level that is part of a text, with offsets in bytes of the text: its tokens are those of what the text has at
    its span, split with its grammar. -/
def IsLevel (t : Tokenizer) (input : List Char) (depth : Nat) (g : Grammar) (span : Span) (tokens : List Token) : Prop :=
  ∃ part, HasAt byteLength input span part ∧ (t.levels depth g part).Succeeds ∧
    tokens = inBytes span.start part (t.levels depth g part).value

/-- What holds of the tokens of every run holds of every level of a tree. It may rest on where the level stands below
    the first one, and with `q` on runs without a failure. -/
theorem everyLevel_levels (he : t.engine.Bounded) {input : List Char} {total : Nat} {root : Grammar} {q : Prop}
    {P : Nat → Grammar → Span → List Token → Prop}
    (hP : ∀ {n depth g span part}, n + depth = total → t.Below n root g → HasAt byteLength input span part →
      (q → (t.levels depth g part).Succeeds) → P depth g span (inBytes span.start part (t.levels depth g part).value))
    {depth : Nat} :
    ∀ {n g span part}, n + depth = total → t.Below n root g → HasAt byteLength input span part →
      (q → (t.levels depth g part).Succeeds) →
      t.EveryLevel P depth g span (inBytes span.start part (t.levels depth g part).value) := by
  induction depth with
  | zero =>
    intro n g span part hn hbelow hat hs
    refine ⟨hP hn hbelow hat hs, fun token hmem inner hinner => ?_⟩
    obtain ⟨found, hfound, rfl⟩ := Token.mem_mapOffsetsOf hmem
    obtain ⟨tokens, htokens, -⟩ := Token.mapContent_eq_nested (Token.content_mapOffsets _ found ▸ hinner)
    obtain ⟨_, hdepth, -⟩ := nested_of_levels he hfound htokens
    cases hdepth
  | succ depth ih =>
    intro n g span part hn hbelow hat hs
    refine ⟨hP hn hbelow hat hs, fun token hmem inner hinner => ?_⟩
    obtain ⟨found, hfound, rfl⟩ := Token.mem_mapOffsetsOf hmem
    obtain ⟨tokens, htokens, rfl⟩ := Token.mapContent_eq_nested (Token.content_mapOffsets _ found ▸ hinner)
    obtain ⟨_, hdepth, active, hactive, hnamed, ref, h, hinside, hh, matched, hmatched, rfl, hs'⟩ :=
      nested_of_levels he hfound htokens
    cases hdepth
    have hwithin := @inBytes_within _ _ _ span.start _ _ hmatched (tiled_levels he depth h matched).1
    refine ⟨active, hactive, namedBy_mapOffsets.mpr hnamed, ref, h, hinside, hh, ?_⟩
    rw [Token.span_mapOffsets]
    show t.EveryLevel P depth h _ (inBytes span.start part _)
    rw [hwithin]
    exact ih (by omega) (hbelow.step hactive hinside hh) (hat.within isSize_byteLength hmatched.bytes)
      fun hq => hs' (hs hq)

theorem everyLevel_of_isLevel (he : t.engine.Bounded) {input : List Char}
    {P : Nat → Grammar → Span → List Token → Prop} {depth : Nat} {root : Grammar}
    (hP : ∀ {n left g span tokens}, n + left = depth → t.Below n root g → t.IsLevel input left g span tokens →
      P left g span tokens) {span : Span} {tokens : List Token} (h : t.IsLevel input depth root span tokens) :
    t.EveryLevel P depth root span tokens := by
  obtain ⟨part, hat, hs, rfl⟩ := h
  refine everyLevel_levels (q := True) he ?_ (Nat.zero_add depth) .self hat fun _ => hs
  exact fun hn hbelow hat hs => hP hn hbelow ⟨_, hat, hs trivial, rfl⟩

theorem isLevel_run (he : t.engine.Bounded) {text : String} (hs : (t.run g text).Succeeds) :
    t.IsLevel text.toList t.maxDepth g ⟨0, text.utf8ByteSize⟩ (t.tokenize g text) := by
  refine ⟨text.toList, ?_, hs, value_run he g text⟩
  rw [← byteLength_toList]
  exact HasAt.whole isSize_byteLength text.toList

end
end Tokenizer
end Highlight
