import Highlight.Proofs.Nesting
import Highlight.Proofs.Rest

/-! No text that a rule would take is left plain. Plain text ends a level only if no rule has a match in it or behind it,
    and before a token it ends no later than the leftmost match of any greedy rule begins. -/

namespace Highlight.Tokenizer
open RuleCursor

/-! ### Plain text -/

/-- Plain text misses nothing of a level that ends at `stop`, where `size` tells how the offsets count. The text of the
    level from the token on is searched: if the token is the last, no rule has a match there; otherwise the next token
    starts no later than the leftmost match of a greedy rule. -/
def MissesNothing (size : List Char → Nat) (attempt : Attempt) (rules : List ActiveRule) (text : List Char) (stop : Nat)
    (token : Token) (after : List Token) : Prop :=
  ∃ rest, HasAt size text ⟨token.span.start, stop⟩ rest ∧
    (after = [] → ∀ active ∈ rules, active.rule.leftmost attempt rest = none) ∧
    ∀ next ∈ after.head?, ∀ active ∈ rules, active.rule.greedy = true →
      ∀ c, active.rule.leftmost attempt rest = some c → next.span.start ≤ token.span.start + size (rest.take c.start)

/-- All plain text among the tokens of a level misses nothing. -/
def Lossless (size : List Char → Nat) (attempt : Attempt) (rules : List ActiveRule) (text : List Char) (stop : Nat) :
    List Token → Prop
  | [] => True
  | token :: after => (token.isClassified = false → MissesNothing size attempt rules text stop token after) ∧
      Lossless size attempt rules text stop after

/-! ### One level -/

section
variable {engine : Engine} {attempt : Attempt} {inside : ActiveRule → List Char → Logged Content}
  {bytes : Nat → Nat} {text : List Char}

theorem leftmostFrom_of_leftmost {rule : Rule} {offset : Nat} {part : List Char} {c : Candidate}
    (hpart : text.drop offset = part) (h : rule.leftmost attempt part = some c) :
    rule.leftmostFrom attempt text offset = some (c.shift offset) := by
  rw [Rule.leftmostFrom, hpart, h, Option.map_some]

theorem leftmost_start_le {rule : Rule} (he : engine.Attempts attempt rule.pattern) {part : List Char} {c : Candidate}
    (h : rule.leftmost attempt part = some c) : c.start ≤ part.length := by
  obtain ⟨i, -, -, hi, -⟩ := firstFrom_eq_some h
  obtain ⟨-, hlt, hstop⟩ := (Rule.offer_fits he hi).2
  omega

theorem lossless_of_split {rules : List Contender} {offset : Nat} {part : List Char} {out : Logged (List Token)}
    (h : Split engine inside bytes rules offset part out) :
    (∀ active ∈ rules.map (·.active), engine.Attempts attempt active.rule.pattern) → text.drop offset = part →
    offset ≤ text.length → AllRecall attempt text rules offset → out.Succeeds →
    Lossless List.length attempt (rules.map (·.active)) text text.length out.value := by
  -- Each turn starts with rules that remember right answers, which is what makes its pick the first one.
  induction h with
  | done => exact fun _ _ _ _ _ => trivial
  | @rest rules rules' offset part hne hv =>
    intro he hpart hle hr hs
    have hchosen := chosen_select hpart hle he hr (Logged.succeeds_mapOffsets.mp hs)
    refine ⟨fun _ => ⟨part, hasAt_drop hle hpart, fun _ active hmem => ?_, fun next hnext => nomatch hnext⟩, trivial⟩
    obtain ⟨r, hr', rfl⟩ := List.mem_map.mp hmem
    cases hleft : r.active.rule.leftmost attempt part with
    | none => rfl
    | some c =>
      obtain ⟨pick, hpick, -⟩ := hchosen.some_of_leftmost r hr' _ (leftmostFrom_of_leftmost hpart hleft)
      rw [hv] at hpick
      cases hpick
  | @turn rules rules' offset gap matched back pick rest hne hv hactives hmem hstart hstop hrest ih =>
    intro he hpart hle hr hs
    obtain ⟨hselect, -, hafter⟩ := succeeds_turn hs
    obtain ⟨hle', hback, hr'⟩ := recalls_turn he hle hpart hr hselect hv hstop
    have hchosen := chosen_select hpart hle he hr hselect
    have hlast := ih (hactives ▸ he) hback hle' hr' hafter
    rw [hactives] at hlast
    have htoken : Lossless List.length attempt (rules.map (·.active)) text text.length
        (tokenOf pick.active pick.found (inside pick.active matched).value :: rest.value) :=
      ⟨fun h => (by cases h), hlast⟩
    cases gap with
    | nil => exact htoken
    | cons c gap =>
      refine ⟨fun _ => ⟨_, hasAt_drop hle hpart, fun h => (by cases h), ?_⟩, htoken⟩
      intro next hnext active hactive hgreedy c' hc'
      obtain rfl := Option.some.inj hnext
      obtain ⟨r, hr'', rfl⟩ := List.mem_map.mp hactive
      obtain ⟨pick', hpick', hle''⟩ := hchosen.some_of_leftmost r hr'' _ (leftmostFrom_of_leftmost hpart hc')
      rw [hv] at hpick'
      obtain rfl := Option.some.inj hpick'
      -- The pick starts no later than the leftmost match of a greedy rule, so the plain text before it ends there.
      have hfirst : pick.found.start ≤ offset + c'.start := by
        rw [Nat.add_comm]
        exact hle'' hgreedy
      have hlen := leftmost_start_le (he _ (List.mem_map_of_mem hr'')) hc'
      rw [List.length_take_of_le hlen]
      exact hfirst

end

/-! ### Bytes -/

section
variable {attempt : Attempt} {rules : List ActiveRule} {input text : List Char}

theorem byteOffset_mono {m n : Nat} (h : m ≤ n) : byteOffset text m ≤ byteOffset text n := by
  obtain ⟨k, rfl⟩ := Nat.exists_eq_add_of_le h
  rw [byteOffset_add]
  exact Nat.le_add_right _ _

theorem missesNothing_inBytes {span : Span} (hat : HasAt byteLength input span text) {token : Token}
    {after : List Token} (h : MissesNothing List.length attempt rules text text.length token after) :
    MissesNothing byteLength attempt rules input span.stop (token.mapOffsets fun n => byteOffset text n + span.start)
      (inBytes span.start text after) := by
  obtain ⟨rest, hrest, hlast, hgreedy⟩ := h
  have hstop : byteOffset text text.length + span.start = span.stop := by
    rw [byteOffset, List.take_length, hat.stop_eq isSize_byteLength, Nat.add_comm]
  have hbytes := hat.within isSize_byteLength hrest.bytes
  simp only [Span.map, hstop] at hbytes
  refine ⟨rest, ?_, ?_, ?_⟩
  · rw [Token.span_mapOffsets]
    exact hbytes
  · intro h
    cases after with
    | nil => exact hlast rfl
    | cons => cases h
  · intro next hnext active hactive hg c hc
    cases after with
    | nil => cases hnext
    | cons u after =>
      obtain rfl := Option.some.inj hnext
      have hle := hgreedy u rfl active hactive hg c hc
      obtain ⟨front, back, htext, hfront, -⟩ := hrest
      have hahead :
          byteOffset (text.drop token.span.start) (rest.take c.start).length = byteLength (rest.take c.start) := by
        rw [htext, ← hfront, List.drop_left, byteOffset, List.take_append_of_le_length (List.length_take_le' _ _),
          List.length_take, ← List.take_eq_take_min]
      have hmono := @byteOffset_mono text _ _ hle
      rw [byteOffset_add, hahead] at hmono
      rw [Token.span_mapOffsets, Token.span_mapOffsets]
      simp only [Span.map]
      omega

theorem lossless_inBytes {span : Span} (hat : HasAt byteLength input span text) {tokens : List Token}
    (h : Lossless List.length attempt rules text text.length tokens) :
    Lossless byteLength attempt rules input span.stop (inBytes span.start text tokens) := by
  induction tokens with
  | nil => trivial
  | cons token after ih =>
    refine ⟨fun hc => missesNothing_inBytes hat (h.1 ?_), ih h.2⟩
    rwa [Token.isClassified_mapOffsets] at hc

end

/-! ### Runs -/

/-- No classifiable text is lost. If no search is given up, the tokens of every level of the tree tile the level, and its
    plain text misses nothing: behind the last token of a level that a rule has found no active rule has a match, and no
    plain text runs into the leftmost match of a greedy active rule. -/
theorem tokenize_lossless {t : Tokenizer} {attempt : Attempt} (hb : t.engine.Bounded) (g : Grammar)
    (he : ∀ p, t.InPlay t.maxDepth g p → t.engine.Attempts attempt p) (text : String) (hs : (t.run g text).Succeeds) :
    t.EveryLevel
      (fun depth h span tokens => t.IsLevel text.toList depth h span tokens ∧
        Tile byteLength text.toList span.start span.stop tokens ∧
        (∀ active, active ∈ t.levelRules h ↔ t.IsActive h active) ∧
        Lossless byteLength attempt (t.levelRules h) text.toList span.stop tokens)
      t.maxDepth g ⟨0, text.utf8ByteSize⟩ (t.tokenize g text) := by
  refine everyLevel_of_isLevel hb ?_ (isLevel_run hb hs)
  rintro n depth h span _ hn hbelow ⟨part, hat, hpart, rfl⟩
  refine ⟨⟨part, hat, hpart, rfl⟩, tile_inBytes hat (tiled_levels hb depth h part).1, fun _ => mem_levelRules,
    lossless_inBytes hat ?_⟩
  obtain ⟨inside, hlevels⟩ := t.levels_eq_level depth
  rw [hlevels] at hpart ⊢
  have hrules : ∀ active ∈ (contenders (t.levelRules h)).map (·.active), t.engine.Attempts attempt active.rule.pattern := by
    rw [actives_contenders]
    exact fun active hactive => he _ ⟨n, by omega, h, hbelow, active, hactive, rfl⟩
  have hlossless := lossless_of_split (split_level hb inside h part) hrules rfl (Nat.zero_le _)
    (allRecall_contenders attempt part (t.levelRules h) 0) (succeeds_steps hpart)
  rwa [actives_contenders, ← value_level] at hlossless

/-- The patterns of the grammar with two levels. -/
theorem literal_of_inPlay {depth : Nat} {p : Pattern} (h : Tokenizer.compiled.InPlay depth nestedSample p) :
    p = .literal "bab" ∨ p = .literal "a" := by
  obtain ⟨n, -, g, hbelow, active, hactive, rfl⟩ := h
  cases hbelow with
  | self =>
    obtain rfl := List.mem_singleton.mp hactive
    exact Or.inl rfl
  | inside houter hinside hh hbelow =>
    obtain rfl := List.mem_singleton.mp houter
    obtain rfl := Option.some.inj hinside
    obtain rfl := Option.some.inj hh
    cases hbelow with
    | self =>
      obtain rfl := List.mem_singleton.mp hactive
      exact Or.inr rfl
    | inside hinner hinside =>
      obtain rfl := List.mem_singleton.mp hinner
      cases hinside

/-- Nothing is lost of a text with two levels, with patterns taken as literal text and with compiled ones. -/
theorem tokenize_lossless_nested :
    Pattern.compile "bab" "" Pattern.defaultFailures = .ok (.literal "bab") ∧
      Pattern.compile "a" "" Pattern.defaultFailures = .ok (.literal "a") ∧
      ∀ t, t = Tokenizer.literal ∨ t = Tokenizer.compiled →
        (t.run nestedSample "ébab.").Succeeds ∧
          t.EveryLevel
            (fun depth h span tokens => t.IsLevel "ébab.".toList depth h span tokens ∧
              Tile byteLength "ébab.".toList span.start span.stop tokens ∧
              (∀ active, active ∈ t.levelRules h ↔ t.IsActive h active) ∧
              Lossless byteLength Engine.literalAt (t.levelRules h) "ébab.".toList span.stop tokens)
            32 nestedSample ⟨0, 6⟩ (t.tokenize nestedSample "ébab.") := by
  refine ⟨rfl, rfl, ?_⟩
  rintro t (rfl | rfl)
  · have hs : (Tokenizer.literal.run nestedSample "ébab.").Succeeds := by decide +kernel
    exact ⟨hs, tokenize_lossless Engine.bounded_literal nestedSample (fun p _ => Engine.attempts_literal p) "ébab." hs⟩
  · have he : ∀ p, Tokenizer.compiled.InPlay 32 nestedSample p → Engine.compiled.Attempts Engine.literalAt p := by
      intro p hp
      rcases literal_of_inPlay hp with rfl | rfl <;> exact Engine.attempts_compiled _
    have hs : (Tokenizer.compiled.run nestedSample "ébab.").Succeeds := by decide +kernel
    exact ⟨hs, tokenize_lossless Engine.bounded_compiled nestedSample he "ébab." hs⟩

end Highlight.Tokenizer
