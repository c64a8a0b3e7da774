import Highlight.Proofs.Insides

/-! The depth limit. Levels below the limit are not split any more, and their text is kept as it is. As the tokens of a
    level cover its text, a lower limit prunes the tree of a higher one and changes nothing else, as long as no chain of
    rests is cut short by it (`tokenize_pruned`). -/

namespace Highlight

/-! ### Pruning -/

namespace Token

/-- The content with at most `depth` levels in it. The tokens of the next level are replaced by their text. -/
def pruneContent : (depth : Nat) → Content → Content
  | _, .text text => .text text
  | 0, .nested tokens => .text (flatten tokens)
  | depth + 1, .nested tokens => .nested (tokens.map (withContent (pruneContent depth)))

/-- The token with at most `depth` levels inside it. -/
def prune (depth : Nat) : Token → Token := withContent (pruneContent depth)

theorem pruneContent_text (depth : Nat) (text : String) : pruneContent depth (.text text) = .text text := by
  cases depth <;> rfl

theorem withContent_mapOffsets {f : Nat → Nat} {k : Content → Content} (t : Token)
    (h : k (mapContent f t.content) = mapContent f (k t.content)) :
    (t.mapOffsets f).withContent k = (t.withContent k).mapOffsets f := by
  obtain ⟨name, aliasName, content, span⟩ := t
  simp only [mapOffsets, withContent, h]

theorem pruneContent_mapContent (f : Nat → Nat) (depth : Nat) (content : Content) :
    pruneContent depth (mapContent f content) = mapContent f (pruneContent depth content) := by
  induction depth generalizing content with
  | zero =>
    cases content with
    | text text => rfl
    | nested tokens => rw [mapContent, pruneContent, pruneContent, flatten, charsOf_mapOffsetsOf, mapContent, flatten]
  | succ depth ih =>
    cases content with
    | text text => rfl
    | nested tokens =>
      rw [mapContent, pruneContent, pruneContent, mapContent, mapOffsetsOf_eq_map, mapOffsetsOf_eq_map, List.map_map,
        List.map_map]
      exact congrArg Content.nested (List.map_congr_left fun t _ => withContent_mapOffsets t (ih t.content))

theorem map_prune_mapOffsetsOf (f : Nat → Nat) (depth : Nat) (tokens : List Token) :
    (mapOffsetsOf f tokens).map (prune depth) = mapOffsetsOf f (tokens.map (prune depth)) := by
  rw [mapOffsetsOf_eq_map, mapOffsetsOf_eq_map, List.map_map, List.map_map]
  exact List.map_congr_left fun t _ => withContent_mapOffsets t (pruneContent_mapContent f depth t.content)

end Token

namespace Tokenizer

/-- The tokenizer with another depth limit. -/
def limited (t : Tokenizer) (maxDepth : Nat) : Tokenizer := { t with maxDepth }

/-! ### Rests within the limit -/

/-- The rests from a reference on come to an end, or to a language that is not found, within so many hops. -/
inductive RestsEnd (t : Tokenizer) : (hops : Nat) → Option GrammarRef → Prop
  | none {hops} : RestsEnd t hops none
  | unresolved {hops ref} : (t.resolve ref).value = none → RestsEnd t hops (some ref)
  | next {hops ref h} : (t.resolve ref).value = some h → RestsEnd t hops h.rest → RestsEnd t (hops + 1) (some ref)

section
variable {t : Tokenizer} {g : Grammar}

@[simp] theorem resolve_limited (t : Tokenizer) (maxDepth : Nat) (ref : GrammarRef) :
    (t.limited maxDepth).resolve ref = t.resolve ref := by
  cases ref <;> rfl

theorem value_restChain_limited (t : Tokenizer) (maxDepth hops : Nat) (ref : Option GrammarRef) :
    ((t.limited maxDepth).restChain hops ref).value = (t.restChain hops ref).value := by
  induction hops generalizing ref with
  | zero => cases ref <;> rfl
  | succ hops ih =>
    cases ref with
    | none => rfl
    | some r =>
      cases hr : (t.resolve r).value with
      | none => rw [restChain_unresolved hr, restChain_unresolved ((resolve_limited t maxDepth r).symm ▸ hr)]
      | some h => rw [restChain_resolved hr, restChain_resolved ((resolve_limited t maxDepth r).symm ▸ hr), ih]

/-- Hops that are left over do not matter. -/
theorem RestsEnd.value_restChain {hops hops' : Nat} {ref : Option GrammarRef} (h : RestsEnd t hops ref)
    (hle : hops ≤ hops') : (t.restChain hops' ref).value = (t.restChain hops ref).value := by
  induction h generalizing hops' with
  | none => rw [restChain_none, restChain_none]
  | @unresolved hops ref hr =>
    have hnil : ∀ n, (t.restChain n (some ref)).value = [] := by
      intro n
      cases n with
      | zero => rfl
      | succ n => exact restChain_unresolved hr
    rw [hnil, hnil]
  | next hr _ ih =>
    cases hops' with
    | zero => exact absurd hle (Nat.not_succ_le_zero _)
    | succ hops' => rw [restChain_resolved hr, restChain_resolved hr, ih (Nat.le_of_succ_le_succ hle)]

theorem levelRules_limited {d D : Nat} (h : RestsEnd t d g.rest) (hle : d ≤ D) :
    (t.limited d).levelRules g = (t.limited D).levelRules g := by
  have hchain : ((t.limited d).restChain d g.rest).value = ((t.limited D).restChain D g.rest).value := by
    rw [value_restChain_limited, value_restChain_limited, h.value_restChain hle]
  exact congrArg (fun chain => activeRules (activeEntries g chain)) hchain

/-! ### Two limits -/

/-- The text of a match at the limit is what the tokens inside it would have. -/
theorem content_at_limit (he : t.engine.Bounded) (d D depth : Nat) (active : ActiveRule) (matched : List Char) :
    ((t.limited d).content ((t.limited d).deeper 0) active matched).value =
      Token.pruneContent 0 ((t.limited D).content ((t.limited D).deeper depth) active matched).value := by
  rw [deeper, value_content_none]
  rcases (t.limited D).content_cases ((t.limited D).deeper depth) active matched with
    ⟨ws, heq⟩ | ⟨ref, split, h, ws, -, hsplit, -, heq⟩
  · rw [heq]
    rfl
  · cases depth with
    | zero => cases hsplit
    | succ depth =>
      obtain rfl := Option.some.inj hsplit
      have hD : (t.limited D).engine.Bounded := he
      rw [heq, Token.pruneContent, flatten, (tiled_levels hD depth h matched).charsOf]

/-- With `left` levels to go instead of `left + extra`, a level has the same tokens, pruned. -/
theorem levels_pruned (he : t.engine.Bounded) {d D : Nat} (hle : d ≤ D) (left extra : Nat)
    (hrests : ∀ n ≤ left, ∀ h, (t.limited D).Below n g h → RestsEnd t d h.rest) (text : List Char) :
    ((t.limited d).levels left g text).value =
      ((t.limited D).levels (left + extra) g text).value.map (Token.prune left) := by
  induction left generalizing g text with
  | zero =>
    rw [levels_eq, levels_eq, value_level, value_level, levelRules_limited (hrests 0 (Nat.le_refl 0) g .self) hle]
    exact value_steps_map (Token.pruneContent_text 0) (fun n => Token.pruneContent_mapContent (· + n) 0)
      fun active _ matched => content_at_limit he d D (0 + extra) active matched
  | succ left ih =>
    rw [Nat.add_right_comm, levels_eq, levels_eq, value_level, value_level,
      levelRules_limited (hrests 0 (Nat.zero_le _) g .self) hle]
    refine value_steps_map (Token.pruneContent_text _) (fun n => Token.pruneContent_mapContent (· + n) _) ?_
    intro active hactive matched
    rw [actives_contenders] at hactive
    refine value_content_map (Token.pruneContent_text _) (fun ref _ => by rw [resolve_limited, resolve_limited]) ?_
    intro ref h hinside hh
    have hbelow : ∀ n ≤ left, ∀ i, (t.limited D).Below n h i → RestsEnd t d i.rest := fun n hn i hi =>
      hrests (n + 1) (Nat.succ_le_succ hn) i (.inside hactive hinside hh hi)
    rw [ih hbelow]
    rfl

/-- A lower depth limit only prunes. If in every level that is split the rests come to an end, or to a language that is
    not found, within `d` hops, then the limit `d` gives the tree of any higher limit in which the tokens `d` levels
    below the first hold their text instead of tokens. -/
theorem tokenize_pruned (he : t.engine.Bounded) {d D : Nat} (hle : d ≤ D) (g : Grammar)
    (hrests : ∀ n ≤ d, ∀ h, (t.limited D).Below n g h → RestsEnd t d h.rest) (text : String) :
    (t.limited d).tokenize g text = ((t.limited D).tokenize g text).map (Token.prune d) := by
  have hlevels := levels_pruned he hle d (D - d) hrests text.toList
  rw [Nat.add_sub_cancel' hle] at hlevels
  have hd : (t.limited d).engine.Bounded := he
  have hD : (t.limited D).engine.Bounded := he
  rw [tokenize, tokenize, value_run hd, value_run hD, inBytes, inBytes, Token.map_prune_mapOffsetsOf]
  exact congrArg _ hlevels

/-- The rest of two of the grammars below. It names a language that is not found as its own rest. -/
def tailSample : Grammar := ⟨[⟨"dot", [{ pattern := .literal "." }]⟩], some (.named "missing")⟩

def middleSample : Grammar :=
  let inner : Grammar := ⟨[⟨"letter", [{ pattern := .literal "a" }]⟩], none⟩
  ⟨[⟨"group", [{ pattern := .literal "bab", inside := some (.inline inner) }]⟩], some (.named "tail")⟩

/-- A grammar with two levels inside it. -/
def layeredSample : Grammar :=
  ⟨[⟨"line", [{ pattern := .literal "xbab", inside := some (.named "middle") }]⟩], some (.named "tail")⟩

/-- A tokenizer that knows the languages that these grammars name. -/
def layered : Tokenizer where
  engine := .literal
  language? name := if name = "middle" then some middleSample else if name = "tail" then some tailSample else none

theorem tokenize_pruned_layered :
    (∀ n ≤ 1, ∀ h, (layered.limited 2).Below n layeredSample h → RestsEnd layered 1 h.rest) ∧
      (layered.limited 2).tokenize layeredSample "xbab." =
        [⟨some "line", none, .nested [.plain "x" ⟨0, 1⟩, ⟨some "group", none,
            .nested [.plain "b" ⟨1, 2⟩, ⟨some "letter", none, .text "a", ⟨2, 3⟩⟩, .plain "b" ⟨3, 4⟩], ⟨1, 4⟩⟩], ⟨0, 4⟩⟩,
          ⟨some "dot", none, .text ".", ⟨4, 5⟩⟩] ∧
      (layered.limited 1).tokenize layeredSample "xbab." =
        [⟨some "line", none, .nested [.plain "x" ⟨0, 1⟩, ⟨some "group", none, .text "bab", ⟨1, 4⟩⟩], ⟨0, 4⟩⟩,
          ⟨some "dot", none, .text ".", ⟨4, 5⟩⟩] ∧
      (layered.limited 1).tokenize layeredSample "xbab." =
        ((layered.limited 2).tokenize layeredSample "xbab.").map (Token.prune 1) := by
  have htail : RestsEnd layered 1 (some (.named "tail")) := .next (h := tailSample) rfl (.unresolved rfl)
  have hrests : ∀ n ≤ 1, ∀ h, (layered.limited 2).Below n layeredSample h → RestsEnd layered 1 h.rest := by
    rintro n hn h hbelow
    cases hbelow with
    | self => exact htail
    | @inside n _ h _ active ref hactive hinside hh hbelow =>
      obtain rfl : n = 0 := by omega
      cases hbelow
      have hrules : (layered.limited 2).levelRules layeredSample =
        [⟨"line", { pattern := .literal "xbab", inside := some (.named "middle") }⟩,
          ⟨"dot", { pattern := .literal "." }⟩] := rfl
      rw [hrules] at hactive
      rcases List.mem_cons.mp hactive with rfl | hactive
      · obtain rfl : GrammarRef.named "middle" = ref := Option.some.inj hinside
        obtain rfl : middleSample = h := Option.some.inj hh
        exact htail
      · obtain rfl := List.mem_singleton.mp hactive
        cases hinside
  exact ⟨hrests, by decide +kernel, by decide +kernel,
    tokenize_pruned Engine.bounded_literal (by decide) layeredSample hrests "xbab."⟩

end
end Tokenizer
end Highlight
