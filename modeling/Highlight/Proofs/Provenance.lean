import Highlight.Proofs.Nesting

/-! Where tokens come from. Every token that a rule has found goes back to a match which the engine reported for that
    rule, in the text that was left at an offset where the level stood, be it many steps ago; only a rule that is not
    greedy may also be given a part of that text, up to the match of a rule before it. -/

namespace Highlight

/-! ### Reported matches -/

namespace RuleCursor
open Candidate

/-- For the part of a text from `a` up to `b` the engine has reported a match of the rule's pattern, as written or tied
    to the start, and the candidate is that match: its context is put aside, and its offsets count from the start of the
    whole text. -/
def Reports (engine : Engine) (rule : Rule) (text : List Char) (a b : Nat) (c : Candidate) : Prop :=
  ∃ m, ((∃ start, engine.search rule.pattern (slice text ⟨a, b⟩) start = .ok (some m)) ∨
      engine.atStart rule.pattern (slice text ⟨a, b⟩) = .ok (some m)) ∧ c = (ofMatch rule m).shift a

/-- The candidate was reported for all the text that was left at an offset visited so far. -/
def Sighted (engine : Engine) (visited : Nat → Prop) (rule : Rule) (text : List Char) (c : Candidate) : Prop :=
  ∃ a, visited a ∧ a ≤ c.start ∧ c.stop ≤ text.length ∧ Reports engine rule text a text.length c

/-- What the rule remembers was sighted. -/
def Recollects (engine : Engine) (visited : Nat → Prop) (rule : Rule) (text : List Char) (cursor : RuleCursor) : Prop :=
  ∀ previous c, cursor.known = some (previous, some c) → Sighted engine visited rule text c

section
variable {engine : Engine} {visited : Nat → Prop} {rule : Rule} {active : ActiveRule} {cursor : RuleCursor}
  {offset limit : Nat} {text part : List Char} {c : Candidate} {m : Regex.Match}

theorem eq_of_accept (h : (accept active cursor offset m).value.2 = some c) :
    c = (ofMatch active.rule m).shift offset := by
  rw [value_accept] at h
  split at h
  · cases h
  · exact (Option.some.inj h).symm

theorem reported_searchFrom (calls start : Nat)
    (h : (searchFrom engine active offset part calls cursor start).value.2 = some c) :
    ∃ m start', engine.search active.rule.pattern part start' = .ok (some m) ∧
      c = (ofMatch active.rule m).shift offset := by
  induction calls, cursor, start using searchFrom.induct engine active part with
  | case1 cursor start hle =>
    rw [searchFrom_again hle] at h
    cases h
  | case2 cursor start hle calls _ herr =>
    rw [searchFrom_failed hle herr] at h
    cases h
  | case3 cursor start hle calls hnone =>
    rw [searchFrom_nothing hle hnone] at h
    cases h
  | case4 cursor start hle calls m hm ih =>
    cases hc : (accept active cursor offset m).value.2 with
    | some c' =>
      rw [searchFrom_found hle hm hc] at h
      obtain rfl : c' = c := Option.some.inj h
      exact ⟨m, start, hm, eq_of_accept hc⟩
    | none =>
      rw [searchFrom_empty hle hm hc] at h
      exact ih _ h
  | case5 calls cursor start hgt =>
    rw [searchFrom_past (Nat.lt_of_not_le hgt)] at h
    cases h

theorem reports_search (h : (search engine active cursor offset (slice text ⟨offset, limit⟩)).value.2 = some c) :
    Reports engine active.rule text offset limit c := by
  obtain ⟨m, start, hm, hc⟩ := reported_searchFrom _ 0 h
  exact ⟨m, Or.inl ⟨start, hm⟩, hc⟩

theorem reports_atStart (h : (atStart engine active cursor offset (slice text ⟨offset, limit⟩)).value.2 = some c) :
    Reports engine active.rule text offset limit c := by
  unfold atStart at h
  split at h
  · cases h
  · cases h
  · rename_i m hm
    exact ⟨m, Or.inr hm, eq_of_accept h⟩

theorem sighted_ask (he : engine.Bounded) (hvisited : visited offset) (hle : offset ≤ text.length) {anchored : Bool}
    (h : (ask engine active cursor offset (text.drop offset) anchored).value.2 = some c) :
    Sighted engine visited active.rule text c := by
  obtain ⟨⟨hstart, -, hstop⟩, -, -⟩ := (asked_ask he anchored).fits h
  rw [List.length_drop, Nat.add_sub_cancel' hle] at hstop
  refine ⟨offset, hvisited, hstart, hstop, ?_⟩
  rw [← slice_to_end] at h
  cases anchored
  · exact reports_search h
  · exact reports_atStart h

theorem Way.kept_known {anchored : Bool} (h : Way rule cursor offset anchored (some c)) :
    ∃ previous, cursor.known = some (previous, some c) := by
  cases h with
  | ahead hk _ _ _ _ => exact ⟨_, hk⟩
  | overtaken hk _ _ _ => exact ⟨_, hk⟩

/-- What a rule offers was sighted, given that what it remembers was. -/
theorem sighted_candidate (he : engine.Bounded) (hvisited : visited offset) (hle : offset ≤ text.length)
    (hr : Recollects engine visited active.rule text cursor)
    (h : (candidate engine active cursor offset (text.drop offset)).value.2 = some c) :
    Sighted engine visited active.rule text c := by
  rcases candidate_cases engine active cursor offset (text.drop offset) with
    ⟨cached, hk, heq⟩ | ⟨anchored, kept, hway, heq⟩
  · rw [heq] at h
    obtain rfl : cached = some c := h
    exact hr _ _ hk
  · rw [heq] at h
    rcases earlier_eq (show earlier _ kept = some c from h) with hfresh | rfl
    · exact sighted_ask he hvisited hle hfresh
    · obtain ⟨previous, hk⟩ := hway.kept_known
      exact hr _ _ hk

theorem reports_windowed (h : (windowed engine active cursor offset limit (text.drop offset)).value.2 = some c) :
    Reports engine active.rule text offset limit c := by
  have hcut : slice (text.drop offset) ⟨offset - offset, limit - offset⟩ = slice text ⟨offset, limit⟩ := by
    simp [slice]
  rw [windowed, Logged.value_bind, Logged.value_cut, hcut] at h
  exact reports_search h

end
end RuleCursor

/-! ### Selected matches -/

namespace Tokenizer
open RuleCursor

section
variable {engine : Engine} {offset index : Nat} {part : List Char} {best : Option Pick} {pick : Pick}

/-- How a rule comes by the pick it makes: it is what the rule offers, or, if the rule is not greedy, what it finds
    before the start of the pick so far. -/
def Made (engine : Engine) (offset : Nat) (part : List Char) (r : Contender) (best : Option Pick) (c : Candidate) :
    Prop :=
  (r.cursor.candidate engine r.active offset part).value.2 = some c ∨
    r.active.rule.greedy = false ∧ ∃ first cursor, best = some first ∧
      (windowed engine r.active cursor offset first.found.start part).value.2 = some c

theorem made_of_contend {r : Contender} (h : (contend engine offset part index r best).value.2 = some pick) :
    best = some pick ∨
      pick.index = index ∧ pick.active = r.active ∧ Made engine offset part r best pick.found := by
  have hcontest := contend_contest engine offset part index r best
  generalize contend engine offset part index r best = out at hcontest h
  cases hcontest with
  | nothing => exact Or.inl h
  | first hc =>
    cases h
    exact Or.inr ⟨rfl, rfl, Or.inl hc⟩
  | refused => exact Or.inl h
  | taken hc =>
    cases h
    exact Or.inr ⟨rfl, rfl, Or.inl hc⟩
  | @windowed _ first _ _ hgreedy _ =>
    rcases hv : (windowed engine r.active (r.cursor.candidate engine r.active offset part).value.1 offset
      first.found.start part).value.2 with _ | c
    · exact Or.inl (by simpa [hv] using h)
    · obtain rfl : ⟨index, r.active, c⟩ = pick := by simpa [hv] using h
      exact Or.inr ⟨rfl, rfl, Or.inr ⟨hgreedy, first, _, rfl, hv⟩⟩

/-- A pick is made by one of the rules, given the pick of those before it. -/
theorem made_of_selectFrom {rules : List Contender} :
    ∀ {index : Nat} {best : Option Pick}, (selectFrom engine offset part index rules best).value.2 = some pick →
    best = some pick ∨ ∃ before r after, rules = before ++ r :: after ∧ pick.index = index + before.length ∧
      pick.active = r.active ∧
      Made engine offset part r (selectFrom engine offset part index before best).value.2 pick.found := by
  induction rules with
  | nil => exact fun h => Or.inl h
  | cons r rs ih =>
    intro index best h
    rw [pick_selectFrom_cons] at h
    rcases ih h with hfirst | ⟨before, r', after, rfl, hindex, hactive, hmade⟩
    · rcases made_of_contend hfirst with hbest | ⟨hindex, hactive, hmade⟩
      · exact Or.inl hbest
      · exact Or.inr ⟨[], r, rs, rfl, hindex, hactive, hmade⟩
    · refine Or.inr ⟨r :: before, r', after, rfl, ?_, hactive, ?_⟩
      · rw [hindex, List.length_cons]
        omega
      · rw [pick_selectFrom_cons]
        exact hmade

/-- After a selection each rule remembers what it has offered. -/
theorem known_selectFrom {rules : List Contender} :
    ∀ {index : Nat} {best : Option Pick}, ∀ r' ∈ (selectFrom engine offset part index rules best).value.1,
    ∃ r ∈ rules, r'.active = r.active ∧
      r'.cursor.known = some (offset, (r.cursor.candidate engine r.active offset part).value.2) := by
  induction rules with
  | nil =>
    intro index best r' h
    cases h
  | cons r rs ih =>
    intro index best r' h
    rw [rules_selectFrom_cons] at h
    rcases List.mem_cons.mp h with rfl | h
    · exact ⟨r, List.mem_cons_self, active_contend index r best, by rw [known_contend, known_candidate]⟩
    · obtain ⟨r₂, hmem, hactive, hknown⟩ := ih r' h
      exact ⟨r₂, List.mem_cons_of_mem _ hmem, hactive, hknown⟩

end

/-! ### Justified matches -/

section
variable {engine : Engine} {actives : List ActiveRule} {text : List Char} {rules : List Contender} {offset : Nat}
  {pick : Pick}

/-- The offsets at which a level stands. -/
def Visited (engine : Engine) (actives : List ActiveRule) (text : List Char) (a : Nat) : Prop :=
  ∃ rules, Reached engine actives text rules a

/-- Why a level takes a match at an offset: the match is one of the active rule with its index, and it was sighted at
    an offset where the level stood. If the rule is not greedy, the match may instead have been reported for the text up
    to the pick of the rules before it in the same step. -/
structure Justified (engine : Engine) (actives : List ActiveRule) (text : List Char) (rules : List Contender)
    (offset : Nat) (pick : Pick) : Prop where
  rule : actives[pick.index]? = some pick.active
  evidence : Sighted engine (Visited engine actives text) pick.active.rule text pick.found ∨
    pick.active.rule.greedy = false ∧ ∃ first,
      (selectFrom engine offset (text.drop offset) 0 (rules.take pick.index) none).value.2 = some first ∧
      first.index < pick.index ∧ actives[first.index]? = some first.active ∧ offset ≤ pick.found.start ∧
      pick.found.stop ≤ first.found.start ∧
      Reports engine pick.active.rule text offset first.found.start pick.found

theorem recollects_of_reached (he : engine.Bounded) (h : Reached engine actives text rules offset) :
    ∀ r ∈ rules, Recollects engine (Visited engine actives text) r.active.rule text r.cursor := by
  induction h with
  | start =>
    intro r hr
    obtain ⟨active, -, rfl⟩ := List.mem_map.mp hr
    intro previous c hk
    cases hk
  | @turn rules offset pick hreached _ _ ih =>
    intro r' hr' previous c hk
    obtain ⟨r, hr, hactive, hknown⟩ := known_selectFrom r' hr'
    -- What a rule remembers it has offered in the turn before, so there is evidence for it from then on.
    obtain ⟨-, hfound⟩ := Prod.mk.inj (Option.some.inj (hknown.symm.trans hk))
    rw [hactive]
    exact sighted_candidate he ⟨rules, hreached⟩ (standing_of_reached he hreached).offset_le (ih r hr) hfound

theorem active_of_parts {before after : List Contender} {r : Contender} (hactives : rules.map (·.active) = actives)
    (hrules : rules = before ++ r :: after) : actives[before.length]? = some r.active := by
  subst hactives hrules
  simp

/-- Every match that a level takes is justified. -/
theorem justified_of_takes (he : engine.Bounded) (h : Takes engine actives text rules offset pick) :
    Justified engine actives text rules offset pick := by
  have hstanding := standing_of_reached he h.reached
  rcases made_of_selectFrom h.picked with hnone | ⟨before, r, after, hrules, hindex, hactive, hmade⟩
  · cases hnone
  rw [Nat.zero_add] at hindex
  have htake : rules.take before.length = before := by rw [hrules, List.take_left]
  refine ⟨by rw [hindex, hactive]; exact active_of_parts hstanding.actives hrules, ?_⟩
  rw [hindex, htake, hactive]
  rcases hmade with hoffer | ⟨hgreedy, first, cursor, hfirst, hwindow⟩
  · have hmem : r ∈ rules := hrules ▸ List.mem_append_right _ List.mem_cons_self
    exact Or.inl (sighted_candidate he ⟨rules, h.reached⟩ hstanding.offset_le
      (recollects_of_reached he h.reached r hmem) hoffer)
  · -- The pick of the rules before is a match in the text that is left, which bounds the part searched again.
    have hremember : AllRemember before offset (offset + (text.drop offset).length) := by
      rw [List.length_drop, Nat.add_sub_cancel' hstanding.offset_le]
      exact fun r' hr' => hstanding.remember r' (hrules ▸ List.mem_append_left _ hr')
    obtain ⟨hfrom, hlt, hto⟩ : first.found.Fits offset (offset + (text.drop offset).length) := by
      rcases (selected_select he hremember).pick hfirst with hnone | ⟨-, hfits⟩
      · cases hnone
      · exact hfits
    obtain ⟨⟨hstart, -, hstop⟩, -, -⟩ :=
      (asked_windowed he hfrom (Nat.le_trans (Nat.le_of_lt hlt) hto)).fits hwindow
    rw [Nat.add_sub_cancel' hfrom] at hstop
    refine Or.inr ⟨hgreedy, first, hfirst, ?_, ?_, hstart, hstop, reports_windowed hwindow⟩
    · rcases made_of_selectFrom hfirst with hnone | ⟨before', r', after', rfl, hindex', -, -⟩
      · cases hnone
      · rw [hindex', List.length_append, List.length_cons]
        omega
    · rcases made_of_selectFrom hfirst with hnone | ⟨before', r', after', rfl, hindex', hactive', -⟩
      · cases hnone
      · rw [hindex', Nat.zero_add, hactive']
        exact active_of_parts hstanding.actives (by rw [hrules, List.append_assoc, List.cons_append])

end

/-! ### Tokens -/

section
variable {t : Tokenizer} {depth : Nat} {g : Grammar} {text : List Char} {token : Token}

/-- Why a level has a token, where `depth` more levels may follow. It is the token of a match that the level takes, and
    that is justified; it bears the names of the rule; and it has tokens inside just where the rule has a grammar for
    the inside that is found and another level may follow. These are the tokens of the text that it covers. -/
structure Explained (t : Tokenizer) (depth : Nat) (g : Grammar) (text : List Char) (token : Token)
    (rules : List Contender) (offset : Nat) (pick : Pick) : Prop where
  takes : Takes t.engine (t.levelRules g) text rules offset pick
  justified : Justified t.engine (t.levelRules g) text rules offset pick
  named : NamedBy pick.active token
  span : token.span = ⟨pick.found.start, pick.found.stop⟩
  nested_iff : (∃ inner, token.content = .nested inner) ↔
    0 < depth ∧ ∃ ref h, pick.active.rule.inside = some ref ∧ (t.resolve ref).value = some h
  nested : ∀ {d ref h}, depth = d + 1 → pick.active.rule.inside = some ref → (t.resolve ref).value = some h →
    token.content =
      .nested (Token.mapOffsetsOf (· + token.span.start) (t.levels d h (slice text token.span)).value)

theorem explained_of_levels (he : t.engine.Bounded) (hmem : token ∈ (t.levels depth g text).value)
    (hc : token.isClassified = true) : ∃ rules offset pick, t.Explained depth g text token rules offset pick := by
  rw [levels_eq] at hmem
  obtain ⟨rules, offset, pick, matched, htakes, hat, rfl, -⟩ := found_of_level he hmem hc
  refine ⟨rules, offset, pick, htakes, justified_of_takes he htakes, ⟨rfl, rfl⟩, rfl, ⟨?_, ?_⟩, ?_⟩
  · rintro ⟨inner, hinner⟩
    obtain ⟨inner', hcontent, -⟩ := Token.mapContent_eq_nested hinner
    obtain ⟨ref, split, h, hinside, hsplit, hh, -, -⟩ := nested_of_content hcontent
    refine ⟨?_, ref, h, hinside, hh⟩
    cases depth with
    | zero => cases hsplit
    | succ d => exact Nat.succ_pos d
  · rintro ⟨hdepth, ref, h, hinside, hh⟩
    obtain ⟨d, rfl⟩ := Nat.exists_eq_succ_of_ne_zero (Nat.ne_of_gt hdepth)
    exact ⟨_, by rw [tokenOf, deeper, value_content_nested hinside hh, Token.mapContent]⟩
  · rintro d ref h rfl hinside hh
    have hslice : slice text ⟨pick.found.start, pick.found.stop⟩ = matched := hat.slice_eq
    rw [tokenOf, deeper, value_content_nested hinside hh, Token.mapContent, hslice]

/-- Every token is justified. In every level of the tree, whatever the engine answers within its text, each token that a
    rule has found is explained by a match that was reported for one of the active rules. -/
theorem tokenize_justified (he : t.engine.Bounded) (g : Grammar) (text : String) :
    t.EveryLevel
      (fun depth h span tokens => ∃ part, HasAt byteLength text.toList span part ∧
        tokens = inBytes span.start part (t.levels depth h part).value ∧
        ∀ token ∈ (t.levels depth h part).value, token.isClassified = true →
          ∃ rules offset pick, t.Explained depth h part token rules offset pick)
      t.maxDepth g ⟨0, text.utf8ByteSize⟩ (t.tokenize g text) := by
  have hwhole : HasAt byteLength text.toList ⟨0, text.utf8ByteSize⟩ text.toList := by
    rw [← byteLength_toList]
    exact HasAt.whole isSize_byteLength text.toList
  rw [tokenize, value_run he]
  refine everyLevel_levels (q := False) he ?_ (Nat.zero_add t.maxDepth) .self hwhole False.elim
  intro _ depth h span part _ _ hat _
  exact ⟨part, hat, rfl, fun token hmem hc => explained_of_levels he hmem hc⟩

/-- The tokenizer that takes a pattern for a set of letters, matches the longest runs of them, and finds no languages. -/
def runs : Tokenizer where
  engine := .ofAttempts fun p text i =>
    let run := (text.drop i).takeWhile p.source.toList.contains
    if run.isEmpty then none else some ⟨⟨i, i + run.length⟩, []⟩
  language? _ := none

theorem bounded_runs : runs.engine.Bounded := by
  have hrun : ∀ {p : Pattern} {text : List Char} {i : Nat} {m : Regex.Match},
      (let run := (text.drop i).takeWhile p.source.toList.contains
        if run.isEmpty then none else some (⟨⟨i, i + run.length⟩, []⟩ : Regex.Match)) = some m →
      m.span.start = i ∧ m.span.start ≤ m.span.stop ∧ m.span.stop ≤ text.length := by
    intro p text i m h
    dsimp only at h
    split at h
    · cases h
    · rename_i hne
      obtain rfl := Option.some.inj h
      have hlen := (List.takeWhile_prefix p.source.toList.contains (l := text.drop i)).length_le
      have hpos := List.length_pos_iff.mpr (mt List.isEmpty_iff.mpr hne)
      rw [List.length_drop] at hlen
      exact ⟨rfl, Nat.le_add_right _ _, by simp only; omega⟩
  refine ⟨fun _ hm => ?_, fun hm => (hrun (Except.ok.inj hm)).2⟩
  obtain ⟨i, -, -, hi, -⟩ := firstFrom_eq_some (Except.ok.inj hm)
  exact (hrun hi).2

/-- Words that end before a number, and have a grammar for their inside. -/
def runSample : Grammar :=
  let letters : Grammar := ⟨[⟨"letter", [{ pattern := .literal "a" }]⟩], none⟩
  ⟨[⟨"number", [{ pattern := .literal "12" }]⟩,
    ⟨"word", [{ pattern := .literal "abc12", inside := some (.inline letters) }]⟩], none⟩

theorem tokenize_justified_runs :
    runs.tokenize runSample "éab12c" =
        [.plain "é" ⟨0, 2⟩,
          ⟨some "word", none, .nested [⟨some "letter", none, .text "a", ⟨2, 3⟩⟩, .plain "b" ⟨3, 4⟩], ⟨2, 4⟩⟩,
          ⟨some "number", none, .text "12", ⟨4, 6⟩⟩, ⟨some "word", none, .nested [.plain "c" ⟨6, 7⟩], ⟨6, 7⟩⟩] ∧
      runs.EveryLevel
        (fun depth h span tokens => ∃ part, HasAt byteLength "éab12c".toList span part ∧
          tokens = inBytes span.start part (runs.levels depth h part).value ∧
          ∀ token ∈ (runs.levels depth h part).value, token.isClassified = true →
            ∃ rules offset pick, runs.Explained depth h part token rules offset pick)
        32 runSample ⟨0, 7⟩ (runs.tokenize runSample "éab12c") :=
  ⟨by decide +kernel, tokenize_justified bounded_runs runSample "éab12c"⟩

end
end Tokenizer
end Highlight
