import Highlight.Proofs.Calls
import Highlight.Proofs.Nesting
import Highlight.Proofs.Rest

/-! Limits of a run. The searches of a rule and the turns of a level go on as long as there is text left, and levels
    follow one another as grammars refer to each other, which they may do in a circle. `Course` tells of them without any
    guard for the progress of a match. A run comes to its end just if it has a course (`run_ends_iff`), and it has one if
    no search goes back. The number of tokens is bounded by the length of the text and the depth of levels. -/

namespace Highlight

/-! ### Numbers of tokens and of levels -/

namespace Token

mutual
/-- How many tokens there are in a token, itself among them. -/
def count : Token → Nat
  | ⟨_, _, content, _⟩ => contentCount content + 1

def contentCount : Content → Nat
  | .text _ => 0
  | .nested tokens => countOf tokens

/-- How many tokens there are in a list of tokens and inside them. -/
def countOf : List Token → Nat
  | [] => 0
  | t :: ts => count t + countOf ts
end

mutual
/-- How many levels there are below a token. -/
def height : Token → Nat
  | ⟨_, _, content, _⟩ => contentHeight content

def contentHeight : Content → Nat
  | .text _ => 0
  | .nested tokens => heightOf tokens + 1

/-- How many levels there are at most below the tokens of a list. -/
def heightOf : List Token → Nat
  | [] => 0
  | t :: ts => max (height t) (heightOf ts)
end

theorem heightOf_le {ts : List Token} {n : Nat} : heightOf ts ≤ n ↔ ∀ t ∈ ts, t.height ≤ n := by
  induction ts with
  | nil => simp [heightOf]
  | cons t ts ih => rw [heightOf, Nat.max_le, ih, List.forall_mem_cons]

theorem height_of_content {t : Token} (h : t.height ≠ 0) :
    ∃ inner, t.content = .nested inner ∧ t.height = heightOf inner + 1 := by
  obtain ⟨_, _, _ | inner, _⟩ := t
  · exact absurd rfl h
  · exact ⟨inner, rfl, rfl⟩

mutual
theorem height_mapOffsets (f : Nat → Nat) : ∀ t : Token, (mapOffsets f t).height = t.height
  | ⟨_, _, content, _⟩ => contentHeight_mapContent f content

theorem contentHeight_mapContent (f : Nat → Nat) : ∀ content : Content,
    contentHeight (mapContent f content) = contentHeight content
  | .text _ => rfl
  | .nested tokens => congrArg (· + 1) (heightOf_mapOffsetsOf f tokens)

theorem heightOf_mapOffsetsOf (f : Nat → Nat) : ∀ tokens : List Token,
    heightOf (mapOffsetsOf f tokens) = heightOf tokens
  | [] => rfl
  | t :: ts => by rw [mapOffsetsOf, heightOf, heightOf, height_mapOffsets f t, heightOf_mapOffsetsOf f ts]
end

end Token

section
variable {size : List Char → Nat} {text : List Char}

mutual
theorem Token.Covers.count_le (hs : IsSize size) : ∀ t : Token, t.Covers size text →
    t.count ≤ t.chars.length * (t.height + 1)
  | ⟨_, _, content, _⟩, ⟨hlt, hat, hin⟩ => by
    have hpos := List.length_pos_iff.mpr (hat.ne_nil hs hlt)
    cases content with
    | text text =>
      show 1 ≤ (Token.contentChars (.text text)).length * 1
      omega
    | nested tokens =>
      have hcount := Tile.countOf_le hs tokens hin.2
      calc Token.countOf tokens + 1
        _ ≤ (Token.charsOf tokens).length * (Token.heightOf tokens + 1) + (Token.charsOf tokens).length :=
          Nat.add_le_add hcount hpos
        _ = (Token.charsOf tokens).length * (Token.heightOf tokens + 1 + 1) := (Nat.mul_succ _ _).symm

/-- Every token takes a character of each level that it is part of, so the characters bound the tokens. -/
theorem Tile.countOf_le (hs : IsSize size) {start stop : Nat} : ∀ tokens : List Token,
    Tile size text start stop tokens →
      Token.countOf tokens ≤ (Token.charsOf tokens).length * (Token.heightOf tokens + 1)
  | [], _ => Nat.zero_le _
  | t :: ts, ⟨_, ht, _, hts⟩ => by
    have hfirst := Token.Covers.count_le hs t ht
    have hrest := Tile.countOf_le hs ts hts
    rw [Token.countOf, Token.charsOf, Token.heightOf, List.length_append, Nat.add_mul]
    exact Nat.add_le_add (Nat.le_trans hfirst (Nat.mul_le_mul_left _ (by omega)))
      (Nat.le_trans hrest (Nat.mul_le_mul_left _ (by omega)))
end

end

/-- The span of a match in the text from `offset` on. -/
def Pick.within (pick : Pick) (offset : Nat) : Span := ⟨pick.found.start - offset, pick.found.stop - offset⟩

namespace Tokenizer

/-! ### Searches that go ahead -/

section
variable {engine : Engine} {inside : ActiveRule → List Char → Logged Content} {bytes : Nat → Nat} {offset index : Nat}
  {text : List Char} {rules : List Contender} {best : Option Pick}

theorem endless_contend {r : Contender} (he : engine.GoesAhead r.active.rule.pattern) :
    (contend engine offset text index r best).endless = false := by
  have hcandidate : (r.cursor.candidate engine r.active offset text).endless = false := RuleCursor.endless_candidate he
  have hcontest := contend_contest engine offset text index r best
  generalize contend engine offset text index r best = out at hcontest
  cases hcontest with
  | windowed => rw [hcandidate, RuleCursor.endless_windowed he, Bool.or_false]
  | _ => exact hcandidate

theorem endless_selectFrom (he : ∀ active ∈ rules.map (·.active), engine.GoesAhead active.rule.pattern) :
    (selectFrom engine offset text index rules best).endless = false := by
  induction rules generalizing index best with
  | nil => rfl
  | cons r rs ih =>
    obtain ⟨hr, hrs⟩ := List.forall_mem_cons.mp he
    simp only [selectFrom, Logged.endless_bind, endless_contend hr, ih hrs, Logged.endless_pure, Bool.or_self]

theorem endless_select (he : ∀ active ∈ rules.map (·.active), engine.GoesAhead active.rule.pattern) :
    (select engine offset text rules).endless = false := endless_selectFrom he

theorem endless_of_split {out : Logged (List Token)} (h : Split engine inside bytes rules offset text out) :
    (∀ active ∈ rules.map (·.active), engine.GoesAhead active.rule.pattern) →
    (∀ active ∈ rules.map (·.active), ∀ matched, (inside active matched).endless = false) → out.endless = false := by
  induction h with
  | done => exact fun _ _ => rfl
  | rest => exact fun he _ => endless_select he
  | @turn rules rules' offset gap matched back pick after _ _ hactives hmem _ _ _ ih =>
    intro he hinside
    simp only [endless_select he, hinside pick.active hmem matched, ih (hactives ▸ he) (hactives ▸ hinside), Bool.or_self]

end

/-! ### Turns and levels -/

/-- The course of a level from an offset on, `depth` levels below the first, to its tokens. As long as the rules pick a
    match, it becomes a token, and its text a level of its own if its rule has a grammar for the inside that is found
    and the limit is not yet reached. No search that is made on the way is endless. -/
inductive Course (t : Tokenizer) : (depth : Nat) → List Contender → Nat → List Char → List Token → Prop
  | done {depth rules offset} : Course t depth rules offset [] []
  | rest {depth rules rules' offset text} : text ≠ [] → (select t.engine offset text rules).endless = false →
      (select t.engine offset text rules).value = (rules', none) →
      Course t depth rules offset text [remainder offset text]
  | leaf {depth rules rules' offset text pick after} : text ≠ [] →
      (select t.engine offset text rules).endless = false →
      (select t.engine offset text rules).value = (rules', some pick) →
      (∀ ref, depth < t.maxDepth → pick.active.rule.inside = some ref → (t.resolve ref).value = none) →
      Course t depth rules' pick.found.stop (text.drop (pick.found.stop - offset)) after →
      Course t depth rules offset text
        (plainBefore offset pick.found.start (slice text ⟨offset - offset, pick.found.start - offset⟩) ++
          tokenOf pick.active pick.found (.text (String.ofList (slice text (pick.within offset)))) :: after)
  | nested {depth rules rules' offset text pick ref h inner after} : text ≠ [] →
      (select t.engine offset text rules).endless = false →
      (select t.engine offset text rules).value = (rules', some pick) →
      depth < t.maxDepth → pick.active.rule.inside = some ref → (t.resolve ref).value = some h →
      Course t (depth + 1) (contenders (t.levelRules h)) 0 (slice text (pick.within offset)) inner →
      Course t depth rules' pick.found.stop (text.drop (pick.found.stop - offset)) after →
      Course t depth rules offset text
        (plainBefore offset pick.found.start (slice text ⟨offset - offset, pick.found.start - offset⟩) ++
          tokenOf pick.active pick.found (.nested inner) :: after)

section
variable {t : Tokenizer}

/-- What is made of a match for which no level follows is its text. -/
theorem content_text {levels : Option (Grammar → List Char → Logged (List Token))} {active : ActiveRule}
    {matched : List Char}
    (h : ∀ split ref, levels = some split → active.rule.inside = some ref → (t.resolve ref).value = none) :
    (t.content levels active matched).value = .text (String.ofList matched) ∧
      (t.content levels active matched).endless = false := by
  rcases t.content_cases levels active matched with ⟨ws, heq⟩ | ⟨ref, split, g, ws, hinside, hlevels, hg, heq⟩
  · rw [heq]
    exact ⟨rfl, rfl⟩
  · rw [h split ref hlevels hinside] at hg
    cases hg

/-- What is made of a match for which a level follows goes on for ever just if that level does. -/
theorem endless_content_nested {levels : Grammar → List Char → Logged (List Token)} {active : ActiveRule}
    {ref : GrammarRef} {h : Grammar} {matched : List Char} (hinside : active.rule.inside = some ref)
    (hh : (t.resolve ref).value = some h) :
    (t.content (some levels) active matched).endless = (levels h matched).endless := by
  rcases t.content_cases (some levels) active matched with ⟨ws, heq⟩ | ⟨ref', split, g, ws, hinside', hlevels, hg, heq⟩
  · have hvalue : (t.content (some levels) active matched).value = .nested (levels h matched).value :=
      value_content_nested hinside hh
    rw [heq] at hvalue
    cases hvalue
  · cases hinside.symm.trans hinside'
    cases hh.symm.trans hg
    cases hlevels
    rw [heq]

/-- A match whose text becomes a level of its own, or not. -/
theorem follows_or_not (t : Tokenizer) (depth : Nat) (active : ActiveRule) :
    (∃ ref h, depth < t.maxDepth ∧ active.rule.inside = some ref ∧ (t.resolve ref).value = some h) ∨
      ∀ ref, depth < t.maxDepth → active.rule.inside = some ref → (t.resolve ref).value = none := by
  by_cases hfound : ∃ ref h, depth < t.maxDepth ∧ active.rule.inside = some ref ∧ (t.resolve ref).value = some h
  · exact Or.inl hfound
  · refine Or.inr fun ref hlt hinside => ?_
    cases hh : (t.resolve ref).value with
    | none => rfl
    | some h => exact absurd ⟨ref, h, hlt, hinside, hh⟩ hfound

section
variable {depth : Nat} {levels : Option (Grammar → List Char → Logged (List Token))} {bytes : Nat → Nat}
  {rules : List Contender} {offset : Nat} {text : List Char} {out : Logged (List Token)}

/-- A level that is split in turns, none of them for ever, runs its course if the levels below it do. -/
theorem course_of_split (hlimit : levels.isSome = true ↔ depth < t.maxDepth)
    (hlevels : ∀ split, levels = some split → ∀ h part, (split h part).endless = false →
      Course t (depth + 1) (contenders (t.levelRules h)) 0 part (split h part).value)
    (h : Split t.engine (t.content levels) bytes rules offset text out) :
    out.endless = false → Course t depth rules offset text out.value := by
  induction h with
  | done => exact fun _ => .done
  | rest hne hv => exact fun hends => .rest hne hends hv
  | @turn rules rules' offset gap matched back pick after hne hv _ _ hstart hstop _ ih =>
    intro hends
    simp only [Bool.or_eq_false_iff] at hends
    obtain ⟨hselect, hcontent, hafter⟩ := hends
    have htext : gap ++ (matched ++ back) ≠ [] := by simp [hne]
    obtain ⟨hgap, hmatched, hback⟩ := cuts_of_parts back hstart hstop
    rcases t.follows_or_not depth pick.active with ⟨ref, h, hlt, hinside, hh⟩ | hnone
    · obtain ⟨split, rfl⟩ := Option.isSome_iff_exists.mp (hlimit.mpr hlt)
      rw [endless_content_nested hinside hh] at hcontent
      have hinner := hlevels split rfl h matched hcontent
      have hcourse := Course.nested htext hselect hv hlt hinside hh (by rwa [Pick.within, hmatched])
        (by rw [hback]; exact ih hafter)
      rw [value_content_nested hinside hh]
      rwa [hgap] at hcourse
    · have hcourse := Course.leaf htext hselect hv hnone (by rw [hback]; exact ih hafter)
      rw [(content_text fun split ref hsplit => hnone ref (hlimit.mp (by rw [hsplit]; rfl))).1]
      rwa [hgap, Pick.within, hmatched] at hcourse

/-- A level that is split in turns and runs its course comes to its end if the levels below it that run theirs do. -/
theorem endless_of_course (hlimit : levels.isSome = true ↔ depth < t.maxDepth)
    (hlevels : ∀ split, levels = some split → ∀ h part inner,
      Course t (depth + 1) (contenders (t.levelRules h)) 0 part inner → (split h part).endless = false)
    (h : Split t.engine (t.content levels) bytes rules offset text out) :
    ∀ ts, Course t depth rules offset text ts → out.endless = false := by
  induction h with
  | done => exact fun _ _ => rfl
  | rest hne hv =>
    intro ts hcourse
    cases hcourse with
    | done => exact absurd rfl hne
    | rest _ hends | leaf _ hends | nested _ hends => exact hends
  | @turn rules rules' offset gap matched back pick after hne hv _ _ hstart hstop _ ih =>
    intro ts hcourse
    obtain ⟨-, hmatched, hback⟩ := cuts_of_parts back hstart hstop
    generalize htext : gap ++ (matched ++ back) = text at hcourse hv hmatched hback ⊢
    simp only [Bool.or_eq_false_iff]
    cases hcourse with
    | done => exact absurd htext (by simp [hne])
    | rest _ _ hv' => cases hv.symm.trans hv'
    | leaf _ hends hv' hnone hafter =>
      cases hv.symm.trans hv'
      refine ⟨hends, (content_text fun split ref hsplit => hnone ref (hlimit.mp (by rw [hsplit]; rfl))).2, ?_⟩
      exact ih _ (by rwa [hback] at hafter)
    | nested _ hends hv' hlt hinside hh hinner hafter =>
      cases hv.symm.trans hv'
      obtain ⟨split, rfl⟩ := Option.isSome_iff_exists.mp (hlimit.mpr hlt)
      rw [Pick.within, hmatched] at hinner
      refine ⟨hends, ?_, ih _ (by rwa [hback] at hafter)⟩
      rw [endless_content_nested hinside hh]
      exact hlevels split rfl _ _ _ hinner

end

theorem endless_level (inside : ActiveRule → List Char → Logged Content) (g : Grammar) (text : List Char) :
    (t.level inside g text).endless =
      (steps t.engine inside (byteOffset text) (contenders (t.levelRules g)) 0 text).endless := by
  obtain ⟨ws, heq⟩ := t.level_eq inside g text
  rw [heq]

theorem deeper_isSome {depth left : Nat} (hdepth : depth + left = t.maxDepth) :
    (t.deeper left).isSome = true ↔ depth < t.maxDepth := by
  cases left with
  | zero =>
    simp only [deeper, Option.isSome_none, Bool.false_eq_true, false_iff]
    omega
  | succ left =>
    simp only [deeper, Option.isSome_some, true_iff]
    omega

/-- Every level that comes to its end runs its course. -/
theorem course_levels (he : t.engine.Bounded) {depth left : Nat} (hdepth : depth + left = t.maxDepth) (g : Grammar)
    (text : List Char) (hends : (t.levels left g text).endless = false) :
    Course t depth (contenders (t.levelRules g)) 0 text (t.levels left g text).value := by
  induction left generalizing depth g text with
  | zero =>
    rw [levels_eq, endless_level] at hends
    rw [levels_eq, value_level]
    exact course_of_split (deeper_isSome hdepth) (fun _ h => by cases h) (split_level he _ g text) hends
  | succ left ih =>
    rw [levels_eq, endless_level] at hends
    rw [levels_eq, value_level]
    refine course_of_split (deeper_isSome hdepth) (fun split h => ?_) (split_level he _ g text) hends
    obtain rfl := Option.some.inj h
    exact ih (by omega)

theorem endless_of_course_levels (he : t.engine.Bounded) {depth left : Nat} (hdepth : depth + left = t.maxDepth)
    (g : Grammar) (text : List Char) (ts : List Token)
    (hcourse : Course t depth (contenders (t.levelRules g)) 0 text ts) : (t.levels left g text).endless = false := by
  induction left generalizing depth g text ts with
  | zero =>
    rw [levels_eq, endless_level]
    exact endless_of_course (deeper_isSome hdepth) (fun _ h => by cases h) (split_level he _ g text) ts hcourse
  | succ left ih =>
    rw [levels_eq, endless_level]
    refine endless_of_course (deeper_isSome hdepth) (fun split h => ?_) (split_level he _ g text) ts hcourse
    obtain rfl := Option.some.inj h
    exact ih (by omega)

/-- A run comes to its end just if its first level has a course. -/
theorem run_ends_iff (he : t.engine.Bounded) (g : Grammar) (text : String) : (t.run g text).endless = false ↔
    ∃ ts, Course t 0 (contenders (t.levelRules g)) 0 text.toList ts :=
  ⟨fun h => ⟨_, course_levels he (Nat.zero_add t.maxDepth) g text.toList h⟩,
    fun ⟨ts, h⟩ => endless_of_course_levels he (Nat.zero_add t.maxDepth) g text.toList ts h⟩

/-- Levels in which no search goes back come to their end. -/
theorem endless_levels (he : t.engine.Bounded) {depth : Nat} {g : Grammar}
    (hahead : ∀ p, t.InPlay depth g p → t.engine.GoesAhead p) (text : List Char) :
    (t.levels depth g text).endless = false := by
  induction depth generalizing g text with
  | zero =>
    rw [levels_eq, endless_level]
    refine endless_of_split (split_level he _ g text) ?_ ?_ <;> rw [actives_contenders]
    · exact fun active hactive => hahead _ (inPlay_of_levelRules hactive)
    · exact fun active _ matched => (content_text fun _ _ h => by cases h).2
  | succ depth ih =>
    rw [levels_eq, endless_level]
    refine endless_of_split (split_level he _ g text) ?_ ?_ <;> rw [actives_contenders]
    · exact fun active hactive => hahead _ (inPlay_of_levelRules hactive)
    · intro active hactive matched
      by_cases hfound : ∃ ref h, active.rule.inside = some ref ∧ (t.resolve ref).value = some h
      · obtain ⟨ref, h, hinside, hh⟩ := hfound
        rw [deeper, endless_content_nested hinside hh]
        exact ih (fun p hp => hahead p (hp.inside hactive hinside hh)) matched
      · refine (content_text fun split ref _ hinside => ?_).2
        cases hh : (t.resolve ref).value with
        | none => rfl
        | some h => exact absurd ⟨ref, h, hinside, hh⟩ hfound

/-- The course of a level determines its tokens. -/
theorem Course.unique {depth : Nat} {rules : List Contender} {offset : Nat} {text : List Char} {ts us : List Token}
    (ht : Course t depth rules offset text ts) (hu : Course t depth rules offset text us) : ts = us := by
  induction ht generalizing us with
  | done =>
    cases hu with
    | done => rfl
    | rest hne => exact absurd rfl hne
    | leaf hne => exact absurd rfl hne
    | nested hne => exact absurd rfl hne
  | rest hne _ hv =>
    cases hu with
    | done => exact absurd rfl hne
    | rest => rfl
    | leaf _ _ hv' => cases hv.symm.trans hv'
    | nested _ _ hv' => cases hv.symm.trans hv'
  | leaf hne _ hv hnone _ ih =>
    cases hu with
    | done => exact absurd rfl hne
    | rest _ _ hv' => cases hv.symm.trans hv'
    | leaf _ _ hv' _ hafter =>
      cases hv.symm.trans hv'
      rw [ih hafter]
    | nested _ _ hv' hlt hinside hh =>
      cases hv.symm.trans hv'
      cases (hnone _ hlt hinside).symm.trans hh
  | nested hne _ hv hlt hinside hh _ _ ihinner ih =>
    cases hu with
    | done => exact absurd rfl hne
    | rest _ _ hv' => cases hv.symm.trans hv'
    | leaf _ _ hv' hnone =>
      cases hv.symm.trans hv'
      cases (hnone _ hlt hinside).symm.trans hh
    | nested _ _ hv' _ hinside' hh' hinner hafter =>
      cases hv.symm.trans hv'
      cases hinside.symm.trans hinside'
      cases hh.symm.trans hh'
      rw [ihinner hinner, ih hafter]

theorem heightOf_levels (he : t.engine.Bounded) (depth : Nat) (g : Grammar) (text : List Char) :
    Token.heightOf (t.levels depth g text).value ≤ depth := by
  induction depth using Nat.strongRecOn generalizing g text with
  | ind depth ih =>
    refine Token.heightOf_le.mpr fun token hmem => ?_
    by_cases hheight : token.height = 0
    · exact hheight ▸ Nat.zero_le depth
    · obtain ⟨inner, hinner, heq⟩ := Token.height_of_content hheight
      obtain ⟨below, rfl, -, -, -, -, h, -, -, part, -, rfl, -⟩ := nested_of_levels he hmem hinner
      rw [heq, Token.heightOf_mapOffsetsOf]
      exact Nat.succ_le_succ (ih below (Nat.lt_succ_self below) h part)

theorem length_le_utf8ByteSize (text : String) : text.toList.length ≤ text.utf8ByteSize := by
  rw [← byteLength_toList]
  induction text.toList with
  | nil => exact Nat.le_refl 0
  | cons c cs ih =>
    have hpos := c.utf8Size_pos
    rw [byteLength, List.length_cons]
    omega

/-- Splitting a text ends, also where grammars refer to each other in a circle, and its effort is bounded. A search in
    which no match starts before the offset asked for calls the engine at most once for each offset of the text searched.
    If this is so for the patterns in play, the run comes to its end: the first level runs its course, the levels below
    included, and its tokens are what the course comes to. Each grammar is followed by at most `maxDepth` rests; at most
    `maxDepth` levels follow one another below the first, and each of the levels has at most as many tokens as the text
    has bytes. -/
theorem tokenize_bounded (he : t.engine.Bounded) (g : Grammar)
    (hahead : ∀ p, t.InPlay t.maxDepth g p → t.engine.GoesAhead p) (text : String) :
    (∀ active, t.engine.GoesAhead active.rule.pattern → ∀ cursor offset part, ∃ calls ≤ part.length + 1,
        ∀ n out, RuleCursor.Searched t.engine active offset part cursor 0 n out ↔
          n = calls ∧ out = (RuleCursor.search t.engine active cursor offset part).value) ∧
      (t.run g text).endless = false ∧
      (∃ tokens, t.tokenize g text = inBytes 0 text.toList tokens ∧
        ∀ ts, Course t 0 (contenders (t.levelRules g)) 0 text.toList ts ↔ ts = tokens) ∧
      (∀ h, Walked t t.maxDepth h.rest (t.chain h)) ∧
      Token.heightOf (t.tokenize g text) ≤ t.maxDepth ∧
      Token.countOf (t.tokenize g text) ≤ text.utf8ByteSize * (t.maxDepth + 1) := by
  have hends := endless_levels he hahead text.toList
  have hcourse := course_levels he (Nat.zero_add t.maxDepth) g text.toList hends
  have hheight : Token.heightOf (t.tokenize g text) ≤ t.maxDepth := by
    rw [tokenize, value_run he, inBytes, Token.heightOf_mapOffsetsOf]
    exact heightOf_levels he t.maxDepth g text.toList
  have hlength : (Token.charsOf (t.tokenize g text)).length ≤ text.utf8ByteSize := by
    rw [tokenize, value_run he, inBytes, Token.charsOf_mapOffsetsOf, (tiled_levels he t.maxDepth g text.toList).charsOf]
    exact length_le_utf8ByteSize text
  refine ⟨fun active hactive _ _ _ => RuleCursor.searched_search (RuleCursor.endless_search (hactive _)), hends,
    ⟨_, value_run he g text, fun ts => ⟨fun h => h.unique hcourse, fun h => h ▸ hcourse⟩⟩, walked_chain t, hheight, ?_⟩
  calc Token.countOf (t.tokenize g text)
    _ ≤ (Token.charsOf (t.tokenize g text)).length * (Token.heightOf (t.tokenize g text) + 1) :=
      Tile.countOf_le isSize_byteLength _ (tile_run he g text).1
    _ ≤ text.utf8ByteSize * (t.maxDepth + 1) := Nat.mul_le_mul hlength (Nat.succ_le_succ hheight)

/-- A language whose matches are split by itself again, and that is its own rest. -/
def selfSample (p : Pattern) : Grammar :=
  ⟨[⟨"pair", [{ pattern := p, inside := some (.named "self") }]⟩], some (.named "self")⟩

/-- A tokenizer that knows this language, and goes two levels deep at most. -/
def entangled (engine : Engine) (p : Pattern) : Tokenizer where
  engine := engine
  language? name := if name = "self" then some (selfSample p) else none
  maxDepth := 2

theorem eq_of_below_self {engine : Engine} {p : Pattern} {n : Nat} {g : Grammar}
    (h : (entangled engine p).Below n (selfSample p) g) : g = selfSample p := by
  induction n with
  | zero =>
    cases h
    rfl
  | succ n ih =>
    cases h with
    | inside hactive hinside hh hbelow =>
      obtain rfl := List.mem_singleton.mp hactive
      obtain rfl := Option.some.inj hinside
      obtain rfl := Option.some.inj hh
      exact ih hbelow

/-- The only pattern in play is the one of the language. -/
theorem eq_of_inPlay_self {engine : Engine} {p q : Pattern} {depth : Nat}
    (h : (entangled engine p).InPlay depth (selfSample p) q) : q = p := by
  obtain ⟨n, -, g, hbelow, active, hactive, rfl⟩ := h
  obtain rfl := eq_of_below_self hbelow
  obtain rfl := List.mem_singleton.mp hactive
  rfl

/-- How the language splits "xab", with the pattern taken as literal text. -/
def entangledTokens : List Token :=
  [.plain "x" ⟨0, 1⟩,
    ⟨some "pair", none, .nested [⟨some "pair", none, .nested [⟨some "pair", none, .text "ab", ⟨1, 3⟩⟩], ⟨1, 3⟩⟩], ⟨1, 3⟩⟩]

/-- The language goes round in a circle, with its pattern taken as literal text and with a compiled one. -/
theorem tokenize_bounded_self :
    ∃ p, Pattern.compile "(?<!y)ab" "" Pattern.defaultFailures = .ok p ∧
      ∀ t g, t = entangled .literal (.literal "ab") ∧ g = selfSample (.literal "ab") ∨
          t = entangled .compiled p ∧ g = selfSample p →
        t.engine.Bounded ∧ (∀ q, t.InPlay 2 g q → t.engine.GoesAhead q) ∧ t.tokenize g "xab" = entangledTokens ∧
          (t.run g "xab").endless = false ∧
          (∃ tokens, t.tokenize g "xab" = inBytes 0 "xab".toList tokens ∧
            ∀ ts, Course t 0 (contenders (t.levelRules g)) 0 "xab".toList ts ↔ ts = tokens) ∧
          Token.heightOf (t.tokenize g "xab") ≤ 2 ∧ Token.countOf (t.tokenize g "xab") ≤ 3 * (2 + 1) := by
  have hrun : (Pattern.compile "(?<!y)ab" "" Pattern.defaultFailures).toOption.map (fun p =>
      (p.program.movesStart, (entangled .compiled p).tokenize (selfSample p) "xab")) =
      some (false, entangledTokens) := by decide +kernel
  obtain ⟨p, hp, hrun⟩ := Option.map_eq_some_iff.mp hrun
  obtain ⟨hmoves, htokens⟩ := Prod.mk.inj hrun
  have hcompiled := toOption_eq_some hp
  refine ⟨p, hcompiled, ?_⟩
  rintro t g (⟨rfl, rfl⟩ | ⟨rfl, rfl⟩)
  · have he : (entangled .literal (.literal "ab")).engine.Bounded := Engine.bounded_literal
    have hahead : ∀ q, (entangled .literal (.literal "ab")).InPlay 2 (selfSample (.literal "ab")) q →
        Engine.literal.GoesAhead q := fun q _ => (Engine.attempts_literal q).goesAhead
    obtain ⟨-, hends, hcourse, -, hheight, hcount⟩ := tokenize_bounded he (selfSample (.literal "ab")) hahead "xab"
    exact ⟨he, hahead, by decide +kernel, hends, hcourse, hheight, hcount⟩
  · have he : (entangled .compiled p).engine.Bounded := Engine.bounded_compiled
    have hahead : ∀ q, (entangled .compiled p).InPlay 2 (selfSample p) q → Engine.compiled.GoesAhead q :=
      fun q hq => eq_of_inPlay_self hq ▸ Engine.goesAhead_compiled hcompiled hmoves
    obtain ⟨-, hends, hcourse, -, hheight, hcount⟩ := tokenize_bounded he (selfSample p) hahead "xab"
    exact ⟨he, hahead, htokens, hends, hcourse, hheight, hcount⟩

end
end Tokenizer
end Highlight
