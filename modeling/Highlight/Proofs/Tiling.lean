import Highlight.Proofs.Level
import Highlight.Proofs.Reports

/-! Tokens tile the text. Whatever the engine answers within its text, the tokens of a text stand one after
    the other without a gap, none is empty, each is what the text has at its span, and so are the tokens inside
    a token for its span; nothing is lost and nothing is doubled. No part is ever cut out of range. -/

namespace Highlight

/-! ### Tilings -/

mutual
/-- The token is not empty and covers what the text has at its span, where `size` tells how the offsets count.
    Tokens inside it tile its span, and plain text has none. -/
def Token.Covers (size : List Char → Nat) (text : List Char) : Token → Prop
  | ⟨name, _, content, span⟩ =>
    span.start < span.stop ∧ HasAt size text span (Token.contentChars content) ∧
      contentCovers size text name.isSome span content

def contentCovers (size : List Char → Nat) (text : List Char) (classified : Bool) (span : Span) : Content → Prop
  | .text _ => True
  | .nested tokens => classified = true ∧ Tile size text span.start span.stop tokens

/-- The tokens follow one another from one offset to the other, and of two neighbours a rule has found one. -/
def Tile (size : List Char → Nat) (text : List Char) (start stop : Nat) : List Token → Prop
  | [] => start = stop
  | t :: ts =>
    t.span.start = start ∧ t.Covers size text ∧ (∀ u ∈ ts.head?, t.isClassified ∨ u.isClassified) ∧
      Tile size text t.span.stop stop ts
end

/-! ### Changing offsets -/

namespace Token

mutual
theorem chars_mapOffsets (f : Nat → Nat) : ∀ t : Token, (mapOffsets f t).chars = t.chars
  | ⟨_, _, content, _⟩ => contentChars_mapContent f content

theorem contentChars_mapContent (f : Nat → Nat) : ∀ content : Content,
    contentChars (mapContent f content) = contentChars content
  | .text _ => rfl
  | .nested tokens => charsOf_mapOffsetsOf f tokens

theorem charsOf_mapOffsetsOf (f : Nat → Nat) : ∀ tokens : List Token,
    charsOf (mapOffsetsOf f tokens) = charsOf tokens
  | [] => rfl
  | t :: ts => by rw [mapOffsetsOf, charsOf, charsOf, chars_mapOffsets f t, charsOf_mapOffsetsOf f ts]
end

mutual
theorem mapOffsets_mapOffsets (f g : Nat → Nat) : ∀ t : Token,
    mapOffsets g (mapOffsets f t) = mapOffsets (fun n => g (f n)) t
  | ⟨name, aliasName, content, span⟩ => by
    rw [mapOffsets, mapOffsets, mapOffsets, mapContent_mapContent f g content]
    rfl

theorem mapContent_mapContent (f g : Nat → Nat) : ∀ content : Content,
    mapContent g (mapContent f content) = mapContent (fun n => g (f n)) content
  | .text _ => rfl
  | .nested tokens => by rw [mapContent, mapContent, mapContent, mapOffsetsOf_mapOffsetsOf f g tokens]

theorem mapOffsetsOf_mapOffsetsOf (f g : Nat → Nat) : ∀ tokens : List Token,
    mapOffsetsOf g (mapOffsetsOf f tokens) = mapOffsetsOf (fun n => g (f n)) tokens
  | [] => rfl
  | t :: ts => by
    rw [mapOffsetsOf, mapOffsetsOf, mapOffsetsOf, mapOffsets_mapOffsets f g t, mapOffsetsOf_mapOffsetsOf f g ts]
end

@[simp] theorem isClassified_mapOffsets (f : Nat → Nat) (t : Token) : (mapOffsets f t).isClassified = t.isClassified := by
  obtain ⟨_, _, _, _⟩ := t
  rfl

@[simp] theorem span_mapOffsets (f : Nat → Nat) (t : Token) : (mapOffsets f t).span = t.span.map f := by
  obtain ⟨_, _, _, _⟩ := t
  rfl

theorem mapOffsetsOf_eq_map (f : Nat → Nat) (ts : List Token) : mapOffsetsOf f ts = ts.map (mapOffsets f) := by
  induction ts with
  | nil => rfl
  | cons t ts ih => rw [mapOffsetsOf, ih, List.map_cons]

end Token

section
variable {size size' : List Char → Nat} {text text' : List Char} {f : Nat → Nat}

mutual
theorem Token.Covers.map (hs : IsSize size) (hs' : IsSize size')
    (hf : ∀ s part, HasAt size text s part → HasAt size' text' (s.map f) part) :
    ∀ t : Token, t.Covers size text → (t.mapOffsets f).Covers size' text'
  | ⟨name, _, content, span⟩, ⟨hlt, hat, hin⟩ => by
    refine ⟨(hf _ _ hat).start_lt_stop hs' (hat.ne_nil hs hlt), ?_, contentCovers_map hs hs' hf content hin⟩
    rw [Token.contentChars_mapContent]
    exact hf _ _ hat

theorem contentCovers_map (hs : IsSize size) (hs' : IsSize size')
    (hf : ∀ s part, HasAt size text s part → HasAt size' text' (s.map f) part) {classified : Bool} {span : Span} :
    ∀ content : Content, contentCovers size text classified span content →
      contentCovers size' text' classified (span.map f) (Token.mapContent f content)
  | .text _, _ => trivial
  | .nested tokens, ⟨hc, hin⟩ => ⟨hc, Tile.map hs hs' hf tokens hin⟩

/-- A tiling stays one when the offsets are changed and each part stays where its span says. -/
theorem Tile.map (hs : IsSize size) (hs' : IsSize size')
    (hf : ∀ s part, HasAt size text s part → HasAt size' text' (s.map f) part) {start stop : Nat} :
    ∀ tokens : List Token, Tile size text start stop tokens →
      Tile size' text' (f start) (f stop) (Token.mapOffsetsOf f tokens)
  | [], h => congrArg f h
  | t :: ts, ⟨hstart, ht, hnext, hts⟩ => by
    refine ⟨?_, Token.Covers.map hs hs' hf t ht, ?_, ?_⟩
    · rw [Token.span_mapOffsets]
      exact congrArg f hstart
    · cases ts with
      | nil => intro u hu; cases hu
      | cons u us => simpa [Token.mapOffsetsOf] using hnext
    · have h := Tile.map hs hs' hf ts hts
      rwa [Token.span_mapOffsets]
end

mutual
theorem Token.Covers.mapOffsets_congr {g : Nat → Nat} (hs : IsSize size) (hfg : ∀ n, n ≤ size text → f n = g n) :
    ∀ t : Token, t.Covers size text → t.mapOffsets f = t.mapOffsets g
  | ⟨name, aliasName, content, span⟩, ⟨hlt, hat, hin⟩ => by
    have hstop := hat.stop_le hs
    have hspan : span.map f = span.map g := by
      rw [Span.map, Span.map, hfg _ (Nat.le_trans (Nat.le_of_lt hlt) hstop), hfg _ hstop]
    rw [Token.mapOffsets, Token.mapOffsets, hspan, contentCovers_mapContent_congr hs hfg content hin]

theorem contentCovers_mapContent_congr {g : Nat → Nat} (hs : IsSize size) (hfg : ∀ n, n ≤ size text → f n = g n)
    {classified : Bool} {span : Span} :
    ∀ content : Content, contentCovers size text classified span content →
      Token.mapContent f content = Token.mapContent g content
  | .text _, _ => rfl
  | .nested tokens, ⟨_, hin⟩ => by
    rw [Token.mapContent, Token.mapContent, Tile.mapOffsetsOf_congr hs hfg tokens hin]

theorem Tile.mapOffsetsOf_congr {g : Nat → Nat} (hs : IsSize size) (hfg : ∀ n, n ≤ size text → f n = g n)
    {start stop : Nat} : ∀ tokens : List Token, Tile size text start stop tokens →
      Token.mapOffsetsOf f tokens = Token.mapOffsetsOf g tokens
  | [], _ => rfl
  | t :: ts, ⟨_, ht, _, hts⟩ => by
    rw [Token.mapOffsetsOf, Token.mapOffsetsOf, Token.Covers.mapOffsets_congr hs hfg t ht,
      Tile.mapOffsetsOf_congr hs hfg ts hts]
end

/-- Neighbouring tilings join, unless plain text would meet plain text. -/
theorem Tile.append {start middle stop : Nat} {ts us : List Token} (ht : Tile size text start middle ts)
    (hu : Tile size text middle stop us)
    (hclassified : ∀ t ∈ ts.getLast?, ∀ u ∈ us.head?, t.isClassified ∨ u.isClassified) :
    Tile size text start stop (ts ++ us) := by
  induction ts generalizing start with
  | nil =>
    obtain rfl : start = middle := ht
    exact hu
  | cons t ts ih =>
    obtain ⟨hstart, hcovers, hnext, hts⟩ := ht
    cases ts with
    | nil =>
      obtain rfl : t.span.stop = middle := hts
      exact ⟨hstart, hcovers, fun u hu' => hclassified t rfl u hu', hu⟩
    | cons t' ts => exact ⟨hstart, hcovers, hnext, ih hts (by simpa using hclassified)⟩

theorem Tile.singleton {t : Token} (h : t.Covers size text) : Tile size text t.span.start t.span.stop [t] :=
  ⟨rfl, h, fun _ hu => (by cases hu), rfl⟩

theorem Tile.covers {start stop : Nat} {ts : List Token} (h : Tile size text start stop ts) :
    ∀ t ∈ ts, t.Covers size text := by
  induction ts generalizing start with
  | nil =>
    intro t ht
    cases ht
  | cons u ts ih =>
    obtain ⟨-, hcovers, -, hts⟩ := h
    intro t ht
    rcases List.mem_cons.mp ht with rfl | ht
    · exact hcovers
    · exact ih hts t ht

/-- Plain text has no tokens inside. -/
theorem Token.Covers.classified {t : Token} (h : t.Covers size text) {inner : List Token}
    (hinner : t.content = .nested inner) : t.isClassified = true := by
  obtain ⟨name, _, content, _⟩ := t
  obtain rfl : content = .nested inner := hinner
  exact h.2.2.1

/-- The tokens of a tiling cover what the text has between its ends. -/
theorem Tile.hasAt (hs : IsSize size) {start stop : Nat} {ts : List Token} (h : Tile size text start stop ts)
    (hin : ∃ front back, text = front ++ back ∧ size front = start) :
    HasAt size text ⟨start, stop⟩ (Token.charsOf ts) := by
  induction ts generalizing start with
  | nil =>
    obtain ⟨front, back, rfl, hfront⟩ := hin
    obtain rfl : start = stop := h
    exact ⟨front, back, rfl, hfront, by simpa [Token.charsOf] using hfront⟩
  | cons t ts ih =>
    obtain ⟨hstart, hcovers, -, hts⟩ := h
    obtain ⟨name, aliasName, content, span⟩ := t
    obtain ⟨-, hat, -⟩ := hcovers
    obtain rfl : span.start = start := hstart
    obtain ⟨front, back, heq, -, hstop⟩ := id hat
    exact hat.append hs (ih hts ⟨_, back, by rw [heq, List.append_assoc], hstop⟩)

end

/-! ### Levels -/

namespace Tokenizer

/-- The content of a match covers it. -/
def InsideCovers (inside : ActiveRule → List Char → Logged Content) : Prop :=
  ∀ active matched, Token.contentChars (inside active matched).value = matched ∧
    contentCovers List.length matched true ⟨0, matched.length⟩ (inside active matched).value ∧
    (inside active matched).strays = []

section
variable {engine : Engine} {inside : ActiveRule → List Char → Logged Content} {bytes : Nat → Nat}

theorem covers_plain {text part : List Char} {s : Span} (hat : HasAt List.length text s part) (hne : part ≠ []) :
    (Token.plain (String.ofList part) s).Covers List.length text :=
  ⟨hat.start_lt_stop isSize_length hne, by simpa [Token.contentChars] using hat, trivial⟩

theorem covers_tokenOf {text matched : List Char} {active : ActiveRule} {found : Candidate}
    (hin : InsideCovers inside) (hat : HasAt List.length text ⟨found.start, found.stop⟩ matched) (hne : matched ≠ []) :
    (tokenOf active found (inside active matched).value).Covers List.length text := by
  obtain ⟨hchars, hcovers, -⟩ := hin active matched
  refine ⟨hat.start_lt_stop isSize_length hne, ?_, ?_⟩
  · rw [Token.contentChars_mapContent, hchars]
    exact hat
  · have hmap := contentCovers_map isSize_length isSize_length (fun s part h => hat.within isSize_length h) _ hcovers
    have hspan : (⟨0, matched.length⟩ : Span).map (· + found.start) = ⟨found.start, found.stop⟩ := by
      have hstop := hat.stop_eq isSize_length
      simp only at hstop
      simp [Span.map, hstop, Nat.add_comm]
    rwa [hspan] at hmap

theorem tile_plainBefore {text gap : List Char} {offset start : Nat}
    (hat : HasAt List.length text ⟨offset, start⟩ gap) :
    Tile List.length text offset start (plainBefore offset start gap) := by
  cases gap with
  | nil =>
    have hstop : start = offset := by simpa using hat.stop_eq isSize_length
    exact hstop.symm
  | cons c gap => exact Tile.singleton (covers_plain hat (List.cons_ne_nil _ _))

/-- A level that is split in turns is tiled by its tokens, which have the text of the level. -/
theorem tile_of_split (hin : InsideCovers inside) {rules : List Contender} {offset : Nat} {text : List Char}
    {out : Logged (List Token)} (h : Split engine inside bytes rules offset text out) :
    ∀ front whole, whole = front ++ text → front.length = offset →
      Tile List.length whole offset (offset + text.length) out.value := by
  -- The whole text stays the same along the turns, only the part of it that is already split grows.
  induction h with
  | done => intro front whole _ _; rfl
  | @rest rules rules' offset text hne _ =>
    rintro front whole rfl rfl
    have hat : HasAt List.length (front ++ text) ⟨front.length, front.length + text.length⟩ text :=
      ⟨front, [], by simp, rfl, by simp⟩
    exact Tile.singleton (covers_plain hat hne)
  | @turn rules rules' offset gap matched back pick after hne _ _ _ hstart hstop _ ih =>
    rintro front whole rfl rfl
    have hgap : HasAt List.length (front ++ (gap ++ (matched ++ back))) ⟨front.length, pick.found.start⟩ gap :=
      ⟨front, matched ++ back, rfl, rfl, by simp [hstart]⟩
    have hmatched :
        HasAt List.length (front ++ (gap ++ (matched ++ back))) ⟨pick.found.start, pick.found.stop⟩ matched :=
      ⟨front ++ gap, back, by simp, by simp [hstart], by simp [hstop, Nat.add_assoc]⟩
    have hafter := ih (front ++ gap ++ matched) (front ++ (gap ++ (matched ++ back))) (by simp)
      (by simp [hstop, Nat.add_assoc])
    refine (tile_plainBefore hgap).append ⟨rfl, covers_tokenOf hin hmatched hne, fun _ _ => Or.inl rfl, ?_⟩ ?_
    · have hlen : front.length + (gap ++ (matched ++ back)).length = pick.found.stop + back.length := by
        simp only [List.length_append]
        omega
      rw [hlen]
      exact hafter
    · -- The token of the match is the neighbour of the plain text.
      intro _ _ u hu
      obtain rfl : _ = u := by simpa using hu
      exact Or.inr rfl

theorem strays_of_split (hin : InsideCovers inside) {rules : List Contender} {offset : Nat} {text : List Char}
    {out : Logged (List Token)} (h : Split engine inside bytes rules offset text out) : out.strays = [] := by
  induction h with
  | done => rfl
  | rest => rfl
  | @turn _ _ _ _ matched _ pick _ _ _ _ _ _ _ _ ih => simp [(hin pick.active matched).2.2, ih]

end

/-! ### Runs -/

section
variable {t : Tokenizer}

/-- A split text is tiled by the tokens, with offsets in characters, and no part was cut out of range. -/
def Tiled (text : List Char) (out : Logged (List Token)) : Prop :=
  Tile List.length text 0 text.length out.value ∧ out.strays = []

theorem Tiled.charsOf {text : List Char} {out : Logged (List Token)} (h : Tiled text out) :
    Token.charsOf out.value = text := by
  obtain ⟨front, back, heq, hfront, hstop⟩ := h.1.hasAt isSize_length ⟨[], text, rfl, rfl⟩
  obtain rfl : front = [] := List.length_eq_zero_iff.mp hfront
  simp only [List.nil_append] at heq hstop
  have hback : back = [] := List.length_eq_zero_iff.mp (by have := congrArg List.length heq; simp at this; omega)
  rw [heq, hback, List.append_nil]

theorem insideCovers_content (levels : Option (Grammar → List Char → Logged (List Token)))
    (hlevels : ∀ split, levels = some split → ∀ g text, Tiled text (split g text)) :
    InsideCovers (t.content levels) := by
  intro active matched
  rcases t.content_cases levels active matched with ⟨ws, heq⟩ | ⟨ref, split, g, ws, -, hsplit, -, heq⟩
  · rw [heq]
    exact ⟨by simp [Token.contentChars], trivial, rfl⟩
  · have htiled := hlevels split hsplit g matched
    rw [heq]
    exact ⟨htiled.charsOf, ⟨rfl, htiled.1⟩, htiled.2⟩

theorem tiled_level (he : t.engine.Bounded) {inside : ActiveRule → List Char → Logged Content}
    (hin : InsideCovers inside) (g : Grammar) (text : List Char) : Tiled text (t.level inside g text) := by
  obtain ⟨ws, heq⟩ := t.level_eq inside g text
  have hsplit := split_level he inside g text
  have htile := tile_of_split hin hsplit [] text rfl rfl
  rw [Nat.zero_add] at htile
  have hstrays := strays_of_split hin hsplit
  rw [heq]
  exact ⟨htile, hstrays⟩

theorem tiled_levels (he : t.engine.Bounded) (depth : Nat) (g : Grammar) (text : List Char) :
    Tiled text (t.levels depth g text) := by
  induction depth generalizing g text with
  | zero => exact tiled_level he (insideCovers_content none fun _ h => (by cases h)) g text
  | succ depth ih =>
    refine tiled_level he (insideCovers_content _ ?_) g text
    rintro split ⟨⟩
    exact ih

/-- Tokens of a part of a text, with offsets in bytes of the text, where the part starts at the byte `base`. -/
def inBytes (base : Nat) (part : List Char) (tokens : List Token) : List Token :=
  Token.mapOffsetsOf (fun n => byteOffset part n + base) tokens

theorem value_run (he : t.engine.Bounded) (g : Grammar) (text : String) :
    (t.run g text).value = inBytes 0 text.toList (t.levels t.maxDepth g text.toList).value :=
  (tiled_levels he t.maxDepth g text.toList).1.mapOffsetsOf_congr isSize_length fun _ hn =>
    byteOffsets_toArray_getD text.toList hn

theorem inBytes_within {text part : List Char} {s : Span} {base stop : Nat} {tokens : List Token}
    (hat : HasAt List.length text s part) (htile : Tile List.length part 0 stop tokens) :
    inBytes base text (Token.mapOffsetsOf (· + s.start) tokens) =
      inBytes (byteOffset text s.start + base) part tokens := by
  obtain ⟨front, back, rfl, hfront, -⟩ := hat
  rw [inBytes, inBytes, Token.mapOffsetsOf_mapOffsetsOf]
  refine htile.mapOffsetsOf_congr isSize_length fun n hn => ?_
  have hpart : byteOffset (part ++ back) n = byteOffset part n := by
    rw [byteOffset, byteOffset, List.take_append_of_le_length hn]
  rw [Nat.add_comm n, byteOffset_add, ← hfront, List.drop_left, hpart]
  omega

/-- Tokens that tile a part of a text tile it by bytes of the text, too. -/
theorem tile_inBytes {text part : List Char} {span : Span} {tokens : List Token} (hat : HasAt byteLength text span part)
    (h : Tile List.length part 0 part.length tokens) :
    Tile byteLength text span.start span.stop (inBytes span.start part tokens) := by
  have hmap := h.map isSize_length isSize_byteLength (f := fun n => byteOffset part n + span.start)
    fun s matched hs => hat.within isSize_byteLength hs.bytes
  have hstop : byteOffset part part.length + span.start = span.stop := by
    rw [byteOffset, List.take_length, hat.stop_eq isSize_byteLength, Nat.add_comm]
  have hstart : byteOffset part 0 + span.start = span.start := Nat.zero_add _
  rwa [hstop, hstart] at hmap

/-- The tokens of a text tile it by bytes, and every part that was cut on the way lay in its text. -/
theorem tile_run (he : t.engine.Bounded) (g : Grammar) (text : String) :
    Tile byteLength text.toList 0 text.utf8ByteSize (t.run g text).value ∧ (t.run g text).strays = [] := by
  obtain ⟨htile, hstrays⟩ := tiled_levels he t.maxDepth g text.toList
  have hwhole : HasAt byteLength text.toList ⟨0, text.utf8ByteSize⟩ text.toList := by
    rw [← byteLength_toList]
    exact HasAt.whole isSize_byteLength text.toList
  rw [value_run he]
  exact ⟨tile_inBytes hwhole htile, hstrays⟩

/-- Splitting a text loses nothing and cuts nothing out of range: the tokens tile the text from its first byte
    to its last, at every level, and their text is the text. -/
theorem tokenize_tiles (he : t.engine.Bounded) (g : Grammar) (text : String) :
    Tile byteLength text.toList 0 text.utf8ByteSize (t.tokenize g text) ∧
      flatten (t.tokenize g text) = text ∧ (t.run g text).strays = [] := by
  obtain ⟨htile, hstrays⟩ := tile_run he g text
  refine ⟨htile, ?_, hstrays⟩
  have hchars : Token.charsOf (t.run g text).value = text.toList := by
    show Token.charsOf (Token.mapOffsetsOf _ _) = _
    rw [Token.charsOf_mapOffsetsOf]
    exact (tiled_levels he t.maxDepth g text.toList).charsOf
  rw [flatten, tokenize, hchars, String.ofList_toList]

/-- A rule whose matches are split again. -/
def nestedSample : Grammar :=
  let inner : Grammar := ⟨[⟨"inner", [{ pattern := .literal "a" }]⟩], none⟩
  ⟨[⟨"outer", [{ pattern := .literal "bab", greedy := true, inside := some (.inline inner) }]⟩], none⟩

/-- A grammar with one rule for its pattern. -/
def wordSample (p : Pattern) : Grammar := ⟨[⟨"word", [{ pattern := p }]⟩], none⟩

theorem tokenize_tiles_nested :
    (Tokenizer.literal.tokenize nestedSample "ébab." =
        [.plain "é" ⟨0, 2⟩,
          ⟨some "outer", none,
            .nested [.plain "b" ⟨2, 3⟩, ⟨some "inner", none, .text "a", ⟨3, 4⟩⟩, .plain "b" ⟨4, 5⟩], ⟨2, 5⟩⟩,
          .plain "." ⟨5, 6⟩] ∧
      Tile byteLength "ébab.".toList 0 "ébab.".utf8ByteSize (Tokenizer.literal.tokenize nestedSample "ébab.") ∧
      flatten (Tokenizer.literal.tokenize nestedSample "ébab.") = "ébab." ∧
      (Tokenizer.literal.run nestedSample "ébab.").strays = []) ∧
    ∃ p, Pattern.compile "[a-z]+(?=\\.)" "" Pattern.defaultFailures = .ok p ∧
      Tokenizer.compiled.tokenize (wordSample p) "é ba." =
        [.plain "é " ⟨0, 3⟩, ⟨some "word", none, .text "ba", ⟨3, 5⟩⟩, .plain "." ⟨5, 6⟩] ∧
      Tile byteLength "é ba.".toList 0 "é ba.".utf8ByteSize (Tokenizer.compiled.tokenize (wordSample p) "é ba.") ∧
      flatten (Tokenizer.compiled.tokenize (wordSample p) "é ba.") = "é ba." ∧
      (Tokenizer.compiled.run (wordSample p) "é ba.").strays = [] := by
  have hrun : (Pattern.compile "[a-z]+(?=\\.)" "" Pattern.defaultFailures).toOption.map (fun p =>
      Tokenizer.compiled.tokenize (wordSample p) "é ba.") =
      some [.plain "é " ⟨0, 3⟩, ⟨some "word", none, .text "ba", ⟨3, 5⟩⟩, .plain "." ⟨5, 6⟩] := by decide +kernel
  obtain ⟨p, hp, htokens⟩ := Option.map_eq_some_iff.mp hrun
  exact ⟨⟨by decide +kernel, tokenize_tiles Engine.bounded_literal nestedSample "ébab."⟩,
    p, toOption_eq_some hp, htokens, tokenize_tiles Engine.bounded_compiled (wordSample p) "é ba."⟩

end
end Tokenizer
end Highlight
