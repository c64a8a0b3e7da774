import Highlight.Format.Tag
import Highlight.Proofs.Kinds

/-! Text without its tags. Taking the tags out of the text of the format "tag" and decoding the entities gives back the
    input wherever no kind of the tokens has a stray `>` (`tag_untagged`). Kinds are written as they are, unlike the
    names in attributes and the text between tags, so that a `>` in a kind ends its tag too early; what follows it is
    left over then unless it is a `<`, with which another tag begins (`tag_untagged_fails`). -/

namespace Highlight

/-! ### Taking out tags and decoding entities -/

/-- The text without its tags, each from a `<` up to the next `>`. With `inTag` the text starts within a tag. -/
def untag (inTag : Bool) : List Char → List Char
  | [] => []
  | c :: text =>
    if inTag then untag (c != '>') text
    else if c == '<' && text.contains '>' then untag true text
    else c :: untag false text

/-- The text with the characters that entities stand for in their place. -/
def decodeEntities : List Char → List Char
  | '&' :: 'a' :: 'm' :: 'p' :: ';' :: text => '&' :: decodeEntities text
  | '&' :: 'l' :: 't' :: ';' :: text => '<' :: decodeEntities text
  | '&' :: 'g' :: 't' :: ';' :: text => '>' :: decodeEntities text
  | '&' :: 'q' :: 'u' :: 'o' :: 't' :: ';' :: text => '"' :: decodeEntities text
  | '&' :: 'a' :: 'p' :: 'o' :: 's' :: ';' :: text => '\'' :: decodeEntities text
  | c :: text => c :: decodeEntities text
  | [] => []

/-- Every `>` of a name is followed by a `<` at once, so that in a tag nothing of the name stays outside. -/
def Enclosed (name : List Char) : Prop := ∀ front back, name = front ++ '>' :: back → back.head? = some '<'

section
variable {c : Char} {name text text' : List Char} {p q : Prop}

theorem enclosed_nil : Enclosed [] := by
  intro front back h
  simp at h

theorem enclosed_cons_of_ne (h : c ≠ '>') : Enclosed (c :: name) ↔ Enclosed name := by
  constructor
  · intro hall front back heq
    exact hall (c :: front) back (congrArg (c :: ·) heq)
  · intro hall front back heq
    cases front with
    | nil => exact absurd (List.cons.inj heq).1 h
    | cons d front => exact hall front back (List.cons.inj heq).2

theorem enclosed_cons_close : Enclosed ('>' :: name) ↔ name.head? = some '<' ∧ Enclosed name := by
  constructor
  · intro hall
    exact ⟨hall [] name rfl, fun front back heq => hall ('>' :: front) back (congrArg ('>' :: ·) heq)⟩
  · rintro ⟨hhead, hall⟩ front back heq
    cases front with
    | nil => exact (List.cons.inj heq).2 ▸ hhead
    | cons d front => exact hall front back (List.cons.inj heq).2

instance decidableEnclosed : ∀ name, Decidable (Enclosed name)
  | [] => isTrue enclosed_nil
  | c :: name =>
    have := decidableEnclosed name
    if h : c = '>' then decidable_of_iff _ (h ▸ enclosed_cons_close).symm
    else decidable_of_iff _ (enclosed_cons_of_ne h).symm

/-! ### Marked-up text -/

/-- The marked-up text `out` stands for `text`: taking out its tags leaves what was there before and behind it alone, and
    leaves no less than `text`, and just `text` exactly if `p` holds. -/
structure Marks (out text : List Char) (p : Prop) : Prop where
  untag_append : ∀ back, untag false (out ++ back) = untag false out ++ untag false back
  length_le : text.length ≤ (untag false out).length
  untag_eq : untag false out = text ↔ p

theorem Marks.congr {out : List Char} (h : Marks out text p) (hpq : p ↔ q) : Marks out text q :=
  ⟨h.untag_append, h.length_le, h.untag_eq.trans hpq⟩

theorem marks_nil : Marks [] [] True := ⟨fun _ => rfl, Nat.le_refl _, by simp [untag]⟩

theorem Marks.append {out out' : List Char} (h : Marks out text p) (h' : Marks out' text' q) :
    Marks (out ++ out') (text ++ text') (p ∧ q) := by
  refine ⟨fun back => ?_, ?_, ?_⟩
  · rw [List.append_assoc, h.untag_append, h'.untag_append, h.untag_append, List.append_assoc]
  · rw [h.untag_append, List.length_append, List.length_append]
    exact Nat.add_le_add h.length_le h'.length_le
  · rw [h.untag_append, ← h.untag_eq, ← h'.untag_eq]
    constructor
    · intro heq
      -- Neither part leaves less than its text, so that neither leaves more.
      have hlength := congrArg List.length heq
      simp only [List.length_append] at hlength
      have hle := h.length_le
      have hle' := h'.length_le
      exact List.append_inj heq (by omega)
    · rintro ⟨heq, heq'⟩
      rw [heq, heq']

theorem untag_text (h : '<' ∉ text) (back : List Char) : untag false (text ++ back) = text ++ untag false back := by
  induction text with
  | nil => rfl
  | cons c text ih =>
    obtain ⟨hc, htext⟩ := not_or.mp (mt List.mem_cons.mpr h)
    have hc' : (c == '<') = false := beq_eq_false_iff_ne.mpr (Ne.symm hc)
    rw [List.cons_append, untag, if_neg Bool.false_ne_true, hc', Bool.false_and, if_neg Bool.false_ne_true, ih htext,
      List.cons_append]

theorem marks_text (h : '<' ∉ text) : Marks text text True := by
  have hself : untag false text = text := by simpa [untag] using untag_text h []
  refine ⟨fun back => ?_, Nat.le_of_eq (congrArg List.length hself).symm, iff_true_intro hself⟩
  rw [untag_text h, hself]

/-- What stands before a `>` is the same whatever follows, since tags are closed by the `>` at the latest. -/
theorem untag_append_close (inTag : Bool) (text back : List Char) :
    untag inTag (text ++ '>' :: back) = untag inTag (text ++ ['>']) ++ untag false back := by
  induction text generalizing inTag with
  | nil => cases inTag <;> simp [untag]
  | cons c text ih =>
    rw [List.cons_append, List.cons_append, untag, untag]
    cases inTag with
    | true => exact ih _
    | false =>
      by_cases hc : c = '<'
      · simp [hc, ih true]
      · simp [hc, ih false]

/-- Nothing is left of a tag exactly if the name in it is enclosed. -/
theorem untag_tag_eq_nil {rest : List Char} (hopen : '<' ∉ rest) (hclose : '>' ∉ rest) (name : List Char) :
    (untag true (name ++ (rest ++ ['>'])) = [] ↔ Enclosed name) ∧
      (untag false (name ++ (rest ++ ['>'])) = [] ↔ name.head? = some '<' ∧ Enclosed name) := by
  induction name with
  | nil =>
    have hin : untag true (rest ++ ['>']) = [] := by
      induction rest with
      | nil => rfl
      | cons d rest ih =>
        obtain ⟨-, hopen⟩ := not_or.mp (mt List.mem_cons.mpr hopen)
        obtain ⟨hd, hclose⟩ := not_or.mp (mt List.mem_cons.mpr hclose)
        rw [List.cons_append, untag, if_pos rfl, bne_iff_ne.mpr (Ne.symm hd)]
        exact ih hopen hclose
    have hout : untag false (rest ++ ['>']) ≠ [] := by
      rw [untag_text hopen]
      simp [untag]
    simp [hin, hout, enclosed_nil]
  | cons c name ih =>
    obtain ⟨ihin, ihout⟩ := ih
    rw [List.cons_append, untag, untag, if_pos rfl, if_neg Bool.false_ne_true]
    constructor
    · by_cases hc : c = '>'
      · subst hc
        rw [enclosed_cons_close, ← ihout]
        rfl
      · rw [enclosed_cons_of_ne hc, ← ihin, bne_iff_ne.mpr hc]
    · by_cases hc : c = '<'
      · subst hc
        rw [enclosed_cons_of_ne (by decide), ← ihin]
        simp
      · simp [hc]

theorem marks_tag {rest : List Char} (hopen : '<' ∉ rest) (hclose : '>' ∉ rest) (name : List Char) :
    Marks ('<' :: (name ++ (rest ++ ['>']))) [] (Enclosed name) := by
  have hin : ∀ back, untag false ('<' :: (name ++ (rest ++ '>' :: back))) = untag true (name ++ (rest ++ '>' :: back)) := by
    intro back
    rw [untag]
    simp
  refine ⟨fun back => ?_, Nat.zero_le _, ?_⟩
  · have hassoc : '<' :: (name ++ (rest ++ ['>'])) ++ back = '<' :: (name ++ (rest ++ '>' :: back)) := by simp
    rw [hassoc, hin, hin, ← List.append_assoc, ← List.append_assoc, untag_append_close]
  · rw [hin]
    exact (untag_tag_eq_nil hopen hclose name).1

end

/-! ### Tokens -/

namespace Token

/-- Text as it stands between tags. -/
def escaped (text : List Char) : List Char := text.flatMap escapeTagChar

theorem escapeTag_eq (text : String) : escapeTag text = escaped text.toList := rfl

theorem escaped_append (text text' : List Char) : escaped (text ++ text') = escaped text ++ escaped text' :=
  List.flatMap_append

theorem escapeTagChar_cases (c : Char) :
    c = '&' ∨ c = '<' ∨ c = '>' ∨ c = '"' ∨ c = '\'' ∨ (c ≠ '&' ∧ c ∉ ['<', '>', '"']) ∧ escapeTagChar c = [c] := by
  unfold escapeTagChar
  split <;> simp_all

/-- The characters that tags and attributes begin or end with do not stand in escaped text. -/
theorem not_mem_escaped {d : Char} (hd : d ∈ ['<', '>', '"']) (text : List Char) : d ∉ escaped text := by
  have hmark : d = '<' ∨ d = '>' ∨ d = '"' := by simpa using hd
  simp only [escaped, List.mem_flatMap, not_exists, not_and]
  intro c _
  rcases escapeTagChar_cases c with rfl | rfl | rfl | rfl | rfl | ⟨⟨-, hne⟩, heq⟩
  iterate 5 rcases hmark with rfl | rfl | rfl <;> decide
  rw [heq]
  exact fun hmem => hne (List.mem_singleton.mp hmem ▸ hd)

theorem decodeEntities_cons {c : Char} (h : c ≠ '&') (text : List Char) :
    decodeEntities (c :: text) = c :: decodeEntities text := by
  rw [decodeEntities]
  all_goals exact fun _ hc _ => h hc

/-- Entities are decoded to the characters that they were written for. -/
theorem decodeEntities_escaped (text : List Char) : decodeEntities (escaped text) = text := by
  induction text with
  | nil => rfl
  | cons c text ih =>
    have hstep : ∀ back, decodeEntities (escapeTagChar c ++ back) = c :: decodeEntities back := by
      intro back
      rcases escapeTagChar_cases c with rfl | rfl | rfl | rfl | rfl | ⟨⟨hamp, -⟩, heq⟩
      iterate 5 rfl
      rw [heq]
      exact decodeEntities_cons hamp back
    rw [escaped, List.flatMap_cons, hstep]
    exact congrArg (c :: ·) ih

theorem not_mem_ruleAttribute (aliasName name : Option String) :
    '<' ∉ ruleAttribute aliasName name ∧ '>' ∉ ruleAttribute aliasName name := by
  unfold ruleAttribute
  split
  · rename_i name
    have hopen : '<' ∉ escaped name.toList := not_mem_escaped (by decide) _
    have hclose : '>' ∉ escaped name.toList := not_mem_escaped (by decide) _
    rw [escapeTag_eq, List.mem_append, List.mem_append, List.mem_append, List.mem_append]
    exact ⟨by simp [hopen], by simp [hclose]⟩
  · exact ⟨List.not_mem_nil, List.not_mem_nil⟩

section
variable {size : List Char → Nat} {input : List Char}

theorem marks_escaped (text : List Char) : Marks (escaped text) (escaped text) True := marks_text (not_mem_escaped (by decide) text)

mutual
/-- The tags of tokens stand around their text, and just it is left exactly if all kinds are enclosed. -/
theorem marks_tagged : ∀ t : Token, t.Covers size input →
    Marks t.tagged (escaped t.chars) (∀ kind ∈ t.kinds, Enclosed kind.toList)
  | ⟨name, aliasName, content, span⟩, ⟨_, _, hin⟩ => by
    rw [tagged, chars, kinds]
    cases hkind : aliasName.or name with
    | none =>
      -- Plain text has no tokens inside, which would be left out.
      obtain ⟨-, rfl⟩ := Option.or_eq_none_iff.mp hkind
      cases content with
      | text text => exact (marks_escaped text.toList).congr (by simp [contentKinds])
      | nested tokens => cases hin.1
    | some kind =>
      obtain ⟨hopen, hclose⟩ := not_mem_ruleAttribute aliasName name
      have hmarks := ((marks_tag hopen hclose kind.toList).append (marks_contentTagged content hin)).append
        (marks_tag List.not_mem_nil List.not_mem_nil ('/' :: kind.toList))
      rw [List.nil_append, List.append_nil] at hmarks
      have hparts : '<' :: kind.toList ++ ruleAttribute aliasName name ++ ['>'] ++ contentTagged content ++
          ['<', '/'] ++ kind.toList ++ ['>'] =
            '<' :: (kind.toList ++ (ruleAttribute aliasName name ++ ['>'])) ++ contentTagged content ++
              '<' :: ('/' :: kind.toList ++ ([] ++ ['>'])) := by
        simp
      simp only [hparts]
      refine hmarks.congr ?_
      rw [enclosed_cons_of_ne (by decide)]
      simp [and_comm]

theorem marks_contentTagged {classified : Bool} {span : Span} : ∀ content : Content,
    contentCovers size input classified span content →
    Marks (contentTagged content) (escaped (contentChars content)) (∀ kind ∈ contentKinds content, Enclosed kind.toList)
  | .text text, _ => (marks_escaped text.toList).congr (by simp [contentKinds])
  | .nested tokens, ⟨_, htile⟩ => marks_taggedOf tokens htile

theorem marks_taggedOf {start stop : Nat} : ∀ tokens : List Token, Tile size input start stop tokens →
    Marks (taggedOf tokens) (escaped (charsOf tokens)) (∀ kind ∈ kindsOf tokens, Enclosed kind.toList)
  | [], _ => marks_nil.congr (by simp [kindsOf])
  | t :: ts, ⟨_, hcovers, _, htile⟩ => by
    rw [taggedOf, charsOf, kindsOf, escaped_append]
    exact ((marks_tagged t hcovers).append (marks_taggedOf ts htile)).congr List.forall_mem_append.symm
end

end
end Token

/-! ### Runs -/

namespace Tokenizer
open Token

section
variable {t : Tokenizer} {g : Grammar}

theorem charsOf_tokenize (he : t.engine.Bounded) (text : String) : charsOf (t.tokenize g text) = text.toList := by
  rw [tokenize, value_run he, inBytes, charsOf_mapOffsetsOf]
  exact (tiled_levels he t.maxDepth g text.toList).charsOf

theorem kinds_of_tokenize (he : t.engine.Bounded) {P : String → Prop} (text : String)
    (hP : ∀ h, g.Reaches t.language? h → ∀ e ∈ h.entries, ∀ rule ∈ e.rules, P (rule.kind e.name)) :
    ∀ kind ∈ kindsOf (t.tokenize g text), P kind := by
  rw [tokenize, value_run he, inBytes, kindsOf_mapOffsetsOf]
  exact kinds_of_levels he hP

/-- Tags are taken out of the text of the format "tag" without a rest exactly if every kind of the tokens is enclosed,
    and decoding the entities then gives back the input. So it does for every text if the kinds are enclosed that the
    rules of the grammar, and of all grammars that are reached from it, give. -/
theorem tag_untagged (he : t.engine.Bounded) (g : Grammar) (text : String) :
    let tokens := t.tokenize g text
    (untag false (renderTag tokens).toList = escapeTag text ↔ ∀ kind ∈ kindsOf tokens, Enclosed kind.toList) ∧
      ((∀ kind ∈ kindsOf tokens, Enclosed kind.toList) →
        decodeEntities (untag false (renderTag tokens).toList) = text.toList) ∧
      ((∀ h, g.Reaches t.language? h → ∀ e ∈ h.entries, ∀ rule ∈ e.rules, Enclosed (rule.kind e.name).toList) →
        ∀ kind ∈ kindsOf tokens, Enclosed kind.toList) := by
  intro tokens
  have hmarks := marks_taggedOf tokens (tile_run he g text).1
  have huntag : untag false (renderTag tokens).toList = escapeTag text ↔ ∀ kind ∈ kindsOf tokens, Enclosed kind.toList := by
    rw [renderTag, String.toList_ofList, escapeTag_eq, ← charsOf_tokenize he text]
    exact hmarks.untag_eq
  refine ⟨huntag, fun hkinds => ?_, kinds_of_tokenize (P := fun kind => Enclosed kind.toList) he text⟩
  rw [huntag.mpr hkinds, escapeTag_eq, decodeEntities_escaped]

/-- A token whose alias, though not its name, has no stray `>`, in a text that holds markup itself. -/
def markupSample : Grammar :=
  let inner : Grammar := ⟨[⟨"i", [{ pattern := .literal "a" }]⟩], none⟩
  ⟨[⟨"\">b", [{ pattern := .literal "<a>", aliasName := some "k<", inside := some (.inline inner) }]⟩], none⟩

theorem tag_untagged_markup :
    renderTag (literal.tokenize markupSample "&<a>'") =
        "&amp;<k< rule=\"&quot;&gt;b\">&lt;<i>a</i>&gt;</k<>&apos;" ∧
      untag false (renderTag (literal.tokenize markupSample "&<a>'")).toList = escapeTag "&<a>'" ∧
      decodeEntities (untag false (renderTag (literal.tokenize markupSample "&<a>'")).toList) = "&<a>'".toList := by
  have hkinds : ∀ kind ∈ kindsOf (literal.tokenize markupSample "&<a>'"), Enclosed kind.toList := by decide +kernel
  obtain ⟨huntag, hdecode, -⟩ := tag_untagged (t := literal) Engine.bounded_literal markupSample "&<a>'"
  exact ⟨by decide +kernel, huntag.mpr hkinds, hdecode hkinds⟩

/-- The rest of a name behind its `>` is left over from both tags. -/
theorem tag_untagged_fails :
    let g : Grammar := ⟨[⟨"a>b", [{ pattern := .literal "x" }]⟩], none⟩
    renderTag (literal.tokenize g "x") = "<a>b>x</a>b>" ∧
      decodeEntities (untag false (renderTag (literal.tokenize g "x")).toList) = "b>xb>".toList ∧
      decodeEntities (untag false (renderTag (literal.tokenize g "x")).toList) ≠ "x".toList := by
  decide +kernel

end
end Tokenizer
end Highlight
