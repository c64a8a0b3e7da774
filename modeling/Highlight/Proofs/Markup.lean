import Highlight.Proofs.Delimiters
import Highlight.Proofs.Untagged

/-! What the format "tag" shows of tokens. The marked-up text stands for a tree of texts and elements in which texts side by
    side run together, and it stands for no other one: tokens have the same marked-up text exactly if they show the same
    tree (`renderTag_eq_iff`). Kinds are written as they are, so they must not hold what ends the name in a tag. -/

namespace Highlight

/-- A part of marked-up text: plain text, or an element with the kind that its tags name, the rule if they give one, and
    the parts between them. -/
inductive Markup where
  | text (chars : List Char)
  | element (kind : String) (rule : Option String) (inside : List Markup)

/-! ### Trees -/

namespace Token

/-- The rule that a tag gives, which it does if it is named by an alias. -/
def shownRule : (aliasName name : Option String) → Option String
  | some _, name => name
  | none, _ => none

/-- The text of plain text, which holds no tokens. -/
def plainChars : Content → List Char
  | .text text => text.toList
  | .nested _ => []

mutual
/-- A token without its span. The text that an element holds is a part of its own. -/
def markup : Token → Markup
  | ⟨name, aliasName, content, _⟩ =>
    match aliasName.or name with
    | none => .text (plainChars content)
    | some kind => .element kind (shownRule aliasName name) (contentMarkup content)

def contentMarkup : Content → List Markup
  | .text text => [.text text.toList]
  | .nested tokens => markupOf tokens

def markupOf : List Token → List Markup
  | [] => []
  | t :: ts => markup t :: markupOf ts
end

end Token

namespace Markup
open Token

/-- Puts text in front of parts: it runs together with text that follows, and empty text is dropped. -/
def joinText (cs : List Char) : List Markup → List Markup
  | .text ds :: rest => .text (cs ++ ds) :: rest
  | rest => if cs.isEmpty then rest else .text cs :: rest

mutual
/-- Puts a part in front of others. -/
def joinTo : Markup → List Markup → List Markup
  | .text cs, rest => joinText cs rest
  | .element kind rule inside, rest => .element kind rule (joined inside) :: rest

/-- The parts with texts side by side as one and without empty texts, at every level. -/
def joined : List Markup → List Markup
  | [] => []
  | m :: ms => joinTo m (joined ms)
end

/-! ### The text of a tree -/

/-- The attribute for a rule. -/
def ruleText : Option String → List Char
  | some name => " rule=\"".toList ++ escapeTag name ++ ['"']
  | none => []

mutual
/-- The text that stands for a part. -/
def written : Markup → List Char
  | .text cs => escaped cs
  | .element kind rule inside =>
    '<' :: (kind.toList ++ (ruleText rule ++ '>' :: (writtenOf inside ++ '<' :: '/' :: (kind.toList ++ ['>']))))

def writtenOf : List Markup → List Char
  | [] => []
  | m :: ms => written m ++ writtenOf ms
end

theorem ruleText_none : ruleText none = [] := rfl

theorem ruleText_some (name : String) :
    ruleText (some name) = ' ' :: ("rule=\"".toList ++ (escaped name.toList ++ ['"'])) := by
  have hblank : " rule=\"".toList = ' ' :: "rule=\"".toList := by decide
  show " rule=\"".toList ++ escaped name.toList ++ ['"'] = _
  rw [hblank, List.cons_append, List.cons_append, List.append_assoc]

theorem ruleAttribute_eq (aliasName name : Option String) :
    ruleAttribute aliasName name = ruleText (shownRule aliasName name) := by
  cases aliasName <;> cases name <;> rfl

mutual
theorem tagged_eq : ∀ t : Token, t.tagged = t.markup.written
  | ⟨name, aliasName, content, _⟩ => by
    rw [tagged, markup]
    cases aliasName.or name with
    | none =>
      cases content with
      | text => simp [plainTagged, plainChars, written, escapeTag_eq]
      | nested => simp [plainTagged, plainChars, written, escaped]
    | some kind => simp [written, ruleAttribute_eq, contentTagged_eq content]

theorem contentTagged_eq : ∀ content : Content, contentTagged content = writtenOf (contentMarkup content)
  | .text s => by simp [contentTagged, contentMarkup, writtenOf, written, escapeTag_eq]
  | .nested tokens => taggedOf_eq tokens

/-- The marked-up text of tokens is that of the tree that they show. -/
theorem taggedOf_eq : ∀ tokens : List Token, taggedOf tokens = writtenOf (markupOf tokens)
  | [] => rfl
  | t :: ts => by rw [taggedOf, markupOf, writtenOf, tagged_eq t, taggedOf_eq ts]
end

theorem writtenOf_joinText (cs : List Char) (rest : List Markup) :
    writtenOf (joinText cs rest) = escaped cs ++ writtenOf rest := by
  unfold joinText
  split
  · simp [writtenOf, written, escaped_append]
  · split
    · simp_all [escaped]
    · simp [writtenOf, written]

mutual
theorem writtenOf_joinTo (rest : List Markup) : ∀ m : Markup, writtenOf (joinTo m rest) = written m ++ writtenOf rest
  | .text cs => writtenOf_joinText cs rest
  | .element kind rule inside => by rw [joinTo, writtenOf, written, written, writtenOf_joined inside]

theorem writtenOf_joined : ∀ ms : List Markup, writtenOf (joined ms) = writtenOf ms
  | [] => rfl
  | m :: ms => by rw [joined, writtenOf_joinTo, writtenOf_joined ms, writtenOf]
end

/-! ### Parts that can be told apart -/

/-- A name that ends where its tag goes on or ends, and with which no closing tag begins. -/
def IsTagName (name : List Char) : Prop := ' ' ∉ name ∧ '>' ∉ name ∧ name.head? ≠ some '/'

instance (name : List Char) : Decidable (IsTagName name) := inferInstanceAs (Decidable (_ ∧ _ ∧ _))

def isText : Markup → Bool
  | .text _ => true
  | .element _ _ _ => false

mutual
/-- No text is empty, and every kind can stand in a tag. -/
def Distinct : Markup → Prop
  | .text cs => cs ≠ []
  | .element kind _ inside => IsTagName kind.toList ∧ AllDistinct inside

/-- Furthermore, no text is next to another. -/
def AllDistinct : List Markup → Prop
  | [] => True
  | m :: ms => m.Distinct ∧ (m.isText = true → ∀ n ∈ ms.head?, n.isText = false) ∧ AllDistinct ms
end

theorem allDistinct_nil : AllDistinct [] := by
  simp [AllDistinct]

theorem allDistinct_joinText {rest : List Markup} (cs : List Char) (h : AllDistinct rest) :
    AllDistinct (joinText cs rest) := by
  unfold joinText
  split
  · rename_i ds rest
    obtain ⟨hds, hhead, hrest⟩ := h
    rw [Distinct] at hds
    exact ⟨by simp [Distinct, hds], hhead, hrest⟩
  · rename_i hne
    split
    · exact h
    · rename_i hempty
      refine ⟨by simpa [Distinct] using hempty, fun _ n hn => ?_, h⟩
      obtain ⟨tail, rfl⟩ := List.head?_eq_some_iff.mp hn
      cases n with
      | text ds => exact absurd rfl (hne ds tail)
      | element => rfl

mutual
theorem allDistinct_joinTo_markup {rest : List Markup} (hrest : AllDistinct rest) : ∀ t : Token,
    (∀ kind ∈ t.kinds, IsTagName kind.toList) → AllDistinct (joinTo t.markup rest)
  | ⟨name, aliasName, content, _⟩, h => by
    rw [markup]
    rw [Token.kinds] at h
    cases hkind : aliasName.or name with
    | none => exact allDistinct_joinText _ hrest
    | some kind =>
      obtain ⟨hname, hcontent⟩ : IsTagName kind.toList ∧ ∀ kind ∈ contentKinds content, IsTagName kind.toList := by
        simpa [hkind] using h
      exact ⟨⟨hname, allDistinct_contentMarkup content hcontent⟩, nofun, hrest⟩

theorem allDistinct_contentMarkup : ∀ content : Content, (∀ kind ∈ contentKinds content, IsTagName kind.toList) →
    AllDistinct (joined (contentMarkup content))
  | .text s, _ => allDistinct_joinText s.toList allDistinct_nil
  | .nested tokens, h => allDistinct_markupOf tokens h

theorem allDistinct_markupOf : ∀ tokens : List Token, (∀ kind ∈ Token.kindsOf tokens, IsTagName kind.toList) →
    AllDistinct (joined (markupOf tokens))
  | [], _ => trivial
  | t :: ts, h => by
    rw [Token.kindsOf, List.forall_mem_append] at h
    exact allDistinct_joinTo_markup (allDistinct_markupOf ts h.2) t h.1
end

/-! ### Telling parts apart -/

section
variable {a b u v rest rest' : List Char}

theorem escaped_injective (h : escaped a = escaped b) : a = b := by
  rw [← decodeEntities_escaped a, h, decodeEntities_escaped]

theorem ruleText_unique {rule rule' : Option String} (h : ruleText rule ++ '>' :: u = ruleText rule' ++ '>' :: v) :
    rule = rule' ∧ u = v := by
  cases rule with
  | none =>
    cases rule' with
    | none => exact ⟨rfl, (List.cons.inj h).2⟩
    | some name' => cases h
  | some name =>
    cases rule' with
    | none => cases h
    | some name' =>
      have hnames : escaped name.toList ++ '"' :: '>' :: u = escaped name'.toList ++ '"' :: '>' :: v := by
        simpa [ruleText_some] using h
      have hquote : ∀ cs, '"' ∉ escaped cs := not_mem_escaped (by decide)
      obtain ⟨heq, htail⟩ := append_cons_unique (hquote _) (hquote _) hnames
      have hname := String.toList_inj.mp (escaped_injective heq)
      exact ⟨congrArg some hname, (List.cons.inj htail).2⟩

theorem head_ruleText (rule : Option String) : ∀ c ∈ (ruleText rule ++ '>' :: rest).head?, c = ' ' ∨ c = '>' := by
  cases rule with
  | none => simp [ruleText_none]
  | some name => simp [ruleText_some]

theorem head_escaped {cs : List Char} (h : cs ≠ []) : ∃ c tail, escaped cs = c :: tail ∧ c ≠ '<' := by
  obtain ⟨c, tail, heq⟩ := List.exists_cons_of_ne_nil (mt (@escaped_injective cs []) h)
  refine ⟨c, tail, heq, ?_⟩
  rintro rfl
  exact not_mem_escaped (by decide) cs (heq ▸ List.mem_cons_self)

/-- What may follow parts: nothing, or the tag that closes the element in which they stand. -/
def Closing (rest : List Char) : Prop := rest = [] ∨ ∃ tail, rest = '<' :: '/' :: tail

theorem not_closing_written {m : Markup} (h : m.Distinct) : ¬Closing (m.written ++ rest) := by
  cases m with
  | text cs =>
    rw [Distinct] at h
    obtain ⟨c, tail, heq, hc⟩ := head_escaped h
    simp [Closing, written, heq, hc]
  | element kind rule inside =>
    obtain ⟨⟨-, -, hslash⟩, -⟩ := h
    rw [Closing, written]
    cases hkind : kind.toList with
    | nil => cases rule <;> simp [ruleText_none, ruleText_some]
    | cons c tail =>
      rw [hkind] at hslash
      simpa using hslash

theorem head_writtenOf {ms : List Markup} (hms : ∀ m ∈ ms.head?, m.isText = false) (hrest : Closing rest) :
    ∀ c ∈ (writtenOf ms ++ rest).head?, c = '<' := by
  cases ms with
  | nil => rcases hrest with rfl | ⟨tail, rfl⟩ <;> simp [writtenOf]
  | cons m ms =>
    cases m with
    | text cs => cases hms _ rfl
    | element kind rule inside => simp [writtenOf, written]

mutual
/-- The text of a part can be told from what follows it. -/
theorem written_unique : ∀ {m n : Markup} {rest rest' : List Char}, m.Distinct → n.Distinct →
    (m.isText = true → ∀ c ∈ rest.head?, c = '<') → (n.isText = true → ∀ c ∈ rest'.head?, c = '<') →
    written m ++ rest = written n ++ rest' → m = n ∧ rest = rest'
  | .text cs, .text ds, rest, rest', _, _, hrest, hrest', h => by
    have hopen : ∀ cs, ∀ c ∈ escaped cs, ¬c = '<' := by
      rintro cs c hc rfl
      exact not_mem_escaped (by decide) cs hc
    rw [written, written] at h
    obtain ⟨heq, hrests⟩ := append_unique (p := (· = '<')) (hopen cs) (hopen ds) (hrest rfl) (hrest' rfl) h
    exact ⟨congrArg Markup.text (escaped_injective heq), hrests⟩
  | .text cs, .element _ _ _, _, _, hm, _, _, _, h => by
    rw [Distinct] at hm
    obtain ⟨c, tail, heq, hc⟩ := head_escaped hm
    rw [written, heq, written] at h
    exact absurd (List.cons.inj h).1 hc
  | .element _ _ _, .text ds, _, _, _, hn, _, _, h => by
    rw [Distinct] at hn
    obtain ⟨d, tail, heq, hd⟩ := head_escaped hn
    rw [written, written, heq] at h
    exact absurd (List.cons.inj h).1.symm hd
  | .element kind rule inside, .element kind' rule' inside', rest, rest', hm, hn, _, _, h => by
    obtain ⟨⟨hblank, hclose, -⟩, hinside⟩ := hm
    obtain ⟨⟨hblank', hclose', -⟩, hinside'⟩ := hn
    simp only [written, List.cons_append, List.append_assoc, List.cons.injEq, true_and, List.nil_append] at h
    -- The parts of the two texts are told apart from the front: the kind, the rule, and what stands between the tags.
    obtain ⟨hkind, htag⟩ := append_unique (p := fun c => c = ' ' ∨ c = '>')
      (by rintro c hc (rfl | rfl) <;> contradiction) (by rintro c hc (rfl | rfl) <;> contradiction)
      (head_ruleText rule) (head_ruleText rule') h
    obtain ⟨rfl, hbehind⟩ := ruleText_unique htag
    obtain ⟨rfl, htags⟩ := writtenOf_unique hinside hinside' (Or.inr ⟨_, rfl⟩) (Or.inr ⟨_, rfl⟩) hbehind
    obtain rfl := String.toList_inj.mp hkind
    simp only [List.cons.injEq, true_and, List.append_cancel_left_eq] at htags
    exact ⟨rfl, htags⟩

theorem writtenOf_unique : ∀ {ms ns : List Markup} {rest rest' : List Char}, AllDistinct ms → AllDistinct ns →
    Closing rest → Closing rest' → writtenOf ms ++ rest = writtenOf ns ++ rest' → ms = ns ∧ rest = rest'
  | [], [], _, _, _, _, _, _, h => ⟨rfl, h⟩
  | [], n :: ns, _, _, _, hns, hrest, _, h => by
    rw [writtenOf, writtenOf, List.nil_append, List.append_assoc] at h
    exact absurd (h ▸ hrest) (not_closing_written hns.1)
  | m :: ms, [], _, _, hms, _, _, hrest', h => by
    rw [writtenOf, writtenOf, List.nil_append, List.append_assoc] at h
    exact absurd (h ▸ hrest') (not_closing_written hms.1)
  | m :: ms, n :: ns, _, _, hms, hns, hrest, hrest', h => by
    obtain ⟨hm, hhead, hms⟩ := hms
    obtain ⟨hn, hhead', hns⟩ := hns
    rw [writtenOf, writtenOf, List.append_assoc, List.append_assoc] at h
    obtain ⟨rfl, htail⟩ := written_unique hm hn (fun htext => head_writtenOf (hhead htext) hrest)
      (fun htext => head_writtenOf (hhead' htext) hrest') h
    obtain ⟨rfl, hrests⟩ := writtenOf_unique hms hns hrest hrest' htail
    exact ⟨rfl, hrests⟩
end

end

/-- Tokens have the same marked-up text exactly if they show the same tree: the same kinds, with the rules of those that
    an alias names, around the same parts, where only how plain text is cut into tokens, empty ones among them, does not
    count. Names of rules and texts may hold any characters, and kinds all but those that end them in a tag. -/
theorem renderTag_eq_iff {ts us : List Token} (hts : ∀ kind ∈ kindsOf ts, IsTagName kind.toList)
    (hus : ∀ kind ∈ kindsOf us, IsTagName kind.toList) :
    renderTag ts = renderTag us ↔ joined (markupOf ts) = joined (markupOf us) := by
  rw [renderTag, renderTag, String.ofList_inj, taggedOf_eq, taggedOf_eq, ← writtenOf_joined (markupOf ts),
    ← writtenOf_joined (markupOf us)]
  constructor
  · intro h
    have hclosing : Closing [] := Or.inl rfl
    have happend : writtenOf (joined (markupOf ts)) ++ [] = writtenOf (joined (markupOf us)) ++ [] := congrArg (· ++ []) h
    exact (writtenOf_unique (allDistinct_markupOf ts hts) (allDistinct_markupOf us hus) hclosing hclosing happend).1
  · exact congrArg writtenOf

/-- Tokens that show the same, though they differ in their spans, in how text is cut, and in which of two names is
    their kind. -/
def cutSample : List Token :=
  [.plain "a<" ⟨0, 2⟩, .plain "" ⟨2, 2⟩, .plain "b" ⟨2, 3⟩, ⟨some "n\">m", some "k", .nested [], ⟨3, 3⟩⟩,
    ⟨some "w", none, .text "&", ⟨3, 4⟩⟩]

def uncutSample : List Token :=
  [.plain "a<b" ⟨5, 8⟩, ⟨some "n\">m", some "k", .text "", ⟨8, 8⟩⟩, ⟨none, some "w", .nested [.plain "&" ⟨8, 9⟩], ⟨8, 9⟩⟩]

theorem renderTag_eq_cut :
    cutSample ≠ uncutSample ∧ renderTag cutSample = "a&lt;b<k rule=\"n&quot;&gt;m\"></k><w>&amp;</w>" ∧
      renderTag uncutSample = renderTag cutSample ∧ joined (markupOf uncutSample) = joined (markupOf cutSample) := by
  have hcut : ∀ kind ∈ kindsOf cutSample, IsTagName kind.toList := by decide
  have huncut : ∀ kind ∈ kindsOf uncutSample, IsTagName kind.toList := by decide
  have hsame : renderTag uncutSample = renderTag cutSample := by decide +kernel
  exact ⟨by decide, by decide +kernel, hsame, (renderTag_eq_iff huncut hcut).mp hsame⟩

end Markup
end Highlight
