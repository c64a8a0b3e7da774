import Mathlib.Data.List.Forall2
import Highlight.Proofs.Engine

/-! Equality of grammars. Two grammars compare equal just if they have the same form, which is all of them but their
    patterns, and their patterns are equal one by one, at every depth (`Grammar.same_iff`). -/

namespace Highlight

/-! ### Patterns and form -/

mutual
/-- The patterns of a referred grammar that stands in place. -/
def GrammarRef.patterns : GrammarRef → List Pattern
  | .inline g => Grammar.patterns g
  | .named _ => []

def optionalPatterns : Option GrammarRef → List Pattern
  | none => []
  | some ref => GrammarRef.patterns ref

/-- The pattern of a rule, and those of the grammar for its inside. -/
def Rule.patterns : Rule → List Pattern
  | ⟨p, _, _, _, inside⟩ => p :: optionalPatterns inside

def rulesPatterns : List Rule → List Pattern
  | [] => []
  | r :: rs => Rule.patterns r ++ rulesPatterns rs

def Entry.patterns : Entry → List Pattern
  | ⟨_, rules⟩ => rulesPatterns rules

def entriesPatterns : List Entry → List Pattern
  | [] => []
  | e :: es => Entry.patterns e ++ entriesPatterns es

/-- The patterns of a grammar, with those of all grammars that stand in place in it. -/
def Grammar.patterns : Grammar → List Pattern
  | ⟨entries, rest⟩ => entriesPatterns entries ++ optionalPatterns rest
end

mutual
/-- What a reference is apart from patterns. -/
def GrammarRef.form : GrammarRef → GrammarRef
  | .inline g => .inline (Grammar.form g)
  | .named language => .named language

def optionalForm : Option GrammarRef → Option GrammarRef
  | none => none
  | some ref => some (GrammarRef.form ref)

/-- What a rule is apart from its pattern and those of the grammar for its inside. -/
def Rule.form : Rule → Rule
  | ⟨_, lookbehind, greedy, aliasName, inside⟩ => ⟨.literal "", lookbehind, greedy, aliasName, optionalForm inside⟩

def rulesForm : List Rule → List Rule
  | [] => []
  | r :: rs => Rule.form r :: rulesForm rs

def Entry.form : Entry → Entry
  | ⟨name, rules⟩ => ⟨name, rulesForm rules⟩

def entriesForm : List Entry → List Entry
  | [] => []
  | e :: es => Entry.form e :: entriesForm es

/-- What a grammar is apart from patterns: every pattern in it is replaced by the same one. -/
def Grammar.form : Grammar → Grammar
  | ⟨entries, rest⟩ => ⟨entriesForm entries, optionalForm rest⟩
end

/-! ### Equality -/

/-- Patterns compare equal one by one. -/
abbrev SameEach : List Pattern → List Pattern → Prop := List.Forall₂ fun p q => (p == q) = true

section
variable {as as' bs bs' : List Pattern}

theorem sameEach_append (h : as.length = bs.length) :
    SameEach (as ++ as') (bs ++ bs') ↔ SameEach as bs ∧ SameEach as' bs' := by
  induction as generalizing bs with
  | nil =>
    obtain rfl := List.length_eq_zero_iff.mp h.symm
    simp
  | cons a as ih =>
    cases bs with
    | nil => cases h
    | cons b bs => simp only [List.cons_append, List.forall₂_cons, ih (Nat.succ.inj h), and_assoc]

/-- Two parts are equal if both have the same form, which makes as many patterns, and the same patterns. -/
theorem sameEach_both {Form Form' : Prop} (h : Form → as.length = bs.length) :
    (Form ∧ SameEach as bs) ∧ Form' ∧ SameEach as' bs' ↔ (Form ∧ Form') ∧ SameEach (as ++ as') (bs ++ bs') := by
  constructor
  · rintro ⟨⟨hform, heach⟩, hform', heach'⟩
    exact ⟨⟨hform, hform'⟩, (sameEach_append (h hform)).mpr ⟨heach, heach'⟩⟩
  · rintro ⟨⟨hform, hform'⟩, heach⟩
    obtain ⟨heach, heach'⟩ := (sameEach_append (h hform)).mp heach
    exact ⟨⟨hform, heach⟩, hform', heach'⟩

end

mutual
theorem GrammarRef.patterns_form : ∀ ref : GrammarRef,
    (GrammarRef.form ref).patterns = ref.patterns.map fun _ => Pattern.literal ""
  | .inline g => Grammar.patterns_form g
  | .named _ => rfl

theorem patterns_optionalForm : ∀ ref : Option GrammarRef,
    optionalPatterns (optionalForm ref) = (optionalPatterns ref).map fun _ => Pattern.literal ""
  | none => rfl
  | some ref => GrammarRef.patterns_form ref

theorem Rule.patterns_form : ∀ r : Rule, (Rule.form r).patterns = r.patterns.map fun _ => Pattern.literal ""
  | ⟨_, _, _, _, inside⟩ => congrArg (Pattern.literal "" :: ·) (patterns_optionalForm inside)

theorem patterns_rulesForm : ∀ rs : List Rule,
    rulesPatterns (rulesForm rs) = (rulesPatterns rs).map fun _ => Pattern.literal ""
  | [] => rfl
  | r :: rs => by
    rw [rulesForm, rulesPatterns, rulesPatterns, List.map_append, Rule.patterns_form r, patterns_rulesForm rs]

theorem Entry.patterns_form : ∀ e : Entry, (Entry.form e).patterns = e.patterns.map fun _ => Pattern.literal ""
  | ⟨_, rules⟩ => patterns_rulesForm rules

theorem patterns_entriesForm : ∀ es : List Entry,
    entriesPatterns (entriesForm es) = (entriesPatterns es).map fun _ => Pattern.literal ""
  | [] => rfl
  | e :: es => by
    rw [entriesForm, entriesPatterns, entriesPatterns, List.map_append, Entry.patterns_form e, patterns_entriesForm es]

theorem Grammar.patterns_form : ∀ g : Grammar, (Grammar.form g).patterns = g.patterns.map fun _ => Pattern.literal ""
  | ⟨entries, rest⟩ => by
    rw [Grammar.form, Grammar.patterns, Grammar.patterns, List.map_append, patterns_entriesForm entries,
      patterns_optionalForm rest]
end

theorem Rule.length_patterns {r s : Rule} (h : r.form = s.form) : r.patterns.length = s.patterns.length := by
  simpa [Rule.patterns_form] using congrArg (fun r : Rule => r.patterns.length) h

theorem Entry.length_patterns {e f : Entry} (h : e.form = f.form) : e.patterns.length = f.patterns.length := by
  simpa [Entry.patterns_form] using congrArg (fun e : Entry => e.patterns.length) h

theorem length_entriesPatterns {es fs : List Entry} (h : entriesForm es = entriesForm fs) :
    (entriesPatterns es).length = (entriesPatterns fs).length := by
  simpa [patterns_entriesForm] using congrArg (fun es => (entriesPatterns es).length) h

mutual
theorem GrammarRef.same_iff : ∀ a b : GrammarRef, GrammarRef.same a b = true ↔
    a.form = b.form ∧ SameEach a.patterns b.patterns
  | .inline g, .inline h => by
    rw [GrammarRef.same, Grammar.same_iff g h, GrammarRef.form, GrammarRef.form, GrammarRef.inline.injEq]
    rfl
  | .named a, .named b => by
    simp [GrammarRef.same, GrammarRef.form, GrammarRef.patterns]
  | .inline _, .named _ => by simp [GrammarRef.same, GrammarRef.form]
  | .named _, .inline _ => by simp [GrammarRef.same, GrammarRef.form]

theorem optionalSame_iff : ∀ a b : Option GrammarRef, optionalSame a b = true ↔
    optionalForm a = optionalForm b ∧ SameEach (optionalPatterns a) (optionalPatterns b)
  | none, none => by simp [optionalSame, optionalPatterns]
  | some a, some b => by
    rw [optionalSame, GrammarRef.same_iff a b, optionalForm, optionalForm, Option.some.injEq]
    rfl
  | none, some _ => by simp [optionalSame, optionalForm]
  | some _, none => by simp [optionalSame, optionalForm]

theorem Rule.same_iff : ∀ r s : Rule, Rule.same r s = true ↔
    r.form = s.form ∧ SameEach r.patterns s.patterns
  | ⟨p, _, _, _, inside⟩, ⟨q, _, _, _, inside'⟩ => by
    simp only [Rule.same, Rule.form, Rule.patterns, Bool.and_eq_true, beq_iff_eq, optionalSame_iff inside inside',
      Rule.mk.injEq, List.forall₂_cons, true_and]
    tauto

theorem rulesSame_iff : ∀ rs ss : List Rule, rulesSame rs ss = true ↔
    rulesForm rs = rulesForm ss ∧ SameEach (rulesPatterns rs) (rulesPatterns ss)
  | [], [] => by simp [rulesSame, rulesPatterns]
  | r :: rs, s :: ss => by
    simp only [rulesSame, Bool.and_eq_true, Rule.same_iff r s, rulesSame_iff rs ss, rulesForm, List.cons.injEq,
      rulesPatterns]
    exact sameEach_both Rule.length_patterns
  | [], _ :: _ => by simp [rulesSame, rulesForm]
  | _ :: _, [] => by simp [rulesSame, rulesForm]

theorem Entry.same_iff : ∀ e f : Entry, Entry.same e f = true ↔
    e.form = f.form ∧ SameEach e.patterns f.patterns
  | ⟨name, rules⟩, ⟨name', rules'⟩ => by
    simp only [Entry.same, Entry.form, Entry.patterns, Bool.and_eq_true, beq_iff_eq, rulesSame_iff rules rules',
      Entry.mk.injEq, and_assoc]

theorem entriesSame_iff : ∀ es fs : List Entry, entriesSame es fs = true ↔
    entriesForm es = entriesForm fs ∧ SameEach (entriesPatterns es) (entriesPatterns fs)
  | [], [] => by simp [entriesSame, entriesPatterns]
  | e :: es, f :: fs => by
    simp only [entriesSame, Bool.and_eq_true, Entry.same_iff e f, entriesSame_iff es fs, entriesForm, List.cons.injEq,
      entriesPatterns]
    exact sameEach_both Entry.length_patterns
  | [], _ :: _ => by simp [entriesSame, entriesForm]
  | _ :: _, [] => by simp [entriesSame, entriesForm]

theorem Grammar.same_iff : ∀ g h : Grammar, Grammar.same g h = true ↔
    g.form = h.form ∧ SameEach g.patterns h.patterns
  | ⟨entries, rest⟩, ⟨entries', rest'⟩ => by
    simp only [Grammar.same, Bool.and_eq_true, entriesSame_iff entries entries', optionalSame_iff rest rest', Grammar.form,
      Grammar.mk.injEq, Grammar.patterns]
    exact sameEach_both length_entriesPatterns
end

end Highlight
