import Highlight.Proofs.AtStart
import Highlight.Proofs.Engine
import Highlight.Proofs.Regex.Forward

/-! What a pattern finds at an offset depends on nothing that lies before the character in front of it, unless the pattern
    looks behind. -/

namespace Highlight
namespace Regex

/-! ### Offsets -/

theorem Place.skip_eq {text : List Char} {n : Nat} (hn : n ≤ text.length) (before : List Char) (left : Nat) :
    Place.skip n ⟨before, text, left⟩ = ⟨(text.take n).reverse ++ before, text.drop n, left - n⟩ := by
  induction n generalizing text before left with
  | zero => rfl
  | succ n ih =>
    cases text with
    | nil => cases hn
    | cons c text =>
      show Place.skip n ⟨c :: before, text, left - 1⟩ = _
      rw [ih (Nat.le_of_succ_le_succ hn), Nat.sub_sub, Nat.add_comm 1 n]
      simp

section
variable {text : List Char} {a b offset : Nat}

/-- In the text from some offset on, a later offset has the same character before it as in the whole text. -/
theorem exists_skip_drop (ha : a < offset) (hoffset : offset ≤ text.length) {c : Char} (hc : text[offset - 1]? = some c) :
    ∃ before, (Place.start (text.drop a)).skip (offset - a) = ⟨c :: before, text.drop offset, text.length - offset⟩ := by
  have hle : offset - a ≤ (text.drop a).length := by
    rw [List.length_drop]
    omega
  have hlast : (text.drop a).take (offset - a) = (text.drop a).take (offset - a - 1) ++ [c] := by
    have hget : (text.drop a)[offset - a - 1]? = some c := by
      rw [List.getElem?_drop, ← hc]
      congr 1
      omega
    have hstep := List.take_add_one (l := text.drop a) (i := offset - a - 1)
    rwa [hget, Nat.sub_add_cancel (by omega)] at hstep
  refine ⟨((text.drop a).take (offset - a - 1)).reverse, ?_⟩
  rw [Place.start, Place.skip_eq hle, hlast, List.reverse_append, List.drop_drop, List.length_drop]
  simp only [List.reverse_singleton, List.singleton_append, List.append_nil, Place.mk.injEq]
  refine ⟨trivial, ?_, ?_⟩
  · congr 1
    omega
  · omega

/-- An offset looks alike in all texts that begin before it. -/
theorem alike_skip (ha : a < offset) (hb : b < offset) (hoffset : offset ≤ text.length) :
    ((Place.start (text.drop a)).skip (offset - a)).Alike (text.length - offset)
      ((Place.start (text.drop b)).skip (offset - b)) := by
  have hlt : offset - 1 < text.length := by omega
  obtain ⟨before, ha⟩ := exists_skip_drop ha hoffset (List.getElem?_eq_getElem hlt)
  obtain ⟨before', hb⟩ := exists_skip_drop hb hoffset (List.getElem?_eq_getElem hlt)
  rw [ha, hb]
  exact .mk (Nat.le_refl _)

end

/-! ### Matches -/

/-- What is found in the text after `n` characters, in offsets of the whole text. -/
def shifted (n : Nat) (found : Except SearchError (Option Match)) : Except SearchError (Option Match) :=
  found.map (Option.map (·.shift n))

namespace Match

section
variable {length a b reach : Nat} (ha : reach + a ≤ length) (hb : reach + b ≤ length) {q q' : Place} {slots slots' : Slots}
include ha hb

/-- Places that look alike lie at the same offset of the text that both texts end. -/
theorem offset_alike (hq : q.Alike reach q') : length - a - q.left + a = length - b - q'.left + b := by
  have hle := hq.le
  rw [hq.left]
  omega

theorem slotSpan?_alike (hs : SlotsAlike reach slots slots') (index : Nat) :
    (slotSpan? (length - a) slots index).map (·.shift a) = (slotSpan? (length - b) slots' index).map (·.shift b) := by
  have hstart := hs.get (2 * index)
  have hstop := hs.get (2 * index + 1)
  unfold slotSpan?
  generalize slots.getD (2 * index) none = start at hstart
  generalize slots'.getD (2 * index) none = start' at hstart
  generalize slots.getD (2 * index + 1) none = stop at hstop
  generalize slots'.getD (2 * index + 1) none = stop' at hstop
  cases hstart with
  | none => rfl
  | some hstart =>
    cases hstop with
    | none => rfl
    | some hstop =>
      simp only [Option.map_some, Span.shift, offset_alike ha hb hstart, offset_alike ha hb hstop]

theorem ofSlots_alike (hs : SlotsAlike reach slots slots') (groups : Nat) {span span' : Span}
    (hspan : span.shift a = span'.shift b) :
    (ofSlots (length - a) groups span slots).shift a = (ofSlots (length - b) groups span' slots').shift b := by
  simp only [ofSlots, shift, hspan, List.map_map, Function.comp_def, slotSpan?_alike ha hb hs]

end
end Match

namespace Program

section
variable {length a b reach : Nat} (ha : reach + a ≤ length) (hb : reach + b ≤ length) {q q' : Place} {slots slots' : Slots}
include ha hb

theorem matchOf_alike (hq : q.Alike reach q') (hs : SlotsAlike reach slots slots') (groups : Nat) :
    (matchOf (length - a) groups q slots).shift a = (matchOf (length - b) groups q' slots').shift b := by
  have hstop := Match.offset_alike ha hb hq
  refine Match.ofSlots_alike ha hb hs groups ?_
  have hslot := Match.slotSpan?_alike ha hb hs 0
  generalize Match.slotSpan? (length - a) slots 0 = span at hslot
  generalize Match.slotSpan? (length - b) slots' 0 = span' at hslot
  have hstart : ((span.map (·.start)).getD (length - a - q.left)) + a =
      ((span'.map (·.start)).getD (length - b - q'.left)) + b := by
    cases span with
    | none =>
      obtain rfl := Option.map_eq_none_iff.mp hslot.symm
      exact hstop
    | some span =>
      obtain ⟨span', rfl, hshift⟩ := Option.map_eq_some_iff.mp hslot.symm
      exact congrArg Span.start hshift.symm
  simp only [Span.shift, ← Nat.add_min_add_right, hstart, hstop]

end

/-! ### Attempts and searches -/

/-- The match that a search from `start` on finds at an offset, unless it finds one before. Ways that fail are counted from
    there. -/
def tryAt (failures : Nat) (text : List Char) (start offset : Nat) : Program → Except SearchError (Option Match)
  | plain e groups =>
    match e.matchAt (Array.replicate (2 * groups) none) ((Place.start text).skip offset) (.none text.length) with
    | .found last slots _ => .ok (some (Match.ofSlots text.length groups ⟨offset, text.length - last.left⟩ slots))
    | _ => .ok none
  | tree e groups slots =>
    match e.matchAt ⟨failures, ((Place.start text).skip start).left⟩ (Array.replicate slots none)
        ((Place.start text).skip offset) 0 with
    | .found last slots _ => .ok (some (matchOf text.length groups last slots))
    | .failed _ => .ok none
    | .exceeded => .error .tooManyFailures

section
variable {program : Program} {failures : Nat} {text : List Char} {a b offset : Nat}

theorem same_drop (text : List Char) (ha : a < offset) (hb : b < offset) :
    Plain.Tried.Same (text.length - offset) (.none (text.drop a).length) (.none (text.drop b).length) := by
  refine Plain.same_none ?_ ?_ <;> rw [List.length_drop] <;> omega

theorem limits_alike (failures : Nat) {start start' : Nat} (ha : a < offset) (hb : b < offset)
    (hoffset : offset ≤ text.length) (hstart : start ≤ offset)
    (hstart' : start' ≤ offset) (hsame : start = offset ↔ start' = offset) :
    Tree.Limits.Alike (text.length - offset) ⟨failures, ((Place.start (text.drop a)).skip (start - a)).left⟩
      ⟨failures, ((Place.start (text.drop b)).skip (start' - b)).left⟩ := by
  have hleft : ∀ {a start : Nat}, a < offset → start ≤ offset →
      ((Place.start (text.drop a)).skip (start - a)).left = text.length - a - (start - a) := by
    intro a start ha hstart
    have hle : start - a ≤ (text.drop a).length := by
      rw [List.length_drop]
      omega
    rw [Place.start, Place.skip_eq hle, List.length_drop]
  refine ⟨rfl, fun left hle => ?_⟩
  simp only [hleft ha hstart, hleft hb hstart']
  omega

variable (hlooks : program.looksBack = false) (ha : a < offset) (hb : b < offset) (hoffset : offset ≤ text.length)
include hlooks ha hb hoffset

/-- What is found at an offset is the same in all texts that begin before it and end alike, where both searches begin at the
    offset, or both before. -/
theorem tryAt_local {start start' : Nat} (hstart : start ≤ offset) (hstart' : start' ≤ offset)
    (hsame : start = offset ↔ start' = offset) :
    shifted a (program.tryAt failures (text.drop a) (start - a) (offset - a)) =
      shifted b (program.tryAt failures (text.drop b) (start' - b) (offset - b)) := by
  have hreach : text.length - offset + a ≤ text.length := by omega
  have hreach' : text.length - offset + b ≤ text.length := by omega
  have hplace := alike_skip ha hb hoffset
  have hlimits := limits_alike failures ha hb hoffset hstart hstart' hsame
  cases program with
  | plain e groups =>
    have hmatch := Plain.alike_matchAt (Plain.tracks_same _) e hplace (slotsAlike_replicate (2 * groups))
      (same_drop text ha hb)
    unfold tryAt
    dsimp only
    generalize e.matchAt _ ((Place.start (text.drop a)).skip (offset - a)) _ = r at hmatch
    generalize e.matchAt _ ((Place.start (text.drop b)).skip (offset - b)) _ = r' at hmatch
    cases hmatch with
    | found hq hs _ =>
      have hstart : offset - a + a = offset - b + b := by omega
      simp only [List.length_drop]
      refine congrArg (Except.ok ∘ some) (Match.ofSlots_alike hreach hreach' hs groups ?_)
      simp only [Span.shift, hstart, Match.offset_alike hreach hreach' hq]
    | failed | exceeded => rfl
  | tree e groups slots =>
    have hmatch := Tree.alike_matchAt hlimits hlooks hplace (slotsAlike_replicate slots) 0
    unfold tryAt
    dsimp only
    generalize e.matchAt _ _ ((Place.start (text.drop a)).skip (offset - a)) _ = r at hmatch
    generalize e.matchAt _ _ ((Place.start (text.drop b)).skip (offset - b)) _ = r' at hmatch
    cases hmatch with
    | found hq hs _ =>
      simp only [List.length_drop]
      exact congrArg (Except.ok ∘ some) (matchOf_alike hreach hreach' hq hs groups)
    | failed | exceeded => rfl

/-- A search from an offset on finds the same in all texts that begin before it and end alike. -/
theorem search_local : shifted a (program.search failures (text.drop a) (offset - a)) =
    shifted b (program.search failures (text.drop b) (offset - b)) := by
  have hreach : text.length - offset + a ≤ text.length := by omega
  have hreach' : text.length - offset + b ≤ text.length := by omega
  have hplace := alike_skip ha hb hoffset
  have hlimits := limits_alike failures ha hb hoffset (Nat.le_refl offset) (Nat.le_refl offset) Iff.rfl
  unfold search
  dsimp only
  generalize (Place.start (text.drop a)).skip (offset - a) = p at hplace hlimits
  generalize (Place.start (text.drop b)).skip (offset - b) = p' at hplace hlimits
  obtain ⟨before, after, left⟩ := p
  obtain ⟨before', after', left'⟩ := p'
  obtain ⟨rfl, rfl⟩ : after' = after ∧ left' = left := by
    cases hplace
    exact ⟨rfl, rfl⟩
  cases program with
  | plain e groups =>
    have hsearch := Plain.alike_search (Plain.tracks_same _) e hplace (slotsAlike_replicate (2 * groups))
      (same_drop text ha hb)
    dsimp only
    generalize e.search _ _ _ _ (.none (text.drop a).length) = r at hsearch
    generalize e.search _ _ _ _ (.none (text.drop b).length) = r' at hsearch
    cases hsearch with
    | some hfound =>
      simp only [List.length_drop]
      refine congrArg (Except.ok ∘ some) (Match.ofSlots_alike hreach hreach' hfound.slots groups ?_)
      simp only [Span.shift, Match.offset_alike hreach hreach' hfound.first, Match.offset_alike hreach hreach' hfound.last]
    | none => rfl
  | tree e groups slots =>
    have hsearch := Tree.alike_search hlimits hlooks hplace (slotsAlike_replicate slots) 0
    dsimp only
    generalize e.search _ _ _ _ _ 0 = r at hsearch
    generalize e.search _ _ _ _ _ 0 = r' at hsearch
    cases hsearch with
    | found hq hs _ =>
      simp only [List.length_drop]
      exact congrArg (Except.ok ∘ some) (matchOf_alike hreach hreach' hq hs groups)
    | failed | exceeded => rfl

end
end Program
end Regex

/-! ### Lookbehinds in a source -/

namespace Pattern
open Regex Regex.Parser

/-- Whether a lookbehind begins behind blanks and comments, at least one. -/
def isParted (verbose : Bool) (cs : List Char) : Bool :=
  match skipGap verbose .between cs with
  | some opened => opened != cs && (['?', '<', '='].isPrefixOf opened || ['?', '<', '!'].isPrefixOf opened)
  | none => false

/-- Whether a parenthesis of the source is parted by blanks or comments from a lookbehind that it opens. Blanks part them in
    verbose mode only. -/
def partsLookbehind : List Char → Bool
  | [] => false
  | c :: cs => c == '(' && (isParted false cs || isParted true cs) || partsLookbehind cs

theorem writesLookbehind_of_suffix {cs text : List Char} (h : cs <:+ text) (hwrites : writesLookbehind cs = true) :
    writesLookbehind text = true := by
  obtain ⟨front, rfl⟩ := h
  induction front with
  | nil => exact hwrites
  | cons c front ih => rw [List.cons_append, writesLookbehind, ih, Bool.or_true]

theorem partsLookbehind_of_suffix {cs text : List Char} (h : cs <:+ text) (hparts : partsLookbehind cs = true) :
    partsLookbehind text = true := by
  obtain ⟨front, rfl⟩ := h
  induction front with
  | nil => exact hparts
  | cons c front ih => rw [List.cons_append, partsLookbehind, ih, Bool.or_true]

/-- A lookbehind that a source opens is written in it, unless it is parted from its parenthesis. -/
theorem writes_or_parts {source : List Char} (h : OpensBehind source) :
    writesLookbehind source = true ∨ partsLookbehind source = true := by
  obtain ⟨verbose, cs, opened, hsuffix, hskip, hstarts⟩ := h
  have hprefix : (['?', '<', '='].isPrefixOf opened || ['?', '<', '!'].isPrefixOf opened) = true := by
    simpa [StartsBehind] using hstarts
  by_cases hopened : opened = cs
  · subst hopened
    refine .inl (writesLookbehind_of_suffix hsuffix ?_)
    have hwrites : (['(', '?', '<', '='].isPrefixOf ('(' :: opened) || ['(', '?', '<', '!'].isPrefixOf ('(' :: opened)) = true :=
      hprefix
    rw [writesLookbehind, hwrites, Bool.true_or]
  · refine .inr (partsLookbehind_of_suffix hsuffix ?_)
    have hparted : isParted verbose cs = true := by
      rw [isParted, hskip]
      simpa [hopened] using hprefix
    cases verbose <;> simp [partsLookbehind, hparted]

theorem suffix_of_append {c : Char} {cs front source : List Char} (h : c :: cs <:+ front ++ source) (hfront : c ∉ front) :
    c :: cs <:+ source := by
  induction front with
  | nil => exact h
  | cons d front ih =>
    rw [List.mem_cons, not_or] at hfront
    rcases List.suffix_cons_iff.mp h with heq | h
    · exact absurd (List.cons.inj heq).1 hfront.1
    · exact ih h hfront.2

/-- The modes in front of a source open no lookbehind. -/
theorem opensBehind_of_searchText {modes source : List Char} (hmodes : ∀ mode ∈ modes, isMode mode = true)
    (h : OpensBehind (searchText modes source)) : OpensBehind source := by
  by_cases hnil : modes = []
  · subst hnil
    exact h
  obtain ⟨mode, modes, rfl⟩ := List.exists_cons_of_ne_nil hnil
  obtain ⟨verbose, cs, opened, hsuffix, hskip, hstarts⟩ := h
  have htext : searchText (mode :: modes) source = '(' :: (('?' :: mode :: (modes ++ [')'])) ++ source) := by
    simp [searchText, modePrefix]
  rw [htext] at hsuffix
  rcases List.suffix_cons_iff.mp hsuffix with heq | hsuffix
  · -- The parenthesis is that of the modes.
    obtain rfl := (List.cons.inj heq).2
    have hopened : '?' :: mode :: (modes ++ [')'] ++ source) = opened := by simpa [skipGap] using hskip
    rcases cases_of_isMode (hmodes mode List.mem_cons_self) with rfl | rfl | rfl | rfl <;> subst hopened <;>
      simp [StartsBehind] at hstarts
  · refine ⟨verbose, cs, opened, suffix_of_append hsuffix ?_, hskip, hstarts⟩
    have hparen : ∀ c ∈ '?' :: mode :: (modes ++ [')']), c ≠ '(' := by
      intro c hc
      rw [← List.cons_append, List.mem_cons, List.mem_append, List.mem_singleton] at hc
      rcases hc with rfl | hc | rfl
      · decide
      · rcases cases_of_isMode (hmodes c hc) with rfl | rfl | rfl | rfl <;> decide
      · decide
    exact fun hmem => hparen _ hmem rfl

/-! ### Compiled patterns -/

/-- The match that a search from `start` on finds at an offset, unless it finds one before. -/
def tryAt (p : Pattern) (text : List Char) (start offset : Nat) : Except SearchError (Option Match) :=
  p.program.tryAt p.failures text start offset

section
variable {source flags : String} {failures : Nat} {p : Pattern}

theorem looksBehind_of_compile (h : compile source flags failures = .ok p) :
    p.source = source ∧ p.looksBehind = writesLookbehind source.toList := by
  obtain ⟨modes, -, h⟩ := bind_eq_ok h
  obtain ⟨program, -, h⟩ := bind_eq_ok h
  obtain ⟨anchored, -, h⟩ := bind_eq_ok h
  cases h
  exact ⟨rfl, rfl⟩

/-- A pattern that is not said to look behind goes back over no text, if in its source no lookbehind is parted from its
    parenthesis. -/
theorem looksBack_of_compile (h : compile source flags failures = .ok p) (hlooks : p.looksBehind = false)
    (hparts : partsLookbehind source.toList = false) : p.program.looksBack = false := by
  obtain ⟨hmodes, hprogram, -⟩ := compile_inv h
  obtain ⟨rfl, hwrites⟩ := looksBehind_of_compile h
  refine Program.looksBack_compile hprogram fun hopens => ?_
  rcases writes_or_parts (opensBehind_of_searchText hmodes hopens) with htrue | htrue
  · rw [← hwrites, hlooks] at htrue
    cases htrue
  · rw [hparts] at htrue
    cases htrue

/-- What a pattern finds at an offset does not depend on where before that the text begins, if the pattern is not said to
    look behind: there is the same match, or none in either text, or the search is given up in both. This is so for the
    attempt at the offset, whether the search begins there or before, and for the search from there on. In the source no
    lookbehind may be parted from its parenthesis, unless what looks so is read as something else. -/
theorem finds_alike (h : compile source flags failures = .ok p) (hlooks : p.looksBehind = false)
    (hparts : partsLookbehind source.toList = true → p.program.looksBack = false) (text : List Char) {a b offset : Nat}
    (hab : a ≤ b) (hb : b < offset) (hoffset : offset ≤ text.length) :
    (∀ start start', start ≤ offset → start' ≤ offset → (start = offset ↔ start' = offset) →
      shifted a (p.tryAt (text.drop a) (start - a) (offset - a)) =
        shifted b (p.tryAt (text.drop b) (start' - b) (offset - b))) ∧
      shifted a (p.search (text.drop a) (offset - a)) = shifted b (p.search (text.drop b) (offset - b)) := by
  have hback : p.program.looksBack = false := by
    cases hparted : partsLookbehind source.toList with
    | true => exact hparts hparted
    | false => exact looksBack_of_compile h hlooks hparted
  have ha : a < offset := Nat.lt_of_le_of_lt hab hb
  exact ⟨fun start start' hstart hstart' hsame => Program.tryAt_local hback ha hb hoffset hstart hstart' hsame,
    Program.search_local hback ha hb hoffset⟩

end

/-- A pattern with a word boundary, a lookahead and a reference to a group. -/
theorem finds_alike_boundary : ∃ p, compile "\\b(a)(?=\\1)" "" defaultFailures = .ok p ∧ p.looksBehind = false ∧
    (partsLookbehind "\\b(a)(?=\\1)".toList = true → p.program.looksBack = false) ∧
    0 ≤ 1 ∧ 1 < 2 ∧ 2 ≤ ['b', ' ', 'a', 'a'].length ∧
    p.search ['b', ' ', 'a', 'a'] 2 = .ok (some ⟨⟨2, 3⟩, [some ⟨2, 3⟩]⟩) ∧
    (∀ start start', start ≤ 2 → start' ≤ 2 → (start = 2 ↔ start' = 2) →
      shifted 0 (p.tryAt ['b', ' ', 'a', 'a'] (start - 0) (2 - 0)) = shifted 1 (p.tryAt [' ', 'a', 'a'] (start' - 1) (2 - 1))) ∧
    shifted 0 (p.search ['b', ' ', 'a', 'a'] (2 - 0)) = shifted 1 (p.search [' ', 'a', 'a'] (2 - 1)) := by
  have hrun : (compile "\\b(a)(?=\\1)" "" defaultFailures).toOption.map (fun p =>
      (p.looksBehind, (p.search ['b', ' ', 'a', 'a'] 2).toOption)) =
      some (false, some (some ⟨⟨2, 3⟩, [some ⟨2, 3⟩]⟩)) := by decide +kernel
  obtain ⟨p, hp, hrun⟩ := Option.map_eq_some_iff.mp hrun
  obtain ⟨hlooks, hsearch⟩ := Prod.mk.inj hrun
  have hcompiled := toOption_eq_some hp
  have hparts : partsLookbehind "\\b(a)(?=\\1)".toList = true → p.program.looksBack = false :=
    fun hparts => absurd hparts (by decide +kernel)
  have halike := finds_alike hcompiled hlooks hparts ['b', ' ', 'a', 'a'] (by decide : 0 ≤ 1) (by decide : 1 < 2) (by decide)
  exact ⟨p, hcompiled, hlooks, hparts, by decide, by decide, by decide, toOption_eq_some hsearch, halike⟩

/-- In verbose mode a blank can part a lookbehind from its parenthesis. The pattern is not said to look behind then, but it
    does: at the same offset it matches in a text, and not in the end of the text. -/
theorem finds_unlike : ∃ p, compile "( ?<=ab)c" "x" defaultFailures = .ok p ∧ p.looksBehind = false ∧
    p.tryAt ['a', 'b', 'c'] 2 2 = .ok (some ⟨⟨2, 3⟩, []⟩) ∧ p.tryAt ['b', 'c'] 1 1 = .ok none ∧
    p.search ['a', 'b', 'c'] 2 = .ok (some ⟨⟨2, 3⟩, []⟩) ∧ p.search ['b', 'c'] 1 = .ok none := by
  have hrun : (compile "( ?<=ab)c" "x" defaultFailures).toOption.map (fun p => (p.looksBehind,
      [p.tryAt ['a', 'b', 'c'] 2 2, p.tryAt ['b', 'c'] 1 1, p.search ['a', 'b', 'c'] 2, p.search ['b', 'c'] 1].map
        (·.toOption))) =
      some (false, [some (some ⟨⟨2, 3⟩, []⟩), some none, some (some ⟨⟨2, 3⟩, []⟩), some none]) := by decide +kernel
  obtain ⟨p, hp, hrun⟩ := Option.map_eq_some_iff.mp hrun
  simp only [Prod.mk.injEq, List.map_cons, List.map_nil, List.cons.injEq, and_true] at hrun
  obtain ⟨hlooks, htry, htry', hsearch, hsearch'⟩ := hrun
  exact ⟨p, toOption_eq_some hp, hlooks, toOption_eq_some htry, toOption_eq_some htry', toOption_eq_some hsearch,
    toOption_eq_some hsearch'⟩

end Pattern
end Highlight
