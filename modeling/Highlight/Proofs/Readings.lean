import Highlight.Proofs.Except
import Highlight.Settings

/-! What the values of settings stand for, told without the way in which they are taken: a count, a text, or a part of a
    group. -/

namespace Highlight

namespace Setting

/-- Digits, and the count that they write. -/
def Written (digits : List Char) (n : Nat) : Prop :=
  digits ≠ [] ∧ (∀ c ∈ digits, c.isDigit) ∧ n ≤ maxCount ∧ Nat.ofDigitChars 10 digits 0 = n

/-- A value stands for a count: it is one, or a number near it, or says yes or no, or writes one of these. -/
inductive Counts : Setting → Nat → Prop
  | integer {n : Nat} : n ≤ maxCount → Counts (.integer n) n
  | number (value : Float) : Counts (.number value) value.round.toUInt64.toNat
  | switchedOn : Counts (.switch true) 1
  | switchedOff : Counts (.switch false) 0
  | yes {text : String} : String.ofList (text.toList.map Char.toLower) ∈ ["true", "on", "yes"] → Counts (.text text) 1
  | no {text : String} : String.ofList (text.toList.map Char.toLower) ∈ ["false", "off", "no"] → Counts (.text text) 0
  | digits {text : String} {digits : List Char} {n : Nat} : text.toList = digits ∨ text.toList = '+' :: digits →
      Written digits n → Counts (.text text) n

/-- A value stands for a text: it is one, or is written as one. -/
inductive Texts : Setting → String → Prop
  | text (value : String) : Texts (.text value) value
  | integer (value : Int) : Texts (.integer value) (toString value)
  | number (value : Float) : Texts (.number value) (layout.write value)
  | switchedOn : Texts (.switch true) "true"
  | switchedOff : Texts (.switch false) "false"

/-- What a group has under a name, or a list in its stead has in a place. -/
inductive Part (name : String) (place : Nat) : Setting → Option Setting → Prop
  | named (entries : List (String × Setting)) : Part name place (.group entries) (getValue? name entries)
  | placed (items : List Setting) : Part name place (.list items) items[place]?

/-- A count, or a default if none is given. -/
inductive CountsOr (default : Nat) : Option Setting → Nat → Prop
  | given {setting : Setting} {n : Nat} : Counts setting n → CountsOr default (some setting) n
  | missing : CountsOr default none default

/-- A text that need not be given. -/
inductive TextsOrNot : Option Setting → Option String → Prop
  | given {setting : Setting} {text : String} : Texts setting text → TextsOrNot (some setting) (some text)
  | unset : TextsOrNot (some .unset) none
  | missing : TextsOrNot none none

section
variable {setting group : Setting} {text name : String} {n place default : Nat}

theorem toText_eq_ok : setting.toText = .ok text ↔ Texts setting text := by
  constructor
  · intro h
    cases setting with
    | text value => exact Except.ok.inj h ▸ .text value
    | integer value => exact Except.ok.inj h ▸ .integer value
    | number value => exact Except.ok.inj h ▸ .number value
    | switch value =>
      obtain rfl := Except.ok.inj h
      cases value with
      | true => exact .switchedOn
      | false => exact .switchedOff
    | unset | list | group => cases h
  · intro h
    cases h <;> rfl

theorem not_written_plus {digits : List Char} : ¬Written ('+' :: digits) n := fun h =>
  absurd (h.2.1 '+' List.mem_cons_self) (by decide)

theorem written_iff {digits : List Char} :
    (if digits.isEmpty || !digits.all Char.isDigit then none else
      if digits.foldl (fun n c => 10 * n + (c.toNat - '0'.toNat)) 0 ≤ maxCount then
        some (digits.foldl (fun n c => 10 * n + (c.toNat - '0'.toNat)) 0)
      else none) = some n ↔ Written digits n := by
  rw [← Nat.ofDigitChars_eq_foldl, Written]
  by_cases hne : digits = []
  · simp [hne]
  · by_cases hall : ∀ c ∈ digits, c.isDigit
    · have hskip : (digits.isEmpty || !digits.all Char.isDigit) = false := by
        simpa [hne] using hall
      rw [if_neg (by simp [hskip])]
      constructor
      · intro h
        split at h
        · rename_i hle
          obtain rfl := Option.some.inj h
          exact ⟨hne, hall, hle, rfl⟩
        · cases h
      · rintro ⟨-, -, hle, rfl⟩
        rw [if_pos hle]
    · have hstop : (digits.isEmpty || !digits.all Char.isDigit) = true := by
        simpa using Or.inr hall
      simp [hstop, hall]

theorem countOfDigits?_eq_some {text : List Char} :
    countOfDigits? text = some n ↔ ∃ digits, (text = digits ∨ text = '+' :: digits) ∧ Written digits n := by
  unfold countOfDigits?
  split
  · rename_i rest
    refine written_iff.trans ⟨fun h => ⟨rest, Or.inr rfl, h⟩, ?_⟩
    rintro ⟨digits, rfl | heq, h⟩
    · exact absurd h not_written_plus
    · obtain rfl := List.tail_eq_of_cons_eq heq
      exact h
  · rename_i hplus
    refine written_iff.trans ⟨fun h => ⟨text, Or.inl rfl, h⟩, ?_⟩
    rintro ⟨digits, rfl | rfl, h⟩
    · exact h
    · exact absurd rfl (hplus digits)

theorem toLower_of_isDigit {c : Char} (h : c.isDigit = true) : c.toLower = c := by
  have hle := (Char.isDigit_iff_toNat.mp h).2
  refine dif_neg fun hupper => ?_
  have hge : 'A'.toNat ≤ c.toNat := UInt32.le_iff_toNat_le.mp hupper.1
  exact absurd (Nat.le_trans hge hle) (by decide)

/-- What writes a count with digits is no word in letters. -/
theorem ne_of_written {text word : String} {digits : List Char} (h : text.toList = digits ∨ text.toList = '+' :: digits)
    (hwritten : Written digits n) (hword : ∃ c ∈ word.toList.head?, c ≠ '+' ∧ c.isDigit = false) :
    String.ofList (text.toList.map Char.toLower) ≠ word := by
  rintro rfl
  obtain ⟨c, hc, hplus, hdigit⟩ := hword
  rw [String.toList_ofList, List.head?_map] at hc
  obtain ⟨d, hd, rfl⟩ := Option.map_eq_some_iff.mp hc
  obtain ⟨more, hmore⟩ := List.head?_eq_some_iff.mp hd
  rcases h with htext | htext
  · have hmem := hwritten.2.1 d (htext.symm.trans hmore ▸ List.mem_cons_self)
    rw [toLower_of_isDigit hmem, hmem] at hdigit
    cases hdigit
  · obtain rfl := List.head_eq_of_cons_eq (htext.symm.trans hmore)
    exact hplus (by decide)

theorem letter_of_word : ∀ word ∈ ["true", "on", "yes", "false", "off", "no"],
    ∃ c ∈ word.toList.head?, c ≠ '+' ∧ c.isDigit = false := by
  intro word hword
  simp only [List.mem_cons, List.not_mem_nil, or_false] at hword
  rcases hword with rfl | rfl | rfl | rfl | rfl | rfl <;> exact ⟨_, rfl, by decide, by decide⟩

theorem countOfText?_eq_some : countOfText? text = some n ↔
    (String.ofList (text.toList.map Char.toLower) ∈ ["true", "on", "yes"] ∧ n = 1) ∨
    (String.ofList (text.toList.map Char.toLower) ∈ ["false", "off", "no"] ∧ n = 0) ∨
    ∃ digits, (text.toList = digits ∨ text.toList = '+' :: digits) ∧ Written digits n := by
  rw [countOfText?]
  constructor
  · intro h
    split at h
    · rename_i hyes
      exact Or.inl ⟨List.contains_iff_mem.mp hyes, (Option.some.inj h).symm⟩
    · split at h
      · rename_i hno
        exact Or.inr (Or.inl ⟨List.contains_iff_mem.mp hno, (Option.some.inj h).symm⟩)
      · exact Or.inr (Or.inr (countOfDigits?_eq_some.mp h))
  · rintro (⟨hyes, rfl⟩ | ⟨hno, rfl⟩ | ⟨digits, htext, hwritten⟩)
    · rw [if_pos (List.contains_iff_mem.mpr hyes)]
    · have hne : ["true", "on", "yes"].contains (String.ofList (text.toList.map Char.toLower)) = false := by
        generalize String.ofList (text.toList.map Char.toLower) = word at hno ⊢
        simp only [List.mem_cons, List.not_mem_nil, or_false] at hno
        rcases hno with rfl | rfl | rfl <;> decide
      rw [hne, if_neg Bool.false_ne_true, if_pos (List.contains_iff_mem.mpr hno)]
    · -- The first letter of each word tells it from digits.
      have hne : ∀ word ∈ ["true", "on", "yes", "false", "off", "no"],
          String.ofList (text.toList.map Char.toLower) ≠ word := fun word hword =>
        ne_of_written htext hwritten (letter_of_word word hword)
      rw [if_neg, if_neg]
      · exact countOfDigits?_eq_some.mpr ⟨digits, htext, hwritten⟩
      · exact fun h => hne _ (List.mem_append_right ["true", "on", "yes"] (List.contains_iff_mem.mp h)) rfl
      · exact fun h => hne _ (List.mem_append_left ["false", "off", "no"] (List.contains_iff_mem.mp h)) rfl

theorem toCount_eq_ok : setting.toCount = .ok n ↔ Counts setting n := by
  constructor
  · intro h
    cases setting with
    | integer value =>
      rw [toCount] at h
      split at h
      · rename_i hvalue
        obtain rfl := Except.ok.inj h
        rw [Bool.and_eq_true, decide_eq_true_eq, decide_eq_true_eq] at hvalue
        have hinteger := Counts.integer hvalue.2
        rwa [Int.toNat_of_nonneg hvalue.1] at hinteger
      · cases h
    | number value => exact Except.ok.inj h ▸ .number value
    | switch value =>
      obtain rfl := Except.ok.inj h
      cases value with
      | true => exact .switchedOn
      | false => exact .switchedOff
    | text value =>
      rw [toCount] at h
      split at h
      · rename_i m hm
        obtain rfl := Except.ok.inj h
        obtain ⟨hyes, rfl⟩ | ⟨hno, rfl⟩ | ⟨digits, htext, hwritten⟩ := countOfText?_eq_some.mp hm
        · exact .yes hyes
        · exact .no hno
        · exact .digits htext hwritten
      · cases h
    | unset | list | group => cases h
  · intro h
    cases h with
    | integer h => simp [toCount, h]
    | number | switchedOn | switchedOff => rfl
    | yes h => rw [toCount, countOfText?_eq_some.mpr (Or.inl ⟨h, rfl⟩)]
    | no h => rw [toCount, countOfText?_eq_some.mpr (Or.inr (Or.inl ⟨h, rfl⟩))]
    | digits htext hwritten => rw [toCount, countOfText?_eq_some.mpr (Or.inr (Or.inr ⟨_, htext, hwritten⟩))]

end
end Setting

/-! ### Parts of groups -/

namespace Settings
open Setting

section
variable {setting group : Setting} {name text : String} {place default n : Nat} {part : Option Setting}
  {found : Option String}

theorem part?_eq_ok : part? name place group = .ok part ↔ Part name place group part := by
  constructor
  · intro h
    cases group with
    | group entries => exact Except.ok.inj h ▸ .named entries
    | list items => exact Except.ok.inj h ▸ .placed items
    | _ => cases h
  · intro h
    cases h <;> rfl

theorem count_eq_ok : count name place default group = .ok n ↔
    ∃ part, Part name place group part ∧ CountsOr default part n := by
  simp only [count, bind_eq_ok_iff, part?_eq_ok]
  refine exists_congr fun part => and_congr_right fun _ => ?_
  cases part with
  | none =>
    constructor
    · intro h
      exact Except.ok.inj h ▸ .missing
    · rintro ⟨⟩
      rfl
  | some setting =>
    refine toCount_eq_ok.trans ⟨.given, ?_⟩
    rintro ⟨h⟩
    exact h

theorem text_eq_ok : Settings.text name place group = .ok text ↔
    ∃ setting, Part name place group (some setting) ∧ Texts setting text := by
  simp only [Settings.text, bind_eq_ok_iff, part?_eq_ok]
  constructor
  · rintro ⟨part, hpart, h⟩
    cases part with
    | none => cases h
    | some setting => exact ⟨setting, hpart, toText_eq_ok.mp h⟩
  · rintro ⟨setting, hpart, h⟩
    exact ⟨some setting, hpart, toText_eq_ok.mpr h⟩

theorem text?_eq_ok : text? name place group = .ok found ↔
    ∃ part, Part name place group part ∧ TextsOrNot part found := by
  simp only [text?, bind_eq_ok_iff, part?_eq_ok]
  refine exists_congr fun part => and_congr_right fun _ => ?_
  cases part with
  | none =>
    constructor
    · intro h
      exact Except.ok.inj h ▸ .missing
    · rintro ⟨⟩
      rfl
  | some setting =>
    have hgiven : (some <$> setting.toText : Except SettingsError (Option String)) = .ok found ↔
        ∃ text, Texts setting text ∧ some text = found := by
      simp only [← toText_eq_ok]
      cases setting.toText <;> simp [Functor.map, Except.map]
    have hor : TextsOrNot (some setting) found ↔
        (∃ text, Texts setting text ∧ some text = found) ∨ (setting = .unset ∧ found = none) := by
      constructor
      · rintro (h | _)
        · exact Or.inl ⟨_, h, rfl⟩
        · exact Or.inr ⟨rfl, rfl⟩
      · rintro (⟨text, h, rfl⟩ | ⟨rfl, rfl⟩)
        · exact .given h
        · exact .unset
    rw [hor]
    cases setting with
    | unset =>
      constructor
      · intro h
        exact Or.inr ⟨rfl, (Except.ok.inj h).symm⟩
      · rintro (⟨text, h, -⟩ | ⟨-, rfl⟩)
        · cases h
        · rfl
    | _ => exact hgiven.trans (or_iff_left fun h => nomatch h.1).symm

end

end Settings
end Highlight
