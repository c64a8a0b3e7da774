import Highlight.Json.Reader
import Highlight.Proofs.Json.Syntax

/-! Reading numbers and strings of JSON. Each reader takes a text of what it reads from the front and leaves what follows
    (`…_sound`), and it takes every such text, provided that what follows does not go on with it (`…_complete`). -/

namespace Highlight.Json

section
variable {s text rest : List Char}

/-! ### Numbers -/

/-- What does not begin with a digit. -/
def NoDigit (rest : List Char) : Prop := ∀ c ∈ rest.head?, c.isDigit = false

/-- What does not go on with a number: it begins with no digit, point or letter of an exponent. -/
def Ends (rest : List Char) : Prop := NoDigit rest ∧ ∀ c ∈ rest.head?, c ≠ '.' ∧ c ≠ 'e' ∧ c ≠ 'E'

theorem readDigits_append (hs : ∀ c ∈ s, c.isDigit = true) (hrest : NoDigit rest) :
    readDigits (s ++ rest) = (s.map (·.toNat - '0'.toNat), rest) := by
  have htake : rest.takeWhile Char.isDigit = [] := by
    cases rest with
    | nil => rfl
    | cons c rest => rw [List.takeWhile_cons, hrest c rfl]; rfl
  have hdrop : rest.dropWhile Char.isDigit = rest := by
    cases rest with
    | nil => rfl
    | cons c rest => rw [List.dropWhile_cons, hrest c rfl]; rfl
  rw [readDigits, List.takeWhile_append_of_pos hs, List.dropWhile_append_of_pos hs, htake, hdrop, List.append_nil]

theorem readSomeDigits?_complete (hs : Digits s) (hrest : NoDigit rest) :
    readSomeDigits? (s ++ rest) = some (s.map (·.toNat - '0'.toNat), rest) := by
  rw [readSomeDigits?, readDigits_append hs.2 hrest]
  obtain ⟨c, s, rfl⟩ := List.exists_cons_of_ne_nil hs.1
  rfl

theorem readSomeDigits?_sound {digits : List Nat} (h : readSomeDigits? text = some (digits, rest)) :
    ∃ s, Digits s ∧ digits = s.map (·.toNat - '0'.toNat) ∧ text = s ++ rest := by
  rw [readSomeDigits?, readDigits] at h
  split at h
  · cases h
  · rename_i hne
    obtain ⟨rfl, rfl⟩ := Prod.mk.inj (Option.some.inj h)
    refine ⟨text.takeWhile Char.isDigit, ⟨fun hnil => ?_, ?_⟩, rfl, (List.takeWhile_append_dropWhile).symm⟩
    · exact hne _ (by rw [hnil]; rfl)
    · exact List.all_eq_true.mp List.all_takeWhile

/-- Digits stand for the same number as for the standard library. -/
theorem ofDigits_map (s : List Char) : ofDigits (s.map (·.toNat - '0'.toNat)) = Nat.ofDigitChars 10 s 0 := by
  rw [Nat.ofDigitChars_eq_foldl, ofDigits, List.foldl_map]

/-- Of several digits the first is no zero, seen from the values of the digits. -/
theorem noLeadingZero_iff (hs : Digits s) :
    (s.head? = some '0' → s = ['0']) ↔ ∀ d ds, s.map (·.toNat - '0'.toNat) ≠ 0 :: d :: ds := by
  rcases s with _ | ⟨c, _ | ⟨d, s⟩⟩
  · simp
  · simp
  · have hbounds := Char.isDigit_iff_toNat.mp (hs.2 c List.mem_cons_self)
    have hzero : c.toNat - '0'.toNat = 0 ↔ c = '0' := by
      rw [← Char.toNat_inj]
      omega
    simp only [List.map_cons, hzero, List.head?_cons, Option.some.injEq, List.cons.injEq, ne_eq]
    simp

theorem readWhole?_complete {n : Nat} (hs : WholeText n s) (hrest : NoDigit rest) :
    readWhole? (s ++ rest) = some (n, rest) := by
  obtain ⟨hdigits, hzero, rfl⟩ := hs
  rw [readWhole?, readSomeDigits?_complete hdigits hrest, ← ofDigits_map]
  split
  · rename_i heq
    cases heq
  · rename_i heq
    exact absurd (Prod.mk.inj (Option.some.inj heq)).1 ((noLeadingZero_iff hdigits).mp hzero _ _)
  · rename_i heq
    obtain ⟨rfl, rfl⟩ := Prod.mk.inj (Option.some.inj heq)
    rfl

theorem readWhole?_sound {n : Nat} (h : readWhole? text = some (n, rest)) : ∃ s, WholeText n s ∧ text = s ++ rest := by
  rw [readWhole?] at h
  split at h
  · cases h
  · cases h
  · rename_i digits _ hne hread
    obtain ⟨rfl, rfl⟩ := Prod.mk.inj (Option.some.inj h)
    obtain ⟨s, hs, rfl, rfl⟩ := readSomeDigits?_sound hread
    refine ⟨s, ⟨hs, (noLeadingZero_iff hs).mpr fun d ds heq => ?_, ofDigits_map s⟩, rfl⟩
    exact hne d ds heq

theorem readFraction?_complete {fraction : Option (List Nat)} (hs : FractionText fraction s) (hrest : NoDigit rest)
    (hpoint : '.' ∉ rest.head?) : readFraction? (s ++ rest) = some (fraction, rest) := by
  cases hs with
  | absent =>
    rw [List.nil_append, readFraction?]
    rintro tail rfl
    exact hpoint rfl
  | present hs => rw [List.cons_append, readFraction?, readSomeDigits?_complete hs hrest]; rfl

theorem readFraction?_sound {fraction : Option (List Nat)} (h : readFraction? text = some (fraction, rest)) :
    ∃ s, FractionText fraction s ∧ text = s ++ rest := by
  unfold readFraction? at h
  split at h
  · obtain ⟨⟨digits, _⟩, hread, heq⟩ := Option.map_eq_some_iff.mp h
    obtain ⟨rfl, rfl⟩ := Prod.mk.inj heq
    obtain ⟨s, hs, rfl, rfl⟩ := readSomeDigits?_sound hread
    exact ⟨'.' :: s, .present hs, rfl⟩
  · obtain ⟨rfl, rfl⟩ := Prod.mk.inj (Option.some.inj h)
    exact ⟨[], .absent, rfl⟩

theorem readPower?_complete {negative : Bool} {sign : List Char} (hsign : SignText negative sign) (hs : Digits s)
    (hrest : NoDigit rest) :
    readPower? (sign ++ (s ++ rest)) = some ((negative, Nat.ofDigitChars 10 s 0), rest) := by
  cases hsign with
  | absent =>
    obtain ⟨c, s, rfl⟩ := List.exists_cons_of_ne_nil hs.1
    have hc : c ≠ '+' ∧ c ≠ '-' := by
      constructor <;> (rintro rfl; exact absurd (hs.2 _ List.mem_cons_self) (by decide))
    rw [List.nil_append, List.cons_append, readPower?]
    · rw [← List.cons_append, readSomeDigits?_complete hs hrest, ← ofDigits_map]
      rfl
    · exact fun _ h => hc.1 (List.cons.inj h).1
    · exact fun _ h => hc.2 (List.cons.inj h).1
  | plus => rw [List.cons_append, List.nil_append, readPower?, readSomeDigits?_complete hs hrest, ← ofDigits_map]; rfl
  | minus => rw [List.cons_append, List.nil_append, readPower?, readSomeDigits?_complete hs hrest, ← ofDigits_map]; rfl

theorem readPower?_sound {power : Bool × Nat} (h : readPower? text = some (power, rest)) :
    ∃ sign s, SignText power.1 sign ∧ Digits s ∧ power.2 = Nat.ofDigitChars 10 s 0 ∧ text = sign ++ (s ++ rest) := by
  unfold readPower? at h
  split at h
  all_goals
    obtain ⟨⟨digits, _⟩, hread, heq⟩ := Option.map_eq_some_iff.mp h
    obtain ⟨rfl, rfl⟩ := Prod.mk.inj heq
    obtain ⟨s, hs, rfl, rfl⟩ := readSomeDigits?_sound hread
  · exact ⟨_, s, .plus, hs, ofDigits_map s, rfl⟩
  · exact ⟨_, s, .minus, hs, ofDigits_map s, rfl⟩
  · exact ⟨_, s, .absent, hs, ofDigits_map s, rfl⟩

theorem readExponent?_complete {exponent : Option (Bool × Nat)} (hs : ExponentText exponent s) (hrest : Ends rest) :
    readExponent? (s ++ rest) = some (exponent, rest) := by
  cases hs with
  | absent =>
    rw [List.nil_append, readExponent?]
    · rintro tail rfl
      exact (hrest.2 _ rfl).2.1 rfl
    · rintro tail rfl
      exact (hrest.2 _ rfl).2.2 rfl
  | present he hsign hs =>
    have hpower := readPower?_complete hsign hs hrest.1
    rcases he with rfl | rfl <;> rw [List.cons_append, List.append_assoc, readExponent?, hpower] <;> rfl

theorem readExponent?_sound {exponent : Option (Bool × Nat)} (h : readExponent? text = some (exponent, rest)) :
    ∃ s, ExponentText exponent s ∧ text = s ++ rest := by
  have hpower : ∀ {e : Char} {tail : List Char} {power : Bool × Nat}, e = 'e' ∨ e = 'E' →
      readPower? tail = some (power, rest) → ∃ s, ExponentText (some power) s ∧ e :: tail = s ++ rest := by
    intro e tail power he hread
    obtain ⟨negative, k⟩ := power
    obtain ⟨sign, s, hsign, hs, rfl, rfl⟩ := readPower?_sound hread
    exact ⟨_, .present he hsign hs, by simp⟩
  unfold readExponent? at h
  split at h
  · obtain ⟨⟨power, _⟩, hread, heq⟩ := Option.map_eq_some_iff.mp h
    obtain ⟨rfl, rfl⟩ := Prod.mk.inj heq
    exact hpower (Or.inl rfl) hread
  · obtain ⟨⟨power, _⟩, hread, heq⟩ := Option.map_eq_some_iff.mp h
    obtain ⟨rfl, rfl⟩ := Prod.mk.inj heq
    exact hpower (Or.inr rfl) hread
  · obtain ⟨rfl, rfl⟩ := Prod.mk.inj (Option.some.inj h)
    exact ⟨[], .absent, rfl⟩

theorem readSign_append {negative : Bool} (hs : Digits s) :
    readSign ((if negative then ['-'] else []) ++ (s ++ rest)) = (negative, s ++ rest) := by
  cases negative with
  | true => rfl
  | false =>
    obtain ⟨c, s, rfl⟩ := List.exists_cons_of_ne_nil hs.1
    rw [if_neg Bool.false_ne_true, List.nil_append, List.cons_append, readSign]
    rintro tail heq
    obtain rfl := (List.cons.inj heq).1
    exact absurd (hs.2 _ List.mem_cons_self) (by decide)

theorem readSign_eq (text : List Char) : text = (if (readSign text).1 then ['-'] else []) ++ (readSign text).2 := by
  unfold readSign
  split <;> rfl

/-- A number is read up to where it ends. -/
theorem readNumber?_complete {n : JsonNumber} (hs : NumberText n s) (hrest : Ends rest) :
    readNumber? (s ++ rest) = some (n, rest) := by
  obtain @⟨negative, n, fraction, exponent, whole, point, power, hwhole, hfraction, hexponent⟩ := hs
  -- What follows the digits before the point, and what follows those after it, goes on with a letter or not at all.
  have hpower : Ends rest → NoDigit (power ++ rest) ∧ '.' ∉ (power ++ rest).head? := by
    rintro ⟨hdigit, hpoint⟩
    cases hexponent with
    | absent => exact ⟨hdigit, fun hc => (hpoint _ hc).1 rfl⟩
    | present he =>
      refine ⟨?_, ?_⟩
      · rintro c ⟨⟩
        rcases he with rfl | rfl <;> rfl
      · rcases he with rfl | rfl <;> simp
  obtain ⟨hdigit, hpoint⟩ := hpower hrest
  have hdigit' : NoDigit (point ++ (power ++ rest)) := by
    cases hfraction with
    | absent => exact hdigit
    | present =>
      rintro c ⟨⟩
      rfl
  have hassoc : (if negative then ['-'] else []) ++ (whole ++ (point ++ power)) ++ rest =
      (if negative then ['-'] else []) ++ (whole ++ (point ++ (power ++ rest))) := by simp
  rw [hassoc, readNumber?, readSign_append hwhole.1]
  simp only [readWhole?_complete hwhole hdigit', readFraction?_complete hfraction hdigit hpoint,
    readExponent?_complete hexponent hrest, Option.bind_eq_bind, Option.bind_some, pure]

theorem readNumber?_sound {n : JsonNumber} (h : readNumber? text = some (n, rest)) :
    ∃ s, NumberText n s ∧ text = s ++ rest := by
  simp only [readNumber?, Option.bind_eq_bind, Option.bind_eq_some_iff, Prod.exists] at h
  obtain ⟨n, _, hn, fraction, _, hf, exponent, _, he, heq⟩ := h
  obtain ⟨rfl, rfl⟩ := Prod.mk.inj (Option.some.inj heq)
  obtain ⟨whole, hwhole, htext⟩ := readWhole?_sound hn
  obtain ⟨point, hfraction, rfl⟩ := readFraction?_sound hf
  obtain ⟨power, hexponent, rfl⟩ := readExponent?_sound he
  refine ⟨_, .mk hwhole hfraction hexponent, ?_⟩
  calc text
    _ = (if (readSign text).1 then ['-'] else []) ++ (readSign text).2 := readSign_eq text
    _ = _ := by rw [htext]; simp

/-! ### Strings -/

theorem toNat_lt_of_hexDigit? {c : Char} {n : Nat} (h : hexDigit? c = some n) : c.toNat < 128 := by
  have hle : ∀ d : Char, d.toNat < 128 → c ≤ d → c.toNat < 128 := fun d hd hcd => Nat.lt_of_le_of_lt hcd hd
  unfold hexDigit? at h
  split at h
  · rename_i hc
    exact hle '9' (by decide) (Char.isDigit_iff_toNat.mp hc).2
  · split at h
    · rename_i hc
      exact hle 'f' (by decide) (of_decide_eq_true (Bool.and_eq_true_iff.mp hc).2)
    · split at h
      · rename_i hc
        exact hle 'F' (by decide) (of_decide_eq_true (Bool.and_eq_true_iff.mp hc).2)
      · cases h

theorem hexDigit?_eq_some {c : Char} {n : Nat} : hexDigit? c = some n ↔ HexDigit n c := by
  constructor
  · intro h
    have hascii : ∀ k < 128, ∀ n ∈ hexDigit? (Char.ofNat k), n < 16 ∧
        (Char.ofNat k = n.digitChar ∨ Char.ofNat k = n.digitChar.toUpper) := by decide +kernel
    have hc := hascii c.toNat (toNat_lt_of_hexDigit? h) n
    rw [Char.ofNat_toNat] at hc
    exact hc h
  · rintro ⟨hn, hc⟩
    have hdigits : ∀ n < 16, hexDigit? n.digitChar = some n ∧ hexDigit? n.digitChar.toUpper = some n := by decide
    rcases hc with rfl | rfl
    · exact (hdigits n hn).1
    · exact (hdigits n hn).2

theorem fourDigits?_eq_some {a b c d : Char} {code : Nat} :
    fourDigits? a b c d = some code ↔ CodeText code [a, b, c, d] := by
  simp only [fourDigits?, Option.bind_eq_bind, Option.bind_eq_some_iff, hexDigit?_eq_some]
  constructor
  · rintro ⟨i, ha, j, hb, k, hc, l, hd, heq⟩
    exact Option.some.inj heq ▸ .mk ha hb hc hd
  · rintro ⟨ha, hb, hc, hd⟩
    exact ⟨_, ha, _, hb, _, hc, _, hd, rfl⟩

theorem CodeText.lt {code : Nat} (h : CodeText code s) : code < 0x10000 := by
  obtain ⟨⟨hi, -⟩, ⟨hj, -⟩, ⟨hk, -⟩, ⟨hl, -⟩⟩ := h
  omega

/-- A code is of four digits, which are read as the code. -/
theorem CodeText.fourDigits? {code : Nat} (h : CodeText code s) :
    ∃ a b c d, s = [a, b, c, d] ∧ fourDigits? a b c d = some code := by
  cases h with
  | mk ha hb hc hd => exact ⟨_, _, _, _, rfl, fourDigits?_eq_some.mpr (.mk ha hb hc hd)⟩

theorem toNat_bounds (c : Char) : c.toNat < 0xD800 ∨ 0xDFFF < c.toNat ∧ c.toNat < 0x110000 := c.valid

theorem toNat_ofNat {code : Nat} (h : code < 0xD800 ∨ 0xDFFF < code ∧ code < 0x110000) : (Char.ofNat code).toNat = code := by
  unfold Char.ofNat
  rw [dif_pos h]
  rfl

/-- Codes of four digits are those of characters, surrogates apart. -/
theorem ofCode?_eq_some {code : Nat} (hcode : code < 0x10000) {c : Char} : ofCode? code = some c ↔ c.toNat = code := by
  unfold ofCode?
  constructor
  · intro h
    split at h
    · cases h
    · rename_i hne
      simp only [Bool.and_eq_true, decide_eq_true_eq, not_and, Nat.not_lt] at hne
      obtain rfl := Option.some.inj h
      exact toNat_ofNat (by omega)
  · rintro rfl
    have hbounds := toNat_bounds c
    rw [if_neg, Char.ofNat_toNat]
    simp only [Bool.and_eq_true, decide_eq_true_eq, not_and, Nat.not_lt]
    omega

theorem ofSurrogates?_eq_some {high low : Nat} {c : Char} : ofSurrogates? high low = some c ↔
    0x10000 ≤ c.toNat ∧ high = 0xD800 + (c.toNat - 0x10000) / 0x400 ∧ low = 0xDC00 + (c.toNat - 0x10000) % 0x400 := by
  unfold ofSurrogates?
  constructor
  · intro h
    split at h
    · rename_i hrange
      simp only [Bool.and_eq_true, decide_eq_true_eq] at hrange
      obtain rfl := Option.some.inj h
      rw [toNat_ofNat (by omega)]
      omega
    · cases h
  · rintro ⟨hc, hhigh, hlow⟩
    have hbounds := toNat_bounds c
    have hcode : 0x10000 + 0x400 * (high - 0xD800) + (low - 0xDC00) = c.toNat := by omega
    rw [if_pos]
    · exact congrArg some ((congrArg Char.ofNat hcode).trans (Char.ofNat_toNat c))
    · simp only [Bool.and_eq_true, decide_eq_true_eq]
      omega

theorem ofEscape?_eq_some {letter c : Char} : ofEscape? letter = some c ↔ (letter, c) ∈ escapes := by
  unfold ofEscape?
  constructor
  · intro h
    split at h <;> simp_all [escapes, eq_comm]
  · intro h
    simp only [escapes, List.mem_cons, Prod.mk.injEq, List.not_mem_nil, or_false] at h
    rcases h with ⟨rfl, rfl⟩ | ⟨rfl, rfl⟩ | ⟨rfl, rfl⟩ | ⟨rfl, rfl⟩ | ⟨rfl, rfl⟩ | ⟨rfl, rfl⟩ | ⟨rfl, rfl⟩ | ⟨rfl, rfl⟩ <;> rfl

theorem map_consRead {c : Char} {cs : List Char} {read : Option (List Char × List Char)} :
    read.map (consRead c) = some (cs, rest) ↔ ∃ cs', read = some (cs', rest) ∧ c :: cs' = cs := by
  rcases read with _ | ⟨cs', rest'⟩
  · simp
  · simp only [Option.map_some, consRead, Option.some.injEq, Prod.mk.injEq]
    constructor
    · rintro ⟨rfl, rfl⟩
      exact ⟨cs', ⟨rfl, rfl⟩, rfl⟩
    · rintro ⟨_, ⟨rfl, rfl⟩, rfl⟩
      exact ⟨rfl, rfl⟩

/-- A string is read up to the quote that closes it. -/
theorem readString?_sound {cs : List Char} (h : readString? text = some (cs, rest)) :
    ∃ s, StringText cs s ∧ text = s ++ '"' :: rest := by
  fun_induction readString? text generalizing cs with
  | case1 =>
    obtain ⟨rfl, rfl⟩ := Prod.mk.inj (Option.some.inj h)
    exact ⟨[], .nil, rfl⟩
  | case2 a b c d _ char hcode ih =>
    obtain ⟨code, hfour, hchar⟩ := Option.bind_eq_some_iff.mp hcode
    have htext := fourDigits?_eq_some.mp hfour
    obtain ⟨cs', hread, rfl⟩ := map_consRead.mp h
    obtain ⟨s, hs, rfl⟩ := ih hread
    exact ⟨_, .code ((ofCode?_eq_some htext.lt).mp hchar ▸ htext) hs, rfl⟩
  | case3 a b c d _ e f g i _ ih =>
    simp only [Option.bind_eq_bind, Option.bind_eq_some_iff] at h
    obtain ⟨high, hhigh, low, hlow, char, hchar, _, hread, heq⟩ := h
    obtain ⟨rfl, rfl⟩ := Prod.mk.inj (Option.some.inj heq)
    obtain ⟨s, hs, rfl⟩ := ih hread
    obtain ⟨hc, hhigh', hlow'⟩ := ofSurrogates?_eq_some.mp hchar
    rw [hhigh'] at hhigh
    rw [hlow'] at hlow
    exact ⟨_, .pair hc (fourDigits?_eq_some.mp hhigh) (fourDigits?_eq_some.mp hlow) hs, rfl⟩
  | case4 => cases h
  | case5 letter _ _ ih =>
    simp only [Option.bind_eq_bind, Option.bind_eq_some_iff] at h
    obtain ⟨char, hchar, _, hread, heq⟩ := h
    obtain ⟨rfl, rfl⟩ := Prod.mk.inj (Option.some.inj heq)
    obtain ⟨s, hs, rfl⟩ := ih hread
    exact ⟨_, .letter (ofEscape?_eq_some.mp hchar) hs, rfl⟩
  | case6 => cases h
  | case7 c _ hquote _ _ hplain ih =>
    obtain ⟨cs', hread, rfl⟩ := map_consRead.mp h
    obtain ⟨s, hs, rfl⟩ := ih hread
    simp only [Bool.or_eq_true, decide_eq_true_eq, beq_iff_eq, not_or, Nat.not_lt] at hplain
    exact ⟨_, .plain hplain.1 hquote hplain.2 hs, rfl⟩
  | case8 => cases h

theorem readString?_code {a b c d char : Char} (h : (fourDigits? a b c d).bind ofCode? = some char) :
    readString? ('\\' :: 'u' :: a :: b :: c :: d :: rest) = (readString? rest).map (consRead char) := by
  rw [readString?.eq_def]
  simp only [h]

theorem readString?_pair {a b c d e f g i char : Char} {high low : Nat} (hhigh : fourDigits? a b c d = some high)
    (hlow : fourDigits? e f g i = some low) (hnone : ofCode? high = none) (hchar : ofSurrogates? high low = some char) :
    readString? ('\\' :: 'u' :: a :: b :: c :: d :: '\\' :: 'u' :: e :: f :: g :: i :: rest) =
      (readString? rest).map (consRead char) := by
  rw [readString?, hhigh, hlow, Option.bind_some, hnone]
  simp only [Option.bind_eq_bind, Option.bind_some, hchar]
  cases readString? rest <;> rfl

theorem readString?_complete {cs : List Char} (hs : StringText cs s) :
    readString? (s ++ '"' :: rest) = some (cs, rest) := by
  induction hs with
  | nil => rfl
  | @plain c cs s hc hquote hback _ ih =>
    have hplain : ¬(c.toNat < 0x20 || c == '\\') := by simp [hc, hback]
    rw [List.cons_append, readString?, if_neg hplain, ih]
    · rfl
    · exact hquote
    · exact fun _ _ _ _ _ h => absurd h hback
    · exact fun _ _ h => absurd h hback
  | @letter letter c cs s hletter _ ih =>
    have hu : letter ≠ 'u' := by
      rintro rfl
      simp [escapes] at hletter
    rw [List.cons_append, List.cons_append, readString?, ofEscape?_eq_some.mpr hletter, ih]
    · rfl
    · exact fun _ _ _ _ _ h => absurd h hu
  | @code c cs code s hcode _ ih =>
    obtain ⟨i, j, k, l, rfl, hfour⟩ := hcode.fourDigits?
    have hchar : (fourDigits? i j k l).bind ofCode? = some c := by
      rw [hfour]
      exact (ofCode?_eq_some hcode.lt).mpr rfl
    exact (readString?_code hchar).trans (congrArg _ ih)
  | @pair c cs high low s hc hhigh hlow _ ih =>
    have hnone : ofCode? (0xD800 + (c.toNat - 0x10000) / 0x400) = none := by
      have hbounds := toNat_bounds c
      rw [ofCode?, if_pos]
      simp only [Bool.and_eq_true, decide_eq_true_eq]
      omega
    obtain ⟨i, j, k, l, rfl, hfour⟩ := hhigh.fourDigits?
    obtain ⟨i', j', k', l', rfl, hfour'⟩ := hlow.fourDigits?
    exact (readString?_pair hfour hfour' hnone (ofSurrogates?_eq_some.mpr ⟨hc, rfl, rfl⟩)).trans (congrArg _ ih)

end
end Highlight.Json
