import Highlight.Json.Printer
import Highlight.Proofs.Json.Documents

/-! Writing JSON. What is written for a value is a text of the value, at every level, and so it is read as that value. -/

namespace Highlight

/-- The digits after the point are digits, if there is a point. -/
def JsonNumber.HasDigits (n : JsonNumber) : Prop := ∀ digits ∈ n.fraction, digits ≠ [] ∧ ∀ d ∈ digits, d < 10

namespace Json

/-! ### Numbers -/

theorem digits_toDigits (n : Nat) : Digits (Nat.toDigits 10 n) :=
  ⟨Nat.toDigits_ne_nil, fun _ hc => Nat.isDigit_of_mem_toDigits (by decide) (by decide) hc⟩

theorem head?_toDigits {n : Nat} (h : 0 < n) : (Nat.toDigits 10 n).head? ≠ some '0' := by
  induction n using Nat.strongRecOn with
  | ind n ih =>
    rw [Nat.toDigits_eq_if (by decide)]
    split
    case isTrue hlt =>
      have hsmall : ∀ d < 10, 0 < d → [Nat.digitChar d].head? ≠ some '0' := by decide
      exact hsmall n hlt h
    case isFalse hlt =>
      obtain ⟨c, digits, heq⟩ := List.exists_cons_of_ne_nil (Nat.toDigits_ne_nil (n := n / 10) (b := 10))
      have hfirst := ih (n / 10) (by omega) (by omega)
      rwa [heq] at hfirst ⊢

theorem wholeText_toDigits (n : Nat) : WholeText n (Nat.toDigits 10 n) := by
  refine ⟨digits_toDigits n, fun hzero => ?_, Nat.ofDigitChars_ten_toDigits.symm⟩
  cases n with
  | zero => rfl
  | succ n => exact absurd hzero (head?_toDigits n.succ_pos)

theorem fractionText_map_digitChar {digits : List Nat} (hne : digits ≠ []) (hdigits : ∀ d ∈ digits, d < 10) :
    FractionText (some digits) ('.' :: digits.map Nat.digitChar) := by
  have hten : ∀ d < 10, (Nat.digitChar d).isDigit = true ∧ (Nat.digitChar d).toNat - '0'.toNat = d := by decide
  have hback : (digits.map Nat.digitChar).map (·.toNat - '0'.toNat) = digits := by
    rw [List.map_map]
    exact (List.map_congr_left fun d hd => (hten d (hdigits d hd)).2).trans (List.map_id digits)
  have htext : Digits (digits.map Nat.digitChar) :=
    ⟨by simpa using hne, List.forall_mem_map.mpr fun d hd => (hten d (hdigits d hd)).1⟩
  have hpresent := FractionText.present htext
  rwa [hback] at hpresent

theorem exponentText_toDigits (negative : Bool) (e : Nat) :
    ExponentText (some (negative, e)) ('e' :: ((if negative then ['-'] else []) ++ Nat.toDigits 10 e)) := by
  have hsign : SignText negative (if negative then ['-'] else []) := by
    cases negative
    · exact .absent
    · exact .minus
  have hpresent := ExponentText.present (Or.inl rfl) hsign (digits_toDigits e)
  rwa [Nat.ofDigitChars_ten_toDigits] at hpresent

theorem numberText_writeNumber {n : JsonNumber} (h : n.HasDigits) : NumberText n (writeNumber n) := by
  obtain ⟨negative, whole, fraction, exponent⟩ := n
  rw [writeNumber, List.append_assoc, List.append_assoc]
  refine .mk (wholeText_toDigits whole) ?_ ?_
  · cases fraction with
    | none => exact .absent
    | some digits =>
      obtain ⟨hne, hdigits⟩ := h digits rfl
      exact fractionText_map_digitChar hne hdigits
  · cases exponent with
    | none => exact .absent
    | some power => exact exponentText_toDigits power.1 power.2

/-! ### Strings -/

theorem codeText_fourDigits {n : Nat} (h : n < 0x10000) : CodeText n (fourDigits n) := by
  have hdigit : ∀ k, HexDigit (k % 16) (Nat.digitChar (k % 16)) := fun k => ⟨Nat.mod_lt k (by decide), Or.inl rfl⟩
  have hcode := CodeText.mk (hdigit (n / 4096)) (hdigit (n / 256)) (hdigit (n / 16)) (hdigit n)
  have hn : 4096 * (n / 4096 % 16) + 256 * (n / 256 % 16) + 16 * (n / 16 % 16) + n % 16 = n := by omega
  rwa [hn] at hcode

theorem stringText_escapeChar (c : Char) {cs s : List Char} (hs : StringText cs s) :
    StringText (c :: cs) (escapeChar c ++ s) := by
  unfold escapeChar
  split
  case h_8 hquote hback _ _ _ _ _ =>
    split
    case isTrue hcontrol => exact .code (codeText_fourDigits (by omega)) hs
    case isFalse hprinted => exact .plain (Nat.le_of_not_lt hprinted) hquote hback hs
  all_goals exact .letter (by decide) hs

theorem quotedText_writeString (text : String) : QuotedText text (writeString text) := by
  refine ⟨text.toList.flatMap escapeChar, ?_, rfl⟩
  induction text.toList with
  | nil => exact .nil
  | cons c cs ih => exact stringText_escapeChar c ih

/-! ### Values -/

theorem blanks_nil : Blanks [] := List.forall_mem_nil _

theorem blanks_lineBreak (level : Nat) : Blanks (lineBreak level) := by
  simp [Blanks, lineBreak, List.mem_replicate]

/-- A value that can be written: the digits of its numbers are digits. -/
inductive Writable : Json → Prop
  | mk {v : Json} : (∀ n, v = .number n → n.HasDigits) → (∀ x ∈ v.parts, Writable x) → Writable v

section
variable {level : Nat} {front back : List Char}

theorem itemsText_write {item : Json} {items : List Json} (h : ∀ v ∈ item :: items, v.IsText (write level v))
    (hfront : Blanks front) (hback : Blanks back) :
    ItemsText (item :: items) (front ++ (write level item ++ (writeItems level items ++ back))) := by
  induction items generalizing item front with
  | nil =>
    have hitem := h item List.mem_cons_self
    exact Or.inl ⟨rfl, front, _, back, hfront, hitem, hback, rfl⟩
  | cons next items ih =>
    obtain ⟨hitem, hitems⟩ := List.forall_mem_cons.mp h
    exact Or.inr ⟨front ++ (write level item ++ []), _, ⟨front, _, [], hfront, hitem, blanks_nil, rfl⟩,
      ih hitems (blanks_lineBreak level), by simp [writeItems]⟩

theorem padded_writeString (key : String) (hfront : Blanks front) :
    Padded (QuotedText key) (front ++ (writeString key ++ [])) :=
  ⟨front, _, [], hfront, quotedText_writeString key, blanks_nil, rfl⟩

theorem membersText_write {key : String} {value : Json} {members : List (String × Json)}
    (h : ∀ m ∈ (key, value) :: members, m.2.IsText (write level m.2)) (hfront : Blanks front) (hback : Blanks back) :
    MembersText ((key, value) :: members)
      (front ++ (writeString key ++ (':' :: ' ' :: (write level value ++ (writeMembers level members ++ back))))) := by
  have hblank : Blanks [' '] := by simp [Blanks]
  induction members generalizing key value front with
  | nil =>
    have hvalue := h (key, value) List.mem_cons_self
    refine ⟨_, ' ' :: (write level value ++ back), padded_writeString key hfront, by simp [writeMembers], ?_⟩
    exact Or.inl ⟨rfl, [' '], _, back, hblank, hvalue, hback, rfl⟩
  | cons next members ih =>
    obtain ⟨hvalue, hmembers⟩ := List.forall_mem_cons.mp h
    refine ⟨_, ' ' :: (write level value ++ (writeMembers level (next :: members) ++ back)), padded_writeString key hfront,
      by simp, ?_⟩
    exact Or.inr ⟨[' '] ++ (write level value ++ []), _, ⟨[' '], _, [], hblank, hvalue, blanks_nil, rfl⟩,
      ih hmembers (blanks_lineBreak level), by simp [writeMembers]⟩

end

/-- What is written for a value is a text of it. -/
theorem Writable.isText_write {v : Json} (h : v.Writable) (level : Nat) : v.IsText (write level v) := by
  induction h generalizing level with
  | @mk v hnumber _ ih =>
    cases v with
    | null => exact rfl
    | bool value => cases value <;> exact rfl
    | number n => exact numberText_writeNumber (hnumber n rfl)
    | string text => exact quotedText_writeString text
    | array items =>
      cases items with
      | nil => exact ⟨[], Or.inl ⟨rfl, blanks_nil⟩, rfl⟩
      | cons item items =>
        have hitems := itemsText_write (fun x hx => ih x hx (level + 1)) (blanks_lineBreak (level + 1)) (blanks_lineBreak level)
        exact ⟨_, Or.inr hitems, by simp [write]⟩
    | object members =>
      cases members with
      | nil => exact ⟨[], Or.inl ⟨rfl, blanks_nil⟩, rfl⟩
      | cons m members =>
        have hvalues : ∀ m' ∈ m :: members, m'.2.IsText (write (level + 1) m'.2) := fun m' hm' =>
          ih m'.2 (List.mem_map_of_mem hm') (level + 1)
        have hmembers := membersText_write hvalues (blanks_lineBreak (level + 1)) (blanks_lineBreak level)
        exact ⟨_, Or.inr hmembers, by simp [write]⟩

/-- A document that is written is one of its value and of no other, and is read as that value. -/
theorem Writable.isDocument_render {v : Json} (h : v.Writable) (w : Json) :
    w.IsDocument v.render.toList ↔ w = v := by
  have hdocument : v.IsDocument v.render.toList := ⟨[], _, [], blanks_nil, h.isText_write 0, blanks_nil, by simp [render]⟩
  constructor
  · intro hw
    exact Option.some.inj ((read?_eq_some.mpr hw).symm.trans (read?_eq_some.mpr hdocument))
  · rintro rfl
    exact hdocument

end Json
end Highlight
