import Highlight.Tokenizer

/-! Offsets in a text, in characters and in bytes. A tokenizer counts characters while it works, and turns
    the offsets of its tokens into bytes at the end. What the text has at a span is the same either way,
    because the bytes of a character are never parted. -/

namespace Highlight

/-! ### Sizes of texts -/

/-- A way to count how much a text takes: what the parts take adds up, and each character takes something. -/
structure IsSize (size : List Char → Nat) : Prop where
  append : ∀ a b, size (a ++ b) = size a + size b
  pos : ∀ c, 0 < size [c]

theorem isSize_length : IsSize List.length := ⟨fun _ _ => List.length_append, fun _ => Nat.one_pos⟩

theorem byteLength_append (a b : List Char) : byteLength (a ++ b) = byteLength a + byteLength b := by
  induction a with
  | nil => simp [byteLength]
  | cons c a ih => simp only [List.cons_append, byteLength, ih, Nat.add_assoc]

theorem isSize_byteLength : IsSize byteLength :=
  ⟨byteLength_append, fun c => by simpa [byteLength] using c.utf8Size_pos⟩

theorem byteLength_toList (text : String) : byteLength text.toList = text.utf8ByteSize := by
  suffices h : ∀ cs : List Char, byteLength cs = (String.ofList cs).utf8ByteSize by
    rw [h, String.ofList_toList]
  intro cs
  induction cs with
  | nil => rfl
  | cons c cs ih =>
    rw [← List.singleton_append, String.ofList_append, String.utf8ByteSize_append, ← ih, byteLength_append]
    congr 1
    simp [byteLength]

theorem byteOffset_add (text : List Char) (m n : Nat) :
    byteOffset text (m + n) = byteOffset text m + byteOffset (text.drop m) n := by
  rw [byteOffset, byteOffset, byteOffset, List.take_add, byteLength_append]

namespace IsSize
variable {size : List Char → Nat} (hs : IsSize size)
include hs

theorem nil : size [] = 0 := by
  have h := hs.append [] []
  simp only [List.append_nil] at h
  omega

theorem pos_of_ne_nil {text : List Char} (h : text ≠ []) : 0 < size text := by
  obtain ⟨c, cs, rfl⟩ := List.exists_cons_of_ne_nil h
  have h1 := hs.append [c] cs
  have h2 := hs.pos c
  rw [List.singleton_append] at h1
  omega

theorem eq_nil {text : List Char} (h : size text = 0) : text = [] := by
  cases text with
  | nil => rfl
  | cons c cs =>
    have := hs.pos_of_ne_nil (List.cons_ne_nil c cs)
    omega

/-- Of a text, the part before an offset is determined by the offset. -/
theorem front_unique {a b a' b' : List Char} (h : a ++ b = a' ++ b') (hsize : size a = size a') :
    a = a' ∧ b = b' := by
  rcases List.append_eq_append_iff.mp h with ⟨x, rfl, rfl⟩ | ⟨x, rfl, rfl⟩ <;>
  · have hx : x = [] := hs.eq_nil (by rw [hs.append] at hsize; omega)
    subst hx
    simp

end IsSize

/-! ### What a text has at a span -/

/-- The text has `part` at a span, where `size` tells how the offsets count. The span is then in range and in
    order, and with `byteLength` for the size both its ends are boundaries of characters. -/
def HasAt (size : List Char → Nat) (text : List Char) (s : Span) (part : List Char) : Prop :=
  ∃ front back, text = front ++ (part ++ back) ∧ size front = s.start ∧ size (front ++ part) = s.stop

namespace HasAt
variable {size : List Char → Nat} {text part : List Char} {s : Span}

theorem stop_eq (hs : IsSize size) (h : HasAt size text s part) : s.stop = s.start + size part := by
  obtain ⟨front, back, -, h1, h2⟩ := h
  rw [← h2, hs.append, h1]

theorem stop_le (hs : IsSize size) (h : HasAt size text s part) : s.stop ≤ size text := by
  obtain ⟨front, back, rfl, -, h2⟩ := h
  rw [← List.append_assoc, hs.append]
  omega

theorem start_lt_stop (hs : IsSize size) (h : HasAt size text s part) (hne : part ≠ []) : s.start < s.stop := by
  have h1 := h.stop_eq hs
  have h2 := hs.pos_of_ne_nil hne
  omega

theorem ne_nil (hs : IsSize size) (h : HasAt size text s part) (hlt : s.start < s.stop) : part ≠ [] := by
  rintro rfl
  have h1 := h.stop_eq hs
  have h2 := hs.nil
  omega

theorem whole (hs : IsSize size) (text : List Char) : HasAt size text ⟨0, size text⟩ text :=
  ⟨[], [], by simp, hs.nil, by simp⟩

/-- Of two neighbouring parts the text has their join at the joined span. -/
theorem append (hs : IsSize size) {a b c : Nat} {first second : List Char} (h1 : HasAt size text ⟨a, b⟩ first)
    (h2 : HasAt size text ⟨b, c⟩ second) : HasAt size text ⟨a, c⟩ (first ++ second) := by
  obtain ⟨front, back, rfl, hf, hb⟩ := h1
  obtain ⟨front', back', heq, hf', hb'⟩ := h2
  rw [← List.append_assoc] at heq
  obtain ⟨rfl, rfl⟩ := hs.front_unique heq (by simp only at hb hf'; omega)
  exact ⟨front, back', by simp, hf, by simpa using hb'⟩

/-- A part of a part lies as much further on as the part that it is of. -/
theorem within {a b : Nat} {inner : List Char} (hs : IsSize size) (h : HasAt size text ⟨a, b⟩ part)
    (hin : HasAt size part s inner) : HasAt size text (s.map (· + a)) inner := by
  obtain ⟨front, back, rfl, hf, -⟩ := h
  obtain ⟨front', back', rfl, hf', hb'⟩ := hin
  refine ⟨front ++ front', back' ++ back, by simp, ?_, ?_⟩
  · rw [hs.append, hf, hf']
    exact Nat.add_comm a s.start
  · rw [List.append_assoc, hs.append, hf, hb']
    exact Nat.add_comm a s.stop

theorem bytes (h : HasAt List.length text s part) : HasAt byteLength text (s.map (byteOffset text)) part := by
  obtain ⟨front, back, rfl, hf, hb⟩ := h
  refine ⟨front, back, rfl, ?_, ?_⟩
  · simp [Span.map, byteOffset, ← hf]
  · rw [← List.append_assoc]
    simp only [Span.map, byteOffset, ← hb, List.take_left]

end HasAt

theorem drop_parts (front part back : List Char) :
    (front ++ (part ++ back)).drop (front.length + part.length) = back := by
  rw [← List.append_assoc, ← List.length_append, List.drop_left]

theorem slice_append (front part back : List Char) :
    slice (front ++ (part ++ back)) ⟨front.length, front.length + part.length⟩ = part := by
  simp [slice]

theorem slice_to_end (text : List Char) (n : Nat) : slice text ⟨n, text.length⟩ = text.drop n := by
  rw [slice, ← List.length_drop, List.take_length]

theorem HasAt.slice_eq {text part : List Char} {s : Span} (h : HasAt List.length text s part) : slice text s = part := by
  obtain ⟨front, back, rfl, hfront, hstop⟩ := h
  rw [List.length_append] at hstop
  have hs : (⟨front.length, front.length + part.length⟩ : Span) = s := by rw [hstop, hfront]
  rw [← hs, slice_append]

/-- A text has its slice at every span that lies in it. -/
theorem hasAt_slice {text : List Char} {s : Span} (h1 : s.start ≤ s.stop) (h2 : s.stop ≤ text.length) :
    HasAt List.length text s (slice text s) := by
  refine ⟨text.take s.start, text.drop s.stop, ?_, ?_, ?_⟩
  · have hdrop : text.drop s.stop = (text.drop s.start).drop (s.stop - s.start) := by
      rw [List.drop_drop, Nat.add_sub_cancel' h1]
    rw [slice, hdrop, List.take_append_drop, List.take_append_drop]
  · rw [List.length_take]
    omega
  · rw [List.length_append, slice, List.length_take, List.length_take, List.length_drop]
    omega

theorem hasAt_drop {text part : List Char} {n : Nat} (hn : n ≤ text.length) (h : text.drop n = part) :
    HasAt List.length text ⟨n, text.length⟩ part :=
  ⟨text.take n, [], by simp [← h], by simp [hn], by simp [← h]⟩

theorem hasAt_of_drop {text gap part back : List Char} {n : Nat} (hn : n ≤ text.length)
    (h : text.drop n = gap ++ (part ++ back)) :
    HasAt List.length text ⟨n + gap.length, n + gap.length + part.length⟩ part := by
  have hlen : (text.take n).length = n := List.length_take_of_le hn
  refine ⟨text.take n ++ gap, back, ?_, ?_, ?_⟩
  · rw [List.append_assoc, ← h, List.take_append_drop]
  · rw [List.length_append, hlen]
  · rw [List.length_append, List.length_append, hlen]

theorem drop_of_drop {text gap part back : List Char} {n : Nat} (hn : n ≤ text.length)
    (h : text.drop n = gap ++ (part ++ back)) :
    n + gap.length + part.length ≤ text.length ∧ text.drop (n + gap.length + part.length) = back := by
  refine ⟨(hasAt_of_drop hn h).stop_le isSize_length, ?_⟩
  rw [Nat.add_assoc, ← List.drop_drop, h, drop_parts]

/-! ### The table of byte offsets -/

theorem byteOffsets_getD (text : List Char) (start n : Nat) (h : n ≤ text.length) :
    (Tokenizer.byteOffsets start text).getD n 0 = start + byteOffset text n := by
  induction text generalizing start n with
  | nil =>
    obtain rfl : n = 0 := Nat.le_zero.mp h
    rfl
  | cons c text ih =>
    cases n with
    | zero => rfl
    | succ n =>
      simp only [Tokenizer.byteOffsets, List.getD_cons_succ]
      rw [ih _ _ (Nat.le_of_succ_le_succ h)]
      simp [byteOffset, byteLength, Nat.add_assoc]

theorem byteOffsets_toArray_getD (text : List Char) {n : Nat} (h : n ≤ text.length) :
    (Tokenizer.byteOffsets 0 text).toArray.getD n 0 = byteOffset text n := by
  have := byteOffsets_getD text 0 n h
  simpa using this

end Highlight
