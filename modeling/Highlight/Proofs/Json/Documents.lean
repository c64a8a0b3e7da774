import Highlight.Proofs.Json.Scalars

/-! Reading documents of JSON. What is read is just what the syntax has (`read?_eq_some`): a text is read if it is one of
    a value, and as that value, so that no text is one of two values. -/

namespace Highlight.Json

section
variable {b s text rest : List Char} {fuel : Nat} {v : Json}

/-! ### Blanks -/

theorem isBlank_iff {c : Char} : isBlank c = true ↔ c = ' ' ∨ c = '\t' ∨ c = '\n' ∨ c = '\r' := by
  simp [isBlank, or_assoc]

theorem skipBlanks_append (hb : Blanks b) (text : List Char) : skipBlanks (b ++ text) = skipBlanks text :=
  List.dropWhile_append_of_pos fun c hc => isBlank_iff.mpr (hb c hc)

theorem skipBlanks_cons {c : Char} (hc : isBlank c = false) (text : List Char) : skipBlanks (c :: text) = c :: text := by
  rw [skipBlanks, List.dropWhile_cons, hc]
  rfl

theorem exists_blanks (text : List Char) : ∃ b, Blanks b ∧ text = b ++ skipBlanks text :=
  ⟨text.takeWhile isBlank, fun c hc => isBlank_iff.mp (List.all_eq_true.mp List.all_takeWhile c hc),
    List.takeWhile_append_dropWhile.symm⟩

theorem skipBlanks_skipBlanks (text : List Char) : skipBlanks (skipBlanks text) = skipBlanks text := by
  obtain ⟨b, hb, htext⟩ := exists_blanks text
  calc skipBlanks (skipBlanks text)
    _ = skipBlanks (b ++ skipBlanks text) := (skipBlanks_append hb _).symm
    _ = skipBlanks text := congrArg skipBlanks htext.symm

/-- The characters that may follow a value of an array or object. -/
def Closes (c : Char) : Prop := c = ',' ∨ c = ']' ∨ c = '\x7d'

theorem skipBlanks_closes {c : Char} (hc : Closes c) (text : List Char) : skipBlanks (c :: text) = c :: text := by
  rcases hc with rfl | rfl | rfl <;> exact skipBlanks_cons rfl text

/-- No number goes on with what may follow a value. -/
theorem ends_cons {c : Char} (hc : isBlank c = true ∨ Closes c) : Ends (c :: rest) := by
  have hhead : c.isDigit = false ∧ c ≠ '.' ∧ c ≠ 'e' ∧ c ≠ 'E' := by
    rw [isBlank_iff] at hc
    rcases hc with (rfl | rfl | rfl | rfl) | rfl | rfl | rfl <;> decide
  exact ⟨by rintro _ ⟨⟩; exact hhead.1, by rintro _ ⟨⟩; exact hhead.2⟩

theorem ends_nil : Ends [] :=
  ⟨fun _ h => absurd h (Option.not_mem_none _), fun _ h => absurd h (Option.not_mem_none _)⟩

theorem ends_blanks (hb : Blanks b) (hrest : Ends rest) : Ends (b ++ rest) := by
  cases b with
  | nil => exact hrest
  | cons c b => exact ends_cons (Or.inl (isBlank_iff.mpr (hb c List.mem_cons_self)))

/-! ### Values -/

section
attribute [local simp] readValue? readItems? readMembers? readKey?

theorem readValue?_skipBlanks : readValue? fuel (skipBlanks text) = readValue? fuel text := by
  cases fuel with
  | zero => rfl
  | succ fuel => simp [skipBlanks_skipBlanks]

theorem readItems?_skipBlanks : readItems? fuel (skipBlanks text) = readItems? fuel text := by
  cases fuel with
  | zero => rfl
  | succ fuel => simp [readValue?_skipBlanks]

theorem readMembers?_skipBlanks : readMembers? fuel (skipBlanks text) = readMembers? fuel text := by
  cases fuel with
  | zero => rfl
  | succ fuel => simp [skipBlanks_skipBlanks]

/-- No item begins with the bracket that closes an array. -/
theorem readItems?_close (h : skipBlanks text = ']' :: rest) : readItems? fuel text = none := by
  rcases fuel with _ | _ | fuel
  · rfl
  · rfl
  · rw [readItems?, readValue?, h]
    rfl

theorem readMembers?_close (h : skipBlanks text = '\x7d' :: rest) : readMembers? fuel text = none := by
  cases fuel with
  | zero => rfl
  | succ fuel => simp [h]

end

theorem readValue?_number {c : Char} (hc : c = '-' ∨ c.isDigit = true) (h : skipBlanks text = c :: rest) :
    readValue? (fuel + 1) text = (readNumber? (c :: rest)).map fun (n, rest) => (.number n, rest) := by
  rw [readValue?, h]
  split
  case h_7 => rfl
  all_goals
    rename_i heq
    obtain rfl := (List.cons.inj heq).1
    exact absurd hc (by decide)

theorem readKey?_complete {key : String} (hs : Padded (QuotedText key) s) (rest : List Char) :
    ∃ tail, readKey? (s ++ rest) = some (key, tail) ∧ skipBlanks tail = skipBlanks rest := by
  obtain ⟨front, _, back, hfront, ⟨body, hbody, rfl⟩, hback, rfl⟩ := hs
  refine ⟨back ++ rest, ?_, skipBlanks_append hback rest⟩
  have hassoc : front ++ ('"' :: (body ++ ['"']) ++ back) ++ rest = front ++ '"' :: (body ++ '"' :: (back ++ rest)) := by
    simp
  rw [hassoc, readKey?, skipBlanks_append hfront, skipBlanks_cons (by decide)]
  simp only [readString?_complete hbody, Option.map_some, String.ofList_toList]

theorem readKey?_sound {key : String} (h : readKey? text = some (key, rest)) :
    ∃ b s, Blanks b ∧ QuotedText key s ∧ text = b ++ (s ++ rest) := by
  obtain ⟨b, hb, htext⟩ := exists_blanks text
  rw [readKey?] at h
  split at h
  · rename_i tail hskip
    obtain ⟨⟨cs, _⟩, hread, heq⟩ := Option.map_eq_some_iff.mp h
    obtain ⟨rfl, rfl⟩ := Prod.mk.inj heq
    obtain ⟨body, hbody, rfl⟩ := readString?_sound hread
    refine ⟨b, _, hb, ⟨body, String.toList_ofList.symm ▸ hbody, rfl⟩, ?_⟩
    rw [htext, hskip]
    simp
  · cases h

theorem readColon?_sound (h : readColon? text = some rest) : ∃ b, Blanks b ∧ text = b ++ ':' :: rest := by
  obtain ⟨b, hb, htext⟩ := exists_blanks text
  rw [readColon?] at h
  split at h
  · rename_i tail hskip
    obtain rfl := Option.some.inj h
    exact ⟨b, hb, hskip ▸ htext⟩
  · cases h

/-- Enough fuel reads the value whatever blanks stand before it. -/
def Reads (v : Json) : Prop :=
  ∀ s, v.IsText s → ∀ fuel b rest, 2 * s.length ≤ fuel → Blanks b → Ends rest →
    readValue? fuel (b ++ (s ++ rest)) = some (v, rest)

theorem Reads.padded (hv : Reads v) (hs : Padded v.IsText s) (hfuel : 2 * s.length ≤ fuel) {c : Char} (hc : Closes c) :
    ∃ tail, readValue? fuel (s ++ c :: rest) = some (v, tail) ∧ skipBlanks tail = c :: rest := by
  obtain ⟨front, body, back, hfront, hbody, hback, rfl⟩ := hs
  refine ⟨back ++ c :: rest, ?_, (skipBlanks_append hback _).trans (skipBlanks_closes hc rest)⟩
  simp only [List.length_append] at hfuel
  have hassoc : front ++ (body ++ back) ++ c :: rest = front ++ (body ++ (back ++ c :: rest)) := by simp
  exact hassoc ▸ hv body hbody fuel front _ (by omega) hfront (ends_blanks hback (ends_cons (Or.inr hc)))

theorem readItems?_complete {items : List Json} (hitems : ∀ v ∈ items, Reads v) (hs : ItemsText items s)
    (hfuel : 2 * s.length < fuel) : readItems? fuel (s ++ ']' :: rest) = some (items, rest) := by
  induction items generalizing s fuel with
  | nil => exact absurd hs id
  | cons v items ih =>
    obtain ⟨hv, hitems⟩ := List.forall_mem_cons.mp hitems
    obtain ⟨fuel, rfl⟩ := Nat.exists_eq_succ_of_ne_zero (Nat.ne_of_gt (Nat.zero_lt_of_lt hfuel))
    rw [readItems?]
    rcases hs with ⟨rfl, hlast⟩ | ⟨first, more, hfirst, hmore, rfl⟩
    · obtain ⟨tail, hread, htail⟩ := hv.padded hlast (by omega : _ ≤ fuel) (Or.inr (Or.inl rfl))
      rw [hread]
      simp only [Option.bind_eq_bind, Option.bind_some, htail]
      rfl
    · simp only [List.length_append, List.length_cons] at hfuel
      obtain ⟨tail, hread, htail⟩ := hv.padded hfirst (by omega : _ ≤ fuel) (Or.inl rfl)
      have hmore := ih hitems hmore (by omega : _ < fuel)
      rw [List.append_assoc, List.cons_append, hread]
      simp only [Option.bind_eq_bind, Option.bind_some, htail, hmore]
      rfl

theorem readMembers?_complete {members : List (String × Json)} (hmembers : ∀ m ∈ members, Reads m.2)
    (hs : MembersText members s) (hfuel : 2 * s.length < fuel) :
    readMembers? fuel (s ++ '\x7d' :: rest) = some (members, rest) := by
  induction members generalizing s fuel with
  | nil => exact absurd hs id
  | cons m members ih =>
    obtain ⟨key, v⟩ := m
    obtain ⟨hv, hmembers⟩ := List.forall_mem_cons.mp hmembers
    obtain ⟨fuel, rfl⟩ := Nat.exists_eq_succ_of_ne_zero (Nat.ne_of_gt (Nat.zero_lt_of_lt hfuel))
    obtain ⟨quoted, s, hkey, rfl, hs⟩ := hs
    simp only [List.length_append, List.length_cons] at hfuel
    obtain ⟨colon, hreadkey, hcolon⟩ := readKey?_complete hkey (':' :: (s ++ '\x7d' :: rest))
    rw [List.append_assoc, List.cons_append, readMembers?, hreadkey]
    simp only [Option.bind_eq_bind, Option.bind_some, readColon?, hcolon, skipBlanks_cons (c := ':') rfl]
    rcases hs with ⟨rfl, hlast⟩ | ⟨first, more, hfirst, hmore, rfl⟩
    · obtain ⟨tail, hread, htail⟩ := hv.padded hlast (by omega : _ ≤ fuel) (Or.inr (Or.inr rfl))
      rw [hread]
      simp only [Option.bind_some, htail]
      rfl
    · simp only [List.length_append, List.length_cons] at hfuel
      obtain ⟨tail, hread, htail⟩ := hv.padded hfirst (by omega : _ ≤ fuel) (Or.inl rfl)
      have hmore := ih hmembers hmore (by omega : _ < fuel)
      rw [List.append_assoc, List.cons_append, hread]
      simp only [Option.bind_some, htail, hmore]
      rfl

theorem NumberText.head {n : JsonNumber} (hs : NumberText n s) : ∃ c tail, s = c :: tail ∧ (c = '-' ∨ c.isDigit = true) := by
  obtain @⟨negative, _, _, _, whole, _, _, ⟨⟨hne, hdigits⟩, -⟩, -, -⟩ := hs
  obtain ⟨c, whole, rfl⟩ := List.exists_cons_of_ne_nil hne
  cases negative with
  | true => exact ⟨_, _, rfl, Or.inl rfl⟩
  | false => exact ⟨_, _, rfl, Or.inr (hdigits c List.mem_cons_self)⟩

theorem isBlank_eq_false {c : Char} (hc : c = '-' ∨ c.isDigit = true) : isBlank c = false := by
  rw [← Bool.not_eq_true, isBlank_iff]
  rintro (rfl | rfl | rfl | rfl) <;> exact absurd hc (by decide)

theorem reads_number (n : JsonNumber) : Reads (number n) := by
  intro s hs fuel b rest hfuel hb hrest
  obtain ⟨c, tail, rfl, hc⟩ := hs.head
  obtain ⟨fuel, rfl⟩ := Nat.exists_eq_add_one.mpr (by simp only [List.length_cons] at hfuel; omega : 0 < fuel)
  have hskip : skipBlanks (b ++ (c :: tail ++ rest)) = c :: (tail ++ rest) :=
    (skipBlanks_append hb _).trans (skipBlanks_cons (isBlank_eq_false hc) _)
  rw [readValue?_number hc hskip]
  exact congrArg (Option.map _) (readNumber?_complete hs hrest)

theorem reads_string (x : String) : Reads (string x) := by
  rintro _ ⟨body, hbody, rfl⟩ fuel b rest hfuel hb -
  obtain ⟨fuel, rfl⟩ := Nat.exists_eq_add_one.mpr (by simp only [List.length_cons] at hfuel; omega : 0 < fuel)
  rw [readValue?, skipBlanks_append hb, List.cons_append, skipBlanks_cons rfl, List.append_assoc]
  simp only [List.cons_append, List.nil_append, readString?_complete hbody, Option.map_some, String.ofList_toList]

theorem reads_array {items : List Json} (h : ∀ v ∈ items, Reads v) : Reads (array items) := by
  rintro _ ⟨body, hbody, rfl⟩ fuel b rest hfuel hb -
  simp only [List.length_cons, List.length_append] at hfuel
  obtain ⟨fuel, rfl⟩ := Nat.exists_eq_add_one.mpr (by omega : 0 < fuel)
  rw [readValue?, skipBlanks_append hb, List.cons_append, skipBlanks_cons rfl, List.append_assoc]
  simp only [List.cons_append, List.nil_append]
  rcases hbody with ⟨rfl, hblanks⟩ | hitems
  · rw [skipBlanks_append hblanks, skipBlanks_closes (Or.inr (Or.inl rfl))]
    rfl
  · have hread : readItems? fuel (body ++ ']' :: rest) = _ := readItems?_complete h hitems (by omega)
    split
    · rename_i hclose
      cases hread.symm.trans (readItems?_close hclose)
    · rw [readItems?_skipBlanks, hread]
      rfl

theorem reads_object {members : List (String × Json)} (h : ∀ m ∈ members, Reads m.2) : Reads (object members) := by
  rintro _ ⟨body, hbody, rfl⟩ fuel b rest hfuel hb -
  simp only [List.length_cons, List.length_append] at hfuel
  obtain ⟨fuel, rfl⟩ := Nat.exists_eq_add_one.mpr (by omega : 0 < fuel)
  rw [readValue?, skipBlanks_append hb, List.cons_append, skipBlanks_cons rfl, List.append_assoc]
  simp only [List.cons_append, List.nil_append]
  rcases hbody with ⟨rfl, hblanks⟩ | hmembers
  · rw [skipBlanks_append hblanks, skipBlanks_closes (Or.inr (Or.inr rfl))]
    rfl
  · have hread : readMembers? fuel (body ++ '\x7d' :: rest) = _ := readMembers?_complete h hmembers (by omega)
    split
    · rename_i hclose
      cases hread.symm.trans (readMembers?_close hclose)
    · rw [readMembers?_skipBlanks, hread]
      rfl

/-- Every text of a value is read as the value. -/
theorem reads (v : Json) : Reads v := by
  refine byParts (fun v ih => ?_) v
  cases v with
  | null =>
    rintro _ rfl fuel b rest hfuel hb -
    obtain ⟨fuel, rfl⟩ := Nat.exists_eq_add_one.mpr (Nat.lt_of_lt_of_le (by decide) hfuel)
    rw [readValue?, skipBlanks_append hb]
    rfl
  | bool x =>
    rintro _ rfl fuel b rest hfuel hb -
    cases x
    all_goals
      obtain ⟨fuel, rfl⟩ := Nat.exists_eq_add_one.mpr (Nat.lt_of_lt_of_le (by decide) hfuel)
      rw [readValue?, skipBlanks_append hb]
      rfl
  | number n => exact reads_number n
  | string x => exact reads_string x
  | array items => exact reads_array ih
  | object members => exact reads_object (List.forall_mem_map.mp ih)

mutual
/-- Only texts of a value are read as the value. -/
theorem readValue?_sound : ∀ {fuel : Nat} {text rest : List Char} {v : Json}, readValue? fuel text = some (v, rest) →
    ∃ b s, Blanks b ∧ v.IsText s ∧ text = b ++ (s ++ rest)
  | 0, _, _, _, h => by cases h
  | fuel + 1, text, rest, v, h => by
    obtain ⟨b, hb, htext⟩ := exists_blanks text
    suffices hs : ∃ s, v.IsText s ∧ skipBlanks text = s ++ rest by
      obtain ⟨s, hs, heq⟩ := hs
      exact ⟨b, s, hb, hs, heq ▸ htext⟩
    rw [readValue?] at h
    -- In the order of the reader: null, the booleans, a string, an array, an object, and what is left for a number.
    split at h
    case h_1 heq | h_2 heq | h_3 heq =>
      obtain ⟨rfl, rfl⟩ := Prod.mk.inj (Option.some.inj h)
      exact ⟨_, rfl, heq⟩
    case h_4 heq =>
      obtain ⟨⟨cs, _⟩, hread, hv⟩ := Option.map_eq_some_iff.mp h
      obtain ⟨rfl, rfl⟩ := Prod.mk.inj hv
      obtain ⟨body, hbody, rfl⟩ := readString?_sound hread
      exact ⟨_, ⟨body, String.toList_ofList.symm ▸ hbody, rfl⟩, by simp [heq]⟩
    case h_5 tail heq =>
      obtain ⟨front, hfront, htail⟩ := exists_blanks tail
      split at h
      · rename_i hclose
        obtain ⟨rfl, rfl⟩ := Prod.mk.inj (Option.some.inj h)
        exact ⟨_, ⟨front, Or.inl ⟨rfl, hfront⟩, rfl⟩, by rw [heq, htail, hclose]; simp⟩
      · obtain ⟨⟨items, _⟩, hread, hv⟩ := Option.map_eq_some_iff.mp h
        obtain ⟨rfl, rfl⟩ := Prod.mk.inj hv
        rw [readItems?_skipBlanks] at hread
        obtain ⟨body, hbody, rfl⟩ := readItems?_sound hread
        exact ⟨_, ⟨body, Or.inr hbody, rfl⟩, by simp [heq]⟩
    case h_6 tail heq =>
      obtain ⟨front, hfront, htail⟩ := exists_blanks tail
      split at h
      · rename_i hclose
        obtain ⟨rfl, rfl⟩ := Prod.mk.inj (Option.some.inj h)
        exact ⟨_, ⟨front, Or.inl ⟨rfl, hfront⟩, rfl⟩, by rw [heq, htail, hclose]; simp⟩
      · obtain ⟨⟨members, _⟩, hread, hv⟩ := Option.map_eq_some_iff.mp h
        obtain ⟨rfl, rfl⟩ := Prod.mk.inj hv
        rw [readMembers?_skipBlanks] at hread
        obtain ⟨body, hbody, rfl⟩ := readMembers?_sound hread
        exact ⟨_, ⟨body, Or.inr hbody, rfl⟩, by simp [heq]⟩
    case h_7 =>
      obtain ⟨⟨n, _⟩, hread, hv⟩ := Option.map_eq_some_iff.mp h
      obtain ⟨rfl, rfl⟩ := Prod.mk.inj hv
      exact readNumber?_sound hread

theorem readItems?_sound : ∀ {fuel : Nat} {text rest : List Char} {items : List Json},
    readItems? fuel text = some (items, rest) → ∃ s, ItemsText items s ∧ text = s ++ ']' :: rest
  | 0, _, _, _, h => by cases h
  | fuel + 1, text, rest, items, h => by
    rw [readItems?] at h
    obtain ⟨⟨v, after⟩, hread, hafter⟩ := Option.bind_eq_some_iff.mp h
    dsimp only at hafter
    obtain ⟨b, s, hb, hs, rfl⟩ := readValue?_sound hread
    obtain ⟨back, hback, heq⟩ := exists_blanks after
    have hv : Padded v.IsText (b ++ (s ++ back)) := ⟨b, s, back, hb, hs, hback, rfl⟩
    split at hafter
    · rename_i hcomma
      obtain ⟨⟨items, _⟩, hitems, hmore⟩ := Option.bind_eq_some_iff.mp hafter
      obtain ⟨rfl, rfl⟩ := Prod.mk.inj (Option.some.inj hmore)
      obtain ⟨more, hmore, rfl⟩ := readItems?_sound hitems
      exact ⟨_, Or.inr ⟨_, more, hv, hmore, rfl⟩, by rw [heq, hcomma]; simp⟩
    · rename_i hclose
      obtain ⟨rfl, rfl⟩ := Prod.mk.inj (Option.some.inj hafter)
      exact ⟨_, Or.inl ⟨rfl, hv⟩, by rw [heq, hclose]; simp⟩
    · cases hafter

theorem readMembers?_sound : ∀ {fuel : Nat} {text rest : List Char} {members : List (String × Json)},
    readMembers? fuel text = some (members, rest) → ∃ s, MembersText members s ∧ text = s ++ '\x7d' :: rest
  | 0, _, _, _, h => by cases h
  | fuel + 1, text, rest, members, h => by
    rw [readMembers?] at h
    obtain ⟨⟨key, afterKey⟩, hreadkey, hmember⟩ := Option.bind_eq_some_iff.mp h
    obtain ⟨b, k, hb, hk, rfl⟩ := readKey?_sound hreadkey
    obtain ⟨afterColon, hcolon, hvalue⟩ := Option.bind_eq_some_iff.mp hmember
    obtain ⟨b', hb', rfl⟩ := readColon?_sound hcolon
    obtain ⟨⟨v, after⟩, hread, hafter⟩ := Option.bind_eq_some_iff.mp hvalue
    dsimp only at hafter
    obtain ⟨front, s, hfront, hs, rfl⟩ := readValue?_sound hread
    obtain ⟨back, hback, heq⟩ := exists_blanks after
    have hkey : Padded (QuotedText key) (b ++ (k ++ b')) := ⟨b, k, b', hb, hk, hb', rfl⟩
    have hv : Padded v.IsText (front ++ (s ++ back)) := ⟨front, s, back, hfront, hs, hback, rfl⟩
    split at hafter
    · rename_i hcomma
      obtain ⟨⟨members, _⟩, hmembers, hmore⟩ := Option.bind_eq_some_iff.mp hafter
      obtain ⟨rfl, rfl⟩ := Prod.mk.inj (Option.some.inj hmore)
      obtain ⟨more, hmore, rfl⟩ := readMembers?_sound hmembers
      exact ⟨_, ⟨_, _, hkey, rfl, Or.inr ⟨_, more, hv, hmore, rfl⟩⟩, by rw [heq, hcomma]; simp⟩
    · rename_i hclose
      obtain ⟨rfl, rfl⟩ := Prod.mk.inj (Option.some.inj hafter)
      exact ⟨_, ⟨_, _, hkey, rfl, Or.inl ⟨rfl, hv⟩⟩, by rw [heq, hclose]; simp⟩
    · cases hafter
end

/-! ### Documents -/

/-- The documents that are read are those of the syntax. -/
theorem read?_eq_some : read? text = some v ↔ v.IsDocument text := by
  constructor
  · intro h
    obtain ⟨⟨v, rest⟩, hread, hend⟩ := Option.bind_eq_some_iff.mp h
    dsimp only at hend
    obtain ⟨b, s, hb, hs, htext⟩ := readValue?_sound hread
    obtain ⟨back, hback, hrest⟩ := exists_blanks rest
    split at hend
    · rename_i hempty
      obtain rfl := Option.some.inj hend
      rw [List.isEmpty_iff.mp hempty, List.append_nil] at hrest
      exact ⟨b, s, back, hb, hs, hback, hrest ▸ htext⟩
    · cases hend
  · rintro ⟨front, s, back, hfront, hs, hback, rfl⟩
    have hends : Ends back := List.append_nil back ▸ ends_blanks hback ends_nil
    have hskip : skipBlanks back = [] := by simpa [skipBlanks] using skipBlanks_append hback []
    have hfuel : 2 * s.length ≤ enoughFuel (front ++ (s ++ back)) := by
      simp only [enoughFuel, List.length_append]
      omega
    rw [read?, readFirst?, reads v s hs _ front back hfuel hfront hends]
    simp [hskip]

end
end Highlight.Json
