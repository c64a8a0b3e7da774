import Highlight.Regex.Program

/-! Reading a pattern within a group. A reader that comes to the end of a pattern does the same when the closing
    parenthesis of a group around the pattern follows there: what it has read by then is the same, and it stops before
    the parenthesis. The line end that may stand before the parenthesis is skipped in verbose mode only. -/

namespace Highlight.Regex

/-- Groups are counted from one on. -/
def Expr.Numbered (e : Expr) : Prop := ∀ i ∈ e.groups, 0 < i

theorem Expr.mem_groupsOf {es : List Expr} {i : Nat} : i ∈ groupsOf es ↔ ∃ e ∈ es, i ∈ e.groups := by
  induction es with
  | nil => simp [groupsOf]
  | cons e es ih => simp [groupsOf, ih]

/-- What closes the group around a pattern, after a line end if there is one. -/
def closing (lineEnd : Bool) : List Char := if lineEnd then ['\n', ')'] else [')']

theorem suffix_closing {lineEnd : Bool} {tail : List Char} (h : tail <:+ closing lineEnd) :
    tail = [] ∨ tail = [')'] ∨ lineEnd = true ∧ tail = ['\n', ')'] := by
  cases lineEnd with
  | false => simpa [closing, List.suffix_cons_iff, or_comm] using h
  | true => simpa [closing, List.suffix_cons_iff, or_comm, or_assoc] using h

theorem mem_closing {lineEnd : Bool} {tail : List Char} (h : tail <:+ closing lineEnd) {c : Char} (hc : c ∈ tail) :
    c = ')' ∨ c = '\n' := by
  rcases suffix_closing h with rfl | rfl | ⟨-, rfl⟩
  · cases hc
  · exact Or.inl (List.mem_singleton.mp hc)
  · simpa [or_comm] using hc

namespace Parser

/-! ### Blanks and comments -/

/-- What skipping comes to when `tail` is added to a text, against what it comes to without: it stops within the text,
    or goes through it into the tail, or there is a comment that the text does not close. A comment that is open at the
    end of the text takes in no more than the line. -/
inductive Skipped (verbose : Bool) (tail : List Char) : Option (List Char) → Option (List Char) → Prop
  | within {c r} : Skipped verbose tail (some (c :: r)) (some (c :: r ++ tail))
  | through {r} : r <:+ tail → (verbose = true → r = [] ∨ r = [')']) → (tail = ['\n', ')'] → r ≠ []) →
      Skipped verbose tail (some []) (some r)
  | unclosed {out} : (∀ r, out = some r → r <:+ tail) → Skipped verbose tail none out

section
variable {lineEnd verbose : Bool} {tail : List Char}

theorem skipGap_suffix {g : Gap} {cs r : List Char} (h : skipGap verbose g cs = some r) : r <:+ cs := by
  fun_induction skipGap verbose g cs with
  | case1 cs ih => exact (ih h).trans ⟨['(', '?', '#'], rfl⟩
  | case2 c cs _ _ ih => exact (ih h).trans (List.suffix_cons c cs)
  | case3 c cs _ _ _ ih => exact (ih h).trans (List.suffix_cons c cs)
  | case4 c cs => exact Option.some.inj h ▸ List.suffix_rfl
  | case5 c cs _ ih => exact (ih h).trans (List.suffix_cons c cs)
  | case6 c cs _ ih => exact (ih h).trans (List.suffix_cons c cs)
  | case7 c cs ih => exact (ih h).trans ⟨['\\', c], rfl⟩
  | case8 c cs _ _ ih => exact (ih h).trans (List.suffix_cons c cs)
  | case9 c cs _ _ ih => exact (ih h).trans (List.suffix_cons c cs)
  | case10 => exact Option.some.inj h ▸ List.suffix_rfl
  | case11 => exact Option.some.inj h ▸ List.suffix_rfl
  | case12 => cases h

theorem skipGap_paren : skipGap verbose .between [')'] = some [')'] := by
  cases verbose <;> rfl

theorem skipped_skipGap (htail : tail <:+ closing lineEnd) (g : Gap) (cs : List Char)
    (hg : g = .line → verbose = true) :
    Skipped verbose tail (skipGap verbose g cs) (skipGap verbose g (cs ++ tail)) := by
  -- No comment begins in the text and goes on in the tail.
  have hopen : ∀ {c : Char} {cs : List Char}, (∀ cs', c = '(' → cs = '?' :: '#' :: cs' → False) →
      ∀ cs', c = '(' → cs ++ tail = '?' :: '#' :: cs' → False := by
    rintro c cs hne cs' rfl heq
    rcases suffix_closing htail with rfl | rfl | ⟨-, rfl⟩ <;> rcases cs with _ | ⟨a, _ | ⟨b, cs⟩⟩ <;> simp_all
  fun_induction skipGap verbose g cs with
  | case1 cs ih => exact ih nofun
  | case2 c cs hne h ih =>
    rw [List.cons_append, skipGap, if_pos h]
    · exact ih fun _ => (Bool.and_eq_true_iff.mp h).1
    · exact hopen hne
  | case3 c cs hne h h' ih =>
    rw [List.cons_append, skipGap, if_neg h, if_pos h']
    · exact ih nofun
    · exact hopen hne
  | case4 c cs hne h h' =>
    rw [List.cons_append, skipGap, if_neg h, if_neg h']
    · exact .within
    · exact hopen hne
  | case5 c cs h ih =>
    rw [List.cons_append, skipGap, if_pos h]
    exact ih nofun
  | case6 c cs h ih =>
    rw [List.cons_append, skipGap, if_neg h]
    exact ih hg
  | case7 _ cs ih => exact ih nofun
  | case8 c cs hne h ih =>
    obtain rfl := eq_of_beq h
    exact ih nofun
  | case9 c cs hne h ih =>
    cases cs with
    | nil =>
      -- A backslash at the end takes the first character of the tail with it.
      refine .unclosed fun r hr => ?_
      by_cases hc : c = '\\'
      · subst hc
        rcases suffix_closing htail with rfl | rfl | ⟨-, rfl⟩
        · cases hr
        · cases hr
        · obtain rfl : [] = r := Option.some.inj hr
          exact List.nil_suffix
      · rw [List.cons_append, skipGap, if_neg h] at hr
        · exact skipGap_suffix hr
        · exact fun _ _ hc' => absurd hc' hc
    | cons d cs =>
      have hstep : skipGap verbose .comment (c :: (d :: cs ++ tail)) = skipGap verbose .comment (d :: cs ++ tail) := by
        rw [skipGap, if_neg h]
        rintro _ _ rfl -
        exact hne d cs rfl rfl
      rw [List.cons_append, hstep]
      exact ih nofun
  | case10 =>
    rcases suffix_closing htail with rfl | rfl | ⟨-, rfl⟩
    · exact .through List.suffix_rfl (fun _ => Or.inl rfl) nofun
    · exact skipGap_paren ▸ .through List.suffix_rfl (fun _ => Or.inr rfl) nofun
    · cases verbose with
      | false => exact .through List.suffix_rfl nofun fun _ => List.cons_ne_nil _ _
      | true => exact .through (List.suffix_cons _ _) (fun _ => Or.inr rfl) fun _ => List.cons_ne_nil _ _
  | case11 =>
    obtain rfl := hg rfl
    rcases suffix_closing htail with rfl | rfl | ⟨-, rfl⟩
    · exact .through List.suffix_rfl (fun _ => Or.inl rfl) nofun
    · exact .through List.nil_suffix (fun _ => Or.inl rfl) nofun
    · exact .through (List.suffix_cons _ _) (fun _ => Or.inr rfl) fun _ => List.cons_ne_nil _ _
  | case12 => exact .unclosed fun r hr => skipGap_suffix hr

/-! ### Numbers and names -/

theorem takeWhile_append_tail {p : Char → Bool} (hp : ∀ c ∈ tail, p c = false) (cs : List Char) :
    (cs ++ tail).takeWhile p = cs.takeWhile p := by
  induction cs with
  | nil =>
    cases tail with
    | nil => rfl
    | cons c tail => rw [List.nil_append, List.takeWhile_cons, hp c List.mem_cons_self]; rfl
  | cons c cs ih => rw [List.cons_append, List.takeWhile_cons, List.takeWhile_cons, ih]

theorem drop_takeWhile_append (p : Char → Bool) (cs : List Char) :
    (cs ++ tail).drop (cs.takeWhile p).length = cs.drop (cs.takeWhile p).length ++ tail :=
  List.drop_append_of_le_length (List.takeWhile_prefix p).length_le

theorem decimal?_append (htail : tail <:+ closing lineEnd) (cs : List Char) :
    decimal? (cs ++ tail) = (decimal? cs).map fun found => (found.1, found.2 ++ tail) := by
  have hdigits : ∀ c ∈ tail, c.isDigit = false := by
    intro c hc
    rcases mem_closing htail hc with rfl | rfl <;> decide
  unfold decimal?
  simp only [takeWhile_append_tail hdigits, drop_takeWhile_append]
  split <;> rfl

theorem suffix_of_decimal? {cs r : List Char} {n : Nat} (h : decimal? cs = some (n, r)) : r <:+ cs := by
  unfold decimal? at h
  simp only at h
  split at h
  · cases h
  · obtain ⟨-, rfl⟩ := Prod.mk.inj (Option.some.inj h)
    exact List.drop_suffix _ _

theorem isPrefixOf_append {a cs : List Char} (h : a.isPrefixOf cs = true) : a.isPrefixOf (cs ++ tail) = true :=
  List.isPrefixOf_iff_prefix.mpr ((List.isPrefixOf_iff_prefix.mp h).trans (List.prefix_append _ _))

theorem drop_append_of_isPrefixOf {a cs : List Char} (h : a.isPrefixOf cs = true) :
    (cs ++ tail).drop a.length = cs.drop a.length ++ tail :=
  List.drop_append_of_le_length (List.isPrefixOf_iff_prefix.mp h).length_le

theorem not_nameChar (htail : tail <:+ closing lineEnd) :
    ∀ c ∈ tail, (Unicode.isAlphanumeric c || c == '_') = false := by
  intro c hc
  rcases mem_closing htail hc with rfl | rfl <;> decide +kernel

theorem name?_append (htail : tail <:+ closing lineEnd) {opening close cs r : List Char} {name : String}
    (h : name? opening close cs = some (name, r)) :
    r <:+ cs ∧ name? opening close (cs ++ tail) = some (name, r ++ tail) := by
  unfold name? at h ⊢
  split at h
  · rename_i hopen
    simp only at h
    split at h
    · rename_i hclose
      obtain ⟨rfl, rfl⟩ := Prod.mk.inj (Option.some.inj h)
      obtain ⟨hid, hprefix⟩ := Bool.and_eq_true_iff.mp hclose
      simp only [isPrefixOf_append hopen, if_true, drop_append_of_isPrefixOf hopen,
        takeWhile_append_tail (not_nameChar htail), drop_takeWhile_append, isPrefixOf_append hprefix, hid,
        Bool.and_self, drop_append_of_isPrefixOf hprefix, and_true]
      exact (List.drop_suffix _ _).trans ((List.drop_suffix _ _).trans (List.drop_suffix _ _))
    · cases h
  · cases h

/-- The tail does not complete a delimiter. -/
theorem isPrefixOf_append_eq (htail : tail <:+ closing lineEnd) {a : List Char}
    (ha : ∀ c ∈ a, c ≠ ')' ∧ c ≠ '\n') (cs : List Char) :
    a.isPrefixOf (cs ++ tail) = a.isPrefixOf cs := by
  induction a generalizing cs with
  | nil => simp
  | cons c a ih =>
    obtain ⟨hc, ha⟩ := List.forall_mem_cons.mp ha
    cases cs with
    | nil =>
      cases tail with
      | nil => rfl
      | cons d tail =>
        have hne : (c == d) = false := by
          rcases mem_closing htail List.mem_cons_self with rfl | rfl
          · exact beq_false_of_ne hc.1
          · exact beq_false_of_ne hc.2
        simp [List.isPrefixOf, hne]
    | cons d cs =>
      simp only [List.cons_append, List.isPrefixOf, ih ha]

theorem name?_append_none (htail : tail <:+ closing lineEnd) {opening close cs : List Char}
    (ho : ∀ c ∈ opening, c ≠ ')' ∧ c ≠ '\n') (hcl : ∀ c ∈ close, c ≠ ')' ∧ c ≠ '\n')
    (h : name? opening close cs = none) :
    name? opening close (cs ++ tail) = none := by
  unfold name? at h ⊢
  rw [isPrefixOf_append_eq htail ho]
  by_cases hopen : opening.isPrefixOf cs = true
  · simp only [hopen, if_true, drop_append_of_isPrefixOf hopen, takeWhile_append_tail (not_nameChar htail),
      drop_takeWhile_append, isPrefixOf_append_eq htail hcl] at h ⊢
    split at h
    · cases h
    · rename_i hno
      rw [if_neg hno]
  · rw [if_neg hopen]
end

/-! ### Bounds of repetitions -/

section
variable {lineEnd verbose : Bool} {tail : List Char}

/-- A way to read on that needs more than `tail` offers, and leaves what comes behind it. -/
structure Closes {α : Type} (tail : List Char) (add : α → α) (k : List Char → Option α) : Prop where
  needs : ∀ r, r <:+ tail → k r = none
  leaves : ∀ c cs, k (c :: cs ++ tail) = (k (c :: cs)).map add

section
variable {α : Type} {add : α → α} {k : List Char → Option α}

theorem Closes.append (h : Closes tail add k) (cs : List Char) : k (cs ++ tail) = (k cs).map add := by
  cases cs with
  | nil => rw [List.nil_append, h.needs tail List.suffix_rfl, h.needs [] List.nil_suffix]; rfl
  | cons c cs => exact h.leaves c cs

theorem Closes.skip (htail : tail <:+ closing lineEnd) (h : Closes tail add k) :
    Closes tail add fun cs => skipGap verbose .between cs >>= k := by
  refine ⟨fun r hr => ?_, fun c cs => ?_⟩
  · cases hskip : skipGap verbose .between r with
    | none => rfl
    | some r' => exact h.needs r' ((skipGap_suffix hskip).trans hr)
  · have hskip : Skipped verbose tail _ _ := skipped_skipGap htail .between (c :: cs) nofun
    generalize skipGap verbose .between (c :: cs) = out, skipGap verbose .between (c :: cs ++ tail) = out' at hskip
    cases hskip with
    | within => exact h.leaves _ _
    | through hr _ _ =>
      show k _ = (k []).map _
      rw [h.needs _ hr, h.needs [] List.nil_suffix]
      rfl
    | unclosed hr =>
      cases out' with
      | none => rfl
      | some r => exact h.needs r (hr r rfl)

theorem Closes.decimal (htail : tail <:+ closing lineEnd) {k : Nat → List Char → Option α}
    (h : ∀ n, Closes tail add (k n)) :
    Closes tail add fun cs => decimal? cs >>= fun found => k found.1 found.2 := by
  refine ⟨fun r hr => ?_, fun c cs => ?_⟩
  · cases hd : decimal? r with
    | none => rfl
    | some found => exact (h found.1).needs _ ((suffix_of_decimal? hd).trans hr)
  · rw [decimal?_append htail]
    cases decimal? (c :: cs) with
    | none => rfl
    | some found => exact (h found.1).append found.2

/-- The number that a text begins with, if it begins with one, and the text behind it. -/
def optionalDecimal (cs : List Char) : Option Nat × List Char :=
  match decimal? cs with
  | some (n, cs) => (some n, cs)
  | none => (none, cs)

theorem Closes.optional (htail : tail <:+ closing lineEnd) {k : Option Nat → List Char → Option α}
    (h : ∀ n, Closes tail add (k n)) :
    Closes tail add fun cs => k (optionalDecimal cs).1 (optionalDecimal cs).2 := by
  refine ⟨fun r hr => ?_, fun c cs => ?_⟩
  · unfold optionalDecimal
    cases hd : decimal? r with
    | none => exact (h none).needs r hr
    | some found => exact (h (some found.1)).needs _ ((suffix_of_decimal? hd).trans hr)
  · unfold optionalDecimal
    rw [decimal?_append htail]
    cases decimal? (c :: cs) with
    | none => exact (h none).leaves c cs
    | some found => exact (h (some found.1)).append found.2

end

/-- What was read of a repetition, with more text behind it. -/
def addTo (tail : List Char) (b : Nat × Option Nat × List Char) : Nat × Option Nat × List Char :=
  (b.1, b.2.1, b.2.2 ++ tail)

/-- The closing brace of a repetition, with its bounds. -/
def closeBounds (verbose : Bool) (least : Nat) (most : Option Nat) (cs : List Char) :
    Option (Nat × Option Nat × List Char) := do
  let cs ← skipGap verbose .between cs
  match cs with
  | '\x7d' :: cs => return (least, most, cs)
  | _ => none

/-- The upper bound of a repetition, which may be left out. -/
def upperBound (verbose : Bool) (least : Nat) (cs : List Char) : Option (Nat × Option Nat × List Char) := do
  let cs ← skipGap verbose .between cs
  match cs with
  | '\x7d' :: _ => closeBounds verbose least (some least) cs
  | ',' :: cs => do
    let found ← (skipGap verbose .between cs).map optionalDecimal
    closeBounds verbose least found.1 found.2
  | _ => none

/-- The lower bound of a repetition, which may be left out before a comma. -/
def lowerBound (verbose : Bool) : List Char → Option (Nat × Option Nat × List Char)
  | ',' :: cs => upperBound verbose 0 (',' :: cs)
  | cs => decimal? cs >>= fun found => upperBound verbose found.1 found.2

theorem bounds?_cons (verbose : Bool) (cs : List Char) :
    bounds? verbose ('\x7b' :: cs) = skipGap verbose .between cs >>= lowerBound verbose := by
  unfold bounds?
  refine congrArg (skipGap verbose .between cs >>= ·) (funext fun cs => ?_)
  rcases cs with _ | ⟨c, cs⟩
  · rfl
  · by_cases hcomma : c = ','
    · subst hcomma
      rfl
    · simp only [lowerBound, List.cons.injEq, hcomma, false_and, imp_self, implies_true]
      rfl

theorem suffix_of_closeBounds {least : Nat} {most : Option Nat} {cs : List Char} {b : Nat × Option Nat × List Char}
    (h : closeBounds verbose least most cs = some b) : b.2.2 <:+ cs := by
  obtain ⟨r, hskip, h⟩ := Option.bind_eq_some_iff.mp h
  have hr := skipGap_suffix hskip
  split at h
  · cases h
    exact (List.suffix_cons _ _).trans hr
  · cases h

theorem suffix_of_optionalDecimal (cs : List Char) : (optionalDecimal cs).2 <:+ cs := by
  unfold optionalDecimal
  split
  · rename_i hd
    exact suffix_of_decimal? hd
  · exact List.suffix_rfl

theorem suffix_of_upperBound {least : Nat} {cs : List Char} {b : Nat × Option Nat × List Char}
    (h : upperBound verbose least cs = some b) : b.2.2 <:+ cs := by
  obtain ⟨r, hskip, h⟩ := Option.bind_eq_some_iff.mp h
  have hr := skipGap_suffix hskip
  split at h
  · exact (suffix_of_closeBounds h).trans hr
  · obtain ⟨found, hfound, h⟩ := Option.bind_eq_some_iff.mp h
    obtain ⟨r', hskip', rfl⟩ := Option.map_eq_some_iff.mp hfound
    have hr' := (skipGap_suffix hskip').trans ((List.suffix_cons _ _).trans hr)
    exact (suffix_of_closeBounds h).trans ((suffix_of_optionalDecimal r').trans hr')
  · cases h

theorem suffix_of_lowerBound {cs : List Char} {b : Nat × Option Nat × List Char} (h : lowerBound verbose cs = some b) :
    b.2.2 <:+ cs := by
  unfold lowerBound at h
  split at h
  · exact suffix_of_upperBound h
  · obtain ⟨found, hd, h⟩ := Option.bind_eq_some_iff.mp h
    exact (suffix_of_upperBound h).trans (suffix_of_decimal? hd)

theorem suffix_of_bounds? {cs : List Char} {b : Nat × Option Nat × List Char} (h : bounds? verbose cs = some b) :
    b.2.2 <:+ cs := by
  rcases cs with _ | ⟨c, cs⟩
  · cases h
  · by_cases hc : c = '\x7b'
    · subst hc
      rw [bounds?_cons] at h
      obtain ⟨r, hskip, h⟩ := Option.bind_eq_some_iff.mp h
      exact (suffix_of_lowerBound h).trans ((skipGap_suffix hskip).trans (List.suffix_cons '\x7b' cs))
    · simp [bounds?, hc] at h

section
variable {least : Nat} {most : Option Nat} (htail : tail <:+ closing lineEnd)
include htail

theorem closes_closeBounds : Closes tail (addTo tail) (closeBounds verbose least most) := by
  refine Closes.skip htail ⟨fun r hr => ?_, fun c cs => ?_⟩
  · rcases suffix_closing (hr.trans htail) with rfl | rfl | ⟨-, rfl⟩ <;> rfl
  · by_cases hc : c = '\x7d'
    · subst hc
      rfl
    · simp [hc]

theorem closes_upperBound : Closes tail (addTo tail) (upperBound verbose least) := by
  refine Closes.skip htail ⟨fun r hr => ?_, fun c cs => ?_⟩
  · rcases suffix_closing (hr.trans htail) with rfl | rfl | ⟨-, rfl⟩ <;> rfl
  · by_cases hc : c = '\x7d'
    · subst hc
      exact (closes_closeBounds htail).leaves _ _
    · by_cases hc' : c = ','
      · subst hc'
        have hclose : ∀ most, Closes tail (addTo tail) (closeBounds verbose least most) :=
          fun _ => closes_closeBounds htail
        simp only [List.cons_append, Option.bind_eq_bind, Option.bind_map, Function.comp_def]
        exact (Closes.skip htail (Closes.optional htail hclose)).append cs
      · simp [hc, hc']

theorem closes_lowerBound : Closes tail (addTo tail) (lowerBound verbose) := by
  have hupper : ∀ least, Closes tail (addTo tail) (upperBound verbose least) := fun _ => closes_upperBound htail
  have hdecimal := Closes.decimal htail hupper
  refine ⟨fun r hr => ?_, fun c cs => ?_⟩
  · rcases suffix_closing (hr.trans htail) with rfl | rfl | ⟨-, rfl⟩ <;> exact hdecimal.needs _ hr
  · by_cases hc : c = ','
    · subst hc
      exact (closes_upperBound htail).leaves _ _
    · simpa [lowerBound, hc] using hdecimal.leaves c cs

/-- The bounds of a repetition are not completed by a closing parenthesis. -/
theorem bounds?_append (cs : List Char) :
    bounds? verbose (cs ++ tail) = (bounds? verbose cs).map (addTo tail) := by
  have hbounds : Closes tail (addTo tail) (bounds? verbose) := by
    refine ⟨fun r hr => ?_, fun c cs => ?_⟩
    · rcases suffix_closing (hr.trans htail) with rfl | rfl | ⟨-, rfl⟩ <;> rfl
    · by_cases hc : c = '\x7b'
      · subst hc
        rw [List.cons_append, bounds?_cons, bounds?_cons]
        exact (Closes.skip htail (closes_lowerBound htail)).append cs
      · simp [bounds?, hc]
  exact hbounds.append cs

end
end
end Parser
end Highlight.Regex
