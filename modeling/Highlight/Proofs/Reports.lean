import Highlight.Proofs.Locality

/-! What the engine for compiled patterns reports. A match lies in the text that was searched (`bounded_compiled`), and it
    starts at the offset asked for or later unless the pattern moves the start of its matches (`goesAhead_compiled`). A
    pattern that is written letter by letter is decided at each offset (`attempts_compiled`). -/

namespace Highlight
namespace Regex

/-! ### Plain expressions -/

namespace Plain

/-- From every place with at most `n` characters left, going on ends at such a place if it ends in a match. -/
def Stays (n : Nat) (k : Rest) : Prop :=
  ∀ (p : Place) (slots : Slots) (tried : Tried), p.left ≤ n → (k p slots tried).Ends fun q _ => q.left ≤ n

section
variable {n : Nat} {k : Rest}

theorem Stays.rounds {id : Nat} {greedy : Bool} {body : Rest → Rest} (hbody : ∀ k, Stays n k → Stays n (body k))
    (hk : Stays n k) (fuel : Nat) : Stays n (rounds id greedy body k fuel) := by
  induction fuel with
  | zero => exact fun _ _ _ _ => trivial
  | succ fuel ih =>
    intro p slots tried hp
    unfold Plain.rounds
    split
    · trivial
    · refine hbody _ (fun q slots tried hq => ?_) p slots _ hp
      dsimp only
      split
      · trivial
      · split
        · exact ends_orElse (ih q slots _ hq) fun tried => hk q slots tried hq
        · exact ends_orElse (hk q slots _ hq) fun tried => ih q slots tried hq

theorem Stays.run (e : Plain) (hk : Stays n k) : Stays n (e.run k) := by
  induction e generalizing k with
  | empty => exact hk
  | one set =>
    intro p slots tried hp
    unfold Plain.run
    split
    · trivial
    · split
      · exact hk _ _ _ (Nat.le_trans (Nat.sub_le _ _) hp)
      · trivial
  | assertion a =>
    intro p slots tried hp
    unfold Plain.run
    split
    · exact hk p slots tried hp
    · trivial
  | seq a b iha ihb => exact iha (ihb hk)
  | alt id a b iha ihb =>
    intro p slots tried hp
    unfold Plain.run
    split
    · trivial
    · exact ends_orElse (iha hk p slots _ hp) fun tried => ihb hk p slots tried hp
  | group index body ih =>
    exact fun p slots tried hp => ih (fun q slots tried hq => hk q _ tried hq) p _ tried hp
  | loop id body greedy ih => exact fun p slots tried hp => Stays.rounds (fun k hk => ih hk) hk _ p slots tried hp

end

section
variable {e : Plain} {slots slots' : Slots} {before after : List Char} {left : Nat} {p q : Place} {tried tried' : Tried}

theorem left_of_matchAt (h : e.matchAt slots p tried = .found q slots' tried') : q.left ≤ p.left := by
  have hends : (e.matchAt slots p tried).Ends fun q _ => q.left ≤ p.left :=
    Stays.run e (fun _ _ _ hq => hq) p slots tried (Nat.le_refl _)
  rwa [h] at hends

/-- A match begins where the search did or later, and does not end before it begins. -/
theorem left_of_search (h : e.search slots before after left tried = some (p, q, slots')) :
    p.left ≤ left ∧ q.left ≤ p.left := by
  induction after generalizing before left tried with
  | nil =>
    rw [search] at h
    split at h
    · rename_i hfound
      cases h
      exact ⟨Nat.le_refl _, left_of_matchAt hfound⟩
    · cases h
  | cons c after ih =>
    rw [search] at h
    split at h
    · rename_i hfound
      cases h
      exact ⟨Nat.le_refl _, left_of_matchAt hfound⟩
    · split at h
      · cases h
      · obtain ⟨hleft, hle⟩ := ih h
        exact ⟨Nat.le_trans hleft (Nat.sub_le _ _), hle⟩
    · cases h

end
end Plain

/-! ### Programs -/

namespace Parser

/-- The groups of a pattern that was read are counted from one on. -/
theorem numbered_of_parse {text : List Char} {parsed : Parsed} (h : parse text = .ok parsed) : parsed.expr.Numbered := by
  obtain ⟨s, hs, -, -⟩ := parse_inv h
  -- A reader that may read on behind the pattern follows that of the pattern in any case.
  let w : Wrapping := ⟨false, (initial text).bound, true⟩
  have hfollows : Follows w NumberedExpr (pattern maxDepth) (pattern maxDepth) (initial text) (closing w.lineEnd) :=
    follows_pattern (Or.inl rfl)
  exact (hfollows (State.Trailing.closing w _) (Nat.le_refl _) _ _ hs).2.1

end Parser

namespace Program

theorem numbered_of_compile {text : List Char} {program : Program} (h : compile text = .ok program) :
    program.Numbered := by
  obtain ⟨parsed, hparsed, h⟩ := bind_eq_ok h
  exact numbered_ofParsed (Parser.numbered_of_parse hparsed) h

section
variable {program : Program} {failures start : Nat} {text : List Char} {m : Match}

/-- A match lies in the text. -/
theorem span_of_search (h : program.search failures text start = .ok (some m)) :
    m.span.start ≤ m.span.stop ∧ m.span.stop ≤ text.length := by
  unfold search at h
  cases program with
  | plain e groups =>
    dsimp only at h
    split at h
    · rename_i first last slots hfound
      cases h
      exact ⟨Nat.sub_le_sub_left (Plain.left_of_search hfound).2 _, Nat.sub_le _ _⟩
    · cases h
  | tree e groups slots =>
    dsimp only at h
    split at h
    · cases h
      exact ⟨Nat.min_le_right _ _, Nat.sub_le _ _⟩
    · cases h
    · cases h

/-- A match starts at the offset where the search began or later, unless the pattern moves its start. -/
theorem start_of_search (hnumbered : program.Numbered) (hmoves : program.movesStart = false)
    (hstart : start ≤ text.length) (h : program.search failures text start = .ok (some m)) : start ≤ m.span.start := by
  have hplace : (Place.start text).skip start = ⟨(text.take start).reverse ++ [], text.drop start, text.length - start⟩ :=
    Place.skip_eq hstart [] text.length
  have hahead : ∀ {left : Nat}, left ≤ text.length - start → start ≤ text.length - left := by omega
  unfold search at h
  rw [hplace] at h
  cases program with
  | plain e groups =>
    dsimp only at h
    split at h
    · rename_i first last slots hfound
      cases h
      exact hahead (Plain.left_of_search hfound).1
    · cases h
  | tree e groups slots =>
    dsimp only at h
    split at h
    · rename_i last slots' n hfound
      cases h
      have hbegins : ∃ p n', p.left ≤ text.length - start ∧
          e.matchAt ⟨failures, text.length - start⟩ (Array.replicate slots none) p n' = .found last slots' n := by
        rcases Tree.search_inv hfound (List.length_drop ..).symm with hat | ⟨-, p, n', hlt, hat⟩
        · exact ⟨_, _, Nat.le_refl _, hat⟩
        · exact ⟨p, n', Nat.le_of_lt hlt, hat⟩
      obtain ⟨p, n', hle, hat⟩ := hbegins
      have hspan : (matchOf text.length groups last slots').span.start = text.length - p.left :=
        start_matchOf hnumbered.1 hmoves (by simpa using hnumbered.2) hat
      exact hspan ▸ hahead hle
    · cases h
    · cases h

end
end Program

/-! ### Patterns written letter by letter -/

namespace Plain

section
variable {k : Rest} {p : Place} {slots : Slots} {tried : Tried}

theorem run_single (c : Char) : (one (.single c)).run k p slots tried =
    match p.skipText? [c] with
    | some q => k q slots tried
    | none => .failed tried := by
  obtain ⟨before, after, left⟩ := p
  cases after with
  | nil => rfl
  | cons d after =>
    have hcontains : (CharSet.single c).contains d = (c == d) := by
      rw [CharSet.single, CharSet.contains, Bool.eq_iff_iff, Bool.and_eq_true, decide_eq_true_iff, decide_eq_true_iff,
        beq_iff_eq]
      exact ⟨fun h => Char.le_antisymm h.1 h.2, fun h => h ▸ ⟨Char.le_refl _, Char.le_refl _⟩⟩
    simp only [Plain.run, hcontains, Place.skipText?]
    split <;> rfl

theorem skipText?_cons (c : Char) (cs : List Char) :
    p.skipText? (c :: cs) = (p.skipText? [c]).bind fun q => q.skipText? cs := by
  obtain ⟨before, after, left⟩ := p
  cases after with
  | nil => rfl
  | cons d after =>
    simp only [Place.skipText?]
    split <;> rfl

/-- Going on behind the letters is going on behind their text. -/
theorem run_letters (cs : List Char) : (letters cs).run k p slots tried =
    match p.skipText? cs with
    | some q => k q slots tried
    | none => .failed tried := by
  induction cs generalizing p with
  | nil => rfl
  | cons c cs ih =>
    cases cs with
    | nil => exact run_single c
    | cons d cs =>
      have hseq : (letters (c :: d :: cs)).run k p slots tried =
          (one (.single c)).run ((letters (d :: cs)).run k) p slots tried := rfl
      rw [hseq, run_single, skipText?_cons c (d :: cs)]
      cases p.skipText? [c] with
      | none => rfl
      | some q => exact ih

/-- An expression that can match only at the start of the text is tried at the first place only, and nothing is tried
    behind the last place. -/
theorem search_of_failed {e : Plain} {before after : List Char} {left : Nat} {tried' : Tried}
    (h : e.matchAt slots ⟨before, after, left⟩ tried = .failed tried') (hlast : after = [] ∨ e.opensText = true) :
    e.search slots before after left tried = none := by
  cases after with
  | nil => simp only [search, h]
  | cons => simp only [search, h, hlast.resolve_left (List.cons_ne_nil _ _), if_true]

/-- Any other expression is tried at the next place. -/
theorem search_of_passed {e : Plain} {c : Char} {before after : List Char} {left : Nat} {tried' : Tried}
    (h : e.matchAt slots ⟨before, c :: after, left⟩ tried = .failed tried') (hopens : e.opensText = false) :
    e.search slots before (c :: after) left tried = e.search slots (c :: before) after (left - 1) tried' := by
  simp only [search, h, hopens, Bool.false_eq_true, if_false]

theorem opensText_letters (cs : List Char) : (letters cs).opensText = false := by
  match cs with
  | [] | [_] | _ :: _ :: _ => rfl

end
end Plain

theorem Place.skipText?_eq (cs : List Char) (p : Place) : p.skipText? cs =
    if cs.isPrefixOf p.after then some ⟨cs.reverse ++ p.before, p.after.drop cs.length, p.left - cs.length⟩ else none := by
  fun_induction Place.skipText? cs p with
  | case1 => rfl
  | case2 c cs before d after left heq ih =>
    obtain rfl := beq_iff_eq.mp heq
    simp [ih, Nat.sub_sub, Nat.add_comm]
  | case3 c cs before d after left hne => simp [List.isPrefixOf, hne]
  | case4 => rfl

namespace Program

/-- What is reported of a search for an expression without groups, in a text of `length` characters. -/
def reported (length : Nat) (found : Option (Place × Place × Slots)) : Option Match :=
  found.map fun (first, last, slots) => Match.ofSlots length 1 ⟨length - first.left, length - last.left⟩ slots

theorem search_eq_reported (e : Plain) (failures : Nat) (text : List Char) (start : Nat) :
    (plain e 1).search failures text start =
      let place := (Place.start text).skip start
      .ok (reported text.length
        (e.search (Array.replicate 2 none) place.before place.after place.left (.none text.length))) := by
  unfold search reported
  dsimp only
  generalize e.search _ _ _ _ _ = found
  cases found <;> rfl

section
variable {p : Pattern} {text before after : List Char} {slots : Slots} {tried : Plain.Tried}

/-- The letters match at a place if the text goes on with them there. -/
theorem matchAt_letters (htext : text = before.reverse ++ after) :
    match (Plain.letters p.source.toList).matchAt slots ⟨before, after, after.length⟩ tried with
    | .found q slots' _ => Engine.literalAt p text before.length =
        some (Match.ofSlots text.length 1 ⟨before.length, text.length - q.left⟩ slots')
    | .failed _ => Engine.literalAt p text before.length = none
    | .exceeded => False := by
  have hlength : text.length = before.length + after.length := by rw [htext, List.length_append, List.length_reverse]
  have hdrop : text.drop before.length = after := by
    rw [htext, ← List.length_reverse, List.drop_left]
  rw [Plain.matchAt, Plain.run_letters, Place.skipText?_eq]
  by_cases hgoesOn : p.source.toList.isPrefixOf after = true
  · have hle : p.source.toList.length ≤ after.length := (List.isPrefixOf_iff_prefix.mp hgoesOn).length_le
    have hstop : text.length - (after.length - p.source.toList.length) = before.length + p.source.toList.length := by omega
    simp only [hgoesOn, if_true, Engine.literalAt, hdrop, hlength ▸ Nat.le_add_right before.length after.length, and_self]
    rw [hstop]
    rfl
  · simp only [hgoesOn, Bool.false_eq_true, if_false, Engine.literalAt, hdrop, and_false]

theorem search_letters (htext : text = before.reverse ++ after) :
    reported text.length ((Plain.letters p.source.toList).search slots before after after.length tried) =
      firstFrom (Engine.literalAt p text) before.length text.length := by
  induction after generalizing before tried with
  | nil =>
    have hlength : text.length = before.length := by rw [htext, List.append_nil, List.length_reverse]
    have hat := @matchAt_letters p text before [] slots tried htext
    have hpast : firstFrom (Engine.literalAt p text) (before.length + 1) text.length = none := firstFrom_of_lt (by omega)
    rw [firstFrom_step (Nat.le_of_eq hlength.symm), hpast, Option.or_none]
    split at hat
    · rename_i hfound
      rw [hat, Plain.search_of_matchAt hfound]
      simp [reported, hlength]
    · rename_i hfailed
      rw [hat, Plain.search_of_failed hfailed (Or.inl rfl)]
      rfl
    · exact hat.elim
  | cons c after ih =>
    have hlength : text.length - (c :: after).length = before.length := by
      rw [htext, List.length_append, List.length_reverse, Nat.add_sub_cancel]
    have hle : before.length ≤ text.length := hlength ▸ Nat.sub_le _ _
    have hat := @matchAt_letters p text before (c :: after) slots tried htext
    rw [firstFrom_step hle]
    split at hat
    · rename_i hfound
      rw [hat, Plain.search_of_matchAt hfound, Option.some_or]
      simp only [reported, Option.map_some, hlength]
    · rename_i tried' hfailed
      have hnext : text = (c :: before).reverse ++ after := by
        rw [htext, List.reverse_cons, List.append_assoc, List.singleton_append]
      rw [hat, Plain.search_of_passed hfailed (Plain.opensText_letters _), Option.none_or]
      exact ih hnext
    · exact hat.elim

variable {failures start : Nat}

theorem search_source (hstart : start ≤ text.length) :
    (plain (.letters p.source.toList) 1).search failures text start =
      .ok (firstFrom (Engine.literalAt p text) start text.length) := by
  have hplace : (Place.start text).skip start =
      ⟨(text.take start).reverse, text.drop start, (text.drop start).length⟩ := by
    rw [Place.start, Place.skip_eq hstart, List.append_nil, List.length_drop]
  have hbefore : (text.take start).reverse.length = start := by
    rw [List.length_reverse, List.length_take, Nat.min_eq_left hstart]
  have htext : text = (text.take start).reverse.reverse ++ text.drop start := by simp
  rw [search_eq_reported, hplace]
  dsimp only
  rw [search_letters htext, hbefore]

/-- Behind the check for the start the letters match at the start only. -/
theorem search_source_atStart :
    (plain (.seq (.assertion .textStart) (.letters p.source.toList)) 1).search failures text 0 =
      .ok (Engine.literalAt p text 0) := by
  have hseq : (Plain.seq (.assertion .textStart) (.letters p.source.toList)).matchAt (Array.replicate 2 none)
      ⟨[], text, text.length⟩ (.none text.length) =
        (Plain.letters p.source.toList).matchAt (Array.replicate 2 none) ⟨[], text, text.length⟩ (.none text.length) := rfl
  have hat := @matchAt_letters p text [] text (Array.replicate 2 none) (.none text.length) rfl
  rw [← hseq, List.length_nil] at hat
  rw [search_eq_reported]
  dsimp only [Place.skip, Place.start]
  split at hat
  · rename_i hfound
    rw [Plain.search_of_matchAt hfound, hat]
    simp only [reported, Option.map_some, Nat.sub_self]
  · rename_i hfailed
    rw [Plain.search_of_failed hfailed (Or.inr rfl), hat]
    rfl
  · exact hat.elim

end
end Program
end Regex

/-! ### The engine -/

namespace Engine

theorem bounded_compiled : compiled.Bounded where
  search _ hm := Regex.Program.span_of_search hm
  atStart hm := Regex.Program.span_of_search hm

theorem goesAhead_compiled {source flags : String} {failures : Nat} {p : Pattern}
    (h : Pattern.compile source flags failures = .ok p) (hmoves : p.program.movesStart = false) : compiled.GoesAhead p := by
  obtain ⟨-, hprogram, -⟩ := Pattern.compile_inv h
  exact fun _ _ _ hstart hm => Regex.Program.start_of_search (Regex.Program.numbered_of_compile hprogram) hmoves hstart hm

/-- For a pattern that is its source, letter by letter, the engine decides at each offset whether the source is there. -/
theorem attempts_compiled (source : String) : compiled.Attempts literalAt (.literal source) where
  span := (attempts_literal _).span
  nearby := (attempts_literal _).nearby
  search hstart h :=
    Except.ok.inj (h.symm.trans (@Regex.Program.search_source (.literal source) _ Pattern.defaultFailures _ hstart))
  atStart h :=
    Except.ok.inj (h.symm.trans (@Regex.Program.search_source_atStart (.literal source) _ Pattern.defaultFailures))

end Engine

/-- The tokenizer for compiled patterns that finds no languages. -/
def Tokenizer.compiled : Tokenizer := { language? := fun _ => none }

end Highlight
