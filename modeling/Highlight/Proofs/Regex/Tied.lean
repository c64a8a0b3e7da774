import Highlight.Proofs.Regex.Reached
import Highlight.Regex.Match

/-! A program beside the one that checks for the start of the text first. At the start both do the same; anywhere else
    the second finds nothing. -/

namespace Highlight.Regex

/-! ### The first place -/

namespace Plain

section
variable {e : Plain} {slots slots' : Slots} {before after : List Char} {left : Nat} {p q : Place} {tried : Tried}

theorem search_of_matchAt {tried' : Tried} (h : e.matchAt slots ⟨before, after, left⟩ tried = .found q slots' tried') :
    e.search slots before after left tried = some (⟨before, after, left⟩, q, slots') := by
  cases after <;> rw [search, h]

theorem search_inv (h : e.search slots before after left tried = some (p, q, slots')) (hleft : left = after.length) :
    (p = ⟨before, after, left⟩ ∧ ∃ tried', e.matchAt slots p tried = .found q slots' tried') ∨
      p.left < left ∧ e.opensText = false := by
  induction after generalizing before left tried with
  | nil =>
    rw [search] at h
    split at h
    · rename_i hfound
      cases h
      exact Or.inl ⟨rfl, _, hfound⟩
    · cases h
  | cons c after ih =>
    rw [search] at h
    split at h
    · rename_i hfound
      cases h
      exact Or.inl ⟨rfl, _, hfound⟩
    · split at h
      · cases h
      · rename_i hopens
        rw [List.length_cons] at hleft
        refine Or.inr ⟨?_, Bool.eq_false_iff.mpr hopens⟩
        rcases ih h (by omega) with ⟨rfl, -⟩ | ⟨hlt, -⟩
        · simp only
          omega
        · omega
    · cases h

end
end Plain

namespace Tree

section
variable {e : Tree} {limits : Limits} {slots slots' : Slots} {before after : List Char} {left n n' : Nat} {q : Place}

theorem search_of_matchAt (h : e.matchAt limits slots ⟨before, after, left⟩ n = .found q slots' n') :
    e.search limits slots before after left n = .found q slots' n' := by
  cases after <;> rw [search, h]
  rfl

theorem search_inv (h : e.search limits slots before after left n = .found q slots' n') (hleft : left = after.length) :
    e.matchAt limits slots ⟨before, after, left⟩ n = .found q slots' n' ∨
      e.opensText = false ∧ ∃ p m, p.left < left ∧ e.matchAt limits slots p m = .found q slots' n' := by
  induction after generalizing before left n with
  | nil =>
    rw [search] at h
    cases hrun : e.matchAt limits slots ⟨before, [], left⟩ n with
    | found =>
      rw [hrun] at h
      exact Or.inl h
    | failed m =>
      rw [hrun] at h
      unfold orElse at h
      dsimp only at h
      split at h <;> cases h
    | exceeded =>
      rw [hrun] at h
      cases h
  | cons c after ih =>
    rw [search] at h
    split at h
    · split at h
      · cases h
      · split at h
        · split at h <;> cases h
        · rename_i hopens
          rw [List.length_cons] at hleft
          refine Or.inr ⟨Bool.eq_false_iff.mpr hopens, ?_⟩
          rcases ih h (by omega) with h | ⟨-, p, m, hlt, h⟩
          · exact ⟨_, _, by simp only; omega, h⟩
          · exact ⟨p, m, by omega, h⟩
    · exact Or.inl h

end
end Tree

/-! ### Programs -/

namespace Program

/-- Whether the program can match only at the start of the text. -/
def opensText : Program → Bool
  | plain e _ => e.opensText
  | tree e _ _ => e.opensText

/-- Whether a part of the program moves the start of the match. -/
def movesStart : Program → Bool
  | plain .. => false
  | tree e _ _ => e.movesStart

/-- The match of an attempt with hard parts that ended at a place. -/
def matchOf (length groups : Nat) (last : Place) (slots : Slots) : Match :=
  let stop := length - last.left
  let start := ((Match.slotSpan? length slots 0).map (·.start)).getD stop
  Match.ofSlots length groups ⟨min start stop, stop⟩ slots

/-- The match that the attempt at the start of the text finds. -/
def attempt (failures : Nat) (text : List Char) : Program → Option Match
  | plain e groups =>
    match e.matchAt (Array.replicate (2 * groups) none) (.start text) (.none text.length) with
    | .found last slots _ => some (Match.ofSlots text.length groups ⟨0, text.length - last.left⟩ slots)
    | _ => none
  | tree e groups slots =>
    match e.matchAt ⟨failures, text.length⟩ (Array.replicate slots none) (.start text) 0 with
    | .found last slots _ => some (matchOf text.length groups last slots)
    | _ => none

section
variable {failures : Nat} {text : List Char} {m : Match}

theorem search_plain {e : Plain} {groups : Nat} (h : (plain e groups).search failures text 0 = .ok (some m)) :
    ∃ first last slots, e.search (Array.replicate (2 * groups) none) [] text text.length (.none text.length) =
        some (first, last, slots) ∧
      m = Match.ofSlots text.length groups ⟨text.length - first.left, text.length - last.left⟩ slots := by
  unfold search at h
  dsimp only [Place.skip, Place.start] at h
  split at h
  · rename_i first last slots hfound
    cases h
    exact ⟨first, last, slots, hfound, rfl⟩
  · cases h

theorem search_tree {e : Tree} {groups slots : Nat} (h : (tree e groups slots).search failures text 0 = .ok (some m)) :
    ∃ last slots' n, e.search ⟨failures, text.length⟩ (Array.replicate slots none) [] text text.length 0 =
      .found last slots' n ∧ m = matchOf text.length groups last slots' := by
  unfold search at h
  dsimp only [Place.skip, Place.start] at h
  split at h
  · rename_i last slots' n hfound
    cases h
    exact ⟨last, slots', n, hfound, rfl⟩
  · cases h
  · cases h

/-- A search finds what the attempt at the start finds. -/
theorem search_of_attempt {program : Program} (h : program.attempt failures text = some m) :
    program.search failures text 0 = .ok (some m) := by
  cases program with
  | plain e groups =>
    unfold attempt at h
    dsimp only at h
    split at h
    · rename_i last slots tried hfound
      cases h
      unfold search
      dsimp only [Place.skip, Place.start]
      rw [Plain.search_of_matchAt hfound]
      dsimp only
      rw [Nat.sub_self]
    · cases h
  | tree e groups slots =>
    unfold attempt at h
    dsimp only at h
    split at h
    · rename_i last slots' n hfound
      cases h
      unfold search
      dsimp only [Place.skip, Place.start]
      rw [Tree.search_of_matchAt hfound]
      rfl
    · cases h

/-- A match with hard parts starts where the attempt began that found it. -/
theorem start_matchOf {length groups : Nat} {e : Tree} (he : e.Numbered) (hmoves : e.movesStart = false)
    {limits : Tree.Limits} {slots slots' : Slots} (hslots : 2 ≤ slots.size) {p last : Place} {n n' : Nat}
    (h : e.matchAt limits slots p n = .found last slots' n') :
    (matchOf length groups last slots').span.start = length - p.left := by
  have hends := @Tree.ends_matchAt limits p slots e he hmoves hslots n
  rw [h] at hends
  obtain ⟨hleft, hstart, hstop⟩ := hends
  have hspan : Match.slotSpan? length slots' 0 = some ⟨length - p.left, length - last.left⟩ := by
    rw [Match.slotSpan?, hstart, hstop]
  rw [matchOf, hspan]
  exact Nat.min_eq_left (Nat.sub_le_sub_left hleft length)

theorem start_of_attempt {program : Program} (hnumbered : program.Numbered) (hmoves : program.movesStart = false)
    (h : program.attempt failures text = some m) : m.span.start = 0 := by
  unfold attempt at h
  cases program with
  | plain e groups =>
    dsimp only at h
    split at h
    · cases h
      rfl
    · cases h
  | tree e groups slots =>
    dsimp only at h
    split at h
    · rename_i hfound
      cases h
      rw [start_matchOf hnumbered.1 hmoves (by simpa using hnumbered.2) hfound]
      exact Nat.sub_self _
    · cases h

/-- A match is found by the attempt at the start, or by one that began later. -/
theorem attempt_of_search {program : Program} (h : program.search failures text 0 = .ok (some m)) :
    program.attempt failures text = some m ∨ program.opensText = false ∧
      (program.Numbered → program.movesStart = false → 0 < m.span.start) := by
  cases program with
  | plain e groups =>
    obtain ⟨first, last, slots, hfound, rfl⟩ := search_plain h
    rcases Plain.search_inv hfound rfl with ⟨rfl, tried, hat⟩ | ⟨hlt, hopens⟩
    · refine Or.inl ?_
      unfold attempt
      dsimp only [Place.start]
      rw [hat, Nat.sub_self]
    · exact Or.inr ⟨hopens, fun _ _ => Nat.sub_pos_of_lt hlt⟩
  | tree e groups slots =>
    obtain ⟨last, slots, n, hfound, rfl⟩ := search_tree h
    rcases Tree.search_inv hfound rfl with hat | ⟨hopens, p, n', hlt, hat⟩
    · refine Or.inl ?_
      unfold attempt
      dsimp only [Place.start]
      rw [hat]
    · refine Or.inr ⟨hopens, fun hnumbered hmoves => ?_⟩
      rw [start_matchOf hnumbered.1 hmoves (by simpa using hnumbered.2) hat]
      exact Nat.sub_pos_of_lt hlt

/-- The second program can match only at the start of a text, where it does as the first. -/
structure Tied (program anchored : Program) : Prop where
  opens : anchored.opensText = true
  attempt : ∀ failures text, anchored.attempt failures text = program.attempt failures text

variable {program anchored : Program} (h : Tied program anchored)
include h

theorem Tied.attempt_iff {found : Option Match} (hfound : anchored.search failures text 0 = .ok found) :
    found = some m ↔ program.attempt failures text = some m := by
  rw [← h.attempt]
  constructor
  · rintro rfl
    exact (attempt_of_search hfound).resolve_right fun hnot => by rw [h.opens] at hnot; cases hnot.1
  · intro hm
    exact Except.ok.inj (hfound.symm.trans (search_of_attempt hm))

/-- What the second program finds is what the first finds, and nothing is missing of what the first finds at the start,
    unless the first moves the start of a match. -/
theorem Tied.search {found found' : Option Match} (hnumbered : program.Numbered)
    (hfound : program.search failures text 0 = .ok found) (hfound' : anchored.search failures text 0 = .ok found') :
    (∀ m, found' = some m → found = some m) ∧
      (program.movesStart = false → ∀ m, found' = some m ↔ found = some m ∧ m.span.start = 0) := by
  have hall : ∀ m, found' = some m → found = some m := fun m hm =>
    Except.ok.inj (hfound.symm.trans (search_of_attempt ((h.attempt_iff hfound').mp hm)))
  refine ⟨hall, fun hmoves m => ⟨fun hm => ⟨hall m hm, ?_⟩, ?_⟩⟩
  · exact start_of_attempt hnumbered hmoves ((h.attempt_iff hfound').mp hm)
  · rintro ⟨rfl, hstart⟩
    refine (h.attempt_iff hfound').mpr ((attempt_of_search hfound).resolve_right fun hlater => ?_)
    exact Nat.lt_irrefl 0 (hstart ▸ hlater.2 hnumbered hmoves)

end

/-! ### Preparing the check for the start -/

theorem hard_anchored (refs : List Nat) (e : Expr) :
    ((Expr.concat [.assertion .textStart, e]).shape refs).hard = (e.shape refs).hard := by
  simp [Expr.shape, Expr.shapes, Expr.Shape.concat, Assertion.isOnWords]

theorem sequence_anchored {refs : List Nat} {e : Expr} (he : (e.shape refs).hard = true) (t : Tree) :
    Tree.sequence refs true [.assertion .textStart, e] [.assertion .textStart, t] =
      pure (.seq (.plain (.assertion .textStart) 0 0) t) := by
  have hfirst : ((Expr.shapes refs [.assertion .textStart, e]).takeWhile fun s => s.fixed && !s.hard) =
      [⟨0, true, false⟩] := by
    simp [Expr.shapes, Expr.shape, Assertion.isOnWords, he]
  have hlast : ((Expr.shapes refs [.assertion .textStart, e]).drop 1).reverse.takeWhile
      (fun s => !s.hard && (!true || s.fixed)) = [] := by
    simp [Expr.shapes, he]
  unfold Tree.sequence
  dsimp only
  rw [hfirst]
  dsimp only [List.length_cons, List.length_nil]
  rw [hlast]
  rfl

/-- What an expression with hard parts becomes behind the check for the start. -/
theorem ofExpr_anchored {refs : List Nat} {e : Expr} (he : (e.shape refs).hard = true) :
    Tree.ofExpr refs true (.concat [.assertion .textStart, e]) = (do
      let t ← Tree.ofExpr refs true e
      return .seq (.plain (.assertion .textStart) 0 0) t) := by
  have hparts : Tree.ofExprs refs true [.assertion .textStart, e] = (do
      let t ← Tree.ofExpr refs true e
      return [.assertion .textStart, t]) := by
    simp only [Tree.ofExprs, Tree.ofExpr, bind_assoc, pure_bind]
  have heasy : (!true && !((Expr.concat [.assertion .textStart, e]).shape refs).hard) = false := rfl
  rw [Tree.ofExpr, heasy, if_neg Bool.false_ne_true, hparts]
  simp only [bind_assoc, pure_bind, sequence_anchored he]

theorem build_anchored {e : Expr} {t : Plain} (h : Plain.build (Plain.ofExpr e) = .ok t) :
    Plain.build (Plain.ofExpr (.concat [.assertion .textStart, e])) = .ok (.seq (.assertion .textStart) t) := by
  have hparts : Plain.ofExpr (.concat [.assertion .textStart, e]) = (do
      let t ← Plain.ofExpr e
      return .seq (.assertion .textStart) t) := by
    simp only [Plain.ofExpr, Plain.ofExprs, bind_assoc, pure_bind, Plain.ofList]
  unfold Plain.build at h ⊢
  rw [hparts, StateT.run_bind]
  cases hrun : (Plain.ofExpr e).run ⟨0, 0⟩ with
  | error => rw [hrun] at h; cases h
  | ok found =>
    rw [hrun] at h
    cases h
    rfl

theorem one_le_groupCount (e : Plain) : 1 ≤ e.groupCount := by
  induction e with
  | empty | one | assertion => exact Nat.le_refl 1
  | seq a b ih | alt _ a b ih => exact Nat.le_trans ih (Nat.le_max_left _ _)
  | group index body ih => exact Nat.le_trans ih (Nat.le_max_right _ _)
  | loop _ body _ ih => exact ih

theorem tied_ofParsed {e : Expr} {groups : Nat} {refs : List Nat} {program anchored : Program}
    (h : ofParsed ⟨e, groups, refs⟩ = .ok program)
    (h' : ofParsed ⟨.ofParts (.assertion .textStart :: if e.isEmpty then [] else [e]), groups, refs⟩ = .ok anchored) :
    Tied program anchored := by
  cases hempty : e.isEmpty with
  | true =>
    -- Of an empty pattern only the check for the start is left, which succeeds where the empty pattern does.
    obtain rfl : e = .empty := by cases e <;> first | rfl | cases hempty
    cases h
    cases h'
    exact ⟨rfl, fun _ _ => rfl⟩
  | false =>
    rw [hempty] at h'
    replace h' : ofParsed ⟨.concat [.assertion .textStart, e], groups, refs⟩ = .ok anchored := h'
    rcases ofParsed_cases h with ⟨hhard, t, slots, hrun, rfl⟩ | ⟨hhard, t, hbuild, rfl⟩
    · rcases ofParsed_cases h' with ⟨-, t', slots', hrun', rfl⟩ | ⟨hhard', -⟩
      · dsimp only at hrun'
        rw [ofExpr_anchored hhard, StateT.run_bind, hrun] at hrun'
        cases hrun'
        exact ⟨rfl, fun _ _ => rfl⟩
      · rw [hard_anchored, hhard] at hhard'
        cases hhard'
    · rcases ofParsed_cases h' with ⟨hhard', -⟩ | ⟨-, t', hbuild', rfl⟩
      · rw [hard_anchored, hhard] at hhard'
        cases hhard'
      · obtain rfl : t' = .seq (.assertion .textStart) t := Except.ok.inj (hbuild'.symm.trans (build_anchored hbuild))
        have hcount : (Plain.seq (.assertion .textStart) t).groupCount = t.groupCount :=
          Nat.max_eq_right (one_le_groupCount t)
        rw [hcount]
        exact ⟨rfl, fun _ _ => rfl⟩

end Program
end Highlight.Regex
