import Highlight.Proofs.Regex.Groups

/-! Atoms, branches and whole patterns within a group. -/

namespace Highlight.Regex.Parser

open State

/-- What is read takes some of the text, and its groups are counted from one on. -/
def Takes (s : State) (found : Option Expr) (s' : State) : Prop :=
  ∀ e, found = some e → e.Numbered ∧ s'.rest.length < s.rest.length

/-- The groups of all parts are counted from one on. -/
abbrev NumberedParts : List Expr → State → Prop := fun es _ => ∀ e ∈ es, e.Numbered

/-- A reader for the groups inside is followed, also where the second reader may read none, if it may find them nested
    too deep. -/
def FollowsAny (w : Wrapping) (inner inner' : Option (Parser Expr)) : Prop :=
  ∀ p, inner = some p → FollowsInside w p (inner'.getD (throw .tooDeep)) ∧ (inner' = none → w.limited = true)

section
variable {w : Wrapping} {s : State} {tail : List Char} {inner inner' : Option (Parser Expr)}

theorem follows_atom (hinner : FollowsAny w inner inner') :
    Follows w (Takes s) (atom inner) (atom inner') s tail := by
  refine .gap fun s₁ tail₁ hk₁ hdry => .flags (.rest ?_)
  rcases hs : s₁.rest with _ | ⟨c, cs⟩
  · have hnone : Takes s none s₁ := fun _ h => nomatch h
    rcases hdry hs with rfl | rfl <;> exact .pure hnone
  · have hcs : cs <:+ s₁.rest := hs ▸ List.suffix_cons c cs
    have hlt : cs.length < s.rest.length := Nat.lt_of_lt_of_le (by rw [hs]; exact Nat.lt_succ_self _) hk₁.rest.length_le
    have htaken : ∀ {e : Expr} {s' : State} {tail' : List Char}, e.Numbered → s'.rest <:+ cs →
        Follows w (Takes s) (pure (some e)) (pure (some e)) s' tail' := by
      intro e s' tail' he hs'
      refine .pure ?_
      rintro e' ⟨⟩
      exact ⟨he, Nat.lt_of_le_of_lt hs'.length_le hlt⟩
    simp only [List.cons_append]
    split
    · exact .setRest hcs (htaken nofun List.suffix_rfl)
    · exact .setRest hcs (htaken nofun List.suffix_rfl)
    · exact .setRest hcs (htaken nofun List.suffix_rfl)
    · refine .setRest hcs ?_
      cases inner with
      | none => exact .of_error rfl
      | some p =>
        have hread : ∀ q, FollowsInside w p q →
            Follows w (Takes s) (do return some (← group p)) (do return some (← group q))
            { s₁ with rest := cs } tail₁ := fun q hq =>
          .bind (follows_group hq) fun e _ _ hk he => htaken he hk.rest
        cases inner' with
        | none => exact (hread _ (hinner p rfl).1).tooDeep ((hinner p rfl).2 rfl)
        | some q => exact hread q (hinner p rfl).1
    · refine .setRest hcs (.bind follows_escape fun e s₂ tail₂ hk₂ he => ?_)
      cases e with
      | expr e => exact htaken (he e rfl) hk₂.rest
      | backref n =>
        have hk : Kept s₂ { s₂ with refs := n :: s₂.refs } := ⟨List.suffix_rfl, rfl, fun _ => rfl⟩
        exact .step hk (·.kept hk) rfl rfl (htaken nofun hk₂.rest)
      | char => exact htaken nofun hk₂.rest
      | set => exact htaken nofun hk₂.rest
    · exact .pure nofun
    · exact .pure nofun
    · exact .pure nofun
    · exact .pure nofun
    · exact .pure nofun
    · refine .setRest hcs (.bind follows_bracketed fun e s₂ tail₂ hk₂ he => ?_)
      exact htaken he hk₂.rest
    · exact .setRest hcs (htaken nofun List.suffix_rfl)

theorem follows_piece (hinner : FollowsAny w inner inner') :
    Follows w (Takes s) (piece inner) (piece inner') s tail := by
  refine .bind (follows_atom hinner) fun found s₁ tail₁ hk₁ hfound => .gap fun s₂ tail₂ hk₂ hdry => ?_
  cases found with
  | some e =>
    obtain ⟨he, hlt⟩ := hfound e rfl
    refine .bind (follows_quantified he) fun e' s₃ tail₃ hk₃ he' => .pure ?_
    rintro e'' ⟨⟩
    exact ⟨he', Nat.lt_of_le_of_lt (hk₂.trans hk₃).rest.length_le hlt⟩
  | none =>
    refine .rest ?_
    rcases hs : s₂.rest with _ | ⟨c, cs⟩
    · have hnone : Takes s none s₂ := fun _ h => nomatch h
      rcases hdry hs with rfl | rfl <;> exact .pure hnone
    · by_cases hquantifier : c ∈ ['?', '*', '+']
      · simp only [List.mem_cons, List.not_mem_nil, or_false] at hquantifier
        rcases hquantifier with rfl | rfl | rfl <;> exact .of_error rfl
      · simp only [List.mem_cons, List.not_mem_nil, or_false, not_or] at hquantifier
        simp only [List.cons_append, List.cons.injEq, hquantifier, false_and, imp_self, implies_true]
        exact .pure nofun

theorem follows_pieces (hinner : FollowsAny w inner inner') {fuel fuel' : Nat} (hfuel : s.rest.length < fuel)
    (hfuel' : s.rest.length < fuel') : Follows w NumberedParts (pieces inner fuel) (pieces inner' fuel') s tail := by
  induction fuel generalizing fuel' s tail with
  | zero => cases hfuel
  | succ fuel ih =>
    cases fuel' with
    | zero => cases hfuel'
    | succ fuel' =>
      refine .bind (follows_piece hinner) fun found s₁ tail₁ _ hfound => ?_
      cases found with
      | none => exact .pure nofun
      | some e =>
        obtain ⟨he, hlt⟩ := hfound e rfl
        refine .bind (ih (by omega) (by omega)) fun es s₂ tail₂ _ hes => .pure ?_
        split
        · exact hes
        · exact List.forall_mem_cons.mpr ⟨he, hes⟩

theorem numbered_ofParts {es : List Expr} (h : ∀ e ∈ es, e.Numbered) : (Expr.ofParts es).Numbered := by
  intro i hi
  match es, h with
  | [], _ => cases hi
  | [e], h => exact h e List.mem_cons_self i hi
  | e :: e' :: es, h =>
    obtain ⟨e'', hmem, hi⟩ := Expr.mem_groupsOf.mp hi
    exact h e'' hmem i hi

theorem follows_branch (hinner : FollowsAny w inner inner') :
    Follows w NumberedExpr (branch inner) (branch inner') s tail := by
  refine .rest (.map (follows_pieces hinner (Nat.lt_succ_self _) ?_) fun es _ hes => numbered_ofParts hes)
  rw [List.length_append]
  omega

theorem follows_branches (hinner : FollowsAny w inner inner') {fuel fuel' : Nat} (hfuel : s.rest.length < fuel)
    (hfuel' : s.rest.length < fuel') :
    Follows w NumberedParts (branches inner fuel) (branches inner' fuel') s tail := by
  induction fuel generalizing fuel' s tail with
  | zero => cases hfuel
  | succ fuel ih =>
    cases fuel' with
    | zero => cases hfuel'
    | succ fuel' =>
      have hnone : ∀ {s : State}, NumberedParts [] s := nofun
      refine .of_trailing fun htail => .rest ?_
      rcases hs : s.rest with _ | ⟨c, cs⟩
      · rcases suffix_closing htail.suffix with rfl | rfl | ⟨-, rfl⟩ <;> exact .pure hnone
      · by_cases hbar : c = '|'
        · subst hbar
          rw [hs, List.length_cons] at hfuel hfuel'
          refine .setRest (hs ▸ List.suffix_cons _ _) (.bind (follows_branch hinner) fun e s₁ tail₁ hk₁ he => ?_)
          refine .gap fun s₂ tail₂ hk₂ _ => ?_
          have hle : s₂.rest.length ≤ cs.length := (hk₁.trans hk₂).rest.length_le
          exact .bind (ih (by omega) (by omega)) fun es _ _ _ hes => .pure (List.forall_mem_cons.mpr ⟨he, hes⟩)
        · simp only [List.cons_append, List.cons.injEq, hbar, false_and, imp_self, implies_true]
          exact .pure hnone

/-- Reads a list of branches, the first of at most `fuel` pieces. -/
def alternationFrom (inner : Option (Parser Expr)) (fuel : Nat) : Parser Expr := do
  let first := Expr.ofParts (← pieces inner fuel)
  gap
  match ← branches inner ((← rest).length + 1) with
  | [] =>
    let s ← get
    if s.numbered && !s.names.isEmpty then throw .mixedBackrefs
    return first
  | others => return .alt (first :: others)

theorem alternation_eq (inner : Option (Parser Expr)) : alternation inner = (do
    let cs ← rest
    alternationFrom inner (cs.length + 1)) := by
  refine (bind_assoc _ _ _).trans (congrArg (rest >>= ·) (funext fun cs => ?_))
  refine (bind_assoc _ _ _).trans (congrArg (pieces inner (cs.length + 1) >>= ·) (funext fun es => ?_))
  exact pure_bind _ _

theorem follows_alternationFrom (hinner : FollowsAny w inner inner') {fuel fuel' : Nat} (hfuel : s.rest.length < fuel)
    (hfuel' : s.rest.length < fuel') :
    Follows w NumberedExpr (alternationFrom inner fuel) (alternationFrom inner' fuel') s tail := by
  refine .bind (follows_pieces hinner hfuel hfuel') fun es s₁ tail₁ _ hes => .gap fun s₂ tail₂ _ _ => .rest ?_
  refine .bind (follows_branches hinner (Nat.lt_succ_self _) ?_) fun others s₃ tail₃ _ hothers => ?_
  · rw [List.length_append]
    omega
  · have hfirst := numbered_ofParts hes
    cases others with
    | nil => exact .get (.ite (fun _ => .of_error rfl) fun _ => .pure hfirst)
    | cons e es =>
      refine .pure fun i hi => ?_
      obtain ⟨e', hmem, hi⟩ := Expr.mem_groupsOf.mp hi
      exact List.forall_mem_cons.mpr ⟨hfirst, hothers⟩ e' hmem i hi

/-- A reader of patterns is followed by that for any other depth of groups, if it may find them nested too deep or the
    depth is no smaller. -/
theorem follows_pattern {depth depth' : Nat} (hlimited : w.limited = true ∨ depth ≤ depth') :
    Follows w NumberedExpr (pattern depth) (pattern depth') s tail := by
  -- The induction is on the depth that the first reader may use; where the second may use none, it gives up.
  induction depth generalizing depth' s tail with
  | zero => exact .throw
  | succ depth ih =>
    have hsucc : ∀ {depth'}, w.limited = true ∨ depth ≤ depth' →
        Follows w NumberedExpr (pattern (depth + 1)) (pattern (depth' + 1)) s tail := by
      intro depth' hlimited
      have hinner : FollowsAny w (if depth == 0 then none else some (pattern depth))
          (if depth' == 0 then none else some (pattern depth')) := by
        intro p hp
        have hdepth' : (if depth' == 0 then none else some (pattern depth')).getD (throw .tooDeep) =
            pattern depth' := by
          cases depth' <;> rfl
        rw [hdepth']
        cases depth with
        | zero => cases hp
        | succ depth =>
          obtain rfl := Option.some.inj hp
          refine ⟨fun s tail => ih hlimited, fun hnone => hlimited.resolve_right ?_⟩
          cases depth' with
          | zero => exact Nat.not_succ_le_zero depth
          | succ depth' => cases hnone
      rw [pattern, pattern, alternation_eq, alternation_eq]
      refine .rest (follows_alternationFrom hinner (Nat.lt_succ_self _) ?_)
      rw [List.length_append]
      omega
    cases depth' with
    | zero =>
      have hlimited : w.limited = true := hlimited.resolve_right (Nat.not_succ_le_zero depth)
      exact (@hsucc 0 (Or.inl hlimited)).tooDeep hlimited
    | succ depth' => exact hsucc (hlimited.imp_right Nat.le_of_succ_le_succ)

end
end Highlight.Regex.Parser
