import Highlight.Proofs.Regex.Escapes

/-! Quantifiers, groups, branches and whole patterns within a group. The readers for them are followed by themselves,
    with readers for the groups inside that may nest less deeply. -/

namespace Highlight.Regex.Parser

open State

section
variable {w : Wrapping} {s : State} {tail : List Char}

/-! ### Quantifiers -/

/-- The bounds of the quantifier that a text begins with, and the text behind it. -/
def quantifier? (verbose : Bool) (cs : List Char) : Option (Nat × Option Nat × List Char) :=
  match cs with
  | '?' :: cs => some (0, some 1, cs)
  | '*' :: cs => some (0, none, cs)
  | '+' :: cs => some (1, none, cs)
  | '\x7b' :: _ => bounds? verbose cs
  | _ => none

theorem quantifier?_append {verbose : Bool} (htail : tail <:+ closing w.lineEnd) (cs : List Char) :
    quantifier? verbose (cs ++ tail) = (quantifier? verbose cs).map (addTo tail) := by
  rcases cs with _ | ⟨c, cs⟩
  · rcases suffix_closing htail with rfl | rfl | ⟨-, rfl⟩ <;> rfl
  · have hbounds : bounds? verbose (c :: cs ++ tail) = (bounds? verbose (c :: cs)).map (addTo tail) :=
      bounds?_append htail (c :: cs)
    by_cases hbrace : c = '\x7b'
    · subst hbrace
      exact hbounds
    · by_cases hone : c ∈ ['?', '*', '+']
      · simp only [List.mem_cons, List.not_mem_nil, or_false] at hone
        rcases hone with rfl | rfl | rfl <;> rfl
      · simp only [List.mem_cons, List.not_mem_nil, or_false, not_or] at hone
        simp [quantifier?, hbrace, hone]

theorem suffix_of_quantifier? {verbose : Bool} {cs : List Char} {b : Nat × Option Nat × List Char}
    (h : quantifier? verbose cs = some b) : b.2.2 <:+ cs := by
  unfold quantifier? at h
  split at h
  · cases h
    exact List.suffix_cons _ _
  · cases h
    exact List.suffix_cons _ _
  · cases h
    exact List.suffix_cons _ _
  · exact suffix_of_bounds? h
  · cases h

/-- Reads the plus that keeps a repetition from giving back what it has taken. -/
def possessive (e : Expr) : Parser Expr := do
  match ← rest with
  | '+' :: cs => setRest cs; return .atomic e
  | _ => return e

/-- Reads what may come behind the bounds of a quantifier. -/
def quantifierEnd (atom : Expr) (least : Nat) (most : Option Nat) (swapGreed : Bool) (cs : List Char) :
    Parser Expr := do
  setRest cs
  gap
  match ← rest with
  | '?' :: cs => setRest cs; possessive (.repeated atom least most (true == swapGreed))
  | _ => possessive (.repeated atom least most (false == swapGreed))

theorem quantified_eq (atom : Expr) : quantified atom = (do
    let s ← get
    match quantifier? s.flags.verbose s.rest with
    | none => return atom
    | some (least, most, cs) => do
      if !atom.isRepeatable then throw .nothingToRepeat
      quantifierEnd atom least most s.flags.swapGreed cs) := by
  rfl

theorem follows_possessive {e : Expr} (he : e.Numbered) :
    Follows w NumberedExpr (possessive e) (possessive e) s tail := by
  refine .of_bound fun _ htail => .rest ?_
  rcases hs : s.rest with _ | ⟨c, cs⟩
  · rcases suffix_closing htail with rfl | rfl | ⟨-, rfl⟩ <;> exact .pure he
  · by_cases hplus : c = '+'
    · subst hplus
      exact .setRest (hs ▸ List.suffix_cons _ _) (.pure he)
    · simp only [List.cons_append, List.cons.injEq, hplus, false_and, imp_self, implies_true]
      exact .pure he

theorem follows_quantifierEnd {atom : Expr} {least : Nat} {most : Option Nat} {swapGreed : Bool} {cs : List Char}
    (hatom : atom.Numbered) (hcs : cs <:+ s.rest) : Follows w NumberedExpr (quantifierEnd atom least most swapGreed cs)
      (quantifierEnd atom least most swapGreed (cs ++ tail)) s tail := by
  have hrepeated : ∀ {greedy : Bool}, (Expr.repeated atom least most greedy).Numbered := hatom
  refine .setRest hcs (.gap fun s' tail' _ _ => .of_bound fun _ htail => .rest ?_)
  rcases hs : s'.rest with _ | ⟨c, cs⟩
  · rcases suffix_closing htail with rfl | rfl | ⟨-, rfl⟩ <;> exact follows_possessive hrepeated
  · by_cases hlazy : c = '?'
    · subst hlazy
      exact .setRest (hs ▸ List.suffix_cons _ _) (follows_possessive hrepeated)
    · simp only [List.cons_append, List.cons.injEq, hlazy, false_and, imp_self, implies_true]
      exact follows_possessive hrepeated

theorem follows_quantified {atom : Expr} (hatom : atom.Numbered) :
    Follows w NumberedExpr (quantified atom) (quantified atom) s tail := by
  rw [quantified_eq]
  refine .of_bound fun _ htail => .get ?_
  simp only [extend, quantifier?_append htail]
  cases hquantifier : quantifier? s.flags.verbose s.rest with
  | none => exact .pure hatom
  | some found =>
    exact .ite (fun _ => .of_error rfl) fun _ => follows_quantifierEnd hatom (suffix_of_quantifier? hquantifier)

/-! ### Groups -/

theorem follows_closeGroup : Follows w AnyValue closeGroup closeGroup s tail := by
  refine .gap fun s' tail' _ _ => .rest ?_
  rcases hs : s'.rest with _ | ⟨c, cs⟩
  · exact .of_error rfl
  · by_cases hclose : c = ')'
    · subst hclose
      have hk : Kept s' { s' with rest := cs } := ⟨hs ▸ List.suffix_cons _ _, rfl, fun _ => rfl⟩
      exact .step (f := pure ()) (g := pure ()) hk (·.kept hk) rfl rfl .value
    · simp only [List.cons_append, List.cons.injEq, hclose, false_and, imp_self, implies_true]
      exact .throw

theorem follows_newGroup : Follows w (fun n _ => 0 < n) newGroup newGroup s tail := by
  have hk : Kept s { s with groups := s.groups + 1 } := ⟨List.suffix_rfl, rfl, fun _ => rfl⟩
  exact .step (f := pure (s.groups + 1)) (g := pure (s.groups + 1)) hk (·.kept hk) rfl rfl (.pure (Nat.succ_pos _))

theorem follows_newNamedGroup {opening close : List Char} :
    Follows w (fun n _ => 0 < n) (newNamedGroup opening close) (newNamedGroup opening close) s tail := by
  refine .bind follows_newGroup fun index s' tail' _ hindex => .of_bound fun _ htail => .rest ?_
  cases hname : name? opening close s'.rest with
  | none => exact .throw
  | some found =>
    obtain ⟨name, cs⟩ := found
    obtain ⟨hcs, hname'⟩ := name?_append htail hname
    simp only [hname']
    refine .setRest hcs ?_
    have hk : Kept { s' with rest := cs } { s' with rest := cs, names := (name, index) :: s'.names } :=
      ⟨List.suffix_rfl, rfl, fun _ => rfl⟩
    exact .step (f := pure index) (g := pure index) hk (·.kept hk) rfl rfl (.pure hindex)

/-- Every reader for the groups inside is followed. -/
def FollowsInside (w : Wrapping) (inner inner' : Parser Expr) : Prop :=
  ∀ s tail, Follows w NumberedExpr inner inner' s tail

variable {inner inner' : Parser Expr}

/-- Reads the end of a group with modes of its own, and returns to the modes around it. -/
def closeFlags (old : Flags) (body : Expr) : Parser Expr := do
  match ← rest with
  | ')' :: cs =>
    setRest cs
    setFlags old
    return body
  | _ => throw .unclosedGroup

theorem follows_closeFlags {old : Flags} {body : Expr} (hbody : body.Numbered) :
    Follows w NumberedExpr (closeFlags old body) (closeFlags old body) s tail := by
  refine .rest ?_
  rcases hs : s.rest with _ | ⟨c, cs⟩
  · exact .of_error rfl
  · by_cases hclose : c = ')'
    · subst hclose
      have hk : Kept s { s with rest := cs, flags := old } :=
        ⟨hs ▸ List.suffix_cons _ _, rfl, fun h => by rw [hs] at h; cases h⟩
      exact .step (f := pure body) (g := pure body) hk (·.kept hk) rfl rfl (.pure hbody)
    · simp only [List.cons_append, List.cons.injEq, hclose, false_and, imp_self, implies_true]
      exact .throw

theorem follows_flagGroup_go (hinner : FollowsInside w inner inner') {old : Flags} {start fuel fuel' : Nat}
    (hle : fuel ≤ fuel') {negated : Bool} :
    Follows w NumberedExpr (flagGroup.go inner old start fuel negated)
      (flagGroup.go inner' old (start + (closing w.lineEnd).length) fuel' negated) s tail := by
  induction fuel generalizing fuel' negated s tail with
  | zero => exact .throw
  | succ fuel ih =>
    cases fuel' with
    | zero => cases hle
    | succ fuel' =>
      have ih' := fun {negated : Bool} {s : State} {tail : List Char} =>
        @ih s tail fuel' (Nat.le_of_succ_le_succ hle) negated
      refine .gap fun s₁ tail₁ _ _ => .of_trailing fun htail => .flags (.rest ?_)
      rcases hs : s₁.rest with _ | ⟨c, cs⟩
      · exact .of_error rfl
      · obtain rfl := htail.whole (by rw [hs]; exact List.cons_ne_nil c cs)
        have hcs : cs <:+ s₁.rest := hs ▸ List.suffix_cons c cs
        -- Modes are counted by how much is left of the text, to which the closing text adds on both sides.
        have htaken : start + (closing w.lineEnd).length - ((cs ++ closing w.lineEnd).length + 1) =
            start - (cs.length + 1) := by
          rw [List.length_append]
          omega
        simp only [List.cons_append, htaken]
        by_cases hflag : c ∈ ['i', 'm', 's', 'U', 'x']
        · have hk : ∀ f : Flags, Kept s₁ { s₁ with rest := cs, flags := f } := fun f =>
            ⟨hcs, rfl, fun h => by rw [hs] at h; cases h⟩
          simp only [List.mem_cons, List.not_mem_nil, or_false] at hflag
          rcases hflag with rfl | rfl | rfl | rfl | rfl <;> exact .step (hk _) (·.kept (hk _)) rfl rfl ih'
        · refine .setRest hcs ?_
          split <;> first | exact absurd (by decide) hflag | skip
          · exact .ite (fun _ => .throw) fun _ => ih'
          · exact .ite (fun _ => .throw) fun _ => ih'
          · exact .ite (fun _ => .throw) fun _ => .pure fun i hi => nomatch hi
          · exact .ite (fun _ => .of_error rfl) fun _ =>
              .bind (hinner _ _) fun body s₂ tail₂ _ hbody => follows_closeFlags hbody
          · exact .throw

theorem follows_flagGroup (hinner : FollowsInside w inner inner') :
    Follows w NumberedExpr (flagGroup inner) (flagGroup inner') s tail := by
  refine .of_trailing fun htail => .flags (.rest ?_)
  rcases hs : s.rest with _ | ⟨c, cs⟩
  · refine @Follows.of_error _ _ _ _ _ .unclosedGroup _ _ ?_
    rw [flagGroup.go, run_gap_bind, hs]
    rfl
  · obtain rfl := htail.whole (by rw [hs]; exact List.cons_ne_nil c cs)
    rw [List.length_append]
    exact follows_flagGroup_go hinner (by omega)

/-- What a conditional group asks for. -/
def conditionOf : Expr → Expr
  | .backref n => .groupMatched n
  | e => e

/-- The branches of a conditional group, for when its condition holds and for when it does not. -/
def branchesOf : Expr → Expr × Expr
  | .alt (first :: rest) => (first, match rest with
    | [second] => second
    | rest => Expr.alt rest)
  | e => (e, .empty)

/-- Reads a conditional group behind its condition. -/
def conditionalBody (inner : Parser Expr) (condition : Expr) : Parser Expr := do
  closeGroup
  let here := (← rest).length
  let body ← inner
  if (← rest).length == here then
    match condition with
    | .groupMatched _ =>
      closeGroup
      return condition
    | _ => throw .invalidCondition
  closeGroup
  let (ifTrue, ifFalse) := branchesOf body
  if ifTrue.isEmpty && ifFalse.isEmpty then return condition
  else return .conditional condition ifTrue ifFalse

theorem conditional_eq (inner : Parser Expr) : conditional inner = (do
    match ← rest with
    | [] => throw .unclosedGroup
    | '\'' :: _ => conditionalBody inner (.groupMatched (← namedGroup ['\''] ['\''] true))
    | '<' :: _ => conditionalBody inner (.groupMatched (← namedGroup ['<'] ['>'] true))
    | c :: _ =>
      if c.isDigit then conditionalBody inner (.groupMatched (← numberedGroup))
      else conditionalBody inner (conditionOf (← inner))) := by
  rfl

theorem numbered_conditionOf {e : Expr} (he : e.Numbered) : (conditionOf e).Numbered := by
  cases e <;> exact he

theorem numbered_branchesOf {e : Expr} (he : e.Numbered) : (branchesOf e).1.Numbered ∧ (branchesOf e).2.Numbered := by
  have hempty : Expr.empty.Numbered := fun i hi => nomatch hi
  unfold branchesOf
  split
  · rename_i first rest
    have hfirst : first.Numbered := fun i hi => he i (List.mem_append_left _ hi)
    have hrest : (Expr.alt rest).Numbered := fun i hi => he i (List.mem_append_right _ hi)
    refine ⟨hfirst, ?_⟩
    dsimp only
    split
    · exact fun i hi => hrest i (List.mem_append_left _ hi)
    · exact hrest
  · exact ⟨he, hempty⟩

theorem follows_of_closeGroup {α : Type} {P : α → State → Prop} {f : Unit → Parser α} {q : Parser α}
    (hs : s.rest = []) : Follows w P (closeGroup >>= f) q s tail := by
  refine @Follows.of_error _ _ _ _ _ .unclosedGroup _ _ ?_
  rw [closeGroup, bind_assoc, run_gap_bind, hs]
  rfl

theorem follows_conditionalBody (hinner : FollowsInside w inner inner') {condition : Expr}
    (hcondition : condition.Numbered) :
    Follows w NumberedExpr (conditionalBody inner condition) (conditionalBody inner' condition) s tail := by
  refine .bind follows_closeGroup fun _ s₁ tail₁ _ _ => .of_trailing fun htail₁ => .rest ?_
  refine .bind (hinner _ _) fun body s₂ tail₂ hk hbody => .of_trailing fun htail₂ => .rest ?_
  cases hs : s₂.rest with
  | nil =>
    -- The group is not closed, whether there is a branch or not.
    by_cases hnone : ([] : List Char).length == s₁.rest.length
    · rw [if_pos hnone]
      split
      · exact follows_of_closeGroup hs
      · exact .of_error rfl
    · rw [if_neg hnone]
      exact follows_of_closeGroup hs
  | cons c cs =>
    obtain rfl := htail₂.whole (by rw [hs]; exact List.cons_ne_nil c cs)
    obtain rfl := htail₁.whole (mt hk.rest_nil (by rw [hs]; exact List.cons_ne_nil c cs))
    -- That there are no branches is told by how much is left, to which the closing text adds on both sides.
    have hlength : ((c :: cs ++ closing w.lineEnd).length == (s₁.rest ++ closing w.lineEnd).length) =
        ((c :: cs).length == s₁.rest.length) := by
      rw [Bool.eq_iff_iff, beq_iff_eq, beq_iff_eq, List.length_append, List.length_append, Nat.add_right_cancel_iff]
    simp only [hlength]
    obtain ⟨htrue, hfalse⟩ := numbered_branchesOf hbody
    refine .ite (fun _ => ?_) fun _ => ?_
    · split
      · exact .bind follows_closeGroup fun _ _ _ _ _ => .pure hcondition
      · exact .of_error rfl
    · refine .bind follows_closeGroup fun _ _ _ _ _ => .ite (fun _ => .pure hcondition) fun _ => .pure fun i hi => ?_
      rcases List.mem_append.mp hi with hi | hi
      · exact (List.mem_append.mp hi).elim (hcondition i) (htrue i)
      · exact hfalse i hi

theorem follows_conditional (hinner : FollowsInside w inner inner') :
    Follows w NumberedExpr (conditional inner) (conditional inner') s tail := by
  have hmatched : ∀ {p : Parser Nat} {s : State} {tail : List Char}, Follows w AnyValue p p s tail →
      Follows w NumberedExpr (do conditionalBody inner (.groupMatched (← p)))
        (do conditionalBody inner' (.groupMatched (← p))) s tail :=
    fun hp => hp.bind fun n _ _ _ _ => follows_conditionalBody hinner fun i hi => nomatch hi
  rw [conditional_eq, conditional_eq]
  refine .rest ?_
  rcases hs : s.rest with _ | ⟨c, cs⟩
  · exact .of_error rfl
  · by_cases hquote : c = '\''
    · subst hquote
      exact hmatched (follows_namedGroup fun _ => by simp)
    · by_cases hangle : c = '<'
      · subst hangle
        exact hmatched (follows_namedGroup fun _ => by simp)
      · simp only [List.cons_append]
        refine .ite (fun _ => hmatched follows_numberedGroup) fun _ => ?_
        exact .bind (hinner _ _) fun e _ _ _ he => follows_conditionalBody hinner (numbered_conditionOf he)

/-- Reads the inside of a group and its closing parenthesis. -/
def groupBody (inner : Parser Expr) (wrap : Expr → Expr) : Parser Expr := do
  let e ← inner
  closeGroup
  return wrap e

theorem follows_groupBody (hinner : FollowsInside w inner inner') {wrap : Expr → Expr}
    (hwrap : ∀ e, e.Numbered → (wrap e).Numbered) :
    Follows w NumberedExpr (groupBody inner wrap) (groupBody inner' wrap) s tail :=
  .bind (hinner _ _) fun e _ _ _ he => .bind follows_closeGroup fun _ _ _ _ _ => .pure (hwrap e he)

theorem follows_indexed (hinner : FollowsInside w inner inner') {p : Parser Nat}
    (hp : Follows w (fun n _ => 0 < n) p p s tail) :
    Follows w NumberedExpr (do groupBody inner (.group (← p))) (do groupBody inner' (.group (← p))) s tail :=
  hp.bind fun _ _ _ _ hn => follows_groupBody hinner fun _ he i hi => (List.mem_cons.mp hi).elim (· ▸ hn) (he i)

theorem follows_group (hinner : FollowsInside w inner inner') :
    Follows w NumberedExpr (group inner) (group inner') s tail := by
  refine .gap fun s₁ tail₁ _ hdry => .of_trailing fun htail => .rest ?_
  rcases hs : s₁.rest with _ | ⟨c, cs⟩
  · rcases hdry hs with rfl | rfl <;> exact follows_indexed hinner follows_newGroup
  · by_cases hopen : c = '?'
    · subst hopen
      rcases cs with _ | ⟨d, cs⟩
      · have hnil : [] <:+ s₁.rest := List.nil_suffix
        rcases suffix_closing htail.suffix with rfl | rfl | ⟨-, rfl⟩ <;>
          exact .setRest hnil (follows_flagGroup hinner)
      · have hcs : cs <:+ s₁.rest := hs ▸ (List.suffix_cons d cs).trans (List.suffix_cons _ _)
        have hcs' : d :: cs <:+ s₁.rest := hs ▸ List.suffix_cons _ _
        have hsame : ∀ e : Expr, e.Numbered → e.Numbered := fun _ he => he
        by_cases hplain : d ∈ ['=', '!', '>']
        · simp only [List.mem_cons, List.not_mem_nil, or_false] at hplain
          rcases hplain with rfl | rfl | rfl <;> exact .setRest hcs (follows_groupBody hinner hsame)
        simp only [List.mem_cons, List.not_mem_nil, or_false, not_or] at hplain
        obtain ⟨hequal, hnot, hatomic⟩ := hplain
        by_cases hcondition : d = '('
        · subst hcondition
          exact .setRest hcs (follows_conditional hinner)
        by_cases hquote : d = '\''
        · subst hquote
          exact .setRest hcs' (follows_indexed hinner follows_newNamedGroup)
        by_cases hangle : d = '<'
        · subst hangle
          rcases cs with _ | ⟨e, cs⟩
          · rcases suffix_closing htail.suffix with rfl | rfl | ⟨-, rfl⟩ <;>
              exact .setRest hcs' (follows_indexed hinner follows_newNamedGroup)
          · by_cases hbehind : e ∈ ['=', '!']
            · simp only [List.mem_cons, List.not_mem_nil, or_false] at hbehind
              have hbody := (List.suffix_cons e cs).trans hcs
              rcases hbehind with rfl | rfl <;> exact .setRest hbody (follows_groupBody hinner hsame)
            · simp only [List.mem_cons, List.not_mem_nil, or_false, not_or] at hbehind
              simp only [List.cons_append, List.cons.injEq, hbehind, false_and, imp_self, implies_true]
              exact .setRest hcs' (follows_indexed hinner follows_newNamedGroup)
        by_cases hp : d = 'P'
        · subst hp
          rcases cs with _ | ⟨e, cs⟩
          · rcases suffix_closing htail.suffix with rfl | rfl | ⟨-, rfl⟩ <;>
              exact .setRest hcs' (follows_flagGroup hinner)
          · by_cases hangle : e = '<'
            · subst hangle
              exact .setRest hcs (follows_indexed hinner follows_newNamedGroup)
            by_cases hequal : e = '='
            · subst hequal
              refine .setRest ((List.suffix_cons _ cs).trans hcs) (.map (follows_namedGroup fun h => nomatch h) ?_)
              exact fun _ _ _ _ hi => nomatch hi
            · simp only [List.cons_append, List.cons.injEq, Char.reduceEq, hangle, hequal, false_and, and_false,
                imp_self, implies_true]
              exact .setRest hcs' (follows_flagGroup hinner)
        · simp only [List.cons_append, List.cons.injEq, hequal, hnot, hatomic, hcondition, hquote, hangle, hp,
            false_and, imp_self, implies_true]
          exact .setRest hcs' (follows_flagGroup hinner)
    · simp only [List.cons_append, List.cons.injEq, hopen, false_and, imp_self, implies_true]
      exact follows_indexed hinner follows_newGroup

end
end Highlight.Regex.Parser
