import Highlight.Proofs.Regex.Patterns

/-! Readers that may nest groups to different depths. As long as the limit of the first is not reached, the second does
    the same; so a limit that is not reached makes no difference to what is read. -/

namespace Highlight.Regex.Parser

/-- The second reader does what the first does, unless that finds groups nested too deep. -/
def Agrees {α : Type} (p q : Parser α) : Prop := ∀ s, p.run s = .error .tooDeep ∨ p.run s = q.run s

namespace Agrees
variable {α β : Type} {p q : Parser α}

theorem refl (p : Parser α) : Agrees p p := fun _ => Or.inr rfl

theorem tooDeep : Agrees (throw .tooDeep) q := fun _ => Or.inl rfl

theorem bind {f g : α → Parser β} (hp : Agrees p q) (hf : ∀ a, Agrees (f a) (g a)) :
    Agrees (p >>= f) (q >>= g) := by
  intro s
  rw [StateT.run_bind, StateT.run_bind]
  rcases hp s with herror | hsame
  · exact Or.inl (by rw [herror]; rfl)
  · rw [← hsame]
    cases p.run s with
    | error => exact Or.inr rfl
    | ok found => exact hf found.1 found.2

theorem after {f g : α → Parser β} (hf : ∀ a, Agrees (f a) (g a)) : Agrees (p >>= f) (p >>= g) := (refl p).bind hf

theorem ite {c : Prop} [Decidable c] {p' q' : Parser α} (h : Agrees p q) (h' : Agrees p' q') :
    Agrees (if c then p else p') (if c then q else q') := by
  split
  · exact h
  · exact h'

end Agrees

section
variable {inner inner' : Parser Expr} (hinner : Agrees inner inner')
include hinner

theorem agrees_flagGroup_go (old : Flags) (start fuel : Nat) (negated : Bool) :
    Agrees (flagGroup.go inner old start fuel negated) (flagGroup.go inner' old start fuel negated) := by
  induction fuel generalizing negated with
  | zero => exact .refl _
  | succ fuel ih =>
    refine .after fun _ => .after fun f => .after fun cs => ?_
    cases cs with
    | nil => exact .refl _
    | cons c cs =>
      refine .after fun _ => ?_
      split
      -- Flags are read one after the other, up to a colon with a pattern behind it.
      case h_6 | h_7 => exact .ite (.refl _) (ih _)
      case h_8 | h_10 => exact .refl _
      case h_9 => exact .ite (.refl _) (.bind hinner fun _ => .refl _)
      all_goals exact .after fun _ => ih _

theorem agrees_flagGroup : Agrees (flagGroup inner) (flagGroup inner') :=
  .after fun _ => .after fun _ => agrees_flagGroup_go hinner _ _ _ _

theorem agrees_conditionalBody (condition : Expr) :
    Agrees (conditionalBody inner condition) (conditionalBody inner' condition) :=
  .after fun _ => .after fun _ => .bind hinner fun _ => .refl _

theorem agrees_conditional : Agrees (conditional inner) (conditional inner') := by
  rw [conditional_eq, conditional_eq]
  refine .after fun cs => ?_
  split
  · exact .refl _
  · exact .after fun _ => agrees_conditionalBody hinner _
  · exact .after fun _ => agrees_conditionalBody hinner _
  · exact .ite (.after fun _ => agrees_conditionalBody hinner _)
      (.bind hinner fun _ => agrees_conditionalBody hinner _)

theorem agrees_groupBody (wrap : Expr → Expr) : Agrees (groupBody inner wrap) (groupBody inner' wrap) :=
  .bind hinner fun _ => .refl _

theorem agrees_group : Agrees (group inner) (group inner') := by
  refine .after fun _ => .after fun cs => ?_
  split
  · exact .after fun _ => agrees_groupBody hinner _
  · exact .after fun _ => agrees_groupBody hinner _
  · exact .after fun _ => agrees_groupBody hinner _
  · exact .after fun _ => agrees_groupBody hinner _
  · exact .after fun _ => .after fun _ => agrees_groupBody hinner _
  · exact .after fun _ => .after fun _ => agrees_groupBody hinner _
  · exact .after fun _ => .after fun _ => agrees_groupBody hinner _
  · exact .refl _
  · exact .after fun _ => agrees_groupBody hinner _
  · exact .after fun _ => agrees_conditional hinner
  · exact .after fun _ => agrees_flagGroup hinner
  · exact .after fun _ => agrees_groupBody hinner _

end

section
variable {inner : Option (Parser Expr)} {inner' : Parser Expr} (hinner : ∀ p, inner = some p → Agrees p inner')
include hinner

theorem agrees_atom : Agrees (atom inner) (atom (some inner')) := by
  refine .after fun _ => .after fun f => .after fun cs => ?_
  cases cs with
  | nil => exact .refl _
  | cons c cs =>
    dsimp only
    split
    -- Only groups have patterns inside.
    case h_4 =>
      refine .after fun _ => ?_
      cases inner with
      | none => exact .tooDeep
      | some p => exact .bind (agrees_group (hinner p rfl)) fun _ => .refl _
    all_goals exact .refl _

theorem agrees_piece : Agrees (piece inner) (piece (some inner')) := .bind (agrees_atom hinner) fun _ => .refl _

theorem agrees_pieces (fuel : Nat) : Agrees (pieces inner fuel) (pieces (some inner') fuel) := by
  induction fuel with
  | zero => exact .refl _
  | succ fuel ih =>
    refine .bind (agrees_piece hinner) fun found => ?_
    cases found with
    | none => exact .refl _
    | some e => exact .bind ih fun _ => .refl _

theorem agrees_branch : Agrees (branch inner) (branch (some inner')) :=
  .after fun _ => .bind (agrees_pieces hinner _) fun _ => .refl _

theorem agrees_branches (fuel : Nat) : Agrees (branches inner fuel) (branches (some inner') fuel) := by
  induction fuel with
  | zero => exact .refl _
  | succ fuel ih =>
    refine .after fun cs => ?_
    split
    · exact .after fun _ => .bind (agrees_branch hinner) fun _ => .after fun _ => .bind ih fun _ => .refl _
    · exact .refl _

theorem agrees_alternation : Agrees (alternation inner) (alternation (some inner')) :=
  .bind (agrees_branch hinner) fun _ => .after fun _ => .after fun _ =>
    .bind (agrees_branches hinner _) fun _ => .refl _

end

theorem agrees_pattern (depth : Nat) : Agrees (pattern depth) (pattern (depth + 1)) := by
  induction depth with
  | zero => exact .tooDeep
  | succ depth ih =>
    rw [pattern, pattern]
    refine agrees_alternation fun p hp => ?_
    cases depth with
    | zero => cases hp
    | succ depth =>
      obtain rfl := Option.some.inj hp
      exact ih

/-- A reader of patterns that does not find groups nested too deep reads the same as one that may nest them deeper. -/
theorem run_pattern_succ {depth : Nat} {s : State} (h : (pattern depth).run s ≠ .error .tooDeep) :
    (pattern (depth + 1)).run s = (pattern depth).run s :=
  ((agrees_pattern depth s).resolve_left h).symm

end Highlight.Regex.Parser
