import Highlight.Proofs.Regex.Shallow
import Highlight.Proofs.Regex.Wrapped

/-! Putting a pattern in a group. A pattern that can be read can also be read in a group behind the check for the start,
    unless the group makes a difference to it: its groups nest as deep as they may, a comment at its end takes in the
    closing parenthesis, or it has references by number beside named groups, which are allowed only among branches. -/

namespace Highlight.Regex.Parser

open State

section
variable {s s' s₁ : State} {inner : Option (Parser Expr)} {fuel : Nat} {e : Expr} {cs : List Char}

/-! ### What readers of patterns leave -/

theorem atText_of_gap {α : Type} {f : Unit → Parser α} {a : α} (h : (gap >>= f).run s = .ok (a, s')) :
    ∃ s₁, s₁.AtText ∧ (f ()).run s₁ = .ok (a, s') := by
  rw [run_gap_bind] at h
  split at h
  · rename_i r hgap
    exact ⟨_, skipGap_skipped hgap, h⟩
  · cases h

theorem atText_of_branches {es : List Expr} (hs : s.AtText) (h : (branches inner fuel).run s = .ok (es, s')) :
    s'.AtText := by
  induction fuel generalizing s es with
  | zero =>
    cases h
    exact hs
  | succ fuel ih =>
    rw [branches, run_rest] at h
    split at h
    · obtain ⟨_, _, -, h⟩ := run_bind_eq_ok h
      obtain ⟨_, _, -, h⟩ := run_bind_eq_ok h
      obtain ⟨_, htext, h⟩ := atText_of_gap h
      obtain ⟨_, _, hmore, h⟩ := run_bind_eq_ok h
      cases h
      exact ih htext hmore
    · cases h
      exact hs

/-- A reader of patterns stops where no blank and no comment is next. -/
theorem atText_of_alternationFrom (h : (alternationFrom inner fuel).run s = .ok (e, s')) : s'.AtText := by
  obtain ⟨_, _, -, h⟩ := run_bind_eq_ok h
  obtain ⟨_, htext, h⟩ := atText_of_gap h
  rw [run_rest] at h
  obtain ⟨others, _, hbranches, h⟩ := run_bind_eq_ok h
  have htext' := atText_of_branches htext hbranches
  cases others with
  | nil =>
    rw [run_get] at h
    dsimp only at h
    split at h
    · cases h
    · cases h
      exact htext'
  | cons =>
    cases h
    exact htext'

end

/-! ### Reading the group -/

section
variable {s s₁ : State} {inner : Parser Expr} {fuel : Nat} {body : Expr} {cs : List Char}

theorem run_alternationFrom_anchored (hrest : s.rest = '\\' :: 'A' :: '(' :: '?' :: ':' :: cs)
    (hfuel : s.rest.length < fuel) (hbody : inner.run { s with rest := cs } = .ok (body, s₁))
    (hclose : s₁.rest = [')']) (hmixed : (s₁.numbered && !s₁.names.isEmpty) = false) :
    (alternationFrom (some inner) fuel).run s =
      .ok (.ofParts (.assertion .textStart :: if body.isEmpty then [] else [body]),
        { s₁ with rest := [], flags := s.flags }) := by
  obtain ⟨fuel, rfl⟩ := exists_fuel_anchored hrest hfuel
  rw [run_alternationFrom_of_pieces (run_pieces_anchored hrest hbody hclose) rfl, hmixed]
  rfl

end

/-! ### Whole patterns -/

/-- The text of a pattern in a group behind the check for the start. -/
def enclosed (modes text : List Char) (lineEnd : Bool) : List Char :=
  Pattern.modePrefix modes ++ '\\' :: 'A' :: '(' :: '?' :: ':' :: (text ++ closing lineEnd)

/-- Whether groups nest less deep in a text than they may. -/
def isShallow (text : List Char) : Bool :=
  match (pattern (maxDepth - 1)).run (initial text) with
  | .error .tooDeep => false
  | _ => true

/-- Whether a text has references by number beside named groups. -/
def mixesReferences (text : List Char) : Bool :=
  match (pattern maxDepth).run (initial text) with
  | .ok (_, s) => s.numbered && !s.names.isEmpty
  | .error _ => false

/-- Whether a closing parenthesis behind a text is read as part of it, when numbers from `bound` on are not taken for
    groups. -/
def takesParenthesis (bound : Nat) (modes text : List Char) : Bool :=
  match (pattern (maxDepth - 1)).run (begin (modes.foldl switchOn default) bound (text ++ [')'])) with
  | .ok (_, s) => s.rest.isEmpty
  | .error _ => false

theorem run_of_isShallow {text : List Char} (h : isShallow text = true) :
    (pattern (maxDepth - 1)).run (initial text) ≠ .error .tooDeep := by
  intro herror
  rw [isShallow, herror] at h
  cases h

theorem rest_of_takesParenthesis {bound : Nat} {modes text : List Char} {e : Expr} {s : State}
    (h : takesParenthesis bound modes text = false)
    (hrun : (pattern (maxDepth - 1)).run (begin (modes.foldl switchOn default) bound (text ++ [')'])) = .ok (e, s)) :
    s.rest ≠ [] := by
  rw [takesParenthesis, hrun] at h
  exact List.isEmpty_eq_false_iff.mp h

/-- A text can be put in a group: its groups do not nest as deep as they may, it has no references by number beside
    named groups, and where it ends verbose mode is on, if there is a line end before the closing parenthesis, or no
    comment takes the parenthesis in. -/
structure Enclosable (modes text : List Char) (lineEnd : Bool) : Prop where
  shallow : isShallow (Pattern.searchText modes text) = true
  unmixed : mixesReferences (Pattern.searchText modes text) = false
  verbose : lineEnd = true → endsVerbose (Pattern.searchText modes text) = true
  spared : lineEnd = false → ∀ bound, takesParenthesis bound modes text = false

section
variable {modes text : List Char} (hmodes : ∀ mode ∈ modes, Pattern.isMode mode = true) {lineEnd : Bool}
include hmodes

theorem run_alternationFrom_modes {inner : Parser Expr} {s : State} {cs : List Char} {fuel : Nat}
    (hrest : s.rest = Pattern.modePrefix modes ++ '\\' :: cs) (hfuel : s.rest.length < fuel) :
    ∃ fuel', cs.length + 1 < fuel' ∧ (alternationFrom (some inner) fuel).run s = (alternationFrom (some inner) fuel').run
      { s with rest := '\\' :: cs, flags := modes.foldl switchOn s.flags } := by
  by_cases hne : modes = []
  · subst hne
    replace hrest : s.rest = '\\' :: cs := hrest
    refine ⟨fuel, by rwa [hrest] at hfuel, ?_⟩
    rw [← hrest]
    rfl
  · have hlength := length_modePrefix hne
    rw [hrest, List.length_append, List.length_cons] at hfuel
    obtain ⟨fuel, rfl⟩ : ∃ n, fuel = n + 1 := ⟨fuel - 1, by omega⟩
    refine ⟨fuel, by omega, ?_⟩
    have hatom := @run_atom_modes s _ modes hmodes inner hne hrest
    rw [alternationFrom, alternationFrom, run_bind_congr]
    rw [run_pieces_of_atom_alone hatom (atText_cons rfl (by decide)) rfl]
    exact congrArg (StateT.run · _) (bind_pure _)

/-- Where a text ends that can be read alone, the reader inside the group comes to the closing parenthesis. -/
theorem run_pattern_inside {depth bound : Nat} {e : Expr} {s : State}
    (h : (pattern (depth + 2)).run (initial (Pattern.searchText modes text)) = .ok (e, s)) (hnil : s.rest = [])
    (hbound : byteLength (Pattern.searchText modes text) / 2 ≤ bound)
    (hverbose : lineEnd = true → s.flags.verbose = true)
    (hspared : lineEnd = false → ∀ e s, (pattern (depth + 2)).run
      (begin (modes.foldl switchOn default) bound (text ++ [')'])) = .ok (e, s) → s.rest ≠ []) :
    (pattern (depth + 2)).run (begin (modes.foldl switchOn default) bound (text ++ closing lineEnd)) =
      .ok (e, s.extend [')'] bound) := by
  obtain ⟨fuel, hfuel, h⟩ := pattern_searchText hmodes h
  let w : Wrapping := ⟨lineEnd, bound, false⟩
  have hinner : FollowsAny w (some (pattern (depth + 1))) (some (pattern (depth + 1))) := by
    rintro p ⟨⟩
    exact ⟨fun s tail => follows_pattern (Or.inr (Nat.le_refl _)), nofun⟩
  have hfuel' : text.length < (text ++ closing lineEnd).length + 1 := by
    rw [List.length_append]
    omega
  obtain ⟨-, -, hfollows⟩ := follows_alternationFrom hinner hfuel hfuel' (Trailing.closing w _) hbound _ _ h
  rcases hfollows fun _ hline => hverbose hline with ⟨hlimited, -⟩ | ⟨tail, htail, hok⟩
  · cases hlimited
  have htext := atText_of_alternationFrom hok
  replace hok : (pattern (depth + 2)).run (begin (modes.foldl switchOn default) bound (text ++ closing lineEnd)) =
      .ok (e, s.extend tail bound) := by
    rw [pattern_succ, run_rest]
    exact hok
  rcases suffix_closing htail.suffix with rfl | rfl | ⟨hline, rfl⟩
  · -- The parenthesis is gone only if a comment has taken it in.
    cases lineEnd with
    | false => exact absurd (by rw [extend, hnil]; rfl) (hspared rfl _ _ hok)
    | true => exact absurd rfl (htail.stays rfl)
  · exact hok
  · -- Nor does the line end stay, since verbose mode is on.
    rw [AtText, extend, hnil, hverbose hline] at htext
    cases htext

/-- A group behind the check for the start is read if its inside is. -/
theorem run_pattern_outside {depth : Nat} {e : Expr} {s₁ : State}
    (h : (pattern (depth + 2)).run (begin (modes.foldl switchOn default) (byteLength (enclosed modes text lineEnd) / 2)
      (text ++ closing lineEnd)) = .ok (e, s₁))
    (hclose : s₁.rest = [')']) (hmixed : (s₁.numbered && !s₁.names.isEmpty) = false) :
    (pattern (depth + 3)).run (initial (enclosed modes text lineEnd)) =
      .ok (.ofParts (.assertion .textStart :: if e.isEmpty then [] else [e]),
        { s₁ with rest := [], flags := modes.foldl switchOn default }) := by
  have hrest : (initial (enclosed modes text lineEnd)).rest =
      Pattern.modePrefix modes ++ '\\' :: 'A' :: '(' :: '?' :: ':' :: (text ++ closing lineEnd) := rfl
  rw [pattern_succ, run_rest]
  obtain ⟨fuel, hfuel, hrun⟩ :=
    @run_alternationFrom_modes modes hmodes (pattern (depth + 2)) _ _ _ hrest (Nat.lt_succ_self _)
  rw [hrun]
  exact run_alternationFrom_anchored rfl hfuel h hclose hmixed

omit hmodes in
theorem byteLength_searchText_le_enclosed :
    byteLength (Pattern.searchText modes text) ≤ byteLength (enclosed modes text lineEnd) := by
  simp only [Pattern.searchText, enclosed, byteLength_append, byteLength]
  omega

omit hmodes in
theorem parse_of_run {e : Expr} {s : State} (h : (pattern maxDepth).run (initial text) = .ok (e, s))
    (hnil : s.rest = []) : parse text = .ok ⟨e, s.groups, s.refs⟩ := by
  refine bind_eq_ok_iff.mpr ⟨(e, s), h, ?_⟩
  dsimp only
  rw [hnil]
  rfl

/-- A pattern that can be put in a group is read there as it is alone. -/
theorem parse_enclosed {parsed : Parsed} (h : parse (Pattern.searchText modes text) = .ok parsed)
    (henclosable : Enclosable modes text lineEnd) :
    parse (enclosed modes text lineEnd) = .ok ⟨.ofParts (.assertion .textStart ::
      if parsed.expr.isEmpty then [] else [parsed.expr]), parsed.groups, parsed.refs⟩ := by
  obtain ⟨s, hs, hnil, hparsed⟩ := parse_inv h
  obtain ⟨hshallow, hmixed, hverbose, hspared⟩ := henclosable
  rw [mixesReferences, hs] at hmixed
  rw [endsVerbose, hs] at hverbose
  obtain ⟨depth, hdepth⟩ : ∃ depth, maxDepth = depth + 3 := ⟨61, rfl⟩
  have hless : maxDepth - 1 = depth + 2 := by rw [hdepth]; rfl
  have hs' : (pattern (depth + 2)).run (initial (Pattern.searchText modes text)) = .ok (parsed.expr, s) := by
    rw [← run_pattern_succ (hless ▸ run_of_isShallow hshallow), ← hdepth, hs]
  have hbound : byteLength (Pattern.searchText modes text) / 2 ≤ byteLength (enclosed modes text lineEnd) / 2 :=
    Nat.div_le_div_right byteLength_searchText_le_enclosed
  have hinside := run_pattern_inside hmodes hs' hnil hbound hverbose fun hline e s hrun =>
    rest_of_takesParenthesis (hspared hline _) (hless ▸ hrun)
  have houtside := run_pattern_outside hmodes hinside (by rw [extend, hnil]; rfl) hmixed
  rw [← hdepth] at houtside
  rw [parse_of_run houtside rfl, hparsed]
  rfl

end

end Highlight.Regex.Parser
