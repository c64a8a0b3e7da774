import Highlight.Pattern
import Highlight.Proofs.Offsets
import Highlight.Proofs.Regex.Patterns

/-! The text of a pattern tied to the start of the text. It is the source in a group, behind the check for the start and
    behind the modes; what is read of it is that check and what is read of the source behind the modes alone. -/

namespace Highlight.Regex.Parser

open State

section
variable {s s₁ : State} {inner : Option (Parser Expr)} {fuel : Nat} {e : Expr} {cs : List Char} {verbose : Bool}

/-! ### Readers that go on at once -/

/-- No blank and no comment is next. -/
def State.AtText (s : State) : Prop := skipGap s.flags.verbose .between s.rest = some s.rest

theorem atText_nil (hrest : s.rest = []) : s.AtText := by
  rw [AtText, hrest]
  rfl

theorem atText_cons {c : Char} (hrest : s.rest = c :: cs) (h : c ∉ ['(', '#', ' ', '\r', '\n', '\t']) : s.AtText := by
  simp only [List.mem_cons, List.not_mem_nil, or_false, not_or] at h
  rw [AtText, hrest, skipGap]
  · simp [h]
  · exact fun _ hc => absurd hc h.1

theorem atText_group {c : Char} (hrest : s.rest = '(' :: '?' :: c :: cs) (h : c ≠ '#') : s.AtText := by
  rw [AtText, hrest, skipGap]
  · simp
  · rintro cs' - heq
    exact h (List.cons.inj (List.cons.inj heq).2).1

theorem skipGap_skipped {g : Gap} {cs r : List Char} (h : skipGap verbose g cs = some r) :
    skipGap verbose .between r = some r := by
  fun_induction skipGap verbose g cs with
  | case4 c cs hne h₁ h₂ =>
    obtain rfl := Option.some.inj h
    rw [skipGap, if_neg h₁, if_neg h₂]
    exact hne
  | case10 => exact Option.some.inj h ▸ rfl
  | case11 => exact Option.some.inj h ▸ rfl
  | case12 => cases h
  | _ => exact ‹_ → _› h

section
variable {α β : Type}

theorem State.AtText.run_gap {f : Unit → Parser α} (h : s.AtText) : (gap >>= f).run s = (f ()).run s := by
  rw [run_gap_bind, h]

theorem run_get {f : State → Parser α} : (get >>= f).run s = (f s).run s := rfl

theorem run_flags {f : Flags → Parser α} : (flags >>= f).run s = (f s.flags).run s := rfl

theorem run_rest {f : List Char → Parser α} : (rest >>= f).run s = (f s.rest).run s := rfl

theorem run_bind_congr {p q : Parser α} {f : α → Parser β} (h : p.run s = q.run s₁) :
    (p >>= f).run s = (q >>= f).run s₁ := by
  rw [StateT.run_bind, StateT.run_bind, h]

end

theorem run_quantified (h : quantifier? s.flags.verbose s.rest = none) : (quantified e).run s = .ok (e, s) := by
  rw [quantified_eq, run_get, h]
  rfl

theorem run_piece_of_atom (h : (atom inner).run s = .ok (some e, s₁)) :
    (piece inner).run s = (do gap; return some (← quantified e) : Parser (Option Expr)).run s₁ := by
  rw [piece, run_bind_of_ok h]

/-- A branch goes on behind an atom with its quantifier. -/
theorem run_pieces_of_atom (h : (atom inner).run s = .ok (some e, s₁)) :
    (pieces inner (fuel + 1)).run s = (do
      gap
      let e ← quantified e
      let es ← pieces inner fuel
      return if e.isEmpty then es else e :: es : Parser (List Expr)).run s₁ := by
  rw [pieces, run_bind_congr (run_piece_of_atom h)]
  simp only [bind_assoc, pure_bind]

/-- A branch goes on behind an atom without a quantifier. -/
theorem run_pieces_of_atom_alone (h : (atom inner).run s = .ok (some e, s₁)) (hs₁ : s₁.AtText)
    (hquantifier : quantifier? s₁.flags.verbose s₁.rest = none) :
    (pieces inner (fuel + 1)).run s = (do
      let es ← pieces inner fuel
      return if e.isEmpty then es else e :: es : Parser (List Expr)).run s₁ := by
  rw [run_pieces_of_atom h, hs₁.run_gap, run_bind_of_ok (run_quantified hquantifier)]

theorem run_pieces_of_skipGap (h : skipGap s.flags.verbose .between s.rest = some cs) :
    (pieces inner (fuel + 1)).run { s with rest := cs } = (pieces inner (fuel + 1)).run s := by
  have hatom : (atom inner).run { s with rest := cs } = (atom inner).run s := by
    unfold atom
    rw [run_gap_bind, run_gap_bind, h, skipGap_skipped h]
  have hpiece : (piece inner).run { s with rest := cs } = (piece inner).run s := run_bind_congr hatom
  rw [pieces, run_bind_congr hpiece]

theorem run_pieces_nil (h : s.rest = []) : (pieces inner (fuel + 1)).run s = .ok ([], s) := by
  have hatom : (atom inner).run s = (pure none : Parser (Option Expr)).run s := by
    unfold atom
    rw [(atText_nil h).run_gap, run_flags, run_rest, h]
  have hpiece : (piece inner).run s = (pure none : Parser (Option Expr)).run s := by
    rw [piece, run_bind_congr hatom, pure_bind, (atText_nil h).run_gap, run_rest, h]
  rw [pieces, run_bind_congr hpiece, pure_bind]
  rfl

theorem run_branches_nil (h : s.rest = []) : (branches inner fuel).run s = (pure [] : Parser (List Expr)).run s := by
  cases fuel with
  | zero => rfl
  | succ fuel => rw [branches, run_rest, h]

/-! ### Modes in front of a pattern -/

/-- The modes with one more of them on. -/
def switchOn (f : Flags) : Char → Flags
  | 'i' => { f with ignoreCase := true }
  | 'm' => { f with multiLine := true }
  | 's' => { f with dotAll := true }
  | 'x' => { f with verbose := true }
  | _ => f

theorem cases_of_isMode {mode : Char} (h : Pattern.isMode mode = true) :
    mode = 'i' ∨ mode = 'm' ∨ mode = 's' ∨ mode = 'x' := by
  simpa [Pattern.isMode, or_assoc] using h

theorem quantified_empty {s' : State} (h : (quantified .empty).run s = .ok (e, s')) : e = .empty ∧ s' = s := by
  rw [quantified_eq, run_get] at h
  cases hquantifier : quantifier? s.flags.verbose s.rest with
  | none =>
    rw [hquantifier] at h
    cases h
    exact ⟨rfl, rfl⟩
  | some found =>
    rw [hquantifier] at h
    cases h

section
variable {modes : List Char} (hmodes : ∀ mode ∈ modes, Pattern.isMode mode = true) {inner : Parser Expr}
include hmodes

theorem run_flagGroup_go {old : Flags} {start : Nat} (hrest : s.rest = modes ++ ')' :: cs) (hfuel : modes.length < fuel)
    (hstart : cs.length + 1 < start) : (flagGroup.go inner old start fuel false).run s =
      .ok (.empty, { s with rest := cs, flags := modes.foldl switchOn s.flags }) := by
  obtain ⟨fuel, rfl⟩ : ∃ n, fuel = n + 1 := ⟨fuel - 1, by omega⟩
  induction modes generalizing fuel s with
  | nil =>
    have hsome : (start - (cs.length + 1) == 0) = false := by
      rw [beq_eq_false_iff_ne]
      omega
    rw [flagGroup.go, (atText_cons hrest (by decide)).run_gap, run_flags, run_rest, hrest]
    show StateT.run (if (start - (cs.length + 1) == 0 || false) = true then throw CompileError.unknownFlag
      else return Expr.empty) _ = _
    rw [hsome]
    rfl
  | cons mode modes ih =>
    obtain ⟨hmode, hmodes⟩ := List.forall_mem_cons.mp hmodes
    rw [List.length_cons] at hfuel
    obtain ⟨fuel, rfl⟩ : ∃ n, fuel = n + 1 := ⟨fuel - 1, by omega⟩
    have hnext := fun flags => @ih { s with rest := modes ++ ')' :: cs, flags := flags } hmodes rfl fuel (by omega)
    have htext : s.AtText := by
      rcases cases_of_isMode hmode with rfl | rfl | rfl | rfl <;> exact atText_cons hrest (by decide)
    rw [flagGroup.go, htext.run_gap, run_flags, run_rest, hrest]
    rcases cases_of_isMode hmode with rfl | rfl | rfl | rfl <;> exact hnext _

variable (hne : modes ≠ [])
include hne

theorem run_flagGroup_modes (hrest : s.rest = modes ++ ')' :: cs) :
    (flagGroup inner).run s = .ok (.empty, { s with rest := cs, flags := modes.foldl switchOn s.flags }) := by
  have hpos := List.length_pos_iff.mpr hne
  have hlength : s.rest.length = modes.length + (cs.length + 1) := by rw [hrest, List.length_append, List.length_cons]
  rw [flagGroup, run_flags, run_rest]
  exact run_flagGroup_go hmodes hrest (by omega) (by omega)

theorem run_group_modes (hrest : s.rest = '?' :: (modes ++ ')' :: cs)) :
    (group inner).run s = .ok (.empty, { s with rest := cs, flags := modes.foldl switchOn s.flags }) := by
  have hflags := @run_flagGroup_modes { s with rest := modes ++ ')' :: cs } cs modes hmodes inner hne rfl
  rw [group, (atText_cons hrest (by decide)).run_gap, run_rest, hrest]
  obtain ⟨mode, modes, rfl⟩ := List.exists_cons_of_ne_nil hne
  rcases cases_of_isMode (hmodes mode List.mem_cons_self) with rfl | rfl | rfl | rfl <;> exact hflags

/-- What opens a pattern to switch modes on is an atom that stands for nothing. -/
theorem run_atom_modes (hrest : s.rest = Pattern.modePrefix modes ++ cs) :
    (atom (some inner)).run s = .ok (some .empty, { s with rest := cs, flags := modes.foldl switchOn s.flags }) := by
  have hopen : s.rest = '(' :: '?' :: (modes ++ ')' :: cs) := by
    rw [hrest, Pattern.modePrefix, if_neg (by simpa using hne)]
    simp
  have htext : s.AtText := by
    obtain ⟨mode, modes, rfl⟩ := List.exists_cons_of_ne_nil hne
    refine atText_group hopen ?_
    rcases cases_of_isMode (hmodes mode List.mem_cons_self) with rfl | rfl | rfl | rfl <;> decide
  have hgroup := @run_group_modes { s with rest := '?' :: (modes ++ ')' :: cs) } cs modes hmodes inner hne rfl
  rw [atom, htext.run_gap, run_flags, run_rest, hopen]
  show StateT.run (do return some (← group inner) : Parser (Option Expr))
    { s with rest := '?' :: (modes ++ ')' :: cs) } = _
  rw [run_bind_of_ok hgroup]
  rfl

/-- A branch that the modes open goes on with the source. -/
theorem pieces_of_modes {s' : State} {es : List Expr} (hrest : s.rest = Pattern.modePrefix modes ++ cs)
    (h : (pieces (some inner) (fuel + 2)).run s = .ok (es, s')) :
    (pieces (some inner) (fuel + 1)).run { s with rest := cs, flags := modes.foldl switchOn s.flags } =
      .ok (es, s') := by
  generalize hs₁ : ({ s with rest := cs, flags := modes.foldl switchOn s.flags } : State) = s₁
  rw [run_pieces_of_atom (hs₁ ▸ run_atom_modes hmodes hne hrest), run_gap_bind] at h
  split at h
  · rename_i r hgap
    obtain ⟨e, s₂, hquantified, h⟩ := run_bind_eq_ok h
    obtain ⟨rfl, rfl⟩ := quantified_empty hquantified
    rw [← run_pieces_of_skipGap hgap, ← h]
    exact (congrArg (StateT.run · _) (bind_pure _)).symm
  · cases h

end

/-! ### The group around the source -/

theorem run_atom_textStart (hrest : s.rest = '\\' :: 'A' :: cs) :
    (atom inner).run s = .ok (some (.assertion .textStart), { s with rest := cs }) := by
  unfold atom
  rw [(atText_cons hrest (by decide)).run_gap, run_flags, run_rest, hrest]
  rfl

section
variable {inner : Parser Expr}

theorem run_flagGroup_colon (hrest : s.rest = ':' :: cs) :
    (flagGroup inner).run s = (do closeFlags s.flags (← inner) : Parser Expr).run { s with rest := cs } := by
  have hnone : s.rest.length - (cs.length + 1) = 0 := by
    rw [hrest, List.length_cons, Nat.sub_self]
  rw [flagGroup, run_flags, run_rest, flagGroup.go, (atText_cons hrest (by decide)).run_gap, run_flags, run_rest]
  generalize s.rest.length = start at hnone
  rw [hrest]
  rfl

theorem run_group_colon (hrest : s.rest = '?' :: ':' :: cs) :
    (group inner).run s = (do closeFlags s.flags (← inner) : Parser Expr).run { s with rest := cs } := by
  rw [group, (atText_cons hrest (by decide)).run_gap, run_rest, hrest]
  exact @run_flagGroup_colon { s with rest := ':' :: cs } cs inner rfl

theorem run_atom_group (hrest : s.rest = '(' :: '?' :: ':' :: cs) :
    (atom (some inner)).run s = (do
      let body ← inner
      return some (← closeFlags s.flags body) : Parser (Option Expr)).run { s with rest := cs } := by
  rw [atom, (atText_group hrest (by decide)).run_gap, run_flags, run_rest, hrest]
  show StateT.run (do return some (← group inner) : Parser (Option Expr)) { s with rest := '?' :: ':' :: cs } = _
  rw [run_bind_congr (@run_group_colon { s with rest := '?' :: ':' :: cs } cs inner rfl), bind_assoc]

theorem closeFlags_inv {s' : State} {old : Flags} {body : Expr} (h : (closeFlags old body).run s = .ok (e, s')) :
    ∃ r, s.rest = ')' :: r ∧ e = body ∧ s' = { s with rest := r, flags := old } := by
  rw [closeFlags, run_rest] at h
  split at h
  · rename_i r hs
    cases h
    exact ⟨r, hs, rfl, rfl⟩
  · cases h

theorem run_closeFlags {old : Flags} {body : Expr} (h : s.rest = ')' :: cs) :
    (closeFlags old body).run s = .ok (body, { s with rest := cs, flags := old }) := by
  rw [closeFlags, run_rest, h]
  rfl

theorem atom_group_inv {s' : State} {found : Option Expr} (hrest : s.rest = '(' :: '?' :: ':' :: cs)
    (h : (atom (some inner)).run s = .ok (found, s')) :
    ∃ body s₁ r, inner.run { s with rest := cs } = .ok (body, s₁) ∧ s₁.rest = ')' :: r ∧ found = some body ∧
      s' = { s₁ with rest := r, flags := s.flags } := by
  rw [run_atom_group hrest] at h
  obtain ⟨body, s₁, hbody, h⟩ := run_bind_eq_ok h
  obtain ⟨e, s₂, hclose, h⟩ := run_bind_eq_ok h
  obtain ⟨r, hr, rfl, rfl⟩ := closeFlags_inv hclose
  cases h
  exact ⟨e, s₁, r, hbody, hr, rfl, rfl⟩

/-- The check for the start and a group, where the inside of the group is read up to the closing parenthesis. -/
theorem run_pieces_anchored {body : Expr} (hrest : s.rest = '\\' :: 'A' :: '(' :: '?' :: ':' :: cs)
    (hbody : inner.run { s with rest := cs } = .ok (body, s₁)) (hclose : s₁.rest = [')']) :
    (pieces (some inner) (fuel + 3)).run s = .ok (.assertion .textStart :: (if body.isEmpty then [] else [body]),
      { s₁ with rest := [], flags := s.flags }) := by
  have hstart := @run_atom_textStart s (some inner) ('(' :: '?' :: ':' :: cs) hrest
  have hgroup : (atom (some inner)).run { s with rest := '(' :: '?' :: ':' :: cs } =
      .ok (some body, { s₁ with rest := [], flags := s.flags }) := by
    rw [run_atom_group rfl, run_bind_of_ok hbody, run_bind_of_ok (run_closeFlags hclose)]
    rfl
  rw [run_pieces_of_atom_alone hstart (atText_group rfl (by decide)) rfl]
  refine (run_bind_of_ok ?_).trans rfl
  rw [run_pieces_of_atom_alone hgroup rfl rfl, run_bind_of_ok (run_pieces_nil rfl)]
  rfl

/-- A branch that is the check for the start and a group at the end of the text. -/
theorem pieces_anchored_inv {s' : State} {es : List Expr} (hrest : s.rest = '\\' :: 'A' :: '(' :: '?' :: ':' :: cs)
    (h : (pieces (some inner) (fuel + 3)).run s = .ok (es, s')) :
    ∃ body s₁ r, inner.run { s with rest := cs } = .ok (body, s₁) ∧ s₁.rest = ')' :: r ∧
      (r = [] → es = .assertion .textStart :: (if body.isEmpty then [] else [body]) ∧
        s' = { s₁ with rest := [], flags := s.flags }) := by
  have hstart := @run_atom_textStart s (some inner) ('(' :: '?' :: ':' :: cs) hrest
  have hafter := h
  rw [run_pieces_of_atom_alone hstart (atText_group rfl (by decide)) rfl] at hafter
  obtain ⟨_, _, hpieces, -⟩ := run_bind_eq_ok hafter
  rw [pieces] at hpieces
  obtain ⟨_, _, hpiece, -⟩ := run_bind_eq_ok hpieces
  obtain ⟨_, _, hatom, -⟩ := run_bind_eq_ok hpiece
  obtain ⟨body, s₁, r, hbody, hr, -, -⟩ := atom_group_inv rfl hatom
  refine ⟨body, s₁, r, hbody, hr, ?_⟩
  rintro rfl
  cases h.symm.trans (run_pieces_anchored hrest hbody hr)
  exact ⟨rfl, rfl⟩

theorem exists_fuel_anchored (hrest : s.rest = '\\' :: 'A' :: '(' :: '?' :: ':' :: cs) (hfuel : s.rest.length < fuel) :
    ∃ n, fuel = n + 3 := by
  rw [hrest] at hfuel
  exact ⟨fuel - 3, by simp only [List.length_cons] at hfuel; omega⟩

/-- A pattern with one branch, behind which there is nothing more to read. -/
theorem run_alternationFrom_of_pieces {es : List Expr} (h : (pieces (some inner) fuel).run s = .ok (es, s₁))
    (hnil : s₁.rest = []) :
    (alternationFrom (some inner) fuel).run s =
      if s₁.numbered && !s₁.names.isEmpty then .error .mixedBackrefs else .ok (.ofParts es, s₁) := by
  rw [alternationFrom, run_bind_of_ok h, (atText_nil hnil).run_gap, run_rest, run_bind_congr (run_branches_nil hnil),
    pure_bind, run_get]
  dsimp only
  split <;> rfl

theorem alternationFrom_anchored_inv {s' : State} (hrest : s.rest = '\\' :: 'A' :: '(' :: '?' :: ':' :: cs)
    (hfuel : s.rest.length < fuel) (h : (alternationFrom (some inner) fuel).run s = .ok (e, s')) :
    ∃ body s₁ r, inner.run { s with rest := cs } = .ok (body, s₁) ∧ s₁.rest = ')' :: r ∧
      (r = [] → e = .ofParts (.assertion .textStart :: if body.isEmpty then [] else [body]) ∧
        s' = { s₁ with rest := [], flags := s.flags }) := by
  obtain ⟨fuel, rfl⟩ := exists_fuel_anchored hrest hfuel
  obtain ⟨es, s₂, hpieces, -⟩ := run_bind_eq_ok h
  obtain ⟨body, s₁, r, hbody, hr, hend⟩ := pieces_anchored_inv hrest hpieces
  refine ⟨body, s₁, r, hbody, hr, fun hnil => ?_⟩
  obtain ⟨rfl, rfl⟩ := hend hnil
  rw [run_alternationFrom_of_pieces hpieces rfl] at h
  split at h
  · cases h
  · cases h
    exact ⟨rfl, rfl⟩

end

/-! ### Whole patterns -/

/-- The state in which a text begins to be read. -/
def begin (flags : Flags) (bound : Nat) (text : List Char) : State where
  rest := text
  flags := flags
  groups := 0
  names := []
  refs := []
  numbered := false
  bound := bound

/-- The state in which a whole pattern begins to be read. -/
def initial (text : List Char) : State := begin default (byteLength text / 2) text

/-- Whether the end of a text is read in verbose mode. -/
def endsVerbose (text : List Char) : Bool :=
  match (pattern maxDepth).run (initial text) with
  | .ok (_, s) => s.flags.verbose
  | .error _ => false

theorem parse_inv {text : List Char} {parsed : Parsed} (h : parse text = .ok parsed) :
    ∃ s, (pattern maxDepth).run (initial text) = .ok (parsed.expr, s) ∧ s.rest = [] ∧
      parsed = ⟨parsed.expr, s.groups, s.refs⟩ := by
  obtain ⟨⟨e, s⟩, hread, h⟩ := bind_eq_ok h
  dsimp only at h
  split at h
  · rename_i hnil
    cases h
    exact ⟨s, hread, List.isEmpty_iff.mp hnil, rfl⟩
  · cases h

theorem byteLength_searchText_le (modes source : List Char) :
    byteLength (Pattern.searchText modes source) ≤ byteLength (Pattern.anchoredText modes source) := by
  simp only [Pattern.searchText, Pattern.anchoredText, byteLength_append]
  omega

theorem pattern_succ (depth : Nat) : pattern (depth + 2) = (do
    let cs ← rest
    alternationFrom (some (pattern (depth + 1))) (cs.length + 1)) :=
  alternation_eq _

section
variable {modes source : List Char} (hmodes : ∀ mode ∈ modes, Pattern.isMode mode = true) {depth : Nat}
include hmodes

omit hmodes in
theorem length_modePrefix (hne : modes ≠ []) : 4 ≤ (Pattern.modePrefix modes).length := by
  have hpos := List.length_pos_iff.mpr hne
  rw [Pattern.modePrefix, if_neg (by simpa using hne)]
  simp only [List.length_append, List.length_cons, List.length_nil]
  omega

theorem alternationFrom_of_modes {inner : Parser Expr} {s' : State} (hrest : s.rest = Pattern.modePrefix modes ++ cs)
    (hfuel : s.rest.length < fuel) (h : (alternationFrom (some inner) fuel).run s = .ok (e, s')) :
    ∃ fuel', cs.length < fuel' ∧ (alternationFrom (some inner) fuel').run
      { s with rest := cs, flags := modes.foldl switchOn s.flags } = .ok (e, s') := by
  by_cases hne : modes = []
  · subst hne
    obtain rfl : s.rest = cs := hrest
    exact ⟨fuel, hfuel, h⟩
  · have hlength := length_modePrefix hne
    rw [hrest, List.length_append] at hfuel
    obtain ⟨fuel, rfl⟩ : ∃ n, fuel = n + 2 := ⟨fuel - 2, by omega⟩
    obtain ⟨es, s₁, hpieces, h⟩ := run_bind_eq_ok h
    refine ⟨fuel + 1, by omega, ?_⟩
    rw [alternationFrom, run_bind_of_ok (pieces_of_modes hmodes hne hrest hpieces)]
    exact h

theorem pattern_searchText (h : (pattern (depth + 2)).run (initial (Pattern.searchText modes source)) = .ok (e, s)) :
    ∃ fuel, source.length < fuel ∧ (alternationFrom (some (pattern (depth + 1))) fuel).run
      (begin (modes.foldl switchOn default) (byteLength (Pattern.searchText modes source) / 2) source) =
        .ok (e, s) := by
  rw [pattern_succ, run_rest] at h
  exact alternationFrom_of_modes hmodes rfl (Nat.lt_succ_self _) h

theorem pattern_anchoredText
    (h : (pattern (depth + 2)).run (initial (Pattern.anchoredText modes source)) = .ok (e, s)) :
    ∃ body s₁ r, (pattern (depth + 1)).run (begin (modes.foldl switchOn default)
        (byteLength (Pattern.anchoredText modes source) / 2) (source ++ closing (modes.contains 'x'))) =
          .ok (body, s₁) ∧
      s₁.rest = ')' :: r ∧ (r = [] → e = .ofParts (.assertion .textStart :: if body.isEmpty then [] else [body]) ∧
        s.groups = s₁.groups ∧ s.refs = s₁.refs) := by
  have htext : (initial (Pattern.anchoredText modes source)).rest =
      Pattern.modePrefix modes ++ '\\' :: 'A' :: '(' :: '?' :: ':' :: (source ++ closing (modes.contains 'x')) := by
    simp [initial, begin, Pattern.anchoredText, closing]
  rw [pattern_succ, run_rest] at h
  obtain ⟨fuel, hfuel, h⟩ := alternationFrom_of_modes hmodes htext (Nat.lt_succ_self _) h
  obtain ⟨body, s₁, r, hbody, hr, hend⟩ := alternationFrom_anchored_inv rfl hfuel h
  refine ⟨body, s₁, r, hbody, hr, fun hnil => ?_⟩
  obtain ⟨he, rfl⟩ := hend hnil
  exact ⟨he, rfl, rfl⟩

/-- What is read of a pattern tied to the start is the check for the start and what is read of the pattern as written,
    if the line end before the closing parenthesis is skipped. -/
theorem parse_anchoredText {parsed parsed' : Parsed}
    (hverbose : modes.contains 'x' = true → endsVerbose (Pattern.searchText modes source) = true)
    (h : parse (Pattern.searchText modes source) = .ok parsed)
    (h' : parse (Pattern.anchoredText modes source) = .ok parsed') :
    parsed.expr.Numbered ∧ parsed' = ⟨.ofParts (.assertion .textStart ::
      if parsed.expr.isEmpty then [] else [parsed.expr]), parsed.groups, parsed.refs⟩ := by
  obtain ⟨s, hs, hnil, hparsed⟩ := parse_inv h
  obtain ⟨s', hs', -, hparsed'⟩ := parse_inv h'
  rw [endsVerbose, hs] at hverbose
  obtain ⟨depth, hdepth⟩ : ∃ depth, maxDepth = depth + 3 := ⟨61, rfl⟩
  rw [hdepth] at hs hs'
  obtain ⟨fuel, hfuel, hs⟩ := pattern_searchText hmodes hs
  obtain ⟨body, s₁, r, hbody, hr, hend⟩ := pattern_anchoredText hmodes hs'
  rw [pattern_succ, run_rest] at hbody
  -- The reader inside the group follows that of the pattern as written, with groups that nest one less deep.
  let w : Wrapping := ⟨modes.contains 'x', byteLength (Pattern.anchoredText modes source) / 2, true⟩
  have hinner : FollowsAny w (some (pattern (depth + 2))) (some (pattern (depth + 1))) := by
    rintro p ⟨⟩
    exact ⟨fun s tail => follows_pattern (Or.inl rfl), nofun⟩
  have hfuel' : source.length < (source ++ closing w.lineEnd).length + 1 := by
    rw [List.length_append]
    omega
  obtain ⟨-, hnumbered, hfollows⟩ := follows_alternationFrom hinner hfuel hfuel' (Trailing.closing w _)
    (Nat.div_le_div_right (byteLength_searchText_le modes source)) _ _ hs
  refine ⟨hnumbered, ?_⟩
  rcases hfollows fun _ hline => hverbose hline with ⟨-, herror⟩ | ⟨tail, htail, hok⟩
  · cases hbody.symm.trans herror
  · cases hbody.symm.trans hok
    replace hr : s.rest ++ tail = ')' :: r := hr
    rw [hnil, List.nil_append] at hr
    have hr' : r = [] := by
      rcases suffix_closing htail.suffix with h | h | ⟨-, h⟩ <;> rw [hr] at h <;> cases h
      rfl
    obtain ⟨he, hgroups, hrefs⟩ := hend hr'
    rw [hparsed', he, hgroups, hrefs, hparsed]
    rfl

end
end

end Highlight.Regex.Parser
