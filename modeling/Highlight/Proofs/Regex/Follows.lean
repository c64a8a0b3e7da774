import Highlight.Proofs.Except
import Highlight.Proofs.Regex.Reading

/-! One reader against another that has more to read: the closing parenthesis of a group around the pattern. The second
    follows the first wherever the first succeeds, and stops before the parenthesis, unless it runs into the limit for
    the depth of groups, which the group around the pattern brings nearer. -/

namespace Highlight.Regex.Parser

/-- What is known of a group around a pattern: whether a line end comes before its closing parenthesis, from where on
    its reader takes no number for that of a group, and whether that reader may find groups nested too deep. -/
structure Wrapping where
  lineEnd : Bool
  bound : Nat
  limited : Bool

namespace State

/-- The state with more text behind what is left to read. -/
def extend (s : State) (tail : List Char) (bound : Nat) : State := { s with rest := s.rest ++ tail, bound := bound }

/-- What every reader keeps: it reads from the front of the text, and changes the modes only by reading. -/
structure Kept (s s' : State) : Prop where
  rest : s'.rest <:+ s.rest
  bound : s'.bound = s.bound
  flags : s.rest = [] → s'.flags = s.flags

/-- What is left of the closing text: all of it as long as there is something before it. A comment at the end of the
    pattern takes in the parenthesis only if there is no line end before it. -/
structure Trailing (w : Wrapping) (s : State) (tail : List Char) : Prop where
  suffix : tail <:+ closing w.lineEnd
  whole : s.rest ≠ [] → tail = closing w.lineEnd
  stays : w.lineEnd = true → tail ≠ []

/-- Where the text ends, a line end behind it is skipped. -/
def Settled (w : Wrapping) (s : State) : Prop := s.rest = [] → w.lineEnd = true → s.flags.verbose = true

section
variable {w : Wrapping} {s s' s'' : State} {tail : List Char}

theorem Kept.refl (s : State) : Kept s s := ⟨List.suffix_rfl, rfl, fun _ => rfl⟩

theorem Kept.rest_nil (h : Kept s s') (hs : s.rest = []) : s'.rest = [] := List.suffix_nil.mp (hs ▸ h.rest)

theorem Kept.trans (h : Kept s s') (h' : Kept s' s'') : Kept s s'' where
  rest := h'.rest.trans h.rest
  bound := h'.bound.trans h.bound
  flags hs := (h'.flags (h.rest_nil hs)).trans (h.flags hs)

theorem Settled.before (h : Kept s s') (h' : Settled w s') : Settled w s :=
  fun hs hline => h.flags hs ▸ h' (h.rest_nil hs) hline

theorem closing_ne_nil (lineEnd : Bool) : Regex.closing lineEnd ≠ [] := by cases lineEnd <;> exact List.cons_ne_nil _ _

theorem Trailing.closing (w : Wrapping) (s : State) : Trailing w s (closing w.lineEnd) :=
  ⟨List.suffix_rfl, fun _ => rfl, fun _ => closing_ne_nil _⟩

theorem Trailing.kept (h : Trailing w s tail) (hk : Kept s s') : Trailing w s' tail :=
  ⟨h.suffix, fun hs => h.whole (mt hk.rest_nil hs), h.stays⟩

/-- Where nothing comes before it, the parenthesis is still there. -/
theorem Trailing.paren (hs : s.rest = []) : Trailing w s [')'] := by
  refine ⟨?_, absurd hs, fun _ => List.cons_ne_nil _ _⟩
  cases w.lineEnd with
  | false => exact List.suffix_rfl
  | true => exact List.suffix_cons _ _

end
end State

open State

/-- Where `p` succeeds, `q` does, with the closing text behind, unless it may find groups nested too deep: it gives the
    same value and leaves the same state, with what is left of the closing text. The value has the property `P`. -/
def Follows {α : Type} (w : Wrapping) (P : α → State → Prop) (p q : Parser α) (s : State) (tail : List Char) : Prop :=
  Trailing w s tail → s.bound ≤ w.bound → ∀ a s', p.run s = .ok (a, s') → Kept s s' ∧ P a s' ∧
    (Settled w s' → w.limited = true ∧ q.run (s.extend tail w.bound) = .error .tooDeep ∨
      ∃ tail', Trailing w s' tail' ∧ q.run (s.extend tail w.bound) = .ok (a, s'.extend tail' w.bound))

/-- Nothing is said of the value. -/
abbrev AnyValue {α : Type} : α → State → Prop := fun _ _ => True

/-- The value is an expression whose groups are counted from one on. -/
abbrev NumberedExpr : Expr → State → Prop := fun e _ => e.Numbered

namespace Follows
variable {w : Wrapping} {s s' : State} {tail tail' : List Char} {α β : Type} {P : α → State → Prop}
  {Q : β → State → Prop}

theorem of_error {e : CompileError} {p q : Parser α} (h : p.run s = .error e) : Follows w P p q s tail := by
  intro _ _ a s' hp
  rw [h] at hp
  cases hp

theorem throw {e : CompileError} {q : Parser α} : Follows w P (throw e) q s tail := of_error rfl

theorem pure {a : α} (h : P a s) : Follows w P (pure a) (pure a) s tail := by
  rintro htail - a s' ⟨⟩
  exact ⟨Kept.refl s, h, fun _ => Or.inr ⟨tail, htail, rfl⟩⟩

theorem value {a : α} : Follows w AnyValue (Pure.pure a) (Pure.pure a) s tail := pure trivial

theorem ite {c : Prop} [Decidable c] {p p' q q' : Parser α} (h : c → Follows w P p q s tail)
    (h' : ¬c → Follows w P p' q' s tail) : Follows w P (if c then p else p') (if c then q else q') s tail := by
  by_cases hc : c
  · rw [if_pos hc, if_pos hc]
    exact h hc
  · rw [if_neg hc, if_neg hc]
    exact h' hc

/-- One step of both readers, after which the second has no more of the closing text left than before. -/
theorem step {p q f g : Parser α} (hk : Kept s s') (htail : Trailing w s tail → Trailing w s' tail')
    (hp : p.run s = f.run s') (hq : q.run (s.extend tail w.bound) = g.run (s'.extend tail' w.bound))
    (h : Follows w P f g s' tail') : Follows w P p q s tail := by
  intro ht hbound a s'' hrun
  obtain ⟨hkept, ha, hout⟩ := h (htail ht) (hk.bound ▸ hbound) a s'' (hp ▸ hrun)
  exact ⟨hk.trans hkept, ha, hq ▸ hout⟩

theorem bind {p q : Parser β} {f g : β → Parser α} (hp : Follows w Q p q s tail)
    (hf : ∀ b s' tail', Kept s s' → Q b s' → Follows w P (f b) (g b) s' tail') :
    Follows w P (p >>= f) (q >>= g) s tail := by
  intro htail hbound a s'' hrun
  obtain ⟨b, s', hps, hrun⟩ := run_bind_eq_ok hrun
  obtain ⟨hkept, hb, hq⟩ := hp htail hbound b s' hps
  -- What the second step keeps is needed first, to know that the line end is skipped; so it is taken with all of the
  -- closing text, whatever the first step leaves of it.
  obtain ⟨hkept', ha, -⟩ := hf b s' _ hkept hb (Trailing.closing w s') (hkept.bound ▸ hbound) a s'' hrun
  refine ⟨hkept.trans hkept', ha, fun hsettled => ?_⟩
  rw [StateT.run_bind]
  rcases hq (hsettled.before hkept') with ⟨hlimited, herror⟩ | ⟨tail', htail', hok⟩
  · exact Or.inl ⟨hlimited, by rw [herror]; rfl⟩
  · rw [hok]
    exact (hf b s' tail' hkept hb htail' (hkept.bound ▸ hbound) a s'' hrun).2.2 hsettled

theorem map {p q : Parser β} {f : β → α} (hp : Follows w Q p q s tail) (hf : ∀ b s', Q b s' → P (f b) s') :
    Follows w P (do return f (← p)) (do return f (← q)) s tail :=
  hp.bind fun b s' _ _ hb => pure (hf b s' hb)

theorem rest {f g : List Char → Parser α} (h : Follows w P (f s.rest) (g (s.rest ++ tail)) s tail) :
    Follows w P (Parser.rest >>= f) (Parser.rest >>= g) s tail :=
  step (Kept.refl s) id rfl rfl h

theorem flags {f g : Flags → Parser α} (h : Follows w P (f s.flags) (g s.flags) s tail) :
    Follows w P (Parser.flags >>= f) (Parser.flags >>= g) s tail :=
  step (Kept.refl s) id rfl rfl h

theorem get {f g : State → Parser α} (h : Follows w P (f s) (g (s.extend tail w.bound)) s tail) :
    Follows w P (MonadState.get >>= f) (MonadState.get >>= g) s tail :=
  step (Kept.refl s) id rfl rfl h

theorem setRest {cs : List Char} {f g : Unit → Parser α} (hcs : cs <:+ s.rest)
    (h : Follows w P (f ()) (g ()) { s with rest := cs } tail) :
    Follows w P (Parser.setRest cs >>= f) (Parser.setRest (cs ++ tail) >>= g) s tail :=
  have hk : Kept s { s with rest := cs } := ⟨hcs, rfl, fun _ => rfl⟩
  step hk (·.kept hk) rfl rfl h

/-- The bound on numbers of groups is no smaller where the second reader stands. -/
theorem of_bound {p q : Parser α} (h : s.bound ≤ w.bound → tail <:+ closing w.lineEnd → Follows w P p q s tail) :
    Follows w P p q s tail :=
  fun htail hbound => h hbound htail.suffix htail hbound

/-- The second reader may run into the limit for the depth. -/
theorem tooDeep {p q : Parser α} (hlimited : w.limited = true) (h : Follows w P p q s tail) :
    Follows w P p (MonadExcept.throw CompileError.tooDeep) s tail := by
  intro htail hbound a s' hp
  obtain ⟨hkept, ha, -⟩ := h htail hbound a s' hp
  exact ⟨hkept, ha, fun _ => Or.inl ⟨hlimited, rfl⟩⟩

theorem of_trailing {p q : Parser α} (h : Trailing w s tail → Follows w P p q s tail) : Follows w P p q s tail :=
  fun htail => h htail htail

end Follows

/-! ### Blanks -/

section
variable {w : Wrapping} {s : State} {tail : List Char} {α : Type} {P : α → State → Prop}

theorem run_gap_bind (s : State) (k : Unit → Parser α) : (gap >>= k).run s =
    match skipGap s.flags.verbose .between s.rest with
    | some cs => (k ()).run { s with rest := cs }
    | none => .error .unclosedGroup := by
  rw [StateT.run_bind]
  show (StateT.run (match skipGap s.flags.verbose .between s.rest with
    | some cs => setRest cs
    | none => throw .unclosedGroup) s >>= _) = _
  cases skipGap s.flags.verbose .between s.rest <;> rfl

/-- What skipping leaves of the closing text where the pattern ends with the gap. -/
theorem State.Trailing.skip (h : Trailing w s tail) {verbose : Bool} {r : List Char}
    (hskip : Skipped verbose tail (some []) (some r)) (hout : skipGap verbose .between (s.rest ++ tail) = some r) :
    Trailing w { s with rest := [] } r := by
  cases hskip with
  | through hr _ hends =>
    refine ⟨hr.trans h.suffix, absurd rfl, fun hline => ?_⟩
    by_cases hs : s.rest = []
    · rcases suffix_closing h.suffix with rfl | rfl | ⟨-, rfl⟩
      · exact absurd rfl (h.stays hline)
      · rw [hs, List.nil_append, skipGap_paren] at hout
        exact Option.some.inj hout ▸ List.cons_ne_nil _ _
      · exact hends rfl
    · refine hends ?_
      rw [h.whole hs, hline]
      rfl

/-- After a gap the second reader has skipped the line end, if the first stands at the end of its text. -/
theorem Follows.gap {f g : Unit → Parser α}
    (h : ∀ s' tail', Kept s s' → (s'.rest = [] → tail' = [] ∨ tail' = [')']) → Follows w P (f ()) (g ()) s' tail') :
    Follows w P (Parser.gap >>= f) (Parser.gap >>= g) s tail := by
  refine .of_bound fun _ htail => ?_
  have hskip : Skipped s.flags.verbose tail _ _ := skipped_skipGap htail .between s.rest nofun
  cases hp : skipGap s.flags.verbose .between s.rest with
  | none => exact .of_error (by rw [run_gap_bind, hp])
  | some cs =>
    have hk : Kept s { s with rest := cs } := ⟨skipGap_suffix hp, rfl, fun _ => rfl⟩
    have hq : (Parser.gap >>= g).run (s.extend tail w.bound) =
        match skipGap s.flags.verbose .between (s.rest ++ tail) with
        | some cs => (g ()).run { s.extend tail w.bound with rest := cs }
        | none => .error .unclosedGroup := run_gap_bind _ _
    rw [hp] at hskip
    generalize hout : skipGap s.flags.verbose .between (s.rest ++ tail) = out at hskip hq
    cases hskip with
    | within => exact .step hk (·.kept hk) (by rw [run_gap_bind, hp]) hq (h _ _ hk nofun)
    | @through r hr hverbose hends =>
      by_cases hline : w.lineEnd = true ∧ s.flags.verbose = false
      · -- The line end stays, but the end of the text is not settled then.
        intro _ hbound a s' hrun'
        rw [run_gap_bind, hp] at hrun'
        have hparen : Trailing w { s with rest := [] } [')'] := Trailing.paren rfl
        obtain ⟨hkept, ha, -⟩ := h _ [')'] hk (fun _ => Or.inr rfl) hparen hbound a s' hrun'
        refine ⟨hk.trans hkept, ha, fun hsettled => ?_⟩
        have hv := hsettled.before hkept rfl hline.1
        rw [hline.2] at hv
        cases hv
      · have hdry : r = [] ∨ r = [')'] := by
          rcases suffix_closing (hr.trans htail) with h | h | ⟨hline', -⟩
          · exact Or.inl h
          · exact Or.inr h
          · exact hverbose (by simpa [hline'] using hline)
        exact .step hk (·.skip (.through hr hverbose hends) hout) (by rw [run_gap_bind, hp]) hq (h _ _ hk fun _ => hdry)

end
end Highlight.Regex.Parser
