/-! Steps that may fail. A chain of them succeeds only if each step does, with or without a state that is handed on. -/

namespace Highlight

section
variable {ε α β σ : Type}

theorem bind_eq_ok_iff {x : Except ε α} {f : α → Except ε β} {b : β} :
    (x >>= f) = .ok b ↔ ∃ a, x = .ok a ∧ f a = .ok b := by
  cases x with
  | error => simp [bind, Except.bind]
  | ok => simp [bind, Except.bind]

theorem bind_eq_ok {x : Except ε α} {f : α → Except ε β} {b : β} (h : (x >>= f) = .ok b) :
    ∃ a, x = .ok a ∧ f a = .ok b := bind_eq_ok_iff.mp h

theorem bind_of_ok {x : Except ε α} {f : α → Except ε β} {a : α} (h : x = .ok a) : (x >>= f) = f a := by
  rw [h]
  rfl

theorem bind_eq_error {x : Except ε α} {f : α → Except ε β} {e : ε} :
    (x >>= f) = .error e ↔ x = .error e ∨ ∃ a, x = .ok a ∧ f a = .error e := by
  cases x with
  | error => simp [bind, Except.bind]
  | ok => simp [bind, Except.bind]

theorem map_bind {γ : Type} {x : Except ε α} {f : α → Except ε β} {g : β → γ} :
    (x >>= f).map g = x >>= fun a => (f a).map g := by
  cases x <;> rfl

theorem run_bind_eq_ok {p : StateT σ (Except ε) α} {f : α → StateT σ (Except ε) β} {s s' : σ} {b : β}
    (h : (p >>= f).run s = .ok (b, s')) : ∃ a s₁, p.run s = .ok (a, s₁) ∧ (f a).run s₁ = .ok (b, s') := by
  rw [StateT.run_bind] at h
  obtain ⟨⟨a, s₁⟩, hp, h⟩ := bind_eq_ok h
  exact ⟨a, s₁, hp, h⟩

theorem run_bind_of_ok {p : StateT σ (Except ε) α} {f : α → StateT σ (Except ε) β} {s s' : σ} {a : α}
    (h : p.run s = .ok (a, s')) : (p >>= f).run s = (f a).run s' := by
  rw [StateT.run_bind, h]
  rfl

theorem mapError_eq_ok_iff {ε' : Type} {x : Except ε α} {f : ε → ε'} {a : α} : x.mapError f = .ok a ↔ x = .ok a := by
  cases x with
  | error => exact ⟨nofun, nofun⟩
  | ok b =>
    show Except.ok b = .ok a ↔ Except.ok b = .ok a
    simp only [Except.ok.injEq]

theorem mapError_eq_ok {ε' : Type} {x : Except ε α} {f : ε → ε'} {a : α} (h : x.mapError f = .ok a) : x = .ok a :=
  mapError_eq_ok_iff.mp h

/-- What every step keeps holds at the end of a list. -/
theorem foldlM_keeps {P : β → Prop} {f : β → α → Except ε β} (hf : ∀ b a b', P b → f b a = .ok b' → P b')
    {as : List α} {b b' : β} (hb : P b) (h : as.foldlM f b = .ok b') : P b' := by
  induction as generalizing b with
  | nil =>
    cases h
    exact hb
  | cons a as ih =>
    obtain ⟨c, hc, h⟩ := bind_eq_ok h
    exact ih (hf b a c hb hc) h

/-- A list is gone through to its end if no step fails, where that depends on the elements alone. -/
theorem exists_foldlM_iff {P : α → Prop} {f : β → α → Except ε β} (hf : ∀ b a, (∃ b', f b a = .ok b') ↔ P a)
    {as : List α} {b : β} : (∃ b', as.foldlM f b = .ok b') ↔ ∀ a ∈ as, P a := by
  induction as generalizing b with
  | nil => simp [pure, Except.pure]
  | cons a as ih =>
    simp only [List.foldlM_cons, bind_eq_ok_iff, List.forall_mem_cons]
    constructor
    · rintro ⟨b', c, hc, h⟩
      exact ⟨(hf b a).mp ⟨c, hc⟩, ih.mp ⟨b', h⟩⟩
    · rintro ⟨ha, has⟩
      obtain ⟨c, hc⟩ := (hf b a).mpr ha
      obtain ⟨b', h⟩ := ih.mpr has
      exact ⟨b', c, hc, h⟩

theorem toOption_eq_some {x : Except ε α} {a : α} (h : x.toOption = some a) : x = .ok a := by
  cases x with
  | error => cases h
  | ok b => exact congrArg Except.ok (Option.some.inj h)

theorem eq_ok_of_isSome {x : Except ε α} (h : x.toOption.isSome = true) (default : α) :
    x = .ok (x.toOption.getD default) := by
  cases x with
  | error => cases h
  | ok => rfl

/-! ### What a step fails with -/

/-- What a step fails with, if it does. -/
def errorOf : Except ε α → Option ε
  | .ok _ => none
  | .error e => some e

@[simp] theorem errorOf_ok (a : α) : errorOf (.ok a : Except ε α) = none := rfl

@[simp] theorem errorOf_error (e : ε) : errorOf (.error e : Except ε α) = some e := rfl

theorem errorOf_eq_some {x : Except ε α} {e : ε} : errorOf x = some e ↔ x = .error e := by
  cases x <;> simp

theorem errorOf_eq_none {x : Except ε α} : errorOf x = none ↔ ∃ a, x = .ok a := by
  cases x <;> simp

/-- Two steps fail with what the first fails with, else with what the second does, if that is the same for all values. -/
theorem errorOf_bind {x : Except ε α} {f : α → Except ε β} {o : Option ε} (h : ∀ a, errorOf (f a) = o) :
    errorOf (x >>= f) = (errorOf x).or o := by
  cases x with
  | error e => rfl
  | ok a => exact h a

theorem errorOf_bind_pure {x : Except ε α} {f : α → β} : errorOf (x >>= fun a => pure (f a)) = errorOf x := by
  cases x <;> rfl

theorem errorOf_map {x : Except ε α} {f : α → β} : errorOf (x.map f) = errorOf x := by
  cases x <;> rfl

theorem errorOf_mapError {ε' : Type} {x : Except ε α} {f : ε → ε'} : errorOf (x.mapError f) = (errorOf x).map f := by
  cases x <;> rfl

end
end Highlight
