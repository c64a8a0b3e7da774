import Mathlib.Data.List.Basic

/-! Texts put together from pieces. A piece without delimiters can be told from what follows it, if that begins with one,
    and so can pieces that each end with one. -/

namespace Highlight

variable {α : Type}

/-- A list is parted in one way only in front of the first element that `p` holds of. -/
theorem append_unique {p : α → Prop} {a b u v : List α} (ha : ∀ c ∈ a, ¬p c) (hb : ∀ c ∈ b, ¬p c)
    (hu : ∀ c ∈ u.head?, p c) (hv : ∀ c ∈ v.head?, p c) (h : a ++ u = b ++ v) : a = b ∧ u = v := by
  induction a generalizing b with
  | nil =>
    cases b with
    | nil => exact ⟨rfl, h⟩
    | cons d b =>
      subst h
      exact absurd (hu d rfl) (hb d List.mem_cons_self)
  | cons c a ih =>
    cases b with
    | nil =>
      subst h
      exact absurd (hv c rfl) (ha c List.mem_cons_self)
    | cons d b =>
      obtain ⟨rfl, htail⟩ := List.cons.inj h
      obtain ⟨rfl, huv⟩ := ih (List.forall_mem_cons.mp ha).2 (List.forall_mem_cons.mp hb).2 htail
      exact ⟨rfl, huv⟩

theorem append_cons_unique {d : α} {a b u v : List α} (ha : d ∉ a) (hb : d ∉ b) (h : a ++ d :: u = b ++ d :: v) :
    a = b ∧ u = v := by
  obtain ⟨hfront, hback⟩ := append_unique (p := (· = d)) (fun c hc heq => ha (heq ▸ hc)) (fun c hc heq => hb (heq ▸ hc))
    (by simp) (by simp) h
  exact ⟨hfront, (List.cons.inj hback).2⟩

/-- Lines that each end with a delimiter can be told apart. -/
theorem lines_unique {d : α} {ls ls' : List (List α)} (h : ∀ l ∈ ls, d ∉ l) (h' : ∀ l ∈ ls', d ∉ l)
    (heq : (ls.flatMap fun l => l ++ [d]) = ls'.flatMap fun l => l ++ [d]) : ls = ls' := by
  induction ls generalizing ls' with
  | nil =>
    cases ls' with
    | nil => rfl
    | cons l' ls' => simp at heq
  | cons l ls ih =>
    cases ls' with
    | nil => simp at heq
    | cons l' ls' =>
      obtain ⟨hl, hls⟩ := List.forall_mem_cons.mp h
      obtain ⟨hl', hls'⟩ := List.forall_mem_cons.mp h'
      simp only [List.flatMap_cons, List.append_assoc, List.singleton_append] at heq
      obtain ⟨rfl, htail⟩ := append_cons_unique hl hl' heq
      rw [ih hls hls' htail]

end Highlight
