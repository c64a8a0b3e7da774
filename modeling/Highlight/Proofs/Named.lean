import Highlight.Named

/-! What a list of named values has under a key after a value is put there or dropped. -/

namespace Highlight

section
variable {α : Type} {key key' : String} {value : α} {entries : List (String × α)}

theorem getValue?_nil : getValue? key ([] : List (String × α)) = none := rfl

theorem getValue?_cons (k : String) (v : α) (entries : List (String × α)) :
    getValue? key ((k, v) :: entries) = if k = key then some v else getValue? key entries := by
  by_cases h : k = key
  · simp [getValue?, h]
  · simp [getValue?, h]

theorem getValue?_putValue (key key' : String) (value : α) (entries : List (String × α)) :
    getValue? key' (putValue key value entries) = if key = key' then some value else getValue? key' entries := by
  induction entries with
  | nil => rw [putValue, getValue?_cons]
  | cons entry entries ih =>
    obtain ⟨k, v⟩ := entry
    rw [putValue]
    by_cases hk : k = key
    · subst hk
      simp only [beq_self_eq_true, if_true, getValue?_cons]
      split <;> rfl
    · simp only [beq_eq_false_iff_ne.mpr hk, Bool.false_eq_true, if_false, getValue?_cons, ih]
      by_cases hk' : k = key'
      · have hne : key ≠ key' := fun h => hk (hk'.trans h.symm)
        simp only [hk', hne, if_true, if_false]
      · simp only [hk', if_false]

theorem getValue?_dropValue (key key' : String) (entries : List (String × α)) :
    getValue? key' (dropValue key entries) = if key = key' then none else getValue? key' entries := by
  induction entries with
  | nil => simp [dropValue, getValue?_nil]
  | cons entry entries ih =>
    obtain ⟨k, v⟩ := entry
    rw [dropValue] at ih ⊢
    by_cases hk : k = key
    · subst hk
      simp only [List.filter_cons, bne_self_eq_false, Bool.false_eq_true, if_false, ih, getValue?_cons]
      by_cases hk' : k = key'
      · simp only [hk', if_true]
      · simp only [hk', if_false]
    · simp only [List.filter_cons, bne_iff_ne.mpr hk, if_true, getValue?_cons, ih]
      by_cases hk' : k = key'
      · have hne : key ≠ key' := fun h => hk (hk'.trans h.symm)
        simp only [hk', hne, if_true, if_false]
      · simp only [hk', if_false]

theorem mem_keys : key ∈ entries.map (·.1) ↔ ∃ value, getValue? key entries = some value := by
  induction entries with
  | nil => simp [getValue?_nil]
  | cons entry entries ih =>
    obtain ⟨k, v⟩ := entry
    rw [List.map_cons, List.mem_cons, ih, getValue?_cons]
    by_cases hk : k = key
    · simp [hk]
    · simp [hk, Ne.symm hk]

/-! ### Keys -/

theorem keys_putValue (key : String) (value : α) (entries : List (String × α)) :
    (putValue key value entries).map (·.1) =
      if key ∈ entries.map (·.1) then entries.map (·.1) else entries.map (·.1) ++ [key] := by
  induction entries with
  | nil => rfl
  | cons entry entries ih =>
    obtain ⟨k, v⟩ := entry
    rw [putValue]
    by_cases hk : k = key
    · simp [hk]
    · rw [beq_eq_false_iff_ne.mpr hk, if_neg Bool.false_ne_true, List.map_cons, ih]
      split <;> rename_i hmem <;> simp [hmem, Ne.symm hk]

theorem nodup_putValue (h : (entries.map (·.1)).Nodup) : ((putValue key value entries).map (·.1)).Nodup := by
  rw [keys_putValue]
  split
  · exact h
  · rename_i hmem
    rw [List.nodup_append]
    refine ⟨h, by simp, fun k hk k' hk' heq => hmem ?_⟩
    obtain rfl := List.mem_singleton.mp hk'
    exact heq ▸ hk

theorem nodup_dropValue (h : (entries.map (·.1)).Nodup) : ((dropValue key entries).map (·.1)).Nodup :=
  h.sublist (List.filter_sublist.map _)

end
end Highlight
