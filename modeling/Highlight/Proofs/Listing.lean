import Highlight.Proofs.Sharing
import Mathlib.Data.String.Basic

/-! Listed names. Whatever operations a registry has been through, its list of names is in order and has each name once,
    a language or an alias and never both; an alias stands for another name than its own; and a name that resolves is
    listed (`names_listed`). -/

namespace Highlight.Registry

/-- Languages and aliases stand under each name once, and no alias stands for itself. -/
structure Orderly (r : Registry) : Prop where
  languages_nodup : (r.languages.map (·.1)).Nodup
  aliases_nodup : (r.aliases.map (·.1)).Nodup
  alias_ne : ∀ {name language}, getValue? name r.aliases = some language → language ≠ name

theorem orderly_empty : Orderly empty := ⟨List.nodup_nil, List.nodup_nil, fun h => nomatch h⟩

section
variable {r : Registry} {name language : String}

theorem orderly_perform (h : r.Orderly) (op : Operation) : (r.perform op).Orderly := by
  have hchange := change_perform r op
  generalize r.perform op = r' at hchange ⊢
  obtain ⟨hlanguages, haliases, hne⟩ := h
  cases hchange with
  | @defined defined g _ =>
    refine ⟨nodup_putValue hlanguages, nodup_dropValue haliases, fun {name language} halias => ?_⟩
    rw [define, getValue?_dropValue] at halias
    split at halias
    · cases halias
    · exact hne halias
  | @aliased added target hadd =>
    refine ⟨nodup_dropValue hlanguages, nodup_putValue haliases, fun {name language} halias => ?_⟩
    rw [getValue?_putValue] at halias
    split at halias
    · -- A name for the language that it is already is refused, also where it comes by way of another alias.
      rename_i hname
      cases halias
      exact hname ▸ hadd.language_ne
    · exact hne halias
  | edited => exact ⟨nodup_putValue hlanguages, haliases, hne⟩
  | unchanged => exact ⟨hlanguages, haliases, hne⟩

theorem orderly_run (h : r.Orderly) (ops : List Operation) : (r.run ops).Orderly := by
  induction ops generalizing r with
  | nil => exact h
  | cons op ops ih => exact ih (orderly_perform h op)

theorem orderly_origin (origin : Origin) : origin.registry.Orderly := by
  rcases origin_eq_run origin with h | ⟨ops, added, target, -, h⟩
  · rw [h]
    exact orderly_empty
  · rw [h]
    exact orderly_run orderly_empty _

/-! ### The list of names -/

theorem Exclusive.not_alias (h : r.Exclusive) (hname : name ∈ r.languages.map (·.1)) : name ∉ r.aliases.map (·.1) := by
  intro halias
  obtain ⟨g, hg⟩ := mem_keys.mp hname
  obtain ⟨language, hlanguage⟩ := mem_keys.mp halias
  exact nomatch (h hlanguage).symm.trans hg

theorem names_nodup (h : r.Orderly) (hexclusive : r.Exclusive) : r.names.Nodup := by
  rw [names, (List.mergeSort_perm _ _).nodup_iff, List.nodup_append]
  refine ⟨h.languages_nodup, h.aliases_nodup, fun name hname name' hname' heq => ?_⟩
  exact hexclusive.not_alias hname (heq ▸ hname')

theorem names_sorted (r : Registry) : r.names.Pairwise (· ≤ ·) := by
  have htrans : ∀ a b c : String, decide (a ≤ b) = true → decide (b ≤ c) = true → decide (a ≤ c) = true := by
    simp only [decide_eq_true_eq]
    exact fun _ _ _ => le_trans
  have htotal : ∀ a b : String, (decide (a ≤ b) || decide (b ≤ a)) = true := by
    simp only [Bool.or_eq_true, decide_eq_true_eq]
    exact le_total
  exact (List.pairwise_mergeSort htrans htotal _).imp of_decide_eq_true

/-- A name stands for a grammar only if it is a language or an alias. -/
theorem mem_names_of_has (h : r.has name = true) : name ∈ r.names := by
  obtain ⟨g, hg⟩ := Option.isSome_iff_exists.mp h
  rw [get?, canonical] at hg
  rw [mem_names]
  cases halias : getValue? name r.aliases with
  | some language => exact Or.inr ⟨language, rfl⟩
  | none =>
    rw [halias, Option.getD_none] at hg
    exact Or.inl ⟨g, hg⟩

end

/-- After any operations, failing ones among them, no name is both a language and an alias, no alias stands for itself,
    the names are listed in order and each of them once, and every name that resolves is listed. -/
theorem names_listed (origin : Origin) (ops : List Operation) :
    let r := origin.registry.run ops
    (∀ name ∈ r.languages.map (·.1), name ∉ r.aliases.map (·.1)) ∧
      (∀ name language, getValue? name r.aliases = some language → language ≠ name) ∧
      r.names.Pairwise (· < ·) ∧ ∀ name, r.has name = true → name ∈ r.names := by
  intro r
  have horderly : r.Orderly := orderly_run (orderly_origin origin) ops
  have hexclusive : r.Exclusive := exclusive_run (exclusive_origin origin) ops
  have hne : r.names.Pairwise (· ≠ ·) := names_nodup horderly hexclusive
  refine ⟨fun _ => hexclusive.not_alias, fun _ _ => horderly.alias_ne, ?_, fun _ => mem_names_of_has⟩
  exact ((names_sorted r).and hne).imp fun h => lt_of_le_of_ne h.1 h.2

end Highlight.Registry
