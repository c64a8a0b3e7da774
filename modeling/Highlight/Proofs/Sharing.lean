import Highlight.Proofs.Dangling
import Highlight.Proofs.Frame

/-! Aliases share the grammar of their language. In every registry that is built by operations no name is both a language
    and an alias, and an alias of a language stays one, with the same grammar as the language, until an operation gives
    one of the two names to something else (`alias_shares`). -/

namespace Highlight.Registry

/-! ### Languages and aliases are apart -/

/-- No name is both a language and an alias. -/
def Exclusive (r : Registry) : Prop :=
  ∀ {name language}, getValue? name r.aliases = some language → getValue? name r.languages = none

theorem exclusive_empty : Exclusive empty := fun h => nomatch h

theorem exclusive_perform {r : Registry} (h : r.Exclusive) (op : Operation) : (r.perform op).Exclusive := by
  have hchange := change_perform r op
  generalize r.perform op = r' at hchange ⊢
  intro name language halias
  cases hchange with
  | @defined defined g _ =>
    rw [define, getValue?_dropValue] at halias
    split at halias
    · cases halias
    · rename_i hne
      rw [define, getValue?_putValue, if_neg hne, h halias]
  | @aliased added target _ =>
    rw [getValue?_putValue] at halias
    rw [getValue?_dropValue]
    split
    · rfl
    · rename_i hne
      rw [if_neg hne] at halias
      exact h halias
  | @edited edited g hedit =>
    obtain ⟨g', hg'⟩ := hedit.language_some
    have hne : edited ≠ name := by
      rintro rfl
      cases hg'.symm.trans (h halias)
    rw [getValue?_putValue, if_neg hne, h halias]
  | unchanged => exact h halias

theorem exclusive_run {r : Registry} (h : r.Exclusive) (ops : List Operation) : (r.run ops).Exclusive := by
  induction ops generalizing r with
  | nil => exact h
  | cons op ops ih => exact ih (exclusive_perform h op)

theorem exclusive_origin (origin : Origin) : origin.registry.Exclusive := by
  rcases origin_eq_run origin with h | ⟨ops, added, target, -, h⟩
  · rw [h]
    exact exclusive_empty
  · rw [h]
    exact exclusive_run exclusive_empty _

/-! ### Sharing -/

/-- The name is an alias of a registered language, and the language is no alias. -/
structure Shares (r : Registry) (name language : String) : Prop where
  alias_some : getValue? name r.aliases = some language
  alias_none : getValue? language r.aliases = none
  language_some : ∃ g, getValue? language r.languages = some g

/-- The operation is to give the name to a language of its own or to another alias, or to make an alias of the
    language. -/
def Operation.Parts (name language : String) : Operation → Prop
  | .define given _ => given = name
  | .defineFile _ given _ => given = name
  | .extend given _ _ => given = name
  | .insert .. => False
  | .removeToken .. => False
  | .addAlias given _ => given = name ∨ given = language

section
variable {r : Registry} {op : Operation} {ops : List Operation} {name language given target : String} {g : Grammar}

theorem Defines.given_ne (h : r.Defines op given g) (hop : ¬ op.Parts name language) : given ≠ name := by
  cases h <;> exact hop

theorem Aliases.given_ne (h : r.Aliases op given target) (hop : ¬ op.Parts name language) :
    given ≠ name ∧ given ≠ language := by
  cases h
  exact not_or.mp hop

theorem shares_perform (h : r.Shares name language) (hop : ¬ op.Parts name language) :
    (r.perform op).Shares name language := by
  obtain ⟨halias, hnone, g, hg⟩ := h
  have hchange := change_perform r op
  generalize r.perform op = r' at hchange ⊢
  cases hchange with
  | @defined defined g' hdef =>
    have hne : defined ≠ name := hdef.given_ne hop
    refine ⟨?_, ?_, ?_⟩
    · rw [define, getValue?_dropValue, if_neg hne, halias]
    · rw [define, getValue?_dropValue, hnone, ite_self]
    · -- The language itself may be defined anew.
      rw [define, getValue?_putValue]
      split
      · exact ⟨g', rfl⟩
      · exact ⟨g, hg⟩
  | @aliased added target hadd =>
    obtain ⟨hname, hlanguage⟩ := hadd.given_ne hop
    refine ⟨?_, ?_, g, ?_⟩
    · rw [getValue?_putValue, if_neg hname, halias]
    · rw [getValue?_putValue, if_neg hlanguage, hnone]
    · rw [getValue?_dropValue, if_neg hlanguage, hg]
  | @edited edited g' hedit =>
    refine ⟨halias, hnone, ?_⟩
    rw [getValue?_putValue]
    split
    · exact ⟨g', rfl⟩
    · exact ⟨g, hg⟩
  | unchanged => exact ⟨halias, hnone, g, hg⟩

theorem shares_run (h : r.Shares name language) (hops : ∀ op ∈ ops, ¬ op.Parts name language) :
    (r.run ops).Shares name language := by
  induction ops generalizing r with
  | nil => exact h
  | cons op ops ih =>
    obtain ⟨hop, hops⟩ := List.forall_mem_cons.mp hops
    exact ih (shares_perform h hop) hops

/-! ### What is shared -/

/-- It makes no difference which of two names is used: both stand for the same grammar and split every text alike, and an
    edit comes to the same by either of them. -/
structure Interchangeable (r : Registry) (name language : String) : Prop where
  resolve : ∃ g, r.resolve name = .ok g ∧ r.resolve language = .ok g
  tokens : ∀ t text, r.tokenizeWith t text name = r.tokenizeWith t text language
  insert : ∀ target placement entries,
    r.perform (.insert name target placement entries) = r.perform (.insert language target placement entries)
  removeToken : ∀ token, r.perform (.removeToken name token) = r.perform (.removeToken language token)

theorem Shares.canonical_eq (h : r.Shares name language) : r.canonical name = r.canonical language := by
  rw [canonical, canonical, h.alias_some, h.alias_none, Option.getD_some, Option.getD_none]

theorem Shares.get?_eq (h : r.Shares name language) : r.get? name = r.get? language := by
  rw [get?, get?, h.canonical_eq]

theorem Shares.get?_some (h : r.Shares name language) : ∃ g, r.get? language = some g := by
  rw [get?, canonical, h.alias_none, Option.getD_none]
  exact h.language_some

theorem Shares.interchangeable (h : r.Shares name language) : r.Interchangeable name language := by
  obtain ⟨g, hg⟩ := h.get?_some
  have hg' : r.get? name = some g := h.get?_eq.trans hg
  refine ⟨⟨g, resolve_of_some hg', resolve_of_some hg⟩, fun t text => ?_, fun target placement entries => ?_,
    fun token => ?_⟩
  · rw [tokenizeWith_of_some hg, tokenizeWith_of_some hg']
  · simp only [perform, perform?, Registry.insert, resolve_of_some hg, resolve_of_some hg', bind, Except.bind,
      h.canonical_eq]
    cases g.splice? target placement entries <;> rfl
  · simp only [perform, perform?, Registry.removeToken, resolve_of_some hg, resolve_of_some hg', bind, Except.bind,
      h.canonical_eq]
    cases g.remove? token <;> rfl

end

/-- An alias keeps sharing the grammar of its language. Take a registry that is built by operations and an alias of a
    language in it, and further operations that neither define the alias nor make an alias of that name or of the
    language. Then after each of them, failing ones among them, the two names are interchangeable. -/
theorem alias_shares (origin : Origin) (before : List Operation) {name language : String} {g : Grammar}
    (halias : getValue? name (origin.registry.run before).aliases = some language)
    (hlanguage : getValue? language (origin.registry.run before).languages = some g) {ops : List Operation}
    (hops : ∀ op ∈ ops, ¬ op.Parts name language) {done : List Operation} (hdone : done <+: ops) :
    ((origin.registry.run before).run done).Interchangeable name language := by
  have hexclusive : (origin.registry.run before).Exclusive := exclusive_run (exclusive_origin origin) before
  have hnone : getValue? language (origin.registry.run before).aliases = none := by
    cases h : getValue? language (origin.registry.run before).aliases with
    | none => rfl
    | some other => exact nomatch (hexclusive h).symm.trans hlanguage
  have hshares : (origin.registry.run before).Shares name language := ⟨halias, hnone, g, hlanguage⟩
  exact (shares_run hshares fun op hop => hops op (hdone.subset hop)).interchangeable

/-- Operations on an alias and its language: edits by both names, one that fails, a new grammar for the language and a
    further alias. -/
def sharingOperations : List Operation :=
  [.removeToken "shell" "group", .removeToken "shell" "group", .define "bash" innerSample, .addAlias "sh" "shell",
    .insert "sh" "letter" .after outerSample]

theorem alias_shares_edits :
    let r := Origin.empty.registry.run [.define "bash" outerSample, .addAlias "shell" "bash"]
    getValue? "shell" r.aliases = some "bash" ∧ getValue? "bash" r.languages = some outerSample ∧
      (∀ op ∈ sharingOperations, ¬ op.Parts "shell" "bash") ∧
      (r.run sharingOperations).resolve "shell" = .ok ⟨innerSample.entries ++ outerSample.entries, innerSample.rest⟩ ∧
      (r.run sharingOperations).Interchangeable "shell" "bash" := by
  have halias : getValue? "shell" (Origin.empty.registry.run
      [.define "bash" outerSample, .addAlias "shell" "bash"]).aliases = some "bash" := by decide
  have hlanguage : getValue? "bash" (Origin.empty.registry.run
      [.define "bash" outerSample, .addAlias "shell" "bash"]).languages = some outerSample := rfl
  have hops : ∀ op ∈ sharingOperations, ¬ op.Parts "shell" "bash" := by
    simp [sharingOperations, Operation.Parts]
  exact ⟨halias, hlanguage, hops, rfl,
    alias_shares .empty [.define "bash" outerSample, .addAlias "shell" "bash"] halias hlanguage hops List.prefix_rfl⟩

end Highlight.Registry
