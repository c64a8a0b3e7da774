import Highlight.Proofs.References

/-! Kinds of tokens. What the tokens of a text are called, at every level, are names and aliases that stand in the
    grammar or in one that is reached from it by references (`kinds_of_levels`). -/

namespace Highlight

namespace Token

mutual
/-- What the token and the tokens inside it are called. -/
def kinds : Token → List String
  | ⟨name, aliasName, content, _⟩ => (aliasName.or name).toList ++ contentKinds content

def contentKinds : Content → List String
  | .text _ => []
  | .nested tokens => kindsOf tokens

def kindsOf : List Token → List String
  | [] => []
  | t :: ts => kinds t ++ kindsOf ts
end

mutual
theorem kinds_mapOffsets (f : Nat → Nat) : ∀ t : Token, (mapOffsets f t).kinds = t.kinds
  | ⟨name, aliasName, content, _⟩ => congrArg ((aliasName.or name).toList ++ ·) (contentKinds_mapContent f content)

theorem contentKinds_mapContent (f : Nat → Nat) : ∀ content : Content,
    contentKinds (mapContent f content) = contentKinds content
  | .text _ => rfl
  | .nested tokens => kindsOf_mapOffsetsOf f tokens

theorem kindsOf_mapOffsetsOf (f : Nat → Nat) : ∀ tokens : List Token, kindsOf (mapOffsetsOf f tokens) = kindsOf tokens
  | [] => rfl
  | t :: ts => by rw [mapOffsetsOf, kindsOf, kindsOf, kinds_mapOffsets f t, kindsOf_mapOffsetsOf f ts]
end

theorem mem_kindsOf {kind : String} {tokens : List Token} : kind ∈ kindsOf tokens ↔ ∃ t ∈ tokens, kind ∈ t.kinds := by
  induction tokens with
  | nil => simp [kindsOf]
  | cons t ts ih => simp [kindsOf, ih]

theorem mem_kinds {kind : String} {t : Token} :
    kind ∈ t.kinds ↔ t.kind? = some kind ∨ ∃ inner, t.content = .nested inner ∧ kind ∈ kindsOf inner := by
  obtain ⟨name, aliasName, content, span⟩ := t
  rw [kinds, List.mem_append, Option.mem_toList]
  refine or_congr Iff.rfl ?_
  cases content with
  | text => simp [contentKinds]
  | nested inner => simp [contentKinds]

end Token

/-- What the tokens of a rule are called. -/
def Rule.kind (rule : Rule) (name : String) : String := rule.aliasName.getD name

namespace Tokenizer
open Token

section
variable {engine : Engine} {inside : ActiveRule → List Char → Logged Content} {bytes : Nat → Nat} {t : Tokenizer}
  {g : Grammar} {part : List Char}

/-- What no rule has found is plain text. -/
theorem plain_of_split {rules : List Contender} {offset : Nat} {out : Logged (List Token)}
    (h : Split engine inside bytes rules offset part out) :
    ∀ token ∈ out.value, token.isClassified = false → ∃ text span, token = .plain text span := by
  induction h with
  | done =>
    intro token hmem
    cases hmem
  | rest =>
    intro token hmem _
    exact ⟨_, _, List.mem_singleton.mp hmem⟩
  | @turn _ _ _ gap _ _ _ _ _ _ _ _ _ _ _ ih =>
    intro token hmem hc
    rcases List.mem_append.mp hmem with hplain | hmem
    · cases gap with
      | nil => cases hplain
      | cons c gap => exact ⟨_, _, List.mem_singleton.mp hplain⟩
    · rcases List.mem_cons.mp hmem with rfl | hmem
      · cases hc
      · exact ih token hmem hc

/-- A token of a level is called as a rule that is active in the level calls it. -/
theorem kind_of_level (he : t.engine.Bounded) {inside : ActiveRule → List Char → Logged Content} {token : Token}
    {kind : String} (hmem : token ∈ (t.level inside g part).value) (hkind : token.kind? = some kind) :
    ∃ active ∈ t.levelRules g, active.rule.kind active.name = kind := by
  cases hc : token.isClassified with
  | true =>
    obtain ⟨rules, offset, pick, matched, htakes, -, rfl, -⟩ := found_of_level he hmem hc
    refine ⟨pick.active, active_of_takes he htakes, ?_⟩
    have hkind : pick.active.rule.aliasName.or (some pick.active.name) = some kind := hkind
    rw [Rule.kind]
    cases halias : pick.active.rule.aliasName with
    | none => simpa [halias] using hkind
    | some aliasName => simpa [halias] using hkind
  | false =>
    rw [value_level] at hmem
    obtain ⟨text, span, rfl⟩ := plain_of_split (split_level he inside g part) token hmem hc
    cases hkind

/-- What the tokens of a text are called stands in a grammar that is reached. -/
theorem kinds_of_levels (he : t.engine.Bounded) {P : String → Prop} {depth : Nat}
    (hP : ∀ h, g.Reaches t.language? h → ∀ e ∈ h.entries, ∀ rule ∈ e.rules, P (rule.kind e.name)) :
    ∀ kind ∈ kindsOf (t.levels depth g part).value, P kind := by
  induction depth using Nat.strongRecOn generalizing g part with
  | ind depth ih =>
    intro kind hkind
    obtain ⟨token, hmem, hkind⟩ := mem_kindsOf.mp hkind
    rcases mem_kinds.mp hkind with hkind | ⟨inner, hinner, hkind⟩
    · rw [levels_eq] at hmem
      obtain ⟨active, hactive, rfl⟩ := kind_of_level he hmem hkind
      obtain ⟨h, hreaches, e, he, hname, hrule⟩ := entry_of_levelRules hactive
      exact hname ▸ hP h hreaches e he _ hrule
    · obtain ⟨depth', rfl, active, hactive, -, ref, h, hinside, hh, matched, -, rfl, -⟩ :=
        nested_of_levels he hmem hinner
      obtain ⟨i, hreaches, hmem⟩ := reaches_of_levelRules hactive hinside
      have hrefers : i.RefersTo t.language? h := refersTo_of_resolve hmem hh
      rw [kindsOf_mapOffsetsOf] at hkind
      exact ih depth' (Nat.lt_succ_self depth') (fun i' hi' => hP i' ((hreaches.tail hrefers).trans hi')) kind hkind

end
end Tokenizer
end Highlight
