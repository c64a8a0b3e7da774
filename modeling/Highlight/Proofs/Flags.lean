import Mathlib.Data.List.Induction
import Mathlib.Data.List.Pairwise
import Highlight.Proofs.Acceptance
import Highlight.Proofs.Compiled
import Highlight.Proofs.Sameness

/-! What flags count for. Of its flags a pattern keeps the modes, each once, in the order in which they first occur. So two
    patterns compare equal just if they have the same source and their flags hold the same modes, which have to come in the
    same order (`modesOf_eq_iff`), and what is equal of patterns is so of rules and grammars. -/

namespace Highlight

namespace Pattern

/-! ### Modes among flags -/

/-- The modes among flags, each once, in the order in which they first occur. -/
def modesOf (flags : List Char) : List Char := (flags.filter isMode).eraseDups

/-- A mode stands among flags. -/
def Holds (flags : List Char) (mode : Char) : Prop := isMode mode = true ∧ mode ∈ flags

/-- A flag first occurs before another one. -/
def Before (flags : List Char) (a b : Char) : Prop := flags.idxOf a < flags.idxOf b

def SameModes (flags flags' : List Char) : Prop := ∀ mode, Holds flags mode ↔ Holds flags' mode

/-- The modes that both flags hold first occur in the same order in them. -/
def SameOrder (flags flags' : List Char) : Prop :=
  ∀ a b, Holds flags a → Holds flags' a → Holds flags b → Holds flags' b → Before flags a b → Before flags' a b

section
variable {flags flags' : List Char} {flag mode a b : Char}

theorem Before.ne (h : Before flags a b) : a ≠ b := by
  rintro rfl
  exact Nat.lt_irrefl _ h

theorem mem_modesOf : mode ∈ modesOf flags ↔ Holds flags mode := by
  rw [modesOf, List.mem_eraseDups, List.mem_filter, Holds, and_comm]

/-- One more flag is noted if it is a mode that did not occur before. -/
theorem modesOf_concat : modesOf (flags ++ [flag]) =
    if isMode flag = true ∧ flag ∉ flags then modesOf flags ++ [flag] else modesOf flags := by
  rw [modesOf, List.filter_append, List.eraseDups_append, modesOf]
  cases hmode : isMode flag with
  | false => simp [hmode]
  | true =>
    rw [List.filter_cons_of_pos hmode, List.filter_nil, List.cons_removeAll]
    by_cases hmem : flag ∈ flags
    · simp [hmem, hmode]
    · simp [hmem, hmode, List.removeAll, List.eraseDups_cons]

/-- The modes stand in the order of their first occurrences. -/
theorem pairwise_modesOf (flags : List Char) : (modesOf flags).Pairwise (Before flags) := by
  -- By the last flag: it leaves first occurrences before it where they are, and comes behind all of them if it is new.
  induction flags using List.reverseRecOn with
  | nil => exact .nil
  | append_singleton flags flag ih =>
    have hold : ∀ {a}, a ∈ modesOf flags → (flags ++ [flag]).idxOf a = flags.idxOf a := fun ha =>
      List.idxOf_append_of_mem (mem_modesOf.mp ha).2
    have hkept : (modesOf flags).Pairwise (Before (flags ++ [flag])) := by
      refine ih.imp_of_mem fun ha hb hlt => ?_
      rwa [Before, hold ha, hold hb]
    rw [modesOf_concat]
    split
    · rename_i hnew
      refine List.pairwise_append.mpr ⟨hkept, List.pairwise_singleton _ _, fun a ha b hb => ?_⟩
      obtain rfl := List.mem_singleton.mp hb
      rw [Before, hold ha, List.idxOf_append_of_notMem hnew.2]
      exact Nat.lt_add_right _ (List.idxOf_lt_length_of_mem (mem_modesOf.mp ha).2)
    · exact hkept

theorem nodup_modesOf (flags : List Char) : (modesOf flags).Nodup := (pairwise_modesOf flags).imp Before.ne

theorem sameOrder_of_modesOf_eq (h : modesOf flags = modesOf flags') : SameOrder flags flags' := by
  intro a b ha _ hb _ hbefore
  have hpairs : (modesOf flags).Pairwise (fun a b =>
      (Before flags a b ∧ Before flags' a b) ∨ (Before flags b a ∧ Before flags' b a)) :=
    ((pairwise_modesOf flags).and (h ▸ pairwise_modesOf flags')).imp Or.inl
  -- Two modes stand one way round in both lists, and a relation that holds both ways round can be read off any two members.
  have : Std.Symm fun a b => (Before flags a b ∧ Before flags' a b) ∨ (Before flags b a ∧ Before flags' b a) :=
    ⟨fun _ _ => Or.symm⟩
  rcases hpairs.forall (mem_modesOf.mpr ha) (mem_modesOf.mpr hb) hbefore.ne with hfirst | hfirst
  · exact hfirst.2
  · exact absurd hbefore (Nat.lt_asymm hfirst.1)

/-- The modes and their order are all that remains of flags. -/
theorem modesOf_eq_iff : modesOf flags = modesOf flags' ↔ SameModes flags flags' ∧ SameOrder flags flags' := by
  constructor
  · intro h
    refine ⟨fun mode => ?_, sameOrder_of_modesOf_eq h⟩
    rw [← mem_modesOf, ← mem_modesOf, h]
  · rintro ⟨hmodes, horder⟩
    have hperm : (modesOf flags).Perm (modesOf flags') := by
      refine (List.perm_ext_iff_of_nodup (nodup_modesOf _) (nodup_modesOf _)).mpr fun mode => ?_
      rw [mem_modesOf, mem_modesOf]
      exact hmodes mode
    have hordered : (modesOf flags).Pairwise (Before flags') := by
      refine (pairwise_modesOf flags).imp_of_mem fun {a b} ha hb hbefore => ?_
      have ha := mem_modesOf.mp ha
      have hb := mem_modesOf.mp hb
      exact horder a b ha ((hmodes a).mp ha) hb ((hmodes b).mp hb) hbefore
    exact hperm.eq_of_pairwise (fun _ _ _ _ hlt hgt => absurd hgt (Nat.lt_asymm hlt)) hordered (pairwise_modesOf flags')

end

/-! ### Patterns -/

/-- What is written for two patterns, a source with flags each, has the same source, and the same modes in the same
    order. -/
def WrittenAlike (written written' : String × String) : Prop :=
  written.1 = written'.1 ∧ SameModes written.2.toList written'.2.toList ∧ SameOrder written.2.toList written'.2.toList

/-- The pattern is compiled from a source with flags. -/
def WrittenAs (written : String × String) (p : Pattern) : Prop :=
  ∃ failures, compile written.1 written.2 failures = .ok p

section
variable {written written' : String × String} {source flags : String} {failures : Nat} {p q : Pattern}

theorem beq_iff : (p == q) = true ↔ p.source = q.source ∧ p.flags = q.flags := by
  show (p.source == q.source && p.flags == q.flags) = true ↔ _
  rw [Bool.and_eq_true, beq_iff_eq, beq_iff_eq]

theorem beq_iff_writtenAlike (hp : p.WrittenAs written) (hq : q.WrittenAs written') :
    (p == q) = true ↔ WrittenAlike written written' := by
  obtain ⟨_, hp⟩ := hp
  obtain ⟨_, hq⟩ := hq
  have hp := compiledFrom_of_compile hp
  have hq := compiledFrom_of_compile hq
  have hflags : p.flags = q.flags ↔ modesOf written.2.toList = modesOf written'.2.toList := by
    rw [← String.toList_inj, hp.flags, hq.flags]
    rfl
  rw [beq_iff, hp.source, hq.source, hflags, modesOf_eq_iff, WrittenAlike]

/-- The flags that a pattern keeps are its modes themselves. -/
theorem modes?_flags (h : compile source flags failures = .ok p) : modes? p.flags.toList = .ok p.flags.toList := by
  have hmodes : ∀ mode ∈ p.flags.toList, isMode mode = true := (compile_inv h).1
  obtain ⟨modes, hok⟩ := exists_modes?_iff.mpr fun mode hmode => mem_allowedFlags.mpr (Or.inl (hmodes mode hmode))
  have hnodup : p.flags.toList.Nodup := (compiledFrom_of_compile h).flags ▸ nodup_modesOf flags.toList
  have heq : modes = p.flags.toList := by
    rw [modes?_eq_ok hok, List.filter_eq_self.mpr hmodes, eraseDups_of_nodup hnodup]
  rw [hok, heq]

theorem compile_flags (h : compile source flags failures = .ok p) (failures' : Nat) :
    compile source p.flags failures' = .ok { p with failures := failures' } := by
  have hmodes := modes?_flags h
  obtain ⟨modes, -, h⟩ := bind_eq_ok h
  obtain ⟨program, hprogram, h⟩ := bind_eq_ok h
  obtain ⟨anchored, hanchored, h⟩ := bind_eq_ok h
  obtain rfl := Except.ok.inj h
  rw [String.toList_ofList] at hmodes
  refine bind_eq_ok_iff.mpr ⟨modes, by rwa [String.toList_ofList], ?_⟩
  exact bind_eq_ok_iff.mpr ⟨program, hprogram, bind_eq_ok_iff.mpr ⟨anchored, hanchored, rfl⟩⟩

end

/-! ### Rules and grammars -/

theorem sameEach_iff {written written' : List (String × String)} {ps qs : List Pattern}
    (hps : List.Forall₂ WrittenAs written ps) (hqs : List.Forall₂ WrittenAs written' qs) :
    SameEach ps qs ↔ List.Forall₂ WrittenAlike written written' := by
  induction hps generalizing written' qs with
  | nil => cases hqs <;> simp
  | cons hp _ ih =>
    cases hqs with
    | nil => simp
    | cons hq hqs => simp only [List.forall₂_cons, beq_iff_writtenAlike hp hq, ih hqs]

/-- Flags count for their modes and the order in which these first occur, and for nothing else. Two patterns compare equal
    just if they have the same source and flags with the same modes in the same order; rules and grammars just if they are
    alike apart from patterns, and what is written for their patterns, at every depth, is so one by one. The flags that a
    pattern keeps give an equal pattern when it is compiled with them again. -/
theorem flags_normalize {source source' flags flags' : String} {failures failures' : Nat} {p q : Pattern}
    (hp : compile source flags failures = .ok p) (hq : compile source' flags' failures' = .ok q) :
    ((p == q) = true ↔
      source = source' ∧ SameModes flags.toList flags'.toList ∧ SameOrder flags.toList flags'.toList) ∧
    (∀ {r s : Rule} {written written'}, List.Forall₂ WrittenAs written r.patterns →
      List.Forall₂ WrittenAs written' s.patterns →
      ((r == s) = true ↔ r.form = s.form ∧ List.Forall₂ WrittenAlike written written')) ∧
    (∀ {g h : Grammar} {written written'}, List.Forall₂ WrittenAs written g.patterns →
      List.Forall₂ WrittenAs written' h.patterns →
      ((g == h) = true ↔ g.form = h.form ∧ List.Forall₂ WrittenAlike written written')) ∧
    ∀ failures', ∃ again, compile source p.flags failures' = .ok again ∧ (again == p) = true := by
  have hwp : p.WrittenAs (source, flags) := ⟨failures, hp⟩
  have hwq : q.WrittenAs (source', flags') := ⟨failures', hq⟩
  refine ⟨beq_iff_writtenAlike hwp hwq, fun {r s written written'} hr hs => ?_, fun {g h written written'} hg hh => ?_,
    fun failures' => ?_⟩
  · exact (Rule.same_iff r s).trans (and_congr_right fun _ => sameEach_iff hr hs)
  · exact (Grammar.same_iff g h).trans (and_congr_right fun _ => sameEach_iff hg hh)
  · exact ⟨_, compile_flags hp failures', beq_iff.mpr ⟨rfl, rfl⟩⟩

/-- A grammar with one pattern in a rule, and another one in the grammar for its inside. -/
def nestedSample (p q : Pattern) : Grammar :=
  let inner : Grammar := ⟨[⟨"inner", [{ pattern := q }]⟩], some (.named "base")⟩
  ⟨[⟨"outer", [{ pattern := p, greedy := true, inside := some (.inline inner) }]⟩], none⟩

/-- Flags that are ignored or repeated make no difference, at no depth. -/
theorem flags_normalize_nested : ∃ p q, compile "a" "gimm" defaultFailures = .ok p ∧
    compile "a" "iymi" defaultFailures = .ok q ∧ (p == q) = true ∧ (nestedSample p q == nestedSample q p) = true ∧
    ∃ again, compile "a" p.flags defaultFailures = .ok again ∧ (again == p) = true := by
  have hrun : ((compile "a" "gimm" defaultFailures).toOption.isSome, (compile "a" "iymi" defaultFailures).toOption.isSome) =
      (true, true) := by decide +kernel
  obtain ⟨p, hp⟩ := Option.isSome_iff_exists.mp (Prod.mk.inj hrun).1
  obtain ⟨q, hq⟩ := Option.isSome_iff_exists.mp (Prod.mk.inj hrun).2
  have hp := toOption_eq_some hp
  have hq := toOption_eq_some hq
  have hmodes : modesOf "gimm".toList = modesOf "iymi".toList := by decide
  have hwp : p.WrittenAs ("a", "gimm") := ⟨_, hp⟩
  have hwq : q.WrittenAs ("a", "iymi") := ⟨_, hq⟩
  have halike : List.Forall₂ WrittenAlike [("a", "gimm"), ("a", "iymi")] [("a", "iymi"), ("a", "gimm")] :=
    .cons ⟨rfl, modesOf_eq_iff.mp hmodes⟩ (.cons ⟨rfl, modesOf_eq_iff.mp hmodes.symm⟩ .nil)
  obtain ⟨hpattern, -, hgrammar, hagain⟩ := flags_normalize hp hq
  refine ⟨p, q, hp, hq, hpattern.mpr ⟨rfl, modesOf_eq_iff.mp hmodes⟩, ?_, hagain defaultFailures⟩
  exact (hgrammar (.cons hwp (.cons hwq .nil)) (.cons hwq (.cons hwp .nil))).mpr ⟨rfl, halike⟩

/-- With the same modes in another order, the patterns differ, and so do the grammars. -/
theorem flags_normalize_fails : ∃ p q, compile "a" "im" defaultFailures = .ok p ∧
    compile "a" "mi" defaultFailures = .ok q ∧ SameModes "im".toList "mi".toList ∧ (p == q) = false ∧
    (nestedSample p p == nestedSample p q) = false := by
  have hrun : ((compile "a" "im" defaultFailures).toOption.map (·.flags),
      (compile "a" "mi" defaultFailures).toOption.map (·.flags)) = (some "im", some "mi") := by decide +kernel
  obtain ⟨p, hp, hpflags⟩ := Option.map_eq_some_iff.mp (Prod.mk.inj hrun).1
  obtain ⟨q, hq, hqflags⟩ := Option.map_eq_some_iff.mp (Prod.mk.inj hrun).2
  have hmodes : SameModes "im".toList "mi".toList := fun mode => by simp [Holds, or_comm]
  have hne : ¬ (p == q) = true := fun h => by
    have hflags := (beq_iff.mp h).2
    rw [hpflags, hqflags] at hflags
    exact absurd hflags (by decide)
  have hne' : ¬ (nestedSample p p == nestedSample p q) = true := fun h => by
    obtain ⟨-, heach⟩ := (Grammar.same_iff _ _).mp h
    exact hne (List.forall₂_cons.mp (List.forall₂_cons.mp heach).2).1
  exact ⟨p, q, toOption_eq_some hp, toOption_eq_some hq, hmodes, Bool.eq_false_iff.mpr hne, Bool.eq_false_iff.mpr hne'⟩

end Pattern

end Highlight
