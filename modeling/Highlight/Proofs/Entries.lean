import Highlight.Grammar
import Mathlib.Data.List.Basic
import Mathlib.Data.List.TakeWhile

/-! Setting entries. Of entries that are set one after the other, each name keeps the place where it was set
    first and the rules that were set last. -/

namespace Highlight

section
variable {es fs : List Entry} {d e : Entry} {name : String}

/-! ### One entry -/

theorem setEntry_cons_of_eq (h : d.name = e.name) : setEntry (d :: es) e = e :: es := by
  simp [setEntry, h]

theorem setEntry_cons_of_ne (h : d.name ≠ e.name) : setEntry (d :: es) e = d :: setEntry es e := by
  simp [setEntry, h]

theorem names_setEntry :
    (setEntry es e).map (·.name) =
      if e.name ∈ es.map (·.name) then es.map (·.name) else es.map (·.name) ++ [e.name] := by
  induction es with
  | nil => rfl
  | cons d ds ih =>
    by_cases hd : d.name = e.name
    · simp [setEntry_cons_of_eq hd, hd]
    · rw [setEntry_cons_of_ne hd, List.map_cons, ih]
      split <;> rename_i hmem <;> simp [hmem, Ne.symm hd]

theorem nodup_setEntry (h : (es.map (·.name)).Nodup) : ((setEntry es e).map (·.name)).Nodup := by
  rw [names_setEntry]
  split
  · exact h
  · rename_i hmem
    refine List.nodup_append.mpr ⟨h, by simp, fun a ha b hb hab => hmem ?_⟩
    obtain rfl := List.mem_singleton.mp hb
    exact hab ▸ ha

theorem setEntry_new (h : e.name ∉ es.map (·.name)) : setEntry es e = es ++ [e] := by
  induction es with
  | nil => rfl
  | cons d ds ih =>
    obtain ⟨hd, hds⟩ := not_or.mp (mt List.mem_cons.mpr h)
    rw [setEntry_cons_of_ne (Ne.symm hd), ih hds, List.cons_append]

theorem find?_setEntry :
    (setEntry es e).find? (·.name == name) = if e.name == name then some e else es.find? (·.name == name) := by
  induction es with
  | nil => cases h : e.name == name <;> simp [setEntry, h]
  | cons d ds ih =>
    by_cases hd : d.name = e.name
    · cases h : e.name == name <;> simp [setEntry_cons_of_eq hd, hd, h]
    · rw [setEntry_cons_of_ne hd, List.find?_cons, List.find?_cons, ih]
      cases h : d.name == name with
      | false => rfl
      | true =>
        have hne : (e.name == name) = false := by
          rw [← beq_iff_eq.mp h]
          exact beq_eq_false_iff_ne.mpr (Ne.symm hd)
        simp only [hne, Bool.false_eq_true, if_false]

theorem mem_setEntry (h : d ∈ setEntry es e) : d = e ∨ d ∈ es := by
  induction es with
  | nil => exact Or.inl (List.mem_singleton.mp h)
  | cons f fs ih =>
    rw [setEntry] at h
    split at h
    · exact (List.mem_cons.mp h).imp_right (List.mem_cons_of_mem f)
    · rcases List.mem_cons.mp h with rfl | h
      · exact Or.inr List.mem_cons_self
      · exact (ih h).imp_right (List.mem_cons_of_mem f)

/-! ### One after the other -/

theorem setEntries_append (es fs gs : List Entry) : setEntries es (fs ++ gs) = setEntries (setEntries es fs) gs :=
  List.foldl_append

theorem nodup_setEntries (h : (es.map (·.name)).Nodup) : ((setEntries es fs).map (·.name)).Nodup := by
  induction fs generalizing es with
  | nil => exact h
  | cons f fs ih => exact ih (nodup_setEntry h)

theorem mem_setEntries (h : d ∈ setEntries es fs) : d ∈ es ∨ d ∈ fs := by
  induction fs generalizing es with
  | nil => exact Or.inl h
  | cons f fs ih =>
    rcases ih h with h | h
    · rcases mem_setEntry h with rfl | h
      · exact Or.inr List.mem_cons_self
      · exact Or.inl h
    · exact Or.inr (List.mem_cons_of_mem f h)

/-- Entries with new names follow those that are there. -/
theorem setEntries_new (h : ((es ++ fs).map (·.name)).Nodup) : setEntries es fs = es ++ fs := by
  induction fs generalizing es with
  | nil => exact (List.append_nil es).symm
  | cons f fs ih =>
    have hassoc : es ++ f :: fs = es ++ [f] ++ fs := List.append_cons es f fs
    have hnew : f.name ∉ es.map (·.name) := by
      rw [List.map_append, List.map_cons] at h
      exact fun hmem => (List.nodup_append.mp h).2.2 _ hmem _ List.mem_cons_self rfl
    rw [hassoc] at h ⊢
    show setEntries (setEntry es f) fs = _
    rw [setEntry_new hnew, ih h]

theorem setEntries_nil (h : (fs.map (·.name)).Nodup) : setEntries [] fs = fs := setEntries_new h

theorem eraseDups_of_nodup {α : Type} [BEq α] [LawfulBEq α] {as : List α} (h : as.Nodup) : as.eraseDups = as := by
  induction as with
  | nil => rfl
  | cons a as ih =>
    obtain ⟨ha, has⟩ := List.nodup_cons.mp h
    have hkeep : (as.filter fun b => !b == a) = as := by
      refine List.filter_eq_self.mpr fun b hb => ?_
      have hba : (b == a) = false := beq_eq_false_iff_ne.mpr fun heq => ha (heq ▸ hb)
      rw [hba, Bool.not_false]
    rw [List.eraseDups_cons, hkeep, ih has]

/-- Each name stands where it was set first. -/
theorem names_setEntries (hes : (es.map (·.name)).Nodup) :
    (setEntries es fs).map (·.name) = (es.map (·.name) ++ fs.map (·.name)).eraseDups := by
  induction fs generalizing es with
  | nil =>
    rw [List.map_nil, List.append_nil]
    exact (eraseDups_of_nodup hes).symm
  | cons f fs ih =>
    show (setEntries (setEntry es f) fs).map (·.name) = _
    rw [ih (nodup_setEntry hes), names_setEntry, List.map_cons]
    split
    · rename_i hmem
      rw [List.eraseDups_append, List.eraseDups_append, List.cons_removeAll, if_neg (by simpa using hmem)]
    · rw [List.append_assoc, List.singleton_append]

/-- Each name has the rules that were set last. -/
theorem find?_setEntries :
    (setEntries es fs).find? (·.name == name) =
      (fs.findRev? (·.name == name)).or (es.find? (·.name == name)) := by
  induction fs generalizing es with
  | nil => rfl
  | cons f fs ih =>
    show (setEntries (setEntry es f) fs).find? (·.name == name) = _
    rw [ih, find?_setEntry, List.findRev?]
    cases fs.findRev? (·.name == name) with
    | some e => rfl
    | none => cases f.name == name <;> rfl

theorem find?_of_mem (hes : (es.map (·.name)).Nodup) (h : e ∈ es) : es.find? (·.name == e.name) = some e := by
  induction es with
  | nil => cases h
  | cons d ds ih =>
    obtain ⟨hd, hds⟩ := List.nodup_cons.mp hes
    rcases List.mem_cons.mp h with rfl | h
    · rw [List.find?_cons, beq_self_eq_true]
    · have hne : d.name ≠ e.name := fun heq => hd (List.mem_map.mpr ⟨e, h, heq.symm⟩)
      rw [List.find?_cons, beq_false_of_ne hne, ih hds h]

/-- Entries that are set one after the other come to those that were set last, in the order in which their names were set
    first. -/
theorem setEntries_eq_filterMap (fs : List Entry) :
    setEntries [] fs = (fs.map (·.name)).eraseDups.filterMap fun name => fs.findRev? (·.name == name) := by
  have hnodup : ((setEntries [] fs).map (·.name)).Nodup := nodup_setEntries List.nodup_nil
  have hnames : (setEntries [] fs).map (·.name) = (fs.map (·.name)).eraseDups := names_setEntries List.nodup_nil
  have hlast : ∀ name, fs.findRev? (·.name == name) = (setEntries [] fs).find? (·.name == name) := fun name => by
    rw [find?_setEntries, List.find?_nil, Option.or_none]
  simp only [← hnames, hlast, List.filterMap_map]
  have hfound := List.filterMap_eq_map_iff_forall_eq_some.mpr fun e he => find?_of_mem hnodup he
  exact (hfound.trans (List.map_id _)).symm

end

/-! ### Entries by name -/

namespace Grammar

theorem contains_iff {g : Grammar} {name : String} : g.contains name = true ↔ name ∈ g.names := by
  simp [contains, position?, names]

theorem remove?_eq_none {g : Grammar} {name : String} : g.remove? name = none ↔ name ∉ g.names := by
  simp [remove?, get?, names]

/-- Entries are put next to another exactly if that one is there. -/
theorem splice?_eq_none {g inserted : Grammar} {target : String} {placement : Placement} :
    g.splice? target placement inserted = none ↔ target ∉ g.names := by
  have hdrop : g.entries.drop (g.entries.takeWhile fun e => e.name != target).length =
      g.entries.dropWhile fun e => e.name != target :=
    (congrArg (List.drop _) List.takeWhile_append_dropWhile.symm).trans List.drop_left
  have hempty : (g.entries.dropWhile fun e => e.name != target) = [] ↔ target ∉ g.names := by
    simp [names, List.dropWhile_eq_nil_iff]
  rw [← hempty, splice?]
  simp only [hdrop]
  cases g.entries.dropWhile fun e => e.name != target <;> simp

theorem exists_remove? {g : Grammar} {name : String} (h : name ∈ g.names) : ∃ removed, g.remove? name = some removed :=
  Option.ne_none_iff_exists'.mp (mt remove?_eq_none.mp (not_not.mpr h))

theorem exists_splice? {g : Grammar} {target : String} (placement : Placement) (inserted : Grammar)
    (h : target ∈ g.names) :
    ∃ spliced, g.splice? target placement inserted = some spliced :=
  Option.ne_none_iff_exists'.mp (mt splice?_eq_none.mp (not_not.mpr h))

/-- Putting entries next to another keeps the entries of other names and adds the new ones. -/
theorem perm_splice? {g inserted g' : Grammar} {target : String} {placement : Placement}
    (h : g.splice? target placement inserted = some g') :
    g'.rest = g.rest ∧
      g'.entries.Perm (g.entries.filter (fun e => !inserted.names.contains e.name) ++ inserted.entries) := by
  rw [splice?] at h
  have htake : g.entries.take (g.entries.takeWhile fun e => e.name != target).length =
      g.entries.takeWhile fun e => e.name != target :=
    (List.prefix_iff_eq_take.mp (List.takeWhile_prefix _)).symm
  have hparts := List.take_append_drop (g.entries.takeWhile fun e => e.name != target).length g.entries
  rw [htake] at hparts
  cases hbehind : g.entries.drop (g.entries.takeWhile fun e => e.name != target).length with
  | nil => simp only [hbehind, reduceCtorEq] at h
  | cons e behind =>
    simp only [hbehind] at h hparts
    obtain rfl := Option.some.inj h
    refine ⟨rfl, ?_⟩
    generalize (g.entries.takeWhile fun e => e.name != target) = front at hparts
    rw [← hparts, List.append_cons]
    simp only [List.filter_append, List.append_assoc]
    refine List.Perm.append_left _ ?_
    cases placement with
    | before =>
      rw [List.append_assoc]
      exact List.perm_append_comm.trans (by simp)
    | after =>
      rw [List.append_assoc]
      exact List.Perm.append_left _ List.perm_append_comm

/-- Each name of either grammar then stands once. -/
theorem names_splice? {g inserted g' : Grammar} {target : String} {placement : Placement} (hg : g.names.Nodup)
    (hi : inserted.names.Nodup) (h : g.splice? target placement inserted = some g') :
    g'.names.Nodup ∧ ∀ name, name ∈ g'.names ↔ name ∈ g.names ∨ name ∈ inserted.names := by
  obtain ⟨-, hperm⟩ := perm_splice? h
  have hnames : g'.names.Perm (g.names.filter (!inserted.names.contains ·) ++ inserted.names) := by
    have hfilter : (g.entries.map (·.name)).filter (!inserted.names.contains ·) =
        (g.entries.filter fun e => !inserted.names.contains e.name).map (·.name) := List.filter_map
    have hmap := hperm.map (·.name)
    rwa [List.map_append, ← hfilter] at hmap
  refine ⟨?_, fun name => ?_⟩
  · rw [hnames.nodup_iff, List.nodup_append]
    refine ⟨hg.filter _, hi, fun n hn n' hn' heq => ?_⟩
    have hout : n ∉ inserted.names := by simpa using (List.mem_filter.mp hn).2
    exact hout (heq ▸ hn')
  · rw [hnames.mem_iff, List.mem_append, List.mem_filter]
    by_cases hmem : name ∈ inserted.names <;> simp [hmem]

end Grammar

/-! ### Grammars on top of one another -/

theorem entries_foldl_merged (g : Grammar) (chain : List Grammar) :
    (chain.foldl Grammar.merged g).entries = setEntries g.entries (chain.flatMap (·.entries)) := by
  induction chain generalizing g with
  | nil => rfl
  | cons h chain ih => rw [List.foldl_cons, ih, List.flatMap_cons, setEntries_append, Grammar.merged]

end Highlight
