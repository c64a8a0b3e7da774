import Highlight.Proofs.Entries
import Highlight.Proofs.Frame

/-! Grammars on top of one another. Putting them on top of one another is associative, the grammar without entries
    changes nothing, and neither does a grammar that is put on top of itself (`merged_monoid`). A language that
    is extended twice thus has the grammar of one that is extended once, by both overrides put together. -/

namespace Highlight

section
variable {es fs gs : List Entry} {d e : Entry}

/-! ### Setting an entry again -/

theorem setEntry_setEntry_of_eq (h : d.name = e.name) : setEntry (setEntry es d) e = setEntry es e := by
  induction es with
  | nil => exact setEntry_cons_of_eq h
  | cons f fs ih =>
    by_cases hf : f.name = d.name
    · rw [setEntry_cons_of_eq hf, setEntry_cons_of_eq h, setEntry_cons_of_eq (hf.trans h)]
    · have hf' : f.name ≠ e.name := fun heq => hf (heq.trans h.symm)
      rw [setEntry_cons_of_ne hf, setEntry_cons_of_ne hf', setEntry_cons_of_ne hf', ih]

theorem setEntry_comm (hmem : e.name ∈ es.map (·.name)) (hne : d.name ≠ e.name) :
    setEntry (setEntry es d) e = setEntry (setEntry es e) d := by
  induction es with
  | nil => cases hmem
  | cons f fs ih =>
    by_cases hd : f.name = d.name
    · have he : f.name ≠ e.name := fun heq => hne (hd.symm.trans heq)
      rw [setEntry_cons_of_eq hd, setEntry_cons_of_ne hne, setEntry_cons_of_ne he, setEntry_cons_of_eq hd]
    · rw [setEntry_cons_of_ne hd]
      by_cases he : f.name = e.name
      · rw [setEntry_cons_of_eq he, setEntry_cons_of_eq he, setEntry_cons_of_ne (Ne.symm hne)]
      · have hfs : e.name ∈ fs.map (·.name) := by simpa [Ne.symm he] using hmem
        rw [setEntry_cons_of_ne he, setEntry_cons_of_ne he, setEntry_cons_of_ne hd, ih hfs]

theorem mem_names_setEntry : e.name ∈ (setEntry es e).map (·.name) := by
  rw [names_setEntry]
  split
  · assumption
  · simp

theorem setEntry_setEntries (hmem : e.name ∈ es.map (·.name)) (hfs : e.name ∉ fs.map (·.name)) :
    setEntry (setEntries es fs) e = setEntries (setEntry es e) fs := by
  induction fs generalizing es with
  | nil => rfl
  | cons f fs ih =>
    obtain ⟨hf, hfs⟩ := not_or.mp (mt List.mem_cons.mpr hfs)
    have hmem' : e.name ∈ (setEntry es f).map (·.name) := by
      rw [names_setEntry]
      split
      · exact hmem
      · exact List.mem_append_left _ hmem
    show setEntry (setEntries (setEntry es f) fs) e = setEntries (setEntry (setEntry es e) f) fs
    rw [ih hmem' hfs, setEntry_comm hmem (Ne.symm hf)]

/-- It makes no difference whether an entry is set in what is put on top or afterwards. -/
theorem setEntries_setEntry (hfs : (fs.map (·.name)).Nodup) :
    setEntries es (setEntry fs e) = setEntry (setEntries es fs) e := by
  induction fs generalizing es with
  | nil => rfl
  | cons f fs ih =>
    obtain ⟨hf, hnodup⟩ := List.nodup_cons.mp hfs
    show setEntries es (setEntry (f :: fs) e) = setEntry (setEntries (setEntry es f) fs) e
    by_cases hname : f.name = e.name
    · -- The name of `f` has its place by then, so that `e` can be set at once, in place of `f`.
      have hmem : e.name ∈ (setEntry es f).map (·.name) := hname ▸ mem_names_setEntry
      rw [setEntry_cons_of_eq hname, setEntry_setEntries hmem (hname ▸ hf), setEntry_setEntry_of_eq hname]
      rfl
    · rw [setEntry_cons_of_ne hname]
      exact ih hnodup

theorem setEntries_setEntries (hfs : (fs.map (·.name)).Nodup) :
    setEntries es (setEntries fs gs) = setEntries (setEntries es fs) gs := by
  induction gs generalizing fs with
  | nil => rfl
  | cons g gs ih =>
    show setEntries es (setEntries (setEntry fs g) gs) = setEntries (setEntry (setEntries es fs) g) gs
    rw [ih (nodup_setEntry hfs), setEntries_setEntry hfs]

/-! ### Setting what is there -/

theorem setEntry_of_mem (hes : (es.map (·.name)).Nodup) (h : e ∈ es) : setEntry es e = es := by
  induction es with
  | nil => cases h
  | cons d ds ih =>
    obtain ⟨hd, hds⟩ := List.nodup_cons.mp hes
    rcases List.mem_cons.mp h with rfl | h
    · exact setEntry_cons_of_eq rfl
    · have hne : d.name ≠ e.name := fun heq => hd (List.mem_map.mpr ⟨e, h, heq.symm⟩)
      rw [setEntry_cons_of_ne hne, ih hds h]

theorem setEntries_of_subset (hes : (es.map (·.name)).Nodup) (h : fs ⊆ es) : setEntries es fs = es := by
  induction fs with
  | nil => rfl
  | cons f fs ih =>
    obtain ⟨hf, hfs⟩ := List.cons_subset.mp h
    show setEntries (setEntry es f) fs = es
    rw [setEntry_of_mem hes hf, ih hfs]

end

/-! ### Grammars -/

namespace Grammar
variable {g h k : Grammar}

theorem merged_assoc (hh : h.names.Nodup) : (g.merged h).merged k = g.merged (h.merged k) := by
  simp only [merged, setEntries_setEntries hh, Option.or_assoc]

theorem empty_merged (hg : g.names.Nodup) : empty.merged g = g := by
  cases g
  simp only [merged, empty, setEntries_nil hg, Option.or_none]

theorem merged_empty (g : Grammar) : g.merged empty = g := by
  cases g
  rfl

theorem merged_self (hg : g.names.Nodup) : g.merged g = g := by
  cases g
  simp only [merged, setEntries_of_subset hg (List.Subset.refl _), Option.or_self]

end Grammar

namespace Registry
variable {r : Registry} {name base : String} {g overrides : Grammar}

theorem extend_of_some (h : r.get? base = some g) : r.extend name base overrides = .ok (r.define name (g.merged overrides)) :=
  Defines.perform?_eq (.extend h)

theorem extend_of_none (h : r.get? base = none) : r.extend name base overrides = .error (.unknownGrammar base) := by
  rw [extend, resolve_of_none h]
  rfl

end Registry

namespace Grammar

/-- Putting grammars on top of one another is associative, with the grammar without entries as its unit, and idempotent.
    A language that is extended once, and its extension once more, has the grammar that one extension by both overrides
    together has; both ways fail if the language is not there. -/
theorem merged_monoid {a b c : Grammar} (ha : a.names.Nodup) (hb : b.names.Nodup) :
    (a.merged b).merged c = a.merged (b.merged c) ∧ empty.merged a = a ∧ a.merged empty = a ∧ a.merged a = a ∧
    ∀ (r : Registry) (first second base : String),
      (∀ g, r.get? base = some g → ∃ r₁ r₂ r', r.extend first base b = .ok r₁ ∧ r₁.extend second first c = .ok r₂ ∧
        r.extend second base (b.merged c) = .ok r' ∧ r₂.get? second = r'.get? second ∧
        r'.get? second = some (g.merged (b.merged c))) ∧
      (r.get? base = none → r.extend first base b = .error (.unknownGrammar base) ∧
        r.extend second base (b.merged c) = .error (.unknownGrammar base)) := by
  refine ⟨merged_assoc hb, empty_merged ha, merged_empty a, merged_self ha, fun r first second base => ⟨fun g hg => ?_, ?_⟩⟩
  · have hfirst : (r.define first (g.merged b)).get? first = some (g.merged b) := Registry.get?_define _ _ _
    refine ⟨_, _, _, Registry.extend_of_some hg, Registry.extend_of_some hfirst, Registry.extend_of_some hg, ?_,
      Registry.get?_define _ _ _⟩
    rw [Registry.get?_define, Registry.get?_define, merged_assoc hb]
  · intro hnone
    exact ⟨Registry.extend_of_none hnone, Registry.extend_of_none hnone⟩

/-- A grammar, and two of which each sets some of the names of those before it anew. -/
def baseSample : Grammar :=
  ⟨[⟨"comment", [{ pattern := .literal "#" }]⟩, ⟨"string", [{ pattern := .literal "'" }]⟩], some (.named "lua")⟩

def dialectSample : Grammar :=
  ⟨[⟨"macro", [{ pattern := .literal "$" }]⟩, ⟨"string", [{ pattern := .literal "q" }]⟩], none⟩

def projectSample : Grammar :=
  ⟨[⟨"number", [{ pattern := .literal "1" }]⟩, ⟨"comment", [{ pattern := .literal ";" }]⟩,
    ⟨"macro", [{ pattern := .literal "%" }]⟩], some (.named "c")⟩

theorem merged_monoid_overlapping :
    baseSample.names.Nodup ∧ dialectSample.names.Nodup ∧
      (baseSample.merged dialectSample).merged projectSample = baseSample.merged (dialectSample.merged projectSample) ∧
      (baseSample.merged (dialectSample.merged projectSample)).names = ["comment", "string", "macro", "number"] ∧
      empty.merged baseSample = baseSample ∧ baseSample.merged baseSample = baseSample ∧
      ∃ r₁ r₂, (Registry.empty.define "base" baseSample).extend "dialect" "base" dialectSample = .ok r₁ ∧
        r₁.extend "project" "dialect" projectSample = .ok r₂ ∧
        r₂.get? "project" = some (baseSample.merged (dialectSample.merged projectSample)) := by
  have hbase : baseSample.names.Nodup := by decide
  have hdialect : dialectSample.names.Nodup := by decide
  obtain ⟨hassoc, hempty, -, hself, hextend⟩ := merged_monoid (c := projectSample) hbase hdialect
  obtain ⟨hfound, -⟩ := hextend (Registry.empty.define "base" baseSample) "dialect" "project" "base"
  obtain ⟨r₁, r₂, r', hfirst, hsecond, -, hsame, honce⟩ := hfound baseSample (Registry.get?_define _ _ _)
  exact ⟨hbase, hdialect, hassoc, by decide, hempty, hself, r₁, r₂, hfirst, hsecond, hsame.trans honce⟩

end Grammar
end Highlight
