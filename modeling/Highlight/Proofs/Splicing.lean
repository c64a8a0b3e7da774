import Highlight.Proofs.Engine
import Highlight.Proofs.Entries

/-! Putting entries next to another. They come where the other stands or right behind it, and entries of the same names
    are dropped before and behind them; so each name stands once, with the rules that were put in if there are any
    (`splice?_places`). -/

namespace Highlight

/-- The place of entries that are put next to the one at place `i`. -/
def Placement.place : Placement → Nat → Nat
  | before, i => i
  | after, i => i + 1

/-- The entries that have none of the names. -/
def withoutNames (names : List String) (entries : List Entry) : List Entry :=
  entries.filter fun e => !names.contains e.name

section
variable {es fs : List Entry} {names : List String} {name : String}

theorem mem_withoutNames {e : Entry} : e ∈ withoutNames names es ↔ e ∈ es ∧ e.name ∉ names := by
  simp [withoutNames]

theorem withoutNames_append : withoutNames names (es ++ fs) = withoutNames names es ++ withoutNames names fs :=
  List.filter_append ..

theorem withoutNames_eq_self (h : ∀ e ∈ es, e.name ∉ names) : withoutNames names es = es :=
  List.filter_eq_self.mpr fun e he => by simpa using h e he

theorem withoutNames_eq_nil (h : ∀ e ∈ es, e.name ∈ names) : withoutNames names es = [] :=
  List.filter_eq_nil_iff.mpr fun e he => by simpa using h e he

theorem withoutNames_cons (name : String) (names : List String) (es : List Entry) :
    withoutNames (name :: names) es = withoutNames names (withoutNames [name] es) := by
  rw [withoutNames, withoutNames, withoutNames, List.filter_filter]
  refine List.filter_congr fun e _ => ?_
  simp [Bool.not_or, Bool.and_comm]

theorem find?_withoutNames :
    (withoutNames names es).find? (·.name == name) = if name ∈ names then none else es.find? (·.name == name) := by
  induction es with
  | nil => simp [withoutNames]
  | cons e es ih =>
    by_cases hout : e.name ∈ names <;> by_cases heq : e.name = name <;> simp_all [withoutNames]

end

namespace Grammar

/-- Takes the entries of some names out, one after the other; each must be there. -/
def removeAll? (g : Grammar) (names : List String) : Option Grammar :=
  names.foldlM (fun g name => (g.remove? name).map (·.2)) g

section
variable {g g' inserted : Grammar} {name target : String} {placement : Placement} {i : Nat}

/-! ### Taking entries out -/

theorem eraseP_eq_withoutNames {es : List Entry} (h : (es.map (·.name)).Nodup) :
    es.eraseP (·.name == name) = withoutNames [name] es := by
  induction es with
  | nil => rfl
  | cons e es ih =>
    obtain ⟨he, hes⟩ := List.nodup_cons.mp h
    by_cases hname : e.name = name
    · have hout : withoutNames [name] es = es := by
        refine withoutNames_eq_self fun d hd hmem => he ?_
        exact List.mem_map.mpr ⟨d, hd, (List.mem_singleton.mp hmem).trans hname.symm⟩
      rw [List.eraseP_cons, hname, beq_self_eq_true, cond_true, ← hout]
      simp [withoutNames, hname]
    · rw [List.eraseP_cons, beq_false_of_ne hname, cond_false, ih hes]
      simp [withoutNames, hname]

theorem remove?_of_mem (hg : g.names.Nodup) (h : name ∈ g.names) :
    (g.remove? name).map (·.2) = some { g with entries := withoutNames [name] g.entries } := by
  obtain ⟨⟨e, g'⟩, hremove⟩ := exists_remove? h
  rw [hremove]
  obtain ⟨_, -, heq⟩ := Option.map_eq_some_iff.mp hremove
  obtain ⟨-, rfl⟩ := Prod.mk.inj heq
  rw [eraseP_eq_withoutNames hg]
  rfl

/-- Names that are there can be taken out, and then the other entries are left. -/
theorem removeAll?_of_mem {names : List String} (hg : g.names.Nodup) (hnames : names.Nodup)
    (h : ∀ name ∈ names, name ∈ g.names) : g.removeAll? names = some { g with entries := withoutNames names g.entries } := by
  induction names generalizing g with
  | nil =>
    obtain ⟨entries, rest⟩ := g
    have hall : withoutNames [] entries = entries := withoutNames_eq_self fun _ _ => List.not_mem_nil
    rw [hall]
    rfl
  | cons name names ih =>
    obtain ⟨hname, hnames⟩ := List.nodup_cons.mp hnames
    obtain ⟨hmem, hrest⟩ := List.forall_mem_cons.mp h
    have hsub : ((withoutNames [name] g.entries).map (·.name)).Sublist g.names := List.filter_sublist.map _
    rw [removeAll?, List.foldlM_cons, remove?_of_mem hg hmem, withoutNames_cons name names]
    refine @ih ⟨withoutNames [name] g.entries, g.rest⟩ (hg.sublist hsub) hnames fun other hother => ?_
    obtain ⟨e, he, rfl⟩ := List.mem_map.mp (hrest other hother)
    exact List.mem_map_of_mem (mem_withoutNames.mpr ⟨he, fun heq => hname (List.mem_singleton.mp heq ▸ hother)⟩)

/-! ### Putting entries in -/

theorem splice?_of_position? (h : g.position? target = some i) :
    g.splice? target placement inserted = some ⟨withoutNames inserted.names (g.entries.take (placement.place i)) ++
      inserted.entries ++ withoutNames inserted.names (g.entries.drop (placement.place i)), g.rest⟩ := by
  obtain ⟨hlt, hfirst⟩ := List.findIdx?_eq_some_iff_findIdx_eq.mp h
  have hfront : (g.entries.takeWhile fun e => e.name != target) = g.entries.take i := by
    rw [List.takeWhile_eq_take_findIdx_not, ← hfirst]
    simp [bne]
  have hdrop : g.entries.drop i = g.entries[i] :: g.entries.drop (i + 1) := List.drop_eq_getElem_cons hlt
  have htake : g.entries.take (i + 1) = g.entries.take i ++ [g.entries[i]] := (List.take_append_getElem hlt).symm
  rw [splice?]
  simp only [hfront, List.length_take_of_le hlt.le, hdrop]
  cases placement with
  | before =>
    have hcons : g.entries[i] :: g.entries.drop (i + 1) = [g.entries[i]] ++ g.entries.drop (i + 1) := rfl
    rw [Placement.place, hdrop, hcons, withoutNames_append]
    simp only [withoutNames, List.append_assoc]
  | after =>
    rw [Placement.place, htake, withoutNames_append]
    simp only [withoutNames, List.append_assoc]

/-- A name that was put in has the rules that were put in with it, and any other the rules that it had. -/
theorem get?_of_position? (h : g.position? target = some i) (hsplice : g.splice? target placement inserted = some g') :
    g'.get? name = if name ∈ inserted.names then inserted.get? name else g.get? name := by
  obtain rfl := Option.some.inj ((splice?_of_position? h).symm.trans hsplice)
  have hinserted : inserted.get? name = none ↔ name ∉ inserted.names := by simp [get?, names]
  simp only [get?, List.find?_append, find?_withoutNames] at hinserted ⊢
  split
  · rename_i hmem
    cases hfind : inserted.entries.find? (·.name == name) with
    | none => exact absurd hmem (hinserted.mp hfind)
    | some e => rfl
  · rename_i hmem
    rw [hinserted.mpr hmem, Option.or_none, ← List.find?_append, List.take_append_drop]

/-- Entries under names that were not there before are put in so that taking them out again, in whatever order, gives
    what was there. -/
theorem removeAll?_splice? (hg : g.names.Nodup) (hi : inserted.names.Nodup) (hdisjoint : ∀ name ∈ g.names, name ∉ inserted.names)
    (h : g.position? target = some i) (hsplice : g.splice? target placement inserted = some g')
    {names : List String} (hnames : names.Perm inserted.names) : g'.removeAll? names = some g := by
  obtain ⟨hnodup, hmem⟩ := names_splice? hg hi hsplice
  rw [removeAll?_of_mem hnodup (hnames.nodup_iff.mpr hi) fun name hname =>
    (hmem name).mpr (Or.inr (hnames.mem_iff.mp hname))]
  obtain rfl := Option.some.inj ((splice?_of_position? h).symm.trans hsplice)
  -- Nothing was dropped, and only what was put in is taken out.
  have hkept : ∀ {es : List Entry}, es ⊆ g.entries → ∀ e ∈ es, e.name ∉ inserted.names := fun hsub e he =>
    hdisjoint _ (List.mem_map_of_mem (hsub he))
  have htaken : withoutNames names inserted.entries = [] :=
    withoutNames_eq_nil fun e he => hnames.mem_iff.mpr (List.mem_map_of_mem he)
  have hleft : ∀ {es : List Entry}, es ⊆ g.entries → withoutNames names es = es := fun hsub =>
    withoutNames_eq_self fun e he hmem => hkept hsub e he (hnames.mem_iff.mp hmem)
  rw [withoutNames_eq_self (hkept (List.take_subset _ _)), withoutNames_eq_self (hkept (List.drop_subset _ _)),
    withoutNames_append, withoutNames_append, htaken, hleft (List.take_subset _ _), hleft (List.drop_subset _ _),
    List.append_nil, List.take_append_drop]
  cases g
  rfl

end

/-- Entries are put next to another exactly if that one is there. They come where it stands or right behind it, in their
    order, and of the entries before and behind them those are kept, in their order, that have other names. So each name
    of either grammar stands once, with the rules that were put in if there are any, the name next to which they were put
    among them. Names that were not there before can be taken out again. -/
theorem splice?_places {g inserted : Grammar} (hg : g.names.Nodup) (hi : inserted.names.Nodup) (target : String)
    (placement : Placement) :
    (target ∉ g.names → g.splice? target placement inserted = none) ∧
    (target ∈ g.names → ∃ i g', g.position? target = some i ∧ g.splice? target placement inserted = some g' ∧
      g'.rest = g.rest ∧
      g'.entries = withoutNames inserted.names (g.entries.take (placement.place i)) ++ inserted.entries ++
        withoutNames inserted.names (g.entries.drop (placement.place i)) ∧
      g'.names.Nodup ∧ (∀ name, name ∈ g'.names ↔ name ∈ g.names ∨ name ∈ inserted.names) ∧
      (∀ name, g'.get? name = if name ∈ inserted.names then inserted.get? name else g.get? name) ∧
      ((∀ name ∈ g.names, name ∉ inserted.names) →
        ∀ names, names.Perm inserted.names → g'.removeAll? names = some g)) := by
  refine ⟨splice?_eq_none.mpr, fun htarget => ?_⟩
  obtain ⟨i, hposition⟩ := Option.isSome_iff_exists.mp (contains_iff.mpr htarget)
  have hsplice := @splice?_of_position? g inserted target placement i hposition
  obtain ⟨hnodup, hmem⟩ := names_splice? hg hi hsplice
  exact ⟨i, _, hposition, hsplice, rfl, rfl, hnodup, hmem, fun _ => get?_of_position? hposition hsplice,
    fun hdisjoint _ => removeAll?_splice? hg hi hdisjoint hposition hsplice⟩

/-- A grammar with three entries. -/
def threeSample : Grammar :=
  ⟨[⟨"comment", [{ pattern := .literal "#" }]⟩, ⟨"string", [{ pattern := .literal "'" }]⟩,
    ⟨"number", [{ pattern := .literal "1" }]⟩], some (.named "lua")⟩

/-- Entries of which one moves forward and one replaces another. -/
def meetingSample : Grammar :=
  ⟨[⟨"number", [{ pattern := .literal "2" }]⟩, ⟨"string", [{ pattern := .literal "q" }]⟩,
    ⟨"macro", [{ pattern := .literal "$" }]⟩], none⟩

/-- Entries that are new to the others. -/
def newSample : Grammar :=
  ⟨[⟨"macro", [{ pattern := .literal "$" }]⟩, ⟨"label", [{ pattern := .literal ":" }]⟩], none⟩

/-- The entry next to which others are put may itself be replaced. -/
theorem splice?_places_meeting :
    threeSample.names.Nodup ∧ meetingSample.names.Nodup ∧ newSample.names.Nodup ∧
      threeSample.splice? "macro" .after meetingSample = none ∧
      (∃ g', threeSample.splice? "string" .after meetingSample = some g' ∧
        g'.names = ["comment", "number", "string", "macro"] ∧ g'.get? "string" = meetingSample.get? "string") ∧
      ∃ g', threeSample.splice? "string" .before newSample = some g' ∧
        g'.names = ["comment", "macro", "label", "string", "number"] ∧
        g'.removeAll? ["label", "macro"] = some threeSample := by
  have hthree : threeSample.names.Nodup := by decide
  have hmeeting : meetingSample.names.Nodup := by decide
  have hnew : newSample.names.Nodup := by decide
  obtain ⟨hnone, -⟩ := splice?_places hthree hmeeting "macro" .after
  obtain ⟨-, hmet⟩ := splice?_places hthree hmeeting "string" .after
  obtain ⟨-, hadded⟩ := splice?_places hthree hnew "string" .before
  obtain ⟨i, g₁, hposition, hsplice, -, hentries, -, -, hget, -⟩ := hmet (by decide)
  obtain ⟨j, g₂, hposition', hsplice', -, hentries', -, -, -, hremove⟩ := hadded (by decide)
  obtain rfl : 1 = i := Option.some.inj hposition
  obtain rfl : 1 = j := Option.some.inj hposition'
  refine ⟨hthree, hmeeting, hnew, hnone (by decide), ⟨g₁, hsplice, ?_, hget "string"⟩, g₂, hsplice', ?_, ?_⟩
  · rw [names, hentries]
    decide
  · rw [names, hentries']
    decide
  · exact hremove (by decide) _ (List.Perm.swap _ _ _)

end Grammar
end Highlight
