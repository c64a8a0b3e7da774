import Highlight.Proofs.Dangling
import Highlight.Proofs.References
import Highlight.Proofs.Rest

/-! Distinct names. However a grammar is obtained, by setting, removing, merging and inserting entries, by compiling a
    definition or by operations on registries, no two of its entries have the same name. So a name is enough to address
    an entry, and the rules of a level, the whole rest chain among them, come in groups of distinct names
    (`names_distinct`). -/

namespace Highlight

/-- The grammars that an operation is given. -/
def Registry.Operation.grammars : Registry.Operation → List Grammar
  | .define _ g => [g]
  | .extend _ _ overrides => [overrides]
  | .insert _ _ _ entries => [entries]
  | .defineFile .. | .removeToken .. | .addAlias .. => []

namespace Grammar

/-- The grammars that there are: those that come of editing, merging and compiling, and those that a registry has after
    operations. As there are no others, the grammars in place in a rule or a rest are among them. -/
inductive Obtained : Grammar → Prop
  | empty : Obtained .empty
  | set {g name rules} : Obtained g → (∀ rule ∈ rules, ∀ h, rule.inside = some (.inline h) → Obtained h) →
      Obtained (g.set name rules)
  | setRest {g rest} : Obtained g → (∀ h, rest = some (.inline h) → Obtained h) → Obtained (g.setRest rest)
  | removed {g name e g'} : Obtained g → g.remove? name = some (e, g') → Obtained g'
  | merged {g h} : Obtained g → Obtained h → Obtained (g.merged h)
  | spliced {g target placement h g'} : Obtained g → Obtained h → g.splice? target placement h = some g' → Obtained g'
  | compiled {d failures g} : Definition.compile failures d = .ok g → Obtained g
  | registered {origin : Registry.Origin} {ops : List Registry.Operation} {name g} :
      (∀ op ∈ ops, ∀ h ∈ op.grammars, Obtained h) → (origin.registry.run ops).get? name = some g → Obtained g

/-! ### What every way to obtain a grammar keeps -/

/-- The names of the entries are distinct, and the grammars in place are obtained. -/
structure Settled (g : Grammar) : Prop where
  names_nodup : g.names.Nodup
  rules : ∀ e ∈ g.entries, ∀ rule ∈ e.rules, ∀ h, rule.inside = some (.inline h) → h.Obtained
  rest : ∀ h, g.rest = some (.inline h) → h.Obtained

section
variable {g h g' : Grammar} {name target : String} {placement : Placement} {e : Entry} {failures : Nat}

theorem settled_empty : Settled .empty := ⟨List.nodup_nil, fun _ h => (nomatch h), fun _ h => nomatch h⟩

theorem Settled.set {rules : List Rule} (hg : g.Settled)
    (hrules : ∀ rule ∈ rules, ∀ h, rule.inside = some (.inline h) → h.Obtained) : (g.set name rules).Settled := by
  refine ⟨nodup_setEntry hg.names_nodup, fun e he => ?_, hg.rest⟩
  rcases mem_setEntry he with rfl | he
  · exact hrules
  · exact hg.rules e he

theorem Settled.setRest {rest : Option GrammarRef} (hg : g.Settled) (hrest : ∀ h, rest = some (.inline h) → h.Obtained) :
    (g.setRest rest).Settled := ⟨hg.names_nodup, hg.rules, hrest⟩

theorem Settled.remove (hg : g.Settled) (hremove : g.remove? name = some (e, g')) : g'.Settled := by
  obtain ⟨_, -, heq⟩ := Option.map_eq_some_iff.mp hremove
  obtain ⟨-, rfl⟩ := Prod.mk.inj heq
  have hsub : (g.entries.eraseP (·.name == name)).Sublist g.entries := List.eraseP_sublist
  exact ⟨hg.names_nodup.sublist (hsub.map _), fun e he => hg.rules e (hsub.subset he), hg.rest⟩

theorem Settled.merged (hg : g.Settled) (hh : h.Settled) : (g.merged h).Settled := by
  refine ⟨nodup_setEntries hg.names_nodup, fun e he => ?_, fun i hi => ?_⟩
  · rcases mem_setEntries he with he | he
    · exact hg.rules e he
    · exact hh.rules e he
  · rcases Option.or_eq_some_iff.mp hi with hi | ⟨-, hi⟩
    · exact hh.rest i hi
    · exact hg.rest i hi

/-- Entries that are put in take the place of those of the same names, so that no name is doubled. -/
theorem Settled.splice (hg : g.Settled) (hh : h.Settled) (hsplice : g.splice? target placement h = some g') :
    g'.Settled := by
  obtain ⟨hrest, hperm⟩ := perm_splice? hsplice
  have hnames := (names_splice? hg.names_nodup hh.names_nodup hsplice).1
  refine ⟨hnames, fun e he => ?_, fun i hi => hg.rest i (hrest ▸ hi)⟩
  rcases List.mem_append.mp (hperm.mem_iff.mp he) with he | he
  · exact hg.rules e (List.mem_filter.mp he).1
  · exact hh.rules e he

/-! ### Compiled definitions -/

theorem obtained_of_compileInside {inside : InsideDefinition} {ref : GrammarRef}
    (hc : Definition.compileInside failures inside = .ok ref) (hh : ref = .inline h) : h.Obtained := by
  subst hh
  cases inside with
  | named language => cases hc
  | inline d =>
    obtain ⟨i, hi, heq⟩ := bind_eq_ok hc
    obtain rfl := GrammarRef.inline.inj (Except.ok.inj heq)
    exact .compiled hi

theorem obtained_of_compileRule {d : RuleDefinition} {rule : Rule} (hc : Definition.compileRule failures d = .ok rule)
    (hh : rule.inside = some (.inline h)) : h.Obtained := by
  cases d with
  | bare source =>
    obtain ⟨p, -, heq⟩ := bind_eq_ok hc
    obtain rfl := Except.ok.inj heq
    cases hh
  | detailed details =>
    obtain ⟨source, flags, lookbehind, greedy, aliasName, inside⟩ := details
    rw [Definition.compileRule, Definition.compileDetails] at hc
    obtain ⟨p, -, hc⟩ := bind_eq_ok hc
    obtain ⟨ref, href, heq⟩ := bind_eq_ok hc
    obtain rfl := Except.ok.inj heq
    obtain rfl : ref = some (.inline h) := hh
    cases inside with
    | none => cases href
    | some inside =>
      obtain ⟨ref, href, heq⟩ := bind_eq_ok href
      exact obtained_of_compileInside href (Option.some.inj (Except.ok.inj heq))

theorem obtained_of_compileRuleList {ds : List RuleDefinition} {rules : List Rule}
    (hc : Definition.compileRuleList failures ds = .ok rules) :
    ∀ rule ∈ rules, ∀ h, rule.inside = some (.inline h) → h.Obtained := by
  induction ds generalizing rules with
  | nil =>
    obtain rfl := Except.ok.inj hc
    exact fun _ hmem => nomatch hmem
  | cons d ds ih =>
    rw [Definition.compileRuleList] at hc
    obtain ⟨rule, hrule, hc⟩ := bind_eq_ok hc
    obtain ⟨rules', hrules, heq⟩ := bind_eq_ok hc
    obtain rfl := Except.ok.inj heq
    exact List.forall_mem_cons.mpr ⟨fun h => obtained_of_compileRule hrule, ih hrules⟩

theorem obtained_of_compileRules {d : RulesDefinition} {rules : List Rule}
    (hc : Definition.compileRules failures d = .ok rules) :
    ∀ rule ∈ rules, ∀ h, rule.inside = some (.inline h) → h.Obtained := by
  cases d with
  | many ds => exact obtained_of_compileRuleList hc
  | one d =>
    obtain ⟨rule, hrule, heq⟩ := bind_eq_ok hc
    obtain rfl := Except.ok.inj heq
    exact fun r hr h => List.mem_singleton.mp hr ▸ obtained_of_compileRule hrule

theorem obtained_of_compileEntries {ds : List (String × RulesDefinition)} {entries : List (String × List Rule)}
    (hc : Definition.compileEntries failures ds = .ok entries) :
    ∀ e ∈ entries, ∀ rule ∈ e.2, ∀ h, rule.inside = some (.inline h) → h.Obtained := by
  induction ds generalizing entries with
  | nil =>
    obtain rfl := Except.ok.inj hc
    exact fun _ hmem => nomatch hmem
  | cons d ds ih =>
    rw [Definition.compileEntries] at hc
    obtain ⟨rules, hrules, hc⟩ := bind_eq_ok hc
    obtain ⟨entries', hentries, heq⟩ := bind_eq_ok hc
    obtain rfl := Except.ok.inj heq
    exact List.forall_mem_cons.mpr ⟨obtained_of_compileRules hrules, ih hentries⟩

theorem settled_of_compile {d : Definition} (hc : Definition.compile failures d = .ok g) : g.Settled := by
  obtain ⟨ds, rest⟩ := d
  rw [Definition.compile] at hc
  obtain ⟨entries, hentries, heq⟩ := bind_eq_ok hc
  obtain rfl := Except.ok.inj heq
  refine ⟨nodup_setEntries List.nodup_nil, fun e he => ?_, fun h hh => ?_⟩
  · rcases mem_setEntries he with he | he
    · cases he
    · obtain ⟨entry, hentry, rfl⟩ := List.mem_map.mp he
      exact obtained_of_compileEntries hentries entry hentry
  · obtain ⟨language, -, hlanguage⟩ := Option.map_eq_some_iff.mp hh
    cases hlanguage

end
end Grammar

/-! ### Registries -/

namespace Registry
open Grammar

/-- All languages of the registry have settled grammars. -/
def AllSettled (r : Registry) : Prop := ∀ name g, getValue? name r.languages = some g → g.Settled

section
variable {r r' : Registry} {op : Operation} {name : String} {g : Grammar}

theorem allSettled_empty : empty.AllSettled := fun _ _ h => nomatch h

theorem AllSettled.get? (h : r.AllSettled) (hg : r.get? name = some g) : g.Settled := h _ g hg

theorem AllSettled.put (h : r.AllSettled) (hg : g.Settled) (aliases : List (String × String)) :
    AllSettled ⟨putValue name g r.languages, aliases⟩ := by
  intro name' g' hg'
  rw [getValue?_putValue] at hg'
  split at hg'
  · obtain rfl := Option.some.inj hg'
    exact hg
  · exact h name' g' hg'

theorem AllSettled.define (h : r.AllSettled) (hg : g.Settled) : (r.define name g).AllSettled := h.put hg _

theorem AllSettled.defines (h : r.AllSettled) (hop : ∀ h ∈ op.grammars, h.Settled) (hdef : r.Defines op name g) :
    g.Settled := by
  cases hdef with
  | define => exact hop _ List.mem_cons_self
  | defineFile hfile =>
    obtain ⟨d, -, hd⟩ := bind_eq_ok hfile
    exact settled_of_compile hd
  | extend hbase => exact (h.get? hbase).merged (hop _ List.mem_cons_self)

theorem AllSettled.edits (h : r.AllSettled) (hop : ∀ h ∈ op.grammars, h.Settled) (hedit : r.Edits op name g) :
    g.Settled := by
  cases hedit with
  | insert hg hsplice => exact (h.get? hg).splice (hop _ List.mem_cons_self) hsplice
  | removeToken hg hremove => exact (h.get? hg).remove hremove

theorem AllSettled.perform (h : r.AllSettled) (hop : ∀ h ∈ op.grammars, h.Settled) : (r.perform op).AllSettled := by
  have hchange := change_perform r op
  generalize r.perform op = r' at hchange ⊢
  cases hchange with
  | defined hdef => exact h.define (h.defines hop hdef)
  | aliased =>
    intro name g hg
    rw [getValue?_dropValue] at hg
    split at hg
    · cases hg
    · exact h name g hg
  | edited hedit => exact h.put (h.edits hop hedit) _
  | unchanged => exact h

theorem AllSettled.of_ok (h : r.AllSettled) (hok : r.perform? op = .ok r') (hop : ∀ h ∈ op.grammars, h.Settled) :
    r'.AllSettled := perform_of_ok hok ▸ h.perform hop

theorem AllSettled.run {ops : List Operation} (h : r.AllSettled) (hops : ∀ op ∈ ops, ∀ h ∈ op.grammars, h.Settled) :
    (r.run ops).AllSettled := by
  induction ops generalizing r with
  | nil => exact h
  | cons op ops ih =>
    obtain ⟨hop, hops⟩ := List.forall_mem_cons.mp hops
    exact ih (h.perform hop) hops

/-! ### The bundled languages -/

theorem AllSettled.registerC (h : r.AllSettled) (hok : Bundled.C.register r = .ok r') : r'.AllSettled := by
  unfold Bundled.C.register at hok
  obtain ⟨overrides, hoverrides, hok⟩ := bind_eq_ok hok
  obtain ⟨extended, hextend, hok⟩ := bind_eq_ok hok
  obtain ⟨preprocessor, hpreprocessor, hok⟩ := bind_eq_ok hok
  obtain ⟨inserted, hinsert, hok⟩ := bind_eq_ok hok
  obtain ⟨removed, hremove, hok⟩ := bind_eq_ok hok
  cases hok
  have hextend : r.perform? (.extend _ _ _) = .ok extended := hextend
  have hextended := h.of_ok hextend (List.forall_mem_singleton.mpr (settled_of_compile hoverrides))
  have hinsert : extended.perform? (.insert _ _ _ _) = .ok inserted := hinsert
  have hinserted := hextended.of_ok hinsert (List.forall_mem_singleton.mpr (settled_of_compile hpreprocessor))
  have hremoved : inserted.perform? (.removeToken Bundled.C.language "boolean") = .ok removed.2 := by
    rw [perform?, hremove]
    rfl
  exact hinserted.of_ok hremoved (List.forall_mem_nil _)

/-- Taking over rules from another grammar sets entries one after the other. -/
theorem settled_takeOver {source g : Grammar} (hsource : source.Settled) (hg : g.Settled) (names : List String) :
    Settled (names.foldl (fun g name =>
      match source.rules? name with
      | some rules => g.set name rules
      | none => g) g) := by
  induction names generalizing g with
  | nil => exact hg
  | cons name names ih =>
    rw [List.foldl_cons]
    cases hrules : source.rules? name with
    | none => exact ih hg
    | some rules =>
      obtain ⟨e, he, rfl⟩ := Option.map_eq_some_iff.mp hrules
      exact ih (hg.set (hsource.rules e (List.mem_of_find?_eq_some he)))

theorem AllSettled.registerBash (h : r.AllSettled) (hok : Bundled.Bash.register r = .ok r') : r'.AllSettled := by
  unfold Bundled.Bash.register at hok
  obtain ⟨bash, hbash, hok⟩ := bind_eq_ok hok
  obtain ⟨delimiters, hdelimiters, hok⟩ := bind_eq_ok hok
  have hsettled := settled_of_compile hbash
  have hinside := settled_takeOver hsettled (settled_of_compile hdelimiters) Bundled.Bash.shared
  refine foldlM_keeps (P := AllSettled) (fun r name r' hr hadd => ?_) ((h.define hsettled).define hinside) hok
  have hadd : r.perform? (.addAlias _ _) = .ok r' := hadd
  exact hr.of_ok hadd (List.forall_mem_nil _)

theorem allSettled_bundled (hok : Bundled.registry? = .ok r) : r.AllSettled := by
  unfold Bundled.registry? Bundled.register at hok
  obtain ⟨lua, hlua, hok⟩ := bind_eq_ok hok
  obtain ⟨nelua, hnelua, hok⟩ := bind_eq_ok hok
  obtain ⟨clike, hclike, hok⟩ := bind_eq_ok hok
  obtain ⟨c, hc, hok⟩ := bind_eq_ok hok
  refine AllSettled.registerBash (AllSettled.registerC ?_ hc) hok
  exact ((allSettled_empty.define (settled_of_compile hlua)).define (settled_of_compile hnelua)).define
    (settled_of_compile hclike)

theorem allSettled_origin (origin : Origin) : origin.registry.AllSettled := by
  cases origin with
  | empty => exact allSettled_empty
  | bundled =>
    rcases bundled_cases with h | h
    · rw [Origin.registry, h]
      exact allSettled_empty
    · exact allSettled_bundled h

end
end Registry

/-! ### Names address entries -/

namespace Grammar

theorem Obtained.settled {g : Grammar} (h : g.Obtained) : g.Settled := by
  induction h with
  | empty => exact settled_empty
  | set _ hrules ih => exact ih.set hrules
  | setRest _ hrest ih => exact ih.setRest hrest
  | removed _ hremove ih => exact ih.remove hremove
  | merged _ _ ihg ihh => exact ihg.merged ihh
  | spliced _ _ hsplice ihg ihh => exact ihg.splice ihh hsplice
  | compiled hc => exact settled_of_compile hc
  | registered _ hg ih => exact ((Registry.allSettled_origin _).run ih).get? hg

theorem Settled.obtained_of_mem_refs {g h : Grammar} (hg : g.Settled) (hmem : .inline h ∈ g.refs) : h.Obtained := by
  rcases List.mem_append.mp hmem with hmem | hmem
  · obtain ⟨rule, hrule, hinside⟩ := List.mem_filterMap.mp hmem
    obtain ⟨e, he, hrule⟩ := List.mem_flatMap.mp hrule
    exact hg.rules e he rule hrule h hinside
  · exact hg.rest h (Option.mem_toList.mp hmem)

/-- Whoever looks up the name of the entry finds the entry at its place, and no other entry has that name. -/
structure Sole (g : Grammar) (i : Nat) (e : Entry) : Prop where
  position : g.position? e.name = some i
  get : g.get? e.name = some e
  rules : g.rules? e.name = some e.rules
  contains : g.contains e.name = true
  unique : ∀ {j d}, g.entries[j]? = some d → d.name = e.name → j = i

/-- Whoever looks up the name finds nothing. -/
structure Absent (g : Grammar) (name : String) : Prop where
  position : g.position? name = none
  get : g.get? name = none
  rules : g.rules? name = none
  contains : g.contains name = false

theorem absent_of_not_mem {g : Grammar} {name : String} (h : name ∉ g.names) : g.Absent name := by
  have hget : g.get? name = none := by simpa [get?, names] using h
  have hcontains : g.contains name = false := Bool.eq_false_iff.mpr (mt contains_iff.mp h)
  exact ⟨by simpa [contains] using hcontains, hget, by rw [rules?, hget]; rfl, hcontains⟩

theorem sole_of_nodup {g : Grammar} (h : g.names.Nodup) {i : Nat} {e : Entry} (he : g.entries[i]? = some e) :
    g.Sole i e := by
  have hunique : ∀ {j d}, g.entries[j]? = some d → d.name = e.name → j = i := by
    intro j d hd hname
    have hi : g.names[i]? = some e.name := by rw [names, List.getElem?_map, he, Option.map_some]
    have hj : g.names[j]? = some e.name := by rw [names, List.getElem?_map, hd, Option.map_some, hname]
    obtain ⟨hlt, -⟩ := List.getElem?_eq_some_iff.mp hj
    exact (List.getElem?_inj hlt h).mp (hj.trans hi.symm)
  have hposition : g.position? e.name = some i := by
    obtain ⟨hlt, he'⟩ := List.getElem?_eq_some_iff.mp he
    rw [position?, List.findIdx?_eq_some_iff_getElem]
    refine ⟨hlt, by rw [he', beq_self_eq_true], fun j hj hname => ?_⟩
    exact Nat.ne_of_lt hj (hunique (List.getElem?_eq_getElem (Nat.lt_trans hj hlt)) (beq_iff_eq.mp hname))
  have hget : g.get? e.name = some e := by
    rw [position?] at hposition
    rw [get?, List.find?_eq_bind_findIdx?_getElem?, hposition, Option.bind_some, he]
  exact ⟨hposition, hget, by rw [rules?, hget]; rfl, by rw [contains, hposition]; rfl, hunique⟩

/-- No two entries of a grammar have the same name, however it is obtained, and the same holds of the grammars in place
    in it, which are obtained as well. Every look-up by name speaks of the one entry that has the name, and the rules of
    a level with the grammar are those of entries with distinct names too, whatever its rest chain is. -/
theorem names_distinct {g : Grammar} (h : g.Obtained) :
    g.names.Nodup ∧ (∀ inner, .inline inner ∈ g.refs → inner.Obtained) ∧
      (∀ i e, g.entries[i]? = some e → g.Sole i e) ∧ (∀ name, name ∉ g.names → g.Absent name) ∧
      ∀ t : Tokenizer, ((Tokenizer.activeEntries g (t.chain g)).map (·.name)).Nodup ∧
        t.levelRules g = Tokenizer.activeRules (Tokenizer.activeEntries g (t.chain g)) := by
  have hsettled := h.settled
  refine ⟨hsettled.names_nodup, fun _ => hsettled.obtained_of_mem_refs, fun _ _ => sole_of_nodup hsettled.names_nodup,
    fun _ => absent_of_not_mem, fun t => ⟨?_, rfl⟩⟩
  rw [Tokenizer.activeEntries_eq]
  exact nodup_setEntries List.nodup_nil

/-- A grammar to put in, of which one name is new to most others. -/
def digitSample : Grammar :=
  ((empty.set "letter" [{ pattern := .literal "l" }]).set "digit" [{ pattern := .literal "1" }]).setRest none

theorem obtained_digitSample : digitSample.Obtained :=
  .setRest (.set (.set .empty (by simp)) (by simp)) (by simp)

/-- A grammar with a rest, and with a grammar in place for the inside of a rule. -/
def groupSample : Grammar :=
  ((empty.set "group" [{ pattern := .literal "(", inside := some (.inline digitSample) }]).set "letter"
    [{ pattern := .literal "a" }]).setRest (some (.named "derived"))

theorem obtained_groupSample : groupSample.Obtained :=
  .setRest (.set (.set .empty (by simp [obtained_digitSample])) (by simp)) (by simp)

/-- Operations by which names meet: entries are put in beside one of the same name, and set on top of others. -/
def meetingOperations : List Registry.Operation :=
  [.define "base" groupSample, .insert "base" "group" .after digitSample, .addAlias "other" "base",
    .extend "derived" "other" groupSample]

theorem names_distinct_meeting :
    ∃ g, (Registry.Origin.empty.registry.run meetingOperations).get? "derived" = some g ∧ g.Obtained ∧
      g.names = ["group", "letter", "digit"] ∧ .inline digitSample ∈ g.refs ∧
      g.names.Nodup ∧ digitSample.Obtained ∧ g.Sole 2 ⟨"digit", [{ pattern := .literal "1" }]⟩ ∧ g.Absent "word" := by
  have hgrammars : ∀ op ∈ meetingOperations, ∀ h ∈ op.grammars, h.Obtained := by
    simp [meetingOperations, Registry.Operation.grammars, obtained_groupSample, obtained_digitSample]
  have hget : (Registry.Origin.empty.registry.run meetingOperations).get? "derived" = some _ := rfl
  have hobtained := Obtained.registered hgrammars hget
  obtain ⟨hnodup, hinside, hsole, habsent, -⟩ := names_distinct hobtained
  exact ⟨_, rfl, hobtained, rfl, List.mem_cons_self, hnodup, hinside _ List.mem_cons_self, hsole 2 _ rfl,
    habsent "word" (by decide)⟩

end Grammar
end Highlight
