import Highlight.Command
import Highlight.Proofs.Readings
import Highlight.Proofs.Writes

/-! The settings of a command, told without the way in which they are read: which file they are from, and that the
    defaults, the values of the file and those of the options are written one after the other (`load_eq_ok`). -/

namespace Highlight

namespace Settings
open Setting

/-! ### What is written -/

/-- The writes of an entry of a file. A value that comes to a place of a list is written at once. -/
def writesOfEntry (key : String) (value : Setting) : List Write :=
  let steps := stepsOfFileKey key
  if steps.all SettingStep.isName then writes steps value else [⟨steps, value⟩]

def writesOfFile (entries : Toml.Entries) : List Write :=
  entries.flatMap fun (key, value) => writesOfEntry key (.ofToml value)

def defaultWrites : List Write := [
  ⟨[.name "tokenizer", .name "max_depth"], .integer defaults.maxDepth⟩,
  ⟨[.name "tokenizer", .name "backtrack_limit"], .integer defaults.failures⟩,
  ⟨[.name "output", .name "format"], .text defaults.format⟩]

theorem stepsOfFileKey_ne_nil (key : String) : stepsOfFileKey key ≠ [] := by
  unfold stepsOfFileKey SettingStep.ofKey?
  cases SettingStep.readName? key.toList with
  | none => exact List.cons_ne_nil _ _
  | some read =>
    obtain ⟨first, rest⟩ := read
    cases hmore : SettingStep.readMore? rest.length rest with
    | none => simp [hmore]
    | some more => simp [hmore]

theorem performAll_writesOfEntry (key : String) (value setting : Setting) :
    performAll (writesOfEntry key value) setting = Setting.assign value (stepsOfFileKey key) setting := by
  unfold writesOfEntry
  dsimp only
  split
  · rename_i hnames
    exact performAll_writes_of_all (stepsOfFileKey_ne_nil key) hnames value setting
  · rfl

theorem layFile_eq (entries : Toml.Entries) (setting : Setting) :
    layFile setting entries = performAll (writesOfFile entries) setting := by
  induction entries generalizing setting with
  | nil => rfl
  | cons entry entries ih =>
    rw [writesOfFile, List.flatMap_cons, performAll_append, performAll_writesOfEntry]
    exact ih _

theorem groupOf_eq_ok {name : String} {setting group : Setting} :
    groupOf name setting = .ok group ↔ setting.at? [name] = some group := by
  rw [groupOf, at?_cons]
  cases getValue? name setting.entries <;> simp [at?]

theorem base_eq : base = performAll defaultWrites (.group []) := by rfl

end Settings

/-! ### The layers of a command -/

namespace Command
open Settings Setting

/-- The text of the file that a path asks for: the one of that name, or else the one with `.toml` behind it. -/
inductive FoundAt (surroundings : Surroundings) (path : String) : String → Prop
  | named {text : String} : surroundings.file? path = some text → FoundAt surroundings path text
  | extended {text : String} : surroundings.file? path = none → surroundings.file? (path ++ ".toml") = some text →
      FoundAt surroundings path text

/-- The entries of the file with settings: of the one that an option asks for, or of the local one, if there is one. -/
inductive Entered (surroundings : Surroundings) : Option String → Toml.Entries → Prop
  | asked {path text : String} {entries : Toml.Entries} : FoundAt surroundings path text →
      Toml.read? text.toList = some entries → Entered surroundings (some path) entries
  | present {text : String} {entries : Toml.Entries} : FoundAt surroundings "hilite.toml" text →
      Toml.read? text.toList = some entries → Entered surroundings none entries
  | absent : (∀ text, ¬FoundAt surroundings "hilite.toml" text) → Entered surroundings none []

def optionWrites (options : TokenizeOptions) : List Write :=
  (options.format.map fun format => ⟨[.name "output", .name "format"], .text format⟩).toList ++
    (options.language.map fun language => ⟨[.name "output", .name "language"], .text language⟩).toList

/-- What is written into the settings of a command, whose file has these entries. -/
def writesOver (options : TokenizeOptions) (entries : Toml.Entries) : List Write :=
  defaultWrites ++ writesOfFile entries ++ optionWrites options

def written (options : TokenizeOptions) (entries : Toml.Entries) : Setting :=
  performAll (writesOver options entries) (.group [])

section
variable {surroundings : Surroundings} {options : TokenizeOptions} {setting : Setting} {path text : String}

theorem foundAt_iff :
    FoundAt surroundings path text ↔ (settingsPaths path).findSome? surroundings.file? = some text := by
  rw [settingsPaths, List.findSome?_cons]
  constructor
  · rintro (h | ⟨hnone, h⟩)
    · rw [h]
    · rw [hnone, List.findSome?_cons, h]
  · intro h
    cases hpath : surroundings.file? path with
    | some found =>
      rw [hpath] at h
      exact .named (hpath.trans h)
    | none =>
      rw [hpath, List.findSome?_cons] at h
      cases hextended : surroundings.file? (path ++ ".toml") with
      | some found =>
        rw [hextended] at h
        exact .extended hpath (hextended.trans h)
      | none =>
        rw [hextended] at h
        cases h

theorem entriesOfFile_some {entries : Toml.Entries} {isRequired : Bool} :
    entriesOfFile (some text) isRequired = .ok entries ↔ Toml.read? text.toList = some entries := by
  rw [entriesOfFile]
  cases Toml.read? text.toList <;> simp

theorem entriesOfFile_eq_ok {asked : Option String} {entries : Toml.Entries} :
    entriesOfFile ((settingsPaths (asked.getD localSettings)).findSome? surroundings.file?) asked.isSome = .ok entries ↔
      Entered surroundings asked entries := by
  cases hread : (settingsPaths (asked.getD localSettings)).findSome? surroundings.file? with
  | some text =>
    rw [entriesOfFile_some]
    cases asked with
    | some path =>
      refine ⟨.asked (foundAt_iff.mpr hread), ?_⟩
      rintro (⟨hfound, hentries⟩ | _)
      rwa [Option.some.inj ((foundAt_iff.mp hfound).symm.trans hread)] at hentries
    | none =>
      refine ⟨.present (foundAt_iff.mpr hread), ?_⟩
      rintro (_ | ⟨hfound, hentries⟩ | habsent)
      · rwa [Option.some.inj ((foundAt_iff.mp hfound).symm.trans hread)] at hentries
      · exact absurd (foundAt_iff.mpr hread) (habsent text)
  | none =>
    have hnone : ∀ text, ¬FoundAt surroundings (asked.getD localSettings) text := fun text hfound => by
      cases hread.symm.trans (foundAt_iff.mp hfound)
    cases asked with
    | some path =>
      refine ⟨nofun, ?_⟩
      rintro (⟨hfound, -⟩ | _)
      exact absurd hfound (hnone _)
    | none =>
      constructor
      · intro h
        exact Except.ok.inj h ▸ .absent hnone
      · rintro (_ | ⟨hfound, -⟩ | _)
        · exact absurd hfound (hnone _)
        · rfl

theorem merged_eq_ok : merged (layers surroundings options) = .ok setting ↔
    ∃ entries, Entered surroundings options.settings entries ∧ written options entries = setting := by
  have hformat : SettingStep.ofKey? "output.format" = some [.name "output", .name "format"] := by rfl
  have hlanguage : SettingStep.ofKey? "output.language" = some [.name "output", .name "language"] := by rfl
  have hvalues : values (layers surroundings options) =
      .ok ((optionWrites options).map fun write => (write.steps, write.value)) := by
    cases hf : options.format <;> cases hl : options.language <;>
      simp [layers, hf, hl, values, hformat, hlanguage, optionWrites, bind, Except.bind, pure, Except.pure]
  obtain ⟨more, hlayers, hmore⟩ : ∃ more, layers surroundings options =
      .file ((settingsPaths (options.settings.getD localSettings)).findSome? surroundings.file?)
        options.settings.isSome :: more ∧ files more = .ok [] := by
    cases hf : options.format <;> cases hl : options.language <;> exact ⟨_, by simp only [layers, hf, hl]; rfl, rfl⟩
  have hfiles : files (layers surroundings options) =
      (entriesOfFile ((settingsPaths (options.settings.getD localSettings)).findSome? surroundings.file?)
        options.settings.isSome).map fun entries => [entries] := by
    rw [hlayers, files, hmore]
    cases entriesOfFile _ options.settings.isSome <;> rfl
  have hwritten : ∀ entries, performAll (optionWrites options) (layFile base entries) = written options entries :=
    fun entries => by
      rw [written, writesOver, performAll_append, performAll_append, ← base_eq, ← layFile_eq]
  simp only [← entriesOfFile_eq_ok, merged, hvalues, hfiles]
  cases entriesOfFile _ options.settings.isSome with
  | error cause => simp [bind, Except.bind, Except.map]
  | ok entries =>
    simp only [bind, Except.bind, Except.map, pure, Except.pure, List.foldl_map, Except.ok.injEq, exists_eq_left']
    change performAll (optionWrites options) (layFile base entries) = setting ↔ _
    rw [hwritten]

end

/-! ### The settings that a command ends up with -/

/-- The settings of a command: what the groups of all that is written have for them. -/
structure Configuration (surroundings : Surroundings) (options : TokenizeOptions) extends Settings where
  entries : Toml.Entries
  tokenizer : Setting
  output : Setting
  entered : Entered surroundings options.settings entries
  tokenizer_at : (written options entries).at? ["tokenizer"] = some tokenizer
  output_at : (written options entries).at? ["output"] = some output
  maxDepth_part : ∃ part, Part "max_depth" 0 tokenizer part ∧ CountsOr defaults.maxDepth part maxDepth
  failures_part : ∃ part, Part "backtrack_limit" 1 tokenizer part ∧ CountsOr defaults.failures part failures
  format_part : ∃ part, Part "format" 0 output (some part) ∧ Texts part format
  language_part : ∃ part, Part "language" 1 output part ∧ TextsOrNot part language

theorem load_eq_ok {surroundings : Surroundings} {options : TokenizeOptions} {settings : Settings} :
    Settings.load (layers surroundings options) = .ok settings ↔
      ∃ c : Configuration surroundings options, c.toSettings = settings := by
  simp only [Settings.load, ofSetting, bind_eq_ok_iff, merged_eq_ok, groupOf_eq_ok, count_eq_ok, text_eq_ok,
    text?_eq_ok]
  constructor
  · rintro ⟨_, ⟨entries, hentries, rfl⟩, tokenizer, htokenizer, maxDepth, hmaxDepth, failures, hfailures, output,
      houtput, format, hformat, language, hlanguage, h⟩
    exact ⟨⟨⟨maxDepth, failures, format, language⟩, entries, tokenizer, output, hentries, htokenizer, houtput,
      hmaxDepth, hfailures, hformat, hlanguage⟩, Except.ok.inj h⟩
  · rintro ⟨c, rfl⟩
    exact ⟨_, ⟨c.entries, c.entered, rfl⟩, c.tokenizer, c.tokenizer_at, c.maxDepth, c.maxDepth_part, c.failures,
      c.failures_part, c.output, c.output_at, c.format, c.format_part, c.language, c.language_part, rfl⟩

namespace Configuration
variable {surroundings : Surroundings} {options : TokenizeOptions} {value group : Setting} {part : Option Setting}
  {key name : String} {place : Nat}

/-- What stands at the end of a path is what its group has under the last name. -/
theorem part_eq_of_stands (c : Configuration surroundings options)
    (h : Stands (writesOver options c.entries) [key, name] value)
    (hgroup : (written options c.entries).at? [key] = some group) (hpart : Part name place group part) :
    part = some value := by
  have hvalue := at?_of_stands h (List.cons_ne_nil _ _) (.group [])
  change (written options c.entries).at? [key, name] = some value at hvalue
  rw [at?_cons] at hgroup hvalue
  obtain ⟨group', hgroup', rfl⟩ : ∃ group', getValue? key (written options c.entries).entries = some group' ∧
      group' = group := by simpa [at?] using hgroup
  rw [hgroup', Option.bind_some, at?_cons] at hvalue
  cases hpart with
  | named entries =>
    rw [Setting.entries] at hvalue
    cases hfound : getValue? name entries with
    | none =>
      rw [hfound] at hvalue
      cases hvalue
    | some found =>
      rw [hfound] at hvalue
      exact hvalue
  | placed items => cases hvalue

theorem counts_of_stands (c : Configuration surroundings options) {default n : Nat}
    (h : Stands (writesOver options c.entries) [key, name] value)
    (hgroup : (written options c.entries).at? [key] = some group)
    (hpart : ∃ part, Part name place group part ∧ CountsOr default part n) : Counts value n := by
  obtain ⟨part, hpart, hcounts⟩ := hpart
  rw [c.part_eq_of_stands h hgroup hpart] at hcounts
  cases hcounts
  assumption

theorem counts_maxDepth (c : Configuration surroundings options)
    (h : Stands (writesOver options c.entries) ["tokenizer", "max_depth"] value) : Counts value c.maxDepth :=
  c.counts_of_stands h c.tokenizer_at c.maxDepth_part

theorem counts_failures (c : Configuration surroundings options)
    (h : Stands (writesOver options c.entries) ["tokenizer", "backtrack_limit"] value) : Counts value c.failures :=
  c.counts_of_stands h c.tokenizer_at c.failures_part

theorem texts_format (c : Configuration surroundings options)
    (h : Stands (writesOver options c.entries) ["output", "format"] value) : Texts value c.format := by
  obtain ⟨part, hpart, htexts⟩ := c.format_part
  obtain rfl := Option.some.inj (c.part_eq_of_stands h c.output_at hpart)
  exact htexts

theorem texts_language (c : Configuration surroundings options)
    (h : Stands (writesOver options c.entries) ["output", "language"] value) : TextsOrNot (some value) c.language := by
  obtain ⟨part, hpart, htexts⟩ := c.language_part
  rwa [c.part_eq_of_stands h c.output_at hpart] at htexts

/-- What an option gives holds, whatever the file has. -/
theorem format_of_option (c : Configuration surroundings options) (h : options.format = some name) :
    c.format = name := by
  have hstands : Stands (writesOver options c.entries) ["output", "format"] (.text name) := by
    refine ⟨nofun, defaultWrites ++ writesOfFile c.entries, [.name "output", .name "format"],
      (options.language.map fun language => ⟨[.name "output", .name "language"], .text language⟩).toList, ?_,
      by rfl, ?_⟩
    · simp [writesOver, optionWrites, h]
    · intro write hwrite
      obtain ⟨language, -, rfl⟩ := Option.map_eq_some_iff.mp (Option.mem_toList.mp hwrite)
      rfl
  cases c.texts_format hstands
  rfl

theorem language_of_option (c : Configuration surroundings options) (h : options.language = some name) :
    c.language = some name := by
  have hstands : Stands (writesOver options c.entries) ["output", "language"] (.text name) := by
    refine ⟨nofun, defaultWrites ++ writesOfFile c.entries ++
      (options.format.map fun format => ⟨[.name "output", .name "format"], .text format⟩).toList,
      [.name "output", .name "language"], [], ?_, by rfl, List.forall_mem_nil _⟩
    simp [writesOver, optionWrites, h]
  have htexts := c.texts_language hstands
  generalize c.language = language at htexts
  cases htexts with
  | given htext =>
    cases htext
    rfl

end Configuration
end Command
end Highlight
