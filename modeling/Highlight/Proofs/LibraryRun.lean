import Highlight.Proofs.Faults
import Highlight.Proofs.FileNames
import Highlight.Proofs.Frame
import Highlight.Proofs.Layers
import Highlight.Proofs.Limits
import Highlight.Proofs.Reports

/-! What the command for tokens does. It does what a user of the library would do with the same settings, text and
    grammars, and ends with the rendering of the tokens on a line of its own; where one of these is missing there is no
    such run, and it ends with nothing; and where the text is split for ever it does not end
    (`runArguments_tokenize`). -/

namespace Highlight

namespace Format

theorem ofName?_eq_some {format : Format} {name : String} :
    ofName? name = some format ↔ format ∈ all ∧ format.name = name := by
  constructor
  · intro h
    have hname := List.find?_some h
    exact ⟨List.mem_of_find?_eq_some h, beq_iff_eq.mp hname⟩
  · rintro ⟨hmem, rfl⟩
    -- No two formats have the same name.
    simp only [all, List.mem_cons, List.not_mem_nil, or_false] at hmem
    rcases hmem with rfl | rfl | rfl <;> rfl

/-- Tokens are written in the format of that name, if there is one. -/
theorem renderAs_cases (name : String) (tokens : List Token) :
    (∃ format ∈ all, format.name = name ∧ renderAs name tokens = .ok (format.render tokens)) ∨
      ((∀ format ∈ all, format.name ≠ name) ∧ renderAs name tokens = .error ⟨name⟩) := by
  unfold renderAs
  cases hformat : ofName? name with
  | some format =>
    obtain ⟨hmem, hname⟩ := ofName?_eq_some.mp hformat
    exact Or.inl ⟨format, hmem, hname, rfl⟩
  | none =>
    refine Or.inr ⟨fun format hmem hname => ?_, rfl⟩
    cases hformat.symm.trans (ofName?_eq_some.mpr ⟨hmem, hname⟩)

end Format

namespace Command
open FileName Settings Setting

/-! ### Runs of the library -/

/-- The language that the names of files tell: the stem of the file with a grammar, or else what the extension of the
    file with the text stands for. -/
inductive Guessed (options : TokenizeOptions) : String → Prop
  | stem {path name language : String} : options.grammar = some path → LeadsTo path name → IsStem name language →
      Guessed options language
  | extension {name stem extension language : String} :
      (∀ path, options.grammar = some path → ∀ name, ¬LeadsTo path name) →
      LeadsTo options.path name → Splits name stem extension →
      Bundled.Extends (extension.toList.map Char.toLower) language → Guessed options language

/-- The language of a text: the one that an option gives, or else the one of the settings, or else the one that the
    names of files tell. -/
inductive Names (options : TokenizeOptions) (configured : Option String) : String → Prop
  | asked {language : String} : options.language = some language → Names options configured language
  | configured {language : String} : options.language = none → configured = some language →
      Names options configured language
  | guessed {language : String} : options.language = none → configured = none → Guessed options language →
      Names options configured language

/-- Where a language comes from: out of the grammars that come with the library, or out of a file that is compiled and
    set over them under the name of the language. -/
inductive Supplies (surroundings : Surroundings) (failures : Nat) (language : String) :
    Option String → Registry → Grammar → Prop
  | bundled {g : Grammar} : Bundled.registry.get? language = some g →
      Supplies surroundings failures language none Bundled.registry g
  | compiled {path text name stem extension : String} {format : FileLanguage} {definition : Definition} {g : Grammar} :
      surroundings.file? path = some text → LeadsTo path name → Splits name stem extension →
      format.Extends extension → Definition.read format text = .ok definition → definition.compile failures = .ok g →
      Supplies surroundings failures language (some path) (Bundled.registry.define language g) g

/-- A use of the library that options ask for. -/
structure LibraryRun (surroundings : Surroundings) (options : TokenizeOptions) where
  configuration : Configuration surroundings options
  source : String
  language : String
  registry : Registry
  grammar : Grammar
  source_eq : (if options.path = "-" then surroundings.input else surroundings.file? options.path) =
    some source
  named : Names options configuration.language language
  supplied : Supplies surroundings configuration.failures language options.grammar registry grammar

namespace LibraryRun
variable {surroundings : Surroundings} {options : TokenizeOptions}

/-- The tokenizer with the languages and the limit of the run. -/
def tokenizer (run : LibraryRun surroundings options) : Tokenizer where
  language? := run.registry.get?
  maxDepth := run.configuration.maxDepth

/-- The name of the format: the one that an option gives, or else the one of the settings. -/
def formatName (run : LibraryRun surroundings options) : String := options.format.getD run.configuration.format

/-- The run comes to its end with these tokens: its first level runs its course to them. -/
def Yields (run : LibraryRun surroundings options) (tokens : List Token) : Prop :=
  ∃ ts, Tokenizer.Course run.tokenizer 0 (Tokenizer.contenders (run.tokenizer.levelRules run.grammar)) 0
    run.source.toList ts ∧ tokens = Tokenizer.inBytes 0 run.source.toList ts

theorem exists_yields_iff (run : LibraryRun surroundings options) :
    (∃ tokens, run.Yields tokens) ↔ (run.tokenizer.run run.grammar run.source).endless = false := by
  rw [Tokenizer.run_ends_iff Engine.bounded_compiled]
  constructor
  · rintro ⟨_, ts, hcourse, -⟩
    exact ⟨ts, hcourse⟩
  · rintro ⟨ts, hcourse⟩
    exact ⟨_, ts, hcourse, rfl⟩

/-- A run that comes to its end does so with the tokens of the library. -/
theorem eq_tokenize_of_yields (run : LibraryRun surroundings options) {tokens : List Token} (h : run.Yields tokens) :
    tokens = run.tokenizer.tokenize run.grammar run.source := by
  have hends := run.exists_yields_iff.mp ⟨tokens, h⟩
  obtain ⟨ts, hcourse, rfl⟩ := h
  refine Eq.trans ?_ (Tokenizer.value_run Engine.bounded_compiled run.grammar run.source).symm
  exact congrArg (Tokenizer.inBytes 0 run.source.toList) (hcourse.unique
    (Tokenizer.course_levels Engine.bounded_compiled (Nat.zero_add _) run.grammar run.source.toList hends))

/-- A run comes to its end if no pattern in play reports a match before the offset that was asked for. -/
theorem exists_yields (run : LibraryRun surroundings options)
    (h : ∀ p, run.tokenizer.InPlay run.configuration.maxDepth run.grammar p → Engine.compiled.GoesAhead p) :
    ∃ tokens, run.Yields tokens :=
  run.exists_yields_iff.mpr (Tokenizer.endless_levels Engine.bounded_compiled h run.source.toList)

end LibraryRun

section
variable {surroundings : Surroundings} {options : TokenizeOptions} {settings : Settings} {language : String}

theorem readFrom_eq_ok {path text : String} {read : Option String} :
    readFrom path read = .ok text ↔ read = some text := by
  cases read <;> simp [readFrom]

theorem guessed_iff : Guessed options language ↔ (options.grammar.bind FileName.stem?).or
    ((FileName.extension? options.path).bind Bundled.languageOfExtension?) = some language := by
  have hextension : ((FileName.extension? options.path).bind Bundled.languageOfExtension?) = some language ↔
      ∃ name stem extension, LeadsTo options.path name ∧ Splits name stem extension ∧
        Bundled.Extends (extension.toList.map Char.toLower) language := by
    simp only [Option.bind_eq_some_iff, extension?_eq_some, Bundled.languageOfExtension?_eq_some]
    constructor
    · rintro ⟨extension, ⟨name, stem, hname, hsplits⟩, hlanguage⟩
      exact ⟨name, stem, extension, hname, hsplits, hlanguage⟩
    · rintro ⟨name, stem, extension, hname, hsplits, hlanguage⟩
      exact ⟨extension, ⟨name, stem, hname, hsplits⟩, hlanguage⟩
  constructor
  · rintro (⟨hpath, hname, hstem⟩ | ⟨hnone, hname, hsplits, hlanguage⟩)
    · rw [hpath, Option.bind_some, stem?_eq_some.mpr ⟨_, hname, hstem⟩, Option.some_or]
    · have hstem : options.grammar.bind FileName.stem? = none := by
        refine Option.eq_none_iff_forall_ne_some.mpr fun stem h => ?_
        obtain ⟨path, hpath, h⟩ := Option.bind_eq_some_iff.mp h
        obtain ⟨name, hname, -⟩ := stem?_eq_some.mp h
        exact hnone path hpath name hname
      rw [hstem, Option.none_or]
      exact hextension.mpr ⟨_, _, _, hname, hsplits, hlanguage⟩
  · intro h
    cases hfound : options.grammar.bind FileName.stem? with
    | some stem =>
      rw [hfound, Option.some_or] at h
      obtain rfl := Option.some.inj h
      obtain ⟨path, hpath, hstem⟩ := Option.bind_eq_some_iff.mp hfound
      obtain ⟨name, hname, hstem⟩ := stem?_eq_some.mp hstem
      exact .stem hpath hname hstem
    | none =>
      rw [hfound, Option.none_or] at h
      obtain ⟨name, stem, extension, hname, hsplits, hlanguage⟩ := hextension.mp h
      refine .extension (fun path hpath file hfile => ?_) hname hsplits hlanguage
      rw [hpath, Option.bind_some] at hfound
      cases hfound.symm.trans (stem?_eq_some.mpr ⟨file, hfile, isStem_iff.mpr rfl⟩)

theorem languageOf_eq_ok (hasked : ∀ name, options.language = some name → settings.language = some name) :
    languageOf settings options = .ok language ↔ Names options settings.language language := by
  have hlanguage : languageOf settings options = .ok language ↔
      settings.language.or ((options.grammar.bind FileName.stem?).or
        ((FileName.extension? options.path).bind Bundled.languageOfExtension?)) = some language := by
    rw [languageOf]
    generalize settings.language.or _ = found
    cases found <;> simp
  rw [hlanguage]
  cases hsettings : settings.language with
  | some name =>
    rw [Option.some_or]
    constructor
    · rintro ⟨⟩
      cases hoption : options.language with
      | some asked => exact .asked (hoption.trans ((hasked asked hoption).symm.trans hsettings))
      | none => exact .configured hoption rfl
    · rintro (hoption | ⟨-, h⟩ | ⟨-, h⟩)
      · exact hsettings.symm.trans (hasked _ hoption)
      · exact h
      · cases h
  | none =>
    have hoption : options.language = none := Option.eq_none_iff_forall_ne_some.mpr fun name hname => by
      cases hsettings.symm.trans (hasked name hname)
    rw [Option.none_or, ← guessed_iff]
    refine ⟨.guessed hoption rfl, ?_⟩
    rintro (h | ⟨-, h⟩ | ⟨-, -, h⟩)
    · cases hoption.symm.trans h
    · cases h
    · exact h

theorem readGrammar_eq_ok {failures : Nat} {path : String} {g : Grammar} :
    readGrammar surroundings failures path = .ok g ↔ ∃ text name stem extension format,
      surroundings.file? path = some text ∧ LeadsTo path name ∧ Splits name stem extension ∧
      FileLanguage.Extends extension format ∧ Grammar.ofFile format text failures = .ok g := by
  rw [readGrammar]
  constructor
  · intro h
    obtain ⟨text, htext, h⟩ := bind_eq_ok h
    cases hextension : FileName.extension? path with
    | none =>
      rw [hextension] at h
      cases h
    | some extension =>
      rw [hextension, Option.getD_some] at h
      cases hformat : FileLanguage.ofExtension? extension with
      | none =>
        simp only [hformat] at h
        cases h
      | some format =>
        simp only [hformat] at h
        obtain ⟨name, stem, hname, hsplits⟩ := extension?_eq_some.mp hextension
        exact ⟨text, name, stem, extension, format, readFrom_eq_ok.mp htext, hname, hsplits,
          FileLanguage.ofExtension?_eq_some.mp hformat, mapError_eq_ok h⟩
  · rintro ⟨text, name, stem, extension, format, htext, hname, hsplits, hformat, hg⟩
    refine bind_eq_ok_iff.mpr ⟨text, readFrom_eq_ok.mpr htext, ?_⟩
    simp only [extension?_eq_some.mpr ⟨name, stem, hname, hsplits⟩, Option.getD_some,
      FileLanguage.ofExtension?_eq_some.mpr hformat, hg]
    rfl

theorem supplies_iff {grammar : Option String} {registry : Registry} {g : Grammar} :
    Supplies surroundings settings.failures language grammar registry g ↔
      registryOf surroundings settings language grammar = .ok registry ∧ registry.resolve language = .ok g := by
  rw [Registry.resolve_eq_ok]
  constructor
  · intro h
    cases h with
    | bundled hg => exact ⟨rfl, hg⟩
    | compiled htext hname hsplits hformat hread hcompile =>
      have hfile : Grammar.ofFile _ _ settings.failures = .ok g := bind_eq_ok_iff.mpr ⟨_, hread, hcompile⟩
      have hg := readGrammar_eq_ok.mpr ⟨_, _, _, _, _, htext, hname, hsplits, hformat, hfile⟩
      exact ⟨bind_eq_ok_iff.mpr ⟨g, hg, rfl⟩, Registry.get?_define _ _ _⟩
  · rintro ⟨hregistry, hg⟩
    cases grammar with
    | none =>
      obtain rfl := Except.ok.inj hregistry
      exact .bundled hg
    | some path =>
      obtain ⟨g', hg', hdefine⟩ := bind_eq_ok hregistry
      obtain rfl := Except.ok.inj hdefine
      obtain rfl := Option.some.inj ((Registry.get?_define _ _ _).symm.trans hg)
      obtain ⟨text, name, stem, extension, format, htext, hname, hsplits, hformat, hfile⟩ := readGrammar_eq_ok.mp hg'
      obtain ⟨definition, hread, hcompile⟩ := bind_eq_ok hfile
      exact .compiled htext hname hsplits hformat hread hcompile

/-- A run of the library is what the command does up to the rendering. -/
theorem rendering_of_run (run : LibraryRun surroundings options) :
    rendering surroundings options =
      if (run.tokenizer.run run.grammar run.source).endless then .ok none
      else do
        return some (← (Format.renderAs run.formatName
          (run.tokenizer.tokenize run.grammar run.source)).mapError .format) := by
  obtain ⟨hregistry, hg⟩ := supplies_iff.mp run.supplied
  have hsettings := load_eq_ok.mpr ⟨run.configuration, rfl⟩
  have hsource : readSource surroundings options.path = .ok run.source := readFrom_eq_ok.mpr run.source_eq
  have hlanguage := (languageOf_eq_ok fun name => run.configuration.language_of_option).mpr run.named
  have hformat : run.formatName = run.configuration.format := by
    rw [LibraryRun.formatName]
    cases h : options.format with
    | none => rfl
    | some name => exact (run.configuration.format_of_option h).symm
  rw [rendering, bind_of_ok (mapError_eq_ok_iff.mpr hsettings), bind_of_ok hsource,
    bind_of_ok hlanguage, bind_of_ok hregistry, bind_of_ok (mapError_eq_ok_iff.mpr hg), hformat]
  rfl

theorem nonempty_run_of_rendering {text : Option String} (h : rendering surroundings options = .ok text) :
    Nonempty (LibraryRun surroundings options) := by
  obtain ⟨settings, hsettings, h⟩ := bind_eq_ok h
  obtain ⟨source, hsource, h⟩ := bind_eq_ok h
  obtain ⟨language, hlanguage, h⟩ := bind_eq_ok h
  obtain ⟨registry, hregistry, h⟩ := bind_eq_ok h
  obtain ⟨g, hg, -⟩ := bind_eq_ok h
  obtain ⟨c, rfl⟩ := load_eq_ok.mp (mapError_eq_ok hsettings)
  exact ⟨⟨c, source, language, registry, g, readFrom_eq_ok.mp hsource,
    (languageOf_eq_ok fun name => c.language_of_option).mp hlanguage, supplies_iff.mpr ⟨hregistry, mapError_eq_ok hg⟩⟩⟩

theorem endsWith_newline {text : String} : text.endsWith "\n" = true ↔ text.toList.getLast? = some '\n' := by
  have hbreak : "\n".toList = ['\n'] := by rfl
  rw [← String.endsWith_toSlice, String.Slice.endsWith_string_iff, String.copy_toSlice, hbreak,
    List.getLast?_eq_some_iff]
  exact exists_congr fun front => eq_comm

theorem endLine_eq (text : String) :
    endLine text = if text.toList.getLast? = some '\n' then text else text ++ "\n" := by
  simp only [endLine, endsWith_newline]

/-- A run of the library that comes to its end is what the command writes, if the format is known. -/
theorem run_of_yields (run : LibraryRun surroundings options) {tokens : List Token} (h : run.Yields tokens) :
    (∃ format ∈ Format.all, format.name = run.formatName ∧
        Command.run surroundings (.tokenize options) = some (succeed (endLine (format.render tokens)))) ∨
      ((∀ format ∈ Format.all, format.name ≠ run.formatName) ∧
        ∃ message, Command.run surroundings (.tokenize options) = some ⟨1, "", some message⟩) := by
  have hrendering := rendering_of_run run
  rw [run.exists_yields_iff.mp ⟨tokens, h⟩, if_neg Bool.false_ne_true, ← run.eq_tokenize_of_yields h] at hrendering
  rw [Command.run, hrendering]
  rcases Format.renderAs_cases run.formatName tokens with ⟨format, hmem, hname, heq⟩ | ⟨hnone, heq⟩
  · exact Or.inl ⟨format, hmem, hname, by rw [heq]; rfl⟩
  · exact Or.inr ⟨hnone, _, by rw [heq]; rfl⟩

theorem run_of_not_yields (run : LibraryRun surroundings options) (h : ∀ tokens, ¬run.Yields tokens) :
    Command.run surroundings (.tokenize options) = none := by
  have hendless : (run.tokenizer.run run.grammar run.source).endless = true := by
    rw [← Bool.not_eq_false, ← run.exists_yields_iff]
    exact fun ⟨tokens, hyields⟩ => h tokens hyields
  rw [Command.run, rendering_of_run run, if_pos hendless]

theorem run_of_isEmpty (h : IsEmpty (LibraryRun surroundings options)) :
    ∃ message, Command.run surroundings (.tokenize options) = some ⟨1, "", some message⟩ := by
  cases hrendering : rendering surroundings options with
  | ok text => exact h.elim (nonempty_run_of_rendering hrendering).some
  | error cause =>
    rw [Command.run, hrendering]
    exact ⟨_, rfl⟩

end

/-- The command for tokens is the library, or nothing, for all arguments that stand for it, files and standard input.
    If there is no run of the library, the command ends with the code 1 and writes nothing. If there is one and it comes
    to its end, the command ends with the code 0 and the rendering of its tokens, behind which there is a line end
    exactly if it does not have one, or with the code 1 and nothing, if no format has the name. If the run does not come
    to its end, neither does the command; it does if no pattern in play reports a match before the offset that was asked
    for. What stands last in the settings is what the run has of them. -/
theorem runArguments_tokenize (surroundings : Surroundings) {arguments : List String} {options : TokenizeOptions}
    (h : ofArguments? arguments = some (.tokenize options)) :
    (Nonempty (LibraryRun surroundings options) ∧ ∀ run : LibraryRun surroundings options,
      (∀ tokens, run.Yields tokens →
        tokens = run.tokenizer.tokenize run.grammar run.source ∧
        ((∃ format ∈ Format.all, format.name = run.formatName ∧ runArguments surroundings arguments =
            some ⟨0, if (format.render tokens).toList.getLast? = some '\n' then format.render tokens
              else format.render tokens ++ "\n", none⟩) ∨
          ((∀ format ∈ Format.all, format.name ≠ run.formatName) ∧
            ∃ message, runArguments surroundings arguments = some ⟨1, "", some message⟩))) ∧
      ((∀ tokens, ¬run.Yields tokens) → runArguments surroundings arguments = none) ∧
      ((∀ p, run.tokenizer.InPlay run.configuration.maxDepth run.grammar p → Engine.compiled.GoesAhead p) →
        ∃ tokens, run.Yields tokens) ∧
      ∀ value,
        (Stands (writesOver options run.configuration.entries) ["tokenizer", "max_depth"] value →
          Counts value run.configuration.maxDepth) ∧
        (Stands (writesOver options run.configuration.entries) ["tokenizer", "backtrack_limit"] value →
          Counts value run.configuration.failures) ∧
        (Stands (writesOver options run.configuration.entries) ["output", "format"] value →
          Texts value run.configuration.format) ∧
        (Stands (writesOver options run.configuration.entries) ["output", "language"] value →
          TextsOrNot (some value) run.configuration.language)) ∨
    (IsEmpty (LibraryRun surroundings options) ∧
      ∃ message, runArguments surroundings arguments = some ⟨1, "", some message⟩) := by
  have hrun : runArguments surroundings arguments = run surroundings (.tokenize options) := by rw [runArguments, h]
  rw [hrun]
  by_cases hnonempty : Nonempty (LibraryRun surroundings options)
  · refine Or.inl ⟨hnonempty, fun run => ⟨fun tokens htokens => ⟨run.eq_tokenize_of_yields htokens, ?_⟩,
      run_of_not_yields run, run.exists_yields, fun value => ⟨run.configuration.counts_maxDepth,
        run.configuration.counts_failures, run.configuration.texts_format, run.configuration.texts_language⟩⟩⟩
    simp only [← endLine_eq]
    exact run_of_yields run htokens
  · have hempty : IsEmpty (LibraryRun surroundings options) := ⟨fun run => hnonempty ⟨run⟩⟩
    exact Or.inr ⟨hempty, run_of_isEmpty hempty⟩

/-! ### A run with a file for the settings and one for the grammar -/

def settingsSample : String := "[tokenizer]\nmax_depth = 1\n\n[output]\nformat = \"tag\"\n"

def entriesSample : Toml.Entries := [
  ("tokenizer", .table .header [("max_depth", .integer 1)]),
  ("output", .table .header [("format", .string "tag")])]

def lettersSample : String :=
  "\x7b\"a\": \x7b\"pattern\": \"ab\", " ++
    "\"inside\": \x7b\"b\": \x7b\"pattern\": \"b\", \"inside\": \x7b\"c\": \"b\"\x7d\x7d\x7d\x7d\x7d"

/-- A grammar with three levels, of which the settings allow for two. -/
def surroundingsSample : Surroundings where
  file? path :=
    if path = "letters.json" then some lettersSample else if path = "hilite.toml" then some settingsSample else none
  input := some "ab"

def argumentsSample : List String := ["tokenize", "-", "-g", "letters.json"]

def optionsSample : TokenizeOptions := { path := "-", grammar := some "letters.json" }

def grammarSample : Grammar :=
  (Grammar.ofFile .json lettersSample Settings.defaults.failures).toOption.getD ⟨[], none⟩

def isEntriesSample : Option Toml.Entries → Bool
  | some [("tokenizer", .table .header [("max_depth", .integer 1)]),
      ("output", .table .header [("format", .string "tag")])] => true
  | _ => false

theorem eq_entriesSample {entries : Option Toml.Entries} (h : isEntriesSample entries = true) :
    entries = some entriesSample := by
  unfold isEntriesSample at h
  split at h
  · rfl
  · cases h

theorem read_settingsSample : Toml.read? settingsSample.toList = some entriesSample :=
  eq_entriesSample (by decide +kernel)

theorem stands_depthSample :
    Stands (writesOver optionsSample entriesSample) ["tokenizer", "max_depth"] (.integer 1) := by
  refine ⟨nofun, defaultWrites, [.name "tokenizer", .name "max_depth"],
    [⟨[.name "output", .name "format"], .text "tag"⟩], rfl, rfl, fun write hwrite => ?_⟩
  obtain rfl := List.mem_singleton.mp hwrite
  rfl

def configurationSample : Configuration surroundingsSample optionsSample where
  maxDepth := 1
  failures := Settings.defaults.failures
  format := "tag"
  language := none
  entries := entriesSample
  tokenizer := .group [("max_depth", .integer 1), ("backtrack_limit", .integer Settings.defaults.failures)]
  output := .group [("format", .text "tag")]
  entered := .present (.named rfl) read_settingsSample
  tokenizer_at := rfl
  output_at := rfl
  maxDepth_part := ⟨_, .named _, .given (.integer (by decide))⟩
  failures_part := ⟨_, .named _, .given (.integer (by decide))⟩
  format_part := ⟨_, .named _, .text "tag"⟩
  language_part := ⟨_, .named _, .missing⟩

theorem leadsTo_lettersSample : LeadsTo "letters.json" "letters.json" :=
  ⟨⟨by decide, by decide, by decide, by decide⟩, [], [], rfl, Or.inl rfl, .nil⟩

theorem splits_lettersSample : Splits "letters.json" "letters" "json" := ⟨rfl, by decide, by decide⟩

theorem supplies_lettersSample : Supplies surroundingsSample Settings.defaults.failures "letters" (some "letters.json")
    (Bundled.registry.define "letters" grammarSample) grammarSample := by
  have hfile : Grammar.ofFile .json lettersSample Settings.defaults.failures = .ok grammarSample :=
    eq_ok_of_isSome (by decide +kernel) _
  obtain ⟨definition, hread, hcompile⟩ := bind_eq_ok hfile
  exact .compiled rfl leadsTo_lettersSample splits_lettersSample .json hread hcompile

def runSample : LibraryRun surroundingsSample optionsSample where
  configuration := configurationSample
  source := "ab"
  language := "letters"
  registry := Bundled.registry.define "letters" grammarSample
  grammar := grammarSample
  source_eq := rfl
  named := .guessed rfl rfl (.stem rfl leadsTo_lettersSample (.split splits_lettersSample))
  supplied := supplies_lettersSample

/-- At the limit the text of a token is not split again. -/
def tokensSample : List Token :=
  [⟨some "a", none, .nested [.plain "a" ⟨0, 1⟩, ⟨some "b", none, .text "b", ⟨1, 2⟩⟩], ⟨0, 2⟩⟩]

theorem yields_tokensSample : runSample.Yields tokensSample := by
  have hrun : (runSample.tokenizer.run runSample.grammar runSample.source).endless = false ∧
      runSample.tokenizer.tokenize runSample.grammar runSample.source = tokensSample := by decide +kernel
  obtain ⟨tokens, hyields⟩ := runSample.exists_yields_iff.mpr hrun.1
  have heq := runSample.eq_tokenize_of_yields hyields
  rwa [heq, hrun.2] at hyields

/-- The limit is the one of the file, the language the stem of the other one. The rendering has no line end, so that the
    command writes one. -/
theorem runArguments_tokenize_letters :
    ofArguments? argumentsSample = some (.tokenize optionsSample) ∧
      Stands (writesOver optionsSample runSample.configuration.entries) ["tokenizer", "max_depth"] (.integer 1) ∧
      Counts (.integer 1) runSample.configuration.maxDepth ∧ runSample.language = "letters" ∧
      runSample.Yields tokensSample ∧ Token.renderTag tokensSample = "<a>a<b>b</b></a>" ∧
      runArguments surroundingsSample argumentsSample = some ⟨0, "<a>a<b>b</b></a>\n", none⟩ := by
  have harguments : ofArguments? argumentsSample = some (.tokenize optionsSample) := by decide +kernel
  have hrendered : Token.renderTag tokensSample = "<a>a<b>b</b></a>" := by decide +kernel
  rcases runArguments_tokenize surroundingsSample harguments with ⟨-, hruns⟩ | ⟨hempty, -⟩
  · obtain ⟨houtcome, -, -, hsettings⟩ := hruns runSample
    have hcounts := (hsettings (.integer 1)).1 stands_depthSample
    refine ⟨harguments, stands_depthSample, hcounts, rfl, yields_tokensSample, hrendered, ?_⟩
    rcases (houtcome tokensSample yields_tokensSample).2 with ⟨format, hmem, hname, heq⟩ | ⟨hnone, -⟩
    · simp only [Format.all, List.mem_cons, List.not_mem_nil, or_false] at hmem
      rcases hmem with rfl | rfl | rfl
      · exact absurd hname (by decide)
      · exact heq.trans (by decide +kernel)
      · exact absurd hname (by decide)
    · exact absurd rfl (hnone ⟨"tag", _, _⟩ (List.mem_cons_of_mem _ List.mem_cons_self))
  · exact hempty.elim runSample

/-! ### A run without an end -/

def circleSample : String :=
  "\x7b\"x\": \x7b\"pattern\": \"(?<=\\\\Ka)()\", \"lookbehind\": true\x7d\x7d"

/-- The file of a grammar whose only match lies before the offset from which it is found, so that the search goes on
    from that offset again and again. -/
def surroundingsCircle : Surroundings where
  file? path := if path = "x.json" then some circleSample else none
  input := some "a"

def argumentsCircle : List String := ["tokenize", "-", "--language", "x", "--format", "tag", "-g", "x.json"]

def optionsCircle : TokenizeOptions :=
  { path := "-", language := some "x", format := some "tag", grammar := some "x.json" }

def grammarCircle : Grammar := (Grammar.ofFile .json circleSample Settings.defaults.failures).toOption.getD ⟨[], none⟩

def configurationCircle : Configuration surroundingsCircle optionsCircle where
  maxDepth := Settings.defaults.maxDepth
  failures := Settings.defaults.failures
  format := "tag"
  language := some "x"
  entries := []
  tokenizer := .group [("max_depth", .integer Settings.defaults.maxDepth),
    ("backtrack_limit", .integer Settings.defaults.failures)]
  output := .group [("format", .text "tag"), ("language", .text "x")]
  entered := .absent fun text h => by cases foundAt_iff.mp h
  tokenizer_at := rfl
  output_at := rfl
  maxDepth_part := ⟨_, .named _, .given (.integer (by decide))⟩
  failures_part := ⟨_, .named _, .given (.integer (by decide))⟩
  format_part := ⟨_, .named _, .text "tag"⟩
  language_part := ⟨_, .named _, .given (.text "x")⟩

theorem supplies_circle : Supplies surroundingsCircle Settings.defaults.failures "x" (some "x.json")
    (Bundled.registry.define "x" grammarCircle) grammarCircle := by
  have hfile : Grammar.ofFile .json circleSample Settings.defaults.failures = .ok grammarCircle :=
    eq_ok_of_isSome (by decide +kernel) _
  obtain ⟨definition, hread, hcompile⟩ := bind_eq_ok hfile
  have hleads : LeadsTo "x.json" "x.json" :=
    ⟨⟨by decide, by decide, by decide, by decide⟩, [], [], rfl, Or.inl rfl, .nil⟩
  have hsplits : Splits "x.json" "x" "json" := ⟨rfl, by decide, by decide⟩
  exact .compiled rfl hleads hsplits .json hread hcompile

def runCircle : LibraryRun surroundingsCircle optionsCircle where
  configuration := configurationCircle
  source := "a"
  language := "x"
  registry := Bundled.registry.define "x" grammarCircle
  grammar := grammarCircle
  source_eq := rfl
  named := .asked rfl
  supplied := supplies_circle

theorem runArguments_tokenize_endless :
    ofArguments? argumentsCircle = some (.tokenize optionsCircle) ∧
      Nonempty (LibraryRun surroundingsCircle optionsCircle) ∧
      runArguments surroundingsCircle argumentsCircle = none := by
  have harguments : ofArguments? argumentsCircle = some (.tokenize optionsCircle) := by decide +kernel
  have hendless : (runCircle.tokenizer.run runCircle.grammar runCircle.source).endless = true := by decide +kernel
  refine ⟨harguments, ⟨runCircle⟩, ?_⟩
  rw [runArguments, harguments]
  refine run_of_not_yields runCircle fun tokens h => ?_
  rw [runCircle.exists_yields_iff.mp ⟨tokens, h⟩] at hendless
  cases hendless

end Command
end Highlight
