import Highlight.Bundled
import Highlight.Command.Arguments
import Highlight.Definition.File
import Highlight.FileName
import Highlight.Format
import Highlight.Settings

/-! What the commands do. A command is given the files that it may read and the text of the standard input,
    and ends with what it writes: a result, or an error and no result. There are patterns with which a text is
    searched for ever; a command that comes to one does not end. -/

namespace Highlight

/-- What a command reads: the text of every file by its path, and the standard input, if they can be read. -/
structure Surroundings where
  file? : String → Option String
  input : Option String

/-- Why a command fails. -/
inductive CommandError where
  | settings (cause : SettingsError)
  | unreadable (path : String)
  | noLanguage
  | unsupportedExtension (extension : String)
  | grammar (cause : GrammarError)
  | format (cause : UnknownFormat)
  deriving DecidableEq, Repr

def CommandError.message : CommandError → String
  | settings cause => "Invalid configuration: " ++ cause.message
  | unreadable path => "Error reading " ++ path ++ ": the file cannot be read"
  | noLanguage => "No language given and none could be guessed; use --language"
  | unsupportedExtension extension =>
    "Unsupported grammar file extension '" ++ extension ++ "' (expected json, yaml or yml)"
  | grammar cause => cause.message
  | format cause => cause.message

/-- How a command ends: its code, what it writes, and the error that it reports. -/
structure Outcome where
  code : Nat
  output : String
  error : Option String := none
  deriving DecidableEq, Repr

namespace Command

/-! ### Reading -/

/-- The file with settings that is read if it is there and no other is named. -/
def localSettings : String := "hilite.toml"

/-- The names that a file with settings may have when it is asked for by `path`. -/
def settingsPaths (path : String) : List String := [path, path ++ ".toml"]

/-- The layers of settings that options lay over the defaults. -/
def layers (surroundings : Surroundings) (options : TokenizeOptions) : List SettingsLayer :=
  let path := options.settings.getD localSettings
  let file := SettingsLayer.file ((settingsPaths path).findSome? surroundings.file?) options.settings.isSome
  let value (key : String) (given : Option String) : List SettingsLayer :=
    (given.map fun text => SettingsLayer.value key (.text text)).toList
  file :: value "output.format" options.format ++ value "output.language" options.language

def standardInput : String := "-"

/-- A text that was read from a path. -/
def readFrom (path : String) (text : Option String) : Except CommandError String :=
  match text with
  | some text => .ok text
  | none => .error (.unreadable path)

/-- The text to tokenize. -/
def readSource (surroundings : Surroundings) (path : String) : Except CommandError String :=
  readFrom path (if path = standardInput then surroundings.input else surroundings.file? path)

/-- The language of a text: the one of the settings, or the name of the file with its grammar, or the one
    for the extension of its own file. -/
def languageOf (settings : Settings) (options : TokenizeOptions) : Except CommandError String :=
  match settings.language.or ((options.grammar.bind FileName.stem?).or
      ((FileName.extension? options.path).bind Bundled.languageOfExtension?)) with
  | some language => .ok language
  | none => .error .noLanguage

/-- The grammar that a file holds. -/
def readGrammar (surroundings : Surroundings) (failures : Nat) (path : String) : Except CommandError Grammar := do
  let source ← readFrom path (surroundings.file? path)
  let extension := (FileName.extension? path).getD ""
  match FileLanguage.ofExtension? extension with
  | some language => (Grammar.ofFile language source failures).mapError .grammar
  | none => throw (.unsupportedExtension extension)

/-- The bundled languages, with the grammar of a file over them. -/
def registryOf (surroundings : Surroundings) (settings : Settings) (language : String) (grammar : Option String) :
    Except CommandError Registry :=
  match grammar with
  | none => .ok Bundled.registry
  | some path => do return Bundled.registry.define language (← readGrammar surroundings settings.failures path)

/-! ### Commands -/

/-- The rendering of a text's tokens; there is none if the text is split for ever. -/
def rendering (surroundings : Surroundings) (options : TokenizeOptions) : Except CommandError (Option String) := do
  let settings ← (Settings.load (layers surroundings options)).mapError .settings
  let source ← readSource surroundings options.path
  let language ← languageOf settings options
  let registry ← registryOf surroundings settings language options.grammar
  let grammar ← (registry.resolve language).mapError .grammar
  let tokenizer : Tokenizer := { language? := registry.get?, maxDepth := settings.maxDepth }
  let split := tokenizer.run grammar source
  if split.endless then return none
  return some (← (Format.renderAs settings.format split.value).mapError .format)

/-- Ends a text with a line break, if it does not end with one. -/
def endLine (text : String) : String := if text.endsWith "\n" then text else text ++ "\n"

def listLanguages : String :=
  "Registered languages:\n\n" ++ String.join (Bundled.registry.names.map fun name => "  " ++ name ++ "\n")

def listFormats : String :=
  "Available formats:\n\n" ++
    String.join (Format.all.map fun format => "  " ++ format.name ++ "\n    " ++ format.summary ++ "\n")

def versionLine : String := "hilite 0.1.0\n"

def helpText : String := String.join [
  "Tokenize source code with declarative highlighting grammars\n\n",
  "Usage: hilite <COMMAND>\n\n",
  "Commands:\n",
  "  tokenize   Tokenize a file and print the token tree\n",
  "  languages  List registered languages\n",
  "  formats    List available output formats\n"]

def succeed (output : String) : Outcome := ⟨0, output, none⟩

/-- Carries out a command. There is no outcome if it goes on for ever. -/
def run (surroundings : Surroundings) : Command → Option Outcome
  | .tokenize options =>
    match rendering surroundings options with
    | .ok (some text) => some (succeed (endLine text))
    | .ok none => none
    | .error cause => some ⟨1, "", some ("Error: " ++ cause.message)⟩
  | .languages => some (succeed listLanguages)
  | .formats => some (succeed listFormats)
  | .version => some (succeed versionLine)
  | .help => some (succeed helpText)

/-- The outcome of arguments that stand for no command. -/
def wrongUsage : Outcome := ⟨2, "", some "error: wrong usage; try --help"⟩

/-- Carries out the command that arguments stand for. -/
def runArguments (surroundings : Surroundings) (arguments : List String) : Option Outcome :=
  match ofArguments? arguments with
  | some command => run surroundings command
  | none => some wrongUsage

/-- The files that a command may read. -/
def paths : Command → List String
  | .tokenize options =>
    settingsPaths (options.settings.getD localSettings) ++ [options.path] ++ options.grammar.toList
  | _ => []

/-- Whether a command reads the standard input. -/
def readsInput : Command → Bool
  | .tokenize options => options.path == standardInput
  | _ => false

end Command
end Highlight
