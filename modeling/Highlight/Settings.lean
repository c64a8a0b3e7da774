import Highlight.Pattern
import Highlight.Settings.Path
import Highlight.Tokenizer
import Highlight.Toml.Reader

/-! Settings. They are laid over the defaults: files one after the other, and over all of them single values,
    wherever those stand among the files. -/

namespace Highlight

/-- How texts are split and written. -/
structure Settings where
  maxDepth : Nat
  failures : Nat
  format : String
  language : Option String
  deriving DecidableEq, Repr

/-- What is laid over settings: a file with its text, if there is one, or a value under a key. A file that
    is not required may be missing. -/
inductive SettingsLayer where
  | file (text : Option String) (isRequired : Bool)
  | value (key : String) (value : Setting)

namespace Settings

/-- The settings when nothing is laid over them. -/
def defaults : Settings :=
  { maxDepth := Tokenizer.defaultMaxDepth, failures := Pattern.defaultFailures, format := "treeviz", language := none }

/-- The defaults under the names that files have for them. -/
def base : Setting := .group [
  ("tokenizer", .group [
    ("max_depth", .integer defaults.maxDepth),
    ("backtrack_limit", .integer defaults.failures)]),
  ("output", .group [("format", .text defaults.format)])]

/-! ### Layers -/

/-- The steps to a setting of a file: its name is a path, if it can be one. -/
def stepsOfFileKey (key : String) : List SettingStep := (SettingStep.ofKey? key).getD [.name key]

/-- Lays the entries of a file over a setting. -/
def layFile (setting : Setting) (entries : Toml.Entries) : Setting :=
  entries.foldl (fun setting (key, value) => Setting.assign (.ofToml value) (stepsOfFileKey key) setting) setting

/-- The entries of a file. One that is missing has none, unless it is required. -/
def entriesOfFile (text : Option String) (isRequired : Bool) : Except SettingsError Toml.Entries :=
  match text with
  | none => if isRequired then .error .unreadableFile else .ok []
  | some text =>
    match Toml.read? text.toList with
    | some entries => .ok entries
    | none => .error .malformedFile

/-- The values among layers, with the steps to them. -/
def values : List SettingsLayer → Except SettingsError (List (List SettingStep × Setting))
  | [] => .ok []
  | .file .. :: layers => values layers
  | .value key value :: layers =>
    match SettingStep.ofKey? key with
    | none => .error (.malformedKey key)
    | some steps => do return (steps, value) :: (← values layers)

/-- The entries of the files among layers. -/
def files : List SettingsLayer → Except SettingsError (List Toml.Entries)
  | [] => .ok []
  | .file text isRequired :: layers => do
    let entries ← entriesOfFile text isRequired
    return entries :: (← files layers)
  | .value .. :: layers => files layers

/-- The setting of all settings, with layers over the defaults. -/
def merged (layers : List SettingsLayer) : Except SettingsError Setting := do
  let values ← values layers
  let files ← files layers
  return values.foldl (fun setting (steps, value) => Setting.assign value steps setting) (files.foldl layFile base)

/-! ### Groups -/

/-- A part of a group by its name, or of a list in its place. -/
def part? (name : String) (place : Nat) : Setting → Except SettingsError (Option Setting)
  | .group entries => .ok (getValue? name entries)
  | .list items => .ok items[place]?
  | _ => .error .noGroup

/-- A count of a group, or its default. -/
def count (name : String) (place default : Nat) (group : Setting) : Except SettingsError Nat := do
  match ← part? name place group with
  | some setting => setting.toCount
  | none => return default

/-- A text of a group. -/
def text (name : String) (place : Nat) (group : Setting) : Except SettingsError String := do
  match ← part? name place group with
  | some setting => setting.toText
  | none => .error .noGroup

/-- A text of a group that may be missing or unset. -/
def text? (name : String) (place : Nat) (group : Setting) : Except SettingsError (Option String) := do
  match ← part? name place group with
  | none => return none
  | some .unset => return none
  | some setting => some <$> setting.toText

/-- A group of all settings. -/
def groupOf (name : String) (setting : Setting) : Except SettingsError Setting :=
  match getValue? name setting.entries with
  | some group => .ok group
  | none => .error .noGroup

/-- The settings that a setting of all settings stands for. -/
def ofSetting (setting : Setting) : Except SettingsError Settings := do
  let tokenizer ← groupOf "tokenizer" setting
  let maxDepth ← count "max_depth" 0 defaults.maxDepth tokenizer
  let failures ← count "backtrack_limit" 1 defaults.failures tokenizer
  let output ← groupOf "output" setting
  return { maxDepth, failures, format := ← text "format" 0 output, language := ← text? "language" 1 output }

/-- The settings with layers over the defaults. -/
def load (layers : List SettingsLayer) : Except SettingsError Settings := do ofSetting (← merged layers)

end Settings
end Highlight
