import Highlight.Decimal.Layout
import Highlight.Toml.Basic

/-! The values of settings. A value of one kind is taken for one of another kind where that makes sense. -/

namespace Highlight

inductive Setting where
  | unset
  | text (value : String)
  | integer (value : Int)
  | number (value : Float)
  | switch (value : Bool)
  | list (items : List Setting)
  | group (entries : List (String × Setting))
  deriving Inhabited

/-- Why there are no settings: a key is not well formed, a file cannot be read or is malformed, or a value is
    not of the kind that its setting needs. -/
inductive SettingsError where
  | malformedKey (key : String)
  | unreadableFile
  | malformedFile
  | wrongKind
  | noGroup
  deriving DecidableEq, Repr

def SettingsError.message : SettingsError → String
  | malformedKey key => "malformed key '" ++ key ++ "'"
  | unreadableFile => "a file cannot be read"
  | malformedFile => "a file is malformed"
  | wrongKind => "a value is of the wrong kind"
  | noGroup => "a group is missing"

namespace Setting

mutual
/-- The setting that a value of a file is. -/
def ofToml : Toml → Setting
  | .string value => .text value
  | .integer value => .integer value
  | .float value => .number value
  | .boolean value => .switch value
  | .date written => .text written
  | .array items => .list (ofItems items)
  | .table _ entries => .group (ofEntries entries)
  | .tables latest earlier => .list (.group (ofEntries latest) :: ofTables earlier).reverse

def ofItems : List Toml → List Setting
  | [] => []
  | item :: items => ofToml item :: ofItems items

def ofEntries : List (String × Toml) → List (String × Setting)
  | [] => []
  | (key, value) :: entries => (key, ofToml value) :: ofEntries entries

def ofTables : List (List (String × Toml)) → List Setting
  | [] => []
  | entries :: tables => .group (ofEntries entries) :: ofTables tables
end

/-! ### Texts and counts -/

/-- A number stands for the text with its point in place. -/
def layout : Decimal.Layout := ⟨none, ""⟩

/-- The text that a setting stands for. -/
def toText : Setting → Except SettingsError String
  | .text value => .ok value
  | .integer value => .ok (toString value)
  | .number value => .ok (layout.write value)
  | .switch value => .ok (if value then "true" else "false")
  | _ => .error .wrongKind

/-- The greatest count. -/
def maxCount : Nat := UInt64.size - 1

/-- The count that digits stand for, which may have a plus sign. -/
def countOfDigits? (text : List Char) : Option Nat :=
  let digits := match text with
    | '+' :: rest => rest
    | rest => rest
  if digits.isEmpty || !digits.all Char.isDigit then none else
    let value := digits.foldl (fun n c => 10 * n + (c.toNat - '0'.toNat)) 0
    if value ≤ maxCount then some value else none

/-- The count that a text stands for: a number, or a word that says yes or no. -/
def countOfText? (text : String) : Option Nat :=
  let word := String.ofList (text.toList.map Char.toLower)
  if ["true", "on", "yes"].contains word then some 1
  else if ["false", "off", "no"].contains word then some 0
  else countOfDigits? text.toList

/-- The count that a setting stands for. A number is rounded, and taken to the nearest count if it is too
    small or too large. -/
def toCount : Setting → Except SettingsError Nat
  | .integer value => if 0 ≤ value && value.toNat ≤ maxCount then .ok value.toNat else .error .wrongKind
  | .number value => .ok value.round.toUInt64.toNat
  | .switch value => .ok (if value then 1 else 0)
  | .text value =>
    match countOfText? value with
    | some n => .ok n
    | none => .error .wrongKind
  | _ => .error .wrongKind

end Setting
end Highlight
