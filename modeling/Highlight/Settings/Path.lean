import Highlight.Settings.Setting

/-! Paths to settings. Steps to names do not depend on the case of letters. -/

namespace Highlight

/-- A step from a setting to one within it: by name, or by place, counted from the end if it is negative. -/
inductive SettingStep where
  | name (key : String)
  | place (index : Int)
  deriving DecidableEq, Repr

namespace SettingStep

/-! ### Written paths -/

/-- The characters of names. -/
def isNameChar (c : Char) : Bool := c.isAlphanum || c == ' ' || c == '_' || c == '-'

/-- Reads a name. -/
def readName? (text : List Char) : Option (SettingStep × List Char) :=
  let name := text.takeWhile isNameChar
  if name.isEmpty then none else some (.name (String.ofList name), text.dropWhile isNameChar)

/-- Reads a place after its bracket. -/
def readPlace? (text : List Char) : Option (SettingStep × List Char) := do
  let skipBlanks (text : List Char) : List Char := text.dropWhile fun c => c == ' ' || c == '\t'
  let (negative, rest) := match skipBlanks text with
    | '-' :: rest => (true, rest)
    | rest => (false, rest)
  let digits := rest.takeWhile Char.isDigit
  let value : Int := digits.foldl (fun n c => 10 * n + (c.toNat - '0'.toNat)) 0
  let index := if negative then -value else value
  let bound : Int := (UInt64.size / 2 : Nat)
  match skipBlanks (rest.dropWhile Char.isDigit) with
  | ']' :: rest => if digits.isEmpty || index < -bound || bound ≤ index then none else some (.place index, rest)
  | _ => none

/-- Reads the steps after the first. -/
def readMore? : Nat → List Char → Option (List SettingStep)
  | _, [] => some []
  | 0, _ => none
  | fuel + 1, c :: rest => do
    let (step, rest) ← if c == '.' then readName? rest else if c == '[' then readPlace? rest else none
    return step :: (← readMore? fuel rest)

/-- The steps of a written path, which starts with a name. -/
def ofKey? (key : String) : Option (List SettingStep) := do
  let (first, rest) ← readName? key.toList
  return first :: (← readMore? rest.length rest)

/-! ### Following a path -/

/-- A letter as it stands in the names of settings. The sign of the kelvin is a large K. -/
def lowerLetter (c : Char) : Char := if c == '\u212A' then 'k' else c.toLower

def lowerKey (key : String) : String := String.ofList (key.toList.map lowerLetter)

end SettingStep

namespace Setting

/-- The entries of a group; any other setting gives way to one without entries. -/
def entries : Setting → List (String × Setting)
  | .group entries => entries
  | _ => []

/-- The items of a list; any other setting gives way to one without items. -/
def items : Setting → List Setting
  | .list items => items
  | _ => []

mutual
/-- Puts a value under a key of a setting, which becomes a group. A group is not replaced by another one:
    its entries are put into it one by one. -/
def put (key : String) (value : Setting) (setting : Setting) : Setting :=
  let key := SettingStep.lowerKey key
  match value with
  | .group more =>
    .group (putValue key (merge more ((getValue? key setting.entries).getD (.group []))) setting.entries)
  | value => .group (putValue key value setting.entries)

/-- Puts entries into a setting. -/
def merge : List (String × Setting) → Setting → Setting
  | [], setting => setting
  | (key, value) :: more, setting => merge more (put key value setting)
end

/-- Changes an item of a list. Items that are missing before it are unset; a place before the start is
    made by items in front. -/
def changeItem (index : Int) (change : Setting → Setting) (items : List Setting) : List Setting :=
  let place := if index < 0 then index + items.length else index
  if place < 0 then change .unset :: List.replicate ((-place).toNat - 1) .unset ++ items
  else
    let items := items ++ List.replicate (place.toNat + 1 - items.length) .unset
    items.modify place.toNat change

/-- Puts a value at the end of a path. What is missing on the way, or of the wrong kind, makes way. -/
def assign (value : Setting) : List SettingStep → Setting → Setting
  | [], _ => value
  | [.name key], setting => put key value setting
  | .name key :: path, setting =>
    let key := SettingStep.lowerKey key
    .group (putValue key (assign value path ((getValue? key setting.entries).getD .unset)) setting.entries)
  | .place index :: path, setting => .list (changeItem index (assign value path) setting.items)

end Setting
end Highlight
