import Highlight.Named

/-! TOML documents: tables, and the rules by which their lines build them up. A table is defined once. It may
    come into being before that, if the header of another one leads through it, and then its own header may
    still follow; dotted keys add to tables that come from dotted keys only. -/

namespace Highlight

/-- How a table comes into being. -/
inductive TableOrigin where
  /-- Its own header. -/
  | header
  /-- The header of a table within it. -/
  | passage
  /-- A key with dots. -/
  | dotted
  /-- A pair of braces, which hold all of it. -/
  | braces
  deriving DecidableEq, Repr

/-- A value. Dates and times are kept as they are written out. -/
inductive Toml where
  | string (value : String)
  | integer (value : Int)
  | float (value : Float)
  | boolean (value : Bool)
  | date (text : String)
  | array (items : List Toml)
  | table (origin : TableOrigin) (entries : List (String × Toml))
  /-- Tables with the same header, the last of them first. -/
  | tables (latest : List (String × Toml)) (earlier : List (List (String × Toml)))
  deriving Inhabited

namespace Toml

abbrev Entries := List (String × Toml)

/-! ### Within a table -/

/-- Whether entries can be added to a table from outside: not to one in braces, and to one with a header of
    its own by other headers only. -/
def isOpen (dotted : Bool) : TableOrigin → Bool
  | .header => !dotted
  | .passage => true
  | .dotted => true
  | .braces => false

/-- Changes the entries of the table that a path leads to. Tables that are missing on the way come into
    being; `dotted` tells whether the path is one of a dotted key. Of tables with the same header the last
    is meant. -/
def update (dotted : Bool) (change : TableOrigin → Entries → Option Entries) :
    List String → TableOrigin → Entries → Option Entries
  | [], origin, entries => change origin entries
  | key :: path, _, entries =>
    match getValue? key entries with
    | none => do
      let origin := if dotted then TableOrigin.dotted else .passage
      return putValue key (.table origin (← update dotted change path origin [])) entries
    | some (.table origin inner) =>
      if isOpen dotted origin then do
        return putValue key (.table origin (← update dotted change path origin inner)) entries
      else none
    | some (.tables latest earlier) => do
      return putValue key (.tables (← update dotted change path .header latest) earlier) entries
    | some _ => none

/-- Adds an entry under a new key. After a dotted key this needs a table from dotted keys. -/
def addEntry (isDotted : Bool) (key : String) (value : Toml) (origin : TableOrigin) (entries : Entries) :
    Option Entries :=
  if (origin == .dotted) != isDotted || (getValue? key entries).isSome then none
  else some (putValue key value entries)

/-- Splits a path before its last key. -/
def splitLast? : List String → Option (List String × String)
  | [] => none
  | [key] => some ([], key)
  | key :: path => (splitLast? path).map fun (start, last) => (key :: start, last)

/-- Adds an entry with a key that may have dots. -/
def assign? (path : List String) (value : Toml) (origin : TableOrigin) (entries : Entries) : Option Entries := do
  let (start, key) ← splitLast? path
  update true (addEntry (!start.isEmpty) key value) start origin entries

/-! ### Headers -/

/-- Defines the table of a header, which is new or has come into being on the way to another. -/
def defineTable (key : String) (_ : TableOrigin) (entries : Entries) : Option Entries :=
  match getValue? key entries with
  | none => some (putValue key (.table .header []) entries)
  | some (.table .passage inner) => some (putValue key (.table .header inner) entries)
  | some _ => none

/-- Adds a table to those of a header. -/
def appendTable (key : String) (_ : TableOrigin) (entries : Entries) : Option Entries :=
  match getValue? key entries with
  | none => some (putValue key (.tables [] []) entries)
  | some (.tables latest earlier) => some (putValue key (.tables [] (latest :: earlier)) entries)
  | some _ => none

/-- Goes on with the table of a header, or with a further table of it. -/
def openTable? (repeated : Bool) (path : List String) (entries : Entries) : Option Entries := do
  let (start, key) ← splitLast? path
  update false (if repeated then appendTable key else defineTable key) start .header entries

/-- Adds an entry to the table of the last header. -/
def assignUnder? (header path : List String) (value : Toml) (entries : Entries) : Option Entries :=
  update false (assign? path value) header .header entries

end Toml
end Highlight
