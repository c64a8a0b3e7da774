/-! The values of data files, whatever the syntax of the file. -/

namespace Highlight

/-- A value. A whole number from zero on is told apart from other numbers, because it can count something.
    A mapping keeps the order of its members, and may repeat a key. -/
inductive Datum where
  | null
  | bool (value : Bool)
  | natural (value : Nat)
  | number
  | text (value : String)
  | list (items : List Datum)
  | mapping (members : List (Datum × Datum))
  deriving Repr, Inhabited

end Highlight
