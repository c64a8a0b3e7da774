/-! Lists of values with names, in which each name stands once. -/

namespace Highlight

/-- Puts a value under a key: in place of the one there, or last. -/
def putValue {α : Type} (key : String) (value : α) : List (String × α) → List (String × α)
  | [] => [(key, value)]
  | (k, v) :: rest => if k == key then (key, value) :: rest else (k, v) :: putValue key value rest

/-- The value under a key. -/
def getValue? {α : Type} (key : String) (entries : List (String × α)) : Option α :=
  (entries.find? (·.1 == key)).map (·.2)

/-- The entries but those under a key. -/
def dropValue {α : Type} (key : String) (entries : List (String × α)) : List (String × α) :=
  entries.filter (·.1 != key)

end Highlight
