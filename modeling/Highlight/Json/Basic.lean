/-! JSON values. A number is kept as it is written, so that nothing is lost by reading it. -/

namespace Highlight

/-- A number: its sign, the digits before the point, the digits after it if there is one, and the
    exponent if there is one, with its sign. -/
structure JsonNumber where
  negative : Bool
  whole : Nat
  fraction : Option (List Nat)
  exponent : Option (Bool × Nat)
  deriving DecidableEq, Repr

/-- A JSON value. The members of an object keep their order, and a key may occur more than once. -/
inductive Json where
  | null
  | bool (value : Bool)
  | number (value : JsonNumber)
  | string (value : String)
  | array (items : List Json)
  | object (members : List (String × Json))
  deriving Repr, Inhabited

namespace Json

/-- A natural number as a JSON value. -/
def ofNat (n : Nat) : Json := .number ⟨false, n, none, none⟩

/-- The natural number that a value is. -/
def toNat? : Json → Option Nat
  | .number ⟨false, n, none, none⟩ => some n
  | _ => none

/-- The first member with a key. -/
def member? (key : String) : Json → Option Json
  | .object members => (members.find? (·.1 == key)).map (·.2)
  | _ => none

end Json
end Highlight
