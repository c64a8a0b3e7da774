import Highlight.Decimal.Layout
import Highlight.Json.Basic

/-! The value of a JSON number: a whole number if it is written as one and fits into 64 bits, otherwise the
    floating point number that its leading digits and its power of ten give. -/

namespace Highlight.JsonNumber

/-- The greatest significand: digits that would take it further are left out. -/
def maxSignificand : Nat := UInt64.size - 1

/-- The greatest power of ten that a floating point number can have. -/
def maxPower : Nat := 308

/-- Appends digits to a significand up to the first that takes it too far, and gives the digits left over. -/
def appendDigits (significand : Nat) : List Nat → Nat × List Nat
  | [] => (significand, [])
  | digit :: digits =>
    if 10 * significand + digit ≤ maxSignificand then appendDigits (10 * significand + digit) digits
    else (significand, digit :: digits)

/-- The power of ten of the exponent. -/
def power (n : JsonNumber) : Int :=
  match n.exponent with
  | some (true, e) => -(e : Int)
  | some (false, e) => e
  | none => 0

/-- The significand and the power of ten. Digits before the point that are left out count for the power;
    the digits after the point are left out from the first that does not fit. -/
def scaled (n : JsonNumber) : Nat × Int :=
  let (whole, left) := appendDigits 0 ((Nat.toDigits 10 n.whole).map (·.toNat - '0'.toNat))
  let fraction := n.fraction.getD []
  let (significand, unused) := appendDigits whole fraction
  (significand, left.length - (fraction.length - unused.length : Nat) + n.power)

/-- A significand times a power of ten, or nothing if that is too large. Powers below the least of a floating
    point number are taken in two steps. -/
def scale? (significand : Nat) (power : Int) : Option Float :=
  let value := significand.toUInt64.toFloat
  let tens (n : Nat) : Float := Float.ofScientific 1 false n
  if significand = 0 then some 0
  else if 0 ≤ power then
    if maxPower < power then none else
      let product := value * tens power.toNat
      if product.isInf then none else some product
  else if -power ≤ maxPower then some (value / tens (-power).toNat)
  else if -power ≤ 2 * maxPower then some (value / tens maxPower / tens ((-power).toNat - maxPower))
  else some 0

/-- The whole number that a number is, if it is written without point and exponent and fits into 64 bits. -/
def toInt? (n : JsonNumber) : Option Int :=
  match n with
  | ⟨false, whole, none, none⟩ => if whole < UInt64.size then some whole else none
  | ⟨true, whole, none, none⟩ => if whole ≠ 0 ∧ whole ≤ UInt64.size / 2 then some (-whole) else none
  | _ => none

/-- The floating point number that a number is, if it is not too large. -/
def toFloat? (n : JsonNumber) : Option Float :=
  let (significand, power) := n.scaled
  (scale? significand power).map fun value => if n.negative then -value else value

/-- Whether a number has a value. -/
def hasValue (n : JsonNumber) : Bool := n.toInt?.isSome || n.toFloat?.isSome

/-- A floating point number has its point in place unless it is very large or very small, and always a
    digit after the point. -/
def layout : Decimal.Layout := ⟨some (-4, 16), ".0"⟩

end Highlight.JsonNumber
