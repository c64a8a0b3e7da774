import Highlight.Decimal.Shortest

/-! How a number is written: with its point in place, or with an exponent. -/

namespace Highlight.Decimal

/-- A way of writing numbers: for which places of the point it is written in place (all if there is no
    range), and what follows the digits of a whole number. -/
structure Layout where
  points : Option (Int × Int)
  wholeTail : String

/-- Whether a number whose point stands after `point` digits is written with the point in place. -/
def Layout.isPositional (layout : Layout) (point : Int) : Bool :=
  match layout.points with
  | some (first, last) => first ≤ point && point ≤ last
  | none => true

/-- Writes digits with a point after the first `point` of them, filled up with zeros on either side. -/
def Layout.positional (layout : Layout) (digits : List Char) (point : Int) : List Char :=
  if point ≤ 0 then ['0', '.'] ++ List.replicate (-point).toNat '0' ++ digits
  else if digits.length ≤ point then
    digits ++ List.replicate (point.toNat - digits.length) '0' ++ layout.wholeTail.toList
  else digits.take point.toNat ++ '.' :: digits.drop point.toNat

/-- Writes digits with a point after the first, and the exponent of ten behind them. -/
def scientific (digits : List Char) (point : Int) : List Char :=
  let fraction := if digits.length ≤ 1 then [] else '.' :: digits.drop 1
  digits.take 1 ++ fraction ++ 'e' :: (toString (point - 1)).toList

/-- The digits of a number other than zero. -/
def Layout.decimal (layout : Layout) (value : Decimal) : List Char :=
  let digits := Nat.toDigits 10 value.digits
  let point := value.exponent + digits.length
  if layout.isPositional point then layout.positional digits point else scientific digits point

/-- Writes a number with as few digits as tell it from every other. -/
def Layout.write (layout : Layout) (value : Float) : String :=
  if value.isNaN then "NaN" else
    let sign := if value.toBits.toNat < UInt64.size / 2 then "" else "-"
    if value.isInf then sign ++ "inf"
    else if value == 0 then sign ++ "0" ++ layout.wholeTail
    else sign ++ String.ofList (layout.decimal (shortest value))

end Highlight.Decimal
