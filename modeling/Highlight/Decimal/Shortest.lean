/-! Decimals and floating point numbers: the number nearest to a decimal, and the shortest decimal of a number.
    Of all decimals that are nearer to the number than to any other one, the shortest has the fewest digits,
    and of these it is the nearest. -/

namespace Highlight

/-- A decimal `digits · 10 ^ exponent`. -/
structure Decimal where
  digits : Nat
  exponent : Int
  deriving DecidableEq, Repr

namespace Decimal

/-- The number nearest to a decimal. All those of more than `10 ^ 310` are infinite, and all those of less
    than `10 ^ -330` are zero. -/
def toFloat (decimal : Decimal) : Float :=
  let point := decimal.exponent + (Nat.toDigits 10 decimal.digits).length
  if decimal.digits = 0 || point < -330 then 0
  else if 310 < point then 1 / 0
  else Float.ofScientific decimal.digits (decimal.exponent < 0) decimal.exponent.natAbs

/-- A finite number as `mantissa · 2 ^ exponent`, without its sign. -/
def binary (value : Float) : Nat × Int :=
  let bits := value.toBits.toNat
  let fraction : Nat := bits % Nat.pow 2 52
  let power : Nat := bits / Nat.pow 2 52 % Nat.pow 2 11
  if power = 0 then (fraction, -1074) else (Nat.pow 2 52 + fraction, (power : Int) - 1075)

/-- The fraction `n · 2 ^ two · 10 ^ ten` as numerator and denominator. -/
def fraction (n : Nat) (two ten : Int) : Nat × Nat :=
  (n * Nat.pow 2 two.toNat * Nat.pow 10 ten.toNat, Nat.pow 2 (-two).toNat * Nat.pow 10 (-ten).toNat)

/-- The multiple of `10 ^ place` that is nearest to `mantissa · 2 ^ exponent` and rounds to it, if there is
    one. The numbers that round to it lie half a step on each side; below a power of two the steps are half
    as wide, and an end of the interval belongs to it if the mantissa is even. -/
def onGrid? (mantissa : Nat) (exponent place : Int) : Option Decimal :=
  let below := if mantissa = Nat.pow 2 52 && exponent > -1074 then 1 else 2
  let (value, unit) := fraction (4 * mantissa) (exponent - 2) (-place)
  let (low, _) := fraction (4 * mantissa - below) (exponent - 2) (-place)
  let (high, _) := fraction (4 * mantissa + 2) (exponent - 2) (-place)
  let inside (n : Nat) : Bool :=
    if mantissa % 2 = 0 then low ≤ n * unit && n * unit ≤ high else low < n * unit && n * unit < high
  let floor := value / unit
  let near := if 2 * (value % unit) < unit || 2 * (value % unit) = unit && floor % 2 = 0 then [floor, floor + 1]
    else [floor + 1, floor]
  (near.find? fun n => n != 0 && inside n).map (⟨·, place⟩)

/-- The shortest decimal of a finite number, without its sign: the coarsest grid of powers of ten that has
    one. -/
def shortest (value : Float) : Decimal :=
  let (mantissa, exponent) := binary value
  ((List.range 640).findSome? fun (i : Nat) => onGrid? mantissa exponent (310 - (i : Int))).getD ⟨0, 0⟩

end Decimal
end Highlight
