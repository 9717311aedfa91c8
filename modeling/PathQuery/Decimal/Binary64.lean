/-!
# Binary64 numbers as exact fractions

`Rounding.ofBits` gives a finite number together with the interval of reals that round to it, as
fractions over one denominator. `nearestBits?` goes the other way: it rounds a fraction to the
nearest number, an exact tie to the even mantissa.
-/

set_option autoImplicit false

namespace PathQuery.Decimal

/-- A positive number `value / unit` and the bounds between which all reals round to it. -/
structure Rounding where
  lower : Nat
  value : Nat
  upper : Nat
  unit : Nat
  /-- Whether the bounds themselves round to the number, which they do when its mantissa is even. -/
  closed : Bool

/-- The magnitude of a finite number, in quarters of its last binary place. Below a power of two
the neighbour is only half as far away. -/
def Rounding.ofBits (bits : UInt64) : Rounding :=
  let fraction := (bits &&& 0xFFFFFFFFFFFFF).toNat
  let biased := ((bits >>> 52) &&& 0x7FF).toNat
  let mantissa := if biased = 0 then fraction else Nat.pow 2 52 + fraction
  let place := max biased 1
  let scale := Nat.pow 2 (place - 1077)
  let below := if fraction = 0 ∧ 1 < biased then 1 else 2
  { lower := (4 * mantissa - below) * scale
    value := 4 * mantissa * scale
    upper := (4 * mantissa + 2) * scale
    unit := Nat.pow 2 (1077 - place)
    closed := mantissa % 2 == 0 }

/-- The quotient rounded to the nearest integer, a tie to the even one. -/
def roundHalfEven (num den : Nat) : Nat :=
  let q := num / den
  let r := 2 * (num % den)
  if r < den then q else if den < r then q + 1 else q + q % 2

/-- `num / (den * 2 ^ place)` as numerator and denominator. -/
def shiftFraction (num den : Nat) (place : Int) : Nat × Nat :=
  (num * Nat.pow 2 (-place).toNat, den * Nat.pow 2 place.toNat)

/-- The bits of the nearest number to `num / den`, or `none` beyond the largest finite one. The
place of the last bit is chosen so that the mantissa has 53 bits, but never below `2 ^ -1074`. -/
def nearestBits? (num den : Nat) : Option UInt64 :=
  let guess : Int := (num.log2 : Int) - den.log2 - 52
  let (n, d) := shiftFraction num den guess
  let place := max (if n < Nat.pow 2 52 * d then guess - 1 else guess) (-1074)
  let (n, d) := shiftFraction num den place
  let bits := (place + 1074).toNat * Nat.pow 2 52 + roundHalfEven n d
  if bits < 0x7FF * Nat.pow 2 52 then some (UInt64.ofNat bits) else none

end PathQuery.Decimal
