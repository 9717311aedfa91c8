import PathQuery.Decimal.Binary64

/-!
# The shortest decimal of a binary64 number

For one, two, ... digits the two neighbours of the number on that decimal grid are tested against
the interval of reals that round to it: the first grid with a hit gives the digits, of two hits
the nearer one, and of two equally near ones the even one.
-/

set_option autoImplicit false

namespace PathQuery.Decimal

/-- Decimal digits without a zero at either end; the first one counts `10 ^ exponent`. -/
structure Digits where
  digits : List Char
  exponent : Int

/-- The exponent of the first decimal digit of `num / den`. -/
def order (num den : Nat) : Int :=
  let guess : Int := ((toString num).length : Int) - (toString den).length
  if den * Nat.pow 10 guess.toNat ≤ num * Nat.pow 10 (-guess).toNat then guess else guess - 1

/-- The nearest multiple of `10 ^ place` that rounds back, counted in `10 ^ place`. -/
def Rounding.onGrid? (r : Rounding) (place : Int) : Option Nat :=
  let scale := Nat.pow 10 (-place).toNat
  let step := Nat.pow 10 place.toNat * r.unit
  let holds (n : Nat) : Bool :=
    if r.closed then r.lower * scale ≤ n * step && n * step ≤ r.upper * scale
    else r.lower * scale < n * step && n * step < r.upper * scale
  let down := r.value * scale / step
  let nearest := roundHalfEven (r.value * scale) step
  if holds nearest then some nearest
  else if holds down then some down
  else if holds (down + 1) then some (down + 1)
  else none

/-- Seventeen digits always suffice. -/
def Rounding.shortest (r : Rounding) : Digits :=
  let first := order r.value r.unit
  let found := (List.range 17).findSome? fun (extra : Nat) =>
    (r.onGrid? (first - extra)).map fun n => (n, first - extra)
  let (n, place) := found.getD (0, 0)
  let written := (toString n).toList
  { digits := (written.reverse.dropWhile (· == '0')).reverse
    exponent := place + written.length - 1 }

end PathQuery.Decimal
