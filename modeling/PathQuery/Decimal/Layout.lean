import PathQuery.Decimal.Shortest

/-!
# Writing decimal digits

A layout says which exponents are written positionally. A positional number always has a digit on
both sides of the point; any other number has an exponent with a sign.
-/

set_option autoImplicit false

namespace PathQuery.Decimal

/-- The exponents from `least` to `most` are written positionally. -/
structure Layout where
  least : Int
  most : Int

def Digits.positional (d : Digits) : List Char :=
  if d.exponent < 0 then
    '0' :: '.' :: List.replicate (-d.exponent - 1).toNat '0' ++ d.digits
  else
    let whole := d.exponent.toNat + 1
    let fraction := d.digits.drop whole
    d.digits.take whole ++ List.replicate (whole - d.digits.length) '0' ++
      '.' :: (if fraction.isEmpty then ['0'] else fraction)

def Digits.scientific (d : Digits) : List Char :=
  let fraction := d.digits.drop 1
  d.digits.take 1 ++ (if fraction.isEmpty then [] else '.' :: fraction) ++
    'e' :: (if d.exponent < 0 then '-' else '+') :: (toString d.exponent.natAbs).toList

def Layout.write (layout : Layout) (d : Digits) : List Char :=
  if layout.least ≤ d.exponent && d.exponent ≤ layout.most then d.positional else d.scientific

/-- The text of a finite number given by its bits. -/
def Layout.text (layout : Layout) (bits : UInt64) : String :=
  let magnitude := bits &&& 0x7FFFFFFFFFFFFFFF
  let sign := if magnitude == bits then [] else ['-']
  let digits := if magnitude == 0 then ['0', '.', '0']
    else layout.write (Rounding.ofBits magnitude).shortest
  String.ofList (sign ++ digits)

end PathQuery.Decimal
