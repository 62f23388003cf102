import TreeCheck.Decimal.Shortest

/-!
# Writing a decimal

A decimal is written positionally when the exponent of its leading digit lies
between two bounds, and with an explicit power of ten otherwise.  The bounds and
the words for what is not a number stand in one record.
-/

namespace TreeCheck

/-- The decisions of a notation for doubles. -/
structure Layout where
  /-- The least power of ten of a leading digit that is written positionally. -/
  positionalFrom : Int
  /-- The greatest one. -/
  positionalTo : Int
  nan : String
  infinity : String

namespace Decimal

/-- The power of ten of the leading digit. -/
def leadingExponent (d : Decimal) : Int :=
  d.exponent + (d.coefficient.repr.length : Int) - 1

def zeros (n : Nat) : String := String.ofList (List.replicate n '0')

/-- All digits around a point, with at least one on either side of it. -/
def positional (d : Decimal) : String :=
  let digits := d.coefficient.repr.toList
  let whole := (d.leadingExponent + 1).toNat
  if 0 ≤ d.exponent then d.coefficient.repr ++ zeros d.exponent.toNat ++ ".0"
  else if 0 ≤ d.leadingExponent then
    String.ofList (digits.take whole) ++ "." ++ String.ofList (digits.drop whole)
  else "0." ++ zeros (-d.leadingExponent - 1).toNat ++ d.coefficient.repr

/-- One digit before the point, the others after it, then the power of ten.  A
single digit has no point. -/
def scientific (d : Decimal) : String :=
  let digits := d.coefficient.repr.toList
  let others := digits.drop 1
  String.ofList (digits.take 1) ++
    (if others.isEmpty then "" else "." ++ String.ofList others) ++
    "e" ++ d.leadingExponent.repr

def text (l : Layout) (d : Decimal) : String :=
  if l.positionalFrom ≤ d.leadingExponent ∧ d.leadingExponent ≤ l.positionalTo then
    d.positional
  else d.scientific

end Decimal

/-- The text of a double.  The sign is shown for all but a NaN, and for zero
too. -/
def Binary64.text (l : Layout) (x : Binary64) : String :=
  if x.isNaN then l.nan
  else
    (if x.isNegative then "-" else "") ++
      (if x.isInfinite then l.infinity
       else if x.isZero then "0.0"
       else x.shortest.text l)

end TreeCheck
