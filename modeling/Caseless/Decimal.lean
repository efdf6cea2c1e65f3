/-!
# Decimals

A decimal is carried as a coefficient and a power of ten.  Nothing computes with it; it is written
as text, or read as the nearest thing to a float that a chain of float multiplications gives.
-/

namespace Caseless

/-- The number `coefficient · 10 ^ exponent`. -/
structure Decimal where
  coefficient : Int64
  exponent : Int32
  deriving DecidableEq, Inhabited

namespace Decimal

/-- The decimal zero with exponent zero. -/
def zero : Decimal :=
  ⟨0, 0⟩

/-- The text notation, such as `125d-2`. -/
def text (d : Decimal) : String :=
  s!"{d.coefficient.toInt}d{d.exponent.toInt}"

/-- The bits of a natural number, lowest first. -/
def bitsOf (n : Nat) : List Bool :=
  (List.range (n.log2 + 1)).map n.testBit

/-- `acc · base ^ n` in float arithmetic for the number with the given bits, lowest first.  The base
is squared once between two bits, and so not after the last. -/
def powAlong (acc base : Float) : List Bool → Float
  | [] => acc
  | [bit] => if bit then acc * base else acc
  | bit :: rest => powAlong (if bit then acc * base else acc) (base * base) rest

/-- The power of ten of an exponent, as a float: a negative exponent gives a reciprocal. -/
def powerOfTen (exponent : Int) : Float :=
  let power := powAlong 1 10 (bitsOf exponent.natAbs)
  if exponent < 0 then 1 / power else power

/-- The float that a decimal stands for.  Coefficient and power are rounded apart, so a zero
coefficient with a power that overflows is not a number. -/
def toFloat (d : Decimal) : Float :=
  d.coefficient.toFloat * powerOfTen d.exponent.toInt

end Decimal
end Caseless
