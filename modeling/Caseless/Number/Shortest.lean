/-!
# The fewest digits that read back

A finite binary64 value stands for an interval of reals: those that round to it.  This module finds
the shortest decimal inside that interval, and of several shortest ones the nearest, by exact
arithmetic on naturals.

Main definitions:

- `Binary.ofBits`: the exact value of a bit pattern;
- `Binary.readsBack`: whether a decimal rounds to a value;
- `Binary.shortest`: the digits to write.

Main result: `Binary.hits_readsBack`, every candidate the search keeps reads back.
-/

namespace Caseless
namespace Number

/-- A finite magnitude `significand · 2 ^ exponent`. -/
structure Binary where
  significand : Nat
  exponent : Int
  /-- The neighbour below is half as far away as the neighbour above. -/
  narrowBelow : Bool

/-- The magnitude of a finite bit pattern; the sign bit is ignored. -/
def Binary.ofBits (bits : UInt64) : Binary :=
  let biased := ((bits >>> 52) &&& 0x7FF).toNat
  let fraction := (bits &&& 0xFFFFFFFFFFFFF).toNat
  if biased = 0 then
    { significand := fraction, exponent := -1074, narrowBelow := false }
  else
    { significand := Nat.pow 2 52 + fraction
      exponent := (biased : Int) - 1075
      narrowBelow := fraction == 0 && biased > 1 }

/-- A decimal magnitude `coefficient · 10 ^ exponent`. -/
structure Digits where
  coefficient : Nat
  exponent : Int
  deriving DecidableEq, Repr

/-- Which of two equally near candidates is written. -/
inductive Tie where
  | up
  | toEven
  deriving DecidableEq, Repr

/-- Compares `a · 10 ^ i` with `n · 2 ^ j`. -/
def compareScaled (a : Nat) (i : Int) (n : Nat) (j : Int) : Ordering :=
  compare (a * Nat.pow 10 i.toNat * Nat.pow 2 (-j).toNat)
    (n * Nat.pow 2 j.toNat * Nat.pow 10 (-i).toNat)

namespace Binary

/-- Whether a decimal lies among the reals that round to `x`.  The two ends of that interval belong
to it when the significand is even. -/
def readsBack (x : Binary) (d : Digits) : Bool :=
  let low := if x.narrowBelow then 4 * x.significand - 1 else 4 * x.significand - 2
  let high := 4 * x.significand + 2
  let closed := x.significand % 2 == 0
  let atLow := compareScaled d.coefficient d.exponent low (x.exponent - 2)
  let atHigh := compareScaled d.coefficient d.exponent high (x.exponent - 2)
  (atLow == .gt || (closed && atLow == .eq)) && (atHigh == .lt || (closed && atHigh == .eq))

/-- The value divided by `10 ^ k`, rounded down. -/
def floorAt (x : Binary) (k : Int) : Nat :=
  (x.significand * Nat.pow 2 x.exponent.toNat * Nat.pow 10 (-k).toNat) /
    (Nat.pow 2 (-x.exponent).toNat * Nat.pow 10 k.toNat)

/-- The least `k` at or above `start` with `x < 10 ^ k`, tried for `fuel` steps. -/
def scaleFrom (x : Binary) : Nat → Int → Int
  | 0, k => k
  | fuel + 1, k => if compareScaled 1 k x.significand x.exponent == .gt then k
    else scaleFrom x fuel (k + 1)

/-- The least `k` with `x < 10 ^ k`, for a value that is not zero.  The search starts below the
decimal length that the binary length allows. -/
def scale (x : Binary) : Int :=
  let bits : Int := (x.significand.log2 : Int) + x.exponent
  scaleFrom x 8 (Int.fdiv (bits * 30103) 100000 - 2)

/-- The decimals on the grid `10 ^ k` next to the value that read back, the nearer one first. -/
def hits (x : Binary) (tie : Tie) (k : Int) : List Digits :=
  let below := x.floorAt k
  let lower : Digits := ⟨below, k⟩
  let upper : Digits := ⟨below + 1, k⟩
  -- The value against the middle of the two neighbours.
  let side := compareScaled (2 * below + 1) k (2 * x.significand) x.exponent
  let upperFirst := match side, tie with
    | .lt, _ => true
    | .gt, _ => false
    | .eq, .up => true
    | .eq, .toEven => below % 2 == 1
  (if upperFirst then [upper, lower] else [lower, upper]).filter x.readsBack

/-- Moves trailing zeros of the coefficient into the exponent. -/
def strip : Nat → Digits → Digits
  | 0, d => d
  | fuel + 1, d =>
    if d.coefficient % 10 = 0 && d.coefficient ≠ 0 then
      strip fuel ⟨d.coefficient / 10, d.exponent + 1⟩
    else d

/-- The exact decimal value, for a value that no grid of seventeen digits meets. -/
def exact (x : Binary) : Digits :=
  ⟨x.significand * Nat.pow 2 x.exponent.toNat * Nat.pow 5 (-x.exponent).toNat, min x.exponent 0⟩

/-- The fewest digits that read back to a value that is not zero. -/
def shortest (x : Binary) (tie : Tie) : Digits :=
  let top := x.scale
  let found := (List.range 17).findSome? fun (n : Nat) => (x.hits tie (top - 1 - (n : Int))).head?
  strip 800 (found.getD x.exact)

/-- Every candidate that the search keeps reads back. -/
theorem hits_readsBack {x : Binary} {tie : Tie} {k : Int} {d : Digits} (h : d ∈ x.hits tie k) :
    x.readsBack d = true := by
  simp only [hits, List.mem_filter] at h
  exact h.2

end Binary
end Number
end Caseless
