import Caseless.Number.Shortest

/-!
# Layout of floats

Which digits are written is decided in `Caseless.Number.Shortest`; this module lays them out.  Every
decision that a format takes is a field of `Layout`, and each format that writes floats has one such
record.
-/

namespace Caseless
namespace Number

/-- The decisions of a format that writes floats. -/
structure Layout where
  /-- Exponents of the leading digit from here on are written positionally, unless `plainBelow`
  says otherwise. -/
  plainFrom : Int
  /-- Exponents of the leading digit below this bound are written positionally. -/
  plainBelow : Int
  /-- A positive exponent carries a plus sign. -/
  plusSign : Bool
  /-- Which of two equally near shortest candidates is written. -/
  tie : Tie
  /-- What is written for a value that is not a number. -/
  nan : String
  /-- What is written for positive infinity. -/
  infinity : String
  /-- What is written for negative infinity. -/
  minusInfinity : String

/-- Digits in positional form.  A whole number ends in `.0`. -/
def positional (digits : List Char) (exponent : Int) : List Char :=
  if 0 ≤ exponent then
    digits ++ List.replicate exponent.toNat '0' ++ ['.', '0']
  else
    let places := (-exponent).toNat
    if places < digits.length then
      digits.take (digits.length - places) ++ '.' :: digits.drop (digits.length - places)
    else
      '0' :: '.' :: List.replicate (places - digits.length) '0' ++ digits

/-- Digits in scientific form: one digit, a point if more follow, and the exponent. -/
def scientific (plusSign : Bool) (digits : List Char) (exponent : Int) : List Char :=
  let lead := exponent + digits.length - 1
  let fraction := match digits.drop 1 with
    | [] => []
    | rest => '.' :: rest
  let sign := if plusSign && 0 < lead then ['+'] else []
  digits.take 1 ++ fraction ++ 'e' :: sign ++ (toString lead).toList

/-- A finite magnitude that is not zero, laid out. -/
def Layout.magnitude (layout : Layout) (d : Digits) : List Char :=
  let digits := (toString d.coefficient).toList
  let lead := d.exponent + digits.length - 1
  if layout.plainFrom ≤ lead && lead < layout.plainBelow then
    positional digits d.exponent
  else
    scientific layout.plusSign digits d.exponent

/-- The text of a float. -/
def Layout.render (layout : Layout) (x : Float) : String :=
  if x.isNaN then layout.nan
  else if x.isInf then (if x < 0 then layout.minusInfinity else layout.infinity)
  else
    let bits := x.toBits
    let sign := if bits >>> 63 = 1 then "-" else ""
    let binary := Binary.ofBits bits
    if binary.significand = 0 then sign ++ "0.0"
    else sign ++ String.ofList (layout.magnitude (binary.shortest layout.tie))

end Number
end Caseless
