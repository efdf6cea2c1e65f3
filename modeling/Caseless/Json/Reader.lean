import Caseless.Data.Read

/-!
# Reading JSON

A JSON text is read into a value: objects become structs with their members in order, arrays become
lists, and numbers become integers where they can.  The grammar is the strict one, the whole text
has to be used, and the first fault in text order is the one that is reported.

Each reader takes characters off the front and hands back the rest.

Main definitions:

- `Fault`: why a text is not read;
- `Numeral`: a number as it is written, and `Numeral.value`, the value it gives;
- `readValue`: one value, with a bound on nesting;
- `Json.read`: the value of a whole text.
-/

namespace Caseless

namespace Json

/-- Why a text is not read. -/
inductive Fault where
  /-- The text breaks the grammar, nests too deep or writes a number that is too large. -/
  | text
  /-- The text is in order, but a datum in it is refused. -/
  | data (failure : Error)

/-- Takes characters off the front and hands back the rest. -/
abbrev Reader (α : Type) := List Char → Except Fault (α × List Char)

/-- The deepest nesting of arrays and objects that is read. -/
def maxDepth : Nat :=
  127

/-! ### Blanks and words -/

/-- The characters that may stand between tokens. -/
def isBlank (c : Char) : Bool :=
  c == ' ' || c == '\n' || c == '\t' || c == '\r'

/-- Takes off leading blanks. -/
def skipBlanks (cs : List Char) : List Char :=
  cs.dropWhile isBlank

/-- Takes off a given word. -/
def readWord (word : List Char) : Reader Unit := fun cs =>
  match word, cs with
  | [], cs => .ok ((), cs)
  | c :: word, d :: rest => if c = d then readWord word rest else .error .text
  | _ :: _, [] => .error .text

/-! ### Strings -/

/-- The value of a hexadecimal digit of either case. -/
def hexDigit? (c : Char) : Option Nat :=
  if '0' ≤ c && c ≤ '9' then some (c.toNat - '0'.toNat)
  else if 'a' ≤ c && c ≤ 'f' then some (c.toNat - 'a'.toNat + 10)
  else if 'A' ≤ c && c ≤ 'F' then some (c.toNat - 'A'.toNat + 10)
  else none

/-- The 16-bit unit written by four hexadecimal digits. -/
def unit? (a b c d : Char) : Option Nat := do
  let a ← hexDigit? a
  let b ← hexDigit? b
  let c ← hexDigit? c
  let d ← hexDigit? d
  return ((a * 16 + b) * 16 + c) * 16 + d

/-- Whether a unit is the first half of a pair. -/
def isLeading (unit : Nat) : Bool :=
  0xD800 ≤ unit && unit < 0xDC00

/-- Whether a unit is the second half of a pair. -/
def isTrailing (unit : Nat) : Bool :=
  0xDC00 ≤ unit && unit < 0xE000

/-- The character of two halves of a pair. -/
def pairChar (leading trailing : Nat) : Char :=
  Char.ofNat (0x10000 + (leading - 0xD800) * 0x400 + (trailing - 0xDC00))

/-- The character that a one-letter escape stands for. -/
def escaped? (c : Char) : Option Char :=
  if c = '"' || c = '\\' || c = '/' then some c
  else if c = 'b' then some (Char.ofNat 8)
  else if c = 'f' then some (Char.ofNat 12)
  else if c = 'n' then some '\n'
  else if c = 'r' then some '\r'
  else if c = 't' then some '\t'
  else none

/-- What a string holds, after its opening quote.  Control characters have to be escaped, and both
halves of a pair have to be there. -/
def readChars : List Char → Except Fault (List Char × List Char)
  | '"' :: rest => .ok ([], rest)
  | '\\' :: 'u' :: a :: b :: c :: d :: rest =>
    match unit? a b c d with
    | none => .error .text
    | some unit =>
      if isTrailing unit then .error .text
      else if isLeading unit then
        match rest with
        | '\\' :: 'u' :: e :: f :: g :: h :: rest =>
          match unit? e f g h with
          | none => .error .text
          | some trailing =>
            if isTrailing trailing then
              (readChars rest).map fun (text, rest) => (pairChar unit trailing :: text, rest)
            else .error .text
        | _ => .error .text
      else (readChars rest).map fun (text, rest) => (Char.ofNat unit :: text, rest)
  | '\\' :: c :: rest =>
    match escaped? c with
    | none => .error .text
    | some c => (readChars rest).map fun (text, rest) => (c :: text, rest)
  | c :: rest =>
    if c.toNat < 32 || c = '\\' then .error .text
    else (readChars rest).map fun (text, rest) => (c :: text, rest)
  | [] => .error .text

/-- A string, after its opening quote. -/
def readString : Reader String := fun cs =>
  (readChars cs).map fun (text, rest) => (String.ofList text, rest)

/-! ### Numbers -/

/-- A number as it is written: the digits before the point, those after it if there is one, and the
exponent if there is one. -/
structure Numeral where
  negative : Bool
  whole : List Char
  fraction : Option (List Char)
  exponent : Option Int

/-- The number that decimal digits write. -/
def numberOf (digits : List Char) : Nat :=
  digits.foldl (fun n c => n * 10 + (c.toNat - '0'.toNat)) 0

/-- At least one digit. -/
def readDigits : Reader (List Char) := fun cs =>
  match cs.span Char.isDigit with
  | ([], _) => .error .text
  | (digits, rest) => .ok (digits, rest)

/-- The digits before the point: a zero, or digits that do not start with one. -/
def readWhole : Reader (List Char) := fun cs => do
  let (digits, rest) ← readDigits cs
  match digits with
  | '0' :: _ :: _ => .error .text
  | _ => return (digits, rest)

/-- A sign that may be left out: whether it is a minus. -/
def readSign (plusAllowed : Bool) : List Char → Bool × List Char
  | '-' :: rest => (true, rest)
  | '+' :: rest => (false, if plusAllowed then rest else '+' :: rest)
  | rest => (false, rest)

/-- The digits after a point, if there is one. -/
def readFraction : Reader (Option (List Char)) := fun cs =>
  match cs with
  | '.' :: rest => (readDigits rest).map fun (digits, rest) => (some digits, rest)
  | rest => .ok (none, rest)

/-- The exponent, if there is one. -/
def readExponent : Reader (Option Int) := fun cs =>
  match cs with
  | c :: rest =>
    if c = 'e' || c = 'E' then do
      let (negative, rest) := readSign true rest
      let (digits, rest) ← readDigits rest
      let size : Int := numberOf digits
      return (some (if negative then -size else size), rest)
    else .ok (none, c :: rest)
  | [] => .ok (none, [])

/-- A number. -/
def readNumeral : Reader Numeral := fun cs => do
  let (negative, rest) := readSign false cs
  let (whole, rest) ← readWhole rest
  let (fraction, rest) ← readFraction rest
  let (exponent, rest) ← readExponent rest
  return (⟨negative, whole, fraction, exponent⟩, rest)

namespace Numeral

/-- The digits after the point without the zeros at their end. -/
def fractionDigits (numeral : Numeral) : List Char :=
  ((numeral.fraction.getD []).reverse.dropWhile (· == '0')).reverse

/-- The digits without the point, from the first one that is not zero. -/
def digits (numeral : Numeral) : List Char :=
  (numeral.whole ++ numeral.fractionDigits).dropWhile (· == '0')

/-- The least power of ten above the magnitude: where the point stands, counted from the first of
`digits`. -/
def lead (numeral : Numeral) : Int :=
  numeral.digits.length + (numeral.exponent.getD 0 - numeral.fractionDigits.length)

/-- How many digits are told apart.  The middle between two neighbouring floats has no more. -/
def maxDigits : Nat :=
  768

/-- The digits that decide the float.  Where there are more than `maxDigits`, a single one stands
for the rest and lifts the number above the middle between two floats, should it begin like one.
The rest is taken to be more than nothing without a look at it, so zeros at the end of the whole
part count there, while those at the end of the fraction are gone before. -/
def decidingDigits (numeral : Numeral) : List Char :=
  if numeral.digits.length ≤ maxDigits then numeral.digits
  else numeral.digits.take maxDigits ++ ['1']

/-- The float nearest to the magnitude that the deciding digits write.  Numbers that begin far from
every float are decided by where they begin. -/
def magnitude (numeral : Numeral) : Float :=
  if numeral.digits.isEmpty || numeral.lead < -400 then 0
  else if 400 < numeral.lead then 1 / 0
  else
    let scale := numeral.lead - numeral.decidingDigits.length
    Float.ofScientific (numberOf numeral.decidingDigits) (scale < 0) scale.natAbs

/-- The float that a number writes, which has to be finite. -/
def float (numeral : Numeral) : Except Fault Value :=
  let x := numeral.magnitude
  if x.isInf then .error .text
  else .ok (.scalar (.float (if numeral.negative then -x else x)))

/-- The value of a number.  Without point and exponent it is an integer, except that minus zero and
what is outside the 64-bit integers are floats. -/
def value (numeral : Numeral) : Except Fault Value :=
  match numeral.fraction, numeral.exponent with
  | none, none =>
    let size : Int := numberOf numeral.whole
    let type := if numeral.negative then IntType.i64 else IntType.u64
    let n := if numeral.negative then -size else size
    if type.fits n && !(numeral.negative && size == 0) then
      (Data.read (.int type n)).mapError .data
    else numeral.float
  | _, _ => numeral.float

end Numeral

/-- The value of a number. -/
def readNumber : Reader Value := fun cs => do
  let (numeral, rest) ← readNumeral cs
  let value ← numeral.value
  return (value, rest)

/-! ### Values -/

/-- One item or more with commas between them, up to a closing bracket.  Each item takes a character
or more, so as many items are allowed as there are characters. -/
def readItems {α : Type} (closing : Char) (readItem : Reader α) :
    Nat → List Char → Except Fault (List α × List Char)
  | 0, _ => .error .text
  | bound + 1, cs => do
    let (item, rest) ← readItem cs
    match skipBlanks rest with
    | [] => .error .text
    | c :: rest =>
      if c = closing then return ([item], rest)
      else if c = ',' then
        let (items, rest) ← readItems closing readItem bound rest
        return (item :: items, rest)
      else .error .text

/-- Items with commas between them, after the opening bracket. -/
def readBracketed {α : Type} (closing : Char) (readItem : Reader α) : Reader (List α) := fun cs =>
  match skipBlanks cs with
  | [] => .error .text
  | c :: rest =>
    if c = closing then .ok ([], rest) else readItems closing readItem (rest.length + 1) (c :: rest)

/-- A member of an object: a string, a colon and a value. -/
def readMember (readInner : Reader Value) : Reader (String × Value) := fun cs =>
  match skipBlanks cs with
  | '"' :: rest => do
    let (name, rest) ← readString rest
    match skipBlanks rest with
    | ':' :: rest =>
      let (value, rest) ← readInner rest
      return ((name, value), rest)
    | _ => .error .text
  | _ => .error .text

/-- A value whose children are read as given; where none are given, only values without children are
read. -/
def readNode (readInner : Option (Reader Value)) : Reader Value := fun cs =>
  match skipBlanks cs with
  | [] => .error .text
  | c :: rest =>
    if c = '"' then
      (readString rest).map fun (text, rest) => (.scalar (.string text), rest)
    else if c = 'n' then
      (readWord ['u', 'l', 'l'] rest).map fun (_, rest) => (.null, rest)
    else if c = 't' then
      (readWord ['r', 'u', 'e'] rest).map fun (_, rest) => (.scalar (.bool true), rest)
    else if c = 'f' then
      (readWord ['a', 'l', 's', 'e'] rest).map fun (_, rest) => (.scalar (.bool false), rest)
    else if c = '[' then
      match readInner with
      | none => .error .text
      | some readInner =>
        (readBracketed ']' readInner rest).map fun (elements, rest) =>
          (.seq .list elements, rest)
    else if c = '\x7b' then
      match readInner with
      | none => .error .text
      | some readInner =>
        (readBracketed '\x7d' (readMember readInner) rest).map fun (fields, rest) =>
          (.struct () fields, rest)
    else readNumber (c :: rest)

/-- A value that nests at most to a given depth. -/
def readValue : Nat → Reader Value
  | 0 => readNode none
  | depth + 1 => readNode (some (readValue depth))

/-- The value of a whole text. -/
def read (text : String) : Except Fault Value := do
  let (value, rest) ← readValue maxDepth text.toList
  if (skipBlanks rest).isEmpty then return value else .error .text

end Json
end Caseless
