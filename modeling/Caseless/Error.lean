import Caseless.Tag
import Caseless.Number.Layout
import Caseless.Text.Quoted

/-!
# Failures

Everything that reading, changing or converting a value can report.  A failure is a cause; its
wording is decided once, in `Error.message`.

Main definitions:

- `Unexpected`: what was found where something else was wanted;
- `Error`: the causes, and `Error.message`, their text.
-/

namespace Caseless

/-- What a reader found, as error messages name it. -/
inductive Unexpected where
  | unit
  | bool (b : Bool)
  | integer (n : Int)
  /-- An integer of a 128-bit type, which is named with the number. -/
  | wideInteger (n : Int) (typeName : String)
  | float (x : Float)
  | text (s : String)
  | bytes
  | sequence
  | map
  | option
  | newtype
  | enum
  | unitVariant

namespace Unexpected

/-- Floats in messages are always positional. -/
def floatLayout : Number.Layout where
  plainFrom := -400
  plainBelow := 400
  plusSign := false
  tie := .up
  nan := "NaN"
  infinity := "inf"
  minusInfinity := "-inf"

/-- The words for what was found. -/
def describe : Unexpected → String
  | .unit => "unit value"
  | .bool b => s!"boolean `{b}`"
  | .integer n => s!"integer `{n}`"
  | .wideInteger n typeName => s!"integer `{n}` as {typeName}"
  | .float x => "floating point `" ++ floatLayout.render x ++ "`"
  | .text s => "string " ++ Text.quote s
  | .bytes => "byte array"
  | .sequence => "sequence"
  | .map => "map"
  | .option => "Option value"
  | .newtype => "newtype struct"
  | .enum => "enum"
  | .unitVariant => "unit variant"

end Unexpected

/-- The causes of failure. -/
inductive Error where
  /-- A failure reported by the caller's own data, in its own words. -/
  | custom (text : String)
  /-- A position at or past the end of a sequence of length `len`. -/
  | indexOutOfRange (index len : Nat)
  /-- A value of another kind than the one asked for. -/
  | typeMismatch (expected : String) (found : Tag)
  /-- A map key that is not text. -/
  | keyMustBeString
  /-- A variant name that the enumeration does not declare. -/
  | unknownVariant (name : String)
  /-- A payload of a form that the target does not take. -/
  | invalidType (found : Unexpected) (expected : String)
  /-- A payload of the right form whose content the target does not take. -/
  | invalidValue (found : Unexpected) (expected : String)
  /-- A sequence that ends too early. -/
  | invalidLength (len : Nat) (expected : String)
  /-- A declared field that was not found and has no default. -/
  | missingField (name : String)
  /-- A declared field that was found twice. -/
  | duplicateField (name : String)
  /-- An integer outside the range of a value's integers. -/
  | integerTooWide (n : Int)
  /-- An integer type that cannot be a map key in any format. -/
  | unsupportedKey (typeName : String)
  /-- A map value written before any key. -/
  | valueBeforeKey
  /-- A map value asked for before its key. -/
  | valueNotPending

namespace Error

/-- The wording of a failure. -/
def message : Error → String
  | .custom text => text
  | .indexOutOfRange index len =>
    s!"index out of range: the len is {len} but the index is {index}"
  | .typeMismatch expected found => s!"type mismatch: expected {expected}, got {found.name}"
  | .keyMustBeString => "map key must be a string"
  | .unknownVariant name => s!"unknown enum variant: {name}"
  | .invalidType found expected => s!"invalid type: {found.describe}, expected {expected}"
  | .invalidValue found expected => s!"invalid value: {found.describe}, expected {expected}"
  | .invalidLength len expected => s!"invalid length {len}, expected {expected}"
  | .missingField name => s!"missing field `{name}`"
  | .duplicateField name => s!"duplicate field `{name}`"
  | .integerTooWide n => s!"integer {n} does not fit in an int"
  | .unsupportedKey typeName => s!"{typeName} is not supported"
  | .valueBeforeKey => "serialize_value called before serialize_key"
  | .valueNotPending => "next_value_seed called before next_key_seed"

/-- The family that a program can tell apart without reading the wording. -/
inductive Kind where
  | message
  | indexOutOfRange
  | typeMismatch
  | keyMustBeString
  | unknownVariant
  deriving DecidableEq, Repr

/-- The family of a failure. -/
def kind : Error → Kind
  | .indexOutOfRange .. => .indexOutOfRange
  | .typeMismatch .. => .typeMismatch
  | .keyMustBeString => .keyMustBeString
  | .unknownVariant .. => .unknownVariant
  | _ => .message

end Error

end Caseless
