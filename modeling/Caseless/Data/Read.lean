import Caseless.Data.Encode

/-!
# Reading values from a format

A value can be read from any format that offers data: maps become structs with their keys in the
order of the input, sequences become lists, and integers must be in the range of a value's integers.
A format that announces how many parts are to come announces as many as there are.  Room is set
aside for so many, and it is taken for granted that there is room for the parts of a value.

Main definitions:

- `Data.unexpected`: how a datum is named in an error;
- `Data.readKey`: the field name that an offered map key gives;
- `Data.read`: the value that offered data give.
-/

namespace Caseless
namespace Data

/-- How a datum that was offered is named in an error. -/
def unexpected : Data → Unexpected
  | .none | .some _ => .option
  | .unit | .unitStruct => .unit
  | .bool b => .bool b
  | .int type n => if type.isWide then .wideInteger n type.name else .integer n
  | .f32 x => .float x.toFloat
  | .f64 x => .float x
  | .char c => .text (String.singleton c)
  | .str s => .text s
  | .bytes _ => .bytes
  | .newtypeStruct _ => .newtype
  | .seq .. | .tupleOf .. | .tupleStructOf .. => .sequence
  | .map .. | .mapStepsOf .. | .structOf .. => .map
  | .unitVariant _ | .newtypeVariant .. | .tupleVariantOf .. | .structVariantOf .. => .enum
  | .fail _ => .unit

/-- The field name that an offered key gives: text, a character, or bytes that hold text. -/
def readKey : Data → Except Error String
  | .str s => .ok s
  | .char c => .ok (String.singleton c)
  | .bytes payload =>
    match String.fromUTF8? payload with
    | Option.some s => .ok s
    | Option.none => .error (.invalidValue .bytes "a string")
  | .fail text => .error (.custom text)
  | datum => .error (.invalidType datum.unexpected "a string")

/-- The value of an offered integer.  Types wider than 64 bits are refused for any number. -/
def readInt (type : IntType) (n : Int) : Except Error Value :=
  if type.isWide then .error (.invalidType (.wideInteger n type.name) "any value")
  else
    match intOf? n with
    | Option.some n => .ok (.scalar (.int n))
    | Option.none => .error (.invalidValue (.integer n) "any value")

mutual

/-- The value that offered data give. -/
def read : Data → Except Error Value
  | .none | .unit | .unitStruct => .ok .null
  | .bool b => .ok (.scalar (.bool b))
  | .int type n => readInt type n
  | .f32 x => .ok (.scalar (.float x.toFloat))
  | .f64 x => .ok (.scalar (.float x))
  | .char c => .ok (.scalar (.string (String.singleton c)))
  | .str s => .ok (.scalar (.string s))
  | .bytes payload => .ok (.scalar (.blob payload))
  | .some datum | .newtypeStruct datum => read datum
  | .unitVariant _ | .newtypeVariant .. | .tupleVariantOf .. | .structVariantOf .. =>
    .error (.invalidType .enum "any value")
  | .seq _ elements | .tupleOf _ elements | .tupleStructOf _ elements =>
    (readElements elements).map (.seq .list)
  | .map _ entries => (readEntries entries).map (.struct ())
  | .mapStepsOf _ steps => readSteps .empty steps
  | .structOf _ fields => (readFields fields).map (.struct ())
  | .fail text => .error (.custom text)

/-- The values of offered elements, first to last. -/
def readElements : List Data → Except Error (List Value)
  | [] => .ok []
  | datum :: rest => do
    let value ← read datum
    let values ← readElements rest
    return value :: values

/-- The fields of offered entries: each key before its value. -/
def readEntries : List (Data × Data) → Except Error (List (String × Value))
  | [] => .ok []
  | (key, datum) :: rest => do
    let name ← key.readKey
    let value ← read datum
    let fields ← readEntries rest
    return (name, value) :: fields

/-- The fields of an offered struct. -/
def readFields : List (String × Data) → Except Error (List (String × Value))
  | [] => .ok []
  | (name, datum) :: rest => do
    let value ← read datum
    let fields ← readFields rest
    return (name, value) :: fields

/-- The struct that an offered succession of keys and values gives. -/
def readSteps (builder : MapBuilder) : List (MapStep Data) → Except Error Value
  | [] => .ok builder.finish
  | .key datum :: rest =>
    match builder.giveKey datum.readKey with
    | (.ok (), builder) => readSteps builder rest
    | (.error failure, _) => .error failure
  | .value datum :: rest =>
    match builder.giveValue (read datum) with
    | (.ok (), builder) => readSteps builder rest
    | (.error failure, _) => .error failure

end

end Data
end Caseless
