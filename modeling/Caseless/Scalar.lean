import Caseless.Decimal
import Caseless.Tag

/-!
# Scalars

The values that hold no other values: nulls of every kind, numbers, text and bytes.  A null of a
container kind is a scalar too.

Main definitions:

- `Scalar`: the payloads;
- `Scalar.tag` and the typed accessors;
- `Scalar.eqBy`: equality under a chosen comparison of floats.
-/

namespace Caseless

/-- A value without children. -/
inductive Scalar where
  /-- A null, typed with the kind it is a null of. -/
  | null (kind : Tag)
  | bool (b : Bool)
  | int (n : Int64)
  | float (x : Float)
  | decimal (d : Decimal)
  /-- A point in time in its text form, never interpreted. -/
  | timestamp (text : String)
  | symbol (text : String)
  | string (text : String)
  | clob (bytes : ByteArray)
  | blob (bytes : ByteArray)

namespace Scalar

/-- The kind of a scalar; a null reports the kind it is a null of. -/
def tag : Scalar → Tag
  | .null kind => kind
  | .bool _ => .bool
  | .int _ => .int
  | .float _ => .float
  | .decimal _ => .decimal
  | .timestamp _ => .timestamp
  | .symbol _ => .symbol
  | .string _ => .string
  | .clob _ => .clob
  | .blob _ => .blob

/-! ### Typed accessors -/

/-- Whether a scalar is a null of any kind. -/
def isNull : Scalar → Bool
  | .null _ => true
  | _ => false

/-- The payload of a boolean. -/
def bool? : Scalar → Option Bool
  | .bool b => some b
  | _ => none

/-- The payload of an integer. -/
def int? : Scalar → Option Int64
  | .int n => some n
  | _ => none

/-- The payload of a float. -/
def float? : Scalar → Option Float
  | .float x => some x
  | _ => none

/-- The payload of a decimal. -/
def decimal? : Scalar → Option Decimal
  | .decimal d => some d
  | _ => none

/-- The text of a timestamp. -/
def timestamp? : Scalar → Option String
  | .timestamp text => some text
  | _ => none

/-- The text of a string or symbol. -/
def text? : Scalar → Option String
  | .symbol text | .string text => some text
  | _ => none

/-- The payload of a clob or blob. -/
def bytes? : Scalar → Option ByteArray
  | .clob bytes | .blob bytes => some bytes
  | _ => none

/-! ### Equality -/

/-- Equality of scalars when floats are compared by `feq`.  Nulls are equal when their kinds are,
and payloads of different kinds never are. -/
def eqBy (feq : Float → Float → Bool) : Scalar → Scalar → Bool
  | .null a, .null b => a == b
  | .bool a, .bool b => a == b
  | .int a, .int b => a == b
  | .float a, .float b => feq a b
  | .decimal a, .decimal b => a == b
  | .timestamp a, .timestamp b => a == b
  | .symbol a, .symbol b => a == b
  | .string a, .string b => a == b
  | .clob a, .clob b => a == b
  | .blob a, .blob b => a == b
  | _, _ => false

/-- The plain null. -/
instance : Inhabited Scalar := ⟨.null .null⟩

end Scalar
end Caseless
