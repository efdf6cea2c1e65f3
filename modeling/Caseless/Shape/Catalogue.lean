import Caseless.Shape

/-!
# A catalogue of shapes

Named types of data that programs decode: the plain types, and a small family of records and
enumerations that shows every form a shape can take.
-/

namespace Caseless
namespace Shape

/-! ### Plain types -/

/-- A truth value. -/
def bool : Shape :=
  .leaf .bool

/-- An integer of a given type. -/
def int (type : IntType) : Shape :=
  .leaf (.int type)

/-- An integer with the range of a value's integers. -/
def i64 : Shape :=
  int .i64

/-- An integer of 32 bits. -/
def i32 : Shape :=
  int .i32

/-- A float. -/
def f64 : Shape :=
  .leaf .f64

/-- Text. -/
def string : Shape :=
  .leaf .string

/-- Text that is lent by the value. -/
def lentText : Shape :=
  .leaf .lentText

/-- A wrapper around bytes that are lent by the value. -/
def lentBytes : Shape :=
  .newtype (.leaf .lentBytes)

/-- A sequence of fixed length with elements of one shape. -/
def array (size : Nat) (element : Shape) : Shape :=
  .tuple .array (List.replicate size element)

/-- The empty sequence, as a datum. -/
def emptySeq : Data :=
  .seq (some 0) []

/-! ### Orders and customers -/

/-- A wrapper around a length. -/
def meters : Shape :=
  .newtype f64

/-- Two coordinates. -/
def point : Shape :=
  .tuple (.struct "Point") [i32, i32]

/-- An article and a quantity. -/
def order : Shape :=
  .record [.required "sku" string, .required "qty" (int .u16)]

/-- A customer with orders; the address for messages may be absent. -/
def customer : Shape :=
  .record [.required "customer_id" i64, .required "name" string,
    .required "email" (.option string), .required "orders" (.seq order)]

/-! ### Enumerations -/

/-- A figure: one variant of each kind. -/
def figure : Shape :=
  .enum "Shape" [("Dot", .unit), ("Circle", .newtype f64), ("Pair", .tuple [i32, i32]),
    ("Rect", .record [.required "width" i32, .required "height" i32])]

/-- A mode of operation. -/
def mode : Shape :=
  .enum "Mode" [("Off", .unit), ("Level", .newtype i32),
    ("Span", .record [.required "from" i32, .required "to" i32])]

/-! ### Records with defaults, aliases and leftovers -/

/-- A row whose every field has a default. -/
def simpleRow : Shape :=
  .record [.defaulted "id" i64 (.int .i64 0), .defaulted "name" string (.str ""),
    .defaulted "tags" (.seq string) emptySeq]

/-- Rows under an optional mode. -/
def withMode : Shape :=
  .record [.defaulted "mode" (.option mode) .none, .defaulted "rows" (.seq simpleRow) emptySeq]

/-- Two fields whose names differ only by case. -/
def twins : Shape :=
  .record [.required "a" i64, .required "A" i64]

/-- A field with two more spellings, in alphabetical order. -/
def aliased : Shape :=
  .record [.mk "id" ["ID", "id", "identifier"] i64 none]

/-- A record of one field. -/
def strict : Shape :=
  .record [.required "x" i64]

/-- A record that keeps what it does not declare. -/
def flatRecord : Shape :=
  .flat "Flat" [.required "id" i64]

/-- Numbers of both widths, a value of any kind and nested optional text. -/
def measure : Shape :=
  .record [.required "ratio" (.leaf .f32), .required "total" f64, .required "price" .value,
    .required "note" (.option (.option string)),
    .required "at" (.tuple .tuple [f64, .leaf .char])]

/-- Text that is lent by the value, alone and in a sequence. -/
def lending : Shape :=
  .record [.required "name" lentText, .required "tags" (.seq lentText)]

/-- A labelled tree, unfolded to a given depth.  A value with fewer levels never reaches the end of
the unfolding. -/
def tree : Nat → Shape
  | 0 => .ignored
  | depth + 1 =>
    .record [.required "label" string, .defaulted "kids" (.seq (tree depth)) emptySeq]

end Shape
end Caseless
