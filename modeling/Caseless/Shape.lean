import Caseless.Data

/-!
# Shapes of typed data

A shape describes a type of data that a value can be decoded as: numbers and text, optional data,
sequences, tuples, maps, records of declared fields and enumerations.

Main definitions:

- `Leaf`: the shapes without parts;
- `KeyShape`: the shapes of map keys;
- `Shape`, `Field`, `Payload`: the shapes, the declared fields of a record, and what a variant of an
  enumeration holds.
-/

namespace Caseless

/-- The shapes without parts. -/
inductive Leaf where
  | bool
  | int (type : IntType)
  | f32
  | f64
  | char
  /-- Text that the datum owns. -/
  | string
  /-- Text lent by the value. -/
  | lentText
  /-- Bytes lent by the value. -/
  | lentBytes
  | unit
  | unitStruct (name : String)

/-- What a leaf takes, as error messages name it. -/
def Leaf.expecting : Leaf → String
  | .bool => "a boolean"
  | .int type => type.name
  | .f32 => "f32"
  | .f64 => "f64"
  | .char => "a character"
  | .string => "a string"
  | .lentText => "a borrowed string"
  | .lentBytes => "a borrowed byte array"
  | .unit => "unit"
  | .unitStruct name => s!"unit struct {name}"

/-- The shapes of map keys.  Keys are read from the text of field names. -/
inductive KeyShape where
  | string
  | char
  | int (type : IntType)
  /-- An enumeration of which no variant holds data. -/
  | variant (names : List String)

/-- What a sequence of fixed length is the content of. -/
inductive TupleForm where
  | tuple
  | array
  | struct (name : String)
  | variant (enum name : String)

/-- How error messages count elements. -/
def elementCount (size : Nat) : String :=
  if size = 1 then "1 element" else s!"{size} elements"

/-- What takes the place of something that is no sequence. -/
def TupleForm.expecting (form : TupleForm) (size : Nat) : String :=
  match form with
  | .tuple => s!"a tuple of size {size}"
  | .array => if size = 0 then "an empty array" else s!"an array of length {size}"
  | .struct name => s!"tuple struct {name}"
  | .variant enum name => s!"tuple variant {enum}::{name}"

/-- What takes the place of a sequence that is too short. -/
def TupleForm.expectingLength (form : TupleForm) (size : Nat) : String :=
  match form with
  | .tuple | .array => form.expecting size
  | .struct _ | .variant .. => s!"{form.expecting size} with {elementCount size}"

/-- The datum that a sequence of fixed length is written as. -/
def TupleForm.datum (form : TupleForm) (elements : List Data) : Data :=
  match form with
  | .tuple | .array => .tuple elements
  | .struct _ => .tupleStruct elements
  | .variant _ name => .tupleVariant name elements

mutual

/-- A type of data. -/
inductive Shape where
  | leaf (leaf : Leaf)
  /-- A value of any kind. -/
  | value
  /-- Anything at all, without looking at it. -/
  | ignored
  | option (present : Shape)
  | seq (element : Shape)
  | tuple (form : TupleForm) (elements : List Shape)
  | map (key : KeyShape) (value : Shape)
  /-- A wrapper around another type. -/
  | newtype (inner : Shape)
  | record (fields : List Field)
  /-- A record that keeps the fields it does not declare, as values of any kind, sorted by name. -/
  | flat (name : String) (fields : List Field)
  | enum (name : String) (variants : List (String × Payload))

/-- A declared field: its name, the spellings it is looked up under, its shape, and the datum that
takes its place when it is absent. -/
inductive Field where
  | mk (name : String) (spellings : List String) (shape : Shape) (fallback : Option Data)

/-- What a variant holds. -/
inductive Payload where
  | unit
  | newtype (inner : Shape)
  | tuple (elements : List Shape)
  | record (fields : List Field)

end

namespace Field

/-- The declared name. -/
def name : Field → String
  | .mk name .. => name

/-- The spellings that the field is looked up under, in order. -/
def spellings : Field → List String
  | .mk _ spellings .. => spellings

/-- The shape of the field. -/
def shape : Field → Shape
  | .mk _ _ shape _ => shape

/-- The datum for an absent field: the declared one, or nothing at all for an optional field. -/
def absent? : Field → Option Data
  | .mk _ _ _ (some fallback) => some fallback
  | .mk _ _ (.option _) none => some .none
  | .mk _ _ _ none => none

/-- A field that must be there, looked up under its name. -/
def required (name : String) (shape : Shape) : Field :=
  .mk name [name] shape none

/-- A field with a datum for when it is absent. -/
def defaulted (name : String) (shape : Shape) (fallback : Data) : Field :=
  .mk name [name] shape (some fallback)

end Field
end Caseless
