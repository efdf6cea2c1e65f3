import Caseless.CallTree

/-!
# Typed data

The data model between a program's own types and values: what a typed datum consists of when it is
written, or what a format offers when it is read.  It is richer than the values: it knows the width
of integers, optional and wrapped data, and the variants of enumerations.

Main definitions:

- `IntType`: the integer types;
- `Data`: the data model, and `Data.tuple`, `Data.struct` and the like for data that announce the
  length that they have;
- `Data.ofCalls`: the datum that a value writes.
-/

namespace Caseless

/-- The integer types of the data model. -/
inductive IntType where
  | i8
  | i16
  | i32
  | i64
  | i128
  | u8
  | u16
  | u32
  | u64
  | u128
  deriving DecidableEq, Repr

namespace IntType

/-- All integer types. -/
def all : List IntType :=
  [.i8, .i16, .i32, .i64, .i128, .u8, .u16, .u32, .u64, .u128]

/-- The name of an integer type. -/
def name : IntType → String
  | .i8 => "i8"
  | .i16 => "i16"
  | .i32 => "i32"
  | .i64 => "i64"
  | .i128 => "i128"
  | .u8 => "u8"
  | .u16 => "u16"
  | .u32 => "u32"
  | .u64 => "u64"
  | .u128 => "u128"

/-- The integer type with a given name. -/
def ofName? (text : String) : Option IntType :=
  all.find? fun type => type.name == text

/-- The number of bits. -/
def bits : IntType → Nat
  | .i8 | .u8 => 8
  | .i16 | .u16 => 16
  | .i32 | .u32 => 32
  | .i64 | .u64 => 64
  | .i128 | .u128 => 128

/-- Whether the type has negative numbers. -/
def isSigned : IntType → Bool
  | .i8 | .i16 | .i32 | .i64 | .i128 => true
  | _ => false

/-- Whether the type has more bits than a value's integers. -/
def isWide (type : IntType) : Bool :=
  64 < type.bits

/-- The least number of the type. -/
def least (type : IntType) : Int :=
  if type.isSigned then -(Nat.pow 2 (type.bits - 1)) else 0

/-- The greatest number of the type. -/
def greatest (type : IntType) : Int :=
  if type.isSigned then Nat.pow 2 (type.bits - 1) - 1 else Nat.pow 2 type.bits - 1

/-- Whether a number belongs to the type. -/
def fits (type : IntType) (n : Int) : Bool :=
  type.least ≤ n && n ≤ type.greatest

end IntType

/-- The integer of a value, if the number is in range. -/
def intOf? (n : Int) : Option Int64 :=
  if IntType.i64.fits n then some (Int64.ofInt n) else none

/-- One step of writing a map: a key, or the value that belongs to the last key. -/
inductive MapStep (α : Type) where
  | key (datum : α)
  | value (datum : α)

/-- A datum.  Whoever writes one says how many parts there will be before the parts come.  What is
said need not be true, and of sequences and maps nothing need be said. -/
inductive Data where
  /-- An optional datum that is absent. -/
  | none
  | unit
  | unitStruct
  | bool (b : Bool)
  | int (type : IntType) (n : Int)
  | f32 (x : Float32)
  | f64 (x : Float)
  | char (c : Char)
  | str (s : String)
  | bytes (payload : ByteArray)
  /-- An optional datum that is present. -/
  | some (datum : Data)
  | newtypeStruct (datum : Data)
  | unitVariant (name : String)
  | newtypeVariant (name : String) (datum : Data)
  | seq (announced : Option Nat) (elements : List Data)
  | tupleOf (announced : Nat) (elements : List Data)
  | tupleStructOf (announced : Nat) (elements : List Data)
  | tupleVariantOf (name : String) (announced : Nat) (elements : List Data)
  /-- A map entry by entry. -/
  | map (announced : Option Nat) (entries : List (Data × Data))
  /-- A map written by any succession of keys and values. -/
  | mapStepsOf (announced : Option Nat) (steps : List (MapStep Data))
  | structOf (announced : Nat) (fields : List (String × Data))
  | structVariantOf (name : String) (announced : Nat) (fields : List (String × Data))
  /-- A datum that cannot be written or read, with its own words for why. -/
  | fail (text : String)

instance : Inhabited Data := ⟨.unit⟩

namespace Data

/-! ### Data that announce what they hold -/

/-- A tuple that announces its length. -/
abbrev tuple (elements : List Data) : Data :=
  .tupleOf elements.length elements

/-- A tuple with a name that announces its length. -/
abbrev tupleStruct (elements : List Data) : Data :=
  .tupleStructOf elements.length elements

/-- A variant that holds a tuple and announces its length. -/
abbrev tupleVariant (name : String) (elements : List Data) : Data :=
  .tupleVariantOf name elements.length elements

/-- A map in any succession of keys and values that announces nothing. -/
abbrev mapSteps (steps : List (MapStep Data)) : Data :=
  .mapStepsOf Option.none steps

/-- A struct that announces the number of its fields. -/
abbrev struct (fields : List (String × Data)) : Data :=
  .structOf fields.length fields

/-- A variant that holds fields and announces their number. -/
abbrev structVariant (name : String) (fields : List (String × Data)) : Data :=
  .structVariantOf name fields.length fields

/-! ### Data of calls -/

/-- The datum that a single call amounts to. -/
def ofCall : Call → Data
  | .none => .none
  | .bool b => .bool b
  | .int n => .int .i64 n.toInt
  | .float x => .f64 x
  | .text s => .str s
  | .bytes payload => .bytes payload

mutual

/-- The datum that calls amount to. -/
def ofCalls : CallTree → Data
  | .leaf call => ofCall call
  | .seq announced elements => .seq announced (ofElements elements)
  | .map announced entries => .map announced (ofEntries entries)

/-- The data of elements. -/
def ofElements : List CallTree → List Data
  | [] => []
  | calls :: rest => ofCalls calls :: ofElements rest

/-- The data of entries; every key is text. -/
def ofEntries : List (String × CallTree) → List (Data × Data)
  | [] => []
  | (name, calls) :: rest => (.str name, ofCalls calls) :: ofEntries rest

end

/-- The datum that a handle writes. -/
def ofHandle {α : Type} [Readable α] (handle : α) : Data :=
  ofCalls (Readable.calls handle)

end Data
end Caseless
