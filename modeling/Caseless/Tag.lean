/-!
# Kinds of values

Every value has exactly one of thirteen kinds, and a typed null carries the kind it is a null of.
This module holds the kinds, their one-byte codes, their two spellings and the classes they fall
into.

Main results:

- `Tag.ofByte?_toByte`: a code reads back to the kind it was written for;
- `Tag.toByte_of_ofByte?`: only codes that are written are read.
-/

namespace Caseless

/-- The kind of a value.  The order of the constructors is the order of the codes. -/
inductive Tag where
  | null
  | bool
  | int
  | float
  | decimal
  | timestamp
  | symbol
  | string
  | clob
  | blob
  | list
  | sexp
  | struct
  deriving DecidableEq, Repr

namespace Tag

/-- All kinds, in the order of their codes. -/
def all : List Tag :=
  [.null, .bool, .int, .float, .decimal, .timestamp, .symbol, .string, .clob, .blob, .list, .sexp,
    .struct]

/-- The one-byte code of a kind. -/
def toByte : Tag → UInt8
  | .null => 0
  | .bool => 1
  | .int => 2
  | .float => 3
  | .decimal => 4
  | .timestamp => 5
  | .symbol => 6
  | .string => 7
  | .clob => 8
  | .blob => 9
  | .list => 10
  | .sexp => 11
  | .struct => 12

/-- The kind that a byte is the code of, if it is one. -/
def ofByte? (byte : UInt8) : Option Tag :=
  all.find? fun tag => tag.toByte == byte

/-- The lower-case name, which error messages use. -/
def name : Tag → String
  | .null => "null"
  | .bool => "bool"
  | .int => "int"
  | .float => "float"
  | .decimal => "decimal"
  | .timestamp => "timestamp"
  | .symbol => "symbol"
  | .string => "string"
  | .clob => "clob"
  | .blob => "blob"
  | .list => "list"
  | .sexp => "sexp"
  | .struct => "struct"

/-- The kind with a given lower-case name. -/
def ofName? (text : String) : Option Tag :=
  all.find? fun tag => tag.name == text

/-- The capitalised name, which inspection text uses. -/
def label : Tag → String
  | .null => "Null"
  | .bool => "Bool"
  | .int => "Int"
  | .float => "Float"
  | .decimal => "Decimal"
  | .timestamp => "Timestamp"
  | .symbol => "Symbol"
  | .string => "String"
  | .clob => "Clob"
  | .blob => "Blob"
  | .list => "List"
  | .sexp => "SExp"
  | .struct => "Struct"

/-! ### Classes of kinds -/

/-- The kinds whose elements are addressed by position. -/
def isSequence : Tag → Bool
  | .list | .sexp => true
  | _ => false

/-- The kinds that hold other values. -/
def isContainer (tag : Tag) : Bool :=
  tag.isSequence || tag == .struct

/-- The kinds that hold no other values. -/
def isScalar (tag : Tag) : Bool :=
  !tag.isContainer

/-- The kinds whose payload is text that a program may read as a word. -/
def isText : Tag → Bool
  | .string | .symbol => true
  | _ => false

/-- The kinds whose payload is bytes. -/
def isLob : Tag → Bool
  | .clob | .blob => true
  | _ => false

instance : Ord Tag where
  compare a b := compare a.toByte b.toByte

/-! ### The codes read back -/

@[simp]
theorem ofByte?_toByte (tag : Tag) : ofByte? tag.toByte = some tag := by
  cases tag <;> rfl

theorem toByte_of_ofByte? {byte : UInt8} {tag : Tag} (h : ofByte? byte = some tag) :
    tag.toByte = byte := by
  have hfound := List.find?_some h
  simpa using hfound

@[simp]
theorem ofName?_name (tag : Tag) : ofName? tag.name = some tag := by
  cases tag <;> rfl

end Tag

end Caseless
