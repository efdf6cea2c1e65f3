import Caseless.Data.Read
import Caseless.Shape

/-!
# Decoding values as typed data

A handle is decoded by what one step of reading shows, child by child.  Declared fields are looked
up through the handle, so they bind by spelling in a value and ignoring case in a view; names of
variants and keys of maps are always taken as they are stored.

Main definitions:

- `Node.unexpected`: how a value that does not fit is named in an error;
- `Leaf.decode`: the data without parts;
- `Readable.offered`: what a handle offers to a reader of any value;
- `Shape.decode`: the datum of a shape that a handle holds, or the first failure.
-/

namespace Caseless

/-! ### What does not fit -/

/-- How a scalar that does not fit is named in an error. -/
def Scalar.unexpected : Scalar → Unexpected
  | .null _ => .unit
  | .bool b => .bool b
  | .int n => .integer n.toInt
  | .float x => .float x
  | .decimal d => .text d.text
  | .timestamp s | .symbol s | .string s => .text s
  | .clob _ | .blob _ => .bytes

/-- How a value that does not fit is named in an error. -/
def Node.unexpected {α : Type} : Node α → Unexpected
  | .scalar payload => payload.unexpected
  | .seq .. => .sequence
  | .struct _ => .map

/-- The failure of a value that does not fit. -/
def Node.refuse {α β : Type} (node : Node α) (expected : String) : Except Error β :=
  .error (.invalidType node.unexpected expected)

/-! ### Leaves -/

/-- The text that a scalar lends. -/
def Scalar.lentText? : Scalar → Option String
  | .timestamp s | .symbol s | .string s => some s
  | _ => none

/-- The text that a scalar offers; a decimal makes its own. -/
def Scalar.offeredText? : Scalar → Option String
  | .decimal d => some d.text
  | payload => payload.lentText?

/-- The only character of a text. -/
def onlyChar? (text : String) : Option Char :=
  match text.toList with
  | [c] => some c
  | _ => none

/-- A character read from text. -/
def charOfText (text : String) : Except Error Data :=
  match onlyChar? text with
  | some c => .ok (.char c)
  | none => .error (.invalidValue (.text text) Leaf.char.expecting)

/-- Text read from bytes. -/
def textOfBytes (payload : ByteArray) (expected : String) : Except Error Data :=
  match String.fromUTF8? payload with
  | some s => .ok (.str s)
  | none => .error (.invalidValue .bytes expected)

/-- The datum of a leaf that a scalar holds; nothing if the scalar is of another kind. -/
def Leaf.decodeScalar? (leaf : Leaf) (payload : Scalar) : Option (Except Error Data) :=
  match leaf, payload with
  | .bool, .bool b => some (.ok (.bool b))
  | .int type, .int n =>
    some (if type.fits n.toInt then .ok (.int type n.toInt)
      else .error (.invalidValue (.integer n.toInt) type.name))
  | .f32, .int n => some (.ok (.f32 n.toFloat32))
  | .f32, .float x => some (.ok (.f32 x.toFloat32))
  | .f32, .decimal d => some (.ok (.f32 d.toFloat.toFloat32))
  | .f64, .int n => some (.ok (.f64 n.toFloat))
  | .f64, .float x => some (.ok (.f64 x))
  | .f64, .decimal d => some (.ok (.f64 d.toFloat))
  | .char, payload => payload.offeredText?.map charOfText
  | .string, .clob bytes | .string, .blob bytes => some (textOfBytes bytes leaf.expecting)
  | .string, payload => payload.offeredText?.map fun s => .ok (.str s)
  | .lentText, .clob bytes | .lentText, .blob bytes => some (textOfBytes bytes leaf.expecting)
  | .lentText, payload => payload.lentText?.map fun s => .ok (.str s)
  | .lentBytes, .clob bytes | .lentBytes, .blob bytes => some (.ok (.bytes bytes))
  | .lentBytes, payload => payload.lentText?.map fun s => .ok (.bytes s.toUTF8)
  | .unit, .null _ => some (.ok .unit)
  | .unitStruct _, .null _ => some (.ok .unitStruct)
  | _, _ => none

/-- The datum of a leaf that a node holds. -/
def Leaf.decode {α : Type} (leaf : Leaf) (node : Node α) : Except Error Data :=
  match node with
  | .scalar payload => (leaf.decodeScalar? payload).getD (node.refuse leaf.expecting)
  | _ => node.refuse leaf.expecting

/-- The datum of a map key that a field name gives. -/
def KeyShape.read (key : KeyShape) (name : String) : Except Error Data :=
  match key with
  | .string => .ok (.str name)
  | .char => charOfText name
  | .int type => .error (.invalidType (.text name) type.name)
  | .variant names =>
    if name ∈ names then .ok (.unitVariant name) else .error (.unknownVariant name)

/-! ### Values of any kind -/

/-- What a scalar offers to a reader of any value. -/
def Scalar.offer : Scalar → Data
  | .null _ => .unit
  | .bool b => .bool b
  | .int n => .int .i64 n.toInt
  | .float x => .f64 x
  | .decimal d => .str d.text
  | .timestamp s | .symbol s | .string s => .str s
  | .clob payload | .blob payload => .bytes payload

/-- What a node offers, from what its children offer. -/
def Node.offer : Node Data → Data
  | .scalar payload => payload.offer
  | .seq _ elements => .seq (some elements.length) elements
  | .struct fields =>
    .map (some fields.length) (fields.map fun field => (.str field.1, field.2))

/-- What a handle offers to a reader of any value. -/
def Readable.offered {α : Type} [Readable α] (handle : α) : Data :=
  fold Node.offer handle

/-- The value that is copied from a handle. -/
def Readable.copy {α : Type} [Readable α] (handle : α) : Except Error Value :=
  (offered handle).read

/-- The value that is copied from a handle, as a datum. -/
def Readable.copied {α : Type} [Readable α] (handle : α) : Except Error Data :=
  (copy handle).map Data.ofHandle

/-! ### Maps and records -/

/-- Puts an entry among entries sorted by name; it replaces an entry of its name. -/
def insertSorted {β : Type} (name : String) (entry : β) :
    List (String × β) → List (String × β)
  | [] => [(name, entry)]
  | (other, old) :: rest =>
    if name < other then (name, entry) :: (other, old) :: rest
    else if name = other then (name, entry) :: rest
    else (other, old) :: insertSorted name entry rest

/-- The entries of a map, sorted by name.  Of entries of one name the last one stays. -/
def decodeEntries {α : Type} (key : KeyShape) (decode : α → Except Error Data)
    (sorted : List (String × Data × Data)) :
    List (String × α) → Except Error (List (String × Data × Data))
  | [] => .ok sorted
  | (name, child) :: rest => do
    let keyDatum ← key.read name
    let datum ← decode child
    decodeEntries key decode (insertSorted name (keyDatum, datum) sorted) rest

/-- The map of sorted entries. -/
def mapOfSorted (sorted : List (String × Data × Data)) : Data :=
  .map (some sorted.length) (sorted.map (·.2))

/-- The fields of a record from what was found for each: an absent field takes its place-holder, and
the first that has none is reported. -/
def completeFields : List Field → List (Option Data) → Except Error (List (String × Data))
  | field :: fields, datum? :: data => do
    match datum?.or field.absent? with
    | some datum =>
      let rest ← completeFields fields data
      return (field.name, datum) :: rest
    | none => .error (.missingField field.name)
  | _, _ => .ok []

/-- The declared fields, under their names, and the rest of a record that keeps what it does not
declare, while its entries are read in stored order. -/
structure FlatState (α : Type) where
  found : List (String × Data)
  rest : List (String × α)

/-- Reads the entries of a record that keeps what it does not declare.  `declared` gives the field
that takes a child by its stored name, and decodes the child for it; it gives nothing for a name that
no field takes. -/
def readFlat {α : Type} (declared : String → α → Option (String × Except Error Data))
    (state : FlatState α) : List (String × α) → Except Error (FlatState α)
  | [] => .ok state
  | (name, child) :: entries =>
    match declared name child with
    | none => readFlat declared { state with rest := state.rest ++ [(name, child)] } entries
    | some (field, result) =>
      if (Fields.get? field state.found).isSome then .error (.duplicateField field)
      else do
        let datum ← result
        readFlat declared { state with found := state.found ++ [(field, datum)] } entries

/-- The datum that text gives for an enumeration: only variants without data are named by text. -/
def decodeTextVariant (variants : List (String × Payload)) (name : String) : Except Error Data :=
  match Fields.get? name variants with
  | none => .error (.unknownVariant name)
  | some .unit => .ok (.unitVariant name)
  | some (.newtype _) => .error (.invalidType .unitVariant "newtype variant")
  | some (.tuple _) => .error (.invalidType .unitVariant "tuple variant")
  | some (.record _) => .error (.invalidType .unitVariant "struct variant")

/-- Reads a handle as a sequence. -/
def Readable.withElements {α β : Type} [Readable α] (handle : α) (expected : String)
    (read : List α → Except Error β) : Except Error β :=
  match visit handle with
  | .seq _ children => read children
  | node => node.refuse expected

/-- Reads a handle as a struct, by its entries. -/
def Readable.withEntries {α β : Type} [Readable α] (handle : α) (expected : String)
    (read : List (String × α) → Except Error β) : Except Error β :=
  match visit handle with
  | .struct entries => read entries
  | node => node.refuse expected

/-- Reads a handle as a record of declared fields, from what was found for each field. -/
def Readable.withRecord {α : Type} [Readable α] (handle : α) (fields : List Field)
    (found : Except Error (List (Option Data))) : Except Error (List (String × Data)) :=
  match visit handle with
  | .struct _ => found >>= completeFields fields
  | node => .error (.typeMismatch "struct" node.tag)

/-! ### The datum of a shape -/

namespace Shape

open Readable

variable {α : Type} [Readable α]

mutual

/-- The datum of a shape that a handle holds, or the first failure. -/
def decode : Shape → α → Except Error Data
  | .leaf form, handle => form.decode (visit handle)
  | .value, handle => copied handle
  | .ignored, _ => .ok .unit
  | .option present, handle =>
    if isNull handle then .ok .none else (decode present handle).map .some
  | .seq element, handle =>
    withElements handle "a sequence" fun children => do
      let elements ← children.mapM (decode element)
      return .seq (some elements.length) elements
  | .tuple form shapes, handle =>
    withElements handle (form.expecting shapes.length) fun children =>
      (decodeElements form shapes.length 0 shapes children).map form.datum
  | .map key entry, handle =>
    withEntries handle "a map" fun entries =>
      (decodeEntries key (decode entry) [] entries).map mapOfSorted
  | .newtype inner, handle => (decode inner handle).map .newtypeStruct
  | .record fields, handle =>
    (withRecord handle fields (decodeFound fields handle)).map .struct
  | .flat name fields, handle =>
    withEntries handle s!"struct {name}" fun entries => do
      let state ← readFlat (decodeDeclared fields) ⟨[], []⟩ entries
      let declared ← completeFields fields
        (fields.map fun field => Fields.get? field.name state.found)
      let sorted ← decodeEntries .string copied [] state.rest
      return .map none <|
        declared.map (fun field => (.str field.1, field.2)) ++ sorted.map (·.2)
  | .enum name variants, handle =>
    match visit handle with
    | .scalar payload =>
      match payload.text? with
      | some text => decodeTextVariant variants text
      | none => .error (.typeMismatch "enum" payload.tag)
    | .struct [(variant, child)] => decodeVariant name variants variant child
    | node => .error (.typeMismatch "enum" node.tag)

/-- The elements of a sequence of fixed length, from a position on.  Elements past the last shape
are not looked at. -/
def decodeElements (form : TupleForm) (size index : Nat) :
    List Shape → List α → Except Error (List Data)
  | [], _ => .ok []
  | _ :: _, [] => .error (.invalidLength index (form.expectingLength size))
  | shape :: shapes, child :: children => do
    let datum ← decode shape child
    let rest ← decodeElements form size (index + 1) shapes children
    return datum :: rest

/-- The declared fields that are found, decoded in the order of declaration.  A field found under
two spellings is a duplicate, which is noticed after the first is decoded. -/
def decodeFound : List Field → α → Except Error (List (Option Data))
  | [], _ => .ok []
  | .mk name spellings shape _ :: fields, handle =>
    match spellings.filterMap (find? handle) with
    | [] => do
      let rest ← decodeFound fields handle
      return none :: rest
    | child :: others => do
      let datum ← decode shape child
      if others.isEmpty then
        let rest ← decodeFound fields handle
        return some datum :: rest
      else .error (.duplicateField name)

/-- The first declared field that has a given spelling, and the datum of the child for it. -/
def decodeDeclared : List Field → String → α → Option (String × Except Error Data)
  | [], _, _ => none
  | .mk name spellings shape _ :: fields, query, child =>
    if query ∈ spellings then some (name, decode shape child) else decodeDeclared fields query child

/-- The datum of the variant with a given name and payload. -/
def decodeVariant (family : String) :
    List (String × Payload) → String → α → Except Error Data
  | [], query, _ => .error (.unknownVariant query)
  | (name, payload) :: variants, query, child =>
    if name = query then decodePayload family name payload child
    else decodeVariant family variants query child

/-- The datum of a variant from its payload. -/
def decodePayload (family name : String) : Payload → α → Except Error Data
  | .unit, child =>
    if isNull child then .ok (.unitVariant name) else .error (.typeMismatch "null" (tag child))
  | .newtype inner, child => (decode inner child).map (.newtypeVariant name)
  | .tuple shapes, child =>
    let form := TupleForm.variant family name
    withElements child (form.expecting shapes.length) fun children =>
      (decodeElements form shapes.length 0 shapes children).map form.datum
  | .record fields, child =>
    (withRecord child fields (decodeFound fields child)).map (.structVariant name)

end

end Shape
end Caseless
