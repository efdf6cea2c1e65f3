import Caseless.Data

/-!
# Encoding data as values

Every well-formed datum has a value: numbers, text and bytes become scalars, sequences and tuples
become lists, maps and structs become structs with their entries in the order of writing, and a
variant with data becomes a struct of one field named after it.  The first offence, in the order of
writing, is reported.

Before the parts of a datum come, room is set aside for as many as are announced.  What is announced
need not be true, and may be more than any program can have room for; the program is then ended
there.  How much room there is depends on the sizes of things in memory, so it is a parameter.

Main definitions:

- `Room`: what comes of asking for room, with `Room.ample` and `Room.limited`;
- `Data.key`: the field name that a map key stands for;
- `MapBuilder`: a map under construction, fed with keys and values in any succession;
- `Data.encodeIn`: the value of a datum, as far as there is room;
- `Data.encode`: the value of a datum for which there is always room.
-/

namespace Caseless

/-! ### What comes of asking for room -/

/-- What can end encoding before there is a value. -/
inductive Halt where
  /-- An offence is reported. -/
  | failure (failure : Error)
  /-- The capacity that was asked for is more than there can be, and the program is ended. -/
  | capacityOverflow

/-- Types that offences are reported in. -/
class Reports (ε : Type) where
  report : Error → ε

export Reports (report)

instance : Reports Error := ⟨id⟩

instance : Reports Halt := ⟨.failure⟩

/-- What comes of asking for room for a number of elements, or of fields. -/
structure Room (ε : Type) where
  elements : Nat → Except ε Unit
  fields : Nat → Except ε Unit

namespace Room

/-- There is always room. -/
def ample : Room Error where
  elements _ := .ok ()
  fields _ := .ok ()

/-- There is room for so many elements at once, and for so many fields. -/
def limited (mostElements mostFields : Nat) : Room Halt where
  elements n := if n ≤ mostElements then .ok () else .error .capacityOverflow
  fields n := if n ≤ mostFields then .ok () else .error .capacityOverflow

end Room

/-! ### Scalars and keys -/

/-- The value of an integer, if it is in range. -/
def Value.ofInt (n : Int) : Except Error Value :=
  match intOf? n with
  | some n => .ok (.scalar (.int n))
  | none => .error (.integerTooWide n)

/-- A struct of one field, for which there is always room. -/
def Value.single (name : String) (value : Value) : Value :=
  .struct () [(name, value)]

/-- The field name that a map key stands for.  Text, characters, names of variants without data, and
any of these wrapped, are keys.  Other data are refused before they ask for room. -/
def Data.key : Data → Except Error String
  | .str s => .ok s
  | .char c => .ok (String.singleton c)
  | .unitVariant name => .ok name
  | .newtypeStruct datum => datum.key
  | .int .i128 _ => .error (.unsupportedKey IntType.i128.name)
  | .int .u128 _ => .error (.unsupportedKey IntType.u128.name)
  | .fail text => .error (.custom text)
  | _ => .error .keyMustBeString

/-! ### Maps under construction -/

/-- The fields so far, and the key that waits for its value. -/
structure MapBuilder where
  fields : Fields Value
  pending : Option String

namespace MapBuilder

/-- A map without entries. -/
def empty : MapBuilder :=
  ⟨[], none⟩

/-- Takes a key; it replaces one that waits.  A key that cannot be taken changes nothing. -/
def giveKey (builder : MapBuilder) (key : Except Error String) : Except Error Unit × MapBuilder :=
  match key with
  | .ok name => (.ok (), { builder with pending := some name })
  | .error failure => (.error failure, builder)

/-- Takes the value of the key that waits; the key is used up even if the value cannot be taken. -/
def giveValue {ε : Type} [Reports ε] (builder : MapBuilder) (value : Except ε Value) :
    Except ε Unit × MapBuilder :=
  match builder.pending with
  | none => (.error (report .valueBeforeKey), builder)
  | some name =>
    match value with
    | .ok value => (.ok (), ⟨builder.fields.add name value, none⟩)
    | .error failure => (.error failure, { builder with pending := none })

/-- The finished struct; a key that still waits is dropped. -/
def finish (builder : MapBuilder) : Value :=
  .struct () builder.fields

end MapBuilder

/-! ### The value of a datum -/

namespace Data

section

variable {ε : Type} [Reports ε]

mutual

/-- The value of a datum, or what ends encoding first: an offence, or a lack of room. -/
def encodeIn (room : Room ε) : Data → Except ε Value
  | .none | .unit | .unitStruct => .ok .null
  | .bool b => .ok (.scalar (.bool b))
  | .int _ n => (Value.ofInt n).mapError report
  | .f32 x => .ok (.scalar (.float x.toFloat))
  | .f64 x => .ok (.scalar (.float x))
  | .char c => .ok (.scalar (.string (String.singleton c)))
  | .str s => .ok (.scalar (.string s))
  | .bytes payload => .ok (.scalar (.blob payload))
  | .some datum | .newtypeStruct datum => encodeIn room datum
  | .unitVariant name => .ok (.scalar (.symbol name))
  | .newtypeVariant name datum => (encodeIn room datum).map (Value.single name)
  | .seq announced elements => do
    room.elements (announced.getD 0)
    (encodeElementsIn room elements).map (.seq .list)
  | .tupleOf announced elements | .tupleStructOf announced elements => do
    room.elements announced
    (encodeElementsIn room elements).map (.seq .list)
  | .tupleVariantOf name announced elements => do
    room.elements announced
    (encodeElementsIn room elements).map fun values => Value.single name (.seq .list values)
  | .map announced entries => do
    room.fields (announced.getD 0)
    (encodeEntriesIn room entries).map (.struct ())
  | .mapStepsOf announced steps => do
    room.fields (announced.getD 0)
    encodeStepsIn room .empty steps
  | .structOf announced fields => do
    room.fields announced
    (encodeFieldsIn room fields).map (.struct ())
  | .structVariantOf name announced fields => do
    room.fields announced
    (encodeFieldsIn room fields).map fun values => Value.single name (.struct () values)
  | .fail text => .error (report (.custom text))

/-- The values of elements, first to last. -/
def encodeElementsIn (room : Room ε) : List Data → Except ε (List Value)
  | [] => .ok []
  | datum :: rest => do
    let value ← encodeIn room datum
    let values ← encodeElementsIn room rest
    return value :: values

/-- The fields of map entries: each key before its value. -/
def encodeEntriesIn (room : Room ε) : List (Data × Data) → Except ε (List (String × Value))
  | [] => .ok []
  | (key, datum) :: rest => do
    let name ← key.key.mapError report
    let value ← encodeIn room datum
    let fields ← encodeEntriesIn room rest
    return (name, value) :: fields

/-- The fields of a struct. -/
def encodeFieldsIn (room : Room ε) : List (String × Data) → Except ε (List (String × Value))
  | [] => .ok []
  | (name, datum) :: rest => do
    let value ← encodeIn room datum
    let fields ← encodeFieldsIn room rest
    return (name, value) :: fields

/-- The struct that a succession of keys and values builds. -/
def encodeStepsIn (room : Room ε) (builder : MapBuilder) :
    List (MapStep Data) → Except ε Value
  | [] => .ok builder.finish
  | .key datum :: rest =>
    match builder.giveKey datum.key with
    | (.ok (), builder) => encodeStepsIn room builder rest
    | (.error failure, _) => .error (report failure)
  | .value datum :: rest =>
    match builder.giveValue (encodeIn room datum) with
    | (.ok (), builder) => encodeStepsIn room builder rest
    | (.error failure, _) => .error failure

end

end

/-! ### Where there is always room -/

/-- The value of a datum, or the first offence in it, as wherever there is room for all that the
datum announces. -/
def encode (datum : Data) : Except Error Value :=
  encodeIn .ample datum

/-- The values of elements, first to last. -/
def encodeElements (elements : List Data) : Except Error (List Value) :=
  encodeElementsIn .ample elements

/-- The fields of map entries: each key before its value. -/
def encodeEntries (entries : List (Data × Data)) : Except Error (List (String × Value)) :=
  encodeEntriesIn .ample entries

/-- The fields of a struct. -/
def encodeFields (fields : List (String × Data)) : Except Error (List (String × Value)) :=
  encodeFieldsIn .ample fields

/-- The struct that a succession of keys and values builds. -/
def encodeSteps (builder : MapBuilder) (steps : List (MapStep Data)) : Except Error Value :=
  encodeStepsIn .ample builder steps

/-- Reporting an offence as itself changes nothing. -/
theorem mapError_report {α : Type} (result : Except Error α) :
    result.mapError (report : Error → Error) = result := by
  cases result <;> rfl

theorem encode_int (type : IntType) (n : Int) : encode (.int type n) = Value.ofInt n :=
  mapError_report _

theorem encode_newtypeVariant (name : String) (datum : Data) :
    encode (.newtypeVariant name datum) = datum.encode.map (Value.single name) :=
  rfl

theorem encode_seq (announced : Option Nat) (elements : List Data) :
    encode (.seq announced elements) = (encodeElements elements).map (.seq .list) :=
  rfl

theorem encode_tupleOf (announced : Nat) (elements : List Data) :
    encode (.tupleOf announced elements) = (encodeElements elements).map (.seq .list) :=
  rfl

theorem encode_tupleStructOf (announced : Nat) (elements : List Data) :
    encode (.tupleStructOf announced elements) = (encodeElements elements).map (.seq .list) :=
  rfl

theorem encode_tupleVariantOf (name : String) (announced : Nat) (elements : List Data) :
    encode (.tupleVariantOf name announced elements) =
      (encodeElements elements).map fun values => Value.single name (.seq .list values) :=
  rfl

theorem encode_map (announced : Option Nat) (entries : List (Data × Data)) :
    encode (.map announced entries) = (encodeEntries entries).map (.struct ()) :=
  rfl

theorem encode_mapStepsOf (announced : Option Nat) (steps : List (MapStep Data)) :
    encode (.mapStepsOf announced steps) = encodeSteps .empty steps :=
  rfl

theorem encode_structOf (announced : Nat) (fields : List (String × Data)) :
    encode (.structOf announced fields) = (encodeFields fields).map (.struct ()) :=
  rfl

theorem encode_structVariantOf (name : String) (announced : Nat) (fields : List (String × Data)) :
    encode (.structVariantOf name announced fields) =
      (encodeFields fields).map fun values => Value.single name (.struct () values) :=
  rfl

theorem encodeElements_cons (datum : Data) (rest : List Data) :
    encodeElements (datum :: rest) = do
      let value ← datum.encode
      let values ← encodeElements rest
      return value :: values :=
  rfl

theorem encodeEntries_cons (key datum : Data) (rest : List (Data × Data)) :
    encodeEntries ((key, datum) :: rest) = do
      let name ← key.key
      let value ← datum.encode
      let fields ← encodeEntries rest
      return (name, value) :: fields := by
  rw [encodeEntries, encodeEntriesIn, mapError_report]
  rfl

theorem encodeFields_cons (name : String) (datum : Data) (rest : List (String × Data)) :
    encodeFields ((name, datum) :: rest) = do
      let value ← datum.encode
      let fields ← encodeFields rest
      return (name, value) :: fields :=
  rfl

theorem encodeSteps_key (builder : MapBuilder) (datum : Data) (rest : List (MapStep Data)) :
    encodeSteps builder (.key datum :: rest) =
      match builder.giveKey datum.key with
      | (.ok (), builder) => encodeSteps builder rest
      | (.error failure, _) => .error failure := by
  rw [encodeSteps, encodeStepsIn]
  rfl

theorem encodeSteps_value (builder : MapBuilder) (datum : Data) (rest : List (MapStep Data)) :
    encodeSteps builder (.value datum :: rest) =
      match builder.giveValue datum.encode with
      | (.ok (), builder) => encodeSteps builder rest
      | (.error failure, _) => .error failure := by
  rw [encodeSteps, encodeStepsIn, encode]
  rcases builder.giveValue (encodeIn Room.ample datum) with ⟨_ | _, _⟩ <;> rfl

end Data
end Caseless
