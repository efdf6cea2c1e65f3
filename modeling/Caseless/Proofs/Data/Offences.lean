import Caseless.Data.Encode

/-!
# What ends encoding

Encoding looks at a datum part by part, in the order in which the parts are written: a datum before
what it holds, a key before its value, and a key as a whole.  Before the parts of a datum come it
asks for room for as many as are announced.  Each of these stops passes or ends encoding, by an
offence or by a lack of room.  The walk lists all stops, whether or not one before them ends
encoding; encoding gives up at the first that does, and if there is none it gives the image of the
datum.

Main definitions:

- `Data.Stop`, `Data.Stop.offence?` and `Data.Stop.halt?`: where encoding may end, and how;
- `Data.walk`: all stops, in order;
- `Data.image`: the value of a datum in which nothing offends;
- `Data.Fits`: there is room for everything that is announced;
- `Data.unannounced`: a datum without what its parts announce.

Main results:

- Theorem `Data.encodeIn_eq_judge`: encoding is judging the walk;
- Theorem `Data.Fits.encodeIn_eq`: where there is room, only offences end encoding;
- Theorem `Data.encode_unannounced`: what is announced is not read but to ask for room;
- Theorem `Data.encodeIn_limited`: which data have a value and which, and what ends the others.
-/

namespace Caseless
namespace Data

variable {ε : Type} [Reports ε]

/-! ## Offences -/

/-- Where encoding may end: at a datum that is to become a value or a field name, at a value that is
given in a map, with or without a key that waits for it, and where room is asked for. -/
inductive Stop where
  | asValue (datum : Data)
  | asKey (datum : Data)
  | given (keyGiven : Bool)
  | roomForElements (announced : Nat)
  | roomForFields (announced : Nat)

/-- Text, a character, the name of a variant without data, or one of these wrapped. -/
inductive IsKey : Data → Prop where
  | str (s : String) : IsKey (.str s)
  | char (c : Char) : IsKey (.char c)
  | unitVariant (name : String) : IsKey (.unitVariant name)
  | newtypeStruct {datum : Data} (h : IsKey datum) : IsKey (.newtypeStruct datum)

/-- How a key offends.  Wrappers are taken off; whatever else holds data is refused without a look
at what it holds. -/
def keyOffence? : Data → Option Error
  | .str _ | .char _ | .unitVariant _ => Option.none
  | .newtypeStruct datum => datum.keyOffence?
  | .int .i128 _ => Option.some (.unsupportedKey "i128")
  | .int .u128 _ => Option.some (.unsupportedKey "u128")
  | .fail text => Option.some (.custom text)
  | _ => Option.some .keyMustBeString

/-- The field name that a key stands for. -/
def keyName : Data → String
  | .str s => s
  | .char c => String.singleton c
  | .unitVariant name => name
  | .newtypeStruct datum => datum.keyName
  | _ => ""

/-- How a stop offends. -/
def Stop.offence? : Stop → Option Error
  | .asValue (.int _ n) =>
    if IntType.i64.fits n then Option.none else Option.some (.integerTooWide n)
  | .asValue (.fail text) => Option.some (.custom text)
  | .asValue _ => Option.none
  | .asKey datum => datum.keyOffence?
  | .given keyGiven => if keyGiven then Option.none else Option.some .valueBeforeKey
  | .roomForElements _ | .roomForFields _ => Option.none

/-- What comes of an attempt that fails. -/
def failure? : Except ε Unit → Option ε
  | .ok () => Option.none
  | .error failure => Option.some failure

/-- How a stop ends encoding. -/
def Stop.halt? (room : Room ε) : Stop → Option ε
  | .roomForElements announced => failure? (room.elements announced)
  | .roomForFields announced => failure? (room.fields announced)
  | stop => stop.offence?.map report

theorem keyOffence?_eq_none_iff (key : Data) : key.keyOffence? = Option.none ↔ key.IsKey := by
  constructor
  · intro h
    cases key with
    | str s => exact .str s
    | char c => exact .char c
    | unitVariant name => exact .unitVariant name
    | newtypeStruct datum => exact .newtypeStruct ((keyOffence?_eq_none_iff datum).mp h)
    | int type n => cases type <;> contradiction
    | _ => contradiction
  · intro h
    induction h with
    | str s => rfl
    | char c => rfl
    | unitVariant name => rfl
    | newtypeStruct _ ih => exact ih

/-! ## Judging -/

/-- What the first of the stops that ends encoding brings about, and otherwise a result. -/
def judge {α : Type} (room : Room ε) (stops : List Stop) (result : α) : Except ε α :=
  match stops.findSome? (Stop.halt? room) with
  | Option.some halt => .error halt
  | Option.none => .ok result

section

variable {α β : Type} {room : Room ε} {stop : Stop} {stops more : List Stop} {result : α}

theorem judge_cons_of_pass (h : stop.halt? room = Option.none) :
    judge room (stop :: stops) result = judge room stops result := by
  rw [judge, judge, List.findSome?_cons, h]

theorem judge_cons_of_halt {halt : ε} (h : stop.halt? room = Option.some halt) :
    judge room (stop :: stops) result = .error halt := by
  rw [judge, List.findSome?_cons, h]

/-- Asking for something and then judging is judging from where it is asked for. -/
theorem judge_ask {ask : Except ε Unit} (h : stop.halt? room = failure? ask) :
    (ask >>= fun _ => judge room stops result) = judge room (stop :: stops) result := by
  cases ask with
  | ok => exact (judge_cons_of_pass h).symm
  | error halt => exact (judge_cons_of_halt h).symm

theorem judge_map (f : α → β) : (judge room stops result).map f = judge room stops (f result) := by
  rw [judge, judge]
  cases stops.findSome? (Stop.halt? room) <;> rfl

/-- After stops that all pass, judging goes on with more stops. -/
theorem judge_bind {f : α → Except ε β} {result' : β} (h : f result = judge room more result') :
    (judge room stops result >>= f) = judge room (stops ++ more) result' := by
  rw [judge, judge, List.findSome?_append]
  cases stops.findSome? (Stop.halt? room) with
  | some halt => rfl
  | none => exact h

theorem judge_eq_ok_iff {result' : α} : judge room stops result = .ok result' ↔
    (∀ stop ∈ stops, stop.halt? room = Option.none) ∧ result = result' := by
  rw [judge, ← List.findSome?_eq_none_iff]
  cases stops.findSome? (Stop.halt? room) <;> simp

/-- Where each stop brings about the image of what it brings about elsewhere, so does judging. -/
theorem judge_mapError {ε' : Type} [Reports ε'] {room' : Room ε'} {f : ε → ε'}
    (h : ∀ stop ∈ stops, stop.halt? room' = (stop.halt? room).map f) :
    judge room' stops result = (judge room stops result).mapError f := by
  induction stops with
  | nil => rfl
  | cons stop rest ih =>
    obtain ⟨hstop, hrest⟩ := List.forall_mem_cons.mp h
    cases hhalt : stop.halt? room with
    | none =>
      rw [hhalt] at hstop
      rw [judge_cons_of_pass hhalt, judge_cons_of_pass hstop, ih hrest]
    | some halt =>
      rw [hhalt] at hstop
      rw [judge_cons_of_halt hhalt, judge_cons_of_halt hstop]
      rfl

/-- A failure is that of the first stop that does not pass. -/
theorem judge_eq_error_iff {halt : ε} : judge room stops result = .error halt ↔
    ∃ before stop after, stops = before ++ stop :: after ∧
      (∀ earlier ∈ before, earlier.halt? room = Option.none) ∧
        stop.halt? room = Option.some halt := by
  have hfirst : judge room stops result = .error halt ↔
      stops.findSome? (Stop.halt? room) = Option.some halt := by
    rw [judge]
    cases stops.findSome? (Stop.halt? room) <;> simp
  rw [hfirst, List.findSome?_eq_some_iff]
  constructor
  · rintro ⟨before, stop, after, hstops, hstop, hbefore⟩
    exact ⟨before, stop, after, hstops, hbefore, hstop⟩
  · rintro ⟨before, stop, after, hstops, hbefore, hstop⟩
    exact ⟨before, stop, after, hstops, hstop, hbefore⟩

end

/-! ## The walk through a datum -/

mutual

/-- All stops at a datum and in it, in the order in which it is written. -/
def walk : Data → List Stop
  | .some datum => .asValue (.some datum) :: walk datum
  | .newtypeStruct datum => .asValue (.newtypeStruct datum) :: walk datum
  | .newtypeVariant name datum => .asValue (.newtypeVariant name datum) :: walk datum
  | .seq announced elements =>
    .asValue (.seq announced elements) :: .roomForElements (announced.getD 0) ::
      walkElements elements
  | .tupleOf announced elements =>
    .asValue (.tupleOf announced elements) :: .roomForElements announced :: walkElements elements
  | .tupleStructOf announced elements =>
    .asValue (.tupleStructOf announced elements) :: .roomForElements announced ::
      walkElements elements
  | .tupleVariantOf name announced elements =>
    .asValue (.tupleVariantOf name announced elements) :: .roomForElements announced ::
      walkElements elements
  | .map announced entries =>
    .asValue (.map announced entries) :: .roomForFields (announced.getD 0) :: walkEntries entries
  | .mapStepsOf announced steps =>
    .asValue (.mapStepsOf announced steps) :: .roomForFields (announced.getD 0) ::
      walkSteps false steps
  | .structOf announced fields =>
    .asValue (.structOf announced fields) :: .roomForFields announced :: walkFields fields
  | .structVariantOf name announced fields =>
    .asValue (.structVariantOf name announced fields) :: .roomForFields announced ::
      walkFields fields
  | datum => [.asValue datum]

/-- The walk through elements. -/
def walkElements : List Data → List Stop
  | [] => []
  | datum :: rest => walk datum ++ walkElements rest

/-- The walk through the entries of a map. -/
def walkEntries : List (Data × Data) → List Stop
  | [] => []
  | (key, datum) :: rest => .asKey key :: (walk datum ++ walkEntries rest)

/-- The walk through the fields of a struct. -/
def walkFields : List (String × Data) → List Stop
  | [] => []
  | (_, datum) :: rest => walk datum ++ walkFields rest

/-- The walk through keys and values in any succession; at first a key may be given already. -/
def walkSteps (keyGiven : Bool) : List (MapStep Data) → List Stop
  | [] => []
  | .key datum :: rest => .asKey datum :: walkSteps true rest
  | .value datum :: rest => .given keyGiven :: (walk datum ++ walkSteps false rest)

end

/-! ## The image of a datum -/

mutual

/-- The value of a datum in which nothing offends.  Absent data and units are the plain null, and
wrappers are gone; elements, entries and fields stand in the order of writing, repeated names
included; a variant with data is a struct of one field named after it. -/
def image : Data → Value
  | .none | .unit | .unitStruct | .fail _ => .null
  | .bool b => .scalar (.bool b)
  | .int _ n => .scalar (.int (.ofInt n))
  | .f32 x => .scalar (.float x.toFloat)
  | .f64 x => .scalar (.float x)
  | .char c => .scalar (.string (String.singleton c))
  | .str s => .scalar (.string s)
  | .bytes payload => .scalar (.blob payload)
  | .some datum | .newtypeStruct datum => image datum
  | .unitVariant name => .scalar (.symbol name)
  | .newtypeVariant name datum => .struct () [(name, image datum)]
  | .seq _ elements | .tupleOf _ elements | .tupleStructOf _ elements =>
    .seq .list (imageElements elements)
  | .tupleVariantOf name _ elements => .struct () [(name, .seq .list (imageElements elements))]
  | .map _ entries => .struct () (imageEntries entries)
  | .mapStepsOf _ steps => .struct () (imageSteps "" steps)
  | .structOf _ fields => .struct () (imageFields fields)
  | .structVariantOf name _ fields => .struct () [(name, .struct () (imageFields fields))]

/-- One value for each element. -/
def imageElements : List Data → List Value
  | [] => []
  | datum :: rest => image datum :: imageElements rest

/-- One field for each entry. -/
def imageEntries : List (Data × Data) → List (String × Value)
  | [] => []
  | (key, datum) :: rest => (key.keyName, image datum) :: imageEntries rest

/-- One field for each field. -/
def imageFields : List (String × Data) → List (String × Value)
  | [] => []
  | (name, datum) :: rest => (name, image datum) :: imageFields rest

/-- One field for each value, under the name of the key before it. -/
def imageSteps (name : String) : List (MapStep Data) → List (String × Value)
  | [] => []
  | .key datum :: rest => imageSteps datum.keyName rest
  | .value datum :: rest => (name, image datum) :: imageSteps "" rest

end

/-! ## Encoding is judging the walk -/

section

variable (room : Room ε)

theorem key_eq_judge (datum : Data) :
    datum.key.mapError report = judge room [.asKey datum] datum.keyName := by
  cases datum with
  | newtypeStruct datum => exact key_eq_judge datum
  | int type n => cases type <;> rfl
  | _ => rfl

theorem ofInt_eq_judge (type : IntType) (n : Int) : (Value.ofInt n).mapError report =
    judge room [.asValue (.int type n)] (.scalar (.int (.ofInt n))) := by
  have hhalt : (Stop.asValue (.int type n)).halt? room =
      (if IntType.i64.fits n then Option.none else Option.some (.integerTooWide n)).map report :=
    rfl
  rw [Value.ofInt, intOf?]
  by_cases hfits : IntType.i64.fits n = true
  · rw [if_pos hfits] at hhalt
    rw [if_pos hfits, judge_cons_of_pass hhalt]
    rfl
  · rw [if_neg hfits] at hhalt
    rw [if_neg hfits, judge_cons_of_halt hhalt]
    rfl

-- By the recursion of encoding.  In each of the lists the first member is judged before the rest, so
-- their walks are joined in this order.
mutual

/-- Encoding ends at the first stop of the walk that does not pass, and otherwise gives the image. -/
theorem encodeIn_eq_judge (datum : Data) :
    datum.encodeIn room = judge room datum.walk datum.image := by
  cases datum with
  | none | unit | unitStruct | bool | f32 | f64 | char | str | bytes | unitVariant | fail => rfl
  | int type n => exact ofInt_eq_judge room type n
  | some datum | newtypeStruct datum => exact encodeIn_eq_judge datum
  | newtypeVariant name datum =>
    rw [encodeIn, encodeIn_eq_judge datum, judge_map]
    rfl
  | seq announced elements | tupleOf announced elements | tupleStructOf announced elements
      | tupleVariantOf name announced elements =>
    rw [encodeIn, encodeElementsIn_eq_judge elements, judge_map]
    exact judge_ask rfl
  | map announced entries =>
    rw [encodeIn, encodeEntriesIn_eq_judge entries, judge_map]
    exact judge_ask rfl
  | mapStepsOf announced steps =>
    rw [encodeIn, encodeStepsIn_eq_judge .empty steps]
    exact judge_ask rfl
  | structOf announced fields | structVariantOf name announced fields =>
    rw [encodeIn, encodeFieldsIn_eq_judge fields, judge_map]
    exact judge_ask rfl

theorem encodeElementsIn_eq_judge (elements : List Data) :
    encodeElementsIn room elements =
      judge room (walkElements elements) (imageElements elements) := by
  cases elements with
  | nil => rfl
  | cons datum rest =>
    rw [encodeElementsIn, encodeIn_eq_judge datum, encodeElementsIn_eq_judge rest]
    exact judge_bind (judge_map fun values => datum.image :: values)

theorem encodeEntriesIn_eq_judge (entries : List (Data × Data)) :
    encodeEntriesIn room entries = judge room (walkEntries entries) (imageEntries entries) := by
  cases entries with
  | nil => rfl
  | cons entry rest =>
    obtain ⟨key, datum⟩ := entry
    rw [encodeEntriesIn, key_eq_judge room key, encodeIn_eq_judge datum,
      encodeEntriesIn_eq_judge rest]
    refine judge_bind ?_
    exact judge_bind (judge_map fun fields => (key.keyName, datum.image) :: fields)

theorem encodeFieldsIn_eq_judge (fields : List (String × Data)) :
    encodeFieldsIn room fields = judge room (walkFields fields) (imageFields fields) := by
  cases fields with
  | nil => rfl
  | cons field rest =>
    obtain ⟨name, datum⟩ := field
    rw [encodeFieldsIn, encodeIn_eq_judge datum, encodeFieldsIn_eq_judge rest]
    exact judge_bind (judge_map fun fields => (name, datum.image) :: fields)

theorem encodeStepsIn_eq_judge (builder : MapBuilder) (steps : List (MapStep Data)) :
    encodeStepsIn room builder steps = judge room (walkSteps builder.pending.isSome steps)
      (.struct () (builder.fields ++ imageSteps (builder.pending.getD "") steps)) := by
  obtain ⟨fields, pending⟩ := builder
  cases steps with
  | nil =>
    rw [imageSteps, List.append_nil]
    rfl
  | cons step rest =>
    cases step with
    | key datum =>
      have hrest := encodeStepsIn_eq_judge ⟨fields, Option.some datum.keyName⟩ rest
      have hnext : encodeStepsIn room ⟨fields, pending⟩ (.key datum :: rest) =
          (datum.key.mapError report >>= fun name =>
            encodeStepsIn room ⟨fields, Option.some name⟩ rest) := by
        rw [encodeStepsIn]
        cases datum.key <;> rfl
      rw [hnext, key_eq_judge room datum]
      exact judge_bind hrest
    | value datum =>
      cases pending with
      | none => rfl
      | some name =>
        have hrest := encodeStepsIn_eq_judge ⟨fields.add name datum.image, Option.none⟩ rest
        rw [Fields.add, List.append_assoc] at hrest
        have hnext : encodeStepsIn room ⟨fields, Option.some name⟩ (.value datum :: rest) =
            (datum.encodeIn room >>= fun value =>
              encodeStepsIn room ⟨fields.add name value, Option.none⟩ rest) := by
          rw [encodeStepsIn]
          cases datum.encodeIn room <;> rfl
        rw [hnext, encodeIn_eq_judge datum]
        exact judge_bind hrest

end

end

/-! ## Where there is room -/

/-- There is room for every number of elements, and of fields, that is announced in a datum. -/
structure Fits (mostElements mostFields : Nat) (datum : Data) : Prop where
  elements : ∀ announced, Stop.roomForElements announced ∈ datum.walk → announced ≤ mostElements
  fields : ∀ announced, Stop.roomForFields announced ∈ datum.walk → announced ≤ mostFields

/-- Asking for so much passes exactly if that is within the bound. -/
theorem failure?_eq_none_iff {announced most : Nat} :
    failure? (if announced ≤ most then .ok () else .error Halt.capacityOverflow) = Option.none ↔
      announced ≤ most := by
  split <;> simp_all [failure?]

/-- Where there is always room, a stop ends encoding only by an offence. -/
theorem Stop.halt?_ample (stop : Stop) : stop.halt? .ample = stop.offence? := by
  cases stop with
  | asValue | asKey | given => exact Option.map_id_apply
  | roomForElements | roomForFields => rfl

/-- So it does where there is room for what is announced. -/
theorem Fits.halt?_eq {mostElements mostFields : Nat} {datum : Data}
    (h : datum.Fits mostElements mostFields) {stop : Stop} (hmem : stop ∈ datum.walk) :
    stop.halt? (.limited mostElements mostFields) = stop.offence?.map .failure := by
  cases stop with
  | asValue | asKey | given => rfl
  | roomForElements announced => exact failure?_eq_none_iff.mpr (h.elements announced hmem)
  | roomForFields announced => exact failure?_eq_none_iff.mpr (h.fields announced hmem)

/-- Where there is room for everything that is announced, encoding is as where there is always
room. -/
theorem Fits.encodeIn_eq {mostElements mostFields : Nat} {datum : Data}
    (h : datum.Fits mostElements mostFields) :
    datum.encodeIn (.limited mostElements mostFields) = datum.encode.mapError .failure := by
  rw [encode, encodeIn_eq_judge, encodeIn_eq_judge]
  refine judge_mapError fun stop hmem => ?_
  rw [h.halt?_eq hmem, stop.halt?_ample]

/-! ## What is announced -/

mutual

/-- The datum with nothing announced, at any depth, or no parts where a number must be. -/
def unannounced : Data → Data
  | .some datum => .some datum.unannounced
  | .newtypeStruct datum => .newtypeStruct datum.unannounced
  | .newtypeVariant name datum => .newtypeVariant name datum.unannounced
  | .seq _ elements => .seq Option.none (unannouncedElements elements)
  | .tupleOf _ elements => .tupleOf 0 (unannouncedElements elements)
  | .tupleStructOf _ elements => .tupleStructOf 0 (unannouncedElements elements)
  | .tupleVariantOf name _ elements => .tupleVariantOf name 0 (unannouncedElements elements)
  | .map _ entries => .map Option.none (unannouncedEntries entries)
  | .mapStepsOf _ steps => .mapStepsOf Option.none (unannouncedSteps steps)
  | .structOf _ fields => .structOf 0 (unannouncedFields fields)
  | .structVariantOf name _ fields => .structVariantOf name 0 (unannouncedFields fields)
  | datum => datum

/-- Elements with nothing announced. -/
def unannouncedElements : List Data → List Data
  | [] => []
  | datum :: rest => datum.unannounced :: unannouncedElements rest

/-- Entries with nothing announced, in keys or in values. -/
def unannouncedEntries : List (Data × Data) → List (Data × Data)
  | [] => []
  | (key, datum) :: rest => (key.unannounced, datum.unannounced) :: unannouncedEntries rest

/-- Fields with nothing announced. -/
def unannouncedFields : List (String × Data) → List (String × Data)
  | [] => []
  | (name, datum) :: rest => (name, datum.unannounced) :: unannouncedFields rest

/-- Keys and values with nothing announced. -/
def unannouncedSteps : List (MapStep Data) → List (MapStep Data)
  | [] => []
  | .key datum :: rest => .key datum.unannounced :: unannouncedSteps rest
  | .value datum :: rest => .value datum.unannounced :: unannouncedSteps rest

end

theorem key_unannounced (datum : Data) : datum.unannounced.key = datum.key := by
  cases datum with
  | newtypeStruct datum => exact key_unannounced datum
  | _ => rfl

mutual

/-- Where there is always room, encoding does not read what is announced. -/
theorem encode_unannounced (datum : Data) : datum.unannounced.encode = datum.encode := by
  cases datum with
  | none | unit | unitStruct | bool | int | f32 | f64 | char | str | bytes | unitVariant
  | fail => rfl
  | some datum | newtypeStruct datum => exact encode_unannounced datum
  | newtypeVariant name datum =>
    rw [unannounced, encode_newtypeVariant, encode_newtypeVariant, encode_unannounced datum]
  | seq announced elements =>
    rw [unannounced, encode_seq, encode_seq, encodeElements_unannounced elements]
  | tupleOf announced elements =>
    rw [unannounced, encode_tupleOf, encode_tupleOf, encodeElements_unannounced elements]
  | tupleStructOf announced elements =>
    rw [unannounced, encode_tupleStructOf, encode_tupleStructOf,
      encodeElements_unannounced elements]
  | tupleVariantOf name announced elements =>
    rw [unannounced, encode_tupleVariantOf, encode_tupleVariantOf,
      encodeElements_unannounced elements]
  | map announced entries =>
    rw [unannounced, encode_map, encode_map, encodeEntries_unannounced entries]
  | mapStepsOf announced steps => exact encodeSteps_unannounced .empty steps
  | structOf announced fields =>
    rw [unannounced, encode_structOf, encode_structOf, encodeFields_unannounced fields]
  | structVariantOf name announced fields =>
    rw [unannounced, encode_structVariantOf, encode_structVariantOf,
      encodeFields_unannounced fields]

theorem encodeElements_unannounced (elements : List Data) :
    encodeElements (unannouncedElements elements) = encodeElements elements := by
  cases elements with
  | nil => rfl
  | cons datum rest =>
    rw [unannouncedElements, encodeElements_cons, encodeElements_cons, encode_unannounced datum,
      encodeElements_unannounced rest]

theorem encodeEntries_unannounced (entries : List (Data × Data)) :
    encodeEntries (unannouncedEntries entries) = encodeEntries entries := by
  cases entries with
  | nil => rfl
  | cons entry rest =>
    obtain ⟨key, datum⟩ := entry
    rw [unannouncedEntries, encodeEntries_cons, encodeEntries_cons, key_unannounced,
      encode_unannounced datum, encodeEntries_unannounced rest]

theorem encodeFields_unannounced (fields : List (String × Data)) :
    encodeFields (unannouncedFields fields) = encodeFields fields := by
  cases fields with
  | nil => rfl
  | cons field rest =>
    obtain ⟨name, datum⟩ := field
    rw [unannouncedFields, encodeFields_cons, encodeFields_cons, encode_unannounced datum,
      encodeFields_unannounced rest]

theorem encodeSteps_unannounced (builder : MapBuilder) (steps : List (MapStep Data)) :
    encodeSteps builder (unannouncedSteps steps) = encodeSteps builder steps := by
  cases steps with
  | nil => rfl
  | cons step rest =>
    cases step with
    | key datum =>
      rw [unannouncedSteps, encodeSteps_key, encodeSteps_key, key_unannounced]
      rcases builder.giveKey datum.key with ⟨outcome, builder'⟩
      cases outcome with
      | error failure => rfl
      | ok => exact encodeSteps_unannounced builder' rest
    | value datum =>
      rw [unannouncedSteps, encodeSteps_value, encodeSteps_value, encode_unannounced datum]
      rcases builder.giveValue datum.encode with ⟨outcome, builder'⟩
      cases outcome with
      | error failure => rfl
      | ok => exact encodeSteps_unannounced builder' rest

end

/-! ## Which data have a value -/

/-- Every stop of a walk passes if there is room for what is announced, and there are no failures, no
integers out of range, no keys that are no text, and no values before their keys. -/
theorem halt?_eq_none_iff (mostElements mostFields : Nat) (datum : Data) :
    (∀ stop ∈ datum.walk, stop.halt? (.limited mostElements mostFields) = Option.none) ↔
      (∀ text, Stop.asValue (.fail text) ∉ datum.walk) ∧
      (∀ type n, Stop.asValue (.int type n) ∈ datum.walk → IntType.i64.fits n = true) ∧
      (∀ key, Stop.asKey key ∈ datum.walk → key.IsKey) ∧
      Stop.given false ∉ datum.walk ∧ datum.Fits mostElements mostFields := by
  constructor
  · intro h
    have hfits : datum.Fits mostElements mostFields :=
      ⟨fun _ hmem => failure?_eq_none_iff.mp (h _ hmem),
        fun _ hmem => failure?_eq_none_iff.mp (h _ hmem)⟩
    have hoffence : ∀ stop ∈ datum.walk, stop.offence? = Option.none := by
      intro stop hmem
      rw [← Option.map_eq_none_iff, ← hfits.halt?_eq hmem]
      exact h stop hmem
    refine ⟨?_, ?_, ?_, ?_, hfits⟩
    · intro text hmem
      have hfail := hoffence _ hmem
      contradiction
    · intro type n hmem
      have hpass := hoffence _ hmem
      cases hfits : IntType.i64.fits n with
      | true => rfl
      | false =>
        rw [Stop.offence?, hfits] at hpass
        contradiction
    · intro key hmem
      exact (keyOffence?_eq_none_iff key).mp (hoffence _ hmem)
    · intro hmem
      have hgiven := hoffence _ hmem
      contradiction
  · rintro ⟨hfail, hint, hkey, hvalue, hfits⟩ stop hmem
    rw [hfits.halt?_eq hmem, Option.map_eq_none_iff]
    cases stop with
    | roomForElements | roomForFields => rfl
    | asKey key => exact (keyOffence?_eq_none_iff key).mpr (hkey key hmem)
    | given keyGiven =>
      cases keyGiven with
      | false => exact absurd hmem hvalue
      | true => rfl
    | asValue datum =>
      cases datum with
      | fail text => exact absurd hmem (hfail text)
      | int type n => exact if_pos (hint type n hmem)
      | _ => rfl

/-- With bounds on the numbers of elements and of fields that there can be room for: a datum has a
value exactly when the walk through it meets no failure, no integer out of range, no key that is no
text and no value before its key, and announces nothing beyond the bounds.  Otherwise encoding ends
at the first stop of the walk that does not pass, with its offence or for lack of room.  The value is
the image of the datum.  Within the bounds, what is announced makes no difference, and encoding is as
where there is always room. -/
theorem encodeIn_limited (mostElements mostFields : Nat) (datum : Data) :
    let room : Room Halt := .limited mostElements mostFields
    ((∃ value, datum.encodeIn room = .ok value) ↔
      (∀ text, Stop.asValue (.fail text) ∉ datum.walk) ∧
      (∀ type n, Stop.asValue (.int type n) ∈ datum.walk → IntType.i64.fits n = true) ∧
      (∀ key, Stop.asKey key ∈ datum.walk → key.IsKey) ∧
      Stop.given false ∉ datum.walk ∧ datum.Fits mostElements mostFields) ∧
    (∀ halt, datum.encodeIn room = .error halt ↔
      ∃ before stop after, datum.walk = before ++ stop :: after ∧
        (∀ earlier ∈ before, earlier.halt? room = Option.none) ∧
          stop.halt? room = Option.some halt) ∧
    (∀ value, datum.encodeIn room = .ok value → value = datum.image) ∧
    (∀ other : Data, other.unannounced = datum.unannounced →
      other.Fits mostElements mostFields → datum.Fits mostElements mostFields →
        other.encodeIn room = datum.encodeIn room) ∧
    (datum.Fits mostElements mostFields →
      datum.encodeIn room = datum.encode.mapError .failure) := by
  intro room
  refine ⟨?_, ?_, ?_, ?_, Fits.encodeIn_eq⟩
  · rw [← halt?_eq_none_iff, encodeIn_eq_judge]
    constructor
    · rintro ⟨value, hvalue⟩
      exact (judge_eq_ok_iff.mp hvalue).1
    · intro hpass
      exact ⟨datum.image, judge_eq_ok_iff.mpr ⟨hpass, rfl⟩⟩
  · intro halt
    rw [encodeIn_eq_judge]
    exact judge_eq_error_iff
  · intro value hvalue
    rw [encodeIn_eq_judge] at hvalue
    exact (judge_eq_ok_iff.mp hvalue).2.symm
  · intro other hother hfits hfits'
    have hsame : other.encode = datum.encode := by
      rw [← encode_unannounced other, hother, encode_unannounced datum]
    rw [hfits.encodeIn_eq, hfits'.encodeIn_eq, hsame]

/-- A sequence that announces more elements than any program has room for, even if each took a single
octet, ends encoding although nothing in it offends, and if it announces nothing it has a value.  And
a key that is an integer of 128 bits is refused with other words than a key that is no text. -/
theorem encodeIn_overflow :
    let most := UInt64.size / 2 - 1
    let room : Room Halt := .limited most most
    let announcing : Data := .seq (.some (UInt64.size - 1)) []
    (∀ stop ∈ announcing.walk, stop.offence? = Option.none) ∧
      announcing.encodeIn room = .error .capacityOverflow ∧
      (Data.seq .none []).encodeIn room = .ok (.seq .list []) ∧
      (Data.map .none [(.int .i128 1, .unit)]).encodeIn room =
        .error (.failure (.unsupportedKey "i128")) ∧
      (Error.unsupportedKey "i128").kind ≠ Error.keyMustBeString.kind := by
  intro most room announcing
  refine ⟨?_, rfl, rfl, rfl, by decide⟩
  simp [announcing, walk, walkElements, Stop.offence?]

end Data
end Caseless
