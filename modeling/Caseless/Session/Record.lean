import Caseless.Inspect
import Caseless.Json.Writer
import Caseless.Session.Answer
import Caseless.Session.Pick
import Caseless.View.Edit

/-!
# Sessions on records

A stamped record is read and edited with names as they are spelled.  Next to each answer stands
whether the command gave the record a later stamp.
-/

namespace Caseless

/-- A command on a stamped record. -/
inductive RecordCommand where
  /-- How many fields there are, and whether there are none. -/
  | size
  | get (name : String)
  /-- Overwrites the first field with a name where it stands. -/
  | write (name : String) (value : Value)
  | getAll (name : String)
  | contains (name : String)
  | names
  | fieldAt (position : Nat)
  /-- Overwrites the field at a position where it stands. -/
  | writeAt (position : Nat) (value : Value)
  | add (name : String) (value : Value)
  | put (name : String) (value : Value)
  | remove (name : String)
  | removeAt (position : Nat)
  | clear
  | extend (fields : Fields Value)
  /-- Puts a new record in the place of this one. -/
  | replace (fields : Fields Value)
  | pick (pattern : List RowEnd)
  /-- Doubles every integer; the answer counts what is left before and after each field. -/
  | double
  /-- Doubles every integer. -/
  | doubleAll
  /-- Reads every field. -/
  | all
  /-- Goes on with a copy: whether it has the same stamp, and equals this record. -/
  | copy
  /-- Collects the fields into a new record. -/
  | rebuild
  /-- Whether the fields equal the given ones. -/
  | equals (fields : Fields Value)
  | inspect
  | json

/-- A record with the clock that its next stamp comes from. -/
structure RecordState where
  record : Record Stamp (Value Stamp)
  clock : Clock

namespace RecordState

/-- A new record of given fields. -/
def ofFields (fields : Fields Value) (clock : Clock) : RecordState :=
  let (fields, clock) := Value.stampedFields fields clock
  let (record, clock) := Record.ofFields fields clock
  ⟨record, clock⟩

/-- The record as a value. -/
def value (state : RecordState) : Value Stamp :=
  .struct state.record.stamp state.record.fields

/-- Stamps a value, and hands it to a change of the record. -/
def storing {α : Type} (state : RecordState) (value : Value)
    (change : Value Stamp → Clock → α × Record Stamp (Value Stamp) × Clock) : α × RecordState :=
  let (value, clock) := value.stamped state.clock
  let (answer, record, clock) := change value clock
  (answer, ⟨record, clock⟩)

/-- Changes the record. -/
def changing {α : Type} (state : RecordState)
    (change : Clock → α × Record Stamp (Value Stamp) × Clock) : α × RecordState :=
  let (answer, record, clock) := change state.clock
  (answer, ⟨record, clock⟩)

end RecordState

namespace RecordCommand

/-- The answer to a command, and the record after it. -/
def step (state : RecordState) (command : RecordCommand) : Answer × RecordState :=
  let record := state.record
  match command with
  | .size =>
    (.list [.count record.size, .flag record.fields.isEmpty, .count record.names.length], state)
  | .get name => (.ofOption .ofHandle (record.fields.get? name), state)
  | .write name value =>
    state.storing value fun value clock =>
      (.ofOption .ofHandle (record.fields.get? name), record.setFirst name value, clock)
  | .getAll name => (.ofHandles (record.fields.getAll name), state)
  | .contains name => (.flag (record.fields.contains name), state)
  | .names => (.ofNames record.names, state)
  | .fieldAt position => (.ofOption .ofField record.fields[position]?, state)
  | .writeAt position value =>
    state.storing value fun value clock =>
      (.ofOption .ofField record.fields[position]?, record.setAt position value, clock)
  | .add name value =>
    state.storing value fun value clock => (.done, record.add name value clock)
  | .put name value =>
    state.storing value fun value clock =>
      let (old, record, clock) := record.put name value clock
      (.ofOption .ofHandle old, record, clock)
  | .remove name =>
    state.changing fun clock =>
      let (old, record, clock) := record.remove name clock
      (.ofOption .ofHandle old, record, clock)
  | .removeAt position =>
    state.changing fun clock =>
      let (old, record, clock) := record.removeAt position clock
      (.ofResult .ofField old, record, clock)
  | .clear => state.changing fun clock => (.done, record.clear clock)
  | .extend fields =>
    let (fields, clock) := Value.stampedFields fields state.clock
    let (record, clock) := record.extend fields clock
    (.done, ⟨record, clock⟩)
  | .replace fields => (.done, .ofFields fields state.clock)
  | .pick pattern => (.ofDraws .ofField (RowEnd.pick pattern record.fields), state)
  | .double =>
    (.countdown record.size, { state with record := record.mapValues Value.doubled })
  | .doubleAll => (.done, { state with record := record.mapValues Value.doubled })
  | .all => (.ofFields record.fields, state)
  | .copy =>
    let copied := record
    let same := copied.stamp == record.stamp
    let equal := Value.eqFields (· == ·) copied.fields record.fields
    (.list [.flag same, .flag equal], { state with record := copied })
  | .rebuild => state.changing fun clock => (.done, record.touch clock)
  | .equals fields => (.flag (Value.eqFields (· == ·) record.fields fields), state)
  | .inspect => (.word record.fields.inspect.line, state)
  | .json => (.word (Json.text state.value), state)

/-- What a session shows of a command. -/
structure Reply where
  answer : Answer
  /-- Whether the command gave the record a later stamp. -/
  touched : Bool

/-- The reply to a command, and the record after it. -/
def reply (state : RecordState) (command : RecordCommand) : Reply × RecordState :=
  let (answer, next) := step state command
  (⟨answer, state.record.stamp.number < next.record.stamp.number⟩, next)

end RecordCommand
end Caseless
