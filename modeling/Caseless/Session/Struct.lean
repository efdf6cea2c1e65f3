import Caseless.Inspect
import Caseless.Json.Writer
import Caseless.Session.Answer
import Caseless.Session.Pick
import Caseless.View.Edit

/-!
# Sessions on struct views

A stamped struct is read and edited through one exclusive view.  Next to each answer stand whether
the command gave the struct a later stamp, whether the next lookup is answered from a table that is
there, and every table that was built.
-/

namespace Caseless

open Name

/-- A command on an exclusive view of a struct. -/
inductive StructCommand where
  | info
  | withPolicy (policy : Policy)
  | get (name : String)
  /-- Overwrites the field that a name resolves to, if it is a scalar. -/
  | write (name : String) (value : Value)
  | getAll (name : String)
  | contains (name : String)
  | resolve (name : String)
  | names
  | pick (pattern : List RowEnd)
  /-- Doubles every integer; the answer counts what is left before and after each field. -/
  | double
  | add (name : String) (value : Value)
  | put (name : String) (value : Value)
  /-- Appends the value that a view wraps. -/
  | addView (name : String) (value : Value)
  /-- Puts the value that a view wraps. -/
  | putView (name : String) (value : Value)
  /-- Puts a field under the name that the given one resolves to. -/
  | putResolved (name : String) (value : Value)
  | remove (name : String)
  /-- Removes the fields with the name that the given one resolves to. -/
  | removeResolved (name : String)
  | clear
  /-- Takes hold of the struct behind the view and changes nothing. -/
  | rawSize
  | rawAdd (name : String) (value : Value)
  | rawRemove (name : String)
  | rawRemoveAt (position : Nat)
  /-- Overwrites the first field with a name, in the struct behind the view. -/
  | rawWrite (name : String) (value : Value)
  /-- Puts a new struct in the place of the one behind the view. -/
  | rawReplace (fields : Fields Value)
  /-- Gives up the view for a new one. -/
  | renew
  /-- Looks up a name in a shared view made for it. -/
  | sharedGet (name : String)
  | inspect
  | json

/-- An exclusive view of a struct, with the clock that the next stamp comes from. -/
structure StructState where
  view : StructView Stamp
  clock : Clock

namespace StructState

/-- A view of a new struct of given fields. -/
def ofFields (fields : Fields Value) (policy : Policy) (clock : Clock) : StructState :=
  let (fields, clock) := Value.stampedFields fields clock
  let (record, clock) := Record.ofFields fields clock
  ⟨.new record policy, clock⟩

/-- The fields of the struct. -/
def fields (state : StructState) : Fields (Value Stamp) :=
  state.view.record.fields

/-- The state after a lookup. -/
def warm (state : StructState) : StructState :=
  { state with view := state.view.warm }

/-- The tables that the next lookup builds: one, or none. -/
def builds (state : StructState) : List BuildEvent :=
  state.view.pending.toList

/-- Changes the struct behind the view. -/
def reworking {α : Type} (state : StructState)
    (change : Record Stamp (Value Stamp) → Clock → α × Record Stamp (Value Stamp) × Clock) :
    α × StructState :=
  let (answer, view, clock) := state.view.rework fun record => change record state.clock
  (answer, ⟨view, clock⟩)

/-- Stamps a value, and hands it to a change of the struct behind the view. -/
def storing {α : Type} (state : StructState) (value : Value)
    (change : Record Stamp (Value Stamp) → Value Stamp → Clock →
      α × Record Stamp (Value Stamp) × Clock) : α × StructState :=
  let (value, clock) := value.stamped state.clock
  StructState.reworking { state with clock } fun record clock => change record value clock

end StructState

namespace StructCommand

/-- The answer to a command, the tables that it builds, and the view after it. -/
def step (state : StructState) (command : StructCommand) :
    Answer × List BuildEvent × StructState :=
  let view := state.view
  /- A command that looks up nothing. -/
  let plain (result : Answer × StructState) := (result.1, [], result.2)
  /- A lookup. -/
  let lookup (answer : Answer) := (answer, state.builds, state.warm)
  match command with
  | .info =>
    plain (.list [.count view.size, .flag view.record.fields.isEmpty, .ofPolicy view.policy], state)
  | .withPolicy policy => plain (.done, { state with view := view.withPolicy policy })
  | .get name => lookup (.ofOption .ofHandle (view.get? name))
  | .write name value =>
    match view.position? name with
    | none => lookup .absent
    | some position =>
      match view.record.fields[position]? with
      | some (_, .scalar old) =>
        let (value, clock) := value.stamped state.clock
        (.value (.scalar old), state.builds, ⟨view.warm.writeAt position value, clock⟩)
      | some _ => lookup .container
      | none => lookup .absent
  | .getAll name => lookup (.list [.count (view.countAll name), .ofHandles (view.getAll name)])
  | .contains name => lookup (.flag (view.contains name))
  | .resolve name => lookup (.ofOption .word (view.resolve? name))
  | .names => plain (.ofNames view.names, state)
  | .pick pattern => plain (.ofDraws .ofField (RowEnd.pick pattern view.entries), state)
  | .double =>
    let left := view.names.mapIdx fun index name =>
      .list [.word name, .count (view.size - 1 - index)]
    plain (.list (.count view.size :: left), { state with view := view.mapValues Value.doubled })
  | .add name value | .rawAdd name value =>
    plain <| state.storing value fun record value clock => (.done, record.add name value clock)
  | .put name value =>
    plain <| state.storing value fun record value clock =>
      let (old, record, clock) := record.put name value clock
      (.ofOption .ofHandle old, record, clock)
  | .addView name value =>
    plain <| state.storing (wrap view.policy value).rawValue fun record value clock =>
      (.done, record.add name value clock)
  | .putView name value =>
    plain <| state.storing (wrap view.policy value).rawValue fun record value clock =>
      let (old, record, clock) := record.put name value clock
      (.ofOption .ofHandle old, record, clock)
  | .putResolved name value =>
    match view.resolve? name with
    | none => lookup (.word "unresolved")
    | some stored =>
      let (answer, next) := state.warm.storing value fun record value clock =>
        let (old, record, clock) := record.put stored value clock
        (.ofOption .ofHandle old, record, clock)
      (answer, state.builds, next)
  | .remove name | .rawRemove name =>
    plain <| state.reworking fun record clock =>
      let (old, record, clock) := record.remove name clock
      (.ofOption .ofHandle old, record, clock)
  | .removeResolved name =>
    match view.resolve? name with
    | none => lookup (.word "unresolved")
    | some stored =>
      let (answer, next) := state.warm.reworking fun record clock =>
        let (old, record, clock) := record.remove stored clock
        (.ofOption .ofHandle old, record, clock)
      (answer, state.builds, next)
  | .clear => plain <| state.reworking fun record clock => (.done, record.clear clock)
  | .rawSize =>
    plain <| state.reworking fun record clock => (.count record.size, record, clock)
  | .rawRemoveAt position =>
    plain <| state.reworking fun record clock =>
      let (old, record, clock) := record.removeAt position clock
      (.ofResult .ofField old, record, clock)
  | .rawWrite name value =>
    plain <| state.storing value fun record value clock =>
      (.ofOption .ofHandle (record.fields.get? name), record.setFirst name value, clock)
  | .rawReplace fields =>
    plain <| state.reworking fun _ clock =>
      let (fields, clock) := Value.stampedFields fields clock
      (.done, Record.ofFields fields clock)
  | .renew => plain (.done, { state with view := .new view.record view.policy })
  | .sharedGet name =>
    let shared := view.fork
    let answers := [.flag shared.isFresh, .ofOption .ofHandle (shared.get? name),
      .flag shared.warm.isFresh, .ofPolicy shared.policy, .count shared.size,
      .flag shared.record.fields.isEmpty]
    (.list answers, shared.pending.toList, state)
  | .inspect => plain (.word (Readable.inspect (View.struct view)).line, state)
  | .json => plain (.word (Json.text (View.struct view)), state)

/-- What a session shows of a command. -/
structure Reply where
  answer : Answer
  /-- Whether the command gave the struct a later stamp. -/
  touched : Bool
  /-- Whether the next lookup is answered from a table that is there. -/
  fresh : Bool
  /-- The tables that were built. -/
  builds : List BuildEvent

/-- The reply to a command, and the view after it. -/
def reply (state : StructState) (command : StructCommand) : Reply × StructState :=
  let (answer, builds, next) := step state command
  let touched : Bool := state.view.record.stamp.number < next.view.record.stamp.number
  (⟨answer, touched, next.view.isFresh, builds⟩, next)

end StructCommand
end Caseless
