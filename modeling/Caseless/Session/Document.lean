import Caseless.Inspect
import Caseless.Json.Writer
import Caseless.Session.Answer
import Caseless.View.Place

/-!
# Sessions on a document

One value is changed in place.  Every command starts at the root, follows a path to a place, reads
or changes what stands there, and writes it back.  A path that leads nowhere changes nothing.

Main definitions:

- `PlaceAction`: what is done at a place;
- `DocumentCommand`: a path, how its names are looked up, and an action;
- `DocumentCommand.step`: the answer, and the document after it.
-/

namespace Caseless

open Name

/-- What is done at the end of a path. -/
inductive PlaceAction where
  | info
  /-- The child at a key. -/
  | get (key : Key)
  /-- Overwrites what stands there. -/
  | write (value : Value)
  | add (name : String) (value : Value)
  | put (name : String) (value : Value)
  | remove (name : String)
  | push (value : Value)
  | insert (position : Nat) (value : Value)
  | removeAt (position : Nat)
  | clear
  /-- Stores the child at a key once more: at the end of a list, or under a name in a struct. -/
  | copyChild (key : Key) (name : String)
  | inspect
  | json

/-- One command on a document. -/
structure DocumentCommand where
  access : Access
  path : List Key
  action : PlaceAction

namespace PlaceAction

/-- What a value tells about itself when it is reached by exact names. -/
def plainInfo (value : Value) : Answer :=
  .record <|
    [("tag", .ofTag value.tag), ("null", .flag value.isNull)] ++
    Answer.typed value.scalar? ++
    [("list", .ofOption (fun elements => .count elements.length) value.elements?),
      ("struct", .ofOption (fun fields => .count fields.length) value.fields?)]

/-- What a value tells about itself when it is reached ignoring case. -/
def viewInfo (policy : Policy) (value : Value) : Answer :=
  let view := wrap policy value
  let list (list : ListView) : Answer :=
    .list [.ofTag list.kind.tag, .count list.size, .ofPolicy list.policy]
  let struct (struct : StructView) : Answer := .list [.count struct.size, .ofPolicy struct.policy]
  .record <|
    [("tag", .ofTag value.tag), ("null", .flag value.isNull),
      ("scalar", .ofPayload value.scalar?)] ++
    (Answer.typed value.scalar?).filter
      (fun entry => ["bool", "int", "float", "text"].contains entry.1) ++
    [("list", .ofOption list view.list?), ("struct", .ofOption struct view.struct?),
      ("raw", .value view.rawValue), ("view", .ofTag view.tag),
      ("view_decorated", .flag view.isDecorated)]

/-- What stands at a place after a child of it was stored once more. -/
def storeChild (value child : Value) (name : String) : Value :=
  match value with
  | .scalar payload => .scalar payload
  | .seq kind elements => .seq kind (elements ++ [child])
  | .struct stamp fields => .struct stamp (Fields.add fields name child)

/-- The answer to an action on a value, and the value after it.  Actions on sequences do nothing to
other values, and actions on structs do nothing to what is no struct.  Ignoring case, only a scalar
can be written over. -/
def act (access : Access) (value : Value) (action : PlaceAction) : Answer × Value :=
  match action, value with
  | .info, value =>
    match access with
    | .exact => (plainInfo value, value)
    | .folded policy => (viewInfo policy value, value)
  | .get key, value =>
    (.ofResult (.ofOption fun place => .value place.value) ((Place.root value).enter access key),
      value)
  | .write new, value =>
    match access, value with
    | .exact, old => (.value old, new)
    | .folded _, .scalar old => (.value (.scalar old), new)
    | .folded _, value => (.container, value)
  | .add name new, .struct stamp fields => (.done, .struct stamp (Fields.add fields name new))
  | .put name new, .struct stamp fields =>
    let (old, fields) := Fields.put fields name new
    (.list [.ofOption .value old], .struct stamp fields)
  | .remove name, .struct stamp fields =>
    let (old, fields) := Fields.remove name fields
    (.list [.ofOption .value old], .struct stamp fields)
  | .push new, .seq kind elements => (.done, .seq kind (elements ++ [new]))
  | .insert position new, .seq kind elements =>
    match Elements.insert elements position new with
    | .ok elements => (.done, .seq kind elements)
    | .error failure => (.failure failure, value)
  | .removeAt position, .seq kind elements =>
    match Elements.remove elements position with
    | .ok (old, elements) => (.value old, .seq kind elements)
    | .error failure => (.failure failure, value)
  | .clear, .seq kind _ => (.done, .seq kind [])
  | .clear, .struct stamp _ => (.done, .struct stamp [])
  | .copyChild key name, value =>
    match (Place.root value).enter access key with
    | .ok (some place) => (.done, storeChild value place.value name)
    | .ok none => (.absent, value)
    | .error failure => (.failure failure, value)
  | .inspect, value =>
    match access with
    | .exact => (.word value.inspect.line, value)
    | .folded policy => (.word (Readable.inspect (wrap policy value)).line, value)
  | .json, value => (.word (Json.text value), value)
  | _, value => (.absent, value)

end PlaceAction

namespace DocumentCommand

/-- The answer to a command, and the document after it. -/
def step (document : Value) (command : DocumentCommand) : Answer × Value :=
  match Place.locate command.access document command.path with
  | .missing _ => (.word "missing", document)
  | .failed _ failure => (.failure failure, document)
  | .found place =>
    let (answer, value) := command.action.act command.access place.value
    (answer, place.write document value)

end DocumentCommand
end Caseless
