import Caseless.Inspect
import Caseless.Json.Writer
import Caseless.Session.Answer
import Caseless.Session.Pick
import Caseless.View.Edit

/-!
# Sessions on list views

A sequence is read and edited through an exclusive view: elements are handed out wrapped, and what
is stored is plain.  Commands that fail leave the sequence as it is.
-/

namespace Caseless

open Name

/-- A command on an exclusive view of a sequence. -/
inductive ListCommand where
  | info
  | get (position : Nat)
  /-- The field that a name leads to in an element. -/
  | getName (position : Nat) (name : String)
  /-- Overwrites an element that is a scalar where it stands. -/
  | write (position : Nat) (value : Value)
  /-- Puts a field into an element that is a struct, under the name that the given one resolves
  to. -/
  | putIn (position : Nat) (name : String) (value : Value)
  | push (value : Value)
  /-- Appends the value that a view wraps. -/
  | pushView (value : Value)
  | insert (position : Nat) (value : Value)
  | set (position : Nat) (value : Value)
  /-- Stores the value that a view wraps. -/
  | setView (position : Nat) (value : Value)
  | remove (position : Nat)
  | clear
  | withPolicy (policy : Policy)
  | pick (pattern : List RowEnd)
  /-- The kind of each element, and whether it is wrapped. -/
  | children
  | double
  | inspect
  | json

/-- Puts a field under the name that a query resolves to, or under the query itself. -/
def Value.putResolved (policy : Policy) (fields : Fields Value) (query : String) (value : Value) :
    Option Value × Value :=
  let view : StructView := .new ⟨(), fields⟩ policy
  let (old, fields) := fields.put ((view.resolve? query).getD query) value
  (old, .struct () fields)

namespace ListCommand

/-- Writes back what an operation makes of the view; a failure changes nothing. -/
def commit {α : Type} (answer : α → Answer) (view : ListView) :
    Except Error (α × ListView) → Answer × ListView
  | .ok (result, view) => (answer result, view)
  | .error failure => (.failure failure, view)

/-- The answer to a command, and the view after it. -/
def step (view : ListView) : ListCommand → Answer × ListView
  | .info =>
    let size := [.count view.size, .flag view.elements.isEmpty]
    let form := [.ofTag view.kind.tag, .ofPolicy view.policy]
    (.list (size ++ form ++ form ++ size), view)
  | .get position => (.ofResult .ofHandle (view.get position), view)
  | .getName position name =>
    (.ofResult (fun child => .ofOption .ofHandle (child.find? name)) (view.get position), view)
  | .write position value =>
    match view.elements.get position with
    | .error failure => (.failure failure, view)
    | .ok (.scalar old) =>
      (.value (.scalar old), { view with elements := List.set view.elements position value })
    | .ok _ => (.container, view)
  | .putIn position name value =>
    match view.elements.get position with
    | .error failure => (.failure failure, view)
    | .ok (.struct _ fields) =>
      let (old, changed) := Value.putResolved view.policy fields name value
      (.ofOption .value old, { view with elements := List.set view.elements position changed })
    | .ok _ => (.word "not a struct", view)
  | .push value => (.done, view.push value)
  | .pushView value => (.done, view.push (wrap view.policy value).rawValue)
  | .insert position value =>
    commit (fun _ => .done) view ((view.insert position value).map fun view => ((), view))
  | .set position value => commit .value view (view.set position value)
  | .setView position value =>
    commit .value view (view.set position (wrap view.policy value).rawValue)
  | .remove position => commit .value view (view.remove position)
  | .clear => (.done, view.clear)
  | .withPolicy policy => (.done, view.withPolicy policy)
  | .pick pattern => (.ofDraws .ofHandle (RowEnd.pick pattern view.children), view)
  | .children =>
    (.list (view.children.map fun child => .list [.ofTag child.tag, .flag child.isDecorated]), view)
  | .double => (.countdown view.size, view.mapElements Value.doubled)
  | .inspect => (.word (Readable.inspect (View.list view)).line, view)
  | .json => (.word (Json.text (View.list view)), view)

end ListCommand
end Caseless
