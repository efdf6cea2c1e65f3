import Caseless.Inspect
import Caseless.Json.Writer
import Caseless.Session.Answer
import Caseless.Session.Pick
import Caseless.View.Edit

/-!
# Sessions on elements

A plain sequence is edited by position.  Commands that fail leave it as it is.
-/

namespace Caseless

/-- A command on the elements of a plain list. -/
inductive ElementsCommand where
  /-- How many elements there are, and whether there are none. -/
  | size
  | get (position : Nat)
  /-- Overwrites an element where it stands. -/
  | write (position : Nat) (value : Value)
  | push (value : Value)
  | insert (position : Nat) (value : Value)
  | set (position : Nat) (value : Value)
  | remove (position : Nat)
  | clear
  | extend (values : List Value)
  | pick (pattern : List RowEnd)
  | double
  | reverse
  /-- Reads every element. -/
  | all
  /-- Whether the elements equal the given ones. -/
  | equals (values : List Value)
  | json

namespace ElementsCommand

/-- Writes back what an operation makes of the elements; a failure changes nothing. -/
def commit {α : Type} (answer : α → Answer) (elements : Elements Value) :
    Except Error (α × Elements Value) → Answer × Elements Value
  | .ok (result, elements) => (answer result, elements)
  | .error failure => (.failure failure, elements)

/-- The answer to a command, and the elements after it. -/
def step (elements : Elements Value) : ElementsCommand → Answer × Elements Value
  | .size =>
    (.list [.count elements.length, .flag elements.isEmpty, .count elements.length], elements)
  | .get position => (.ofOption .value elements[position]?, elements)
  | .write position value =>
    (.ofOption .value elements[position]?, List.set elements position value)
  | .push value => (.done, elements ++ [value])
  | .insert position value =>
    commit (fun _ => .done) elements
      ((elements.insert position value).map fun elements => ((), elements))
  | .set position value => commit .value elements (Elements.set elements position value)
  | .remove position => commit .value elements (elements.remove position)
  | .clear => (.done, [])
  | .extend values => (.done, elements ++ values)
  | .pick pattern => (.ofDraws .value (RowEnd.pick pattern elements), elements)
  | .double => (.done, elements.map Value.doubled)
  | .reverse => (.done, elements.reverse)
  | .all => (.list (elements.map .value), elements)
  | .equals values => (.flag (Value.eqElements (· == ·) elements values), elements)
  | .json => (.word (Json.text ((.seq .list elements : Value))), elements)

end ElementsCommand
end Caseless
