import Caseless.Value.Stamped
import Caseless.View

/-!
# Editing through views

An exclusive view is also written through.  What is stored is always a plain value, and names are
taken as they are spelled: to change the field that a lookup finds, its name is resolved first.
Every change to the set of names, and every access to the struct behind the view, forgets the name
table; writing a value in place keeps it.

Main definitions:

- `Value.doubled`: the change of a value that edits in bulk apply;
- `ListView.push`, `insert`, `set`, `remove`, `clear`;
- `StructView.rework`, and the edits `add`, `put`, `remove`, `clear` that are cases of it;
- `StructView.writeAt`, `StructView.writeThrough`, `StructView.mapValues`: writing in place.
-/

namespace Caseless

open Name

/-- A value with its integer doubled, with wrap-around; other values as they are. -/
def Value.doubled {σ : Type} : Value σ → Value σ
  | .scalar (.int n) => .scalar (.int (n + n))
  | value => value

/-! ### Sequences -/

namespace ListView

variable {σ : Type}

/-- Appends a value. -/
def push (view : ListView σ) (value : Value σ) : ListView σ :=
  { view with elements := view.elements ++ [value] }

/-- Inserts a value at a position; the position just past the end appends. -/
def insert (view : ListView σ) (position : Nat) (value : Value σ) : Except Error (ListView σ) :=
  (view.elements.insert position value).map fun elements => { view with elements }

/-- Replaces the element at a position and hands back the old one. -/
def set (view : ListView σ) (position : Nat) (value : Value σ) :
    Except Error (Value σ × ListView σ) :=
  (view.elements.set position value).map fun (old, elements) => (old, { view with elements })

/-- Takes out the element at a position. -/
def remove (view : ListView σ) (position : Nat) : Except Error (Value σ × ListView σ) :=
  (view.elements.remove position).map fun (old, elements) => (old, { view with elements })

/-- Takes out every element. -/
def clear (view : ListView σ) : ListView σ :=
  { view with elements := [] }

/-- Applies a function to every element. -/
def mapElements (view : ListView σ) (f : Value σ → Value σ) : ListView σ :=
  { view with elements := view.elements.map f }

end ListView

/-! ### Structs -/

namespace StructView

variable {σ β : Type}

/-- Hands the struct behind the view to a change, and forgets the table whatever the change does. -/
def rework (view : StructView σ) (change : Record σ (Value σ) → β × Record σ (Value σ) × Clock) :
    β × StructView σ × Clock :=
  let (answer, record, clock) := change view.record
  (answer, ⟨record, view.index.invalidate⟩, clock)

/-- Overwrites the value of the field at a position; the table is kept. -/
def writeAt (view : StructView σ) (position : Nat) (value : Value σ) : StructView σ :=
  { view with record := view.record.setAt position value }

/-- Changes the value of the field that a name resolves to.  The name is looked up first, and the
table of that lookup is kept; if no field matches, nothing is written. -/
def writeThrough [DecidableEq σ] (view : StructView σ) (name : String)
    (change : Value σ → Value σ) : StructView σ :=
  match view.position? name with
  | none => view.warm
  | some position =>
    match view.record.fields[position]? with
    | some field => view.warm.writeAt position (change field.2)
    | none => view.warm

/-- Applies a function to the value of every field; the table is kept. -/
def mapValues (view : StructView σ) (f : Value σ → Value σ) : StructView σ :=
  { view with record := view.record.mapValues f }

/-- Appends a field under the name as it is spelled. -/
def add (view : StructView Stamp) (name : String) (value : Value Stamp) (clock : Clock) :
    StructView Stamp × Clock :=
  (view.rework fun record => ((), record.add name value clock)).2

/-- Replaces the fields with this very name by one at the end. -/
def put (view : StructView Stamp) (name : String) (value : Value Stamp) (clock : Clock) :
    Option (Value Stamp) × StructView Stamp × Clock :=
  view.rework fun record => record.put name value clock

/-- Takes out the fields with this very name. -/
def remove (view : StructView Stamp) (name : String) (clock : Clock) :
    Option (Value Stamp) × StructView Stamp × Clock :=
  view.rework fun record => record.remove name clock

/-- Takes out every field. -/
def clear (view : StructView Stamp) (clock : Clock) : StructView Stamp × Clock :=
  (view.rework fun record => ((), record.clear clock)).2

/-! ### What edits do to the table -/

@[simp]
theorem isFresh_rework [DecidableEq σ] (view : StructView σ)
    (change : Record σ (Value σ) → β × Record σ (Value σ) × Clock) :
    (view.rework change).2.1.isFresh = false :=
  rfl

@[simp]
theorem isFresh_writeAt [DecidableEq σ] (view : StructView σ) (position : Nat) (value : Value σ) :
    (view.writeAt position value).isFresh = view.isFresh :=
  rfl

@[simp]
theorem isFresh_mapValues [DecidableEq σ] (view : StructView σ) (f : Value σ → Value σ) :
    (view.mapValues f).isFresh = view.isFresh :=
  rfl

end StructView
end Caseless
