import Caseless.Readable

/-!
# Call trees

When a value is written out, it makes a tree of calls on whatever writes it: one call for a scalar,
and for a container a call that announces the number of children, followed by the calls of each
child.  Nulls of any kind make the same call; a decimal is written as its text.

Main definitions:

- `Call`: the call of a scalar;
- `CallTree`: the calls of any value;
- `Readable.calls`: the calls that a handle makes;
- `Serializer`: what takes the calls one by one, and may fail at any of them;
- `Readable.emit`, and `emit` for elements, fields and views of containers: writing to a serializer.

Main result: `Readable.calls_wrap`, a view makes the calls of its value.
-/

namespace Caseless

open Name

/-- A call that writes a scalar. -/
inductive Call where
  | none
  | bool (b : Bool)
  | int (n : Int64)
  | float (x : Float)
  | text (s : String)
  | bytes (payload : ByteArray)

/-- The calls that write one value. -/
inductive CallTree where
  | leaf (call : Call)
  /-- A sequence, with the announced number of elements. -/
  | seq (announced : Nat) (elements : List CallTree)
  /-- A map from text, with the announced number of entries. -/
  | map (announced : Nat) (entries : List (String × CallTree))

/-- The call of a scalar. -/
def Scalar.call : Scalar → Call
  | .null _ => .none
  | .bool b => .bool b
  | .int n => .int n
  | .float x => .float x
  | .decimal d => .text d.text
  | .timestamp s | .symbol s | .string s => .text s
  | .clob payload | .blob payload => .bytes payload

/-- The calls of a node from those of its children. -/
def Node.calls : Node CallTree → CallTree
  | .scalar payload => .leaf payload.call
  | .seq _ elements => .seq elements.length elements
  | .struct fields => .map fields.length fields

/-- The calls that a handle makes. -/
def Readable.calls {α : Type} [Readable α] (handle : α) : CallTree :=
  fold Node.calls handle

theorem Readable.calls_eq {α : Type} [Readable α] (handle : α) :
    calls handle = Node.calls ((visit handle).map calls) :=
  fold_eq ..

theorem Readable.calls_wrap {σ : Type} [DecidableEq σ] (policy : Policy) (value : Value σ) :
    calls (wrap policy value) = calls value :=
  fold_wrap ..

/-! ### Calls one by one -/

/-- What a serializer does at each call.  An element, or the value of an entry, is handed over as
what it takes to write it: the serializer has it written when it asks for it.  What it remembers
from one call to the next is in the state of `m`. -/
structure Serializer (m : Type → Type) where
  scalar : Call → m Unit
  seqStart : (announced : Nat) → m Unit
  element : (value : m Unit) → m Unit
  seqEnd : m Unit
  mapStart : (announced : Nat) → m Unit
  entry : (name : String) → (value : m Unit) → m Unit
  mapEnd : m Unit

section

variable {m : Type → Type} [Monad m]

/-- Writes a sequence: its announced length, the elements one by one, and the end.  If the
serializer fails, nothing more is asked of it. -/
def Serializer.seq (serializer : Serializer m) (announced : Nat) (elements : List (m Unit)) :
    m Unit := do
  serializer.seqStart announced
  elements.forM serializer.element
  serializer.seqEnd

/-- Writes a map: its announced length, the entries one by one, and the end. -/
def Serializer.map (serializer : Serializer m) (announced : Nat)
    (entries : List (String × m Unit)) : m Unit := do
  serializer.mapStart announced
  entries.forM fun entry => serializer.entry entry.1 entry.2
  serializer.mapEnd

/-- Writes a node whose children are given as what it takes to write them. -/
def Node.emit (serializer : Serializer m) : Node (m Unit) → m Unit
  | .scalar payload => serializer.scalar payload.call
  | .seq _ elements => serializer.seq elements.length elements
  | .struct fields => serializer.map fields.length fields

/-- Writes what a handle reads. -/
def Readable.emit {α : Type} [Readable α] (serializer : Serializer m) (handle : α) : m Unit :=
  fold (Node.emit serializer) handle

/-- Writes the elements of a sequence as a sequence of their own. -/
def Elements.emit {α : Type} [Readable α] (serializer : Serializer m) (elements : Elements α) :
    m Unit :=
  serializer.seq elements.length (elements.map (Readable.emit serializer))

/-- Writes the fields of a struct as a map of their own. -/
def Fields.emit {α : Type} [Readable α] (serializer : Serializer m) (fields : Fields α) : m Unit :=
  serializer.map fields.length
    (fields.map fun field => (field.1, Readable.emit serializer field.2))

variable {σ : Type} [DecidableEq σ]

/-- Writes the elements that a list view hands out. -/
def ListView.emit (serializer : Serializer m) (view : ListView σ) : m Unit :=
  serializer.seq view.size (view.children.map (Readable.emit serializer))

/-- Writes the fields that a struct view hands out. -/
def StructView.emit (serializer : Serializer m) (view : StructView σ) : m Unit :=
  serializer.map view.size
    (view.entries.map fun entry => (entry.1, Readable.emit serializer entry.2))

/-- Writes what an exclusive view reads: a shared view of the same value is written. -/
def View.emitExclusive (serializer : Serializer m) (view : View σ) : m Unit :=
  Readable.emit serializer view.fork

end

end Caseless
