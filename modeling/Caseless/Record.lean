import Caseless.Fields

/-!
# Stamped records

A record is a struct's fields together with a stamp.  A new stamp is taken from a clock whenever the
set of names may have changed.  A stamp has 64 bits; until that many numbers are used up, a clock
never gives the same stamp twice, so two records with one stamp have the same names in the same
order.  Writing a value in place keeps the stamp.

Main definitions:

- `Clock.tick`: the next stamp;
- `Record`: fields under a stamp of any type;
- `Record.add`, `put`, `remove`, `removeAt`, `clear`, `extend`: the operations that take stamps;
- `Record.setAt`, `setFirst`, `mapValues`: the operations that keep the stamp.
-/

namespace Caseless

/-- The mark of a version: a number of 64 bits.  A later version has a greater number, until the
numbers are used up. -/
structure Stamp where
  number : UInt64
  deriving DecidableEq, Repr

/-- The source of stamps: every number at or above `next` is unused. -/
structure Clock where
  next : Nat
  deriving DecidableEq, Repr

/-- Hands out the next stamp.  When the numbers of 64 bits are used up, they start over. -/
def Clock.tick (clock : Clock) : Stamp × Clock :=
  (⟨.ofNat clock.next⟩, ⟨clock.next + 1⟩)

/-- How many stamps have been handed out. -/
def Clock.taken (clock : Clock) : Nat :=
  clock.next - 1

/-- The clock that has handed out no stamp. -/
def Clock.start : Clock :=
  ⟨1⟩

/-- Fields of values in `α` under a stamp in `σ`. -/
structure Record (σ α : Type) where
  stamp : σ
  fields : Fields α

namespace Record

variable {σ α : Type}

/-- The names in order. -/
def names (record : Record σ α) : List String :=
  record.fields.names

/-- The number of fields. -/
def size (record : Record σ α) : Nat :=
  record.fields.length

/-! ### Operations that keep the stamp -/

/-- Overwrites the value of the field at a position. -/
def setAt (record : Record σ α) (position : Nat) (value : α) : Record σ α :=
  { record with fields := record.fields.setAt position value }

/-- Overwrites the value of the first field spelled `name`. -/
def setFirst (record : Record σ α) (name : String) (value : α) : Record σ α :=
  { record with fields := record.fields.setFirst name value }

/-- Replaces every value by a function of it. -/
def mapValues (f : α → α) (record : Record σ α) : Record σ α :=
  { record with fields := record.fields.map fun field => (field.1, f field.2) }

/-! ### Operations that take a stamp -/

/-- A record of given fields, under a stamp of its own. -/
def ofFields (fields : Fields α) (clock : Clock) : Record Stamp α × Clock :=
  let (stamp, clock) := clock.tick
  (⟨stamp, fields⟩, clock)

/-- A record without fields, under a stamp of its own. -/
def empty (clock : Clock) : Record Stamp α × Clock :=
  ofFields [] clock

/-- The same fields under a new stamp. -/
def touch (record : Record Stamp α) (clock : Clock) : Record Stamp α × Clock :=
  ofFields record.fields clock

/-- Appends a field. -/
def add (record : Record Stamp α) (name : String) (value : α) (clock : Clock) :
    Record Stamp α × Clock :=
  ofFields (record.fields.add name value) clock

/-- Appends fields, and takes a stamp even for none. -/
def extend (record : Record Stamp α) (fields : Fields α) (clock : Clock) :
    Record Stamp α × Clock :=
  ofFields (record.fields ++ fields) clock

/-- Takes out every field. -/
def clear (_record : Record Stamp α) (clock : Clock) : Record Stamp α × Clock :=
  ofFields [] clock

/-- Takes out every field spelled `name`.  A stamp is taken only if there was one. -/
def remove (record : Record Stamp α) (name : String) (clock : Clock) :
    Option α × Record Stamp α × Clock :=
  match record.fields.remove name with
  | (none, _) => (none, record, clock)
  | (some removed, kept) => (some removed, ofFields kept clock)

/-- Replaces every field spelled `name` by one at the end: a removal and an addition, each with its
own stamp. -/
def put (record : Record Stamp α) (name : String) (value : α) (clock : Clock) :
    Option α × Record Stamp α × Clock :=
  let (removed, record, clock) := record.remove name clock
  (removed, record.add name value clock)

/-- Takes out the field at a position.  A bad position takes no stamp. -/
def removeAt (record : Record Stamp α) (position : Nat) (clock : Clock) :
    Except Error (String × α) × Record Stamp α × Clock :=
  match record.fields.removeAt position with
  | .error failure => (.error failure, record, clock)
  | .ok (field, kept) => (.ok field, ofFields kept clock)

/-! ### What writing in place keeps -/

@[simp]
theorem setAt_stamp (record : Record σ α) (position : Nat) (value : α) :
    (record.setAt position value).stamp = record.stamp :=
  rfl

@[simp]
theorem setAt_names (record : Record σ α) (position : Nat) (value : α) :
    (record.setAt position value).names = record.names :=
  Fields.names_setAt ..

@[simp]
theorem setFirst_stamp (record : Record σ α) (name : String) (value : α) :
    (record.setFirst name value).stamp = record.stamp :=
  rfl

@[simp]
theorem setFirst_names (record : Record σ α) (name : String) (value : α) :
    (record.setFirst name value).names = record.names :=
  Fields.names_setFirst ..

@[simp]
theorem mapValues_stamp (f : α → α) (record : Record σ α) :
    (record.mapValues f).stamp = record.stamp :=
  rfl

@[simp]
theorem mapValues_names (f : α → α) (record : Record σ α) :
    (record.mapValues f).names = record.names := by
  simp [mapValues, names, Fields.names]

/-! ### What a stamp is taken for -/

@[simp]
theorem ofFields_stamp (fields : Fields α) (clock : Clock) :
    (ofFields fields clock).1.stamp = ⟨.ofNat clock.next⟩ :=
  rfl

@[simp]
theorem ofFields_clock (fields : Fields α) (clock : Clock) :
    (ofFields fields clock).2.next = clock.next + 1 :=
  rfl

@[simp]
theorem ofFields_names (fields : Fields α) (clock : Clock) :
    (ofFields fields clock).1.names = fields.names :=
  rfl

end Record
end Caseless
