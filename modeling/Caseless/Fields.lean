import Caseless.Error

/-!
# Fields

The fields of a struct form an ordered multimap: a list of named values, where names may repeat and
the order of arrival is kept.  Every operation here takes names as they are spelled.

Main definitions: `get?`, `getAll`, `valuesAt`, `contains`, `add`, `put`, `remove`, `removeAt`,
`setFirst`.

Main results: what each editing operation does to the list of names (`names_add`, `names_setFirst`,
`names_setAt`).
-/

namespace Caseless

/-- Named values in order of arrival. -/
abbrev Fields (α : Type) := List (String × α)

namespace Fields

variable {α : Type}

/-- The names in order, repetitions included. -/
def names (fields : Fields α) : List String :=
  fields.map (·.1)

/-! ### Reading -/

/-- The value of the first field spelled `name`. -/
def get? (name : String) : Fields α → Option α
  | [] => none
  | (field, value) :: rest => if field = name then some value else get? name rest

/-- The position of the first field spelled `name`. -/
def position? (name : String) (fields : Fields α) : Option Nat :=
  fields.findIdx? fun field => field.1 == name

/-- The values of all fields spelled `name`, in order. -/
def getAll (name : String) (fields : Fields α) : List α :=
  fields.filterMap fun field => if field.1 = name then some field.2 else none

/-- The values at positions in turn, up to the first position that has no field. -/
def valuesAt (fields : Fields α) : List Nat → List α
  | [] => []
  | position :: rest =>
    match fields[position]? with
    | some field => field.2 :: valuesAt fields rest
    | none => []

/-- Whether some field is spelled `name`. -/
def contains (name : String) (fields : Fields α) : Bool :=
  fields.any fun field => field.1 == name

/-! ### Changing the set of names -/

/-- Appends a field, even beside others of its name. -/
def add (fields : Fields α) (name : String) (value : α) : Fields α :=
  fields ++ [(name, value)]

/-- Takes out every field spelled `name`; the first value taken out is handed back. -/
def remove (name : String) : Fields α → Option α × Fields α
  | [] => (none, [])
  | (field, value) :: rest =>
    let (removed, kept) := remove name rest
    if field = name then (some value, kept) else (removed, (field, value) :: kept)

/-- Replaces every field spelled `name` by a single one at the end; the first value replaced is
handed back. -/
def put (fields : Fields α) (name : String) (value : α) : Option α × Fields α :=
  let (removed, kept) := fields.remove name
  (removed, kept.add name value)

/-- Takes out the field at a position. -/
def removeAt (fields : Fields α) (position : Nat) : Except Error ((String × α) × Fields α) :=
  match fields[position]? with
  | some field => .ok (field, fields.eraseIdx position)
  | none => .error (.indexOutOfRange position fields.length)

/-! ### Writing values in place -/

/-- Overwrites the value of the field at a position. -/
def setAt (fields : Fields α) (position : Nat) (value : α) : Fields α :=
  fields.modify position fun field => (field.1, value)

/-- Overwrites the value of the first field spelled `name`. -/
def setFirst (fields : Fields α) (name : String) (value : α) : Fields α :=
  match fields.position? name with
  | some position => fields.setAt position value
  | none => fields

/-! ### What the operations do to the names -/

@[simp]
theorem names_nil : names ([] : Fields α) = [] :=
  rfl

@[simp]
theorem names_cons (field : String × α) (rest : Fields α) :
    names (field :: rest) = field.1 :: names rest :=
  rfl

@[simp]
theorem names_add (fields : Fields α) (name : String) (value : α) :
    (fields.add name value).names = fields.names ++ [name] := by
  simp [add, names]

/-- Changing a value changes no name. -/
@[simp]
theorem names_modify (fields : Fields α) (position : Nat) (f : α → α) :
    names (fields.modify position fun field => (field.1, f field.2)) = fields.names := by
  unfold names
  induction fields generalizing position with
  | nil => simp
  | cons field rest ih =>
    cases position with
    | zero => rfl
    | succ position => simpa using ih position

@[simp]
theorem names_setAt (fields : Fields α) (position : Nat) (value : α) :
    (fields.setAt position value).names = fields.names :=
  names_modify fields position fun _ => value

@[simp]
theorem names_setFirst (fields : Fields α) (name : String) (value : α) :
    (fields.setFirst name value).names = fields.names := by
  unfold setFirst
  split
  · exact names_setAt ..
  · rfl

end Fields
end Caseless
