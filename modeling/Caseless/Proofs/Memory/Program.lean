import Caseless.Proofs.Memory.Edits
import Caseless.Value.Position

/-!
# Programs on structs

A program owns any number of values, with structs at any depth in them, and one clock that all
stamps come from.  It makes structs, copies them, moves and swaps them, overwrites them, edits their
fields, and writes through references to the values in them, in any order.

Main definitions:

- Definition `Memory`: the values that a program owns, and the clock;
- Definition `Instruction`: what a program does, and `Memory.exec`: one step of it;
- Definitions `Memory.run` and `Memory.moments`: the outcome of a program, and all that it passes.

Main results:

- Theorem `Memory.mem_moments_iff`: which memories a program passes;
- Theorem `Memory.record?_exec_edit`: an operation on a struct is seen where the struct is;
- Theorem `Memory.exists_record?_exec`: an instruction that does not write a struct or what it is in
  keeps the struct's stamp and names.
-/

namespace Caseless

variable {σ : Type}

/-! ## Structs as values -/

/-- A record as a value. -/
def Record.toValue (record : Record σ (Value σ)) : Value σ :=
  .struct record.stamp record.fields

/-- The record that a value is. -/
def Value.record? : Value σ → Option (Record σ (Value σ))
  | .struct stamp fields => some ⟨stamp, fields⟩
  | _ => none

@[simp]
theorem Value.record?_toValue (record : Record σ (Value σ)) :
    record.toValue.record? = some record :=
  rfl

theorem Value.eq_toValue_of_record? {value : Value σ} {record : Record σ (Value σ)}
    (h : value.record? = some record) : value = record.toValue := by
  cases value with
  | scalar payload => contradiction
  | seq kind elements => contradiction
  | struct stamp fields =>
    cases h
    rfl

/-! ## Memory -/

/-- Where a value is: in which variable, and at which list of child indices there. -/
structure Address where
  slot : Nat
  path : List Nat
  deriving DecidableEq, Repr

/-- The values that a program owns, and the clock that all stamps come from. -/
structure Memory where
  slots : List (Value Stamp)
  clock : Clock

namespace Memory

/-- The memory of a program that has done nothing yet. -/
def start : Memory :=
  ⟨[], .start⟩

/-- The value at an address. -/
def load (memory : Memory) (address : Address) : Option (Value Stamp) :=
  (memory.slots[address.slot]?).bind fun root => root.at? address.path

/-- The struct at an address. -/
def record? (memory : Memory) (address : Address) : Option (Record Stamp (Value Stamp)) :=
  (memory.load address).bind Value.record?

/-- Overwrites the value at an address. -/
def store (memory : Memory) (address : Address) (value : Value Stamp) : Memory :=
  { memory with
    slots := memory.slots.modify address.slot fun root =>
      root.modifyAt (fun _ => value) address.path }

/-- Puts a value in a new variable. -/
def declare (memory : Memory) (value : Value Stamp) : Memory :=
  { memory with slots := memory.slots ++ [value] }

end Memory

/-! ## Programs -/

/-- What a program does.  Values come from addresses, and are copied from there. -/
inductive Instruction where
  /-- A value without children in a new variable. -/
  | literal (payload : Scalar)
  /-- A sequence of copies in a new variable. -/
  | gather (kind : SeqKind) (sources : List Address)
  /-- A struct without fields, of whatever capacity, in a new variable. -/
  | create
  /-- A struct collected from copies in a new variable. -/
  | collect (fields : List (String × Address))
  /-- A copy in a new variable: structs in it keep their stamps. -/
  | clone (source : Address)
  | overwrite (target source : Address)
  /-- The value is moved to a new variable, and leaves a null. -/
  | take (target : Address)
  | swap (left right : Address)
  /-- An operation on the struct at an address.  What it hands back is in a new variable. -/
  | edit (target : Address) (edit : RecordEdit Address)

/-- The addresses that are written to. -/
def Instruction.targets : Instruction → List Address
  | .literal _ | .gather .. | .create | .collect _ | .clone _ => []
  | .overwrite target _ | .take target | .edit target _ => [target]
  | .swap left right => [left, right]

namespace Memory

/-- The memory with the outcome of an operation on the struct at an address. -/
def afterEdit (memory : Memory) (target : Address)
    (outcome : Option (Value Stamp) × Record Stamp (Value Stamp) × Clock) : Memory :=
  let stored := store { memory with clock := outcome.2.2 } target outcome.2.1.toValue
  match outcome.1 with
  | none => stored
  | some removed => stored.declare removed

/-- The memory after an instruction, if everything that the instruction names is there. -/
def exec? (memory : Memory) : Instruction → Option Memory
  | .literal payload => some (memory.declare (.scalar payload))
  | .gather kind sources => do
    let elements ← sources.mapM memory.load
    return memory.declare (.seq kind elements)
  | .create =>
    let (record, clock) := Record.empty memory.clock
    some (declare { memory with clock } record.toValue)
  | .collect sources => do
    let fields ← sources.mapM fun field =>
      (memory.load field.2).map fun value => (field.1, value)
    let (record, clock) := Record.ofFields fields memory.clock
    return declare { memory with clock } record.toValue
  | .clone source => do
    let value ← memory.load source
    return memory.declare value
  | .overwrite target source => do
    let value ← memory.load source
    return memory.store target value
  | .take target => do
    let value ← memory.load target
    return (memory.store target .null).declare value
  | .swap left right => do
    let value ← memory.load left
    let value' ← memory.load right
    return (memory.store left value').store right value
  | .edit target edit => do
    let record ← memory.record? target
    let edit ← edit.resolve memory.load
    return memory.afterEdit target (edit.apply record memory.clock)

/-- The memory after an instruction.  One that names a value that is not there does nothing. -/
def exec (memory : Memory) (instruction : Instruction) : Memory :=
  (memory.exec? instruction).getD memory

/-- The memory at the end of a program. -/
def run (memory : Memory) (program : List Instruction) : Memory :=
  program.foldl exec memory

/-- The memories that a program passes, the first and the last included. -/
def moments (memory : Memory) : List Instruction → List Memory
  | [] => [memory]
  | instruction :: rest => memory :: (memory.exec instruction).moments rest

@[simp]
theorem clock_afterEdit (memory : Memory) (target : Address)
    (outcome : Option (Value Stamp) × Record Stamp (Value Stamp) × Clock) :
    (memory.afterEdit target outcome).clock = outcome.2.2 := by
  unfold afterEdit
  split <;> rfl

@[simp]
theorem run_append (memory : Memory) (front back : List Instruction) :
    memory.run (front ++ back) = (memory.run front).run back :=
  List.foldl_append

/-- The moments of a program are what the programs that it begins with come to. -/
theorem mem_moments_iff {memory moment : Memory} {program : List Instruction} :
    moment ∈ memory.moments program ↔
      ∃ front back, program = front ++ back ∧ moment = memory.run front := by
  induction program generalizing memory with
  | nil =>
    constructor
    · intro h
      exact ⟨[], [], rfl, List.mem_singleton.mp h⟩
    · rintro ⟨front, back, hprogram, rfl⟩
      rcases List.append_eq_nil_iff.mp hprogram.symm with ⟨rfl, -⟩
      exact List.mem_singleton_self _
  | cons instruction rest ih =>
    constructor
    · intro h
      rcases List.mem_cons.mp h with rfl | h
      · exact ⟨[], instruction :: rest, rfl, rfl⟩
      · rcases ih.mp h with ⟨front, back, rfl, rfl⟩
        exact ⟨instruction :: front, back, rfl, rfl⟩
    · rintro ⟨front, back, hprogram, rfl⟩
      cases front with
      | nil => exact List.mem_cons_self
      | cons first front =>
        rcases List.cons.inj hprogram with ⟨rfl, hrest⟩
        exact List.mem_cons_of_mem _ (ih.mpr ⟨front, back, hrest, rfl⟩)

end Memory

/-! ## What a write reaches -/

/-- An address is above another when the value at the other is that value or a part of it. -/
def Address.Above (outer inner : Address) : Prop :=
  outer.slot = inner.slot ∧ outer.path <+: inner.path

/-- A struct that a change does not contain keeps its version. -/
theorem Value.exists_record?_modifyAt {value : Value σ} {position path : List Nat}
    {record : Record σ (Value σ)} (hrecord : (value.at? path).bind record? = some record)
    (hoff : ¬ position <+: path) (f : Value σ → Value σ) :
    ∃ record', ((value.modifyAt f position).at? path).bind record? = some record' ∧
      record'.version = record.version := by
  induction position generalizing value path with
  | nil => exact absurd List.nil_prefix hoff
  | cons index rest ih =>
    cases path with
    | nil =>
      rcases eq_toValue_of_record? hrecord with rfl
      exact ⟨⟨record.stamp, _⟩, rfl,
        Record.version_modify record.stamp record.fields index fun child => child.modifyAt f rest⟩
    | cons other more =>
      rw [at?_cons] at hrecord
      by_cases hsame : index = other
      · subst hsame
        have hbelow : ¬ rest <+: more := fun h => hoff (List.cons_prefix_cons.mpr ⟨rfl, h⟩)
        simp only [modifyAt, at?_cons, child?_modifyChild]
        cases hchild : value.child? index with
        | none =>
          rw [hchild] at hrecord
          contradiction
        | some child =>
          rw [hchild] at hrecord
          exact ih hrecord hbelow
      · refine ⟨record, ?_, rfl⟩
        rw [modifyAt, at?_cons, child?_modifyChild_of_ne _ _ hsame]
        exact hrecord

namespace Memory

variable {memory : Memory} {address : Address}

theorem record?_eq_some_iff {record : Record Stamp (Value Stamp)} :
    memory.record? address = some record ↔ memory.load address = some record.toValue := by
  constructor
  · intro h
    rcases Option.bind_eq_some_iff.mp h with ⟨value, hload, hvalue⟩
    rw [hload, Value.eq_toValue_of_record? hvalue]
  · intro h
    rw [record?, h]
    rfl

/-- A new variable changes no value that is there. -/
theorem load_declare {value : Value Stamp} (hload : memory.load address = some value)
    (new : Value Stamp) : (memory.declare new).load address = some value := by
  rcases Option.bind_eq_some_iff.mp hload with ⟨root, hroot, hvalue⟩
  have hlt := (List.getElem?_eq_some_iff.mp hroot).1
  rw [load, declare, List.getElem?_append_left hlt, hroot]
  exact hvalue

theorem record?_declare {record : Record Stamp (Value Stamp)}
    (hrecord : memory.record? address = some record) (new : Value Stamp) :
    (memory.declare new).record? address = some record :=
  record?_eq_some_iff.mpr (load_declare (record?_eq_some_iff.mp hrecord) new)

/-- A value that is stored is found where it was stored. -/
theorem load_store_self {old : Value Stamp} (hload : memory.load address = some old)
    (value : Value Stamp) : (memory.store address value).load address = some value := by
  rcases Option.bind_eq_some_iff.mp hload with ⟨root, hroot, hold⟩
  simp [load, store, hroot, Value.at?_modifyAt, hold]

/-- A struct that was not stored over, as a whole or with what it is in, keeps its version. -/
theorem exists_record?_store {target : Address} {record : Record Stamp (Value Stamp)}
    (hrecord : memory.record? address = some record) (hoff : ¬ target.Above address)
    (value : Value Stamp) : ∃ record', (memory.store target value).record? address = some record' ∧
      record'.version = record.version := by
  rcases Option.bind_eq_some_iff.mp (record?_eq_some_iff.mp hrecord) with ⟨root, hroot, hpath⟩
  by_cases hslot : target.slot = address.slot
  · have hbelow : ¬ target.path <+: address.path := fun h => hoff ⟨hslot, h⟩
    have hat : (root.at? address.path).bind Value.record? = some record := by
      rw [hpath]
      rfl
    rcases Value.exists_record?_modifyAt hat hbelow fun _ => value with
      ⟨record', hrecord', hversion⟩
    refine ⟨record', ?_, hversion⟩
    rw [record?, load, store, hslot, List.getElem?_modify_eq, hroot]
    exact hrecord'
  · refine ⟨record, ?_, rfl⟩
    have hsame : (memory.store target value).load address = memory.load address := by
      rw [load, load, store, List.getElem?_modify_ne _ _ hslot]
    rw [record?, hsame]
    exact hrecord

section Edit

variable {record : Record Stamp (Value Stamp)} {edit : RecordEdit Address}
  {edit' : RecordEdit (Value Stamp)}

theorem exec_edit (hrecord : memory.record? address = some record)
    (hresolve : edit.resolve memory.load = some edit') :
    memory.exec (.edit address edit) =
      memory.afterEdit address (edit'.apply record memory.clock) := by
  rw [exec, exec?, hrecord, Option.bind_eq_bind, Option.bind_some, hresolve]
  rfl

theorem clock_exec_edit (hrecord : memory.record? address = some record)
    (hresolve : edit.resolve memory.load = some edit') :
    (memory.exec (.edit address edit)).clock = (edit'.apply record memory.clock).2.2 := by
  rw [exec_edit hrecord hresolve, clock_afterEdit]

/-- An operation on a struct leaves there the struct that the operation makes of it. -/
theorem record?_exec_edit (hrecord : memory.record? address = some record)
    (hresolve : edit.resolve memory.load = some edit') :
    (memory.exec (.edit address edit)).record? address =
      some (edit'.apply record memory.clock).2.1 := by
  have hstored : ({ memory with clock := (edit'.apply record memory.clock).2.2 }.store address
      (edit'.apply record memory.clock).2.1.toValue).record? address =
        some (edit'.apply record memory.clock).2.1 :=
    record?_eq_some_iff.mpr (load_store_self (record?_eq_some_iff.mp hrecord) _)
  rw [exec_edit hrecord hresolve, afterEdit]
  split
  · exact hstored
  · exact record?_declare hstored _

end Edit

/-- An instruction that writes neither a struct nor what it is in keeps the struct's version. -/
theorem exists_record?_exec {instruction : Instruction} {record : Record Stamp (Value Stamp)}
    (hrecord : memory.record? address = some record)
    (hoff : ∀ target ∈ instruction.targets, ¬ target.Above address) :
    ∃ record', (memory.exec instruction).record? address = some record' ∧
      record'.version = record.version := by
  unfold exec
  cases hexec : memory.exec? instruction with
  | none => exact ⟨record, hrecord, rfl⟩
  | some next =>
    cases instruction with
    | literal | create =>
      cases hexec
      exact ⟨record, record?_declare hrecord _, rfl⟩
    | gather | collect | clone =>
      rcases Option.bind_eq_some_iff.mp hexec with ⟨found, -, h⟩
      cases h
      exact ⟨record, record?_declare hrecord _, rfl⟩
    | overwrite target source =>
      rcases Option.bind_eq_some_iff.mp hexec with ⟨value, -, h⟩
      cases h
      exact exists_record?_store hrecord (hoff target List.mem_cons_self) value
    | take target =>
      rcases Option.bind_eq_some_iff.mp hexec with ⟨value, -, h⟩
      cases h
      rcases exists_record?_store hrecord (hoff target List.mem_cons_self) .null with
        ⟨record', hrecord', hversion⟩
      exact ⟨record', record?_declare hrecord' value, hversion⟩
    | swap left right =>
      rcases Option.bind_eq_some_iff.mp hexec with ⟨value, -, h⟩
      rcases Option.bind_eq_some_iff.mp h with ⟨value', -, h⟩
      cases h
      rcases exists_record?_store hrecord (hoff left List.mem_cons_self) value' with
        ⟨record₁, hrecord₁, hversion₁⟩
      rcases exists_record?_store hrecord₁ (hoff right (.tail _ List.mem_cons_self)) value with
        ⟨record₂, hrecord₂, hversion₂⟩
      exact ⟨record₂, hrecord₂, hversion₂.trans hversion₁⟩
    | edit target edit =>
      rcases Option.bind_eq_some_iff.mp hexec with ⟨other, -, h⟩
      rcases Option.bind_eq_some_iff.mp h with ⟨edit', -, h⟩
      cases h
      -- Taking stamps from the clock moves no struct.
      let ticked : Memory := { memory with clock := (edit'.apply other memory.clock).2.2 }
      have hticked : ticked.record? address = some record := hrecord
      rcases exists_record?_store hticked (hoff target List.mem_cons_self)
          (edit'.apply other memory.clock).2.1.toValue with
        ⟨record', hrecord', hversion⟩
      refine ⟨record', ?_, hversion⟩
      rw [Option.getD_some, afterEdit]
      split
      · exact hrecord'
      · exact record?_declare hrecord' _

end Memory
end Caseless
