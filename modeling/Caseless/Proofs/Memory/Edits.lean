import Caseless.Record

/-!
# Edits of one struct

The operations on a struct fall into those that may change its list of names and those that write
values in place.  An operation of the first kind that goes through leaves the struct with the last
stamp that was handed out; any other leaves stamp and names as they were.

Main results:

- Definition `RecordEdit`: the operations, and `RecordEdit.apply`: what they do to a struct;
- Theorem `RecordEdit.all_apply`: the values of the struct afterwards were there or were given;
- Theorems `RecordEdit.apply_of_renames` and `RecordEdit.apply_of_not_renames`: what becomes of the
  stamp.
-/

namespace Caseless

variable {σ α β : Type}

/-! ## Versions -/

/-- A list of names under a stamp: what an index of a struct depends on. -/
structure Version (σ : Type) where
  stamp : σ
  names : List String
  deriving DecidableEq, Repr

/-- The stamp and the names of a record. -/
def Record.version (record : Record σ α) : Version σ :=
  ⟨record.stamp, record.names⟩

/-- Changing a value changes no version. -/
theorem Record.version_modify (stamp : σ) (fields : Fields α) (position : Nat) (f : α → α) :
    (Record.mk stamp (fields.modify position fun field => (field.1, f field.2))).version =
      (Record.mk stamp fields).version :=
  congrArg (Version.mk stamp) (Fields.names_modify fields position f)

/-! ## Operations -/

/-- The operations on a struct, with the values that they take in `β`. -/
inductive RecordEdit (β : Type) where
  | add (name : String) (value : β)
  | put (name : String) (value : β)
  | remove (name : String)
  | removeAt (position : Nat)
  | clear
  | extend (fields : List (String × β))
  /-- The value of the first field with a name is overwritten. -/
  | write (name : String) (value : β)
  /-- The value of the field at a position is overwritten. -/
  | writeAt (position : Nat) (value : β)
  /-- Fields are enumerated, and those at the given positions overwritten. -/
  | writeAll (values : List (Nat × β))

namespace RecordEdit

/-- The values that an operation takes. -/
def values : RecordEdit α → List α
  | .add _ value | .put _ value | .write _ value | .writeAt _ value => [value]
  | .remove _ | .removeAt _ | .clear => []
  | .extend fields => fields.map (·.2)
  | .writeAll values => values.map (·.2)

/-- The operation with the values that are found for what it takes, if all of them are found. -/
def resolve (find : β → Option α) : RecordEdit β → Option (RecordEdit α)
  | .add name source => (find source).map (.add name)
  | .put name source => (find source).map (.put name)
  | .remove name => some (.remove name)
  | .removeAt position => some (.removeAt position)
  | .clear => some .clear
  | .extend fields =>
    (fields.mapM fun field => (find field.2).map fun value => (field.1, value)).map .extend
  | .write name source => (find source).map (.write name)
  | .writeAt position source => (find source).map (.writeAt position)
  | .writeAll sources =>
    (sources.mapM fun write => (find write.2).map fun value => (write.1, value)).map .writeAll

/-- What an operation hands back, the struct after it, and the clock after it. -/
def apply (record : Record Stamp α) (clock : Clock) :
    RecordEdit α → Option α × Record Stamp α × Clock
  | .add name value => (none, record.add name value clock)
  | .put name value => record.put name value clock
  | .remove name => record.remove name clock
  | .removeAt position =>
    let (outcome, record, clock) := record.removeAt position clock
    (outcome.toOption.map (·.2), record, clock)
  | .clear => (none, record.clear clock)
  | .extend fields => (none, record.extend fields clock)
  | .write name value => (none, record.setFirst name value, clock)
  | .writeAt position value => (none, record.setAt position value, clock)
  | .writeAll values =>
    (none, values.foldl (fun record write => record.setAt write.1 write.2) record, clock)

/-- Whether an operation goes through that may change the list of names. -/
def renames (record : Record σ α) : RecordEdit β → Bool
  | .add .. | .put .. | .clear | .extend _ => true
  | .remove name => record.fields.contains name
  | .removeAt position => position < record.size
  | .write .. | .writeAt .. | .writeAll _ => false

end RecordEdit

/-! ## Where values come from -/

/-- Every value of fields has a property. -/
def Fields.All (P : α → Prop) (fields : Fields α) : Prop :=
  ∀ field ∈ fields, P field.2

namespace Fields

variable {P : α → Prop} {fields : Fields α}

theorem all_nil : All P [] := by
  intro field hmem
  contradiction

theorem all_cons {field : String × α} {rest : Fields α} :
    All P (field :: rest) ↔ P field.2 ∧ All P rest :=
  List.forall_mem_cons

theorem remove_cons (name other : String) (value : α) (rest : Fields α) :
    remove name ((other, value) :: rest) =
      if other = name then (some value, (remove name rest).2)
      else ((remove name rest).1, (other, value) :: (remove name rest).2) :=
  rfl

theorem All.append {fields' : Fields α} (h : fields.All P) (h' : fields'.All P) :
    All P (fields ++ fields') := by
  intro field hmem
  rcases List.mem_append.mp hmem with hmem | hmem
  · exact h field hmem
  · exact h' field hmem

theorem All.add (h : fields.All P) (name : String) {value : α} (hvalue : P value) :
    (fields.add name value).All P :=
  h.append (all_cons.mpr ⟨hvalue, all_nil⟩)

theorem All.removed (h : fields.All P) (name : String) :
    (fields.remove name).2.All P ∧ ∀ value, (fields.remove name).1 = some value → P value := by
  induction fields with
  | nil => exact ⟨all_nil, fun value hvalue => nomatch hvalue⟩
  | cons field rest ih =>
    rcases all_cons.mp h with ⟨hfield, hrest⟩
    rcases ih hrest with ⟨hkept, hremoved⟩
    rcases field with ⟨other, value⟩
    rw [remove_cons]
    by_cases hname : other = name
    · rw [if_pos hname]
      refine ⟨hkept, fun value' hvalue' => ?_⟩
      cases hvalue'
      exact hfield
    · rw [if_neg hname]
      exact ⟨all_cons.mpr ⟨hfield, hkept⟩, hremoved⟩

theorem All.setAt (h : fields.All P) (position : Nat) {value : α} (hvalue : P value) :
    (fields.setAt position value).All P := by
  unfold Fields.setAt
  induction fields generalizing position with
  | nil => simpa using h
  | cons field rest ih =>
    rcases all_cons.mp h with ⟨hfield, hrest⟩
    cases position with
    | zero => exact all_cons.mpr ⟨hvalue, hrest⟩
    | succ position => exact all_cons.mpr ⟨hfield, ih hrest position⟩

theorem All.setFirst (h : fields.All P) (name : String) {value : α} (hvalue : P value) :
    (fields.setFirst name value).All P := by
  unfold Fields.setFirst
  split
  · exact h.setAt _ hvalue
  · exact h

/-- Nothing is handed back exactly when no field had the name. -/
theorem remove_eq_none_iff {name : String} :
    (fields.remove name).1 = none ↔ fields.contains name = false := by
  induction fields with
  | nil => exact ⟨fun _ => rfl, fun _ => rfl⟩
  | cons field rest ih =>
    rcases field with ⟨other, value⟩
    rw [remove_cons]
    by_cases hname : other = name
    · simp [hname, contains]
    · rw [if_neg hname, ih]
      simp [hname, contains]

end Fields

/-- What stands in a list that was found piece by piece was found for one of the pieces. -/
theorem exists_of_mem_mapM {γ δ : Type} {f : γ → Option δ} {xs : List γ} {ys : List δ}
    (h : xs.mapM f = some ys) {y : δ} (hmem : y ∈ ys) : ∃ x ∈ xs, f x = some y := by
  induction xs generalizing ys with
  | nil =>
    cases h
    contradiction
  | cons x rest ih =>
    rw [List.mapM_cons] at h
    rcases Option.bind_eq_some_iff.mp h with ⟨head, hhead, h⟩
    rcases Option.bind_eq_some_iff.mp h with ⟨tail, htail, h⟩
    cases h
    rcases List.mem_cons.mp hmem with rfl | hmem
    · exact ⟨x, List.mem_cons_self, hhead⟩
    · rcases ih htail hmem with ⟨x', hx', hfound⟩
      exact ⟨x', List.mem_cons_of_mem _ hx', hfound⟩

namespace RecordEdit

variable {P : α → Prop} {record : Record Stamp α} {edit : RecordEdit α}

/-- Values that are found under labels are all found. -/
theorem exists_source_of_mapM {γ : Type} {find : β → Option α} {sources : List (γ × β)}
    {found : List (γ × α)}
    (h : (sources.mapM fun source => (find source.2).map fun value => (source.1, value)) =
      some found) {value : α} (hvalue : value ∈ found.map (·.2)) :
    ∃ source, find source = some value := by
  rcases List.mem_map.mp hvalue with ⟨pair, hpair, rfl⟩
  rcases exists_of_mem_mapM h hpair with ⟨source, -, hsource⟩
  rcases Option.map_eq_some_iff.mp hsource with ⟨value', hvalue', rfl⟩
  exact ⟨source.2, hvalue'⟩

/-- The operation takes only values that were found for it. -/
theorem exists_source_of_resolve {find : β → Option α} {source : RecordEdit β}
    (h : source.resolve find = some edit) {value : α} (hvalue : value ∈ edit.values) :
    ∃ b, find b = some value := by
  cases source with
  | add name b | put name b | write name b | writeAt name b =>
    rcases Option.map_eq_some_iff.mp h with ⟨found, hfound, rfl⟩
    rw [values, List.mem_singleton] at hvalue
    exact ⟨b, hvalue ▸ hfound⟩
  | remove name | removeAt position | clear =>
    cases h
    contradiction
  | extend fields | writeAll fields =>
    rcases Option.map_eq_some_iff.mp h with ⟨found, hfound, rfl⟩
    exact exists_source_of_mapM hfound hvalue

/-- Which values an operation takes does not decide whether it may change the names. -/
theorem renames_of_resolve {find : β → Option α} {source : RecordEdit β}
    (h : source.resolve find = some edit) : edit.renames record = source.renames record := by
  cases source with
  | remove name | removeAt position | clear =>
    cases h
    rfl
  | add | put | extend | write | writeAt | writeAll =>
    rcases Option.map_eq_some_iff.mp h with ⟨found, -, rfl⟩
    rfl

theorem all_remove (hrecord : record.fields.All P) (name : String) (clock : Clock) :
    (record.remove name clock).2.1.fields.All P ∧
      ∀ value, (record.remove name clock).1 = some value → P value := by
  rcases hrecord.removed name with ⟨hkept, hremoved⟩
  unfold Record.remove
  split
  · exact ⟨hrecord, fun value hvalue => nomatch hvalue⟩
  · rename_i heq
    rw [heq] at hkept hremoved
    exact ⟨hkept, hremoved⟩

/-- What an operation leaves in the struct or hands back was in the struct or was given to it. -/
theorem all_apply (clock : Clock) (hrecord : record.fields.All P)
    (hvalues : ∀ value ∈ edit.values, P value) :
    (edit.apply record clock).2.1.fields.All P ∧
      ∀ value, (edit.apply record clock).1 = some value → P value := by
  -- Only removals hand something back.
  have hnothing : ∀ value, (none : Option α) = some value → P value := fun _ h => nomatch h
  cases edit with
  | add name value => exact ⟨hrecord.add name (hvalues value List.mem_cons_self), hnothing⟩
  | put name value =>
    rcases all_remove hrecord name clock with ⟨hkept, hremoved⟩
    exact ⟨hkept.add name (hvalues value List.mem_cons_self), hremoved⟩
  | remove name => exact all_remove hrecord name clock
  | removeAt position =>
    simp only [apply, Record.removeAt, Fields.removeAt]
    cases hfield : record.fields[position]? with
    | none => exact ⟨hrecord, hnothing⟩
    | some field =>
      constructor
      · intro kept hkept
        exact hrecord kept (List.mem_of_mem_eraseIdx hkept)
      · intro value hvalue
        cases hvalue
        exact hrecord field (List.mem_of_getElem? hfield)
  | clear => exact ⟨Fields.all_nil, hnothing⟩
  | extend fields =>
    exact ⟨hrecord.append fun field hmem => hvalues _ (List.mem_map_of_mem hmem), hnothing⟩
  | write name value => exact ⟨hrecord.setFirst name (hvalues value List.mem_cons_self), hnothing⟩
  | writeAt position value =>
    exact ⟨hrecord.setAt position (hvalues value List.mem_cons_self), hnothing⟩
  | writeAll writes =>
    refine ⟨?_, hnothing⟩
    simp only [apply]
    induction writes generalizing record with
    | nil => exact hrecord
    | cons write rest ih =>
      have hwrite : P write.2 := hvalues _ List.mem_cons_self
      exact ih (hrecord.setAt write.1 hwrite) fun value hmem => hvalues value (.tail _ hmem)

end RecordEdit

/-! ## What becomes of the stamp -/

namespace RecordEdit

variable {record : Record Stamp α} {edit : RecordEdit α}

/-- Writing in place, however often, keeps the version. -/
theorem version_writeAll (record : Record σ α) (writes : List (Nat × α)) :
    (writes.foldl (fun record write => record.setAt write.1 write.2) record).version =
      record.version := by
  induction writes generalizing record with
  | nil => rfl
  | cons write rest ih =>
    rw [List.foldl_cons, ih, Record.version, Record.version, Record.setAt_names, Record.setAt_stamp]

theorem next_le_remove (record : Record Stamp α) (name : String) (clock : Clock) :
    clock.next ≤ (record.remove name clock).2.2.next := by
  unfold Record.remove
  split
  · exact Nat.le_refl _
  · exact Nat.le_succ _

/-- An operation that goes through and may change the names leaves the last stamp handed out. -/
theorem apply_of_renames (clock : Clock) (h : edit.renames record = true) :
    clock.next < (edit.apply record clock).2.2.next ∧
      (edit.apply record clock).2.1.stamp =
        ⟨.ofNat ((edit.apply record clock).2.2.next - 1)⟩ := by
  have hstamped : ∀ (fields : Fields α) (clock : Clock),
      clock.next < (Record.ofFields fields clock).2.next ∧ (Record.ofFields fields clock).1.stamp =
        ⟨.ofNat ((Record.ofFields fields clock).2.next - 1)⟩ := fun fields clock =>
    ⟨Nat.lt_succ_self _, rfl⟩
  cases edit with
  | add | clear | extend => exact hstamped _ clock
  | put name value =>
    rcases hstamped ((record.remove name clock).2.1.fields.add name value)
        (record.remove name clock).2.2 with
      ⟨hlt, hstamp⟩
    exact ⟨Nat.lt_of_le_of_lt (next_le_remove record name clock) hlt, hstamp⟩
  | remove name =>
    simp only [apply, Record.remove]
    split
    · rename_i hremoved
      have hnone : (record.fields.remove name).1 = none := by rw [hremoved]
      rw [Fields.remove_eq_none_iff] at hnone
      exact absurd (hnone.symm.trans h) Bool.false_ne_true
    · exact hstamped _ clock
  | removeAt position =>
    have hlt : position < record.fields.length := of_decide_eq_true h
    simp only [apply, Record.removeAt, Fields.removeAt, List.getElem?_eq_getElem hlt]
    exact hstamped _ clock
  | write | writeAt | writeAll => contradiction

/-- Any other operation, whether it writes in place or does not go through, keeps the version, and
takes no stamp. -/
theorem apply_of_not_renames (clock : Clock) (h : edit.renames record = false) :
    (edit.apply record clock).2.2 = clock ∧
      (edit.apply record clock).2.1.version = record.version := by
  cases edit with
  | add | put | clear | extend => contradiction
  | remove name =>
    have hnone : (record.fields.remove name).1 = none := Fields.remove_eq_none_iff.mpr h
    simp only [apply, Record.remove]
    split
    · exact ⟨rfl, rfl⟩
    · rename_i hremoved
      rw [hremoved] at hnone
      contradiction
  | removeAt position =>
    have hnot : ¬ position < record.fields.length := of_decide_eq_false h
    have hfailed : record.fields.removeAt position =
        .error (.indexOutOfRange position record.fields.length) := by
      rw [Fields.removeAt, List.getElem?_eq_none (Nat.le_of_not_lt hnot)]
    rw [apply, Record.removeAt, hfailed]
    exact ⟨rfl, rfl⟩
  | write name value =>
    refine ⟨rfl, ?_⟩
    rw [apply, Record.version, Record.version, Record.setFirst_names, Record.setFirst_stamp]
  | writeAt position value => exact ⟨rfl, version_writeAll record [(position, value)]⟩
  | writeAll writes => exact ⟨rfl, version_writeAll record writes⟩

end RecordEdit
end Caseless
