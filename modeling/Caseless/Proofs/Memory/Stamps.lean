import Caseless.Proofs.Memory.Program

/-!
# Stamps tell versions apart

A copy of a struct has the stamp of the original, and from then on both are changed, moved, swapped
and overwritten independently.  Still, as long as the stamps of 64 bits are not used up, two structs
that ever have one stamp have one list of names: whatever may change the names of a struct takes a
stamp that was never handed out before, and takes it last.

The invariant is about the past as well as the present.  It says of all versions seen so far that
their stamps have been handed out and that equal stamps come with equal names.  An instruction adds
at most one version to those that are there, and that one has the last stamp handed out.

Main results:

- Definition `Value.Within`: the versions in a value have a property;
- Theorem `Memory.advances_exec`: what versions an instruction leaves;
- Definition `Memory.Chronicle`: the invariant, and `Memory.Chronicle.exists_run`: all runs keep it;
- Theorem `Memory.soundStamps_of_taken_lt`: what stamps say about structs, at any two moments of a
  program.
-/

namespace Caseless

variable {σ : Type}

/-! ## The versions in a value -/

/-- Every struct in a value has a version with a property. -/
def Value.Within (P : Version σ → Prop) (value : Value σ) : Prop :=
  ∀ path record, (value.at? path).bind Value.record? = some record → P record.version

namespace Value

variable {P : Version σ → Prop} {value : Value σ}

/-- The versions in a value are its own, if it is a struct, and those in its children. -/
theorem within_iff_child? :
    value.Within P ↔ (∀ record, value.record? = some record → P record.version) ∧
      ∀ index child, value.child? index = some child → child.Within P := by
  constructor
  · intro h
    refine ⟨fun record hrecord => h [] record hrecord, fun index child hchild path record hat => ?_⟩
    refine h (index :: path) record ?_
    rw [at?_cons, hchild]
    exact hat
  · rintro ⟨hown, hchildren⟩ path record hat
    cases path with
    | nil => exact hown record hat
    | cons index path =>
      rw [at?_cons] at hat
      cases hchild : value.child? index with
      | none =>
        rw [hchild] at hat
        contradiction
      | some child =>
        rw [hchild] at hat
        exact hchildren index child hchild path record hat

theorem within_scalar (payload : Scalar) : (Value.scalar payload : Value σ).Within P := by
  rw [within_iff_child?]
  exact ⟨fun _ h => (nomatch h), fun _ _ h => (nomatch h)⟩

theorem within_seq {kind : SeqKind} {elements : List (Value σ)}
    (h : ∀ element ∈ elements, element.Within P) : (Value.seq kind elements).Within P := by
  rw [within_iff_child?]
  refine ⟨fun _ h => (nomatch h), fun _ child hchild => ?_⟩
  exact h child (List.mem_of_getElem? hchild)

theorem within_toValue_iff {record : Record σ (Value σ)} :
    record.toValue.Within P ↔ P record.version ∧ record.fields.All (Value.Within P) := by
  rw [within_iff_child?]
  constructor
  · rintro ⟨hown, hchildren⟩
    refine ⟨hown record rfl, fun field hfield => ?_⟩
    rcases List.getElem?_of_mem hfield with ⟨index, hindex⟩
    exact hchildren index field.2 (by rw [Record.toValue, child?, hindex, Option.map_some])
  · rintro ⟨hown, hfields⟩
    refine ⟨fun record' h => ?_, fun index child hchild => ?_⟩
    · cases h
      exact hown
    · rcases Option.map_eq_some_iff.mp hchild with ⟨field, hfield, rfl⟩
      exact hfields field (List.mem_of_getElem? hfield)

/-- The versions in a part of a value are versions in the value. -/
theorem Within.at? (h : value.Within P) {path : List Nat} {node : Value σ}
    (hnode : value.at? path = some node) : node.Within P := by
  intro more record hat
  refine h (path ++ more) record ?_
  rw [at?_append, hnode]
  exact hat

/-- Changing a part of a value brings only the versions in the changed part. -/
theorem Within.modifyAt (h : value.Within P) {f : Value σ → Value σ}
    (hf : ∀ node, (f node).Within P) (position : List Nat) :
    (value.modifyAt f position).Within P := by
  induction position generalizing value with
  | nil => exact hf value
  | cons index rest ih =>
    have hchildren := (within_iff_child?.mp h).2
    rw [Value.modifyAt, within_iff_child?]
    constructor
    · intro record hrecord
      cases value with
      | scalar payload => contradiction
      | seq kind elements => contradiction
      | struct stamp fields =>
        cases hrecord
        have hversion :=
          Record.version_modify stamp fields index fun child => child.modifyAt f rest
        have hown := (within_iff_child?.mp h).1 _ rfl
        rw [← hversion] at hown
        exact hown
    · intro other child hchild
      by_cases hsame : index = other
      · subst hsame
        rw [child?_modifyChild] at hchild
        rcases Option.map_eq_some_iff.mp hchild with ⟨old, hold, rfl⟩
        exact ih (hchildren index old hold)
      · rw [child?_modifyChild_of_ne _ _ hsame] at hchild
        exact hchildren other child hchild

end Value

/-! ## The versions in a memory -/

/-- Every struct that a program owns has a version with a property. -/
def Memory.Within (P : Version Stamp → Prop) (memory : Memory) : Prop :=
  ∀ root ∈ memory.slots, root.Within P

namespace Memory

variable {P : Version Stamp → Prop} {memory next : Memory} {address : Address}
  {value : Value Stamp}

theorem Within.load (h : memory.Within P) (hload : memory.load address = some value) :
    value.Within P := by
  rcases Option.bind_eq_some_iff.mp hload with ⟨root, hroot, hvalue⟩
  exact (h root (List.mem_of_getElem? hroot)).at? hvalue

theorem Within.record? (h : memory.Within P) {record : Record Stamp (Value Stamp)}
    (hrecord : memory.record? address = some record) :
    P record.version ∧ record.fields.All (Value.Within P) :=
  Value.within_toValue_iff.mp (h.load (record?_eq_some_iff.mp hrecord))

theorem Within.declare (h : memory.Within P) (hvalue : value.Within P) :
    (memory.declare value).Within P := by
  intro root hroot
  rcases List.mem_append.mp hroot with hroot | hroot
  · exact h root hroot
  · rw [List.mem_singleton.mp hroot]
    exact hvalue

theorem Within.store (h : memory.Within P) (hvalue : value.Within P) (target : Address) :
    (memory.store target value).Within P := by
  intro root hroot
  rcases List.getElem?_of_mem hroot with ⟨slot, hslot⟩
  rw [Memory.store, List.getElem?_modify] at hslot
  rcases Option.map_eq_some_iff.mp hslot with ⟨old, hold, rfl⟩
  have hroot := h old (List.mem_of_getElem? hold)
  split
  · exact hroot.modifyAt (fun _ => hvalue) target.path
  · exact hroot

/-! ## What an instruction does to the versions -/

/-- From one memory to the next, the clock does not go back, and at most one version is added: it
has the last stamp handed out. -/
structure Advances (memory next : Memory) : Prop where
  clock_le : memory.clock.next ≤ next.clock.next
  within : ∃ names, ∀ P : Version Stamp → Prop, memory.Within P →
    (memory.clock.next < next.clock.next → P ⟨⟨.ofNat (next.clock.next - 1)⟩, names⟩) →
    next.Within P

/-- A step without a stamp adds no version. -/
theorem advances_of_within (hclock : next.clock = memory.clock)
    (hwithin : ∀ P, memory.Within P → next.Within P) : memory.Advances next where
  clock_le := Nat.le_of_eq (congrArg Clock.next hclock.symm)
  within := ⟨[], fun P h _ => hwithin P h⟩

/-- A new struct has a new version. -/
theorem advances_declare_ofFields {fields : Fields (Value Stamp)}
    (hfields : ∀ P, memory.Within P → fields.All (Value.Within P)) :
    memory.Advances (declare { memory with clock := (Record.ofFields fields memory.clock).2 }
      (Record.ofFields fields memory.clock).1.toValue) where
  clock_le := Nat.le_succ _
  within := by
    refine ⟨fields.names, fun P h hnew => ?_⟩
    have hvalue : (Record.ofFields fields memory.clock).1.toValue.Within P :=
      Value.within_toValue_iff.mpr ⟨hnew (Nat.lt_succ_self _), hfields P h⟩
    exact Within.declare h hvalue

/-- An operation on a struct leaves it with its old version or with a new one. -/
theorem advances_edit {target : Address} {record : Record Stamp (Value Stamp)}
    {edit : RecordEdit (Value Stamp)} (hrecord : memory.record? target = some record)
    (hvalues : ∀ P, memory.Within P → ∀ value ∈ edit.values, value.Within P) :
    memory.Advances (memory.afterEdit target (edit.apply record memory.clock)) := by
  -- What is stored and what is handed back hold no version but that of the struct itself.
  have hwithin : ∀ P, memory.Within P → P (edit.apply record memory.clock).2.1.version →
      (memory.afterEdit target (edit.apply record memory.clock)).Within P := by
    intro P h hversion
    rcases RecordEdit.all_apply memory.clock (h.record? hrecord).2 (hvalues P h) with
      ⟨hfields, hremoved⟩
    have hstored := Within.store h (Value.within_toValue_iff.mpr ⟨hversion, hfields⟩) target
    unfold afterEdit
    split
    · exact hstored
    · rename_i removed heq
      exact Within.declare hstored (hremoved removed heq)
  cases hrenames : edit.renames record with
  | false =>
    rcases RecordEdit.apply_of_not_renames memory.clock hrenames with ⟨hclock, hversion⟩
    refine advances_of_within ((clock_afterEdit ..).trans hclock) fun P h => hwithin P h ?_
    rw [hversion]
    exact (h.record? hrecord).1
  | true =>
    rcases RecordEdit.apply_of_renames memory.clock hrenames with ⟨hlt, hstamp⟩
    refine ⟨?_, (edit.apply record memory.clock).2.1.names, fun P h hnew => hwithin P h ?_⟩
    · rw [clock_afterEdit]
      exact Nat.le_of_lt hlt
    · rw [clock_afterEdit] at hnew
      rw [Record.version, hstamp]
      exact hnew hlt

/-- What an instruction that goes through does to the versions. -/
theorem advances_exec? {instruction : Instruction} (h : memory.exec? instruction = some next) :
    memory.Advances next := by
  cases instruction with
  | literal payload =>
    cases h
    exact advances_of_within rfl fun P h => h.declare (Value.within_scalar payload)
  | gather kind sources =>
    rcases Option.bind_eq_some_iff.mp h with ⟨elements, helements, h⟩
    cases h
    refine advances_of_within rfl fun P h => h.declare (Value.within_seq fun element hmem => ?_)
    rcases exists_of_mem_mapM helements hmem with ⟨source, -, hload⟩
    exact h.load hload
  | create =>
    cases h
    exact advances_declare_ofFields fun P _ => Fields.all_nil
  | collect sources =>
    rcases Option.bind_eq_some_iff.mp h with ⟨fields, hfields, h⟩
    cases h
    refine advances_declare_ofFields fun P h field hmem => ?_
    rcases RecordEdit.exists_source_of_mapM hfields (List.mem_map_of_mem hmem) with ⟨source, hload⟩
    exact h.load hload
  | clone source =>
    rcases Option.bind_eq_some_iff.mp h with ⟨value, hload, h⟩
    cases h
    exact advances_of_within rfl fun P h => h.declare (h.load hload)
  | overwrite target source =>
    rcases Option.bind_eq_some_iff.mp h with ⟨value, hload, h⟩
    cases h
    exact advances_of_within rfl fun P h => h.store (h.load hload) target
  | take target =>
    rcases Option.bind_eq_some_iff.mp h with ⟨value, hload, h⟩
    cases h
    refine advances_of_within rfl fun P h => ?_
    exact (h.store (Value.within_scalar _) target).declare (h.load hload)
  | swap left right =>
    rcases Option.bind_eq_some_iff.mp h with ⟨value, hleft, h⟩
    rcases Option.bind_eq_some_iff.mp h with ⟨value', hright, h⟩
    cases h
    refine advances_of_within rfl fun P h => ?_
    exact (h.store (h.load hright) left).store (h.load hleft) right
  | edit target edit =>
    rcases Option.bind_eq_some_iff.mp h with ⟨record, hrecord, h⟩
    rcases Option.bind_eq_some_iff.mp h with ⟨edit', hresolve, h⟩
    cases h
    refine advances_edit hrecord fun P h value hmem => ?_
    rcases RecordEdit.exists_source_of_resolve hresolve hmem with ⟨source, hload⟩
    exact h.load hload

/-- What an instruction does to the versions. -/
theorem advances_exec (memory : Memory) (instruction : Instruction) :
    memory.Advances (memory.exec instruction) := by
  unfold exec
  cases h : memory.exec? instruction with
  | none => exact advances_of_within rfl fun P h => h
  | some next => exact advances_exec? h

/-- The clock does not go back in a run. -/
theorem clock_le_run (memory : Memory) (program : List Instruction) :
    memory.clock.next ≤ (memory.run program).clock.next := by
  induction program generalizing memory with
  | nil => exact Nat.le_refl _
  | cons instruction rest ih =>
    exact Nat.le_trans (advances_exec memory instruction).clock_le (ih (memory.exec instruction))

end Memory

/-! ## The invariant -/

/-- A stamp that a clock has given. -/
def Clock.HandedOut (clock : Clock) (stamp : Stamp) : Prop :=
  ∃ number, Clock.start.next ≤ number ∧ number < clock.next ∧ stamp = ⟨.ofNat number⟩

/-- Stamps of smaller numbers come first, while the numbers fit in 64 bits. -/
theorem Clock.HandedOut.lt {clock : Clock} {stamp : Stamp} (h : clock.HandedOut stamp)
    {number : Nat} (hle : clock.next ≤ number) (hfits : number < UInt64.size) :
    stamp.number < UInt64.ofNat number := by
  rcases h with ⟨number', -, hbefore, rfl⟩
  have hlt : number' < number := Nat.lt_of_lt_of_le hbefore hle
  rw [UInt64.lt_iff_toNat_lt, UInt64.toNat_ofNat_of_lt' hfits,
    UInt64.toNat_ofNat_of_lt' (Nat.lt_trans hlt hfits)]
  exact hlt

namespace Memory

/-- Everything that is known of the versions that a program has had. -/
structure Chronicle (seen : Version Stamp → Prop) (memory : Memory) : Prop where
  started : Clock.start.next ≤ memory.clock.next
  /-- The versions there are now have been seen. -/
  within : memory.Within seen
  /-- The stamps of the versions seen have been handed out. -/
  handedOut : ∀ version, seen version → memory.clock.HandedOut version.stamp
  /-- A stamp has been seen with one list of names only. -/
  names_eq : ∀ version version', seen version → seen version' →
    version.stamp = version'.stamp → version.names = version'.names

namespace Chronicle

variable {seen : Version Stamp → Prop} {memory : Memory}

theorem start : Chronicle (fun _ => False) .start where
  started := Nat.le_refl _
  within := fun _ hroot => nomatch hroot
  handedOut := fun _ h => h.elim
  names_eq := fun _ _ h => h.elim

/-- An instruction keeps the invariant: the version that it adds has a stamp not seen before. -/
theorem exists_exec (h : Chronicle seen memory) (instruction : Instruction)
    (hfits : (memory.exec instruction).clock.next ≤ UInt64.size) :
    ∃ seen', (∀ version, seen version → seen' version) ∧
      Chronicle seen' (memory.exec instruction) := by
  rcases advances_exec memory instruction with ⟨hclock, names, hwithin⟩
  generalize hnext : (memory.exec instruction) = next at *
  -- The version that may be new.
  let new : Version Stamp := ⟨⟨.ofNat (next.clock.next - 1)⟩, names⟩
  have hunseen : ∀ version, seen version → memory.clock.next < next.clock.next →
      version.stamp ≠ new.stamp := by
    intro version hversion hlt heq
    have hbefore := (h.handedOut version hversion).lt (Nat.le_sub_one_of_lt hlt) (by omega)
    rw [heq] at hbefore
    exact UInt64.lt_irrefl _ hbefore
  refine ⟨fun version => seen version ∨ memory.clock.next < next.clock.next ∧ version = new,
    fun version => Or.inl, ?_, ?_, ?_, ?_⟩
  · exact Nat.le_trans h.started hclock
  · refine hwithin _ (fun root hroot path record hat => Or.inl ?_) fun hlt => Or.inr ⟨hlt, rfl⟩
    exact h.within root hroot path record hat
  · rintro version (hversion | ⟨hlt, rfl⟩)
    · rcases h.handedOut version hversion with ⟨number, hfirst, hnumber, hstamp⟩
      exact ⟨number, hfirst, Nat.lt_of_lt_of_le hnumber hclock, hstamp⟩
    · exact ⟨next.clock.next - 1, Nat.le_trans h.started (Nat.le_sub_one_of_lt hlt),
        Nat.sub_one_lt_of_lt hlt, rfl⟩
  · rintro version version' (hversion | ⟨hlt, rfl⟩) (hversion' | ⟨hlt', rfl⟩) hstamp
    · exact h.names_eq version version' hversion hversion' hstamp
    · exact absurd hstamp (hunseen version hversion hlt')
    · exact absurd hstamp.symm (hunseen version' hversion' hlt)
    · rfl

/-- A program keeps the invariant, and all the versions that it passes are seen at its end. -/
theorem exists_run (h : Chronicle seen memory) (program : List Instruction)
    (hfits : (memory.run program).clock.next ≤ UInt64.size) :
    ∃ seen', (∀ version, seen version → seen' version) ∧
      (∀ moment ∈ memory.moments program, moment.Within seen') ∧
      Chronicle seen' (memory.run program) := by
  induction program generalizing memory seen with
  | nil =>
    refine ⟨seen, fun version => id, fun moment hmoment => ?_, h⟩
    rw [List.mem_singleton.mp hmoment]
    exact h.within
  | cons instruction rest ih =>
    have hstep := Nat.le_trans (clock_le_run (memory.exec instruction) rest) hfits
    rcases h.exists_exec instruction hstep with ⟨seen₁, hseen₁, h₁⟩
    rcases ih h₁ hfits with ⟨seen₂, hseen₂, hmoments, h₂⟩
    have hseen := fun version hversion => hseen₂ version (hseen₁ version hversion)
    refine ⟨seen₂, hseen, fun moment hmoment => ?_, h₂⟩
    rcases List.mem_cons.mp hmoment with rfl | hmoment
    · intro root hroot path record hat
      exact hseen _ (h.within root hroot path record hat)
    · exact hmoments moment hmoment

end Chronicle

/-! ## What stamps say -/

/-- What the stamps of structs say, in every state that a program reaches. -/
structure SoundStamps (program : List Instruction) : Prop where
  /-- Structs with one stamp, at one time or at two, have the same names in the same order. -/
  names_eq : ∀ moment ∈ start.moments program, ∀ moment' ∈ start.moments program,
    ∀ address address' record record', moment.record? address = some record →
      moment'.record? address' = some record' → record.stamp = record'.stamp →
        record.names = record'.names
  /-- Every struct has a stamp that was handed out. -/
  handedOut : ∀ front back, program = front ++ back →
    ∀ address record, (start.run front).record? address = some record →
      (start.run front).clock.HandedOut record.stamp
  /-- An operation that goes through and may change the names leaves its struct with a greater stamp
  than all that were handed out before it began. -/
  later : ∀ front target edit back, program = front ++ .edit target edit :: back →
    ∀ record edit', (start.run front).record? target = some record →
      edit.resolve (start.run front).load = some edit' → edit.renames record = true →
        ∃ record', ((start.run front).exec (.edit target edit)).record? target = some record' ∧
          ∀ stamp, (start.run front).clock.HandedOut stamp → stamp.number < record'.stamp.number
  /-- An operation that writes in place, or does not go through, keeps stamp and names. -/
  kept : ∀ front target edit back, program = front ++ .edit target edit :: back →
    ∀ record edit', (start.run front).record? target = some record →
      edit.resolve (start.run front).load = some edit' → edit.renames record = false →
        ∃ record', ((start.run front).exec (.edit target edit)).record? target = some record' ∧
          record'.stamp = record.stamp ∧ record'.names = record.names
  /-- So does every instruction that writes through references into the struct, or elsewhere. -/
  framed : ∀ front instruction back, program = front ++ instruction :: back →
    ∀ address record, (start.run front).record? address = some record →
      (∀ target ∈ instruction.targets, ¬ target.Above address) →
        ∃ record', ((start.run front).exec instruction).record? address = some record' ∧
          record'.stamp = record.stamp ∧ record'.names = record.names

/-- A program uses up no fewer stamps than its beginning. -/
theorem clock_le_of_eq_append (memory : Memory) {program front back : List Instruction}
    (h : program = front ++ back) :
    (memory.run front).clock.next ≤ (memory.run program).clock.next := by
  rw [h, run_append]
  exact clock_le_run (memory.run front) back

/-- As long as the stamps are not used up, they tell the versions of structs apart. -/
theorem soundStamps_of_taken_lt (program : List Instruction)
    (hfits : (start.run program).clock.taken < UInt64.size - 1) : SoundStamps program := by
  have hnext : (start.run program).clock.next < UInt64.size := by
    rw [Clock.taken] at hfits
    omega
  refine { names_eq := ?_, handedOut := ?_, later := ?_, kept := ?_, framed := ?_ }
  · intro moment hmoment moment' hmoment' address address' record record' hrecord hrecord' hstamp
    rcases Chronicle.start.exists_run program (Nat.le_of_lt hnext) with ⟨seen, -, hmoments, h⟩
    have hseen := ((hmoments moment hmoment).record? hrecord).1
    have hseen' := ((hmoments moment' hmoment').record? hrecord').1
    exact h.names_eq _ _ hseen hseen' hstamp
  · intro front back hprogram address record hrecord
    have hfront := Nat.le_trans (clock_le_of_eq_append start hprogram) (Nat.le_of_lt hnext)
    rcases Chronicle.start.exists_run front hfront with ⟨seen, -, -, h⟩
    exact h.handedOut _ (h.within.record? hrecord).1
  · intro front target edit back hprogram record edit' hrecord hresolve hrenames
    have hafter : ((start.run front).exec (.edit target edit)).clock.next < UInt64.size := by
      have hsplit : program = (front ++ [.edit target edit]) ++ back := by simp [hprogram]
      have hle := clock_le_of_eq_append start hsplit
      rw [run_append] at hle
      exact Nat.lt_of_le_of_lt hle hnext
    have hclock : ((start.run front).exec (.edit target edit)).clock =
        (edit'.apply record (start.run front).clock).2.2 := clock_exec_edit hrecord hresolve
    rw [hclock] at hafter
    rw [← RecordEdit.renames_of_resolve hresolve] at hrenames
    rcases RecordEdit.apply_of_renames (start.run front).clock hrenames with ⟨hlt, hstamp⟩
    refine ⟨_, record?_exec_edit hrecord hresolve, fun stamp hstamp' => ?_⟩
    rw [hstamp]
    exact hstamp'.lt (Nat.le_sub_one_of_lt hlt) (by omega)
  · intro front target edit back hprogram record edit' hrecord hresolve hrenames
    rw [← RecordEdit.renames_of_resolve hresolve] at hrenames
    rcases RecordEdit.apply_of_not_renames (start.run front).clock hrenames with ⟨-, hversion⟩
    exact ⟨_, record?_exec_edit hrecord hresolve, congrArg Version.stamp hversion,
      congrArg Version.names hversion⟩
  · intro front instruction back hprogram address record hrecord hoff
    rcases exists_record?_exec hrecord hoff with ⟨record', hrecord', hversion⟩
    exact ⟨record', hrecord', congrArg Version.stamp hversion, congrArg Version.names hversion⟩

/-- A copy is edited, and put in the place of the original.  Until then the original has the stamp
that the copy was made with, and afterwards both have the stamp of the last edit. -/
theorem soundStamps_of_copy :
    let front : List Instruction := [.create, .literal (.bool true),
      .edit ⟨0, []⟩ (.add "Name" ⟨1, []⟩), .clone ⟨0, []⟩, .edit ⟨2, []⟩ (.put "name" ⟨1, []⟩),
      .edit ⟨2, []⟩ (.remove "Name")]
    let program := front ++ [.overwrite ⟨0, []⟩ ⟨2, []⟩]
    let original : Record Stamp (Value Stamp) := ⟨⟨2⟩, [("Name", .scalar (.bool true))]⟩
    let renamed : Record Stamp (Value Stamp) := ⟨⟨4⟩, [("name", .scalar (.bool true))]⟩
    (start.run program).clock.taken < UInt64.size - 1 ∧
      (start.run front).record? ⟨0, []⟩ = some original ∧
      (start.run front).record? ⟨2, []⟩ = some renamed ∧
      (start.run program).record? ⟨0, []⟩ = some renamed ∧
      (start.run program).record? ⟨2, []⟩ = some renamed ∧ SoundStamps program :=
  have hfits : _ < UInt64.size - 1 := by decide
  ⟨hfits, rfl, rfl, rfl, rfl, soundStamps_of_taken_lt _ hfits⟩

end Memory
end Caseless
