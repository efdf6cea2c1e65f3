import Caseless.Proofs.Memory.Stamps
import Caseless.Proofs.Name.Lookup
import Caseless.Proofs.Name.Rebuilding

/-!
# One index for all structs

An index that is never told of any change is used with all the structs of a program in turn.  It
remembers the stamp of the struct that its table was built from, and that alone decides whether the
table is used again, for whichever struct is at hand.

The invariant is that the table groups the names of some version seen so far.  A struct with the
stamp of the table then has the names of that version, since stamps tell versions apart.

Main results:

- Definition `SharedIndex`: a program and the index, and `SharedIndex.run`: their use in turn;
- Theorem `SharedIndex.exists_chronicle_run`: the invariant holds at the end of every run;
- Theorem `SharedIndex.answersAsScan_run`: the index answers for every struct as a scan of it does.
-/

namespace Caseless

open Name

/-! ## An index in use -/

/-- What a program owns, and an index beside it. -/
structure SharedIndex where
  memory : Memory
  index : NameIndex Stamp

/-- What is done with a program and an index.  Nothing tells the index of a change. -/
inductive SharedUse where
  /-- The program goes on. -/
  | execute (instruction : Instruction)
  | withPolicy (policy : Policy)
  /-- The index is asked for a name, one position or all, in the struct at an address. -/
  | lookup (address : Address) (query : String)

/-- The policy that a use switches to. -/
def SharedUse.switchedTo? : SharedUse → Option Policy
  | .withPolicy policy => some policy
  | .execute _ | .lookup .. => none

namespace SharedIndex

/-- A program at its start, and an index without a table. -/
def start (policy : Policy) : SharedIndex :=
  ⟨.start, .new policy⟩

/-- The state after one use. -/
def step (state : SharedIndex) : SharedUse → SharedIndex
  | .execute instruction => { state with memory := state.memory.exec instruction }
  | .withPolicy policy => { state with index := state.index.withPolicy policy }
  | .lookup address _ =>
    match state.memory.record? address with
    | some record => { state with index := state.index.warm record }
    | none => state

/-- The state after uses in turn. -/
def run (state : SharedIndex) (uses : List SharedUse) : SharedIndex :=
  uses.foldl step state

/-- The policy last switched to, if any use switches, and else the one at first. -/
def lastPolicy (policy : Policy) (uses : List SharedUse) : Policy :=
  (uses.filterMap SharedUse.switchedTo?).getLastD policy

theorem policy_run (state : SharedIndex) (uses : List SharedUse) :
    (state.run uses).index.policy = lastPolicy state.index.policy uses := by
  induction uses generalizing state with
  | nil => rfl
  | cons use rest ih =>
    refine (ih (state.step use)).trans ?_
    cases use with
    | execute instruction => rfl
    | withPolicy policy => exact (List.getLastD_cons ..).symm
    | lookup address query =>
      simp only [step]
      split <;> rfl

/-! ## What the index answers -/

/-- The index answers for a struct as a linear scan of its names does, and uses its table again
exactly when the stamp of the table is the stamp of the struct. -/
structure AnswersAsScan (index : NameIndex Stamp) (record : Record Stamp (Value Stamp))
    (query : String) : Prop where
  lookupAll_eq : index.lookupAll record query = matching record.names query
  lookup_eq : index.lookup record query = scan index.policy record.names query
  /-- No table is built for the lookup exactly when there is one with the stamp of the struct. -/
  pending_eq_none_iff : index.pending record = none ↔
    index.built.map (·.stamp) = some record.stamp
  /-- A table with the stamp of the struct is the one that the lookup uses, and it stays. -/
  reused : ∀ built, index.built = some built → built.stamp = record.stamp →
    index.tableFor record = built ∧ index.warm record = index
  /-- Otherwise the lookup uses a table of the struct. -/
  rebuilt : index.built.map (·.stamp) ≠ some record.stamp →
    index.tableFor record = .build record
  /-- After the lookup the table has the stamp of the struct. -/
  remembered : (index.warm record).built.map (·.stamp) = some record.stamp

/-- The answers of an index that is true of a struct. -/
theorem answersAsScan_of_trueOf {index : NameIndex Stamp} {record : Record Stamp (Value Stamp)}
    (h : index.TrueOf record) (query : String) : AnswersAsScan index record query where
  lookupAll_eq := h.lookupAll_eq_matching query
  lookup_eq := h.lookup_eq_scan query
  pending_eq_none_iff := (index.pending_eq_none_iff record).trans NameIndex.isFreshFor_iff
  reused := by
    intro built hbuilt hstamp
    have htable := NameIndex.tableFor_of_stamp_eq hbuilt hstamp
    refine ⟨htable, ?_⟩
    rw [NameIndex.warm, htable, ← hbuilt]
  rebuilt := NameIndex.tableFor_of_stamp_ne
  remembered := NameIndex.isFreshFor_iff.mp (index.isFreshFor_warm record)

/-! ## The invariant -/

/-- The table of an index groups the names of a version that has been seen. -/
def Trusted (seen : Version Stamp → Prop) (index : NameIndex Stamp) : Prop :=
  ∀ built, index.built = some built →
    ∃ version, seen version ∧ built.stamp = version.stamp ∧
      built.buckets = Buckets.ofNames version.names

namespace Trusted

variable {seen : Version Stamp → Prop} {index : NameIndex Stamp} {memory : Memory}
  {address : Address} {record : Record Stamp (Value Stamp)}

/-- An index without a table can be trusted. -/
theorem of_built_eq_none (h : index.built = none) : Trusted seen index := by
  intro built hbuilt
  rw [h] at hbuilt
  contradiction

theorem mono {seen' : Version Stamp → Prop} (h : Trusted seen index)
    (hseen : ∀ version, seen version → seen' version) : Trusted seen' index := by
  intro built hbuilt
  rcases h built hbuilt with ⟨version, hversion, hstamp, hbuckets⟩
  exact ⟨version, hseen version hversion, hstamp, hbuckets⟩

/-- An index with a table that can be trusted is true of every struct there is. -/
theorem trueOf (h : Trusted seen index) (hmemory : Memory.Chronicle seen memory)
    (hrecord : memory.record? address = some record) : index.TrueOf record := by
  intro built hbuilt hstamp
  rcases h built hbuilt with ⟨version, hversion, hstamp', hbuckets⟩
  have hseen : seen record.version := (hmemory.within.record? hrecord).1
  have hnames : version.names = record.names :=
    hmemory.names_eq version record.version hversion hseen (hstamp'.symm.trans hstamp)
  rw [hbuckets, hnames]

/-- A lookup leaves the table that was there, or the table of a struct that is there. -/
theorem warm (h : Trusted seen index) (hmemory : Memory.Chronicle seen memory)
    (hrecord : memory.record? address = some record) : Trusted seen (index.warm record) := by
  intro built hbuilt
  have hseen : seen record.version := (hmemory.within.record? hrecord).1
  have htable : built = index.tableFor record := (Option.some.inj hbuilt).symm
  have htrue := h.trueOf hmemory hrecord
  refine ⟨record.version, hseen, ?_, ?_⟩
  · have hstamp : (index.warm record).built.map (·.stamp) = some record.stamp :=
      NameIndex.isFreshFor_iff.mp (index.isFreshFor_warm record)
    rw [hbuilt] at hstamp
    exact Option.some.inj hstamp
  · rw [htable]
    exact htrue.tableFor_buckets

end Trusted

theorem clock_le_step (state : SharedIndex) (use : SharedUse) :
    state.memory.clock.next ≤ (state.step use).memory.clock.next := by
  cases use with
  | execute instruction => exact (state.memory.advances_exec instruction).clock_le
  | withPolicy policy => exact Nat.le_refl _
  | lookup address query =>
    simp only [step]
    split <;> exact Nat.le_refl _

theorem clock_le_run (state : SharedIndex) (uses : List SharedUse) :
    state.memory.clock.next ≤ (state.run uses).memory.clock.next := by
  induction uses generalizing state with
  | nil => exact Nat.le_refl _
  | cons use rest ih => exact Nat.le_trans (clock_le_step state use) (ih (state.step use))

variable {seen : Version Stamp → Prop} {state : SharedIndex}

/-- One use keeps the invariant. -/
theorem exists_chronicle_step (hmemory : Memory.Chronicle seen state.memory)
    (hindex : Trusted seen state.index) (use : SharedUse)
    (hfits : (state.step use).memory.clock.next ≤ UInt64.size) :
    ∃ seen', Memory.Chronicle seen' (state.step use).memory ∧
      Trusted seen' (state.step use).index := by
  cases use with
  | execute instruction =>
    rcases hmemory.exists_exec instruction hfits with ⟨seen', hseen, hmemory'⟩
    exact ⟨seen', hmemory', hindex.mono hseen⟩
  | withPolicy policy => exact ⟨seen, hmemory, hindex⟩
  | lookup address query =>
    simp only [step]
    split
    · rename_i record hrecord
      exact ⟨seen, hmemory, hindex.warm hmemory hrecord⟩
    · exact ⟨seen, hmemory, hindex⟩

/-- The invariant holds at the end of every run. -/
theorem exists_chronicle_run (hmemory : Memory.Chronicle seen state.memory)
    (hindex : Trusted seen state.index) (uses : List SharedUse)
    (hfits : (state.run uses).memory.clock.next ≤ UInt64.size) :
    ∃ seen', Memory.Chronicle seen' (state.run uses).memory ∧
      Trusted seen' (state.run uses).index := by
  induction uses generalizing state seen with
  | nil => exact ⟨seen, hmemory, hindex⟩
  | cons use rest ih =>
    have hstep := Nat.le_trans (clock_le_run (state.step use) rest) hfits
    rcases exists_chronicle_step hmemory hindex use hstep with ⟨seen', hmemory', hindex'⟩
    exact ih hmemory' hindex' hfits

/-- As long as the stamps are not used up, an index that is never told of a change has the policy
last switched to, and answers for every struct of the program as a scan of that struct does. -/
theorem answersAsScan_run (policy : Policy) (uses : List SharedUse)
    (hfits : ((start policy).run uses).memory.clock.taken < UInt64.size - 1) (address : Address)
    (record : Record Stamp (Value Stamp))
    (hrecord : ((start policy).run uses).memory.record? address = some record) (query : String) :
    ((start policy).run uses).index.policy = lastPolicy policy uses ∧
      AnswersAsScan ((start policy).run uses).index record query := by
  refine ⟨policy_run (start policy) uses, ?_⟩
  have hnext : ((start policy).run uses).memory.clock.next ≤ UInt64.size := by
    rw [Clock.taken] at hfits
    omega
  have hstart : Trusted (fun _ => False) (start policy).index := Trusted.of_built_eq_none rfl
  rcases exists_chronicle_run Memory.Chronicle.start hstart uses hnext with ⟨seen, hmemory, hindex⟩
  exact answersAsScan_of_trueOf (hindex.trueOf hmemory hrecord) query

/-- A copy gets a new name after the index has met the original, and is then looked up in.  By then
the index prefers exact spellings. -/
theorem answersAsScan_run_copy :
    let uses : List SharedUse := [.execute .create, .execute (.literal (.bool true)),
      .execute (.edit ⟨0, []⟩ (.add "Name" ⟨1, []⟩)), .lookup ⟨0, []⟩ "name",
      .execute (.clone ⟨0, []⟩), .withPolicy .preferExact, .lookup ⟨2, []⟩ "NAME",
      .execute (.edit ⟨2, []⟩ (.add "name" ⟨1, []⟩))]
    let state := (start .firstWins).run uses
    let record : Record Stamp (Value Stamp) :=
      ⟨⟨3⟩, [("Name", .scalar (.bool true)), ("name", .scalar (.bool true))]⟩
    state.memory.clock.taken < UInt64.size - 1 ∧ state.memory.record? ⟨2, []⟩ = some record ∧
      lastPolicy .firstWins uses = .preferExact ∧
      state.index.policy = lastPolicy .firstWins uses ∧ AnswersAsScan state.index record "name" :=
  have hfits : _ < UInt64.size - 1 := by decide
  ⟨hfits, rfl, rfl, answersAsScan_run .firstWins _ hfits ⟨2, []⟩ _ rfl "name"⟩

end SharedIndex
end Caseless
