import Caseless.Proofs.Name.Rebuilding
import Caseless.Proofs.View.Run

/-!
# When a view builds its table

Reading a struct through a view may build the name table of the view, and every build is reported.
A table that is there is used as long as its stamp is that of the struct, and whatever may change
names drops it.  So a lookup builds exactly if no lookup was made since the view was made or names
may last have changed: writing values, enumerating and switching the policy make no difference.

The invariant is that a table, where there is one, has the stamp of the struct.  With it, being
fresh is having a table at all, and that is decided by the calls that were made.

Main definitions:

- `SharedCall`: what is asked of a view, and `SharedCall.step`: the answer, the builds, and the view
  after it;
- `ViewAction.perform`: the builds of an action, and the state after it;
- `ViewCall`: what is done with a view that may also be written through, and `ViewCall.run`;
- `ViewCall.LookedUp`: a lookup was made, and names cannot have changed since.

Main results:

- Theorems `SharedCall.step_lookup` and `SharedCall.step_plain`: the answer to one call is that of
  the view, whatever is built on the way;
- Theorem `SharedCall.builds_new`: the builds in the life of a view that is only read;
- Theorem `ViewAction.perform_eq`: of all actions, only lookups build;
- Theorem `ViewCall.isFresh_run_iff`: a table is fresh exactly if `LookedUp` holds of the calls;
- Theorem `ViewCall.rebuildsWhenDistrusted`: the builds of every run;
- Theorem `StructCommand.exists_calls`: sessions are runs of calls.
-/

namespace Caseless

open Name

variable {σ : Type}

/-! ## Fresh tables -/

namespace StructView

variable [DecidableEq σ]

/-- Whether a table is fresh is decided by the table and the record. -/
theorem isFresh_congr {view view' : StructView σ} (hrecord : view'.record = view.record)
    (hbuilt : view'.index.built = view.index.built) : view'.isFresh = view.isFresh := by
  rw [isFresh, isFresh, NameIndex.isFreshFor, hbuilt, hrecord]
  rfl

/-- In a sound view a table that is there is fresh. -/
theorem Sound.isFresh_eq {view : StructView σ} (h : view.Sound) :
    view.isFresh = view.index.built.isSome := by
  rw [isFresh, NameIndex.isFreshFor]
  cases hbuilt : view.index.built with
  | none => rfl
  | some built =>
    rw [h built hbuilt]
    exact decide_eq_true rfl

end StructView

/-! ## What is asked of a view -/

/-- A call that only reads, made on a view of a struct. -/
inductive SharedCall where
  | get (query : String)
  | getAll (query : String)
  | contains (query : String)
  | resolve (query : String)
  /-- Enumerates the fields. -/
  | entries
  | names
  | size
  /-- Writes the fields as text. -/
  | inspect
  | withPolicy (policy : Policy)

/-- What such a call hands back. -/
inductive Told (σ : Type) where
  | field (child : Option (View σ))
  | fields (children : List (View σ))
  | flag (found : Bool)
  | spelling (name : Option String)
  | entries (fields : List (String × View σ))
  | names (names : List String)
  | count (n : Nat)
  | text (line : String)
  | done

namespace SharedCall

/-- Whether a call looks up a name. -/
def looksUp : SharedCall → Bool
  | .get _ | .getAll _ | .contains _ | .resolve _ => true
  | .entries | .names | .size | .inspect | .withPolicy _ => false

variable [DecidableEq σ]

/-- What a view answers to a call. -/
def told (view : StructView σ) : SharedCall → Told σ
  | .get query => .field (view.get? query)
  | .getAll query => .fields (view.getAll query)
  | .contains query => .flag (view.contains query)
  | .resolve query => .spelling (view.resolve? query)
  | .entries => .entries view.entries
  | .names => .names view.names
  | .size => .count view.size
  | .inspect => .text (Readable.inspect (View.struct view)).line
  | .withPolicy _ => .done

/-- The answer to a call, the tables that are built for it, and the view after it.  Lookups consult
the index, and pick among the positions that it gives. -/
def step (view : StructView σ) (call : SharedCall) : Told σ × List BuildEvent × StructView σ :=
  /- A call that looks up nothing. -/
  let plain (answer : Told σ) := (answer, [], view)
  /- A lookup, with an answer from the positions that match. -/
  let lookup (query : String) (answer : List Nat → Told σ) :=
    let (positions, builds, index) := view.index.consult view.record query
    (answer positions, builds, { view with index })
  /- The position that is picked. -/
  let select (query : String) (positions : List Nat) : Option Nat :=
    view.policy.select view.names query positions
  match call with
  | .get query => lookup query fun positions =>
    .field <| (select query positions).bind fun position =>
      (view.record.fields[position]?).map fun field => wrap view.policy field.2
  | .getAll query => lookup query fun positions =>
    .fields ((view.record.fields.valuesAt positions).map (wrap view.policy))
  | .contains query => lookup query fun positions => .flag (select query positions).isSome
  | .resolve query => lookup query fun positions =>
    .spelling <| (select query positions).bind fun position =>
      (view.record.fields[position]?).map (·.1)
  | .entries => plain (.entries view.entries)
  | .names => plain (.names view.names)
  | .size => plain (.count view.size)
  | .inspect => plain (.text (Readable.inspect (View.struct view)).line)
  | .withPolicy policy => (.done, [], view.withPolicy policy)

/-- The view after calls in turn. -/
def run (view : StructView σ) (calls : List SharedCall) : StructView σ :=
  calls.foldl (fun view call => (call.step view).2.2) view

/-- The builds of calls in turn. -/
def builds (view : StructView σ) : List SharedCall → List BuildEvent
  | [] => []
  | call :: rest => (call.step view).2.1 ++ builds (call.step view).2.2 rest

/-! ### One call -/

/-- A lookup reports the build that is pending. -/
theorem step_lookup {call : SharedCall} (h : call.looksUp = true) (view : StructView σ) :
    call.step view = (call.told view, view.pending.toList, view.warm) := by
  cases call with
  | get query | getAll query | contains query | resolve query =>
    simp only [step, NameIndex.consult_eq]
    rfl
  | entries | names | size | inspect | withPolicy => contradiction

/-- Any other call builds nothing and keeps the table. -/
theorem step_plain {call : SharedCall} (h : call.looksUp = false) (view : StructView σ) :
    (call.step view).1 = call.told view ∧ (call.step view).2.1 = [] ∧
      (call.step view).2.2.record = view.record ∧
      (call.step view).2.2.index.built = view.index.built := by
  cases call with
  | get | getAll | contains | resolve => contradiction
  | entries | names | size | inspect | withPolicy => exact ⟨rfl, rfl, rfl, rfl⟩

/-! ### The life of a view that is only read -/

/-- A view that is only read builds once at most: at its first lookup, if it has no fresh table. -/
theorem builds_eq (view : StructView σ) (calls : List SharedCall) :
    builds view calls =
      if view.isFresh = false ∧ calls.any looksUp = true then [view.record.buildReport]
      else [] := by
  induction calls generalizing view with
  | nil => simp [builds]
  | cons call rest ih =>
    rw [builds, ih]
    cases hlook : call.looksUp with
    | true =>
      have hwarm : view.warm.isFresh = true := view.index.isFreshFor_warm view.record
      rw [step_lookup hlook, hwarm, StructView.pending, NameIndex.pending_eq]
      cases hfresh : view.isFresh <;> simp_all [StructView.isFresh]
    | false =>
      obtain ⟨-, hbuilds, hrecord, hbuilt⟩ := step_plain hlook view
      rw [hbuilds, StructView.isFresh_congr hrecord hbuilt, hrecord, List.nil_append,
        List.any_cons, hlook, Bool.false_or]

/-- A new view that is only read builds its table exactly if it is ever asked for a name, once. -/
theorem builds_new (record : Record σ (Value σ)) (policy : Policy) (calls : List SharedCall) :
    builds (.new record policy) calls =
      if calls.any looksUp = true then [record.buildReport] else [] := by
  have hfresh : (StructView.new record policy).isFresh = false := rfl
  rw [builds_eq, hfresh]
  simp [StructView.new]

end SharedCall

/-! ## What is done with a view -/

namespace ViewAction

/-- Whether an action looks up a name. -/
def looksUp : ViewAction → Bool
  | .lookup _ | .writeThrough .. => true
  | _ => false

/-- Whether an action may change names, or puts a new view in the place of the old one. -/
def renews : ViewAction → Bool
  | .add .. | .put .. | .remove _ | .clear | .raw _ | .fork => true
  | _ => false

/-- The tables that an action builds, and the state after it.  What looks up a name consults the
index, and a write goes to the position that is picked; nothing else asks the index. -/
def perform (state : StructState) (action : ViewAction) : List BuildEvent × StructState :=
  match action with
  | .lookup query =>
    let (_, builds, index) := state.view.index.consult state.view.record query
    (builds, { state with view := { state.view with index } })
  | .writeThrough query change =>
    let (positions, builds, index) := state.view.index.consult state.view.record query
    let view : StructView Stamp := { state.view with index }
    let picked := (state.view.policy.select state.view.names query positions).bind fun position =>
      (state.view.record.fields[position]?).map fun field => (position, field.2)
    match picked with
    | some (position, value) =>
      (builds, { state with view := view.writeAt position (change value) })
    | none => (builds, { state with view })
  | action => ([], state.step action)

/-- A lookup reports the build that is pending, and no other action builds. -/
theorem perform_eq (action : ViewAction) (state : StructState) :
    action.perform state = (if action.looksUp then state.builds else [], state.step action) := by
  cases action with
  | lookup query =>
    simp only [perform, NameIndex.consult_eq]
    rfl
  | writeThrough query change =>
    have hpicked : state.view.policy.select state.view.names query
        (state.view.index.lookupAll state.view.record query) = state.view.position? query := rfl
    simp only [perform, NameIndex.consult_eq, hpicked, StructState.step, StructView.writeThrough]
    cases state.view.position? query with
    | none => rfl
    | some position =>
      dsimp only [Option.bind_some]
      cases state.view.record.fields[position]? <;> rfl
  | _ => rfl

end ViewAction

/-- A call on an exclusive view of a struct. -/
inductive ViewCall where
  | read (call : SharedCall)
  | act (action : ViewAction)

namespace ViewCall

/-- Whether a call looks up a name. -/
def looksUp : ViewCall → Bool
  | .read call => call.looksUp
  | .act action => action.looksUp

/-- Whether a call may change names, or puts a new view in the place of the old one. -/
def renews : ViewCall → Bool
  | .read _ => false
  | .act action => action.renews

/-- The builds of a call, and the state after it. -/
def step (state : StructState) : ViewCall → List BuildEvent × StructState
  | .read call =>
    let (_, builds, view) := call.step state.view
    (builds, { state with view })
  | .act action => action.perform state

/-- The state after calls in turn. -/
def run (state : StructState) (calls : List ViewCall) : StructState :=
  calls.foldl (fun state call => (call.step state).2) state

/-- A lookup was made, and since then no call that may change names. -/
def LookedUp (calls : List ViewCall) : Prop :=
  ∃ before call after, calls = before ++ call :: after ∧ call.looksUp = true ∧
    ∀ later ∈ after, later.renews = false

/-- With a call more, it is that call that looks up, or one before it, if that call changes no
names. -/
theorem lookedUp_append_singleton (calls : List ViewCall) (call : ViewCall) :
    LookedUp (calls ++ [call]) ↔
      call.looksUp = true ∨ call.renews = false ∧ LookedUp calls := by
  constructor
  · rintro ⟨before, found, after, hcalls, hlook, hlater⟩
    -- The call that looks up is the last one, or the last one is among those after it.
    rcases List.eq_nil_or_concat after with rfl | ⟨init, last, rfl⟩
    · obtain ⟨-, hlast⟩ := List.append_inj' hcalls rfl
      rw [List.singleton_inj] at hlast
      exact .inl (hlast ▸ hlook)
    · rw [List.concat_eq_append, ← List.cons_append, ← List.append_assoc] at hcalls
      obtain ⟨rfl, hlast⟩ := List.append_inj' hcalls rfl
      rw [List.singleton_inj] at hlast
      refine .inr ⟨hlast ▸ hlater last (by simp), before, found, init, rfl, hlook, ?_⟩
      intro later hmem
      exact hlater later (by simp [hmem])
  · rintro (hlook | ⟨hrenews, before, found, after, rfl, hlook, hlater⟩)
    · exact ⟨calls, call, [], rfl, hlook, by simp⟩
    · refine ⟨before, found, after ++ [call], by simp, hlook, ?_⟩
      intro later hmem
      rcases List.mem_append.mp hmem with hmem | hmem
      · exact hlater later hmem
      · rwa [List.mem_singleton.mp hmem]

/-! ### One call -/

/-- What an action builds and leaves as a call. -/
theorem step_act (action : ViewAction) (state : StructState) : (act action).step state =
    (if action.looksUp then state.builds else [], state.step action) :=
  action.perform_eq state

/-- A lookup leaves a fresh table. -/
theorem isFresh_step_of_looksUp {call : ViewCall} (h : call.looksUp = true) (state : StructState) :
    (call.step state).2.view.isFresh = true := by
  have hwarm : state.view.warm.isFresh = true := state.view.index.isFreshFor_warm state.view.record
  cases call with
  | read call =>
    rw [step, SharedCall.step_lookup h]
    exact hwarm
  | act action =>
    rw [step_act]
    cases action with
    | lookup => exact hwarm
    | writeThrough query change =>
      change (state.view.writeThrough query change).isFresh = true
      unfold StructView.writeThrough
      split
      · exact hwarm
      · split <;> exact hwarm
    | _ => contradiction

/-- A call that may change names leaves no table. -/
theorem isFresh_step_of_renews {call : ViewCall} (h : call.renews = true) (state : StructState) :
    (call.step state).2.view.isFresh = false := by
  cases call with
  | read call => contradiction
  | act action =>
    cases action with
    | add | put | remove | clear | raw | fork => rfl
    | _ => contradiction

/-- Any other call keeps the table, and the stamp of the struct. -/
theorem isFresh_step_of_else {call : ViewCall} (hlook : call.looksUp = false)
    (hrenews : call.renews = false) (state : StructState) :
    (call.step state).2.view.isFresh = state.view.isFresh := by
  cases call with
  | read call =>
    obtain ⟨-, -, hrecord, hbuilt⟩ := SharedCall.step_plain hlook state.view
    exact StructView.isFresh_congr hrecord hbuilt
  | act action =>
    cases action with
    | withPolicy | writeAt | mapValues | elsewhere => rfl
    | _ => contradiction

/-- A lookup without a fresh table builds one, and nothing else builds any. -/
theorem builds_step (call : ViewCall) (state : StructState) :
    (call.step state).1 =
      if call.looksUp = true ∧ state.view.isFresh = false then [state.view.record.buildReport]
      else [] := by
  have hpending : state.builds =
      if state.view.isFresh = false then [state.view.record.buildReport] else [] := by
    rw [StructState.builds, StructView.pending, NameIndex.pending_eq, StructView.isFresh]
    cases state.view.index.isFreshFor state.view.record <;> rfl
  have hstep : (call.step state).1 = if call.looksUp = true then state.builds else [] := by
    cases call with
    | read call =>
      cases hlook : call.looksUp with
      | true =>
        rw [step, SharedCall.step_lookup hlook, looksUp, hlook]
        rfl
      | false => simp [step, (SharedCall.step_plain hlook state.view).2.1, looksUp, hlook]
    | act action => rw [step_act, looksUp]
  rw [hstep, hpending, ite_and]

/-! ### Runs -/

/-- With a call more. -/
theorem run_append_singleton (state : StructState) (calls : List ViewCall) (call : ViewCall) :
    run state (calls ++ [call]) = (call.step (run state calls)).2 := by
  rw [run, List.foldl_append]
  rfl

/-- At the end of a run a table is fresh exactly if there was a lookup and names cannot have changed
since. -/
theorem isFresh_run_iff {state : StructState} (hstart : state.view.isFresh = false)
    (calls : List ViewCall) : (run state calls).view.isFresh = true ↔ LookedUp calls := by
  induction calls using List.reverseRecOn with
  | nil =>
    rw [run, List.foldl_nil, hstart]
    simp [LookedUp]
  | append_singleton calls call ih =>
    rw [run_append_singleton, lookedUp_append_singleton, ← ih]
    cases hlook : call.looksUp with
    | true => simp [isFresh_step_of_looksUp hlook]
    | false =>
      cases hrenews : call.renews with
      | true => simp [isFresh_step_of_renews hrenews]
      | false => simp [isFresh_step_of_else hlook hrenews]

/-- Calls keep a view sound. -/
theorem sound_step {state : StructState} (h : state.view.Sound) (call : ViewCall) :
    (call.step state).2.view.Sound := by
  cases call with
  | act action =>
    rw [step_act]
    exact StructState.sound_step h action
  | read call =>
    cases hlook : call.looksUp with
    | true =>
      rw [step, SharedCall.step_lookup hlook]
      exact h.warm
    | false =>
      obtain ⟨-, -, hrecord, hbuilt⟩ := SharedCall.step_plain hlook state.view
      intro built hsome
      change (call.step state.view).2.2.index.built = some built at hsome
      rw [h built (hbuilt ▸ hsome), step, hrecord]

/-- A view is sound at the end of every run. -/
theorem sound_run {state : StructState} (h : state.view.Sound) (calls : List ViewCall) :
    (run state calls).view.Sound := by
  induction calls generalizing state with
  | nil => exact h
  | cons call rest ih => exact ih (sound_step h call)

/-! ### The builds of a run -/

/-- A view builds its table exactly when the table there is has to be distrusted. -/
structure RebuildsWhenDistrusted (start : StructState) : Prop where
  /-- A lookup builds exactly if none was made since the view was made or names may last have
  changed. -/
  builds_iff : ∀ calls (call : ViewCall), call.looksUp = true →
    ((call.step (run start calls)).1 ≠ [] ↔ ¬ LookedUp calls)
  /-- Right before a lookup, the table is fresh exactly if the lookup builds none. -/
  isFresh_iff : ∀ calls (call : ViewCall), call.looksUp = true →
    ((run start calls).view.isFresh = true ↔ (call.step (run start calls)).1 = [])
  /-- A build is reported once, with the number of fields and of names up to case. -/
  report_eq : ∀ calls (call : ViewCall), (call.step (run start calls)).1 ≠ [] →
    (call.step (run start calls)).1 = [⟨(run start calls).view.record.fields.length,
      ((run start calls).view.record.names.map foldCase).toFinset.card⟩]
  /-- Only lookups build. -/
  quiet : ∀ calls (call : ViewCall), call.looksUp = false → (call.step (run start calls)).1 = []
  /-- Calls that look up nothing and change no names make no difference to the next lookup. -/
  kept : ∀ calls (call : ViewCall), call.looksUp = false → call.renews = false →
    (call.step (run start calls)).2.view.isFresh = (run start calls).view.isFresh
  /-- After a call that may change names there is no fresh table, whatever the call did. -/
  dropped : ∀ calls (call : ViewCall), call.renews = true →
    (call.step (run start calls)).2.view.isFresh = false
  /-- A table that is there always has the stamp of the struct. -/
  matched : ∀ calls, (run start calls).view.isFresh = (run start calls).view.index.built.isSome

/-- So does a new view of any struct. -/
theorem rebuildsWhenDistrusted (record : Record Stamp (Value Stamp)) (policy : Policy)
    (clock : Clock) : RebuildsWhenDistrusted (.start record policy clock) where
  builds_iff calls call hlook := by
    have hstart : (StructState.start record policy clock).view.isFresh = false := rfl
    rw [builds_step, hlook, ← isFresh_run_iff hstart calls]
    simp
  isFresh_iff calls call hlook := by
    rw [builds_step, hlook]
    simp
  report_eq calls call hbuilds := by
    rw [builds_step] at hbuilds ⊢
    rw [if_pos (by_contra fun h => hbuilds (if_neg h))]
    rfl
  quiet calls call hlook := by
    rw [builds_step, hlook]
    simp
  kept calls call hlook hrenews := isFresh_step_of_else hlook hrenews _
  dropped calls call hrenews := isFresh_step_of_renews hrenews _
  matched calls := (sound_run (StructView.sound_of_built_eq_none rfl) calls).isFresh_eq

/-- The builds of calls in turn. -/
def builds (state : StructState) : List ViewCall → List BuildEvent
  | [] => []
  | call :: rest => (call.step state).1 ++ builds (call.step state).2 rest

end ViewCall

/-! ## Sessions are runs -/

namespace StructCommand

open ViewCall

/-- What some calls build and leave. -/
def Reachable (state : StructState) (outcome : List BuildEvent × StructState) : Prop :=
  ∃ calls, outcome = (builds state calls, run state calls)

/-- A change of the struct behind the view is one call, which builds nothing. -/
theorem reachable_reworking {α : Type} (state : StructState)
    (change : Record Stamp (Value Stamp) → Clock → α × Record Stamp (Value Stamp) × Clock) :
    Reachable state ([], (state.reworking change).2) :=
  ⟨[.act (.raw fun record clock => (change record clock).2)], rfl⟩

/-- So is a change that stores a value, stamped first. -/
theorem reachable_storing {α : Type} (state : StructState) (value : Value)
    (change : Record Stamp (Value Stamp) → Value Stamp → Clock →
      α × Record Stamp (Value Stamp) × Clock) :
    Reachable state ([], (state.storing value change).2) :=
  ⟨[.act (.raw fun record clock =>
    (change record (value.stamped clock).1 (value.stamped clock).2).2)], rfl⟩

/-- What is done after a lookup, and builds nothing, leaves the builds of the lookup. -/
theorem reachable_of_warm {state next : StructState} (query : String)
    (h : Reachable state.warm ([], next)) : Reachable state (state.builds, next) := by
  obtain ⟨calls, hcalls⟩ := h
  obtain ⟨hbuilds, hnext⟩ := Prod.mk.inj hcalls
  have hstep : (ViewCall.act (.lookup query)).step state = (state.builds, state.warm) :=
    step_act (.lookup query) state
  have hall : builds state (.act (.lookup query) :: calls) = state.builds := by
    rw [builds, hstep, ← hbuilds, List.append_nil]
  have hrun : run state (.act (.lookup query) :: calls) = run state.warm calls :=
    congrArg (fun outcome => run outcome.2 calls) hstep
  exact ⟨.act (.lookup query) :: calls, Prod.ext hall.symm (hnext.trans hrun.symm)⟩

/-- A lookup is one call. -/
theorem reachable_lookup (state : StructState) (query : String) :
    Reachable state (state.builds, state.warm) :=
  reachable_of_warm query ⟨[], rfl⟩

/-- Every command of a session on a view builds and leaves what some calls do; a lookup in a shared
view that is made for it is a call on that view. -/
theorem exists_calls (state : StructState) (command : StructCommand) :
    Reachable state (command.step state).2 ∨ ∃ name, command = .sharedGet name ∧
      (command.step state).2 = (SharedCall.builds state.view.fork [.get name], state) := by
  cases command <;> simp only [StructCommand.step]
  case sharedGet name =>
    refine .inr ⟨name, rfl, Prod.ext ?_ rfl⟩
    rw [SharedCall.builds, SharedCall.step_lookup rfl]
    exact (List.append_nil _).symm
  all_goals refine .inl ?_
  -- Commands that only read, and those that are one action on the view.
  case info => exact ⟨[.read .size], rfl⟩
  case names => exact ⟨[.read .names], rfl⟩
  case pick | json => exact ⟨[.read .entries], rfl⟩
  case inspect => exact ⟨[.read .inspect], rfl⟩
  case withPolicy policy => exact ⟨[.read (.withPolicy policy)], rfl⟩
  case get name | getAll name | contains name | resolve name => exact reachable_lookup state name
  case double => exact ⟨[.act (.mapValues Value.doubled)], rfl⟩
  case renew => exact ⟨[.act .fork], rfl⟩
  -- Changes of the struct behind the view.
  case add | put | addView | putView | rawAdd | rawWrite => exact reachable_storing ..
  case remove | clear | rawSize | rawRemove | rawRemoveAt | rawReplace =>
    exact reachable_reworking ..
  -- A lookup first, and then what its outcome asks for.
  case write name value =>
    split
    · exact reachable_lookup state name
    · rename_i position _
      split
      · exact reachable_of_warm name ⟨[.act (.writeAt position (value.stamped state.clock).1),
          .act (.elsewhere (value.stamped state.clock).2)], rfl⟩
      · exact reachable_lookup state name
      · exact reachable_lookup state name
  case putResolved name value =>
    split
    · exact reachable_lookup state name
    · exact reachable_of_warm name (reachable_storing ..)
  case removeResolved name =>
    split
    · exact reachable_lookup state name
    · exact reachable_of_warm name (reachable_reworking ..)

end StructCommand
end Caseless
