import Caseless.Proofs.Name.Lookup
import Caseless.Session.Struct

/-!
# Runs of a struct view

A view of a struct is used in any order: names are looked up, the policy is switched, values are
written in place, fields are added and taken out, and the struct behind the view is changed or
replaced at will.  The name table is built and dropped along the way, but no answer shows it: at
every point of a run the view answers as a linear scan of its current names does.

The invariant is that a table, where there is one, is the table of the current record.  Only the
names and the stamp decide what the table of a record is, so writing values keeps the invariant;
whatever may change names drops the table.

Main results:

- Definition `ViewAction`: what is done with a view, and `StructState.run`: doing it in turn;
- Definition `StructView.AnswersAsScan`: what the view answers to a query;
- Theorem `StructState.sound_run`: the invariant holds at the end of every run;
- Theorem `StructState.run_answersAsScan`: so does `AnswersAsScan`, for every query.
-/

namespace Caseless

open Name

variable {σ : Type}

/-! ## What a view answers -/

/-- A view answers to a query as a linear scan of its names does. -/
structure StructView.AnswersAsScan [DecidableEq σ] (view : StructView σ) (query : String) :
    Prop where
  /-- All matching fields are handed out in the order of their positions. -/
  getAll_eq : (view.getAll query).map some =
    (matching view.names query).map fun position =>
      (view.record.fields[position]?).map fun field => wrap view.policy field.2
  /-- The announced number of matching fields is the number of matches. -/
  countAll_eq : view.countAll query = (matching view.names query).length
  /-- One field is handed out: the one that the scan selects. -/
  get?_eq : view.get? query = (scan view.policy view.names query).bind fun position =>
    (view.record.fields[position]?).map fun field => wrap view.policy field.2
  /-- The spelling handed out is that of the selected field. -/
  resolve?_eq : view.resolve? query = (scan view.policy view.names query).bind fun position =>
    view.names[position]?
  /-- A write goes to the selected field, and to no other. -/
  writeThrough_eq : ∀ change, (view.writeThrough query change).record =
    match scan view.policy view.names query with
    | some position => { view.record with
        fields := view.record.fields.modify position fun field => (field.1, change field.2) }
    | none => view.record
  /-- A field is found exactly when there is a match, in whichever way it is asked for. -/
  contains_eq : view.contains query = !(matching view.names query).isEmpty
  get?_isSome : (view.get? query).isSome = view.contains query
  resolve?_isSome : (view.resolve? query).isSome = view.contains query
  /-- The past of the view is not seen: a new view of the same fields answers the same. -/
  new_eq : ∀ stamp, let view' : StructView σ := .new ⟨stamp, view.record.fields⟩ view.policy
    view.get? query = view'.get? query ∧ view.resolve? query = view'.resolve? query ∧
      view.getAll query = view'.getAll query ∧ view.countAll query = view'.countAll query ∧
      view.contains query = view'.contains query

/-- The values at positions of fields are all there. -/
theorem Fields.map_some_valuesAt {α : Type} (fields : Fields α) (positions : List Nat)
    (h : ∀ position ∈ positions, position < fields.length) :
    (fields.valuesAt positions).map some = positions.map fun position =>
      (fields[position]?).map (·.2) := by
  induction positions with
  | nil => rfl
  | cons position rest ih =>
    have hposition : position < fields.length := h position (by simp)
    have hrest := ih fun other hmem => h other (by simp [hmem])
    simp only [valuesAt, List.getElem?_eq_getElem hposition, List.map_cons, hrest, Option.map_some]

/-- Whatever a scan of the names of fields selects is the position of a field. -/
theorem Fields.exists_field_of_scan {α : Type} {fields : Fields α} {policy : Policy}
    {query : String} {position : Nat} (h : scan policy fields.names query = some position) :
    ∃ field, fields[position]? = some field := by
  have hlt : position < fields.names.length := lt_length_of_mem_matching (mem_matching_of_scan h)
  rw [names, List.length_map] at hlt
  exact ⟨_, List.getElem?_eq_getElem hlt⟩

namespace StructView

variable [DecidableEq σ] {view : StructView σ}

/-- The position that a view true of its record resolves a name to. -/
theorem position?_eq_scan (h : view.index.TrueOf view.record) (query : String) :
    view.position? query = scan view.policy view.names query :=
  h.lookup_eq_scan query

/-- The answers of two views that are true of records with the same fields are the same. -/
theorem answers_congr {view view' : StructView σ} (h : view.index.TrueOf view.record)
    (h' : view'.index.TrueOf view'.record) (hfields : view.record.fields = view'.record.fields)
    (hpolicy : view.policy = view'.policy) (query : String) :
    view.position? query = view'.position? query ∧
      view.index.lookupAll view.record query = view'.index.lookupAll view'.record query := by
  have hnames : view.record.names = view'.record.names := congrArg Fields.names hfields
  constructor
  · rw [position?_eq_scan h, position?_eq_scan h', hpolicy, names, names, hnames]
  · rw [h.lookupAll_eq_matching, h'.lookupAll_eq_matching, hnames]

/-- A view whose index is true of its record answers as a scan does. -/
theorem answersAsScan_of_trueOf (h : view.index.TrueOf view.record) (query : String) :
    view.AnswersAsScan query := by
  have hposition := position?_eq_scan h query
  have hall : view.index.lookupAll view.record query = matching view.names query :=
    h.lookupAll_eq_matching query
  have hcontains : view.contains query = !(matching view.names query).isEmpty := by
    rw [contains, hposition, isSome_scan]
  refine
    { getAll_eq := ?_, countAll_eq := ?_, get?_eq := ?_, resolve?_eq := ?_, writeThrough_eq := ?_,
      contains_eq := hcontains, get?_isSome := ?_, resolve?_isSome := ?_, new_eq := ?_ }
  · have hvalues := Fields.map_some_valuesAt view.record.fields (matching view.names query) <| by
      intro position hmem
      have hlt := lt_length_of_mem_matching hmem
      rwa [names, Record.names, Fields.names, List.length_map] at hlt
    rw [getAll, hall, List.map_map,
      show some ∘ wrap view.policy = Option.map (wrap view.policy) ∘ some from rfl,
      ← List.map_map, hvalues, List.map_map]
    refine List.map_congr_left fun position _ => ?_
    rw [Function.comp_apply, Option.map_map]
    rfl
  · rw [countAll, hall]
  · rw [get?, hposition]
  · rw [resolve?, hposition]
    congr 1
    funext position
    rw [names, Record.names, Fields.names, List.getElem?_map]
  · intro change
    rw [writeThrough, hposition]
    cases hscan : scan view.policy view.names query with
    | none => rfl
    | some position =>
      rcases Fields.exists_field_of_scan hscan with ⟨field, hfield⟩
      simp only [hfield, writeAt, warm, Record.setAt, Fields.setAt]
      congr 1
      refine List.ext_getElem? fun i => ?_
      rw [List.getElem?_modify, List.getElem?_modify]
      by_cases hi : position = i
      · subst hi
        rw [hfield]
        rfl
      · simp [hi]
  · rw [contains, get?, hposition]
    cases hscan : scan view.policy view.names query with
    | none => rfl
    | some position =>
      rcases Fields.exists_field_of_scan hscan with ⟨field, hfield⟩
      simp [hfield]
  · rw [contains, resolve?, hposition]
    cases hscan : scan view.policy view.names query with
    | none => rfl
    | some position =>
      rcases Fields.exists_field_of_scan hscan with ⟨field, hfield⟩
      simp [hfield]
  · intro stamp view'
    have htrue : view'.index.TrueOf view'.record := NameIndex.trueOf_of_built_eq_none _ rfl
    rcases answers_congr h htrue rfl rfl query with ⟨hsame, hsameAll⟩
    refine ⟨?_, ?_, ?_, ?_, ?_⟩
    · rw [get?, get?, hsame]
      rfl
    · rw [resolve?, resolve?, hsame]
      rfl
    · rw [getAll, getAll, hsameAll]
      rfl
    · rw [countAll, countAll, hsameAll]
    · rw [contains, contains, hsame]

end StructView

/-! ## Actions and runs -/

/-- What is done with a view of a struct. -/
inductive ViewAction where
  /-- A name is asked for: one field, all fields, whether there is one, or its spelling. -/
  | lookup (query : String)
  | withPolicy (policy : Policy)
  /-- The field that a name resolves to is written through. -/
  | writeThrough (query : String) (change : Value Stamp → Value Stamp)
  /-- A field that was reached by enumeration is written. -/
  | writeAt (position : Nat) (value : Value Stamp)
  /-- All fields are enumerated and written. -/
  | mapValues (f : Value Stamp → Value Stamp)
  | add (name : String) (value : Value Stamp)
  | put (name : String) (value : Value Stamp)
  | remove (name : String)
  | clear
  /-- The struct behind the view is changed in any way, and may come out as any struct: a new one, a
  copy that was taken at any time, or one that it was swapped with. -/
  | raw (change : Record Stamp (Value Stamp) → Clock → Record Stamp (Value Stamp) × Clock)
  /-- A copy of the view takes its place. -/
  | fork
  /-- Stamps are taken for other structs. -/
  | elsewhere (clock : Clock)

/-- The policy that an action switches to. -/
def ViewAction.switchedTo? : ViewAction → Option Policy
  | .withPolicy policy => some policy
  | _ => none

namespace StructState

/-- A new view of a record. -/
def start (record : Record Stamp (Value Stamp)) (policy : Policy) (clock : Clock) : StructState :=
  ⟨.new record policy, clock⟩

/-- The state after an action. -/
def step (state : StructState) : ViewAction → StructState
  | .lookup _ => state.warm
  | .withPolicy policy => { state with view := state.view.withPolicy policy }
  | .writeThrough query change => { state with view := state.view.writeThrough query change }
  | .writeAt position value => { state with view := state.view.writeAt position value }
  | .mapValues f => { state with view := state.view.mapValues f }
  | .add name value =>
    let (view, clock) := state.view.add name value state.clock
    ⟨view, clock⟩
  | .put name value =>
    let (_, view, clock) := state.view.put name value state.clock
    ⟨view, clock⟩
  | .remove name =>
    let (_, view, clock) := state.view.remove name state.clock
    ⟨view, clock⟩
  | .clear =>
    let (view, clock) := state.view.clear state.clock
    ⟨view, clock⟩
  | .raw change => (state.reworking fun record clock => ((), change record clock)).2
  | .fork => { state with view := state.view.fork }
  | .elsewhere clock => { state with clock }

/-- The state after actions in turn. -/
def run (state : StructState) (actions : List ViewAction) : StructState :=
  actions.foldl step state

/-- The policy last switched to, if any action switches, and else the one at first. -/
def lastPolicy (policy : Policy) (actions : List ViewAction) : Policy :=
  (actions.filterMap ViewAction.switchedTo?).getLastD policy

/-- No action but a switch changes the policy of the view. -/
theorem policy_step (state : StructState) (action : ViewAction) :
    (state.step action).view.policy = action.switchedTo?.getD state.view.policy := by
  cases action with
  | writeThrough query change =>
    change (state.view.writeThrough query change).policy = state.view.policy
    unfold StructView.writeThrough
    split
    · rfl
    · split <;> rfl
  | _ => rfl

theorem policy_run (state : StructState) (actions : List ViewAction) :
    (state.run actions).view.policy = lastPolicy state.view.policy actions := by
  induction actions generalizing state with
  | nil => rfl
  | cons action rest ih =>
    refine (ih (state.step action)).trans ?_
    rw [policy_step, lastPolicy, lastPolicy, List.filterMap_cons]
    cases action.switchedTo? with
    | none => rfl
    | some policy => exact (List.getLastD_cons ..).symm

end StructState

/-! ## The invariant -/

/-- A table of the view, where there is one, is the table of the record behind the view. -/
def StructView.Sound (view : StructView σ) : Prop :=
  ∀ built, view.index.built = some built → built = .build view.record

namespace StructView

theorem sound_of_built_eq_none {view : StructView σ} (h : view.index.built = none) :
    view.Sound := by
  intro built hbuilt
  rw [h] at hbuilt
  contradiction

/-- A sound view's index is true of its record. -/
theorem Sound.trueOf {view : StructView σ} (h : view.Sound) : view.index.TrueOf view.record := by
  intro built hbuilt _
  rw [h built hbuilt]
  rfl

/-- The table of a record depends only on its stamp and its names. -/
theorem build_congr {α : Type} {record record' : Record σ α} (hstamp : record.stamp = record'.stamp)
    (hnames : record.names = record'.names) :
    BuiltIndex.build record = BuiltIndex.build record' := by
  rw [BuiltIndex.build, BuiltIndex.build, hstamp, hnames]

/-- A lookup keeps a view sound: it uses the table that is there, or builds the right one. -/
theorem Sound.warm [DecidableEq σ] {view : StructView σ} (h : view.Sound) : view.warm.Sound := by
  intro built hbuilt
  have htable : built = view.index.tableFor view.record := (Option.some.inj hbuilt).symm
  rw [htable]
  unfold NameIndex.tableFor
  split
  · rename_i old hold
    split
    · exact h old hold
    · rfl
  · rfl

theorem Sound.writeAt {view : StructView σ} (h : view.Sound) (position : Nat) (value : Value σ) :
    (view.writeAt position value).Sound := by
  intro built hbuilt
  rw [h built hbuilt]
  exact build_congr (Record.setAt_stamp ..).symm (Record.setAt_names ..).symm

theorem Sound.mapValues {view : StructView σ} (h : view.Sound) (f : Value σ → Value σ) :
    (view.mapValues f).Sound := by
  intro built hbuilt
  rw [h built hbuilt]
  exact build_congr (Record.mapValues_stamp ..).symm (Record.mapValues_names ..).symm

theorem Sound.writeThrough [DecidableEq σ] {view : StructView σ} (h : view.Sound) (query : String)
    (change : Value σ → Value σ) : (view.writeThrough query change).Sound := by
  unfold StructView.writeThrough
  split
  · exact h.warm
  · split
    · exact h.warm.writeAt _ _
    · exact h.warm

end StructView

namespace StructState

/-- Every action keeps the view sound. -/
theorem sound_step {state : StructState} (h : state.view.Sound) (action : ViewAction) :
    (state.step action).view.Sound := by
  cases action with
  | lookup query => exact h.warm
  | withPolicy policy => exact h
  | writeThrough query change => exact h.writeThrough query change
  | writeAt position value => exact h.writeAt position value
  | mapValues f => exact h.mapValues f
  | add name value => exact StructView.sound_of_built_eq_none rfl
  | put name value => exact StructView.sound_of_built_eq_none rfl
  | remove name => exact StructView.sound_of_built_eq_none rfl
  | clear => exact StructView.sound_of_built_eq_none rfl
  | raw change => exact StructView.sound_of_built_eq_none rfl
  | fork => exact StructView.sound_of_built_eq_none rfl
  | elsewhere clock => exact h

/-- A view is sound at the end of every run. -/
theorem sound_run {state : StructState} (h : state.view.Sound) (actions : List ViewAction) :
    (state.run actions).view.Sound := by
  induction actions generalizing state with
  | nil => exact h
  | cons action rest ih => exact ih (sound_step h action)

/-- At every point of every run, a view has the policy last switched to, and answers to every query
as a linear scan of its current names does under that policy. -/
theorem run_answersAsScan (record : Record Stamp (Value Stamp)) (policy : Policy) (clock : Clock)
    (actions : List ViewAction) (query : String) :
    ((start record policy clock).run actions).view.policy = lastPolicy policy actions ∧
      ((start record policy clock).run actions).view.AnswersAsScan query := by
  refine ⟨policy_run (start record policy clock) actions, ?_⟩
  have hstart : (start record policy clock).view.Sound := StructView.sound_of_built_eq_none rfl
  exact StructView.answersAsScan_of_trueOf (sound_run hstart actions).trueOf query

end StructState

/-! ## Sessions are runs -/

/-- A change of the struct behind the view is one raw action. -/
theorem StructState.exists_run_reworking {α : Type} (state : StructState)
    (change : Record Stamp (Value Stamp) → Clock → α × Record Stamp (Value Stamp) × Clock) :
    ∃ actions, (state.reworking change).2 = state.run actions :=
  ⟨[.raw fun record clock => (change record clock).2], rfl⟩

/-- A change that stores a value, stamped first, is one raw action. -/
theorem StructState.exists_run_storing {α : Type} (state : StructState) (value : Value)
    (change : Record Stamp (Value Stamp) → Value Stamp → Clock →
      α × Record Stamp (Value Stamp) × Clock) :
    ∃ actions, (state.storing value change).2 = state.run actions :=
  ⟨[.raw fun record clock => (change record (value.stamped clock).1 (value.stamped clock).2).2],
    rfl⟩

/-- What a run does after a lookup, a run does. -/
theorem StructState.exists_run_of_warm {state next : StructState} (query : String)
    (h : ∃ actions, next = state.warm.run actions) : ∃ actions, next = state.run actions := by
  rcases h with ⟨actions, hnext⟩
  exact ⟨.lookup query :: actions, hnext⟩

/-- Every command of a session does to the view what some run does. -/
theorem StructCommand.exists_run (state : StructState) (command : StructCommand) :
    ∃ actions, (command.step state).2.2 = state.run actions := by
  cases command <;> simp only [step]
  -- Commands that only read, and those that are one action on the view.
  case info | names | pick | sharedGet | inspect | json => exact ⟨[], rfl⟩
  case withPolicy policy => exact ⟨[.withPolicy policy], rfl⟩
  case get name | getAll name | contains name | resolve name => exact ⟨[.lookup name], rfl⟩
  case double => exact ⟨[.mapValues Value.doubled], rfl⟩
  case renew => exact ⟨[.fork], rfl⟩
  -- Changes of the struct behind the view.
  case add | put | addView | putView | rawAdd | rawWrite =>
    exact StructState.exists_run_storing ..
  case remove | clear | rawSize | rawRemove | rawRemoveAt | rawReplace =>
    exact StructState.exists_run_reworking ..
  -- A lookup first, and then what its outcome asks for.
  case write name value =>
    split
    · exact ⟨[.lookup name], rfl⟩
    · rename_i position _
      split
      · exact ⟨[.lookup name, .writeAt position (value.stamped state.clock).1,
          .elsewhere (value.stamped state.clock).2], rfl⟩
      · exact ⟨[.lookup name], rfl⟩
      · exact ⟨[.lookup name], rfl⟩
  case putResolved name value =>
    split
    · exact ⟨[.lookup name], rfl⟩
    · refine StructState.exists_run_of_warm name ?_
      dsimp only
      exact StructState.exists_run_storing ..
  case removeResolved name =>
    split
    · exact ⟨[.lookup name], rfl⟩
    · refine StructState.exists_run_of_warm name ?_
      dsimp only
      exact StructState.exists_run_reworking ..

end Caseless
