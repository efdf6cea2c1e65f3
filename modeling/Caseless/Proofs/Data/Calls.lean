import Caseless.CallTree
import Caseless.Proofs.View.Presents

/-!
# Making the calls of a tree

Writing a handle to a serializer makes the calls of the handle's tree one by one, whatever the
serializer does at each of them.  A serializer that notes what it is given notes that very tree, so
the tree says all there is to say about the calls.  A serializer may also refuse a call, and then no
further call is made.

Main results:

- Definition `CallTree.run` and Theorem `Readable.emit_eq_run`: writing a handle is making the calls
  of its tree;
- Definition `CallTree.recorder` and Theorem `CallTree.run_emit_recorder`: a serializer that notes
  the tree of what it is given; so no two trees make the same calls (`CallTree.MadeBy.unique`);
- Definition `Serializer.Ran` and Theorem `Serializer.ran_forM`: calls in turn, up to the first that
  fails;
- Theorem `CallTree.stopsAtFailure`: the calls of a tree are such, at the root and at any depth.
-/

namespace Caseless

open Readable

/-! ## Making the calls of a tree -/

namespace CallTree

section

variable {m : Type → Type} [Monad m]

mutual

/-- Makes the calls of a tree on a serializer. -/
def run (serializer : Serializer m) : CallTree → m Unit
  | .leaf call => serializer.scalar call
  | .seq announced elements => serializer.seq announced (runElements serializer elements)
  | .map announced entries => serializer.map announced (runEntries serializer entries)

/-- What it takes to write each element. -/
def runElements (serializer : Serializer m) : List CallTree → List (m Unit)
  | [] => []
  | tree :: rest => run serializer tree :: runElements serializer rest

/-- What it takes to write the value of each entry. -/
def runEntries (serializer : Serializer m) : List (String × CallTree) → List (String × m Unit)
  | [] => []
  | (name, tree) :: rest => (name, run serializer tree) :: runEntries serializer rest

end

theorem runElements_eq_map (serializer : Serializer m) (elements : List CallTree) :
    runElements serializer elements = elements.map (run serializer) := by
  induction elements with
  | nil => rfl
  | cons tree rest ih => rw [runElements, ih, List.map_cons]

theorem runEntries_eq_map (serializer : Serializer m) (entries : List (String × CallTree)) :
    runEntries serializer entries = entries.map fun entry => (entry.1, run serializer entry.2) := by
  induction entries with
  | nil => rfl
  | cons entry rest ih =>
    obtain ⟨name, tree⟩ := entry
    rw [runEntries, ih, List.map_cons]

/-- The calls of a node's tree are those of the node, given the calls of its children. -/
theorem run_calls (serializer : Serializer m) (node : Node CallTree) :
    run serializer node.calls = Node.emit serializer (node.map (run serializer)) := by
  cases node with
  | scalar payload => rfl
  | seq kind elements =>
    simp only [Node.calls, run, runElements_eq_map, Node.map, Node.emit, List.length_map]
  | struct fields =>
    simp only [Node.calls, run, runEntries_eq_map, Node.map, Node.emit, List.length_map]

end

/-- What writes to any serializer makes the calls of a tree. -/
def MadeBy (tree : CallTree)
    (write : ∀ {m : Type → Type} [Monad m], Serializer m → m Unit) : Prop :=
  ∀ {m : Type → Type} [Monad m] (serializer : Serializer m), write serializer = tree.run serializer

end CallTree

/-- Writing a handle makes the calls of its tree. -/
theorem Readable.emit_eq_run {α : Type} [Readable α] {m : Type → Type} [Monad m]
    (serializer : Serializer m) (handle : α) :
    emit serializer handle = (calls handle).run serializer := by
  have hstep : ∀ handle : α, (calls handle).run serializer =
      Node.emit serializer ((visit handle).map fun child => (calls child).run serializer) := by
    intro handle
    rw [calls_eq, CallTree.run_calls, Node.map_map]
    rfl
  exact (eq_fold hstep handle).symm

/-! ## The tree that was written -/

namespace CallTree

/-- A container with one more element. -/
def addElement (container element : CallTree) : CallTree :=
  match container with
  | .seq announced elements => .seq announced (elements ++ [element])
  | _ => container

/-- A container with one more entry. -/
def addEntry (container : CallTree) (name : String) (value : CallTree) : CallTree :=
  match container with
  | .map announced entries => .map announced (entries ++ [(name, value)])
  | _ => container

/-- A serializer that notes the calls of the value that is being written. -/
def recorder : Serializer (StateM CallTree) where
  scalar call := set (CallTree.leaf call)
  seqStart announced := set (CallTree.seq announced [])
  element value := do
    let container ← get
    value
    modify fun element => container.addElement element
  seqEnd := pure ()
  mapStart announced := set (CallTree.map announced [])
  entry name value := do
    let container ← get
    value
    modify fun element => container.addEntry name element
  mapEnd := pure ()

/-- An element is noted in the container that it belongs to. -/
theorem run_recorder_element {write : StateM CallTree Unit} {element : CallTree}
    (h : ∀ noted, StateT.run write noted = ((), element)) (container : CallTree) :
    StateT.run (recorder.element write) container = ((), container.addElement element) := by
  change StateT.run (do
    let container ← get
    write
    modify fun element => container.addElement element) container = _
  rw [StateT.run_bind]
  change StateT.run (do
    write
    modify fun element => container.addElement element) container = _
  rw [StateT.run_bind, h container]
  rfl

/-- An entry is noted in the container that it belongs to. -/
theorem run_recorder_entry {write : StateM CallTree Unit} {value : CallTree}
    (h : ∀ noted, StateT.run write noted = ((), value)) (name : String) (container : CallTree) :
    StateT.run (recorder.entry name write) container = ((), container.addEntry name value) := by
  change StateT.run (do
    write
    modify fun value => container.addEntry name value) container = _
  rw [StateT.run_bind, h container]
  rfl

-- What is noted before a child is the container so far, and what is noted right after it is the
-- child; so the induction on the lists of a tree is over containers with any children before.
mutual

/-- The recorder notes the tree whose calls are made on it. -/
theorem run_recorder (tree noted : CallTree) :
    StateT.run (tree.run recorder) noted = ((), tree) := by
  cases tree with
  | leaf call => rfl
  | seq announced elements => exact forM_recorder_element announced [] elements
  | map announced entries => exact forM_recorder_entry announced [] entries

theorem forM_recorder_element (announced : Nat) (before elements : List CallTree) :
    StateT.run ((runElements recorder elements).forM recorder.element) (.seq announced before) =
      ((), .seq announced (before ++ elements)) := by
  cases elements with
  | nil => rw [List.append_nil]; rfl
  | cons element rest =>
    have helement := run_recorder_element (run_recorder element) (.seq announced before)
    have hrest := forM_recorder_element announced (before ++ [element]) rest
    rw [List.append_assoc] at hrest
    rw [runElements, List.forM, StateT.run_bind, helement]
    exact hrest

theorem forM_recorder_entry (announced : Nat) (before entries : List (String × CallTree)) :
    StateT.run ((runEntries recorder entries).forM fun entry => recorder.entry entry.1 entry.2)
        (.map announced before) =
      ((), .map announced (before ++ entries)) := by
  cases entries with
  | nil => rw [List.append_nil]; rfl
  | cons entry rest =>
    obtain ⟨name, value⟩ := entry
    have hvalue := run_recorder_entry (run_recorder value) name (.map announced before)
    have hrest := forM_recorder_entry announced (before ++ [(name, value)]) rest
    rw [List.append_assoc] at hrest
    rw [runEntries, List.forM, StateT.run_bind, hvalue]
    exact hrest

end

/-- What a handle is said to write is what the recorder notes. -/
theorem run_emit_recorder {α : Type} [Readable α] (handle : α) (noted : CallTree) :
    StateT.run (emit recorder handle) noted = ((), calls handle) := by
  rw [emit_eq_run, run_recorder]

/-- No two trees make the same calls. -/
theorem MadeBy.unique {tree other : CallTree}
    {write : ∀ {m : Type → Type} [Monad m], Serializer m → m Unit} (htree : tree.MadeBy write)
    (hother : other.MadeBy write) : tree = other := by
  have hrun : tree.run recorder = other.run recorder :=
    (htree recorder).symm.trans (hother recorder)
  have hnoted : ((), tree) = ((), other) := by
    rw [← run_recorder tree tree, hrun, run_recorder other tree]
  exact congrArg Prod.snd hnoted

end CallTree

/-! ## Calls that fail -/

section

variable {ε S : Type}

/-- What happens when calls are made in turn on a serializer with a state and failures: a call that
fails is the last one made, and its failure is the result. -/
inductive Serializer.Ran : List (ExceptT ε (StateM S) Unit) → S → Except ε Unit × S → Prop where
  | done (state : S) : Ran [] state (.ok (), state)
  | next {call : ExceptT ε (StateM S) Unit} {rest : List (ExceptT ε (StateM S) Unit)}
    {state state' : S} {result : Except ε Unit × S} (hcall : call.run.run state = (.ok (), state'))
    (hrest : Ran rest state' result) : Ran (call :: rest) state result
  | stop {call : ExceptT ε (StateM S) Unit} {rest : List (ExceptT ε (StateM S) Unit)}
    {state state' : S} {failure : ε} (hcall : call.run.run state = (.error failure, state')) :
    Ran (call :: rest) state (.error failure, state')

/-- Calls in sequence are made in turn, up to the first that fails. -/
theorem Serializer.ran_forM (calls : List (ExceptT ε (StateM S) Unit)) (state : S) :
    Ran calls state ((calls.forM id).run.run state) := by
  induction calls generalizing state with
  | nil => exact .done state
  | cons call rest ih =>
    have hrun : ((call :: rest).forM id).run.run state =
        match call.run.run state with
        | (.ok (), state') => (rest.forM id).run.run state'
        | (.error failure, state') => (.error failure, state') := by
      change (call >>= fun _ => rest.forM id).run.run state = _
      rw [ExceptT.run_bind, StateT.run_bind]
      rcases call.run.run state with ⟨outcome, state'⟩
      cases outcome <;> rfl
    rw [hrun]
    rcases hcall : call.run.run state with ⟨outcome, state'⟩
    cases outcome with
    | error failure => exact .stop hcall
    | ok => exact .next hcall (ih state')

end

/-- One of the calls that write a value, when elements and entries are written in place: a call
before and a call after each of them. -/
inductive Event where
  | scalar (call : Call)
  | seqStart (announced : Nat)
  | elementStart
  | elementEnd
  | seqEnd
  | mapStart (announced : Nat)
  | entryStart (name : String)
  | entryEnd
  | mapEnd

section

variable {m : Type → Type} [Monad m]

/-- The serializer that hands each call to a sink and writes elements and entries in place. -/
def Serializer.each (sink : Event → m Unit) : Serializer m where
  scalar call := sink (.scalar call)
  seqStart announced := sink (.seqStart announced)
  element value := do
    sink .elementStart
    value
    sink .elementEnd
  seqEnd := sink .seqEnd
  mapStart announced := sink (.mapStart announced)
  entry name value := do
    sink (.entryStart name)
    value
    sink .entryEnd
  mapEnd := sink .mapEnd

namespace CallTree

/-- The calls at the root of a tree in their order; each writes the whole of a child. -/
def steps (serializer : Serializer m) : CallTree → List (m Unit)
  | .leaf call => [serializer.scalar call]
  | .seq announced elements =>
    serializer.seqStart announced ::
      (elements.map fun element => serializer.element (element.run serializer)) ++
        [serializer.seqEnd]
  | .map announced entries =>
    serializer.mapStart announced ::
      (entries.map fun entry => serializer.entry entry.1 (entry.2.run serializer)) ++
        [serializer.mapEnd]

mutual

/-- All calls of a tree in their order. -/
def events : CallTree → List Event
  | .leaf call => [.scalar call]
  | .seq announced elements => .seqStart announced :: eventsOfElements elements ++ [.seqEnd]
  | .map announced entries => .mapStart announced :: eventsOfEntries entries ++ [.mapEnd]

/-- All calls of elements in their order. -/
def eventsOfElements : List CallTree → List Event
  | [] => []
  | tree :: rest => .elementStart :: events tree ++ .elementEnd :: eventsOfElements rest

/-- All calls of entries in their order. -/
def eventsOfEntries : List (String × CallTree) → List Event
  | [] => []
  | (name, tree) :: rest => .entryStart name :: events tree ++ .entryEnd :: eventsOfEntries rest

end

variable [LawfulMonad m]

/-- Making the calls of a tree is making those at its root in turn. -/
theorem run_eq_forM_steps (serializer : Serializer m) (tree : CallTree) :
    tree.run serializer = (tree.steps serializer).forM id := by
  cases tree with
  | leaf call => simp [run, steps]
  | seq announced elements =>
    simp [run, steps, Serializer.seq, runElements_eq_map]
  | map announced entries =>
    simp [run, steps, Serializer.map, runEntries_eq_map]

mutual

/-- A sink takes all calls of a tree in their order. -/
theorem run_each (sink : Event → m Unit) (tree : CallTree) :
    tree.run (.each sink) = tree.events.forM sink := by
  cases tree with
  | leaf call => simp [run, events, Serializer.each]
  | seq announced elements =>
    have helements := forM_each_element sink elements
    rw [List.forM_eq_forM, List.forM_eq_forM] at helements
    simp only [run, events, Serializer.seq, List.cons_append, List.forM_eq_forM, List.forM_cons,
      List.forM_append, List.forM_nil, helements, bind_pure_comp, id_map']
    rfl
  | map announced entries =>
    have hentries := forM_each_entry sink entries
    rw [List.forM_eq_forM, List.forM_eq_forM] at hentries
    simp only [run, events, Serializer.map, List.cons_append, List.forM_eq_forM, List.forM_cons,
      List.forM_append, List.forM_nil, hentries, bind_pure_comp, id_map']
    rfl

theorem forM_each_element (sink : Event → m Unit) (elements : List CallTree) :
    (runElements (.each sink) elements).forM (Serializer.each sink).element =
      (eventsOfElements elements).forM sink := by
  cases elements with
  | nil => rfl
  | cons tree rest =>
    have htree := run_each sink tree
    have hrest := forM_each_element sink rest
    rw [List.forM_eq_forM] at htree
    rw [List.forM_eq_forM, List.forM_eq_forM] at hrest
    simp only [runElements, eventsOfElements, List.cons_append, List.forM_eq_forM, List.forM_cons,
      List.forM_append, htree, hrest]
    simp only [Serializer.each, bind_assoc]

theorem forM_each_entry (sink : Event → m Unit) (entries : List (String × CallTree)) :
    ((runEntries (.each sink) entries).forM fun entry =>
        (Serializer.each sink).entry entry.1 entry.2) =
      (eventsOfEntries entries).forM sink := by
  cases entries with
  | nil => rfl
  | cons entry rest =>
    obtain ⟨name, value⟩ := entry
    have hvalue := run_each sink value
    have hrest := forM_each_entry sink rest
    rw [List.forM_eq_forM] at hvalue
    rw [List.forM_eq_forM, List.forM_eq_forM] at hrest
    simp only [runEntries, eventsOfEntries, List.cons_append, List.forM_eq_forM, List.forM_cons,
      List.forM_append, hvalue, hrest]
    simp only [Serializer.each, bind_assoc]

end

end CallTree

end

/-- A serializer may refuse any call: nothing is asked of it after that, and its failure is what
writing results in. -/
structure CallTree.StopsAtFailure (tree : CallTree) : Prop where
  /-- Whatever the serializer does with the children that it is handed. -/
  at_root : ∀ {ε S : Type} (serializer : Serializer (ExceptT ε (StateM S))) (state : S),
    Serializer.Ran (tree.steps serializer) state ((tree.run serializer).run.run state)
  /-- At any depth, when children are written in place. -/
  at_depth : ∀ {ε S : Type} (sink : Event → ExceptT ε (StateM S) Unit) (state : S),
    Serializer.Ran (tree.events.map sink) state ((tree.run (.each sink)).run.run state)

theorem CallTree.stopsAtFailure (tree : CallTree) : tree.StopsAtFailure := by
  refine ⟨?_, ?_⟩
  · intro ε S serializer state
    rw [run_eq_forM_steps]
    exact Serializer.ran_forM _ state
  · intro ε S sink state
    have hrun : tree.run (.each sink) = (tree.events.map sink).forM id := by
      rw [run_each]
      simp
    rw [hrun]
    exact Serializer.ran_forM _ state

end Caseless
