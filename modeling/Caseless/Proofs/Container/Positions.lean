import Mathlib.Data.List.Basic
import Caseless.Record
import Caseless.Session.Elements
import Caseless.Session.List

/-!
# Calls at positions

A sequence is edited by position, bare or through a view of either kind.  A call whose position
misses the elements that are there fails, says so, and changes nothing; so failing calls may be left
out of a run.  Every other call is exact: it hands back the element it is made at and touches no
element before or behind it.

Main definitions:

- `Storable`: a plain value, or a view that stands for the value it wraps;
- `ListCall`: the calls, made on bare elements (`ListCall.onElements`) or on a view
  (`ListCall.onView`), and when they miss (`ListCall.miss?`);
- `ListCall.Done`: what a call that does not miss answers and leaves;
- `Editor`: a way to make calls, with its laws; `Editor.run` and `Editor.succeeding`.

Main results:

- `ElementsCommand.step_eq_of_call?` and `ListCommand.step_eq_of_call?`: the sessions make these
  calls;
- `Record.removeAt_cases`: a good and a bad position in a struct;
- Theorem `Editor.positional_calls_exact`.
-/

namespace Caseless

open Name

variable {σ : Type}

/-! ## Calls -/

/-- What can be handed in to be stored. -/
inductive Storable (σ : Type) where
  | plain (value : Value σ)
  | wrapped (view : View σ)

/-- The value that is stored: views are taken off. -/
def Storable.stored : Storable σ → Value σ
  | .plain value => value
  | .wrapped view => view.rawValue

/-- Of a view the value is stored that was wrapped. -/
@[simp]
theorem Storable.stored_wrap (policy : Policy) (value : Value σ) :
    (Storable.wrapped (wrap policy value)).stored = value :=
  rawValue_wrap policy value

/-- A call on a sequence. -/
inductive ListCall (σ : Type) where
  | get (position : Nat)
  /-- Reads an element that may be written, and leaves there what the caller makes of it. -/
  | getMut (position : Nat) (change : Value σ → Value σ)
  | push (item : Storable σ)
  | insert (position : Nat) (item : Storable σ)
  | set (position : Nat) (item : Storable σ)
  | remove (position : Nat)
  | clear

namespace ListCall

/-- What a call hands back. -/
inductive Reply (σ : Type) where
  | done
  | value (element : Value σ)
  | child (view : View σ)
  | absent
  | failure (cause : Error)

namespace Reply

/-- Whether a call could not be done. -/
def fails : Reply σ → Bool
  | .absent | .failure _ => true
  | .done | .value _ | .child _ => false

/-- The element that was read, if there is one. -/
def ofOption : Option (Value σ) → Reply σ
  | some element => .value element
  | none => .absent

/-- The answer of a session. -/
def answer : Reply Unit → Answer
  | .done => .done
  | .value element => .value element
  | .child view => .ofHandle view
  | .absent => .absent
  | .failure cause => .failure cause

end Reply

variable {S β : Type}

/-- Takes over what an operation makes of a state; a failure changes nothing. -/
def commit (reply : β → Reply σ) (state : S) : Except Error (β × S) → Reply σ × S
  | .ok (result, state) => (reply result, state)
  | .error cause => (.failure cause, state)

/-- A call on bare elements, where reading past the end is no failure. -/
def onElements (elements : Elements (Value σ)) : ListCall σ → Reply σ × Elements (Value σ)
  | .get position => (.ofOption elements[position]?, elements)
  | .getMut position change => (.ofOption elements[position]?, List.modify elements position change)
  | .push item => (.done, elements ++ [item.stored])
  | .insert position item =>
    commit (fun _ => .done) elements
      ((elements.insert position item.stored).map fun elements => ((), elements))
  | .set position item => commit .value elements (Elements.set elements position item.stored)
  | .remove position => commit .value elements (elements.remove position)
  | .clear => (.done, [])

/-- A call through a view. -/
def onView (view : ListView σ) : ListCall σ → Reply σ × ListView σ
  | .get position => commit .child view ((view.get position).map fun child => (child, view))
  | .getMut position change =>
    commit .child view ((view.get position).map fun child =>
      (child, { view with elements := List.modify view.elements position change }))
  | .push item => (.done, view.push item.stored)
  | .insert position item =>
    commit (fun _ => .done) view
      ((view.insert position item.stored).map fun view => ((), view))
  | .set position item => commit .value view (view.set position item.stored)
  | .remove position => commit .value view (view.remove position)
  | .clear => (.done, view.clear)

/-! ## What calls are to do -/

/-- The answer to a call at a position that misses the elements, of which there are `size`; `none`
if the call does not miss.  Only insertion also takes the position just past the last element. -/
def miss? (unread : Nat → Nat → Reply σ) (size : Nat) : ListCall σ → Option (Reply σ)
  | .get position | .getMut position _ =>
    if size ≤ position then some (unread position size) else none
  | .set position _ | .remove position =>
    if size ≤ position then some (.failure (.indexOutOfRange position size)) else none
  | .insert position _ =>
    if size < position then some (.failure (.indexOutOfRange position size)) else none
  | .push _ | .clear => none

/-- What a call that is done answers and leaves, when elements that are read are handed out by
`shown`. -/
inductive Done (shown : Value σ → Reply σ) :
    ListCall σ → Elements (Value σ) → Reply σ → Elements (Value σ) → Prop where
  | get (before after : List (Value σ)) (x : Value σ) :
    Done shown (.get before.length) (before ++ x :: after) (shown x) (before ++ x :: after)
  | getMut (before after : List (Value σ)) (x : Value σ) (change : Value σ → Value σ) :
    Done shown (.getMut before.length change) (before ++ x :: after) (shown x)
      (before ++ change x :: after)
  | push (elements : List (Value σ)) (item : Storable σ) :
    Done shown (.push item) elements .done (elements ++ [item.stored])
  | insert (before after : List (Value σ)) (item : Storable σ) :
    Done shown (.insert before.length item) (before ++ after) .done
      (before ++ item.stored :: after)
  | set (before after : List (Value σ)) (x : Value σ) (item : Storable σ) :
    Done shown (.set before.length item) (before ++ x :: after) (.value x)
      (before ++ item.stored :: after)
  | remove (before after : List (Value σ)) (x : Value σ) :
    Done shown (.remove before.length) (before ++ x :: after) (.value x) (before ++ after)
  | clear (elements : List (Value σ)) : Done shown .clear elements .done []

/-- A call that does not miss can be done. -/
theorem exists_done (shown : Value σ → Reply σ) {unread : Nat → Nat → Reply σ} {call : ListCall σ}
    {elements : Elements (Value σ)} (hmiss : call.miss? unread elements.length = none) :
    ∃ reply result, Done shown call elements reply result := by
  have hcut : ∀ position, ¬ elements.length ≤ position →
      ∃ before x after, elements = before ++ x :: after ∧ before.length = position := by
    intro position hlt
    obtain ⟨before, x, after, helements, hlength, -⟩ :=
      List.exists_of_modify id (Nat.lt_of_not_le hlt)
    exact ⟨before, x, after, helements, hlength⟩
  cases call with
  | get position =>
    obtain ⟨before, x, after, rfl, rfl⟩ := hcut position (by simpa [miss?] using hmiss)
    exact ⟨_, _, .get before after x⟩
  | getMut position change =>
    obtain ⟨before, x, after, rfl, rfl⟩ := hcut position (by simpa [miss?] using hmiss)
    exact ⟨_, _, .getMut before after x change⟩
  | push item => exact ⟨_, _, .push elements item⟩
  | insert position item =>
    have hle : position ≤ elements.length := by simpa [miss?] using hmiss
    obtain ⟨before, after, rfl, rfl, -⟩ := List.exists_of_modifyTailIdx id hle
    exact ⟨_, _, .insert before after item⟩
  | set position item =>
    obtain ⟨before, x, after, rfl, rfl⟩ := hcut position (by simpa [miss?] using hmiss)
    exact ⟨_, _, .set before after x item⟩
  | remove position =>
    obtain ⟨before, x, after, rfl, rfl⟩ := hcut position (by simpa [miss?] using hmiss)
    exact ⟨_, _, .remove before after x⟩
  | clear => exact ⟨_, _, .clear elements⟩

/-- What is done does not miss. -/
theorem Done.not_miss {shown : Value σ → Reply σ} {call : ListCall σ}
    {elements result : Elements (Value σ)} {reply : Reply σ}
    (hdone : Done shown call elements reply result) (unread : Nat → Nat → Reply σ) :
    call.miss? unread elements.length = none := by
  cases hdone <;> simp [miss?]

/-- A call that misses fails, if reads do. -/
theorem fails_of_miss {unread : Nat → Nat → Reply σ}
    (hunread : ∀ position size, (unread position size).fails = true) {call : ListCall σ}
    {size : Nat} {reply : Reply σ} (hmiss : call.miss? unread size = some reply) :
    reply.fails = true := by
  cases call with
  | get position | getMut position =>
    obtain ⟨-, ⟨⟩⟩ := Option.ite_none_right_eq_some.mp hmiss
    exact hunread position size
  | insert | set | remove =>
    obtain ⟨-, ⟨⟩⟩ := Option.ite_none_right_eq_some.mp hmiss
    rfl
  | push | clear => cases hmiss

/-- A call that is done does not fail, if reads that find an element do not. -/
theorem Done.not_fails {shown : Value σ → Reply σ} {call : ListCall σ}
    {elements result : Elements (Value σ)} {reply : Reply σ}
    (hdone : Done shown call elements reply result)
    (hshown : ∀ x, (shown x).fails = false) : reply.fails = false := by
  cases hdone with
  | get | getMut => exact hshown _
  | push | insert | set | remove | clear => rfl

/-- What was inserted can be taken out again. -/
theorem Done.remove_insert {shown : Value σ → Reply σ} {position : Nat} {item : Storable σ}
    {elements result : Elements (Value σ)} {reply : Reply σ}
    (hdone : Done shown (.insert position item) elements reply result)
    (shown' : Value σ → Reply σ) :
    Done shown' (.remove position) result (.value item.stored) elements := by
  cases hdone with
  | insert before after item => exact .remove before after item.stored

/-- What was set over can be set back. -/
theorem Done.set_set {shown : Value σ → Reply σ} {position : Nat} {item : Storable σ}
    {elements result : Elements (Value σ)} {reply : Reply σ}
    (hdone : Done shown (.set position item) elements reply result) :
    ∃ old, elements[position]? = some old ∧ reply = .value old ∧
      ∀ shown', Done shown' (.set position (.plain old)) result (.value item.stored) elements := by
  cases hdone with
  | set before after x item =>
    exact ⟨x, by simp, rfl, fun _ => .set before after item.stored (.plain x)⟩

end ListCall

/-! ## Elements at a position -/

namespace Elements

variable {α : Type} {elements : Elements α} {position : Nat}

theorem get_of_length_le (h : elements.length ≤ position) :
    elements.get position = .error (.indexOutOfRange position elements.length) := by
  rw [Elements.get, List.getElem?_eq_none h]

theorem insert_of_length_lt (h : elements.length < position) (x : α) :
    elements.insert position x = .error (.indexOutOfRange position elements.length) := by
  rw [Elements.insert, if_neg (Nat.not_le_of_lt h)]

theorem set_of_length_le (h : elements.length ≤ position) (x : α) :
    Elements.set elements position x = .error (.indexOutOfRange position elements.length) := by
  rw [Elements.set, List.getElem?_eq_none h]

theorem remove_of_length_le (h : elements.length ≤ position) :
    elements.remove position = .error (.indexOutOfRange position elements.length) := by
  rw [Elements.remove, List.getElem?_eq_none h]

variable (before after : List α) (x : α)

theorem getElem?_middle : (before ++ x :: after)[before.length]? = some x := by
  simp

theorem get_middle : Elements.get (before ++ x :: after) before.length = .ok x :=
  get_eq_ok_iff.mpr (getElem?_middle before after x)

theorem modify_middle (f : α → α) :
    (before ++ x :: after).modify before.length f = before ++ f x :: after :=
  List.modifyTailIdx_add (List.modifyHead f) 0 before (x :: after)

theorem insert_middle :
    Elements.insert (before ++ after) before.length x = .ok (before ++ x :: after) :=
  insert_eq_ok_iff.mpr ⟨by simp, List.modifyTailIdx_add (List.cons x) 0 before after⟩

theorem set_middle (y : α) :
    Elements.set (before ++ x :: after) before.length y = .ok (x, before ++ y :: after) :=
  set_eq_ok_iff.mpr ⟨getElem?_middle before after x, by simp⟩

theorem remove_middle :
    Elements.remove (before ++ x :: after) before.length = .ok (x, before ++ after) :=
  remove_eq_ok_iff.mpr
    ⟨getElem?_middle before after x, by simp [List.eraseIdx_append_of_length_le]⟩

end Elements

namespace ListCall

/-! ## Calls on bare elements -/

theorem onElements_of_miss {elements : Elements (Value σ)} {call : ListCall σ} {reply : Reply σ}
    (hmiss : call.miss? (fun _ _ => .absent) elements.length = some reply) :
    call.onElements elements = (reply, elements) := by
  cases call with
  | get position =>
    obtain ⟨hpast, ⟨⟩⟩ := Option.ite_none_right_eq_some.mp hmiss
    rw [onElements, List.getElem?_eq_none hpast]
    rfl
  | getMut position change =>
    obtain ⟨hpast, ⟨⟩⟩ := Option.ite_none_right_eq_some.mp hmiss
    rw [onElements, List.getElem?_eq_none hpast, List.modify_eq_self hpast]
    rfl
  | insert position item =>
    obtain ⟨hpast, ⟨⟩⟩ := Option.ite_none_right_eq_some.mp hmiss
    rw [onElements, Elements.insert_of_length_lt hpast]
    rfl
  | set position item =>
    obtain ⟨hpast, ⟨⟩⟩ := Option.ite_none_right_eq_some.mp hmiss
    rw [onElements, Elements.set_of_length_le hpast]
    rfl
  | remove position =>
    obtain ⟨hpast, ⟨⟩⟩ := Option.ite_none_right_eq_some.mp hmiss
    rw [onElements, Elements.remove_of_length_le hpast]
    rfl
  | push | clear => cases hmiss

theorem onElements_of_done {elements result : Elements (Value σ)} {call : ListCall σ}
    {reply : Reply σ} (hdone : Done .value call elements reply result) :
    call.onElements elements = (reply, result) := by
  cases hdone with
  | get before after x =>
    rw [onElements, Elements.getElem?_middle]
    rfl
  | getMut before after x change =>
    rw [onElements, Elements.getElem?_middle, Elements.modify_middle]
    rfl
  | insert before after item =>
    rw [onElements, Elements.insert_middle]
    rfl
  | set before after x item =>
    rw [onElements, Elements.set_middle]
    rfl
  | remove before after x =>
    rw [onElements, Elements.remove_middle]
    rfl
  | push | clear => rfl

/-! ## Calls through a view -/

theorem onView_of_miss {view : ListView σ} {call : ListCall σ} {reply : Reply σ}
    (hmiss : call.miss? (fun position size => .failure (.indexOutOfRange position size)) view.size =
      some reply) :
    call.onView view = (reply, view) := by
  cases call with
  | get position | getMut position change =>
    obtain ⟨hpast, ⟨⟩⟩ := Option.ite_none_right_eq_some.mp hmiss
    rw [onView, ListView.get, Elements.get_of_length_le hpast]
    rfl
  | insert position item =>
    obtain ⟨hpast, ⟨⟩⟩ := Option.ite_none_right_eq_some.mp hmiss
    rw [onView, ListView.insert, Elements.insert_of_length_lt hpast]
    rfl
  | set position item =>
    obtain ⟨hpast, ⟨⟩⟩ := Option.ite_none_right_eq_some.mp hmiss
    rw [onView, ListView.set, Elements.set_of_length_le hpast]
    rfl
  | remove position =>
    obtain ⟨hpast, ⟨⟩⟩ := Option.ite_none_right_eq_some.mp hmiss
    rw [onView, ListView.remove, Elements.remove_of_length_le hpast]
    rfl
  | push | clear => cases hmiss

theorem onView_of_done {kind : SeqKind} {policy : Policy} {elements result : Elements (Value σ)}
    {call : ListCall σ} {reply : Reply σ}
    (hdone : Done (fun x => .child (wrap policy x)) call elements reply result) :
    call.onView ⟨kind, policy, elements⟩ = (reply, ⟨kind, policy, result⟩) := by
  cases hdone with
  | get before after x =>
    rw [onView, ListView.get, Elements.get_middle]
    rfl
  | getMut before after x change =>
    rw [onView, ListView.get, Elements.get_middle, Elements.modify_middle]
    rfl
  | insert before after item =>
    rw [onView, ListView.insert, Elements.insert_middle]
    rfl
  | set before after x item =>
    rw [onView, ListView.set, Elements.set_middle]
    rfl
  | remove before after x =>
    rw [onView, ListView.remove, Elements.remove_middle]
    rfl
  | push | clear => rfl

end ListCall

/-! ## Editors -/

open ListCall

/-- A way to make calls on the elements that are part of a state. -/
structure Editor (S σ : Type) where
  elements : S → Elements (Value σ)
  /-- The state with other elements in it. -/
  put : S → Elements (Value σ) → S
  step : S → ListCall σ → Reply σ × S
  /-- The answer of a read at a position past all elements, from the position and their number. -/
  unread : Nat → Nat → Reply σ
  /-- The answer of a read that finds an element. -/
  shown : S → Value σ → Reply σ
  elements_put : ∀ s elements', elements (put s elements') = elements'
  put_elements : ∀ s, put s (elements s) = s
  put_put : ∀ s elements' elements'', put (put s elements') elements'' = put s elements''
  unread_fails : ∀ position size, (unread position size).fails = true
  shown_not_fails : ∀ s x, (shown s x).fails = false
  step_of_miss : ∀ {s call reply}, call.miss? unread (elements s).length = some reply →
    step s call = (reply, s)
  step_of_done : ∀ {s call reply result}, Done (shown s) call (elements s) reply result →
    step s call = (reply, put s result)

namespace Editor

variable {S : Type}

/-- Edits bare elements: a read past the end finds nothing. -/
def bare (σ : Type) : Editor (Elements (Value σ)) σ where
  elements := id
  put _ elements' := elements'
  step elements call := call.onElements elements
  unread _ _ := .absent
  shown _ := .value
  elements_put _ _ := rfl
  put_elements _ := rfl
  put_put _ _ _ := rfl
  unread_fails _ _ := rfl
  shown_not_fails _ _ := rfl
  step_of_miss := onElements_of_miss
  step_of_done := onElements_of_done

/-- Edits through a view, which wraps what is read: a read past the end is a failure, too. -/
def throughView (σ : Type) : Editor (ListView σ) σ where
  elements := ListView.elements
  put view elements' := { view with elements := elements' }
  step view call := call.onView view
  unread position size := .failure (.indexOutOfRange position size)
  shown view x := .child (wrap view.policy x)
  elements_put _ _ := rfl
  put_elements _ := rfl
  put_put _ _ _ := rfl
  unread_fails _ _ := rfl
  shown_not_fails _ _ := rfl
  step_of_miss := onView_of_miss
  step_of_done := onView_of_done

variable (editor : Editor S σ)

/-- The state after a run of calls. -/
def run (s : S) (calls : List (ListCall σ)) : S :=
  calls.foldl (fun s call => (editor.step s call).2) s

/-- The calls of a run without those that fail in it. -/
def succeeding : S → List (ListCall σ) → List (ListCall σ)
  | _, [] => []
  | s, call :: rest =>
    let (reply, s') := editor.step s call
    if reply.fails then succeeding s' rest else call :: succeeding s' rest

/-! ### What one call does -/

/-- A call misses and fails, or it is done. -/
theorem step_cases (s : S) (call : ListCall σ) :
    (∃ reply, call.miss? editor.unread (editor.elements s).length = some reply ∧
        reply.fails = true ∧ editor.step s call = (reply, s)) ∨
      ∃ reply result, Done (editor.shown s) call (editor.elements s) reply result ∧
        reply.fails = false ∧ editor.step s call = (reply, editor.put s result) := by
  cases hmiss : call.miss? editor.unread (editor.elements s).length with
  | some reply =>
    refine .inl ⟨reply, rfl, ?_, editor.step_of_miss hmiss⟩
    exact fails_of_miss editor.unread_fails hmiss
  | none =>
    obtain ⟨reply, result, hdone⟩ := exists_done (editor.shown s) hmiss
    exact .inr ⟨reply, result, hdone, hdone.not_fails (editor.shown_not_fails s),
      editor.step_of_done hdone⟩

/-- What a call that fails leaves is what was there. -/
theorem step_of_fails {s : S} {call : ListCall σ} (h : (editor.step s call).1.fails = true) :
    (editor.step s call).2 = s := by
  obtain ⟨reply, -, -, hstep⟩ | ⟨reply, result, -, hreply, hstep⟩ := editor.step_cases s call
  · rw [hstep]
  · rw [hstep, hreply] at h
    contradiction

/-- A call fails exactly when its position misses the elements, with the answer for that. -/
theorem fails_iff (s : S) (call : ListCall σ) :
    (editor.step s call).1.fails = true ↔
      call.miss? editor.unread (editor.elements s).length = some (editor.step s call).1 := by
  obtain ⟨reply, hmiss, hreply, hstep⟩ | ⟨reply, result, hdone, hreply, hstep⟩ :=
    editor.step_cases s call
  · rw [hstep]
    exact ⟨fun _ => hmiss, fun _ => hreply⟩
  · rw [hstep, hdone.not_miss]
    simp [hreply]

/-- A call that does not fail is done. -/
theorem done_of_not_fails {s : S} {call : ListCall σ}
    (h : (editor.step s call).1.fails = false) :
    Done (editor.shown s) call (editor.elements s) (editor.step s call).1
      (editor.elements (editor.step s call).2) := by
  obtain ⟨reply, -, hreply, hstep⟩ | ⟨reply, result, hdone, -, hstep⟩ := editor.step_cases s call
  · rw [hstep, hreply] at h
    contradiction
  · rw [hstep, editor.elements_put]
    exact hdone

/-- A call changes nothing but the elements. -/
theorem step_eq_put (s : S) (call : ListCall σ) :
    (editor.step s call).2 = editor.put s (editor.elements (editor.step s call).2) := by
  obtain ⟨reply, -, -, hstep⟩ | ⟨reply, result, -, -, hstep⟩ := editor.step_cases s call
  · rw [hstep, editor.put_elements]
  · rw [hstep, editor.elements_put]

/-- A call that takes the elements back takes the state back. -/
theorem step_back {s : S} {call back : ListCall σ} {reply : Reply σ}
    (hback : Done (editor.shown (editor.step s call).2) back
      (editor.elements (editor.step s call).2) reply (editor.elements s)) :
    editor.step (editor.step s call).2 back = (reply, s) := by
  rw [editor.step_of_done hback, editor.step_eq_put s call, editor.put_put, editor.put_elements]

/-! ### What runs do -/

/-- Without the calls that fail, a run gives the other answers and goes through the same states. -/
theorem replay_succeeding (s : S) (calls : List (ListCall σ)) :
    replay editor.step s (editor.succeeding s calls) =
      (replay editor.step s calls).filter fun answered => !answered.1.fails := by
  induction calls generalizing s with
  | nil => rfl
  | cons call rest ih =>
    simp only [succeeding, replay, List.filter_cons]
    cases hfails : (editor.step s call).1.fails with
    | true => simpa [editor.step_of_fails hfails] using ih s
    | false => simpa [replay] using ih (editor.step s call).2

/-- Without the calls that fail, a run ends in the same state. -/
theorem run_succeeding (s : S) (calls : List (ListCall σ)) :
    editor.run s (editor.succeeding s calls) = editor.run s calls := by
  induction calls generalizing s with
  | nil => rfl
  | cons call rest ih =>
    simp only [succeeding, run, List.foldl_cons]
    cases hfails : (editor.step s call).1.fails with
    | true =>
      rw [editor.step_of_fails hfails]
      exact ih s
    | false => exact ih (editor.step s call).2

/-- Calls that fail do nothing, and all others are exact. -/
structure Exact (editor : Editor S σ) : Prop where
  /-- A call fails exactly when its position misses the elements that are there, with the answer
  for that. -/
  fails_iff : ∀ s call, (editor.step s call).1.fails = true ↔
    call.miss? editor.unread (editor.elements s).length = some (editor.step s call).1
  /-- A failing call changes nothing. -/
  unchanged : ∀ s call, (editor.step s call).1.fails = true → (editor.step s call).2 = s
  /-- Any other call is done, and touches no element away from its position. -/
  done : ∀ s call, (editor.step s call).1.fails = false →
    Done (editor.shown s) call (editor.elements s) (editor.step s call).1
      (editor.elements (editor.step s call).2)
  /-- Nothing but the elements changes. -/
  rest : ∀ s call, (editor.step s call).2 = editor.put s (editor.elements (editor.step s call).2)
  /-- Failing calls may be left out of a run: the other answers and their states are the same, -/
  replay_eq : ∀ s calls, replay editor.step s (editor.succeeding s calls) =
    (replay editor.step s calls).filter fun answered => !answered.1.fails
  /-- and so is the state at the end. -/
  run_eq : ∀ s calls, editor.run s (editor.succeeding s calls) = editor.run s calls
  /-- What was inserted is removed again at its position, and everything is as before. -/
  remove_insert : ∀ s position item, (editor.step s (.insert position item)).1.fails = false →
    editor.step (editor.step s (.insert position item)).2 (.remove position) =
      (.value item.stored, s)
  /-- Setting an element hands back the old one, and with that set everything is as before. -/
  set_set : ∀ s position item, (editor.step s (.set position item)).1.fails = false →
    ∃ old, (editor.elements s)[position]? = some old ∧
      (editor.step s (.set position item)).1 = .value old ∧
      editor.step (editor.step s (.set position item)).2 (.set position (.plain old)) =
        (.value item.stored, s)

/-- The laws of an editor say so of it. -/
theorem exact (editor : Editor S σ) : editor.Exact where
  fails_iff := editor.fails_iff
  unchanged _ _ := editor.step_of_fails
  done _ _ := editor.done_of_not_fails
  rest := editor.step_eq_put
  replay_eq := editor.replay_succeeding
  run_eq := editor.run_succeeding
  remove_insert _ _ _ h := editor.step_back ((editor.done_of_not_fails h).remove_insert _)
  set_set _ _ _ h := by
    obtain ⟨old, hold, hreply, hback⟩ := (editor.done_of_not_fails h).set_set
    exact ⟨old, hold, hreply, editor.step_back (hback _)⟩

end Editor

/-! ## Sessions and structs -/

/-- The call that a command makes, if it makes one. -/
def ElementsCommand.call? : ElementsCommand → Option (ListCall Unit)
  | .get position => some (.get position)
  | .write position value => some (.getMut position fun _ => value)
  | .push value => some (.push (.plain value))
  | .insert position value => some (.insert position (.plain value))
  | .set position value => some (.set position (.plain value))
  | .remove position => some (.remove position)
  | .clear => some .clear
  | .size | .extend _ | .pick _ | .double | .reverse | .all | .equals _ | .json => none

/-- A session on elements makes its calls, and answers what they hand back. -/
theorem ElementsCommand.step_eq_of_call? {command : ElementsCommand} {call : ListCall Unit}
    (hcall : command.call? = some call) (elements : Elements Value) :
    command.step elements =
      ((call.onElements elements).1.answer, (call.onElements elements).2) := by
  cases command <;> cases hcall
  case get position =>
    simp only [ElementsCommand.step, onElements]
    cases elements[position]? <;> rfl
  case write position value =>
    simp only [ElementsCommand.step, onElements, List.set_eq_modify]
    cases elements[position]? <;> rfl
  case push | clear => rfl
  case insert position value =>
    simp only [ElementsCommand.step, onElements, Storable.stored]
    cases elements.insert position value <;> rfl
  case set position value =>
    simp only [ElementsCommand.step, onElements, Storable.stored]
    cases Elements.set elements position value <;> rfl
  case remove position =>
    simp only [ElementsCommand.step, onElements]
    cases elements.remove position <;> rfl

/-- The call that a command on a view makes, if it makes one. -/
def ListCommand.call? (policy : Policy) : ListCommand → Option (ListCall Unit)
  | .get position => some (.get position)
  | .push value => some (.push (.plain value))
  | .pushView value => some (.push (.wrapped (wrap policy value)))
  | .insert position value => some (.insert position (.plain value))
  | .set position value => some (.set position (.plain value))
  | .setView position value => some (.set position (.wrapped (wrap policy value)))
  | .remove position => some (.remove position)
  | .clear => some .clear
  | _ => none

/-- A session on a view makes its calls, and answers what they hand back. -/
theorem ListCommand.step_eq_of_call? {command : ListCommand} {call : ListCall Unit}
    {view : ListView} (hcall : command.call? view.policy = some call) :
    command.step view = ((call.onView view).1.answer, (call.onView view).2) := by
  cases command <;> cases hcall
  case get position =>
    simp only [ListCommand.step, onView]
    cases view.get position <;> rfl
  case push | pushView | clear => rfl
  case insert position value =>
    simp only [ListCommand.step, onView, Storable.stored]
    cases view.insert position value <;> rfl
  case set position value =>
    simp only [ListCommand.step, onView, Storable.stored]
    cases view.set position value <;> rfl
  case setView position value =>
    simp only [ListCommand.step, onView, Storable.stored]
    cases view.set position (wrap view.policy value).rawValue <;> rfl
  case remove position =>
    simp only [ListCommand.step, onView]
    cases view.remove position <;> rfl

/-- The call of a command that writes into an element: a scalar is overwritten, and a field is put
into a struct. -/
def ListCommand.writing? (policy : Policy) : ListCommand → Option (ListCall Unit)
  | .write position value => some <| .getMut position fun
    | .scalar _ => value
    | element => element
  | .putIn position name value => some <| .getMut position fun
    | .struct _ fields => (Value.putResolved policy fields name value).2
    | element => element
  | _ => none

/-- A session on a view writes into elements that it has got for writing. -/
theorem ListCommand.step_eq_of_writing? {command : ListCommand} {call : ListCall Unit}
    {view : ListView} (hcall : command.writing? view.policy = some call) :
    (command.step view).2 = (call.onView view).2 ∧
      ((call.onView view).1.fails = true →
        (command.step view).1 = (call.onView view).1.answer) := by
  have hmodify : ∀ {position x}, view.elements[position]? = some x → ∀ change,
      List.modify view.elements position change = List.set view.elements position (change x) := by
    intro position x hat change
    rw [List.modify_eq_set_getElem?, hat]
    rfl
  have hself : ∀ {position x}, view.elements[position]? = some x →
      List.set view.elements position x = view.elements := by
    intro position x hat
    obtain ⟨hlt, rfl⟩ := List.getElem?_eq_some_iff.mp hat
    exact List.set_getElem_self hlt
  cases command <;> cases hcall
  case write position _ | putIn position _ _ =>
    simp only [ListCommand.step, onView, ListView.get, Elements.get]
    cases hat : view.elements[position]? with
    | none => exact ⟨rfl, fun _ => rfl⟩
    | some x =>
      refine ⟨?_, nofun⟩
      cases x <;> simp [Except.map, ListCall.commit, hmodify hat, hself hat]

/-- A field of a struct is taken out at a position exactly if there is one.  Otherwise the answer
says so, and fields, stamp and clock are as before. -/
theorem Record.removeAt_cases {α : Type} (record : Record Stamp α) (position : Nat)
    (clock : Clock) :
    (position < record.size ∧ ∃ field, (record.removeAt position clock).1 = .ok field) ∨
      record.size ≤ position ∧ record.removeAt position clock =
        (.error (.indexOutOfRange position record.size), record, clock) := by
  obtain hlt | hle := Nat.lt_or_ge position record.size
  · have hat : record.fields[position]? = some record.fields[position] :=
      List.getElem?_eq_getElem hlt
    refine .inl ⟨hlt, record.fields[position], ?_⟩
    rw [removeAt, Fields.removeAt, hat]
  · refine .inr ⟨hle, ?_⟩
    rw [removeAt, Fields.removeAt, List.getElem?_eq_none hle]
    rfl

/-- Positional calls on bare elements and through views are exact and do nothing when they fail;
what is stored of a view is the value in it; and a struct says just so that a position in it is bad,
and stays as it was. -/
theorem Editor.positional_calls_exact (σ : Type) :
    (bare σ).Exact ∧ (throughView σ).Exact ∧
      (∀ policy (value : Value σ), (Storable.wrapped (wrap policy value)).stored = value) ∧
      ∀ (record : Record Stamp (Value σ)) (position : Nat) (clock : Clock),
        ((∃ cause, (record.removeAt position clock).1 = .error cause) ↔ record.size ≤ position) ∧
          (record.size ≤ position → record.removeAt position clock =
            (.error (.indexOutOfRange position record.size), record, clock)) := by
  refine ⟨(bare σ).exact, (throughView σ).exact, Storable.stored_wrap, ?_⟩
  intro record position clock
  obtain ⟨hlt, field, hok⟩ | ⟨hle, hfail⟩ := record.removeAt_cases position clock
  · refine ⟨⟨?_, fun hle => absurd hlt (Nat.not_lt_of_le hle)⟩,
      fun hle => absurd hlt (Nat.not_lt_of_le hle)⟩
    rintro ⟨cause, herror⟩
    rw [hok] at herror
    contradiction
  · exact ⟨⟨fun _ => hle, fun _ => ⟨_, congrArg Prod.fst hfail⟩⟩, fun _ => hfail⟩

end Caseless
