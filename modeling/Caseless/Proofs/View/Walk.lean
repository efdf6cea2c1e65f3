import Caseless.Proofs.View.Lookup
import Caseless.Value.Position

/-!
# Walking a value and its view

A path is walked through a value by the spelling of names, and through a view of the value ignoring
case.  Under the policy that prefers the exact spelling the second walk extends the first: every
child that the value has at the end of a path is found, every bad position is reported alike, and
the walks part only at a name that the value has no field of.

Main results:

- Theorem `View.get_wrap`: one key leads to the same child, or it is a name that the struct lacks;
- Definition `Path.Extends`: how the walk of a view goes on from the walk of its value;
- Theorem `Path.extends_of_preferExact`: it does so for every value and path, for the child access
  of values and views themselves and for the one that all handles share.
-/

namespace Caseless

open Name

variable {σ : Type}

/-! ## One key -/

theorem Elements.get_map {α β : Type} (f : α → β) (elements : Elements α) (position : Nat) :
    Elements.get (elements.map f) position = (Elements.get elements position).map f := by
  unfold Elements.get
  rw [List.getElem?_map]
  cases elements[position]? with
  | none => simp [Except.map]
  | some element => rfl

namespace Readable

/-- Read as a handle, a value hands out the children that it has. -/
theorem get_value (value : Value σ) (key : Key) : get value key = value.get key := by
  cases value <;> cases key <;> rfl

/-- Read as a handle, a view hands out the children that it wraps. -/
theorem get_view [DecidableEq σ] (view : View σ) (key : Key) : get view key = view.get key := by
  cases view with
  | scalar payload => cases key <;> rfl
  | struct view => cases key <;> rfl
  | list view =>
    cases key with
    | name name => rfl
    | position index =>
      have helement := Elements.get_map (wrap view.policy) view.elements index
      change (Elements.get (view.elements.map (wrap view.policy)) index).map some =
        ((Elements.get view.elements index).map (wrap view.policy)).map some
      rw [helement]

end Readable

/-- A struct is asked for a name that none of its fields has. -/
inductive Value.Lacks : Value σ → Key → Prop where
  | name {stamp : σ} {fields : List (String × Value σ)} {name : String}
    (h : name ∉ Fields.names fields) : Lacks (.struct stamp fields) (.name name)

/-- A name that a struct lacks leads nowhere. -/
theorem Value.Lacks.get_eq {value : Value σ} {key : Key} (h : value.Lacks key) :
    value.get key = .ok none := by
  cases h with
  | name h => rw [Value.get, Fields.get?_eq_none_iff.mpr h]

/-- A view that prefers the exact spelling gives for a key the view of what the value gives, unless
the key is a name that the value lacks. -/
theorem View.get_wrap [DecidableEq σ] (value : Value σ) (key : Key) :
    (wrap .preferExact value).get key = (value.get key).map (Option.map (wrap .preferExact)) ∨
      value.Lacks key := by
  cases value with
  | scalar payload => exact .inl rfl
  | seq kind elements =>
    cases key with
    | name name => exact .inl rfl
    | position index =>
      left
      change ((Elements.get elements index).map (wrap .preferExact)).map some = _
      simp only [Value.get]
      cases Elements.get elements index <;> rfl
  | struct stamp fields =>
    cases key with
    | position index => exact .inl rfl
    | name name =>
      cases hfield : Fields.get? name fields with
      | none => exact .inr (.name (Fields.get?_eq_none_iff.mp hfield))
      | some child =>
        left
        have hview := StructView.get?_of_get? stamp hfield
        change Except.ok ((StructView.new ⟨stamp, fields⟩ .preferExact).get? name) = _
        rw [hview, Value.get, hfield]
        rfl

/-! ## Whole paths -/

namespace Path

variable [DecidableEq σ]

/-- The walk of a view along a path goes on from the walk of the value that it wraps. -/
structure Extends (getValue : Value σ → Key → Except Error (Option (Value σ)))
    (getView : View σ → Key → Except Error (Option (View σ))) (value : Value σ)
    (path : List Key) : Prop where
  /-- What the value has at the end of the path, the view shows. -/
  found : ∀ child, follow getValue value path = .found child →
    follow getView (wrap .preferExact value) path = .found (wrap .preferExact child)
  /-- A bad position is met by both walks after the same number of keys. -/
  failed : ∀ steps failure, follow getValue value path = .failed steps failure →
    follow getView (wrap .preferExact value) path = .failed steps failure
  /-- The walks end differently only if that of the value has come to a name that it lacks. -/
  differs : follow getView (wrap .preferExact value) path ≠
      (follow getValue value path).map (wrap .preferExact) →
    ∃ front key rest node, path = front ++ key :: rest ∧
      follow getValue value front = .found node ∧ node.Lacks key ∧
      follow getValue value path = .missing front.length

/-- The walk of the view ends as that of the value, or that of the value has come to a name that is
lacking. -/
theorem follow_wrap (value : Value σ) (path : List Key) :
    follow View.get (wrap .preferExact value) path =
        (follow Value.get value path).map (wrap .preferExact) ∨
      ∃ front key rest node, path = front ++ key :: rest ∧
        follow Value.get value front = .found node ∧ node.Lacks key ∧
        follow Value.get value path = .missing front.length := by
  induction path generalizing value with
  | nil => exact .inl rfl
  | cons key rest ih =>
    rcases View.get_wrap value key with hget | hlacks
    · rw [follow, follow, hget]
      cases hchild : value.get key with
      | error failure => exact .inl rfl
      | ok child? =>
        cases child? with
        | none => exact .inl rfl
        | some child =>
          rcases ih child with hsame | ⟨front, name, rest', node, rfl, hnode, hlacks, hmissing⟩
          · left
            simp only [Except.map, Option.map_some, hsame]
            cases follow Value.get child rest <;> rfl
          · right
            refine ⟨key :: front, name, rest', node, rfl, ?_, hlacks, ?_⟩
            · simp only [follow, hchild, hnode, Arrival.later]
            · simp only [hmissing, Arrival.later, List.length_cons]
    · right
      refine ⟨[], key, rest, value, rfl, rfl, hlacks, ?_⟩
      simp only [follow, hlacks.get_eq, List.length_nil]

theorem extends_get (value : Value σ) (path : List Key) :
    Extends Value.get View.get value path := by
  rcases follow_wrap value path with hsame | hlacking
  · refine ⟨fun child hchild => ?_, fun steps failure hfailure => ?_, fun hne => ?_⟩
    · rw [hsame, hchild]
      rfl
    · rw [hsame, hfailure]
      rfl
    · exact absurd hsame hne
  · rcases hlacking with ⟨front, key, rest, node, hpath, hnode, hlacks, hmissing⟩
    refine ⟨fun child hchild => ?_, fun steps failure hfailure => ?_, fun _ => ?_⟩
    · rw [hmissing] at hchild
      contradiction
    · rw [hmissing] at hfailure
      contradiction
    · exact ⟨front, key, rest, node, hpath, hnode, hlacks, hmissing⟩

/-- For every value and path, the walk of the view that prefers the exact spelling extends the walk
of the value.  It does not matter whether children are asked for on values and views themselves, or
in the way that all handles share. -/
theorem extends_of_preferExact (value : Value σ) (path : List Key) :
    Extends Value.get View.get value path ∧ Extends Readable.get Readable.get value path := by
  have hvalue : (Readable.get : Value σ → Key → _) = Value.get := by
    funext value key
    exact Readable.get_value value key
  have hview : (Readable.get : View σ → Key → _) = View.get := by
    funext view key
    exact Readable.get_view view key
  rw [hvalue, hview]
  exact ⟨extends_get value path, extends_get value path⟩

end Path
end Caseless
