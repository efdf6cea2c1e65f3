import Caseless.Proofs.Shape.Outcome
import Caseless.Proofs.View.Walk
import Mathlib.Data.List.Forall2

/-!
# Where a walk stands

A walk through a view hands out views, which keep no address.  Here the same walk also keeps, for
every key that it follows, the index of the child that the view goes on to: a position in a
sequence, or the field that a name resolves to.

Main results:

- Definition `Arrival.Alike` and Theorem `Path.follow_alike`: two walks are compared key by key;
- Definition `View.index?` and Theorem `View.exists_index_of_get`: the index of the child that a key
  leads to, in the order in which a view enumerates its children;
- Definition `Standing.walk` and Theorem `Standing.tracks`: the walk that keeps addresses is the walk
  of the view, and its addresses lead to the nodes that the view shows.
-/

namespace Caseless

open Name

/-! ## Walks side by side -/

/-- Two walks end after the same number of keys: both at related targets, both without a child, or
both with the same failure. -/
inductive Arrival.Alike {α β : Type} (rel : α → β → Prop) : Arrival α → Arrival β → Prop where
  | found {target : α} {other : β} (h : rel target other) : Alike rel (.found target) (.found other)
  | missing (steps : Nat) : Alike rel (.missing steps) (.missing steps)
  | failed (steps : Nat) (failure : Error) :
    Alike rel (.failed steps failure) (.failed steps failure)

namespace Arrival

variable {α β γ : Type} {rel : α → β → Prop} {arrival : Arrival α} {other : Arrival β}

theorem Alike.later (h : arrival.Alike rel other) : arrival.later.Alike rel other.later := by
  cases h with
  | found h => exact .found h
  | missing steps => exact .missing (steps + 1)
  | failed steps failure => exact .failed (steps + 1) failure

/-- What is the same of related targets is the same of the ends of the walks. -/
theorem Alike.map_eq (h : arrival.Alike rel other) {f : α → γ} {g : β → γ}
    (hsame : ∀ target target', rel target target' → f target = g target') :
    arrival.map f = other.map g := by
  cases h with
  | found h => simp [map, hsame _ _ h]
  | missing steps => rfl
  | failed steps failure => rfl

end Arrival

/-- Where related starts answer related keys alike, walks along related paths end alike. -/
theorem Path.follow_alike {α β : Type} {rel : α → β → Prop} {same : Key → Key → Prop}
    {get : α → Key → Except Error (Option α)} {get' : β → Key → Except Error (Option β)}
    (hstep : ∀ start other key key', rel start other → same key key' →
      Agree False False (Option.Rel rel) (get start key) (get' other key'))
    {path path' : List Key} (hpath : List.Forall₂ same path path') {start : α} {other : β}
    (hstart : rel start other) :
    (follow get start path).Alike rel (follow get' other path') := by
  induction hpath generalizing start other with
  | nil => exact .found hstart
  | @cons key key' rest rest' hkey _ ih =>
    have hanswer := hstep start other key key' hstart hkey
    rw [follow, follow]
    generalize get start key = answer, get' other key' = answer' at hanswer
    cases hanswer with
    | error failure => exact .failed 0 failure
    | excusedLeft h => contradiction
    | excusedRight h => contradiction
    | ok hchild =>
      cases hchild with
      | none => exact .missing 0
      | some hchild => exact (ih hchild).later

/-! ## Children by index -/

variable {σ : Type}

/-- The index of the child that a key leads to: a position itself, and for a name the position of
the field that it resolves to. -/
def View.index? [DecidableEq σ] (view : View σ) (key : Key) : Option Nat :=
  match view, key with
  | .list _, .position index => some index
  | .struct view, .name name => view.position? name
  | _, _ => none

/-- The child that a key leads to is the one that is enumerated at its index. -/
theorem View.exists_index_of_get [DecidableEq σ] {view child : View σ} {key : Key}
    (h : view.get key = .ok (some child)) :
    ∃ index, view.index? key = some index ∧ view.visit.children[index]? = some child := by
  cases view with
  | scalar payload => simp [View.get] at h
  | list view =>
    cases key with
    | name name => simp [View.get] at h
    | position index =>
      change ((Elements.get view.elements index).map (wrap view.policy)).map some = _ at h
      obtain ⟨found, hfound, hsome⟩ := exists_of_map_eq_ok h
      obtain ⟨element, helement, hwrap⟩ := exists_of_map_eq_ok hfound
      rw [Elements.get_eq_ok_iff] at helement
      refine ⟨index, rfl, ?_⟩
      change (view.elements.map (wrap view.policy))[index]? = some child
      rw [List.getElem?_map, helement, Option.map_some, hwrap, Option.some.inj hsome]
  | struct view =>
    cases key with
    | position index => simp [View.get] at h
    | name name =>
      have hfound : view.get? name = some child := Except.ok.inj h
      obtain ⟨index, hindex, hchild⟩ := Option.bind_eq_some_iff.mp hfound
      obtain ⟨field, hfield, hwrap⟩ := Option.map_eq_some_iff.mp hchild
      refine ⟨index, hindex, ?_⟩
      change (view.entries.map (·.2))[index]? = some child
      simp [StructView.entries, hfield, hwrap]

/-! ## Walks that keep addresses -/

/-- A view together with its address: the child indices that lead to it from where the walk began. -/
structure Standing (σ : Type := Unit) where
  position : List Nat
  view : View σ

namespace Standing

/-- A standing is true of a root when its address leads to the node that it shows. -/
def TrueOf (policy : Policy) (root : Value σ) (standing : Standing σ) : Prop :=
  ∃ node, root.at? standing.position = some node ∧ standing.view = wrap policy node

/-- An address that is true stays true when it grows by the index of a child. -/
theorem TrueOf.child {policy : Policy} {root : Value σ} {standing : Standing σ}
    (h : standing.TrueOf policy root) {child : View σ} {index : Nat}
    (hchild : standing.view.visit.children[index]? = some child) :
    TrueOf policy root ⟨standing.position ++ [index], child⟩ := by
  obtain ⟨node, hnode, hview⟩ := h
  rw [hview, View.visit_wrap, Node.children_map, List.getElem?_map,
    Value.getElem?_children_visit] at hchild
  obtain ⟨value, hat, rfl⟩ := Option.map_eq_some_iff.mp hchild
  refine ⟨value, ?_, rfl⟩
  simp [Value.at?_append, hnode, hat]

variable [DecidableEq σ]

/-- Where a key leads to. -/
def enter (standing : Standing σ) (key : Key) : Except Error (Option (Standing σ)) :=
  (standing.view.get key).map fun child? => child?.bind fun child =>
    (standing.view.index? key).map fun index => ⟨standing.position ++ [index], child⟩

/-- The walk through the view of a value that keeps its address. -/
def walk (policy : Policy) (value : Value σ) (path : List Key) : Arrival (Standing σ) :=
  Path.follow enter ⟨[], wrap policy value⟩ path

/-- A view with an address answers a key as the view does, and its address stays true. -/
theorem enter_agree_get {policy : Policy} {root : Value σ} {standing : Standing σ}
    (h : standing.TrueOf policy root) (key : Key) :
    Agree False False (Option.Rel fun next child => next.view = child ∧ next.TrueOf policy root)
      (standing.enter key) (standing.view.get key) := by
  unfold enter
  cases hanswer : standing.view.get key with
  | error failure => exact .error failure
  | ok child? =>
    cases child? with
    | none => exact .ok .none
    | some child =>
      obtain ⟨index, hindex, hchild⟩ := View.exists_index_of_get hanswer
      rw [hindex]
      exact .ok (.some ⟨rfl, h.child hchild⟩)

/-- The walk that keeps addresses tracks the walk of the view: it ends as that does, and what it has
found is the node at its address. -/
structure Tracks (policy : Policy) (value : Value σ) (path : List Key) : Prop where
  shown : (walk policy value path).map view = Path.follow View.get (wrap policy value) path
  addressed : ∀ standing, walk policy value path = .found standing →
    standing.TrueOf policy value

theorem tracks (policy : Policy) (value : Value σ) (path : List Key) :
    Tracks policy value path := by
  have hroot : TrueOf policy value ⟨[], wrap policy value⟩ := ⟨value, rfl, rfl⟩
  have hpath : List.Forall₂ Eq path path := List.forall₂_refl path
  have halike : (walk policy value path).Alike
      (fun standing child => standing.view = child ∧ standing.TrueOf policy value)
      (Path.follow View.get (wrap policy value) path) := by
    refine Path.follow_alike ?_ hpath ⟨rfl, hroot⟩
    rintro standing _ key _ ⟨rfl, htrue⟩ rfl
    exact enter_agree_get htrue key
  generalize hwalk : walk policy value path = arrival at halike
  generalize hfollow : Path.follow View.get (wrap policy value) path = arrival' at halike
  refine ⟨?_, ?_⟩
  · rw [hwalk, hfollow]
    cases halike with
    | found h => rw [Arrival.map, h.1]
    | missing steps => rfl
    | failed steps failure => rfl
  · intro standing hfound
    rw [hwalk] at hfound
    subst hfound
    cases halike with
    | found h => exact h.2

end Standing
end Caseless
