import Caseless.Proofs.View.Presents
import Caseless.View.Place

/-!
# Places and views

A walk through exclusive views arrives at a place; a walk through shared views of the same value
arrives at a view.  Both decide at every key by what the node tells about itself without its
children: its kind, its length or its names.  So they arrive alike, and a change at one position
leaves what is decided at the others as it is.

Main definitions:

- `Value.Outline`: a node without its children;
- `Value.indexOf`: the index of the child that a key leads to;
- `Place.standing`: the shared view of a place.

Main results:

- Theorem `Path.follow_map`: two walks whose steps correspond end at corresponding targets;
- Theorems `Value.at?_modifyAt_above`, `Value.at?_modifyAt_beside` and
  `Value.outline_at?_modifyAt`: what a change at one position leaves of the nodes above and beside;
- Theorem `Place.walk_eq_locate`: the walk through shared views arrives where the walk through
  exclusive views does.
-/

namespace Caseless

open Name

variable {σ : Type}

/-! ## Walks that correspond -/

/-- Where each stop of a walk leads on as the stop that corresponds to it does, the walks end at
corresponding targets, or fail to alike. -/
theorem Path.follow_map {α β : Type} (f : α → β) {get : α → Key → Except Error (Option α)}
    {get' : β → Key → Except Error (Option β)} {path : List Key} {start : α}
    (hstep : ∀ front key rest, path = front ++ key :: rest → ∀ stop,
      follow get start front = .found stop →
        get' (f stop) key = (get stop key).map (Option.map f)) :
    follow get' (f start) path = (follow get start path).map f := by
  induction path generalizing start with
  | nil => rfl
  | cons key rest ih =>
    rw [follow, follow, hstep [] key rest rfl start rfl]
    cases hget : get start key with
    | error failure => rfl
    | ok child? =>
      cases child? with
      | none => rfl
      | some child =>
        have hrest : follow get' (f child) rest = (follow get child rest).map f := by
          refine ih ?_
          intro front next back hpath stop hstop
          refine hstep (key :: front) next back (by rw [hpath]; rfl) stop ?_
          rw [follow, hget]
          simp only [hstop, Arrival.later]
        simp only [Except.map, Option.map_some, hrest]
        cases follow get child rest <;> rfl

/-- A walk that goes on from a first key has found a child there. -/
theorem Path.exists_of_follow_cons {α : Type} {get : α → Key → Except Error (Option α)}
    {start target : α} {key : Key} {rest : List Key}
    (h : follow get start (key :: rest) = .found target) :
    ∃ child, get start key = .ok (some child) ∧ follow get child rest = .found target := by
  rw [follow] at h
  cases hget : get start key with
  | error failure =>
    rw [hget] at h
    contradiction
  | ok child? =>
    cases child? with
    | none =>
      rw [hget] at h
      contradiction
    | some child =>
      rw [hget] at h
      refine ⟨child, rfl, ?_⟩
      cases harrival : follow get child rest with
      | found found => simpa [harrival, Arrival.later] using h
      | missing steps => simp [harrival, Arrival.later] at h
      | failed steps failure => simp [harrival, Arrival.later] at h

/-! ## Nodes without their children -/

namespace Value

/-- A node without its children. -/
inductive Outline (σ : Type) where
  | scalar (payload : Scalar)
  | seq (kind : SeqKind) (length : Nat)
  | struct (stamp : σ) (names : List String)

/-- What a value tells about itself without its children. -/
def outline : Value σ → Outline σ
  | .scalar payload => .scalar payload
  | .seq kind elements => .seq kind elements.length
  | .struct stamp fields => .struct stamp (Fields.names fields)

@[simp]
theorem outline_modifyChild (value : Value σ) (index : Nat) (f : Value σ → Value σ) :
    (value.modifyChild index f).outline = value.outline := by
  cases value with
  | scalar payload => rfl
  | seq kind elements => simp [modifyChild, outline]
  | struct stamp fields => rw [modifyChild, outline, Fields.names_modify, outline]

/-- A change of one element depends only on what it makes of the element that is there. -/
theorem modify_congr {α : Type} {elements : List α} {index : Nat} {f g : α → α}
    (h : ∀ element, elements[index]? = some element → f element = g element) :
    elements.modify index f = elements.modify index g := by
  refine List.ext_getElem? fun i => ?_
  rw [List.getElem?_modify, List.getElem?_modify]
  by_cases hi : index = i
  · subst hi
    cases helement : elements[index]? with
    | none => rfl
    | some element => simp [h element helement]
  · simp [hi]

/-- A change of a child depends only on what it makes of the child that is there. -/
theorem modifyChild_congr {value : Value σ} {index : Nat} {f g : Value σ → Value σ}
    (h : ∀ child, value.child? index = some child → f child = g child) :
    value.modifyChild index f = value.modifyChild index g := by
  cases value with
  | scalar payload => rfl
  | seq kind elements => rw [modifyChild, modifyChild, modify_congr h]
  | struct stamp fields =>
    rw [modifyChild, modifyChild, struct.injEq]
    refine ⟨rfl, modify_congr ?_⟩
    intro field hfield
    have hchild : (struct stamp fields).child? index = some field.2 := by simp [child?, hfield]
    rw [h field.2 hchild]

/-- A change that leaves the child that is there as it is changes nothing. -/
theorem modifyChild_eq_self {value : Value σ} {index : Nat} {f : Value σ → Value σ}
    (h : ∀ child, value.child? index = some child → f child = child) :
    value.modifyChild index f = value := by
  have hid : value.modifyChild index id = value := by
    cases value with
    | scalar payload => rfl
    | seq kind elements => simp [modifyChild]
    | struct stamp fields =>
      rw [modifyChild, struct.injEq]
      exact ⟨rfl, List.modify_id index fields⟩
  exact (modifyChild_congr h).trans hid

/-! ### Positions above, beside and below a change -/

/-- The node above a change is the node that was there, with the change in it. -/
theorem at?_modifyAt_above (value : Value σ) (f : Value σ → Value σ) (front back : List Nat) :
    (value.modifyAt f (front ++ back)).at? front =
      (value.at? front).map fun node => node.modifyAt f back := by
  induction front generalizing value with
  | nil => rfl
  | cons index rest ih =>
    rw [List.cons_append, modifyAt, at?_cons, at?_cons, child?_modifyChild]
    cases value.child? index with
    | none => rfl
    | some child => exact ih child

/-- The node at a position that is neither above nor below a change is the node that was there. -/
theorem at?_modifyAt_beside (value : Value σ) (f : Value σ → Value σ)
    {changed other : List Nat} (habove : ¬other <+: changed) (hbelow : ¬changed <+: other) :
    (value.modifyAt f changed).at? other = value.at? other := by
  induction changed generalizing value other with
  | nil => exact absurd List.nil_prefix hbelow
  | cons index rest ih =>
    cases other with
    | nil => exact absurd List.nil_prefix habove
    | cons other more =>
      rw [modifyAt, at?_cons, at?_cons]
      by_cases hindex : index = other
      · subst hindex
        rw [List.cons_prefix_cons] at habove hbelow
        rw [child?_modifyChild]
        cases value.child? index with
        | none => rfl
        | some child => exact ih child (fun h => habove ⟨rfl, h⟩) (fun h => hbelow ⟨rfl, h⟩)
      · rw [child?_modifyChild_of_ne value _ hindex]

/-- Below a change there is what the changed node has there. -/
theorem at?_modifyAt_below (value : Value σ) (f : Value σ → Value σ) (changed rest : List Nat) :
    (value.modifyAt f changed).at? (changed ++ rest) =
      (value.at? changed).bind fun node => (f node).at? rest := by
  rw [at?_append, at?_modifyAt, Option.bind_map]
  rfl

/-- Everywhere but at a change and below it, the nodes keep their outlines. -/
theorem outline_at?_modifyAt (value : Value σ) (f : Value σ → Value σ) {changed other : List Nat}
    (h : ¬changed <+: other) :
    ((value.modifyAt f changed).at? other).map outline = (value.at? other).map outline := by
  by_cases habove : other <+: changed
  · obtain ⟨back, rfl⟩ := habove
    cases back with
    | nil => simp at h
    | cons index rest =>
      rw [at?_modifyAt_above, Option.map_map]
      congr 1
      funext node
      exact outline_modifyChild node index _
  · rw [at?_modifyAt_beside value f habove h]

/-! ### Keys and indices -/

variable [DecidableEq σ]

/-- The index of the child that a key leads to.  It depends on the outline only. -/
def indexOf (access : Access) (value : Value σ) (key : Key) : Except Error (Option Nat) :=
  match value, key with
  | .seq _ elements, .position index => (Elements.get elements index).map fun _ => some index
  | .struct stamp fields, .name name => .ok (access.position? (Record.mk stamp fields) name)
  | _, _ => .ok none

end Value

variable [DecidableEq σ]

namespace Access

/-- The position among names that a query leads to. -/
def scan (access : Access) (names : List String) (query : String) : Option Nat :=
  match access with
  | .exact => names.findIdx? (· == query)
  | .folded policy => Name.scan policy names query

variable {α : Type} (access : Access)

/-- A query leads to the position that a scan of the names selects. -/
theorem position?_eq_scan (record : Record σ α) (query : String) :
    access.position? record query = access.scan record.names query := by
  cases access with
  | exact =>
    rw [position?, scan, Record.names, Fields.names, List.findIdx?_map]
    rfl
  | folded policy =>
    exact (NameIndex.trueOf_of_built_eq_none record rfl).lookup_eq_scan query

/-- However names are looked up, what is found depends on the names only. -/
theorem position?_congr {record record' : Record σ α} (h : record.names = record'.names)
    (query : String) : access.position? record query = access.position? record' query := by
  rw [position?_eq_scan, position?_eq_scan, h]

end Access

theorem Value.indexOf_modifyChild (access : Access) (value : Value σ) (index : Nat)
    (f : Value σ → Value σ) (key : Key) :
    (value.modifyChild index f).indexOf access key = value.indexOf access key := by
  cases value with
  | scalar payload => rfl
  | seq kind elements =>
    cases key with
    | name name => rfl
    | position position =>
      simp only [modifyChild, indexOf, Elements.get, List.length_modify, List.getElem?_modify]
      cases elements[position]? <;> rfl
  | struct stamp fields =>
    cases key with
    | position position => rfl
    | name name =>
      have hnames :
          (Record.mk stamp (fields.modify index fun field => (field.1, f field.2))).names =
            (Record.mk stamp fields).names := Fields.names_modify fields index f
      exact congrArg Except.ok (access.position?_congr hnames name)

/-! ## Shared and exclusive views -/

/-- A shared view of a value leads on to the view of the child with the index that the key has. -/
theorem View.get_wrap_eq (policy : Policy) (value : Value σ) (key : Key) :
    (wrap policy value).get key = (value.indexOf (.folded policy) key).map fun index? =>
      index?.bind fun index => (value.child? index).map (wrap policy) := by
  cases value with
  | scalar payload => cases key <;> rfl
  | seq kind elements =>
    cases key with
    | name name => rfl
    | position index =>
      change ((Elements.get elements index).map (wrap policy)).map some = _
      simp only [Value.indexOf, Elements.get, Value.child?]
      cases helement : elements[index]? <;> simp [Except.map, helement]
  | struct stamp fields =>
    cases key with
    | position index => rfl
    | name name =>
      change Except.ok ((StructView.new ⟨stamp, fields⟩ policy).get? name) = _
      simp only [StructView.get?, Value.indexOf, Value.child?, Except.map, Option.map_map]
      rfl

/-- The index that a key has is the one that the view tells. -/
theorem View.index?_wrap {policy : Policy} {value : Value σ} {key : Key} {index : Nat}
    (h : value.indexOf (.folded policy) key = .ok (some index)) :
    (wrap policy value).index? key = some index := by
  cases value with
  | scalar payload => simp [Value.indexOf] at h
  | seq kind elements =>
    cases key with
    | name name => simp [Value.indexOf] at h
    | position position =>
      obtain ⟨_, -, hindex⟩ := exists_of_map_eq_ok h
      exact hindex
  | struct stamp fields =>
    cases key with
    | position position => simp [Value.indexOf] at h
    | name name => exact Except.ok.inj h

namespace Place

/-- A place leads on to the child with the index that the key has. -/
theorem enter_eq (access : Access) (place : Place σ) (key : Key) :
    enter access place key = (place.value.indexOf access key).map fun index? =>
      index?.bind fun index => (place.value.child? index).map (place.down index) := by
  obtain ⟨position, value⟩ := place
  cases value with
  | scalar payload => cases key <;> rfl
  | seq kind elements =>
    cases key with
    | name name => rfl
    | position index =>
      simp only [enter, Value.indexOf, Elements.get, Value.child?]
      cases helement : elements[index]? <;> simp [Except.map, helement]
  | struct stamp fields =>
    cases key with
    | position index => rfl
    | name name =>
      simp only [enter, Value.indexOf, Value.child?, Option.map_map]
      rfl

/-- The shared view of a place, with the address of the place. -/
def standing (policy : Policy) (place : Place σ) : Standing σ :=
  ⟨place.position, wrap policy place.value⟩

/-- A shared view leads on to the child that an exclusive view leads on to. -/
theorem enter_standing (policy : Policy) (place : Place σ) (key : Key) :
    (place.standing policy).enter key =
      (enter (.folded policy) place key).map (Option.map (standing policy)) := by
  rw [Standing.enter, enter_eq]
  change ((wrap policy place.value).get key).map _ = _
  rw [View.get_wrap_eq]
  cases hindex : place.value.indexOf (.folded policy) key with
  | error failure => rfl
  | ok index? =>
    cases index? with
    | none => rfl
    | some index =>
      have hview : (place.standing policy).view.index? key = some index := View.index?_wrap hindex
      rw [hview]
      cases hchild : place.value.child? index with
      | none => simp [Except.map, hchild]
      | some child => simp [Except.map, hchild, down, standing]

/-- The walk through shared views arrives where the walk through exclusive views does. -/
theorem walk_eq_locate (policy : Policy) (value : Value σ) (path : List Key) :
    Standing.walk policy value path =
      (locate (.folded policy) value path).map (standing policy) := by
  change Path.follow Standing.enter ((root value).standing policy) path = _
  exact Path.follow_map (standing policy) fun _ key _ _ place _ => enter_standing policy place key

/-- The walk of the view, which keeps no addresses, arrives there too. -/
theorem follow_eq_locate (policy : Policy) (value : Value σ) (path : List Key) :
    Path.follow View.get (wrap policy value) path =
      (locate (.folded policy) value path).map fun place => wrap policy place.value := by
  rw [← (Standing.tracks policy value path).shown, walk_eq_locate]
  cases locate (.folded policy) value path <;> rfl

/-- The address of a place that is located leads to what stands there. -/
theorem at?_of_locate {policy : Policy} {value : Value σ} {path : List Key} {place : Place σ}
    (h : locate (.folded policy) value path = .found place) :
    value.at? place.position = some place.value := by
  have hwalk : Standing.walk policy value path = .found (place.standing policy) := by
    rw [walk_eq_locate, h]
    rfl
  obtain ⟨node, hnode, hview⟩ := (Standing.tracks policy value path).addressed _ hwalk
  have hvalue : place.value = node := by
    have hraw := congrArg View.rawValue hview
    simpa [standing] using hraw
  rw [hvalue]
  exact hnode

end Place
end Caseless
