import Caseless.Proofs.View.Places
import Caseless.Proofs.View.Run

/-!
# Overwriting what a walk finds

A walk through exclusive views arrives at a place, and if a scalar stands there, it may be
overwritten.  That is written through the views on the way, each of which looks up its name; in the
root it changes that one node and no outline elsewhere.  So every walk that does not go on from the
node ends as it did.

Main definitions:

- `Place.overwrite`: what becomes of a place when the node at some position is overwritten;
- `View.changeAlong`: the change of a value through nested exclusive views;
- `Value.ReplacedIn`: what is different, and what is not, after a scalar was overwritten.

Main results:

- Theorem `Place.enter_overwrite`: a place that is not overwritten leads on as before;
- Theorem `Place.locate_overwrite`: a walk that does not go on from what is overwritten ends as
  before;
- Theorem `View.changeAlong_eq_modify`: nested exclusive views change the place that is located;
- Theorem `Place.write_found`: shared and exclusive walks arrive alike, and overwriting the scalar
  that they find replaces it.
-/

namespace Caseless

open Name

variable {σ : Type} [DecidableEq σ]

namespace Place

/-! ## Overwriting -/

/-- Where the same index is found, and its child corresponds, a place leads on to what corresponds
to what another place leads on to. -/
theorem enter_congr {access : Access} {place place' : Place σ} {key : Key}
    {f : Place σ → Place σ}
    (hindex : place'.value.indexOf access key = place.value.indexOf access key)
    (hchild : ∀ index, (place'.value.child? index).map (place'.down index) =
      ((place.value.child? index).map (place.down index)).map f) :
    enter access place' key = (enter access place key).map (Option.map f) := by
  rw [enter_eq, enter_eq, hindex]
  cases place.value.indexOf access key with
  | error failure => rfl
  | ok index? =>
    cases index? with
    | none => rfl
    | some index => exact congrArg Except.ok (hchild index)

/-- What becomes of a place when the node at a position is overwritten. -/
def overwrite (changed : List Nat) (new : Value σ) (place : Place σ) : Place σ :=
  if place.position <+: changed then
    ⟨place.position, place.value.modifyAt (fun _ => new) (changed.drop place.position.length)⟩
  else place

omit [DecidableEq σ] in
theorem overwrite_beside {changed : List Nat} (new : Value σ) {place : Place σ}
    (h : ¬place.position <+: changed) : place.overwrite changed new = place :=
  if_neg h

omit [DecidableEq σ] in
theorem overwrite_append (position back : List Nat) (new value : Value σ) :
    (Place.mk position value).overwrite (position ++ back) new =
      ⟨position, value.modifyAt (fun _ => new) back⟩ := by
  rw [overwrite, if_pos (List.prefix_append position back), List.drop_left]

/-- A place that is not overwritten leads on to the same places as before, with what is overwritten
in them. -/
theorem enter_overwrite (access : Access) {changed : List Nat} (new : Value σ) {place : Place σ}
    (h : place.position ≠ changed) (key : Key) :
    enter access (place.overwrite changed new) key =
      (enter access place key).map (Option.map (overwrite changed new)) := by
  obtain ⟨position, value⟩ := place
  by_cases habove : position <+: changed
  · obtain ⟨back, rfl⟩ := habove
    cases back with
    | nil => exact absurd (List.append_nil position).symm h
    | cons index rest =>
      rw [overwrite_append]
      refine enter_congr (Value.indexOf_modifyChild ..) ?_
      intro other
      by_cases hother : index = other
      · subst hother
        have hdown : ∀ child : Value σ,
            (Place.mk (position ++ [index]) child).overwrite (position ++ index :: rest) new =
              ⟨position ++ [index], child.modifyAt (fun _ => new) rest⟩ := by
          intro child
          rw [List.append_cons]
          exact overwrite_append (position ++ [index]) rest new child
        change ((value.modifyChild index _).child? index).map _ = _
        rw [Value.child?_modifyChild, Option.map_map, Option.map_map]
        congr 1
        funext child
        exact (hdown child).symm
      · have haside : ¬position ++ [other] <+: position ++ index :: rest := by
          rw [List.prefix_append_right_inj, List.cons_prefix_cons]
          exact fun heq => hother heq.1.symm
        change ((value.modifyChild index _).child? other).map _ = _
        rw [Value.child?_modifyChild_of_ne value _ hother, Option.map_map]
        congr 1
        funext child
        exact (overwrite_beside new haside).symm
  · rw [overwrite_beside new habove]
    refine enter_congr rfl ?_
    intro index
    have haside : ¬position ++ [index] <+: changed := fun hprefix =>
      habove ((List.prefix_append position [index]).trans hprefix)
    rw [Option.map_map]
    congr 1
    funext child
    exact (overwrite_beside new haside).symm

/-- A walk that does not go on from what is overwritten ends as before. -/
theorem locate_overwrite (access : Access) (value new : Value σ) {changed : List Nat}
    {path : List Key}
    (h : ∀ front key rest, path = front ++ key :: rest → ∀ stop,
      locate access value front = .found stop → stop.position ≠ changed) :
    locate access (value.modifyAt (fun _ => new) changed) path =
      (locate access value path).map (overwrite changed new) := by
  have hroot : root (value.modifyAt (fun _ => new) changed) =
      (root value).overwrite changed new := (overwrite_append [] changed new value).symm
  rw [locate, hroot]
  refine Path.follow_map (overwrite changed new) ?_
  intro front key rest hpath stop hstop
  exact enter_overwrite access new (h front key rest hpath stop hstop) key

end Place

/-! ## Nested exclusive views -/

/-- The change of a value along a path through nested exclusive views: an element is changed in its
sequence, and a field is written through the view of its struct, which looks up the name. -/
def View.changeAlong (policy : Policy) (change : Value σ → Value σ) : List Key → Value σ → Value σ
  | [], value => change value
  | key :: rest, value =>
    match value, key with
    | .seq kind elements, .position index =>
      .seq kind (elements.modify index (changeAlong policy change rest))
    | .struct stamp fields, .name name =>
      ((StructView.new ⟨stamp, fields⟩ policy).writeThrough name
        (changeAlong policy change rest)).rawValue
    | value, _ => value

/-- One exclusive view changes the child that the key leads to, and nothing if it leads nowhere. -/
theorem View.changeAlong_cons (policy : Policy) (change : Value σ → Value σ) (key : Key)
    (rest : List Key) (value : Value σ) :
    changeAlong policy change (key :: rest) value =
      match value.indexOf (.folded policy) key with
      | .ok (some index) => value.modifyChild index (changeAlong policy change rest)
      | _ => value := by
  cases value with
  | scalar payload => cases key <;> rfl
  | seq kind elements =>
    cases key with
    | name name => rfl
    | position index =>
      rw [changeAlong, Value.indexOf, Elements.get]
      cases helement : elements[index]? with
      | none =>
        have hlength : elements.length ≤ index := List.getElem?_eq_none_iff.mp helement
        simp only [Except.map, List.modify_eq_self hlength]
      | some element => rfl
  | struct stamp fields =>
    cases key with
    | position index => rfl
    | name name =>
      let view := StructView.new (Record.mk stamp fields) policy
      have htrue : view.index.TrueOf view.record := NameIndex.trueOf_of_built_eq_none _ rfl
      have hindex : (Value.struct stamp fields).indexOf (.folded policy) (.name name) =
          .ok (scan view.policy view.names name) := congrArg Except.ok (htrue.lookup_eq_scan name)
      have hwrite := (StructView.answersAsScan_of_trueOf htrue name).writeThrough_eq
        (changeAlong policy change rest)
      rw [hindex]
      change (view.writeThrough name (changeAlong policy change rest)).rawValue = _
      rw [StructView.rawValue, hwrite]
      cases scan view.policy view.names name <;> rfl

/-- Along a path, the place that the path leads to is changed, and nothing if it leads nowhere. -/
theorem View.changeAlong_follow (policy : Policy) (change : Value σ → Value σ) (path : List Key)
    (place : Place σ) :
    (∃ back target,
        Path.follow (Place.enter (.folded policy)) place path =
          .found ⟨place.position ++ back, target⟩ ∧
        changeAlong policy change path place.value = place.value.modifyAt change back) ∨
      (∀ target, Path.follow (Place.enter (.folded policy)) place path ≠ .found target) ∧
        changeAlong policy change path place.value = place.value := by
  induction path generalizing place with
  | nil => exact .inl ⟨[], place.value, by rw [List.append_nil]; rfl, rfl⟩
  | cons key rest ih =>
    rw [Path.follow, Place.enter_eq, changeAlong_cons]
    cases place.value.indexOf (.folded policy) key with
    | error failure =>
      refine .inr ⟨?_, rfl⟩
      intro target htarget
      contradiction
    | ok index? =>
      cases index? with
      | none =>
        refine .inr ⟨?_, rfl⟩
        intro target htarget
        contradiction
      | some index =>
        cases hchild : place.value.child? index with
        | none =>
          right
          refine ⟨?_, ?_⟩
          · simp [Except.map, hchild]
          · refine Value.modifyChild_eq_self ?_
            intro child hsome
            rw [hchild] at hsome
            contradiction
        | some child =>
          simp only [Except.map, Option.bind_some, hchild, Option.map_some]
          rcases ih (place.down index child) with ⟨back, target, hfollow, hchange⟩ | ⟨hnot, hsame⟩
          · left
            refine ⟨index :: back, target, ?_, ?_⟩
            · rw [hfollow, List.append_cons]
              rfl
            · refine Value.modifyChild_congr ?_
              intro other hother
              obtain rfl : child = other := Option.some.inj (hchild.symm.trans hother)
              exact hchange
          · right
            refine ⟨?_, ?_⟩
            · intro target htarget
              cases harrival : Path.follow (Place.enter (.folded policy))
                  (place.down index child) rest with
              | found found => exact hnot found harrival
              | missing steps => rw [harrival] at htarget; contradiction
              | failed steps failure => rw [harrival] at htarget; contradiction
            · refine Value.modifyChild_eq_self ?_
              intro other hother
              obtain rfl : child = other := Option.some.inj (hchild.symm.trans hother)
              exact hsame

/-- Through nested exclusive views, the place that a path leads to is changed in the root. -/
theorem View.changeAlong_eq_modify {policy : Policy} {value : Value σ} {path : List Key}
    {place : Place σ} (h : Place.locate (.folded policy) value path = .found place)
    (change : Value σ → Value σ) :
    changeAlong policy change path value = place.modify value change := by
  rcases changeAlong_follow policy change path (.root value) with
    ⟨back, target, hfollow, hchange⟩ | ⟨hnot, -⟩
  · rw [Place.locate, hfollow] at h
    obtain rfl := Arrival.found.inj h
    exact hchange
  · exact absurd h (hnot place)

/-- Through nested exclusive views nothing is changed along a path that leads nowhere. -/
theorem View.changeAlong_eq_self {policy : Policy} {value : Value σ} {path : List Key}
    (h : ∀ place, Place.locate (.folded policy) value path ≠ .found place)
    (change : Value σ → Value σ) : changeAlong policy change path value = value := by
  rcases changeAlong_follow policy change path (.root value) with ⟨_, _, hfollow, -⟩ | ⟨-, hsame⟩
  · exact absurd hfollow (h _)
  · exact hsame

/-! ## After a scalar was overwritten -/

/-- A walk passes through a position if it stands there after some part of the path. -/
def Standing.Passes (policy : Policy) (value : Value σ) (path : List Key) (position : List Nat) :
    Prop :=
  ∃ front standing, front <+: path ∧ walk policy value front = .found standing ∧
    standing.position = position

/-- Two standings have the same address, and show the same but for what is new at a position.  If
the position is outside of what they show, they show the very same. -/
structure Standing.SameBut (policy : Policy) (target : List Nat) (new : Value σ)
    (standing other : Standing σ) : Prop where
  position_eq : other.position = standing.position
  outside : ¬standing.position <+: target → other.view = standing.view
  inside : ∀ back, target = standing.position ++ back →
    other.view = wrap policy (standing.view.rawValue.modifyAt (fun _ => new) back)

/-- One value is the other with something new in the place of the scalar that a path leads to. -/
structure Value.ReplacedIn (policy : Policy) (value : Value σ) (path : List Key)
    (target : List Nat) (new changed : Value σ) : Prop where
  /-- Written through nested exclusive views, the value becomes the same. -/
  through : View.changeAlong policy (fun _ => new) path value = changed
  /-- What is new stands in its place, with everything in it. -/
  new_eq : ∀ rest, changed.at? (target ++ rest) = new.at? rest
  /-- There was nothing below the scalar. -/
  below_eq : ∀ index rest, value.at? (target ++ index :: rest) = none
  /-- Every other node keeps its kind, and its payload, its length, or its names and its stamp. -/
  outline_eq : ∀ position, ¬target <+: position →
    (changed.at? position).map outline = (value.at? position).map outline
  /-- Nodes that do not hold the scalar are the nodes that they were. -/
  beside_eq : ∀ position, ¬target <+: position → ¬position <+: target →
    changed.at? position = value.at? position
  /-- Along the same path, the new view shows what is new. -/
  shown : Path.follow View.get (wrap policy changed) path = .found (wrap policy new)
  located : Place.locate (.folded policy) changed path = .found ⟨target, new⟩
  /-- What is new is wrapped if it can hold other values. -/
  decorated_iff : (wrap policy new).isDecorated = true ↔ new.scalar? = none
  /-- Under any policy, a walk that does not pass through the scalar ends as it did. -/
  elsewhere : ∀ policy' path', ¬Standing.Passes policy' value path' target →
    (Standing.walk policy' value path').Alike (Standing.SameBut policy' target new)
      (Standing.walk policy' changed path')

namespace Place

/-- A step to a child adds one index to the address. -/
theorem length_position_of_enter {access : Access} {place next : Place σ} {key : Key}
    (h : enter access place key = .ok (some next)) :
    next.position.length = place.position.length + 1 := by
  rw [enter_eq] at h
  obtain ⟨index?, -, hnext⟩ := exists_of_map_eq_ok h
  obtain ⟨index, -, hindex⟩ := Option.bind_eq_some_iff.mp hnext
  obtain ⟨child, -, rfl⟩ := Option.map_eq_some_iff.mp hindex
  rw [down, List.length_append]
  rfl

/-- The address of a place that is located has one index for each key. -/
theorem length_position_of_locate {access : Access} {value : Value σ} {path : List Key}
    {place : Place σ} (h : locate access value path = .found place) :
    place.position.length = path.length := by
  have hfollow : ∀ (path : List Key) (start : Place σ),
      Path.follow (enter access) start path = .found place →
        place.position.length = start.position.length + path.length := by
    intro path
    induction path with
    | nil =>
      intro start hstart
      obtain rfl := Arrival.found.inj hstart
      rfl
    | cons key rest ih =>
      intro start hstart
      obtain ⟨next, hnext, hrest⟩ := Path.exists_of_follow_cons hstart
      rw [ih next hrest, length_position_of_enter hnext, List.length_cons]
      omega
  exact (hfollow path (root value) h).trans (Nat.zero_add _)

/-- Along the path of a place that was overwritten, what is new is found. -/
theorem locate_write {access : Access} {value : Value σ} {path : List Key} {place : Place σ}
    (h : locate access value path = .found place) (new : Value σ) :
    locate access (place.write value new) path = .found ⟨place.position, new⟩ := by
  have hbefore : ∀ front key rest, path = front ++ key :: rest → ∀ stop,
      locate access value front = .found stop → stop.position ≠ place.position := by
    intro front key rest hpath stop hstop heq
    have hshort := length_position_of_locate hstop
    have hlong := length_position_of_locate h
    rw [heq, hlong, hpath, List.length_append, List.length_cons] at hshort
    omega
  have hwritten := overwrite_append place.position [] new place.value
  rw [List.append_nil] at hwritten
  rw [write, modify, locate_overwrite access value new hbefore, h, Arrival.map]
  exact congrArg Arrival.found hwritten

/-- A walk that does not pass through what was overwritten ends as it did. -/
theorem walk_write_alike {policy : Policy} {value : Value σ} {path : List Key}
    {target : List Nat} (new : Value σ) (h : ¬Standing.Passes policy value path target) :
    (Standing.walk policy value path).Alike (Standing.SameBut policy target new)
      (Standing.walk policy (value.modifyAt (fun _ => new) target) path) := by
  have hbefore : ∀ front key rest, path = front ++ key :: rest → ∀ stop,
      locate (.folded policy) value front = .found stop → stop.position ≠ target := by
    intro front key rest hpath stop hstop heq
    refine h ⟨front, stop.standing policy, ⟨key :: rest, hpath.symm⟩, ?_, heq⟩
    rw [walk_eq_locate, hstop]
    rfl
  rw [walk_eq_locate, walk_eq_locate, locate_overwrite (.folded policy) value new hbefore]
  cases locate (.folded policy) value path with
  | missing steps => exact .missing steps
  | failed steps failure => exact .failed steps failure
  | found place =>
    obtain ⟨position, node⟩ := place
    refine .found ⟨?_, ?_, ?_⟩
    · rw [overwrite]
      split <;> rfl
    · intro hnot
      rw [overwrite_beside new hnot]
    · intro back htarget
      change target = position ++ back at htarget
      rw [htarget, overwrite_append, standing, standing, rawValue_wrap]

/-- For every value, policy and path, the walk through exclusive views ends after as many keys as
the walk through shared views, with the same failure, or at the place that the shared view shows.  If
a scalar stands there, overwriting it replaces that node and changes nothing else: the same path then
shows what is new, and walks that do not pass there end as they did. -/
theorem write_found (policy : Policy) (value : Value σ) (path : List Key) :
    Path.follow View.get (wrap policy value) path =
        ((locate (.folded policy) value path).map fun place => wrap policy place.value) ∧
      Standing.walk policy value path =
        (locate (.folded policy) value path).map (standing policy) ∧
      ((∀ place, locate (.folded policy) value path ≠ .found place) →
        ∀ change, View.changeAlong policy change path value = value) ∧
      ∀ place, locate (.folded policy) value path = .found place →
        value.at? place.position = some place.value ∧
          ∀ payload, place.value = .scalar payload → ∀ new,
            value.ReplacedIn policy path place.position new (place.write value new) := by
  refine ⟨follow_eq_locate policy value path, walk_eq_locate policy value path,
    fun hnot change => View.changeAlong_eq_self hnot change, ?_⟩
  intro place hplace
  have hat := at?_of_locate hplace
  refine ⟨hat, ?_⟩
  intro payload hscalar new
  have hlocated := locate_write hplace new
  refine
    { through := View.changeAlong_eq_modify hplace _, new_eq := ?_, below_eq := ?_,
      outline_eq := fun position hnot => value.outline_at?_modifyAt _ hnot,
      beside_eq := fun position hbelow habove => value.at?_modifyAt_beside _ habove hbelow,
      shown := ?_, located := hlocated, decorated_iff := ?_,
      elsewhere := fun policy' path' hpasses => walk_write_alike new hpasses }
  · intro rest
    rw [write, modify, Value.at?_modifyAt_below, hat]
    rfl
  · intro index rest
    rw [Value.at?_append, hat, hscalar]
    rfl
  · rw [follow_eq_locate, hlocated]
    rfl
  · cases new <;> simp [wrap, View.isDecorated, Value.scalar?]

/-- Of two fields with names that differ in case only, the first is found and overwritten. -/
theorem write_found_first :
    let value : Value := .struct () [("id", .scalar (.int 1)),
      ("Rows", .seq .list [.null, .scalar (.int 2)]), ("rows", .seq .sexp [])]
    let path := [Key.name "ROWS", Key.position 1]
    let place : Place := ⟨[1, 1], .scalar (.int 2)⟩
    locate (.folded .firstWins) value path = .found place ∧ place.value = .scalar (.int 2) ∧
      value.ReplacedIn .firstWins path [1, 1] (.struct () [])
        (place.write value (.struct () [])) := by
  intro value path place
  have hplace : locate (.folded .firstWins) value path = .found place := rfl
  exact ⟨hplace, rfl, ((write_found .firstWins value path).2.2.2 place hplace).2 _ rfl _⟩

end Place
end Caseless
