import Caseless.Proofs.View.Rebuilds
import Caseless.Session.Gallery

/-!
# One build for every shared view

Shared views of values that do not change hang in the slots of a gallery.  Every view has a name
table of its own: what is hung has none, be it a copy or a child, and only lookups in its own slot
build one.  As the value behind a slot stays the same, that happens once at most.

The measure of a slot is the number of builds that are left to it.  A lookup that builds uses one
up, and no command adds one.

Main definitions:

- `View.Unbuilt`: a view has no table;
- `GalleryCommand.asked?`: the slot that a command looks up names in;
- `Gallery.buildsAt`: the builds in a slot in the course of commands.

Main results:

- Theorem `View.handsOutUnbuilt`: copies and children have no table;
- Theorem `GalleryCommand.hangsUnbuilt_step`: what a command does to the slots;
- Theorem `Gallery.oneBuildEach`: every slot is built for once at most;
- Theorem `StructView.builds_when_distrusted`: when views of structs build, shared or exclusive.
-/

namespace Caseless

open Name

variable {σ : Type}

/-! ## What has no table -/

namespace View

/-- A view that has no table yet, or needs none. -/
def Unbuilt : View σ → Prop
  | .struct view => view.index.built = none
  | .scalar _ | .list _ => True

theorem unbuilt_wrap (policy : Policy) (value : Value σ) : (wrap policy value).Unbuilt := by
  cases value with
  | struct => rfl
  | scalar | seq => exact trivial

theorem unbuilt_of_mem_map_wrap {policy : Policy} {values : List (Value σ)} {child : View σ}
    (h : child ∈ values.map (wrap policy)) : child.Unbuilt := by
  obtain ⟨value, -, rfl⟩ := List.mem_map.mp h
  exact unbuilt_wrap policy value

theorem unbuilt_fork (view : View σ) : view.fork.Unbuilt := by
  cases view with
  | struct => rfl
  | scalar | list => exact trivial

theorem Unbuilt.withPolicy {view : View σ} (h : view.Unbuilt) (policy : Policy) :
    (view.withPolicy policy).Unbuilt := by
  cases view with
  | struct => exact h
  | scalar | list => exact trivial

/-- Children that are enumerated. -/
theorem unbuilt_of_mem_visit {view child : View σ} (h : child ∈ view.visit.children) :
    child.Unbuilt := by
  cases view with
  | scalar payload => simp [visit, Node.children] at h
  | list view => exact unbuilt_of_mem_map_wrap h
  | struct view =>
    obtain ⟨entry, hentry, rfl⟩ := List.mem_map.mp h
    obtain ⟨field, -, rfl⟩ := List.mem_map.mp hentry
    exact unbuilt_wrap ..

/-- Children at a position. -/
theorem unbuilt_of_get_list {view : ListView σ} {position : Nat} {child : View σ}
    (h : view.get position = .ok child) : child.Unbuilt := by
  rw [ListView.get] at h
  cases hget : view.elements.get position with
  | error cause =>
    rw [hget] at h
    contradiction
  | ok value =>
    rw [hget] at h
    exact Except.ok.inj h ▸ unbuilt_wrap ..

variable [DecidableEq σ]

/-- Children that are looked up. -/
theorem unbuilt_of_get? {view : StructView σ} {name : String} {child : View σ}
    (h : view.get? name = some child) : child.Unbuilt := by
  obtain ⟨position, -, hfield⟩ := Option.bind_eq_some_iff.mp h
  obtain ⟨field, -, rfl⟩ := Option.map_eq_some_iff.mp hfield
  exact unbuilt_wrap ..

/-- The child at a key. -/
theorem unbuilt_of_get {view child : View σ} {key : Key} (h : view.get key = .ok (some child)) :
    child.Unbuilt := by
  unfold View.get at h
  split at h
  · rename_i list position
    cases hget : list.get position with
    | error cause =>
      rw [hget] at h
      contradiction
    | ok found =>
      rw [hget] at h
      exact Option.some.inj (Except.ok.inj h) ▸ unbuilt_of_get_list hget
  · exact unbuilt_of_get? (Except.ok.inj h)
  · exact absurd (Except.ok.inj h) nofun

/-- Copies of views, and what views hand out, have no table. -/
structure HandsOutUnbuilt (view : View σ) : Prop where
  /-- A copy has no table, under its own policy or another one. -/
  fork : view.fork.Unbuilt
  fork_withPolicy : ∀ policy, (view.fork.withPolicy policy).Unbuilt
  /-- Nor has a new view of the value that is wrapped. -/
  wrap : ∀ policy, (wrap policy view.rawValue).Unbuilt
  /-- A copy of the view of a struct is a new view of the struct under the policy of the old. -/
  fork_struct : ∀ struct, view = .struct struct →
    view.fork = .struct ((StructView.new struct.record .firstWins).withPolicy struct.policy)
  /-- No child has a table, whether it is enumerated, or found at a key or under a name. -/
  visit : ∀ child ∈ view.visit.children, child.Unbuilt
  get : ∀ key child, view.get key = .ok (some child) → child.Unbuilt
  getAll : ∀ struct name, view = .struct struct → ∀ child ∈ struct.getAll name, child.Unbuilt

theorem handsOutUnbuilt (view : View σ) : view.HandsOutUnbuilt where
  fork := unbuilt_fork view
  fork_withPolicy := (unbuilt_fork view).withPolicy
  wrap policy := unbuilt_wrap policy view.rawValue
  fork_struct struct hview := by
    rw [hview]
    rfl
  visit _ := unbuilt_of_mem_visit
  get _ _ := unbuilt_of_get
  getAll _ _ _ _ := unbuilt_of_mem_map_wrap

end View

/-! ## What a command does to the slots -/

/-- The slot that a command looks up names in. -/
def GalleryCommand.asked? : GalleryCommand → Option Nat
  | .get slot (.name _) | .field slot _ | .all slot _ | .resolve slot _ => some slot
  | _ => none

namespace Gallery

/-- Lookups in a slot, if one is asked. -/
def consult? (gallery : Gallery) : Option Nat → List BuildEvent × Gallery
  | some slot => gallery.consult slot
  | none => ([], gallery)

/-- Hangs views in the next slots. -/
def hangAll (gallery : Gallery) (views : List View) : Gallery :=
  { gallery with slots := gallery.slots ++ views }

/-- One outcome is another one, with views hung that have no table. -/
def HangsUnbuilt (before after : List BuildEvent × Gallery) : Prop :=
  ∃ views : List View, (∀ view ∈ views, view.Unbuilt) ∧
    after = (before.1, before.2.hangAll views)

/-- Nothing need be hung. -/
theorem HangsUnbuilt.refl (outcome : List BuildEvent × Gallery) : HangsUnbuilt outcome outcome :=
  ⟨[], nofun, by simp [hangAll]⟩

theorem HangsUnbuilt.hang (builds : List BuildEvent) (gallery : Gallery) {view : Option View}
    (h : ∀ child, view = some child → child.Unbuilt) :
    HangsUnbuilt (builds, gallery) (builds, (gallery.hang view).2) := by
  cases view with
  | none => exact .refl _
  | some child => exact ⟨[child], by simpa using h child rfl, rfl⟩

end Gallery

namespace GalleryCommand

open Gallery

/-- A command looks up names in one slot at most, and hangs views without a table. -/
theorem hangsUnbuilt_step (gallery : Gallery) (command : GalleryCommand) :
    HangsUnbuilt (gallery.consult? command.asked?) (command.step gallery).2 := by
  cases command
  -- New views of roots.
  case wrapRoot root policy =>
    refine .hang [] gallery fun child hchild => ?_
    obtain ⟨value, -, rfl⟩ := Option.map_eq_some_iff.mp hchild
    exact View.unbuilt_wrap ..
  case wrapOption root =>
    refine .hang [] gallery fun child hchild => ?_
    obtain ⟨value, -, rfl⟩ := Option.map_eq_some_iff.mp hchild
    exact View.unbuilt_wrap ..
  case viewList root kind =>
    refine .hang [] gallery fun child hchild => ?_
    obtain ⟨elements, -, rfl⟩ := Option.map_eq_some_iff.mp hchild
    exact trivial
  case viewStruct root =>
    refine .hang [] gallery fun child hchild => ?_
    obtain ⟨fields, -, rfl⟩ := Option.map_eq_some_iff.mp hchild
    rfl
  -- Copies.
  case copy slot =>
    refine .hang [] gallery fun child hchild => ?_
    obtain ⟨view, -, rfl⟩ := Option.map_eq_some_iff.mp hchild
    exact view.unbuilt_fork
  case withPolicy slot policy =>
    refine .hang [] gallery fun child hchild => ?_
    obtain ⟨view, -, rfl⟩ := Option.map_eq_some_iff.mp hchild
    exact view.unbuilt_fork.withPolicy policy
  -- Children.
  case nth slot index =>
    refine .hang [] gallery fun child hchild => ?_
    obtain ⟨view, -, hindex⟩ := Option.bind_eq_some_iff.mp hchild
    exact View.unbuilt_of_mem_visit (List.mem_of_getElem? hindex)
  case field slot name =>
    refine .hang (gallery.consult slot).1 (gallery.consult slot).2 fun child hchild => ?_
    obtain ⟨view, -, hfield⟩ := Option.bind_eq_some_iff.mp hchild
    exact View.unbuilt_of_get? hfield
  case get slot key =>
    cases key with
    | position index =>
      simp only [step, asked?, consult?]
      cases hslot : gallery.slots[slot]? with
      | none => exact .refl _
      | some view =>
        cases view with
        | scalar | struct => exact .refl _
        | list view =>
          simp only [View.get]
          cases hget : view.get index with
          | error cause => exact .refl _
          | ok found =>
            refine .hang [] gallery fun child hchild => ?_
            obtain rfl := Option.some.inj hchild
            exact View.unbuilt_of_get_list hget
    | name name =>
      simp only [step, asked?, consult?, consult]
      cases hslot : gallery.slots[slot]? with
      | none => exact .refl _
      | some view =>
        cases view with
        | struct view => exact .hang _ _ fun child => View.unbuilt_of_get?
        | scalar | list => exact .refl _
  -- Answers.
  case all | resolve => exact .refl _
  case names | fresh | pick | children | info | equals | equalsRoot | rawValue | inspect | json
      | toValue =>
    exact .refl _

end GalleryCommand

namespace Gallery

/-! ## The builds in a slot -/

/-- The builds in a slot in the course of commands. -/
def buildsAt (slot : Nat) : Gallery → List GalleryCommand → List BuildEvent
  | _, [] => []
  | gallery, command :: rest =>
    let (_, builds, next) := command.step gallery
    (if command.asked? = some slot then builds else []) ++ buildsAt slot next rest

/-- The number of builds that are left to what may stand in a slot. -/
def buildsLeft : Option View → Nat
  | some (.struct view) => if view.index.built.isSome then 0 else 1
  | some (.scalar _) | some (.list _) => 0
  | none => 1

theorem buildsLeft_le_one (view : Option View) : buildsLeft view ≤ 1 := by
  unfold buildsLeft
  split
  · split <;> omega
  all_goals omega

/-- Lookups use up the builds that they make. -/
theorem length_consult_add (gallery : Gallery) (slot : Nat) :
    (gallery.consult slot).1.length + buildsLeft (gallery.consult slot).2.slots[slot]? =
      buildsLeft gallery.slots[slot]? := by
  unfold consult
  split
  · rename_i view hslot
    obtain ⟨hlt, -⟩ := List.getElem?_eq_some_iff.mp hslot
    have hfresh : view.index.isFreshFor view.record = view.index.built.isSome := by
      rw [NameIndex.isFreshFor]
      cases view.index.built <;> rfl
    rw [List.getElem?_set_self hlt, hslot, StructView.pending, NameIndex.pending_eq, hfresh]
    cases hbuilt : view.index.built <;>
      simp [buildsLeft, hbuilt, StructView.warm, NameIndex.warm]
  · simp

/-- A command changes no slot but the one that it asks. -/
theorem getElem?_consult? (gallery : Gallery) {asked : Option Nat} {slot : Nat}
    (h : asked ≠ some slot) :
    (gallery.consult? asked).2.slots[slot]? = gallery.slots[slot]? := by
  cases asked with
  | none => rfl
  | some other =>
    have hne : other ≠ slot := fun heq => h (congrArg some heq)
    rw [consult?, consult]
    split
    · exact List.getElem?_set_ne hne
    · rfl

theorem length_consult? (gallery : Gallery) (asked : Option Nat) :
    (gallery.consult? asked).2.slots.length = gallery.slots.length := by
  cases asked with
  | none => rfl
  | some slot =>
    rw [consult?, consult]
    split
    · exact List.length_set
    · rfl

/-- A command uses up the builds that it makes in a slot, and adds none. -/
theorem length_step_add_le (gallery : Gallery) (command : GalleryCommand) (slot : Nat) :
    (if command.asked? = some slot then (command.step gallery).2.1 else []).length +
      buildsLeft (command.step gallery).2.2.slots[slot]? ≤ buildsLeft gallery.slots[slot]? := by
  obtain ⟨views, -, hstep⟩ := command.hangsUnbuilt_step gallery
  rw [hstep]
  have hconsult : (if command.asked? = some slot then (gallery.consult? command.asked?).1
        else []).length + buildsLeft (gallery.consult? command.asked?).2.slots[slot]? =
      buildsLeft gallery.slots[slot]? := by
    by_cases hasked : command.asked? = some slot
    · rw [if_pos hasked, hasked]
      exact gallery.length_consult_add slot
    · rw [if_neg hasked, gallery.getElem?_consult? hasked, List.length_nil, Nat.zero_add]
  have hhung : buildsLeft ((gallery.consult? command.asked?).2.hangAll views).slots[slot]? ≤
      buildsLeft (gallery.consult? command.asked?).2.slots[slot]? := by
    cases hslot : (gallery.consult? command.asked?).2.slots[slot]? with
    | none => exact buildsLeft_le_one _
    | some view =>
      rw [hangAll, List.getElem?_append_left (List.getElem?_eq_some_iff.mp hslot).1, hslot]
  exact (Nat.add_le_add_left hhung _).trans hconsult.le

/-- The builds in a slot are as many as are left to it, at most. -/
theorem length_buildsAt_le (gallery : Gallery) (slot : Nat) (commands : List GalleryCommand) :
    (buildsAt slot gallery commands).length ≤ buildsLeft gallery.slots[slot]? := by
  induction commands generalizing gallery with
  | nil => exact Nat.zero_le _
  | cons command rest ih =>
    have hstep := gallery.length_step_add_le command slot
    have hrest := ih (command.step gallery).2.2
    rw [buildsAt, List.length_append]
    exact (Nat.add_le_add_left hrest _).trans hstep

/-- Every slot has a table of its own, which is built once at most. -/
structure OneBuildEach (gallery : Gallery) : Prop where
  /-- In the course of any commands one table at most is built in a slot. -/
  buildsAt_le : ∀ slot commands, (buildsAt slot gallery commands).length ≤ 1
  /-- All builds of a command are in the slot that it asks. -/
  asked : ∀ command : GalleryCommand, command.asked? = none → (command.step gallery).2.1 = []
  /-- A command changes no slot but the one that it asks, -/
  others : ∀ (command : GalleryCommand) (slot : Nat) view, gallery.slots[slot]? = some view →
    command.asked? ≠ some slot → (command.step gallery).2.2.slots[slot]? = some view
  /-- and what it hangs, copies and children, has no table. -/
  hung : ∀ (command : GalleryCommand) (slot : Nat) view, gallery.slots[slot]? = none →
    (command.step gallery).2.2.slots[slot]? = some view → view.Unbuilt

theorem oneBuildEach (gallery : Gallery) : gallery.OneBuildEach where
  buildsAt_le slot commands :=
    (gallery.length_buildsAt_le slot commands).trans (buildsLeft_le_one _)
  asked command hasked := by
    obtain ⟨views, -, hstep⟩ := command.hangsUnbuilt_step gallery
    rw [hstep, hasked]
    rfl
  others command slot view hslot hasked := by
    obtain ⟨views, -, hstep⟩ := command.hangsUnbuilt_step gallery
    have hkept : (gallery.consult? command.asked?).2.slots[slot]? = some view := by
      rw [getElem?_consult? gallery hasked, hslot]
    rw [hstep, hangAll, List.getElem?_append_left (List.getElem?_eq_some_iff.mp hkept).1, hkept]
  hung command slot view hslot hview := by
    obtain ⟨views, hunbuilt, hstep⟩ := command.hangsUnbuilt_step gallery
    rw [hstep, hangAll, List.getElem?_append_right] at hview
    · exact hunbuilt view (List.mem_of_getElem? hview)
    · rw [length_consult?]
      exact List.getElem?_eq_none_iff.mp hslot

end Gallery

/-! ## All views of structs -/

/-- An exclusive view of a struct builds its table exactly at the lookups that may not trust one; a
shared view builds it at its first lookup and never again; and copies and children of views start
without a table, so each slot of a gallery sees one build at most. -/
theorem StructView.builds_when_distrusted (σ : Type) [DecidableEq σ] :
    (∀ record policy clock, ViewCall.RebuildsWhenDistrusted (.start record policy clock)) ∧
      (∀ (record : Record σ (Value σ)) policy calls,
        SharedCall.builds (.new record policy) calls =
          if calls.any SharedCall.looksUp = true then
            [⟨record.fields.length, (record.names.map foldCase).toFinset.card⟩]
          else []) ∧
      (∀ view : View σ, view.HandsOutUnbuilt) ∧ ∀ gallery : Gallery, gallery.OneBuildEach :=
  ⟨ViewCall.rebuildsWhenDistrusted, SharedCall.builds_new, View.handsOutUnbuilt,
    Gallery.oneBuildEach⟩

end Caseless
