import Caseless.Probe
import Caseless.Proofs.Shape.Binding

/-!
# Reading a record entry by entry

A record is decoded field by field, with every name looked up where it is needed.  A reader of typed
data works the other way round: it asks for the next name and then for the child under that name,
and puts what it decodes into the slot of the field.  This module states that protocol: a cursor
runs over the declared names, passes over those that lead nowhere, and holds the child between the
two requests.  If no name is declared twice, a reader of the cursor arrives at the datum that
decoding field by field gives.

Main definitions:

- `FieldAccess`, `FieldAccess.nextKey`, `FieldAccess.nextValue`: the cursor and the two requests;
- `FieldAccess.Offers`: the pairs that a reader is offered until the names are used up;
- `Slot`, `readSlots`, `Shape.readRecord`: a reader that fills the slots of declared fields.

Main results:

- Theorems `FieldAccess.offers_iff` and `FieldAccess.Offers.readStruct_eq`: the pairs that are
  offered, which are the ones that a probe reads;
- Theorem `Shape.readRecord_eq_decode`: the reader and decoding agree, whatever the reader does
  about a name that is not declared.
-/

namespace Caseless

open Readable

variable {α : Type} [Readable α]

/-! ## The cursor -/

/-- The names that are still to be looked up in a handle, and the child whose name was handed out
and which has not been fetched yet. -/
structure FieldAccess (α : Type) where
  handle : α
  names : List String
  held : Option α

namespace FieldAccess

/-- The cursor before the first request. -/
def start (handle : α) (names : List String) : FieldAccess α :=
  ⟨handle, names, none⟩

/-- The first of the names that leads to a child, and the cursor that holds the child. -/
def keyFrom (handle : α) (held : Option α) : List String → Option String × FieldAccess α
  | [] => (none, ⟨handle, [], held⟩)
  | name :: names =>
    match find? handle name with
    | some child => (some name, ⟨handle, names, some child⟩)
    | none => keyFrom handle held names

/-- Asks for the next name. -/
def nextKey (access : FieldAccess α) : Option String × FieldAccess α :=
  keyFrom access.handle access.held access.names

/-- Asks for the child of the name that was handed out last. -/
def nextValue (access : FieldAccess α) : Except Error α × FieldAccess α :=
  (match access.held with
    | some child => .ok child
    | none => .error .valueNotPending,
    { access with held := none })

/-- The pairs that a reader is offered, if it asks for a name and its child in turn until there is
no further name. -/
inductive Offers : FieldAccess α → List (String × α) → Prop where
  | done {access rest : FieldAccess α} (hkey : access.nextKey = (none, rest)) : Offers access []
  | pair {access keyed rest : FieldAccess α} {name : String} {child : α}
    {offered : List (String × α)} (hkey : access.nextKey = (some name, keyed))
    (hvalue : keyed.nextValue = (.ok child, rest)) (hrest : Offers rest offered) :
    Offers access ((name, child) :: offered)

/-- Handing out a name uses up at least that name. -/
theorem length_names_lt {access keyed : FieldAccess α} {name : String}
    (h : access.nextKey = (some name, keyed)) : keyed.names.length < access.names.length := by
  rcases access with ⟨handle, names, held⟩
  rw [nextKey] at h
  dsimp only at h ⊢
  induction names with
  | nil => simp [keyFrom] at h
  | cons first rest ih =>
    rw [keyFrom] at h
    rw [List.length_cons]
    cases hchild : find? handle first with
    | some child =>
      rw [hchild] at h
      obtain ⟨-, rfl⟩ := Prod.mk.inj h
      exact Nat.lt_succ_self _
    | none =>
      rw [hchild] at h
      exact Nat.lt_succ_of_lt (ih h)

/-! ### Requests at the first name -/

variable {handle child : α} {name : String} {names : List String}

theorem nextKey_start_nil : (start handle []).nextKey = (none, start handle []) :=
  rfl

/-- A name that leads nowhere is passed over. -/
theorem nextKey_start_absent (names : List String) (h : find? handle name = none) :
    (start handle (name :: names)).nextKey = (start handle names).nextKey := by
  simp only [nextKey, start, keyFrom, h]

theorem nextKey_start_found (names : List String) (h : find? handle name = some child) :
    (start handle (name :: names)).nextKey = (some name, ⟨handle, names, some child⟩) := by
  simp only [nextKey, start, keyFrom, h]

theorem Offers.of_nextKey_eq {access other : FieldAccess α} {offered : List (String × α)}
    (h : access.Offers offered) (heq : other.nextKey = access.nextKey) : other.Offers offered := by
  cases h with
  | done hkey => exact .done (heq.trans hkey)
  | pair hkey hvalue hrest => exact .pair (heq.trans hkey) hvalue hrest

theorem offers_start_found {offered : List (String × α)} (h : find? handle name = some child) :
    (start handle (name :: names)).Offers offered ↔
      ∃ rest, offered = (name, child) :: rest ∧ (start handle names).Offers rest := by
  have hfound := nextKey_start_found names h
  constructor
  · intro hoffers
    cases hoffers with
    | done hkey =>
      rw [hfound] at hkey
      cases hkey
    | pair hkey hvalue hrest =>
      rw [hfound] at hkey
      obtain ⟨hname, rfl⟩ := Prod.mk.inj hkey
      obtain rfl := Option.some.inj hname
      obtain ⟨hchild, rfl⟩ := Prod.mk.inj hvalue
      obtain rfl := Except.ok.inj hchild
      exact ⟨_, rfl, hrest⟩
  · rintro ⟨rest, rfl, hrest⟩
    exact .pair hfound rfl hrest

/-- A reader is offered the names that lead to a child, with their children and in order. -/
theorem offers_iff {offered : List (String × α)} : (start handle names).Offers offered ↔
    offered = names.filterMap fun name => (find? handle name).map fun child => (name, child) := by
  induction names generalizing offered with
  | nil =>
    constructor
    · intro h
      cases h with
      | done => rfl
      | pair hkey =>
        rw [nextKey_start_nil] at hkey
        cases hkey
    · rintro rfl
      exact .done nextKey_start_nil
  | cons name names ih =>
    cases hchild : find? handle name with
    | none =>
      have habsent := nextKey_start_absent names hchild
      rw [List.filterMap_cons_none (by rw [hchild]; rfl), ← ih]
      exact ⟨fun h => h.of_nextKey_eq habsent.symm, fun h => h.of_nextKey_eq habsent⟩
    | some child =>
      rw [List.filterMap_cons_some (by rw [hchild]; rfl), offers_start_found hchild]
      simp only [ih, exists_eq_right]

/-- A probe for the declared fields of a struct reads the pairs that a reader is offered. -/
theorem Offers.readStruct_eq {offered entries : List (String × α)}
    (h : (start handle names).Offers offered) (hvisit : visit handle = .struct entries)
    (reading : Reading α) :
    reading.readStruct names handle = reading.readMap .text none offered := by
  rw [Reading.readStruct, hvisit, offers_iff.mp h]

end FieldAccess

/-! ## A reader with slots -/

/-- A declared field, and the datum that was read for it. -/
structure Slot where
  field : Field
  datum? : Option Data

/-- A slot that is still empty. -/
def Slot.empty (field : Field) : Slot :=
  ⟨field, none⟩

/-- Reads the child of a name into the slot of the field with that name.  A slot that is filled is
reported before the child is asked for.  `unknown` says what is done about any other name; the child
is dropped then. -/
def fillSlot (unknown : String → Except Error Unit) (name : String) (next : Except Error α) :
    List Slot → Except Error (List Slot)
  | [] => do
    unknown name
    let _ ← next
    return []
  | slot :: slots =>
    if name ∈ slot.field.spellings then
      if slot.datum?.isSome then .error (.duplicateField slot.field.name)
      else do
        let child ← next
        let datum ← slot.field.shape.decode child
        return { slot with datum? := some datum } :: slots
    else do
      let slots ← fillSlot unknown name next slots
      return slot :: slots

/-- Reads all that a cursor hands out into slots. -/
def readSlots (unknown : String → Except Error Unit) (slots : List Slot) (access : FieldAccess α) :
    Except Error (List Slot) :=
  match _ : access.nextKey with
  | (none, _) => .ok slots
  | (some name, keyed) => do
    let slots ← fillSlot unknown name keyed.nextValue.1 slots
    readSlots unknown slots keyed.nextValue.2
termination_by access.names.length
decreasing_by
  rename_i hkey
  have hlt := FieldAccess.length_names_lt hkey
  exact hlt

/-- The names that the fields of a record are looked up under, in order of declaration. -/
def Shape.declaredNames (fields : List Field) : List String :=
  fields.flatMap Field.spellings

/-- Reads a record entry by entry.  Slots that are still empty at the end take the place-holders of
their fields. -/
def Shape.readRecord (fields : List Field) (unknown : String → Except Error Unit) (handle : α) :
    Except Error Data :=
  match visit handle with
  | .struct _ => do
    let slots ← readSlots unknown (fields.map Slot.empty) (.start handle (declaredNames fields))
    let data ← completeFields fields (slots.map Slot.datum?)
    return .struct data
  | node => .error (.typeMismatch "struct" node.tag)

section Reader

open FieldAccess

variable {unknown : String → Except Error Unit} {handle child : α} {name : String}
  {names : List String} {front slots : List Slot} {field : Field}

/-! ### One entry -/

theorem readSlots_eq (access : FieldAccess α) : readSlots unknown slots access =
    (match access.nextKey with
    | (none, _) => .ok slots
    | (some name, keyed) => do
      let slots ← fillSlot unknown name keyed.nextValue.1 slots
      readSlots unknown slots keyed.nextValue.2) := by
  rw [readSlots]
  split <;> rename_i hkey <;> rw [hkey]

theorem readSlots_nil : readSlots unknown slots (start handle []) = .ok slots := by
  rw [readSlots_eq]
  rfl

theorem readSlots_absent (h : find? handle name = none) :
    readSlots unknown slots (start handle (name :: names)) =
      readSlots unknown slots (start handle names) := by
  have hkey := nextKey_start_absent names h
  rw [readSlots_eq, hkey, ← readSlots_eq]

theorem readSlots_found (h : find? handle name = some child) :
    readSlots unknown slots (start handle (name :: names)) = (do
      let slots ← fillSlot unknown name (.ok child) slots
      readSlots unknown slots (start handle names)) := by
  rw [readSlots_eq, nextKey_start_found names h]
  rfl

/-- Slots of fields without the name are passed over. -/
theorem fillSlot_append {next : Except Error α}
    (hfront : ∀ slot ∈ front, name ∉ slot.field.spellings) :
    fillSlot unknown name next (front ++ slots) =
      (fillSlot unknown name next slots).map (front ++ ·) := by
  induction front with
  | nil =>
    rw [List.nil_append]
    cases fillSlot unknown name next slots <;> rfl
  | cons slot front ih =>
    rw [List.cons_append, fillSlot, if_neg (hfront slot List.mem_cons_self),
      ih fun other hmem => hfront other (.tail _ hmem)]
    cases fillSlot unknown name next slots <;> rfl

/-- The child of a name is decoded into the empty slot of its field. -/
theorem fillSlot_empty (hfront : ∀ slot ∈ front, name ∉ slot.field.spellings)
    (hname : name ∈ field.spellings) :
    fillSlot unknown name (.ok child) (front ++ .empty field :: slots) = (do
      let datum ← field.shape.decode child
      return front ++ ⟨field, some datum⟩ :: slots) := by
  have hspelling : name ∈ (Slot.empty field).field.spellings := hname
  rw [fillSlot_append hfront, fillSlot, if_pos hspelling]
  dsimp only [Slot.empty]
  cases hdecode : field.shape.decode child with
  | error failure => simp [hdecode, Except.map, bind, Except.bind]
  | ok datum => simp [hdecode, Except.map, bind, Except.bind, pure, Except.pure]

/-- A filled slot takes no second child. -/
theorem fillSlot_filled {datum : Data} (hfront : ∀ slot ∈ front, name ∉ slot.field.spellings)
    (hname : name ∈ field.spellings) :
    fillSlot unknown name (.ok child) (front ++ ⟨field, some datum⟩ :: slots) =
      .error (.duplicateField field.name) := by
  rw [fillSlot_append hfront, fillSlot, if_pos hname]
  rfl

/-! ### The names of one field -/

/-- Once the slot of a field is filled, the other names of the field may lead nowhere. -/
theorem readSlots_filled {spellings : List String} {datum : Data}
    (hfront : ∀ name ∈ spellings, ∀ slot ∈ front, name ∉ slot.field.spellings)
    (hspellings : spellings ⊆ field.spellings) :
    readSlots unknown (front ++ ⟨field, some datum⟩ :: slots) (start handle (spellings ++ names)) =
      if (spellings.filterMap (find? handle)).isEmpty then
        readSlots unknown (front ++ ⟨field, some datum⟩ :: slots) (start handle names)
      else .error (.duplicateField field.name) := by
  induction spellings with
  | nil => rfl
  | cons name rest ih =>
    rw [List.cons_append]
    cases hchild : find? handle name with
    | none =>
      rw [readSlots_absent hchild, List.filterMap_cons_none hchild]
      exact ih (fun other hmem => hfront other (.tail _ hmem))
        fun other hmem => hspellings (.tail _ hmem)
    | some child =>
      rw [readSlots_found hchild, List.filterMap_cons_some hchild,
        fillSlot_filled (hfront name List.mem_cons_self) (hspellings List.mem_cons_self)]
      rfl

/-- The names of a field fill its slot with the first child that one of them leads to. -/
theorem readSlots_empty {spellings : List String}
    (hfront : ∀ name ∈ spellings, ∀ slot ∈ front, name ∉ slot.field.spellings)
    (hspellings : spellings ⊆ field.spellings) :
    readSlots unknown (front ++ .empty field :: slots) (start handle (spellings ++ names)) =
      (match spellings.filterMap (find? handle) with
      | [] => readSlots unknown (front ++ .empty field :: slots) (start handle names)
      | child :: others => do
        let datum ← field.shape.decode child
        if others.isEmpty then
          readSlots unknown (front ++ ⟨field, some datum⟩ :: slots) (start handle names)
        else .error (.duplicateField field.name)) := by
  induction spellings with
  | nil => rfl
  | cons name rest ih =>
    have hrest : ∀ name ∈ rest, ∀ slot ∈ front, name ∉ slot.field.spellings :=
      fun other hmem => hfront other (.tail _ hmem)
    have hsubset : rest ⊆ field.spellings := fun other hmem => hspellings (.tail _ hmem)
    rw [List.cons_append]
    cases hchild : find? handle name with
    | none =>
      rw [readSlots_absent hchild, List.filterMap_cons_none hchild]
      exact ih hrest hsubset
    | some child =>
      rw [readSlots_found hchild, List.filterMap_cons_some hchild,
        fillSlot_empty (hfront name List.mem_cons_self) (hspellings List.mem_cons_self)]
      dsimp only
      cases field.shape.decode child with
      | error failure => rfl
      | ok datum => exact readSlots_filled hrest hsubset

theorem readSlots_field
    (hfront : ∀ name ∈ field.spellings, ∀ slot ∈ front, name ∉ slot.field.spellings) :
    readSlots unknown (front ++ .empty field :: slots) (start handle (field.spellings ++ names)) =
      (do
        let datum? ← field.filled handle
        readSlots unknown (front ++ ⟨field, datum?⟩ :: slots) (start handle names)) := by
  rw [readSlots_empty hfront (List.Subset.refl _), Field.filled, Field.foundIn]
  cases field.spellings.filterMap (find? handle) with
  | nil => rfl
  | cons child others =>
    dsimp only
    cases field.shape.decode child with
    | error failure => rfl
    | ok datum => cases others <;> rfl

/-! ### All fields -/

/-- No name of the other fields is a name of the first one. -/
theorem not_mem_spellings_of_nodup {fields : List Field}
    (h : (Shape.declaredNames (field :: fields)).Nodup) (hname : name ∈ Shape.declaredNames fields) :
    name ∉ field.spellings := by
  rw [Shape.declaredNames, List.flatMap_cons] at h
  intro hspelling
  exact (List.nodup_append.mp h).2.2 name hspelling name hname rfl

/-- The slots of all fields are filled as the first pass over the fields fills them. -/
theorem readSlots_declared {fields : List Field} (hdistinct : (Shape.declaredNames fields).Nodup)
    (hfront : ∀ name ∈ Shape.declaredNames fields, ∀ slot ∈ front, name ∉ slot.field.spellings) :
    readSlots unknown (front ++ fields.map Slot.empty)
        (start handle (Shape.declaredNames fields)) =
      (fields.mapM fun field : Field => field.filled handle).map fun data =>
        front ++ fields.zipWith Slot.mk data := by
  induction fields generalizing front with
  | nil =>
    rw [Shape.declaredNames, List.flatMap_nil, readSlots_nil]
    rfl
  | cons field fields ih =>
    have hnames : Shape.declaredNames (field :: fields) =
      field.spellings ++ Shape.declaredNames fields := List.flatMap_cons
    have hrest : (Shape.declaredNames fields).Nodup := by
      rw [hnames] at hdistinct
      exact (List.nodup_append.mp hdistinct).2.1
    have hfield : ∀ name ∈ field.spellings, ∀ slot ∈ front, name ∉ slot.field.spellings :=
      fun name hname => hfront name (hnames ▸ List.mem_append_left _ hname)
    rw [hnames, List.map_cons, readSlots_field hfield, List.mapM_cons]
    cases field.filled handle with
    | error failure => rfl
    | ok datum? =>
      -- The slot of the field joins those that the names of the other fields pass over.
      have hpassed : ∀ name ∈ Shape.declaredNames fields,
          ∀ slot ∈ front ++ [⟨field, datum?⟩], name ∉ slot.field.spellings := by
        intro name hname slot hslot
        rcases List.mem_append.mp hslot with hslot | hslot
        · exact hfront name (hnames ▸ List.mem_append_right _ hname) slot hslot
        · rw [List.mem_singleton.mp hslot]
          exact not_mem_spellings_of_nodup hdistinct hname
      have hslots := ih hrest hpassed
      simp only [List.append_assoc, List.singleton_append] at hslots
      rw [ok_bind, ok_bind, hslots]
      cases fields.mapM fun field => field.filled handle <;> rfl

end Reader

namespace Shape

/-- Reading a record entry by entry gives what decoding it field by field gives. -/
theorem readRecord_eq_decode {fields : List Field} (hdistinct : (declaredNames fields).Nodup)
    (unknown : String → Except Error Unit) (handle : α) :
    readRecord fields unknown handle = (Shape.record fields).decode handle := by
  have hslots : readSlots unknown ([] ++ fields.map Slot.empty)
      (.start handle (declaredNames fields)) = _ :=
    readSlots_declared hdistinct fun _ _ _ hmem => absurd hmem List.not_mem_nil
  rw [List.nil_append] at hslots
  rw [readRecord, decode, withRecord]
  cases visit handle with
  | scalar payload => rfl
  | seq kind elements => rfl
  | struct entries =>
    dsimp only
    rw [hslots, decodeFound_eq_mapM]
    cases hpass : fields.mapM fun field => field.filled handle with
    | error failure => rfl
    | ok data =>
      have hlength : fields.length = data.length := (mapM_eq_ok_iff.mp hpass).length_eq
      have hdata : (fields.zipWith Slot.mk data).map Slot.datum? = data := by
        have hzip : (fields.zip data).map Prod.snd = data := List.map_snd_zip (Nat.le_of_eq hlength.symm)
        rw [List.map_zip_eq_zipWith] at hzip
        rw [List.map_zipWith]
        exact hzip
      change (completeFields fields ((fields.zipWith Slot.mk data).map Slot.datum?) >>= _) = _
      rw [hdata, ok_bind]
      cases completeFields fields data <;> rfl

end Shape
end Caseless
