import Caseless.Proofs.Shape.Simulation
import Mathlib.Data.List.Forall2

/-!
# How a record binds its fields

A record is decoded in two passes over its declared fields.  The first decodes what is found and
stops at the first field that cannot be decoded, or that is found twice.  The second puts in
place-holders and stops at the first field that was not found and has none.  This module says so
without the passes: a field stops the record, gives it a datum, or is lacking, and the outcome is
that of the first field that stops it, else of the first that is lacking, else the record.

Main definitions:

- `Field.Stops`, `Field.Gives`, `Field.Lacking`: what a field does to a record;
- `Shape.BindsTo`: the outcome of a record, from what its fields do.

Main results:

- Theorems `mapM_eq_ok_iff` and `mapM_eq_error_iff`: the outcome of one pass;
- Theorem `Shape.decode_record_iff`: a record is decoded as its fields bind.
-/

namespace Caseless

open Readable

/-! ## One pass -/

section Pass

variable {ε α β : Type} {f : α → Except ε β} {xs : List α}

/-- A pass gives a list exactly if each step gives its element. -/
theorem mapM_eq_ok_iff {ys : List β} :
    xs.mapM f = .ok ys ↔ List.Forall₂ (fun x y => f x = .ok y) xs ys := by
  induction xs generalizing ys with
  | nil =>
    rw [List.mapM_nil, List.forall₂_nil_left_iff]
    exact ⟨fun h => (Except.ok.inj h).symm, fun h => congrArg Except.ok h.symm⟩
  | cons x rest ih =>
    rw [List.mapM_cons, List.forall₂_cons_left_iff]
    constructor
    · intro h
      rcases exists_of_bind_eq_ok h with ⟨y, hy, h⟩
      rcases exists_of_bind_eq_ok h with ⟨others, hothers, h⟩
      exact ⟨y, others, hy, ih.mp hothers, (Except.ok.inj h).symm⟩
    · rintro ⟨y, others, hy, hothers, rfl⟩
      rw [hy, ih.mpr hothers]
      rfl

/-- In a pass that gives a list every step gives something. -/
theorem exists_of_mapM_eq_ok {ys : List β} (h : xs.mapM f = .ok ys) :
    ∀ x ∈ xs, ∃ y, f x = .ok y := by
  have hsteps := mapM_eq_ok_iff.mp h
  exact ((List.forall₂_and_left _ _).mp (hsteps.imp fun _ y hstep => ⟨⟨y, hstep⟩, hstep⟩)).1

/-- A pass fails exactly as the first step that fails. -/
theorem mapM_eq_error_iff {failure : ε} :
    xs.mapM f = .error failure ↔ ∃ before x after, xs = before ++ x :: after ∧
      (∀ y ∈ before, ∀ failure, f y ≠ .error failure) ∧ f x = .error failure := by
  induction xs with
  | nil =>
    constructor
    · intro h
      contradiction
    · rintro ⟨before, x, after, h, -⟩
      exact absurd h.symm (List.append_ne_nil_of_right_ne_nil _ (List.cons_ne_nil _ _))
  | cons first rest ih =>
    rw [List.mapM_cons]
    cases hfirst : f first with
    | error failure' =>
      constructor
      · intro h
        obtain rfl := Except.error.inj h
        exact ⟨[], first, rest, rfl, fun _ hmem => absurd hmem List.not_mem_nil, hfirst⟩
      · rintro ⟨before, x, after, h, hbefore, hx⟩
        cases before with
        | nil =>
          obtain ⟨rfl, rfl⟩ := List.cons.inj h
          obtain rfl := Except.error.inj (hfirst.symm.trans hx)
          rfl
        | cons y before =>
          obtain ⟨rfl, -⟩ := List.cons.inj h
          exact absurd hfirst (hbefore first List.mem_cons_self failure')
    | ok datum =>
      have hrest : (rest.mapM f >>= fun others => pure (datum :: others)) = .error failure ↔
          rest.mapM f = .error failure := by
        cases rest.mapM f with
        | error failure' => exact Iff.rfl
        | ok others => simp [pure, Except.pure, bind, Except.bind]
      rw [ok_bind, hrest, ih]
      constructor
      · rintro ⟨before, x, after, rfl, hbefore, hx⟩
        refine ⟨first :: before, x, after, rfl, ?_, hx⟩
        rw [List.forall_mem_cons]
        refine ⟨fun failure' h => ?_, hbefore⟩
        rw [hfirst] at h
        contradiction
      · rintro ⟨before, x, after, h, hbefore, hx⟩
        cases before with
        | nil =>
          obtain ⟨rfl, -⟩ := List.cons.inj h
          rw [hfirst] at hx
          contradiction
        | cons y before =>
          obtain ⟨rfl, rfl⟩ := List.cons.inj h
          exact ⟨before, x, after, rfl, (List.forall_mem_cons.mp hbefore).2, hx⟩

/-- A pass of which no step fails gives a list. -/
theorem exists_mapM_eq_ok (h : ∀ x ∈ xs, ∀ failure, f x ≠ .error failure) :
    ∃ ys, xs.mapM f = .ok ys := by
  cases hpass : xs.mapM f with
  | ok ys => exact ⟨ys, rfl⟩
  | error failure =>
    rcases mapM_eq_error_iff.mp hpass with ⟨before, x, after, rfl, -, hx⟩
    exact absurd hx (h x (List.mem_append_right _ List.mem_cons_self) failure)

end Pass

variable {α : Type} [Readable α]

/-! ## What a field does to a record -/

namespace Field

variable (field : Field) (handle : α)

/-- The datum that the first pass finds for a field, if it finds one. -/
def filled : Except Error (Option Data) :=
  match field.foundIn handle with
  | [] => .ok none
  | child :: others => do
    let datum ← field.shape.decode child
    if others.isEmpty then return some datum else .error (.duplicateField field.name)

/-- The entry that both passes make of a field. -/
def entry : Except Error (String × Data) := do
  let datum? ← field.filled handle
  match datum?.or field.absent? with
  | some datum => .ok (field.name, datum)
  | none => .error (.missingField field.name)

/-- A field stops a record: the first child that it is found as cannot be decoded, or it can be and
there is another one, under a further name of the field. -/
inductive Stops : Error → Prop where
  | undecoded {child : α} {others : List α} {failure : Error}
    (hfound : field.foundIn handle = child :: others)
    (hdecode : field.shape.decode child = .error failure) : Stops failure
  | repeated {child other : α} {others : List α} {datum : Data}
    (hfound : field.foundIn handle = child :: other :: others)
    (hdecode : field.shape.decode child = .ok datum) : Stops (.duplicateField field.name)

/-- A field gives a record a datum: that of the only child that it is found as, or its place-holder
if it is not found. -/
inductive Gives : Data → Prop where
  | found {child : α} {datum : Data} (hfound : field.foundIn handle = [child])
    (hdecode : field.shape.decode child = .ok datum) : Gives datum
  | placeHolder {datum : Data} (hfound : field.foundIn handle = [])
    (habsent : field.absent? = some datum) : Gives datum

/-- A field is lacking: it is not found, and it has no place-holder. -/
structure Lacking : Prop where
  found : field.foundIn handle = []
  absent : field.absent? = none

variable {field handle}

/-! ### The first pass -/

theorem Stops.filled_eq {failure : Error} (h : field.Stops handle failure) :
    field.filled handle = .error failure := by
  cases h with
  | undecoded hfound hdecode =>
    rw [filled, hfound]
    dsimp only
    rw [hdecode]
    rfl
  | repeated hfound hdecode =>
    rw [filled, hfound]
    dsimp only
    rw [hdecode]
    rfl

theorem stops_of_filled {failure : Error} (h : field.filled handle = .error failure) :
    field.Stops handle failure := by
  rw [filled] at h
  cases hfound : field.foundIn handle with
  | nil =>
    rw [hfound] at h
    contradiction
  | cons child others =>
    rw [hfound] at h
    dsimp only at h
    cases hdecode : field.shape.decode child with
    | error failure' =>
      rw [hdecode] at h
      obtain rfl := Except.error.inj h
      exact .undecoded hfound hdecode
    | ok datum =>
      rw [hdecode] at h
      cases others with
      | nil => contradiction
      | cons other others =>
        obtain rfl := Except.error.inj h
        exact .repeated hfound hdecode

theorem filled_eq_none (hfound : field.foundIn handle = []) : field.filled handle = .ok none := by
  rw [filled, hfound]

theorem filled_eq_some {child : α} {datum : Data} (hfound : field.foundIn handle = [child])
    (hdecode : field.shape.decode child = .ok datum) :
    field.filled handle = .ok (some datum) := by
  rw [filled, hfound]
  dsimp only
  rw [hdecode]
  rfl

/-- A field that does not stop a record is found once, or not at all. -/
theorem found_of_filled {datum? : Option Data} (h : field.filled handle = .ok datum?) :
    (field.foundIn handle = [] ∧ datum? = none) ∨ ∃ child datum,
      field.foundIn handle = [child] ∧ field.shape.decode child = .ok datum ∧
        datum? = some datum := by
  rw [filled] at h
  cases hfound : field.foundIn handle with
  | nil =>
    rw [hfound] at h
    exact Or.inl ⟨rfl, (Except.ok.inj h).symm⟩
  | cons child others =>
    rw [hfound] at h
    rcases exists_of_bind_eq_ok h with ⟨datum, hdecode, h⟩
    cases others with
    | nil => exact Or.inr ⟨child, datum, rfl, hdecode, (Except.ok.inj h).symm⟩
    | cons other others => contradiction

/-! ### Both passes -/

theorem Gives.entry_eq {datum : Data} (h : field.Gives handle datum) :
    field.entry handle = .ok (field.name, datum) := by
  cases h with
  | found hfound hdecode =>
    rw [entry, filled_eq_some hfound hdecode]
    rfl
  | placeHolder hfound habsent =>
    rw [entry, filled_eq_none hfound, ok_bind, habsent]
    rfl

theorem Lacking.entry_eq (h : field.Lacking handle) :
    field.entry handle = .error (.missingField field.name) := by
  rw [entry, filled_eq_none h.found, ok_bind, h.absent]
  rfl

/-- A field does one of three things. -/
theorem exists_gives_or_lacking (h : ∀ failure, ¬field.Stops handle failure) :
    (∃ datum, field.Gives handle datum) ∨ field.Lacking handle := by
  cases hfilled : field.filled handle with
  | error failure => exact absurd (stops_of_filled hfilled) (h failure)
  | ok datum? =>
    rcases found_of_filled hfilled with ⟨hfound, -⟩ | ⟨child, datum, hfound, hdecode, -⟩
    · cases habsent : field.absent? with
      | none => exact Or.inr ⟨hfound, habsent⟩
      | some datum => exact Or.inl ⟨datum, .placeHolder hfound habsent⟩
    · exact Or.inl ⟨datum, .found hfound hdecode⟩

theorem Gives.not_stops {datum : Data} (h : field.Gives handle datum) (failure : Error) :
    ¬field.Stops handle failure := by
  intro hstops
  have hentry := h.entry_eq
  rw [entry, hstops.filled_eq] at hentry
  contradiction

/-- The entry of a field that gives a datum is that datum under its name. -/
theorem gives_of_entry {entry : String × Data} (h : field.entry handle = .ok entry) :
    entry.1 = field.name ∧ field.Gives handle entry.2 := by
  have hstops : ∀ failure, ¬field.Stops handle failure := by
    intro failure hstops
    rw [Field.entry, hstops.filled_eq] at h
    contradiction
  rcases exists_gives_or_lacking hstops with ⟨datum, hgives⟩ | hlacking
  · obtain rfl := Except.ok.inj (hgives.entry_eq.symm.trans h)
    exact ⟨rfl, hgives⟩
  · rw [hlacking.entry_eq] at h
    contradiction

/-- Without an entry, a field that does not stop a record is lacking. -/
theorem lacking_of_entry {failure : Error} (hstops : ∀ failure, ¬field.Stops handle failure)
    (h : field.entry handle = .error failure) :
    failure = .missingField field.name ∧ field.Lacking handle := by
  rcases exists_gives_or_lacking hstops with ⟨datum, hgives⟩ | hlacking
  · rw [hgives.entry_eq] at h
    contradiction
  · exact ⟨Except.error.inj (h.symm.trans hlacking.entry_eq), hlacking⟩

/-- A field with a single name stops a record only by a child that cannot be decoded. -/
theorem stops_iff_of_single {name : String} (h : field.spellings = [name]) {failure : Error} :
    field.Stops handle failure ↔
      ∃ child, find? handle name = some child ∧ field.shape.decode child = .error failure := by
  have hfound : field.foundIn handle = (find? handle name).toList := by
    rw [foundIn, h]
    cases hchild : find? handle name <;> simp [hchild]
  constructor
  · intro hstops
    cases hchild : find? handle name with
    | none =>
      rw [hchild] at hfound
      cases hstops with
      | undecoded h => rw [hfound] at h; contradiction
      | repeated h => rw [hfound] at h; contradiction
    | some child =>
      rw [hchild] at hfound
      cases hstops with
      | undecoded h hdecode =>
        obtain ⟨rfl, -⟩ := List.cons.inj (hfound.symm.trans h)
        exact ⟨child, rfl, hdecode⟩
      | repeated h =>
        rw [hfound] at h
        cases h
  · rintro ⟨child, hchild, hdecode⟩
    rw [hchild] at hfound
    exact .undecoded hfound hdecode

end Field

/-! ## The outcome of a record -/

namespace Shape

/-- The outcome of decoding a record, from what its declared fields do. -/
inductive BindsTo (fields : List Field) (handle : α) : Except Error Data → Prop where
  /-- The first field that stops the record. -/
  | stopped {before after : List Field} {field : Field} {failure : Error}
    (hfields : fields = before ++ field :: after)
    (hbefore : ∀ other ∈ before, ∀ failure, ¬other.Stops handle failure)
    (hstops : field.Stops handle failure) : BindsTo fields handle (.error failure)
  /-- The first field that is lacking, where none stops the record. -/
  | missing {before after : List Field} {field : Field}
    (hfields : fields = before ++ field :: after)
    (hstops : ∀ other ∈ fields, ∀ failure, ¬other.Stops handle failure)
    (hbefore : ∀ other ∈ before, ¬other.Lacking handle) (hlacking : field.Lacking handle) :
    BindsTo fields handle (.error (.missingField field.name))
  /-- The record, where every field gives a datum. -/
  | bound {data : List (String × Data)}
    (hdata : List.Forall₂ (fun field entry => entry.1 = field.name ∧ field.Gives handle entry.2)
      fields data) :
    BindsTo fields handle (.ok (.struct data))

/-- The first pass over the fields of a record. -/
theorem decodeFound_eq_mapM (fields : List Field) (handle : α) :
    decodeFound fields handle = fields.mapM fun field => field.filled handle := by
  induction fields with
  | nil => rfl
  | cons field fields ih =>
    rw [decodeFound_cons, List.mapM_cons, Field.filled, ← ih]
    cases field.foundIn handle with
    | nil => rfl
    | cons child others =>
      dsimp only
      cases field.shape.decode child with
      | error failure => rfl
      | ok datum => cases others <;> rfl

/-- The second pass, after the first has found data for the fields. -/
theorem completeFields_eq_mapM {fields : List Field} {handle : α} {data : List (Option Data)}
    (h : List.Forall₂ (fun field datum? => field.filled handle = .ok datum?) fields data) :
    completeFields fields data = fields.mapM fun field => field.entry handle := by
  induction h with
  | nil => rfl
  | @cons field datum? fields data hfield _ ih =>
    rw [completeFields, List.mapM_cons, Field.entry, hfield, ok_bind, ← ih]
    cases datum?.or field.absent? <;> rfl

/-- A struct is decoded as a record in two passes over the fields. -/
theorem decode_record_eq {fields : List Field} {handle : α} {entries : List (String × α)}
    (hvisit : visit handle = .struct entries) :
    (Shape.record fields).decode handle = (do
      let _ ← fields.mapM fun field => field.filled handle
      let data ← fields.mapM fun field => field.entry handle
      return .struct data) := by
  rw [decode, withRecord, hvisit]
  dsimp only
  rw [decodeFound_eq_mapM]
  cases hpass : fields.mapM fun field => field.filled handle with
  | error failure => rfl
  | ok data =>
    rw [ok_bind, ok_bind, completeFields_eq_mapM (mapM_eq_ok_iff.mp hpass)]
    cases fields.mapM fun field => field.entry handle <;> rfl

variable {fields : List Field} {handle : α} {entries : List (String × α)}

/-- Where no field stops the record, the first pass comes to its end. -/
theorem exists_filled (h : ∀ field ∈ fields, ∀ failure, ¬field.Stops handle failure) :
    ∃ data, fields.mapM (fun field => field.filled handle) = .ok data :=
  exists_mapM_eq_ok fun field hmem failure hfilled =>
    h field hmem failure (Field.stops_of_filled hfilled)

theorem BindsTo.decode_eq {outcome : Except Error Data} (hvisit : visit handle = .struct entries)
    (h : BindsTo fields handle outcome) : (Shape.record fields).decode handle = outcome := by
  rw [decode_record_eq hvisit]
  cases h with
  | @stopped before after field failure hfields hbefore hstops =>
    have hpass : fields.mapM (fun field => field.filled handle) = .error failure := by
      refine mapM_eq_error_iff.mpr ⟨before, field, after, hfields, ?_, hstops.filled_eq⟩
      intro other hmem failure' hfilled
      exact hbefore other hmem failure' (Field.stops_of_filled hfilled)
    rw [hpass]
    rfl
  | @missing before after field hfields hstops hbefore hlacking =>
    rcases exists_filled hstops with ⟨_, hfirst⟩
    have hpass : fields.mapM (fun field => field.entry handle) =
        .error (.missingField field.name) := by
      refine mapM_eq_error_iff.mpr ⟨before, field, after, hfields, ?_, hlacking.entry_eq⟩
      intro other hmem failure hentry
      have hnotStops := hstops other (hfields ▸ List.mem_append_left _ hmem)
      rcases Field.exists_gives_or_lacking hnotStops with ⟨datum, hgives⟩ | hother
      · rw [hgives.entry_eq] at hentry
        contradiction
      · exact hbefore other hmem hother
    rw [hfirst, ok_bind, hpass]
    rfl
  | @bound data hdata =>
    have hstops : ∀ field ∈ fields, ∀ failure, ¬field.Stops handle failure :=
      ((List.forall₂_and_left _ _).mp (hdata.imp fun _ _ h => ⟨h.2.not_stops, h⟩)).1
    rcases exists_filled hstops with ⟨_, hfirst⟩
    have hpass : fields.mapM (fun field => field.entry handle) = .ok data := by
      refine mapM_eq_ok_iff.mpr (hdata.imp fun field entry h => ?_)
      rw [h.2.entry_eq, ← h.1]
    rw [hfirst, ok_bind, hpass]
    rfl

/-- Some outcome is that of the record. -/
theorem exists_bindsTo (fields : List Field) (handle : α) :
    ∃ outcome, BindsTo fields handle outcome := by
  cases hfirst : fields.mapM fun field => field.filled handle with
  | error failure =>
    rcases mapM_eq_error_iff.mp hfirst with ⟨before, field, after, hfields, hbefore, hfield⟩
    refine ⟨_, .stopped hfields (fun other hmem failure' hstops => ?_)
      (Field.stops_of_filled hfield)⟩
    exact hbefore other hmem failure' hstops.filled_eq
  | ok data =>
    have hnone : ∀ field : Field, ∀ datum?, field.filled handle = .ok datum? →
        (∀ failure, ¬field.Stops handle failure) ∧ field.filled handle = .ok datum? := by
      refine fun field datum? hfilled => ⟨fun failure hstops => ?_, hfilled⟩
      rw [hstops.filled_eq] at hfilled
      contradiction
    have hstops : ∀ field ∈ fields, ∀ failure, ¬field.Stops handle failure :=
      ((List.forall₂_and_left _ _).mp ((mapM_eq_ok_iff.mp hfirst).imp hnone)).1
    cases hpass : fields.mapM fun field => field.entry handle with
    | error failure =>
      rcases mapM_eq_error_iff.mp hpass with ⟨before, field, after, hfields, hbefore, hfield⟩
      have hmem : field ∈ fields := hfields ▸ List.mem_append_right _ List.mem_cons_self
      have hlacking := (Field.lacking_of_entry (hstops field hmem) hfield).2
      refine ⟨_, .missing hfields hstops (fun other hmem hother => ?_) hlacking⟩
      exact hbefore other hmem _ hother.entry_eq
    | ok entries =>
      exact ⟨_, .bound ((mapM_eq_ok_iff.mp hpass).imp fun _ _ h => Field.gives_of_entry h)⟩

/-- A struct is decoded as a record as the declared fields bind. -/
theorem decode_record_iff (hvisit : visit handle = .struct entries)
    {outcome : Except Error Data} :
    (Shape.record fields).decode handle = outcome ↔ BindsTo fields handle outcome := by
  constructor
  · rintro rfl
    rcases exists_bindsTo fields handle with ⟨outcome, h⟩
    rw [h.decode_eq hvisit]
    exact h
  · intro h
    exact h.decode_eq hvisit

end Shape
end Caseless
