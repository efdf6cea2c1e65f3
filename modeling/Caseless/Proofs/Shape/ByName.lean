import Caseless.Proofs.Shape.FieldAccess
import Caseless.Proofs.Shape.Showing
import Caseless.Shape.Catalogue

/-!
# Records are bound by name

Of a struct, a record sees what its declared names lead to, and nothing else.  The reader of a
record is offered just that, the outcome is settled by it, and structs in which the declared names
lead to the same data are decoded alike, whatever other fields there are and wherever they stand.
This holds of values, where names are looked up by their spelling, and of views, where they are
resolved ignoring case.

A record that keeps the fields it does not declare reads all fields in stored order instead; and a
field with several names can be found more than once.  These are the two ways in which a record
comes to report a field as duplicated.

Main definition: `BindsByName`, what it means that a record is bound by name.

Main result: `Shape.bindsByName`, records are bound by name in values and in their views.
-/

namespace Caseless

open Name Readable

variable {σ α : Type} [DecidableEq σ] [Readable α]

namespace Showing

variable {access : Access} {present : Value σ → α}

theorem visit_struct (h : Showing access present) (stamp : σ) (children : Fields (Value σ)) :
    visit (present (.struct stamp children)) =
      .struct (children.map fun field => (field.1, present field.2)) :=
  h.visit_eq _

/-- A field is found as the children that its names lead to. -/
theorem foundIn_eq (h : Showing access present) (field : Field) (value : Value σ) :
    field.foundIn (present value) =
      (field.spellings.filterMap (value.resolve? access)).map present := by
  rw [Field.foundIn, List.map_filterMap]
  congr 1
  funext name
  exact h.find?_eq value name

/-- A reader of the declared names is offered those that lead anywhere. -/
theorem offers_iff (h : Showing access present) {names : List String} {value : Value σ}
    {offered : List (String × α)} : (FieldAccess.start (present value) names).Offers offered ↔
      offered = names.filterMap fun name =>
        (value.resolve? access name).map fun child => (name, present child) := by
  have hpairs : ∀ name, (find? (present value) name).map (fun child => (name, child)) =
      (value.resolve? access name).map fun child => (name, present child) := by
    intro name
    rw [h.find?_eq, Option.map_map]
    rfl
  rw [FieldAccess.offers_iff]
  simp only [hpairs]

/-- Structs in which the declared names of a record lead to the same data are decoded alike. -/
theorem decode_record_congr (h : Showing access present) {fields : List Field} {stamp stamp' : σ}
    {children children' : Fields (Value σ)}
    (hdata : ∀ name ∈ Shape.declaredNames fields,
      ((Value.struct stamp children).resolve? access name).map Value.unstamped =
        ((Value.struct stamp' children').resolve? access name).map Value.unstamped) :
    (Shape.record fields).decode (present (.struct stamp children)) =
      (Shape.record fields).decode (present (.struct stamp' children')) := by
  have hfound : Agree False False Eq (Shape.decodeFound fields (present (.struct stamp children)))
      (Shape.decodeFound fields (present (.struct stamp' children'))) := by
    refine Simulation.agree_decodeFound (fun field _ => h.decodes_sameData field.shape)
      fun field hmem => h.sameData_foundIn fun name hname => ?_
    exact hdata name (List.mem_flatMap.mpr ⟨field, hmem, hname⟩)
  rw [Shape.decode, Shape.decode, withRecord, withRecord, h.visit_struct, h.visit_struct, hfound.eq]

end Showing

/-! ## Binding by name -/

/-- A record of declared fields is bound by name in values that are shown to a reader. -/
structure BindsByName (fields : List Field) (access : Access) (present : Value σ → α) : Prop where
  /-- The reader is offered each declared name that leads anywhere, with the child that it leads to,
  in order of declaration. -/
  offers : ∀ (value : Value σ) (offered : List (String × α)),
    (FieldAccess.start (present value) (Shape.declaredNames fields)).Offers offered ↔
      offered = (Shape.declaredNames fields).filterMap fun name =>
        (value.resolve? access name).map fun child => (name, present child)
  /-- A probe for the declared names of a struct reads what the reader is offered. -/
  probes : ∀ (stamp : σ) (children : Fields (Value σ)) (offered : List (String × α))
    (reading : Reading α),
    (FieldAccess.start (present (.struct stamp children)) (Shape.declaredNames fields)).Offers
        offered →
      reading.readStruct (Shape.declaredNames fields) (present (.struct stamp children)) =
        reading.readMap .text none offered
  /-- The reader comes to the datum, or to the failure, that decoding gives.  It never gets to see
  a name that is not declared, so it does not matter what it would do about one. -/
  reads : ∀ (unknown : String → Except Error Unit) (value : Value σ),
    Shape.readRecord fields unknown (present value) = (Shape.record fields).decode (present value)
  /-- The outcome for a struct is settled by what the fields are found as. -/
  outcome : ∀ (stamp : σ) (children : Fields (Value σ)) (outcome : Except Error Data),
    (Shape.record fields).decode (present (.struct stamp children)) = outcome ↔
      Shape.BindsTo fields (present (.struct stamp children)) outcome
  found : ∀ (field : Field) (value : Value σ), field.foundIn (present value) =
    (field.spellings.filterMap (value.resolve? access)).map present
  /-- A field with a single name stops a record only by a child that cannot be decoded. -/
  single : ∀ field ∈ fields, ∀ name, field.spellings = [name] →
    ∀ (value : Value σ) (failure : Error), field.Stops (present value) failure ↔
      ∃ child, value.resolve? access name = some child ∧
        field.shape.decode (present child) = .error failure
  /-- Structs in which the declared names lead to the same data are decoded alike. -/
  congr : ∀ (stamp stamp' : σ) (children children' : Fields (Value σ)),
    (∀ name ∈ Shape.declaredNames fields,
      ((Value.struct stamp children).resolve? access name).map Value.unstamped =
        ((Value.struct stamp' children').resolve? access name).map Value.unstamped) →
    (Shape.record fields).decode (present (.struct stamp children)) =
      (Shape.record fields).decode (present (.struct stamp' children'))
  /-- A change of fields that no declared name leads to, before or after, changes nothing. -/
  change : ∀ (stamp stamp' : σ) (change : FieldChange (Value σ)),
    change.Spares access (Shape.declaredNames fields) →
    (Shape.record fields).decode (present (.struct stamp change.before.unmarked)) =
      (Shape.record fields).decode (present (.struct stamp' change.after.unmarked))

/-- A record whose fields have different names is bound by name, however values are shown. -/
theorem Showing.bindsRecord {access : Access} {present : Value σ → α} (h : Showing access present)
    {fields : List Field} (hdistinct : (Shape.declaredNames fields).Nodup) :
    BindsByName fields access present where
  offers _ _ := h.offers_iff
  probes stamp children _ reading hoffers :=
    hoffers.readStruct_eq (h.visit_struct stamp children) reading
  reads unknown value := Shape.readRecord_eq_decode hdistinct unknown (present value)
  outcome stamp children _ := Shape.decode_record_iff (h.visit_struct stamp children)
  found := h.foundIn_eq
  single field _ name hname value failure := by
    rw [Field.stops_iff_of_single hname, h.find?_eq]
    constructor
    · rintro ⟨_, hchild, hdecode⟩
      rcases Option.map_eq_some_iff.mp hchild with ⟨child, hresolve, rfl⟩
      exact ⟨child, hresolve, hdecode⟩
    · rintro ⟨child, hresolve, hdecode⟩
      exact ⟨present child, by rw [hresolve]; rfl, hdecode⟩
  congr _ _ _ _ hdata := h.decode_record_congr hdata
  change stamp stamp' change hspares := by
    refine h.decode_record_congr fun name hname => congrArg (Option.map Value.unstamped) ?_
    exact hspares.resolve?_eq hname stamp stamp'

namespace Shape

/-- A record whose fields have different names is bound by name, in values and in their views. -/
theorem bindsByName {fields : List Field} (hdistinct : (declaredNames fields).Nodup) :
    BindsByName fields .exact (id : Value σ → Value σ) ∧
      ∀ policy, BindsByName fields (.folded policy) (wrap policy : Value σ → View σ) :=
  ⟨Showing.raw.bindsRecord hdistinct, fun policy => (Showing.wrapped policy).bindsRecord hdistinct⟩

/-- The fields of an order have different names, so a view of an order is read by what these two
names resolve to.  The second article and the note are not seen. -/
theorem bindsByName_order :
    let fields : List Field := [.required "sku" string, .required "qty" (int .u16)]
    let children : Fields Value := [("Qty", .scalar (.int 2)), ("note", .null),
      ("SKU", .scalar (.string "a")), ("sku", .null)]
    (declaredNames fields).Nodup ∧
      (BindsByName fields .exact (id : Value → Value) ∧
        ∀ policy, BindsByName fields (.folded policy) (wrap policy : Value → View)) ∧
      order.decode (wrap .firstWins (.struct () children)) =
        .ok (.struct [("sku", .str "a"), ("qty", .int .u16 2)]) :=
  ⟨by decide, bindsByName (by decide), rfl⟩

/-- A field that is looked up under several names is reported as duplicated when two of them lead
to a child, although both children can be decoded.  So is a field that is there twice, in a record
that keeps the fields it does not declare. -/
theorem decode_repeated_refused :
    let number (n : Int64) : Value := .scalar (.int n)
    let value : Value := .struct () [("id", number 5), ("identifier", number 5)]
    (declaredNames [.mk "id" ["ID", "id", "identifier"] i64 none]).Nodup ∧
      value.resolve? .exact "id" = some (number 5) ∧
      value.resolve? .exact "identifier" = some (number 5) ∧
      i64.decode (number 5) = .ok (.int .i64 5) ∧
      aliased.decode value = .error (.duplicateField "id") ∧
      flatRecord.decode (.struct () [("id", number 1), ("id", number 2)] : Value) =
        .error (.duplicateField "id") :=
  ⟨by decide, rfl, rfl, rfl, rfl, rfl⟩

end Shape
end Caseless
