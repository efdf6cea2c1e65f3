import Caseless.Proofs.Shape.Showing
import Caseless.Shape.Catalogue

/-!
# How an enumeration classifies values

Text names a variant, and so does a struct with a single field; no other value does.  The name is
taken as it is stored and compared by its spelling.  What becomes of the value is then settled by
the declared variants and by whether the payload is a null, and nothing of this looks a name up in
the value.  So a value and its views are classified alike; they can only differ in how the content
of a variant is decoded, which is read through the same view.

Main definitions:

- `Value.Names`: the values that name a variant;
- `Shape.Verdict`: what becomes of a value, up to the content of a variant;
- `Shape.Classified`: the rules by which an enumeration gives a verdict.

Main result: `Shape.decode_enum_classified`, a value has one verdict, and the value and its views
are decoded as it says.
-/

namespace Caseless

open Name Readable

variable {σ : Type}

/-! ## Values and payloads -/

/-- A value names a variant.  Text names it without a payload, and the only field of a struct names
it with one. -/
inductive Value.Names : Value σ → String → Option (Value σ) → Prop where
  | symbol (name : String) : Names (.scalar (.symbol name)) name none
  | string (name : String) : Names (.scalar (.string name)) name none
  | field (stamp : σ) (name : String) (child : Value σ) :
    Names (.struct stamp [(name, child)]) name (some child)

namespace Payload

/-- What error messages call a variant. -/
def form : Payload → String
  | .unit => "unit variant"
  | .newtype _ => "newtype variant"
  | .tuple _ => "tuple variant"
  | .record _ => "struct variant"

/-- The shape of the content of a variant; a variant without data has none. -/
def held? (family name : String) : Payload → Option Shape
  | .unit => none
  | .newtype inner => some inner
  | .tuple shapes => some (.tuple (.variant family name) shapes)
  | .record fields => some (.record fields)

/-- The datum of a variant with given content. -/
def datumOf (name : String) : Payload → Data → Data
  | .newtype _, content => .newtypeVariant name content
  | .record _, .structOf announced fields => .structVariantOf name announced fields
  | _, content => content

/-- Only a variant without data has no content. -/
theorem eq_unit_of_held?_eq_none {family name : String} {payload : Payload}
    (h : payload.held? family name = none) : payload = .unit := by
  cases payload with
  | unit => rfl
  | newtype | tuple | record => contradiction

end Payload

namespace Shape

/-! ## Verdicts -/

/-- What becomes of a value that is decoded as an enumeration, as far as it is settled before the
content of a variant is read. -/
inductive Verdict (σ : Type) where
  | refused (failure : Error)
  | unit (name : String)
  /-- A variant that holds data, with the shape of its content and the value to read it from. -/
  | data (name : String) (payload : Payload) (content : Shape) (child : Value σ)

/-- The outcome of decoding, where `read` reads the content of a variant. -/
def Verdict.outcome (read : Shape → Value σ → Except Error Data) :
    Verdict σ → Except Error Data
  | .refused failure => .error failure
  | .unit name => .ok (.unitVariant name)
  | .data name payload content child => (read content child).map (payload.datumOf name)

variable (family : String) (variants : List (String × Payload))

/-- The rules by which an enumeration classifies a value.  Of variants with one name the first one
counts. -/
inductive Classified : Value σ → Verdict σ → Prop where
  /-- A value that names no variant is refused for its kind. -/
  | nameless {value : Value σ} (hname : ∀ name child?, ¬value.Names name child?) :
    Classified value (.refused (.typeMismatch "enum" value.tag))
  /-- A name that is not declared is refused, whatever the payload. -/
  | undeclared {value : Value σ} {name : String} {child? : Option (Value σ)}
    (hname : value.Names name child?) (hvariant : name ∉ variants.map (·.1)) :
    Classified value (.refused (.unknownVariant name))
  | unitText {value : Value σ} {name : String} (hname : value.Names name none)
    (hvariant : Fields.get? name variants = some .unit) : Classified value (.unit name)
  /-- Text is not enough for a variant that holds data. -/
  | dataText {value : Value σ} {name : String} {payload : Payload} {content : Shape}
    (hname : value.Names name none) (hvariant : Fields.get? name variants = some payload)
    (hcontent : payload.held? family name = some content) :
    Classified value (.refused (.invalidType .unitVariant payload.form))
  /-- A variant without data takes a null of any kind for its payload. -/
  | unitNull {value child : Value σ} {name : String} (hname : value.Names name (some child))
    (hvariant : Fields.get? name variants = some .unit) (hnull : child.isNull = true) :
    Classified value (.unit name)
  | unitPayload {value child : Value σ} {name : String} (hname : value.Names name (some child))
    (hvariant : Fields.get? name variants = some .unit) (hnull : child.isNull = false) :
    Classified value (.refused (.typeMismatch "null" child.tag))
  | data {value child : Value σ} {name : String} {payload : Payload} {content : Shape}
    (hname : value.Names name (some child)) (hvariant : Fields.get? name variants = some payload)
    (hcontent : payload.held? family name = some content) :
    Classified value (.data name payload content child)

/-! ## Computing the verdict -/

/-- The verdict on text. -/
def verdictOnText (name : String) : Verdict σ :=
  match Fields.get? name variants with
  | none => .refused (.unknownVariant name)
  | some payload =>
    match payload.held? family name with
    | none => .unit name
    | some _ => .refused (.invalidType .unitVariant payload.form)

/-- The verdict on a struct with a single field. -/
def verdictOnField (name : String) (child : Value σ) : Verdict σ :=
  match Fields.get? name variants with
  | none => .refused (.unknownVariant name)
  | some payload =>
    match payload.held? family name with
    | none => if child.isNull then .unit name else .refused (.typeMismatch "null" child.tag)
    | some content => .data name payload content child

/-- The verdict on a value. -/
def verdict : Value σ → Verdict σ
  | .scalar payload =>
    match payload.text? with
    | some name => verdictOnText family variants name
    | none => .refused (.typeMismatch "enum" payload.tag)
  | .struct _ [(name, child)] => verdictOnField family variants name child
  | other => .refused (.typeMismatch "enum" other.tag)

variable {family variants}

/-- A value has no other verdict than the computed one. -/
theorem Classified.eq_verdict {value : Value σ} {given : Verdict σ}
    (h : Classified family variants value given) : given = verdict family variants value := by
  cases h with
  | nameless hname =>
    cases value with
    | scalar payload =>
      cases payload with
      | symbol name => exact absurd (.symbol name) (hname name none)
      | string name => exact absurd (.string name) (hname name none)
      | _ => rfl
    | seq kind elements => rfl
    | struct stamp fields =>
      rcases fields with _ | ⟨⟨name, child⟩, _ | ⟨second, rest⟩⟩
      · rfl
      · exact absurd (.field stamp name child) (hname name (some child))
      · rfl
  | undeclared hname hvariant =>
    have hnone := Fields.get?_eq_none_iff.mpr hvariant
    cases hname with
    | symbol name => simp [verdict, Scalar.text?, verdictOnText, hnone]
    | string name => simp [verdict, Scalar.text?, verdictOnText, hnone]
    | field stamp name child => simp [verdict, verdictOnField, hnone]
  | unitText hname hvariant =>
    cases hname <;> simp [verdict, Scalar.text?, verdictOnText, hvariant, Payload.held?]
  | dataText hname hvariant hcontent =>
    cases hname <;> simp [verdict, Scalar.text?, verdictOnText, hvariant, hcontent]
  | unitNull hname hvariant hnull =>
    cases hname
    simp [verdict, verdictOnField, hvariant, Payload.held?, hnull]
  | unitPayload hname hvariant hnull =>
    cases hname
    simp [verdict, verdictOnField, hvariant, Payload.held?, hnull]
  | data hname hvariant hcontent =>
    cases hname
    simp [verdict, verdictOnField, hvariant, hcontent]

theorem classified_verdictOnText {value : Value σ} {name : String} (hname : value.Names name none) :
    Classified family variants value (verdictOnText family variants name) := by
  rw [verdictOnText]
  cases hvariant : Fields.get? name variants with
  | none => exact .undeclared hname (Fields.get?_eq_none_iff.mp hvariant)
  | some payload =>
    dsimp only
    cases hcontent : payload.held? family name with
    | none =>
      rw [Payload.eq_unit_of_held?_eq_none hcontent] at hvariant
      exact .unitText hname hvariant
    | some content => exact .dataText hname hvariant hcontent

theorem classified_verdictOnField {value child : Value σ} {name : String}
    (hname : value.Names name (some child)) :
    Classified family variants value (verdictOnField family variants name child) := by
  rw [verdictOnField]
  cases hvariant : Fields.get? name variants with
  | none => exact .undeclared hname (Fields.get?_eq_none_iff.mp hvariant)
  | some payload =>
    dsimp only
    cases hcontent : payload.held? family name with
    | none =>
      rw [Payload.eq_unit_of_held?_eq_none hcontent] at hvariant
      by_cases hnull : child.isNull = true
      · rw [if_pos hnull]
        exact .unitNull hname hvariant hnull
      · rw [if_neg hnull]
        exact .unitPayload hname hvariant (Bool.eq_false_iff.mpr hnull)
    | some content => exact .data hname hvariant hcontent

/-- The computed verdict follows the rules. -/
theorem classified_verdict (value : Value σ) :
    Classified family variants value (verdict family variants value) := by
  cases value with
  | scalar payload =>
    cases payload with
    | symbol name => exact classified_verdictOnText (.symbol name)
    | string name => exact classified_verdictOnText (.string name)
    | _ => exact .nameless fun _ _ hname => by cases hname
  | seq kind elements => exact .nameless fun _ _ hname => by cases hname
  | struct stamp fields =>
    rcases fields with _ | ⟨⟨name, child⟩, _ | ⟨second, rest⟩⟩
    · exact .nameless fun _ _ hname => by cases hname
    · exact classified_verdictOnField (.field stamp name child)
    · exact .nameless fun _ _ hname => by cases hname

/-! ## Decoding -/

section Decoding

variable {α : Type} [Readable α]

theorem decodeTextVariant_eq (read : Shape → Value σ → Except Error Data) (name : String) :
    decodeTextVariant variants name = (verdictOnText family variants name).outcome read := by
  rw [decodeTextVariant, verdictOnText]
  cases Fields.get? name variants with
  | none => rfl
  | some payload => cases payload <;> rfl

/-- The content of a variant is decoded as its shape says. -/
theorem decodePayload_eq {payload : Payload} {name : String} {content : Shape}
    (h : payload.held? family name = some content) (child : α) :
    decodePayload family name payload child = (content.decode child).map (payload.datumOf name) := by
  cases payload with
  | unit => contradiction
  | newtype inner =>
    obtain rfl := Option.some.inj h
    rfl
  | tuple shapes =>
    obtain rfl := Option.some.inj h
    have hdatum : (Payload.tuple shapes).datumOf name = id := rfl
    rw [hdatum, Except.map_id]
    rfl
  | record fields =>
    obtain rfl := Option.some.inj h
    rw [decodePayload, decode]
    cases withRecord child fields (decodeFound fields child) <;> rfl

theorem decodeVariant_eq_get? (name : String) (child : α) :
    decodeVariant family variants name child =
      match Fields.get? name variants with
      | none => .error (.unknownVariant name)
      | some payload => decodePayload family name payload child := by
  induction variants with
  | nil => rfl
  | cons variant rest ih =>
    rcases variant with ⟨declared, payload⟩
    rw [decodeVariant, Fields.get?]
    by_cases hname : declared = name
    · rw [if_pos hname, if_pos hname, hname]
    · rw [if_neg hname, if_neg hname, ih]

end Decoding

variable [DecidableEq σ] {α : Type} [Readable α] {access : Access} {present : Value σ → α}

theorem decodeVariant_eq_outcome (h : Showing access present) (name : String) (child : Value σ) :
    decodeVariant family variants name (present child) =
      (verdictOnField family variants name child).outcome fun content child =>
        content.decode (present child) := by
  rw [decodeVariant_eq_get?, verdictOnField]
  cases Fields.get? name variants with
  | none => rfl
  | some payload =>
    dsimp only
    cases hcontent : payload.held? family name with
    | none =>
      rw [Payload.eq_unit_of_held?_eq_none hcontent, decodePayload, h.isNull_eq, h.tag_eq]
      cases child.isNull <;> rfl
    | some content => exact decodePayload_eq hcontent (present child)

/-- However a value is shown, it is decoded as its verdict says. -/
theorem decode_enum_eq_outcome (h : Showing access present) (value : Value σ) :
    (Shape.enum family variants).decode (present value) =
      (verdict family variants value).outcome fun content child =>
        content.decode (present child) := by
  rw [decode, h.visit_eq]
  cases value with
  | scalar payload =>
    rw [Value.visit, Node.map, verdict]
    dsimp only
    cases payload.text? with
    | none => rfl
    | some name => exact decodeTextVariant_eq _ name
  | seq kind elements => rfl
  | struct stamp fields =>
    rcases fields with _ | ⟨⟨name, child⟩, _ | ⟨second, rest⟩⟩
    · rfl
    · exact decodeVariant_eq_outcome h name child
    · rfl

variable (family variants)

/-- An enumeration classifies every value, and the value and its views alike: there is one verdict
that the rules give, and decoding has the outcome that it says.  The content of a variant is read
from its value where the value is decoded, and from a view of it where a view is. -/
theorem decode_enum_classified (value : Value σ) :
    ∃ given : Verdict σ, (∀ other, Classified family variants value other ↔ other = given) ∧
      (Shape.enum family variants).decode value = given.outcome (fun content child =>
        content.decode child) ∧
      ∀ policy, (Shape.enum family variants).decode (wrap policy value) =
        given.outcome fun content child => content.decode (wrap policy child) := by
  refine ⟨verdict family variants value, fun other => ⟨Classified.eq_verdict, ?_⟩, ?_, ?_⟩
  · rintro rfl
    exact classified_verdict value
  · exact decode_enum_eq_outcome Showing.raw value
  · intro policy
    exact decode_enum_eq_outcome (Showing.wrapped policy) value

/-- A view folds the names of fields, but not the names of variants. -/
example : mode.decode (wrap .firstWins (.struct () [("off", .null)])) =
    .error (.unknownVariant "off") := rfl

end Shape
end Caseless
