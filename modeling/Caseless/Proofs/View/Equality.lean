import Caseless.Proofs.View.Presents
import Caseless.Proofs.View.Recasing
import Caseless.Value.Stamped

/-!
# Equality of values and of views

Values are compared node by node: two scalars by their payloads, two sequences of one kind element
by element, and two structs field by field in order.  A view is compared with a value, and with
another view, by cases of its own.  All of these comparisons come to the same, and they read
nothing but the data: no policy, no table and no stamp.

Floats are compared by any relation, which need not be reflexive: a value that holds
not-a-number differs from itself, and so does its view.

Main definitions:

- `Value.HeadsAgree`: two nodes agree in what they are without their children;
- `EqualityLaws`: what the comparisons of values and of views decide.

Main results:

- Theorem `Value.eqBy_iff_at?`: two values are equal exactly when the nodes at every position agree;
- Theorem `Value.eqBy_unstamped`: stamps are not compared;
- Theorems `View.eqValueBy_eq` and `View.eqBy_eq`: views are compared as the values that they wrap;
- Theorem `equalityLaws`: equality of views is equality of values.
-/

namespace Caseless

open Name

variable {σ τ : Type} {feq : Float → Float → Bool}

/-! ## One step of a comparison -/

theorem byteArray_beq_iff {bytes others : ByteArray} :
    (bytes == others) = true ↔ bytes = others := by
  rw [ByteArray.ext_iff]
  exact beq_iff_eq (α := Array UInt8)

/-- Two scalars are equal exactly when they are floats that `feq` takes for equal, or one and the
same scalar and no float. -/
theorem Scalar.eqBy_iff {payload other : Scalar} :
    payload.eqBy feq other = true ↔
      (∃ x y, payload = .float x ∧ other = .float y ∧ feq x y = true) ∨
        (payload = other ∧ ∀ x, payload ≠ .float x) := by
  cases payload <;> cases other <;> simp [eqBy, byteArray_beq_iff]

namespace Value

theorem eqElements_iff {xs : List (Value σ)} {ys : List (Value τ)} :
    eqElements feq xs ys = true ↔ List.Forall₂ (fun x y => x.eqBy feq y = true) xs ys := by
  induction xs generalizing ys with
  | nil => cases ys <;> simp [eqElements]
  | cons x xs ih => cases ys <;> simp [eqElements, ih]

theorem eqFields_iff {fields : Fields (Value σ)} {others : Fields (Value τ)} :
    eqFields feq fields others = true ↔
      List.Forall₂ (fun field other => field.1 = other.1 ∧ field.2.eqBy feq other.2 = true)
        fields others := by
  induction fields generalizing others with
  | nil => cases others <;> simp [eqFields]
  | cons field rest ih => cases others <;> simp [eqFields, ih]

theorem eqFields_iff_names {fields : Fields (Value σ)} {others : Fields (Value τ)} :
    eqFields feq fields others = true ↔ fields.names = others.names ∧
      List.Forall₂ (fun x y => x.eqBy feq y = true) (fields.map (·.2)) (others.map (·.2)) := by
  rw [eqFields_iff, ← List.forall₂_eq_eq_eq]
  exact Fields.forall₂_iff Eq fun x y => eqBy feq x y = true

/-- Two nodes agree in what they are without their children: in the payload, where floats are
compared by `feq`, in the kind and the length of a sequence, or in the names of a struct and their
order. -/
inductive HeadsAgree (feq : Float → Float → Bool) : Value σ → Value τ → Prop where
  | float {x y : Float} (h : feq x y = true) :
    HeadsAgree feq (.scalar (.float x)) (.scalar (.float y))
  | scalar {payload : Scalar} (h : ∀ x, payload ≠ .float x) :
    HeadsAgree feq (.scalar payload) (.scalar payload)
  | seq (kind : SeqKind) {xs : List (Value σ)} {ys : List (Value τ)} (h : xs.length = ys.length) :
    HeadsAgree feq (.seq kind xs) (.seq kind ys)
  | struct {stamp : σ} {stamp' : τ} {fields : Fields (Value σ)} {others : Fields (Value τ)}
    (h : fields.names = others.names) :
    HeadsAgree feq (.struct stamp fields) (.struct stamp' others)

/-- Two values are equal exactly when they agree as nodes and their children are equal. -/
theorem eqBy_iff_child? {a : Value σ} {b : Value τ} :
    a.eqBy feq b = true ↔ HeadsAgree feq a b ∧
      ∀ index, Option.Rel (fun x y => x.eqBy feq y = true) (a.child? index) (b.child? index) := by
  constructor
  · intro h
    cases a with
    | scalar payload =>
      cases b with
      | scalar other =>
        refine ⟨?_, fun _ => .none⟩
        rcases Scalar.eqBy_iff.mp h with ⟨x, y, rfl, rfl, hfloats⟩ | ⟨rfl, hpayload⟩
        · exact .float hfloats
        · exact .scalar hpayload
      | seq | struct => contradiction
    | seq kind xs =>
      cases b with
      | seq kind' ys =>
        rw [eqBy, Bool.and_eq_true, beq_iff_eq, eqElements_iff] at h
        obtain ⟨rfl, helements⟩ := h
        exact ⟨.seq kind helements.length_eq, forall₂_iff_getElem?.mp helements⟩
      | scalar | struct => contradiction
    | struct stamp fields =>
      cases b with
      | struct stamp' others =>
        obtain ⟨hnames, hvalues⟩ := eqFields_iff_names.mp h
        refine ⟨.struct hnames, fun index => ?_⟩
        simpa [child?] using forall₂_iff_getElem?.mp hvalues index
      | scalar | seq => contradiction
  · rintro ⟨hheads, hchildren⟩
    cases hheads with
    | @float x y h => exact Scalar.eqBy_iff.mpr (.inl ⟨x, y, rfl, rfl, h⟩)
    | scalar h => exact Scalar.eqBy_iff.mpr (.inr ⟨rfl, h⟩)
    | seq kind h =>
      rw [eqBy, Bool.and_eq_true, beq_self_eq_true, eqElements_iff]
      exact ⟨rfl, forall₂_iff_getElem?.mpr hchildren⟩
    | @struct stamp stamp' fields others h =>
      refine eqFields_iff_names.mpr ⟨h, forall₂_iff_getElem?.mpr fun index => ?_⟩
      simpa [child?] using hchildren index

/-! ## Values at every depth -/

/-- Two values are equal exactly when the nodes at every position agree. -/
theorem eqBy_iff_at? {a : Value σ} {b : Value τ} :
    a.eqBy feq b = true ↔
      ∀ position, Option.Rel (HeadsAgree feq) (a.at? position) (b.at? position) := by
  constructor
  · intro h position
    induction position generalizing a b with
    | nil => exact .some (eqBy_iff_child?.mp h).1
    | cons index rest ih =>
      have hchild := (eqBy_iff_child?.mp h).2 index
      rw [at?_cons, at?_cons]
      generalize a.child? index = child?, b.child? index = other? at hchild
      cases hchild with
      | none => exact .none
      | some hchild => exact ih hchild
  · intro h
    induction a using Readable.induction generalizing b with
    | step a ih =>
      have hheads : HeadsAgree feq a b := by
        cases h [] with
        | some hheads => exact hheads
      refine eqBy_iff_child?.mpr ⟨hheads, fun index => ?_⟩
      have hbelow := fun rest => h (index :: rest)
      simp only [at?_cons] at hbelow
      cases hchild : a.child? index with
      | none =>
        cases hother : b.child? index with
        | none => exact .none
        | some other =>
          rw [hchild, hother] at hbelow
          nomatch hbelow []
      | some child =>
        cases hother : b.child? index with
        | none =>
          rw [hchild, hother] at hbelow
          nomatch hbelow []
        | some other =>
          rw [hchild, hother] at hbelow
          rw [← getElem?_children_visit] at hchild
          exact .some (ih child (List.mem_of_getElem? hchild) hbelow)

/-- Sequences of different kinds at one position keep two values apart. -/
theorem eqBy_eq_false_of_kinds {a : Value σ} {b : Value τ} {position : List Nat}
    {kind kind' : SeqKind} {xs : List (Value σ)} {ys : List (Value τ)} (hne : kind ≠ kind')
    (h : a.at? position = some (.seq kind xs)) (h' : b.at? position = some (.seq kind' ys)) :
    a.eqBy feq b = false := by
  rw [← Bool.not_eq_true, eqBy_iff_at?]
  intro hagree
  have hnode := hagree position
  rw [h, h'] at hnode
  cases hnode with
  | some hheads =>
    cases hheads
    exact hne rfl

/-- Where one of two values is a null, they are equal exactly when both are the null of its kind. -/
theorem eqBy_iff_of_null {a : Value σ} {b : Value τ} {kind : Tag}
    (h : a = .scalar (.null kind) ∨ b = .scalar (.null kind)) :
    a.eqBy feq b = true ↔ a = .scalar (.null kind) ∧ b = .scalar (.null kind) := by
  rw [eqBy_iff_child?]
  constructor
  · rintro ⟨hheads, -⟩
    rcases h with rfl | rfl <;> cases hheads <;> exact ⟨rfl, rfl⟩
  · rintro ⟨rfl, rfl⟩
    exact ⟨.scalar fun x => nofun, fun _ => .none⟩

/-! ## Stamps -/

mutual

/-- Stamps are not compared. -/
theorem eqBy_unstamped (a : Value σ) (b : Value τ) :
    a.unstamped.eqBy feq b.unstamped = a.eqBy feq b := by
  cases a with
  | scalar payload => cases b <;> rfl
  | seq kind xs =>
    cases b with
    | seq kind' ys => simp only [unstamped, eqBy, eqElements_unstamped xs ys]
    | scalar | struct => rfl
  | struct stamp fields =>
    cases b with
    | struct stamp' others => exact eqFields_unstamped fields others
    | scalar | seq => rfl

theorem eqElements_unstamped (xs : List (Value σ)) (ys : List (Value τ)) :
    eqElements feq (unstampedElements xs) (unstampedElements ys) = eqElements feq xs ys := by
  cases xs with
  | nil => cases ys <;> rfl
  | cons x xs =>
    cases ys with
    | nil => rfl
    | cons y ys =>
      simp only [unstampedElements, eqElements, eqBy_unstamped x y, eqElements_unstamped xs ys]

theorem eqFields_unstamped (fields : Fields (Value σ)) (others : Fields (Value τ)) :
    eqFields feq (unstampedFields fields) (unstampedFields others) =
      eqFields feq fields others := by
  cases fields with
  | nil => cases others <;> rfl
  | cons field rest =>
    cases others with
    | nil => rfl
    | cons other rest' =>
      simp only [unstampedFields, eqFields, eqBy_unstamped field.2 other.2,
        eqFields_unstamped rest rest']

end

end Value

/-! ## Views -/

namespace View

/-- A view is compared with a value as the value that it wraps. -/
theorem eqValueBy_eq (view : View σ) (value : Value τ) :
    view.eqValueBy feq value = view.rawValue.eqBy feq value := by
  cases view <;> cases value <;> rfl

/-- Two views are compared as the values that they wrap. -/
theorem eqBy_eq (view : View σ) (other : View τ) :
    view.eqBy feq other = view.rawValue.eqBy feq other.rawValue := by
  cases view <;> cases other <;> rfl

/-- Where no float equals itself, the view of a float does not either. -/
example (x : Float) (policy : Policy) : (wrap policy (.scalar (.float x)) : View σ).eqBy
    (fun _ _ => false) (wrap policy (.scalar (.float x)) : View σ) = false :=
  rfl

end View

/-- What the comparisons of values and of views decide, when floats are compared by `feq`. -/
structure EqualityLaws (σ τ : Type) (feq : Float → Float → Bool) : Prop where
  /-- A value compares with another as its view does, and as their views do. -/
  view_value : ∀ (a : Value σ) (b : Value τ) policy,
    (wrap policy a).eqValueBy feq b = a.eqBy feq b
  views : ∀ (a : Value σ) (b : Value τ) policy policy',
    (wrap policy a).eqBy feq (wrap policy' b) = a.eqBy feq b
  /-- The same of views under any policy and with any table. -/
  anyView_value : ∀ (view : View σ) (b : Value τ),
    view.eqValueBy feq b = view.rawValue.eqBy feq b
  anyViews : ∀ (view : View σ) (other : View τ),
    view.eqBy feq other = view.rawValue.eqBy feq other.rawValue
  /-- Values of the same data compare alike, whatever their stamps. -/
  stamps : ∀ (a a' : Value σ) (b b' : Value τ), a.unstamped = a'.unstamped →
    b.unstamped = b'.unstamped → a.eqBy feq b = a'.eqBy feq b'
  /-- Two values are equal exactly when their nodes agree at every depth. -/
  nodes : ∀ (a : Value σ) (b : Value τ), a.eqBy feq b = true ↔
    ∀ position, Option.Rel (Value.HeadsAgree feq) (a.at? position) (b.at? position)
  /-- At no depth does a list equal an s-expression. -/
  kinds : ∀ (a : Value σ) (b : Value τ) position kind kind' xs ys, kind ≠ kind' →
    a.at? position = some (.seq kind xs) → b.at? position = some (.seq kind' ys) →
      a.eqBy feq b = false
  /-- A typed null equals the null of its kind and nothing else. -/
  nulls : ∀ (a : Value σ) (b : Value τ) kind,
    a = .scalar (.null kind) ∨ b = .scalar (.null kind) →
      (a.eqBy feq b = true ↔ a = .scalar (.null kind) ∧ b = .scalar (.null kind))
  /-- Structs are equal exactly when their fields are, in order. -/
  structs : ∀ stamp stamp' (fields : Fields (Value σ)) (others : Fields (Value τ)),
    (Value.struct stamp fields).eqBy feq (.struct stamp' others) = true ↔
      List.Forall₂ (fun field other => field.1 = other.1 ∧ field.2.eqBy feq other.2 = true)
        fields others

/-- Equality of views is equality of values. -/
theorem equalityLaws (σ τ : Type) (feq : Float → Float → Bool) : EqualityLaws σ τ feq where
  view_value a b policy := by rw [View.eqValueBy_eq, rawValue_wrap]
  views a b policy policy' := by rw [View.eqBy_eq, rawValue_wrap, rawValue_wrap]
  anyView_value := View.eqValueBy_eq
  anyViews := View.eqBy_eq
  stamps a a' b b' ha hb := by
    rw [← Value.eqBy_unstamped a b, ha, hb, Value.eqBy_unstamped]
  nodes _ _ := Value.eqBy_iff_at?
  kinds _ _ _ _ _ _ _ hne h h' := Value.eqBy_eq_false_of_kinds hne h h'
  nulls _ _ _ := Value.eqBy_iff_of_null
  structs _ _ _ _ := Value.eqFields_iff

end Caseless
