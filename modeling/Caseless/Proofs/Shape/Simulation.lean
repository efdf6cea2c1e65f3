import Caseless.Proofs.Shape.Outcome
import Caseless.Proofs.Shape.Parts
import Caseless.Shape.Decode
import Mathlib.Data.List.Forall2

/-!
# Decoding side by side

Two handles may be read side by side: one step of reading shows the same node on both sides, and
its children are again read side by side.  Decoding a shape then goes the same way on both sides, as
long as every declared field is found on both sides or the reading in which it is not fails.

The proof is an induction on the shape.  A record is decoded by what each of its fields is found as;
if the two sides find a field differently, one of them refuses the record, and that failure has to
be excused.

Main results:

- Definition `Simulation`: which handles are read side by side, and which names may stand for each
  other;
- Definition `Simulation.Binds`: what has to be known of a declared field;
- Theorem `Simulation.decode_agree`: decoding agrees on both sides.
-/

namespace Caseless

open Readable

/-! ## Nodes side by side -/

/-- Two nodes show the same, up to the names of fields and the children. -/
inductive Node.Alike {α β : Type} (names : String → String → Prop) (rel : α → β → Prop) :
    Node α → Node β → Prop where
  | scalar (payload : Scalar) : Alike names rel (.scalar payload) (.scalar payload)
  | seq (kind : SeqKind) {elements : List α} {others : List β}
    (h : List.Forall₂ rel elements others) : Alike names rel (.seq kind elements) (.seq kind others)
  | struct {entries : List (String × α)} {others : List (String × β)}
    (h : List.Forall₂ (fun entry other => names entry.1 other.1 ∧ rel entry.2 other.2) entries
      others) :
    Alike names rel (.struct entries) (.struct others)

/-- A node is alike to the node of what its children are mapped to. -/
theorem Node.alike_map {α β : Type} {rel : α → β → Prop} (f : α → β) {node : Node α}
    (h : ∀ child ∈ node.children, rel child (f child)) : Alike Eq rel node (node.map f) := by
  cases node with
  | scalar payload => exact .scalar payload
  | seq kind elements =>
    refine .seq kind (List.forall₂_map_right_iff.mpr (List.forall₂_same.mpr ?_))
    exact h
  | struct entries =>
    refine .struct (List.forall₂_map_right_iff.mpr (List.forall₂_same.mpr ?_))
    intro entry hmem
    exact ⟨rfl, h entry.2 (List.mem_map_of_mem hmem)⟩

theorem map_eq_of_forall₂ {α β γ : Type} {rel : α → β → Prop} {xs : List α} {ys : List β}
    (h : List.Forall₂ rel xs ys) {f : α → γ} {g : β → γ}
    (hsame : ∀ x ∈ xs, ∀ y, rel x y → f x = g y) : xs.map f = ys.map g := by
  induction h with
  | nil => rfl
  | cons hhead _ ih =>
    have htail := ih fun x hmem => hsame x (.tail _ hmem)
    rw [List.map_cons, List.map_cons, hsame _ List.mem_cons_self _ hhead, htail]

/-- Nodes with the same names are mapped to the same node if their children are. -/
theorem Node.Alike.map_eq {α β γ : Type} {names : String → String → Prop} {rel : α → β → Prop}
    {node : Node α} {other : Node β} (h : Alike names rel node other)
    (hnames : ∀ name name', names name name' → name = name') {f : α → γ} {g : β → γ}
    (hsame : ∀ x ∈ node.children, ∀ y, rel x y → f x = g y) : node.map f = other.map g := by
  cases h with
  | scalar payload => rfl
  | seq kind h => rw [Node.map, Node.map, map_eq_of_forall₂ h hsame]
  | struct h =>
    rw [Node.map, Node.map]
    congr 1
    refine map_eq_of_forall₂ h fun entry hmem other hother => ?_
    have hchild := hsame entry.2 (List.mem_map_of_mem hmem) other.2 hother.2
    rw [hnames _ _ hother.1, hchild]

/-! ## Declared fields -/

namespace Field

variable {α : Type} [Readable α]

/-- The children that a declared field is found as, one for each spelling that is found. -/
def foundIn (field : Field) (handle : α) : List α :=
  field.spellings.filterMap (find? handle)

/-- A record is refused because of a declared field: there must be one and there is none, or it is
found twice. -/
def RefusedIn (field : Field) (handle : α) : Prop :=
  (field.foundIn handle = [] ∧ field.absent? = none) ∨ 2 ≤ (field.foundIn handle).length

end Field

namespace Shape

variable {α : Type} [Readable α]

theorem decodeFound_cons (field : Field) (fields : List Field) (handle : α) :
    decodeFound (field :: fields) handle =
      (match field.foundIn handle with
      | [] => do
        let rest ← decodeFound fields handle
        return none :: rest
      | child :: others => do
        let datum ← field.shape.decode child
        if others.isEmpty then
          let rest ← decodeFound fields handle
          return some datum :: rest
        else .error (.duplicateField field.name)) := by
  cases field
  rfl

theorem exists_of_decodeFound_cons {handle : α} {field : Field} {fields : List Field}
    {data : List (Option Data)} (h : decodeFound (field :: fields) handle = .ok data) :
    ∃ datum? rest, data = datum? :: rest ∧ decodeFound fields handle = .ok rest ∧
      (field.foundIn handle = [] → datum? = none) ∧ (field.foundIn handle).length < 2 := by
  rw [decodeFound_cons] at h
  cases hfound : field.foundIn handle with
  | nil =>
    rw [hfound] at h
    rcases exists_of_bind_eq_ok h with ⟨rest, hrest, h⟩
    exact ⟨none, rest, (Except.ok.inj h).symm, hrest, by simp, by simp⟩
  | cons child others =>
    rw [hfound] at h
    rcases exists_of_bind_eq_ok h with ⟨datum, -, h⟩
    cases others with
    | nil =>
      rcases exists_of_bind_eq_ok h with ⟨rest, hrest, h⟩
      exact ⟨some datum, rest, (Except.ok.inj h).symm, hrest, by simp, by simp⟩
    | cons other others => contradiction

/-- A field that a record is refused for makes the reading fail, whatever else there is. -/
theorem exists_error_of_refusedIn {handle : α} {fields : List Field} {field : Field}
    (hmem : field ∈ fields) (h : field.RefusedIn handle) :
    ∃ failure, (decodeFound fields handle >>= completeFields fields) = .error failure := by
  cases hfound : decodeFound fields handle with
  | error failure => exact ⟨failure, rfl⟩
  | ok data =>
    change ∃ failure, completeFields fields data = .error failure
    induction fields generalizing data with
    | nil => contradiction
    | cons head rest ih =>
      rcases exists_of_decodeFound_cons hfound with ⟨datum?, others, rfl, hothers, hnone, hlength⟩
      rw [completeFields]
      rcases List.mem_cons.mp hmem with rfl | hmem
      · rcases h with ⟨hempty, habsent⟩ | htwice
        · simp [hnone hempty, habsent]
        · omega
      · rcases ih hmem others hothers with ⟨failure, hfailure⟩
        rw [hfailure]
        split
        · exact ⟨failure, rfl⟩
        · exact ⟨_, rfl⟩

end Shape

/-! ## Handles side by side -/

/-- Which handles are read side by side, and which names of fields may stand for each other there. -/
structure Simulation (α β : Type) [Readable α] [Readable β] where
  rel : α → β → Prop
  names : String → String → Prop
  alike : ∀ {a b}, rel a b → Node.Alike names rel (visit a) (visit b)

namespace Simulation

variable {α β : Type} [Readable α] [Readable β] (sim : Simulation α β) (left right : Prop)

/-- Only equal names stand for each other. -/
def KeepsNames : Prop :=
  ∀ name other, sim.names name other → name = other

/-- Two lists of entries with names that may stand for each other and children side by side. -/
def Entries : List (String × α) → List (String × β) → Prop :=
  List.Forall₂ fun entry other => sim.names entry.1 other.1 ∧ sim.rel entry.2 other.2

/-- A declared field is found as children side by side, or a side on which failures are excused
refuses the record because of it. -/
def Binds (field : Field) : Prop :=
  ∀ a b, sim.rel a b → List.Forall₂ sim.rel (field.foundIn a) (field.foundIn b) ∨
    left ∧ field.RefusedIn a ∨ right ∧ field.RefusedIn b

/-- Decoding a shape agrees on both sides. -/
def Decodes (shape : Shape) : Prop :=
  ∀ a b, sim.rel a b → Agree left right Eq (shape.decode a) (shape.decode b)

variable {sim left right} {a : α} {b : β}

theorem isNull_eq (h : sim.rel a b) : isNull a = isNull b := by
  have hnode := sim.alike h
  simp only [isNull, scalar?]
  generalize visit a = node, visit b = other at hnode
  cases hnode <;> rfl

theorem tag_eq (h : sim.rel a b) : tag a = tag b := by
  have hnode := sim.alike h
  simp only [tag]
  generalize visit a = node, visit b = other at hnode
  cases hnode <;> rfl

theorem decode_leaf (form : Leaf) (h : sim.rel a b) :
    form.decode (visit a) = form.decode (visit b) := by
  have hnode := sim.alike h
  generalize visit a = node, visit b = other at hnode
  cases hnode <;> rfl

/-- Where names are kept, a traversal gives the same on both sides. -/
theorem fold_eq {γ : Type} (hnames : sim.KeepsNames) (combine : Node γ → γ) (a : α) (b : β)
    (h : sim.rel a b) : fold combine a = fold combine b := by
  have ih : ∀ child ∈ (visit a).children, ∀ other, sim.rel child other →
      fold combine child = fold combine other := by
    intro child hmem other hother
    exact fold_eq hnames combine child other hother
  rw [Readable.fold_eq, Readable.fold_eq combine b, (sim.alike h).map_eq hnames ih]
termination_by nodes a
decreasing_by exact nodes_lt hmem

/-- Where names are kept, the same value is copied. -/
theorem copied_eq (hnames : sim.KeepsNames) (h : sim.rel a b) : copied a = copied b := by
  have hoffered : offered a = offered b := fold_eq hnames _ a b h
  rw [copied, copied, copy, copy, hoffered]

/-! ### Sequences -/

theorem agree_withElements {γ : Type} {expected : String} {f : List α → Except Error γ}
    {g : List β → Except Error γ} (h : sim.rel a b)
    (hread : ∀ xs ys, List.Forall₂ sim.rel xs ys → Agree left right Eq (f xs) (g ys)) :
    Agree left right Eq (withElements a expected f) (withElements b expected g) := by
  have hnode := sim.alike h
  simp only [withElements]
  generalize visit a = node, visit b = other at hnode
  cases hnode with
  | scalar payload => exact .refl _
  | seq kind helements => exact hread _ _ helements
  | struct hentries => exact .refl _

theorem agree_mapM {element : Shape} (helement : sim.Decodes left right element) {xs : List α}
    {ys : List β} (h : List.Forall₂ sim.rel xs ys) :
    Agree left right Eq (xs.mapM element.decode) (ys.mapM element.decode) := by
  induction h with
  | nil => exact .refl _
  | cons hhead _ ih =>
    rw [List.mapM_cons, List.mapM_cons]
    refine (helement _ _ hhead).bind_eq fun datum => ?_
    refine ih.bind_eq fun rest => ?_
    exact .refl _

theorem agree_decodeElements {form : TupleForm} {size index : Nat} {shapes : List Shape}
    (hshapes : ∀ shape ∈ shapes, sim.Decodes left right shape) {xs : List α} {ys : List β}
    (h : List.Forall₂ sim.rel xs ys) :
    Agree left right Eq (Shape.decodeElements form size index shapes xs)
      (Shape.decodeElements form size index shapes ys) := by
  induction shapes generalizing xs ys index with
  | nil => cases h <;> exact .refl _
  | cons shape shapes ih =>
    cases h with
    | nil => exact .refl _
    | cons hhead hrest =>
      refine (hshapes shape List.mem_cons_self _ _ hhead).bind_eq fun datum => ?_
      refine (ih (fun other hmem => hshapes other (.tail _ hmem)) hrest).bind_eq fun rest => ?_
      exact .refl _

/-! ### Entries in stored order -/

theorem agree_withEntries {γ : Type} {expected : String} {f : List (String × α) → Except Error γ}
    {g : List (String × β) → Except Error γ} (h : sim.rel a b)
    (hread : ∀ xs ys, sim.Entries xs ys → Agree left right Eq (f xs) (g ys)) :
    Agree left right Eq (withEntries a expected f) (withEntries b expected g) := by
  have hnode := sim.alike h
  simp only [withEntries]
  generalize visit a = node, visit b = other at hnode
  cases hnode with
  | scalar payload => exact .refl _
  | seq kind helements => exact .refl _
  | struct hentries => exact hread _ _ hentries

theorem agree_decodeEntries (hnames : sim.KeepsNames) {key : KeyShape} {f : α → Except Error Data}
    {g : β → Except Error Data} (hentry : ∀ a b, sim.rel a b → Agree left right Eq (f a) (g b))
    {xs : List (String × α)} {ys : List (String × β)} (h : sim.Entries xs ys)
    (sorted : List (String × Data × Data)) :
    Agree left right Eq (decodeEntries key f sorted xs) (decodeEntries key g sorted ys) := by
  induction h generalizing sorted with
  | nil => exact .refl _
  | @cons x y _ _ hhead _ ih =>
    rcases x with ⟨name, child⟩
    rcases y with ⟨name', child'⟩
    obtain rfl : name = name' := hnames _ _ hhead.1
    refine (Agree.refl (key.read name)).bind_eq fun keyDatum => ?_
    refine (hentry _ _ hhead.2).bind_eq fun datum => ?_
    exact ih _

theorem agree_decodeDeclared {fields : List Field}
    (hfields : ∀ field ∈ fields, sim.Decodes left right field.shape) (h : sim.rel a b)
    (query : String) :
    Option.Rel (fun taken other => taken.1 = other.1 ∧ Agree left right Eq taken.2 other.2)
      (Shape.decodeDeclared fields query a) (Shape.decodeDeclared fields query b) := by
  induction fields with
  | nil => exact .none
  | cons field fields ih =>
    have hfirst := hfields field List.mem_cons_self
    rcases field with ⟨name, spellings, shape, fallback⟩
    rw [Shape.decodeDeclared, Shape.decodeDeclared]
    split
    · exact .some ⟨rfl, hfirst _ _ h⟩
    · exact ih fun other hmem => hfields other (.tail _ hmem)

/-- The same fields are found so far, and the rest is side by side. -/
def StatesAlike (sim : Simulation α β) (state : FlatState α) (other : FlatState β) : Prop :=
  state.found = other.found ∧ sim.Entries state.rest other.rest

theorem agree_readFlat (hnames : sim.KeepsNames) {fields : List Field}
    (hfields : ∀ field ∈ fields, sim.Decodes left right field.shape) {xs : List (String × α)}
    {ys : List (String × β)} (h : sim.Entries xs ys) {state : FlatState α} {other : FlatState β}
    (hstate : sim.StatesAlike state other) :
    Agree left right sim.StatesAlike (readFlat (Shape.decodeDeclared fields) state xs)
      (readFlat (Shape.decodeDeclared fields) other ys) := by
  induction h generalizing state other with
  | nil => exact .ok hstate
  | @cons x y _ _ hhead _ ih =>
    rcases x with ⟨name, child⟩
    rcases y with ⟨name', child'⟩
    rcases hhead with ⟨hname, hchild⟩
    obtain rfl : name = name' := hnames _ _ hname
    rcases hstate with ⟨hfound, hrest⟩
    have hdeclared := agree_decodeDeclared hfields hchild name
    rw [readFlat, readFlat, hfound]
    generalize Shape.decodeDeclared fields name child = result,
      Shape.decodeDeclared fields name child' = result' at hdeclared
    cases hdeclared with
    | none =>
      have hlast : sim.Entries [(name, child)] [(name, child')] := .cons ⟨hname, hchild⟩ .nil
      exact ih ⟨rfl, List.rel_append hrest hlast⟩
    | @some taken other htaken =>
      rcases taken with ⟨field, result⟩
      rcases other with ⟨field', result'⟩
      rcases htaken with ⟨rfl, hresult⟩
      dsimp only
      split
      · exact .error _
      · refine hresult.bind_eq fun datum => ?_
        exact ih ⟨rfl, hrest⟩

/-! ### Records -/

theorem agree_decodeFound {fields : List Field}
    (hfields : ∀ field ∈ fields, sim.Decodes left right field.shape)
    (hfound : ∀ field ∈ fields, List.Forall₂ sim.rel (field.foundIn a) (field.foundIn b)) :
    Agree left right Eq (Shape.decodeFound fields a) (Shape.decodeFound fields b) := by
  induction fields with
  | nil => exact .refl _
  | cons field fields ih =>
    have hfirst := hfound field List.mem_cons_self
    have hrest := ih (fun other hmem => hfields other (.tail _ hmem))
      fun other hmem => hfound other (.tail _ hmem)
    rw [Shape.decodeFound_cons, Shape.decodeFound_cons]
    generalize field.foundIn a = xs, field.foundIn b = ys at hfirst
    cases hfirst with
    | nil =>
      refine hrest.bind_eq fun rest => ?_
      exact .refl _
    | cons hchild hothers =>
      refine (hfields field List.mem_cons_self _ _ hchild).bind_eq fun datum => ?_
      cases hothers with
      | nil =>
        refine hrest.bind_eq fun rest => ?_
        exact .refl _
      | cons => exact .refl _

theorem agree_withRecord {fields : List Field}
    (hfields : ∀ field ∈ fields, sim.Decodes left right field.shape)
    (hbinds : ∀ field ∈ fields, sim.Binds left right field) (h : sim.rel a b) :
    Agree left right Eq (withRecord a fields (Shape.decodeFound fields a))
      (withRecord b fields (Shape.decodeFound fields b)) := by
  have hnode := sim.alike h
  simp only [withRecord]
  generalize visit a = node, visit b = other at hnode
  cases hnode with
  | scalar payload => exact .refl _
  | seq kind helements => exact .refl _
  | struct hentries =>
    by_cases hall : ∀ field ∈ fields, List.Forall₂ sim.rel (field.foundIn a) (field.foundIn b)
    · exact (agree_decodeFound hfields hall).bind_eq fun data => .refl _
    · -- Some field is found differently, so the record is refused on an excused side.
      push Not at hall
      rcases hall with ⟨field, hmem, hdiffer⟩
      rcases hbinds field hmem a b h with hfound | ⟨hleft, hrefused⟩ | ⟨hright, hrefused⟩
      · exact absurd hfound hdiffer
      · rcases Shape.exists_error_of_refusedIn hmem hrefused with ⟨failure, hfailure⟩
        dsimp only
        rw [hfailure]
        exact .excusedLeft hleft failure _
      · rcases Shape.exists_error_of_refusedIn hmem hrefused with ⟨failure, hfailure⟩
        dsimp only
        rw [hfailure]
        exact .excusedRight hright _ failure

/-! ### Variants -/

theorem agree_decodePayload {family name : String} {payload : Payload}
    (hparts : ∀ part ∈ payload.parts, sim.Decodes left right part)
    (hbinds : ∀ field ∈ payload.boundFields, sim.Binds left right field) (h : sim.rel a b) :
    Agree left right Eq (Shape.decodePayload family name payload a)
      (Shape.decodePayload family name payload b) := by
  cases payload with
  | unit =>
    rw [Shape.decodePayload, Shape.decodePayload, isNull_eq h, tag_eq h]
    exact .refl _
  | newtype inner => exact (hparts inner List.mem_cons_self _ _ h).map_eq _
  | tuple shapes =>
    refine agree_withElements h fun xs ys hchildren => ?_
    exact (agree_decodeElements hparts hchildren).map_eq _
  | record fields =>
    have hfields : ∀ field ∈ fields, sim.Decodes left right field.shape := by
      intro field hmem
      exact hparts _ (List.mem_map_of_mem hmem)
    exact (agree_withRecord hfields hbinds h).map_eq _

theorem agree_decodeVariant {family query : String} {variants : List (String × Payload)}
    (hparts : ∀ variant ∈ variants, ∀ part ∈ variant.2.parts, sim.Decodes left right part)
    (hbinds : ∀ variant ∈ variants, ∀ field ∈ variant.2.boundFields, sim.Binds left right field)
    (h : sim.rel a b) :
    Agree left right Eq (Shape.decodeVariant family variants query a)
      (Shape.decodeVariant family variants query b) := by
  induction variants with
  | nil => exact .refl _
  | cons variant rest ih =>
    rcases variant with ⟨name, payload⟩
    rw [Shape.decodeVariant, Shape.decodeVariant]
    split
    · exact agree_decodePayload (hparts _ List.mem_cons_self) (hbinds _ List.mem_cons_self) h
    · exact ih (fun other hmem => hparts other (.tail _ hmem))
        fun other hmem => hbinds other (.tail _ hmem)

/-! ## Decoding -/

/-- Decoding a shape agrees on both sides, if names are kept wherever the shape takes them as they
are stored, and each of its declared fields is found on both sides or refuses the record. -/
theorem decode_agree {shape : Shape}
    (hshape : shape.Everywhere fun part => (part.readsNames = true → sim.KeepsNames) ∧
      ∀ field ∈ part.boundFields, sim.Binds left right field) : sim.Decodes left right shape := by
  -- By induction on what the shape is made of.  What a part needs of the names is needed where the
  -- part takes them as they are stored, and nowhere else.
  induction hshape with
  | @intro shape here _ ih =>
    rcases here with ⟨hnames, hbinds⟩
    intro a b h
    cases shape with
    | leaf form => exact .of_eq (decode_leaf form h)
    | value => exact .of_eq (copied_eq (hnames rfl) h)
    | ignored => exact .refl _
    | option present =>
      rw [Shape.decode, Shape.decode, isNull_eq h]
      split
      · exact .refl _
      · exact (ih present List.mem_cons_self _ _ h).map_eq _
    | seq element =>
      refine agree_withElements h fun xs ys hchildren => ?_
      exact (agree_mapM (ih element List.mem_cons_self) hchildren).bind_eq fun data => .refl _
    | tuple form shapes =>
      refine agree_withElements h fun xs ys hchildren => ?_
      exact (agree_decodeElements ih hchildren).map_eq _
    | map key entry =>
      refine agree_withEntries h fun xs ys hentries => ?_
      exact (agree_decodeEntries (hnames rfl) (ih entry List.mem_cons_self) hentries []).map_eq _
    | newtype inner => exact (ih inner List.mem_cons_self _ _ h).map_eq _
    | record fields =>
      have hfields : ∀ field ∈ fields, sim.Decodes left right field.shape := by
        intro field hmem
        exact ih _ (List.mem_map_of_mem hmem)
      exact (agree_withRecord hfields hbinds h).map_eq _
    | flat name fields =>
      have hfields : ∀ field ∈ fields, sim.Decodes left right field.shape := by
        intro field hmem
        exact ih _ (List.mem_map_of_mem hmem)
      have hstart : sim.StatesAlike ⟨[], []⟩ ⟨[], []⟩ := ⟨rfl, .nil⟩
      refine agree_withEntries h fun xs ys hentries => ?_
      refine (agree_readFlat (hnames rfl) hfields hentries hstart).bind ?_
      rintro state other ⟨hfound, hrest⟩
      rw [hfound]
      refine (Agree.refl _).bind_eq fun declared => ?_
      have hkept : ∀ a b, sim.rel a b → Agree left right Eq (copied a) (copied b) :=
        fun _ _ hchild => .of_eq (copied_eq (hnames rfl) hchild)
      exact (agree_decodeEntries (hnames rfl) hkept hrest []).bind_eq fun sorted => .refl _
    | enum name variants =>
      have hnode := sim.alike h
      rw [Shape.decode, Shape.decode]
      generalize visit a = node, visit b = other at hnode
      cases hnode with
      | scalar payload => exact .refl _
      | seq kind helements => exact .refl _
      | struct hentries =>
        cases hentries with
        | nil => exact .refl _
        | @cons x y _ _ hhead hrest =>
          cases hrest with
          | cons => exact .refl _
          | nil =>
            rcases x with ⟨variant, child⟩
            rcases y with ⟨variant', child'⟩
            obtain rfl : variant = variant' := hnames rfl _ _ hhead.1
            refine agree_decodeVariant (fun variant hmem part hpart => ?_)
              (fun variant hmem field hfield => ?_) hhead.2
            · exact ih part (List.mem_flatMap.mpr ⟨variant, hmem, hpart⟩)
            · exact hbinds field (List.mem_flatMap.mpr ⟨variant, hmem, hfield⟩)

end Simulation
end Caseless
