import Caseless.Data.Encode
import Caseless.Inspect
import Caseless.Json.Writer
import Caseless.Session.Answer
import Caseless.Session.Pick

/-!
# Galleries of views

A gallery holds values that do not change, and shared views of them in numbered slots.  A command
asks a view, or makes another view and hangs it in the next slot.  The name table of a struct view
stays with its slot: lookups build and use it, and copies and children start without one.

Main definitions:

- `Gallery`: the values and the slots;
- `GalleryCommand`: making and asking;
- `GalleryCommand.step`: the answer, the tables built, and the gallery after it.
-/

namespace Caseless

open Name

/-- Values, and views of them. -/
structure Gallery where
  roots : List Value
  slots : List View

/-- A command on a gallery.  A slot is named by its number. -/
inductive GalleryCommand where
  /-- A view of a root. -/
  | wrapRoot (root : Nat) (policy : Policy)
  /-- A view of a root that need not be there. -/
  | wrapOption (root : Option Nat)
  /-- A view of a root's elements as a sequence of a given kind. -/
  | viewList (root : Nat) (kind : SeqKind)
  /-- A view of a root that is a struct. -/
  | viewStruct (root : Nat)
  /-- A copy of a view. -/
  | copy (slot : Nat)
  /-- A copy of a view under another policy. -/
  | withPolicy (slot : Nat) (policy : Policy)
  /-- The child at a key. -/
  | get (slot : Nat) (key : Key)
  /-- The field that a name leads to. -/
  | field (slot : Nat) (name : String)
  /-- The child with an index, in order of enumeration. -/
  | nth (slot : Nat) (index : Nat)
  /-- Every field that a name matches. -/
  | all (slot : Nat) (name : String)
  /-- The stored spelling of a name, and whether there is one. -/
  | resolve (slot : Nat) (name : String)
  | names (slot : Nat)
  | fresh (slot : Nat)
  | pick (slot : Nat) (pattern : List RowEnd)
  /-- The kind of each element, and whether it is wrapped. -/
  | children (slot : Nat)
  | info (slot : Nat)
  | equals (slot other : Nat)
  | equalsRoot (slot root : Nat)
  | rawValue (slot : Nat)
  | inspect (slot : Nat)
  | json (slot : Nat)
  /-- The value that the view writes. -/
  | toValue (slot : Nat)

namespace Gallery

/-- Hangs a view, if there is one, in the next slot. -/
def hang (gallery : Gallery) : Option View → Answer × Gallery
  | some view =>
    (.record [("slot", .count gallery.slots.length), ("tag", .ofTag view.tag)],
      { gallery with slots := gallery.slots ++ [view] })
  | none => (.absent, gallery)

/-- Looks up names in the struct view in a slot, if there is one: the tables built, and the gallery
with the table in place. -/
def consult (gallery : Gallery) (slot : Nat) : List BuildEvent × Gallery :=
  match gallery.slots[slot]? with
  | some (.struct view) =>
    (view.pending.toList, { gallery with slots := gallery.slots.set slot (.struct view.warm) })
  | _ => ([], gallery)

/-- The struct view in a slot. -/
def struct? (gallery : Gallery) (slot : Nat) : Option StructView :=
  gallery.slots[slot]?.bind View.struct?

/-- The list view in a slot. -/
def list? (gallery : Gallery) (slot : Nat) : Option ListView :=
  gallery.slots[slot]?.bind View.list?

/-- What a view tells about itself. -/
def info (view : View) : Answer :=
  let list (list : ListView) : Answer :=
    .list [.ofTag list.kind.tag, .ofPolicy list.policy, .count list.size,
      .flag list.elements.isEmpty, .ofHandles list.elements]
  let struct (struct : StructView) : Answer :=
    .list [.ofPolicy struct.policy, .count struct.size, .flag struct.record.fields.isEmpty,
      .flag struct.isFresh, .ofFields struct.record.fields]
  .record <|
    [("tag", .ofTag view.tag), ("null", .flag view.isNull), ("decorated", .flag view.isDecorated),
      ("scalar", .ofPayload view.scalar?)] ++
    Answer.typed view.scalar? ++
    [("list", .ofOption list view.list?), ("struct", .ofOption struct view.struct?),
      ("was_struct", .flag view.struct?.isSome)]

end Gallery

namespace GalleryCommand

/-- The answer to a command, the tables that it builds, and the gallery after it. -/
def step (gallery : Gallery) (command : GalleryCommand) : Answer × List BuildEvent × Gallery :=
  let hang (view : Option View) : Answer × List BuildEvent × Gallery :=
    let (answer, gallery) := gallery.hang view
    (answer, [], gallery)
  /- Hangs the outcome of a lookup in a slot. -/
  let hangFound (slot : Nat) (view : Option View) : Answer × List BuildEvent × Gallery :=
    let (builds, gallery) := gallery.consult slot
    let (answer, gallery) := gallery.hang view
    (answer, builds, gallery)
  let ask (answer : Answer) : Answer × List BuildEvent × Gallery := (answer, [], gallery)
  let lookup (slot : Nat) (answer : Answer) : Answer × List BuildEvent × Gallery :=
    let (builds, gallery) := gallery.consult slot
    (answer, builds, gallery)
  let askView (slot : Nat) (f : View → Answer) := ask (.ofOption f gallery.slots[slot]?)
  match command with
  | .wrapRoot root policy => hang (gallery.roots[root]?.map (wrap policy))
  | .wrapOption root =>
    hang ((root.bind fun root => gallery.roots[root]?).map (wrap Policy.firstWins))
  | .viewList root kind =>
    hang <| (gallery.roots[root]?.bind Value.elements?).map fun elements =>
      .list ⟨kind, .firstWins, elements⟩
  | .viewStruct root =>
    hang <| (gallery.roots[root]?.bind Value.fields?).map fun fields =>
      .struct (.new ⟨(), fields⟩ .firstWins)
  | .copy slot => hang (gallery.slots[slot]?.map View.fork)
  | .withPolicy slot policy =>
    hang (gallery.slots[slot]?.map fun view => view.fork.withPolicy policy)
  | .get slot key =>
    match gallery.slots[slot]?, key with
    | some (.struct view), .name name => hangFound slot (view.get? name)
    | some view, key =>
      match view.get key with
      | .ok child => hang child
      | .error failure => ask (.failure failure)
    | none, _ => ask .absent
  | .field slot name => hangFound slot ((gallery.struct? slot).bind fun view => view.get? name)
  | .nth slot index => hang (gallery.slots[slot]?.bind fun view => view.visit.children[index]?)
  | .all slot name =>
    let tell (view : StructView) : Answer :=
      .list [.count (view.countAll name), .ofHandles (view.getAll name)]
    lookup slot (.ofOption tell (gallery.struct? slot))
  | .resolve slot name =>
    let tell (view : StructView) : Answer :=
      .list [.ofOption .word (view.resolve? name), .flag (view.contains name)]
    lookup slot (.ofOption tell (gallery.struct? slot))
  | .names slot => ask (.ofOption (fun view => .ofNames view.names) (gallery.struct? slot))
  | .fresh slot => ask (.ofOption (fun view => .flag view.isFresh) (gallery.struct? slot))
  | .pick slot pattern =>
    askView slot fun view =>
      match view with
      | .scalar _ => .absent
      | .list view => .ofDraws .ofHandle (RowEnd.pick pattern view.children)
      | .struct view => .ofDraws .ofField (RowEnd.pick pattern view.entries)
  | .children slot =>
    ask <| .ofOption (fun view => .list <| view.children.map fun child =>
      .list [.ofTag child.tag, .flag child.isDecorated]) (gallery.list? slot)
  | .info slot => askView slot Gallery.info
  | .equals slot other =>
    askView slot fun view => .ofOption (fun other => .flag (view == other)) gallery.slots[other]?
  | .equalsRoot slot root =>
    askView slot fun view =>
      .ofOption (fun value => .flag (view.eqValueBy (· == ·) value)) gallery.roots[root]?
  | .rawValue slot => askView slot fun view => .value view.rawValue
  | .inspect slot => askView slot fun view => .word (Readable.inspect view).line
  | .json slot => askView slot fun view => .word (Json.text view)
  | .toValue slot => askView slot fun view => .ofResult .value (Data.ofHandle view).encode

/-- What a session shows of a command. -/
structure Reply where
  answer : Answer
  /-- The tables that were built. -/
  builds : List BuildEvent

/-- The reply to a command, and the gallery after it. -/
def reply (gallery : Gallery) (command : GalleryCommand) : Reply × Gallery :=
  let (answer, builds, next) := step gallery command
  (⟨answer, builds⟩, next)

end GalleryCommand
end Caseless
