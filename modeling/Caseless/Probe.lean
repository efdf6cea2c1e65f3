import Caseless.Shape.Decode

/-!
# Probes

A probe asks a handle for data of some form and records what is presented in answer: which form, and
for sequences and maps how many children are said to be left after each one.  Probes are built like
shapes, but they take whatever comes.

Main definitions:

- `Hint`, `Probe`: the form that is asked for, and how children, keys and variants are asked;
- `Report`: what was presented;
- `Readable.report`: what a handle presents when nothing particular is asked for;
- `Probe.run`: what a handle presents to a probe.
-/

namespace Caseless

/-- How the data of a variant are asked for. -/
inductive VariantForm where
  | unit
  | newtype
  | tuple
  | struct (fields : List String)

/-- The form that is asked for. -/
inductive Hint where
  /-- Any form; most particular forms are answered like this one. -/
  | any
  /-- A float, for which a decimal presents itself as one. -/
  | float
  | option
  | newtype
  | struct (fields : List String)
  | enum (variant : VariantForm)
  | ignored

/-- Ways of reading a map out of turn. -/
inductive Misuse where
  /-- The first value is asked for before any key. -/
  | valueFirst
  /-- A second value is asked for after the first entry. -/
  | valueTwice
  /-- Keys are read without their values. -/
  | skipValues
  deriving DecidableEq

/-- What to ask for, of the handle and of what it holds.  Where nothing is said of children or of
names, they are asked for any form. -/
inductive Probe where
  | mk (hint : Hint) (child name : Option Probe) (take : Option Nat) (misuse : Option Misuse)

/-- What was presented.  A count is the number of children said to be left, if it is said. -/
inductive Report where
  | bool (b : Bool)
  | int (n : Int64)
  | float (x : Float)
  /-- Text lent by the value. -/
  | lentText (s : String)
  /-- Text shown for a moment. -/
  | text (s : String)
  /-- Text made for the reader. -/
  | ownText (s : String)
  | lentBytes (payload : ByteArray)
  | unit
  | none
  | some (inner : Report)
  | newtype (inner : Report)
  | seq (elements : List Report) (counts : List (Option Nat))
  | map (entries : List (Report × Report)) (counts : List (Option Nat))
  /-- The keys of a map whose values were skipped. -/
  | keys (names : List Report) (counts : List (Option Nat))
  | enum (name : Report) (data : Option Report)

/-- The counts said before the first child and after each of `taken` children. -/
def countsFrom (total : Option Nat) (taken : Nat) : List (Option Nat) :=
  (List.range (taken + 1)).map fun passed => total.map (· - passed)

/-! ### Any form -/

/-- How a scalar presents itself. -/
def Scalar.report : Scalar → Report
  | .null _ => .unit
  | .bool b => .bool b
  | .int n => .int n
  | .float x => .float x
  | .decimal d => .ownText d.text
  | .timestamp s | .symbol s | .string s => .lentText s
  | .clob payload | .blob payload => .lentBytes payload

/-- How a node presents itself, all of its children included. -/
def Node.report : Node Report → Report
  | .scalar payload => payload.report
  | .seq _ elements => .seq elements (countsFrom (some elements.length) elements.length)
  | .struct fields =>
    .map (fields.map fun field => (.lentText field.1, field.2))
      (countsFrom (some fields.length) fields.length)

/-- How a handle presents itself when any form is asked for at every level. -/
def Readable.report {α : Type} [Readable α] (handle : α) : Report :=
  fold Node.report handle

/-! ### Reading what is presented -/

/-- How the content of a handle is read: its children, its names, how many of them, and whether out
of turn. -/
structure Reading (α : Type) where
  child : α → Except Error Report
  name : (String → Report) → String → Except Error Report
  take : Option Nat
  misuse : Option Misuse

namespace Reading

variable {α : Type}

/-- The first children, as many as are read. -/
def limit {β : Type} (reading : Reading α) (children : List β) : List β :=
  match reading.take with
  | some count => children.take count
  | none => children

/-- Reads a sequence. -/
def readSeq (reading : Reading α) (elements : List α) : Except Error Report := do
  let reports ← (reading.limit elements).mapM reading.child
  return .seq reports (countsFrom (some elements.length) reports.length)

/-- Reads one entry of a map: its key, then its value. -/
def readEntry (reading : Reading α) (form : String → Report) (entry : String × α) :
    Except Error (Report × Report) := do
  let key ← reading.name form entry.1
  let value ← reading.child entry.2
  return (key, value)

/-- Reads a map whose keys present themselves by `form` and whose length, if it is said, is
`total`. -/
def readMap (reading : Reading α) (form : String → Report) (total : Option Nat)
    (entries : List (String × α)) : Except Error Report :=
  match reading.misuse with
  | some .valueFirst => .error .valueNotPending
  | some .skipValues => do
    let names ← (reading.limit entries).mapM fun entry => reading.name form entry.1
    return .keys names (countsFrom total 0)
  | some .valueTwice =>
    match reading.limit entries with
    | entry :: _ => do
      let _ ← reading.readEntry form entry
      .error .valueNotPending
    | [] => .ok (.map [] (countsFrom total 0))
  | none => do
    let reports ← (reading.limit entries).mapM (reading.readEntry form)
    return .map reports (countsFrom total reports.length)

/-- Reads a node as it presents itself. -/
def readNode (reading : Reading α) : Node α → Except Error Report
  | .scalar payload => .ok payload.report
  | .seq _ elements => reading.readSeq elements
  | .struct entries => reading.readMap .lentText (some entries.length) entries

/-- Reads the declared fields of a struct that the handle finds, under their declared names. -/
def readStruct [Readable α] (reading : Reading α) (fields : List String) (handle : α) :
    Except Error Report :=
  match Readable.visit handle with
  | .struct _ =>
    reading.readMap .text none <| fields.filterMap fun name =>
      (Readable.find? handle name).map fun child => (name, child)
  | node => .error (.typeMismatch "struct" node.tag)

/-- Reads any form at every level. -/
def all [Readable α] : Reading α where
  child handle := .ok (Readable.report handle)
  name form text := .ok (form text)
  take := none
  misuse := none

end Reading

/-! ### Probes -/

/-- The data of a variant that text names: there are none, and only a variant without data may be
asked for. -/
def VariantForm.ofText : VariantForm → Except Error (Option Report)
  | .unit => .ok none
  | .newtype => .error (.invalidType .unitVariant "newtype variant")
  | .tuple => .error (.invalidType .unitVariant "tuple variant")
  | .struct _ => .error (.invalidType .unitVariant "struct variant")

namespace Probe

/-- Asks a name that presents itself by `form`.  Text is text whatever is asked for, except that it
can name a variant. -/
def askName (form : String → Report) : Option Probe → String → Except Error Report
  | some (.mk (.enum variant) _ name _ _), text => do
    let report ← askName form name text
    let data ← variant.ofText
    return .enum report data
  | _, text => .ok (form text)

variable {α : Type} [Readable α]

mutual

/-- What a handle presents to a probe. -/
def run : Probe → α → Except Error Report
  | .mk hint child name take misuse, handle =>
    let reading : Reading α := ⟨runOption child, fun form => askName form name, take, misuse⟩
    match hint with
    | .any => reading.readNode (Readable.visit handle)
    | .float =>
      match Readable.visit handle with
      | .scalar (.decimal d) => .ok (.float d.toFloat)
      | node => reading.readNode node
    | .option =>
      if Readable.isNull handle then .ok .none else (runOption child handle).map .some
    | .newtype => (runOption child handle).map .newtype
    | .struct fields => reading.readStruct fields handle
    | .enum variant =>
      match Readable.visit handle with
      | .scalar payload =>
        match payload.text? with
        | some text => do
          let report ← askName .lentText name text
          let data ← variant.ofText
          return .enum report data
        | none => .error (.typeMismatch "enum" payload.tag)
      | .struct [(text, content)] => do
        let report ← askName .lentText name text
        match variant with
        | .unit =>
          if Readable.isNull content then return .enum report none
          else .error (.typeMismatch "null" (Readable.tag content))
        | .newtype => (runOption child content).map fun data => .enum report (some data)
        | .tuple =>
          ((readingOf child).readNode (Readable.visit content)).map fun data =>
            .enum report (some data)
        | .struct fields =>
          ((readingOf child).readStruct fields content).map fun data =>
            .enum report (some data)
      | node => .error (.typeMismatch "enum" node.tag)
    | .ignored => .ok .unit

/-- What a handle presents to a probe, or to none. -/
def runOption : Option Probe → α → Except Error Report
  | some probe, handle => run probe handle
  | none, handle => .ok (Readable.report handle)

/-- How a probe reads content that was asked for in another way. -/
def readingOf : Option Probe → Reading α
  | some (.mk _ child name take misuse) =>
    ⟨runOption child, fun form => askName form name, take, misuse⟩
  | none => .all

end

end Probe
end Caseless
