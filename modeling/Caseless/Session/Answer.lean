import Caseless.Readable

/-!
# Answers of a session

A session works through commands and answers each of them.  Answers are small documents: nothing, a
failure, a number, a word, a value, a list of answers or a record of them.

Main definitions:

- `Answer`: the documents;
- `Answer.ofHandle`, `ofOption`, `ofResult`: answers from what operations hand back;
- `Answer.typed`: the record of the typed accessors of a scalar;
- `replay`: the answers and states of a whole session.
-/

namespace Caseless

/-- What a command answers. -/
inductive Answer where
  | absent
  | failure (cause : Error)
  | flag (b : Bool)
  | count (n : Nat)
  | word (text : String)
  | int (n : Int64)
  | float (x : Float)
  | decimal (d : Decimal)
  | bytes (payload : ByteArray)
  | value (v : Value)
  | list (items : List Answer)
  | record (entries : List (String × Answer))

/-- The word for a policy. -/
def Name.Policy.word : Name.Policy → String
  | .firstWins => "first"
  | .preferExact => "exact"

namespace Answer

variable {α : Type}

/-- The answer of a command that hands nothing back. -/
def done : Answer :=
  .word "done"

/-- The answer where a scalar would have been written over, but a container is there. -/
def container : Answer :=
  .word "container"

/-- The word for a kind. -/
def ofTag (tag : Tag) : Answer :=
  .word tag.name

/-- The word for a policy. -/
def ofPolicy (policy : Name.Policy) : Answer :=
  .word policy.word

/-- Nothing, or the answer that something gives. -/
def ofOption (f : α → Answer) : Option α → Answer
  | some datum => f datum
  | none => .absent

/-- A failure, or the answer that a result gives. -/
def ofResult (f : α → Answer) : Except Error α → Answer
  | .ok datum => f datum
  | .error cause => .failure cause

/-- The value that a handle reads. -/
def ofHandle [Readable α] (handle : α) : Answer :=
  .value (Readable.rebuild handle)

/-- The values that handles read. -/
def ofHandles [Readable α] (handles : List α) : Answer :=
  .list (handles.map ofHandle)

/-- A name and the value that stands under it. -/
def ofField [Readable α] (field : String × α) : Answer :=
  .list [.word field.1, ofHandle field.2]

/-- Names with their values, in order. -/
def ofFields [Readable α] (fields : List (String × α)) : Answer :=
  .list (fields.map ofField)

/-- Names in order. -/
def ofNames (names : List String) : Answer :=
  .list (names.map .word)

/-- A draw from both ends: what was left before, and the item. -/
def ofDraws (f : α → Answer) (draws : List (Nat × Option α)) : Answer :=
  .list (draws.map fun draw => .list [.count draw.1, ofOption f draw.2])

/-- The counts from a number down to zero. -/
def countdown (n : Nat) : Answer :=
  .list ((List.range (n + 1)).reverse.map .count)

/-- The typed accessors of a payload, if there is one. -/
def typed (payload : Option Scalar) : List (String × Answer) :=
  [("bool", ofOption .flag (payload.bind Scalar.bool?)),
    ("int", ofOption .int (payload.bind Scalar.int?)),
    ("float", ofOption .float (payload.bind Scalar.float?)),
    ("decimal", ofOption .decimal (payload.bind Scalar.decimal?)),
    ("timestamp", ofOption .word (payload.bind Scalar.timestamp?)),
    ("text", ofOption .word (payload.bind Scalar.text?)),
    ("bytes", ofOption .bytes (payload.bind Scalar.bytes?))]

/-- The value of a payload, if there is one. -/
def ofPayload (payload : Option Scalar) : Answer :=
  ofOption (fun payload => .value (.scalar payload)) payload

end Answer

/-- The answer to each command of a session, and the state after it. -/
def replay {state command answer : Type} (step : state → command → answer × state) :
    state → List command → List (answer × state)
  | _, [] => []
  | start, command :: rest =>
    let (answer, next) := step start command
    (answer, next) :: replay step next rest

/-- Every command of a session is answered. -/
@[simp]
theorem length_replay {state command answer : Type} (step : state → command → answer × state)
    (start : state) (commands : List command) :
    (replay step start commands).length = commands.length := by
  induction commands generalizing start with
  | nil => rfl
  | cons command rest ih => simp [replay, ih]

end Caseless
