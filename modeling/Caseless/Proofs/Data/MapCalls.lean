import Caseless.Data.Encode
import Caseless.Proofs.Shape.Outcome
import Mathlib.Data.List.Forall2

/-!
# Keys and values given one by one

A map may be written by keys and values in any succession.  A key waits for its value, and another
key takes its place; a value uses up the key that waits.  So the calls fall into rounds: each value
together with the keys given since the value before it, and at the end the keys that are left.  The
last key of a round names the field that the round makes.

The invariant of a run is that the fields so far are made by the rounds so far, and that the key
that waits is the last one given since then.

Main definitions:

- `MapBuilder.take`, `MapBuilder.run` and `MapBuilder.pressOn`: a call, calls up to the first that
  fails, and calls whose failures are passed over;
- `MapRound`, `rounds` and `keysLeft`: the calls taken apart at the values.

Main results:

- Theorem `calls_rounds`: every succession of calls is made of its rounds and the keys that are left;
- Theorem `MapBuilder.run_of_keyed`: the invariant of a run;
- Theorem `MapBuilder.pressOn_filter_isRefused`: a key that is refused leaves no trace;
- Theorem `Data.encode_map_eq_mapSteps`: a map written entry by entry;
- Theorem `Data.mapSteps_by_rounds`: what a succession of calls makes, and which call fails.
-/

namespace Caseless

/-! ## Calls -/

namespace MapBuilder

/-- What a call does to a map under construction. -/
def take (builder : MapBuilder) : MapStep Data → Except Error Unit × MapBuilder
  | .key datum => builder.giveKey datum.key
  | .value datum => builder.giveValue datum.encode

/-- Calls in turn, up to the first that fails. -/
def run (builder : MapBuilder) : List (MapStep Data) → Except Error MapBuilder
  | [] => .ok builder
  | call :: rest =>
    match builder.take call with
    | (.ok (), next) => next.run rest
    | (.error failure, _) => .error failure

/-- Calls in turn by a program that goes on after a failure. -/
def pressOn (builder : MapBuilder) : List (MapStep Data) → MapBuilder
  | [] => builder
  | call :: rest => (builder.take call).2.pressOn rest

theorem encodeSteps_eq_run (builder : MapBuilder) (calls : List (MapStep Data)) :
    Data.encodeSteps builder calls = (builder.run calls).map finish := by
  induction calls generalizing builder with
  | nil => rfl
  | cons call rest ih =>
    have hstep : Data.encodeSteps builder (call :: rest) =
        match builder.take call with
        | (.ok (), next) => Data.encodeSteps next rest
        | (.error failure, _) => .error failure := by
      cases call with
      | key datum => exact Data.encodeSteps_key builder datum rest
      | value datum => exact Data.encodeSteps_value builder datum rest
    rw [hstep, run]
    rcases builder.take call with ⟨outcome, next⟩
    cases outcome with
    | error failure => rfl
    | ok => exact ih next

theorem run_append (builder : MapBuilder) (calls more : List (MapStep Data)) :
    builder.run (calls ++ more) = builder.run calls >>= fun next => next.run more := by
  induction calls generalizing builder with
  | nil => rfl
  | cons call rest ih =>
    rw [List.cons_append, run, run]
    rcases builder.take call with ⟨outcome, next⟩
    cases outcome with
    | error failure => rfl
    | ok => exact ih next

/-- A value that finds no key is refused, whatever it is. -/
theorem take_value_of_pending_eq_none {builder : MapBuilder} (h : builder.pending = none)
    (value : Data) : builder.take (.value value) = (.error .valueBeforeKey, builder) := by
  rw [take, giveValue, h]
  rfl

/-- A key that is refused changes nothing. -/
theorem take_key_of_error {datum : Data} {failure : Error} (h : datum.key = .error failure)
    (builder : MapBuilder) : builder.take (.key datum) = (.error failure, builder) := by
  rw [take, h, giveKey]

end MapBuilder

namespace MapStep

/-- A key that can be a field name, or a value that can be encoded. -/
def Acceptable : MapStep Data → Prop
  | .key datum => ∃ name, datum.key = .ok name
  | .value datum => ∃ value, datum.encode = .ok value

/-- Whether a call is a key that cannot be a field name. -/
def isRefused : MapStep Data → Bool
  | .key datum => datum.key.toOption.isNone
  | .value _ => false

end MapStep

/-- For a program that goes on after failures it is as if it had never given the keys that were
refused. -/
theorem MapBuilder.pressOn_filter_isRefused (builder : MapBuilder) (calls : List (MapStep Data)) :
    builder.pressOn (calls.filter fun call => !call.isRefused) = builder.pressOn calls := by
  induction calls generalizing builder with
  | nil => rfl
  | cons call rest ih =>
    cases hrefused : call.isRefused with
    | false =>
      rw [List.filter_cons_of_pos (by rw [hrefused]; rfl), pressOn, pressOn]
      exact ih _
    | true =>
      cases call with
      | value datum => contradiction
      | key datum =>
        cases hkey : datum.key with
        | ok name =>
          rw [MapStep.isRefused, hkey] at hrefused
          contradiction
        | error failure =>
          rw [List.filter_cons_of_neg (by rw [hrefused]; exact Bool.false_ne_true), pressOn,
            take_key_of_error hkey]
          exact ih builder

/-! ## Rounds -/

/-- A value in a succession of calls, and the keys given since the value before it. -/
structure MapRound where
  keys : List Data
  value : Data

namespace MapRound

/-- The calls of a round. -/
def calls (round : MapRound) : List (MapStep Data) :=
  round.keys.map .key ++ [.value round.value]

/-- The round without the keys that others took the place of. -/
def trimmed (round : MapRound) : MapRound :=
  { round with keys := round.keys.getLast?.toList }

/-- The field that a round makes: the value under the name of the last key. -/
def Makes (round : MapRound) (field : String × Value) : Prop :=
  round.keys.getLast?.map Data.key = some (.ok field.1) ∧ round.value.encode = .ok field.2

theorem makes_trimmed_iff {round : MapRound} {field : String × Value} :
    round.trimmed.Makes field ↔ round.Makes field := by
  cases hlast : round.keys.getLast? <;> simp [Makes, trimmed, hlast]

/-- What is left of a round was in it. -/
theorem mem_calls_of_mem_trimmed (round : MapRound) {call : MapStep Data}
    (h : call ∈ round.trimmed.calls) : call ∈ round.calls := by
  rw [calls, List.mem_append] at h ⊢
  refine h.imp_left fun hkey => ?_
  obtain ⟨key, hmem, rfl⟩ := List.mem_map.mp hkey
  exact List.mem_map_of_mem (List.mem_of_getLast? (Option.mem_toList.mp hmem))

theorem trimmed_keys_eq_nil_iff (round : MapRound) : round.trimmed.keys = [] ↔ round.keys = [] := by
  simp [trimmed]

/-- A round makes one field only. -/
theorem Makes.unique {round : MapRound} {field other : String × Value} (h : round.Makes field)
    (h' : round.Makes other) : field = other := by
  have hname : field.1 = other.1 := Except.ok.inj (Option.some.inj (h.1.symm.trans h'.1))
  have hvalue : field.2 = other.2 := Except.ok.inj (h.2.symm.trans h'.2)
  exact Prod.ext hname hvalue

end MapRound

/-- The rounds of calls, and the keys that are left, if some keys were given before. -/
def roundsFrom (given : List Data) : List (MapStep Data) → List MapRound × List Data
  | [] => ([], given)
  | .key datum :: rest => roundsFrom (given ++ [datum]) rest
  | .value datum :: rest => (⟨given, datum⟩ :: (roundsFrom [] rest).1, (roundsFrom [] rest).2)

/-- The rounds of calls, one for each value. -/
def rounds (calls : List (MapStep Data)) : List MapRound :=
  (roundsFrom [] calls).1

/-- The keys that are given after the last value. -/
def keysLeft (calls : List (MapStep Data)) : List Data :=
  (roundsFrom [] calls).2

theorem calls_roundsFrom (given : List Data) (calls : List (MapStep Data)) :
    given.map .key ++ calls = (roundsFrom given calls).1.flatMap MapRound.calls ++
      (roundsFrom given calls).2.map .key := by
  induction calls generalizing given with
  | nil => rw [roundsFrom, List.append_nil, List.flatMap_nil, List.nil_append]
  | cons call rest ih =>
    cases call with
    | key datum =>
      rw [roundsFrom, ← ih, List.map_append, List.append_assoc]
      rfl
    | value datum =>
      rw [roundsFrom, List.flatMap_cons, List.append_assoc, ← ih, MapRound.calls, List.append_assoc]
      rfl

/-- Every succession of calls is made of its rounds and the keys that are left. -/
theorem calls_rounds (calls : List (MapStep Data)) :
    calls = (rounds calls).flatMap MapRound.calls ++ (keysLeft calls).map .key :=
  calls_roundsFrom [] calls

theorem roundsFrom_keys_append (given keys : List Data) (calls : List (MapStep Data)) :
    roundsFrom given (keys.map .key ++ calls) = roundsFrom (given ++ keys) calls := by
  induction keys generalizing given with
  | nil => rw [List.map_nil, List.nil_append, List.append_nil]
  | cons key rest ih =>
    rw [List.map_cons, List.cons_append, roundsFrom, ih, List.append_assoc]
    rfl

/-- Calls that are given as rounds have these rounds. -/
theorem rounds_flatMap_calls (given : List MapRound) :
    rounds (given.flatMap MapRound.calls) = given := by
  induction given with
  | nil => rfl
  | cons round rest ih =>
    rw [rounds] at ih ⊢
    rw [List.flatMap_cons, MapRound.calls, List.append_assoc, roundsFrom_keys_append,
      List.nil_append, List.cons_append, roundsFrom, List.nil_append, ih]

/-- If some value has no key, there is a first one. -/
theorem exists_first_unkeyed (given : List Data) {calls : List (MapStep Data)}
    (h : ∃ round ∈ (roundsFrom given calls).1, round.keys = []) :
    ∃ before value after, calls = before ++ .value value :: after ∧
      (∀ round ∈ (roundsFrom given before).1, round.keys ≠ []) ∧
        (roundsFrom given before).2 = [] := by
  induction calls generalizing given with
  | nil =>
    obtain ⟨round, hmem, -⟩ := h
    contradiction
  | cons call rest ih =>
    cases call with
    | key datum =>
      obtain ⟨before, value, after, hcalls, hkeyed, hleft⟩ := ih _ h
      exact ⟨.key datum :: before, value, after, by rw [hcalls]; rfl, hkeyed, hleft⟩
    | value datum =>
      by_cases hgiven : given = []
      · exact ⟨[], datum, rest, rfl, nofun, hgiven⟩
      · -- This value has a key, so the first one without is among the calls after it.
        obtain ⟨round, hmem, hkeys⟩ := h
        rw [roundsFrom, List.mem_cons] at hmem
        rcases hmem with rfl | hmem
        · exact absurd hkeys hgiven
        · obtain ⟨before, value, after, hcalls, hkeyed, hleft⟩ := ih _ ⟨round, hmem, hkeys⟩
          refine ⟨.value datum :: before, value, after, by rw [hcalls]; rfl, ?_, hleft⟩
          rw [roundsFrom, List.forall_mem_cons]
          exact ⟨hgiven, hkeyed⟩

/-! ## The invariant of a run -/

namespace MapBuilder

/-- After acceptable calls of which each value has a key, there are the fields that the rounds make,
and the last key given since then waits. -/
theorem run_of_keyed (given : List Data) (fields : Fields Value) (pending : Option String)
    {calls : List (MapStep Data)} (hcalls : ∀ call ∈ calls, call.Acceptable)
    (hpending : given.getLast?.map Data.key = pending.map .ok)
    (hkeyed : ∀ round ∈ (roundsFrom given calls).1, round.keys ≠ []) :
    ∃ made left, run ⟨fields, pending⟩ calls = .ok ⟨fields ++ made, left⟩ ∧
      List.Forall₂ MapRound.Makes (roundsFrom given calls).1 made ∧
        (roundsFrom given calls).2.getLast?.map Data.key = left.map .ok := by
  induction calls generalizing given fields pending with
  | nil => exact ⟨[], pending, by rw [List.append_nil]; rfl, .nil, hpending⟩
  | cons call rest ih =>
    obtain ⟨hcall, hrest⟩ := List.forall_mem_cons.mp hcalls
    cases call with
    | key datum =>
      obtain ⟨name, hname⟩ := hcall
      have hlast : (given ++ [datum]).getLast?.map Data.key = (some name).map .ok := by
        rw [List.getLast?_concat, Option.map_some, hname]
        rfl
      obtain ⟨made, left, hrun, hmade, hleft⟩ := ih _ _ _ hrest hlast hkeyed
      refine ⟨made, left, ?_, hmade, hleft⟩
      rw [run, take, hname, giveKey]
      exact hrun
    | value datum =>
      obtain ⟨value, hvalue⟩ := hcall
      rw [roundsFrom, List.forall_mem_cons] at hkeyed
      obtain ⟨hgiven, hkeyed⟩ := hkeyed
      cases pending with
      | none =>
        rw [Option.map_none, Option.map_eq_none_iff, List.getLast?_eq_none_iff] at hpending
        exact absurd hpending hgiven
      | some name =>
        have hround : MapRound.Makes ⟨given, datum⟩ (name, value) := ⟨hpending, hvalue⟩
        obtain ⟨made, left, hrun, hmade, hleft⟩ :=
          ih [] (fields.add name value) none hrest rfl hkeyed
        refine ⟨(name, value) :: made, left, ?_, .cons hround hmade, hleft⟩
        rw [Fields.add, List.append_assoc] at hrun
        rw [run, take, hvalue, giveValue]
        exact hrun

/-- The first value without a key is where a run of acceptable calls fails, whatever comes later. -/
theorem take_of_unkeyed {before : List (MapStep Data)} (hbefore : ∀ call ∈ before, call.Acceptable)
    (hkeyed : ∀ round ∈ rounds before, round.keys ≠ []) (hleft : keysLeft before = [])
    (value : Data) :
    ∃ builder, empty.run before = .ok builder ∧
      builder.take (.value value) = (.error .valueBeforeKey, builder) := by
  obtain ⟨made, left, hrun, -, hlast⟩ := run_of_keyed [] [] none hbefore rfl hkeyed
  rw [← keysLeft, hleft] at hlast
  have hnone : left = none := Option.map_eq_none_iff.mp hlast.symm
  exact ⟨_, hrun, take_value_of_pending_eq_none hnone value⟩

end MapBuilder

namespace Data

/-- A map written entry by entry is written by each key and its value in turn. -/
theorem encode_map_eq_mapSteps (announced : Option Nat) (entries : List (Data × Data)) :
    encode (.map announced entries) = encode (.mapStepsOf announced
      (entries.flatMap fun entry => [.key entry.1, .value entry.2])) := by
  have hsteps : ∀ (entries : List (Data × Data)) (fields : Fields Value),
      encodeSteps ⟨fields, Option.none⟩
          (entries.flatMap fun entry => [.key entry.1, .value entry.2]) =
        (encodeEntries entries).map fun more => .struct () (fields ++ more) := by
    intro entries
    induction entries with
    | nil =>
      intro fields
      change _ = Except.ok (Value.struct () (fields ++ []))
      rw [List.append_nil]
      rfl
    | cons entry rest ih =>
      intro fields
      obtain ⟨key, datum⟩ := entry
      rw [List.flatMap_cons, List.cons_append, List.cons_append, List.nil_append, encodeSteps_key,
        encodeEntries_cons]
      cases key.key with
      | error failure => rfl
      | ok name =>
        dsimp only [MapBuilder.giveKey]
        rw [encodeSteps_value]
        cases datum.encode with
        | error failure => rfl
        | ok value =>
          dsimp only [MapBuilder.giveValue]
          rw [ih, ok_bind, ok_bind]
          cases encodeEntries rest with
          | error failure => rfl
          | ok more =>
            rw [Fields.add, Except.map, List.append_assoc]
            rfl
  exact (hsteps entries []).symm

theorem encode_mapSteps_of_keyed (announced : Option Nat) {calls : List (MapStep Data)}
    (hcalls : ∀ call ∈ calls, call.Acceptable) (hkeyed : ∀ round ∈ rounds calls, round.keys ≠ []) :
    ∃ fields, encode (.mapStepsOf announced calls) = .ok (.struct () fields) ∧
      List.Forall₂ MapRound.Makes (rounds calls) fields := by
  obtain ⟨made, left, hrun, hmade, -⟩ :=
    MapBuilder.run_of_keyed [] [] Option.none hcalls rfl hkeyed
  refine ⟨made, ?_, hmade⟩
  rw [encode_mapStepsOf, MapBuilder.encodeSteps_eq_run, MapBuilder.empty, hrun]
  rfl

theorem encode_mapSteps_of_unkeyed (announced : Option Nat) {before after : List (MapStep Data)}
    {value : Data} (hbefore : ∀ call ∈ before, call.Acceptable)
    (hkeyed : ∀ round ∈ rounds before, round.keys ≠ []) (hleft : keysLeft before = []) :
    encode (.mapStepsOf announced (before ++ .value value :: after)) = .error .valueBeforeKey := by
  obtain ⟨builder, hrun, htake⟩ := MapBuilder.take_of_unkeyed hbefore hkeyed hleft value
  rw [encode_mapStepsOf, MapBuilder.encodeSteps_eq_run, MapBuilder.run_append, hrun, ok_bind,
    MapBuilder.run, htake]
  rfl

/-- Keys that others took the place of, and keys that are left, leave no trace. -/
theorem encode_mapSteps_trimmed (announced : Option Nat) {calls : List (MapStep Data)}
    (hcalls : ∀ call ∈ calls, call.Acceptable) :
    encode (.mapStepsOf announced ((rounds calls).flatMap fun round => round.trimmed.calls)) =
      encode (.mapStepsOf announced calls) := by
  have htrimmed : ((rounds calls).flatMap fun round => round.trimmed.calls) =
      ((rounds calls).map MapRound.trimmed).flatMap MapRound.calls := by
    rw [List.flatMap_map]
  have hacceptable : ∀ call ∈ ((rounds calls).map MapRound.trimmed).flatMap MapRound.calls,
      call.Acceptable := by
    rw [← htrimmed]
    intro call hmem
    obtain ⟨round, hround, hmem⟩ := List.mem_flatMap.mp hmem
    refine hcalls call ?_
    rw [calls_rounds calls]
    refine List.mem_append_left _ (List.mem_flatMap.mpr ⟨round, hround, ?_⟩)
    exact round.mem_calls_of_mem_trimmed hmem
  have hrounds := rounds_flatMap_calls ((rounds calls).map MapRound.trimmed)
  rw [htrimmed]
  by_cases hkeyed : ∀ round ∈ rounds calls, round.keys ≠ []
  · obtain ⟨fields, hfields, hmade⟩ := encode_mapSteps_of_keyed announced hcalls hkeyed
    obtain ⟨fields', hfields', hmade'⟩ := encode_mapSteps_of_keyed announced hacceptable (by
      rw [hrounds, List.forall_mem_map]
      intro round hmem hnil
      exact hkeyed round hmem (round.trimmed_keys_eq_nil_iff.mp hnil))
    rw [hrounds, List.forall₂_map_left_iff] at hmade'
    have hmade' : List.Forall₂ MapRound.Makes (rounds calls) fields' :=
      hmade'.imp fun _ _ h => MapRound.makes_trimmed_iff.mp h
    have hsame : fields' = fields :=
      List.right_unique_forall₂' (fun _ _ _ h h' => h.unique h') hmade' hmade
    rw [hfields, hfields', hsame]
  · -- The rounds without a key are the same before and after, so both runs fail.
    have hfails : ∀ {calls : List (MapStep Data)}, (∀ call ∈ calls, call.Acceptable) →
        (∃ round ∈ rounds calls, round.keys = []) →
        encode (.mapStepsOf announced calls) = .error .valueBeforeKey := by
      intro calls hcalls hunkeyed
      obtain ⟨before, value, after, rfl, hbefore, hleft⟩ := exists_first_unkeyed [] hunkeyed
      exact encode_mapSteps_of_unkeyed announced
        (fun call hmem => hcalls call (List.mem_append_left _ hmem)) hbefore hleft
    have hunkeyed : ∃ round ∈ rounds calls, round.keys = [] := by simpa using hkeyed
    obtain ⟨round, hmem, hnil⟩ := hunkeyed
    rw [hfails hcalls ⟨round, hmem, hnil⟩]
    refine hfails hacceptable ⟨round.trimmed, ?_, round.trimmed_keys_eq_nil_iff.mpr hnil⟩
    rw [hrounds]
    exact List.mem_map_of_mem hmem

/-- Of calls with acceptable keys and values, each value together with the keys since the value
before it makes one field, under the name of the last of these keys; the fields stand in the order
of the values.  If there are values without a key, the call that fails is the first one of them, and
it fails with these words; no other call fails.  Every key belongs to one value or is left at the
end; all but the last key of each value might as well not be given.  A key that is refused changes
nothing, and a program that goes on after failures may leave it out.  The number of entries that is
announced plays no part, where there is room for so many. -/
theorem mapSteps_by_rounds (announced : Option Nat) {calls : List (MapStep Data)}
    (hcalls : ∀ call ∈ calls, call.Acceptable) :
    ((∀ round ∈ rounds calls, round.keys ≠ []) →
      ∃ fields, encode (.mapStepsOf announced calls) = .ok (.struct () fields) ∧
        List.Forall₂ MapRound.Makes (rounds calls) fields) ∧
    (∀ before value after, calls = before ++ .value value :: after →
      (∀ round ∈ rounds before, round.keys ≠ []) → keysLeft before = [] →
      (∃ builder, MapBuilder.empty.run before = .ok builder ∧
        builder.take (.value value) = (.error .valueBeforeKey, builder)) ∧
      encode (.mapStepsOf announced calls) = .error .valueBeforeKey) ∧
    (∀ failure, encode (.mapStepsOf announced calls) = .error failure →
      ∃ before value after, calls = before ++ .value value :: after ∧
        (∀ round ∈ rounds before, round.keys ≠ []) ∧ keysLeft before = []) ∧
    Error.valueBeforeKey.message = "serialize_value called before serialize_key" ∧
    calls = (rounds calls).flatMap MapRound.calls ++ (keysLeft calls).map .key ∧
    encode (.mapStepsOf announced ((rounds calls).flatMap fun round => round.trimmed.calls)) =
      encode (.mapStepsOf announced calls) ∧
    (∀ (builder : MapBuilder) (datum : Data) (failure : Error), datum.key = .error failure →
      builder.take (.key datum) = (.error failure, builder)) ∧
    (∀ (builder : MapBuilder) (others : List (MapStep Data)),
      builder.pressOn (others.filter fun call => !call.isRefused) = builder.pressOn others) := by
  refine ⟨encode_mapSteps_of_keyed announced hcalls, ?_, ?_, rfl, calls_rounds calls,
    encode_mapSteps_trimmed announced hcalls, ?_, MapBuilder.pressOn_filter_isRefused⟩
  · rintro before value after rfl hkeyed hleft
    have hbefore : ∀ call ∈ before, call.Acceptable :=
      fun call hmem => hcalls call (List.mem_append_left _ hmem)
    exact ⟨MapBuilder.take_of_unkeyed hbefore hkeyed hleft value,
      encode_mapSteps_of_unkeyed announced hbefore hkeyed hleft⟩
  · intro failure hfailure
    refine exists_first_unkeyed [] ?_
    by_contra hkeyed
    have hall : ∀ round ∈ rounds calls, round.keys ≠ [] :=
      fun round hmem hnil => hkeyed ⟨round, hmem, hnil⟩
    obtain ⟨fields, hfields, -⟩ := encode_mapSteps_of_keyed announced hcalls hall
    rw [hfields] at hfailure
    contradiction
  · intro builder datum failure hkey
    exact MapBuilder.take_key_of_error hkey builder

/-- A key that another takes the place of, two fields of one name, and a value that has lost its key
to the value before it. -/
theorem mapSteps_by_rounds_unkeyed :
    let front : List (MapStep Data) := [.key (.str "a"), .key (.char 'b'), .value (.bool true),
      .key (.newtypeStruct (.unitVariant "b")), .value .unit]
    let calls : List (MapStep Data) := front ++ .value (.str "lost") :: [.key (.str "c")]
    (∀ call ∈ calls, call.Acceptable) ∧ (∀ round ∈ rounds front, round.keys ≠ []) ∧
      keysLeft front = [] ∧ encode (.mapSteps calls) = .error .valueBeforeKey ∧
      encode (.mapSteps front) =
        .ok (.struct () [("b", .scalar (.bool true)), ("b", .null)]) := by
  intro front calls
  have hcalls : ∀ call ∈ calls, call.Acceptable := by
    simp only [calls, front, List.cons_append, List.nil_append, List.forall_mem_cons]
    exact ⟨⟨_, rfl⟩, ⟨_, rfl⟩, ⟨_, rfl⟩, ⟨_, rfl⟩, ⟨_, rfl⟩, ⟨_, rfl⟩, ⟨_, rfl⟩, nofun⟩
  have hkeyed : ∀ round ∈ rounds front, round.keys ≠ [] := by
    simp [front, rounds, roundsFrom]
  have hfailed := (mapSteps_by_rounds .none hcalls).2.1 front _ _ rfl hkeyed rfl
  exact ⟨hcalls, hkeyed, rfl, hfailed.2, rfl⟩

end Data
end Caseless
