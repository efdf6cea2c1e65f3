import Caseless.Error

/-!
# Outcomes of reading

Reading gives a result or a failure.  This module takes apart the outcomes of steps in sequence, and
compares the outcomes of two readings that go side by side: both give related results, or both fail
alike.  Where the failures of one side are excused, the other side need not fail with it.

Main results:

- Theorems `exists_of_map_eq_ok` and `exists_of_bind_eq_ok`: the first step of a reading that gives
  a result;
- Definition `Agree`: the comparison of two outcomes;
- Theorems `Agree.bind` and `Agree.map`: outcomes that agree are continued by steps that agree.
-/

namespace Caseless

/-! ## Steps in sequence -/

theorem exists_of_map_eq_ok {ε α β : Type} {f : α → β} {x : Except ε α} {b : β}
    (h : x.map f = .ok b) : ∃ a, x = .ok a ∧ f a = b := by
  cases x with
  | error failure => contradiction
  | ok a => exact ⟨a, rfl, Except.ok.inj h⟩

theorem exists_of_bind_eq_ok {ε α β : Type} {f : α → Except ε β} {x : Except ε α} {b : β}
    (h : x >>= f = .ok b) : ∃ a, x = .ok a ∧ f a = .ok b := by
  cases x with
  | error failure => contradiction
  | ok a => exact ⟨a, rfl, h⟩

theorem ok_bind {ε α β : Type} (a : α) (f : α → Except ε β) : (Except.ok a >>= f) = f a :=
  rfl

/-! ## Outcomes side by side -/

/-- Two outcomes agree: the results are related, or the failures are the same.  Where the failures
of the left or of the right side are excused, a failure there agrees with anything. -/
inductive Agree (left right : Prop) {β γ : Type} (rel : β → γ → Prop) :
    Except Error β → Except Error γ → Prop where
  | ok {x : β} {y : γ} (h : rel x y) : Agree left right rel (.ok x) (.ok y)
  | error (failure : Error) : Agree left right rel (.error failure) (.error failure)
  | excusedLeft (h : left) (failure : Error) (outcome : Except Error γ) :
    Agree left right rel (.error failure) outcome
  | excusedRight (h : right) (outcome : Except Error β) (failure : Error) :
    Agree left right rel outcome (.error failure)

namespace Agree

variable {left right : Prop} {β β' γ γ' : Type} {rel : β → β' → Prop} {rel' : γ → γ' → Prop}

theorem bind {x : Except Error β} {y : Except Error β'} {f : β → Except Error γ}
    {g : β' → Except Error γ'} (h : Agree left right rel x y)
    (hnext : ∀ a b, rel a b → Agree left right rel' (f a) (g b)) :
    Agree left right rel' (x >>= f) (y >>= g) := by
  cases h with
  | ok h => exact hnext _ _ h
  | error failure => exact .error failure
  | excusedLeft h failure => exact .excusedLeft h failure _
  | excusedRight h outcome failure => exact .excusedRight h _ failure

theorem map {x : Except Error β} {y : Except Error β'} {f : β → γ} {g : β' → γ'}
    (h : Agree left right rel x y) (hnext : ∀ a b, rel a b → rel' (f a) (g b)) :
    Agree left right rel' (x.map f) (y.map g) := by
  cases h with
  | ok h => exact .ok (hnext _ _ h)
  | error failure => exact .error failure
  | excusedLeft h failure => exact .excusedLeft h failure _
  | excusedRight h outcome failure => exact .excusedRight h _ failure

theorem refl (x : Except Error β) : Agree left right Eq x x := by
  cases x with
  | error failure => exact .error failure
  | ok a => exact .ok rfl

theorem of_eq {x y : Except Error β} (h : x = y) : Agree left right Eq x y :=
  h ▸ refl x

/-- The same results are continued alike. -/
theorem bind_eq {x y : Except Error β} {f : β → Except Error γ} {g : β → Except Error γ'}
    (h : Agree left right Eq x y) (hnext : ∀ a, Agree left right rel' (f a) (g a)) :
    Agree left right rel' (x >>= f) (y >>= g) := by
  refine h.bind fun a b hab => ?_
  rw [← hab]
  exact hnext a

/-- A function of the same results gives the same. -/
theorem map_eq {x y : Except Error β} (f : β → γ) (h : Agree left right Eq x y) :
    Agree left right Eq (x.map f) (y.map f) :=
  h.map fun _ _ hab => congrArg f hab

/-- Where no failure is excused, the outcomes are the same. -/
theorem eq {x y : Except Error β} (h : Agree False False Eq x y) : x = y := by
  cases h with
  | ok h => rw [h]
  | error failure => rfl
  | excusedLeft h => contradiction
  | excusedRight h => contradiction

/-- A result on the left comes out on the right, where no failure of the right is excused. -/
theorem eq_ok {a : β} {y : Except Error β} (h : Agree left False Eq (.ok a) y) : y = .ok a := by
  cases h with
  | ok h => rw [h]
  | excusedRight h => contradiction

/-- Where both sides give a result, it is the same one. -/
theorem result_eq {a b : β} (h : Agree left right Eq (.ok a) (.ok b)) : a = b := by
  cases h with
  | ok h => exact h

end Agree
end Caseless
