/-!
# Outcomes of steps that may fail

## What is here

* `bind_eq_ok`, `map_eq_ok` and `map_eq_error`: a sequence succeeds just if all of its steps do.
* `bind_eq_error`: it fails where its first step fails, or behind it.
-/

set_option autoImplicit false
namespace ProxyPlane

variable {ε α β : Type}

/-- **A sequence of two steps succeeds just if both do.** -/
theorem bind_eq_ok {x : Except ε α} {f : α → Except ε β} {b : β} :
    x.bind f = .ok b ↔ ∃ a, x = .ok a ∧ f a = .ok b := by
  cases x with
  | error e => simp [Except.bind]
  | ok a => simp [Except.bind]

/-- **A sequence of two steps fails in the first or, if that succeeds, in the second.** -/
theorem bind_eq_error {x : Except ε α} {f : α → Except ε β} {e : ε} :
    x.bind f = .error e ↔ x = .error e ∨ ∃ a, x = .ok a ∧ f a = .error e := by
  cases x with
  | error e => simp [Except.bind]
  | ok a => simp [Except.bind]

theorem map_eq_ok {x : Except ε α} {f : α → β} {b : β} :
    x.map f = .ok b ↔ ∃ a, x = .ok a ∧ f a = b := by
  cases x with
  | error e => simp [Except.map]
  | ok a => simp [Except.map]

theorem map_eq_error {x : Except ε α} {f : α → β} {e : ε} : x.map f = .error e ↔ x = .error e := by
  cases x with
  | error e => simp [Except.map]
  | ok a => simp [Except.map]

end ProxyPlane
