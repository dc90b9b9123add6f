/-!
# Checks That Can Fail

Checks answer in `Except`, and are chained so that the first that fails ends the chain. The
lemmas here open such a chain: `throw` and `pure` are the two answers, and a chain succeeds exactly
when each of its links does.
-/

namespace MovAsm.Check

universe u

variable {ε : Type} {α β : Type u}

/-- Unfolds `throw` in `Except`. -/
@[simp] theorem throw_eq_error (error : ε) : (throw error : Except ε α) = .error error :=
  rfl

/-- Unfolds `pure` in `Except`. -/
@[simp] theorem pure_eq_ok (a : α) : (pure a : Except ε α) = .ok a :=
  rfl

/-- A bind goes on with the answer of an `ok`. -/
@[simp] theorem ok_bind (a : α) (f : α → Except ε β) : (Except.ok a >>= f) = f a :=
  rfl

/-- A bind stops at an `error`. -/
@[simp] theorem error_bind (error : ε) (f : α → Except ε β) :
    (Except.error error >>= f) = .error error :=
  rfl

/-- A bind is `ok` exactly when both of its parts are. Used to take a chain of checks apart. -/
theorem bind_eq_ok_iff {x : Except ε α} {f : α → Except ε β} {b : β} :
    (x >>= f) = .ok b ↔ ∃ a, x = .ok a ∧ f a = .ok b := by
  cases x with
  | error error => simp
  | ok a => simp

/-- A map is `ok` exactly when its argument is. -/
theorem map_eq_ok_iff {x : Except ε α} {f : α → β} {b : β} :
    x.map f = .ok b ↔ ∃ a, x = .ok a ∧ f a = b := by
  cases x with
  | error error => simp [Except.map]
  | ok a => simp [Except.map]

end MovAsm.Check
