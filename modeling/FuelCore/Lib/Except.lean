import Mathlib.Data.List.Forall2

/-! # Successful runs of computations in `Except`

A computation in `Except` that returned a value took every step it binds with a value: these
rules take such a run apart, step by step and along a list.
-/

universe u

namespace Except

variable {ε ε' : Type*} {α β : Type u}

theorem bind_eq_ok {x : Except ε α} {f : α → Except ε β} {b : β} :
    x >>= f = .ok b ↔ ∃ a, x = .ok a ∧ f a = .ok b := by
  cases x <;> simp [bind, Except.bind]

theorem map_eq_ok {x : Except ε α} {f : α → β} {b : β} :
    x.map f = .ok b ↔ ∃ a, x = .ok a ∧ f a = b := by
  cases x <;> simp [Except.map]

@[simp] theorem mapError_eq_ok {x : Except ε α} {g : ε → ε'} {a : α} :
    x.mapError g = .ok a ↔ x = .ok a := by
  cases x <;> simp [Except.mapError]

end Except

namespace List

variable {ε α : Type*} {β : Type u}

theorem mapM_except_of_forall₂ {f : α → Except ε β} {as : List α} {bs : List β}
    (each : Forall₂ (fun a b => f a = .ok b) as bs) : as.mapM f = .ok bs := by
  induction each with
  | nil => rfl
  | cons head _ induction =>
      rw [List.mapM_cons, head, induction]
      rfl

end List
