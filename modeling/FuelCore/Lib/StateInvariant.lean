import Mathlib

/-! # Invariants of stateful programs that can throw

A predicate on the state of an `EStateM` program is kept when the program, started in a state
where it holds, returns or throws in a state where it holds. A loop over a list keeps what each
run of its body keeps; `forIn_ends` is that rule with the predicate as the loop's invariant,
for loops whose body matches on the element, which `mvcgen` cannot split under the list
cursor of `Spec.forIn_list`.
-/

namespace EStateM

open Std.Do

/-- Returns or throws in a state where `P` holds. -/
abbrev ends {ε σ α : Type} (P : σ → Prop) : PostCond α (.except ε (.arg σ .pure)) :=
  post⟨fun _ s => ⌜P s⌝, fun _ s => ⌜P s⌝⟩

theorem forIn_ends {ε σ : Type} (P : σ → Prop) {α β : Type} {xs : List α} {init : β}
    {f : α → β → EStateM ε σ (ForInStep β)}
    (step : ∀ x b, ⦃fun s => ⌜P s⌝⦄ f x b ⦃ends P⦄) :
    ⦃fun s => ⌜P s⌝⦄ forIn xs init f ⦃ends P⦄ := by
  refine @Spec.forIn_list_const_inv _ _ _ _ _ _ xs init f (ends P) ?_
  intro x b
  apply Triple.entails_wp_of_post (step x b)
  constructor
  · intro r
    cases r <;> exact .rfl
  · exact .rfl

end EStateM
