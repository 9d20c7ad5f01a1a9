import Mathlib.Algebra.Order.BigOperators.Group.Finset
import Mathlib.Data.Finset.Image

/-! # Totals per key over a finite set

A table that keeps, for every key, the total weight of the elements of a set with that key
is the function `fiberSum`. Adding an element to the set, or taking one out, changes the
table at the element's key only: by its weight, up or down. A table maintained by such
read-modify-write steps stays equal to the totals of the set it follows.
-/

namespace Finset

variable {α κ : Type*} [DecidableEq κ]

/-- The total weight of the elements of `s` with key `k`. -/
def fiberSum (s : Finset α) (key : α → κ) (weight : α → ℕ) (k : κ) : ℕ :=
  ∑ a ∈ s with key a = k, weight a

variable (key : α → κ) (weight : α → ℕ)

@[simp] theorem fiberSum_empty : fiberSum (∅ : Finset α) key weight = fun _ => 0 := rfl

theorem weight_le_fiberSum {s : Finset α} {a : α} (member : a ∈ s) :
    weight a ≤ fiberSum s key weight (key a) :=
  single_le_sum (fun _ _ => Nat.zero_le _) (mem_filter.mpr ⟨member, rfl⟩)

variable [DecidableEq α]

theorem fiberSum_insert {s : Finset α} {a : α} (notMember : a ∉ s) :
    fiberSum (insert a s) key weight =
      Function.update (fiberSum s key weight) (key a) (fiberSum s key weight (key a) + weight a) := by
  funext k
  by_cases same : k = key a
  · subst k
    rw [Function.update_self, fiberSum, filter_insert, if_pos rfl,
      sum_insert (fun member => notMember (mem_filter.mp member).1), add_comm, fiberSum]
  · have other : key a ≠ k := Ne.symm same
    rw [Function.update_of_ne same, fiberSum, filter_insert, if_neg other, fiberSum]

theorem fiberSum_erase {s : Finset α} {a : α} (member : a ∈ s) :
    fiberSum (s.erase a) key weight =
      Function.update (fiberSum s key weight) (key a) (fiberSum s key weight (key a) - weight a) := by
  have restored : insert a (s.erase a) = s := insert_erase member
  have inserted := fiberSum_insert key weight (notMem_erase a s)
  rw [restored] at inserted
  rw [inserted, Function.update_idem, Function.update_self, Nat.add_sub_cancel,
    Function.update_eq_self]

theorem image_erase_of_injOn {β : Type*} [DecidableEq β] {f : α → β} {s : Finset α}
    (injective : Set.InjOn f s) (a : α) (member : a ∈ s) :
    (s.erase a).image f = (s.image f).erase (f a) := by
  have single : ({a} : Finset α) ⊆ s := singleton_subset_iff.mpr member
  rw [← sdiff_singleton_eq_erase, image_sdiff_of_injOn injective single, image_singleton,
    sdiff_singleton_eq_erase]

end Finset
