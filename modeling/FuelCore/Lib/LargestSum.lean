import Mathlib.Algebra.BigOperators.Group.Finset.Piecewise
import Mathlib.Algebra.Order.BigOperators.Group.Finset
import Mathlib.Data.Finset.Max
import Mathlib.Data.List.Sort
import Mathlib.Algebra.GroupWithZero.Nat

/-! # The largest elements carry the largest sum

A selection that keeps elements no lighter than every one it leaves out has the largest
sum among the sets of at most as many elements: what another set takes from outside the
selection weighs no more than what it leaves of it. A greedy selection that fails with as
many elements as it may take shows in this way that no other choice of as many would have
reached its target.
-/

namespace Finset

variable {α : Type*} [DecidableEq α]

/-- The exchange argument: `S` trades what it takes outside `T` for at least as many
elements of `T`, each no lighter. -/
theorem sum_le_sum_of_dominates {S T U : Finset α} (weight : α → ℕ) (within : S ⊆ U)
    (fewer : S.card ≤ T.card) (dominates : ∀ t ∈ T, ∀ u ∈ U, u ∉ T → weight u ≤ weight t) :
    ∑ x ∈ S, weight x ≤ ∑ x ∈ T, weight x := by
  have cardDiff : (S \ T).card ≤ (T \ S).card := by
    have fromS := card_sdiff_add_card_inter S T
    have fromT := card_sdiff_add_card_inter T S
    rw [inter_comm] at fromT
    omega
  have outside : ∑ x ∈ S \ T, weight x ≤ ∑ x ∈ T \ S, weight x := by
    rcases (T \ S).eq_empty_or_nonempty with empty | nonempty
    · have : S \ T = ∅ := card_eq_zero.mp (by rw [empty, card_empty] at cardDiff; omega)
      simp [this, empty]
    · obtain ⟨lightest, lightestIn, lightestLe⟩ := (T \ S).exists_min_image weight nonempty
      have above : ∀ x ∈ S \ T, weight x ≤ weight lightest := fun x member =>
        dominates lightest (mem_sdiff.mp lightestIn).1 x (within (mem_sdiff.mp member).1)
          (mem_sdiff.mp member).2
      calc ∑ x ∈ S \ T, weight x
          ≤ (S \ T).card • weight lightest := sum_le_card_nsmul _ _ _ above
        _ ≤ (T \ S).card • weight lightest := Nat.mul_le_mul_right _ cardDiff
        _ ≤ ∑ x ∈ T \ S, weight x := card_nsmul_le_sum _ _ _ lightestLe
  rw [← sum_inter_add_sum_sdiff S T, ← sum_inter_add_sum_sdiff T S, inter_comm]
  omega

end Finset

namespace List

variable {α : Type*} [DecidableEq α]

theorem sum_le_sum_take_of_sorted {l : List α} (weight : α → ℕ) (nodup : l.Nodup)
    (sorted : l.Pairwise fun a b => weight b ≤ weight a) (k : ℕ) {S : Finset α}
    (within : S ⊆ l.toFinset) (fewer : S.card ≤ k) :
    ∑ x ∈ S, weight x ≤ ((l.take k).map weight).sum := by
  have takeNodup : (l.take k).Nodup := nodup.sublist (take_sublist k l)
  have cardTake : (l.take k).toFinset.card = min k l.length := by
    rw [toFinset_card_of_nodup takeNodup, length_take]
  have fewerThanTaken : S.card ≤ (l.take k).toFinset.card := by
    have bounded := Finset.card_le_card within
    rw [toFinset_card_of_nodup nodup] at bounded
    omega
  have dominates : ∀ t ∈ (l.take k).toFinset, ∀ u ∈ l.toFinset, u ∉ (l.take k).toFinset →
      weight u ≤ weight t := by
    intro t taken u member notTaken
    rw [mem_toFinset] at taken member notTaken
    have split := sorted
    rw [← take_append_drop k l, pairwise_append] at split
    rw [← take_append_drop k l, mem_append] at member
    exact split.2.2 t taken u (member.resolve_left notTaken)
  rw [← sum_toFinset weight takeNodup]
  exact Finset.sum_le_sum_of_dominates weight within fewerThanTaken dominates

end List
