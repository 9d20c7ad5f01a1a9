import Mathlib.Data.Nat.Basic
import Mathlib.Data.UInt

/-! # Checked and saturating unsigned arithmetic

Rust's `checked_add`, `saturating_add`, `checked_sub` and `saturating_sub` on fixed-width
unsigned integers: a checked operation returns nothing where the exact result does not fit,
a saturating one clamps it to the type's range. Each operation has one lemma stating it on
the natural numbers the integers stand for, so that proofs about code using them end in
`omega`.
-/

namespace UInt32

/-- `u32::checked_add`. -/
def checkedAdd (a b : UInt32) : Option UInt32 :=
  if a.toNat + b.toNat < size then some (a + b) else none

/-- `u32::saturating_add`. -/
def saturatingAdd (a b : UInt32) : UInt32 :=
  if a.toNat + b.toNat < size then a + b else ofNat (size - 1)

/-- `u32::checked_sub`. -/
def checkedSub (a b : UInt32) : Option UInt32 :=
  if b ≤ a then some (a - b) else none

/-- `u32::saturating_sub`. -/
def saturatingSub (a b : UInt32) : UInt32 :=
  if b ≤ a then a - b else 0

variable {a b c : UInt32}

theorem checkedAdd_eq_some_iff :
    a.checkedAdd b = some c ↔ a.toNat + b.toNat < size ∧ c.toNat = a.toNat + b.toNat := by
  unfold checkedAdd
  split_ifs with fits
  · rw [Option.some_inj, ← UInt32.toNat_inj, UInt32.toNat_add]
    simp only [fits, true_and]
    rw [Nat.mod_eq_of_lt fits, eq_comm]
  · simp [fits]

theorem checkedAdd_eq_none_iff : a.checkedAdd b = none ↔ size ≤ a.toNat + b.toNat := by
  unfold checkedAdd
  split_ifs with fits <;> simp [fits]
  omega

theorem toNat_saturatingAdd (a b : UInt32) :
    (a.saturatingAdd b).toNat = min (a.toNat + b.toNat) (size - 1) := by
  unfold saturatingAdd
  split_ifs with fits
  · rw [UInt32.toNat_add, Nat.mod_eq_of_lt fits]
    omega
  · rw [UInt32.toNat_ofNat']
    have sizeEq : size = 2 ^ 32 := rfl
    omega

theorem checkedSub_eq_some_iff :
    a.checkedSub b = some c ↔ b.toNat ≤ a.toNat ∧ c.toNat = a.toNat - b.toNat := by
  unfold checkedSub
  split_ifs with below
  · rw [Option.some_inj, ← UInt32.toNat_inj, UInt32.toNat_sub_of_le _ _ below, eq_comm]
    simp [UInt32.le_iff_toNat_le.mp below]
  · rw [UInt32.le_iff_toNat_le] at below
    simp only [false_iff, not_and]
    omega

theorem checkedSub_eq_none_iff : a.checkedSub b = none ↔ a.toNat < b.toNat := by
  unfold checkedSub
  split_ifs with below <;> rw [UInt32.le_iff_toNat_le] at below
  · simp only [false_iff]
    omega
  · simp only [true_iff]
    omega

theorem toNat_saturatingSub (a b : UInt32) : (a.saturatingSub b).toNat = a.toNat - b.toNat := by
  unfold saturatingSub
  split_ifs with below
  · exact UInt32.toNat_sub_of_le _ _ below
  · rw [UInt32.le_iff_toNat_le] at below
    simp only [UInt32.toNat_zero]
    omega

end UInt32

namespace UInt64

/-- `u64::checked_add`. -/
def checkedAdd (a b : UInt64) : Option UInt64 :=
  if a.toNat + b.toNat < size then some (a + b) else none

/-- `u64::saturating_add`. -/
def saturatingAdd (a b : UInt64) : UInt64 :=
  if a.toNat + b.toNat < size then a + b else ofNat (size - 1)

/-- `u64::checked_sub`. -/
def checkedSub (a b : UInt64) : Option UInt64 :=
  if b ≤ a then some (a - b) else none

/-- `u64::saturating_sub`. -/
def saturatingSub (a b : UInt64) : UInt64 :=
  if b ≤ a then a - b else 0

/-- `u64::saturating_mul`. -/
def saturatingMul (a b : UInt64) : UInt64 :=
  if a.toNat * b.toNat < size then a * b else ofNat (size - 1)

variable {a b c : UInt64}

theorem checkedAdd_eq_some_iff :
    a.checkedAdd b = some c ↔ a.toNat + b.toNat < size ∧ c.toNat = a.toNat + b.toNat := by
  unfold checkedAdd
  split_ifs with fits
  · rw [Option.some_inj, ← UInt64.toNat_inj, UInt64.toNat_add]
    simp only [fits, true_and]
    rw [Nat.mod_eq_of_lt fits, eq_comm]
  · simp [fits]

theorem checkedAdd_eq_none_iff : a.checkedAdd b = none ↔ size ≤ a.toNat + b.toNat := by
  unfold checkedAdd
  split_ifs with fits <;> simp [fits]
  omega

theorem toNat_saturatingAdd (a b : UInt64) :
    (a.saturatingAdd b).toNat = min (a.toNat + b.toNat) (size - 1) := by
  unfold saturatingAdd
  split_ifs with fits
  · rw [UInt64.toNat_add, Nat.mod_eq_of_lt fits]
    omega
  · rw [UInt64.toNat_ofNat']
    have sizeEq : size = 2 ^ 64 := rfl
    omega

theorem checkedSub_eq_some_iff :
    a.checkedSub b = some c ↔ b.toNat ≤ a.toNat ∧ c.toNat = a.toNat - b.toNat := by
  unfold checkedSub
  split_ifs with below
  · rw [Option.some_inj, ← UInt64.toNat_inj, UInt64.toNat_sub_of_le _ _ below, eq_comm]
    simp [UInt64.le_iff_toNat_le.mp below]
  · rw [UInt64.le_iff_toNat_le] at below
    simp only [false_iff, not_and]
    omega

theorem toNat_saturatingSub (a b : UInt64) : (a.saturatingSub b).toNat = a.toNat - b.toNat := by
  unfold saturatingSub
  split_ifs with below
  · exact UInt64.toNat_sub_of_le _ _ below
  · rw [UInt64.le_iff_toNat_le] at below
    simp only [UInt64.toNat_zero]
    omega

theorem toNat_saturatingMul (a b : UInt64) :
    (a.saturatingMul b).toNat = min (a.toNat * b.toNat) (size - 1) := by
  unfold saturatingMul
  split_ifs with fits
  · rw [UInt64.toNat_mul, Nat.mod_eq_of_lt fits]
    omega
  · rw [UInt64.toNat_ofNat']
    have sizeEq : size = 2 ^ 64 := rfl
    omega

end UInt64

namespace UInt16

/-- `u16::checked_add`. -/
def checkedAdd (a b : UInt16) : Option UInt16 :=
  if a.toNat + b.toNat < size then some (a + b) else none

/-- `u16::saturating_add`. -/
def saturatingAdd (a b : UInt16) : UInt16 :=
  if a.toNat + b.toNat < size then a + b else ofNat (size - 1)

/-- `u16::saturating_sub`. -/
def saturatingSub (a b : UInt16) : UInt16 :=
  if b ≤ a then a - b else 0

/-- `u16::saturating_mul`. -/
def saturatingMul (a b : UInt16) : UInt16 :=
  if a.toNat * b.toNat < size then a * b else ofNat (size - 1)

variable {a b c : UInt16}

theorem checkedAdd_eq_some_iff :
    a.checkedAdd b = some c ↔ a.toNat + b.toNat < size ∧ c.toNat = a.toNat + b.toNat := by
  unfold checkedAdd
  split_ifs with fits
  · rw [Option.some_inj, ← UInt16.toNat_inj, UInt16.toNat_add]
    simp only [fits, true_and]
    rw [Nat.mod_eq_of_lt fits, eq_comm]
  · simp [fits]

theorem checkedAdd_eq_none_iff : a.checkedAdd b = none ↔ size ≤ a.toNat + b.toNat := by
  unfold checkedAdd
  split_ifs with fits <;> simp [fits]
  omega

theorem toNat_saturatingSub (a b : UInt16) : (a.saturatingSub b).toNat = a.toNat - b.toNat := by
  unfold saturatingSub
  split_ifs with below
  · exact UInt16.toNat_sub_of_le _ _ below
  · rw [UInt16.le_iff_toNat_le] at below
    simp only [UInt16.toNat_zero]
    omega

end UInt16
