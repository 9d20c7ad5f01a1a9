import FuelCore.Lib.Unsigned

/-! # Inclusive ranges of `u32`s

Rust's `RangeInclusive<u32>`, `start..=end`: empty when the start is above the end, and
iterated from its start up to its end. The membership tests are stated on the natural numbers
the integers stand for.
-/

/-- `RangeInclusive<u32>`; its end is `stop` here. -/
structure RangeInclusive where
  start : UInt32
  stop : UInt32
  deriving DecidableEq, Repr

namespace RangeInclusive

def isEmpty (range : RangeInclusive) : Bool :=
  !decide (range.start ≤ range.stop)

def contains (range : RangeInclusive) (item : UInt32) : Bool :=
  decide (range.start ≤ item) && decide (item ≤ range.stop)

/-- The items of the range, in the order a `for` loop visits them. -/
def toList (range : RangeInclusive) : List UInt32 :=
  (List.range (range.stop.toNat + 1 - range.start.toNat)).map fun offset =>
    range.start + offset.toUInt32

@[simp]
theorem isEmpty_eq_false_iff (range : RangeInclusive) :
    range.isEmpty = false ↔ range.start.toNat ≤ range.stop.toNat := by
  simp [isEmpty, UInt32.le_iff_toNat_le]

@[simp]
theorem isEmpty_eq_true_iff (range : RangeInclusive) :
    range.isEmpty = true ↔ range.stop.toNat < range.start.toNat := by
  simp [isEmpty, UInt32.le_iff_toNat_le]

@[simp]
theorem contains_iff (range : RangeInclusive) (item : UInt32) :
    range.contains item = true ↔
      range.start.toNat ≤ item.toNat ∧ item.toNat ≤ range.stop.toNat := by
  simp [contains, UInt32.le_iff_toNat_le]

theorem mem_toList {range : RangeInclusive} {item : UInt32} :
    item ∈ range.toList ↔ range.start ≤ item ∧ item ≤ range.stop := by
  have := range.stop.toNat_lt
  simp only [toList, List.mem_map, List.mem_range, UInt32.le_iff_toNat_le]
  constructor
  · rintro ⟨offset, below, rfl⟩
    rw [UInt32.toNat_add, Nat.toUInt32_eq, UInt32.toNat_ofNat']
    omega
  · rintro ⟨above, below⟩
    refine ⟨item.toNat - range.start.toNat, by omega, UInt32.toNat_inj.mp ?_⟩
    rw [UInt32.toNat_add, Nat.toUInt32_eq, UInt32.toNat_ofNat']
    omega

theorem toList_of_lt {start stop : UInt32} (below : start < stop) :
    toList ⟨start, stop⟩ = start :: toList ⟨start + 1, stop⟩ := by
  rw [UInt32.lt_iff_toNat_lt] at below
  have next : (start + 1).toNat = start.toNat + 1 := by
    rw [UInt32.toNat_add, UInt32.toNat_one, Nat.mod_eq_of_lt (by have := stop.toNat_lt; omega)]
  have count : stop.toNat + 1 - start.toNat = (stop.toNat + 1 - (start + 1).toNat) + 1 := by
    omega
  simp only [toList, count, List.range_succ_eq_map, List.map_cons, List.map_map]
  refine congrArg₂ _ (by simp) (List.map_congr_left fun offset _ => ?_)
  apply UInt32.toNat_inj.mp
  simp only [Function.comp_apply, UInt32.toNat_add, Nat.toUInt32_eq, UInt32.toNat_ofNat',
    UInt32.toNat_one]
  omega

theorem toList_self (item : UInt32) : toList ⟨item, item⟩ = [item] := by
  simp [toList]

end RangeInclusive
