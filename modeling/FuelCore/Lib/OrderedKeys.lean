import Mathlib.Data.List.AList
import Mathlib.Algebra.GroupWithZero.Nat

/-! # Stores ordered by their keys

An ordered key-value store, such as a column of a log-structured store, keeps its keys
in lexicographic order, and a forward iterator started at a target yields the least key
at or after it. Keys made of a fixed-length prefix followed by a fixed-width big-endian
number sort by prefix first and by number second, so the first key a seek finds tells
whether a prefix has an entry at or above a number.
-/

namespace List

variable {α : Type*} [LT α] [LE α] [Std.IsLinearOrder α] [Std.LawfulOrderLT α]

omit [Std.IsLinearOrder α] in
theorem append_lt_append_left_iff (k a b : List α) : k ++ a < k ++ b ↔ a < b := by
  induction k with
  | nil => rfl
  | cons c k induction => rw [cons_append, cons_append, cons_lt_cons_self, induction]

omit [Std.IsLinearOrder α] in
theorem append_le_append_left_iff (k a b : List α) : k ++ a ≤ k ++ b ↔ a ≤ b := by
  rw [← List.not_lt, ← List.not_lt, append_lt_append_left_iff]

omit [Std.IsLinearOrder α] in
theorem append_lt_append_of_lt {a b : List α} (length : a.length = b.length) (less : a < b)
    (x y : List α) : a ++ x < b ++ y := by
  induction a generalizing b with
  | nil =>
      cases b with
      | nil => exact absurd less (List.lt_irrefl _)
      | cons _ _ => cases length
  | cons c a induction =>
      cases b with
      | nil => cases length
      | cons d b =>
          rw [cons_append, cons_append, cons_lt_cons_iff]
          rcases cons_lt_cons_iff.mp less with first | ⟨same, rest⟩
          · exact .inl first
          · exact .inr ⟨same, induction (by simpa using length) rest⟩

theorem append_le_append_iff_of_ne {a b : List α} (length : a.length = b.length)
    (different : a ≠ b) (x y : List α) : a ++ x ≤ b ++ y ↔ a < b := by
  rcases List.le_total a b with below | above
  · have less : a < b := (List.le_iff_lt_or_eq.mp below).resolve_right different
    exact ⟨fun _ => less, fun _ => List.le_of_lt (append_lt_append_of_lt length less x y)⟩
  · have greater : b < a := (List.le_iff_lt_or_eq.mp above).resolve_right (Ne.symm different)
    constructor
    · intro le
      exact absurd (append_lt_append_of_lt length.symm greater y x) (List.not_lt.mpr le)
    · intro less
      exact absurd (List.lt_trans less greater) (List.lt_irrefl a)

end List

namespace ByteOrder

/-- The `width` low bytes of `n`, most significant first: `u64::to_be_bytes` at width 8. -/
def toBeBytes : ℕ → ℕ → List UInt8
  | 0, _ => []
  | width + 1, n => toBeBytes width (n / 256) ++ [(n % 256).toUInt8]

@[simp] theorem length_toBeBytes (width n : ℕ) : (toBeBytes width n).length = width := by
  induction width generalizing n with
  | zero => rfl
  | succ width induction => simp [toBeBytes, induction]

theorem toByte_lt_toByte_iff (n m : ℕ) : (n % 256).toUInt8 < (m % 256).toUInt8 ↔ n % 256 < m % 256 := by
  rw [UInt8.lt_iff_toNat_lt]
  simp

theorem toBeBytes_lt_iff (width : ℕ) {n m : ℕ} (nBound : n < 256 ^ width)
    (mBound : m < 256 ^ width) : toBeBytes width n < toBeBytes width m ↔ n < m := by
  induction width generalizing n m with
  | zero =>
      have : n = 0 ∧ m = 0 := by simp_all
      simp [this, toBeBytes, List.lt_irrefl]
  | succ width induction =>
      have nHigh : n / 256 < 256 ^ width := by
        rw [Nat.div_lt_iff_lt_mul (by decide)]
        rw [Nat.pow_succ] at nBound
        exact nBound
      have mHigh : m / 256 < 256 ^ width := by
        rw [Nat.div_lt_iff_lt_mul (by decide)]
        rw [Nat.pow_succ] at mBound
        exact mBound
      have sameLength : (toBeBytes width (n / 256)).length = (toBeBytes width (m / 256)).length := by
        simp
      simp only [toBeBytes]
      -- the high bytes decide, and the last byte where they agree
      rcases Nat.lt_trichotomy (n / 256) (m / 256) with lower | same | higher
      · have less := (induction nHigh mHigh).mpr lower
        refine ⟨fun _ => ?_, fun _ => List.append_lt_append_of_lt sameLength less _ _⟩
        omega
      · rw [same, List.append_lt_append_left_iff, List.cons_lt_cons_iff, toByte_lt_toByte_iff]
        simp only [List.lt_irrefl, and_false, or_false]
        omega
      · have greater := (induction mHigh nHigh).mpr higher
        constructor
        · intro less
          exact absurd (List.lt_trans less (List.append_lt_append_of_lt sameLength.symm greater _ _))
            (List.lt_irrefl _)
        · intro less
          omega

theorem toBeBytes_injective (width : ℕ) {n m : ℕ} (nBound : n < 256 ^ width)
    (mBound : m < 256 ^ width) (same : toBeBytes width n = toBeBytes width m) : n = m := by
  rcases Nat.lt_trichotomy n m with lower | equal | higher
  · have less := (toBeBytes_lt_iff width nBound mBound).mpr lower
    rw [same] at less
    exact absurd less (List.lt_irrefl _)
  · exact equal
  · have greater := (toBeBytes_lt_iff width mBound nBound).mpr higher
    rw [same] at greater
    exact absurd greater (List.lt_irrefl _)

/-- The number that big-endian bytes spell: `u64::from_be_bytes` on eight of them. -/
def fromBeBytes (bytes : List UInt8) : ℕ :=
  bytes.foldl (fun value byte => value * 256 + byte.toNat) 0

theorem fromBeBytes_append_singleton (bytes : List UInt8) (byte : UInt8) :
    fromBeBytes (bytes ++ [byte]) = fromBeBytes bytes * 256 + byte.toNat := by
  simp [fromBeBytes]

theorem fromBeBytes_toBeBytes (width n : ℕ) :
    fromBeBytes (toBeBytes width n) = n % 256 ^ width := by
  induction width generalizing n with
  | zero => simp [toBeBytes, fromBeBytes, Nat.mod_one]
  | succ width induction =>
      have lowByte : ((n % 256).toUInt8).toNat = n % 256 := by simp
      -- the high bytes spell n / 256 below 256 ^ width, the last byte n % 256
      rw [toBeBytes, fromBeBytes_append_singleton, induction, lowByte, Nat.pow_succ', Nat.mod_mul,
        Nat.mul_comm, Nat.add_comm]

end ByteOrder

namespace AList

variable {α : Type*} [LT α] [LE α] [Std.IsLinearOrder α] [Std.LawfulOrderLT α] [DecidableEq α]
  [DecidableLT α] {β : Type*}

/-- The first entry a forward iterator started at `target` yields: the least key at or after
it. -/
def seekForward (s : AList fun _ : List α => β) (target : List α) : Option (List α × β) :=
  s.entries.foldl (fun found entry =>
    if target ≤ entry.1 ∧ found.all fun best => entry.1 < best.1 then some (entry.1, entry.2)
    else found) none

/-- What a seek over the entries seen so far has found: the least of those at or after the
target, or nothing if all of them are below it. -/
def SeekFound (entries : List (Σ _ : List α, β)) (target : List α) :
    Option (List α × β) → Prop
  | none => ∀ entry ∈ entries, entry.1 < target
  | some (key, value) => ⟨key, value⟩ ∈ entries ∧ target ≤ key ∧
      ∀ entry ∈ entries, target ≤ entry.1 → key ≤ entry.1

theorem seekFound_foldl (target : List α) (entries : List (Σ _ : List α, β)) :
    ∀ (seen : List (Σ _ : List α, β)) (found : Option (List α × β)),
      SeekFound seen target found →
      SeekFound (seen ++ entries) target (entries.foldl (fun found entry =>
        if target ≤ entry.1 ∧ found.all fun best => entry.1 < best.1 then some (entry.1, entry.2)
        else found) found) := by
  induction entries with
  | nil =>
      intro seen found seek
      simpa using seek
  | cons entry entries induction =>
      intro seen found seek
      rw [List.foldl_cons, ← List.singleton_append, ← List.append_assoc]
      apply induction
      split_ifs with better
      · obtain ⟨after, least⟩ := better
        refine ⟨List.mem_append_right _ (List.mem_singleton_self _), after, ?_⟩
        intro other listed otherAfter
        rcases List.mem_append.mp listed with early | now
        · cases found with
          | none => exact absurd (seek other early) (List.not_lt.mpr otherAfter)
          | some best =>
              obtain ⟨_, _, bestLeast⟩ := seek
              exact List.le_trans (List.le_of_lt (by simpa using least)) (bestLeast other early otherAfter)
        · rw [List.mem_singleton.mp now]
          exact List.le_refl _
      · cases found with
        | none =>
            intro other listed
            rcases List.mem_append.mp listed with early | now
            · exact seek other early
            · rw [List.mem_singleton.mp now]
              exact List.not_le.mp fun after => better ⟨after, rfl⟩
        | some best =>
            obtain ⟨member, bestAfter, bestLeast⟩ := seek
            refine ⟨List.mem_append_left _ member, bestAfter, ?_⟩
            intro other listed otherAfter
            rcases List.mem_append.mp listed with early | now
            · exact bestLeast other early otherAfter
            · rw [List.mem_singleton.mp now] at otherAfter ⊢
              exact List.not_lt.mp fun less => better ⟨otherAfter, by simpa using less⟩

theorem seekFound_seekForward (s : AList fun _ : List α => β) (target : List α) :
    SeekFound s.entries target (s.seekForward target) := by
  exact seekFound_foldl target s.entries [] none (fun _ member => by cases member)

theorem seekForward_eq_some {s : AList fun _ : List α => β} {target key : List α} {value : β}
    (found : s.seekForward target = some (key, value)) :
    s.lookup key = some value ∧ target ≤ key ∧ ∀ key' ∈ s, target ≤ key' → key ≤ key' := by
  have seek := s.seekFound_seekForward target
  rw [found] at seek
  obtain ⟨member, after, least⟩ := seek
  refine ⟨AList.mem_lookup_iff.mpr member, after, ?_⟩
  intro key' present after'
  obtain ⟨value', found'⟩ := Option.isSome_iff_exists.mp (AList.lookup_isSome.mpr present)
  exact least ⟨key', value'⟩ (AList.mem_lookup_iff.mp found') after'

theorem seekForward_eq_none {s : AList fun _ : List α => β} {target : List α}
    (found : s.seekForward target = none) : ∀ key ∈ s, key < target := by
  have seek := s.seekFound_seekForward target
  rw [found] at seek
  intro key present
  obtain ⟨value, lookup⟩ := Option.isSome_iff_exists.mp (AList.lookup_isSome.mpr present)
  exact seek ⟨key, value⟩ (AList.mem_lookup_iff.mp lookup)

theorem seekForward_of_least {s : AList fun _ : List α => β} {target key : List α} {value : β}
    (found : s.lookup key = some value) (after : target ≤ key)
    (least : ∀ key' ∈ s, target ≤ key' → key ≤ key') : s.seekForward target = some (key, value) := by
  have present : key ∈ s := AList.lookup_isSome.mp (by rw [found]; rfl)
  cases seek : s.seekForward target with
  | none => exact absurd (seekForward_eq_none seek key present) (List.not_lt.mpr after)
  | some entry =>
      obtain ⟨key', value'⟩ := entry
      obtain ⟨found', after', least'⟩ := seekForward_eq_some seek
      have present' : key' ∈ s := AList.lookup_isSome.mp (by rw [found']; rfl)
      have same : key' = key := List.le_antisymm (least' key present after) (least key' present' after')
      subst same
      rw [found, Option.some.injEq] at found'
      rw [found']

end AList
