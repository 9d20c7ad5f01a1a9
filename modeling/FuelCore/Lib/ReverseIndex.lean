import FuelCore.Lib.AList
import Mathlib.Algebra.BigOperators.Group.Finset.Basic

/-! # Reverse indexes and totals over a map

A reverse index over a map of owners sends every key an owner holds to that owner,
as the caches of a transaction pool send a spent coin to the transaction spending it.
The index stays exact when an owner is added under a fresh name with keys nobody
holds and its keys are inserted, and when an owner is removed and its keys are
erased. In an exact index a key has one owner at most. The total of a quantity over
the values of a map follows the same inserts and erases.
-/

namespace AList

variable {κ ι β : Type*} [DecidableEq κ]

/-! ## Inserting and erasing many keys -/

/-- Map every key of `keys` to `owner`, one after the other. -/
def insertKeys (keys : List κ) (owner : ι) (index : AList fun _ : κ => ι) :
    AList fun _ : κ => ι :=
  keys.foldl (fun index key => index.insert key owner) index

/-- Erase every key of `keys`, one after the other. -/
def eraseKeys (keys : List κ) (index : AList fun _ : κ => ι) : AList fun _ : κ => ι :=
  keys.foldl (fun index key => index.erase key) index

@[simp] theorem insertKeys_nil (owner : ι) (index : AList fun _ : κ => ι) :
    insertKeys [] owner index = index := rfl

@[simp] theorem insertKeys_cons (key : κ) (keys : List κ) (owner : ι)
    (index : AList fun _ : κ => ι) :
    insertKeys (key :: keys) owner index = insertKeys keys owner (index.insert key owner) := rfl

@[simp] theorem eraseKeys_nil (index : AList fun _ : κ => ι) : eraseKeys [] index = index := rfl

@[simp] theorem eraseKeys_cons (key : κ) (keys : List κ) (index : AList fun _ : κ => ι) :
    eraseKeys (key :: keys) index = eraseKeys keys (index.erase key) := rfl

@[simp] theorem lookup_insertKeys (keys : List κ) (owner : ι) (index : AList fun _ : κ => ι)
    (key : κ) :
    (insertKeys keys owner index).lookup key =
      if key ∈ keys then some owner else index.lookup key := by
  induction keys generalizing index with
  | nil => simp
  | cons first rest induction =>
      rw [insertKeys_cons, induction]
      by_cases here : key = first
      · subst here
        simp [lookup_insert]
      · simp [here, lookup_insert_ne here]

@[simp] theorem lookup_eraseKeys (keys : List κ) (index : AList fun _ : κ => ι) (key : κ) :
    (eraseKeys keys index).lookup key = if key ∈ keys then none else index.lookup key := by
  induction keys generalizing index with
  | nil => simp
  | cons first rest induction =>
      rw [eraseKeys_cons, induction]
      by_cases here : key = first
      · subst here
        simp [lookup_erase]
      · simp [here, lookup_erase_ne here]

theorem lookup_eraseKeys_congr {keys keys' : List κ} (same : ∀ key, key ∈ keys ↔ key ∈ keys')
    (index : AList fun _ : κ => ι) (key : κ) :
    (eraseKeys keys index).lookup key = (eraseKeys keys' index).lookup key := by
  rw [lookup_eraseKeys, lookup_eraseKeys]
  by_cases listed : key ∈ keys
  · rw [if_pos listed, if_pos ((same key).mp listed)]
  · rw [if_neg listed, if_neg fun listed' => listed ((same key).mpr listed')]

theorem eraseKeys_append (keys keys' : List κ) (index : AList fun _ : κ => ι) :
    eraseKeys (keys ++ keys') index = eraseKeys keys' (eraseKeys keys index) :=
  List.foldl_append

theorem foldl_eraseKeys {σ α : Type*} (index : σ → AList fun _ : κ => ι) (step : σ → α → σ)
    (keys : α → List κ) (erases : ∀ state element,
      index (step state element) = eraseKeys (keys element) (index state))
    (elements : List α) (state : σ) :
    index (elements.foldl step state) = eraseKeys (elements.flatMap keys) (index state) := by
  induction elements generalizing state with
  | nil => rfl
  | cons element elements induction =>
      rw [List.foldl_cons, induction, erases, List.flatMap_cons, eraseKeys_append]

theorem insertKeys_filterMap {α : Type*} (pick : α → Option κ) (elements : List α) (owner : ι)
    (index : AList fun _ : κ => ι) :
    insertKeys (elements.filterMap pick) owner index =
      elements.foldl (fun index element => ((pick element).map (index.insert · owner)).getD index)
        index := by
  rw [insertKeys, List.foldl_filterMap]
  congr
  funext index element
  cases pick element <;> rfl

theorem eraseKeys_filterMap {α : Type*} (pick : α → Option κ) (elements : List α)
    (index : AList fun _ : κ => ι) :
    eraseKeys (elements.filterMap pick) index =
      elements.foldl (fun index element => ((pick element).map index.erase).getD index) index := by
  rw [eraseKeys, List.foldl_filterMap]
  congr
  funext index element
  cases pick element <;> rfl

/-! ## Exact reverse indexes -/

/-- `index` is the reverse index of the values `owners` gives: a key leads to an owner
exactly when that owner's value holds the key. -/
def IsIndexOf (keysOf : β → List κ) (owners : ι → Option β) (index : AList fun _ : κ => ι) :
    Prop :=
  ∀ key owner, index.lookup key = some owner ↔
    ∃ value, owners owner = some value ∧ key ∈ keysOf value

theorem isIndexOf_empty (keysOf : β → List κ) :
    IsIndexOf keysOf (fun _ : ι => none) (∅ : AList fun _ : κ => ι) := by
  intro key owner
  simp [lookup_empty]

section Exact

variable {keysOf : β → List κ} {owners : ι → Option β} {index : AList fun _ : κ => ι}

theorem IsIndexOf.owner_unique (exact : IsIndexOf keysOf owners index) {key : κ}
    {first second : ι} {firstValue secondValue : β}
    (firstFound : owners first = some firstValue) (firstHolds : key ∈ keysOf firstValue)
    (secondFound : owners second = some secondValue) (secondHolds : key ∈ keysOf secondValue) :
    first = second := by
  have toFirst := (exact key first).mpr ⟨firstValue, firstFound, firstHolds⟩
  have toSecond := (exact key second).mpr ⟨secondValue, secondFound, secondHolds⟩
  rw [toFirst] at toSecond
  exact Option.some.inj toSecond

theorem IsIndexOf.disjoint (exact : IsIndexOf keysOf owners index) {first second : ι}
    {firstValue secondValue : β} (different : first ≠ second)
    (firstFound : owners first = some firstValue) (secondFound : owners second = some secondValue) :
    (keysOf firstValue).Disjoint (keysOf secondValue) :=
  fun _ firstHolds secondHolds =>
    different (exact.owner_unique firstFound firstHolds secondFound secondHolds)

theorem IsIndexOf.lookup_of_unheld (exact : IsIndexOf keysOf owners index) {key : κ}
    (unheld : ∀ owner value, owners owner = some value → key ∉ keysOf value) :
    index.lookup key = none := by
  cases found : index.lookup key with
  | none => rfl
  | some owner =>
      obtain ⟨value, valueFound, holds⟩ := (exact key owner).mp found
      exact absurd holds (unheld owner value valueFound)

theorem IsIndexOf.congr (exact : IsIndexOf keysOf owners index) {owners' : ι → Option β}
    (same : ∀ owner, (owners' owner).map keysOf = (owners owner).map keysOf) :
    IsIndexOf keysOf owners' index := by
  intro key owner
  rw [exact key owner]
  have sameAt := same owner
  constructor
  · rintro ⟨value, found, holds⟩
    cases found' : owners' owner with
    | none => simp [found, found'] at sameAt
    | some value' =>
        simp only [found, found', Option.map_some, Option.some.injEq] at sameAt
        exact ⟨value', rfl, sameAt ▸ holds⟩
  · rintro ⟨value', found', holds⟩
    cases found : owners owner with
    | none => simp [found, found'] at sameAt
    | some value =>
        simp only [found, found', Option.map_some, Option.some.injEq] at sameAt
        exact ⟨value, rfl, sameAt ▸ holds⟩

theorem IsIndexOf.lookup_congr (exact : IsIndexOf keysOf owners index)
    {index' : AList fun _ : κ => ι} (same : ∀ key, index'.lookup key = index.lookup key) :
    IsIndexOf keysOf owners index' := by
  intro key owner
  rw [same key]
  exact exact key owner

theorem IsIndexOf.lookup_of_le (exact : IsIndexOf keysOf owners index)
    {owners' : ι → Option β} {index' : AList fun _ : κ => ι}
    (exact' : IsIndexOf keysOf owners' index')
    (below : ∀ owner value, owners' owner = some value → owners owner = some value) {key : κ}
    {owner : ι} (found : index'.lookup key = some owner) : index.lookup key = some owner := by
  obtain ⟨value, valueFound, holds⟩ := (exact' key owner).mp found
  exact (exact key owner).mpr ⟨value, below owner value valueFound, holds⟩

variable [DecidableEq ι]

theorem IsIndexOf.eraseOwner (exact : IsIndexOf keysOf owners index) (owner : ι)
    (keys : List κ) (covers : ∀ value, owners owner = some value → ∀ key ∈ keysOf value, key ∈ keys)
    (onlyOwner : ∀ key ∈ keys, ∀ holder value, owners holder = some value → key ∈ keysOf value →
      holder = owner) :
    IsIndexOf keysOf (Function.update owners owner none) (eraseKeys keys index) := by
  intro key holder
  rw [lookup_eraseKeys]
  by_cases erased : key ∈ keys
  · simp only [erased, if_true, reduceCtorEq, false_iff, not_exists, not_and]
    intro value found holds
    by_cases same : holder = owner
    · subst same
      simp at found
    · rw [Function.update_of_ne same] at found
      exact same (onlyOwner key erased holder value found holds)
  · simp only [erased, if_false]
    rw [exact key holder]
    constructor
    · rintro ⟨value, found, holds⟩
      have different : holder ≠ owner := by
        rintro rfl
        exact erased (covers value found key holds)
      exact ⟨value, by rwa [Function.update_of_ne different], holds⟩
    · rintro ⟨value, found, holds⟩
      have different : holder ≠ owner := by
        rintro rfl
        simp at found
      exact ⟨value, by rwa [Function.update_of_ne different] at found, holds⟩

theorem IsIndexOf.erase (exact : IsIndexOf keysOf owners index) {owner : ι} {value : β}
    (found : owners owner = some value) :
    IsIndexOf keysOf (Function.update owners owner none) (eraseKeys (keysOf value) index) := by
  apply exact.eraseOwner owner
  · intro value' found' key holds
    rw [found, Option.some.injEq] at found'
    exact found' ▸ holds
  · intro key held holder value' found' holds
    exact exact.owner_unique found' holds found held

theorem IsIndexOf.eraseOwners (exact : IsIndexOf keysOf owners index) (removed : List (ι × β))
    (covers : ∀ entry ∈ removed, ∀ value, owners entry.1 = some value →
      ∀ key ∈ keysOf value, key ∈ keysOf entry.2)
    (unique : ∀ entry ∈ removed, ∀ key ∈ keysOf entry.2, ∀ holder value,
      owners holder = some value → key ∈ keysOf value → holder = entry.1) :
    IsIndexOf keysOf (fun owner => if owner ∈ removed.map Prod.fst then none else owners owner)
      (eraseKeys (removed.flatMap fun entry => keysOf entry.2) index) := by
  intro key holder
  rw [lookup_eraseKeys]
  by_cases erased : key ∈ removed.flatMap fun entry => keysOf entry.2
  · simp only [erased, if_true, reduceCtorEq, false_iff, not_exists, not_and]
    intro value found holds
    obtain ⟨entry, listed, entryHolds⟩ := List.mem_flatMap.mp erased
    split_ifs at found with gone
    have same := unique entry listed key entryHolds holder value found holds
    exact gone (same ▸ List.mem_map_of_mem listed)
  · simp only [erased, if_false]
    rw [exact key holder]
    constructor
    · rintro ⟨value, found, holds⟩
      have kept : holder ∉ removed.map Prod.fst := by
        intro gone
        obtain ⟨entry, listed, same⟩ := List.mem_map.mp gone
        have covered := covers entry listed value (same ▸ found) key holds
        exact erased (List.mem_flatMap.mpr ⟨entry, listed, covered⟩)
      exact ⟨value, by rwa [if_neg kept], holds⟩
    · rintro ⟨value, found, holds⟩
      split_ifs at found
      exact ⟨value, found, holds⟩

theorem IsIndexOf.eraseFound (exact : IsIndexOf keysOf owners index) (removed : List (ι × β))
    (found : ∀ entry ∈ removed, owners entry.1 = some entry.2) :
    IsIndexOf keysOf (fun owner => if owner ∈ removed.map Prod.fst then none else owners owner)
      (eraseKeys (removed.flatMap fun entry => keysOf entry.2) index) := by
  apply exact.eraseOwners removed
  · intro entry listed value holds key held
    rw [found entry listed, Option.some.injEq] at holds
    exact holds ▸ held
  · intro entry listed key held holder value holds holderHolds
    exact exact.owner_unique holds holderHolds (found entry listed) held

theorem IsIndexOf.insert (exact : IsIndexOf keysOf owners index) {owner : ι} {value : β}
    (stale : ∀ old, owners owner = some old → ∀ key ∈ keysOf old, key ∈ keysOf value)
    (unheld : ∀ key ∈ keysOf value, ∀ holder, index.lookup key = some holder → holder = owner) :
    IsIndexOf keysOf (Function.update owners owner (some value))
      (insertKeys (keysOf value) owner index) := by
  intro key holder
  rw [lookup_insertKeys]
  by_cases held : key ∈ keysOf value
  · simp only [held, if_true, Option.some.injEq]
    constructor
    · rintro rfl
      exact ⟨value, by simp, held⟩
    · rintro ⟨other, otherFound, otherHolds⟩
      by_contra different
      rw [Function.update_of_ne (Ne.symm different)] at otherFound
      have indexed := (exact key holder).mpr ⟨other, otherFound, otherHolds⟩
      exact different (unheld key held holder indexed).symm
  · simp only [held, if_false]
    rw [exact key holder]
    constructor
    · rintro ⟨other, otherFound, otherHolds⟩
      have different : holder ≠ owner := by
        rintro rfl
        exact held (stale other otherFound key otherHolds)
      exact ⟨other, by rwa [Function.update_of_ne different], otherHolds⟩
    · rintro ⟨other, otherFound, otherHolds⟩
      by_cases same : holder = owner
      · subst same
        simp only [Function.update_self, Option.some.injEq] at otherFound
        exact absurd (otherFound ▸ otherHolds) held
      · exact ⟨other, by rwa [Function.update_of_ne same] at otherFound, otherHolds⟩

end Exact

/-! ## Totals -/

variable [DecidableEq ι]

def total (f : β → ℕ) (s : AList fun _ : ι => β) : ℕ :=
  ∑ owner ∈ s.keys.toFinset, ((s.lookup owner).map f).getD 0

section Total

variable (f : β → ℕ)

theorem total_empty : total f (∅ : AList fun _ : ι => β) = 0 := rfl

theorem total_congr {s s' : AList fun _ : ι => β}
    (same : ∀ owner, (s'.lookup owner).map f = (s.lookup owner).map f) :
    total f s' = total f s := by
  have sameKeys : s'.keys.toFinset = s.keys.toFinset := by
    ext owner
    have sameAt := congrArg Option.isSome (same owner)
    simp only [Option.isSome_map] at sameAt
    have sameMember : owner ∈ s' ↔ owner ∈ s := by
      rw [← lookup_isSome, ← lookup_isSome, sameAt]
    simpa [← mem_keys] using sameMember
  unfold total
  rw [sameKeys]
  exact Finset.sum_congr rfl fun owner _ => by rw [same owner]

theorem total_insert_of_notMem {s : AList fun _ : ι => β} {owner : ι} (fresh : owner ∉ s)
    (value : β) : total f (s.insert owner value) = f value + total f s := by
  have freshKey : owner ∉ s.keys.toFinset := by simpa [← mem_keys] using fresh
  have insertedKeys : (s.insert owner value).keys.toFinset = Insert.insert owner s.keys.toFinset := by
    ext other
    rw [List.mem_toFinset, ← mem_keys, mem_insert, Finset.mem_insert, List.mem_toFinset,
      ← mem_keys]
  unfold total
  rw [insertedKeys, Finset.sum_insert freshKey, lookup_insert]
  congr 1
  refine Finset.sum_congr rfl fun other member => ?_
  have different : other ≠ owner := by
    rintro rfl
    exact freshKey member
  rw [lookup_insert_ne different]

theorem total_erase_add {s : AList fun _ : ι => β} {owner : ι} {value : β}
    (found : s.lookup owner = some value) : total f (s.erase owner) + f value = total f s := by
  have member : owner ∈ s.keys.toFinset := by
    have present : owner ∈ s := lookup_isSome.mp (by simp [found])
    simpa [← mem_keys] using present
  have erasedKeys : (s.erase owner).keys.toFinset = s.keys.toFinset.erase owner := by
    ext other
    rw [List.mem_toFinset, ← mem_keys, mem_erase, Finset.mem_erase, List.mem_toFinset, ← mem_keys]
  unfold total
  rw [erasedKeys, ← Finset.sum_erase_add _ _ member, found]
  congr 1
  refine Finset.sum_congr rfl fun other kept => ?_
  rw [lookup_erase_ne (Finset.ne_of_mem_erase kept)]

theorem total_eraseKeys_add (owners : List ι) (distinct : owners.Nodup)
    (s : AList fun _ : ι => β) :
    total f (eraseKeys owners s) + (owners.map fun owner => ((s.lookup owner).map f).getD 0).sum =
      total f s := by
  induction owners generalizing s with
  | nil => simp
  | cons first rest induction =>
      obtain ⟨fresh, restDistinct⟩ := List.nodup_cons.mp distinct
      have restSame : (rest.map fun owner => (((s.erase first).lookup owner).map f).getD 0) =
          rest.map fun owner => ((s.lookup owner).map f).getD 0 := by
        refine List.map_congr_left fun owner listed => ?_
        have different : owner ≠ first := fun same => fresh (same ▸ listed)
        rw [lookup_erase_ne different]
      have erasedFirst : total f (s.erase first) + ((s.lookup first).map f).getD 0 = total f s := by
        cases found : s.lookup first with
        | some value => exact total_erase_add f found
        | none =>
            simp only [Option.map_none, Option.getD_none, Nat.add_zero]
            apply total_congr
            intro owner
            by_cases same : owner = first
            · subst same
              simp [found]
            · rw [lookup_erase_ne same]
      have restErased := induction restDistinct (s.erase first)
      rw [restSame] at restErased
      rw [eraseKeys_cons, List.map_cons, List.sum_cons]
      omega

end Total

theorem total_one (s : AList fun _ : ι => β) : total (fun _ => 1) s = s.entries.length := by
  have each : ∀ owner ∈ s.keys.toFinset, ((s.lookup owner).map fun _ => 1).getD 0 = 1 := by
    intro owner member
    have present : owner ∈ s := mem_keys.mpr (List.mem_toFinset.mp member)
    obtain ⟨value, found⟩ := Option.isSome_iff_exists.mp (lookup_isSome.mpr present)
    rw [found]
    rfl
  unfold total
  rw [Finset.sum_congr rfl each, ← Finset.card_eq_sum_ones, List.toFinset_card_of_nodup s.keys_nodup]
  simp [keys, List.keys]

end AList
