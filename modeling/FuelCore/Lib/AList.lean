import Mathlib.Data.List.AList
import Mathlib.Algebra.GroupWithZero.Nat

/-! # Association-list maps as Rust uses them

Two patterns of Rust's map API over Mathlib's `AList`: `entry(a).or_default()`
followed by an update of the value, and a loop that inserts every entry of another
map in turn. Later inserts win, so the loop is a left-biased union as soon as the
inserted entries have distinct keys.
-/

namespace AList

variable {α : Type*} {β : α → Type*} [DecidableEq α]

/-- `entry(a).or_default()` followed by `f`: the value at `a`, or `d` where `a` is
absent, replaced by its image under `f`. -/
def modifyD (a : α) (d : β a) (f : β a → β a) (s : AList β) : AList β :=
  s.insert a (f ((s.lookup a).getD d))

@[simp] theorem lookup_modifyD_self (a : α) (d : β a) (f : β a → β a) (s : AList β) :
    (s.modifyD a d f).lookup a = some (f ((s.lookup a).getD d)) :=
  lookup_insert s

@[simp] theorem lookup_modifyD_of_ne {a a' : α} (d : β a) (f : β a → β a) (s : AList β)
    (different : a' ≠ a) : (s.modifyD a d f).lookup a' = s.lookup a' :=
  lookup_insert_ne different

/-- Insert the entries of `entries` one after the other, as `for (k, v) in other { map.insert(k, v) }`. -/
def insertEach (entries : List (Sigma β)) (s : AList β) : AList β :=
  entries.foldl (fun map entry => map.insert entry.1 entry.2) s

@[simp] theorem insertEach_nil (s : AList β) : insertEach [] s = s := rfl

@[simp] theorem insertEach_cons (entry : Sigma β) (entries : List (Sigma β)) (s : AList β) :
    insertEach (entry :: entries) s = insertEach entries (s.insert entry.1 entry.2) := rfl

theorem lookup_insertEach {entries : List (Sigma β)} (distinct : entries.NodupKeys)
    (s : AList β) (a : α) :
    (insertEach entries s).lookup a = (entries.dlookup a).or (s.lookup a) := by
  induction entries generalizing s with
  | nil => simp
  | cons entry entries induction =>
      obtain ⟨key, value⟩ := entry
      obtain ⟨fresh, restDistinct⟩ := List.nodupKeys_cons.mp distinct
      rw [insertEach_cons, induction restDistinct]
      by_cases here : a = key
      · subst here
        have absent : entries.dlookup a = none := List.dlookup_eq_none.mpr fresh
        simp [absent, lookup_insert, List.dlookup_cons_eq]
      · rw [lookup_insert_ne here, List.dlookup_cons_ne _ _ here]

/-! ## Loops over entries with distinct keys -/

section Distinct

variable {ν γ : Type*}

theorem foldl_update_apply (entries : List (Σ _ : α, ν)) (distinct : entries.NodupKeys)
    (f : α → ν → γ → γ) (slots : α → γ) (a : α) :
    (entries.foldl (fun slots entry => Function.update slots entry.1
      (f entry.1 entry.2 (slots entry.1))) slots) a =
      (entries.dlookup a).elim (slots a) fun value => f a value (slots a) := by
  induction entries generalizing slots with
  | nil => rfl
  | cons entry entries induction =>
      obtain ⟨key, value⟩ := entry
      obtain ⟨fresh, restDistinct⟩ := List.nodupKeys_cons.mp distinct
      rw [List.foldl_cons, induction restDistinct]
      by_cases here : a = key
      · subst here
        have absent : entries.dlookup a = none := List.dlookup_eq_none.mpr fresh
        simp [absent, List.dlookup_cons_eq]
      · rw [List.dlookup_cons_ne _ _ here]
        cases entries.dlookup a <;> simp [Function.update_of_ne here]

/-- A loop of `entry(key).or_default()` updates over distinct keys. -/
theorem lookup_foldl_modifyD (entries : List (Σ _ : α, ν)) (distinct : entries.NodupKeys)
    (d : γ) (f : α → ν → γ → γ) (s : AList fun _ : α => γ) (a : α) :
    (entries.foldl (fun s entry => s.modifyD entry.1 d (f entry.1 entry.2)) s).lookup a =
      (entries.dlookup a).elim (s.lookup a) fun value => some (f a value ((s.lookup a).getD d)) := by
  induction entries generalizing s with
  | nil => rfl
  | cons entry entries induction =>
      obtain ⟨key, value⟩ := entry
      obtain ⟨fresh, restDistinct⟩ := List.nodupKeys_cons.mp distinct
      rw [List.foldl_cons, induction restDistinct]
      by_cases here : a = key
      · subst here
        have absent : entries.dlookup a = none := List.dlookup_eq_none.mpr fresh
        simp [absent, List.dlookup_cons_eq]
      · rw [List.dlookup_cons_ne _ _ here]
        cases entries.dlookup a <;> simp [lookup_modifyD_of_ne _ _ _ here]

/-- A loop over distinct keys whose step answers a lookup of its entry's key from what the
entry gives first and from the map second, and any other lookup from the map. -/
theorem lookup_foldl_of_step (entries : List (Σ _ : α, ν)) (distinct : entries.NodupKeys)
    (step : (AList fun _ : α => γ) → (Σ _ : α, ν) → AList fun _ : α => γ)
    (g : α → ν → Option γ)
    (stepLookup : ∀ s key value a, (step s ⟨key, value⟩).lookup a =
      if a = key then (g key value).or (s.lookup a) else s.lookup a)
    (s : AList fun _ : α => γ) (a : α) :
    (entries.foldl step s).lookup a =
      (entries.dlookup a).elim (s.lookup a) fun value => (g a value).or (s.lookup a) := by
  induction entries generalizing s with
  | nil => rfl
  | cons entry entries induction =>
      obtain ⟨key, value⟩ := entry
      obtain ⟨fresh, restDistinct⟩ := List.nodupKeys_cons.mp distinct
      rw [List.foldl_cons, induction restDistinct, stepLookup]
      by_cases here : a = key
      · subst here
        have absent : entries.dlookup a = none := List.dlookup_eq_none.mpr fresh
        simp [absent, List.dlookup_cons_eq]
      · rw [List.dlookup_cons_ne _ _ here]
        simp [here]

end Distinct

/-! ## Loops that only add keys -/

section Loops

variable {γ : Type*} (step : AList β → γ → AList β)

omit [DecidableEq α] in
theorem mem_foldl_of_mem (keeps : ∀ s element a, a ∈ s → a ∈ step s element)
    (elements : List γ) {s : AList β} {a : α} (member : a ∈ s) : a ∈ elements.foldl step s := by
  induction elements generalizing s with
  | nil => exact member
  | cons element elements induction => exact induction (keeps s element a member)

omit [DecidableEq α] in
theorem mem_foldl_of_step (keeps : ∀ s element a, a ∈ s → a ∈ step s element)
    {elements : List γ} {element : γ} (listed : element ∈ elements) {a : α}
    (puts : ∀ s, a ∈ step s element) (s : AList β) : a ∈ elements.foldl step s := by
  induction elements generalizing s with
  | nil => cases listed
  | cons first rest induction =>
      rw [List.foldl_cons]
      rcases List.mem_cons.mp listed with here | later
      · subst here
        exact mem_foldl_of_mem step keeps rest (puts s)
      · exact induction later _

end Loops

/-! ## Sums of values -/

section Sum

variable {ν : Type*} (f : ν → ℕ)

/-- The sum of the values of a map, each counted by `f`. -/
def valueSum (s : AList fun _ : α => ν) : ℕ :=
  (s.entries.map fun entry => f entry.2).sum

omit [DecidableEq α] in
@[simp] theorem valueSum_empty : valueSum f (∅ : AList fun _ : α => ν) = 0 := rfl

theorem sum_kerase_add (entries : List (Σ _ : α, ν)) (a : α) :
    ((entries.kerase a).map fun entry => f entry.2).sum + (entries.dlookup a).elim 0 f =
      (entries.map fun entry => f entry.2).sum := by
  induction entries with
  | nil => rfl
  | cons entry entries induction =>
      obtain ⟨key, value⟩ := entry
      by_cases here : a = key
      · subst here
        have first : a = (⟨a, value⟩ : Σ _ : α, ν).1 := rfl
        rw [List.kerase_cons_eq first, List.dlookup_cons_eq, List.map_cons, List.sum_cons]
        exact Nat.add_comm _ _
      · rw [List.kerase_cons_ne here, List.dlookup_cons_ne _ _ here, List.map_cons, List.sum_cons,
          List.map_cons, List.sum_cons, Nat.add_assoc, induction]

theorem valueSum_erase_add (s : AList fun _ : α => ν) (a : α) :
    valueSum f (s.erase a) + (s.lookup a).elim 0 f = valueSum f s :=
  sum_kerase_add f s.entries a

theorem valueSum_insert (s : AList fun _ : α => ν) (a : α) (b : ν) :
    valueSum f (s.insert a b) = f b + valueSum f (s.erase a) := by
  rw [valueSum, entries_insert, List.map_cons, List.sum_cons]
  rfl

theorem valueSum_erase_of_lookup {s : AList fun _ : α => ν} {a : α} {b : ν}
    (found : s.lookup a = some b) : valueSum f (s.erase a) = valueSum f s - f b := by
  have erased := valueSum_erase_add f s a
  rw [found] at erased
  exact (Nat.sub_eq_of_eq_add erased.symm).symm

theorem valueSum_insert_of_lookup_none {s : AList fun _ : α => ν} {a : α}
    (absent : s.lookup a = none) (b : ν) : valueSum f (s.insert a b) = f b + valueSum f s := by
  have erased := valueSum_erase_add f s a
  rw [absent] at erased
  rw [valueSum_insert, ← erased]
  rfl

theorem valueSum_insert_of_lookup {s : AList fun _ : α => ν} {a : α} {b b' : ν}
    (found : s.lookup a = some b) (same : f b' = f b) :
    valueSum f (s.insert a b') = valueSum f s := by
  have erased := valueSum_erase_add f s a
  rw [found] at erased
  rw [valueSum_insert, same, ← erased]
  exact Nat.add_comm _ _

end Sum

/-! ## Retaining entries while changing their values -/

section Retain

variable (f : (a : α) → β a → Option (β a))

omit [DecidableEq α] in
theorem keys_filterMap_sublist (entries : List (Sigma β)) :
    List.Sublist (entries.filterMap fun entry => (f entry.1 entry.2).map (Sigma.mk entry.1)).keys
      entries.keys := by
  induction entries with
  | nil => simp
  | cons entry entries induction =>
      obtain ⟨a, b⟩ := entry
      cases image : f a b with
      | none => simpa [List.filterMap_cons, image] using induction.cons a
      | some kept => simpa [List.filterMap_cons, image] using induction.cons_cons a

/-- `HashMap::retain` with a closure that also changes the values it keeps: each value is
replaced by its image under `f`, and its entry dropped where `f` gives none. -/
def retainMap (s : AList β) : AList β :=
  ⟨s.entries.filterMap fun entry => (f entry.1 entry.2).map (Sigma.mk entry.1),
    List.Nodup.sublist (keys_filterMap_sublist f s.entries) s.nodupKeys⟩

theorem dlookup_filterMap (entries : List (Sigma β)) (distinct : entries.NodupKeys) (a : α) :
    (entries.filterMap fun entry => (f entry.1 entry.2).map (Sigma.mk entry.1)).dlookup a =
      (entries.dlookup a).bind (f a) := by
  induction entries with
  | nil => rfl
  | cons entry entries induction =>
      obtain ⟨key, value⟩ := entry
      obtain ⟨fresh, restDistinct⟩ := List.nodupKeys_cons.mp distinct
      by_cases here : a = key
      · subst here
        have absent : a ∉ (entries.filterMap fun entry =>
            (f entry.1 entry.2).map (Sigma.mk entry.1)).keys :=
          fun member => fresh ((keys_filterMap_sublist f entries).subset member)
        cases image : f a value with
        | none => simp [image, List.dlookup_eq_none.mpr absent]
        | some kept => simp [image]
      · rw [List.dlookup_cons_ne _ _ here, ← induction restDistinct]
        cases image : f key value with
        | none => simp [image]
        | some kept => simp [image, List.dlookup_cons_ne _ ⟨key, kept⟩ here]

theorem lookup_retainMap (s : AList β) (a : α) :
    (s.retainMap f).lookup a = (s.lookup a).bind (f a) :=
  dlookup_filterMap f s.entries s.nodupKeys a

omit [DecidableEq α] in
theorem sum_filterMap_le {ν : Type*} (g : ν → ℕ) (keep : α → ν → Option ν)
    (shrinks : ∀ a value kept, keep a value = some kept → g kept ≤ g value)
    (entries : List (Σ _ : α, ν)) :
    ((entries.filterMap fun entry => (keep entry.1 entry.2).map
      fun kept => (⟨entry.1, kept⟩ : Σ _ : α, ν)).map fun entry => g entry.2).sum ≤
      (entries.map fun entry => g entry.2).sum := by
  induction entries with
  | nil => simp
  | cons entry entries induction =>
      obtain ⟨a, value⟩ := entry
      cases kept : keep a value with
      | none =>
          simp [kept]
          omega
      | some image =>
          have smaller := shrinks a value image kept
          simp [kept]
          omega

omit [DecidableEq α] in
theorem valueSum_retainMap_le {ν : Type*} (g : ν → ℕ) (keep : α → ν → Option ν)
    (shrinks : ∀ a value kept, keep a value = some kept → g kept ≤ g value)
    (s : AList fun _ : α => ν) : valueSum g (s.retainMap keep) ≤ valueSum g s :=
  sum_filterMap_le g keep shrinks s.entries

end Retain

end AList
