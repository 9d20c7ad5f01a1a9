import Mathlib.Data.List.Basic

/-! # Key-value stores

The byte-level store traits of `kv_store.rs` (`KeyValueInspect`, `KeyValueMutate`,
`BatchOperations`) as classes whose default fields are the traits' default methods,
and the store they describe: a map from a column and a key to a value.

A store's reads and writes return the `StorageResult` of the source as
`Except StorageError`; a write returns the store it leaves behind. Columns are their
`u32` ids: every store of the repository keys its columns by `column.id()`. Offsets
and lengths are `Nat`, since `saturating_add` only differs from addition past
`usize::MAX`, which no value reaches.
-/

namespace FuelCore.Storage

/-- `Key = Vec<u8>` and `Value = Arc<[u8]>`. -/
abbrev Bytes := List UInt8

inductive WriteOperation
  | insert (value : Bytes)
  | remove
  deriving DecidableEq, Repr

/-- What an operation leaves at its key. -/
def WriteOperation.value : WriteOperation → Option Bytes
  | insert value => some value
  | remove => none

/-- `fuel_storage::StorageReadError`. -/
inductive StorageReadError
  | keyNotFound
  | outOfBounds
  deriving DecidableEq, Repr

/-- The storage errors the modelled code raises or passes on: the conflict a
`ConflictPolicy::Fail` commit reports, and any error of an underlying store. -/
inductive StorageError
  | conflictingOperation (operation : WriteOperation) (key : Bytes)
  | other (message : String)
  deriving DecidableEq, Repr

/-- The reply of `read_exact` and `read_zerofill`. -/
abbrev ReadOutcome := Except StorageError (Except StorageReadError Nat)

/-! ## The slicing of the reads -/

/-- `read_exact` on a found value: `value[offset..offset + buf.len()]` replaces the
buffer, or the read fails with the buffer untouched. -/
def readExactValue (value : Bytes) (offset : Nat) (buf : Bytes) :
    Except StorageReadError Nat × Bytes :=
  if offset + buf.length ≤ value.length then
    (.ok buf.length, (value.drop offset).take buf.length)
  else (.error .outOfBounds, buf)

/-- `read_zerofill` on a found value: `split_at_checked(offset)`, then the bytes after
the offset fill the front of the buffer and zeros the rest; the reply is the length
of the whole value. -/
def readZerofillValue (value : Bytes) (offset : Nat) (buf : Bytes) :
    Except StorageReadError Nat × Bytes :=
  if offset ≤ value.length then
    let after := value.drop offset
    let copied := min buf.length after.length
    (.ok value.length, after.take copied ++ List.replicate (buf.length - copied) 0)
  else (.error .outOfBounds, buf)

/-- The default reads around their slicing: the error of `self.get` is passed on and
a missing key is `KeyNotFound`, both with the buffer untouched. -/
def readFound (slice : Bytes → Nat → Bytes → Except StorageReadError Nat × Bytes)
    (found : Except StorageError (Option Bytes)) (offset : Nat) (buf : Bytes) :
    ReadOutcome × Bytes :=
  match found with
  | .error error => (.error error, buf)
  | .ok none => (.ok (.error .keyNotFound), buf)
  | .ok (some value) =>
      let sliced := slice value offset buf
      (.ok sliced.1, sliced.2)

/-! ## The traits -/

/-- `KeyValueInspect`: a store implements `get` and inherits the other reads. -/
class KeyValueInspect (S : Type) where
  get : S → Bytes → Nat → Except StorageError (Option Bytes)
  sizeOfValue : S → Bytes → Nat → Except StorageError (Option Nat) :=
    fun store key column => (get store key column).map (Option.map List.length)
  «exists» : S → Bytes → Nat → Except StorageError Bool :=
    fun store key column => (sizeOfValue store key column).map Option.isSome
  readExact : S → Bytes → Nat → Nat → Bytes → ReadOutcome × Bytes :=
    fun store key column => readFound readExactValue (get store key column)
  readZerofill : S → Bytes → Nat → Nat → Bytes → ReadOutcome × Bytes :=
    fun store key column => readFound readZerofillValue (get store key column)

/-- The default `replace` and `take`: read the old value, run the mutation, and
return the old value unless one of the two failed. -/
def returningOld {S : Type} (store : S) (old : Except StorageError (Option Bytes))
    (mutate : S → S × Except StorageError Unit) : S × Except StorageError (Option Bytes) :=
  match old with
  | .error error => (store, .error error)
  | .ok old =>
      let mutated := mutate store
      (mutated.1, mutated.2.map fun _ => old)

/-- `KeyValueMutate`: a store implements `write` and `delete`. -/
class KeyValueMutate (S : Type) extends KeyValueInspect S where
  write : S → Bytes → Nat → Bytes → S × Except StorageError Nat
  delete : S → Bytes → Nat → S × Except StorageError Unit
  put : S → Bytes → Nat → Bytes → S × Except StorageError Unit :=
    fun store key column value =>
      let written := write store key column value
      (written.1, written.2.map fun _ => ())
  replace : S → Bytes → Nat → Bytes → S × Except StorageError (Option Bytes) :=
    fun store key column value =>
      returningOld store (get store key column) fun store => put store key column value
  take : S → Bytes → Nat → S × Except StorageError (Option Bytes) :=
    fun store key column =>
      returningOld store (get store key column) fun store => delete store key column

class BatchOperations (S : Type) extends KeyValueMutate S where
  batchWrite : S → Nat → List (Bytes × WriteOperation) → S × Except StorageError Unit

open KeyValueInspect KeyValueMutate BatchOperations

/-! ## Sequences of writes -/

/-- One call of the mutation API. -/
inductive Operation
  | put (key : Bytes) (column : Nat) (value : Bytes)
  | write (key : Bytes) (column : Nat) (buf : Bytes)
  | replace (key : Bytes) (column : Nat) (value : Bytes)
  | take (key : Bytes) (column : Nat)
  | delete (key : Bytes) (column : Nat)
  | batchWrite (column : Nat) (entries : List (Bytes × WriteOperation))
  deriving DecidableEq, Repr

/-- What a call returns on success. -/
inductive OperationResult
  | done
  | written (length : Nat)
  | previous (value : Option Bytes)
  deriving DecidableEq, Repr

def Operation.run {S : Type} [BatchOperations S] (store : S) :
    Operation → S × Except StorageError OperationResult
  | .put key column value =>
      let after := KeyValueMutate.put store key column value
      (after.1, after.2.map fun _ => .done)
  | .write key column buf =>
      let after := KeyValueMutate.write store key column buf
      (after.1, after.2.map .written)
  | .replace key column value =>
      let after := KeyValueMutate.replace store key column value
      (after.1, after.2.map .previous)
  | .take key column =>
      let after := KeyValueMutate.take store key column
      (after.1, after.2.map .previous)
  | .delete key column =>
      let after := KeyValueMutate.delete store key column
      (after.1, after.2.map fun _ => .done)
  | .batchWrite column entries =>
      let after := BatchOperations.batchWrite store column entries
      (after.1, after.2.map fun _ => .done)

/-- Run calls one after the other, collecting their replies. -/
def runOperations {S : Type} [BatchOperations S] (store : S) :
    List Operation → S × List (Except StorageError OperationResult)
  | [] => (store, [])
  | operation :: operations =>
      let first := operation.run store
      let rest := runOperations first.1 operations
      (rest.1, first.2 :: rest.2)

@[simp] theorem runOperations_nil {S : Type} [BatchOperations S] (store : S) :
    runOperations store [] = (store, []) := rfl

@[simp] theorem runOperations_cons {S : Type} [BatchOperations S] (store : S)
    (operation : Operation) (operations : List Operation) :
    runOperations store (operation :: operations) =
      ((runOperations (operation.run store).1 operations).1,
        (operation.run store).2 :: (runOperations (operation.run store).1 operations).2) := rfl

/-! ## The flat store -/

/-- What a store holds: a value for some keys of each column. -/
@[ext] structure KvMap where
  lookup : Nat → Bytes → Option Bytes

def KvMap.set (m : KvMap) (column : Nat) (key : Bytes) (value : Option Bytes) : KvMap where
  lookup c k := if c = column ∧ k = key then value else m.lookup c k

@[simp] theorem KvMap.lookup_set (m : KvMap) (column : Nat) (key : Bytes)
    (value : Option Bytes) (c : Nat) (k : Bytes) :
    (m.set column key value).lookup c k = if c = column ∧ k = key then value else m.lookup c k :=
  rfl

/-- The flat store implements `get`, `write`, `delete` and `batch_write` and takes
every other method from the traits' defaults. -/
instance : BatchOperations KvMap where
  get m key column := .ok (m.lookup column key)
  write m key column buf := (m.set column key (some buf), .ok buf.length)
  delete m key column := (m.set column key none, .ok ())
  batchWrite m column entries :=
    (entries.foldl (fun m entry => m.set column entry.1 entry.2.value) m, .ok ())

namespace KvMap

variable (m : KvMap) (key : Bytes) (column : Nat)

@[simp] theorem get_eq : get m key column = .ok (m.lookup column key) := rfl

@[simp] theorem sizeOfValue_eq :
    sizeOfValue m key column = .ok ((m.lookup column key).map List.length) := rfl

@[simp] theorem exists_eq :
    KeyValueInspect.exists m key column = .ok (m.lookup column key).isSome := by
  change (sizeOfValue m key column).map Option.isSome = _
  simp [Except.map]

@[simp] theorem readExact_eq (offset : Nat) (buf : Bytes) :
    readExact m key column offset buf =
      readFound readExactValue (.ok (m.lookup column key)) offset buf := rfl

@[simp] theorem readZerofill_eq (offset : Nat) (buf : Bytes) :
    readZerofill m key column offset buf =
      readFound readZerofillValue (.ok (m.lookup column key)) offset buf := rfl

@[simp] theorem put_eq (value : Bytes) :
    put m key column value = (m.set column key (some value), .ok ()) := rfl

@[simp] theorem write_eq (buf : Bytes) :
    write m key column buf = (m.set column key (some buf), .ok buf.length) := rfl

@[simp] theorem replace_eq (value : Bytes) :
    replace m key column value = (m.set column key (some value), .ok (m.lookup column key)) := rfl

@[simp] theorem take_eq : take m key column = (m.set column key none, .ok (m.lookup column key)) :=
  rfl

@[simp] theorem delete_eq : delete m key column = (m.set column key none, .ok ()) := rfl

@[simp] theorem batchWrite_eq (entries : List (Bytes × WriteOperation)) :
    batchWrite m column entries =
      (entries.foldl (fun m entry => m.set column entry.1 entry.2.value) m, .ok ()) := rfl

end KvMap

/-! ## Stores that read as a flat store -/

/-- `store` answers every read exactly as the default methods answer it over `m`. -/
structure ReadsAs {S : Type} [KeyValueInspect S] (store : S) (m : KvMap) : Prop where
  get : ∀ key column, get store key column = get m key column
  sizeOfValue : ∀ key column, sizeOfValue store key column = sizeOfValue m key column
  «exists» : ∀ key column,
    KeyValueInspect.exists store key column = KeyValueInspect.exists m key column
  readExact : ∀ key column offset buf,
    readExact store key column offset buf = readExact m key column offset buf
  readZerofill : ∀ key column offset buf,
    readZerofill store key column offset buf = readZerofill m key column offset buf

theorem ReadsAs.refl (m : KvMap) : ReadsAs m m :=
  ⟨fun _ _ => rfl, fun _ _ => rfl, fun _ _ => rfl, fun _ _ _ _ => rfl, fun _ _ _ _ => rfl⟩

end FuelCore.Storage
