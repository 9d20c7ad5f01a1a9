import FuelCore.TxPool.Transaction
import FuelCore.Lib.AList

/-! # The pending pool

`txpool_v2/src/pending_pool.rs`. A transaction whose inputs are not all known yet waits in the
pending pool: `pending_inputs_by_tx` holds it with its missing inputs, `pending_txs_by_inputs`
lists the transactions waiting for each input, `ttl_check` queues its expiry, and three counters
track the transactions, their gas and their bytes. A new output resolves the input it creates,
and a transaction left with no missing input leaves the pool; `expire_transactions` drops those
whose time has come.

The maps are association lists; a `HashSet<TxId>` is the list of its members, iterated in that
order. Instants are natural numbers, `SystemTime::now()` is a parameter, and the `ttl_check`
deque is kept from its back, the oldest entry, to its front. The counters are `usize` and `u64`
with saturating arithmetic, here natural numbers with truncated subtraction; their additions
would need `2 ^ 64` bytes or gas to saturate. -/

namespace FuelCore.TxPool

inductive MissingInput
  | utxo (utxoId : UtxoId)
  | contract (contractId : ContractId)
  deriving DecidableEq, Repr

/-- `PendingTx`; the insertion source is any type. -/
structure PendingTx (Source : Type) where
  tx : PoolTransaction
  insertionSource : Source
  missingInputs : List MissingInput

/-- `PoolNotification::ErrorInsertion` of an expired transaction, with the missing input its
error is made from. -/
structure ErrorInsertion (Source : Type) where
  txId : TxId
  source : Source
  error : MissingInput

structure PendingPool (Source : Type) where
  ttl : ℕ
  pendingTxsByInputs : AList fun _ : MissingInput => List TxId
  pendingInputsByTx : AList fun _ : TxId => PendingTx Source
  ttlCheck : List (ℕ × TxId)
  currentBytes : ℕ
  currentTxs : ℕ
  currentGas : ℕ

variable {Source : Type}

namespace PendingPool

def new (ttl : ℕ) : PendingPool Source :=
  ⟨ttl, ∅, ∅, [], 0, 0, 0⟩

/-- `insert_transaction` at the instant `now`. -/
def insertTransaction (pool : PendingPool Source) (transaction : PoolTransaction)
    (insertionSource : Source) (missingInputs : List MissingInput) (now : ℕ) :
    PendingPool Source :=
  let txId := transaction.id
  { pool with
    currentBytes := pool.currentBytes + transaction.meteredBytesSize
    currentGas := pool.currentGas + transaction.maxGas
    currentTxs := pool.currentTxs + 1
    pendingTxsByInputs := missingInputs.foldl
      (fun byInputs input => byInputs.modifyD input [] fun txIds => txIds.insert txId)
      pool.pendingTxsByInputs
    pendingInputsByTx :=
      pool.pendingInputsByTx.insert txId ⟨transaction, insertionSource, missingInputs⟩
    ttlCheck := pool.ttlCheck ++ [(now + pool.ttl, txId)] }

/-- `decrease_pool_size`. -/
def decreasePoolSize (pool : PendingPool Source) (tx : PoolTransaction) : PendingPool Source :=
  { pool with
    currentBytes := pool.currentBytes - tx.meteredBytesSize
    currentGas := pool.currentGas - tx.maxGas
    currentTxs := pool.currentTxs - 1 }

/-- One transaction waiting for a resolved input: the input is taken out of its missing
inputs, and the transaction is released when none is left. -/
def resolve (missingInput : MissingInput)
    (state : PendingPool Source × List (PoolTransaction × Source)) (txId : TxId) :
    PendingPool Source × List (PoolTransaction × Source) :=
  let (pool, resolvedTxs) := state
  match pool.pendingInputsByTx.lookup txId with
  | none => (pool, resolvedTxs)
  | some pendingTx =>
      let missingInputs := pendingTx.missingInputs.filter fun input => input ≠ missingInput
      if missingInputs.isEmpty then
        ({ pool with pendingInputsByTx := pool.pendingInputsByTx.erase txId }.decreasePoolSize
            pendingTx.tx,
          resolvedTxs ++ [(pendingTx.tx, pendingTx.insertionSource)])
      else
        ({ pool with
            pendingInputsByTx :=
              pool.pendingInputsByTx.insert txId { pendingTx with missingInputs } },
          resolvedTxs)

/-- The input an output creates, if a transaction can wait for it. -/
def missingInputOf (utxoId : UtxoId) : Output → Option MissingInput
  | .coin => some (.utxo utxoId)
  | .contractCreated contractId => some (.contract contractId)
  | .contract | .change | .«variable» => none

/-- `new_known_input_from_output`. -/
def newKnownInputFromOutput (pool : PendingPool Source) (utxoId : UtxoId) (output : Output)
    (resolvedTxs : List (PoolTransaction × Source)) :
    PendingPool Source × List (PoolTransaction × Source) :=
  match missingInputOf utxoId output with
  | none => (pool, resolvedTxs)
  | some missingInput =>
      match pool.pendingTxsByInputs.lookup missingInput with
      | none => (pool, resolvedTxs)
      | some txIds =>
          txIds.foldl (resolve missingInput)
            ({ pool with pendingTxsByInputs := pool.pendingTxsByInputs.erase missingInput },
              resolvedTxs)

/-- `new_known_tx_inner`. -/
def newKnownTxInner (pool : PendingPool Source) (newKnownOutputs : List (UtxoId × Output))
    (resolvedTxs : List (PoolTransaction × Source)) :
    PendingPool Source × List (PoolTransaction × Source) :=
  newKnownOutputs.foldl
    (fun state known => state.1.newKnownInputFromOutput known.1 known.2 state.2)
    (pool, resolvedTxs)

/-- `new_known_tx`: the transactions it releases, in order. -/
def newKnownTx (pool : PendingPool Source) (newKnownTxOutputs : List (UtxoId × Output)) :
    PendingPool Source × List (PoolTransaction × Source) :=
  pool.newKnownTxInner newKnownTxOutputs []

/-- `utxo_ids_with_outputs`: each output with the `UtxoId` of its index, while the index fits a
`u16`. -/
def utxoIdsWithOutputs (outputs : List Output) (txId : TxId) : List (UtxoId × Output) :=
  (outputs.zipIdx.filter fun entry => entry.2 < 2 ^ 16).map fun entry =>
    (⟨txId, entry.2⟩, entry.1)

/-- `new_known_txs`, over the outputs and id of each transaction. -/
def newKnownTxs (pool : PendingPool Source) (newKnownTxs : List (List Output × TxId)) :
    PendingPool Source × List (PoolTransaction × Source) :=
  newKnownTxs.foldl
    (fun state known => state.1.newKnownTxInner (utxoIdsWithOutputs known.1 known.2) state.2)
    (pool, [])

/-- The expired transaction leaves the lists of each of its missing inputs, and an input left
with no transaction leaves the map. -/
def forgetInput (txId : TxId) (byInputs : AList fun _ : MissingInput => List TxId)
    (input : MissingInput) : AList fun _ : MissingInput => List TxId :=
  match byInputs.lookup input with
  | none => byInputs
  | some txIds =>
      let txIds := txIds.erase txId
      if txIds.isEmpty then byInputs.erase input else byInputs.insert input txIds

/-- One turn of the loop of `expire_transactions`, on an entry whose time has come. -/
def expireOne (pool : PendingPool Source) (notifications : List (ErrorInsertion Source))
    (txId : TxId) : PendingPool Source × List (ErrorInsertion Source) :=
  match pool.pendingInputsByTx.lookup txId with
  | none => (pool, notifications)
  | some ⟨tx, insertionSource, missingInputs⟩ =>
      let pool :=
        { pool with pendingInputsByTx := pool.pendingInputsByTx.erase txId }.decreasePoolSize tx
      let pool :=
        { pool with
          pendingTxsByInputs := missingInputs.foldl (forgetInput txId) pool.pendingTxsByInputs }
      match missingInputs.head? with
      | some missingInput => (pool, notifications ++ [⟨tx.id, insertionSource, missingInput⟩])
      | none => (pool, notifications)

/-- The loop of `expire_transactions` over the `ttl_check` entries, from the back. -/
def expireLoop (now : ℕ) :
    List (ℕ × TxId) → PendingPool Source → List (ErrorInsertion Source) →
      PendingPool Source × List (ErrorInsertion Source)
  | [], pool, notifications => ({ pool with ttlCheck := [] }, notifications)
  | (ttl, txId) :: rest, pool, notifications =>
      if ttl > now then ({ pool with ttlCheck := (ttl, txId) :: rest }, notifications)
      else
        let (pool, notifications) := pool.expireOne notifications txId
        expireLoop now rest pool notifications

/-- `expire_transactions` at the instant `now`, with the notifications it sends. -/
def expireTransactions (pool : PendingPool Source) (now : ℕ) :
    PendingPool Source × List (ErrorInsertion Source) :=
  expireLoop now pool.ttlCheck pool []

/-! ## The counters

Each counter is a sum of one weight over the pending transactions: one per transaction, its
max gas, its metered bytes. A step that adds a transaction adds its weight, one that removes it
takes the weight off, and one that changes its missing inputs keeps it. `insert_transaction`
adds the weight of a transaction that may already be pending, whose entry it then replaces. -/

inductive Counter
  | bytes
  | txs
  | gas

/-- What each transaction adds to a counter. -/
def Counter.weight : Counter → PoolTransaction → ℕ
  | .bytes, tx => tx.meteredBytesSize
  | .txs, _ => 1
  | .gas, tx => tx.maxGas

def Counter.read : Counter → PendingPool Source → ℕ
  | .bytes, pool => pool.currentBytes
  | .txs, pool => pool.currentTxs
  | .gas, pool => pool.currentGas

/-- The sum of a weight over the pending transactions. -/
def pendingWeight (counter : Counter) (pool : PendingPool Source) : ℕ :=
  AList.valueSum (fun pendingTx => counter.weight pendingTx.tx) pool.pendingInputsByTx

/-- Every counter is the sum of its weight over the pending transactions. -/
def Counts (pool : PendingPool Source) : Prop :=
  ∀ counter : Counter, counter.read pool = pendingWeight counter pool

variable (counter : Counter) (pool : PendingPool Source)

@[simp] theorem read_decreasePoolSize (tx : PoolTransaction) :
    counter.read (pool.decreasePoolSize tx) = counter.read pool - counter.weight tx := by
  cases counter <;> rfl

@[simp] theorem read_insertTransaction (transaction : PoolTransaction) (insertionSource : Source)
    (missingInputs : List MissingInput) (now : ℕ) :
    counter.read (pool.insertTransaction transaction insertionSource missingInputs now) =
      counter.read pool + counter.weight transaction := by
  cases counter <;> rfl

@[simp] theorem read_withPendingInputsByTx (byTx : AList fun _ : TxId => PendingTx Source) :
    counter.read { pool with pendingInputsByTx := byTx } = counter.read pool := by
  cases counter <;> rfl

@[simp] theorem read_withPendingTxsByInputs
    (byInputs : AList fun _ : MissingInput => List TxId) :
    counter.read { pool with pendingTxsByInputs := byInputs } = counter.read pool := by
  cases counter <;> rfl

@[simp] theorem read_withTtlCheck (ttlCheck : List (ℕ × TxId)) :
    counter.read { pool with ttlCheck } = counter.read pool := by
  cases counter <;> rfl

theorem counts_new (ttl : ℕ) : (new ttl : PendingPool Source).Counts := by
  intro counter
  cases counter <;> rfl

variable {pool}

theorem Counts.insertTransaction (counts : pool.Counts) (transaction : PoolTransaction)
    (fresh : pool.pendingInputsByTx.lookup transaction.id = none) (insertionSource : Source)
    (missingInputs : List MissingInput) (now : ℕ) :
    (pool.insertTransaction transaction insertionSource missingInputs now).Counts := by
  intro counter
  have grown : pendingWeight counter
      (pool.insertTransaction transaction insertionSource missingInputs now) =
        counter.weight transaction + pendingWeight counter pool :=
    AList.valueSum_insert_of_lookup_none _ fresh _
  rw [read_insertTransaction, counts counter, grown, Nat.add_comm]

theorem Counts.erase (counts : pool.Counts) {txId : TxId} {pendingTx : PendingTx Source}
    (found : pool.pendingInputsByTx.lookup txId = some pendingTx) :
    ({ pool with pendingInputsByTx := pool.pendingInputsByTx.erase txId }.decreasePoolSize
      pendingTx.tx).Counts := by
  intro counter
  rw [read_decreasePoolSize, read_withPendingInputsByTx, counts counter]
  exact (AList.valueSum_erase_of_lookup _ found).symm

theorem Counts.resolve {missingInput : MissingInput}
    {state : PendingPool Source × List (PoolTransaction × Source)} (counts : state.1.Counts)
    (txId : TxId) : (resolve missingInput state txId).1.Counts := by
  obtain ⟨pool, resolvedTxs⟩ := state
  simp only [PendingPool.resolve]
  split
  · exact counts
  · next pendingTx found =>
      split_ifs
      · exact counts.erase found
      · -- the transaction stays with fewer missing inputs and the same weight
        intro counter
        rw [read_withPendingInputsByTx, counts counter]
        exact (AList.valueSum_insert_of_lookup _ found rfl).symm

theorem Counts.foldl_resolve (missingInput : MissingInput) (txIds : List TxId)
    {state : PendingPool Source × List (PoolTransaction × Source)} (counts : state.1.Counts) :
    (txIds.foldl (PendingPool.resolve missingInput) state).1.Counts := by
  induction txIds generalizing state with
  | nil => exact counts
  | cons txId txIds induction => exact induction (counts.resolve txId)

theorem Counts.newKnownInputFromOutput (counts : pool.Counts) (utxoId : UtxoId) (output : Output)
    (resolvedTxs : List (PoolTransaction × Source)) :
    (pool.newKnownInputFromOutput utxoId output resolvedTxs).1.Counts := by
  unfold PendingPool.newKnownInputFromOutput
  split
  · exact counts
  · next missingInput _ =>
      split
      · exact counts
      · next txIds _ =>
          -- the input leaves its map, then its transactions are resolved one after the other
          apply Counts.foldl_resolve
          exact fun counter => (read_withPendingTxsByInputs counter pool _).trans (counts counter)

theorem Counts.newKnownTxInner (counts : pool.Counts) (newKnownOutputs : List (UtxoId × Output))
    (resolvedTxs : List (PoolTransaction × Source)) :
    (pool.newKnownTxInner newKnownOutputs resolvedTxs).1.Counts := by
  unfold PendingPool.newKnownTxInner
  induction newKnownOutputs generalizing pool resolvedTxs with
  | nil => exact counts
  | cons known newKnownOutputs induction =>
      exact induction (counts.newKnownInputFromOutput known.1 known.2 resolvedTxs) _

theorem Counts.newKnownTxs (counts : pool.Counts) (newKnownTxs : List (List Output × TxId)) :
    (pool.newKnownTxs newKnownTxs).1.Counts := by
  unfold PendingPool.newKnownTxs
  generalize ([] : List (PoolTransaction × Source)) = resolvedTxs
  induction newKnownTxs generalizing pool resolvedTxs with
  | nil => exact counts
  | cons known newKnownTxs induction =>
      exact induction (counts.newKnownTxInner _ resolvedTxs) _

theorem Counts.expireOne (counts : pool.Counts) (notifications : List (ErrorInsertion Source))
    (txId : TxId) : (pool.expireOne notifications txId).1.Counts := by
  unfold PendingPool.expireOne
  split
  · exact counts
  · next tx insertionSource missingInputs found =>
      have erased := counts.erase found
      split <;> exact fun counter => by
        rw [read_withPendingTxsByInputs]
        exact erased counter

theorem Counts.expireLoop (now : ℕ) (entries : List (ℕ × TxId)) (counts : pool.Counts)
    (notifications : List (ErrorInsertion Source)) :
    (expireLoop now entries pool notifications).1.Counts := by
  induction entries generalizing pool notifications with
  | nil => exact fun counter => (read_withTtlCheck counter pool []).trans (counts counter)
  | cons entry entries induction =>
      obtain ⟨ttl, txId⟩ := entry
      simp only [PendingPool.expireLoop]
      split_ifs
      · exact fun counter => (read_withTtlCheck counter pool _).trans (counts counter)
      · exact induction (counts.expireOne notifications txId) _

/-! ## Runs -/

/-- The calls `PoolWorker` makes on the pending pool. -/
inductive Call (Source : Type)
  | insertTransaction (transaction : PoolTransaction) (insertionSource : Source)
      (missingInputs : List MissingInput) (now : ℕ)
  | newKnownTx (newKnownTxOutputs : List (UtxoId × Output))
  | newKnownTxs (newKnownTxs : List (List Output × TxId))
  | expireTransactions (now : ℕ)

def Call.apply (pool : PendingPool Source) : Call Source → PendingPool Source
  | .insertTransaction transaction insertionSource missingInputs now =>
      pool.insertTransaction transaction insertionSource missingInputs now
  | .newKnownTx newKnownTxOutputs => (pool.newKnownTx newKnownTxOutputs).1
  | .newKnownTxs knownTxs => (pool.newKnownTxs knownTxs).1
  | .expireTransactions now => (pool.expireTransactions now).1

def run (pool : PendingPool Source) (calls : List (Call Source)) : PendingPool Source :=
  calls.foldl Call.apply pool

/-- No call inserts a transaction that is pending when it is inserted. -/
def FreshInserts : PendingPool Source → List (Call Source) → Prop
  | _, [] => True
  | pool, call :: calls =>
      (∀ transaction insertionSource missingInputs now,
          call = .insertTransaction transaction insertionSource missingInputs now →
            pool.pendingInputsByTx.lookup transaction.id = none) ∧
        FreshInserts (call.apply pool) calls

theorem Counts.apply (counts : pool.Counts) (call : Call Source)
    (fresh : ∀ transaction insertionSource missingInputs now,
      call = .insertTransaction transaction insertionSource missingInputs now →
        pool.pendingInputsByTx.lookup transaction.id = none) :
    (call.apply pool).Counts := by
  cases call with
  | insertTransaction transaction insertionSource missingInputs now =>
      exact counts.insertTransaction transaction (fresh _ _ _ _ rfl) insertionSource missingInputs now
  | newKnownTx newKnownTxOutputs => exact counts.newKnownTxInner newKnownTxOutputs []
  | newKnownTxs knownTxs => exact counts.newKnownTxs knownTxs
  | expireTransactions now => exact counts.expireLoop now pool.ttlCheck []

/-- While no insertion re-inserts a pending transaction, the counters are the sums over the
pending transactions after every call. -/
theorem Counts.run (counts : pool.Counts) (calls : List (Call Source))
    (fresh : FreshInserts pool calls) : (pool.run calls).Counts := by
  induction calls generalizing pool with
  | nil => exact counts
  | cons call calls induction => exact induction (counts.apply call fresh.1) fresh.2

end PendingPool

/-- A transaction spending the coin of output 0 of transaction 0, with max gas 1 and one
metered byte. -/
def pendingSpender : PoolTransaction :=
  ⟨1, [.coin ⟨0, 0⟩], [], 0, 1, 1, 0, none⟩

/-- The pending pool after the spender arrived twice, at instants 0 and 1, while the coin is
unknown. -/
def spenderInsertedTwice : PendingPool Unit :=
  ((PendingPool.new 10).insertTransaction pendingSpender () [.utxo ⟨0, 0⟩] 0).insertTransaction
    pendingSpender () [.utxo ⟨0, 0⟩] 1

theorem reinserted_pending_transaction_is_counted_twice :
    spenderInsertedTwice.pendingInputsByTx.entries.length = 1 ∧
      spenderInsertedTwice.currentTxs = 2 ∧ spenderInsertedTwice.currentGas = 2 ∧
      spenderInsertedTwice.currentBytes = 2 ∧
      let resolved := spenderInsertedTwice.newKnownTx [(⟨0, 0⟩, .coin)]
      resolved.2.length = 1 ∧ resolved.1.pendingInputsByTx.entries = [] ∧
        resolved.1.currentTxs = 1 ∧ resolved.1.currentGas = 1 ∧ resolved.1.currentBytes = 1 := by
  decide

end FuelCore.TxPool
