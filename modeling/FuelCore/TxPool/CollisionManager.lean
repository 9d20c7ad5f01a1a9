import FuelCore.Lib.ReverseIndex
import FuelCore.TxPool.Transaction

/-! # The collision manager

`collision_manager/basic.rs`: four indexes send the coins and messages pooled
transactions spend, the contracts they create and the blobs they carry to the
transaction that does so, and a fifth lists the users of each contract. A new
transaction collides with every pooled transaction that holds one of its keys.

Each index is updated by one loop over the inputs or outputs; the lemmas after the
definitions say what each loop does to each index, as the insertion or the erasure of
the transaction's keys.
-/

namespace FuelCore.TxPool

/-- `Collisions`: each collided transaction with the reasons of the collision. -/
abbrev Collisions := AList fun _ : NodeIndex => List CollisionReason

structure BasicCollisionManager where
  /-- Message -> the transaction that spends it. -/
  messagesSpenders : AList fun _ : Nonce => NodeIndex
  /-- Coin -> the transaction that spends it. -/
  coinsSpenders : AList fun _ : UtxoId => NodeIndex
  /-- Contract -> the transaction that creates it. -/
  contractsCreators : AList fun _ : ContractId => NodeIndex
  /-- Contract -> the transactions that use it as an input. -/
  contractUsers : AList fun _ : ContractId => List TxId
  /-- Blob -> the transaction that carries it. -/
  blobsUsers : AList fun _ : BlobId => NodeIndex

namespace BasicCollisionManager

/-- `BasicCollisionManager::new`. -/
def new : BasicCollisionManager :=
  ⟨∅, ∅, ∅, ∅, ∅⟩

variable (manager : BasicCollisionManager)

/-- `get_coins_spenders`: the spenders of the coins of `txCreatorId`, by output index, over
the range from index `0` to `u16::MAX`, which leaves the last index out. -/
def getCoinsSpenders (txCreatorId : TxId) : List NodeIndex :=
  ((manager.coinsSpenders.entries.filter fun entry =>
      entry.1.txId = txCreatorId ∧ entry.1.outputIndex < 65535).mergeSort
    fun first second => first.1.outputIndex ≤ second.1.outputIndex).map (·.2)

/-- `get_contract_users`. -/
def getContractUsers (contractId : ContractId) : List TxId :=
  (manager.contractUsers.lookup contractId).getD []

/-- `contract_created_in_pool`. -/
def contractCreatedInPool (contractId : ContractId) : Bool :=
  (manager.contractsCreators.lookup contractId).isSome

/-! ## Finding collisions -/

/-- `collisions.entry(storage_id).or_default().push(reason)`. -/
def addCollision (collisions : Collisions) (storageId : NodeIndex) (reason : CollisionReason) :
    Collisions :=
  collisions.modifyD storageId [] fun reasons => reasons ++ [reason]

/-- The loop of `find_collisions` over the outputs: a created contract another
transaction creates is a collision; a coin output another transaction already spends
means the transaction id is taken. -/
def outputCollisions (txId : TxId) : List (Output × ℕ) → Collisions → Except Error Collisions
  | [], collisions => .ok collisions
  | (output, index) :: outputs, collisions =>
      match output with
      | .contractCreated contractId =>
          match manager.contractsCreators.lookup contractId with
          | some storageId =>
              outputCollisions txId outputs
                (addCollision collisions storageId (.contractCreation contractId))
          | none => outputCollisions txId outputs collisions
      | .coin | .change | .«variable» =>
          if (manager.coinsSpenders.lookup ⟨txId, index⟩).isSome then
            .error (.inputValidation (.duplicateTxId txId))
          else outputCollisions txId outputs collisions
      | .contract => outputCollisions txId outputs collisions

/-- The loop of `find_collisions` over the inputs, one input: a coin or a message
another transaction spends is a collision. -/
def inputCollisions (collisions : Collisions) : Input → Collisions
  | .coin utxoId =>
      match manager.coinsSpenders.lookup utxoId with
      | some storageId => addCollision collisions storageId (.utxo utxoId)
      | none => collisions
  | .message nonce =>
      match manager.messagesSpenders.lookup nonce with
      | some storageId => addCollision collisions storageId (.message nonce)
      | none => collisions
  | .contract _ => collisions

/-- `find_collisions`. -/
def findCollisions (transaction : PoolTransaction) : Except Error Collisions :=
  let collisions : Collisions :=
    match transaction.blobId with
    | some blobId =>
        match manager.blobsUsers.lookup blobId with
        | some state => (∅ : Collisions).insert state [.blob blobId]
        | none => ∅
    | none => ∅
  let collisions := transaction.inputs.foldl manager.inputCollisions collisions
  manager.outputCollisions transaction.id transaction.outputs.zipIdx collisions

/-- `owner` holds, in one of the four indexes, a key `transaction` needs. -/
def HoldsKeyOf (transaction : PoolTransaction) (owner : NodeIndex) : Prop :=
  (∃ key ∈ transaction.coinInputs, manager.coinsSpenders.lookup key = some owner) ∨
  (∃ key ∈ transaction.messageInputs, manager.messagesSpenders.lookup key = some owner) ∨
  (∃ key ∈ transaction.createdContracts, manager.contractsCreators.lookup key = some owner) ∨
  (∃ key ∈ transaction.blobIds, manager.blobsUsers.lookup key = some owner)

@[simp] theorem mem_addCollision {collisions : Collisions} {storageId owner : NodeIndex}
    {reason : CollisionReason} :
    owner ∈ addCollision collisions storageId reason ↔ owner = storageId ∨ owner ∈ collisions := by
  simp [addCollision, AList.modifyD]

theorem outputCollisions_complete {txId : TxId} {outputs : List (Output × ℕ)}
    {collisions result : Collisions}
    (found : manager.outputCollisions txId outputs collisions = .ok result) :
    (∀ owner ∈ collisions, owner ∈ result) ∧
      ∀ output ∈ outputs, ∀ contractId owner, output.1 = .contractCreated contractId →
        manager.contractsCreators.lookup contractId = some owner → owner ∈ result := by
  induction outputs generalizing collisions with
  | nil =>
      cases found
      exact ⟨fun _ member => member, by simp⟩
  | cons output outputs induction =>
      obtain ⟨output, index⟩ := output
      cases output with
      | contractCreated created =>
          simp only [outputCollisions] at found
          split at found
          case h_1 storageId creator =>
            obtain ⟨keeps, creates⟩ := induction found
            refine ⟨fun owner member => keeps owner (by simp [member]), ?_⟩
            rintro output (here | ⟨-, later⟩) contractId owner made owns
            · cases made
              rw [creator] at owns
              cases owns
              exact keeps _ (by simp)
            · exact creates output later contractId owner made owns
          case h_2 absent =>
            obtain ⟨keeps, creates⟩ := induction found
            refine ⟨keeps, ?_⟩
            rintro output (here | ⟨-, later⟩) contractId owner made owns
            · cases made
              rw [absent] at owns
              cases owns
            · exact creates output later contractId owner made owns
      | coin | change | «variable» | contract =>
          simp only [outputCollisions] at found
          try split at found
          all_goals first
            | cases found
            | obtain ⟨keeps, creates⟩ := induction found
              refine ⟨keeps, ?_⟩
              rintro output (here | ⟨-, later⟩) contractId owner made owns
              · cases made
              · exact creates output later contractId owner made owns

theorem findCollisions_complete {transaction : PoolTransaction} {collisions : Collisions}
    (found : manager.findCollisions transaction = .ok collisions) {owner : NodeIndex}
    (holds : manager.HoldsKeyOf transaction owner) : owner ∈ collisions := by
  simp only [findCollisions] at found
  obtain ⟨keeps, creates⟩ := manager.outputCollisions_complete found
  have stepKeeps : ∀ (collisions : Collisions) (input : Input) (other : NodeIndex),
      other ∈ collisions → other ∈ manager.inputCollisions collisions input := by
    intro collisions input other member
    cases input <;> simp only [inputCollisions] <;> (try split) <;> simp [member]
  rcases holds with ⟨key, needed, owns⟩ | ⟨key, needed, owns⟩ | ⟨key, needed, owns⟩ |
    ⟨key, needed, owns⟩
  · simp only [PoolTransaction.coinInputs, List.mem_filterMap] at needed
    obtain ⟨input, listed, picked⟩ := needed
    cases input <;> cases picked
    apply keeps
    exact AList.mem_foldl_of_step _ stepKeeps listed (fun _ => by simp [inputCollisions, owns]) _
  · simp only [PoolTransaction.messageInputs, List.mem_filterMap] at needed
    obtain ⟨input, listed, picked⟩ := needed
    cases input <;> cases picked
    apply keeps
    exact AList.mem_foldl_of_step _ stepKeeps listed (fun _ => by simp [inputCollisions, owns]) _
  · simp only [PoolTransaction.createdContracts, List.mem_filterMap] at needed
    obtain ⟨output, listed, picked⟩ := needed
    cases output <;> cases picked
    rw [← List.zipIdx_map_fst 0 transaction.outputs, List.mem_map] at listed
    obtain ⟨entry, entered, made⟩ := listed
    exact creates entry entered key owner made owns
  · simp only [PoolTransaction.blobIds, Option.mem_toList] at needed
    apply keeps
    apply AList.mem_foldl_of_mem _ stepKeeps
    rw [needed]
    simp only [owns]
    rw [AList.insert_empty, AList.mem_keys, AList.keys_singleton]
    exact List.mem_singleton_self _

/-! ## Updates -/

/-- `on_stored_transaction`. -/
def onStoredTransaction (storageId : NodeIndex) (storeEntry : StorageData) :
    BasicCollisionManager :=
  let transaction := storeEntry.transaction
  let manager := match transaction.blobId with
    | some blobId => { manager with blobsUsers := manager.blobsUsers.insert blobId storageId }
    | none => manager
  let manager := transaction.inputs.foldl (fun manager input =>
    match input with
    | .coin utxoId => { manager with coinsSpenders := manager.coinsSpenders.insert utxoId storageId }
    | .message nonce =>
        { manager with messagesSpenders := manager.messagesSpenders.insert nonce storageId }
    | .contract contractId =>
        { manager with
          contractUsers := manager.contractUsers.modifyD contractId [] fun users =>
            users ++ [transaction.id] }) manager
  transaction.outputs.foldl (fun manager output =>
    match output with
    | .contractCreated contractId =>
        { manager with contractsCreators := manager.contractsCreators.insert contractId storageId }
    | _ => manager) manager

/-- `on_removed_transaction`. -/
def onRemovedTransaction (transaction : PoolTransaction) : BasicCollisionManager :=
  let manager := match transaction.blobId with
    | some blobId => { manager with blobsUsers := manager.blobsUsers.erase blobId }
    | none => manager
  let manager := transaction.inputs.foldl (fun manager input =>
    match input with
    | .coin utxoId => { manager with coinsSpenders := manager.coinsSpenders.erase utxoId }
    | .message nonce => { manager with messagesSpenders := manager.messagesSpenders.erase nonce }
    | .contract contractId =>
        match manager.contractUsers.lookup contractId with
        | some users =>
            let users := users.filter fun id => id ≠ transaction.id
            if users.isEmpty then { manager with contractUsers := manager.contractUsers.erase contractId }
            else { manager with contractUsers := manager.contractUsers.insert contractId users }
        | none => manager) manager
  transaction.outputs.foldl (fun manager output =>
    match output with
    | .contractCreated contractId =>
        { manager with contractsCreators := manager.contractsCreators.erase contractId }
    | _ => manager) manager

/-! ## What the updates do to each index -/

open AList

section Updates

variable (storageId : NodeIndex) (storeEntry : StorageData) (transaction : PoolTransaction)

theorem onStoredTransaction_coinsSpenders :
    (manager.onStoredTransaction storageId storeEntry).coinsSpenders =
      insertKeys storeEntry.transaction.coinInputs storageId manager.coinsSpenders := by
  unfold onStoredTransaction
  rw [← @List.foldl_hom _ _ _ coinsSpenders _ (fun index _ => index) _ _
      (fun _ output => by cases output <;> rfl), List.foldl_fixed,
    PoolTransaction.coinInputs, insertKeys_filterMap]
  cases storeEntry.transaction.blobId <;>
    exact (List.foldl_hom _ fun _ input => by cases input <;> rfl).symm

theorem onStoredTransaction_messagesSpenders :
    (manager.onStoredTransaction storageId storeEntry).messagesSpenders =
      insertKeys storeEntry.transaction.messageInputs storageId manager.messagesSpenders := by
  unfold onStoredTransaction
  rw [← @List.foldl_hom _ _ _ messagesSpenders _ (fun index _ => index) _ _
      (fun _ output => by cases output <;> rfl), List.foldl_fixed,
    PoolTransaction.messageInputs, insertKeys_filterMap]
  cases storeEntry.transaction.blobId <;>
    exact (List.foldl_hom _ fun _ input => by cases input <;> rfl).symm

theorem onStoredTransaction_contractsCreators :
    (manager.onStoredTransaction storageId storeEntry).contractsCreators =
      insertKeys storeEntry.transaction.createdContracts storageId manager.contractsCreators := by
  unfold onStoredTransaction
  rw [← @List.foldl_hom _ _ _ contractsCreators _
      (fun index output => ((match output with
        | .contractCreated contractId => some contractId | _ => none).map
          (index.insert · storageId)).getD index) _ _
      (fun _ output => by cases output <;> rfl),
    ← @List.foldl_hom _ _ _ contractsCreators _ (fun index _ => index) _ _
      (fun _ input => by cases input <;> rfl), List.foldl_fixed]
  rw [PoolTransaction.createdContracts, insertKeys_filterMap]
  cases storeEntry.transaction.blobId <;> rfl

theorem onStoredTransaction_blobsUsers :
    (manager.onStoredTransaction storageId storeEntry).blobsUsers =
      insertKeys storeEntry.transaction.blobIds storageId manager.blobsUsers := by
  unfold onStoredTransaction
  rw [← @List.foldl_hom _ _ _ blobsUsers _ (fun index _ => index) _ _
      (fun _ output => by cases output <;> rfl), List.foldl_fixed,
    ← @List.foldl_hom _ _ _ blobsUsers _ (fun index _ => index) _ _
      (fun _ input => by cases input <;> rfl), List.foldl_fixed]
  rw [PoolTransaction.blobIds]
  cases storeEntry.transaction.blobId <;> simp

theorem onRemovedTransaction_coinsSpenders :
    (manager.onRemovedTransaction transaction).coinsSpenders =
      eraseKeys transaction.coinInputs manager.coinsSpenders := by
  unfold onRemovedTransaction
  rw [← @List.foldl_hom _ _ _ coinsSpenders _ (fun index _ => index) _ _
      (fun _ output => by cases output <;> rfl), List.foldl_fixed,
    PoolTransaction.coinInputs, eraseKeys_filterMap]
  cases transaction.blobId <;>
    exact (List.foldl_hom _ fun _ input => by
      cases input <;> first | rfl | (dsimp only; split <;> (try split) <;> rfl)).symm

theorem onRemovedTransaction_messagesSpenders :
    (manager.onRemovedTransaction transaction).messagesSpenders =
      eraseKeys transaction.messageInputs manager.messagesSpenders := by
  unfold onRemovedTransaction
  rw [← @List.foldl_hom _ _ _ messagesSpenders _ (fun index _ => index) _ _
      (fun _ output => by cases output <;> rfl), List.foldl_fixed,
    PoolTransaction.messageInputs, eraseKeys_filterMap]
  cases transaction.blobId <;>
    exact (List.foldl_hom _ fun _ input => by
      cases input <;> first | rfl | (dsimp only; split <;> (try split) <;> rfl)).symm

theorem onRemovedTransaction_contractsCreators :
    (manager.onRemovedTransaction transaction).contractsCreators =
      eraseKeys transaction.createdContracts manager.contractsCreators := by
  unfold onRemovedTransaction
  rw [← @List.foldl_hom _ _ _ contractsCreators _
      (fun index output => ((match output with
        | .contractCreated contractId => some contractId | _ => none).map index.erase).getD index)
      _ _ (fun _ output => by cases output <;> rfl),
    ← @List.foldl_hom _ _ _ contractsCreators _ (fun index _ => index) _ _
      (fun _ input => by cases input <;> first | rfl | (dsimp only; split <;> (try split) <;> rfl)), List.foldl_fixed]
  rw [PoolTransaction.createdContracts, eraseKeys_filterMap]
  cases transaction.blobId <;> rfl

theorem onRemovedTransaction_blobsUsers :
    (manager.onRemovedTransaction transaction).blobsUsers =
      eraseKeys transaction.blobIds manager.blobsUsers := by
  unfold onRemovedTransaction
  rw [← @List.foldl_hom _ _ _ blobsUsers _ (fun index _ => index) _ _
      (fun _ output => by cases output <;> rfl), List.foldl_fixed,
    ← @List.foldl_hom _ _ _ blobsUsers _ (fun index _ => index) _ _
      (fun _ input => by cases input <;> first | rfl | (dsimp only; split <;> (try split) <;> rfl)), List.foldl_fixed]
  rw [PoolTransaction.blobIds]
  cases transaction.blobId <;> rfl

end Updates

end BasicCollisionManager

end FuelCore.TxPool
