import FuelCore.Executor.Transaction

/-! # Producing a block

`produce_block`: first the transactions relayed from the DA blocks since the previous block,
then batches of the transaction source until it gives none, again each time the waiter
reports new transactions, and last the mint of the collected fees. A relayed transaction that
fails becomes a `ForcedTransactionFailed` event, an L2 one a skipped transaction.

The waiter answers `NewTransaction` some number of times and then `Timeout`: `rounds` is that
number. The source is polled until it gives an empty batch; `fuel` bounds the polls of one
`process_l2_txs`, and a run that needs more ends in `none`. The preconfirmations sent along
the way change nothing of the block and are left out.
-/

namespace FuelCore.Executor

/-- `max_tx_count()`: `u16::MAX - 1`, the transactions of a block without its mint. -/
def maxTxCount : UInt16 := 0xFFFE

def daHeights (first last : DaBlockHeight) : List DaBlockHeight :=
  (List.range (last.toNat + 1 - first.toNat)).map fun offset => first + offset.toUInt64

/-- `OnceTransactionsSource`: transactions given once, drained a batch at a time up to the
count asked for, whatever the gas and size limits. -/
def onceTransactionsSource : TransactionsSource (List MaybeCheckedTransaction) where
  next transactions _ transactionsLimit _ :=
    (transactions.take transactionsLimit.toNat, transactions.drop transactionsLimit.toNat)

/-- `PartialFuelBlock::generate`: the header computed from the transactions, the outbox
message ids and the event inbox root, whose counts must fit their integers. -/
def PartialFuelBlock.generate (block : PartialFuelBlock) (outboxMessageIds : List MessageId)
    (eventInboxRoot : Bytes32) : Except BlockHeaderError Block := do
  let transactionsCount ← if block.transactions.length < UInt16.size
    then pure block.transactions.length.toUInt16 else throw .tooManyTransactions
  let messageReceiptCount ← if outboxMessageIds.length < UInt32.size
    then pure outboxMessageIds.length.toUInt32 else throw .tooManyMessages
  pure ⟨⟨block.header.height, block.header.daHeight, block.header.consensusParametersVersion,
    transactionsCount, messageReceiptCount, block.transactions, outboxMessageIds, eventInboxRoot⟩,
    block.transactions⟩

/-- `PartialBlockHeader::from(block.header())`. -/
def BlockHeader.toPartial (header : BlockHeader) : PartialBlockHeader :=
  ⟨header.height, header.daHeight, header.consensusParametersVersion⟩

namespace Producing

def modifyData (f : ExecutionData → ExecutionData) : BlockM Unit :=
  modify fun producing => { producing with data := f producing.data }

def pushEvent (event : ExecutorEvent) : BlockM Unit :=
  modifyData fun data => { data with events := data.events ++ [event] }

def pushSkipped (skipped : TxId × ExecutorError) : BlockM Unit :=
  modifyData fun data => { data with skippedTransactions := data.skippedTransactions ++ [skipped] }

end Producing

open Producing

namespace BlockExecutor

variable (executor : BlockExecutor) {σ : Type}

/-! ## Relayed transactions -/

def relayedGasPrice : Word := 0

def txIsValidVariant : Transaction → Except ForcedTransactionFailure Unit
  | .mint _ => .error .invalidTransactionType
  | .chargeable _ => .ok ()

def relayedTxClaimedEnoughMaxGas (tx : Transaction) (relayedTx : RelayedTransaction) :
    Except ForcedTransactionFailure Unit := do
  let claimedMaxGas := relayedTx.maxGas
  let actualMaxGas ← match executor.vm.maxGas tx with
    | .ok maxGas => pure maxGas
    | .error _ => throw .invalidTransactionType
  if actualMaxGas > claimedMaxGas then throw (.insufficientMaxGas claimedMaxGas actualMaxGas)

def getCheckedTx (tx : Transaction) (height : BlockHeight) (storage : Storage) :
    Except ForcedTransactionFailure Transaction :=
  match executor.vm.intoChecked tx height storage with
  | .ok checkedTx => .ok checkedTx
  | .error error => .error (.checkError error)

def validateForcedTx (relayedTx : RelayedTransaction) (blockHeight : BlockHeight)
    (storage : Storage) : Except ForcedTransactionFailure Transaction := do
  let parsedTx ← okOr .codecError (executor.vm.fromBytes relayedTx.serializedTransaction)
  txIsValidVariant parsedTx
  executor.relayedTxClaimedEnoughMaxGas parsedTx relayedTx
  executor.getCheckedTx parsedTx blockHeight storage

/-- The messages and forced transactions of the DA blocks after the previous block's, up to
this block's DA height. -/
def processDa (blockHeight : BlockHeight) (daBlockHeight : DaBlockHeight) :
    BlockM (List Transaction) := do
  let prevBlockHeight ← liftExcept (okOr ExecutorError.executingGenesisBlock (blockHeight.checkedSub 1))
  let previousDaHeight ← liftExcept
    (okOr ExecutorError.previousBlockIsNotFound ((← get).storage.fuelBlocks.lookup prevBlockHeight))
  let nextUnprocessedDaHeight ← liftExcept
    (okOr ExecutorError.daHeightExceededItsLimit (previousDaHeight.checkedAdd 1))
  let mut rootEvents : List RelayerEvent := []
  let mut checkedForcedTxs : List Transaction := []
  for daHeight in daHeights nextUnprocessedDaHeight daBlockHeight do
    let events ← match executor.relayer.getEvents daHeight with
      | .ok events => pure events
      | .error error => throw (.relayerError error)
    for event in events do
      rootEvents := rootEvents ++ [event]
      match event with
      | .message message =>
          if message.daHeight ≠ daHeight then throw .relayerGivesIncorrectMessages
          modify fun producing => { producing with
            storage := { producing.storage with
              messages := producing.storage.messages.insert message.nonce message } }
          pushEvent (.messageImported message)
      | .transaction relayedTx =>
          match executor.validateForcedTx relayedTx blockHeight (← get).storage with
          | .ok checkedTx => checkedForcedTxs := checkedForcedTxs ++ [checkedTx]
          | .error error => pushEvent (.forcedTransactionFailed relayedTx.id blockHeight (.check error))
  modifyData fun data => { data with eventInboxRoot := executor.vm.eventInboxRoot rootEvents }
  pure checkedForcedTxs

def getRelayedTxs (blockHeight : BlockHeight) (daBlockHeight : DaBlockHeight) :
    BlockM (List Transaction) :=
  if executor.relayer.enabled then executor.processDa blockHeight daBlockHeight else pure []

def processRelayedTxs (forcedTransactions : List Transaction) (coinbaseContractId : ContractId) :
    BlockM Unit := do
  let blockHeader := (← get).block.header
  for checked in forcedTransactions do
    let maybeCheckedTransaction :=
      MaybeCheckedTransaction.checkedTransaction checked blockHeader.consensusParametersVersion
    let txId := executor.vm.id maybeCheckedTransaction.tx
    tryCatch (executor.executeTransactionAndCommit maybeCheckedTransaction relayedGasPrice
        coinbaseContractId)
      fun error => pushEvent (.forcedTransactionFailed txId blockHeader.height (.execution error))

def processL1Txs (coinbaseContractId : ContractId) : BlockM Unit := do
  let header := (← get).block.header
  let relayedTxs ← executor.getRelayedTxs header.height header.daHeight
  executor.processRelayedTxs relayedTxs coinbaseContractId

/-! ## Transactions of the source

The loop keeps the gas, size and count left in variables, recomputed from the execution data
after every transaction it executes; a transaction it skips changes none of the data they
are computed from, so each is the value computed from the data at hand. -/

def remainingGasLimit (data : ExecutionData) : Word :=
  executor.consensusParams.blockGasLimit.saturatingSub data.usedGas

def remainingBlockTransactionSizeLimit (data : ExecutionData) : UInt32 :=
  (toU32OrMax executor.consensusParams.blockTransactionSizeLimit.toNat).saturatingSub data.usedSize

def remainingTxCount (data : ExecutionData) : UInt16 :=
  maxTxCount.saturatingSub data.txCount

/-- A batch of the source for the limits left, cut to the count left. -/
def nextBatch (source : TransactionsSource σ) (state : σ) (data : ExecutionData) :
    List MaybeCheckedTransaction × σ :=
  let (batch, state) := source.next state (executor.remainingGasLimit data)
    (remainingTxCount data) (executor.remainingBlockTransactionSizeLimit data)
  (batch.take (remainingTxCount data).toNat, state)

/-- The body of the loop over a batch. -/
def processL2Transaction (transaction : MaybeCheckedTransaction) (coinbaseContractId : ContractId)
    (gasPrice : Word) : BlockM Unit := do
  let txId := executor.vm.id transaction.tx
  let txMaxGas ← liftExcept (executor.vm.maxGas transaction.tx)
  let remainingGasLimit := executor.remainingGasLimit (← get).data
  if txMaxGas > remainingGasLimit then
    pushSkipped (txId, .gasOverflow (.cannotFit remainingGasLimit) txMaxGas remainingGasLimit)
  else
    tryCatch (executor.executeTransactionAndCommit transaction gasPrice coinbaseContractId)
      fun error => pushSkipped (txId, error)

/-- The `while` loop of `process_l2_txs`, from a batch: run it, poll again. -/
def l2Loop (source : TransactionsSource σ) (coinbaseContractId : ContractId) (gasPrice : Word) :
    ℕ → List MaybeCheckedTransaction → σ → BlockM (Option σ)
  | 0, _, _ => pure none
  | fuel + 1, batch, state =>
      if batch.isEmpty then pure (some state)
      else do
        for transaction in batch do
          executor.processL2Transaction transaction coinbaseContractId gasPrice
        let (batch, state) := executor.nextBatch source state (← get).data
        l2Loop source coinbaseContractId gasPrice fuel batch state

def processL2Txs (components : Components σ) (fuel : ℕ) (state : σ) : BlockM (Option σ) := do
  let (batch, state) := executor.nextBatch components.transactionsSource state (← get).data
  executor.l2Loop components.transactionsSource components.coinbaseRecipient components.gasPrice
    fuel batch state

/-! ## The block -/

def produceMintTx (components : Components σ) : BlockM Unit := do
  let producing ← get
  let coinbaseContractId := components.coinbaseRecipient
  let amountToMint := if coinbaseContractId ≠ 0 then producing.data.coinbase else 0
  let blockHeight := producing.block.header.height
  let coinbaseTx : Mint :=
    { txPointer := ⟨blockHeight, producing.data.txCount⟩
      inputContract := ⟨⟨0, 0⟩, 0, 0, ⟨0, 0⟩, coinbaseContractId⟩
      outputContract := ⟨0, 0, 0⟩
      mintAmount := amountToMint
      mintAssetId := executor.consensusParams.baseAssetId
      gasPrice := components.gasPrice }
  executor.executeTransactionAndCommit (.transaction (.mint coinbaseTx)) components.gasPrice
    coinbaseContractId

/-- The `loop` of `produce_block`: `process_l2_txs`, and again for each of the `rounds` times
the waiter reports new transactions. -/
def l2Rounds (components : Components σ) (fuel : ℕ) : ℕ → σ → BlockM (Option σ)
  | 0, state => executor.processL2Txs components fuel state
  | rounds + 1, state => do
      match ← executor.processL2Txs components fuel state with
      | none => pure none
      | some state => l2Rounds components fuel rounds state

def produceBlock (components : Components σ) (rounds fuel : ℕ) (state : σ) (storage : Storage) :
    EStateM.Result ExecutorError Producing (Option σ) :=
  (do
    executor.processL1Txs components.coinbaseRecipient
    match ← executor.l2Rounds components fuel rounds state with
    | none => pure none
    | some state =>
        executor.produceMintTx components
        pure (some state)).run ⟨⟨components.headerToProduce, []⟩, storage, ExecutionData.new⟩

/-- `produce_without_commit`, not a dry run: the produced block with its header, and its
execution data and storage. -/
def produceWithoutCommit (components : Components σ) (rounds fuel : ℕ) (state : σ)
    (storage : Storage) : Option (Except ExecutorError (Block × ExecutionData × Storage)) :=
  match executor.produceBlock components rounds fuel state storage with
  | .error error _ => some (.error error)
  | .ok none _ => none
  | .ok (some _) producing => some do
      let block ← (producing.block.generate producing.data.messageIds
        producing.data.eventInboxRoot).mapError .blockHeaderError
      pure (block, producing.data, producing.storage)

/-! ## Validation -/

def getCoinbaseInfoFromMintTx (transactions : List Transaction) :
    Except ExecutorError (Word × ContractId) :=
  match transactions.getLast? with
  | some (.mint mint) => .ok (mint.gasPrice, mint.inputContract.contractId)
  | _ => .error .mintMissing

def checkBlockMatches (newPartialBlock : PartialFuelBlock) (oldBlock : Block)
    (data : ExecutionData) : Except ExecutorError Unit := do
  for (newTx, oldTx) in newPartialBlock.transactions.zip oldBlock.transactions do
    if newTx ≠ oldTx then throw (.invalidTransactionOutcome (executor.vm.id oldTx))
  let newBlock ← (newPartialBlock.generate data.messageIds data.eventInboxRoot).mapError
    .blockHeaderError
  if newBlock.header ≠ oldBlock.header then throw .blockMismatch

/-- The relayed transactions again, then every other transaction of the block, each of which
must execute. -/
def validateBlock (block : Block) (storage : Storage) : EStateM.Result ExecutorError Producing Unit :=
  (do
    let (gasPrice, coinbaseContractId) ← liftExcept (getCoinbaseInfoFromMintTx block.transactions)
    executor.processL1Txs coinbaseContractId
    let processedL1TxCount := (← get).block.transactions.length
    for transaction in block.transactions.drop processedL1TxCount do
      executor.executeTransactionAndCommit (.transaction transaction) gasPrice coinbaseContractId
    let producing ← get
    liftExcept (executor.checkBlockMatches producing.block block producing.data)).run
    ⟨⟨block.header.toPartial, []⟩, storage, .new⟩

/-- `validate_without_commit`: the execution data and storage of the validated block. -/
def validateWithoutCommit (block : Block) (storage : Storage) :
    Except ExecutorError (ExecutionData × Storage) :=
  match executor.validateBlock block storage with
  | .ok () producing => .ok (producing.data, producing.storage)
  | .error error _ => .error error

end BlockExecutor

end FuelCore.Executor
