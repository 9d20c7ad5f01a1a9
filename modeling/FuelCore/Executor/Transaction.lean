import FuelCore.Executor.Types

/-! # Executing one transaction

`execute_transaction_and_commit` and what it calls. The transaction runs over a write
transaction on the block's storage transaction, which is committed when the execution
succeeds and dropped when it fails; the execution data is changed in place all along, so an
error leaves it as the call had changed it up to the error.

A mint sets `found_mint` before its checks; a chargeable transaction spends its inputs and
persists its outputs (pushing their events) before its fee is accounted, and the fee is
added to the coinbase before the gas and size are; the transaction count is incremented after
the transaction is pushed to the block.
-/

namespace FuelCore.Executor

/-- Rust's `Option::ok_or`. -/
def okOr {ε α : Type} (error : ε) : Option α → Except ε α
  | some a => .ok a
  | none => .error error

/-- `try_into().unwrap_or(u32::MAX)` of a `usize` or a `u64`. -/
def toU32OrMax (n : ℕ) : UInt32 :=
  if n < UInt32.size then n.toUInt32 else 0xFFFFFFFF

def CompressedCoin.matchesInput (coin : CompressedCoin) : Input → Option Bool
  | .coin _ owner amount assetId =>
      some (owner == coin.owner && amount == coin.amount && assetId == coin.assetId)
  | _ => none

/-- A message's data matches a message-coin input when it is empty, and a message-data input
when it is that input's data. -/
def Message.matchesInput (message : Message) (input : Input) : Option Bool :=
  let expectedData := if message.data.isEmpty then none else some message.data
  match input with
  | .messageCoin sender recipient amount nonce =>
      some (message.sender == sender && message.recipient == recipient &&
        message.nonce == nonce && message.amount == amount && expectedData == none)
  | .messageData sender recipient amount nonce data =>
      some (message.sender == sender && message.recipient == recipient &&
        message.nonce == nonce && message.amount == amount && expectedData == some data)
  | _ => none

namespace Executing

def modifyData (f : ExecutionData → ExecutionData) : ExecutionM Unit :=
  modify fun executing => { executing with data := f executing.data }

/-- An assignment `execution_data.field = f(execution_data)?`: nothing changes on an error. -/
def updateData (f : ExecutionData → Except ExecutorError ExecutionData) : ExecutionM Unit := do
  let data ← liftExcept (f (← get).data)
  modifyData fun _ => data

def modifyStorage (f : Storage → Storage) : ExecutionM Unit :=
  modify fun executing => { executing with storage := f executing.storage }

def pushEvent (event : ExecutorEvent) : ExecutionM Unit :=
  modifyData fun data => { data with events := data.events ++ [event] }

end Executing

open Executing

/-- The write transaction a transaction runs over, on the block's storage transaction: its
storage changes are committed when the execution succeeds and dropped when it fails, while
what the execution did to the execution data stays either way. -/
def writeTransaction {α : Type} (execution : ExecutionM α) : BlockM α := fun producing =>
  match execution ⟨producing.storage, producing.data⟩ with
  | .ok a executing =>
      .ok a { producing with storage := executing.storage, data := executing.data }
  | .error error executing => .error error { producing with data := executing.data }

namespace BlockExecutor

variable (executor : BlockExecutor)

/-! ## Checks -/

def checkMintIsNotFound : ExecutionM Unit := do
  if (← get).data.foundMint then throw .mintIsNotLastTransaction

def checkTxIsNotDuplicate (txId : TxId) : ExecutionM Unit := do
  if txId ∈ (← get).storage.processedTransactions then throw (.transactionIdCollision txId)

def convertMaybeCheckedTxToCheckedTx (tx : MaybeCheckedTransaction)
    (header : PartialBlockHeader) : Except ExecutorError Transaction :=
  let blockHeight := header.height
  let actualVersion := header.consensusParametersVersion
  let expiration := tx.expiration
  match tx with
  | .transaction tx => executor.vm.intoCheckedBasic tx blockHeight
  | .checkedTransaction checkedTx checkedVersion =>
      if blockHeight > expiration then .error (.transactionExpired expiration blockHeight)
      else if actualVersion = checkedVersion then .ok checkedTx
      else executor.vm.intoCheckedBasic checkedTx blockHeight

def verifyInputsExistAndValuesMatch (storage : Storage) (inputs : List Input)
    (blockDaHeight : DaBlockHeight) : Except ExecutorError Unit := do
  for input in inputs do
    match input with
    | .coin utxoId .. =>
        match storage.coins.lookup utxoId with
        | some coin =>
            if !(coin.matchesInput input).getD false then
              throw (.transactionValidity (.coinMismatch utxoId))
        | none => throw (.transactionValidity (.coinDoesNotExist utxoId))
    | .contract contract =>
        if contract.contractId ∉ storage.contractsLatestUtxo then
          throw (.transactionValidity (.contractDoesNotExist contract.contractId))
    | .messageCoin _ _ _ nonce | .messageData _ _ _ nonce _ =>
        match storage.messages.lookup nonce with
        | some message =>
            if message.daHeight > blockDaHeight then
              throw (.transactionValidity (.messageSpendTooEarly nonce))
            if !(message.matchesInput input).getD false then
              throw (.transactionValidity (.messageMismatch nonce))
        | none => throw (.transactionValidity (.messageDoesNotExist nonce))

/-- Predicates, then the inputs against the storage, then signatures. -/
def extraTxChecks (checkedTx : ChargeableTransaction) (header : PartialBlockHeader) :
    ExecutionM ChargeableTransaction := do
  let storage := (← get).storage
  let checkedTx ← liftExcept (executor.vm.checkPredicates checkedTx storage)
  liftExcept (verifyInputsExistAndValuesMatch storage checkedTx.inputs header.daHeight)
  liftExcept (executor.vm.checkSignatures checkedTx)

/-! ## Inputs and outputs -/

def getCoinOrDefault (storage : Storage) (utxoId : UtxoId) (owner : Address) (amount : Word)
    (assetId : AssetId) : Except ExecutorError CompressedCoin :=
  if executor.options.forbidFakeCoins then
    okOr (.transactionValidity (.coinDoesNotExist utxoId)) (storage.coins.lookup utxoId)
  else
    -- without utxo validation the input is taken as a coin of the original block
    .ok ⟨owner, amount, assetId, ⟨0, 0⟩⟩

/-- The `take` of a message an input spends. -/
def takeMessage (nonce : Nonce) : ExecutionM Unit := do
  match (← get).storage.messages.lookup nonce with
  | some message =>
      modifyStorage fun storage => { storage with messages := storage.messages.erase nonce }
      pushEvent (.messageConsumed message)
  | none => throw (.messageDoesNotExist nonce)

def spendInputUtxos (inputs : List Input) (reverted : Bool) : ExecutionM Unit := do
  for input in inputs do
    match input with
    | .coin utxoId owner amount assetId =>
        -- a coin not in the database was spent already, or utxo validation is off
        let coin ← match (← get).storage.coins.lookup utxoId with
          | some coin => do
              modifyStorage fun storage => { storage with coins := storage.coins.erase utxoId }
              pure coin
          | none => liftExcept (executor.getCoinOrDefault (← get).storage utxoId owner amount assetId)
        pushEvent (.coinConsumed utxoId coin)
    | .messageData _ _ _ nonce _ =>
        -- a reverted transaction does not spend its retryable messages
        if !reverted then takeMessage nonce
    | .messageCoin _ _ _ nonce => takeMessage nonce
    | .contract _ => pure ()

def insertCoin (blockHeight : BlockHeight) (utxoId : UtxoId) (amount : Word) (assetId : AssetId)
    («to» : Address) : ExecutionM Unit := do
  -- a variable or transfer output of a reverted script has no amount, and makes no coin
  if amount > 0 then
    let coin : CompressedCoin := ⟨«to», amount, assetId, ⟨blockHeight, (← get).data.txCount⟩⟩
    let replaced := (← get).storage.coins.lookup utxoId
    modifyStorage fun storage => { storage with coins := storage.coins.insert utxoId coin }
    if replaced.isSome then throw .outputAlreadyExists
    pushEvent (.coinCreated utxoId coin)

def persistOutputUtxos (blockHeight : BlockHeight) (txId : Bytes32) (inputs : List Input)
    (outputs : List Output) : ExecutionM Unit := do
  let txIdx := (← get).data.txCount
  for (output, outputIndex) in outputs.zipIdx do
    let index ← if outputIndex < UInt16.size then pure outputIndex.toUInt16
      else throw .tooManyOutputs
    let utxoId : UtxoId := ⟨txId, index⟩
    match output with
    | .coin «to» amount assetId | .change «to» amount assetId | .variable «to» amount assetId =>
        insertCoin blockHeight utxoId amount assetId «to»
    | .contract contract =>
        match inputs[contract.inputIndex.toNat]? with
        | some (.contract inputContract) =>
            modifyStorage fun storage => { storage with
              contractsLatestUtxo :=
                storage.contractsLatestUtxo.insert inputContract.contractId
                  ⟨utxoId, ⟨blockHeight, txIdx⟩⟩ }
        | _ => throw (.transactionValidity (.invalidContractInputIndex utxoId))
    | .contractCreated contractId =>
        modifyStorage fun storage => { storage with
          contractsLatestUtxo :=
            storage.contractsLatestUtxo.insert contractId ⟨utxoId, ⟨blockHeight, txIdx⟩⟩ }

/-! ## Fees and the execution data -/

/-- The gas of the last `ScriptResult` receipt; a transaction without a script used none. -/
def scriptGasUsed (receipts : List Receipt) : Word :=
  (receipts.reverse.findSome? fun receipt =>
    match receipt with
    | .scriptResult gasUsed => some gasUsed
    | _ => none).getD 0

/-- The gas used and the fee paid. -/
def totalFeePaid (tx : ChargeableTransaction) (receipts : List Receipt) (gasPrice : Word) :
    Except ExecutorError (Word × Word) := do
  let minGas := executor.vm.minGas tx
  let maxFee := executor.vm.maxFeeLimit tx
  let usedGas := scriptGasUsed receipts
  let fee ← okOr .feeOverflow (executor.vm.refundFee tx usedGas gasPrice)
  let totalUsedGas ← okOr (.gasOverflow .totalUsedGas minGas usedGas) (minGas.checkedAdd usedGas)
  -- without a script result (a create) the fee is the base amount
  return (totalUsedGas, ← okOr .feeOverflow (maxFee.checkedSub fee))

def updateExecutionData (tx : ChargeableTransaction) (receipts : List Receipt) (gasPrice : Word)
    (reverted : Bool) (state : ProgramState) (txId : TxId) : ExecutionM Unit := do
  let (usedGas, txFee) ← liftExcept (executor.totalFeePaid tx receipts gasPrice)
  let usedSize := toU32OrMax (executor.vm.meteredBytesSize tx)
  updateData fun data =>
    return { data with coinbase := ← okOr .feeOverflow (data.coinbase.checkedAdd txFee) }
  updateData fun data =>
    return { data with usedGas := ← (okOr (.gasOverflow .executionUsedGas data.usedGas usedGas)
      (data.usedGas.checkedAdd usedGas)) }
  updateData fun data =>
    return { data with usedSize := ← okOr .txSizeOverflow (data.usedSize.checkedAdd usedSize) }
  if !reverted then
    modifyData fun data =>
      { data with messageIds := data.messageIds ++ receipts.filterMap Receipt.messageId }
  let status : TransactionExecutionResult :=
    if reverted then .failed (some state) receipts usedGas txFee
    else .success (some state) receipts usedGas txFee
  -- the status waits for the block id to be stored
  modifyData fun data => { data with txStatus := data.txStatus ++ [⟨txId, status⟩] }

/-! ## Mint -/

def checkMintAmount (mint : Mint) (expectedAmount : Word) : Except ExecutorError Unit :=
  if mint.mintAmount ≠ expectedAmount then .error .coinbaseAmountMismatch else .ok ()

def checkGasPrice (mint : Mint) (expectedGasPrice : Word) : Except ExecutorError Unit :=
  if mint.gasPrice ≠ expectedGasPrice then .error .coinbaseGasPriceMismatch else .ok ()

def checkMintHasExpectedIndex (checkedMint : Mint) (data : ExecutionData) :
    Except ExecutorError Unit :=
  if checkedMint.txPointer.txIndex ≠ data.txCount then .error .mintHasUnexpectedIndex
  else .ok ()

def verifyMintForEmptyContract (mint : Mint) : Except ExecutorError Unit := do
  if mint.mintAmount ≠ 0 then throw .coinbaseAmountMismatch
  let input : InputContract := ⟨⟨0, 0⟩, 0, 0, ⟨0, 0⟩, 0⟩
  let output : OutputContract := ⟨0, 0, 0⟩
  if mint.inputContract ≠ input ∨ mint.outputContract ≠ output then throw .mintMismatch

def storeMintTx (mint : Mint) (coinbaseId : TxId) : ExecutionM Transaction := do
  modifyData fun data =>
    { data with txStatus := data.txStatus ++ [⟨coinbaseId, .success none [] 0 0⟩] }
  -- `replace` stores the id and reports whether it was there
  let replaced := coinbaseId ∈ (← get).storage.processedTransactions
  modifyStorage fun storage =>
    { storage with processedTransactions := storage.processedTransactions.insert coinbaseId }
  if replaced then throw (.transactionIdCollision coinbaseId)
  pure (.mint mint)

/-- The virtual machine increases the coinbase contract's balance and sets the roots of the
mint's contract input and output; the executor persists the contract output. -/
def executeMintWithVm (header : PartialBlockHeader) (coinbaseContractId : ContractId)
    (coinbaseId : TxId) (mint : Mint) : ExecutionM (InputContract × OutputContract) := do
  let (input, output, storage) ←
    liftExcept (executor.vm.balanceIncrease mint header coinbaseContractId (← get).storage)
  modifyStorage fun _ => storage
  persistOutputUtxos header.height coinbaseId [.contract input] [.contract output]
  pure (input, output)

def executeMint (checkedMint : Mint) (header : PartialBlockHeader)
    (coinbaseContractId : ContractId) (gasPrice : Word) : ExecutionM Transaction := do
  modifyData fun data => { data with foundMint := true }
  liftExcept (checkMintHasExpectedIndex checkedMint (← get).data)
  let coinbaseId := executor.vm.id (.mint checkedMint)
  let mut mint := checkedMint
  liftExcept (checkGasPrice mint gasPrice)
  if mint.inputContract.contractId = 0 then
    liftExcept (verifyMintForEmptyContract mint)
  else
    liftExcept (checkMintAmount mint (← get).data.coinbase)
    let input := Input.contract mint.inputContract
    if executor.options.forbidFakeCoins then
      liftExcept (verifyInputsExistAndValuesMatch (← get).storage [input] header.daHeight)
    let (input, output) ← executor.executeMintWithVm header coinbaseContractId coinbaseId mint
    mint := { mint with inputContract := input, outputContract := output }
  storeMintTx mint coinbaseId

/-! ## Chargeable transactions -/

/-- `attempt_tx_execution_with_vm`: the run of the virtual machine, whose storage transaction
replaces the transaction's. -/
def attemptTxExecutionWithVm (checkedTx : ChargeableTransaction) (header : PartialBlockHeader)
    (coinbaseContractId : ContractId) (gasPrice : Word) :
    ExecutionM (Bool × ProgramState × ChargeableTransaction × List Receipt) := do
  let outcome ← liftExcept
    (executor.vm.execute checkedTx header coinbaseContractId gasPrice (← get).storage)
  modifyStorage fun _ => outcome.storage
  pure (outcome.reverted, outcome.state, outcome.tx, outcome.receipts)

def executeChargeableTransaction (checkedTx : ChargeableTransaction) (header : PartialBlockHeader)
    (coinbaseContractId : ContractId) (gasPrice : Word) : ExecutionM Transaction := do
  let txId := executor.vm.id (.chargeable checkedTx)
  let checkedTx ← if executor.options.forbidFakeCoins then executor.extraTxChecks checkedTx header
    else pure checkedTx
  let (reverted, state, tx, receipts) ←
    executor.attemptTxExecutionWithVm checkedTx header coinbaseContractId gasPrice
  executor.spendInputUtxos tx.inputs reverted
  persistOutputUtxos header.height txId tx.inputs tx.outputs
  modifyStorage fun storage =>
    { storage with processedTransactions := storage.processedTransactions.insert txId }
  executor.updateExecutionData tx receipts gasPrice reverted state txId
  pure (.chargeable tx)

/-! ## One transaction -/

def executeTransaction (tx : MaybeCheckedTransaction) (txId : TxId) (header : PartialBlockHeader)
    (coinbaseContractId : ContractId) (gasPrice : Word) : ExecutionM Transaction := do
  checkMintIsNotFound
  checkTxIsNotDuplicate txId
  match ← liftExcept (executor.convertMaybeCheckedTxToCheckedTx tx header) with
  | .chargeable tx => executor.executeChargeableTransaction tx header coinbaseContractId gasPrice
  | .mint mint => executor.executeMint mint header coinbaseContractId gasPrice

def executeTransactionAndCommit (tx : MaybeCheckedTransaction) (gasPrice : Word)
    (coinbaseContractId : ContractId) : BlockM Unit := do
  let producing ← get
  let txCount := producing.data.txCount
  let txId := executor.vm.id tx.tx
  let tx ← writeTransaction
    (executor.executeTransaction tx txId producing.block.header coinbaseContractId gasPrice)
  modify fun producing => { producing with
    block := { producing.block with transactions := producing.block.transactions ++ [tx] } }
  match txCount.checkedAdd 1 with
  | some txCount => modify fun producing => { producing with data := { producing.data with txCount } }
  | none => throw .tooManyTransactions

end BlockExecutor

end FuelCore.Executor
