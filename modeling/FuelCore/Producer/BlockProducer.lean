import FuelCore.Executor.Block

/-! # The block producer

`services/producer/src/block_producer.rs`. To produce the block at a height, the producer checks
that the height follows the latest block, takes the header of the previous block as the base of
the new one, and picks the DA height of the new block: the highest DA height the relayer has
finalized such that the forced transactions of the DA blocks after the previous block's DA height
fit, in gas and in number, into one block. It then hands the header, the transaction source, the
coinbase recipient and the gas price to the executor (`FuelCore.Executor.produceWithoutCommit`).

The relayer is what `wait_for_at_least_height` returns and what it reports of each DA block; its
failures, those of the database and of the gas price provider, the production lock and the block
time and previous root of the header (which the executor does not read) are left out.
-/

namespace FuelCore.Producer

open FuelCore.Executor (BlockHeight DaBlockHeight ConsensusParametersVersion ContractId Word
  PartialBlockHeader Components TransactionsSource Transaction)

/-- `RelayerBlockInfo`: the gas the forced transactions of a DA block cost, and their number. -/
structure RelayerBlockInfo where
  gasCost : UInt64
  txCount : UInt64
  deriving DecidableEq, Repr

/-- The relayer as the producer sees it: the DA height `wait_for_at_least_height` returns, and
`get_cost_and_transactions_number_for_block`. -/
structure Relayer where
  highest : DaBlockHeight
  blockInfo : DaBlockHeight → RelayerBlockInfo

/-- The latest view of the database, as far as the producer reads it: the latest height, the DA
height and consensus parameters version of each block, and the latest version. -/
structure View where
  latestHeight : Option BlockHeight
  blockDaHeight : BlockHeight → Option DaBlockHeight
  latestConsensusParametersVersion : ConsensusParametersVersion

/-- The errors of production, with the values their messages print. -/
inductive Error
  /-- "Genesis block is absent". -/
  | noGenesisBlock
  /-- "The block height {height} should be higher than the previous block height
  {previous_block}". -/
  | blockHeightShouldBeHigherThanPrevious (height previousBlock : BlockHeight)
  /-- "Best finalized da_height {best} is behind previous block da_height {previous_block}". -/
  | invalidDaFinalizationState (best previousBlock : DaBlockHeight)
  /-- "Couldn't produce genesis block". -/
  | cannotProduceGenesisBlock
  /-- "Attempting to produce block at height {requested_height} when expecting block at height
  {expected_height}". -/
  | mustProduceBlockWithExpectedHeight (requestedHeight expectedHeight : BlockHeight)
  /-- "Reached maximum block height". -/
  | maximumBlockHeightReached
  /-- `NO_NEW_DA_HEIGHT_FOUND`: "No new da_height found". -/
  | noNewDaHeightFound
  /-- The storage's error for a block the view does not hold. -/
  | blockNotFound (height : BlockHeight)
  /-- The chain state's error for an unknown consensus parameters version. -/
  | consensusParametersNotFound (version : ConsensusParametersVersion)
  /-- "The last transaction in the block should be a mint transaction". -/
  | lastTransactionShouldBeMint
  deriving DecidableEq, Repr

/-- `u16::MAX - 1`: the transactions of a block without its mint. -/
def transactionsLimit : UInt16 := 0xFFFE

/-- The `for` loop of `select_new_da_height` over the DA heights after the previous one: the
totals grow, saturating, by each DA block's cost and count, and the best height moves to each
DA block until one brings either total over its limit. -/
def selectLoop (relayer : Relayer) (gasLimit transactionsLimit : UInt64) :
    List DaBlockHeight → DaBlockHeight → UInt64 → UInt64 → DaBlockHeight
  | [], newBest, _, _ => newBest
  | height :: heights, newBest, totalCost, totalTransactions =>
      let info := relayer.blockInfo height
      let totalCost := totalCost.saturatingAdd info.gasCost
      let totalTransactions := totalTransactions.saturatingAdd info.txCount
      if totalCost > gasLimit ∨ totalTransactions > transactionsLimit then newBest
      else selectLoop relayer gasLimit transactionsLimit heights height totalCost totalTransactions

/-- `select_new_da_height`. -/
def selectNewDaHeight (relayer : Relayer) (gasLimit : UInt64) (previousDaHeight : DaBlockHeight)
    (transactionsLimit : UInt16) : Except Error DaBlockHeight :=
  let highest := relayer.highest
  if highest < previousDaHeight then .error (.invalidDaFinalizationState highest previousDaHeight)
  else if highest = previousDaHeight then .ok highest
  else
    let nextDaHeight := previousDaHeight.saturatingAdd 1
    let newBest := selectLoop relayer gasLimit transactionsLimit.toUInt64
      (FuelCore.Executor.daHeights nextDaHeight highest) previousDaHeight 0 0
    if newBest = previousDaHeight then .error .noNewDaHeightFound else .ok newBest

/-- `new_header`: the height after the latest, the latest block's DA height, and the latest
consensus parameters version. -/
def newHeader (view : View) : Except Error PartialBlockHeader := do
  let latestHeight ← match view.latestHeight with
    | some height => pure height
    | none => throw .noGenesisBlock
  let daHeight ← match view.blockDaHeight latestHeight with
    | some daHeight => pure daHeight
    | none => throw (.blockNotFound latestHeight)
  let height ← match latestHeight.checkedAdd 1 with
    | some height => pure height
    | none => throw .maximumBlockHeightReached
  pure ⟨height, daHeight, view.latestConsensusParametersVersion⟩

/-- `new_header_with_new_da_height`, with the block gas limit of each consensus parameters
version. -/
def newHeaderWithNewDaHeight (relayer : Relayer) (blockGasLimit : ConsensusParametersVersion → Option UInt64)
    (view : View) : Except Error PartialBlockHeader := do
  let blockHeader ← newHeader view
  let gasLimit ← match blockGasLimit blockHeader.consensusParametersVersion with
    | some gasLimit => pure gasLimit
    | none => throw (.consensusParametersNotFound blockHeader.consensusParametersVersion)
  let newDaHeight ← selectNewDaHeight relayer gasLimit blockHeader.daHeight transactionsLimit
  pure { blockHeader with daHeight := newDaHeight }

/-- `produce_and_execute`, up to the components it hands to the executor: the checks of the
height, the transaction source for the gas price and height, and the header. -/
def produceAndExecute {σ : Type} (relayer : Relayer)
    (blockGasLimit : ConsensusParametersVersion → Option UInt64) (coinbaseRecipient : Option ContractId)
    (gasPrice : Word) (view : View) (height : BlockHeight)
    (txSource : Word → BlockHeight → TransactionsSource σ) : Except Error (Components σ) := do
  let latestHeight ← match view.latestHeight with
    | some height => pure height
    | none => throw .noGenesisBlock
  let nextHeight ← match latestHeight.checkedAdd 1 with
    | some height => pure height
    | none => throw .maximumBlockHeightReached
  if height = 0 then throw .cannotProduceGenesisBlock
  if height ≠ nextHeight then throw (.mustProduceBlockWithExpectedHeight height nextHeight)
  let source := txSource gasPrice nextHeight
  let header ← newHeaderWithNewDaHeight relayer blockGasLimit view
  pure ⟨header, source, coinbaseRecipient.getD 0, gasPrice⟩

/-- `new_header_with_da_height`. -/
def newHeaderWithDaHeight (daHeight : DaBlockHeight) (view : View) :
    Except Error PartialBlockHeader := do
  let blockHeader ← newHeader view
  pure { blockHeader with daHeight }

/-- `produce_and_execute_predefined`, up to what it hands to the executor: the components, with
the block's DA height, the mint's gas price and coinbase contract, and the block's transactions
but the last, which must be a mint, as what the source gives. -/
def produceAndExecutePredefined (view : View) (height : BlockHeight) (daHeight : DaBlockHeight)
    (transactions : List Transaction) :
    Except Error (Components (List FuelCore.Executor.MaybeCheckedTransaction) ×
      List FuelCore.Executor.MaybeCheckedTransaction) := do
  let headerToProduce ← newHeaderWithDaHeight daHeight view
  let latestHeight ← match view.latestHeight with
    | some height => pure height
    | none => throw .noGenesisBlock
  if headerToProduce.height ≤ latestHeight then
    throw (.blockHeightShouldBeHigherThanPrevious height latestHeight)
  let mint ← match transactions.getLast? with
    | some (.mint mint) => pure mint
    | _ => throw .lastTransactionShouldBeMint
  pure (⟨headerToProduce, FuelCore.Executor.onceTransactionsSource,
    mint.inputContract.contractId, mint.gasPrice⟩, transactions.dropLast.map .transaction)

end FuelCore.Producer
