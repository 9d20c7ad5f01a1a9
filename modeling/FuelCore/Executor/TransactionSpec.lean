import FuelCore.Lib.StateInvariant
import FuelCore.Executor.Transaction

/-! # What a transaction's execution leaves behind

The specifications of the executor's functions are `Std.Do` triples over `EStateM`, whose
exception postcondition describes the state an error leaves: Rust's `?` returns with the
execution data as the call had changed it. `writeTransaction_spec` lifts a triple about a
transaction's execution to the block, committing its storage on success and keeping only its
data on an error.

What a transaction's execution leaves of the execution data is what the block's invariants
are made of: a chargeable transaction keeps the count of the block's transactions and the mint
flag, and returns a chargeable transaction; a mint keeps the count and the coinbase, sets the
flag, and returns itself with its pointer and amount.

A mint marks itself found before any of its checks, so a mint that fails them still blocks
every later transaction of the block, the block's own mint included.
-/

namespace FuelCore.Executor

open Std.Do
open EStateM (ends forIn_ends)

set_option mvcgen.warning false

theorem writeTransaction_spec {α : Type} (execution : ExecutionM α)
    (Q : PostCond α (.except ExecutorError (.arg Producing .pure))) :
    ⦃fun producing => wp⟦execution⟧
      (fun a executing => Q.1 a { producing with storage := executing.storage, data := executing.data },
        fun error executing => Q.2.1 error { producing with data := executing.data }, ())
      ⟨producing.storage, producing.data⟩⦄
    writeTransaction execution ⦃Q⦄ := by
  intro producing pre
  simp only [wp, PredTrans.apply, EStateM.run] at pre ⊢
  simp only [writeTransaction]
  -- the execution's outcome decides whether the storage is committed
  split at pre <;> rename_i outcome <;> simp only [outcome] <;> exact pre

@[simp]
theorem okOr_eq_ok {ε α : Type} {error : ε} {option : Option α} {a : α} :
    okOr error option = .ok a ↔ option = some a := by
  cases option <;> simp [okOr]

@[simp]
theorem map_okOr_eq_ok {ε α β : Type} {f : α → β} {error : ε} {option : Option α} {b : β} :
    f <$> okOr error option = .ok b ↔ ∃ a, option = some a ∧ f a = b := by
  cases option <;> simp [okOr, Functor.map, Except.map]

namespace BlockExecutor

variable (executor : BlockExecutor)

open Executing

/-! ## Spending inputs and persisting outputs

Both push events and change the storage, and nothing else of the execution data. -/

section Events

variable (P : ExecutionData → Prop)
  (pushed : ∀ data event, P data → P { data with events := data.events ++ [event] })

include pushed

theorem takeMessage_spec (nonce : Nonce) :
    ⦃fun executing => ⌜P executing.data⌝⦄ takeMessage nonce
    ⦃ends fun executing => P executing.data⦄ := by
  mvcgen [takeMessage, modifyStorage, pushEvent, modifyData]
  all_goals exact pushed _ _ ‹_›

theorem spendInputUtxos_spec (inputs : List Input) (reverted : Bool) :
    ⦃fun executing => ⌜P executing.data⌝⦄ executor.spendInputUtxos inputs reverted
    ⦃ends fun executing => P executing.data⦄ := by
  have loop := @forIn_ends ExecutorError Executing fun executing => P executing.data
  have takeMessage := takeMessage_spec P pushed
  mvcgen [spendInputUtxos, -Spec.forIn_list, loop, takeMessage, modifyData, modifyStorage,
    pushEvent, liftExcept]
  all_goals exact pushed _ _ ‹_›

theorem insertCoin_spec (blockHeight : BlockHeight) (utxoId : UtxoId) (amount : Word)
    (assetId : AssetId) («to» : Address) :
    ⦃fun executing => ⌜P executing.data⌝⦄ insertCoin blockHeight utxoId amount assetId «to»
    ⦃ends fun executing => P executing.data⦄ := by
  mvcgen [insertCoin, modifyStorage, pushEvent, modifyData]
  all_goals exact pushed _ _ ‹_›

theorem persistOutputUtxos_spec (blockHeight : BlockHeight) (txId : Bytes32) (inputs : List Input)
    (outputs : List Output) :
    ⦃fun executing => ⌜P executing.data⌝⦄ persistOutputUtxos blockHeight txId inputs outputs
    ⦃ends fun executing => P executing.data⦄ := by
  have insertCoin := insertCoin_spec P pushed
  mvcgen [persistOutputUtxos, insertCoin, modifyStorage] invariants
  | inv1 => ends fun executing => P executing.data

theorem executeMintWithVm_spec (header : PartialBlockHeader) (coinbaseContractId : ContractId)
    (coinbaseId : TxId) (mint : Mint) :
    ⦃fun executing => ⌜P executing.data⌝⦄
    executor.executeMintWithVm header coinbaseContractId coinbaseId mint
    ⦃ends fun executing => P executing.data⦄ := by
  have persistOutputUtxos := persistOutputUtxos_spec P pushed
  mvcgen [executeMintWithVm, persistOutputUtxos, modifyStorage, liftExcept]

end Events

/-! ## One transaction -/

theorem updateExecutionData_spec (tx : ChargeableTransaction) (receipts : List Receipt)
    (gasPrice : Word) (reverted : Bool) (state : ProgramState) (txId : TxId) (count : UInt16)
    (found : Bool) :
    ⦃fun executing => ⌜executing.data.txCount = count ∧ executing.data.foundMint = found⌝⦄
    executor.updateExecutionData tx receipts gasPrice reverted state txId
    ⦃ends fun executing => executing.data.txCount = count ∧ executing.data.foundMint = found⦄ := by
  mvcgen [updateExecutionData, updateData, modifyData, liftExcept]
  all_goals simp_all +zetaDelta
  -- the three updates of the fee, gas and size each came out of a checked sum
  all_goals grind

theorem executeChargeableTransaction_spec (checkedTx : ChargeableTransaction)
    (header : PartialBlockHeader) (coinbaseContractId : ContractId) (gasPrice : Word)
    (count : UInt16) (found : Bool) :
    ⦃fun executing => ⌜executing.data.txCount = count ∧ executing.data.foundMint = found⌝⦄
    executor.executeChargeableTransaction checkedTx header coinbaseContractId gasPrice
    ⦃post⟨fun tx executing => ⌜tx.isMint = false ∧ executing.data.txCount = count ∧
        executing.data.foundMint = found⌝,
      fun _ executing => ⌜executing.data.txCount = count ∧ executing.data.foundMint = found⌝⟩⦄ := by
  have spendInputUtxos := executor.spendInputUtxos_spec
    (fun data => data.txCount = count ∧ data.foundMint = found) (fun _ _ holds => holds)
  have persistOutputUtxos := persistOutputUtxos_spec
    (fun data => data.txCount = count ∧ data.foundMint = found) (fun _ _ holds => holds)
  mvcgen [executeChargeableTransaction, extraTxChecks, attemptTxExecutionWithVm,
    spendInputUtxos, persistOutputUtxos, updateExecutionData_spec, modifyStorage, liftExcept]
  all_goals clear spendInputUtxos persistOutputUtxos
  all_goals simp_all +zetaDelta [Transaction.isMint]

theorem storeMintTx_spec (mint : Mint) (coinbaseId : TxId) (count : UInt16) (coinbase : Word)
    (found : Bool) :
    ⦃fun executing => ⌜executing.data.txCount = count ∧ executing.data.coinbase = coinbase ∧
      executing.data.foundMint = found⌝⦄
    storeMintTx mint coinbaseId
    ⦃post⟨fun tx executing => ⌜tx = .mint mint ∧ executing.data.txCount = count ∧
        executing.data.coinbase = coinbase ∧ executing.data.foundMint = found⌝,
      fun _ executing => ⌜executing.data.txCount = count ∧ executing.data.coinbase = coinbase ∧
        executing.data.foundMint = found⌝⟩⦄ := by
  mvcgen [storeMintTx, modifyData, modifyStorage]

/-- `execute_mint` marks the mint found first: whatever it returns, the flag is set. -/
theorem executeMint_spec (mint : Mint) (header : PartialBlockHeader)
    (coinbaseContractId : ContractId) (gasPrice : Word) (count : UInt16) (coinbase : Word) :
    ⦃fun executing => ⌜executing.data.txCount = count ∧ executing.data.coinbase = coinbase⌝⦄
    executor.executeMint mint header coinbaseContractId gasPrice
    ⦃post⟨fun tx executing => ⌜(∃ minted : Mint, tx = .mint minted ∧
          minted.txPointer = mint.txPointer ∧ minted.mintAmount = mint.mintAmount) ∧
        mint.txPointer.txIndex = count ∧ executing.data.txCount = count ∧
        executing.data.coinbase = coinbase ∧ executing.data.foundMint = true⌝,
      fun _ executing => ⌜executing.data.txCount = count ∧ executing.data.foundMint = true⌝⟩⦄ := by
  have executeMintWithVm := executor.executeMintWithVm_spec
    (fun data => data.txCount = count ∧ data.coinbase = coinbase ∧ data.foundMint = true)
    (fun _ _ holds => holds)
  mvcgen [executeMint, modifyData, liftExcept, checkMintHasExpectedIndex, executeMintWithVm,
    storeMintTx_spec]
  all_goals clear executeMintWithVm
  all_goals simp_all +zetaDelta

/-- A transaction runs only while no mint is found, keeps the count of the block's
transactions, and leaves the mint found when it is a mint. -/
theorem executeTransaction_spec (tx : MaybeCheckedTransaction) (txId : TxId)
    (header : PartialBlockHeader) (coinbaseContractId : ContractId) (gasPrice : Word)
    (count : UInt16) (found : Bool) :
    ⦃fun executing => ⌜executing.data.txCount = count ∧ executing.data.foundMint = found⌝⦄
    executor.executeTransaction tx txId header coinbaseContractId gasPrice
    ⦃post⟨fun tx executing => ⌜found = false ∧ executing.data.txCount = count ∧
        (tx.isMint = true → executing.data.foundMint = true)⌝,
      fun _ executing => ⌜executing.data.txCount = count ∧
        (found = true → executing.data.foundMint = true)⌝⟩⦄ := by
  mvcgen [executeTransaction, checkMintIsNotFound, checkTxIsNotDuplicate, liftExcept,
    executeChargeableTransaction_spec, executeMint_spec]
  all_goals simp_all +zetaDelta

/-- Checked once more, the block's own mint stays the mint it was built as, provided checking
a transaction gives that transaction back. -/
theorem executeTransaction_mint_spec
    (checkKeeps : ∀ tx height checked,
      executor.vm.intoCheckedBasic tx height = .ok checked → checked = tx)
    (mint : Mint) (txId : TxId) (header : PartialBlockHeader) (coinbaseContractId : ContractId)
    (gasPrice : Word) (count : UInt16) (found : Bool) (coinbase : Word) :
    ⦃fun executing => ⌜executing.data.txCount = count ∧ executing.data.foundMint = found ∧
      executing.data.coinbase = coinbase⌝⦄
    executor.executeTransaction (.transaction (.mint mint)) txId header coinbaseContractId gasPrice
    ⦃post⟨fun tx executing => ⌜(∃ minted : Mint, tx = .mint minted ∧
          minted.txPointer = mint.txPointer ∧ minted.mintAmount = mint.mintAmount) ∧
        mint.txPointer.txIndex = count ∧ found = false ∧ executing.data.txCount = count ∧
        executing.data.coinbase = coinbase⌝,
      fun _ _ => ⌜True⌝⟩⦄ := by
  have checked := checkKeeps (.mint mint) header.height
  mvcgen [executeTransaction, checkMintIsNotFound, checkTxIsNotDuplicate, liftExcept,
    convertMaybeCheckedTxToCheckedTx, executeMint_spec]
  all_goals simp_all +zetaDelta

theorem executeTransaction_of_found {tx : MaybeCheckedTransaction} {txId : TxId}
    {header : PartialBlockHeader} {coinbaseContractId : ContractId} {gasPrice : Word}
    (executing : Executing) (found : executing.data.foundMint = true) :
    ⦃fun current => ⌜current = executing⌝⦄
    executor.executeTransaction tx txId header coinbaseContractId gasPrice
    ⦃post⟨fun _ _ => ⌜False⌝,
      fun error current => ⌜error = .mintIsNotLastTransaction ∧ current = executing⌝⟩⦄ := by
  mvcgen [executeTransaction, checkMintIsNotFound]
  all_goals simp_all

/-- A mint at another index than the count of the block's transactions fails its first check,
after it has marked itself found. -/
theorem executeMint_of_misplaced {mint : Mint} {header : PartialBlockHeader}
    {coinbaseContractId : ContractId} {gasPrice : Word} (executing : Executing)
    (misplaced : mint.txPointer.txIndex ≠ executing.data.txCount) :
    ⦃fun current => ⌜current = executing⌝⦄
    executor.executeMint mint header coinbaseContractId gasPrice
    ⦃post⟨fun _ _ => ⌜False⌝, fun error current => ⌜error = .mintHasUnexpectedIndex ∧
      current = { executing with data := { executing.data with foundMint := true } }⌝⟩⦄ := by
  -- what follows the failed check is never run
  mvcgen -errorOnMissingSpec [executeMint, modifyData, liftExcept, checkMintHasExpectedIndex]
  all_goals subst_vars
  all_goals simp_all +zetaDelta

theorem executeTransactionAndCommit_of_misplaced {tx : MaybeCheckedTransaction} {mint : Mint}
    {gasPrice : Word} {coinbaseContractId : ContractId} (producing : Producing)
    (notFound : producing.data.foundMint = false)
    (fresh : executor.vm.id tx.tx ∉ producing.storage.processedTransactions)
    (checked : executor.convertMaybeCheckedTxToCheckedTx tx producing.block.header =
      .ok (.mint mint))
    (misplaced : mint.txPointer.txIndex ≠ producing.data.txCount) :
    ⦃fun current => ⌜current = producing⌝⦄
    executor.executeTransactionAndCommit tx gasPrice coinbaseContractId
    ⦃post⟨fun _ _ => ⌜False⌝, fun error current => ⌜error = .mintHasUnexpectedIndex ∧
      current = { producing with data := { producing.data with foundMint := true } }⌝⟩⦄ := by
  mvcgen [executeTransactionAndCommit, writeTransaction_spec, executeTransaction,
    checkMintIsNotFound, checkTxIsNotDuplicate, liftExcept, executeMint_of_misplaced]
  all_goals subst_vars
  all_goals simp_all +zetaDelta

end BlockExecutor

/-! ## A mint at the wrong index -/

def Storage.empty : Storage :=
  ⟨∅, ∅, [], ∅, ∅, ∅⟩

/-- The header of block `1`, at DA height `0` and consensus parameters `0`. -/
def blockOneHeader : PartialBlockHeader :=
  ⟨1, 0, 0⟩

/-- A mint of nothing to the zero contract that claims the second place of block `1`. -/
def misplacedMint : Mint :=
  ⟨⟨1, 1⟩, ⟨⟨0, 0⟩, 0, 0, ⟨0, 0⟩, 0⟩, ⟨0, 0, 0⟩, 0, 0, 0⟩

/-- Offered first, the misplaced mint is rejected, and leaves the mint marked found: every
transaction after it, the block's own mint included, fails with `MintIsNotLastTransaction`. -/
theorem misplaced_mint_leaves_mint_found (executor : BlockExecutor) :
    (executor.executeTransactionAndCommit (.checkedTransaction (.mint misplacedMint) 0) 0 0).run
        ⟨⟨blockOneHeader, []⟩, .empty, .new⟩ =
      .error .mintHasUnexpectedIndex
        ⟨⟨blockOneHeader, []⟩, .empty, { ExecutionData.new with foundMint := true }⟩ :=
  rfl

end FuelCore.Executor
