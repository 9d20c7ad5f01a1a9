import FuelCore.Executor.BlockSpec

/-! # The blocks `produce_block` returns

Along a whole production the execution data counts the block's transactions, and its mint
flag is set once a mint is in the block (`Counted`): every transaction, committed or failed,
relayed or from the source, keeps that, and so does every loop of the production. From it, a
produced block ends with its only mint, at the index of the count of the transactions before
it, minting the coinbase the execution data collected, with at most `u16::MAX` transactions.
-/

namespace FuelCore.Executor

open Std.Do
open EStateM (ends forIn_ends)

set_option mvcgen.warning false

/-- The block's transactions as the execution data counts them: the count is exact until an
increment overflows, and stays at `u16::MAX` from then on; the mint flag is set once a mint
is among them. -/
structure Counted (transactions : List Transaction) (txCount : UInt16) (foundMint : Bool) :
    Prop where
  count : transactions.length = txCount.toNat ∨ txCount.toNat = 0xFFFF
  mintFound : ∀ tx ∈ transactions, tx.isMint = true → foundMint = true

@[simp]
def Producing.Counted (producing : Producing) : Prop :=
  FuelCore.Executor.Counted producing.block.transactions producing.data.txCount
    producing.data.foundMint

/-- The block's last transaction is its only mint, at the index of the count of the
transactions before it, and mints `amount`; the block has at most `u16::MAX` transactions. -/
def MintedLast (transactions : List Transaction) (amount : Word) : Prop :=
  ∃ (before : List Transaction) (mint : Mint),
    transactions = before ++ [Transaction.mint mint] ∧ (∀ tx ∈ before, tx.isMint = false) ∧
    mint.txPointer.txIndex.toNat = before.length ∧ mint.mintAmount = amount ∧
    transactions.length ≤ 0xFFFF

namespace Counted

variable {transactions : List Transaction} {txCount txCount' : UInt16} {foundMint : Bool}
  {tx : Transaction}

theorem nil : Counted [] 0 false :=
  ⟨.inl rfl, fun _ member => nomatch member⟩

theorem noMint (holds : Counted transactions txCount false) :
    ∀ tx ∈ transactions, tx.isMint = false := by
  intro tx member
  cases isMint : tx.isMint
  · rfl
  · exact nomatch holds.mintFound tx member isMint

theorem length_eq (holds : Counted transactions txCount foundMint)
    (below : txCount.toNat < 0xFFFF) : transactions.length = txCount.toNat := by
  rcases holds.count with exact | full
  · exact exact
  · omega

theorem push (holds : Counted transactions txCount false)
    (found : tx.isMint = true → foundMint = true)
    (count : txCount'.toNat = txCount.toNat + 1) :
    Counted (transactions ++ [tx]) txCount' foundMint := by
  have below : txCount.toNat < 0xFFFF := by
    have := txCount'.toNat_lt
    omega
  constructor
  · left
    simp [holds.length_eq below, count]
  · simp only [List.mem_append, List.mem_singleton]
    rintro _ (member | rfl) isMint
    · exact nomatch holds.mintFound _ member isMint
    · exact found isMint

theorem pushFull (holds : Counted transactions txCount false)
    (found : tx.isMint = true → foundMint = true) (full : txCount.toNat = 0xFFFF) :
    Counted (transactions ++ [tx]) txCount foundMint := by
  constructor
  · exact .inr full
  · simp only [List.mem_append, List.mem_singleton]
    rintro _ (member | rfl) isMint
    · exact nomatch holds.mintFound _ member isMint
    · exact found isMint

theorem mintedLast {mint : Mint} (holds : Counted transactions txCount false)
    (index : mint.txPointer.txIndex = txCount) (count : txCount'.toNat = txCount.toNat + 1) :
    MintedLast (transactions ++ [Transaction.mint mint]) mint.mintAmount := by
  have below : txCount.toNat < 0xFFFF := by
    have := txCount'.toNat_lt
    omega
  have length := holds.length_eq below
  refine ⟨transactions, mint, rfl, holds.noMint, by rw [index, length], rfl, ?_⟩
  simp only [List.length_append, List.length_singleton]
  omega

end Counted

namespace BlockExecutor

variable (executor : BlockExecutor) {σ : Type}

open Producing

/-! ## The invariant along a production -/

theorem executeTransactionAndCommit_counted (tx : MaybeCheckedTransaction) (gasPrice : Word)
    (coinbaseContractId : ContractId) :
    ⦃fun producing => ⌜producing.Counted⌝⦄
    executor.executeTransactionAndCommit tx gasPrice coinbaseContractId
    ⦃ends Producing.Counted⦄ := by
  mvcgen [executeTransactionAndCommit, writeTransaction_spec, executeTransaction_spec]
  case vc1 =>
    -- executed and counted
    rename_i holds _ _ _ _ executed _ _ incremented _
    obtain ⟨notFound, -, found⟩ := executed
    simp only [Producing.Counted, notFound] at holds
    exact holds.push found (UInt16.checkedAdd_eq_some_iff.mp incremented).2
  case vc2 =>
    -- executed and pushed, but the count overflowed
    rename_i holds txCount _ _ _ executed _ overflowed
    obtain ⟨notFound, count, found⟩ := executed
    have full := UInt16.checkedAdd_eq_none_iff.mp overflowed
    have := txCount.toNat_lt
    simp only [Producing.Counted, notFound] at holds
    rw [Producing.Counted, count]
    exact holds.pushFull found (show txCount.toNat = 0xFFFF by
      simp only [UInt16.size, UInt16.toNat_one] at full
      omega)
  case vc3 =>
    -- failed: the block is as it was, and only the execution data changed
    rename_i holds _ _ _ _
    intro count found
    exact ⟨count ▸ holds.count, fun tx member isMint => found (holds.mintFound tx member isMint)⟩

theorem processDa_counted (blockHeight : BlockHeight) (daBlockHeight : DaBlockHeight) :
    ⦃fun producing => ⌜producing.Counted⌝⦄ executor.processDa blockHeight daBlockHeight
    ⦃ends Producing.Counted⦄ := by
  have loop := @forIn_ends ExecutorError Producing Producing.Counted
  mvcgen [processDa, -Spec.forIn_list, loop, liftExcept, modifyData, pushEvent]

theorem processRelayedTxs_counted (forcedTransactions : List Transaction)
    (coinbaseContractId : ContractId) :
    ⦃fun producing => ⌜producing.Counted⌝⦄
    executor.processRelayedTxs forcedTransactions coinbaseContractId ⦃ends Producing.Counted⦄ := by
  have loop := @forIn_ends ExecutorError Producing Producing.Counted
  mvcgen [processRelayedTxs, -Spec.forIn_list, loop, executeTransactionAndCommit_counted,
    pushEvent, modifyData]

theorem processL1Txs_counted (coinbaseContractId : ContractId) :
    ⦃fun producing => ⌜producing.Counted⌝⦄ executor.processL1Txs coinbaseContractId
    ⦃ends Producing.Counted⦄ := by
  mvcgen [processL1Txs, getRelayedTxs, processDa_counted, processRelayedTxs_counted]

theorem processL2Transaction_counted (transaction : MaybeCheckedTransaction)
    (coinbaseContractId : ContractId) (gasPrice : Word) :
    ⦃fun producing => ⌜producing.Counted⌝⦄
    executor.processL2Transaction transaction coinbaseContractId gasPrice
    ⦃ends Producing.Counted⦄ := by
  mvcgen [processL2Transaction, liftExcept, executeTransactionAndCommit_counted, pushSkipped,
    modifyData]

/-- Of the two large transactions, the first is committed and the second skipped: the block
and the count agree on one transaction. -/
example : (match (do
      largeTransactionsExecutor.processL2Transaction (largeTransaction 1) 7 1
      largeTransactionsExecutor.processL2Transaction (largeTransaction 2) 7 1).run
        ⟨⟨blockOneHeader, []⟩, .empty, .new⟩ with
    | .ok _ producing => some (producing.block.transactions.length, producing.data.txCount)
    | .error _ _ => none) = some (1, 1) := by
  decide +kernel

theorem l2Loop_counted (source : TransactionsSource σ) (coinbaseContractId : ContractId)
    (gasPrice : Word) (fuel : ℕ) (batch : List MaybeCheckedTransaction) (state : σ) :
    ⦃fun producing => ⌜producing.Counted⌝⦄
    executor.l2Loop source coinbaseContractId gasPrice fuel batch state
    ⦃ends Producing.Counted⦄ := by
  have loop := @forIn_ends ExecutorError Producing Producing.Counted
  induction fuel generalizing batch state with
  | zero => mvcgen [l2Loop]
  | succ fuel induction =>
      mvcgen [l2Loop, -Spec.forIn_list, loop, processL2Transaction_counted, induction]

theorem processL2Txs_counted (components : Components σ) (fuel : ℕ) (state : σ) :
    ⦃fun producing => ⌜producing.Counted⌝⦄ executor.processL2Txs components fuel state
    ⦃ends Producing.Counted⦄ := by
  mvcgen [processL2Txs, l2Loop_counted]

theorem l2Rounds_counted (components : Components σ) (fuel rounds : ℕ) (state : σ) :
    ⦃fun producing => ⌜producing.Counted⌝⦄ executor.l2Rounds components fuel rounds state
    ⦃ends Producing.Counted⦄ := by
  induction rounds generalizing state with
  | zero => mvcgen [l2Rounds, processL2Txs_counted]
  | succ rounds induction => mvcgen [l2Rounds, processL2Txs_counted, induction]

/-! ## The mint -/

section Checks

variable (checkKeeps : ∀ tx height checked,
  executor.vm.intoCheckedBasic tx height = .ok checked → checked = tx)

include checkKeeps

theorem produceMintTx_spec (components : Components σ) :
    ⦃fun producing => ⌜producing.Counted⌝⦄ executor.produceMintTx components
    ⦃post⟨fun _ producing => ⌜MintedLast producing.block.transactions
        (if components.coinbaseRecipient ≠ 0 then producing.data.coinbase else 0)⌝,
      fun _ _ => ⌜True⌝⟩⦄ := by
  have executeMint := executor.executeTransaction_mint_spec checkKeeps
  mvcgen [produceMintTx, executeTransactionAndCommit, writeTransaction_spec, executeMint]
  rename_i producing holds _ _ _ coinbaseTx _ _ _ executing executed _ _ incremented _
  obtain ⟨⟨minted, rfl, pointer, amount⟩, index, notFound, -, coinbase⟩ := executed
  simp only [Producing.Counted, notFound] at holds
  have last := holds.mintedLast (by rw [pointer, index])
    (UInt16.checkedAdd_eq_some_iff.mp incremented).2
  rw [amount] at last
  -- the mint executed over the coinbase it was built with
  show MintedLast (producing.block.transactions ++ [Transaction.mint minted])
    (if components.coinbaseRecipient ≠ 0 then executing.data.coinbase else 0)
  rw [coinbase]
  exact last

/-- A produced block ends with its only mint, at the index of the count of the transactions
before it, minting the coinbase collected, with at most `u16::MAX` transactions. -/
theorem produceBlock_mints_last (components : Components σ) (rounds fuel : ℕ) (state : σ)
    (storage : Storage) {state' : σ} {producing : Producing}
    (produced : executor.produceBlock components rounds fuel state storage =
      .ok (some state') producing) :
    MintedLast producing.block.transactions
      (if components.coinbaseRecipient ≠ 0 then producing.data.coinbase else 0) := by
  unfold produceBlock at produced
  apply EStateM.of_wp_run_eq produced (fun result => ∀ state' producing,
    result = .ok (some state') producing → MintedLast producing.block.transactions
      (if components.coinbaseRecipient ≠ 0 then producing.data.coinbase else 0)) _ state' producing rfl
  have produceMintTx := executor.produceMintTx_spec checkKeeps components
  mvcgen [processL1Txs_counted, l2Rounds_counted, produceMintTx]
  -- the block starts empty, with nothing counted and no mint found
  · exact Counted.nil
  -- without a state to go on from, the rounds produce no block
  · nofun
  -- the block the mint ended is the block returned
  · rintro _ _ ⟨⟩
    assumption
  -- a failed step returns no block
  all_goals nofun

end Checks

/-- The block of the two large transactions, whose second is skipped after its fee was
counted, still ends with its mint of the coinbase. -/
theorem large_transactions_block_mints_last :
    ∃ (state : List MaybeCheckedTransaction) (producing : Producing),
      largeTransactionsExecutor.produceBlock largeTransactionsComponents 0 2
          [largeTransaction 1, largeTransaction 2] .empty = .ok (some state) producing ∧
        MintedLast producing.block.transactions
          (if largeTransactionsComponents.coinbaseRecipient ≠ 0 then producing.data.coinbase
            else 0) := by
  have returned : (producedBlock (largeTransactionsExecutor.produceBlock
      largeTransactionsComponents 0 2 [largeTransaction 1, largeTransaction 2] .empty)).isSome =
      true := by
    decide +kernel
  cases produced : largeTransactionsExecutor.produceBlock largeTransactionsComponents 0 2
      [largeTransaction 1, largeTransaction 2] .empty with
  | ok result producing =>
      cases result with
      | none => simp [produced, producedBlock] at returned
      | some state =>
          exact ⟨state, producing, rfl, produceBlock_mints_last largeTransactionsExecutor
            (fun _ _ _ checked => (Except.ok.inj checked).symm) largeTransactionsComponents 0 2
            _ .empty produced⟩
  | error error producing => simp [produced, producedBlock] at returned

end BlockExecutor

end FuelCore.Executor
