import FuelCore.GraphqlApi.CoinsToSpendKey
import FuelCore.Lib.FiberSum
import FuelCore.Lib.Saturating

/-! # The off-chain indexes of coins and messages

The GraphQL worker runs `process_executor_events` over the events of each imported block.
For every event, `update_event_based_indexation` first updates the balances
(`indexation/balances.rs`: `CoinBalances` per owner and asset, `MessageBalances` per
recipient, retryable and non-retryable apart) and then the coins-to-spend index
(`indexation/coins_to_spend.rs`); an error of the first skips the second, and the error is
logged, not returned. Then the worker updates `OwnedCoins`, `OwnedMessageIds`,
`SpentMessages` and `RelayedTransactionStatuses` itself.

A table read with `unwrap_or_default` is a function with the default where nothing was
written; a table of keys with `()` values is a finite set. `CoinsToSpendIndex` holds its
keys as `Manual<CoinsToSpendIndexKey>` writes them, so it is a set of byte strings, and
`replace` and `take` look a key up by its encoding. Storage errors are not modelled: the
tables here cannot fail.
-/

namespace FuelCore.GraphqlApi

/-- `entities::coins::coin::Coin`, with what the indexes read of it. -/
structure Coin where
  utxoId : UtxoId
  owner : Address
  amount : UInt64
  assetId : AssetId
  deriving DecidableEq

/-- `entities::relayer::message::Message`, with what the indexes read of it. -/
structure Message where
  recipient : Address
  nonce : Nonce
  amount : UInt64
  data : List UInt8
  deriving DecidableEq

/-- A message with data is retryable. -/
def Message.isRetryableMessage (message : Message) : Bool :=
  !message.data.isEmpty

def CoinsToSpendIndexKey.fromCoin (coin : Coin) : CoinsToSpendIndexKey :=
  .coin coin.owner coin.assetId coin.amount coin.utxoId

def CoinsToSpendIndexKey.fromMessage (message : Message) (baseAssetId : AssetId) :
    CoinsToSpendIndexKey :=
  let retryableFlagBytes := if message.isRetryableMessage then retryableByte else nonRetryableByte
  .message retryableFlagBytes message.recipient baseAssetId message.amount message.nonce

/-- `RelayedTransactionStatus::Failed`. -/
structure RelayedTransactionStatus where
  blockHeight : UInt32
  failure : String

/-- `services::executor::Event`. -/
inductive Event
  | messageImported (message : Message)
  | messageConsumed (message : Message)
  | coinCreated (coin : Coin)
  | coinConsumed (coin : Coin)
  | forcedTransactionFailed (id : Bytes 32) (blockHeight : UInt32) (failure : String)

/-- The variants of `IndexationError` that the event-based indexation raises. -/
inductive IndexationError
  | coinBalanceWouldUnderflow (owner : Address) (assetId : AssetId)
      (currentAmount requestedDeduction : ℕ)
  | messageBalanceWouldUnderflow (owner : Address) (currentAmount requestedDeduction : ℕ)
      (retryable : Bool)
  | coinToSpendNotFound (owner : Address) (assetId : AssetId) (amount : UInt64) (utxoId : UtxoId)
  | coinToSpendAlreadyIndexed (owner : Address) (assetId : AssetId) (amount : UInt64)
      (utxoId : UtxoId)
  | messageToSpendNotFound (owner : Address) (amount : UInt64) (nonce : Nonce)
  | messageToSpendAlreadyIndexed (owner : Address) (amount : UInt64) (nonce : Nonce)

/-- `MessageBalance`; its default is zero for both. -/
structure MessageBalance where
  retryable : ℕ
  nonRetryable : ℕ
  deriving DecidableEq

/-- The tables of the off-chain database the executor's events update. -/
structure OffChainIndexes where
  coinBalances : Address × AssetId → ℕ
  messageBalances : Address → MessageBalance
  coinsToSpendIndex : Finset (List UInt8)
  ownedCoins : Finset (Address × UtxoId)
  ownedMessageIds : Finset (Address × Nonce)
  spentMessages : Finset Nonce
  relayedTransactionStatuses : Bytes 32 → Option RelayedTransactionStatus

def OffChainIndexes.empty : OffChainIndexes :=
  ⟨fun _ => 0, fun _ => ⟨0, 0⟩, ∅, ∅, ∅, ∅, fun _ => none⟩

/-! ## balances::update -/

def increaseMessageBalance (db : OffChainIndexes) (message : Message) :
    Except IndexationError OffChainIndexes :=
  let key := message.recipient
  let ⟨retryable, nonRetryable⟩ := db.messageBalances key
  let newBalance : MessageBalance :=
    if message.isRetryableMessage then
      ⟨Saturating.add 128 retryable message.amount.toNat, nonRetryable⟩
    else ⟨retryable, Saturating.add 128 nonRetryable message.amount.toNat⟩
  .ok { db with messageBalances := Function.update db.messageBalances key newBalance }

def decreaseMessageBalance (db : OffChainIndexes) (message : Message) :
    Except IndexationError OffChainIndexes :=
  let key := message.recipient
  let ⟨retryable, nonRetryable⟩ := db.messageBalances key
  let currentBalance := if message.isRetryableMessage then retryable else nonRetryable
  if message.amount.toNat ≤ currentBalance then
    let newAmount := currentBalance - message.amount.toNat
    let newBalance : MessageBalance :=
      if message.isRetryableMessage then ⟨newAmount, nonRetryable⟩ else ⟨retryable, newAmount⟩
    .ok { db with messageBalances := Function.update db.messageBalances key newBalance }
  else
    .error (.messageBalanceWouldUnderflow message.recipient currentBalance message.amount.toNat
      message.isRetryableMessage)

def increaseCoinBalance (db : OffChainIndexes) (coin : Coin) :
    Except IndexationError OffChainIndexes :=
  let key := (coin.owner, coin.assetId)
  let currentAmount := db.coinBalances key
  let newAmount := Saturating.add 128 currentAmount coin.amount.toNat
  .ok { db with coinBalances := Function.update db.coinBalances key newAmount }

def decreaseCoinBalance (db : OffChainIndexes) (coin : Coin) :
    Except IndexationError OffChainIndexes :=
  let key := (coin.owner, coin.assetId)
  let currentAmount := db.coinBalances key
  if coin.amount.toNat ≤ currentAmount then
    .ok { db with coinBalances := Function.update db.coinBalances key (currentAmount - coin.amount.toNat) }
  else
    .error (.coinBalanceWouldUnderflow coin.owner coin.assetId currentAmount coin.amount.toNat)

def Balances.update (event : Event) (db : OffChainIndexes) (enabled : Bool) :
    Except IndexationError OffChainIndexes :=
  if !enabled then .ok db
  else
    match event with
    | .messageImported message => increaseMessageBalance db message
    | .messageConsumed message => decreaseMessageBalance db message
    | .coinCreated coin => increaseCoinBalance db coin
    | .coinConsumed coin => decreaseCoinBalance db coin
    | .forcedTransactionFailed .. => .ok db

/-! ## coins_to_spend::update

`replace` of a key that is there and `take` of a key that is not leave the set as it was,
so an error of these functions leaves the index unchanged. -/

def addCoin (db : OffChainIndexes) (coin : Coin) : Except IndexationError OffChainIndexes :=
  let key := encode (CoinsToSpendIndexKey.fromCoin coin)
  if key ∈ db.coinsToSpendIndex then
    .error (.coinToSpendAlreadyIndexed coin.owner coin.assetId coin.amount coin.utxoId)
  else .ok { db with coinsToSpendIndex := insert key db.coinsToSpendIndex }

def removeCoin (db : OffChainIndexes) (coin : Coin) : Except IndexationError OffChainIndexes :=
  let key := encode (CoinsToSpendIndexKey.fromCoin coin)
  if key ∈ db.coinsToSpendIndex then
    .ok { db with coinsToSpendIndex := db.coinsToSpendIndex.erase key }
  else .error (.coinToSpendNotFound coin.owner coin.assetId coin.amount coin.utxoId)

def addMessage (db : OffChainIndexes) (message : Message) (baseAssetId : AssetId) :
    Except IndexationError OffChainIndexes :=
  let key := encode (CoinsToSpendIndexKey.fromMessage message baseAssetId)
  if key ∈ db.coinsToSpendIndex then
    .error (.messageToSpendAlreadyIndexed message.recipient message.amount message.nonce)
  else .ok { db with coinsToSpendIndex := insert key db.coinsToSpendIndex }

def removeMessage (db : OffChainIndexes) (message : Message) (baseAssetId : AssetId) :
    Except IndexationError OffChainIndexes :=
  let key := encode (CoinsToSpendIndexKey.fromMessage message baseAssetId)
  if key ∈ db.coinsToSpendIndex then
    .ok { db with coinsToSpendIndex := db.coinsToSpendIndex.erase key }
  else .error (.messageToSpendNotFound message.recipient message.amount message.nonce)

def CoinsToSpend.update (event : Event) (db : OffChainIndexes) (enabled : Bool)
    (baseAssetId : AssetId) : Except IndexationError OffChainIndexes :=
  if !enabled then .ok db
  else
    match event with
    | .messageImported message => addMessage db message baseAssetId
    | .messageConsumed message => removeMessage db message baseAssetId
    | .coinCreated coin => addCoin db coin
    | .coinConsumed coin => removeCoin db coin
    | .forcedTransactionFailed .. => .ok db

/-! ## process_executor_events -/

/-- `update_event_based_indexation`: what the balances wrote stays when the coins-to-spend
index fails after them. -/
def updateEventBasedIndexation (event : Event) (db : OffChainIndexes)
    (balancesIndexationEnabled coinsToSpendIndexationEnabled : Bool) (baseAssetId : AssetId) :
    OffChainIndexes × Option IndexationError :=
  match Balances.update event db balancesIndexationEnabled with
  | .error error => (db, some error)
  | .ok db =>
      match CoinsToSpend.update event db coinsToSpendIndexationEnabled baseAssetId with
      | .error error => (db, some error)
      | .ok db => (db, none)

/-- The tables `process_executor_events` writes itself for an event. -/
def updateOwnedTables (event : Event) (db : OffChainIndexes) : OffChainIndexes :=
  match event with
  | .messageImported message =>
      { db with ownedMessageIds := insert (message.recipient, message.nonce) db.ownedMessageIds }
  | .messageConsumed message =>
      { db with
        ownedMessageIds := db.ownedMessageIds.erase (message.recipient, message.nonce)
        spentMessages := insert message.nonce db.spentMessages }
  | .coinCreated coin => { db with ownedCoins := insert (coin.owner, coin.utxoId) db.ownedCoins }
  | .coinConsumed coin => { db with ownedCoins := db.ownedCoins.erase (coin.owner, coin.utxoId) }
  | .forcedTransactionFailed id blockHeight failure =>
      { db with
        relayedTransactionStatuses :=
          Function.update db.relayedTransactionStatuses id (some ⟨blockHeight, failure⟩) }

/-- `process_executor_events`, with the indexation errors it logs. -/
def processExecutorEvents (balancesIndexationEnabled coinsToSpendIndexationEnabled : Bool)
    (baseAssetId : AssetId) : List Event → OffChainIndexes → OffChainIndexes × List IndexationError
  | [], db => (db, [])
  | event :: events, db =>
      let (db, error) := updateEventBasedIndexation event db balancesIndexationEnabled
        coinsToSpendIndexationEnabled baseAssetId
      let (db, logged) := processExecutorEvents balancesIndexationEnabled
        coinsToSpendIndexationEnabled baseAssetId events (updateOwnedTables event db)
      (db, error.toList ++ logged)

/-- The worker over blocks one after another, each on the tables the previous left. -/
def processBlocks (balancesIndexationEnabled coinsToSpendIndexationEnabled : Bool)
    (baseAssetId : AssetId) : List (List Event) → OffChainIndexes →
      OffChainIndexes × List IndexationError
  | [], db => (db, [])
  | block :: blocks, db =>
      let (db, logged) := processExecutorEvents balancesIndexationEnabled
        coinsToSpendIndexationEnabled baseAssetId block db
      let (db, logged') := processBlocks balancesIndexationEnabled coinsToSpendIndexationEnabled
        baseAssetId blocks db
      (db, logged ++ logged')

/-! ## What one event writes

With both indexations on, and the checks of the event passing: the balances move by the
amount and the key goes in or out of the coins-to-spend index. -/

section Writes

variable {baseAssetId : AssetId} {db : OffChainIndexes}

theorem updateEventBasedIndexation_coinCreated {coin : Coin}
    (notIndexed : encode (CoinsToSpendIndexKey.fromCoin coin) ∉ db.coinsToSpendIndex) :
    updateEventBasedIndexation (.coinCreated coin) db true true baseAssetId =
      ({ db with
          coinBalances := Function.update db.coinBalances (coin.owner, coin.assetId)
            (Saturating.add 128 (db.coinBalances (coin.owner, coin.assetId)) coin.amount.toNat)
          coinsToSpendIndex := insert (encode (CoinsToSpendIndexKey.fromCoin coin)) db.coinsToSpendIndex },
        none) := by
  simp [updateEventBasedIndexation, Balances.update, increaseCoinBalance, CoinsToSpend.update,
    addCoin, notIndexed]

theorem updateEventBasedIndexation_coinConsumed {coin : Coin}
    (covered : coin.amount.toNat ≤ db.coinBalances (coin.owner, coin.assetId))
    (indexed : encode (CoinsToSpendIndexKey.fromCoin coin) ∈ db.coinsToSpendIndex) :
    updateEventBasedIndexation (.coinConsumed coin) db true true baseAssetId =
      ({ db with
          coinBalances := Function.update db.coinBalances (coin.owner, coin.assetId)
            (db.coinBalances (coin.owner, coin.assetId) - coin.amount.toNat)
          coinsToSpendIndex := db.coinsToSpendIndex.erase (encode (CoinsToSpendIndexKey.fromCoin coin)) },
        none) := by
  simp [updateEventBasedIndexation, Balances.update, decreaseCoinBalance, CoinsToSpend.update,
    removeCoin, covered, indexed]

theorem updateEventBasedIndexation_messageImported {message : Message} {retryable nonRetryable : ℕ}
    (balance : db.messageBalances message.recipient = ⟨retryable, nonRetryable⟩)
    (notIndexed : encode (CoinsToSpendIndexKey.fromMessage message baseAssetId) ∉ db.coinsToSpendIndex) :
    updateEventBasedIndexation (.messageImported message) db true true baseAssetId =
      ({ db with
          messageBalances := Function.update db.messageBalances message.recipient
            (if message.isRetryableMessage then
              ⟨Saturating.add 128 retryable message.amount.toNat, nonRetryable⟩
            else ⟨retryable, Saturating.add 128 nonRetryable message.amount.toNat⟩)
          coinsToSpendIndex :=
            insert (encode (CoinsToSpendIndexKey.fromMessage message baseAssetId)) db.coinsToSpendIndex },
        none) := by
  simp [updateEventBasedIndexation, Balances.update, increaseMessageBalance, balance,
    CoinsToSpend.update, addMessage, notIndexed]

theorem updateEventBasedIndexation_messageConsumed {message : Message} {retryable nonRetryable : ℕ}
    (balance : db.messageBalances message.recipient = ⟨retryable, nonRetryable⟩)
    (covered : message.amount.toNat ≤ if message.isRetryableMessage then retryable else nonRetryable)
    (indexed : encode (CoinsToSpendIndexKey.fromMessage message baseAssetId) ∈ db.coinsToSpendIndex) :
    updateEventBasedIndexation (.messageConsumed message) db true true baseAssetId =
      ({ db with
          messageBalances := Function.update db.messageBalances message.recipient
            (if message.isRetryableMessage then ⟨retryable - message.amount.toNat, nonRetryable⟩
            else ⟨retryable, nonRetryable - message.amount.toNat⟩)
          coinsToSpendIndex :=
            db.coinsToSpendIndex.erase (encode (CoinsToSpendIndexKey.fromMessage message baseAssetId)) },
        none) := by
  simp [updateEventBasedIndexation, Balances.update, decreaseMessageBalance, balance, covered,
    CoinsToSpend.update, removeMessage, indexed]
  split <;> rfl

end Writes

/-! ## The keys of coins and messages -/

theorem fromCoin_injective : Function.Injective CoinsToSpendIndexKey.fromCoin := by
  intro coin coin' equal
  cases coin
  cases coin'
  simp only [CoinsToSpendIndexKey.fromCoin, CoinsToSpendIndexKey.coin.injEq] at equal
  obtain ⟨rfl, rfl, rfl, rfl⟩ := equal
  rfl

theorem fromMessage_ne_fromCoin (message : Message) (baseAssetId : AssetId) (coin : Coin) :
    CoinsToSpendIndexKey.fromMessage message baseAssetId ≠ CoinsToSpendIndexKey.fromCoin coin :=
  nofun

theorem nonce_eq_of_fromMessage_eq {message message' : Message} {baseAssetId : AssetId}
    (equal : CoinsToSpendIndexKey.fromMessage message baseAssetId =
      CoinsToSpendIndexKey.fromMessage message' baseAssetId) :
    message.nonce = message'.nonce := by
  simp only [CoinsToSpendIndexKey.fromMessage, CoinsToSpendIndexKey.message.injEq] at equal
  exact equal.2.2.2.2

/-! ## The live coins and messages

What the indexes are for: the coins created and the messages imported that no event has
consumed yet, and for each of them what the tables should say. -/

structure Live where
  coins : Finset Coin
  messages : Finset Message

namespace Live

def empty : Live := ⟨∅, ∅⟩

/-- What an event does to the unspent coins and messages. -/
def apply (live : Live) : Event → Live
  | .messageImported message => { live with messages := insert message live.messages }
  | .messageConsumed message => { live with messages := live.messages.erase message }
  | .coinCreated coin => { live with coins := insert coin live.coins }
  | .coinConsumed coin => { live with coins := live.coins.erase coin }
  | .forcedTransactionFailed .. => live

def run (live : Live) (events : List Event) : Live :=
  events.foldl apply live

/-- The amount of the live coins of each owner and asset. -/
def coinBalance (live : Live) : Address × AssetId → ℕ :=
  live.coins.fiberSum (fun coin => (coin.owner, coin.assetId)) fun coin => coin.amount.toNat

/-- The amount of the live messages of each recipient, retryable or not. -/
def messageSum (live : Live) : Address × Bool → ℕ :=
  live.messages.fiberSum (fun message => (message.recipient, message.isRetryableMessage))
    fun message => message.amount.toNat

def messageBalance (live : Live) (recipient : Address) : MessageBalance :=
  ⟨live.messageSum (recipient, true), live.messageSum (recipient, false)⟩

def coinsToSpendKeys (live : Live) (baseAssetId : AssetId) : Finset CoinsToSpendIndexKey :=
  live.coins.image CoinsToSpendIndexKey.fromCoin ∪
    live.messages.image fun message => CoinsToSpendIndexKey.fromMessage message baseAssetId

def ownedCoins (live : Live) : Finset (Address × UtxoId) :=
  live.coins.image fun coin => (coin.owner, coin.utxoId)

def ownedMessageIds (live : Live) : Finset (Address × Nonce) :=
  live.messages.image fun message => (message.recipient, message.nonce)

/-- Live coins differ in their ids, live messages in their nonces. -/
structure Distinct (live : Live) : Prop where
  utxoIds : Set.InjOn Coin.utxoId live.coins
  nonces : Set.InjOn Message.nonce live.messages

/-- The events a well-formed sequence may hold next: the consumption of a live coin or
message, or the creation of one whose id no live one has. -/
def Admits (live : Live) : Event → Prop
  | .messageImported message => ∀ other ∈ live.messages, other.nonce ≠ message.nonce
  | .messageConsumed message => message ∈ live.messages
  | .coinCreated coin => ∀ other ∈ live.coins, other.utxoId ≠ coin.utxoId
  | .coinConsumed coin => coin ∈ live.coins
  | .forcedTransactionFailed .. => True

/-- The balances of the live coins and messages fit in a `u128`. -/
def Fits (live : Live) : Prop :=
  (∀ coin ∈ live.coins, live.coinBalance (coin.owner, coin.assetId) ≤ Saturating.unsignedMax 128) ∧
    ∀ message ∈ live.messages,
      live.messageSum (message.recipient, message.isRetryableMessage) ≤ Saturating.unsignedMax 128

/-- Every event admitted by the coins and messages before it, with balances that fit
after it. -/
def WellFormedRun : Live → List Event → Prop
  | _, [] => True
  | live, event :: events =>
      live.Admits event ∧ (live.apply event).Fits ∧ (live.apply event).WellFormedRun events

theorem run_append (live : Live) (events events' : List Event) :
    live.run (events ++ events') = (live.run events).run events' :=
  List.foldl_append

theorem WellFormedRun.append {live : Live} {events events' : List Event}
    (wellFormed : live.WellFormedRun (events ++ events')) :
    live.WellFormedRun events ∧ (live.run events).WellFormedRun events' := by
  induction events generalizing live with
  | nil => exact ⟨trivial, wellFormed⟩
  | cons event events induction =>
      obtain ⟨admits, fits, rest⟩ := wellFormed
      obtain ⟨first, second⟩ := induction rest
      exact ⟨⟨admits, fits, first⟩, second⟩

theorem messageBalance_of_messageSum {live live' : Live} {recipient : Address}
    {retryable : Bool} {amount : ℕ}
    (sums : live'.messageSum = Function.update live.messageSum (recipient, retryable) amount) :
    live'.messageBalance = Function.update live.messageBalance recipient
      (if retryable then ⟨amount, live.messageSum (recipient, false)⟩
        else ⟨live.messageSum (recipient, true), amount⟩) := by
  funext other
  by_cases same : other = recipient
  · subst other
    cases retryable <;> simp [messageBalance, sums]
  · simp [messageBalance, sums, same]

end Live

/-! ## The tables represent the live coins and messages -/

/-- The off-chain tables hold the indexes of the live coins and messages: (a) the coin
balances, (b) the message balances, (c) the keys of the coins-to-spend index as the codec
writes them, and (d) the owned coins and message ids. -/
structure Represents (baseAssetId : AssetId) (db : OffChainIndexes) (live : Live) : Prop where
  distinct : live.Distinct
  coinBalances : db.coinBalances = live.coinBalance
  messageBalances : db.messageBalances = live.messageBalance
  coinsToSpendIndex : db.coinsToSpendIndex = (live.coinsToSpendKeys baseAssetId).image encode
  ownedCoins : db.ownedCoins = live.ownedCoins
  ownedMessageIds : db.ownedMessageIds = live.ownedMessageIds

theorem represents_empty (baseAssetId : AssetId) :
    Represents baseAssetId OffChainIndexes.empty Live.empty where
  distinct := ⟨by simp [Live.empty], by simp [Live.empty]⟩
  coinBalances := rfl
  messageBalances := rfl
  coinsToSpendIndex := by simp [OffChainIndexes.empty, Live.empty, Live.coinsToSpendKeys]
  ownedCoins := by simp [OffChainIndexes.empty, Live.empty, Live.ownedCoins]
  ownedMessageIds := by simp [OffChainIndexes.empty, Live.empty, Live.ownedMessageIds]

section Step

variable {baseAssetId : AssetId} {db : OffChainIndexes} {live : Live}

theorem Represents.coinCreated {coin : Coin} (represents : Represents baseAssetId db live)
    (fresh : live.Admits (.coinCreated coin)) (fits : (live.apply (.coinCreated coin)).Fits) :
    ∃ db', updateEventBasedIndexation (.coinCreated coin) db true true baseAssetId = (db', none) ∧
      Represents baseAssetId (updateOwnedTables (.coinCreated coin) db')
        (live.apply (.coinCreated coin)) := by
  have notLive : coin ∉ live.coins := fun member => fresh coin member rfl
  have balance : (live.apply (.coinCreated coin)).coinBalance =
      Function.update live.coinBalance (coin.owner, coin.assetId)
        (live.coinBalance (coin.owner, coin.assetId) + coin.amount.toNat) :=
    Finset.fiberSum_insert _ _ notLive
  have noSaturation : Saturating.add 128 (live.coinBalance (coin.owner, coin.assetId))
      coin.amount.toNat = live.coinBalance (coin.owner, coin.assetId) + coin.amount.toNat := by
    apply Saturating.add_of_le
    simpa [balance] using fits.1 coin (Finset.mem_insert_self coin live.coins)
  have notIndexed : encode (CoinsToSpendIndexKey.fromCoin coin) ∉ db.coinsToSpendIndex := by
    simp [represents.coinsToSpendIndex, encode_injective.mem_finset_image, Live.coinsToSpendKeys,
      fromCoin_injective.mem_finset_image, notLive, fromMessage_ne_fromCoin]
  refine ⟨_, updateEventBasedIndexation_coinCreated notIndexed, ?_⟩
  exact {
    distinct := by
      refine ⟨?_, represents.distinct.nonces⟩
      rw [Live.apply, Finset.coe_insert, Set.injOn_insert (by simpa using notLive)]
      exact ⟨represents.distinct.utxoIds, fun ⟨other, member, same⟩ => fresh other member same⟩
    coinBalances := by simp [updateOwnedTables, represents.coinBalances, balance, noSaturation]
    messageBalances := represents.messageBalances
    coinsToSpendIndex := by
      simp [updateOwnedTables, represents.coinsToSpendIndex, Live.apply, Live.coinsToSpendKeys,
        Finset.image_insert, Finset.insert_union]
    ownedCoins := by simp [updateOwnedTables, represents.ownedCoins, Live.apply, Live.ownedCoins,
      Finset.image_insert]
    ownedMessageIds := represents.ownedMessageIds }

theorem Represents.coinConsumed {coin : Coin} (represents : Represents baseAssetId db live)
    (member : live.Admits (.coinConsumed coin)) :
    ∃ db', updateEventBasedIndexation (.coinConsumed coin) db true true baseAssetId = (db', none) ∧
      Represents baseAssetId (updateOwnedTables (.coinConsumed coin) db')
        (live.apply (.coinConsumed coin)) := by
  replace member : coin ∈ live.coins := member
  have balance : (live.apply (.coinConsumed coin)).coinBalance =
      Function.update live.coinBalance (coin.owner, coin.assetId)
        (live.coinBalance (coin.owner, coin.assetId) - coin.amount.toNat) :=
    Finset.fiberSum_erase _ _ member
  have covered : coin.amount.toNat ≤ db.coinBalances (coin.owner, coin.assetId) := by
    rw [represents.coinBalances]
    exact Finset.weight_le_fiberSum (fun coin : Coin => (coin.owner, coin.assetId))
      (fun coin => coin.amount.toNat) member
  have indexed : encode (CoinsToSpendIndexKey.fromCoin coin) ∈ db.coinsToSpendIndex := by
    simp [represents.coinsToSpendIndex, encode_injective.mem_finset_image, Live.coinsToSpendKeys,
      fromCoin_injective.mem_finset_image, member]
  have notMessageKey : CoinsToSpendIndexKey.fromCoin coin ∉
      live.messages.image fun message => CoinsToSpendIndexKey.fromMessage message baseAssetId := by
    simp [fromMessage_ne_fromCoin]
  have ownedInjective : Set.InjOn (fun coin : Coin => (coin.owner, coin.utxoId)) live.coins :=
    fun _ first _ second same => represents.distinct.utxoIds first second (congrArg Prod.snd same)
  refine ⟨_, updateEventBasedIndexation_coinConsumed covered indexed, ?_⟩
  exact {
    distinct :=
      ⟨represents.distinct.utxoIds.mono (Finset.coe_subset.mpr (Finset.erase_subset coin live.coins)),
        represents.distinct.nonces⟩
    coinBalances := by simp [updateOwnedTables, represents.coinBalances, balance]
    messageBalances := represents.messageBalances
    coinsToSpendIndex := by
      simp only [updateOwnedTables, represents.coinsToSpendIndex, Live.apply, Live.coinsToSpendKeys,
        ← Finset.image_erase encode_injective, Finset.erase_union_distrib,
        Finset.erase_eq_of_notMem notMessageKey, Finset.image_erase fromCoin_injective]
    ownedCoins := by
      simp only [updateOwnedTables, represents.ownedCoins, Live.apply, Live.ownedCoins,
        Finset.image_erase_of_injOn ownedInjective coin member]
    ownedMessageIds := represents.ownedMessageIds }

theorem Represents.messageImported {message : Message} (represents : Represents baseAssetId db live)
    (fresh : live.Admits (.messageImported message))
    (fits : (live.apply (.messageImported message)).Fits) :
    ∃ db', updateEventBasedIndexation (.messageImported message) db true true baseAssetId =
        (db', none) ∧
      Represents baseAssetId (updateOwnedTables (.messageImported message) db')
        (live.apply (.messageImported message)) := by
  have notLive : message ∉ live.messages := fun member => fresh message member rfl
  have sums : (live.apply (.messageImported message)).messageSum =
      Function.update live.messageSum (message.recipient, message.isRetryableMessage)
        (live.messageSum (message.recipient, message.isRetryableMessage) + message.amount.toNat) :=
    Finset.fiberSum_insert _ _ notLive
  have noSaturation : Saturating.add 128 (live.messageSum (message.recipient, message.isRetryableMessage))
      message.amount.toNat =
        live.messageSum (message.recipient, message.isRetryableMessage) + message.amount.toNat := by
    apply Saturating.add_of_le
    simpa [sums] using fits.2 message (Finset.mem_insert_self message live.messages)
  have balance : db.messageBalances message.recipient =
      ⟨live.messageSum (message.recipient, true), live.messageSum (message.recipient, false)⟩ := by
    rw [represents.messageBalances]
    rfl
  have notIndexed : encode (CoinsToSpendIndexKey.fromMessage message baseAssetId) ∉
      db.coinsToSpendIndex := by
    rw [represents.coinsToSpendIndex, encode_injective.mem_finset_image, Live.coinsToSpendKeys,
      Finset.mem_union, Finset.mem_image, Finset.mem_image, not_or]
    constructor
    · rintro ⟨coin, -, same⟩
      exact fromMessage_ne_fromCoin message baseAssetId coin same.symm
    · rintro ⟨other, member, same⟩
      exact fresh other member (nonce_eq_of_fromMessage_eq same)
  refine ⟨_, updateEventBasedIndexation_messageImported balance notIndexed, ?_⟩
  exact {
    distinct := by
      refine ⟨represents.distinct.utxoIds, ?_⟩
      rw [Live.apply, Finset.coe_insert, Set.injOn_insert (by simpa using notLive)]
      exact ⟨represents.distinct.nonces, fun ⟨other, member, same⟩ => fresh other member same⟩
    coinBalances := represents.coinBalances
    messageBalances := by
      simp only [updateOwnedTables, Live.messageBalance_of_messageSum sums, represents.messageBalances]
      cases retryable : message.isRetryableMessage <;> rw [retryable] at noSaturation <;>
        simp [noSaturation]
    coinsToSpendIndex := by
      simp [updateOwnedTables, represents.coinsToSpendIndex, Live.apply, Live.coinsToSpendKeys,
        Finset.image_insert, Finset.union_insert]
    ownedCoins := represents.ownedCoins
    ownedMessageIds := by
      simp [updateOwnedTables, represents.ownedMessageIds, Live.apply, Live.ownedMessageIds,
        Finset.image_insert] }

theorem Represents.messageConsumed {message : Message} (represents : Represents baseAssetId db live)
    (member : live.Admits (.messageConsumed message)) :
    ∃ db', updateEventBasedIndexation (.messageConsumed message) db true true baseAssetId =
        (db', none) ∧
      Represents baseAssetId (updateOwnedTables (.messageConsumed message) db')
        (live.apply (.messageConsumed message)) := by
  replace member : message ∈ live.messages := member
  have sums : (live.apply (.messageConsumed message)).messageSum =
      Function.update live.messageSum (message.recipient, message.isRetryableMessage)
        (live.messageSum (message.recipient, message.isRetryableMessage) - message.amount.toNat) :=
    Finset.fiberSum_erase _ _ member
  have balance : db.messageBalances message.recipient =
      ⟨live.messageSum (message.recipient, true), live.messageSum (message.recipient, false)⟩ := by
    rw [represents.messageBalances]
    rfl
  have covered : message.amount.toNat ≤ if message.isRetryableMessage then
      live.messageSum (message.recipient, true) else live.messageSum (message.recipient, false) := by
    have within := Finset.weight_le_fiberSum
      (fun message : Message => (message.recipient, message.isRetryableMessage))
      (fun message => message.amount.toNat) member
    cases retryable : message.isRetryableMessage <;> simpa [Live.messageSum, retryable] using within
  -- Live messages with the same key have the same nonce, so they are the same message.
  have keyInjective : Set.InjOn (fun message => CoinsToSpendIndexKey.fromMessage message baseAssetId)
      live.messages :=
    fun _ first _ second same => represents.distinct.nonces first second (nonce_eq_of_fromMessage_eq same)
  have ownedInjective : Set.InjOn (fun message : Message => (message.recipient, message.nonce))
      live.messages :=
    fun _ first _ second same => represents.distinct.nonces first second (congrArg Prod.snd same)
  have indexed : encode (CoinsToSpendIndexKey.fromMessage message baseAssetId) ∈
      db.coinsToSpendIndex := by
    rw [represents.coinsToSpendIndex, encode_injective.mem_finset_image, Live.coinsToSpendKeys]
    exact Finset.mem_union_right _ (Finset.mem_image_of_mem _ member)
  have notCoinKey : CoinsToSpendIndexKey.fromMessage message baseAssetId ∉
      live.coins.image CoinsToSpendIndexKey.fromCoin := by
    simp [(fromMessage_ne_fromCoin message baseAssetId _).symm]
  refine ⟨_, updateEventBasedIndexation_messageConsumed balance covered indexed, ?_⟩
  exact {
    distinct :=
      ⟨represents.distinct.utxoIds,
        represents.distinct.nonces.mono (Finset.coe_subset.mpr (Finset.erase_subset message live.messages))⟩
    coinBalances := represents.coinBalances
    messageBalances := by
      simp only [updateOwnedTables, Live.messageBalance_of_messageSum sums, represents.messageBalances]
      cases message.isRetryableMessage <;> rfl
    coinsToSpendIndex := by
      simp only [updateOwnedTables, represents.coinsToSpendIndex, Live.apply, Live.coinsToSpendKeys,
        ← Finset.image_erase encode_injective, Finset.erase_union_distrib,
        Finset.erase_eq_of_notMem notCoinKey, Finset.image_erase_of_injOn keyInjective message member]
    ownedCoins := represents.ownedCoins
    ownedMessageIds := by
      simp only [updateOwnedTables, represents.ownedMessageIds, Live.apply, Live.ownedMessageIds,
        Finset.image_erase_of_injOn ownedInjective message member] }

theorem Represents.step {event : Event} (represents : Represents baseAssetId db live)
    (admits : live.Admits event) (fits : (live.apply event).Fits) :
    ∃ db', updateEventBasedIndexation event db true true baseAssetId = (db', none) ∧
      Represents baseAssetId (updateOwnedTables event db') (live.apply event) := by
  cases event with
  | messageImported message => exact represents.messageImported admits fits
  | messageConsumed message => exact represents.messageConsumed admits
  | coinCreated coin => exact represents.coinCreated admits fits
  | coinConsumed coin => exact represents.coinConsumed admits
  | forcedTransactionFailed id blockHeight failure =>
      -- Only the relayed transaction statuses change, and the representation does not read them.
      exact ⟨db, rfl, represents.distinct, represents.coinBalances, represents.messageBalances,
        represents.coinsToSpendIndex, represents.ownedCoins, represents.ownedMessageIds⟩

end Step

/-! ## Whole runs -/

theorem represents_processExecutorEvents {baseAssetId : AssetId} {db : OffChainIndexes}
    {live : Live} {events : List Event} (represents : Represents baseAssetId db live)
    (wellFormed : live.WellFormedRun events) :
    (processExecutorEvents true true baseAssetId events db).2 = [] ∧
      Represents baseAssetId (processExecutorEvents true true baseAssetId events db).1
        (live.run events) := by
  induction events generalizing db live with
  | nil => exact ⟨rfl, represents⟩
  | cons event events induction =>
      obtain ⟨admits, fits, rest⟩ := wellFormed
      obtain ⟨db', indexed, represents'⟩ := represents.step admits fits
      obtain ⟨noErrors, represented⟩ := induction represents' rest
      simp only [processExecutorEvents, indexed]
      exact ⟨noErrors, represented⟩

theorem represents_processBlocks {baseAssetId : AssetId} {db : OffChainIndexes} {live : Live}
    {blocks : List (List Event)} (represents : Represents baseAssetId db live)
    (wellFormed : live.WellFormedRun blocks.flatten) :
    (processBlocks true true baseAssetId blocks db).2 = [] ∧
      Represents baseAssetId (processBlocks true true baseAssetId blocks db).1
        (live.run blocks.flatten) := by
  induction blocks generalizing db live with
  | nil => exact ⟨rfl, represents⟩
  | cons block blocks induction =>
      obtain ⟨first, rest⟩ := Live.WellFormedRun.append wellFormed
      obtain ⟨blockNoErrors, blockRepresented⟩ := represents_processExecutorEvents represents first
      obtain ⟨noErrors, represented⟩ := induction blockRepresented rest
      rw [List.flatten_cons, Live.run_append]
      simp only [processBlocks]
      exact ⟨by simp [blockNoErrors, noErrors], represented⟩

theorem process_executor_events_index_the_live_coins_and_messages (baseAssetId : AssetId)
    (blocks : List (List Event)) (wellFormed : Live.empty.WellFormedRun blocks.flatten) :
    (processBlocks true true baseAssetId blocks OffChainIndexes.empty).2 = [] ∧
      Represents baseAssetId (processBlocks true true baseAssetId blocks OffChainIndexes.empty).1
        (Live.empty.run blocks.flatten) :=
  represents_processBlocks (represents_empty baseAssetId) wellFormed

/-- A coin of 5 and a retryable message of 7, both of the zero owner. -/
def fiveCoin : Coin := ⟨⟨Bytes.zeroed 32, 0⟩, Bytes.zeroed 32, 5, Bytes.zeroed 32⟩
def sevenMessage : Message := ⟨Bytes.zeroed 32, Bytes.zeroed 32, 7, [1]⟩

/-- The coin is created and the message imported in one block; the next spends the coin. -/
def spentCoinBlocks : List (List Event) :=
  [[.coinCreated fiveCoin, .messageImported sevenMessage], [.coinConsumed fiveCoin]]

theorem spent_coin_blocks_index_the_message :
    Live.empty.WellFormedRun spentCoinBlocks.flatten ∧
      (processBlocks true true (Bytes.zeroed 32) spentCoinBlocks OffChainIndexes.empty).2 = [] ∧
      Represents (Bytes.zeroed 32)
        (processBlocks true true (Bytes.zeroed 32) spentCoinBlocks OffChainIndexes.empty).1
        (Live.empty.run spentCoinBlocks.flatten) := by
  have wellFormed : Live.empty.WellFormedRun spentCoinBlocks.flatten := by
    simp [spentCoinBlocks, Live.WellFormedRun, Live.Admits, Live.Fits, Live.apply, Live.empty,
      Live.coinBalance, Live.messageSum, Finset.fiberSum, Finset.sum_filter, fiveCoin, sevenMessage,
      Saturating.unsignedMax]
  exact ⟨wellFormed, process_executor_events_index_the_live_coins_and_messages _ _ wellFormed⟩

end FuelCore.GraphqlApi
