import FuelCore.Executor.Block
import FuelCore.Lib.AList
import FuelCore.Storage.KvStore

/-! # Downloading and writing the relayer's logs

`download_logs` pages through the gap between the relayer's DA height and the Ethereum
node's, one `get_logs` call a page, and `write_logs` stores each page's bridge events by DA
height, one `insert_events` call for every height of the page. The page size comes from a
`PageSizer` the outcome of each call is reported to.

The download is a stream of a page's logs or the error that ends it, modelled as the list of
its items; `fuel` bounds the number of pages, and with enough of it the stream ends because the
pagination does. The database is the `RelayerDb` port, a state its `insert_events` changes,
and an error of a call leaves the state as the call left it.
-/

namespace FuelCore.Relayer

open FuelCore.Executor (Address DaBlockHeight Message Nonce Word okOr daHeights)
open FuelCore.Storage (StorageError)

/-! ## Pagination -/

/-- `EthSyncGap(oldest, latest)`: the heights the relayer has still to download. -/
structure EthSyncGap where
  oldest : UInt64
  latest : UInt64
  deriving DecidableEq, Repr

/-- `EthSyncPage`: the window `current`, from `oldest` to `latest`, the `size` of the page
and the `end` of the pagination. -/
structure EthSyncPage where
  oldest : UInt64
  latest : UInt64
  size : UInt64
  gapEnd : UInt64
  deriving DecidableEq, Repr

namespace EthSyncPage

/-- `is_empty`: the window is empty or the page size is zero. -/
def isEmpty (page : EthSyncPage) : Bool :=
  !decide (page.oldest ≤ page.latest) || page.size == 0

/-- `advance_and_resize`: the next window starts `size` blocks after the current one and
ends `new_page_size` blocks after its end, within the end of the pagination. -/
def advanceAndResize (page : EthSyncPage) (newPageSize : UInt64) : Option EthSyncPage :=
  let page := { page with
    oldest := page.oldest.saturatingAdd page.size
    latest := min (page.latest.saturatingAdd newPageSize) page.gapEnd
    size := newPageSize }
  if page.isEmpty then none else some page

end EthSyncPage

/-- `EthSyncGap::page`: the first window, `page_size` blocks from the oldest height. -/
def EthSyncGap.page (gap : EthSyncGap) (pageSize : UInt64) : Option EthSyncPage :=
  let page : EthSyncPage := {
    oldest := gap.oldest
    latest := min (gap.oldest.saturatingAdd (pageSize.saturatingSub 1)) gap.latest
    size := pageSize
    gapEnd := gap.latest }
  if page.isEmpty then none else some page

namespace EthSyncPage

theorem isEmpty_iff (page : EthSyncPage) :
    page.isEmpty = true ↔ page.latest.toNat < page.oldest.toNat ∨ page.size.toNat = 0 := by
  simp [isEmpty, UInt64.le_iff_toNat_le, ← UInt64.toNat_inj]

structure Tracks (page : EthSyncPage) : Prop where
  ordered : page.oldest.toNat ≤ page.latest.toNat
  window : page.latest.toNat = min (page.oldest.toNat + page.size.toNat - 1) page.gapEnd.toNat
  positive : 1 ≤ page.size.toNat
  belowMax : page.gapEnd.toNat < UInt64.size - 1

theorem Tracks.advanceAndResize_of_last {page : EthSyncPage} (tracks : page.Tracks)
    (last : page.latest.toNat = page.gapEnd.toNat) (newPageSize : UInt64) :
    page.advanceAndResize newPageSize = none := by
  have beyond : page.gapEnd.toNat < page.oldest.toNat + page.size.toNat := by
    have := tracks.window
    have := tracks.positive
    omega
  rw [advanceAndResize, if_pos]
  rw [isEmpty_iff]
  left
  simp only [UInt64.toNat_min, UInt64.toNat_saturatingAdd]
  have := tracks.belowMax
  omega

theorem Tracks.advanceAndResize_of_lt {page : EthSyncPage} (tracks : page.Tracks)
    (short : page.latest.toNat < page.gapEnd.toNat) {newPageSize : UInt64}
    (positive : 1 ≤ newPageSize.toNat) :
    ∃ next, page.advanceAndResize newPageSize = some next ∧ next.Tracks ∧
      next.oldest.toNat = page.latest.toNat + 1 ∧ next.size = newPageSize ∧
      next.gapEnd = page.gapEnd := by
  have unclamped : page.latest.toNat = page.oldest.toNat + page.size.toNat - 1 := by
    have := tracks.window
    omega
  have room := tracks.belowMax
  have positiveSize := tracks.positive
  have nextTracks : Tracks { page with
      oldest := page.oldest.saturatingAdd page.size
      latest := min (page.latest.saturatingAdd newPageSize) page.gapEnd
      size := newPageSize } := by
    constructor <;> simp only [UInt64.toNat_min, UInt64.toNat_saturatingAdd] <;> omega
  refine ⟨_, ?_, nextTracks, ?_, rfl, rfl⟩
  · rw [advanceAndResize, if_neg]
    rw [isEmpty_iff]
    have := nextTracks.ordered
    dsimp only at this ⊢
    omega
  · simp only [UInt64.toNat_saturatingAdd]
    omega


end EthSyncPage

theorem EthSyncGap.page_tracks (gap : EthSyncGap) (ordered : gap.oldest.toNat ≤ gap.latest.toNat)
    (belowMax : gap.latest.toNat < UInt64.size - 1) {pageSize : UInt64}
    (positive : 1 ≤ pageSize.toNat) :
    ∃ page, gap.page pageSize = some page ∧ page.Tracks ∧ page.oldest = gap.oldest ∧
      page.size = pageSize ∧ page.gapEnd = gap.latest := by
  have firstTracks : EthSyncPage.Tracks {
      oldest := gap.oldest
      latest := min (gap.oldest.saturatingAdd (pageSize.saturatingSub 1)) gap.latest
      size := pageSize
      gapEnd := gap.latest } := by
    constructor <;>
      simp only [UInt64.toNat_min, UInt64.toNat_saturatingAdd, UInt64.toNat_saturatingSub,
        UInt64.toNat_one] <;> omega
  refine ⟨_, ?_, firstTracks, rfl, rfl, rfl⟩
  rw [EthSyncGap.page, if_neg]
  rw [EthSyncPage.isEmpty_iff]
  have := firstTracks.ordered
  dsimp only at this ⊢
  omega

/-! ## Page sizers -/

inductive RpcOutcome
  | success (logsDownloaded : UInt64)
  | error
  deriving DecidableEq, Repr

/-- `PageSizer`: the page size in force, and how the outcome of a call changes it. -/
structure PageSizer (σ : Type) where
  update : σ → RpcOutcome → σ
  pageSize : σ → UInt64

structure AdaptivePageSizer where
  current : UInt64
  max : UInt64
  successfulRpcCalls : UInt64
  growThreshold : UInt64
  maxLogsPerRpc : UInt64
  deriving DecidableEq, Repr

namespace AdaptivePageSizer

def new (current max growThreshold maxLogsPerRpc : UInt64) : AdaptivePageSizer :=
  { current, max, growThreshold, maxLogsPerRpc, successfulRpcCalls := 0 }

def pageGrowFactorNum : UInt64 := 125

def pageGrowFactorDen : UInt64 := 100

def pageShrinkFactor : UInt64 := 2

/-- The arm of `update` for an error and for a page with too many logs: half the page, at
least one block, and the count of successful calls restarted. -/
def shrink (sizer : AdaptivePageSizer) : AdaptivePageSizer :=
  { sizer with
    successfulRpcCalls := 0
    current := Max.max (sizer.current / pageShrinkFactor) 1 }

/-- The growth of `update` once `grow_threshold` calls in a row were small enough: by a
quarter, or by one block where a quarter rounds to nothing, within `max`. -/
def grow (sizer : AdaptivePageSizer) : AdaptivePageSizer :=
  let grown := sizer.current.saturatingMul pageGrowFactorNum / pageGrowFactorDen
  { sizer with
    current := if grown > sizer.current then min grown sizer.max
      else min (sizer.current.saturatingAdd 1) sizer.max
    successfulRpcCalls := 0 }

def update (sizer : AdaptivePageSizer) : RpcOutcome → AdaptivePageSizer
  | .error => sizer.shrink
  | .success logsDownloaded =>
      if logsDownloaded > sizer.maxLogsPerRpc then sizer.shrink
      else
        let sizer := { sizer with successfulRpcCalls := sizer.successfulRpcCalls.saturatingAdd 1 }
        if sizer.successfulRpcCalls ≥ sizer.growThreshold ∧ sizer.current < sizer.max then
          sizer.grow
        else sizer

def pageSize (sizer : AdaptivePageSizer) : UInt64 :=
  sizer.current

/-- `impl PageSizer for AdaptivePageSizer`. -/
def pageSizer : PageSizer AdaptivePageSizer :=
  ⟨update, pageSize⟩


/-- The page size is at least one block and at most `max`. -/
structure Bounded (sizer : AdaptivePageSizer) : Prop where
  positive : 1 ≤ sizer.current.toNat
  atMost : sizer.current.toNat ≤ sizer.max.toNat

theorem Bounded.shrink {sizer : AdaptivePageSizer} (bounded : sizer.Bounded) :
    sizer.shrink.Bounded := by
  have := bounded.positive
  have := bounded.atMost
  have halving : pageShrinkFactor.toNat = 2 := rfl
  constructor <;>
    simp only [AdaptivePageSizer.shrink, UInt64.toNat_max, UInt64.toNat_div, UInt64.toNat_one,
      halving] <;>
    omega

theorem Bounded.grow {sizer : AdaptivePageSizer} (bounded : sizer.Bounded) :
    sizer.grow.Bounded := by
  have := bounded.positive
  have := bounded.atMost
  simp only [AdaptivePageSizer.grow]
  split_ifs with grows
  · rw [gt_iff_lt, UInt64.lt_iff_toNat_lt] at grows
    constructor <;> simp only [UInt64.toNat_min] <;> omega
  · have sizeEq : UInt64.size = 2 ^ 64 := rfl
    constructor <;> simp only [UInt64.toNat_min, UInt64.toNat_saturatingAdd, UInt64.toNat_one] <;>
      omega

theorem Bounded.update {sizer : AdaptivePageSizer} (bounded : sizer.Bounded)
    (outcome : RpcOutcome) : (sizer.update outcome).Bounded := by
  cases outcome with
  | error => exact bounded.shrink
  | success logsDownloaded =>
      simp only [AdaptivePageSizer.update]
      split_ifs
      · exact bounded.shrink
      · exact Bounded.grow ⟨bounded.positive, bounded.atMost⟩
      · exact ⟨bounded.positive, bounded.atMost⟩

@[simp] theorem max_update (sizer : AdaptivePageSizer) (outcome : RpcOutcome) :
    (sizer.update outcome).max = sizer.max := by
  cases outcome with
  | error => rfl
  | success logsDownloaded =>
      simp only [AdaptivePageSizer.update]
      split_ifs <;> rfl

theorem pageSize_foldl_update {logPageSize : UInt64} (growThreshold maxLogsPerRpc : UInt64)
    (positive : 1 ≤ logPageSize.toNat) (outcomes : List RpcOutcome) :
    1 ≤ (outcomes.foldl update
        (new logPageSize logPageSize growThreshold maxLogsPerRpc)).pageSize.toNat ∧
      (outcomes.foldl update
        (new logPageSize logPageSize growThreshold maxLogsPerRpc)).pageSize.toNat ≤
        logPageSize.toNat := by
  suffices run : ∀ sizer : AdaptivePageSizer, sizer.Bounded →
      (outcomes.foldl update sizer).Bounded ∧ (outcomes.foldl update sizer).max = sizer.max by
    obtain ⟨bounded, sameMax⟩ :=
      run (new logPageSize logPageSize growThreshold maxLogsPerRpc) ⟨positive, le_refl _⟩
    have atMost := bounded.atMost
    rw [sameMax] at atMost
    exact ⟨bounded.positive, atMost⟩
  induction outcomes with
  | nil => exact fun sizer bounded => ⟨bounded, rfl⟩
  | cons outcome outcomes induction =>
      intro sizer bounded
      obtain ⟨bounded', sameMax⟩ := induction _ (bounded.update outcome)
      rw [List.foldl_cons]
      exact ⟨bounded', by rw [sameMax, max_update]⟩

end AdaptivePageSizer

/-! ## Logs and the events they carry -/

/-- A log topic, a 32-byte word: the signature hash of one of the bridge's two events, or
any other word. -/
inductive Topic
  | messageSent
  | transaction
  | other (word : FuelCore.Executor.Bytes32)
  deriving DecidableEq, Repr

/-- The bridge's `MessageSent` event as `decode_log` reads it. -/
structure MessageSent where
  sender : Address
  recipient : Address
  nonce : Nonce
  amount : Word
  data : List UInt8
  deriving DecidableEq, Repr

/-- The bridge's `Transaction` event as `decode_log` reads it. -/
structure TransactionEvent where
  nonce : Nonce
  maxGas : Word
  canonicallySerializedTx : List UInt8
  deriving DecidableEq, Repr

/-- An Ethereum `Log`. Its `messageSent` and `transaction` are what `decode_log` makes of
its topics and data as either event, `none` where the decoding fails. -/
structure Log where
  logIndex : Option UInt64
  blockNumber : Option UInt64
  topics : List Topic
  messageSent : Option MessageSent
  transaction : Option TransactionEvent
  deriving DecidableEq, Repr

/-- `TransactionLog`, which `RelayedTransaction::from` copies field by field. -/
structure TransactionLog where
  nonce : Nonce
  maxGas : Word
  serializedTransaction : List UInt8
  daHeight : DaBlockHeight
  deriving DecidableEq, Repr

/-- `EthEventLog`; a `MessageLog` has the fields of the `Message` it converts to. -/
inductive EthEventLog
  | message (message : Message)
  | transaction (transaction : TransactionLog)
  | ignored
  deriving DecidableEq, Repr

/-- The relayer's `Event`. -/
inductive Event
  | message (message : Message)
  | transaction (transaction : TransactionLog)
  deriving DecidableEq, Repr

/-- `Event::da_height`. -/
def Event.daHeight : Event → DaBlockHeight
  | .message bridgeMessage => bridgeMessage.daHeight
  | .transaction relayedTx => relayedTx.daHeight

inductive EventKind
  | message
  | transaction
  deriving DecidableEq, Repr

/-- The errors of reading logs: `Log missing log_index`, `Topic list is empty`, `Log missing
block height`, `Malformed topics for ... expected: {}, found: {}`, and a failed
`decode_log`. -/
inductive LogError
  | missingLogIndex
  | topicListEmpty
  | missingBlockHeight
  | malformedTopics (kind : EventKind) (expected found : ℕ)
  | abiDecode
  deriving DecidableEq, Repr

/-- `MESSAGE_SENT_TOPIC_COUNT`: the signature and three indexed fields. -/
def messageSentTopicCount : ℕ := 3 + 1

/-- `TRANSACTION_TOPIC_COUNT`: the signature and one indexed field. -/
def transactionTopicCount : ℕ := 1 + 1

/-- The shape shared by `parse_message_to_event` and `parse_forced_tx_to_event`: the block
number, then the topic count of the event, then its decoding. -/
def parseEvent {α : Type} (kind : EventKind) (topicCount : ℕ) (decoded : Option α)
    (build : α → DaBlockHeight → EthEventLog) (log : Log) : Except LogError EthEventLog := do
  let blockNumber ← okOr .missingBlockHeight log.blockNumber
  if log.topics.length ≠ topicCount then
    throw (.malformedTopics kind topicCount log.topics.length)
  let event ← okOr .abiDecode decoded
  pure (build event blockNumber)

def parseMessageToEvent (log : Log) : Except LogError EthEventLog :=
  parseEvent .message messageSentTopicCount log.messageSent
    (fun message blockNumber => .message
      { sender := message.sender, recipient := message.recipient, nonce := message.nonce,
        amount := message.amount, data := message.data, daHeight := blockNumber })
    log

def parseForcedTxToEvent (log : Log) : Except LogError EthEventLog :=
  parseEvent .transaction transactionTopicCount log.transaction
    (fun event blockNumber => .transaction
      { nonce := event.nonce, maxGas := event.maxGas,
        serializedTransaction := event.canonicallySerializedTx, daHeight := blockNumber })
    log

/-- `EthEventLog::try_from`: the first topic names the event; a log of any other event is
ignored. -/
def EthEventLog.tryFrom (log : Log) : Except LogError EthEventLog :=
  match log.topics with
  | [] => throw .topicListEmpty
  | .messageSent :: _ => parseMessageToEvent log
  | .transaction :: _ => parseForcedTxToEvent log
  | .other _ :: _ => pure .ignored

/-! ## Downloading -/

structure DownloadedLogs where
  startHeight : UInt64
  lastHeight : UInt64
  logs : List Log
  deriving DecidableEq, Repr

/-- The errors of a `get_logs` call: the transport's, and any other RPC error. -/
inductive RpcError
  | transport
  | response
  deriving DecidableEq, Repr

/-- The log filter of a page: its window (the contracts and event signatures are fixed). -/
structure Filter where
  fromBlock : UInt64
  toBlock : UInt64
  deriving DecidableEq, Repr

/-- The Ethereum node: what its `call`-th `get_logs` returns for a filter. -/
abbrev EthNode := ℕ → Filter → Except RpcError (List Log)

section Download

variable {σ : Type} (sizer : PageSizer σ) (ethNode : EthNode)

/-- The stream of `download_logs` from `page` on, with the page sizer's state at its end.
A transport error is passed on as it is; any other error shrinks the page first. After a
page is downloaded the sizer is told its count of logs and the next page is sized by it. -/
def downloadPages : ℕ → Option EthSyncPage → σ → ℕ →
    List (Except RpcError DownloadedLogs) × σ
  | 0, _, state, _ => ([], state)
  | _ + 1, none, state, _ => ([], state)
  | fuel + 1, some page, state, call =>
      match ethNode call ⟨page.oldest, page.latest⟩ with
      | .error .transport => ([.error .transport], state)
      | .error error => ([.error error], sizer.update state .error)
      | .ok logs =>
          let state := sizer.update state (.success logs.length.toUInt64)
          let rest :=
            downloadPages fuel (page.advanceAndResize (sizer.pageSize state)) state (call + 1)
          (.ok ⟨page.oldest, page.latest, logs⟩ :: rest.1, rest.2)

/-- `download_logs`: the pagination of the gap, from the page size in force. -/
def downloadLogs (fuel : ℕ) (gap : EthSyncGap) (state : σ) :
    List (Except RpcError DownloadedLogs) × σ :=
  downloadPages sizer ethNode fuel (gap.page (sizer.pageSize state)) state 0

/-- The pages of a download tile `[first, last]` as the page sizer sizes them: each starts
where the one before it ended, is not empty and holds at most the page size in force when it
was built, and the last one ends at `last`. -/
def Paginates (first last : ℕ) (state : σ) : List DownloadedLogs → Prop
  | [] => False
  | page :: rest =>
      page.startHeight.toNat = first ∧ first ≤ page.lastHeight.toNat ∧
        page.lastHeight.toNat + 1 - first ≤ (sizer.pageSize state).toNat ∧
        (page.lastHeight.toNat = last ∧ rest = [] ∨
          page.lastHeight.toNat < last ∧ Paginates (page.lastHeight.toNat + 1) last
            (sizer.update state (.success page.logs.length.toUInt64)) rest)

@[simp] theorem downloadPages_none (fuel : ℕ) (state : σ) (call : ℕ) :
    downloadPages sizer ethNode fuel none state call = ([], state) := by
  cases fuel <;> rfl

theorem downloadPages_of_ok {fuel : ℕ} {page : EthSyncPage} {state : σ} {call : ℕ}
    {logs : List Log} (answered : ethNode call ⟨page.oldest, page.latest⟩ = .ok logs) :
    let state' := sizer.update state (.success logs.length.toUInt64)
    (downloadPages sizer ethNode (fuel + 1) (some page) state call).1 =
      .ok ⟨page.oldest, page.latest, logs⟩ ::
        (downloadPages sizer ethNode fuel (page.advanceAndResize (sizer.pageSize state')) state'
          (call + 1)).1 := by
  simp [downloadPages, answered]

variable {sizer ethNode} {Good : σ → Prop} {Fits : Log → Prop}

/-- With a page size of at least one block and a node that answers every call, the download
from a reachable page tiles the rest of the gap, provided the fuel outlasts its heights. -/
theorem downloadPages_paginates
    (keeps : ∀ state logsDownloaded, Good state →
      Good (sizer.update state (.success logsDownloaded)))
    (positive : ∀ state, Good state → 1 ≤ (sizer.pageSize state).toNat)
    (answers : ∀ call filter, ∃ logs, ethNode call filter = .ok logs ∧ ∀ log ∈ logs, Fits log)
    (fuel : ℕ) (page : EthSyncPage) (state : σ) (call : ℕ) (tracks : page.Tracks)
    (good : Good state) (sized : page.size = sizer.pageSize state)
    (enough : page.gapEnd.toNat - page.oldest.toNat < fuel) :
    ∃ pages, (downloadPages sizer ethNode fuel (some page) state call).1 = pages.map .ok ∧
      Paginates sizer page.oldest.toNat page.gapEnd.toNat state pages ∧
      ∀ downloaded ∈ pages, ∀ log ∈ downloaded.logs, Fits log := by
  induction fuel generalizing page state call with
  | zero => omega
  | succ fuel induction =>
      obtain ⟨logs, answered, fits⟩ := answers call ⟨page.oldest, page.latest⟩
      have withinSize :
          page.latest.toNat + 1 - page.oldest.toNat ≤ (sizer.pageSize state).toNat := by
        have := tracks.window
        have := tracks.positive
        rw [← sized]
        omega
      by_cases last : page.latest.toNat = page.gapEnd.toNat
      · refine ⟨[⟨page.oldest, page.latest, logs⟩], ?_, ?_, ?_⟩
        · rw [downloadPages_of_ok sizer ethNode answered, tracks.advanceAndResize_of_last last,
            downloadPages_none]
          rfl
        · exact ⟨rfl, tracks.ordered, withinSize, .inl ⟨last, rfl⟩⟩
        · simpa using fits
      · have short : page.latest.toNat < page.gapEnd.toNat := by
          have := tracks.window
          omega
        have good' := keeps state logs.length.toUInt64 good
        obtain ⟨next, advanced, nextTracks, nextOldest, nextSize, nextEnd⟩ :=
          tracks.advanceAndResize_of_lt short (positive _ good')
        obtain ⟨rest, restPages, restPaginates, restFits⟩ :=
          induction next _ (call + 1) nextTracks good' nextSize
            (by rw [nextEnd, nextOldest]; have := tracks.ordered; omega)
        refine ⟨⟨page.oldest, page.latest, logs⟩ :: rest, ?_, ?_, ?_⟩
        · rw [downloadPages_of_ok sizer ethNode answered, advanced, restPages]
          rfl
        · rw [nextOldest, nextEnd] at restPaginates
          exact ⟨rfl, tracks.ordered, withinSize, .inr ⟨short, restPaginates⟩⟩
        · simp only [List.mem_cons, forall_eq_or_imp]
          exact ⟨fits, restFits⟩

end Download

/-! ## Writing -/

/-- `sort_events_by_log_index`: every log must have its index; a stable sort by it. -/
def sortEventsByLogIndex (events : List Log) : Except LogError (List Log) := do
  let withIndexes ← events.mapM fun event =>
    (okOr LogError.missingLogIndex event.logIndex).map fun logIndex => (logIndex, event)
  pure ((withIndexes.mergeSort fun a b => decide (a.1 ≤ b.1)).map Prod.snd)

/-- The `filter_map` of `write_logs`: the event a log decodes to, its error, or nothing for an
ignored log. -/
def fuelEvent (log : Log) : Option (Except LogError Event) :=
  match EthEventLog.tryFrom log with
  | .ok (.message message) => some (.ok (.message message))
  | .ok (.transaction transaction) => some (.ok (.transaction transaction))
  | .ok .ignored => none
  | .error error => some (.error error)

/-- The `HashMap<DaBlockHeight, Vec<Event>>` of `write_logs`. -/
abbrev UnorderedEvents := AList fun _ : DaBlockHeight => List Event

/-- The loop of `write_logs` over a page's events: each pushed under its height, the first
error returned. -/
def groupEvents (fuelEvents : List (Except LogError Event)) : Except LogError UnorderedEvents :=
  fuelEvents.foldlM (fun unordered event => do
    let event ← event
    pure (unordered.modifyD event.daHeight [] fun events => events ++ [event])) ∅

/-- The `RelayerDb` port. -/
structure RelayerDb (D : Type) where
  insertEvents : D → DaBlockHeight → List Event → D × Except StorageError Unit

/-- The errors `write_logs` returns. -/
inductive RelayerError
  | rpc (error : RpcError)
  | log (error : LogError)
  | storage (error : StorageError)
  deriving DecidableEq, Repr

section Write

variable {D : Type} (db : RelayerDb D)

/-- The `insert_events` calls of a page, in order, up to the first that fails. -/
def insertCalls : D → List (DaBlockHeight × List Event) → D × Except RelayerError Unit
  | database, [] => (database, .ok ())
  | database, (height, events) :: rest =>
      match db.insertEvents database height events with
      | (database, .ok ()) => insertCalls database rest
      | (database, .error error) => (database, .error (.storage error))

/-- One page of `write_logs`: its logs sorted by index, decoded and grouped by height, then
one `insert_events` for each height of the page, with no events where it has none. -/
def writePage (database : D) (page : DownloadedLogs) : D × Except RelayerError Unit :=
  match sortEventsByLogIndex page.logs >>= fun sorted => groupEvents (sorted.filterMap fuelEvent) with
  | .error error => (database, .error (.log error))
  | .ok unordered =>
      insertCalls db database ((daHeights page.startHeight page.lastHeight).map fun height =>
        (height, (unordered.lookup height).getD []))

/-- `write_logs`: the pages of the stream written in turn, up to its first error. -/
def writeLogs : D → List (Except RpcError DownloadedLogs) → D × Except RelayerError Unit
  | database, [] => (database, .ok ())
  | database, .error error :: _ => (database, .error (.rpc error))
  | database, .ok page :: rest =>
      match writePage db database page with
      | (database, .ok ()) => writeLogs database rest
      | (database, .error error) => (database, .error error)

end Write

/-! ## What the written events are -/

/-- The event a log decodes to, if it is one of the bridge's. -/
def decodedEvent (log : Log) : Option Event :=
  match EthEventLog.tryFrom log with
  | .ok (.message message) => some (.message message)
  | .ok (.transaction transaction) => some (.transaction transaction)
  | _ => none

/-- A log `write_logs` reads without an error: it has its index and decodes. -/
def Log.Readable (log : Log) : Bool :=
  log.logIndex.isSome && (EthEventLog.tryFrom log).isOk

/-- Logs in the order of their indices. -/
def byLogIndex (a b : Log) : Bool :=
  decide (a.logIndex.getD 0 ≤ b.logIndex.getD 0)

/-- The events at `height` among `logs`: the bridge events they decode to at that height, in
the order of their indices. -/
def eventsAt (logs : List Log) (height : DaBlockHeight) : List Event :=
  ((logs.mergeSort byLogIndex).filterMap decodedEvent).filter fun event => event.daHeight = height

/-- The `insert_events` calls a page of readable logs makes: every height of the page, with
the page's events at that height. -/
def DownloadedLogs.calls (page : DownloadedLogs) : List (DaBlockHeight × List Event) :=
  (daHeights page.startHeight page.lastHeight).map fun height => (height, eventsAt page.logs height)

theorem sortEventsByLogIndex_of_indexed {logs : List Log}
    (indexed : ∀ log ∈ logs, log.logIndex.isSome) :
    sortEventsByLogIndex logs = .ok (logs.mergeSort byLogIndex) := by
  have paired : logs.mapM (fun event =>
      (okOr LogError.missingLogIndex event.logIndex).map fun logIndex => (logIndex, event)) =
      .ok (logs.map fun event => (event.logIndex.getD 0, event)) := by
    induction logs with
    | nil => rfl
    | cons log logs induction =>
        obtain ⟨logIndex, indexOf⟩ := Option.isSome_iff_exists.mp (indexed log (by simp))
        rw [List.mapM_cons, induction fun log member => indexed log (by simp [member])]
        simp [indexOf, okOr, Except.map, bind, Except.bind, pure, Except.pure]
  have sortsAlike : ((logs.map fun event => (event.logIndex.getD 0, event)).mergeSort
      fun a b => decide (a.1 ≤ b.1)).map Prod.snd =
      ((logs.map fun event => (event.logIndex.getD 0, event)).map Prod.snd).mergeSort byLogIndex :=
    List.map_mergeSort (by simp [byLogIndex])
  rw [sortEventsByLogIndex, paired]
  change Except.ok _ = _
  simpa [Function.comp_def] using sortsAlike

theorem fuelEvent_of_decodes {log : Log} {eventLog : EthEventLog}
    (decodes : EthEventLog.tryFrom log = .ok eventLog) :
    fuelEvent log = (decodedEvent log).map .ok := by
  cases eventLog <;> simp [fuelEvent, decodedEvent, decodes]

theorem filterMap_fuelEvent {logs : List Log}
    (decodes : ∀ log ∈ logs, (EthEventLog.tryFrom log).isOk) :
    logs.filterMap fuelEvent = (logs.filterMap decodedEvent).map .ok := by
  induction logs with
  | nil => rfl
  | cons log logs induction =>
      obtain ⟨eventLog, decoded⟩ : ∃ eventLog, EthEventLog.tryFrom log = .ok eventLog := by
        have := decodes log (by simp)
        cases h : EthEventLog.tryFrom log <;> simp_all [Except.isOk, Except.toBool]
      rw [List.filterMap_cons, List.filterMap_cons, fuelEvent_of_decodes decoded,
        induction fun log member => decodes log (by simp [member])]
      cases decodedEvent log <;> rfl

theorem lookup_foldl_push (events : List Event) (unordered : UnorderedEvents)
    (height : DaBlockHeight) :
    ((events.foldl (fun unordered event =>
      unordered.modifyD event.daHeight [] fun events => events ++ [event]) unordered).lookup
        height).getD [] =
      (unordered.lookup height).getD [] ++ events.filter fun event => event.daHeight = height := by
  induction events generalizing unordered with
  | nil => simp
  | cons event events induction =>
      rw [List.foldl_cons, induction]
      by_cases here : event.daHeight = height
      · subst here
        simp
      · simp [AList.lookup_modifyD_of_ne _ _ _ (Ne.symm here), here]

theorem groupEvents_map_ok (events : List Event) :
    groupEvents (events.map .ok) = .ok (events.foldl (fun unordered event =>
      unordered.modifyD event.daHeight [] fun events => events ++ [event]) ∅) := by
  suffices fromAny : ∀ unordered : UnorderedEvents,
      (events.map Except.ok).foldlM (fun unordered event => do
        let event ← event
        pure (unordered.modifyD event.daHeight [] fun events => events ++ [event])) unordered =
      .ok (events.foldl (fun unordered event =>
        unordered.modifyD event.daHeight [] fun events => events ++ [event]) unordered) from
    fromAny ∅
  induction events with
  | nil => intro unordered; rfl
  | cons event events induction =>
      intro unordered
      exact induction _

theorem Log.readable_iff {log : Log} :
    log.Readable ↔ log.logIndex.isSome ∧ (EthEventLog.tryFrom log).isOk :=
  Bool.and_eq_true_iff

section Write

variable {D : Type} {db : RelayerDb D}

theorem writePage_of_readable (database : D) {page : DownloadedLogs}
    (readable : ∀ log ∈ page.logs, log.Readable) :
    writePage db database page = insertCalls db database page.calls := by
  have indexed : ∀ log ∈ page.logs, log.logIndex.isSome := fun log member =>
    (Log.readable_iff.mp (readable log member)).1
  have decodes : ∀ log ∈ page.logs.mergeSort byLogIndex, (EthEventLog.tryFrom log).isOk :=
    fun log member => (Log.readable_iff.mp (readable log (List.mem_mergeSort.mp member))).2
  rw [writePage, sortEventsByLogIndex_of_indexed indexed]
  simp only [bind, Except.bind]
  rw [filterMap_fuelEvent decodes, groupEvents_map_ok]
  simp [DownloadedLogs.calls, lookup_foldl_push, eventsAt]

variable (succeeds : ∀ database height events, (db.insertEvents database height events).2 = .ok ())
include succeeds

theorem insertCalls_of_succeeds (database : D) (calls : List (DaBlockHeight × List Event)) :
    insertCalls db database calls =
      (calls.foldl (fun database call => (db.insertEvents database call.1 call.2).1) database,
        .ok ()) := by
  induction calls generalizing database with
  | nil => rfl
  | cons call calls induction =>
      obtain ⟨height, events⟩ := call
      have inserted := succeeds database height events
      rw [insertCalls, List.foldl_cons]
      cases insertion : db.insertEvents database height events with
      | mk after result =>
          rw [insertion] at inserted
          subst inserted
          exact induction after

theorem writeLogs_of_readable (database : D) (pages : List DownloadedLogs)
    (readable : ∀ page ∈ pages, ∀ log ∈ page.logs, log.Readable) :
    writeLogs db database (pages.map .ok) =
      ((pages.flatMap DownloadedLogs.calls).foldl
        (fun database call => (db.insertEvents database call.1 call.2).1) database, .ok ()) := by
  induction pages generalizing database with
  | nil => rfl
  | cons page pages induction =>
      rw [List.map_cons, writeLogs, writePage_of_readable database (readable page (by simp)),
        insertCalls_of_succeeds succeeds, List.flatMap_cons, List.foldl_append]
      exact induction _ fun page member => readable page (by simp [member])

end Write

theorem map_toNat_daHeights (first last : DaBlockHeight) :
    (daHeights first last).map UInt64.toNat =
      List.range' first.toNat (last.toNat + 1 - first.toNat) := by
  rw [daHeights, List.map_map, List.range'_eq_map_range]
  apply List.map_congr_left
  intro offset member
  rw [List.mem_range] at member
  have lastBelow := last.toNat_lt
  have offsetToNat : offset.toUInt64.toNat = offset := by
    rw [Nat.toUInt64_eq, UInt64.toNat_ofNat']
    exact Nat.mod_eq_of_lt (by omega)
  simp only [Function.comp_apply, UInt64.toNat_add, offsetToNat]
  exact Nat.mod_eq_of_lt (by omega)

theorem Paginates.map_calls {σ : Type} {sizer : PageSizer σ} {first last : ℕ} {state : σ}
    {pages : List DownloadedLogs} (paginates : Paginates sizer first last state pages) :
    (pages.flatMap DownloadedLogs.calls).map (fun call => call.1.toNat) =
      List.range' first (last + 1 - first) := by
  induction pages generalizing first state with
  | nil => exact paginates.elim
  | cons page pages induction =>
      obtain ⟨starts, ordered, -, ⟨ends, rfl⟩ | ⟨short, restPaginates⟩⟩ := paginates
      · simp [DownloadedLogs.calls, ← ends, ← starts, ← map_toNat_daHeights, Function.comp_def]
      · have joined := @List.range'_append_1 first (page.lastHeight.toNat + 1 - first)
          (last - page.lastHeight.toNat)
        rw [show first + (page.lastHeight.toNat + 1 - first) = page.lastHeight.toNat + 1 by omega,
          show page.lastHeight.toNat + 1 - first + (last - page.lastHeight.toNat) =
            last + 1 - first by omega] at joined
        rw [List.flatMap_cons, List.map_append, induction restPaginates, ← joined,
          show last + 1 - (page.lastHeight.toNat + 1) = last - page.lastHeight.toNat by omega,
          ← starts, ← map_toNat_daHeights]
        simp [DownloadedLogs.calls, Function.comp_def]

/-! ## Syncing a gap -/

/-- A page sizer whose page stays at least one block after successful calls, a node whose
every answer is readable logs and a database whose inserts succeed: the download tiles the gap
and `write_logs` inserts each of its heights once, in order, with its events. -/
theorem downloadLogs_then_writeLogs {σ D : Type} {sizer : PageSizer σ} {Good : σ → Prop}
    (keeps : ∀ state logsDownloaded, Good state →
      Good (sizer.update state (.success logsDownloaded)))
    (positive : ∀ state, Good state → 1 ≤ (sizer.pageSize state).toNat)
    {state : σ} (good : Good state) {gap : EthSyncGap} (ordered : gap.oldest ≤ gap.latest)
    (belowMax : gap.latest.toNat < UInt64.size - 1) {ethNode : EthNode}
    (answers : ∀ call filter, ∃ logs, ethNode call filter = .ok logs ∧ ∀ log ∈ logs, log.Readable)
    {db : RelayerDb D}
    (succeeds : ∀ database height events, (db.insertEvents database height events).2 = .ok ())
    (database : D) {fuel : ℕ} (enough : gap.latest.toNat - gap.oldest.toNat < fuel) :
    ∃ pages, (downloadLogs sizer ethNode fuel gap state).1 = pages.map .ok ∧
      Paginates sizer gap.oldest.toNat gap.latest.toNat state pages ∧
      (pages.flatMap DownloadedLogs.calls).map (fun call => call.1.toNat) =
        List.range' gap.oldest.toNat (gap.latest.toNat + 1 - gap.oldest.toNat) ∧
      writeLogs db database (downloadLogs sizer ethNode fuel gap state).1 =
        ((pages.flatMap DownloadedLogs.calls).foldl
          (fun database call => (db.insertEvents database call.1 call.2).1) database, .ok ()) := by
  obtain ⟨page, first, tracks, oldest, sized, gapEnd⟩ :=
    gap.page_tracks (UInt64.le_iff_toNat_le.mp ordered) belowMax (positive state good)
  obtain ⟨pages, downloaded, paginates, readable⟩ :=
    downloadPages_paginates keeps positive answers fuel page state 0 tracks good sized
      (by rw [gapEnd, oldest]; omega)
  rw [oldest, gapEnd] at paginates
  have downloads : (downloadLogs sizer ethNode fuel gap state).1 = pages.map .ok := by
    rw [downloadLogs, first, downloaded]
  refine ⟨pages, downloads, paginates, paginates.map_calls, ?_⟩
  rw [downloads]
  exact writeLogs_of_readable succeeds database pages readable

/-- `download_logs` then `write_logs` over a gap: the adaptive page sizer's page stays within
`[1, log_page_size]`; and for any page sizer whose page stays at least one block, a node that
answers every call with logs that have their index and decode, and a database whose inserts
succeed, the download tiles the gap in pages of at most the size in force, and the write
inserts every height of the gap once, in order, with its events in the order of their logs. -/
theorem relayer_sync_covers_gap_and_writes_each_height :
    (∀ (logPageSize maxLogsPerRpc : UInt64) (outcomes : List RpcOutcome), 1 ≤ logPageSize.toNat →
      1 ≤ (outcomes.foldl AdaptivePageSizer.update
          (AdaptivePageSizer.new logPageSize logPageSize 50 maxLogsPerRpc)).pageSize.toNat ∧
        (outcomes.foldl AdaptivePageSizer.update
          (AdaptivePageSizer.new logPageSize logPageSize 50 maxLogsPerRpc)).pageSize.toNat ≤
          logPageSize.toNat) ∧
    ∀ {σ D : Type} (sizer : PageSizer σ) (Good : σ → Prop),
      (∀ state logsDownloaded, Good state → Good (sizer.update state (.success logsDownloaded))) →
      (∀ state, Good state → 1 ≤ (sizer.pageSize state).toNat) →
      ∀ (state : σ), Good state →
      ∀ (gap : EthSyncGap), gap.oldest ≤ gap.latest → gap.latest.toNat < UInt64.size - 1 →
      ∀ (ethNode : EthNode),
        (∀ call filter, ∃ logs, ethNode call filter = .ok logs ∧ ∀ log ∈ logs, log.Readable) →
      ∀ (db : RelayerDb D),
        (∀ database height events, (db.insertEvents database height events).2 = .ok ()) →
      ∀ (database : D) (fuel : ℕ), gap.latest.toNat - gap.oldest.toNat < fuel →
      ∃ pages, (downloadLogs sizer ethNode fuel gap state).1 = pages.map .ok ∧
        Paginates sizer gap.oldest.toNat gap.latest.toNat state pages ∧
        (pages.flatMap DownloadedLogs.calls).map (fun call => call.1.toNat) =
          List.range' gap.oldest.toNat (gap.latest.toNat + 1 - gap.oldest.toNat) ∧
        writeLogs db database (downloadLogs sizer ethNode fuel gap state).1 =
          ((pages.flatMap DownloadedLogs.calls).foldl
            (fun database call => (db.insertEvents database call.1 call.2).1) database, .ok ()) := by
  refine ⟨fun logPageSize maxLogsPerRpc outcomes positive => ?_, ?_⟩
  · exact AdaptivePageSizer.pageSize_foldl_update 50 maxLogsPerRpc positive outcomes
  · intro σ D sizer Good keeps positive state good gap ordered belowMax ethNode answers db
      succeeds database fuel enough
    exact downloadLogs_then_writeLogs keeps positive good ordered belowMax answers succeeds
      database enough

/-- A database that records its `insert_events` calls. -/
def recordingDb : RelayerDb (List (DaBlockHeight × List Event)) :=
  ⟨fun calls height events => (calls ++ [(height, events)], .ok ())⟩

/-- A log of an event the bridge does not emit, whose node left out its index. -/
def unindexedLog : Log :=
  { logIndex := none, blockNumber := some 0, topics := [.other 0], messageSent := none,
    transaction := none }

/-- A node that answers every call with `unindexedLog`. -/
def unindexedLogNode : EthNode :=
  fun _ _ => .ok [unindexedLog]

/-- One successful `get_logs` over the gap `[0, 0]` whose log has no index: `write_logs`
stops on it before any `insert_events` call, so height `0` is never written. -/
theorem unindexed_log_stops_write_logs :
    (downloadLogs AdaptivePageSizer.pageSizer unindexedLogNode 1 ⟨0, 0⟩
        (AdaptivePageSizer.new 1 1 50 10000)).1 = [.ok ⟨0, 0, [unindexedLog]⟩] ∧
      writeLogs recordingDb []
        (downloadLogs AdaptivePageSizer.pageSizer unindexedLogNode 1 ⟨0, 0⟩
          (AdaptivePageSizer.new 1 1 50 10000)).1 = ([], .error (.log .missingLogIndex)) :=
  ⟨rfl, rfl⟩

/-- A `MessageSent` log of DA height 7, with index 0. -/
def messageLog : Log :=
  { logIndex := some 0, blockNumber := some 7,
    topics := [.messageSent, .other 1, .other 2, .other 3],
    messageSent := some ⟨1, 2, 3, 100, []⟩, transaction := none }

/-- A node that answers every call with `messageLog`. -/
def messageLogNode : EthNode :=
  fun _ _ => .ok [messageLog]

theorem message_log_sync_writes_each_height :
    (1 ≤ ([RpcOutcome.error, .success 3].foldl AdaptivePageSizer.update
          (AdaptivePageSizer.new 8 8 50 1000)).pageSize.toNat ∧
      ([RpcOutcome.error, .success 3].foldl AdaptivePageSizer.update
          (AdaptivePageSizer.new 8 8 50 1000)).pageSize.toNat ≤ (8 : UInt64).toNat) ∧
    ∃ pages, (downloadLogs AdaptivePageSizer.pageSizer messageLogNode 5 ⟨5, 9⟩
        (AdaptivePageSizer.new 2 2 50 1000)).1 = pages.map .ok ∧
      Paginates AdaptivePageSizer.pageSizer (5 : UInt64).toNat (9 : UInt64).toNat
        (AdaptivePageSizer.new 2 2 50 1000) pages ∧
      (pages.flatMap DownloadedLogs.calls).map (fun call => call.1.toNat) =
        List.range' (5 : UInt64).toNat ((9 : UInt64).toNat + 1 - (5 : UInt64).toNat) ∧
      writeLogs recordingDb [] (downloadLogs AdaptivePageSizer.pageSizer messageLogNode 5 ⟨5, 9⟩
          (AdaptivePageSizer.new 2 2 50 1000)).1 =
        ((pages.flatMap DownloadedLogs.calls).foldl
          (fun database call => (recordingDb.insertEvents database call.1 call.2).1) [], .ok ()) :=
  ⟨relayer_sync_covers_gap_and_writes_each_height.1 8 1000 _ (by decide),
    relayer_sync_covers_gap_and_writes_each_height.2 AdaptivePageSizer.pageSizer
      AdaptivePageSizer.Bounded
      (fun _ logsDownloaded bounded => bounded.update (.success logsDownloaded))
      (fun _ bounded => bounded.positive)
      _ ⟨by decide, by decide⟩ ⟨5, 9⟩ (by decide) (by decide) messageLogNode
      (fun _ _ => ⟨[messageLog], rfl, by decide⟩) recordingDb (fun _ _ _ => rfl) [] 5 (by decide)⟩

end FuelCore.Relayer
