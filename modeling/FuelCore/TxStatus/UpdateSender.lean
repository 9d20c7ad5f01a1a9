import FuelCore.TxStatus.Manager
import FuelCore.Lib.AList

/-! # Transaction status streams and their subscribers

`tx_status_stream.rs` and `update_sender.rs`. Each subscriber of a transaction is a `Sender`:
a `TxUpdateStream`, the state machine that decides what to push next, and the sending end of
its channel. `Sender::try_send` adds the new message to the stream, takes at most one message
out of it and offers that to the channel; a full channel turns the stream to a failure, a
closed one closes it. `UpdateSender::send` calls it on every subscriber of the transaction
under the map's lock and drops those whose stream has closed, which releases their permits.

The channel is any `SendStatus`. Permits are numbered in the order the semaphore gives them
out, and the semaphore has a permit left while the map holds fewer subscribers than its
capacity: a permit is held by its sender and released when the sender is dropped. Instants
are natural numbers and `elapsed` the truncated difference to the instant of the call.
-/

namespace FuelCore.TxStatus

inductive TxStatusMessage
  | status (status : TransactionStatus)
  | failedStatus
  deriving DecidableEq, Repr

namespace TxStatusMessage

def isFinal : TxStatusMessage → Bool
  | .status transactionStatus => transactionStatus.isFinal
  | .failedStatus => true

/-- The status a message carries, if it is a `Status`. -/
def status? : TxStatusMessage → Option TransactionStatus
  | .status transactionStatus => some transactionStatus
  | .failedStatus => none

end TxStatusMessage

/-- `State` of a `TxUpdateStream`. -/
inductive State
  | empty
  | submitted (status : TransactionStatus)
  | preconfirmed (status : TransactionStatus)
  | earlySuccess (status : TransactionStatus)
  | success (first final : TransactionStatus)
  | failed
  | lateFailed (status : TransactionStatus)
  | senderClosed (status : TransactionStatus)
  | closed
  deriving DecidableEq, Repr

namespace State

/-- `TxUpdateStream::add_msg`. -/
def addMsg : State → TxStatusMessage → State
  | .empty, .status (.submitted details) => .submitted (.submitted details)
  | .empty, .status (.preConfirmationSuccess details) =>
      .preconfirmed (.preConfirmationSuccess details)
  | .empty, .status (.preConfirmationFailure details) =>
      .preconfirmed (.preConfirmationFailure details)
  | .empty, .status status => .earlySuccess status
  | .empty, .failedStatus => .failed
  | .submitted _, .status (.submitted details) => .submitted (.submitted details)
  | .submitted _, .status (.preConfirmationSuccess details) =>
      .preconfirmed (.preConfirmationSuccess details)
  | .submitted _, .status (.preConfirmationFailure details) =>
      .preconfirmed (.preConfirmationFailure details)
  | .submitted first, .status status => .success first status
  | .submitted first, .failedStatus => .lateFailed first
  | .preconfirmed first, .status status => .success first status
  | .preconfirmed first, .failedStatus => .lateFailed first
  | state, _ => state

/-- `TxUpdateStream::add_failure`. -/
def addFailure : State → State
  | .submitted status | .preconfirmed status => .lateFailed status
  | .empty => .failed
  | state => state

/-- `TxUpdateStream::close_recv`. -/
def closeRecv (_ : State) : State :=
  .closed

/-- `TxUpdateStream::try_next`: the message to push, if any, and the state it leaves. -/
def tryNext : State → Option TxStatusMessage × State
  | .submitted status => (some (.status status), .empty)
  | .preconfirmed status => (some (.status status), .empty)
  | .empty => (none, .empty)
  | .earlySuccess status | .senderClosed status => (some (.status status), .closed)
  | .failed => (some .failedStatus, .closed)
  | .lateFailed status => (some (.status status), .failed)
  | .success first final => (some (.status first), .senderClosed final)
  | .closed => (none, .closed)

def isClosed : State → Bool
  | .closed => true
  | _ => false

@[simp] theorem tryNext_addMsg_empty (msg : TxStatusMessage) :
    (State.empty.addMsg msg).tryNext = (some msg, if msg.isFinal then .closed else .empty) := by
  cases msg with
  | status transactionStatus => cases transactionStatus <;> rfl
  | failedStatus => rfl

@[simp] theorem tryNext_addMsg_failed (msg : TxStatusMessage) :
    (State.failed.addMsg msg).tryNext = (some .failedStatus, .closed) := by
  cases msg <;> rfl

@[simp] theorem tryNext_addMsg_closed (msg : TxStatusMessage) :
    (State.closed.addMsg msg).tryNext = (none, .closed) := by
  cases msg <;> rfl

end State

inductive SendError
  | full
  | closed
  deriving DecidableEq, Repr

/-- `SendStatus::try_send` of the sending end of a subscriber channel. -/
structure SendStatus (Tx : Type) where
  trySend : Tx → TxStatusMessage → Tx × Except SendError Unit

/-- `Sender`: the number of its permit, its stream, the sending end of its channel and the
instant it was created. -/
structure Sender (Tx : Type) where
  permit : ℕ
  stream : State
  tx : Tx
  created : ℕ

section Send

variable {Tx : Type} (channel : SendStatus Tx)

/-- `Sender::try_send`. -/
def Sender.trySend (sender : Sender Tx) (msg : TxStatusMessage) :
    Sender Tx × Except SendError Unit :=
  let sender := { sender with stream := sender.stream.addMsg msg }
  let sender :=
    match sender.stream.tryNext with
    | (none, stream) => { sender with stream }
    | (some next, stream) =>
        let sent := channel.trySend sender.tx next
        let stream :=
          match sent.2 with
          | .ok () => stream
          | .error .full => stream.addFailure
          | .error .closed => stream.closeRecv
        { sender with stream, tx := sent.1 }
  (sender, if sender.stream.isClosed then .error .closed else .ok ())

/-- The `retain_mut` of `UpdateSender::send`: the subscribers whose `try_send` succeeds,
after it. -/
def keptSenders (message : TxStatusMessage) (subscribers : List (Sender Tx)) :
    List (Sender Tx) :=
  subscribers.filterMap fun sender =>
    match sender.trySend channel message with
    | (sender, .ok ()) => some sender
    | (_, .error _) => none

abbrev SenderMap (Tx : Type) := AList fun _ : TxId => List (Sender Tx)

/-- `remove_closed_and_expired`: the senders whose stream is open and that are younger than
`ttl`; transactions left without one are dropped. -/
def removeClosedAndExpired (senders : SenderMap Tx) (now ttl : ℕ) : SenderMap Tx :=
  senders.retainMap fun _ subscribers =>
    let subscribers := subscribers.filter fun sender =>
      !sender.stream.isClosed && decide (now - sender.created < ttl)
    if subscribers.isEmpty then none else some subscribers

structure UpdateSender (Tx : Type) where
  senders : SenderMap Tx
  /-- The permits of the semaphore. -/
  capacity : ℕ
  /-- The number of the next permit the semaphore gives out. -/
  nextPermit : ℕ
  ttl : ℕ

namespace UpdateSender

def new (capacity ttl : ℕ) : UpdateSender Tx :=
  ⟨∅, capacity, 0, ttl⟩

/-- `UpdateSender::send`: every subscriber of `txId` is sent the message, and those whose
`try_send` fails are dropped, the transaction with them if none is left. -/
def send (updateSender : UpdateSender Tx) (txId : TxId) (message : TxStatusMessage)
    (now : ℕ) : UpdateSender Tx :=
  let senders := removeClosedAndExpired updateSender.senders now updateSender.ttl
  let senders :=
    match senders.lookup txId with
    | none => senders
    | some subscribers =>
        let kept := keptSenders channel message subscribers
        if kept.isEmpty then senders.erase txId else senders.insert txId kept
  { updateSender with senders }

/-- `try_subscribe`: a permit if the semaphore has one left, then `subscribe_inner`, which
cleans the map again and appends a sender with a new stream and the new channel's sending
end. The number of the permit stands for the stream it returns. -/
def trySubscribe (updateSender : UpdateSender Tx) (txId : TxId) (tx : Tx) (now : ℕ) :
    UpdateSender Tx × Option ℕ :=
  let senders := removeClosedAndExpired updateSender.senders now updateSender.ttl
  if AList.valueSum List.length senders < updateSender.capacity then
    let senders := removeClosedAndExpired senders now updateSender.ttl
    let sender : Sender Tx := ⟨updateSender.nextPermit, .empty, tx, now⟩
    ({ updateSender with
        senders := senders.modifyD txId [] fun subscribers => subscribers ++ [sender]
        nextPermit := updateSender.nextPermit + 1 }, some updateSender.nextPermit)
  else ({ updateSender with senders }, none)

end UpdateSender

/-- The calls made on an `UpdateSender`, each at its instant. -/
inductive Call (Tx : Type)
  | send (txId : TxId) (message : TxStatusMessage) (now : ℕ)
  | subscribe (txId : TxId) (tx : Tx) (now : ℕ)

def Call.apply (updateSender : UpdateSender Tx) : Call Tx → UpdateSender Tx
  | .send txId message now => updateSender.send channel txId message now
  | .subscribe txId tx now => (updateSender.trySubscribe txId tx now).1

/-- The `UpdateSender` after the calls, in order. -/
def run (updateSender : UpdateSender Tx) (calls : List (Call Tx)) : UpdateSender Tx :=
  calls.foldl (Call.apply channel) updateSender

end Send

/-! ## The three states between calls

`try_next` takes every `Submitted` and `Preconfirmed` state out, and `add_failure` only runs
after it, so between two calls of `try_send` a stream is empty, failed or closed; the other
states live within one call. A call from one of the three is a step of this smaller machine. -/

/-- Where a stream rests between calls of `try_send`. -/
inductive Phase
  | ready
  | failing
  | closed
  deriving DecidableEq, Repr

namespace Phase

def toState : Phase → State
  | .ready => .empty
  | .failing => .failed
  | .closed => .closed

/-- The message a call offers to the channel. -/
def offer : Phase → TxStatusMessage → Option TxStatusMessage
  | .ready, msg => some msg
  | .failing, _ => some .failedStatus
  | .closed, _ => none

/-- Where the stream rests after a call whose offer the channel answered with `sent`. -/
def after : Phase → TxStatusMessage → Except SendError Unit → Phase
  | .ready, msg, .ok () => if msg.isFinal then .closed else .ready
  | .ready, msg, .error .full => if msg.isFinal then .closed else .failing
  | .ready, _, .error .closed => .closed
  | .failing, _, _ => .closed
  | .closed, _, _ => .closed

/-- What `try_send` returns when it leaves the stream at the phase. -/
def result (phase : Phase) : Except SendError Unit :=
  if phase = .closed then .error .closed else .ok ()

section Step

variable {Tx : Type} (channel : SendStatus Tx)

/-- `try_send` from a stream resting at the phase. -/
def trySend (phase : Phase) (sender : Sender Tx) (msg : TxStatusMessage) :
    Sender Tx × Except SendError Unit :=
  match phase.offer msg with
  | none => ({ sender with stream := phase.toState }, .error .closed)
  | some next =>
      let sent := channel.trySend sender.tx next
      let phase := phase.after msg sent.2
      ({ sender with stream := phase.toState, tx := sent.1 }, phase.result)

end Step

end Phase

section Phases

variable {Tx : Type} (channel : SendStatus Tx)

theorem Sender.trySend_of_phase {sender : Sender Tx} {phase : Phase}
    (resting : sender.stream = phase.toState) (msg : TxStatusMessage) :
    sender.trySend channel msg = phase.trySend channel sender msg := by
  obtain ⟨permit, stream, tx, created⟩ := sender
  dsimp only at resting
  subst resting
  cases phase with
  | closed => simp [Sender.trySend, Phase.trySend, Phase.offer, Phase.toState, State.isClosed]
  | failing =>
      -- whatever the channel answers, the failure was the last message
      simp only [Sender.trySend, Phase.toState, State.tryNext_addMsg_failed, Phase.trySend,
        Phase.offer, Phase.after, Phase.result]
      rcases (channel.trySend tx .failedStatus).2 with (_ | _) | _ <;> rfl
  | ready =>
      -- the message is offered as it is; a final one closes the stream, whatever the answer
      simp only [Sender.trySend, Phase.toState, State.tryNext_addMsg_empty, Phase.trySend,
        Phase.offer]
      cases final : msg.isFinal <;> rcases (channel.trySend tx msg).2 with (_ | _) | _ <;>
        simp [Phase.after, Phase.result, final, State.addFailure, State.closeRecv, State.isClosed]

end Phases

/-! ## One subscriber against any sequence of answers -/

/-- A channel that records each message offered to it with the answer it got, its `n`-th
offer answered by `answers n`. -/
def recordingChannel (answers : ℕ → Except SendError Unit) :
    SendStatus (List (TxStatusMessage × Except SendError Unit)) :=
  ⟨fun offered msg => (offered ++ [(msg, answers offered.length)], answers offered.length)⟩

def pushes (offered : List (TxStatusMessage × Except SendError Unit)) : List TxStatusMessage :=
  (offered.filter fun offer => offer.2.isOk).map Prod.fst

/-- The inputs up to and including the first final one. -/
def upToFinal : List TxStatusMessage → List TxStatusMessage
  | [] => []
  | msg :: rest => msg :: if msg.isFinal then [] else upToFinal rest

/-- `try_send` called with each input in turn. -/
def Sender.trySendAll {Tx : Type} (channel : SendStatus Tx) (sender : Sender Tx)
    (inputs : List TxStatusMessage) : Sender Tx :=
  inputs.foldl (fun sender msg => (sender.trySend channel msg).1) sender

namespace Phase

variable (answers : ℕ → Except SendError Unit)

/-- What the channel is offered from a phase on, the `n`-th offer answered by `answers n`. -/
def offers : Phase → List TxStatusMessage → ℕ → List (TxStatusMessage × Except SendError Unit)
  | _, [], _ => []
  | phase, msg :: rest, n =>
      match phase.offer msg with
      | none => offers phase rest n
      | some next => (next, answers n) :: offers (phase.after msg (answers n)) rest (n + 1)

@[simp] theorem offers_closed (inputs : List TxStatusMessage) (n : ℕ) :
    Phase.closed.offers answers inputs n = [] := by
  induction inputs with
  | nil => rfl
  | cons msg rest induction => exact induction

@[simp] theorem offers_failing (msg : TxStatusMessage) (rest : List TxStatusMessage) (n : ℕ) :
    Phase.failing.offers answers (msg :: rest) n = [(.failedStatus, answers n)] := by
  simp [offers, offer, after]

theorem offers_ready (msg : TxStatusMessage) (rest : List TxStatusMessage) (n : ℕ) :
    Phase.ready.offers answers (msg :: rest) n =
      (msg, answers n) :: (Phase.ready.after msg (answers n)).offers answers rest (n + 1) :=
  rfl

end Phase

theorem Sender.trySendAll_recording (answers : ℕ → Except SendError Unit)
    (inputs : List TxStatusMessage) :
    ∀ (sender : Sender (List (TxStatusMessage × Except SendError Unit))) (phase : Phase),
      sender.stream = phase.toState →
      (sender.trySendAll (recordingChannel answers) inputs).tx =
        sender.tx ++ phase.offers answers inputs sender.tx.length := by
  induction inputs with
  | nil => simp [Sender.trySendAll, Phase.offers]
  | cons msg rest induction =>
      intro sender phase resting
      have unfolded : sender.trySendAll (recordingChannel answers) (msg :: rest) =
          (sender.trySend (recordingChannel answers) msg).1.trySendAll
            (recordingChannel answers) rest := rfl
      rw [unfolded, sender.trySend_of_phase (recordingChannel answers) resting msg, Phase.offers]
      unfold Phase.trySend
      cases phase.offer msg with
      | none => exact induction _ phase rfl
      | some next =>
          dsimp only
          rw [induction _ _ rfl]
          simp [recordingChannel]

namespace Phase

variable (answers : ℕ → Except SendError Unit)

theorem offers_statuses_sublist (inputs : List TxStatusMessage) :
    ∀ (phase : Phase) (n : ℕ),
      List.Sublist (((phase.offers answers inputs n).map Prod.fst).filterMap
        TxStatusMessage.status?) (inputs.filterMap TxStatusMessage.status?) := by
  induction inputs with
  | nil => intro phase n; simp [offers]
  | cons msg rest induction =>
      intro phase n
      cases phase with
      | closed => simp
      | failing =>
          rw [offers_failing]
          exact List.nil_sublist _
      | ready =>
          rw [offers_ready, List.map_cons, List.filterMap_cons, List.filterMap_cons]
          cases msg.status? with
          | none => exact induction _ _
          | some status => exact (induction _ _).cons_cons status

theorem dropLast_cons_of_not_final {msg : TxStatusMessage} {rest : List TxStatusMessage}
    (notFinal : msg.isFinal = false) (restNotFinal : ∀ m ∈ rest.dropLast, m.isFinal = false) :
    ∀ m ∈ (msg :: rest).dropLast, m.isFinal = false := by
  cases rest with
  | nil => simp
  | cons next rest =>
      intro m member
      rw [List.dropLast_cons_cons, List.mem_cons] at member
      rcases member with rfl | later
      · exact notFinal
      · exact restNotFinal m later

theorem dropLast_pushes_singleton (offer : TxStatusMessage × Except SendError Unit) :
    (pushes [offer]).dropLast = [] := by
  by_cases taken : offer.2.isOk <;> simp [pushes, taken]

theorem offers_dropLast_not_final (inputs : List TxStatusMessage) :
    ∀ (phase : Phase) (n : ℕ),
      ∀ m ∈ (pushes (phase.offers answers inputs n)).dropLast, m.isFinal = false := by
  induction inputs with
  | nil => intro phase n; simp [offers, pushes]
  | cons msg rest induction =>
      intro phase n
      cases phase with
      | closed => simp [pushes]
      | failing =>
          simp [dropLast_pushes_singleton]
      | ready =>
          rw [offers_ready]
          cases final : msg.isFinal with
          | true =>
              have closes : Phase.ready.after msg (answers n) = .closed := by
                cases answers n with
                | error error => cases error <;> simp [after, final]
                | ok => simp [after, final]
              simp [closes, dropLast_pushes_singleton]
          | false =>
              have rest := induction (Phase.ready.after msg (answers n)) (n + 1)
              cases answered : answers n with
              | error error => simpa [pushes, Except.isOk, Except.toBool, answered] using rest
              | ok =>
                  simp only [pushes, answered, List.filter_cons, Except.isOk, Except.toBool,
                    if_true, List.map_cons] at rest ⊢
                  exact dropLast_cons_of_not_final final rest

theorem after_ready_eq_failing {msg : TxStatusMessage} {sent : Except SendError Unit}
    (failing : Phase.ready.after msg sent = .failing) : sent = .error .full := by
  cases sent with
  | error error => cases error <;> simp_all [after]
  | ok => cases final : msg.isFinal <;> simp_all [after]

theorem offers_failedStatus (inputs : List TxStatusMessage) :
    ∀ (phase : Phase) (n : ℕ) (pre post : List (TxStatusMessage × Except SendError Unit))
      (sent : Except SendError Unit),
      phase.offers answers inputs n = pre ++ (.failedStatus, sent) :: post →
      .failedStatus ∈ inputs ∨ (∃ offer ∈ pre, offer.2 = .error .full) ∨ phase = .failing := by
  induction inputs with
  | nil => intro phase n pre post sent offered; simp [offers] at offered
  | cons msg rest induction =>
      intro phase n pre post sent offered
      cases phase with
      | closed => simp at offered
      | failing => exact .inr (.inr rfl)
      | ready =>
          rw [offers_ready] at offered
          cases pre with
          | nil =>
              obtain ⟨sameOffer, -⟩ := List.cons_eq_cons.mp offered
              have isFailure : msg = .failedStatus := congrArg Prod.fst sameOffer
              exact .inl (isFailure ▸ List.mem_cons_self)
          | cons first pre =>
              obtain ⟨head, tail⟩ := List.cons_eq_cons.mp offered
              rcases induction _ _ pre post sent tail with inRest | refused | failing
              · exact .inl (List.mem_cons_of_mem msg inRest)
              · obtain ⟨offer, member, full⟩ := refused
                exact .inr (.inl ⟨offer, List.mem_cons_of_mem first member, full⟩)
              · -- the phase fails only after the channel refused the first offer as full
                exact .inr (.inl ⟨first, List.mem_cons_self, by
                  rw [← head]
                  exact after_ready_eq_failing failing⟩)

theorem offers_of_accepted (inputs : List TxStatusMessage) :
    ∀ n, (∀ offer ∈ Phase.ready.offers answers inputs n, offer.2 = .ok ()) →
      Phase.ready.offers answers inputs n = (upToFinal inputs).map fun msg => (msg, .ok ()) := by
  induction inputs with
  | nil => intro n _; rfl
  | cons msg rest induction =>
      intro n accepted
      rw [offers_ready] at accepted ⊢
      have taken : answers n = .ok () := accepted _ List.mem_cons_self
      rw [taken]
      cases final : msg.isFinal with
      | true => simp [after, final, upToFinal]
      | false =>
          have stays : Phase.ready.after msg (.ok ()) = .ready := by simp [after, final]
          rw [stays, induction (n + 1) fun offer member => accepted offer (by
            rw [taken, stays]
            exact List.mem_cons_of_mem _ member)]
          simp [upToFinal, final]

end Phase

/-! ## Permits

A subscriber holds its permit while it is in the map. The permits the semaphore gives out are
new numbers, so no two subscribers hold the same one, and a subscriber `send` drops has
released its permit for good. -/

section Permits

variable {Tx : Type} (channel : SendStatus Tx)

/-- How many subscribers of the map hold the permit. -/
def permitsHeld (senders : SenderMap Tx) (permit : ℕ) : ℕ :=
  AList.valueSum (fun subscribers => subscribers.countP fun sender => sender.permit = permit)
    senders

@[simp] theorem Sender.permit_trySend (sender : Sender Tx) (msg : TxStatusMessage) :
    (sender.trySend channel msg).1.permit = sender.permit := by
  simp only [Sender.trySend]
  split <;> rfl

theorem permit_of_kept {message : TxStatusMessage} {sender kept : Sender Tx}
    (keeps : (match sender.trySend channel message with
      | (sender, .ok ()) => some sender
      | (_, .error _) => none) = some kept) : kept.permit = sender.permit := by
  split at keeps
  · rename_i after _ sent
    cases keeps
    rw [← Sender.permit_trySend channel sender message, sent]
  · cases keeps

theorem countP_keptSenders_le (message : TxStatusMessage) (subscribers : List (Sender Tx))
    (permit : ℕ) :
    (keptSenders channel message subscribers).countP (fun sender => sender.permit = permit) ≤
      subscribers.countP fun sender => sender.permit = permit := by
  induction subscribers with
  | nil => simp [keptSenders]
  | cons sender subscribers induction =>
      simp only [keptSenders, List.filterMap_cons] at induction ⊢
      cases kept : (match sender.trySend channel message with
        | (sender, .ok ()) => some sender
        | (_, .error _) => none) with
      | none =>
          simp only [List.countP_cons]
          omega
      | some after =>
          simp only [List.countP_cons, permit_of_kept channel kept]
          omega

theorem countP_keptSenders_lt {message : TxStatusMessage} {subscribers : List (Sender Tx)}
    {failing : Sender Tx} (member : failing ∈ subscribers)
    (fails : (failing.trySend channel message).2 = .error .closed) :
    (keptSenders channel message subscribers).countP
        (fun sender => sender.permit = failing.permit) + 1 ≤
      subscribers.countP fun sender => sender.permit = failing.permit := by
  induction subscribers with
  | nil => cases member
  | cons sender subscribers induction =>
      have dropped : (match failing.trySend channel message with
          | (sender, .ok ()) => some sender
          | (_, .error _) => none) = none := by
        rcases result : failing.trySend channel message with ⟨after, sent⟩
        rw [result] at fails
        dsimp only at fails
        subst fails
        rfl
      rcases List.mem_cons.mp member with rfl | later
      · have rest := countP_keptSenders_le channel message subscribers failing.permit
        simp only [keptSenders, List.filterMap_cons, dropped, List.countP_cons] at rest ⊢
        simp
        omega
      · have rest := induction later
        simp only [keptSenders, List.filterMap_cons] at rest ⊢
        cases kept : (match sender.trySend channel message with
          | (sender, .ok ()) => some sender
          | (_, .error _) => none) with
        | none =>
            simp only [List.countP_cons]
            omega
        | some after =>
            simp only [List.countP_cons, permit_of_kept channel kept]
            omega

theorem permitsHeld_removeClosedAndExpired_le (senders : SenderMap Tx) (now ttl permit : ℕ) :
    permitsHeld (removeClosedAndExpired senders now ttl) permit ≤ permitsHeld senders permit := by
  apply AList.valueSum_retainMap_le
  intro _ subscribers kept keeps
  dsimp only at keeps
  split_ifs at keeps
  cases keeps
  exact (List.filter_sublist).countP_le

theorem permitsHeld_send_of_some {updateSender : UpdateSender Tx} {txId : TxId}
    (message : TxStatusMessage) {now : ℕ} {subscribers : List (Sender Tx)}
    (found : (removeClosedAndExpired updateSender.senders now updateSender.ttl).lookup txId =
      some subscribers) (permit : ℕ) :
    permitsHeld (updateSender.send channel txId message now).senders permit +
        subscribers.countP (fun sender => sender.permit = permit) =
      permitsHeld (removeClosedAndExpired updateSender.senders now updateSender.ttl) permit +
        (keptSenders channel message subscribers).countP fun sender => sender.permit = permit := by
  have erased := AList.valueSum_erase_add
    (fun subscribers : List (Sender Tx) => subscribers.countP fun sender => sender.permit = permit)
    (removeClosedAndExpired updateSender.senders now updateSender.ttl) txId
  rw [found] at erased
  simp only [UpdateSender.send, found]
  split_ifs with noneKept
  · rw [List.isEmpty_iff.mp noneKept]
    simpa [permitsHeld] using erased
  · simp only [permitsHeld, AList.valueSum_insert] at erased ⊢
    simp only [Option.elim] at erased
    omega

theorem permitsHeld_send_le (updateSender : UpdateSender Tx) (txId : TxId)
    (message : TxStatusMessage) (now permit : ℕ) :
    permitsHeld (updateSender.send channel txId message now).senders permit ≤
      permitsHeld updateSender.senders permit := by
  have cleaned := permitsHeld_removeClosedAndExpired_le updateSender.senders now
    updateSender.ttl permit
  cases found : (removeClosedAndExpired updateSender.senders now updateSender.ttl).lookup txId
    with
  | none =>
      simpa [UpdateSender.send, found] using cleaned
  | some subscribers =>
      have kept := countP_keptSenders_le channel message subscribers permit
      have identity := permitsHeld_send_of_some channel message found permit
      omega

theorem permitsHeld_modifyD_append (senders : SenderMap Tx) (txId : TxId) (sender : Sender Tx)
    (permit : ℕ) :
    permitsHeld (senders.modifyD txId [] fun subscribers => subscribers ++ [sender]) permit =
      permitsHeld senders permit + if sender.permit = permit then 1 else 0 := by
  have erased := AList.valueSum_erase_add
    (fun subscribers : List (Sender Tx) => subscribers.countP fun sender => sender.permit = permit)
    senders txId
  simp only [permitsHeld, AList.modifyD, AList.valueSum_insert, List.countP_append]
  cases found : senders.lookup txId with
  | none =>
      simp only [found, Option.elim, Option.getD_none] at erased ⊢
      split_ifs
      · simp_all
        omega
      · simp_all
  | some subscribers =>
      simp only [found, Option.elim, Option.getD_some] at erased ⊢
      split_ifs <;> simp_all <;> omega

theorem trySubscribe_permits (updateSender : UpdateSender Tx) (txId : TxId) (tx : Tx)
    (now : ℕ) :
    ((updateSender.trySubscribe txId tx now).1.nextPermit = updateSender.nextPermit ∧
      ∀ permit, permitsHeld (updateSender.trySubscribe txId tx now).1.senders permit ≤
        permitsHeld updateSender.senders permit) ∨
    ((updateSender.trySubscribe txId tx now).1.nextPermit = updateSender.nextPermit + 1 ∧
      ∀ permit, permitsHeld (updateSender.trySubscribe txId tx now).1.senders permit ≤
        permitsHeld updateSender.senders permit +
          if updateSender.nextPermit = permit then 1 else 0) := by
  have cleaned := @permitsHeld_removeClosedAndExpired_le Tx
  simp only [UpdateSender.trySubscribe]
  split_ifs
  · refine .inr ⟨rfl, fun permit => ?_⟩
    rw [permitsHeld_modifyD_append]
    dsimp only
    have first := cleaned updateSender.senders now updateSender.ttl permit
    have second := cleaned (removeClosedAndExpired updateSender.senders now updateSender.ttl) now
      updateSender.ttl permit
    omega
  · exact .inl ⟨rfl, fun permit => cleaned _ _ _ permit⟩

@[simp] theorem ttl_apply (updateSender : UpdateSender Tx) (call : Call Tx) :
    (call.apply channel updateSender).ttl = updateSender.ttl := by
  cases call with
  | send => rfl
  | subscribe txId tx now =>
      simp only [Call.apply, UpdateSender.trySubscribe]
      split_ifs <;> rfl

theorem ttl_run (updateSender : UpdateSender Tx) (calls : List (Call Tx)) :
    (run channel updateSender calls).ttl = updateSender.ttl := by
  induction calls generalizing updateSender with
  | nil => rfl
  | cons call calls induction => exact (induction _).trans (ttl_apply channel updateSender call)

namespace UpdateSender

/-- No permit is held twice, and none the semaphore has not given out yet is held. -/
structure PermitsUnique (updateSender : UpdateSender Tx) : Prop where
  atMostOnce : ∀ permit, permitsHeld updateSender.senders permit ≤ 1
  issued : ∀ permit, updateSender.nextPermit ≤ permit → permitsHeld updateSender.senders permit = 0

/-- The permit was given out and no subscriber holds it. -/
def Released (permit : ℕ) (updateSender : UpdateSender Tx) : Prop :=
  permitsHeld updateSender.senders permit = 0 ∧ permit < updateSender.nextPermit

theorem permitsUnique_new (capacity ttl : ℕ) : (new capacity ttl : UpdateSender Tx).PermitsUnique :=
  ⟨fun _ => by simp [new, permitsHeld], fun _ _ => by simp [new, permitsHeld]⟩

theorem PermitsUnique.apply {updateSender : UpdateSender Tx} (unique : updateSender.PermitsUnique)
    (call : Call Tx) : (call.apply channel updateSender).PermitsUnique := by
  have once := unique.atMostOnce
  have fresh := unique.issued
  cases call with
  | send txId message now =>
      have lower := permitsHeld_send_le channel updateSender txId message now
      constructor
      · intro permit
        exact Nat.le_trans (lower permit) (once permit)
      · intro permit above
        exact Nat.le_zero.mp (Nat.le_trans (lower permit) (Nat.le_of_eq (fresh permit above)))
  | subscribe txId tx now =>
      rcases trySubscribe_permits updateSender txId tx now with ⟨same, lower⟩ | ⟨next, lower⟩
      · constructor
        · intro permit
          exact Nat.le_trans (lower permit) (once permit)
        · intro permit above
          have given : updateSender.nextPermit ≤ permit := by simpa [Call.apply, same] using above
          exact Nat.le_zero.mp (Nat.le_trans (lower permit) (Nat.le_of_eq (fresh permit given)))
      · constructor
        · intro permit
          have bounded := lower permit
          by_cases given : updateSender.nextPermit = permit
          · have unheld := fresh permit (le_of_eq given)
            simp only [Call.apply, given, if_true] at bounded ⊢
            omega
          · have atMost := once permit
            simp only [Call.apply, given, if_false] at bounded ⊢
            omega
        · intro permit above
          have bounded := lower permit
          simp only [Call.apply, next] at above bounded ⊢
          have unheld := fresh permit (by omega)
          have notGiven : updateSender.nextPermit ≠ permit := by omega
          simp only [notGiven, if_false] at bounded
          omega

theorem Released.apply {permit : ℕ} {updateSender : UpdateSender Tx}
    (released : Released permit updateSender) (call : Call Tx) :
    Released permit (call.apply channel updateSender) := by
  obtain ⟨unheld, given⟩ := released
  simp only [Released]
  cases call with
  | send txId message now =>
      have lower := permitsHeld_send_le channel updateSender txId message now permit
      simp only [Call.apply]
      exact ⟨by omega, given⟩
  | subscribe txId tx now =>
      rcases trySubscribe_permits updateSender txId tx now with ⟨same, lower⟩ | ⟨next, lower⟩
      · have bounded := lower permit
        simp only [Call.apply, same]
        exact ⟨by omega, given⟩
      · have bounded := lower permit
        have notGiven : updateSender.nextPermit ≠ permit := by omega
        simp only [notGiven, if_false] at bounded
        simp only [Call.apply, next]
        exact ⟨by omega, by omega⟩

theorem PermitsUnique.run {updateSender : UpdateSender Tx} (unique : updateSender.PermitsUnique)
    (calls : List (Call Tx)) : (FuelCore.TxStatus.run channel updateSender calls).PermitsUnique := by
  induction calls generalizing updateSender with
  | nil => exact unique
  | cons call calls induction => exact induction (unique.apply channel call)

theorem Released.run {permit : ℕ} {updateSender : UpdateSender Tx}
    (released : Released permit updateSender) (calls : List (Call Tx)) :
    Released permit (FuelCore.TxStatus.run channel updateSender calls) := by
  induction calls generalizing updateSender with
  | nil => exact released
  | cons call calls induction => exact induction (released.apply channel call)

theorem PermitsUnique.send_releases {updateSender : UpdateSender Tx}
    (unique : updateSender.PermitsUnique) {txId : TxId} {message : TxStatusMessage} {now : ℕ}
    {subscribers : List (Sender Tx)}
    (found : (removeClosedAndExpired updateSender.senders now updateSender.ttl).lookup txId =
      some subscribers)
    {sender : Sender Tx} (member : sender ∈ subscribers)
    (fails : (sender.trySend channel message).2 = .error .closed) :
    Released sender.permit (updateSender.send channel txId message now) := by
  have identity := permitsHeld_send_of_some channel message found sender.permit
  have dropped := countP_keptSenders_lt channel member fails
  have cleaned := permitsHeld_removeClosedAndExpired_le updateSender.senders now updateSender.ttl
    sender.permit
  have once := unique.atMostOnce sender.permit
  have part := AList.valueSum_erase_add
    (fun subscribers : List (Sender Tx) =>
      subscribers.countP fun other => other.permit = sender.permit)
    (removeClosedAndExpired updateSender.senders now updateSender.ttl) txId
  rw [found] at part
  simp only [Option.elim] at part
  have unheldOnceGiven := unique.issued sender.permit
  unfold Released
  simp only [permitsHeld] at identity cleaned once part unheldOnceGiven ⊢
  refine ⟨by omega, ?_⟩
  show sender.permit < updateSender.nextPermit
  by_contra notGiven
  have unheld := unheldOnceGiven (by omega)
  omega

end UpdateSender

end Permits

/-! ## What a subscriber is sent -/

theorem pushes_map_ok (msgs : List TxStatusMessage) :
    pushes (msgs.map fun msg => (msg, .ok ())) = msgs := by
  induction msgs with
  | nil => rfl
  | cons msg msgs induction =>
      simp only [pushes, List.map_cons, List.filter_cons] at induction ⊢
      simpa [Except.isOk, Except.toBool] using induction

/-- The pushes of one subscriber, over any inputs and any answers of its channel: their
statuses are inputs' statuses in input order; every push but the last is of a message that is
not final; a failure is offered only for a failure among the inputs or after an offer the
full channel refused; and if the channel takes every offer, the inputs up to the first final
one are pushed, one each. A subscriber whose `try_send` fails in `send` releases its permit in
that call, and no later call gives it back. -/
theorem subscriber_pushes_follow_stream_rules :
    (∀ (answers : ℕ → Except SendError Unit) (inputs : List TxStatusMessage) (permit created : ℕ),
      let offered := ((⟨permit, .empty, [], created⟩ :
        Sender (List (TxStatusMessage × Except SendError Unit))).trySendAll
          (recordingChannel answers) inputs).tx
      List.Sublist ((pushes offered).filterMap TxStatusMessage.status?)
          (inputs.filterMap TxStatusMessage.status?) ∧
        (∀ m ∈ (pushes offered).dropLast, m.isFinal = false) ∧
        (∀ pre post sent, offered = pre ++ (.failedStatus, sent) :: post →
          .failedStatus ∈ inputs ∨ ∃ offer ∈ pre, offer.2 = .error .full) ∧
        ((∀ offer ∈ offered, offer.2 = .ok ()) → pushes offered = upToFinal inputs)) ∧
    ∀ {Tx : Type} (channel : SendStatus Tx) (capacity ttl : ℕ) (earlier : List (Call Tx))
      (txId : TxId) (message : TxStatusMessage) (now : ℕ) (subscribers : List (Sender Tx))
      (sender : Sender Tx),
      (removeClosedAndExpired (run channel (UpdateSender.new capacity ttl) earlier).senders now
          ttl).lookup txId = some subscribers →
      sender ∈ subscribers → (sender.trySend channel message).2 = .error .closed →
      ∀ later : List (Call Tx), permitsHeld (run channel
        ((run channel (UpdateSender.new capacity ttl) earlier).send channel txId message now)
          later).senders sender.permit = 0 := by
  refine ⟨fun answers inputs permit created => ?_, ?_⟩
  · have offered := Sender.trySendAll_recording answers inputs
      ⟨permit, .empty, [], created⟩ .ready rfl
    simp only [List.nil_append, List.length_nil] at offered
    dsimp only
    rw [offered]
    refine ⟨?_, Phase.offers_dropLast_not_final answers inputs .ready 0, ?_, ?_⟩
    · exact ((List.filter_sublist).map Prod.fst).filterMap _ |>.trans
        (Phase.offers_statuses_sublist answers inputs .ready 0)
    · intro pre post sent split
      rcases Phase.offers_failedStatus answers inputs .ready 0 pre post sent split with
        input | refused | failing
      · exact .inl input
      · exact .inr refused
      · cases failing
    · intro accepted
      rw [Phase.offers_of_accepted answers inputs 0 accepted, pushes_map_ok]
  · intro Tx channel capacity ttl earlier txId message now subscribers sender found member fails
      later
    have unique := (UpdateSender.permitsUnique_new capacity ttl).run channel earlier
    let before := run channel (UpdateSender.new capacity ttl) earlier
    have kept : before.ttl = ttl := ttl_run channel _ earlier
    have found' : (removeClosedAndExpired before.senders now before.ttl).lookup txId =
        some subscribers := by
      rw [kept]
      exact found
    exact ((unique.send_releases channel found' member fails).run channel later).1

def closedChannel : SendStatus Unit :=
  ⟨fun _ _ => ((), .error .closed)⟩

/-- A channel that takes every offer pushes the inputs up to the final one, and a subscriber
whose channel is closed holds no permit after the next status of its transaction. -/
theorem closed_subscriber_releases_permit :
    let inputs := [.status (.submitted 1), .status (.success 2), .status (.failure 3)]
    let offered := ((⟨0, .empty, [], 0⟩ :
      Sender (List (TxStatusMessage × Except SendError Unit))).trySendAll
        (recordingChannel fun _ => .ok ()) inputs).tx
    (∀ offer ∈ offered, offer.2 = .ok ()) ∧
      pushes offered = [.status (.submitted 1), .status (.success 2)] ∧
      (removeClosedAndExpired (run closedChannel (UpdateSender.new 1 10)
        [.subscribe 7 () 0]).senders 0 10).lookup 7 = some [⟨0, .empty, (), 0⟩] ∧
      ((⟨0, .empty, (), 0⟩ : Sender Unit).trySend closedChannel
        (.status (.submitted 1))).2 = .error .closed ∧
      permitsHeld (run closedChannel ((run closedChannel (UpdateSender.new 1 10)
        [.subscribe 7 () 0]).send closedChannel 7 (.status (.submitted 1)) 0) []).senders 0 = 0 := by
  have accepted : ∀ offer ∈ [(TxStatusMessage.status (.submitted 1), (.ok () : Except SendError Unit)),
      (.status (.success 2), .ok ())], offer.2 = .ok () := by
    simp
  refine ⟨accepted, ?_, rfl, rfl, ?_⟩
  · exact (subscriber_pushes_follow_stream_rules.1 (fun _ => .ok ()) _ 0 0).2.2.2 accepted
  · exact subscriber_pushes_follow_stream_rules.2 closedChannel 1 10 [.subscribe 7 () 0] 7
      (.status (.submitted 1)) 0 [⟨0, .empty, (), 0⟩] ⟨0, .empty, (), 0⟩ rfl
      (List.mem_singleton_self _) rfl []

end FuelCore.TxStatus
