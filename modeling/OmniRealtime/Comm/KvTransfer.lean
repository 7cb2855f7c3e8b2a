import OmniRealtime.Lib.Dict
import OmniRealtime.Lib.System

/-!
# KV page transfers

The sending half of the KV engine in `comm/engine.py`: `send_kv_pages`, the pending transfers and
their watchers, acknowledgements, clean-up and close, in any order. One step is what runs between
two awaits.

`put_kv_pages` awaits nothing, and the one operation of a transfer completes as soon as it is
marked, so a watcher that has been woken ends in the same step. How an await ends (it returns,
raises, times out or is cancelled) is part of the event.

1. `kvStep`, `kvSystem`: the events of the engine.
-/

namespace OmniRealtime

/-! ## The state -/

/-- The future of `_kv_ready`: a refusal and an exception both end the send. -/
inductive ReadyFuture
  | waiting | accepted | failed
  deriving DecidableEq, Repr

/-- `pending.ack`. -/
inductive AckFuture
  | waiting | received | failed
  deriving DecidableEq, Repr

/-- `pending.task`, and whether `_watch_pending` has ended. -/
inductive WatchTask
  | unarmed | watching | over
  deriving DecidableEq, Repr

/-- `_PendingTransfer`, with the object id its watcher knows it by. -/
structure PendingTransfer where
  objectId : String
  ack : AckFuture := .waiting
  task : WatchTask := .unarmed
  lease : Bool
  receiverTerminal : Bool := false
  deriving DecidableEq, Repr

/-- Where `send_kv_pages` waits. -/
inductive SendPhase
  /-- For the prepare message to be sent. -/
  | preparing
  | waitingReady
  /-- For the DataReady message to be sent. -/
  | publishing
  | awaitingAck
  | over
  deriving DecidableEq, Repr

/-- A call of `send_kv_pages`; `lease` is whether its variable still holds the lease given. -/
structure KvSend where
  transferId : String
  requestId : String
  phase : SendPhase := .preparing
  ready : ReadyFuture := .waiting
  given : Bool
  lease : Bool
  deriving DecidableEq, Repr

/-- The engine. A transfer has the number of its send. -/
structure KvTransfers where
  sends : ℕ → Option KvSend := fun _ => none
  transfers : ℕ → Option PendingTransfer := fun _ => none
  kvReady : Dict String ℕ := []
  outboundKvRequests : Dict String String := []
  pending : Dict String ℕ := []
  retainedPendingKvTransfers : List ℕ := []
  closed : Bool := false
  /-- How often the lease of a send was released. -/
  releases : ℕ → ℕ := fun _ => 0
  /-- The transfers whose receiver has reported an outcome. -/
  reported : Finset ℕ := ∅
  /-- `_arm_pending` has failed with an `AssertionError` or a `KeyError`. -/
  bookkeepingError : Bool := false

namespace KvTransfers

def setSend (s : KvTransfers) (i : ℕ) (send : KvSend) : KvTransfers :=
  { s with sends := Function.update s.sends i (some send) }

def setTransfer (s : KvTransfers) (i : ℕ) (transfer : PendingTransfer) : KvTransfers :=
  { s with transfers := Function.update s.transfers i (some transfer) }

/-- `lease.release()`, where there is a lease. -/
def release (s : KvTransfers) (i : ℕ) (lease : Bool) : KvTransfers :=
  { s with releases := Function.update s.releases i (s.releases i + lease.toNat) }

/-! ## Pending transfers -/

/-- `_pending.get`. -/
def pendingOf (s : KvTransfers) (objectId : String) : Option (ℕ × PendingTransfer) :=
  (s.pending.get objectId).bind fun i => (s.transfers i).map fun transfer => (i, transfer)

/-- `_register_pending`: `none` is the `RuntimeError`. -/
def registerPending (s : KvTransfers) (i : ℕ) (objectId : String) (lease : Bool) :
    Option KvTransfers :=
  if objectId ∈ s.pending.keys then none
  else
    some ({ s with pending := s.pending.set objectId i }.setTransfer i
      { objectId := objectId, lease := lease })

/-- `_arm_pending`: `none` is the `KeyError` or the `AssertionError`. -/
def armPending (s : KvTransfers) (objectId : String) : Option KvTransfers :=
  (s.pendingOf objectId).bind fun (i, transfer) =>
    if transfer.task = .unarmed then some (s.setTransfer i { transfer with task := .watching })
    else none

def failPending (s : KvTransfers) (objectId : String) : KvTransfers :=
  match s.pendingOf objectId with
  | none => s
  | some (i, transfer) =>
    let transfer :=
      if transfer.ack = .waiting then { transfer with ack := .failed } else transfer
    let s := s.setTransfer i transfer
    if transfer.task = .unarmed then
      (s.armPending objectId).getD { s with bookkeepingError := true }
    else s

def ackTransfer (s : KvTransfers) (objectId : String) (success : Bool) : KvTransfers :=
  match s.pendingOf objectId with
  | none => s
  | some (i, transfer) =>
    let answer : AckFuture := if success then .received else .failed
    s.setTransfer i
      { transfer with
        receiverTerminal := true
        ack := if transfer.ack = .waiting then answer else transfer.ack }

/-- `_retain_pending_kv_transfer`, and the end of the watcher. -/
def retainPending (s : KvTransfers) (i : ℕ) (transfer : PendingTransfer) : KvTransfers :=
  { s with
    pending := s.pending.pop transfer.objectId
    retainedPendingKvTransfers := s.retainedPendingKvTransfers ++ [i] }.setTransfer i
      { transfer with task := .over }

/-- The `finally` of `_watch_pending`. -/
def releasePending (s : KvTransfers) (i : ℕ) (transfer : PendingTransfer) : KvTransfers :=
  ({ s with pending := s.pending.pop transfer.objectId }.release i transfer.lease).setTransfer i
    { transfer with task := .over }

/-- `_watch_pending` from an exception on: a receiver that may still read keeps the lease. -/
def watchFailed (s : KvTransfers) (i : ℕ) (transfer : PendingTransfer) : KvTransfers :=
  if transfer.receiverTerminal then s.releasePending i transfer else s.retainPending i transfer

/-! ## Sends -/

/-- The `finally` of `send_kv_pages`. -/
def leave (s : KvTransfers) (i : ℕ) (send : KvSend) : KvTransfers :=
  ({ s with
    kvReady := s.kvReady.pop send.transferId
    outboundKvRequests := s.outboundKvRequests.pop send.transferId }.release i send.lease).setSend i
      { send with phase := .over, lease := false }

/-- An answer for the future of `_kv_ready`, unless it has one. -/
def answerReady (s : KvTransfers) (transferId : String) (answer : ReadyFuture) : KvTransfers :=
  match (s.kvReady.get transferId).bind fun i => (s.sends i).map fun send => (i, send) with
  | none => s
  | some (i, send) =>
    if send.ready = .waiting then s.setSend i { send with ready := answer } else s

/-- `send_kv_pages` up to the sending of the prepare message. `rejected` is an unknown pool, bad
page indices or a topology without paged transfers. -/
def start (s : KvTransfers) (i : ℕ) (transferId requestId : String) (given rejected : Bool) :
    KvTransfers :=
  let send : KvSend :=
    { transferId := transferId, requestId := requestId, given := given, lease := given }
  if rejected ∨ transferId ∈ s.kvReady.keys ∨ transferId ∈ s.pending.keys then s.leave i send
  else
    { s with
      kvReady := s.kvReady.set transferId i
      outboundKvRequests := s.outboundKvRequests.set transferId requestId }.setSend i send

/-- `send_kv_pages` from the answer of the receiver up to the sending of the DataReady message. -/
def publish (s : KvTransfers) (i : ℕ) (send : KvSend) : KvTransfers :=
  match s.registerPending i send.transferId send.lease with
  | none => s.leave i send
  | some s => s.setSend i { send with phase := .publishing, lease := false }

/-- The body of the loop over `_outbound_kv_requests` in `cleanup`. -/
def cleanupTransfer (requestId : String) (s : KvTransfers) (entry : String × String) :
    KvTransfers :=
  if entry.2 = requestId then (s.answerReady entry.1 .failed).failPending entry.1 else s

def cleanup (s : KvTransfers) (requestId : String) : KvTransfers :=
  s.outboundKvRequests.foldl (cleanupTransfer requestId) s

/-- `close`, from where it awaits nothing more. -/
def close (s : KvTransfers) : KvTransfers :=
  if s.closed then s
  else
    let s := s.pending.keys.foldl failPending { s with closed := true }
    let s := s.kvReady.keys.foldl (fun s transferId => s.answerReady transferId .failed) s
    { s with kvReady := [], outboundKvRequests := [] }

end KvTransfers

/-! ## Steps -/

inductive KvEvent
  /-- A call of `send_kv_pages`. -/
  | start (i : ℕ) (transferId requestId : String) (lease rejected : Bool)
  /-- The prepare message is sent, or its sending raises. -/
  | prepareSent (i : ℕ) (sent : Bool)
  /-- The receiver's `KVTransferReadyMessage` arrives. -/
  | ready (transferId : String) (success : Bool)
  /-- The send takes up the answer; `put_kv_pages` returns or raises. -/
  | resume (i : ℕ) (put : Bool)
  /-- The wait for the answer times out or is cancelled. -/
  | giveUp (i : ℕ)
  | publishReturned (i : ℕ)
  | publishRaised (i : ℕ)
  /-- The wait for the watcher ends, by its result, its exception or a cancellation. -/
  | sendEnds (i : ℕ)
  /-- The receiver of transfer `i` reports, and its `DataAckMessage` arrives. -/
  | ack (i : ℕ) (success : Bool)
  | watchWakes (i : ℕ)
  | watchTimesOut (i : ℕ)
  | watchCancelled (i : ℕ)
  | cleanup (requestId : String)
  | close
  deriving DecidableEq, Repr

/-- Runs `f` on the send, when it waits in `phase`. -/
def KvTransfers.inPhase (s : KvTransfers) (i : ℕ) (phase : SendPhase)
    (f : KvSend → Option KvTransfers) : Option KvTransfers :=
  (s.sends i).bind fun send => if send.phase = phase then f send else none

/-- Runs `f` on the transfer, when its watcher waits. -/
def KvTransfers.watched (s : KvTransfers) (i : ℕ) (f : PendingTransfer → Option KvTransfers) :
    Option KvTransfers :=
  (s.transfers i).bind fun transfer => if transfer.task = .watching then f transfer else none

def kvStep (s : KvTransfers) : KvEvent → Option KvTransfers
  | .start i transferId requestId lease rejected =>
    if s.sends i = none then some (s.start i transferId requestId lease rejected) else none
  | .prepareSent i sent =>
    s.inPhase i .preparing fun send =>
      if sent then some (s.setSend i { send with phase := .waitingReady })
      else some (s.leave i send)
  | .ready transferId success =>
    some (s.answerReady transferId (if success then .accepted else .failed))
  | .resume i put =>
    s.inPhase i .waitingReady fun send =>
      match send.ready with
      | .waiting => none
      | .failed => some (s.leave i send)
      | .accepted => if put then some (s.publish i send) else some (s.leave i send)
  | .giveUp i => s.inPhase i .waitingReady fun send => some (s.leave i send)
  | .publishReturned i =>
    s.inPhase i .publishing fun send =>
      match s.armPending send.transferId with
      | none => some ({ s with bookkeepingError := true }.leave i send)
      | some s => some (s.setSend i { send with phase := .awaitingAck })
  | .publishRaised i =>
    s.inPhase i .publishing fun send => some ((s.failPending send.transferId).leave i send)
  | .sendEnds i => s.inPhase i .awaitingAck fun send => some (s.leave i send)
  | .ack i success =>
    (s.transfers i).map fun transfer =>
      { s with reported := insert i s.reported }.ackTransfer transfer.objectId success
  | .watchWakes i =>
    s.watched i fun transfer =>
      match transfer.ack with
      | .waiting => none
      | .received => some (s.releasePending i transfer)
      | .failed => some (s.watchFailed i transfer)
  | .watchTimesOut i =>
    s.watched i fun transfer =>
      if transfer.ack = .waiting then some (s.watchFailed i transfer) else none
  | .watchCancelled i => s.watched i fun transfer => some (s.watchFailed i transfer)
  | .cleanup requestId => some (s.cleanup requestId)
  | .close => some s.close

/-- The engine from its start. -/
def kvSystem : System KvTransfers KvEvent := System.ofFun (· = {}) kvStep

end OmniRealtime
