import OmniRealtime.Lib.Dict
import OmniRealtime.Lib.System
import OmniRealtime.Lib.Tombstones

/-!
# Receiving KV pages

The receiving half of the KV engine in `comm/engine.py`: `prepare_kv_receive`, the tasks that
`_run_rank_control` creates for DataReady messages, clean-up and close, in any order. One step is
what runs between two awaits.

How a call of the relay or of the `KVReceiver` ends is part of the event, and so is the order in
which `cleanup` goes through a set. The calls that a `KVReceiver` has answered are kept in a log,
with the clean-ups; a `commit` that raises is none.

1. `prepareKvReceive`, `cleanup`, `startRead`, `readReturns`, `closeRest`.
2. `receiveStep`, `receiveSystem`: the events of the engine.
-/

namespace OmniRealtime

/-! ## Pools and messages -/

inductive TransportKind
  | localObject | cudaIpc | shm | mooncake
deriving DecidableEq, Repr

structure KvBufferSpec where
  name : String
  bytesPerPage : Int
deriving DecidableEq, Repr

structure KvPoolLayout where
  layoutId : String
  pageSize : Int
  buffers : List KvBufferSpec
deriving DecidableEq, Repr

def KvPoolLayout.compatibleWith (layout other : KvPoolLayout) : Bool :=
  if layout.layoutId ≠ other.layoutId ∨ layout.pageSize ≠ other.pageSize then false
  else if layout.buffers.length ≠ other.buffers.length then false
  else
    (layout.buffers.zip other.buffers).all fun (source, destination) =>
      source.name = destination.name && source.bytesPerPage = destination.bytesPerPage

structure KvBufferRegion where
  name : String
  bytesPerPage : Int
  pageCount : Int
deriving DecidableEq, Repr

structure KvPool where
  layoutId : String
  pageSize : Int
  buffers : List KvBufferRegion
deriving DecidableEq, Repr

def KvPool.layout (pool : KvPool) : KvPoolLayout where
  layoutId := pool.layoutId
  pageSize := pool.pageSize
  buffers := pool.buffers.map fun buffer => ⟨buffer.name, buffer.bytesPerPage⟩

/-- Whether `validate_page_indices` returns; the `min` of no indices raises. -/
def KvPool.validatePageIndices (pool : KvPool) (pageIndices : List Int) : Bool :=
  match pageIndices.min?, pageIndices.max? with
  | some least, some greatest =>
    0 ≤ least && pool.buffers.all fun buffer => greatest < buffer.pageCount
  | _, _ => false

/-- `KVTransferPrepareMessage`. -/
structure KvPrepare where
  requestId : String
  transferId : String
  fromStage : String
  toStage : String
  targetPoolId : String
  sourcePageIndices : List Int
  sourceLayout : KvPoolLayout
deriving DecidableEq, Repr

/-- `KVPageDestination`. -/
structure KvDestination where
  poolId : String
  pageIndices : List Int
deriving DecidableEq, Repr

/-- Why a `KVTransferReadyMessage` is no success. -/
inductive KvRefusal
  | aborted (requestId : String)
  | transport (kind : TransportKind)
  | unknownPool (poolId : String)
  /-- The reservation has raised, or it is not usable. -/
  | reservation
deriving DecidableEq, Repr

/-- A DataReady message with KV pages: its request, and what its data ref says. -/
structure KvNotice where
  requestId : String
  objectId : String
  transport : TransportKind
deriving DecidableEq, Repr

/-- The messages that go back to the source. -/
inductive KvAnswer
  | ready (transferId : String) (outcome : Except KvRefusal KvDestination)
  | ack (requestId objectId : String) (success : Bool)

/-! ## The state -/

/-- `_InboundKVTransfer`; of `abort_error` whether it is set. -/
structure InboundTransfer where
  request : KvPrepare
  destination : KvDestination
  copyStarted : Bool := false
  abortError : Bool := false
deriving DecidableEq, Repr

/-- A task in `_read_kv_pages` that waits for the relay, and the transfer it has looked up. -/
structure KvRead where
  notice : KvNotice
  transfer : ℕ
deriving DecidableEq, Repr

/-- The log: what the reservations with number `n` have come to, and the clean-ups. -/
inductive ReceiverCall
  | reserve (n : ℕ) (requestId : String)
  | commit (n : ℕ) (requestId : String)
  | abort (n : ℕ) (requestId : String)
  | cleanup (requestId : String)
deriving DecidableEq, Repr

inductive ClosePhase
  | «open»
  /-- `close` waits for the control task to end. -/
  | control
  /-- `close` waits for the receive tasks to end. -/
  | reads
  | closed
deriving DecidableEq, Repr

structure KvReceive where
  kvPools : Dict String KvPool := []
  /-- The pools that have a receiver. -/
  kvReceivers : List String := []
  transfers : ℕ → Option InboundTransfer := fun _ => none
  inboundKv : Dict String ℕ := []
  abortedKvRequests : List String := []
  /-- The control task goes on with its loop. -/
  controlRuns : Bool := true
  /-- Receive tasks that have not run yet. -/
  created : List KvNotice := []
  reads : List KvRead := []
  closing : ClosePhase := .«open»
  answers : List KvAnswer := []
  /-- The reservations so far. -/
  reserved : ℕ := 0
  calls : List ReceiverCall := []
  /-- Requests that have left `_aborted_kv_requests` to keep it small. -/
  discarded : List String := []

namespace KvReceive

def answer (s : KvReceive) (message : KvAnswer) : KvReceive :=
  { s with answers := s.answers ++ [message] }

def log (s : KvReceive) (call : ReceiverCall) : KvReceive := { s with calls := s.calls ++ [call] }

def setTransfer (s : KvReceive) (n : ℕ) (transfer : InboundTransfer) : KvReceive :=
  { s with transfers := Function.update s.transfers n (some transfer) }

/-! ## Reservations -/

/-- What the calls of `prepare_kv_receive` to its surroundings come to. -/
structure PrepareReplies where
  transport : TransportKind
  /-- The relay of the transport is there. -/
  relay : Bool
  /-- `reserve`: nothing where it raises. -/
  reservation : Option KvDestination
  /-- `register_kv_pool` and `prepare_kv_destination` return. -/
  registered : Bool

/-- The checks of a reservation in `prepare_kv_receive`. -/
def usable (s : KvReceive) (message : KvPrepare) (destination : KvDestination)
    (registered : Bool) : Bool :=
  if destination.pageIndices.length ≠ message.sourcePageIndices.length then false
  else
    match s.kvPools.get destination.poolId with
    | none => false
    | some pool =>
      pool.validatePageIndices destination.pageIndices &&
        message.sourceLayout.compatibleWith pool.layout && registered

/-- A reservation is made. -/
def reserve (s : KvReceive) (message : KvPrepare) : KvReceive :=
  { s.log (.reserve s.reserved message.requestId) with reserved := s.reserved + 1 }

/-- A reservation is kept for its DataReady message. -/
def install (s : KvReceive) (n : ℕ) (message : KvPrepare) (destination : KvDestination) :
    KvReceive :=
  { s with inboundKv := s.inboundKv.set message.transferId n }.setTransfer n
    { request := message, destination }

/-- `prepare_kv_receive`: nothing where it raises. -/
def prepareKvReceive (s : KvReceive) (message : KvPrepare) (replies : PrepareReplies) :
    Option (KvReceive × Except KvRefusal KvDestination) :=
  if message.transferId ∈ s.inboundKv.keys then none
  else if replies.transport ≠ .cudaIpc then some (s, .error (.transport replies.transport))
  else if !replies.relay then none
  else if message.targetPoolId ∉ s.kvReceivers then
    some (s, .error (.unknownPool message.targetPoolId))
  else
    match replies.reservation with
    | none => some (s, .error .reservation)
    | some destination =>
      if s.usable message destination replies.registered then
        some ((s.reserve message).install s.reserved message destination, .ok destination)
      else
        some ((s.reserve message).log (.abort s.reserved message.requestId), .error .reservation)

/-- `_run_rank_control` for a prepare message; an error ends its loop. -/
def onPrepare (s : KvReceive) (message : KvPrepare) (replies : PrepareReplies) : KvReceive :=
  if message.requestId ∈ s.abortedKvRequests then
    s.answer (.ready message.transferId (.error (.aborted message.requestId)))
  else
    match s.prepareKvReceive message replies with
    | none => { s with controlRuns := false }
    | some (t, outcome) => t.answer (.ready message.transferId outcome)

/-! ## Clean-up -/

/-- The body of the loop over `_inbound_kv` in `cleanup`. -/
def cleanupTransfer (requestId : String) (s : KvReceive) (entry : String × ℕ) : KvReceive :=
  match s.transfers entry.2 with
  | none => s
  | some transfer =>
    if transfer.request.requestId ≠ requestId then s
    else if transfer.copyStarted then s.setTransfer entry.2 { transfer with abortError := true }
    else { s.log (.abort entry.2 requestId) with inboundKv := s.inboundKv.pop entry.1 }

/-- The request is marked in `_aborted_kv_requests`. -/
def mark (s : KvReceive) (requestId : String) (order : List String) : KvReceive :=
  let kept := Tombstones.record 10000 5000 order s.abortedKvRequests requestId
  { s with
    abortedKvRequests := kept
    discarded :=
      s.discarded ++ (s.abortedKvRequests.insert requestId).filter fun id => id ∉ kept }

def cleanup (s : KvReceive) (requestId : String) (order : List String) : KvReceive :=
  (s.inboundKv.foldl (cleanupTransfer requestId) (s.mark requestId order)).log (.cleanup requestId)

/-! ## Reads -/

/-- The end of `_receive_rank_kv`. -/
def ack (s : KvReceive) (notice : KvNotice) (success : Bool) : KvReceive :=
  s.answer (.ack notice.requestId notice.objectId success)

/-- `_receive_rank_kv` after a read that raised. -/
def failed (s : KvReceive) (notice : KvNotice) (order : List String) : KvReceive :=
  (s.cleanup notice.requestId order).ack notice false

/-- `_read_kv_pages` up to the call of the relay. -/
def beginRead (s : KvReceive) (notice : KvNotice) : Option KvReceive :=
  if notice.transport ≠ .cudaIpc then none
  else
    (s.inboundKv.get notice.objectId).bind fun n => (s.transfers n).map fun transfer =>
      let read : KvRead := { notice, transfer := n }
      { s with reads := s.reads ++ [read] }.setTransfer n { transfer with copyStarted := true }

/-- The first step of a receive task. `relay` is whether the relay of the data ref is there. -/
def startRead (s : KvReceive) (k : ℕ) (notice : KvNotice) (relay : Bool) (order : List String) :
    KvReceive :=
  let s := { s with created := s.created.eraseIdx k }
  if notice.requestId ∈ s.abortedKvRequests then s.ack notice false
  else if relay then (s.beginRead notice).getD (s.failed notice order)
  else s.failed notice order

/-- The `finally` of `_read_kv_pages`. -/
def leaveRead (s : KvReceive) (k : ℕ) (read : KvRead) : KvReceive :=
  { s with
    reads := s.reads.eraseIdx k
    inboundKv := s.inboundKv.pop read.notice.objectId }

def readCancelled (s : KvReceive) (k : ℕ) (read : KvRead) (transfer : InboundTransfer) :
    KvReceive :=
  (s.log (.abort read.transfer transfer.request.requestId)).leaveRead k read

def readRaises (s : KvReceive) (k : ℕ) (read : KvRead) (transfer : InboundTransfer)
    (order : List String) : KvReceive :=
  (s.readCancelled k read transfer).failed read.notice order

/-- The copy is complete; `committed` is whether `commit` returns. -/
def readReturns (s : KvReceive) (k : ℕ) (read : KvRead) (transfer : InboundTransfer)
    (committed : Bool) (order : List String) : KvReceive :=
  if transfer.abortError then s.readRaises k read transfer order
  else if committed then
    ((s.log (.commit read.transfer transfer.request.requestId)).leaveRead k read).ack
      read.notice true
  else s.readRaises k read transfer order

/-! ## Close -/

/-- The body of the loop over `_inbound_kv` in `close`. -/
def closeTransfer (s : KvReceive) (entry : String × ℕ) : KvReceive :=
  match s.transfers entry.2 with
  | none => s
  | some transfer => s.log (.abort entry.2 transfer.request.requestId)

/-- `close` once the receive tasks have ended. -/
def closeRest (s : KvReceive) : KvReceive :=
  { s.inboundKv.foldl closeTransfer s with
    inboundKv := []
    abortedKvRequests := []
    closing := .closed }

end KvReceive

/-! ## Steps -/

inductive ReceiveEvent
  | registerPool (poolId : String) (pool : KvPool)
  | registerReceiver (poolId : String)
  | prepare (message : KvPrepare) (replies : KvReceive.PrepareReplies)
  /-- A DataReady message arrives. -/
  | notice (notice : KvNotice)
  | startRead (k : ℕ) (relay : Bool) (order : List String)
  | readReturns (k : ℕ) (committed : Bool) (order : List String)
  | readRaises (k : ℕ) (order : List String)
  | readCancelled (k : ℕ)
  | cleanup (requestId : String) (order : List String)
  | close
  /-- The control task has ended: the receive tasks are cancelled, and those that have not run
      never will. -/
  | closeReads
  | closeRest

/-- Runs `f` on a read that waits. -/
def KvReceive.reading (s : KvReceive) (k : ℕ) (f : KvRead → InboundTransfer → KvReceive) :
    Option KvReceive :=
  s.reads[k]?.bind fun read => (s.transfers read.transfer).map (f read)

def receiveStep (s : KvReceive) : ReceiveEvent → Option KvReceive
  | .registerPool poolId pool => some { s with kvPools := s.kvPools.set poolId pool }
  | .registerReceiver poolId => some { s with kvReceivers := poolId :: s.kvReceivers }
  | .prepare message replies =>
    if s.controlRuns then some (s.onPrepare message replies) else none
  | .notice notice =>
    if s.controlRuns then some { s with created := s.created ++ [notice] } else none
  | .startRead k relay order => s.created[k]?.map fun notice => s.startRead k notice relay order
  | .readReturns k committed order =>
    s.reading k fun read transfer => s.readReturns k read transfer committed order
  | .readRaises k order => s.reading k fun read transfer => s.readRaises k read transfer order
  | .readCancelled k => s.reading k (s.readCancelled k)
  | .cleanup requestId order => some (s.cleanup requestId order)
  | .close =>
    if s.closing = .«open» then some { s with closing := .control, controlRuns := false }
    else some s
  | .closeReads =>
    if s.closing = .control then some { s with closing := .reads, created := [] } else none
  | .closeRest => if s.closing = .reads ∧ s.reads = [] then some s.closeRest else none

/-- The engine from its start. -/
def receiveSystem : System KvReceive ReceiveEvent := System.ofFun (· = {}) receiveStep

end OmniRealtime
