import OmniRealtime.Lib.PyText
import OmniRealtime.Lib.System
import OmniRealtime.Vision.SessionState

/-!
# The video-realtime edge and the session it feeds

`video_realtime.py`: the WebSocket session that turns client messages into numbered events,
run against the session of the scheduler (`MossVLRealtimeSession`) over a FIFO control
plane. The receive loop, the input worker (which waits inside `_reserve_input` and
`update_request`), the response stream that acknowledges processed events, and the
scheduler take steps in any order.

Results:
1. `edgeInv_step`: the invariant that ties the reservations of the edge to the session.
2. `inv_deliver`: an event put on the control plane is accepted by the session.
3. `rejected_unchanged`, `reserve_dropPending`: what a rejected input leaves of the edge.
4. `edge_lockstep`: all three for every reachable state.
5. `rejected_frame_changes_edge`: a refused binary message does change the edge.
-/

namespace OmniRealtime

open List Option Function

/-! ## Client messages -/

/-- `not value.strip()`. -/
def isBlank (s : String) : Bool := s.toList.all pyIsSpace

/-- `VideoFrameMetadata` after parsing. -/
structure VideoFrameMetadata where
  seqNo : Nat
  timestamp : PyFloat
  prompt : Option String
  final : Bool
  deriving DecidableEq

def normalizeOptionalPrompt (prompt : Option String) : Option String :=
  prompt.filter fun p => !isBlank p

/-- `VideoPromptInput`; its prompt is not blank. -/
structure VideoPromptInput where
  seqNo : Nat
  prompt : String
  final : Bool
  not_blank : isBlank prompt = false

/-- A WebSocket message as the receive loop sees it. `invalid` is a JSON object no handler
    accepts, `malformed` is not even a JSON object. -/
inductive ClientMessage
  | malformed
  | invalid
  | oversized
  | abort
  | configure (inputQueueCapacity : Nat) (benchmarkIgnoreEos : Bool)
  | frame (seqNo : Nat) (timestamp : PyFloat) (prompt : Option String) (final : Bool)
  | prompt (input : VideoPromptInput)
  | bytes (payload : ByteArray)

inductive EdgeError
  | malformed
  | invalid
  | frameTooLarge
  | inputQueueFull
  | alreadyConfigured
  | benchmarkMode
  | notConfigured
  | notReady
  | finalReceived
  | framePending
  | expectedSeqNo (expected received : Nat)
  | timestampBackwards
  | sessionClosed
  | alreadyPending (seqNo : Nat)
  | binaryWithoutMetadata
  | frameRefused
  | storeFailed
  | invalidEvent (e : EventError)
  | submissionFailed
  deriving DecidableEq, Repr

/-- How `frame_store.put` ends: a reference, `ValueError`, or another exception. -/
inductive StoreOutcome
  | stored (frameRef : String)
  | refused
  | failed
  deriving DecidableEq, Repr

/-! ## The edge -/

/-- Where the input worker stands: between two messages, inside `_reserve_input`, inside
    `update_request` (with the event on the control plane or not), or about to send the
    accepted reply. -/
inductive InputPhase
  | idle
  | reservingFrame (m : VideoFrameMetadata)
  | reservingPrompt (p : VideoPromptInput)
  | submitting (e : FramePromptEvent) (delivered : Bool)
  | accepting (seqNo : Nat)

/-- The parameters of one `VideoRealtimeSession`. -/
structure EdgeEnv where
  requestId : String
  sessionId : String
  sha256 : ByteArray → String
  allowBenchmarkMode : Bool
  requestId_ne : requestId ≠ ""
  sessionId_ne : sessionId ≠ ""

/-- The state of `VideoRealtimeSession` that its input handlers read and write. -/
structure VideoEdge where
  pendingFrame : Option VideoFrameMetadata := none
  inputQueueCapacity : Nat := 4
  outstandingSeqNos : Finset Nat := ∅
  acceptedBySeq : Nat → Option Bool := fun _ => none
  frameRefsBySeq : Nat → Option String := fun _ => none
  lastTimestamp : PyFloat := .zero
  nextSeqNo : Nat := 0
  configured : Bool := false
  ready : Bool := false
  finalReceived : Bool := false
  closed : Bool := false
  phase : InputPhase := .idle

open VideoEdge

namespace VideoEdge

def validateEventOrder (v : VideoEdge) (seqNo : Nat) (timestamp : PyFloat) : Option EdgeError :=
  if seqNo ≠ v.nextSeqNo then some (.expectedSeqNo v.nextSeqNo seqNo)
  else if timestamp.lt v.lastTimestamp then some .timestampBackwards
  else none

/-- The checks `prepare_frame` and `handle_prompt` share. -/
def checkInput (v : VideoEdge) (seqNo : Nat) (timestamp : PyFloat) : Option EdgeError :=
  if !v.configured then some .notConfigured
  else if !v.ready then some .notReady
  else if v.finalReceived then some .finalReceived
  else if v.pendingFrame.isSome then some .framePending
  else v.validateEventOrder seqNo timestamp

def configure (env : EdgeEnv) (v : VideoEdge) (capacity : Nat) (benchmarkIgnoreEos : Bool) :
    VideoEdge × Option EdgeError :=
  if v.configured then (v, some .alreadyConfigured)
  else if benchmarkIgnoreEos && !env.allowBenchmarkMode then (v, some .benchmarkMode)
  else ({ v with inputQueueCapacity := capacity, configured := true }, none)

/-- `prepare_frame` up to `_reserve_input`. -/
def prepareFrame (v : VideoEdge) (m : VideoFrameMetadata) : VideoEdge × Option EdgeError :=
  match v.checkInput m.seqNo m.timestamp with
  | some e => (v, some e)
  | none => ({ v with phase := .reservingFrame m }, none)

/-- `handle_prompt` up to `_reserve_input`. -/
def handlePrompt (v : VideoEdge) (p : VideoPromptInput) : VideoEdge × Option EdgeError :=
  match v.checkInput p.seqNo v.lastTimestamp with
  | some e => (v, some e)
  | none => ({ v with phase := .reservingPrompt p }, none)

def releaseInput (v : VideoEdge) (seqNo : Nat) : VideoEdge :=
  { v with
    outstandingSeqNos := v.outstandingSeqNos.erase seqNo
    acceptedBySeq := Function.update v.acceptedBySeq seqNo none }

/-- `_reserve_input`; `none` while it waits for capacity. -/
def reserveInput (v : VideoEdge) (seqNo : Nat) : Option (VideoEdge × Option EdgeError) :=
  if v.closed then some (v, some .sessionClosed)
  else if v.outstandingSeqNos.card < v.inputQueueCapacity then
    if seqNo ∈ v.outstandingSeqNos then some (v, some (.alreadyPending seqNo))
    else some ({ v with
      outstandingSeqNos := insert seqNo v.outstandingSeqNos
      acceptedBySeq := Function.update v.acceptedBySeq seqNo (some false) }, none)
  else none

/-- The event of a prompt: its timestamp is that of the last frame. -/
def promptEvent (env : EdgeEnv) (v : VideoEdge) (p : VideoPromptInput) : EventFields where
  requestId := env.requestId
  sessionId := env.sessionId
  seqNo := p.seqNo
  timestamp := v.lastTimestamp
  frameRef := none
  prompt := some p.prompt
  final := p.final

/-- What follows the reservation: a frame waits for its bytes, a prompt is submitted. -/
def afterReserve (env : EdgeEnv) (v : VideoEdge) : VideoEdge × Option EdgeError :=
  match v.phase with
  | .reservingFrame m => ({ v with pendingFrame := some m, phase := .idle }, none)
  | .reservingPrompt p =>
    match FramePromptEvent.make (promptEvent env v p) with
    | .ok e => ({ v with phase := .submitting e false }, none)
    | .error e => ({ v.releaseInput p.seqNo with phase := .idle }, some (.invalidEvent e))
  | _ => (v, none)

/-- The sequence number the worker is reserving. -/
def reservingSeqNo (v : VideoEdge) : Option Nat :=
  match v.phase with
  | .reservingFrame m => some m.seqNo
  | .reservingPrompt p => some p.seqNo
  | _ => none

/-- The worker's wait in `_reserve_input` ends. -/
def reserve (env : EdgeEnv) (v : VideoEdge) : Option (VideoEdge × Option EdgeError) :=
  v.reservingSeqNo.bind fun seqNo =>
    (v.reserveInput seqNo).map fun
      | (v, some e) => ({ v with phase := .idle }, some e)
      | (v, none) => v.afterReserve env

def dropPending (v : VideoEdge) (m : VideoFrameMetadata) : VideoEdge :=
  { v with pendingFrame := none }.releaseInput m.seqNo

def frameEvent (env : EdgeEnv) (m : VideoFrameMetadata) (frameRef : String)
    (payload : ByteArray) : EventFields where
  requestId := env.requestId
  sessionId := env.sessionId
  seqNo := m.seqNo
  timestamp := m.timestamp
  frameRef := some frameRef
  prompt := m.prompt
  final := m.final
  fingerprint := some (env.sha256 payload)

/-- `handle_frame_bytes` up to `update_request`; a failing store ends the session. -/
def handleFrameBytes (env : EdgeEnv) (v : VideoEdge) (payload : ByteArray)
    (outcome : StoreOutcome) : VideoEdge × Option EdgeError :=
  match v.pendingFrame with
  | none => (v, some .binaryWithoutMetadata)
  | some m =>
    match outcome with
    | .refused => (v.dropPending m, some .frameRefused)
    | .failed => ({ v.dropPending m with closed := true }, some .storeFailed)
    | .stored frameRef =>
      match FramePromptEvent.make (frameEvent env m frameRef payload) with
      | .error e => (v.dropPending m, some (.invalidEvent e))
      | .ok e =>
        ({ v with
          pendingFrame := none
          frameRefsBySeq := Function.update v.frameRefsBySeq m.seqNo (some frameRef)
          phase := .submitting e false }, none)

/-- `_process_inputs` on one message, up to the first wait of its handler. -/
def handle (env : EdgeEnv) (v : VideoEdge) (outcome : StoreOutcome) :
    ClientMessage → VideoEdge × Option EdgeError
  | .configure capacity benchmark => v.configure env capacity benchmark
  | .frame seqNo timestamp prompt final =>
    v.prepareFrame ⟨seqNo, timestamp, normalizeOptionalPrompt prompt, final⟩
  | .prompt p => v.handlePrompt p
  | .bytes payload => v.handleFrameBytes env payload outcome
  | .abort => ({ v with closed := true }, none)
  | .invalid | .malformed | .oversized => (v, some .invalid)

/-- `update_request` returned. -/
def submitted (v : VideoEdge) (e : FramePromptEvent) : VideoEdge :=
  { v with
    nextSeqNo := v.nextSeqNo + 1
    finalReceived := e.final
    lastTimestamp := if e.frameRef.isSome then e.timestamp else v.lastTimestamp
    phase := .accepting e.seqNo }

/-- `update_request` raised: the session ends. -/
def submissionFailed (v : VideoEdge) (e : FramePromptEvent) : VideoEdge :=
  { v.releaseInput e.seqNo with
    frameRefsBySeq := Function.update v.frameRefsBySeq e.seqNo none
    phase := .idle
    closed := true }

/-- `_send_accepted`; a failing send leaves the event unset. -/
def sendAccepted (v : VideoEdge) (seqNo : Nat) (sent : Bool) : VideoEdge :=
  { v with
    acceptedBySeq :=
      if sent && (v.acceptedBySeq seqNo).isSome then
        Function.update v.acceptedBySeq seqNo (some true)
      else v.acceptedBySeq
    phase := .idle }

/-- A processed event is acknowledged once its accepted reply was sent. -/
def acknowledge (v : VideoEdge) (seqNo : Nat) : Option VideoEdge :=
  if v.acceptedBySeq seqNo = some false then none
  else some ({ v with
    frameRefsBySeq := Function.update v.frameRefsBySeq seqNo none }.releaseInput seqNo)

/-- `_close_input_queue`, and the teardown of the pending frame. -/
def closeInputQueue (v : VideoEdge) : VideoEdge :=
  { v with
    pendingFrame := none
    acceptedBySeq := fun _ => none
    outstandingSeqNos := ∅ }

end VideoEdge

/-! ## The edge, the control plane and the scheduler -/

/-- `inputs` is the queue of the receive loop, `channel` the control plane to the scheduler,
    `drained` the events taken by the scheduler, `processed` its reports on the way back.
    `unacked` lists the forwarded events that were not acknowledged, `refused` whether the
    session ever refused an event. -/
structure EdgeWorld where
  edge : VideoEdge := {}
  inputs : List ClientMessage := []
  channel : List FramePromptEvent := []
  session : MossVLRealtimeSession
  drained : List Nat := []
  processed : List Nat := []
  unacked : List Nat := []
  refused : Bool := false
  error : Option EdgeError := none

inductive EdgeLabel
  | receive (m : ClientMessage)
  | handle (outcome : StoreOutcome)
  | reserve
  | deliver
  | submitted (ok : Bool)
  | sendAccepted (sent : Bool)
  | sessionReady
  | ingest
  | drain
  | process (seqNo : Nat)
  | acknowledge
  | close
  | closeInputQueue

namespace EdgeWorld

/-- The edge moves, answering with an error frame or not. -/
def moved (w : EdgeWorld) (r : VideoEdge × Option EdgeError) : EdgeWorld :=
  { w with edge := r.1, error := r.2 }

/-- `_receive_inputs` on one message. -/
def receive (w : EdgeWorld) (m : ClientMessage) : Option EdgeWorld :=
  if w.edge.closed then none
  else
    match m with
    | .malformed => some (w.moved (w.edge, some .malformed))
    | .oversized => some (w.moved ({ w.edge with closed := true }, some .frameTooLarge))
    | .abort => some (w.moved ({ w.edge with closed := true }, none))
    | m =>
      if 2 * w.edge.inputQueueCapacity + 2 ≤ w.inputs.length then
        some (w.moved ({ w.edge with closed := true }, some .inputQueueFull))
      else
        some { w with inputs := w.inputs ++ [m], error := none }

/-- The input worker takes the next message. -/
def handle (env : EdgeEnv) (w : EdgeWorld) (outcome : StoreOutcome) : Option EdgeWorld :=
  match w.edge.closed, w.edge.phase, w.inputs with
  | false, .idle, m :: rest =>
    some ({ w with inputs := rest }.moved (w.edge.handle env outcome m))
  | _, _, _ => none

/-- `update_request` puts the event on the control plane. -/
def deliver (w : EdgeWorld) : Option EdgeWorld :=
  match w.edge.phase with
  | .submitting e false =>
    some { w with
      edge := { w.edge with phase := .submitting e true }
      channel := w.channel ++ [e]
      unacked := w.unacked ++ [e.seqNo]
      error := none }
  | _ => none

/-- `update_request` ends; it returns only after the event was put on the control plane. -/
def submitted (w : EdgeWorld) (ok : Bool) : Option EdgeWorld :=
  match w.edge.phase, ok with
  | .submitting e true, true => some (w.moved (w.edge.submitted e, none))
  | .submitting e _, false => some (w.moved (w.edge.submissionFailed e, some .submissionFailed))
  | _, _ => none

def sendAccepted (w : EdgeWorld) (sent : Bool) : Option EdgeWorld :=
  match w.edge.phase with
  | .accepting seqNo => some (w.moved (w.edge.sendAccepted seqNo sent, none))
  | _ => none

/-- The scheduler ingests the next event; a refusal aborts the request. -/
def ingest (w : EdgeWorld) : Option EdgeWorld :=
  match w.channel with
  | [] => none
  | e :: rest =>
    match w.session.ingest e.toDict with
    | .ok session => some { w with channel := rest, session := session, error := none }
    | .error _ => some { w with channel := rest, refused := true, error := none }

def drain (w : EdgeWorld) : EdgeWorld :=
  { w with
    session := w.session.drain.2
    drained := w.drained ++ w.session.drain.1.map (·.seqNo)
    error := none }

/-- The scheduler reports one of the events it took as processed. -/
def process (w : EdgeWorld) (seqNo : Nat) : Option EdgeWorld :=
  if seqNo ∈ w.drained then
    some { w with
      drained := w.drained.erase seqNo
      processed := w.processed ++ [seqNo]
      error := none }
  else none

/-- The response stream handles the next report. -/
def acknowledge (w : EdgeWorld) : Option EdgeWorld :=
  match w.processed with
  | [] => none
  | seqNo :: rest =>
    (w.edge.acknowledge seqNo).map fun edge =>
      { w with
        edge := edge
        processed := rest
        unacked := w.unacked.erase seqNo
        error := none }

def step (env : EdgeEnv) (w : EdgeWorld) : EdgeLabel → Option EdgeWorld
  | .receive m => w.receive m
  | .handle outcome => w.handle env outcome
  | .reserve => (w.edge.reserve env).map w.moved
  | .deliver => w.deliver
  | .submitted ok => w.submitted ok
  | .sendAccepted sent => w.sendAccepted sent
  | .sessionReady => some (w.moved ({ w.edge with ready := true }, none))
  | .ingest => w.ingest
  | .drain => some w.drain
  | .process seqNo => w.process seqNo
  | .acknowledge => w.acknowledge
  | .close => some (w.moved ({ w.edge with closed := true }, none))
  | .closeInputQueue =>
    if w.edge.closed then some (w.moved (w.edge.closeInputQueue, none)) else none

end EdgeWorld

/-- A session opened for the edge's request, before any message. -/
def EdgeWorld.opened (env : EdgeEnv) : EdgeWorld where
  session := { requestId := env.requestId, sessionId := env.sessionId }

abbrev edgeSystem (env : EdgeEnv) : System EdgeWorld EdgeLabel :=
  .ofFun (fun w => w = .opened env) (EdgeWorld.step env)

/-! ## The invariant of the edge -/

namespace VideoEdge

/-- An input that passed the checks of the edge. -/
structure InOrder (v : VideoEdge) (seqNo : Nat) (timestamp : PyFloat) : Prop where
  next : seqNo = v.nextSeqNo
  order : timestamp.lt v.lastTimestamp = false
  open' : v.finalReceived = false
  configured : v.configured = true

theorem InOrder.congr {v v' : VideoEdge} {seqNo : Nat} {timestamp : PyFloat}
    (h : InOrder v seqNo timestamp) (hnext : v'.nextSeqNo = v.nextSeqNo)
    (hlast : v'.lastTimestamp = v.lastTimestamp) (hf : v'.finalReceived = v.finalReceived)
    (hconf : v'.configured = v.configured) : InOrder v' seqNo timestamp where
  next := by rw [hnext, h.next]
  order := by rw [hlast, h.order]
  open' := by rw [hf, h.open']
  configured := by rw [hconf, h.configured]

/-- An event the worker is submitting; its timestamp becomes the last one. -/
structure Submittable (env : EdgeEnv) (v : VideoEdge) (e : FramePromptEvent) : Prop where
  request : e.requestId = env.requestId
  session : e.sessionId = env.sessionId
  inOrder : InOrder v e.seqNo e.timestamp
  last : e.frameRef = none → e.timestamp = v.lastTimestamp
  reserved : v.closed = false → v.acceptedBySeq e.seqNo = some false

/-- The next sequence number is reserved by a pending frame or by the event submitted. -/
def Holding (v : VideoEdge) : Prop := v.pendingFrame ≠ none ∨ ∃ e d, v.phase = .submitting e d

def Delivered (v : VideoEdge) : Prop := ∃ e, v.phase = .submitting e true

/-- The worker can still submit something. -/
def Live (v : VideoEdge) : Prop := v.closed = false ∨ v.phase ≠ .idle

/-- The reservations that are not forwarded yet. -/
def held (v : VideoEdge) : Nat :=
  match v.pendingFrame, v.phase with
  | some _, _ => 1
  | none, .submitting _ false => 1
  | none, _ => 0

structure Ok (env : EdgeEnv) (v : VideoEdge) : Prop where
  keys : ∀ n, v.acceptedBySeq n ≠ none ↔ n ∈ v.outstandingSeqNos
  timestamp : badTimestamp v.lastTimestamp = false
  pending : ∀ m, v.pendingFrame = some m → v.phase = .idle ∧ InOrder v m.seqNo m.timestamp ∧
    (v.closed = false → v.acceptedBySeq m.seqNo = some false)
  reservingFrame : ∀ m, v.phase = .reservingFrame m → InOrder v m.seqNo m.timestamp
  reservingPrompt : ∀ p, v.phase = .reservingPrompt p → InOrder v p.seqNo v.lastTimestamp
  submitting : ∀ e d, v.phase = .submitting e d → Submittable env v e
  /-- Nothing else is reserved beyond what was forwarded. -/
  below : v.closed = false → ∀ n ∈ v.outstandingSeqNos, n < v.nextSeqNo ∨
    n = v.nextSeqNo ∧ Holding v

structure InStep (env : EdgeEnv) (v : VideoEdge) (session : MossVLRealtimeSession) : Prop where
  request : session.requestId = env.requestId
  sessionId : session.sessionId = env.sessionId
  synced : ¬ Delivered v → Live v → session.nextSeqNo = v.nextSeqNo ∧
    session.finalReceived = v.finalReceived ∧
    ∀ last, session.lastTimestamp = some last → last = v.lastTimestamp
  ahead : ∀ e, v.phase = .submitting e true → session.nextSeqNo = v.nextSeqNo + 1 ∧
    session.finalReceived = e.final ∧ session.lastTimestamp = some e.timestamp

/-- A forwarded event has a number below the next one, or the next one while its
    submission has not returned. -/
def Sent (v : VideoEdge) (n : Nat) : Prop :=
  n < v.nextSeqNo ∨ n = v.nextSeqNo ∧ (Delivered v ∨ ¬ Live v)

/-- `v'` differs from `v` in nothing the session depends on. -/
structure Quiet (v v' : VideoEdge) : Prop where
  next : v'.nextSeqNo = v.nextSeqNo
  final : v'.finalReceived = v.finalReceived
  last : v'.lastTimestamp = v.lastTimestamp
  delivered : ∀ e, v'.phase = .submitting e true ↔ v.phase = .submitting e true
  live : Live v' → Live v

theorem InStep.quiet {env : EdgeEnv} {v v' : VideoEdge} {session : MossVLRealtimeSession}
    (h : InStep env v session) (hq : Quiet v v') : InStep env v' session where
  request := h.request
  sessionId := h.sessionId
  synced := by
    intro hnot hl
    rw [hq.next, hq.final, hq.last]
    refine h.synced ?_ (hq.live hl)
    rintro ⟨e, he⟩
    exact hnot ⟨e, (hq.delivered e).mpr he⟩
  ahead := by
    intro e he
    rw [hq.next]
    exact h.ahead e ((hq.delivered e).mp he)

theorem Sent.quiet {v v' : VideoEdge} {n : Nat} (h : Sent v n) (hq : Quiet v v') : Sent v' n := by
  unfold Sent
  rw [hq.next]
  rcases h with h | ⟨h, ⟨e, he⟩ | hdead⟩
  · exact .inl h
  · exact .inr ⟨h, .inl ⟨e, (hq.delivered e).mpr he⟩⟩
  · exact .inr ⟨h, .inr fun hl => hdead (hq.live hl)⟩

end VideoEdge

open VideoEdge

structure EdgeInv (env : EdgeEnv) (w : EdgeWorld) : Prop where
  edge : Ok env w.edge
  not_refused : w.refused = false
  lockstep : ∃ session, w.session.ingestAll w.channel = .ok session ∧ InStep env w.edge session
  nodup : w.unacked.Nodup
  sent : ∀ n ∈ w.unacked, Sent w.edge n
  outstanding : w.edge.closed = false → ∀ n ∈ w.unacked, n ∈ w.edge.outstandingSeqNos
  count : w.unacked.length + w.edge.held ≤ w.edge.inputQueueCapacity
  unconfigured : w.edge.configured = false → w.unacked = []

/-- Beyond the edge nothing changed. -/
structure SameBeyond (w w' : EdgeWorld) : Prop where
  session : w'.session = w.session
  channel : w'.channel = w.channel
  unacked : w'.unacked = w.unacked
  refused : w'.refused = w.refused

variable {env : EdgeEnv} {w w' : EdgeWorld}

theorem EdgeInv.quiet (hinv : EdgeInv env w) (hq : Quiet w.edge w'.edge) (hedge : Ok env w'.edge)
    (hsame : SameBeyond w w')
    (hout : w'.edge.closed = false → ∀ n ∈ w.unacked, n ∈ w'.edge.outstandingSeqNos)
    (hcnt : w.unacked.length + w'.edge.held ≤ w'.edge.inputQueueCapacity)
    (hconf : w'.edge.configured = false → w.unacked = []) : EdgeInv env w' := by
  obtain ⟨hsession, hchannel, hunacked, hrefused⟩ := hsame
  refine ⟨hedge, by rw [hrefused, hinv.not_refused], ?_, ?_, ?_, ?_, ?_, ?_⟩
  · rw [hsession, hchannel]
    obtain ⟨session, hall, hstep⟩ := hinv.lockstep
    exact ⟨session, hall, hstep.quiet hq⟩
  · rw [hunacked]
    exact hinv.nodup
  · rw [hunacked]
    exact fun n hn => (hinv.sent n hn).quiet hq
  · rw [hunacked]
    exact hout
  · rw [hunacked]
    exact hcnt
  · rw [hunacked]
    exact hconf

theorem Quiet.refl (v : VideoEdge) : Quiet v v := ⟨rfl, rfl, rfl, fun _ => Iff.rfl, id⟩

theorem EdgeInv.of_same (hinv : EdgeInv env w) (hedge : w'.edge = w.edge)
    (hsame : SameBeyond w w') : EdgeInv env w' := by
  refine hinv.quiet (hedge ▸ Quiet.refl _) ?_ hsame ?_ ?_ ?_ <;> rw [hedge]
  · exact hinv.edge
  · exact hinv.outstanding
  · exact hinv.count
  · exact hinv.unconfigured

variable {v : VideoEdge}

/-- What the worker is at stays as it is, and what it has reserved too while the edge is open. -/
theorem VideoEdge.Ok.recast {v' : VideoEdge} (h : Ok env v)
    (hsame : v'.phase = v.phase ∧ v'.lastTimestamp = v.lastTimestamp)
    (ho : ∀ n x, InOrder v n x → InOrder v' n x)
    (hpending : ∀ m, v'.pendingFrame = some m → v.pendingFrame = some m)
    (hreserved : v'.closed = false → ∀ n, (v.closed = false → v.acceptedBySeq n = some false) →
      v'.acceptedBySeq n = some false)
    (hkeys : ∀ n, v'.acceptedBySeq n ≠ none ↔ n ∈ v'.outstandingSeqNos)
    (hbelow : v'.closed = false → ∀ n ∈ v'.outstandingSeqNos, n < v'.nextSeqNo ∨
      n = v'.nextSeqNo ∧ Holding v') : Ok env v' := by
  obtain ⟨hph, hlast⟩ := hsame
  refine ⟨hkeys, hlast ▸ h.timestamp, fun m hm => ?_, fun m hm => ?_, fun p hp => ?_,
    fun e d he => ?_, hbelow⟩
  · obtain ⟨hi, hm, ha⟩ := h.pending m (hpending m hm)
    exact ⟨hph.trans hi, ho _ _ hm, fun hopen => hreserved hopen _ ha⟩
  · exact ho _ _ (h.reservingFrame m (hph ▸ hm))
  · exact hlast ▸ ho _ _ (h.reservingPrompt p (hph ▸ hp))
  · have hs := h.submitting e d (hph ▸ he)
    exact ⟨hs.request, hs.session, ho _ _ hs.inOrder, hlast ▸ hs.last,
      fun hopen => hreserved hopen _ hs.reserved⟩

/-- Nothing is pending, and the worker neither waits for capacity nor submits. -/
theorem VideoEdge.Ok.resting (hkeys : ∀ n, v.acceptedBySeq n ≠ none ↔ n ∈ v.outstandingSeqNos)
    (htimestamp : badTimestamp v.lastTimestamp = false) (hpending : v.pendingFrame = none)
    (hph : v.phase = .idle ∨ ∃ n, v.phase = .accepting n)
    (hbelow : v.closed = false → ∀ n ∈ v.outstandingSeqNos, n < v.nextSeqNo ∨
      n = v.nextSeqNo ∧ Holding v) : Ok env v := by
  refine ⟨hkeys, htimestamp, fun m hm => ?_, fun m hm => ?_, fun p hp => ?_, fun e d he => ?_, hbelow⟩
  · cases hpending.symm.trans hm
  · rcases hph with hi | ⟨n, hn⟩ <;> simp_all
  · rcases hph with hi | ⟨n, hn⟩ <;> simp_all
  · rcases hph with hi | ⟨n, hn⟩ <;> simp_all

/-! ## Steps that only close or open something -/

theorem VideoEdge.Ok.close (h : Ok env v) : Ok env { v with closed := true } :=
  h.recast ⟨rfl, rfl⟩ (fun _ _ ho => ho.congr rfl rfl rfl rfl) (fun _ hm => hm) (by rintro ⟨⟩) h.keys
    (by rintro ⟨⟩)

theorem Quiet.close (v : VideoEdge) : Quiet v { v with closed := true } where
  next := rfl
  final := rfl
  last := rfl
  delivered := fun _ => Iff.rfl
  live := by
    rintro (h | h)
    · cases h
    · exact .inr h

theorem EdgeInv.close (hinv : EdgeInv env w) (hedge : w'.edge = { w.edge with closed := true })
    (hsame : SameBeyond w w') : EdgeInv env w' := by
  refine hinv.quiet (hedge ▸ Quiet.close _) ?_ hsame ?_ ?_ ?_ <;> rw [hedge]
  · exact hinv.edge.close
  · simp
  · exact hinv.count
  · exact hinv.unconfigured

theorem inv_sessionReady (hinv : EdgeInv env w) :
    EdgeInv env (w.moved ({ w.edge with ready := true }, none)) := by
  refine hinv.quiet ⟨rfl, rfl, rfl, fun _ => Iff.rfl, id⟩ ?_ ⟨rfl, rfl, rfl, rfl⟩
    hinv.outstanding hinv.count hinv.unconfigured
  have h := hinv.edge
  exact h.recast ⟨rfl, rfl⟩ (fun _ _ ho => ho.congr rfl rfl rfl rfl) (fun _ hm => hm)
    (fun hopen _ ha => ha hopen) h.keys h.below

theorem inv_closeInputQueue (hinv : EdgeInv env w) (hc : w.edge.closed = true) :
    EdgeInv env (w.moved (w.edge.closeInputQueue, none)) := by
  have h := hinv.edge
  refine hinv.quiet ⟨rfl, rfl, rfl, fun _ => Iff.rfl, id⟩ ?_ ⟨rfl, rfl, rfl, rfl⟩ ?_ ?_
    hinv.unconfigured
  · refine h.recast ⟨rfl, rfl⟩ (fun _ _ ho => ho.congr rfl rfl rfl rfl) (by rintro _ ⟨⟩)
      (fun hopen => ?_) (by simp [EdgeWorld.moved, closeInputQueue]) (fun hopen => ?_)
    · exact absurd (hc.symm.trans hopen) (by decide)
    · exact absurd (hc.symm.trans hopen) (by decide)
  · exact fun hopen => absurd (hc.symm.trans hopen) (by decide)
  · refine le_trans (Nat.add_le_add_left ?_ _) hinv.count
    show held w.edge.closeInputQueue ≤ held w.edge
    unfold held closeInputQueue
    cases w.edge.pendingFrame with
    | none => exact le_rfl
    | some m => dsimp only; split <;> decide

/-- Receiving a message queues it, or answers it, or ends the session. -/
theorem receive_cases {m : ClientMessage} (hst : w.receive m = some w') :
    (w'.edge = w.edge ∨ w'.edge = { w.edge with closed := true }) ∧ SameBeyond w w' := by
  unfold EdgeWorld.receive at hst
  split at hst
  next => cases hst
  next =>
    split at hst
    next =>
      cases hst
      exact ⟨.inl rfl, ⟨rfl, rfl, rfl, rfl⟩⟩
    next =>
      cases hst
      exact ⟨.inr rfl, ⟨rfl, rfl, rfl, rfl⟩⟩
    next =>
      cases hst
      exact ⟨.inr rfl, ⟨rfl, rfl, rfl, rfl⟩⟩
    next =>
      split at hst <;> cases hst
      · exact ⟨.inr rfl, ⟨rfl, rfl, rfl, rfl⟩⟩
      · exact ⟨.inl rfl, ⟨rfl, rfl, rfl, rfl⟩⟩

/-! ## Inputs -/

theorem checkInput_none {seqNo : Nat} {timestamp : PyFloat}
    (h : v.checkInput seqNo timestamp = none) :
    InOrder v seqNo timestamp ∧ v.pendingFrame = none := by
  unfold checkInput validateEventOrder at h
  split_ifs at h with hconf hrdy hf hpending hseq hts
  refine ⟨⟨not_not.mp hseq, by simpa using hts, by simpa using hf, by simpa using hconf⟩, ?_⟩
  simpa using hpending

theorem held_of_none (hpending : v.pendingFrame = none)
    (hph : ∀ e, v.phase ≠ .submitting e false) : v.held = 0 := by
  unfold held
  rw [hpending]
  split
  next h => cases h
  next e _ he => exact absurd he (hph e)
  next => rfl

theorem held_le_one (v : VideoEdge) : v.held ≤ 1 := by
  unfold held
  split <;> decide

theorem VideoEdge.Ok.reserving {phase : InputPhase} (h : Ok env v) (hi : v.phase = .idle)
    (hpending : v.pendingFrame = none)
    (hfrm : ∀ m, phase = .reservingFrame m → InOrder v m.seqNo m.timestamp)
    (hprompt : ∀ p, phase = .reservingPrompt p → InOrder v p.seqNo v.lastTimestamp)
    (hsubmit : ∀ e d, phase ≠ .submitting e d) : Ok env { v with phase := phase } where
  keys := h.keys
  timestamp := h.timestamp
  pending := fun m hm => absurd (hpending.symm.trans hm) (by simp)
  reservingFrame := fun m hm => (hfrm m hm).congr rfl rfl rfl rfl
  reservingPrompt := fun p hp => (hprompt p hp).congr rfl rfl rfl rfl
  submitting := fun e d he => absurd he (hsubmit e d)
  below := by
    intro hopen n hn
    rcases h.below hopen n hn with hlt | ⟨-, hpend | ⟨e, d, he⟩⟩
    · exact .inl hlt
    · exact absurd hpending hpend
    · rw [hi] at he
      cases he

theorem inv_reserving {phase : InputPhase} (hinv : EdgeInv env w) (hopen : w.edge.closed = false)
    (hi : w.edge.phase = .idle) (hpending : w.edge.pendingFrame = none)
    (hfrm : ∀ m, phase = .reservingFrame m → InOrder w.edge m.seqNo m.timestamp)
    (hprompt : ∀ p, phase = .reservingPrompt p → InOrder w.edge p.seqNo w.edge.lastTimestamp)
    (hsubmit : ∀ e d, phase ≠ .submitting e d) (hedge : w'.edge = { w.edge with phase := phase })
    (hsame : SameBeyond w w') : EdgeInv env w' := by
  refine hinv.quiet (hedge ▸ ⟨rfl, rfl, rfl, fun e => ?_, fun _ => .inl hopen⟩) ?_ hsame ?_ ?_ ?_
    <;> try rw [hedge]
  · rw [hi]
    exact ⟨fun he => absurd he (hsubmit e true), (by rintro ⟨⟩)⟩
  · exact hinv.edge.reserving hi hpending hfrm hprompt hsubmit
  · exact hinv.outstanding
  · have hh : held { w.edge with phase := phase } = 0 :=
      held_of_none hpending fun e => hsubmit e false
    rw [hh]
    exact le_trans (Nat.le_add_right _ _) hinv.count
  · exact hinv.unconfigured

theorem inv_configure {capacity : Nat} (hinv : EdgeInv env w) (hconf : w.edge.configured = false)
    (hi : w.edge.phase = .idle)
    (hedge : w'.edge = { w.edge with inputQueueCapacity := capacity, configured := true })
    (hsame : SameBeyond w w') : EdgeInv env w' := by
  have h := hinv.edge
  have hpending : w.edge.pendingFrame = none := by
    refine eq_none_iff_forall_ne_some.mpr fun m hm => ?_
    have hconf' := (h.pending m hm).2.1.configured
    rw [hconf] at hconf'
    cases hconf'
  have hnil : w.unacked = [] := hinv.unconfigured hconf
  refine hinv.quiet (hedge ▸ ⟨rfl, rfl, rfl, fun _ => Iff.rfl, id⟩) ?_ hsame ?_ ?_ ?_ <;> rw [hedge]
  · exact .resting h.keys h.timestamp hpending (.inl hi) h.below
  · exact hinv.outstanding
  · have hh : held { w.edge with inputQueueCapacity := capacity, configured := true } = 0 :=
      held_of_none hpending fun e he => absurd (hi.symm.trans he) (by simp)
    rw [hh, hnil]
    exact Nat.zero_le _
  · exact fun _ => hnil

/-! ## Binary frames -/

/-- A number that was forwarded is not the one of a pending frame. -/
theorem sent_lt {n : Nat} (h : Sent v n) (hopen : v.closed = false) (hi : v.phase = .idle) :
    n < v.nextSeqNo := by
  rcases h with h | ⟨-, ⟨e, he⟩ | hdead⟩
  · exact h
  · rw [hi] at he
    cases he
  · exact absurd (.inl hopen) hdead

theorem keys_release (h : ∀ n, v.acceptedBySeq n ≠ none ↔ n ∈ v.outstandingSeqNos) (seqNo n : Nat) :
    (v.releaseInput seqNo).acceptedBySeq n ≠ none ↔
      n ∈ (v.releaseInput seqNo).outstandingSeqNos := by
  unfold releaseInput
  by_cases hn : n = seqNo
  · subst hn
    simp
  · simp [hn, h n]

variable {m : VideoFrameMetadata}

theorem VideoEdge.Ok.dropPending (h : Ok env v) (hm : v.pendingFrame = some m)
    (hopen : v.closed = false) :
    Ok env (v.dropPending m) := by
  obtain ⟨hi, ho, hreserved⟩ := h.pending m hm
  refine .resting (keys_release h.keys m.seqNo) h.timestamp rfl (.inl hi) fun _ n hn => ?_
  obtain ⟨hne, hmem⟩ := Finset.mem_erase.mp hn
  rcases h.below hopen n hmem with hlt | ⟨heq, -⟩
  · exact .inl hlt
  · exact absurd (heq.trans ho.next.symm) hne

section

variable (hinv : EdgeInv env w) (hm : w.edge.pendingFrame = some m) (hopen : w.edge.closed = false)
include hinv hm hopen

theorem inv_dropPending (hedge : w'.edge = w.edge.dropPending m)
    (hsame : SameBeyond w w') : EdgeInv env w' := by
  obtain ⟨hi, ho, -⟩ := hinv.edge.pending m hm
  refine hinv.quiet (hedge ▸ ⟨rfl, rfl, rfl, fun _ => Iff.rfl, id⟩) ?_ hsame ?_ ?_ ?_ <;> rw [hedge]
  · exact hinv.edge.dropPending hm hopen
  · intro _ n hn
    have hlt := sent_lt (hinv.sent n hn) hopen hi
    have hne : n ≠ m.seqNo := by
      rw [ho.next]
      exact hlt.ne
    exact Finset.mem_erase.mpr ⟨hne, hinv.outstanding hopen n hn⟩
  · have hh : held (w.edge.dropPending m) = 0 :=
      held_of_none rfl fun e he => absurd (hi.symm.trans he) (by simp)
    rw [hh]
    exact le_trans (Nat.le_add_right _ _) hinv.count
  · exact hinv.unconfigured

theorem inv_submitFrame {frameRef : String} {payload : ByteArray} {e : FramePromptEvent}
    (he : FramePromptEvent.make (frameEvent env m frameRef payload) = .ok e)
    (hedge : w'.edge = { w.edge with
      pendingFrame := none
      frameRefsBySeq := Function.update w.edge.frameRefsBySeq m.seqNo (some frameRef)
      phase := .submitting e false })
    (hsame : SameBeyond w w') : EdgeInv env w' := by
  have h := hinv.edge
  obtain ⟨hi, ho, hreserved⟩ := h.pending m hm
  have hfields := FramePromptEvent.make_ok he
  refine hinv.quiet (hedge ▸ ⟨rfl, rfl, rfl, fun e' => ?_, fun _ => .inl hopen⟩) ?_ hsame ?_ ?_ ?_
    <;> try rw [hedge]
  · rw [hi]
    constructor <;> rintro ⟨⟩
  · exact {
      keys := h.keys
      timestamp := h.timestamp
      pending := by rintro m' ⟨⟩
      reservingFrame := by rintro m' ⟨⟩
      reservingPrompt := by rintro p ⟨⟩
      submitting := by
        rintro e' d ⟨⟩
        refine ⟨by rw [hfields]; rfl, by rw [hfields]; rfl, ?_, ?_, ?_⟩
        · rw [hfields]
          exact ho.congr rfl rfl rfl rfl
        · intro hnone
          rw [hfields] at hnone
          cases hnone
        · rw [hfields]
          exact hreserved
      below := by
        intro _ n hn
        rcases h.below hopen n hn with hlt | ⟨heq, -⟩
        · exact .inl hlt
        · exact .inr ⟨heq, .inr ⟨e, false, rfl⟩⟩ }
  · exact hinv.outstanding
  · have hcnt := hinv.count
    unfold held at hcnt ⊢
    rw [hm] at hcnt
    exact hcnt
  · exact hinv.unconfigured

end

theorem inv_handle {outcome : StoreOutcome} (hinv : EdgeInv env w)
    (hst : w.handle env outcome = some w') : EdgeInv env w' := by
  unfold EdgeWorld.handle at hst
  split at hst
  next m rest hopen hi _ =>
    cases hst
    cases m with
    | malformed | invalid | oversized => exact hinv.of_same rfl ⟨rfl, rfl, rfl, rfl⟩
    | abort => exact hinv.close rfl ⟨rfl, rfl, rfl, rfl⟩
    | configure capacity benchmark =>
      dsimp only [handle, configure]
      split_ifs with hconf hbench
      · exact hinv.of_same rfl ⟨rfl, rfl, rfl, rfl⟩
      · exact hinv.of_same rfl ⟨rfl, rfl, rfl, rfl⟩
      · exact inv_configure hinv (by simpa using hconf) hi rfl ⟨rfl, rfl, rfl, rfl⟩
    | frame seqNo timestamp prompt final =>
      dsimp only [handle, prepareFrame]
      split
      next => exact hinv.of_same rfl ⟨rfl, rfl, rfl, rfl⟩
      next hcheck =>
        obtain ⟨ho, hpending⟩ := checkInput_none hcheck
        refine inv_reserving hinv hopen hi hpending ?_ ?_ ?_ rfl ⟨rfl, rfl, rfl, rfl⟩
        · rintro m ⟨⟩
          exact ho
        · rintro p ⟨⟩
        · rintro e d ⟨⟩
    | prompt p =>
      dsimp only [handle, handlePrompt]
      split
      next => exact hinv.of_same rfl ⟨rfl, rfl, rfl, rfl⟩
      next hcheck =>
        obtain ⟨ho, hpending⟩ := checkInput_none hcheck
        refine inv_reserving hinv hopen hi hpending ?_ ?_ ?_ rfl ⟨rfl, rfl, rfl, rfl⟩
        · rintro m ⟨⟩
        · rintro p ⟨⟩
          exact ho
        · rintro e d ⟨⟩
    | bytes payload =>
      dsimp only [handle, handleFrameBytes]
      split
      next => exact hinv.of_same rfl ⟨rfl, rfl, rfl, rfl⟩
      next m hm =>
        cases outcome with
        | refused => exact inv_dropPending hinv hm hopen rfl ⟨rfl, rfl, rfl, rfl⟩
        | failed =>
          have hdrop : EdgeInv env { w with edge := w.edge.dropPending m } :=
            inv_dropPending hinv hm hopen rfl ⟨rfl, rfl, rfl, rfl⟩
          exact hdrop.close rfl ⟨rfl, rfl, rfl, rfl⟩
        | stored frameRef =>
          dsimp only
          split
          next => exact inv_dropPending hinv hm hopen rfl ⟨rfl, rfl, rfl, rfl⟩
          next e he => exact inv_submitFrame hinv hm hopen he rfl ⟨rfl, rfl, rfl, rfl⟩
  next => cases hst

/-! ## Reserving -/

/-- The reservation of the next number cannot clash with an earlier one. -/
theorem next_not_mem (h : Ok env v) (hopen : v.closed = false) (hpending : v.pendingFrame = none)
    (hph : ∀ e d, v.phase ≠ .submitting e d) :
    v.nextSeqNo ∉ v.outstandingSeqNos := by
  intro hmem
  rcases h.below hopen _ hmem with hlt | ⟨-, hpend | ⟨e, d, he⟩⟩
  · exact absurd hlt (lt_irrefl _)
  · exact hpend hpending
  · exact hph e d he

/-- A prompt event always passes the checks of `FramePromptEvent`. -/
theorem promptEvent_check (h : Ok env v) (p : VideoPromptInput) :
    (promptEvent env v p).check = none := by
  have hprompt : p.prompt ≠ "" := by
    intro hemp
    have hblank := p.not_blank
    rw [hemp] at hblank
    exact absurd hblank (by decide)
  unfold EventFields.check promptEvent
  simp [env.requestId_ne, env.sessionId_ne, h.timestamp, hprompt]

/-- The state after a successful reservation of `seqNo`. -/
def VideoEdge.withReservation (v : VideoEdge) (seqNo : Nat) : VideoEdge :=
  { v with
    outstandingSeqNos := insert seqNo v.outstandingSeqNos
    acceptedBySeq := Function.update v.acceptedBySeq seqNo (some false) }

theorem afterReserve_frame (hm : v.phase = .reservingFrame m) :
    v.afterReserve env = ({ v with pendingFrame := some m, phase := .idle }, none) := by
  unfold afterReserve
  rw [hm]

theorem afterReserve_prompt {p : VideoPromptInput} (hp : v.phase = .reservingPrompt p)
    (hcheck : (promptEvent env v p).check = none) :
    v.afterReserve env = ({ v with phase := .submitting ⟨_, hcheck⟩ false }, none) := by
  unfold afterReserve
  split
  next h => exact absurd (hp.symm.trans h) (by simp)
  next p' h =>
    cases hp.symm.trans h
    rw [FramePromptEvent.make_of_check hcheck]
  next _ h => exact absurd hp (h p)

/-- How the wait for capacity ends: the session was closed, or the next number is reserved. -/
theorem reserve_cases {r : VideoEdge × Option EdgeError} (h : Ok env v)
    (hr : v.reserve env = some r) :
    v.pendingFrame = none ∧ (
    (v.closed = true ∧ r = ({ v with phase := .idle }, some .sessionClosed)) ∨
    (v.closed = false ∧ v.outstandingSeqNos.card < v.inputQueueCapacity ∧
      v.nextSeqNo ∉ v.outstandingSeqNos ∧
      ((∃ m, v.phase = .reservingFrame m ∧
          r = ({ v.withReservation v.nextSeqNo with pendingFrame := some m, phase := .idle },
            none)) ∨
        ∃ p e, v.phase = .reservingPrompt p ∧ e.toEventFields = promptEvent env v p ∧
          r = ({ v.withReservation v.nextSeqNo with phase := .submitting e false }, none)))) := by
  obtain ⟨seqNo, hseq, hr⟩ := bind_eq_some_iff.mp hr
  obtain ⟨r', hreserve, rfl⟩ := map_eq_some_iff.mp hr
  -- the worker reserves the number that passed the checks
  have hph : seqNo = v.nextSeqNo ∧ v.pendingFrame = none ∧ ∀ e d, v.phase ≠ .submitting e d := by
    have hpending : v.phase ≠ .idle → v.pendingFrame = none := by
      intro hne
      refine eq_none_iff_forall_ne_some.mpr fun m hm => ?_
      exact hne (h.pending m hm).1
    unfold reservingSeqNo at hseq
    split at hseq
    next m hm =>
      cases hseq
      refine ⟨(h.reservingFrame m hm).next, hpending (by rw [hm]; simp), ?_⟩
      intro e d he
      rw [hm] at he
      cases he
    next p hp =>
      cases hseq
      refine ⟨(h.reservingPrompt p hp).next, hpending (by rw [hp]; simp), ?_⟩
      intro e d he
      rw [hp] at he
      cases he
    next => cases hseq
  obtain ⟨rfl, hpending, hsubmit⟩ := hph
  refine ⟨hpending, ?_⟩
  unfold reserveInput at hreserve
  split_ifs at hreserve with hc hcard hmem
  · cases hreserve
    exact .inl ⟨hc, rfl⟩
  · have hopen : v.closed = false := by simpa using hc
    exact absurd hmem (next_not_mem h hopen hpending hsubmit)
  · have hopen : v.closed = false := by simpa using hc
    cases hreserve
    refine .inr ⟨hopen, hcard, hmem, ?_⟩
    unfold reservingSeqNo at hseq
    split at hseq
    next m hm => exact .inl ⟨m, hm, afterReserve_frame (v := v.withReservation v.nextSeqNo) hm⟩
    next p hp =>
      have hcheck := promptEvent_check h p
      exact .inr ⟨p, ⟨_, hcheck⟩, hp, rfl,
        afterReserve_prompt (v := v.withReservation v.nextSeqNo) hp hcheck⟩
    next => cases hseq

theorem keys_withReservation (h : ∀ n, v.acceptedBySeq n ≠ none ↔ n ∈ v.outstandingSeqNos)
    (seqNo n : Nat) :
    (v.withReservation seqNo).acceptedBySeq n ≠ none ↔
      n ∈ (v.withReservation seqNo).outstandingSeqNos := by
  unfold withReservation
  by_cases hn : n = seqNo
  · subst hn
    simp
  · simp [hn, h n]

theorem inv_reserve {r : VideoEdge × Option EdgeError} (hinv : EdgeInv env w)
    (hr : w.edge.reserve env = some r) : EdgeInv env (w.moved r) := by
  have h := hinv.edge
  obtain ⟨hpending, hcase⟩ := reserve_cases h hr
  rcases hcase with ⟨hc, rfl⟩ | ⟨hopen, hcard, hnew, ⟨m, hm, rfl⟩ | ⟨p, e, hp, he, rfl⟩⟩
  · -- the session was closed while the worker waited
    have hnot : ∀ e d, w.edge.phase ≠ .submitting e d := by
      intro e d he
      unfold reserve reservingSeqNo at hr
      rw [he] at hr
      cases hr
    refine hinv.quiet ⟨rfl, rfl, rfl, fun e => ?_, ?_⟩ ?_ ⟨rfl, rfl, rfl, rfl⟩ ?_ ?_
      hinv.unconfigured
    · constructor
      · rintro ⟨⟩
      · exact fun he => absurd he (hnot e true)
    · rintro (hopen | hne)
      · exact absurd (hc.symm.trans hopen) (by decide)
      · exact absurd rfl hne
    · exact .resting h.keys h.timestamp hpending (.inl rfl)
        fun hopen => absurd (hc.symm.trans hopen) (by decide)
    · exact fun hopen => absurd (hc.symm.trans hopen) (by decide)
    · have hh : held { w.edge with phase := .idle } = 0 :=
        held_of_none hpending (by rintro _ ⟨⟩)
      show w.unacked.length + held { w.edge with phase := .idle } ≤ _
      rw [hh]
      exact le_trans (Nat.le_add_right _ _) hinv.count
  all_goals
    have hsub : w.unacked.length ≤ w.edge.outstandingSeqNos.card := by
      rw [← toFinset_card_of_nodup hinv.nodup]
      refine Finset.card_le_card fun n hn => ?_
      exact hinv.outstanding hopen n (List.mem_toFinset.mp hn)
  · have ho := h.reservingFrame m hm
    refine hinv.quiet ⟨rfl, rfl, rfl, fun e => ?_, fun _ => .inl hopen⟩ ?_ ⟨rfl, rfl, rfl, rfl⟩
      ?_ ?_ hinv.unconfigured
    · rw [hm]
      constructor <;> rintro ⟨⟩
    · exact {
        keys := keys_withReservation h.keys _
        timestamp := h.timestamp
        pending := by
          rintro m' ⟨⟩
          refine ⟨rfl, ho.congr rfl rfl rfl rfl, fun _ => ?_⟩
          rw [ho.next]
          exact update_self _ _ _
        reservingFrame := by rintro m' ⟨⟩
        reservingPrompt := by rintro p ⟨⟩
        submitting := by rintro e d ⟨⟩
        below := by
          intro _ n hn
          rcases Finset.mem_insert.mp hn with rfl | hn
          · exact .inr ⟨rfl, .inl (by simp [EdgeWorld.moved])⟩
          · rcases h.below hopen n hn with hlt | ⟨heq, -⟩
            · exact .inl hlt
            · exact absurd (heq ▸ hn) hnew }
    · exact fun _ n hn => Finset.mem_insert_of_mem (hinv.outstanding hopen n hn)
    · refine le_trans (Nat.add_le_add_left (held_le_one _) _) ?_
      exact lt_of_le_of_lt hsub hcard
  · have ho := h.reservingPrompt p hp
    refine hinv.quiet ⟨rfl, rfl, rfl, fun e => ?_, fun _ => .inl hopen⟩ ?_ ⟨rfl, rfl, rfl, rfl⟩
      ?_ ?_ hinv.unconfigured
    · rw [hp]
      constructor <;> rintro ⟨⟩
    · exact {
        keys := keys_withReservation h.keys _
        timestamp := h.timestamp
        pending := fun m hm => absurd (hpending.symm.trans hm) (by simp)
        reservingFrame := by rintro m' ⟨⟩
        reservingPrompt := by rintro p ⟨⟩
        submitting := by
          rintro e' d ⟨⟩
          refine ⟨by rw [he]; rfl, by rw [he]; rfl, ?_, ?_, ?_⟩
          · rw [he]
            exact ho.congr rfl rfl rfl rfl
          · intro _
            rw [he]
            rfl
          · intro _
            rw [he]
            show (w.edge.withReservation w.edge.nextSeqNo).acceptedBySeq p.seqNo = some false
            rw [ho.next]
            exact update_self _ _ _
        below := by
          intro _ n hn
          rcases Finset.mem_insert.mp hn with rfl | hn
          · exact .inr ⟨rfl, .inr ⟨e, false, rfl⟩⟩
          · rcases h.below hopen n hn with hlt | ⟨heq, -⟩
            · exact .inl hlt
            · exact absurd (heq ▸ hn) hnew }
    · exact fun _ n hn => Finset.mem_insert_of_mem (hinv.outstanding hopen n hn)
    · refine le_trans (Nat.add_le_add_left (held_le_one _) _) ?_
      exact lt_of_le_of_lt hsub hcard

/-! ## Submitting -/

theorem pending_none (h : Ok env v) (hne : v.phase ≠ .idle) : v.pendingFrame = none := by
  refine eq_none_iff_forall_ne_some.mpr fun m hm => ?_
  exact hne (h.pending m hm).1

section

variable (hinv : EdgeInv env w) {e : FramePromptEvent}
include hinv

/-- The event goes on the control plane, where the session will accept it. -/
theorem inv_deliver (hst : w.deliver = some w') : EdgeInv env w' := by
  unfold EdgeWorld.deliver at hst
  split at hst
  next e he =>
    cases hst
    have h := hinv.edge
    have hs := h.submitting e false he
    have hpending := pending_none h (by rw [he]; simp)
    have hl : Live w.edge := .inr (by rw [he]; simp)
    have hnot : ¬ Delivered w.edge := by
      rintro ⟨e', he'⟩
      rw [he] at he'
      cases he'
    have hbelow : ∀ n ∈ w.unacked, n < w.edge.nextSeqNo := by
      intro n hn
      rcases hinv.sent n hn with hlt | ⟨-, hd | hdead⟩
      · exact hlt
      · exact absurd hd hnot
      · exact absurd hl hdead
    obtain ⟨session, hall, hstep⟩ := hinv.lockstep
    obtain ⟨hnext, hf, hlast⟩ := hstep.synced hnot hl
    have haccepts : session.Accepts e := {
      request := by rw [hs.request, hstep.request]
      session := by rw [hs.session, hstep.sessionId]
      open' := by rw [hf, hs.inOrder.open']
      next := by rw [hs.inOrder.next, hnext]
      order := by
        intro last hsome
        rw [hlast last hsome]
        exact hs.inOrder.order }
    refine ⟨?_, hinv.not_refused, ⟨session.accepted e, ?_, ?_⟩, ?_, ?_, ?_, ?_, ?_⟩
    · exact {
        keys := h.keys
        timestamp := h.timestamp
        pending := fun m hm => absurd (hpending.symm.trans hm) (by simp)
        reservingFrame := by rintro m ⟨⟩
        reservingPrompt := by rintro p ⟨⟩
        submitting := by
          rintro e' d ⟨⟩
          exact ⟨hs.request, hs.session, hs.inOrder.congr rfl rfl rfl rfl, hs.last, hs.reserved⟩
        below := by
          intro hopen n hn
          rcases h.below hopen n hn with hlt | ⟨heq, -⟩
          · exact .inl hlt
          · exact .inr ⟨heq, .inr ⟨e, true, rfl⟩⟩ }
    · rw [MossVLRealtimeSession.ingestAll_append hall]
      exact MossVLRealtimeSession.accept_of_accepts haccepts
    · refine ⟨hstep.request, hstep.sessionId, fun hnot => absurd ⟨e, rfl⟩ hnot, ?_⟩
      rintro e' ⟨⟩
      exact ⟨congrArg (· + 1) hnext, rfl, rfl⟩
    · refine nodup_append.mpr ⟨hinv.nodup, nodup_singleton _, ?_⟩
      rintro n hn n' hn' rfl
      rw [mem_singleton.mp hn', hs.inOrder.next] at hn
      exact absurd (hbelow _ hn) (lt_irrefl _)
    · intro n hn
      rcases mem_append.mp hn with hn | hn
      · exact .inl (hbelow n hn)
      · rw [mem_singleton.mp hn]
        exact .inr ⟨hs.inOrder.next, .inl ⟨e, rfl⟩⟩
    · intro hopen n hn
      rcases mem_append.mp hn with hn | hn
      · exact hinv.outstanding hopen n hn
      · rw [mem_singleton.mp hn]
        refine (h.keys _).mp ?_
        rw [hs.reserved hopen]
        simp
    · -- the reservation becomes a forwarded event
      have hh : held w.edge = 1 := by
        unfold held
        rw [hpending, he]
      have hh' : held { w.edge with phase := .submitting e true } = 0 :=
        held_of_none hpending (by rintro _ ⟨⟩)
      have hcnt := hinv.count
      rw [hh] at hcnt
      show (w.unacked ++ [e.seqNo]).length + held { w.edge with phase := .submitting e true } ≤ _
      rw [hh', length_append]
      exact hcnt
    · intro hconf
      exact absurd (hconf.symm.trans hs.inOrder.configured) (by decide)
  next => cases hst

theorem inv_submitted_ok (he : w.edge.phase = .submitting e true) :
    EdgeInv env (w.moved (w.edge.submitted e, none)) := by
  have h := hinv.edge
  have hs := h.submitting e true he
  have hpending := pending_none h (by rw [he]; simp)
  have hlast : (w.edge.submitted e).lastTimestamp = e.timestamp := by
    show (if e.frameRef.isSome then e.timestamp else w.edge.lastTimestamp) = e.timestamp
    split
    next => rfl
    next hnone => exact (hs.last (by simpa using hnone)).symm
  obtain ⟨session, hall, hstep⟩ := hinv.lockstep
  obtain ⟨hnext, hf, hts⟩ := hstep.ahead e he
  refine ⟨?_, hinv.not_refused, ⟨session, hall, ?_⟩, hinv.nodup, ?_, hinv.outstanding, ?_,
    hinv.unconfigured⟩
  · refine .resting h.keys ?_ hpending (.inr ⟨_, rfl⟩) fun hopen n hn => ?_
    · show badTimestamp (w.edge.submitted e).lastTimestamp = false
      rw [hlast]
      exact e.timestamp_ok
    · rcases h.below hopen n hn with hlt | ⟨heq, -⟩
      · exact .inl (Nat.lt_succ_of_lt hlt)
      · exact .inl (heq ▸ Nat.lt_succ_self _)
  · refine ⟨hstep.request, hstep.sessionId, fun _ _ => ⟨hnext, hf, ?_⟩, by rintro e' ⟨⟩⟩
    intro last hsome
    show last = (w.edge.submitted e).lastTimestamp
    rw [hlast]
    exact some.inj (hsome.symm.trans hts)
  · intro n hn
    rcases hinv.sent n hn with hlt | ⟨heq, -⟩
    · exact .inl (Nat.lt_succ_of_lt hlt)
    · exact .inl (heq ▸ Nat.lt_succ_self _)
  · have hh : held (w.edge.submitted e) = 0 := held_of_none hpending (by rintro _ ⟨⟩)
    show w.unacked.length + held (w.edge.submitted e) ≤ _
    rw [hh]
    exact le_trans (Nat.le_add_right _ _) hinv.count

theorem inv_submitted_failed {d : Bool} (he : w.edge.phase = .submitting e d) :
    EdgeInv env (w.moved (w.edge.submissionFailed e, some .submissionFailed)) := by
  have h := hinv.edge
  have hpending := pending_none h (by rw [he]; simp)
  have hdead : ¬ Live (w.edge.submissionFailed e) := by
    rintro (hopen | hne)
    · cases hopen
    · exact hne rfl
  obtain ⟨session, hall, hstep⟩ := hinv.lockstep
  refine ⟨?_, hinv.not_refused, ⟨session, hall, ?_⟩, hinv.nodup, ?_, by rintro ⟨⟩, ?_,
    hinv.unconfigured⟩
  · exact .resting (keys_release h.keys e.seqNo) h.timestamp hpending (.inl rfl) (by rintro ⟨⟩)
  · exact ⟨hstep.request, hstep.sessionId, fun _ hl => absurd hl hdead, by rintro e' ⟨⟩⟩
  · intro n hn
    rcases hinv.sent n hn with hlt | ⟨heq, -⟩
    · exact .inl hlt
    · exact .inr ⟨heq, .inr hdead⟩
  · have hh : held (w.edge.submissionFailed e) = 0 :=
      held_of_none hpending (by rintro _ ⟨⟩)
    show w.unacked.length + held (w.edge.submissionFailed e) ≤ _
    rw [hh]
    exact le_trans (Nat.le_add_right _ _) hinv.count

theorem inv_submitted {ok : Bool} (hst : w.submitted ok = some w') : EdgeInv env w' := by
  unfold EdgeWorld.submitted at hst
  split at hst
  next e he =>
    cases hst
    exact inv_submitted_ok hinv he
  next e d he =>
    cases hst
    exact inv_submitted_failed hinv he
  next => cases hst

theorem inv_sendAccepted {sent : Bool} (hst : w.sendAccepted sent = some w') : EdgeInv env w' := by
  unfold EdgeWorld.sendAccepted at hst
  split at hst
  next seqNo hseq =>
    cases hst
    have h := hinv.edge
    have hpending := pending_none h (by rw [hseq]; simp)
    refine hinv.quiet ⟨rfl, rfl, rfl, fun e => ?_, fun _ => .inr (by rw [hseq]; simp)⟩ ?_
      ⟨rfl, rfl, rfl, rfl⟩ hinv.outstanding ?_ hinv.unconfigured
    · rw [hseq]
      constructor <;> rintro ⟨⟩
    · refine .resting (fun n => ?_) h.timestamp hpending (.inl rfl) fun hopen n hn => ?_
      · show (if _ then _ else _ : Nat → Option Bool) n ≠ none ↔ n ∈ w.edge.outstandingSeqNos
        rw [← h.keys n]
        split
        next hsome =>
          rw [Bool.and_eq_true] at hsome
          by_cases hn : n = seqNo
          · subst hn
            rw [update_self]
            simpa [isSome_iff_ne_none] using hsome.2
          · rw [update_of_ne hn]
        next => exact Iff.rfl
      · rcases h.below hopen n hn with hlt | ⟨-, hpend | ⟨e, d, he⟩⟩
        · exact .inl hlt
        · exact absurd hpending hpend
        · rw [hseq] at he
          cases he
    · have hh : held (w.edge.sendAccepted seqNo sent) = 0 :=
        held_of_none hpending (by rintro _ ⟨⟩)
      show w.unacked.length + held (w.edge.sendAccepted seqNo sent) ≤ _
      rw [hh]
      exact le_trans (Nat.le_add_right _ _) hinv.count
  next => cases hst

end

/-! ## The scheduler and its acknowledgements -/

theorem inv_ingest (hinv : EdgeInv env w) (hst : w.ingest = some w') : EdgeInv env w' := by
  obtain ⟨session, hall, hstep⟩ := hinv.lockstep
  unfold EdgeWorld.ingest at hst
  split at hst
  next => cases hst
  next e rest hchannel =>
    rw [hchannel] at hall
    obtain ⟨s', haccept, hrest⟩ := MossVLRealtimeSession.ingestAll_cons hall
    rw [MossVLRealtimeSession.ingest_toDict, haccept] at hst
    cases hst
    exact ⟨hinv.edge, hinv.not_refused, ⟨session, hrest, hstep⟩, hinv.nodup, hinv.sent,
      hinv.outstanding, hinv.count, hinv.unconfigured⟩

theorem inv_drain (hinv : EdgeInv env w) : EdgeInv env w.drain := by
  obtain ⟨session, hall, hstep⟩ := hinv.lockstep
  obtain ⟨pending, hall'⟩ := MossVLRealtimeSession.ingestAll_pendingEvents hall []
  refine ⟨hinv.edge, hinv.not_refused, ⟨_, hall', ?_⟩, hinv.nodup, hinv.sent, hinv.outstanding,
    hinv.count, hinv.unconfigured⟩
  exact ⟨hstep.request, hstep.sessionId, hstep.synced, hstep.ahead⟩

theorem inv_acknowledge (hinv : EdgeInv env w) (hst : w.acknowledge = some w') :
    EdgeInv env w' := by
  unfold EdgeWorld.acknowledge at hst
  split at hst
  next => cases hst
  next seqNo rest hprocessed =>
    obtain ⟨edge, hack, rfl⟩ := map_eq_some_iff.mp hst
    unfold acknowledge at hack
    split_ifs at hack with ha
    cases hack
    have h := hinv.edge
    have hne : ∀ n, w.edge.acceptedBySeq n = some false → n ≠ seqNo := by
      rintro n hn rfl
      exact ha hn
    obtain ⟨session, hall, hstep⟩ := hinv.lockstep
    have hq : Quiet w.edge ({ w.edge with
        frameRefsBySeq := Function.update w.edge.frameRefsBySeq seqNo none }.releaseInput seqNo) :=
      ⟨rfl, rfl, rfl, fun _ => Iff.rfl, id⟩
    refine ⟨?_, hinv.not_refused, ⟨session, hall, hstep.quiet hq⟩, hinv.nodup.erase _, ?_, ?_, ?_, ?_⟩
    · refine h.recast ⟨rfl, rfl⟩ (fun _ _ ho => ho.congr rfl rfl rfl rfl) (fun _ hm => hm)
        (fun hopen n ha => ?_) (keys_release h.keys seqNo)
        (fun hopen n hn => h.below hopen n (Finset.mem_of_mem_erase hn))
      have hn := ha hopen
      exact (update_of_ne (hne n hn) _ _).trans hn
    · exact fun n hn => (hinv.sent n (mem_of_mem_erase hn)).quiet hq
    · intro hopen n hn
      have hmem := (List.Nodup.mem_erase_iff hinv.nodup).mp hn
      exact Finset.mem_erase.mpr ⟨hmem.1, hinv.outstanding hopen n hmem.2⟩
    · refine le_trans (Nat.add_le_add_right ?_ _) hinv.count
      exact length_erase_le
    · intro hconf
      rw [hinv.unconfigured hconf]
      rfl

/-! ## Runs -/

theorem edgeInv_opened (env : EdgeEnv) : EdgeInv env (.opened env) where
  edge := .resting (by simp [EdgeWorld.opened]) rfl rfl (.inl rfl) (by simp [EdgeWorld.opened])
  not_refused := rfl
  lockstep := ⟨_, rfl, rfl, rfl, fun _ _ => ⟨rfl, rfl, by rintro last ⟨⟩⟩, by rintro e ⟨⟩⟩
  nodup := nodup_nil
  sent := by rintro n ⟨⟩
  outstanding := by rintro _ n ⟨⟩
  count := Nat.zero_le _
  unconfigured := fun _ => rfl

theorem edgeInv_step {l : EdgeLabel} (hinv : EdgeInv env w) (hst : w.step env l = some w') :
    EdgeInv env w' := by
  cases l with
  | receive m =>
    obtain ⟨hedge | hedge, hsame⟩ := receive_cases hst
    · exact hinv.of_same hedge hsame
    · exact hinv.close hedge hsame
  | handle outcome => exact inv_handle hinv hst
  | reserve =>
    obtain ⟨r, hr, rfl⟩ := map_eq_some_iff.mp hst
    exact inv_reserve hinv hr
  | deliver => exact inv_deliver hinv hst
  | submitted ok => exact inv_submitted hinv hst
  | sendAccepted sent => exact inv_sendAccepted hinv hst
  | sessionReady =>
    cases hst
    exact inv_sessionReady hinv
  | ingest => exact inv_ingest hinv hst
  | drain =>
    cases hst
    exact inv_drain hinv
  | process seqNo =>
    replace hst : w.process seqNo = some w' := hst
    unfold EdgeWorld.process at hst
    split_ifs at hst
    cases hst
    exact hinv.of_same rfl ⟨rfl, rfl, rfl, rfl⟩
  | acknowledge => exact inv_acknowledge hinv hst
  | close =>
    cases hst
    exact hinv.close rfl ⟨rfl, rfl, rfl, rfl⟩
  | closeInputQueue =>
    replace hst : (if w.edge.closed then _ else none) = some w' := hst
    split_ifs at hst with hc
    cases hst
    exact inv_closeInputQueue hinv hc

theorem edgeInv_of_reachable (h : (edgeSystem env).Reachable w) : EdgeInv env w := by
  refine h.invariant (P := EdgeInv env) ?_ ?_
  · rintro w rfl
    exact edgeInv_opened env
  · intro w l w' hinv hst
    exact edgeInv_step hinv hst

/-! ## Rejected inputs -/

/-- What answering with an error leaves of the edge. -/
def VideoEdge.Rejected (v v' : VideoEdge) : Prop :=
  v'.nextSeqNo = v.nextSeqNo ∧
    (v' = v ∨ v'.closed = true ∨ ∃ m, v.pendingFrame = some m ∧ v' = v.dropPending m)

theorem handle_rejected {outcome : StoreOutcome} {m : ClientMessage} {err : EdgeError}
    (h : (v.handle env outcome m).2 = some err) :
    Rejected v (v.handle env outcome m).1 := by
  cases m with
  | malformed | invalid | oversized => exact ⟨rfl, .inl rfl⟩
  | abort => cases h
  | configure capacity benchmark =>
    unfold handle configure at h ⊢
    dsimp only at h ⊢
    split_ifs at h ⊢
    all_goals exact ⟨rfl, .inl rfl⟩
  | frame seqNo timestamp prompt final =>
    unfold handle prepareFrame at h ⊢
    dsimp only at h ⊢
    split at h
    next => exact ⟨rfl, .inl rfl⟩
    next => cases h
  | prompt p =>
    unfold handle handlePrompt at h ⊢
    dsimp only at h ⊢
    split at h
    next => exact ⟨rfl, .inl rfl⟩
    next => cases h
  | bytes payload =>
    unfold handle handleFrameBytes at h ⊢
    dsimp only at h ⊢
    split at h
    next => exact ⟨rfl, .inl rfl⟩
    next m hm =>
      cases outcome with
      | refused => exact ⟨rfl, .inr (.inr ⟨m, hm, rfl⟩)⟩
      | failed => exact ⟨rfl, .inr (.inl rfl)⟩
      | stored frameRef =>
        dsimp only at h ⊢
        split at h
        next => exact ⟨rfl, .inr (.inr ⟨m, hm, rfl⟩)⟩
        next => cases h

/-- A rejected input takes no number, and changes the edge only by ending the session or by
    withdrawing the metadata of the frame whose bytes were refused. -/
theorem rejected_unchanged {l : EdgeLabel} {err : EdgeError} (hinv : EdgeInv env w)
    (hst : w.step env l = some w') (herr : w'.error = some err) :
    Rejected w.edge w'.edge := by
  cases l with
  | receive m =>
    obtain ⟨hedge | hedge, -⟩ := receive_cases hst
    · rw [hedge]
      exact ⟨rfl, .inl rfl⟩
    · rw [hedge]
      exact ⟨rfl, .inr (.inl rfl)⟩
  | handle outcome =>
    replace hst : w.handle env outcome = some w' := hst
    unfold EdgeWorld.handle at hst
    split at hst
    next =>
      cases hst
      exact handle_rejected herr
    next => cases hst
  | reserve =>
    obtain ⟨r, hr, rfl⟩ := map_eq_some_iff.mp hst
    obtain ⟨-, hcase⟩ := reserve_cases hinv.edge hr
    rcases hcase with ⟨hc, rfl⟩ | ⟨-, -, -, ⟨m, -, rfl⟩ | ⟨p, e, -, -, rfl⟩⟩
    · exact ⟨rfl, .inr (.inl hc)⟩
    · cases herr
    · cases herr
  | deliver =>
    replace hst : w.deliver = some w' := hst
    unfold EdgeWorld.deliver at hst
    split at hst <;> cases hst
    cases herr
  | submitted ok =>
    replace hst : w.submitted ok = some w' := hst
    unfold EdgeWorld.submitted at hst
    split at hst <;> cases hst
    · cases herr
    · exact ⟨rfl, .inr (.inl rfl)⟩
  | sendAccepted sent =>
    replace hst : w.sendAccepted sent = some w' := hst
    unfold EdgeWorld.sendAccepted at hst
    split at hst <;> cases hst
    cases herr
  | ingest =>
    replace hst : w.ingest = some w' := hst
    unfold EdgeWorld.ingest at hst
    split at hst
    next => cases hst
    next => split at hst <;> cases hst <;> cases herr
  | process seqNo =>
    replace hst : w.process seqNo = some w' := hst
    unfold EdgeWorld.process at hst
    split_ifs at hst
    cases hst
    cases herr
  | acknowledge =>
    replace hst : w.acknowledge = some w' := hst
    unfold EdgeWorld.acknowledge at hst
    split at hst
    next => cases hst
    next =>
      obtain ⟨edge, -, rfl⟩ := map_eq_some_iff.mp hst
      cases herr
  | closeInputQueue =>
    replace hst : (if w.edge.closed then _ else none) = some w' := hst
    split_ifs at hst
    cases hst
    cases herr
  | sessionReady | drain | close =>
    cases hst
    cases herr

/-- Withdrawing the metadata of a frame undoes exactly what accepting it did. -/
theorem reserve_dropPending (h : Ok env v) (hm : v.pendingFrame = some m)
    (hopen : v.closed = false) :
    { (v.dropPending m).withReservation m.seqNo with pendingFrame := some m } = v := by
  obtain ⟨-, -, hreserved⟩ := h.pending m hm
  have ha := hreserved hopen
  have hmem : m.seqNo ∈ v.outstandingSeqNos := (h.keys _).mp (by rw [ha]; simp)
  have hout : insert m.seqNo (v.outstandingSeqNos.erase m.seqNo) = v.outstandingSeqNos :=
    Finset.insert_erase hmem
  have hacc : Function.update (Function.update v.acceptedBySeq m.seqNo none) m.seqNo (some false) =
      v.acceptedBySeq := by
    rw [update_idem, ← ha, update_eq_self]
  cases v
  simp only [dropPending, releaseInput, withReservation] at hm hout hacc ⊢
  rw [hout, hacc, hm]

/-! ## Lockstep -/

/-- **The edge and the session stay in lockstep**: no forwarded event was or will be refused,
    the forwarded and unacknowledged events fit the capacity, a rejected input changes no more
    than `rejected_unchanged` says, and withdrawing a frame restores the state before its
    metadata. -/
theorem edge_lockstep (env : EdgeEnv) {w : EdgeWorld} (h : (edgeSystem env).Reachable w) :
    (w.refused = false ∧ ∃ session, w.session.ingestAll w.channel = .ok session) ∧
    w.unacked.length ≤ w.edge.inputQueueCapacity ∧
    (∀ l w' err, w.step env l = some w' → w'.error = some err → Rejected w.edge w'.edge) ∧
    (∀ m, w.edge.pendingFrame = some m → w.edge.closed = false →
      { (w.edge.dropPending m).withReservation m.seqNo with pendingFrame := some m } = w.edge) := by
  have hinv := edgeInv_of_reachable h
  refine ⟨⟨hinv.not_refused, ?_⟩, ?_, ?_, ?_⟩
  · obtain ⟨session, hall, -⟩ := hinv.lockstep
    exact ⟨session, hall⟩
  · exact le_trans (Nat.le_add_right _ _) hinv.count
  · intro l w' err hst herr
    exact rejected_unchanged hinv hst herr
  · intro m hm hopen
    exact reserve_dropPending hinv.edge hm hopen

def exEdgeEnv : EdgeEnv := ⟨"r", "s", fun _ => "", false, by decide, by decide⟩

/-- A frame is announced and its bytes arrive. -/
def exFrame : List EdgeLabel :=
  [.receive (.configure 4 false), .handle .refused, .sessionReady,
    .receive (.frame 0 .zero none false), .handle .refused, .reserve,
    .receive (.bytes ByteArray.empty)]

/-- The frame is stored, forwarded and accepted. -/
def exForward : List EdgeLabel :=
  exFrame ++ [.handle (.stored "f"), .deliver, .submitted true, .sendAccepted true]

theorem edge_lockstep_forwarded : ∃ w, (edgeSystem exEdgeEnv).Reachable w ∧
    w.channel.length = 1 ∧ w.unacked.length ≤ 4 := by
  have hopened : (edgeSystem exEdgeEnv).Reachable (.opened exEdgeEnv) := .init rfl
  have hrun : System.exec (EdgeWorld.step exEdgeEnv) (.opened exEdgeEnv) exForward = some _ := rfl
  have hreach := hopened.of_exec hrun
  exact ⟨_, hreach, rfl, (edge_lockstep exEdgeEnv hreach).2.1⟩

/-- A refused binary message does change the edge: its metadata is gone. -/
theorem rejected_frame_changes_edge : ¬ ∀ (env : EdgeEnv) (w w' : EdgeWorld) (l : EdgeLabel)
    (err : EdgeError), (edgeSystem env).Reachable w → w.step env l = some w' →
      w'.error = some err → w'.edge = w.edge := by
  intro h
  have hopened : (edgeSystem exEdgeEnv).Reachable (.opened exEdgeEnv) := .init rfl
  have hrun : System.exec (EdgeWorld.step exEdgeEnv) (.opened exEdgeEnv) exFrame = some _ := rfl
  have hsame := h exEdgeEnv _ _ (.handle .refused) .frameRefused (hopened.of_exec hrun) rfl rfl
  have hpending := congrArg pendingFrame hsame
  cases hpending

end OmniRealtime
