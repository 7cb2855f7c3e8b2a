import OmniRealtime.Lib.Dict
import OmniRealtime.Lib.System
import OmniRealtime.Lib.Tombstones

/-!
# What a stage takes in

`pipeline/stage/runtime.py`, the receiving half of a stage: submissions, `data_ready` messages
with their receive tasks and lanes, traffic from stages of the same process, aborts and failures,
up to the inbox of the scheduler.

A step is one stretch of a coroutine on the event loop, from one await to the next. The await of
a future that is done already does not suspend; here it may, which allows more runs. Runs end
where `stop` begins.

1. `intakeStep`: the stretches, in any order the loop may take them.
-/

namespace OmniRealtime

universe u

/-! ## Messages -/

/-- What the `data_ref` of a message names. -/
inductive RefKind
  | directCudaIpc
  | relayObject
  | kvPages
  deriving DecidableEq, Repr

/-- A `data_ready` message; `object` is what reading its reference gives. -/
structure DataReadyMessage (δ : Type u) where
  requestId : String
  fromStage : String
  chunkId : Option Nat := none
  isDone : Bool := false
  error : Option String := none
  ref : RefKind := .relayObject
  object : δ

inductive Handler
  | streamSignal
  | streamChunk (chunkId : Nat)
  | dataReady
  deriving DecidableEq, Repr

/-- The handler that `_schedule_receive_task` picks. -/
def DataReadyMessage.handler {δ : Type u} (msg : DataReadyMessage δ) : Handler :=
  if msg.isDone = true ∨ msg.error.isSome = true then .streamSignal
  else
    match msg.chunkId with
    | some chunkId => .streamChunk chunkId
    | none => .dataReady

def DataReadyMessage.lane {δ : Type u} (msg : DataReadyMessage δ) : String × String :=
  (msg.requestId, msg.fromStage)

structure StreamItem (δ : Type u) where
  chunkId : Nat
  data : δ
  fromStage : String
  deriving DecidableEq

/-- An item of the scheduler's inbox. The source of a done mark is not part of the message; it is
    kept here to tell the lanes apart. -/
inductive Incoming (δ : Type u)
  | newRequest (requestId : String) (payload : δ)
  | streamChunk (requestId : String) (item : StreamItem δ)
  | streamDone (requestId fromStage : String)
  | requestUpdate (requestId : String) (data : δ)
  deriving DecidableEq

def Incoming.requestId {δ : Type u} : Incoming δ → String
  | .newRequest requestId _ => requestId
  | .streamChunk requestId _ => requestId
  | .streamDone requestId _ => requestId
  | .requestUpdate requestId _ => requestId

/-! ## Input handlers -/

inductive ExpectedSources
  | undecided
  | sources (names : List String)
  | raises

/-- `DirectInput`, or `AggregatedInput` with its configuration. -/
inductive InputHandler (δ : Type u)
  | direct
  | aggregated (sources : Finset String) (merge : Dict String δ → Option δ)
      (expectedSourcesFn : Option (String → String → δ → ExpectedSources))

inductive InputResult (δ : Type u)
  | raises
  | waiting
  | merged (payload : δ)

structure StageConfig (δ : Type u) where
  ownsExternalIo : Bool
  hasStreamQueue : Bool
  canAcceptStreamBeforePayload : Bool
  inputHandler : InputHandler δ

/-! ## The state -/

/-- Where a receive task is. -/
inductive TaskPhase
  | scheduled
  | discarding
  | reading
  /-- `_send_data_ack` is under way; the error of a read that failed. -/
  | acking (error : Option String)
  /-- The handler waits for its predecessor. -/
  | waiting (error : Option String)
  /-- `_send_failure` waits for `send_complete`. -/
  | failing
  /-- The handler is over; the `finally` waits for the predecessor. -/
  | closing
  | done
  deriving DecidableEq, Repr

/-- The error of the read. -/
def TaskPhase.error : TaskPhase → Option String
  | .acking error | .waiting error => error
  | _ => none

structure ReceiveTask (δ : Type u) where
  msg : DataReadyMessage δ
  predecessor : Option Nat
  phase : TaskPhase := .scheduled
  /-- The message has put an item in the scheduler's inbox. -/
  delivered : Bool := false

structure StageIntake (δ : Type u) where
  aborted : List String := []
  activeRequests : Finset String := ∅
  /-- The keys of `_stream_queue._queues`. -/
  streamQueues : Finset String := ∅
  pending : String → Option (Dict String δ) := fun _ => none
  expectedSources : String → Option (Finset String) := fun _ => none
  tasks : List (ReceiveTask δ) := []
  receiveLaneTails : String × String → Option Nat := fun _ => none
  inbox : List (Incoming δ) := []
  schedulerAborts : List String := []
  /-- The requests whose `_send_failure` waits outside a receive task. -/
  failures : List String := []
  /-- A task has crashed: the stage is about to stop. -/
  crashed : Bool := false
  /-- Every id that was recorded as aborted. -/
  recorded : List String := []

namespace StageIntake

variable {δ : Type u}

/-! ## Operations -/

/-- `_record_aborted_request_id`; `order` is how the set iterates. -/
def recordAbortedRequestId (s : StageIntake δ) (order : List String) (requestId : String) :
    StageIntake δ :=
  { s with
    aborted := Tombstones.record 10000 5000 order s.aborted requestId
    recorded := requestId :: s.recorded }

def clearRequestState (s : StageIntake δ) (requestId : String) : StageIntake δ :=
  { s with
    activeRequests := s.activeRequests.erase requestId
    streamQueues := s.streamQueues.erase requestId
    pending := Function.update s.pending requestId none
    expectedSources := Function.update s.expectedSources requestId none }

def activate (s : StageIntake δ) (requestId : String) : StageIntake δ :=
  { s with activeRequests := insert requestId s.activeRequests }

def openStream (s : StageIntake δ) (requestId : String) : StageIntake δ :=
  { s with streamQueues := insert requestId s.streamQueues }

def put (s : StageIntake δ) (item : Incoming δ) : StageIntake δ :=
  { s with inbox := s.inbox ++ [item] }

def abortScheduler (s : StageIntake δ) (requestId : String) : StageIntake δ :=
  { s with schedulerAborts := s.schedulerAborts ++ [requestId] }

/-- `_open_pre_payload_stream_if_allowed`; `none` where it answers false. -/
def openPrePayloadStreamIfAllowed (cfg : StageConfig δ) (s : StageIntake δ) (requestId : String) :
    Option (StageIntake δ) :=
  if cfg.hasStreamQueue = false then none
  else if requestId ∈ s.streamQueues then some s
  else if cfg.canAcceptStreamBeforePayload = false then none
  else some ((s.activate requestId).openStream requestId)

/-- `_send_failure`, up to its await: a follower raises. -/
def sendFailure (cfg : StageConfig δ) (order : List String) (requestId : String)
    (s : StageIntake δ) : StageIntake δ × TaskPhase :=
  let s := s.recordAbortedRequestId order requestId
  if cfg.ownsExternalIo then (s, .failing)
  else ({ s.clearRequestState requestId with crashed := true }, .closing)

def queueStreamError (cfg : StageConfig δ) (order : List String) (requestId : String)
    (s : StageIntake δ) : StageIntake δ × TaskPhase :=
  if requestId ∈ s.aborted then (s, .closing)
  else sendFailure cfg order requestId (s.abortScheduler requestId)

def routeStreamItemOrFail (cfg : StageConfig δ) (order : List String) (requestId : String)
    (item : StreamItem δ) (s : StageIntake δ) : StageIntake δ × TaskPhase :=
  match s.openPrePayloadStreamIfAllowed cfg requestId with
  | some s => (s.put (.streamChunk requestId item), .closing)
  | none => sendFailure cfg order requestId (s.abortScheduler requestId)

/-- `_receive_stream_signal`; an empty error text is no error. -/
def receiveStreamSignal (cfg : StageConfig δ) (order : List String) (requestId fromStage : String)
    (isDone : Bool) (error : Option String) (s : StageIntake δ) : StageIntake δ × TaskPhase :=
  if requestId ∈ s.aborted then (s, .closing)
  else
    let s := s.activate requestId
    if error.any (· ≠ "") then queueStreamError cfg order requestId s
    else if isDone then
      match s.openPrePayloadStreamIfAllowed cfg requestId with
      | some s => (s.put (.streamDone requestId fromStage), .closing)
      | none => sendFailure cfg order requestId (s.abortScheduler requestId)
    else (s, .closing)

/-- `_normalize_expected_sources`; `none` where it raises. -/
def normalizeExpectedSources (sources : Finset String) (names : List String) :
    Option (Finset String) :=
  if names = [] then none
  else if names.toFinset ⊆ sources then some names.toFinset
  else none

def setPending (s : StageIntake δ) (requestId : String) (inputs : Option (Dict String δ)) :
    StageIntake δ :=
  { s with pending := Function.update s.pending requestId inputs }

def setExpectedSources (s : StageIntake δ) (requestId : String) (names : Option (Finset String)) :
    StageIntake δ :=
  { s with expectedSources := Function.update s.expectedSources requestId names }

/-- The sources a request waits for, if they are known; `none` where the resolver or the check of
    its answer raises. -/
def resolveSources (s : StageIntake δ) (requestId fromStage : String) (data : δ)
    (sources : Finset String)
    (expectedSourcesFn : Option (String → String → δ → ExpectedSources)) :
    Option (Option (Finset String)) :=
  match s.expectedSources requestId, expectedSourcesFn with
  | some expected, _ => some (some expected)
  | none, none => some (some sources)
  | none, some resolve =>
    match resolve requestId fromStage data with
    | .undecided => some none
    | .raises => none
    | .sources names => (normalizeExpectedSources sources names).map some

/-- The `receive` of the input handler. -/
def receiveInput (s : StageIntake δ) (requestId fromStage : String) (data : δ) :
    InputHandler δ → StageIntake δ × InputResult δ
  | .direct => (s, .merged data)
  | .aggregated sources merge expectedSourcesFn =>
    if fromStage ∉ sources then (s, .waiting)
    else
      let inputs := ((s.pending requestId).getD []).set fromStage data
      let s := s.setPending requestId (some inputs)
      match s.resolveSources requestId fromStage data sources expectedSourcesFn with
      | none => (s, .raises)
      | some none => (s, .waiting)
      | some (some expected) =>
        let s :=
          if expectedSourcesFn.isSome then s.setExpectedSources requestId (some expected) else s
        if ¬inputs.keys.toFinset ⊆ expected then (s, .raises)
        else if inputs.keys.toFinset = expected then
          let s := (s.setPending requestId none).setExpectedSources requestId none
          match merge inputs with
          | some payload => (s, .merged payload)
          | none => (s, .raises)
        else (s, .waiting)

/-- `_receive_payload_from_stage`; what the input handler raises ends the task. -/
def receivePayloadFromStage (cfg : StageConfig δ) (requestId fromStage : String) (payload : δ)
    (s : StageIntake δ) : StageIntake δ × TaskPhase :=
  if requestId ∈ s.aborted then (s, .closing)
  else
    let s := s.activate requestId
    let s := if cfg.hasStreamQueue then s.openStream requestId else s
    let received := s.receiveInput requestId fromStage payload cfg.inputHandler
    match received.2 with
    | .raises => ({ received.1 with crashed := true }, .closing)
    | .waiting => (received.1, .closing)
    | .merged payload => (received.1.put (.newRequest requestId payload), .closing)

def onSubmit (cfg : StageConfig δ) (s : StageIntake δ) (requestId : String) (payload : δ) :
    StageIntake δ :=
  if requestId ∈ s.aborted then s
  else
    let s := s.activate requestId
    let s := if cfg.hasStreamQueue then s.openStream requestId else s
    s.put (.newRequest requestId payload)

/-- `_on_tp_work`, of a follower. -/
def onTpWork (s : StageIntake δ) (requestId : String) (payload : δ) : StageIntake δ :=
  if requestId ∈ s.aborted then s
  else (s.activate requestId).put (.newRequest requestId payload)

def onRequestUpdate (s : StageIntake δ) (requestId : String) (data : δ) : StageIntake δ :=
  if requestId ∈ s.aborted then s
  else if requestId ∉ s.activeRequests then s
  else s.put (.requestUpdate requestId data)

def onAbort (s : StageIntake δ) (order : List String) (requestId : String) : StageIntake δ :=
  ((s.recordAbortedRequestId order requestId).clearRequestState requestId).abortScheduler requestId

/-! ## Receive tasks -/

/-- `_schedule_receive_task`: the task of the lane's tail is the predecessor. -/
def scheduleReceiveTask (s : StageIntake δ) (msg : DataReadyMessage δ) : StageIntake δ :=
  { s with
    tasks := s.tasks ++ [{ msg := msg, predecessor := s.receiveLaneTails msg.lane }]
    receiveLaneTails := Function.update s.receiveLaneTails msg.lane (some s.tasks.length) }

def setPhase (s : StageIntake δ) (h : Nat) (phase : TaskPhase) : StageIntake δ :=
  { s with tasks := s.tasks.modify h fun task => { task with phase := phase } }

def markDelivered (s : StageIntake δ) (h : Nat) (delivered : Bool) : StageIntake δ :=
  { s with tasks := s.tasks.modify h fun task =>
      { task with delivered := task.delivered || delivered } }

/-- The predecessor's completion is set. -/
def predecessorDone (s : StageIntake δ) (task : ReceiveTask δ) : Bool :=
  task.predecessor.all fun p => (s.tasks[p]?).all fun task => task.phase = .done

/-- A handler from its start to its first await; `error` is that of a direct reference that does
    not deserialize. -/
def beginTask (s : StageIntake δ) (msg : DataReadyMessage δ) (error : Option String) :
    StageIntake δ × TaskPhase :=
  match msg.handler with
  | .streamSignal => (s, .waiting none)
  | .streamChunk _ =>
    if msg.requestId ∈ s.aborted then (s, .discarding)
    else
      let s := s.activate msg.requestId
      if msg.ref = .directCudaIpc then (s, .waiting error) else (s, .reading)
  | .dataReady =>
    if msg.requestId ∈ s.aborted then (s, .discarding)
    else if msg.ref = .directCudaIpc then (s, .waiting error)
    else (s, .reading)

/-- A handler from the end of its wait for the predecessor. -/
def resumeTask (cfg : StageConfig δ) (order : List String) (s : StageIntake δ)
    (msg : DataReadyMessage δ) (error : Option String) : StageIntake δ × TaskPhase :=
  match msg.handler, error with
  | .streamSignal, _ =>
    receiveStreamSignal cfg order msg.requestId msg.fromStage msg.isDone msg.error s
  | .streamChunk _, some _ => queueStreamError cfg order msg.requestId s
  | .streamChunk chunkId, none =>
    if msg.requestId ∈ s.aborted then (s, .closing)
    else routeStreamItemOrFail cfg order msg.requestId ⟨chunkId, msg.object, msg.fromStage⟩ s
  | .dataReady, some _ => sendFailure cfg order msg.requestId s
  | .dataReady, none =>
    if msg.ref = .kvPages then (s, .closing)
    else receivePayloadFromStage cfg msg.requestId msg.fromStage msg.object s

/-- The `finally` of `_run_receive_task`, once the predecessor is complete. -/
def finishTask (s : StageIntake δ) (h : Nat) (task : ReceiveTask δ) : StageIntake δ :=
  let t := s.setPhase h .done
  if s.receiveLaneTails task.msg.lane = some h then
    { t with receiveLaneTails := Function.update t.receiveLaneTails task.msg.lane none }
  else t

end StageIntake

/-! ## Steps -/

inductive IntakeEvent (δ : Type u)
  | submit (requestId : String) (payload : δ)
  | tpWork (requestId : String) (payload : δ)
  | requestUpdate (requestId : String) (data : δ)
  | dataReady (msg : DataReadyMessage δ)
  /-- The handler of a receive task starts. -/
  | started (h : Nat) (error : Option String)
  | discarded (h : Nat)
  | readDone (h : Nat) (error : Option String)
  | acked (h : Nat)
  | resume (h : Nat)
  | failureSent (h : Nat)
  /-- A handler raises: no reference or relay, an ack or a failure that is not sent. -/
  | raises (h : Nat)
  | finish (h : Nat)
  | localPayload (requestId fromStage : String) (payload : δ)
  | localChunk (requestId fromStage : String) (chunkId : Nat) (data : δ)
  | localSignal (requestId fromStage : String) (isDone : Bool) (error : Option String)
  | abort (requestId : String)
  /-- The scheduler reports an error, or has crashed. -/
  | failRequest (requestId : String)
  | localFailureSent (requestId : String)
  /-- `_route_result` is over. -/
  | routed (requestId : String)

/-- An event, and how the set of aborted ids iterates while it is handled. -/
structure IntakeTurn (δ : Type u) where
  event : IntakeEvent δ
  order : List String := []

namespace StageIntake

variable {δ : Type u}

/-- The caller of a local delivery waits in `_send_failure`. -/
def leaveLocal (requestId : String) (result : StageIntake δ × TaskPhase) : StageIntake δ :=
  if result.2 = .failing then { result.1 with failures := requestId :: result.1.failures }
  else result.1

def isAcking : TaskPhase → Bool
  | .acking _ => true
  | _ => false

def isWaiting : TaskPhase → Bool
  | .waiting _ => true
  | _ => false

def taskIn (s : StageIntake δ) (h : Nat) (phases : TaskPhase → Bool) : Option (ReceiveTask δ) :=
  (s.tasks[h]?).filter fun task => phases task.phase

end StageIntake

open StageIntake in
def intakeStep {δ : Type u} (cfg : StageConfig δ) (s : StageIntake δ) (turn : IntakeTurn δ) :
    Option (StageIntake δ) :=
  match turn.event with
  | .submit requestId payload => some (s.onSubmit cfg requestId payload)
  | .tpWork requestId payload => some (s.onTpWork requestId payload)
  | .requestUpdate requestId data => some (s.onRequestUpdate requestId data)
  | .dataReady msg => some (s.scheduleReceiveTask msg)
  | .started h error =>
    (s.taskIn h (· = .scheduled)).map fun task =>
      let begun := s.beginTask task.msg error
      begun.1.setPhase h begun.2
  | .discarded h => (s.taskIn h (· = .discarding)).map fun _ => s.setPhase h .closing
  | .readDone h error => (s.taskIn h (· = .reading)).map fun _ => s.setPhase h (.acking error)
  | .acked h =>
    (s.taskIn h isAcking).map fun task => s.setPhase h (.waiting task.phase.error)
  | .resume h =>
    (s.taskIn h isWaiting).bind fun task =>
      if s.predecessorDone task then
        let resumed := s.resumeTask cfg turn.order task.msg task.phase.error
        some ((resumed.1.setPhase h resumed.2).markDelivered h
          (s.inbox.length < resumed.1.inbox.length))
      else none
  | .failureSent h =>
    (s.taskIn h (· = .failing)).map fun task =>
      (s.clearRequestState task.msg.requestId).setPhase h .closing
  | .raises h =>
    (s.taskIn h fun phase => phase ≠ .closing ∧ phase ≠ .done).map fun _ =>
      { s.setPhase h .closing with crashed := true }
  | .finish h =>
    (s.taskIn h (· = .closing)).bind fun task =>
      if s.predecessorDone task then some (s.finishTask h task) else none
  | .localPayload requestId fromStage payload =>
    some (leaveLocal requestId (receivePayloadFromStage cfg requestId fromStage payload s))
  | .localChunk requestId fromStage chunkId data =>
    if requestId ∈ s.aborted then some s
    else some (leaveLocal requestId (routeStreamItemOrFail cfg turn.order requestId
      ⟨chunkId, data, fromStage⟩ (s.activate requestId)))
  | .localSignal requestId fromStage isDone error =>
    some (leaveLocal requestId
      (receiveStreamSignal cfg turn.order requestId fromStage isDone error s))
  | .abort requestId => some (s.onAbort turn.order requestId)
  | .failRequest requestId => some (leaveLocal requestId (sendFailure cfg turn.order requestId s))
  | .localFailureSent requestId =>
    if requestId ∈ s.failures then
      some { s.clearRequestState requestId with failures := s.failures.erase requestId }
    else none
  | .routed requestId => some (s.clearRequestState requestId)

namespace StageIntake

variable {δ : Type u} {cfg : StageConfig δ} {s t v : StageIntake δ}

theorem taskIn_eq_some {h : Nat} {phases : TaskPhase → Bool} {task : ReceiveTask δ} :
    s.taskIn h phases = some task ↔ s.tasks[h]? = some task ∧ phases task.phase = true := by
  exact Option.filter_eq_some_iff

/-! ## What the body of a handler leaves -/

/-- The aborted ids are recorded ones, and all of them while there are few. -/
structure Remembers (aborted recorded : List String) : Prop where
  nodup : aborted.Nodup
  sub : ∀ requestId ∈ aborted, requestId ∈ recorded
  few : recorded.toFinset.card ≤ 10000 → ∀ requestId ∈ recorded, requestId ∈ aborted

theorem Remembers.recordAborted (hs : Remembers s.aborted s.recorded) (order : List String)
    (requestId : String) : Remembers (s.recordAbortedRequestId order requestId).aborted
      (s.recordAbortedRequestId order requestId).recorded := by
  refine ⟨Tombstones.nodup_record hs.nodup, fun id hid => ?_, fun hfew id hid => ?_⟩
  · rcases Tombstones.mem_of_mem_record hid with rfl | hold
    · exact List.mem_cons_self
    · exact List.mem_cons_of_mem requestId (hs.sub id hold)
  · have hcard : (insert requestId s.recorded.toFinset).card ≤ 10000 := by
      rw [← List.toFinset_cons]
      exact hfew
    have hold := hs.few ((Finset.card_le_card (Finset.subset_insert ..)).trans hcard)
    have hlen : (s.aborted.insert requestId).length ≤ 10000 := by
      have hnd : (s.aborted.insert requestId).Nodup := hs.nodup.insert
      rw [← List.toFinset_card_of_nodup hnd]
      refine (Finset.card_le_card fun a ha => ?_).trans hcard
      rcases List.mem_insert_iff.mp (List.mem_toFinset.mp ha) with rfl | ha
      · exact Finset.mem_insert_self ..
      · exact Finset.mem_insert_of_mem (List.mem_toFinset.mpr (hs.sub a ha))
    refine (Tombstones.mem_record_of_le hlen).mpr ?_
    exact (List.mem_cons.mp hid).imp_right (hold id)

/-- `t` has the receive tasks of `s`, and has forgotten no record. -/
structure Frame (s t : StageIntake δ) : Prop where
  tasks : t.tasks = s.tasks
  tails : t.receiveLaneTails = s.receiveLaneTails
  failures : t.failures = s.failures
  recorded : ∀ requestId ∈ s.recorded, requestId ∈ t.recorded
  remembers : Remembers s.aborted s.recorded → Remembers t.aborted t.recorded

namespace Frame

theorem refl (s : StageIntake δ) : Frame s s := ⟨rfl, rfl, rfl, fun _ h => h, id⟩

theorem trans (h : Frame s t) (h' : Frame t v) : Frame s v :=
  ⟨h'.tasks.trans h.tasks, h'.tails.trans h.tails, h'.failures.trans h.failures,
    fun requestId hr => h'.recorded requestId (h.recorded requestId hr),
    fun hs => h'.remembers (h.remembers hs)⟩

theorem recordAborted (s : StageIntake δ) (order : List String) (requestId : String) :
    Frame s (s.recordAbortedRequestId order requestId) :=
  ⟨rfl, rfl, rfl, fun _ h => List.mem_cons_of_mem requestId h,
    fun hs => hs.recordAborted order requestId⟩

theorem openPrePayload {requestId : String}
    (ho : s.openPrePayloadStreamIfAllowed cfg requestId = some t) : Frame s t := by
  unfold openPrePayloadStreamIfAllowed at ho
  split at ho
  · cases ho
  · split at ho
    · exact Option.some.inj ho ▸ refl s
    · obtain ⟨-, rfl⟩ := of_not_guard ho
      exact ⟨rfl, rfl, rfl, fun _ h => h, id⟩

variable (s) (order : List String) (requestId fromStage : String) (msg : DataReadyMessage δ)

theorem sendFailure : Frame s (s.sendFailure cfg order requestId).1 := by
  dsimp only [StageIntake.sendFailure]
  split
  · exact recordAborted s order requestId
  · exact (recordAborted s order requestId).trans ⟨rfl, rfl, rfl, fun _ h => h, id⟩

theorem abortAndFail :
    Frame s ((s.abortScheduler requestId).sendFailure cfg order requestId).1 := by
  have habt : Frame s (s.abortScheduler requestId) := ⟨rfl, rfl, rfl, fun _ h => h, id⟩
  exact habt.trans (sendFailure _ order requestId)

theorem queueStreamError : Frame s (s.queueStreamError cfg order requestId).1 := by
  unfold StageIntake.queueStreamError
  split
  · exact refl s
  · exact abortAndFail s order requestId

theorem routeStreamItemOrFail (item : StreamItem δ) :
    Frame s (s.routeStreamItemOrFail cfg order requestId item).1 := by
  unfold StageIntake.routeStreamItemOrFail
  split
  · next ho => exact (openPrePayload ho).trans ⟨rfl, rfl, rfl, fun _ h => h, id⟩
  · exact abortAndFail s order requestId

theorem receiveStreamSignal (isDone : Bool) (error : Option String) :
    Frame s (s.receiveStreamSignal cfg order requestId fromStage isDone error).1 := by
  have hact : Frame s (s.activate requestId) := ⟨rfl, rfl, rfl, fun _ h => h, id⟩
  unfold StageIntake.receiveStreamSignal
  split
  · exact refl s
  · dsimp only
    split
    · exact hact.trans (queueStreamError _ order requestId)
    · split
      · split
        · next ho =>
          exact hact.trans ((openPrePayload ho).trans ⟨rfl, rfl, rfl, fun _ h => h, id⟩)
        · exact hact.trans (abortAndFail _ order requestId)
      · exact hact

theorem receiveInput (data : δ) (handler : InputHandler δ) :
    Frame s (s.receiveInput requestId fromStage data handler).1 := by
  unfold StageIntake.receiveInput
  split
  · exact refl s
  · next sources merge resolve =>
    split
    · exact refl s
    · dsimp only
      have hpnd : Frame s (s.setPending requestId
        (some (((s.pending requestId).getD []).set fromStage data))) := ⟨rfl, rfl, rfl, fun _ h => h, id⟩
      generalize s.setPending requestId _ = waiting at hpnd
      split
      · exact hpnd
      · exact hpnd
      · next expected _ =>
        have hexpected : Frame s (if resolve.isSome = true then
            waiting.setExpectedSources requestId (some expected) else waiting) := by
          split
          · exact hpnd.trans ⟨rfl, rfl, rfl, fun _ h => h, id⟩
          · exact hpnd
        generalize (if resolve.isSome = true then
            waiting.setExpectedSources requestId (some expected) else waiting) = known at hexpected
        have hclr : Frame s ((known.setPending requestId none).setExpectedSources requestId none) :=
          hexpected.trans ⟨rfl, rfl, rfl, fun _ h => h, id⟩
        split
        · exact hexpected
        · split
          · split
            · exact hclr
            · exact hclr
          · exact hexpected

theorem receivePayloadFromStage (payload : δ) :
    Frame s (s.receivePayloadFromStage cfg requestId fromStage payload).1 := by
  unfold StageIntake.receivePayloadFromStage
  split
  · exact refl s
  · dsimp only
    have ho : Frame s (if cfg.hasStreamQueue = true then
        (s.activate requestId).openStream requestId else s.activate requestId) := by
      split <;> exact ⟨rfl, rfl, rfl, fun _ h => h, id⟩
    have hreceived := ho.trans (receiveInput _ requestId fromStage payload cfg.inputHandler)
    split
    · exact hreceived.trans ⟨rfl, rfl, rfl, fun _ h => h, id⟩
    · exact hreceived
    · exact hreceived.trans ⟨rfl, rfl, rfl, fun _ h => h, id⟩

theorem beginTask (error : Option String) : Frame s (s.beginTask msg error).1 := by
  unfold StageIntake.beginTask
  split
  · exact refl s
  · split
    · exact refl s
    · dsimp only
      split <;> exact ⟨rfl, rfl, rfl, fun _ h => h, id⟩
  · split
    · exact refl s
    · split <;> exact refl s

theorem resumeTask (error : Option String) : Frame s (s.resumeTask cfg order msg error).1 := by
  unfold StageIntake.resumeTask
  split
  · exact receiveStreamSignal s order _ _ _ _
  · exact queueStreamError s order _
  · split
    · exact refl s
    · exact routeStreamItemOrFail s order _ _
  · exact sendFailure s order _
  · split
    · exact refl s
    · exact receivePayloadFromStage s _ _ _

end Frame

/-! ## Failures -/

section Failing

variable {order : List String} {requestId : String} {fromStage : String}

theorem recorded_of_sendFailure : requestId ∈ (s.sendFailure cfg order requestId).1.recorded := by
  dsimp only [sendFailure]
  split <;> exact List.mem_cons_self

/-- Who waits in `_send_failure` has recorded its request. -/
theorem recorded_of_queueStreamError
    (hf : (s.queueStreamError cfg order requestId).2 = .failing) :
    requestId ∈ (s.queueStreamError cfg order requestId).1.recorded := by
  unfold queueStreamError at hf ⊢
  split at hf
  · cases hf
  · next ho =>
    rw [if_neg ho]
    exact recorded_of_sendFailure

theorem recorded_of_routeStreamItemOrFail {item : StreamItem δ}
    (hf : (s.routeStreamItemOrFail cfg order requestId item).2 = .failing) :
    requestId ∈ (s.routeStreamItemOrFail cfg order requestId item).1.recorded := by
  unfold routeStreamItemOrFail at hf ⊢
  split at hf
  · cases hf
  · exact recorded_of_sendFailure

theorem recorded_of_receiveStreamSignal {isDone : Bool} {error : Option String}
    (hf : (s.receiveStreamSignal cfg order requestId fromStage isDone error).2 = .failing) :
    requestId ∈ (s.receiveStreamSignal cfg order requestId fromStage isDone error).1.recorded := by
  unfold receiveStreamSignal at hf ⊢
  split at hf
  · cases hf
  · next ho =>
    rw [if_neg ho]
    dsimp only at hf ⊢
    split at hf
    · next herror =>
      rw [if_pos herror]
      exact recorded_of_queueStreamError hf
    · next herror =>
      rw [if_neg herror]
      split at hf
      · next hdone =>
        rw [if_pos hdone]
        split at hf
        · cases hf
        · exact recorded_of_sendFailure
      · cases hf

theorem receivePayloadFromStage_ne_failing {payload : δ} :
    (s.receivePayloadFromStage cfg requestId fromStage payload).2 ≠ .failing := by
  unfold receivePayloadFromStage
  split
  · exact TaskPhase.noConfusion
  · dsimp only
    split <;> exact TaskPhase.noConfusion

theorem beginTask_ne_failing (s : StageIntake δ) (msg : DataReadyMessage δ)
    (error : Option String) : (s.beginTask msg error).2 ≠ .failing := by
  unfold beginTask
  split
  · exact TaskPhase.noConfusion
  · split
    · exact TaskPhase.noConfusion
    · dsimp only
      split <;> exact TaskPhase.noConfusion
  · split
    · exact TaskPhase.noConfusion
    · split <;> exact TaskPhase.noConfusion

theorem recorded_of_resumeTask {msg : DataReadyMessage δ} {error : Option String}
    (hf : (s.resumeTask cfg order msg error).2 = .failing) :
    msg.requestId ∈ (s.resumeTask cfg order msg error).1.recorded := by
  unfold resumeTask at hf ⊢
  split at hf
  · exact recorded_of_receiveStreamSignal hf
  · exact recorded_of_queueStreamError hf
  · split at hf
    · cases hf
    · next ho =>
      rw [if_neg ho]
      exact recorded_of_routeStreamItemOrFail hf
  · exact recorded_of_sendFailure
  · split at hf
    · cases hf
    · exact absurd hf receivePayloadFromStage_ne_failing

end Failing

end StageIntake

def intakeSystem {δ : Type u} (cfg : StageConfig δ) : System (StageIntake δ) (IntakeTurn δ) :=
  .ofFun (fun s => s = {}) (intakeStep cfg)

end OmniRealtime
