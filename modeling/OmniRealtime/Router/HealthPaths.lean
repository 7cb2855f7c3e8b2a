import OmniRealtime.Lib.System
import OmniRealtime.Router.InternalChannel
import OmniRealtime.Router.Worker

/-!
# The four writers of a worker's health

The health of one worker is written by the probe loop (`health.py`), the HTTP proxy
(`proxy.py`), the data-plane failure reports (`control_plane.py`) and the WebSocket
proxy (`websocket_proxy.py`), and by the operator. Each write is one atomic step of the
router's event loop; a probe and a WebSocket session span several steps.

1. `ProbesPinned.step`: a probe in flight pins an epoch that a dead mark has outdated.
2. `step_dead`: what one event other than clear-dead does to a dead worker.
3. `dead_sticky_iff`: along a run without clear-dead a dead worker stays dead exactly
   when the failed WebSocket sessions do not fill the failure threshold.
4. `dead_not_sticky`: three failed sessions and two good probes make it routable.
-/

namespace OmniRealtime

open Worker

/-! ## The WebSocket proxy -/

structure SpeechApiError where
  message : String
  statusCode : Int
  errorType : String
  code : Int
  deriving DecidableEq, Repr

inductive SessionOutcome
  | applicationFailure | clientDisconnected | clientMessageTooLarge | completed
  | upstreamFailure | configurationTimeout | routerOverloaded | sessionCancelled
  | upstreamUnavailable
  deriving DecidableEq, Repr

structure SessionResult where
  outcome : SessionOutcome
  routedStatusCode : Option Int := none
  workerFailureStatusCode : Option Int := none
  workerFailureError : Option String := none
  clientError : Option SpeechApiError := none
  clientCloseCode : Option Int := none
  deriving DecidableEq, Repr

def relayResult (outcome : SessionOutcome) : SessionResult :=
  if outcome = .completed then { outcome, routedStatusCode := some 200 }
  else if outcome = .upstreamFailure then
    { outcome, workerFailureError := some "WebSocketRelayError" }
  else if outcome = .clientMessageTooLarge then
    { outcome
      clientError := some ⟨"WebSocket message exceeds payload limit", 413, "BadRequestError", 413⟩
      clientCloseCode := some 1009 }
  else { outcome }

/-- An exception of the upstream connection: its class, the HTTP status of a refused
    handshake, and the close code of a closed connection. -/
structure UpstreamException where
  name : String
  handshakeStatus : Option Int := none
  isConnectionClosed : Bool := false
  closeCode : Option Int := none
  deriving DecidableEq, Repr

def workerEvictionStatusCodes : List Int := [502, 504]

def applicationCloseCodes : List Int := [1002, 1003, 1007, 1008, 1009, 1010, 1013]

def isApplicationClose (exc : UpstreamException) : Bool :=
  exc.closeCode.any fun c => applicationCloseCodes.contains c || decide (3000 ≤ c ∧ c < 5000)

def handshakeFailure (statusCode : Int) : SpeechApiError × Int × SessionOutcome :=
  if statusCode = 429 then
    (⟨"upstream WebSocket is overloaded", statusCode, "overloaded_error", statusCode⟩, 1013,
      .upstreamUnavailable)
  else if statusCode = 503 then
    (⟨"upstream WebSocket is unavailable", statusCode, "server_error", statusCode⟩, 1013,
      .upstreamUnavailable)
  else if 400 ≤ statusCode ∧ statusCode < 500 then
    (⟨"upstream WebSocket rejected the request", statusCode, "upstream_error", statusCode⟩, 1008,
      .applicationFailure)
  else
    (⟨"upstream WebSocket failed", statusCode, "upstream_error", statusCode⟩, 1011,
      .upstreamFailure)

def connectionFailureResult (exc : UpstreamException) : SessionResult :=
  match exc.handshakeStatus with
  | some statusCode =>
    let (error, closeCode, outcome) := handshakeFailure statusCode
    let workerFailureStatus :=
      if workerEvictionStatusCodes.contains statusCode then some statusCode else none
    { outcome
      workerFailureStatusCode := workerFailureStatus
      workerFailureError := workerFailureStatus.map fun c => "status=" ++ toString c
      clientError := some error
      clientCloseCode := some closeCode }
  | none =>
    if exc.isConnectionClosed && isApplicationClose exc then
      { outcome := .applicationFailure
        clientError := some ⟨"upstream WebSocket rejected the request", 400, "upstream_error", 400⟩
        clientCloseCode := some 1008 }
    else
      { outcome := .upstreamFailure
        workerFailureError := some exc.name
        clientError := some ⟨"upstream WebSocket failed", 502, "upstream_error", 502⟩
        clientCloseCode := some 1011 }

namespace SessionResult

def isWorkerFailure (r : SessionResult) : Bool :=
  r.workerFailureStatusCode.isSome || r.workerFailureError.isSome

end SessionResult

/-- The worker part of `_complete_session`. -/
def completeSession (cfg : HealthConfig) (w : Worker) (r : SessionResult) (now : Nat) : Worker :=
  let w :=
    if r.isWorkerFailure then
      w.recordRequestFailure cfg ⟨r.workerFailureStatusCode, r.workerFailureError, now⟩
    else w
  w.recordRoutedRequest r.routedStatusCode .ttsWebsocket

/-! ## The HTTP proxy -/

/-- `_record_worker_request_failure`; `reports` says that the proxy runs in a data plane,
    which hands the failure to the control plane instead of counting it. -/
def recordWorkerRequestFailure (cfg : HealthConfig) (reports : Bool) (w : Worker)
    (o : Worker.Observation) : Worker :=
  if w.isDead then w
  else if reports then w
  else w.recordRequestFailure cfg o

/-! ## The failure reports -/

structure WorkerFailureReport where
  workerId : String
  statusCode : Option Int := none
  error : Option String := none
  incarnation : String := ""
  dpIndex : Nat
  generation : Nat
  failureSeq : Nat
  deriving DecidableEq, Repr

/-- The failures already applied for one data-plane process. -/
structure AppliedFailures where
  seqs : List Nat := []
  floor : Nat := 0

abbrev FailureLedger := Nat × Nat → AppliedFailures

/-- `_failure_already_applied`: whether the report was seen before, and the entry after. -/
def failureAlreadyApplied (a : AppliedFailures) (failureSeq : Nat) : Bool × AppliedFailures :=
  if failureSeq ≤ a.floor then (true, a)
  else if failureSeq ∈ a.seqs then (true, a)
  else
    let seqs := failureSeq :: a.seqs
    if 4096 < seqs.length then
      let floor := seqs.foldr max 0 - 1024
      (false, ⟨seqs.filter fun s => floor < s, floor⟩)
    else (false, { a with seqs })

def staleGeneration (dps : DataPlanes) (dpIndex generation : Nat) : Bool :=
  (dps dpIndex).any fun cur => decide (generation < cur.generation)

/-! ## Probes -/

/-- How a probe ends: an HTTP error, or a response with its status and text. -/
inductive ProbeResult
  | httpError (error : String)
  | response (statusCode : Int) (text : String)
  deriving DecidableEq, Repr

/-- The verdict of `_check_worker_health` on a probe's end, and what it observed. -/
def probeVerdict (r : ProbeResult) (now : Nat) : Bool × Worker.Observation :=
  match r with
  | .httpError error => (false, ⟨none, some error, now⟩)
  | .response statusCode text =>
    if 200 ≤ statusCode ∧ statusCode < 300 then (true, ⟨some statusCode, none, now⟩)
    else
      let error := String.ofList (text.toList.take 512)
      (false, ⟨some statusCode,
        some (if error = "" then "status=" ++ toString statusCode else error), now⟩)

/-! ## The system -/

/-- One worker of the pool and the state of the paths that write its health. `probes`
    holds the epoch each probe in flight was started against; `requests` and `sessions`
    count the HTTP requests and the WebSocket sessions that hold the worker. -/
structure HealthState where
  worker : Worker
  probes : List Nat := []
  requests : Nat := 0
  sessions : Nat := 0
  applied : FailureLedger := fun _ => {}
  dataPlanes : DataPlanes := fun _ => none

inductive HealthEvent
  | probeStart
  | probeEnd (i : Nat) (result : ProbeResult) (now : Nat)
  | requestStart
  | requestFailed (reports : Bool) (observed : Worker.Observation)
  | requestRouted (statusCode : Option Int) (serviceClass : ServiceClass)
  | requestEnd
  | failureReport (report : WorkerFailureReport) (now : Nat)
  | dataPlaneRegister (hello : DataPlaneHello) (now : Nat)
  | sessionStart
  | sessionEnd (result : SessionResult) (now : Nat)
  | setDisabled (disabled : Bool)
  | markDead (error : Option String)
  | clearDead

namespace HealthState

/-- The end of the `i`-th probe in flight: its result is dropped when the epoch moved. -/
def probeEnd (cfg : HealthConfig) (s : HealthState) (i : Nat) (r : ProbeResult) (now : Nat) :
    Option HealthState :=
  match s.probes[i]? with
  | none => none
  | some epoch =>
    let s := { s with probes := s.probes.eraseIdx i }
    if s.worker.healthEpoch ≠ epoch then some s
    else
      let (ok, observed) := probeVerdict r now
      some { s with worker := s.worker.recordHealthResult ok cfg observed }

/-- The endpoint `/internal/worker_failure`. -/
def failureReport (cfg : HealthConfig) (s : HealthState) (r : WorkerFailureReport) (now : Nat) :
    HealthState :=
  if staleGeneration s.dataPlanes r.dpIndex r.generation then s
  else
    match findWorker [s.worker] r.workerId with
    | none => s
    | some worker =>
      if r.incarnation ≠ "" ∧ worker.incarnation ≠ r.incarnation then s
      else
        let key := (r.dpIndex, r.generation)
        let (seen, entry) := failureAlreadyApplied (s.applied key) r.failureSeq
        let s := { s with applied := Function.update s.applied key entry }
        if seen then s
        else if worker.isDead then s
        else { s with worker := worker.recordRequestFailure cfg ⟨r.statusCode, r.error, now⟩ }

/-- One event; `none` when it cannot happen in this state. Requests and sessions start
    only on a routable worker, and may end after it stopped being one. -/
def step (cfg : HealthConfig) (s : HealthState) : HealthEvent → Option HealthState
  | .probeStart =>
    if s.worker.isDead then some s
    else some { s with probes := s.worker.healthEpoch :: s.probes }
  | .probeEnd i result now => s.probeEnd cfg i result now
  | .requestStart =>
    if s.worker.isRoutable then
      some { s with worker := s.worker.incrementActive, requests := s.requests + 1 }
    else none
  | .requestFailed reports observed =>
    some { s with worker := recordWorkerRequestFailure cfg reports s.worker observed }
  | .requestRouted statusCode serviceClass =>
    some { s with worker := s.worker.recordRoutedRequest statusCode serviceClass }
  | .requestEnd =>
    if s.requests = 0 then none
    else s.worker.decrementActive.map fun worker => { s with worker, requests := s.requests - 1 }
  | .failureReport report now => some (s.failureReport cfg report now)
  | .dataPlaneRegister hello now =>
    match s.dataPlanes.register hello now with
    | .error _ => some s
    | .ok dataPlanes => some { s with dataPlanes }
  | .sessionStart =>
    if s.worker.isRoutable then
      some { s with worker := s.worker.incrementActive, sessions := s.sessions + 1 }
    else none
  | .sessionEnd result now =>
    if s.sessions = 0 then none
    else
      (completeSession cfg s.worker result now).decrementActive.map fun worker =>
        { s with worker, sessions := s.sessions - 1 }
  | .setDisabled disabled => some { s with worker := s.worker.setDisabled disabled }
  | .markDead error => some { s with worker := s.worker.markDead error }
  | .clearDead => some { s with worker := s.worker.clearDead }

/-- Events in order. -/
def runEvents (cfg : HealthConfig) (s : HealthState) (es : List HealthEvent) :
    Option HealthState :=
  System.exec (fun s e => s.step cfg e) s es

end HealthState

/-- A worker starts unprobed, as registered; then events come in any order. -/
def healthSystem (cfg : HealthConfig) : System HealthState HealthEvent :=
  System.ofFun (fun s => ∃ config incarnation, s = { worker := { config, incarnation } })
    fun s e => s.step cfg e

/-- The event ends a WebSocket session with a failure of the worker. -/
def HealthEvent.isSessionFailure : HealthEvent → Bool
  | .sessionEnd result _ => result.isWorkerFailure
  | _ => false

def HealthEvent.isClearDead : HealthEvent → Bool
  | .clearDead => true
  | _ => false

/-- How many sessions of the run ended with a failure of the worker. -/
def sessionFailures (es : List HealthEvent) : Nat := es.countP HealthEvent.isSessionFailure

/-! ## Helpers -/

namespace HealthPathsLemmas

variable {cfg : HealthConfig} {s t : HealthState}

theorem recordWorkerRequestFailure_epoch (reports : Bool) (w : Worker) (o : Worker.Observation) :
    (recordWorkerRequestFailure cfg reports w o).healthEpoch = w.healthEpoch := by
  unfold recordWorkerRequestFailure
  split_ifs <;> rfl

theorem recordWorkerRequestFailure_dead {reports : Bool} {w : Worker} {o : Worker.Observation}
    (h : (recordWorkerRequestFailure cfg reports w o).state = .dead) : w.state = .dead := by
  unfold recordWorkerRequestFailure at h
  split_ifs at h with hdead
  · exact h
  · exact h
  · exact recordRequestFailure_dead h

theorem findWorker_singleton {w w' : Worker} {id : String} (h : findWorker [w] id = some w') :
    w' = w := List.mem_singleton.mp (findWorker_some h).1

theorem completeSession_epoch (w : Worker) (r : SessionResult) (now : Nat) :
    (completeSession cfg w r now).healthEpoch = w.healthEpoch := by
  unfold completeSession
  split_ifs <;> simp

theorem completeSession_dead {w : Worker} {r : SessionResult} {now : Nat}
    (h : (completeSession cfg w r now).state = .dead) : w.state = .dead := by
  unfold completeSession at h
  rw [recordRoutedRequest_state] at h
  split_ifs at h
  · exact recordRequestFailure_dead h
  · exact h

/-- A failure report counts a failure or leaves the worker alone, the latter when it is
    dead. -/
theorem failureReport_worker (cfg : HealthConfig) (s : HealthState) (r : WorkerFailureReport)
    (now : Nat) :
    (s.failureReport cfg r now).probes = s.probes ∧ ((s.failureReport cfg r now).worker = s.worker ∨
        s.worker.state ≠ .dead ∧ ∃ o,
          (s.failureReport cfg r now).worker = s.worker.recordRequestFailure cfg o) := by
  unfold HealthState.failureReport
  split_ifs
  · exact ⟨rfl, .inl rfl⟩
  · cases hfind : findWorker [s.worker] r.workerId with
    | none => exact ⟨rfl, .inl rfl⟩
    | some w =>
      obtain rfl := findWorker_singleton hfind
      dsimp only
      split_ifs with _ _ hdead
      · exact ⟨rfl, .inl rfl⟩
      · exact ⟨rfl, .inl rfl⟩
      · exact ⟨rfl, .inl rfl⟩
      · exact ⟨rfl, .inr ⟨fun h => hdead (isDead_iff.mpr h), _, rfl⟩⟩

theorem probeEnd_cases {i : Nat} {r : ProbeResult} {now : Nat}
    (h : s.probeEnd cfg i r now = some t) : ∃ epoch ∈ s.probes, t.probes = s.probes.eraseIdx i ∧
        (t.worker = s.worker ∨ s.worker.healthEpoch = epoch ∧ ∃ ok o,
          t.worker = s.worker.recordHealthResult ok cfg o) := by
  unfold HealthState.probeEnd at h
  cases hepo : s.probes[i]? with
  | none => rw [hepo] at h; cases h
  | some epoch =>
    rw [hepo] at h
    refine ⟨epoch, List.mem_of_getElem? hepo, ?_⟩
    dsimp only at h
    split_ifs at h with hmoved
    · cases h; exact ⟨rfl, .inl rfl⟩
    · cases h; exact ⟨rfl, .inr ⟨not_not.mp hmoved, _, _, rfl⟩⟩

end HealthPathsLemmas

open HealthPathsLemmas

/-! ## Probes and dead marks -/

/-- A probe in flight was started against an epoch the worker has reached, and one that
    a dead mark has left behind. -/
structure ProbesPinned (s : HealthState) : Prop where
  le_epoch : ∀ e ∈ s.probes, e ≤ s.worker.healthEpoch
  lt_epoch : s.worker.state = .dead → ∀ e ∈ s.probes, e < s.worker.healthEpoch

namespace ProbesPinned

variable {cfg : HealthConfig} {s t : HealthState}

/-- What starts no probe, keeps the epoch and marks nothing dead keeps the probes
    pinned. -/
theorem of_same_epoch (h : ProbesPinned s) (hp : ∀ e ∈ t.probes, e ∈ s.probes)
    (hepo : t.worker.healthEpoch = s.worker.healthEpoch)
    (hdead : t.worker.state = .dead → s.worker.state = .dead) : ProbesPinned t where
  le_epoch e he := hepo ▸ h.le_epoch e (hp e he)
  lt_epoch hd e he := hepo ▸ h.lt_epoch (hdead hd) e (hp e he)

/-- A new epoch leaves every probe in flight behind. -/
theorem of_next_epoch (h : ProbesPinned s) (hp : t.probes = s.probes)
    (hepo : t.worker.healthEpoch = s.worker.healthEpoch + 1) : ProbesPinned t := by
  have hlt : ∀ e ∈ t.probes, e < t.worker.healthEpoch := by
    intro e he
    have := h.le_epoch e (hp ▸ he)
    omega
  exact ⟨fun e he => Nat.le_of_lt (hlt e he), fun _ => hlt⟩

theorem step {e : HealthEvent} (h : ProbesPinned s) (hst : s.step cfg e = some t) :
    ProbesPinned t := by
  cases e with
  | probeStart =>
    simp only [HealthState.step] at hst
    split_ifs at hst with hdead
    · cases hst; exact h
    · cases hst
      have hnd : s.worker.state ≠ .dead := fun hd => hdead (isDead_iff.mpr hd)
      refine ⟨fun e he => ?_, fun hd => absurd hd hnd⟩
      rcases List.mem_cons.mp he with rfl | he
      · exact Nat.le_refl _
      · exact h.le_epoch e he
  | probeEnd i r now =>
    obtain ⟨epoch, _, hp, hw | ⟨_, ok, o, hw⟩⟩ := probeEnd_cases hst
    · exact h.of_same_epoch (fun e he => List.mem_of_mem_eraseIdx (hp ▸ he))
        (by rw [hw]) (by rw [hw]; exact id)
    · exact h.of_same_epoch (fun e he => List.mem_of_mem_eraseIdx (hp ▸ he))
        (by rw [hw, recordHealthResult_healthEpoch])
        (by rw [hw]; exact recordHealthResult_dead)
  | requestStart | sessionStart =>
    simp only [HealthState.step] at hst
    split_ifs at hst
    cases hst
    exact h.of_same_epoch (fun _ he => he) rfl id
  | requestFailed reports o =>
    cases hst
    exact h.of_same_epoch (fun _ he => he) (recordWorkerRequestFailure_epoch reports _ o)
      recordWorkerRequestFailure_dead
  | requestRouted statusCode serviceClass =>
    cases hst
    exact h.of_same_epoch (fun _ he => he) (by simp) (by simp)
  | requestEnd =>
    simp only [HealthState.step] at hst
    split_ifs at hst
    obtain ⟨w, hw, rfl⟩ := Option.map_eq_some_iff.mp hst
    obtain rfl := decrementActive_eq_some hw
    exact h.of_same_epoch (fun _ he => he) rfl id
  | failureReport r now =>
    cases hst
    obtain ⟨hp, hw | ⟨_, o, hw⟩⟩ := failureReport_worker cfg s r now
    · exact h.of_same_epoch (fun e he => hp ▸ he) (by rw [hw]) (by rw [hw]; exact id)
    · exact h.of_same_epoch (fun e he => hp ▸ he) (by rw [hw]; rfl)
        (by rw [hw]; exact recordRequestFailure_dead)
  | dataPlaneRegister hello now =>
    simp only [HealthState.step] at hst
    split at hst <;> (cases hst; exact h.of_same_epoch (fun _ he => he) rfl id)
  | sessionEnd r now =>
    simp only [HealthState.step] at hst
    split_ifs at hst
    obtain ⟨w, hw, rfl⟩ := Option.map_eq_some_iff.mp hst
    obtain rfl := decrementActive_eq_some hw
    exact h.of_same_epoch (fun _ he => he) (completeSession_epoch _ r now) completeSession_dead
  | setDisabled disabled =>
    cases hst
    exact h.of_same_epoch (fun _ he => he) rfl id
  | markDead error | clearDead =>
    cases hst
    exact h.of_next_epoch rfl rfl

theorem of_reachable (h : (healthSystem cfg).Reachable s) : ProbesPinned s := by
  refine h.invariant ?_ fun s e t hs hst => hs.step hst
  rintro s ⟨config, incarnation, rfl⟩
  exact ⟨by simp, by simp⟩

end ProbesPinned

/-! ## A dead worker -/

section Dead

variable {cfg : HealthConfig} {s t : HealthState} {e : HealthEvent}

/-- Every event but clear-dead and a failed session keeps a dead worker dead, and its
    failure count. -/
theorem step_dead (hpinned : ProbesPinned s) (hdead : s.worker.state = .dead)
    (hclear : e.isClearDead = false) (hf : e.isSessionFailure = false)
    (hst : s.step cfg e = some t) :
    t.worker.state = .dead ∧ t.worker.consecutiveFailures = s.worker.consecutiveFailures := by
  have hnotRoutable := isRoutable_of_dead hdead
  have hisDead : s.worker.isDead = true := isDead_iff.mpr hdead
  cases e with
  | probeStart =>
    simp only [HealthState.step, hisDead, if_true] at hst
    cases hst
    exact ⟨hdead, rfl⟩
  | probeEnd i r now =>
    obtain ⟨epoch, hmem, _, hw | ⟨hpin, _⟩⟩ := probeEnd_cases hst
    · exact ⟨hw ▸ hdead, by rw [hw]⟩
    · -- The pinned epoch is outdated, so the result was dropped.
      have := hpinned.lt_epoch hdead epoch hmem
      omega
  | requestStart | sessionStart => simp [HealthState.step, hnotRoutable] at hst
  | requestFailed reports o =>
    cases hst
    simp [recordWorkerRequestFailure, hisDead, hdead]
  | requestRouted statusCode serviceClass =>
    cases hst
    simp [hdead]
  | requestEnd =>
    simp only [HealthState.step] at hst
    split_ifs at hst
    obtain ⟨w, hw, rfl⟩ := Option.map_eq_some_iff.mp hst
    obtain rfl := decrementActive_eq_some hw
    exact ⟨hdead, rfl⟩
  | failureReport r now =>
    cases hst
    obtain ⟨_, hw | ⟨hnd, _⟩⟩ := failureReport_worker cfg s r now
    · exact ⟨hw ▸ hdead, by rw [hw]⟩
    · exact absurd hdead hnd
  | dataPlaneRegister hello now =>
    simp only [HealthState.step] at hst
    split at hst <;> (cases hst; exact ⟨hdead, rfl⟩)
  | sessionEnd r now =>
    have hok : r.isWorkerFailure = false := hf
    simp only [HealthState.step] at hst
    split_ifs at hst
    obtain ⟨w, hw, rfl⟩ := Option.map_eq_some_iff.mp hst
    obtain rfl := decrementActive_eq_some hw
    simp [completeSession, hok, hdead]
  | setDisabled disabled =>
    cases hst
    exact ⟨hdead, rfl⟩
  | markDead error =>
    cases hst
    exact ⟨rfl, rfl⟩
  | clearDead => cases hclear

/-- A failed session counts one more failure, and keeps a dead worker dead exactly when
    the count stays below the threshold. -/
theorem step_session_failure (hdead : s.worker.state = .dead) (hf : e.isSessionFailure = true)
    (hst : s.step cfg e = some t) :
    t.worker.consecutiveFailures = s.worker.consecutiveFailures + 1 ∧ (t.worker.state = .dead ↔
        s.worker.consecutiveFailures + 1 < cfg.healthFailureThreshold) := by
  cases e with
  | sessionEnd r now =>
    have hok : r.isWorkerFailure = true := hf
    simp only [HealthState.step] at hst
    split_ifs at hst
    obtain ⟨w, hw, rfl⟩ := Option.map_eq_some_iff.mp hst
    obtain rfl := decrementActive_eq_some hw
    simp only [completeSession, hok, if_true]
    rw [recordRoutedRequest_consecutiveFailures, recordRoutedRequest_state]
    exact ⟨rfl, recordRequestFailure_dead_iff cfg _ hdead⟩
  | _ => cases hf

end Dead

/-! ## Runs -/

/-- The worker is dead, and not routable, after every prefix of the run. -/
def StaysDead (cfg : HealthConfig) (s : HealthState) (es : List HealthEvent) : Prop :=
  ∀ pre, pre <+: es → ∀ t, s.runEvents cfg pre = some t →
    t.worker.state = .dead ∧ t.worker.isRoutable = false

section Runs

variable {cfg : HealthConfig} {s t : HealthState} {e : HealthEvent} {es : List HealthEvent}

theorem runEvents_cons (h : s.step cfg e = some t) :
    s.runEvents cfg (e :: es) = t.runEvents cfg es := by
  simp [HealthState.runEvents, System.exec, h]

theorem staysDead_nil (hdead : s.worker.state = .dead) : StaysDead cfg s [] := by
  intro pre hpre t ht
  obtain rfl := List.prefix_nil.mp hpre
  obtain rfl : s = t := Option.some.inj ht
  exact ⟨hdead, isRoutable_of_dead hdead⟩

theorem staysDead_cons (hdead : s.worker.state = .dead) (h : s.step cfg e = some t) :
    StaysDead cfg s (e :: es) ↔ t.worker.state = .dead ∧ StaysDead cfg t es := by
  constructor
  · intro hs
    refine ⟨(hs [e] ⟨es, rfl⟩ t (runEvents_cons h)).1, fun pre hpre u hu => ?_⟩
    exact hs (e :: pre) (List.cons_prefix_cons.mpr ⟨rfl, hpre⟩) u ((runEvents_cons h).trans hu)
  · rintro ⟨_, ht⟩ pre hpre u hu
    cases pre with
    | nil =>
      obtain rfl : s = u := Option.some.inj hu
      exact ⟨hdead, isRoutable_of_dead hdead⟩
    | cons e' pre =>
      obtain ⟨rfl, hpre'⟩ := List.cons_prefix_cons.mp hpre
      exact ht pre hpre' u ((runEvents_cons h).symm.trans hu)

/-- Along every run without clear-dead: the run's failed sessions decide whether the
    worker stays dead. -/
theorem staysDead_iff (hpinned : ProbesPinned s) (hdead : s.worker.state = .dead)
    (hclear : ∀ e ∈ es, e.isClearDead = false) (hrun : s.runEvents cfg es = some t) :
    StaysDead cfg s es ↔ sessionFailures es = 0 ∨
      s.worker.consecutiveFailures + sessionFailures es < cfg.healthFailureThreshold := by
  induction es generalizing s with
  | nil => exact ⟨fun _ => .inl rfl, fun _ => staysDead_nil hdead⟩
  | cons e es ih =>
    obtain ⟨u, hst, hrest⟩ := Option.bind_eq_some_iff.mp hrun
    have hclear' : ∀ e ∈ es, e.isClearDead = false := fun x hx => hclear x (.tail _ hx)
    rw [staysDead_cons hdead hst]
    cases hf : e.isSessionFailure with
    | false =>
      obtain ⟨hdead', hcnt⟩ := step_dead hpinned hdead (hclear e (.head _)) hf hst
      have hfailures : sessionFailures (e :: es) = sessionFailures es := by
        simp [sessionFailures, hf]
      rw [ih (hpinned.step hst) hdead' hclear' hrest, hfailures, hcnt]
      exact and_iff_right hdead'
    | true =>
      obtain ⟨hcnt, hiff⟩ := step_session_failure hdead hf hst
      have hfailures : sessionFailures (e :: es) = sessionFailures es + 1 := by
        simp [sessionFailures, hf]
      constructor
      · rintro ⟨hdead', hrun'⟩
        have hbelow := hiff.mp hdead'
        have htail := (ih (hpinned.step hst) hdead' hclear' hrest).mp hrun'
        omega
      · intro hbelow
        have hdead' := hiff.mpr (by omega)
        exact ⟨hdead', (ih (hpinned.step hst) hdead' hclear' hrest).mpr (by omega)⟩

end Runs

/-- **Operator-dead is sticky up to failed WebSocket sessions.** From every reachable
    state with a dead worker, along every run without clear-dead, the worker stays dead
    and is never routable if and only if no session of the run ends with a failure of the
    worker, or those that do leave its failure count below the threshold. -/
theorem dead_sticky_iff {cfg : HealthConfig} {s t : HealthState} {es : List HealthEvent}
    (hs : (healthSystem cfg).Reachable s) (hdead : s.worker.state = .dead)
    (hclear : ∀ e ∈ es, e.isClearDead = false) (hrun : s.runEvents cfg es = some t) :
    StaysDead cfg s es ↔ sessionFailures es = 0 ∨
      s.worker.consecutiveFailures + sessionFailures es < cfg.healthFailureThreshold :=
  staysDead_iff (ProbesPinned.of_reachable hs) hdead hclear hrun

/-! ## Three failed sessions undo a dead mark -/

/-- A worker as registered. -/
def exWorker : HealthState :=
  { worker :=
      { config := ⟨"http://127.0.0.1:8000", none, [.speech, .streaming]⟩, incarnation := "a" } }

/-- A probe that finds the worker well. -/
def exProbe : List HealthEvent := [.probeStart, .probeEnd 0 (.response 200 "") 0]

/-- Two good probes, three sessions, and the operator's dead mark. -/
def exUntilDead : List HealthEvent :=
  exProbe ++ exProbe ++ [.sessionStart, .sessionStart, .sessionStart, .markDead none]

def exDead : HealthState := (exWorker.runEvents .default exUntilDead).getD exWorker

def exDrop : HealthEvent := .sessionEnd (relayResult .upstreamFailure) 1

/-- The upstream drops the three sessions, and two probes find the worker well. -/
def exAfterDead : List HealthEvent := [exDrop, exDrop, exDrop] ++ exProbe ++ exProbe

def exRevived : HealthState := (exDead.runEvents .default exAfterDead).getD exDead

theorem exDead_reachable : (healthSystem .default).Reachable exDead := by
  have hinit : (healthSystem .default).Reachable exWorker := .init ⟨_, _, rfl⟩
  have hrun : exWorker.runEvents .default exUntilDead = some exDead := rfl
  exact hinit.of_exec hrun

/-- Two dropped sessions are within the bound. -/
theorem dead_sticky_iff_two : ∃ t, exDead.runEvents .default [exDrop, exDrop] = some t ∧
    (StaysDead .default exDead [exDrop, exDrop] ↔ True) := by
  refine ⟨_, rfl, ?_⟩
  have hclear : ∀ e ∈ [exDrop, exDrop], e.isClearDead = false := by
    intro e he
    simp only [List.mem_cons, List.not_mem_nil, or_false, or_self] at he
    rw [he]
    rfl
  rw [dead_sticky_iff exDead_reachable rfl hclear rfl]
  exact iff_true_intro (.inr (by decide))

/-- Without a clear-dead, a worker marked dead becomes routable again. -/
theorem dead_not_sticky : ¬ ∀ (s t : HealthState) (es : List HealthEvent),
    (healthSystem .default).Reachable s → s.worker.state = .dead →
    (∀ e ∈ es, e.isClearDead = false) → s.runEvents .default es = some t →
    StaysDead .default s es := by
  intro h
  have hclear : ∀ e ∈ exAfterDead, e.isClearDead = false := by
    intro e he
    simp only [exAfterDead, exProbe, List.cons_append, List.nil_append, List.mem_cons,
      List.not_mem_nil, or_false] at he
    rcases he with rfl | rfl | rfl | rfl | rfl | rfl | rfl <;> rfl
  have hdead := h exDead exRevived exAfterDead exDead_reachable rfl hclear rfl
  have hroutable := (hdead exAfterDead List.prefix_rfl exRevived rfl).2
  exact absurd hroutable (by decide)

end OmniRealtime
