import OmniRealtime.Lib.PercentCoding

/-!
# Workers of the router

`worker.py`: the record the router keeps per upstream worker, its health state and
request counters, and the lookup of a worker by its percent-coded id.

1. `Worker.isRoutable_of_dead`: a dead worker is not routable.
2. `Worker.recordRequestFailure_dead_iff`: a counted failure leaves a dead worker dead exactly
   when it stays below the threshold.
3. `findWorker_workerId`: looking a worker of the pool up by its own id finds a worker
   with its URL.
-/

namespace OmniRealtime

/-! ## Configuration -/

inductive Capability
  | chat | speech | streaming | imageInput | audioInput | videoInput | audioOutput
  deriving DecidableEq, Repr

structure WorkerConfig where
  url : String
  model : Option String
  capabilities : List Capability
  deriving DecidableEq, Repr

def voiceOwnerCapabilities : List Capability := [.speech, .audioInput]

def canOwnUploadedVoices (capabilities : List Capability) : Bool :=
  voiceOwnerCapabilities.all fun c => capabilities.contains c

/-- The health thresholds of `RouterConfig`; its validator refuses values below one. -/
structure HealthConfig where
  healthFailureThreshold : Nat
  healthSuccessThreshold : Nat
  failure_pos : 0 < healthFailureThreshold
  success_pos : 0 < healthSuccessThreshold

/-- The defaults of `RouterConfig`. -/
def HealthConfig.default : HealthConfig := ⟨3, 2, by decide, by decide⟩

/-! ## The worker record -/

inductive WorkerState
  | dead | healthy | unknown | unhealthy
  deriving DecidableEq, Repr

inductive ServiceClass
  | generation | speechHttp | speechBatch | voiceControl | ttsWebsocket | transcription
  deriving DecidableEq, Repr

/-- Per-class counters; a class that was never counted reads zero. -/
abbrev ClassCounters := ServiceClass → Nat

def incrementCounter (counters : ClassCounters) (key : ServiceClass) : ClassCounters :=
  fun c => if c = key then counters c + 1 else counters c

structure Worker where
  config : WorkerConfig
  incarnation : String
  healthEpoch : Nat := 0
  activeRequests : Nat := 0
  state : WorkerState := .unknown
  disabled : Bool := false
  consecutiveFailures : Nat := 0
  consecutiveSuccesses : Nat := 0
  routedRequests : Nat := 0
  successfulRequests : Nat := 0
  failedRequests : Nat := 0
  routedRequestsByClass : ClassCounters := fun _ => 0
  successfulRequestsByClass : ClassCounters := fun _ => 0
  failedRequestsByClass : ClassCounters := fun _ => 0
  lastStatusCode : Option Int := none
  lastError : Option String := none
  lastCheckedAt : Option Nat := none

def workerIdFromUrl (url : String) : String := quote url

namespace Worker

def url (w : Worker) : String := w.config.url

def workerId (w : Worker) : String := workerIdFromUrl w.url

def isHealthy (w : Worker) : Bool := w.state == .healthy

def isDead (w : Worker) : Bool := w.state == .dead

def isRoutable (w : Worker) : Bool := w.isHealthy && !w.disabled

/-- `replace_config` raises when the URL changes. -/
def replaceConfig (w : Worker) (config : WorkerConfig) : Option Worker :=
  if config.url ≠ w.url then none else some { w with config := config }

def markDead (w : Worker) (error : Option String) : Worker :=
  { w with
    state := .dead
    healthEpoch := w.healthEpoch + 1
    lastError := if error.isSome then error else w.lastError }

def clearDead (w : Worker) : Worker :=
  { w with
    state := if w.isDead then .unknown else w.state
    healthEpoch := w.healthEpoch + 1
    consecutiveFailures := 0
    consecutiveSuccesses := 0 }

def setDisabled (w : Worker) (disabled : Bool) : Worker := { w with disabled := disabled }

def incrementActive (w : Worker) : Worker := { w with activeRequests := w.activeRequests + 1 }

/-- `decrement_active` asserts that a request is active. -/
def decrementActive (w : Worker) : Option Worker :=
  if 0 < w.activeRequests then some { w with activeRequests := w.activeRequests - 1 } else none

def recordRoutedRequest (w : Worker) (statusCode : Option Int) (serviceClass : ServiceClass) :
    Worker :=
  let w := { w with
    routedRequests := w.routedRequests + 1
    routedRequestsByClass := incrementCounter w.routedRequestsByClass serviceClass }
  if statusCode.any fun c => decide (200 ≤ c ∧ c < 400) then
    { w with
      successfulRequests := w.successfulRequests + 1
      successfulRequestsByClass := incrementCounter w.successfulRequestsByClass serviceClass }
  else
    { w with
      failedRequests := w.failedRequests + 1
      failedRequestsByClass := incrementCounter w.failedRequestsByClass serviceClass }

def recordFailure (w : Worker) (failureThreshold : Nat) : Worker :=
  let failures := w.consecutiveFailures + 1
  { w with
    consecutiveFailures := failures
    consecutiveSuccesses := 0
    state := if failureThreshold ≤ failures then .unhealthy else w.state }

/-- What a health check or a request observed. -/
structure Observation where
  statusCode : Option Int
  error : Option String
  checkedAt : Nat

/-- The three `last_*` fields, set from an observation. -/
def observe (w : Worker) (o : Observation) : Worker :=
  { w with lastStatusCode := o.statusCode, lastError := o.error, lastCheckedAt := some o.checkedAt }

def recordHealthResult (w : Worker) (ok : Bool) (cfg : HealthConfig) (o : Observation) : Worker :=
  let w := w.observe o
  if ok then
    let successes := w.consecutiveSuccesses + 1
    { w with
      consecutiveSuccesses := successes
      consecutiveFailures := 0
      state := if cfg.healthSuccessThreshold ≤ successes then .healthy else w.state }
  else
    w.recordFailure cfg.healthFailureThreshold

def recordRequestFailure (w : Worker) (cfg : HealthConfig) (o : Observation) : Worker :=
  (w.observe o).recordFailure cfg.healthFailureThreshold

end Worker

/-- `_find_worker`: the first worker whose id is the argument, or whose URL is the
    argument once unquoted. -/
def findWorker (workers : List Worker) (workerId : String) : Option Worker :=
  workers.find? fun w => w.workerId == workerId || w.url == unquote workerId

/-! ## Routability -/

namespace Worker

variable {w : Worker}

theorem isRoutable_iff : w.isRoutable = true ↔ w.state = .healthy ∧ w.disabled = false := by
  simp [isRoutable, isHealthy]

theorem isRoutable_of_dead (h : w.state = .dead) : w.isRoutable = false := by
  simp [isRoutable, isHealthy, h]

theorem isRoutable_of_disabled (h : w.disabled = true) : w.isRoutable = false := by
  simp [isRoutable, h]

@[simp] theorem isDead_iff : w.isDead = true ↔ w.state = .dead := by
  simp [isDead]

/-! ## What the operations leave alone -/

section

variable (w : Worker)

@[simp] theorem markDead_state (e : Option String) :
    (w.markDead e).state = .dead := rfl

@[simp] theorem markDead_healthEpoch (e : Option String) :
    (w.markDead e).healthEpoch = w.healthEpoch + 1 := rfl

@[simp] theorem markDead_consecutiveFailures (e : Option String) :
    (w.markDead e).consecutiveFailures = w.consecutiveFailures := rfl

@[simp] theorem setDisabled_state (d : Bool) : (w.setDisabled d).state = w.state := rfl

@[simp] theorem setDisabled_healthEpoch (d : Bool) :
    (w.setDisabled d).healthEpoch = w.healthEpoch := rfl

@[simp] theorem setDisabled_consecutiveFailures (d : Bool) :
    (w.setDisabled d).consecutiveFailures = w.consecutiveFailures := rfl

@[simp] theorem incrementActive_state : w.incrementActive.state = w.state := rfl

@[simp] theorem incrementActive_healthEpoch :
    w.incrementActive.healthEpoch = w.healthEpoch := rfl

@[simp] theorem incrementActive_consecutiveFailures :
    w.incrementActive.consecutiveFailures = w.consecutiveFailures := rfl

end

theorem decrementActive_eq_some {w' : Worker} (h : w.decrementActive = some w') :
    w' = { w with activeRequests := w.activeRequests - 1 } := by
  unfold decrementActive at h
  split at h
  · exact (Option.some.inj h).symm
  · cases h

section

variable (w : Worker) (s : Option Int) (c : ServiceClass)

@[simp] theorem recordRoutedRequest_state : (w.recordRoutedRequest s c).state = w.state := by
  unfold recordRoutedRequest; split <;> rfl

@[simp] theorem recordRoutedRequest_healthEpoch :
    (w.recordRoutedRequest s c).healthEpoch = w.healthEpoch := by
  unfold recordRoutedRequest; split <;> rfl

@[simp] theorem recordRoutedRequest_consecutiveFailures :
    (w.recordRoutedRequest s c).consecutiveFailures = w.consecutiveFailures := by
  unfold recordRoutedRequest; split <;> rfl

end

@[simp] theorem recordRequestFailure_healthEpoch (w : Worker) (cfg : HealthConfig)
    (o : Observation) : (w.recordRequestFailure cfg o).healthEpoch = w.healthEpoch := rfl

@[simp] theorem recordRequestFailure_consecutiveFailures (w : Worker) (cfg : HealthConfig)
    (o : Observation) :
    (w.recordRequestFailure cfg o).consecutiveFailures = w.consecutiveFailures + 1 := rfl

theorem recordFailure_state (w : Worker) (failureThreshold : Nat) :
    (w.recordFailure failureThreshold).state =
      if failureThreshold ≤ w.consecutiveFailures + 1 then .unhealthy else w.state := rfl

theorem recordHealthResult_ok_state (w : Worker) (cfg : HealthConfig) (o : Observation) :
    (w.recordHealthResult true cfg o).state =
      if cfg.healthSuccessThreshold ≤ w.consecutiveSuccesses + 1 then .healthy else w.state := rfl

theorem recordFailure_dead {failureThreshold : Nat}
    (h : (w.recordFailure failureThreshold).state = .dead) : w.state = .dead := by
  rw [recordFailure_state] at h
  split_ifs at h
  exact h

theorem recordHealthResult_dead {ok : Bool} {cfg : HealthConfig} {o : Observation}
    (h : (w.recordHealthResult ok cfg o).state = .dead) : w.state = .dead := by
  cases ok with
  | false => exact recordFailure_dead (w := w.observe o) h
  | true =>
    rw [recordHealthResult_ok_state] at h
    split_ifs at h
    exact h

theorem recordRequestFailure_dead {cfg : HealthConfig} {o : Observation}
    (h : (w.recordRequestFailure cfg o).state = .dead) : w.state = .dead :=
  recordFailure_dead (w := w.observe o) h

theorem isRoutable_of_recordRequestFailure {cfg : HealthConfig} {o : Observation}
    (h : (w.recordRequestFailure cfg o).isRoutable = true) : w.isRoutable = true := by
  obtain ⟨hstt, hdisabled⟩ := isRoutable_iff.mp h
  rw [recordRequestFailure, recordFailure_state] at hstt
  split_ifs at hstt
  exact isRoutable_iff.mpr ⟨hstt, hdisabled⟩

theorem recordHealthResult_healthEpoch (w : Worker) (ok : Bool) (cfg : HealthConfig)
    (o : Observation) : (w.recordHealthResult ok cfg o).healthEpoch = w.healthEpoch := by
  cases ok <;> rfl

/-- A counted failure leaves a dead worker dead exactly when it stays below the
    threshold. -/
theorem recordRequestFailure_dead_iff (cfg : HealthConfig) (o : Observation) (h : w.state = .dead) :
    (w.recordRequestFailure cfg o).state = .dead ↔
      w.consecutiveFailures + 1 < cfg.healthFailureThreshold := by
  rw [recordRequestFailure, recordFailure_state]
  simp only [observe, h]
  by_cases hrch : cfg.healthFailureThreshold ≤ w.consecutiveFailures + 1
  · simpa [if_pos hrch] using hrch
  · simpa [if_neg hrch] using hrch

end Worker

/-! ## Looking a worker up -/

theorem findWorker_some {workers : List Worker} {id : String} {w : Worker}
    (h : findWorker workers id = some w) :
    w ∈ workers ∧ (w.workerId = id ∨ w.url = unquote id) := by
  refine ⟨List.mem_of_find?_eq_some h, ?_⟩
  simpa using List.find?_some h

theorem findWorker_workerId {workers : List Worker} {w : Worker} (hw : w ∈ workers) :
    ∃ w', findWorker workers w.workerId = some w' ∧ w'.url = w.url := by
  have hmatch : (w.workerId == w.workerId || w.url == unquote w.workerId) = true := by
    rw [beq_self_eq_true, Bool.true_or]
  have hsome : (findWorker workers w.workerId).isSome = true := by
    rw [findWorker, List.find?_isSome]
    exact ⟨w, hw, hmatch⟩
  obtain ⟨w', hfind⟩ := Option.isSome_iff_exists.mp hsome
  refine ⟨w', hfind, ?_⟩
  rcases (findWorker_some hfind).2 with hid | hurl
  · have hquote : quote w'.url = quote w.url := by
      simpa only [Worker.workerId, workerIdFromUrl] using hid
    exact quote_injective hquote
  · simpa [Worker.workerId, workerIdFromUrl, unquote_quote] using hurl

end OmniRealtime
