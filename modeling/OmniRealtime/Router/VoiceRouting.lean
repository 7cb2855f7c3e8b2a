import OmniRealtime.Lib.System
import OmniRealtime.Router.Worker
import OmniRealtime.Serve.SpeakerStore

/-!
# Voice-aware routing

`voice_routing.py` and the voice parts of `proxy.py`: the router tracks which voice names
need the worker that owns the uploaded voices. Uploads and deletes are exchanges with the
owner that overlap in any order; the owner carries one out at most once, and no later than
the exchange ends. A reconciliation reads the owner's names while exchanges come and go.

1. `Touches`: what choosing a worker leaves of the routing state.
2. `VoiceInv.step`: a clean, hydrated registry knows every name of the owner, unless an
   exchange in flight has just changed it.
3. `requires_owner_of_present`: a request that names a voice of the owner requires the
   owner, and is sent to no other worker.
-/

namespace OmniRealtime

open List Option Function

/-! ## Names and mutations -/

def defaultVoiceName : VoiceName := "default".toList

/-- `_normalize_voice_name`. -/
def routerVoiceName (py : PyLower) (value : VoiceName) : Option VoiceName :=
  let normalized := py.lower (strip value)
  if normalized = [] then none else some normalized

inductive VoiceOperation
  | upload | delete
  deriving DecidableEq, Repr

structure VoiceMutation where
  operation : VoiceOperation
  name : VoiceName
  deriving DecidableEq, Repr

def VoiceMutation.create (py : PyLower) (operation : VoiceOperation) (name : VoiceName) :
    Option VoiceMutation :=
  (routerVoiceName py name).map fun normalized => ⟨operation, normalized⟩

/-- A JSON value, as far as the router looks into it; the fields of an object are its dict. -/
inductive VoiceJson
  | str (value : VoiceName)
  | list (items : List VoiceJson)
  | object (fields : List (String × VoiceJson))
  | null
  | other
  deriving Repr

open VoiceJson

namespace VoiceJson

def get (fields : List (String × VoiceJson)) (key : String) : VoiceJson :=
  ((fields.find? fun kv => kv.1 == key).map Prod.snd).getD .null

/-- `_normalize_voice_name` of a value that may not be a string. -/
def voiceName (py : PyLower) : VoiceJson → Option VoiceName
  | .str value => routerVoiceName py value
  | _ => none

/-- An entry of `uploaded_voice_names`. -/
def listedName (py : PyLower) (item : VoiceJson) : Except String VoiceName :=
  match item.voiceName py with
  | none => .error "uploaded_voice_names must contain names"
  | some normalized => .ok normalized

/-- An entry of `uploaded_voices`. -/
def metadataName (py : PyLower) : VoiceJson → Except String VoiceName
  | .object fields =>
    match (get fields "name").voiceName py with
    | none => .error "uploaded voice metadata must include a name"
    | some normalized => .ok normalized
  | _ => .error "uploaded voice metadata must be an object"

def uploadedVoiceNames (py : PyLower) : VoiceJson → Except String (Finset VoiceName)
  | .object fields =>
    match get fields "uploaded_voice_names" with
    | .null =>
      match get fields "uploaded_voices" with
      | .list items => (items.mapM (metadataName py)).map List.toFinset
      | _ => .error "voice list response must include uploaded_voices"
    | .list items => (items.mapM (listedName py)).map List.toFinset
    | _ => .error "uploaded_voice_names must be a list"
  | _ => .error "voice list response must be an object"

end VoiceJson

/-- What `GET /v1/audio/voices?names_only=true` answers. -/
def namesOnlyResponse {py : PyLower} (store : SpeakerSampleStore py) : VoiceJson :=
  .object [("uploaded_voice_names", .list (store.uploadedVoiceNames.map .str))]

/-- What a client asks of the owner. -/
inductive VoiceRequest
  | upload (name : VoiceName) (refusal : Option VoiceError)
  | delete (name : VoiceName) (unlinks : Bool)
  deriving DecidableEq, Repr

/-- `_VoiceUploadRequest`, `_VoiceDeleteRequest`. -/
inductive VoiceMutationRequest
  | upload
  | delete (mutation : VoiceMutation)
  deriving DecidableEq, Repr

def voiceMutationRequest (py : PyLower) : VoiceRequest → Option VoiceMutationRequest
  | .upload _ _ => some .upload
  | .delete name _ => (VoiceMutation.create py .delete name).map .delete

/-- `_committed_voice_mutation`; the body is `none` when it is not valid JSON. -/
def committedVoiceMutation (py : PyLower) (request : VoiceMutationRequest)
    (body : Option VoiceJson) : Except String VoiceMutation :=
  match request with
  | .delete mutation => .ok mutation
  | .upload =>
    match body with
    | none => .error "upload response is not valid JSON"
    | some (.object fields) =>
      match (VoiceJson.get fields "name").voiceName py with
      | none => .error "upload response must include the stored voice name"
      | some normalized => .ok ⟨.upload, normalized⟩
    | some _ => .error "upload response must be an object"

/-! ## The routing state -/

/-- `VoiceRoutingState`. -/
structure VoiceRouting where
  workers : List Worker
  ownerUrl : Option String
  uploadedNames : Finset VoiceName := ∅
  isActive : Bool := false
  isHydrated : Bool := false
  isRegistryDirty : Bool := false
  isReconciling : Bool := false
  mutationsInflight : Nat := 0
  lastRefreshError : Option String := none
  registryGeneration : Nat := 0
  refreshRequested : Bool := false

inductive RouteKind
  | speech | speechBatch | voiceControl | transcription | generation
  deriving DecidableEq, Repr

structure RouteMetadata where
  routeKind : RouteKind
  model : Option String
  requiredCapabilities : List Capability
  voiceNamesRequiringRegistry : List VoiceName
  isBodyOverMetadataLimit : Bool

def eligibleWorkers (workers : List Worker) (requiredCapabilities : List Capability)
    (requestedModel : Option String) : List Worker :=
  let candidates := workers.filter fun w =>
    w.isRoutable && requiredCapabilities.all fun c => w.config.capabilities.contains c
  if requestedModel.isSome && candidates.any fun w => w.config.model.isSome then
    candidates.filter fun w => w.config.model == requestedModel
  else candidates

/-- `require_eligible_worker`; `none` is `NoEligibleWorkerError`. -/
def requireEligibleWorker (worker : Option Worker) (requiredCapabilities : List Capability)
    (requestedModel : Option String) : Option Worker :=
  (eligibleWorkers worker.toList requiredCapabilities requestedModel).head?

namespace VoiceRouting

def owner (r : VoiceRouting) : Option Worker :=
  r.ownerUrl.bind fun url => r.workers.find? fun w => w.url == url

/-- The worker `ensure_owner` returns, and the state after. -/
def ensureOwner (r : VoiceRouting) : Option Worker × VoiceRouting :=
  if r.owner.isSome || r.ownerUrl.isSome then (r.owner, r)
  else
    match r.workers.find? fun w => w.isRoutable && canOwnUploadedVoices w.config.capabilities with
    | none => (none, r)
    | some w => (some w, { r with ownerUrl := some w.url })

def requestRefresh (r : VoiceRouting) : VoiceRouting :=
  if r.isActive && !r.isReconciling then { r with refreshRequested := true } else r

def activate (r : VoiceRouting) : VoiceRouting :=
  if r.isActive then r else requestRefresh { r with isActive := true }

def markUncertain (r : VoiceRouting) : VoiceRouting :=
  { r with
    isActive := true
    isRegistryDirty := true
    lastRefreshError := some "mutation outcome is uncertain"
    refreshRequested := true }

def beginMutation (r : VoiceRouting) : VoiceRouting :=
  { r with
    isActive := true
    mutationsInflight := r.mutationsInflight + 1
    registryGeneration := r.registryGeneration + 1 }

/-- `none` when the assertion fails, here and in `endMutation` and `apply`. -/
def markMutationDispatched (r : VoiceRouting) : Option VoiceRouting :=
  if 0 < r.mutationsInflight then some { r with isRegistryDirty := true } else none

def endMutation (r : VoiceRouting) : Option VoiceRouting :=
  if 0 < r.mutationsInflight then
    let inflight := r.mutationsInflight - 1
    some { r with
      mutationsInflight := inflight
      refreshRequested := r.refreshRequested || inflight == 0 }
  else none

def apply (r : VoiceRouting) (mutation : VoiceMutation) : Option VoiceRouting :=
  if 0 < r.mutationsInflight then
    some { r with
      uploadedNames :=
        match mutation.operation with
        | .upload => insert mutation.name r.uploadedNames
        | .delete => r.uploadedNames.erase mutation.name }
  else none

/-- `requires_owner`, and the state after. -/
def requiresOwner (py : PyLower) (r : VoiceRouting) (voiceNames : List VoiceName)
    (isBodyOverMetadataLimit : Bool) : Bool × VoiceRouting :=
  let ensured := r.ensureOwner
  if ensured.1.isNone then (false, ensured.2)
  else if isBodyOverMetadataLimit then (true, ensured.2)
  else
    let names := (voiceNames.filterMap (routerVoiceName py)).filter (· ≠ defaultVoiceName)
    if names = [] then (false, ensured.2)
    else
      let r := ensured.2.activate
      if !r.isHydrated || r.isRegistryDirty || 0 < r.mutationsInflight then (true, r.requestRefresh)
      else (names.any fun name => decide (name ∈ r.uploadedNames), r)

/-- `_select_worker`; `select` is the selector of the load-balancing policy. -/
def selectWorker (py : PyLower)
    (select : List Worker → List Capability → Option String → Option Worker)
    (r : VoiceRouting) (metadata : RouteMetadata) : Option Worker × VoiceRouting :=
  let isVoiceControl := metadata.routeKind == .voiceControl
  let r := if isVoiceControl then r.activate else r
  let required :=
    if metadata.routeKind == .speech || metadata.routeKind == .speechBatch then
      r.requiresOwner py metadata.voiceNamesRequiringRegistry metadata.isBodyOverMetadataLimit
    else (false, r)
  let capabilities :=
    if required.1 then .audioInput :: metadata.requiredCapabilities
    else metadata.requiredCapabilities
  if isVoiceControl || required.1 then
    let ensured := required.2.ensureOwner
    (requireEligibleWorker ensured.1 capabilities metadata.model, ensured.2)
  else (select required.2.workers capabilities metadata.model, required.2)

end VoiceRouting

/-! ## The router, its workers and the exchanges in flight -/

/-- Where a mutation request stands: the router awaits the response headers, reads the body,
    or closes the upstream stream before `end_mutation`. -/
inductive ExchangeStage
  | sending
  | reading (statusCode : Int)
  | closing
  deriving DecidableEq, Repr

structure VoiceExchange where
  worker : String
  request : VoiceRequest
  mutation : VoiceMutationRequest
  /-- The owner has carried the request out. -/
  applied : Bool := false
  stage : ExchangeStage := .sending
  deriving DecidableEq, Repr

/-- `_reconcile_once` while it awaits the owner; `response` is what the owner answered. -/
structure RegistryFetch where
  worker : String
  generation : Nat
  response : Option VoiceJson := none

structure VoiceWorld (py : PyLower) where
  routing : VoiceRouting
  /-- The voices each worker holds, by its URL. -/
  stores : String → SpeakerSampleStore py
  exchanges : List VoiceExchange := []
  fetch : Option RegistryFetch := none
  retryArmed : Bool := false

inductive VoiceAct (py : PyLower)
  /-- A request picks its worker. -/
  | route (metadata : RouteMetadata)
  | forward (request : VoiceRequest) (model : Option String) (capabilities : List Capability)
  | carryOut (i : Nat)
  /-- `httpx.PoolTimeout`: the request never reached the worker. -/
  | poolTimeout (i : Nat)
  /-- Any other error, a timeout or a cancellation, while the headers are awaited. -/
  | sendFailed (i : Nat)
  | headers (i : Nat) (statusCode : Int)
  /-- The body cannot be read, or reading it is cancelled. -/
  | readFailed (i : Nat)
  | readBody (i : Nat) (body : Option VoiceJson)
  | finish (i : Nat)
  | addWorker (w : Worker)
  /-- A health check, or an accepted update, of a worker. -/
  | replaceWorker (i : Nat) (w : Worker)
  | deleteWorker (workerId : String)
  /-- A registry change, or the timer of a failed reconciliation. -/
  | notifyRegistryChange
  | retryTimer
  | reconcile
  | answerNames
  | fetchFailed (error : String)
  | finishReconcile
  /-- The voices of a worker that is not the owner. -/
  | otherStore (url : String) (store : SpeakerSampleStore py)

namespace VoiceWorld

variable {py : PyLower}

/-- The owner carries the request out; a refused request changes nothing. -/
def carryOut (store : SpeakerSampleStore py) : VoiceRequest → SpeakerSampleStore py
  | .upload name refusal =>
    match store.upload name refusal with
    | .ok (store', _) => store'
    | .error _ => store
  | .delete name unlinks =>
    match store.delete name unlinks with
    | .ok (store', _) => store'
    | .error _ => store

/-- `_forward_admitted` of a mutation up to the first await: `begin_mutation`, then the owner
    is required; without an eligible owner the request is refused and `end_mutation` runs. -/
def forwardMutation (s : VoiceWorld py)
    (select : List Worker → List Capability → Option String → Option Worker)
    (request : VoiceRequest) (mutation : VoiceMutationRequest) (metadata : RouteMetadata) :
    Option (VoiceWorld py) :=
  let selected := s.routing.beginMutation.selectWorker py select metadata
  match selected.1 with
  | none => selected.2.endMutation.map fun r => { s with routing := r }
  | some w =>
    some { s with
      routing := selected.2
      exchanges := s.exchanges ++ [{ worker := w.url, request, mutation }] }

/-- The exchange ends: `end_mutation`. -/
def endExchange (s : VoiceWorld py) (i : Nat) (r : VoiceRouting) : Option (VoiceWorld py) :=
  r.endMutation.map fun r => { s with routing := r, exchanges := s.exchanges.eraseIdx i }

def setStage (s : VoiceWorld py) (i : Nat) (e : VoiceExchange) (stage : ExchangeStage)
    (r : VoiceRouting) : VoiceWorld py :=
  { s with routing := r, exchanges := s.exchanges.set i { e with stage } }

/-- The routing state after a 2xx body of a mutation. -/
def commitBody (py : PyLower) (r : VoiceRouting) (mutation : VoiceMutationRequest)
    (body : Option VoiceJson) : Option VoiceRouting :=
  match committedVoiceMutation py mutation body with
  | .error _ => some r.markUncertain
  | .ok mutation => r.apply mutation

/-- `_reconcile_once` up to its await. -/
def reconcile (s : VoiceWorld py) : VoiceWorld py :=
  let s := { s with
    routing := { s.routing with refreshRequested := false }
    retryArmed := false }
  if 0 < s.routing.mutationsInflight then s
  else
    match s.routing.owner with
    | none => { s with retryArmed := !s.routing.isHydrated || s.routing.isRegistryDirty }
    | some w =>
      if w.isRoutable then
        { s with
          routing := { s.routing with isReconciling := true }
          fetch := some { worker := w.url, generation := s.routing.registryGeneration } }
      else { s with retryArmed := !s.routing.isHydrated || s.routing.isRegistryDirty }

/-- The end of `_reconcile_once` when the owner's names are not to be had. -/
def fetchFailed (s : VoiceWorld py) (error : String) : VoiceWorld py :=
  { s with
    routing := { s.routing with isReconciling := false, lastRefreshError := some error }
    fetch := none
    retryArmed := true }

/-- The end of `_reconcile_once` with the owner's names. -/
def adoptNames (s : VoiceWorld py) (f : RegistryFetch) (names : Finset VoiceName) :
    VoiceWorld py :=
  if s.routing.registryGeneration ≠ f.generation ∨ 0 < s.routing.mutationsInflight then
    { s with
      routing := { s.routing with isReconciling := false }
      fetch := none
      retryArmed := true }
  else
    { s with
      routing := { s.routing with
        uploadedNames := names
        isHydrated := true
        isRegistryDirty := false
        isReconciling := false
        lastRefreshError := none }
      fetch := none
      retryArmed := false }

/-- `_apply_worker_delete`, which refuses to delete the voice owner. -/
def deleteWorker (r : VoiceRouting) (workerId : String) : VoiceRouting :=
  match findWorker r.workers workerId with
  | none => r
  | some w =>
    let ensured := r.ensureOwner
    if ensured.1.any fun o => o.url == w.url then ensured.2
    else { ensured.2 with workers := ensured.2.workers.filter fun w' => w'.url != w.url }

/-- The stages of an exchange, without the steps of the owner. -/
def exchangeStep (s : VoiceWorld py) (i : Nat) (e : VoiceExchange) :
    VoiceAct py → Option (VoiceWorld py)
  | .poolTimeout _ =>
    if e.stage = .sending ∧ e.applied = false then s.endExchange i s.routing else none
  | .sendFailed _ =>
    if e.stage = .sending then s.endExchange i s.routing.markUncertain else none
  | .headers _ statusCode =>
    if e.stage = .sending then
      s.routing.markMutationDispatched.map (s.setStage i e (.reading statusCode))
    else none
  | .readFailed _ =>
    match e.stage with
    | .reading _ => some (s.setStage i e .closing s.routing.markUncertain)
    | _ => none
  | .readBody _ body =>
    match e.stage with
    | .reading statusCode =>
      if 200 ≤ statusCode ∧ statusCode < 300 then
        (commitBody py s.routing e.mutation body).map (s.setStage i e .closing)
      else some (s.setStage i e .closing s.routing)
    | _ => none
  | .finish _ => if e.stage = .closing then s.endExchange i s.routing else none
  | .carryOut _ =>
    if e.applied then none
    else
      some { s with
        stores := Function.update s.stores e.worker (carryOut (s.stores e.worker) e.request)
        exchanges := s.exchanges.set i { e with applied := true } }
  | _ => none

/-- One step of a coroutine of the router, up to its next await, or of a worker; `none` when it
    cannot be taken. -/
def step (select : List Worker → List Capability → Option String → Option Worker)
    (s : VoiceWorld py) (act : VoiceAct py) : Option (VoiceWorld py) :=
  match act with
  | .route metadata => some { s with routing := (s.routing.selectWorker py select metadata).2 }
  | .forward request model capabilities =>
    let metadata : RouteMetadata := ⟨.voiceControl, model, capabilities, [], false⟩
    match voiceMutationRequest py request with
    | none => some { s with routing := (s.routing.selectWorker py select metadata).2 }
    | some mutation => s.forwardMutation select request mutation metadata
  | .carryOut i | .poolTimeout i | .sendFailed i | .headers i _ | .readFailed i | .readBody i _
  | .finish i => (s.exchanges[i]?).bind fun e => s.exchangeStep i e act
  | .addWorker w =>
    if s.routing.workers.any fun w' => w'.url == w.url then none
    else some { s with routing := { s.routing with workers := s.routing.workers ++ [w] } }
  | .replaceWorker i w =>
    if (s.routing.workers[i]?).any fun w' => w'.url == w.url then
      some { s with routing := { s.routing with workers := s.routing.workers.set i w } }
    else none
  | .deleteWorker workerId => some { s with routing := deleteWorker s.routing workerId }
  | .notifyRegistryChange => some { s with routing := s.routing.requestRefresh }
  | .retryTimer =>
    if s.retryArmed then some { s with routing := { s.routing with refreshRequested := true } }
    else none
  | .reconcile =>
    if s.fetch.isNone ∧ s.routing.refreshRequested then some s.reconcile else none
  | .answerNames =>
    match s.fetch with
    | none => none
    | some f =>
      some { s with
        fetch := some { f with response := some (namesOnlyResponse (s.stores f.worker)) } }
  | .fetchFailed error => if s.fetch.isSome then some (s.fetchFailed error) else none
  | .finishReconcile =>
    match s.fetch with
    | none => none
    | some f =>
      match f.response with
      | none => none
      | some body =>
        match body.uploadedVoiceNames py with
        | .error _ => some (s.fetchFailed "ValueError")
        | .ok names => some (s.adoptNames f names)
  | .otherStore url store =>
    if s.routing.ownerUrl = some url then none
    else some { s with stores := Function.update s.stores url store }

/-- The router as it starts: a configured owner is one of the workers. -/
def Initial (s : VoiceWorld py) : Prop :=
  (∀ url, s.routing.ownerUrl = some url → ∃ w ∈ s.routing.workers, w.url = url) ∧
    s.routing = { workers := s.routing.workers, ownerUrl := s.routing.ownerUrl } ∧
    s.exchanges = [] ∧ s.fetch = none

end VoiceWorld

open VoiceWorld in
def voiceRouting (py : PyLower)
    (select : List Worker → List Capability → Option String → Option Worker) :
    System (VoiceWorld py) (VoiceAct py) :=
  .ofFun Initial (VoiceWorld.step select)

/-! ## What choosing a worker leaves -/

namespace VoiceRouting

/-- `r'` knows and awaits what `r` does; an owner it has gained is one of the workers. -/
structure Touches (r r' : VoiceRouting) : Prop where
  workers : r'.workers = r.workers
  uploadedNames : r'.uploadedNames = r.uploadedNames
  isHydrated : r'.isHydrated = r.isHydrated
  isRegistryDirty : r'.isRegistryDirty = r.isRegistryDirty
  mutationsInflight : r'.mutationsInflight = r.mutationsInflight
  registryGeneration : r'.registryGeneration = r.registryGeneration
  ownerUrl : r'.ownerUrl = r.ownerUrl ∨
    r.ownerUrl = none ∧ ∃ w ∈ r.workers, r'.ownerUrl = some w.url

variable (r : VoiceRouting)

theorem Touches.refl : Touches r r :=
  ⟨rfl, rfl, rfl, rfl, rfl, rfl, .inl rfl⟩

theorem Touches.trans {r₁ r₂ r₃ : VoiceRouting} (h : Touches r₁ r₂) (h' : Touches r₂ r₃) :
    Touches r₁ r₃ where
  workers := h'.workers.trans h.workers
  uploadedNames := h'.uploadedNames.trans h.uploadedNames
  isHydrated := h'.isHydrated.trans h.isHydrated
  isRegistryDirty := h'.isRegistryDirty.trans h.isRegistryDirty
  mutationsInflight := h'.mutationsInflight.trans h.mutationsInflight
  registryGeneration := h'.registryGeneration.trans h.registryGeneration
  ownerUrl := by
    rcases h.ownerUrl with hsame | ⟨hn, w, hw, hsome⟩
    · rcases h'.ownerUrl with hsame' | ⟨hn', w, hw, hsome'⟩
      · exact .inl (hsame'.trans hsame)
      · exact .inr ⟨hsame ▸ hn', w, h.workers ▸ hw, hsome'⟩
    · rcases h'.ownerUrl with hsame' | ⟨hn', -⟩
      · exact .inr ⟨hn, w, hw, hsame'.trans hsome⟩
      · rw [hsome] at hn'
        cases hn'

theorem touches_requestRefresh : Touches r r.requestRefresh := by
  unfold requestRefresh
  split
  · exact ⟨rfl, rfl, rfl, rfl, rfl, rfl, .inl rfl⟩
  · exact .refl r

theorem touches_activate : Touches r r.activate := by
  unfold activate
  split
  · exact .refl r
  · have hact : Touches r { r with isActive := true } := ⟨rfl, rfl, rfl, rfl, rfl, rfl, .inl rfl⟩
    exact hact.trans (touches_requestRefresh _)

theorem touches_ensureOwner : Touches r r.ensureOwner.2 := by
  unfold ensureOwner
  split
  · exact .refl r
  next hno =>
    split
    · exact .refl r
    · next w hfind =>
      have hn : r.ownerUrl = none := by
        rw [Bool.or_eq_true, not_or] at hno
        exact not_isSome_iff_eq_none.mp hno.2
      exact ⟨rfl, rfl, rfl, rfl, rfl, rfl, .inr ⟨hn, w, mem_of_find?_eq_some hfind, rfl⟩⟩

theorem touches_requiresOwner (py : PyLower) (r : VoiceRouting) (voiceNames : List VoiceName)
    (big : Bool) : Touches r (r.requiresOwner py voiceNames big).2 := by
  have hensure := touches_ensureOwner r
  dsimp only [requiresOwner]
  split
  · exact hensure
  split
  · exact hensure
  split
  · exact hensure
  split
  · exact (hensure.trans (touches_activate _)).trans (touches_requestRefresh _)
  · exact hensure.trans (touches_activate _)

theorem touches_selectWorker (py : PyLower)
    (select : List Worker → List Capability → Option String → Option Worker) (r : VoiceRouting)
    (metadata : RouteMetadata) : Touches r (r.selectWorker py select metadata).2 := by
  have hcontrol : Touches r (if metadata.routeKind == .voiceControl then r.activate else r) := by
    split
    · exact touches_activate r
    · exact .refl r
  dsimp only [selectWorker]
  generalize (if metadata.routeKind == .voiceControl then r.activate else r) = r' at hcontrol
  have hrequired : Touches r (if metadata.routeKind == .speech || metadata.routeKind == .speechBatch
      then r'.requiresOwner py metadata.voiceNamesRequiringRegistry metadata.isBodyOverMetadataLimit
      else (false, r')).2 := by
    split
    · exact hcontrol.trans (touches_requiresOwner py r' _ _)
    · exact hcontrol
  generalize (if metadata.routeKind == .speech || metadata.routeKind == .speechBatch
      then r'.requiresOwner py metadata.voiceNamesRequiringRegistry metadata.isBodyOverMetadataLimit
      else (false, r')) = required at hrequired
  split
  · exact hrequired.trans (touches_ensureOwner _)
  · exact hrequired

@[simp] theorem requestRefresh_ownerUrl (r : VoiceRouting) :
    r.requestRefresh.ownerUrl = r.ownerUrl := by
  unfold requestRefresh; split <;> rfl

@[simp] theorem activate_ownerUrl (r : VoiceRouting) : r.activate.ownerUrl = r.ownerUrl := by
  unfold activate; split
  · rfl
  · exact requestRefresh_ownerUrl _

/-- `requires_owner` assigns the owner `ensure_owner` does. -/
theorem requiresOwner_ownerUrl (py : PyLower) (r : VoiceRouting) (voiceNames : List VoiceName)
    (big : Bool) : (r.requiresOwner py voiceNames big).2.ownerUrl = r.ensureOwner.2.ownerUrl := by
  dsimp only [requiresOwner]
  split
  · rfl
  split
  · rfl
  split
  · rfl
  split
  · rw [requestRefresh_ownerUrl, activate_ownerUrl]
  · exact activate_ownerUrl _

/-! ## The owner -/

variable {w : Worker}

theorem owner_url {r : VoiceRouting} (h : r.owner = some w) :
    r.ownerUrl = some w.url ∧ w ∈ r.workers := by
  obtain ⟨url, hurl, hfind⟩ := bind_eq_some_iff.mp h
  have heq : w.url = url := by simpa using find?_some hfind
  exact ⟨heq ▸ hurl, mem_of_find?_eq_some hfind⟩

theorem ensureOwner_url {r : VoiceRouting} (h : r.ensureOwner.1 = some w) :
    r.ensureOwner.2.ownerUrl = some w.url := by
  unfold ensureOwner at h ⊢
  split at h
  · next hown =>
    rw [if_pos hown]
    exact (owner_url h).1
  next hno =>
    rw [if_neg hno]
    split at h
    · cases h
    · next w' hfind =>
      rw [← some.inj h]

theorem ensureOwner_of_url {r : VoiceRouting} {url : String} (hurl : r.ownerUrl = some url)
    (h : r.ensureOwner.1 = some w) : w.url = url := by
  have hsame : r.ensureOwner.2.ownerUrl = some url := by
    rcases (touches_ensureOwner r).ownerUrl with hsame | ⟨hn, -⟩
    · exact hsame.trans hurl
    · rw [hurl] at hn
      cases hn
  rw [ensureOwner_url h] at hsame
  exact some.inj hsame

theorem requireEligibleWorker_eq_some {worker : Option Worker} {capabilities : List Capability}
    {model : Option String} (h : requireEligibleWorker worker capabilities model = some w) : worker = some w := by
  have hmem : w ∈ eligibleWorkers worker.toList capabilities model := mem_of_head? h
  have hmem' : w ∈ worker.toList := by
    dsimp only [eligibleWorkers] at hmem
    split at hmem
    · exact mem_of_mem_filter (mem_of_mem_filter hmem)
    · exact mem_of_mem_filter hmem
  exact mem_toList.mp hmem'

theorem ensureOwner_of_listed {r : VoiceRouting}
    (hl : ∀ url, r.ownerUrl = some url → ∃ w ∈ r.workers, w.url = url) {url : String}
    (hurl : r.ensureOwner.2.ownerUrl = some url) :
    ∃ o, r.ensureOwner.1 = some o ∧ o.url = url := by
  cases hown : r.ensureOwner.1 with
  | some o =>
    refine ⟨o, rfl, ?_⟩
    rw [ensureOwner_url hown] at hurl
    exact some.inj hurl
  | none =>
    exfalso
    unfold ensureOwner at hown hurl
    split at hown
    · next hsome =>
      rw [if_pos hsome] at hurl
      obtain ⟨w, hw, hwurl⟩ := hl url hurl
      change r.owner = none at hown
      rw [owner, hurl, bind_some] at hown
      exact find?_eq_none.mp hown w hw (beq_iff_eq.mpr hwurl)
    · next hno =>
      rw [if_neg hno] at hurl
      split at hown
      · next hfind =>
        rw [hfind] at hurl
        change r.ownerUrl = some url at hurl
        rw [hurl] at hno
        exact hno (Bool.or_true _)
      · cases hown

theorem selectWorker_control {py : PyLower}
    {select : List Worker → List Capability → Option String → Option Worker} {r : VoiceRouting}
    {metadata : RouteMetadata} (hkind : metadata.routeKind = .voiceControl)
    (h : (r.selectWorker py select metadata).1 = some w) :
    (r.selectWorker py select metadata).2.ownerUrl = some w.url := by
  unfold selectWorker at h ⊢
  dsimp only at h ⊢
  rw [hkind] at h ⊢
  exact ensureOwner_url (requireEligibleWorker_eq_some h)

end VoiceRouting

/-! ## Names the owner answers with -/

theorem routerVoiceName_of_normalize {py : PyLower} {name key : VoiceName}
    (h : normalizeVoiceName py name = .ok key) : routerVoiceName py name = some key := by
  obtain ⟨hne, hpat, rfl⟩ := normalizeVoiceName_eq_ok h
  have hlower := py.lower_ne_nil hne (ascii_of_pattern hpat)
  dsimp only [routerVoiceName]
  rw [if_neg hlower]

theorem mem_of_mapM_ok {α β ε : Type} {f : α → Except ε β} {items : List α} :
    ∀ {out : List β}, items.mapM f = .ok out → ∀ a ∈ items, ∃ b ∈ out, f a = .ok b := by
  induction items with
  | nil => intro out _ a ha; cases ha
  | cons x items ih =>
    intro out h a ha
    rw [mapM_cons] at h
    cases hx : f x with
    | error e => rw [hx] at h; cases h
    | ok y =>
      cases hrest : items.mapM f with
      | error e => rw [hx, hrest] at h; cases h
      | ok ys =>
        rw [hx, hrest] at h
        obtain rfl := Except.ok.inj h
        rcases mem_cons.mp ha with rfl | ha
        · exact ⟨y, mem_cons_self, hx⟩
        · obtain ⟨b, hb, hfa⟩ := ih hrest a ha
          exact ⟨b, mem_cons_of_mem y hb, hfa⟩

theorem mem_of_namesOnlyResponse {py : PyLower} {store : SpeakerSampleStore py}
    {names : Finset VoiceName}
    (h : (namesOnlyResponse store).uploadedVoiceNames py = .ok names) {v : UploadedVoice}
    (hv : v ∈ store.voices) : v.normalizedName ∈ names := by
  have hitem : str v.name ∈ store.uploadedVoiceNames.map .str := by
    refine mem_map_of_mem ?_
    rw [SpeakerSampleStore.uploadedVoiceNames, mem_insertionSort]
    exact mem_map_of_mem hv
  change ((store.uploadedVoiceNames.map .str).mapM (listedName py)).map List.toFinset
    = .ok names at h
  cases hmap : (store.uploadedVoiceNames.map .str).mapM (listedName py) with
  | error e => rw [hmap] at h; cases h
  | ok out =>
    rw [hmap] at h
    obtain rfl := Except.ok.inj h
    obtain ⟨key, hkey, hl⟩ := mem_of_mapM_ok hmap _ hitem
    have hname := routerVoiceName_of_normalize (store.stored v hv).1
    unfold listedName at hl
    rw [show (str v.name).voiceName py = _ from hname] at hl
    rw [Except.ok.inj hl]
    exact List.mem_toFinset.mpr hkey

/-! ## The invariant -/

/-- What holds between the router, the owner and the exchanges in flight. -/
structure VoiceInv {py : PyLower} (s : VoiceWorld py) : Prop where
  inflight : s.routing.mutationsInflight = s.exchanges.length
  listed : ∀ url, s.routing.ownerUrl = some url → ∃ w ∈ s.routing.workers, w.url = url
  unassigned : s.routing.ownerUrl = none →
    s.routing.isHydrated = false ∧ s.exchanges = [] ∧ s.fetch = none
  target : ∀ e ∈ s.exchanges, s.routing.ownerUrl = some e.worker
  dispatched : ∀ e ∈ s.exchanges, e.stage ≠ .sending → s.routing.isRegistryDirty = true
  known : ∀ url, s.routing.ownerUrl = some url → s.routing.isHydrated = true →
    s.routing.isRegistryDirty = false → (∀ e ∈ s.exchanges, e.applied = false) →
    ∀ v ∈ (s.stores url).voices, v.normalizedName ∈ s.routing.uploadedNames
  fetching : ∀ f, s.fetch = some f → s.routing.ownerUrl = some f.worker ∧
    f.generation ≤ s.routing.registryGeneration ∧
    (f.generation = s.routing.registryGeneration → s.exchanges = [] ∧
      ∀ body, f.response = some body → body = namesOnlyResponse (s.stores f.worker))

namespace VoiceInv

open VoiceRouting VoiceWorld

variable {py : PyLower} {s : VoiceWorld py}
  {select : List Worker → List Capability → Option String → Option Worker}

theorem of_initial (h : Initial s) : VoiceInv s := by
  obtain ⟨hl, hrouting, hexchanges, hfetch⟩ := h
  have hh : s.routing.isHydrated = false := by rw [hrouting]
  have hi : s.routing.mutationsInflight = 0 := by rw [hrouting]
  constructor
  · rw [hi, hexchanges]; rfl
  · exact hl
  · exact fun _ => ⟨hh, hexchanges, hfetch⟩
  · rw [hexchanges]; exact (by rintro _ ⟨⟩)
  · rw [hexchanges]; exact (by rintro _ ⟨⟩)
  · rw [hh]; exact fun _ _ h => absurd h Bool.false_ne_true
  · rw [hfetch]; exact (by rintro _ ⟨⟩)

variable {r : VoiceRouting}

/-- Choosing a worker, or waking the reconciliation, keeps the invariant. -/
theorem of_touches (h : VoiceInv s) (ht : Touches s.routing r) (armed : Bool) :
    VoiceInv { s with routing := r, retryArmed := armed } := by
  -- an owner that is gained finds the router without exchanges, names or a fetch
  have hgain : ∀ url, r.ownerUrl = some url → s.routing.ownerUrl = some url ∨
      (∃ w ∈ s.routing.workers, w.url = url) ∧ s.routing.ownerUrl = none := by
    intro url hurl
    rcases ht.ownerUrl with hsame | ⟨hn, w, hw, hsome⟩
    · exact .inl (hsame ▸ hurl)
    · exact .inr ⟨⟨w, hw, some.inj (hsome.symm.trans hurl)⟩, hn⟩
  have hkeep : ∀ url, s.routing.ownerUrl = some url → r.ownerUrl = some url := by
    intro url hurl
    rcases ht.ownerUrl with hsame | ⟨hn, -⟩
    · exact hsame.trans hurl
    · rw [hurl] at hn
      cases hn
  constructor
  · exact ht.mutationsInflight.trans h.inflight
  · intro url hurl
    change ∃ w ∈ r.workers, w.url = url
    rw [ht.workers]
    rcases hgain url hurl with hold | ⟨hnew, -⟩
    · exact h.listed url hold
    · exact hnew
  · intro hn
    have hold : s.routing.ownerUrl = none := by
      cases hurl : s.routing.ownerUrl with
      | none => rfl
      | some url => exact absurd ((hkeep url hurl).symm.trans hn) (by simp)
    obtain ⟨hh, hrest⟩ := h.unassigned hold
    exact ⟨ht.isHydrated.trans hh, hrest⟩
  · exact fun e he => hkeep _ (h.target e he)
  · exact fun e he hstg => ht.isRegistryDirty.trans (h.dispatched e he hstg)
  · intro url hurl hh hd happlied
    have hh' := ht.isHydrated.symm.trans hh
    change ∀ v ∈ (s.stores url).voices, v.normalizedName ∈ r.uploadedNames
    rw [ht.uploadedNames]
    rcases hgain url hurl with hold | ⟨-, hn⟩
    · exact h.known url hold hh' (ht.isRegistryDirty.symm.trans hd) happlied
    · rw [(h.unassigned hn).1] at hh'
      cases hh'
  · intro f hf
    obtain ⟨howner, hle, heq⟩ := h.fetching f hf
    refine ⟨hkeep _ howner, ?_, ?_⟩
    · exact hle.trans ht.registryGeneration.ge
    · exact fun hgen => heq (hgen.trans ht.registryGeneration)

variable {e : VoiceExchange} {i : Nat}

/-- While an exchange is in flight, a reconciliation under way is already too old. -/
theorem fetch_stale (h : VoiceInv s) (he : e ∈ s.exchanges) {f : RegistryFetch}
    (hf : s.fetch = some f) : f.generation ≠ s.routing.registryGeneration := by
  intro hgen
  rw [((h.fetching f hf).2.2 hgen).1] at he
  exact absurd he not_mem_nil

theorem of_exchange (h : VoiceInv s) (he : e ∈ s.exchanges)
    {stores : String → SpeakerSampleStore py} {exchanges : List VoiceExchange}
    (hworkers : r.workers = s.routing.workers) (howner : r.ownerUrl = s.routing.ownerUrl)
    (hgen : r.registryGeneration = s.routing.registryGeneration)
    (hi : r.mutationsInflight = exchanges.length)
    (htarget : ∀ e' ∈ exchanges, ∃ e₀ ∈ s.exchanges, e'.worker = e₀.worker)
    (hdispatched : ∀ e' ∈ exchanges, e'.stage ≠ .sending → r.isRegistryDirty = true)
    (hknown : r.isHydrated = true → r.isRegistryDirty = false →
      (∀ e' ∈ exchanges, e'.applied = false) → stores = s.stores ∧
      r.uploadedNames = s.routing.uploadedNames ∧ s.routing.isHydrated = true ∧
      s.routing.isRegistryDirty = false ∧ ∀ e' ∈ s.exchanges, e'.applied = false) :
    VoiceInv { s with routing := r, stores := stores, exchanges := exchanges } := by
  constructor
  · exact hi
  · intro url hurl
    obtain ⟨w, hw, hwurl⟩ := h.listed url (howner ▸ hurl)
    exact ⟨w, hworkers ▸ hw, hwurl⟩
  · intro hn
    have htarget := h.target e he
    rw [← howner, show r.ownerUrl = none from hn] at htarget
    cases htarget
  · intro e' he'
    obtain ⟨e₀, he₀, hwk⟩ := htarget e' he'
    rw [hwk]
    exact howner.trans (h.target e₀ he₀)
  · exact hdispatched
  · intro url hurl hh hd happlied
    obtain ⟨hstores, hnames, hh', hd', happlied'⟩ := hknown hh hd happlied
    change ∀ v ∈ (stores url).voices, v.normalizedName ∈ r.uploadedNames
    rw [hstores, hnames]
    exact h.known url (howner ▸ hurl) hh' hd' happlied'
  · intro f hf
    obtain ⟨hwk, hle, -⟩ := h.fetching f hf
    refine ⟨howner.trans hwk, hle.trans hgen.ge, fun heq => ?_⟩
    exact absurd (heq.trans hgen) (h.fetch_stale he hf)

theorem mem_of_set {e' : VoiceExchange} {es : List VoiceExchange} (h : e' ∈ es.set i e) :
    e' ∈ es ∨ e' = e := mem_or_eq_of_mem_set h

theorem endExchange (h : VoiceInv s) (he : s.exchanges[i]? = some e)
    (hr : Touches s.routing { r with
      isRegistryDirty := s.routing.isRegistryDirty }) (howner : r.ownerUrl = s.routing.ownerUrl)
    (hd : r.isRegistryDirty = true ∨
      r.isRegistryDirty = s.routing.isRegistryDirty ∧ e.applied = false) {s' : VoiceWorld py}
    (hend : s.endExchange i r = some s') : VoiceInv s' := by
  have hmem := mem_of_getElem? he
  have hlt : i < s.exchanges.length := (List.getElem?_eq_some_iff.mp he).1
  unfold VoiceWorld.endExchange at hend
  obtain ⟨r', hr', rfl⟩ := map_eq_some_iff.mp hend
  unfold endMutation at hr'
  split at hr'
  swap
  · cases hr'
  cases hr'
  refine h.of_exchange hmem hr.workers howner hr.registryGeneration ?_ ?_ ?_ ?_
  · change r.mutationsInflight - 1 = (s.exchanges.eraseIdx i).length
    rw [length_eraseIdx_of_lt hlt, ← h.inflight, ← hr.mutationsInflight]
  · exact fun e' he' => ⟨e', mem_of_mem_eraseIdx he', rfl⟩
  · intro e' he' hstg
    change r.isRegistryDirty = true
    rcases hd with hd | ⟨hsame, -⟩
    · exact hd
    · exact hsame.trans (h.dispatched e' (mem_of_mem_eraseIdx he') hstg)
  · intro hh hclean happlied
    change r.isRegistryDirty = false at hclean
    rcases hd with hd | ⟨hsame, hnot⟩
    · rw [hd] at hclean
      cases hclean
    · refine ⟨rfl, hr.uploadedNames, hr.isHydrated.symm.trans hh, hsame ▸ hclean, ?_⟩
      intro e' he'
      obtain ⟨j, hj⟩ := getElem?_of_mem he'
      by_cases hji : j = i
      · rw [hji, he] at hj
        rw [← some.inj hj]
        exact hnot
      · exact happlied e' (mem_eraseIdx_iff_getElem?.mpr ⟨j, hji, hj⟩)

theorem setStage (h : VoiceInv s) (he : s.exchanges[i]? = some e)
    (hworkers : r.workers = s.routing.workers) (howner : r.ownerUrl = s.routing.ownerUrl)
    (hgen : r.registryGeneration = s.routing.registryGeneration)
    (hi : r.mutationsInflight = s.routing.mutationsInflight)
    (hd : r.isRegistryDirty = true) (stage : ExchangeStage) :
    VoiceInv (s.setStage i e stage r) := by
  have hmem := mem_of_getElem? he
  refine h.of_exchange hmem hworkers howner hgen ?_ ?_ (fun _ _ _ => hd) ?_
  · rw [List.length_set]
    exact hi.trans h.inflight
  · intro e' he'
    rcases mem_of_set he' with he' | rfl
    · exact ⟨e', he', rfl⟩
    · exact ⟨e, hmem, rfl⟩
  · intro _ hclean
    rw [hd] at hclean
    cases hclean

theorem commitBody_fields {r' : VoiceRouting} {mutation : VoiceMutationRequest}
    {body : Option VoiceJson} (h : commitBody py r mutation body = some r')
    (hd : r.isRegistryDirty = true) :
    r'.workers = r.workers ∧ r'.ownerUrl = r.ownerUrl ∧
      r'.registryGeneration = r.registryGeneration ∧
      r'.mutationsInflight = r.mutationsInflight ∧ r'.isRegistryDirty = true := by
  unfold commitBody at h
  split at h
  · cases h
    exact ⟨rfl, rfl, rfl, rfl, rfl⟩
  · unfold apply at h
    cases (of_guard h).2
    exact ⟨rfl, rfl, rfl, rfl, hd⟩

section

variable (h : VoiceInv s) {s' : VoiceWorld py} {act : VoiceAct py} {f : RegistryFetch}
include h

/-- Whatever an exchange does next, the router still knows what it has to. -/
theorem exchangeStep {i : Nat} (he : s.exchanges[i]? = some e)
    (hstep : s.exchangeStep i e act = some s') : VoiceInv s' := by
  have hmem := mem_of_getElem? he
  have hsame : Touches s.routing { s.routing with
    isRegistryDirty := s.routing.isRegistryDirty } := Touches.refl _
  have huncertain : Touches s.routing { s.routing.markUncertain with
    isRegistryDirty := s.routing.isRegistryDirty } := ⟨rfl, rfl, rfl, rfl, rfl, rfl, .inl rfl⟩
  unfold VoiceWorld.exchangeStep at hstep
  split at hstep
  · -- the request never reached the owner
    split at hstep
    · next hcond => exact h.endExchange he hsame rfl (.inr ⟨rfl, hcond.2⟩) hstep
    · cases hstep
  · split at hstep
    · exact h.endExchange he huncertain rfl (.inl rfl) hstep
    · cases hstep
  · split at hstep
    · obtain ⟨r, hr, rfl⟩ := map_eq_some_iff.mp hstep
      cases (of_guard hr).2
      exact h.setStage (r := { s.routing with isRegistryDirty := true }) he rfl rfl rfl rfl rfl _
    · cases hstep
  · split at hstep
    · cases hstep
      exact h.setStage (r := s.routing.markUncertain) he rfl rfl rfl rfl rfl _
    · cases hstep
  · split at hstep
    · next statusCode hstg =>
      have hd := h.dispatched e hmem (by rw [hstg]; exact ExchangeStage.noConfusion)
      split at hstep
      · obtain ⟨r, hr, rfl⟩ := map_eq_some_iff.mp hstep
        obtain ⟨hworkers, howner, hgen, hi, hd'⟩ := commitBody_fields hr hd
        exact h.setStage he hworkers howner hgen hi hd' _
      · cases hstep
        exact h.setStage he rfl rfl rfl rfl hd _
    · cases hstep
  · split at hstep
    · next hstg =>
      have hd := h.dispatched e hmem (by rw [hstg]; exact ExchangeStage.noConfusion)
      exact h.endExchange he hsame rfl (.inl hd) hstep
    · cases hstep
  · -- the owner carries the request out: from now on the exchange counts as applied
    cases (of_not_guard hstep).2
    refine h.of_exchange hmem rfl rfl rfl ?_ ?_ ?_ ?_
    · rw [List.length_set]
      exact h.inflight
    · intro e' he'
      rcases mem_of_set he' with he' | rfl
      · exact ⟨e', he', rfl⟩
      · exact ⟨e, hmem, rfl⟩
    · intro e' he' hstg
      rcases mem_of_set he' with he' | rfl
      · exact h.dispatched e' he' hstg
      · exact h.dispatched e hmem hstg
    · intro _ _ happlied
      have hlt : i < s.exchanges.length := (List.getElem?_eq_some_iff.mp he).1
      have hnew := happlied { e with applied := true } (List.mem_set hlt _)
      cases hnew
  · cases hstep

theorem forwardMutation {request : VoiceRequest} {mutation : VoiceMutationRequest}
    {metadata : RouteMetadata} (hkind : metadata.routeKind = .voiceControl)
    (hstep : s.forwardMutation select request mutation metadata = some s') : VoiceInv s' := by
  -- with the generation begun and not yet an exchange, only the count is ahead
  have hbegun : VoiceInv { s with routing := { s.routing.beginMutation with
      mutationsInflight := s.routing.mutationsInflight } } := by
    refine ⟨h.inflight, h.listed, h.unassigned, h.target, h.dispatched, h.known, ?_⟩
    intro f hf
    obtain ⟨hwk, hle, -⟩ := h.fetching f hf
    refine ⟨hwk, hle.trans (Nat.le_succ _), fun heq => ?_⟩
    exact absurd (heq.symm.trans_le hle) (Nat.not_succ_le_self _)
  have ht := touches_selectWorker py select s.routing.beginMutation metadata
  dsimp only [VoiceWorld.forwardMutation] at hstep
  split at hstep
  · obtain ⟨r, hr, rfl⟩ := map_eq_some_iff.mp hstep
    unfold endMutation at hr
    split at hr
    swap
    · cases hr
    cases hr
    have hcnt := ht.mutationsInflight
    change _ = s.routing.mutationsInflight + 1 at hcnt
    refine hbegun.of_touches ?_ s.retryArmed
    refine ⟨ht.workers, ht.uploadedNames, ht.isHydrated, ht.isRegistryDirty, ?_,
      ht.registryGeneration, ht.ownerUrl⟩
    dsimp only
    rw [hcnt]
    rfl
  · next w hw =>
    cases hstep
    have howner := selectWorker_control hkind hw
    have hselected := hbegun.of_touches
      (r := { (s.routing.beginMutation.selectWorker py select metadata).2 with
        mutationsInflight := s.routing.mutationsInflight })
      ⟨ht.workers, ht.uploadedNames, ht.isHydrated, ht.isRegistryDirty, rfl,
        ht.registryGeneration, ht.ownerUrl⟩ s.retryArmed
    refine ⟨?_, hselected.listed, ?_, ?_, ?_, ?_, ?_⟩
    · rw [ht.mutationsInflight, length_append, ← h.inflight]
      rfl
    · intro hn
      rw [show _ = none from hn] at howner
      cases howner
    · intro e he
      rcases mem_append.mp he with he | he
      · exact hselected.target e he
      · obtain rfl := mem_singleton.mp he
        exact howner
    · intro e he hstg
      rcases mem_append.mp he with he | he
      · exact hselected.dispatched e he hstg
      · obtain rfl := mem_singleton.mp he
        exact absurd rfl hstg
    · intro url hurl hh hd happlied
      exact hselected.known url hurl hh hd fun e he => happlied e (mem_append_left _ he)
    · intro f hf
      obtain ⟨hwk, hle, -⟩ := hselected.fetching f hf
      refine ⟨hwk, hle, fun heq => ?_⟩
      obtain ⟨-, hle', -⟩ := h.fetching f hf
      have hgen := ht.registryGeneration
      change _ = s.routing.registryGeneration + 1 at hgen
      rw [heq, hgen] at hle'
      exact absurd hle' (Nat.not_succ_le_self _)

theorem of_workers {workers : List Worker}
    (hl : ∀ url, s.routing.ownerUrl = some url → ∃ w ∈ workers, w.url = url) :
    VoiceInv { s with routing := { s.routing with workers := workers } } :=
  ⟨h.inflight, hl, h.unassigned, h.target, h.dispatched, h.known, h.fetching⟩

theorem deleteWorker (workerId : String) :
    VoiceInv { s with routing := VoiceWorld.deleteWorker s.routing workerId } := by
  have hensured := h.of_touches (touches_ensureOwner s.routing) s.retryArmed
  unfold VoiceWorld.deleteWorker
  split
  · exact h
  · next w hw =>
    dsimp only
    split
    · exact hensured
    next hother =>
      refine hensured.of_workers fun url hurl => ?_
      obtain ⟨o, ho, hourl⟩ := ensureOwner_of_listed h.listed hurl
      obtain ⟨w', hw', hw'url⟩ := hensured.listed url hurl
      refine ⟨w', mem_filter.mpr ⟨hw', ?_⟩, hw'url⟩
      rw [ho, any_some, hourl, Bool.not_eq_true] at hother
      rw [hw'url, bne, hother]
      rfl

theorem replaceWorker {i : Nat} {w : Worker}
    (hurl : (s.routing.workers[i]?).any (fun w' => w'.url == w.url) = true) :
    VoiceInv { s with routing := { s.routing with workers := s.routing.workers.set i w } } := by
  obtain ⟨old, hold, hsame⟩ := (any_eq_true _ _).mp hurl
  have hlt : i < s.routing.workers.length := (List.getElem?_eq_some_iff.mp hold).1
  refine h.of_workers fun url hown => ?_
  obtain ⟨w', hw', hw'url⟩ := h.listed url hown
  obtain ⟨j, hj⟩ := getElem?_of_mem hw'
  by_cases hij : i = j
  · subst hij
    obtain rfl := some.inj (hold.symm.trans hj)
    exact ⟨w, List.mem_set hlt w, (beq_iff_eq.mp hsame).symm.trans hw'url⟩
  · refine ⟨w', mem_of_getElem? (i := j) ?_, hw'url⟩
    rw [getElem?_set_ne hij]
    exact hj

theorem reconcile : VoiceInv s.reconcile := by
  have hwoken : Touches s.routing { s.routing with refreshRequested := false } :=
    ⟨rfl, rfl, rfl, rfl, rfl, rfl, .inl rfl⟩
  dsimp only [VoiceWorld.reconcile]
  split
  · exact h.of_touches hwoken false
  next hzero =>
    split
    · exact h.of_touches hwoken _
    · next w hw =>
      split
      swap
      · exact h.of_touches hwoken _
      -- nothing is in flight when the generation is noted
      have hnil : s.exchanges = [] := by
        have hlen := h.inflight
        rw [Nat.le_zero.mp (not_lt.mp hzero)] at hlen
        exact eq_nil_of_length_eq_zero hlen.symm
      have howner : s.routing.ownerUrl = some w.url := (owner_url hw).1
      refine ⟨h.inflight, h.listed, ?_, h.target, h.dispatched, h.known, ?_⟩
      · intro hn
        rw [show s.routing.ownerUrl = none from hn] at howner
        cases howner
      · intro f hf
        cases hf
        refine ⟨howner, le_rfl, fun _ => ⟨hnil, fun body hbody => ?_⟩⟩
        cases hbody

theorem endFetch (ht : Touches s.routing r) (armed : Bool) :
    VoiceInv { s with routing := r, fetch := none, retryArmed := armed } := by
  have hk := h.of_touches ht armed
  refine ⟨hk.inflight, hk.listed, ?_, hk.target, hk.dispatched, hk.known, ?_⟩
  · exact fun hn => ⟨(hk.unassigned hn).1, (hk.unassigned hn).2.1, rfl⟩
  · exact (by rintro _ ⟨⟩)

theorem fetchFailed (error : String) : VoiceInv (s.fetchFailed error) := by
  refine h.endFetch ?_ true
  exact ⟨rfl, rfl, rfl, rfl, rfl, rfl, .inl rfl⟩

theorem answerNames (hf : s.fetch = some f) : VoiceInv { s with
      fetch := some { f with response := some (namesOnlyResponse (s.stores f.worker)) } } := by
  obtain ⟨hwk, hle, heq⟩ := h.fetching f hf
  refine ⟨h.inflight, h.listed, ?_, h.target, h.dispatched, h.known, ?_⟩
  · intro hn
    rw [hwk] at hn
    cases hn
  · intro f' hf'
    cases hf'
    refine ⟨hwk, hle, fun hgen => ⟨(heq hgen).1, fun body hbody => ?_⟩⟩
    exact (some.inj hbody).symm

/-- Names that are adopted are the owner's of this moment: no exchange has begun since the
    reconciliation noted the generation. -/
theorem adoptNames (hf : s.fetch = some f) {body : VoiceJson} (hbody : f.response = some body)
    {names : Finset VoiceName} (hnames : body.uploadedVoiceNames py = .ok names) : VoiceInv (s.adoptNames f names) := by
  obtain ⟨hwk, -, heq⟩ := h.fetching f hf
  unfold VoiceWorld.adoptNames
  split
  · refine h.endFetch ?_ true
    exact ⟨rfl, rfl, rfl, rfl, rfl, rfl, .inl rfl⟩
  next hsame =>
    rw [not_or, not_not] at hsame
    obtain ⟨hnil, hresponse⟩ := heq hsame.1.symm
    refine ⟨h.inflight, h.listed, ?_, h.target, ?_, ?_, ?_⟩
    · intro hn
      rw [show s.routing.ownerUrl = none from hn] at hwk
      cases hwk
    · intro e he
      rw [show s.exchanges = [] from hnil] at he
      cases he
    · intro url hurl _ _ _ v hv
      obtain rfl : f.worker = url := some.inj (hwk.symm.trans hurl)
      rw [hresponse body hbody] at hnames
      exact mem_of_namesOnlyResponse hnames hv
    · exact (by rintro _ ⟨⟩)

theorem otherStore {url : String} (hother : s.routing.ownerUrl ≠ some url)
    (store : SpeakerSampleStore py) :
    VoiceInv { s with stores := update s.stores url store } := by
  have hkeep : ∀ u, s.routing.ownerUrl = some u →
      update s.stores url store u = s.stores u := by
    intro u hu
    have hne : u ≠ url := fun heq => hother (heq ▸ hu)
    exact update_of_ne hne store s.stores
  refine ⟨h.inflight, h.listed, h.unassigned, h.target, h.dispatched, ?_, ?_⟩
  · intro u hu
    change s.routing.isHydrated = true → s.routing.isRegistryDirty = false → _ →
      ∀ v ∈ (update s.stores url store u).voices, _
    rw [hkeep u hu]
    exact h.known u hu
  · intro f hf
    obtain ⟨hwk, hle, heq⟩ := h.fetching f hf
    refine ⟨hwk, hle, fun hgen => ⟨(heq hgen).1, fun body hbody => ?_⟩⟩
    change body = namesOnlyResponse (update s.stores url store f.worker)
    rw [hkeep _ hwk]
    exact (heq hgen).2 body hbody

theorem step (hstep : s.step select act = some s') : VoiceInv s' := by
  unfold VoiceWorld.step at hstep
  split at hstep
  · cases hstep
    exact h.of_touches (touches_selectWorker py select s.routing _) s.retryArmed
  · dsimp only at hstep
    split at hstep
    · cases hstep
      exact h.of_touches (touches_selectWorker py select s.routing _) s.retryArmed
    · exact h.forwardMutation rfl hstep
  iterate 7
    · obtain ⟨e, he, hstep⟩ := bind_eq_some_iff.mp hstep
      exact h.exchangeStep he hstep
  · cases (of_not_guard hstep).2
    refine h.of_workers fun url hurl => ?_
    obtain ⟨w', hw', hw'url⟩ := h.listed url hurl
    exact ⟨w', mem_append_left _ hw', hw'url⟩
  · obtain ⟨hurl, ⟨⟩⟩ := of_guard hstep
    exact h.replaceWorker hurl
  · cases hstep
    exact h.deleteWorker _
  · cases hstep
    exact h.of_touches (touches_requestRefresh s.routing) s.retryArmed
  · cases (of_guard hstep).2
    refine h.of_touches ?_ s.retryArmed
    exact ⟨rfl, rfl, rfl, rfl, rfl, rfl, .inl rfl⟩
  · cases (of_guard hstep).2
    exact h.reconcile
  · split at hstep
    · cases hstep
    · next f hf =>
      cases hstep
      exact h.answerNames hf
  · cases (of_guard hstep).2
    exact h.fetchFailed _
  · split at hstep
    · cases hstep
    next f hf =>
      split at hstep
      · cases hstep
      next body hbody =>
        split at hstep
        · cases hstep
          exact h.fetchFailed _
        · next names hnames =>
          cases hstep
          exact h.adoptNames hf hbody hnames
  · obtain ⟨hother, ⟨⟩⟩ := of_not_guard hstep
    exact h.otherStore hother _

end

theorem of_reachable (h : (voiceRouting py select).Reachable s) : VoiceInv s :=
  h.invariant (fun _ => of_initial) fun _ _ _ hs hst => hs.step hst

end VoiceInv

/-! ## No false negative -/

section Present

open VoiceRouting

variable {py : PyLower} {select : List Worker → List Capability → Option String → Option Worker}
  {s : VoiceWorld py} {w : Worker} {name : VoiceName} {v : UploadedVoice}

theorem VoiceInv.requiresOwner (h : VoiceInv s) (howner : s.routing.ensureOwner.1 = some w)
    (hpresent : (s.stores w.url).get name = .ok (some v)) {voiceNames : List VoiceName}
    (hname : name ∈ voiceNames) (big : Bool) :
    (s.routing.requiresOwner py voiceNames big).1 = true := by
  obtain ⟨hv, hkey⟩ := SpeakerSampleStore.get_eq_some hpresent
  have hstored := (s.stores w.url).stored v hv
  have hmem : v.normalizedName ∈
      (voiceNames.filterMap (routerVoiceName py)).filter (· ≠ defaultVoiceName) := by
    refine mem_filter.mpr ⟨?_, decide_eq_true ?_⟩
    · exact mem_filterMap.mpr ⟨name, hname, routerVoiceName_of_normalize hkey⟩
    · exact fun heq => hstored.2.2 (heq ▸ mem_cons_self)
  have ht := (touches_ensureOwner s.routing).trans (touches_activate _)
  dsimp only [VoiceRouting.requiresOwner]
  rw [howner, isNone_some, if_neg Bool.false_ne_true]
  split
  · rfl
  rw [if_neg (ne_nil_of_mem hmem)]
  split
  · rfl
  next hclean =>
    -- the registry is clean and nothing is in flight
    rw [Bool.or_eq_true, Bool.or_eq_true, not_or, not_or, decide_eq_true_eq] at hclean
    obtain ⟨⟨hh, hd⟩, hi⟩ := hclean
    rw [Bool.not_eq_true, Bool.not_eq_false', ht.isHydrated] at hh
    rw [Bool.not_eq_true, ht.isRegistryDirty] at hd
    rw [ht.mutationsInflight, h.inflight] at hi
    have hnil := eq_nil_of_length_eq_zero (Nat.le_zero.mp (not_lt.mp hi))
    have hurl : s.routing.ownerUrl = some w.url := by
      cases hown : s.routing.ownerUrl with
      | none =>
        rw [(h.unassigned hown).1] at hh
        cases hh
      | some url => rw [ensureOwner_of_url hown howner]
    have hknown := h.known w.url hurl hh hd (by rw [hnil]; exact (by rintro _ ⟨⟩)) v hv
    refine any_eq_true.mpr ⟨v.normalizedName, hmem, decide_eq_true ?_⟩
    rw [ht.uploadedNames]
    exact hknown

/-- In every reachable state, a request that names a voice present at the owner requires the
    owner, whatever else it carries; a speech request that names it goes to the owner or
    nowhere. -/
theorem requires_owner_of_present (h : (voiceRouting py select).Reachable s)
    (howner : s.routing.ensureOwner.1 = some w)
    (hpresent : (s.stores w.url).get name = .ok (some v)) {voiceNames : List VoiceName}
    (hname : name ∈ voiceNames) :
    (∀ big, (s.routing.requiresOwner py voiceNames big).1 = true) ∧
      ∀ metadata : RouteMetadata,
        metadata.routeKind = .speech ∨ metadata.routeKind = .speechBatch →
        metadata.voiceNamesRequiringRegistry = voiceNames →
        ∀ w', (s.routing.selectWorker py select metadata).1 = some w' → w'.url = w.url := by
  have hinv := VoiceInv.of_reachable h
  refine ⟨hinv.requiresOwner howner hpresent hname, fun metadata hkind hnames w' hw' => ?_⟩
  have hrequired := hinv.requiresOwner howner hpresent (hnames ▸ hname)
    metadata.isBodyOverMetadataLimit
  have hcontrol : (metadata.routeKind == .voiceControl) = false := by
    rcases hkind with hkind | hkind <;> rw [hkind] <;> rfl
  have hspeech : (metadata.routeKind == .speech || metadata.routeKind == .speechBatch) = true := by
    rcases hkind with hkind | hkind <;> rw [hkind] <;> rfl
  unfold selectWorker at hw'
  dsimp only at hw'
  rw [hcontrol, hspeech, if_neg Bool.false_ne_true, if_pos rfl, hrequired, Bool.false_or,
    if_pos rfl] at hw'
  refine ensureOwner_of_url ?_ (requireEligibleWorker_eq_some hw')
  rw [requiresOwner_ownerUrl]
  exact ensureOwner_url howner

/-- A router with one worker, which may own uploaded voices. -/
def exVoiceWorld : VoiceWorld .asciiOnly where
  routing := {
    workers := [{ config := ⟨"http://tts", none, [.speech, .audioInput]⟩, incarnation := "1"
                  state := .healthy }]
    ownerUrl := none }
  stores := fun _ => ⟨[], 2, (by rintro _ ⟨⟩)⟩

/-- An upload that the owner carries out, its answer, and the reconciliation after it. -/
def exVoiceRun : List (VoiceAct .asciiOnly) :=
  [.forward (.upload "Alice ".toList none) none [], .carryOut 0, .headers 0 200,
    .readBody 0 (some (.object [("name", .str "Alice".toList)])), .finish 0, .reconcile,
    .answerNames, .finishReconcile]

def exVoiceFinal : Option (VoiceWorld .asciiOnly) :=
  System.exec (VoiceWorld.step fun ws _ _ => ws.head?) exVoiceWorld exVoiceRun

/-- After it, the registry is clean and a request for another spelling of the name still
    requires the owner. -/
theorem requires_owner_of_present_alice :
    exVoiceFinal.any (fun s => s.routing.isHydrated && !s.routing.isRegistryDirty &&
      (s.routing.requiresOwner .asciiOnly ["aLICE".toList] false).1) = true := by
  have hinit : VoiceWorld.Initial exVoiceWorld := by
    refine ⟨fun url hurl => ?_, rfl, rfl, rfl⟩
    cases hurl
  cases hrun : exVoiceFinal with
  | none => exact absurd hrun (by decide)
  | some s =>
    have hfinal : exVoiceFinal.any (fun s => s.routing.isHydrated && !s.routing.isRegistryDirty &&
        s.routing.ensureOwner.1.any (fun w => w.url == "http://tts" &&
          (((s.stores w.url).get "aLICE".toList).toOption.bind id).isSome)) = true := by
      decide +kernel
    rw [hrun, any_some, Bool.and_eq_true] at hfinal
    obtain ⟨hclean, howner⟩ := hfinal
    obtain ⟨w, hw, hget⟩ := (any_eq_true _ _).mp howner
    rw [Bool.and_eq_true] at hget
    obtain ⟨v, hv⟩ := isSome_iff_exists.mp hget.2
    have hpresent : (s.stores w.url).get "aLICE".toList = .ok (some v) := by
      cases hres : (s.stores w.url).get "aLICE".toList with
      | error e => rw [hres] at hv; cases hv
      | ok found => rw [hres] at hv; exact congrArg Except.ok hv
    have hstart : (voiceRouting .asciiOnly fun ws _ _ => ws.head?).Reachable exVoiceWorld :=
      .init hinit
    have hreach := System.Reachable.of_exec hstart hrun
    have hnamed : "aLICE".toList ∈ ["aLICE".toList] := mem_singleton.mpr rfl
    rw [any_some, hclean, (requires_owner_of_present hreach hw hpresent hnamed).1 false]
    rfl

end Present

end OmniRealtime
