import OmniRealtime.Router.UpdateJournal
import OmniRealtime.Router.Worker

/-!
# The worker registry and its admin routes

`app.py`: the pool of workers, its recovery from the journal at startup, and the registry
routes (`/workers`, `/weight_update_journal/resolve`), each run under the admin lock.

1. `recoverWorkerPoolFromJournal_disabled`: after recovery every worker the journal may name
   is disabled.
2. `createWorker_cases`: a worker registered under a journaled id starts disabled.
3. `applyWorkerUpdate_disabled`: a worker the journal still names is not re-enabled;
   `applyWorkerUpdate_names`: a request leaves every other id in the journal.
-/

namespace OmniRealtime

open UpdateJournal

/-! ## The pool -/

/-- The registered workers; a URL is registered once. -/
structure Pool where
  workers : List Worker
  nodup : (workers.map Worker.url).Nodup

namespace Pool

def empty : Pool := ⟨[], List.nodup_nil⟩

/-- Change the workers in place. -/
def modify (p : Pool) (f : Worker → Worker) (hf : ∀ w, (f w).url = w.url) : Pool where
  workers := p.workers.map f
  nodup := by
    have hurls : (p.workers.map f).map Worker.url = p.workers.map Worker.url := by
      rw [List.map_map]
      exact List.map_congr_left fun w _ => hf w
    rw [hurls]
    exact p.nodup

/-- The worker record of this URL is now `w`. -/
def put (p : Pool) (w : Worker) : Pool :=
  p.modify (fun v => if v.url = w.url then w else v) fun v => by
    split
    case isTrue h => exact h.symm
    case isFalse => rfl

def add (p : Pool) (w : Worker) (h : w.url ∉ p.workers.map Worker.url) : Pool where
  workers := p.workers ++ [w]
  nodup := by
    rw [List.map_append, List.nodup_append]
    refine ⟨p.nodup, List.nodup_singleton _, ?_⟩
    rintro a ha b hb rfl
    exact h (List.mem_singleton.mp hb ▸ ha)

def remove (p : Pool) (w : Worker) : Pool where
  workers := p.workers.filter fun v => v.url ≠ w.url
  nodup := p.nodup.sublist (List.filter_sublist.map _)

variable {v w : Worker}

theorem mem_put {p : Pool} (h : v ∈ (p.put w).workers) : v = w ∨ v ∈ p.workers ∧ v.url ≠ w.url := by
  obtain ⟨u, hu, rfl⟩ := List.mem_map.mp h
  split
  case isTrue => exact .inl rfl
  case isFalse hne => exact .inr ⟨hu, hne⟩

theorem mem_add {p : Pool} {hw : w.url ∉ p.workers.map Worker.url} (h : v ∈ (p.add w hw).workers) :
    v ∈ p.workers ∨ v = w := by
  simpa [add] using h

theorem mem_of_mem_remove {p : Pool} (h : v ∈ (p.remove w).workers) : v ∈ p.workers :=
  List.mem_of_mem_filter h

end Pool

theorem Worker.workerId_eq_iff {v w : Worker} : v.workerId = w.workerId ↔ v.url = w.url := by
  constructor
  · intro h
    exact quote_injective h
  · intro h
    rw [workerId, workerId, h]

/-! ## Refusals -/

/-- Why a request of the admin plane is refused. -/
inductive Refusal
  | noLiveWorkers
  | multipleReplicas (count : Nat)
  | unresolvedUpdate
  | journalNotDurable
  | snapshotNotAcknowledged
  | updateInProgress
  | alreadyRegistered
  | workerNotFound
  | unauthorized
  | noField
  | invalidConfig
  | discardNotDurable
  | voiceOwnerCapabilities
  | voiceOwnerDelete
  | notAcknowledged
  | resolveNotDurable
  | urlChanged
  deriving DecidableEq, Repr

/-- The status of the answer; `urlChanged` is the `ValueError` of `replace_config`. -/
def Refusal.status : Refusal → Nat
  | .noLiveWorkers => 503
  | .multipleReplicas _ => 422
  | .unresolvedUpdate => 409
  | .journalNotDurable => 503
  | .snapshotNotAcknowledged => 503
  | .updateInProgress => 409
  | .alreadyRegistered => 409
  | .workerNotFound => 404
  | .unauthorized => 401
  | .noField => 400
  | .invalidConfig => 400
  | .discardNotDurable => 503
  | .voiceOwnerCapabilities => 409
  | .voiceOwnerDelete => 409
  | .notAcknowledged => 422
  | .resolveNotDurable => 503
  | .urlChanged => 500

/-! ## Recovery at startup -/

/-- One journaled target: disabled when registered, a tombstone otherwise. -/
def disableJournaled (p : Pool) (workerId : String) : Pool :=
  match findWorker p.workers workerId with
  | some w => p.put (w.setDisabled true)
  | none => p

def disableAll (p : Pool) : Pool := p.modify (·.setDisabled true) fun _ => rfl

def recoverWorkerPoolFromJournal (journal : Journal) (file : JournalFile) (readable : Bool)
    (p : Pool) : Pool :=
  match journal.pending file readable with
  | none => disableAll p
  | some unresolved => unresolved.foldl disableJournaled p

variable {w : Worker} {p : Pool}

theorem mem_disableJournaled {id : String} (h : w ∈ (disableJournaled p id).workers) :
    w.disabled = true ∨ w ∈ p.workers ∧ w.workerId ≠ id := by
  unfold disableJournaled at h
  split at h
  next v hfind =>
    rcases Pool.mem_put h with rfl | ⟨hw, hne⟩
    · exact .inl rfl
    · refine .inr ⟨hw, ?_⟩
      rintro rfl
      -- the lookup by its own id finds a worker with this URL
      obtain ⟨v', hfind', hurl⟩ := findWorker_workerId hw
      rw [hfind] at hfind'
      cases hfind'
      exact hne hurl.symm
  next hfind =>
    refine .inr ⟨h, ?_⟩
    rintro rfl
    obtain ⟨v', hfind', -⟩ := findWorker_workerId h
    rw [hfind] at hfind'
    cases hfind'

theorem mem_foldl_disableJournaled {ids : List String}
    (h : w ∈ (ids.foldl disableJournaled p).workers) :
    w.disabled = true ∨ w ∈ p.workers ∧ w.workerId ∉ ids := by
  induction ids generalizing p with
  | nil => exact .inr ⟨h, List.not_mem_nil⟩
  | cons id ids ih =>
    rcases ih h with hd | ⟨hw, hnot⟩
    · exact .inl hd
    · rcases mem_disableJournaled hw with hd | ⟨hw, hne⟩
      · exact .inl hd
      · refine .inr ⟨hw, ?_⟩
        rintro (_ | ⟨_, hmem⟩)
        · exact hne rfl
        · exact hnot hmem

variable {file : JournalFile}

theorem recoverWorkerPoolFromJournal_disabled {readable : Bool}
    (h : w ∈ (recoverWorkerPoolFromJournal .durable file readable p).workers)
    (hn : file.visible.Names w.workerId) : w.disabled = true := by
  unfold recoverWorkerPoolFromJournal at h
  split at h
  next =>
    obtain ⟨v, -, rfl⟩ := List.mem_map.mp h
    rfl
  next ids hpnd =>
    rcases mem_foldl_disableJournaled h with hd | ⟨-, hnot⟩
    · exact hd
    · exact absurd (mem_of_names hn hpnd) hnot

/-! ## Registering -/

/-- `_worker_id_is_journaled`: an unreadable journal may name the id. -/
def workerIdIsJournaled (journal : Journal) (file : JournalFile) (readable : Bool)
    (workerId : String) : Bool :=
  match journal.pending file readable with
  | some ids => ids.contains workerId
  | none => true

/-- `create_worker`, from the lock on: `worker` is the staged record, probed already. -/
def createWorker (journal : Journal) (file : JournalFile) (p : Pool) (worker : Worker)
    (readable : Bool) : Except Refusal Pool :=
  if h : worker.url ∈ p.workers.map Worker.url then
    .error .alreadyRegistered
  else if workerIdIsJournaled journal file readable worker.workerId then
    .ok (p.add (worker.setDisabled true) h)
  else
    .ok (p.add worker h)

/-- The new pool has the old workers and the new one, disabled when the journal may name it. -/
theorem createWorker_cases {p p' : Pool} {worker w : Worker} {readable : Bool}
    (h : createWorker .durable file p worker readable = .ok p') (hw : w ∈ p'.workers) :
    w ∈ p.workers ∨ w.disabled = true ∨ w = worker ∧ ¬ file.visible.Names worker.workerId := by
  unfold createWorker at h
  split at h
  · cases h
  · split at h
    case isTrue =>
      cases h
      rcases Pool.mem_add hw with hw | rfl
      · exact .inl hw
      · exact .inr (.inl rfl)
    case isFalse hnot =>
      cases h
      rcases Pool.mem_add hw with hw | rfl
      · exact .inl hw
      · refine .inr (.inr ⟨rfl, fun hn => hnot ?_⟩)
        unfold workerIdIsJournaled
        split
        next ids hpnd =>
          exact List.contains_iff_mem.mpr (mem_of_names hn hpnd)
        next => rfl

/-! ## Updating -/

/-- The payload of `PUT /workers/{worker_id}`, and whether its header passes the admin check. -/
structure UpdateRequest where
  workerId : String
  isDead : Option Bool := none
  disabled : Option Bool := none
  model : Option (Option String) := none
  capabilities : Option (List Capability) := none
  authorized : Bool := false

/-- What the admin routes take from the rest of the router: the validators of
    `WorkerConfig`, and whether an admin key is set. -/
structure AdminConfig where
  validate : WorkerConfig → Option WorkerConfig
  adminApiKey : Bool

def discardNeedsAdminAuth (cfg : AdminConfig) (journal : Journal) (file : JournalFile)
    (readable : Bool) (workerId : String) : Bool :=
  cfg.adminApiKey && workerIdIsJournaled journal file readable workerId

/-- The configuration a request asks for; `none` when it is invalid. -/
def nextConfig (cfg : AdminConfig) (r : UpdateRequest) (w : Worker) : Option WorkerConfig :=
  if r.capabilities.isSome || r.model.isSome then
    cfg.validate {
      url := w.url
      model := r.model.getD w.config.model
      capabilities := r.capabilities.getD w.config.capabilities }
  else
    some w.config

/-- The fields of the request, applied in order. -/
def commitUpdate (r : UpdateRequest) (w : Worker) : Worker :=
  let w := match r.disabled with
    | some disabled => w.setDisabled disabled
    | none => w
  match r.isDead with
  | some true => w.markDead none
  | some false => w.clearDead
  | none => w

/-- The discard a re-enable asks for. -/
def discardForUpdate (journal : Journal) (file : JournalFile) (r : UpdateRequest) (w : Worker)
    (io : JournalIo) : JournalFile × Bool :=
  if r.disabled = some false then journal.discard file w.workerId io else (file, true)

/-- `_apply_worker_update`: the pool, the journal file and the refusal, if any.
    `voiceOwner` is the URL of the worker `ensure_owner` returns. -/
def applyWorkerUpdate (cfg : AdminConfig) (journal : Journal) (file : JournalFile) (p : Pool)
    (r : UpdateRequest) (voiceOwner : Option String) (authReadable : Bool) (io : JournalIo) :
    Pool × JournalFile × Option Refusal :=
  match findWorker p.workers r.workerId with
  | none => (p, file, some .workerNotFound)
  | some w =>
    if r.disabled == some false && discardNeedsAdminAuth cfg journal file authReadable w.workerId
        && !r.authorized then
      (p, file, some .unauthorized)
    else
      match nextConfig cfg r w with
      | none => (p, file, some .invalidConfig)
      | some next =>
        -- the discard comes before any change of the worker
        let (file, discarded) := discardForUpdate journal file r w io
        if !discarded then
          (p, file, some .discardNotDurable)
        else if voiceOwner = some w.url ∧ !canOwnUploadedVoices next.capabilities then
          (p, file, some .voiceOwnerCapabilities)
        else
          match w.replaceConfig next with
          | none => (p, file, some .urlChanged)
          | some w => (p.put (commitUpdate r w), file, none)

theorem replaceConfig_eq_some {w w' : Worker} {config : WorkerConfig}
    (h : w.replaceConfig config = some w') : w'.url = w.url ∧ w'.disabled = w.disabled := by
  unfold Worker.replaceConfig at h
  split at h
  · cases h
  · next hurl =>
    cases h
    exact ⟨not_not.mp hurl, rfl⟩

variable (r : UpdateRequest)

theorem commitUpdate_url (w : Worker) : (commitUpdate r w).url = w.url := by
  unfold commitUpdate
  rcases r.disabled with _ | d <;> rcases r.isDead with _ | _ | _ <;> rfl

theorem commitUpdate_disabled (w : Worker) :
    (commitUpdate r w).disabled = r.disabled.getD w.disabled := by
  unfold commitUpdate
  rcases r.disabled with _ | d <;> rcases r.isDead with _ | _ | _ <;> rfl

theorem discardForUpdate_cases (journal : Journal) (file : JournalFile) (r : UpdateRequest)
    (w : Worker) (io : JournalIo) :
    r.disabled ≠ some false ∧ discardForUpdate journal file r w io = (file, true) ∨
    r.disabled = some false ∧
      discardForUpdate journal file r w io = journal.discard file w.workerId io := by
  unfold discardForUpdate
  by_cases hd : r.disabled = some false
  · exact .inr ⟨hd, if_pos hd⟩
  · exact .inl ⟨hd, if_neg hd⟩

/-- What a request does: nothing, or the discard alone, or the discard and then the update. -/
theorem applyWorkerUpdate_cases (cfg : AdminConfig) (journal : Journal) (file : JournalFile)
    (p : Pool) (r : UpdateRequest) (voiceOwner : Option String) (authReadable : Bool)
    (io : JournalIo) :
    (∃ e, applyWorkerUpdate cfg journal file p r voiceOwner authReadable io = (p, file, some e)) ∨
    ∃ w, findWorker p.workers r.workerId = some w ∧
      ((∃ e, applyWorkerUpdate cfg journal file p r voiceOwner authReadable io =
          (p, (discardForUpdate journal file r w io).1, some e)) ∨
        ∃ u, u.url = w.url ∧ u.disabled = w.disabled ∧
          (discardForUpdate journal file r w io).2 = true ∧
          applyWorkerUpdate cfg journal file p r voiceOwner authReadable io =
            (p.put (commitUpdate r u), (discardForUpdate journal file r w io).1, none)) := by
  unfold applyWorkerUpdate
  split
  next => exact .inl ⟨_, rfl⟩
  next w hfind =>
    split
    next => exact .inl ⟨_, rfl⟩
    next =>
      split
      next => exact .inl ⟨_, rfl⟩
      next next hnext =>
        refine .inr ⟨w, hfind, ?_⟩
        rcases discardForUpdate journal file r w io with ⟨file', discarded⟩
        dsimp only
        cases discarded with
        | false => exact .inl ⟨_, rfl⟩
        | true =>
          rw [if_neg (by decide)]
          split
          next => exact .inl ⟨_, rfl⟩
          next =>
            split
            next => exact .inl ⟨_, rfl⟩
            next u hreplace =>
              obtain ⟨hurl, hdisabled⟩ := replaceConfig_eq_some hreplace
              exact .inr ⟨u, hurl, hdisabled, rfl, rfl⟩

/-- The ids a request asks to trust again: that of the worker it re-enables. -/
def asksToEnable (p : Pool) (r : UpdateRequest) (id : String) : Bool :=
  r.disabled == some false && (findWorker p.workers r.workerId).any fun w => w.workerId == id

variable {voiceOwner : Option String}

theorem applyWorkerUpdate_names {cfg : AdminConfig} {r : UpdateRequest} {authReadable : Bool}
    {io : JournalIo} {id : String} (hold : ∀ c, file.Possible c → c.Names id)
    (hasked : asksToEnable p r id = false) {c : JournalContent}
    (hc : (applyWorkerUpdate cfg .durable file p r voiceOwner authReadable io).2.1.Possible c) :
    c.Names id := by
  rcases applyWorkerUpdate_cases cfg .durable file p r voiceOwner authReadable io
    with ⟨e, h⟩ | ⟨w, hfind, h⟩
  · rw [h] at hc
    exact hold c hc
  · have hfile : (applyWorkerUpdate cfg .durable file p r voiceOwner authReadable io).2.1 =
        (discardForUpdate .durable file r w io).1 := by
      rcases h with ⟨e, h⟩ | ⟨u, -, -, -, h⟩ <;> rw [h]
    rw [hfile] at hc
    rcases discardForUpdate_cases .durable file r w io with ⟨-, h⟩ | ⟨hd, h⟩
    · rw [h] at hc
      exact hold c hc
    · rw [h] at hc
      refine discard_names ?_ hold hc
      rintro rfl
      simp [asksToEnable, hd, hfind] at hasked

theorem applyWorkerUpdate_disabled {cfg : AdminConfig}
    {r : UpdateRequest} {authReadable : Bool} {io : JournalIo}
    (hold : ∀ v ∈ p.workers, v.workerId = w.workerId → v.disabled = true)
    (hn : (applyWorkerUpdate cfg .durable file p r voiceOwner authReadable
      io).2.1.visible.Names w.workerId)
    (hw : w ∈ (applyWorkerUpdate cfg .durable file p r voiceOwner authReadable io).1.workers) :
    w.disabled = true := by
  rcases applyWorkerUpdate_cases cfg .durable file p r voiceOwner authReadable io
    with ⟨e, h⟩ | ⟨v, hfind, ⟨e, h⟩ | ⟨u, hurl, hdisabled, hdiscarded, h⟩⟩
  · rw [h] at hw
    exact hold w hw rfl
  · rw [h] at hw
    exact hold w hw rfl
  · rw [h] at hw hn
    rcases Pool.mem_put hw with rfl | ⟨hw, -⟩
    · have hv : v.workerId = (commitUpdate r u).workerId := by
        rw [Worker.workerId_eq_iff, commitUpdate_url, hurl]
      rw [commitUpdate_disabled]
      rcases hd : r.disabled with _ | _ | _
      · show u.disabled = true
        rw [hdisabled]
        exact hold v (findWorker_some hfind).1 hv
      · -- the discard succeeded, so the file does not name the worker any more
        rcases discardForUpdate_cases .durable file r v io with ⟨hne, -⟩ | ⟨-, hdiscard⟩
        · exact absurd hd hne
        · rw [hdiscard] at hdiscarded hn
          rw [← hv] at hn
          exact absurd hn (discard_forgets hdiscarded)
      · rfl
    · exact hold w hw rfl

/-! ## Deleting and resolving -/

def applyWorkerDelete (p : Pool) (workerId : String) (voiceOwner : Option String) :
    Except Refusal Pool :=
  match findWorker p.workers workerId with
  | none => .error .workerNotFound
  | some w => if voiceOwner = some w.url then .error .voiceOwnerDelete else .ok (p.remove w)

theorem mem_of_applyWorkerDelete {p p' : Pool} {workerId : String}
    (h : applyWorkerDelete p workerId voiceOwner = .ok p') (hw : w ∈ p'.workers) :
    w ∈ p.workers := by
  unfold applyWorkerDelete at h
  split at h
  · cases h
  · split at h
    · cases h
    · cases h
      exact Pool.mem_of_mem_remove hw

/-- `resolve_weight_update_journal`: the file and the refusal, if any. -/
def resolveWeightUpdateJournal (journal : Journal) (file : JournalFile) (acknowledge : Bool)
    (write : WriteOutcome) : JournalFile × Option Refusal :=
  if !acknowledge then
    (file, some .notAcknowledged)
  else
    let cleared := journal.clear file write
    (cleared.1, if cleared.2 then none else some .resolveNotDurable)

end OmniRealtime
