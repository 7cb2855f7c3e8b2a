import OmniRealtime.Lib.System
import OmniRealtime.Router.InternalChannel
import OmniRealtime.Router.Snapshot

/-!
# The snapshot acknowledgement barrier

The control plane (`control_plane.py`) publishes snapshots to a file and waits until its
data planes acknowledge one; the data planes (`data_plane.py`) poll the file, apply what
their reader accepts, and report their position in heartbeats. Messages may be delayed,
replayed, reordered or lost. The supervisor restarts a dead data plane with the next
generation, and a dead control plane with a fresh epoch.

1. `ClusterInv.step`: what the control plane recorded for a data plane was applied by it.
2. `barrier_sound`: when the barrier succeeds, every expected index has a live record of
   a process that applied a snapshot of this epoch from the target on, and the process
   now at that index has applied one too, or nothing at all; so it routes only to workers
   that some snapshot of this epoch from the target on marks routable.
3. `barrier_not_everywhere_applied`: a replacement that has applied nothing does occur,
   and so does a data plane that routes by a later snapshot than the target.
-/

namespace OmniRealtime

open List Option Function DataPlanes

/-! ## The cluster -/

/-- A data-plane process: its identity, the last snapshot its reader took, and its view. -/
structure DataPlaneProcess where
  generation : Nat
  pid : Nat
  reader : Option WorkerSnapshot := none
  view : DataPlaneWorkerView := {}

inductive ChannelMessage
  | register (hello : DataPlaneHello)
  | heartbeat (beat : DataPlaneHeartbeat)
  deriving DecidableEq, Repr

/-- That a data-plane process applied a snapshot. -/
structure Applied where
  dpIndex : Nat
  generation : Nat
  epoch : String
  seq : Nat
  deriving DecidableEq, Repr

/-- The control plane (`epoch`, `seq`, `dataPlanes`, and the target of a barrier that is
    waiting), the snapshot file, the running processes, and every message ever sent.
    `usedEpochs`, `published`, `lastGeneration` and `applied` are history. -/
structure ClusterState where
  now : Nat := 0
  epoch : String
  seq : Nat := 0
  dataPlanes : DataPlanes := fun _ => none
  barrier : Option Nat := none
  usedEpochs : List String
  file : Option WorkerSnapshot := none
  published : List WorkerSnapshot := []
  process : Nat → Option DataPlaneProcess := fun _ => none
  lastGeneration : Nat → Nat := fun _ => 0
  applied : List Applied := []
  network : List ChannelMessage := []

structure BarrierConfig where
  dpLivenessSecs : Nat
  expectedDataPlanes : Option Nat
  health : HealthConfig

/-- `ClusterEvent`:

* `tick`: time passes;
* `publish`: a snapshot of the pool as it now is, whose file write may fail;
* `restartControlPlane`: under a fresh epoch, with no registrations;
* `die`, `spawn`: of a data plane; the next process has the next generation;
* `poll`: the data plane reads the snapshot file;
* `sessionFailed`: a data plane counts a failed WebSocket session itself;
* `sendRegister`, `sendHeartbeat`, `deliver`: the internal channel;
* `startBarrier`: a weight update starts waiting for the last snapshot. -/
inductive ClusterEvent
  | tick
  | publish (pool : List Worker) (written : Bool)
  | restartControlPlane (epoch : String)
  | die (i : Nat)
  | spawn (i pid : Nat)
  | poll (i : Nat) (fresh : String)
  | sessionFailed (i : Nat) (url : String) (observed : Worker.Observation)
  | sendRegister (i : Nat)
  | sendHeartbeat (i : Nat) (serving : Bool)
  | deliver (m : ChannelMessage)
  | startBarrier

namespace ClusterState

/-- The snapshot the control plane publishes next. -/
def nextSnapshot (s : ClusterState) (pool : List Worker) : WorkerSnapshot :=
  ⟨s.seq + 1, s.epoch, s.now, snapshotWorkers pool⟩

/-- `publish`: the sequence advances even when the file write fails. -/
def publish (s : ClusterState) (pool : List Worker) (written : Bool) : ClusterState :=
  if written then
    { s with
      seq := s.seq + 1
      file := some (s.nextSnapshot pool)
      published := s.nextSnapshot pool :: s.published }
  else { s with seq := s.seq + 1 }

/-- The process reads the file; when its reader accepts the snapshot, its view applies
    it. -/
def poll (s : ClusterState) (i : Nat) (p : DataPlaneProcess) (f : WorkerSnapshot)
    (fresh : String) : ClusterState :=
  if readerAccepts p.reader f then
    { s with
      process := Function.update s.process i
        (some { p with reader := some f, view := p.view.apply fresh f })
      applied := ⟨i, p.generation, f.cpEpoch, f.seq⟩ :: s.applied }
  else s

/-- The heartbeat of a process: its position is read when the beat is sent. -/
def beat (i : Nat) (p : DataPlaneProcess) (serving : Bool) : DataPlaneHeartbeat where
  dpIndex := i
  generation := p.generation
  pid := p.pid
  lastAppliedSeq := p.view.lastAppliedSeq
  lastAppliedEpoch := p.view.lastAppliedEpoch
  serving := serving

/-- A message reaches the control plane; a refused one changes nothing. -/
def receive (s : ClusterState) (m : ChannelMessage) : ClusterState :=
  let result := match m with
    | .register hello => s.dataPlanes.register hello s.now
    | .heartbeat beat => s.dataPlanes.heartbeat beat s.now
  match result with
  | .error _ => s
  | .ok dataPlanes => { s with dataPlanes }

/-- One event; `none` when it cannot happen. -/
def step (cfg : BarrierConfig) (s : ClusterState) : ClusterEvent → Option ClusterState
  | .tick => some { s with now := s.now + 1 }
  | .publish pool written => some (s.publish pool written)
  | .restartControlPlane epoch =>
    if epoch = "" ∨ epoch ∈ s.usedEpochs then none
    else
      some { s with
        epoch
        seq := 0
        dataPlanes := fun _ => none
        barrier := none
        usedEpochs := epoch :: s.usedEpochs }
  | .die i => some { s with process := Function.update s.process i none }
  | .spawn i pid =>
    match s.process i with
    | some _ => none
    | none =>
      some { s with
        process := Function.update s.process i (some { generation := s.lastGeneration i + 1, pid })
        lastGeneration := Function.update s.lastGeneration i (s.lastGeneration i + 1) }
  | .poll i fresh =>
    match s.process i, s.file with
    | some p, some f => some (s.poll i p f fresh)
    | _, _ => none
  | .sessionFailed i url observed =>
    (s.process i).map fun p =>
      { s with
        process := Function.update s.process i
          (some { p with view := p.view.recordFailure cfg.health url observed }) }
  | .sendRegister i =>
    (s.process i).map fun p =>
      { s with network := .register ⟨i, p.generation, p.pid⟩ :: s.network }
  | .sendHeartbeat i serving =>
    (s.process i).map fun p => { s with network := .heartbeat (beat i p serving) :: s.network }
  | .deliver m => if m ∈ s.network then some (s.receive m) else none
  | .startBarrier => some { s with barrier := some s.seq }

/-- The record is within the liveness window. -/
def isLive (cfg : BarrierConfig) (s : ClusterState) (r : DataPlaneRecord) : Bool :=
  decide (s.now - r.lastSeenAt ≤ cfg.dpLivenessSecs)

/-- The barrier counts on this index: all of them when their number is known, else every
    one that ever registered. -/
def isExpected (cfg : BarrierConfig) (s : ClusterState) (i : Nat) : Bool :=
  match cfg.expectedDataPlanes with
  | some n => decide (i < n)
  | none => (s.dataPlanes i).isSome

/-- Whether the index is in the barrier's `pending` set. -/
def isPending (cfg : BarrierConfig) (s : ClusterState) (target i : Nat) : Bool :=
  match (s.dataPlanes i).filter (s.isLive cfg) with
  | some r => r.lastAppliedEpoch != s.epoch || decide (r.lastAppliedSeq < target)
  | none => s.isExpected cfg i

/-- A waiting barrier finds nothing pending, and returns success. -/
def BarrierSucceeds (cfg : BarrierConfig) (s : ClusterState) (target : Nat) : Prop :=
  s.barrier = some target ∧ ∀ i, s.isPending cfg target i = false

end ClusterState

/-- A control plane just started, with no data planes yet. -/
def clusterSystem (cfg : BarrierConfig) : System ClusterState ClusterEvent :=
  System.ofFun (fun s => ∃ epoch, epoch ≠ "" ∧ s = { epoch, usedEpochs := [epoch] })
    fun s e => s.step cfg e

/-! ## The invariant -/

/-- The process applied nothing, or last applied `snapshot`. -/
structure ViewOk (s : ClusterState) (i : Nat) (p : DataPlaneProcess) (snapshot : WorkerSnapshot) :
    Prop where
  published : snapshot ∈ s.published
  epoch : p.view.lastAppliedEpoch = snapshot.cpEpoch
  seq : p.view.lastAppliedSeq = snapshot.seq
  applied : ⟨i, p.generation, snapshot.cpEpoch, snapshot.seq⟩ ∈ s.applied
  routes : ∀ url, p.view.Routes url → snapshot.MarksRoutable url

structure ClusterInv (s : ClusterState) : Prop where
  epoch_ne : s.epoch ≠ ""
  epoch_used : s.epoch ∈ s.usedEpochs
  published_used : ∀ f ∈ s.published, f.cpEpoch ∈ s.usedEpochs ∧ f.cpEpoch ≠ ""
  published_consistent : ∀ f ∈ s.published, f.Consistent
  file_published : ∀ f, s.file = some f → f ∈ s.published
  /-- The file holds the last snapshot written in this epoch. -/
  file_last : ∀ f ∈ s.published, f.cpEpoch = s.epoch →
    ∃ g, s.file = some g ∧ g.cpEpoch = s.epoch ∧ f.seq ≤ g.seq
  published_seq : ∀ f ∈ s.published, f.cpEpoch = s.epoch → f.seq ≤ s.seq
  applied_published : ∀ a ∈ s.applied, ∃ f ∈ s.published, f.cpEpoch = a.epoch ∧ f.seq = a.seq
  applied_generation : ∀ a ∈ s.applied, a.generation ≤ s.lastGeneration a.dpIndex
  process_generation : ∀ i p, s.process i = some p → p.generation = s.lastGeneration i
  fresh_view : ∀ i p, s.process i = some p → p.reader = none →
    p.view.workers = [] ∧ p.view.lastAppliedEpoch = ""
  view : ∀ i p f, s.process i = some p → p.reader = some f → ViewOk s i p f
  /-- Where any process of the index applied a snapshot of this epoch, the one now there
      applied nothing and replaced it, or is at least as far. -/
  replaced : ∀ i p, s.process i = some p → ∀ a ∈ s.applied, a.dpIndex = i → a.epoch = s.epoch →
    p.reader = none ∧ a.generation < p.generation ∨
      ∃ f, p.reader = some f ∧ f.cpEpoch = s.epoch ∧ a.seq ≤ f.seq
  sent : ∀ beat, .heartbeat beat ∈ s.network → beat.lastAppliedEpoch = "" ∨
    ⟨beat.dpIndex, beat.generation, beat.lastAppliedEpoch, beat.lastAppliedSeq⟩ ∈ s.applied
  record : ∀ i r, s.dataPlanes i = some r → r.lastAppliedEpoch = "" ∨
    ⟨i, r.generation, r.lastAppliedEpoch, r.lastAppliedSeq⟩ ∈ s.applied

/-! ## Each event keeps the invariant -/

section Steps

variable {cfg : BarrierConfig} {s t : ClusterState} {i : Nat} {p : DataPlaneProcess}

theorem ViewOk.mono {f : WorkerSnapshot} (h : ViewOk s i p f)
    (hpub : ∀ g ∈ s.published, g ∈ t.published) (happlied : ∀ a ∈ s.applied, a ∈ t.applied) :
    ViewOk t i p f :=
  ⟨hpub f h.published, h.epoch, h.seq, happlied _ h.applied, h.routes⟩

section

variable (hI : ClusterInv s)
include hI

theorem ClusterInv.publish (pool : List Worker) (written : Bool) :
    ClusterInv (s.publish pool written) := by
  cases written with
  | false =>
    exact { hI with
      published_seq := fun f hf he => Nat.le_succ_of_le (hI.published_seq f hf he)
      view := fun i p f hp hf => (hI.view i p f hp hf).mono (fun _ h => h) (fun _ h => h) }
  | true =>
    have hle : ∀ f ∈ s.nextSnapshot pool :: s.published, f.cpEpoch = s.epoch →
        f.seq ≤ s.seq + 1 := by
      intro f hf he
      rcases mem_cons.mp hf with rfl | hf
      · exact Nat.le_refl _
      · exact Nat.le_succ_of_le (hI.published_seq f hf he)
    exact { hI with
      published_used := by
        intro f hf
        rcases mem_cons.mp hf with rfl | hf
        · exact ⟨hI.epoch_used, hI.epoch_ne⟩
        · exact hI.published_used f hf
      published_consistent := by
        intro f hf
        rcases mem_cons.mp hf with rfl | hf
        · exact consistent_snapshotWorkers _ _ _ pool
        · exact hI.published_consistent f hf
      file_published := by
        rintro f ⟨⟩
        exact mem_cons_self
      file_last := fun f hf he => ⟨s.nextSnapshot pool, rfl, rfl, hle f hf he⟩
      published_seq := hle
      applied_published := by
        intro a ha
        obtain ⟨f, hf, h⟩ := hI.applied_published a ha
        exact ⟨f, mem_cons_of_mem _ hf, h⟩
      view := fun i p f hp hf =>
        (hI.view i p f hp hf).mono (fun _ h => mem_cons_of_mem _ h) (fun _ h => h) }

/-- Nothing was published or applied under a fresh epoch. -/
theorem ClusterInv.restart {epoch : String} (hne : epoch ≠ "") (hfrs : epoch ∉ s.usedEpochs) :
    ClusterInv { s with
        epoch
        seq := 0
        dataPlanes := fun _ => none
        barrier := none
        usedEpochs := epoch :: s.usedEpochs } := by
  have hpub : ∀ f ∈ s.published, f.cpEpoch ≠ epoch := by
    intro f hf he
    exact hfrs (he ▸ (hI.published_used f hf).1)
  exact { hI with
    epoch_ne := hne
    epoch_used := mem_cons_self
    published_used := fun f hf =>
      ⟨mem_cons_of_mem _ (hI.published_used f hf).1, (hI.published_used f hf).2⟩
    file_last := fun f hf he => absurd he (hpub f hf)
    published_seq := fun f hf he => absurd he (hpub f hf)
    view := fun i p f hp hf => (hI.view i p f hp hf).mono (fun _ h => h) (fun _ h => h)
    replaced := by
      intro i p hp a ha _ he
      obtain ⟨f, hf, hepoch, _⟩ := hI.applied_published a ha
      exact absurd (hepoch.trans he) (hpub f hf)
    record := by
      rintro i r ⟨⟩ }

theorem ClusterInv.die : ClusterInv { s with process := update s.process i none } := by
  have hold : ∀ j q, update s.process i none j = some q → s.process j = some q := by
    intro j q h
    rcases update_eq_some h with ⟨_, h⟩ | ⟨_, h⟩
    · cases h
    · exact h
  exact { hI with
    process_generation := fun j q hq => hI.process_generation j q (hold j q hq)
    fresh_view := fun j q hq => hI.fresh_view j q (hold j q hq)
    view := fun j q f hq hf =>
      (hI.view j q f (hold j q hq) hf).mono (fun _ h => h) (fun _ h => h)
    replaced := fun j q hq => hI.replaced j q (hold j q hq) }

theorem ClusterInv.spawn (pid : Nat) :
    ClusterInv { s with
        process := update s.process i (some { generation := s.lastGeneration i + 1, pid })
        lastGeneration := update s.lastGeneration i (s.lastGeneration i + 1) } := by
  have hgrow : ∀ j, s.lastGeneration j ≤
      update s.lastGeneration i (s.lastGeneration i + 1) j := by
    intro j
    by_cases hj : j = i
    · subst hj
      simp
    · simp [hj]
  exact { hI with
    applied_generation := fun a ha => Nat.le_trans (hI.applied_generation a ha) (hgrow _)
    process_generation := by
      intro j q hq
      rcases update_eq_some hq with ⟨rfl, h⟩ | ⟨hj, h⟩
      · cases h
        simp
      · simpa [hj] using hI.process_generation j q h
    fresh_view := by
      intro j q hq
      rcases update_eq_some hq with ⟨_, h⟩ | ⟨_, h⟩
      · cases h
        exact fun _ => ⟨rfl, rfl⟩
      · exact hI.fresh_view j q h
    view := by
      intro j q f hq hf
      rcases update_eq_some hq with ⟨_, h⟩ | ⟨_, h⟩
      · cases h
        cases hf
      · exact (hI.view j q f h hf).mono (fun _ h => h) (fun _ h => h)
    replaced := by
      intro j q hq a ha hidx he
      rcases update_eq_some hq with ⟨hj, h⟩ | ⟨_, h⟩
      · cases h
        have hgen := hI.applied_generation a ha
        rw [hidx, hj] at hgen
        exact .inl ⟨rfl, Nat.lt_succ_of_le hgen⟩
      · exact hI.replaced j q h a ha hidx he }

theorem ClusterInv.poll (hp : s.process i = some p) {f : WorkerSnapshot} (hfile : s.file = some f)
    (fresh : String) : ClusterInv (s.poll i p f fresh) := by
  unfold ClusterState.poll
  split_ifs with haccept
  · have hf := hI.file_published f hfile
    have hkeep : ∀ a ∈ s.applied, a ∈ (⟨i, p.generation, f.cpEpoch, f.seq⟩ : Applied) :: s.applied :=
      fun a ha => mem_cons_of_mem _ ha
    exact { hI with
      applied_published := by
        intro a ha
        rcases mem_cons.mp ha with rfl | ha
        · exact ⟨f, hf, rfl, rfl⟩
        · exact hI.applied_published a ha
      applied_generation := by
        intro a ha
        rcases mem_cons.mp ha with rfl | ha
        · exact Nat.le_of_eq (hI.process_generation i p hp)
        · exact hI.applied_generation a ha
      process_generation := by
        intro j q hq
        rcases update_eq_some hq with ⟨rfl, h⟩ | ⟨_, h⟩
        · cases h
          exact hI.process_generation j p hp
        · exact hI.process_generation j q h
      fresh_view := by
        intro j q hq
        rcases update_eq_some hq with ⟨_, h⟩ | ⟨_, h⟩
        · cases h
          intro hnone
          cases hnone
        · exact hI.fresh_view j q h
      view := by
        intro j q g hq hg
        rcases update_eq_some hq with ⟨rfl, h⟩ | ⟨_, h⟩
        · cases h
          cases hg
          refine ⟨hf, rfl, rfl, mem_cons_self, ?_⟩
          rintro url ⟨w, hw, rfl, hroutable⟩
          obtain ⟨e, he, hreflects⟩ := DataPlaneWorkerView.apply_faithful hw
          exact marksRoutable_of_reflects (hI.published_consistent f hf) he hreflects hroutable
        · exact (hI.view j q g h hg).mono (fun _ h => h) hkeep
      replaced := by
        intro j q hq a ha hidx he
        rcases update_eq_some hq with ⟨rfl, h⟩ | ⟨hj, h⟩
        · cases h
          refine .inr ⟨f, rfl, ?_⟩
          rcases mem_cons.mp ha with rfl | ha
          · exact ⟨he, Nat.le_refl _⟩
          · -- What was applied was published, and the file holds the last of the epoch.
            obtain ⟨g, hg, hepoch, hseq⟩ := hI.applied_published a ha
            obtain ⟨f', hf', hepoch', hle⟩ := hI.file_last g hg (hepoch.trans he)
            obtain rfl : f = f' := some.inj (hfile.symm.trans hf')
            exact ⟨hepoch', hseq ▸ hle⟩
        · rcases mem_cons.mp ha with rfl | ha
          · exact absurd hidx.symm hj
          · exact hI.replaced j q h a ha hidx he
      sent := fun beat hb => (hI.sent beat hb).imp_right (hkeep _)
      record := fun j r hr => (hI.record j r hr).imp_right (hkeep _) }
  · exact hI

end

theorem routes_of_recordFailure {view : DataPlaneWorkerView} {hc : HealthConfig} {url url' : String}
    {o : Worker.Observation} (h : (view.recordFailure hc url o).Routes url') :
    view.Routes url' := by
  obtain ⟨w, hw, hurl, hroutable⟩ := h
  obtain ⟨v, hv, rfl⟩ := mem_map.mp hw
  refine ⟨v, hv, ?_⟩
  split_ifs at hurl hroutable
  · exact ⟨hurl, Worker.isRoutable_of_recordRequestFailure hroutable⟩
  · exact ⟨hurl, hroutable⟩

section

variable (hI : ClusterInv s) {m : ChannelMessage}
include hI

theorem ClusterInv.sessionFailed (hp : s.process i = some p) (hc : HealthConfig) (url : String)
    (o : Worker.Observation) :
    ClusterInv { s with
        process := update s.process i
          (some { p with view := p.view.recordFailure hc url o }) } :=
  { hI with
    process_generation := by
      intro j q hq
      rcases update_eq_some hq with ⟨rfl, h⟩ | ⟨_, h⟩
      · cases h
        exact hI.process_generation j p hp
      · exact hI.process_generation j q h
    fresh_view := by
      intro j q hq
      rcases update_eq_some hq with ⟨rfl, h⟩ | ⟨_, h⟩
      · cases h
        intro hnone
        obtain ⟨hworkers, hepoch⟩ := hI.fresh_view j p hp hnone
        exact ⟨by simp [DataPlaneWorkerView.recordFailure, hworkers], hepoch⟩
      · exact hI.fresh_view j q h
    view := by
      intro j q f hq hf
      rcases update_eq_some hq with ⟨rfl, h⟩ | ⟨_, h⟩
      · cases h
        obtain ⟨hpub, hepoch, hseq, happlied, hroutes⟩ := hI.view j p f hp hf
        exact ⟨hpub, hepoch, hseq, happlied, fun url h =>
          hroutes url (routes_of_recordFailure h)⟩
      · exact (hI.view j q f h hf).mono (fun _ h => h) (fun _ h => h)
    replaced := by
      intro j q hq
      rcases update_eq_some hq with ⟨rfl, h⟩ | ⟨_, h⟩
      · cases h
        exact hI.replaced j p hp
      · exact hI.replaced j q h }

theorem ClusterInv.send (hm : ∀ beat, m = .heartbeat beat → beat.lastAppliedEpoch = "" ∨
      ⟨beat.dpIndex, beat.generation, beat.lastAppliedEpoch, beat.lastAppliedSeq⟩ ∈ s.applied) :
    ClusterInv { s with network := m :: s.network } :=
  { hI with
    view := fun j q f hq hf => (hI.view j q f hq hf).mono (fun _ h => h) (fun _ h => h)
    sent := by
      intro beat hb
      rcases mem_cons.mp hb with h | h
      · exact hm beat h.symm
      · exact hI.sent beat h }

theorem ClusterInv.beat (hp : s.process i = some p) (serving : Bool) :
    (ClusterState.beat i p serving).lastAppliedEpoch = "" ∨
      ⟨i, p.generation, (ClusterState.beat i p serving).lastAppliedEpoch,
        (ClusterState.beat i p serving).lastAppliedSeq⟩ ∈ s.applied := by
  cases hreader : p.reader with
  | none => exact .inl (hI.fresh_view i p hp hreader).2
  | some f =>
    have hview := hI.view i p f hp hreader
    have happlied := hview.applied
    rw [← hview.epoch, ← hview.seq] at happlied
    exact .inr happlied

/-- New records keep the invariant when each acknowledges nothing, or what its process
    applied. -/
theorem ClusterInv.setDataPlanes {dataPlanes : DataPlanes}
    (hrec : ∀ i r, dataPlanes i = some r → r.lastAppliedEpoch = "" ∨
      ⟨i, r.generation, r.lastAppliedEpoch, r.lastAppliedSeq⟩ ∈ s.applied) :
    ClusterInv { s with dataPlanes } :=
  { hI with
    view := fun j q f hq hf => (hI.view j q f hq hf).mono (fun _ h => h) (fun _ h => h)
    record := hrec }

theorem ClusterInv.receive (hm : m ∈ s.network) : ClusterInv (s.receive m) := by
  cases m with
  | register hello =>
    simp only [ClusterState.receive]
    split
    · exact hI
    · next dataPlanes hok =>
      obtain ⟨rfl, _⟩ := register_ok hok
      refine hI.setDataPlanes fun j r hr => ?_
      rcases update_eq_some hr with ⟨rfl, h⟩ | ⟨_, h⟩
      · cases h
        obtain ⟨hgen, hepoch | ⟨cur, hcur, hsame, hepoch, hseq⟩⟩ :=
          registered_ack (s.dataPlanes hello.dpIndex) hello s.now
        · exact .inl hepoch
        · rw [hgen, hepoch, hseq, hsame]
          exact hI.record _ cur hcur
      · exact hI.record j r h
  | heartbeat beat =>
    simp only [ClusterState.receive]
    split
    · exact hI
    · next dataPlanes hok =>
      obtain ⟨cur, hcur, hgen, _, rfl⟩ := heartbeat_ok hok
      refine hI.setDataPlanes fun j r hr => ?_
      rcases update_eq_some hr with ⟨rfl, h⟩ | ⟨_, h⟩
      · cases h
        simp only [beaten]
        rcases acknowledgedSeq_cases cur beat with hseq | ⟨hepoch, hseq⟩
        · rw [hseq]
          exact hI.sent beat hm
        · rw [hseq, hepoch, hgen]
          exact hI.record _ cur hcur
      · exact hI.record j r h

theorem ClusterInv.step {e : ClusterEvent} (h : s.step cfg e = some t) : ClusterInv t := by
  cases e with
  | tick | startBarrier =>
    cases h
    exact { hI with view := fun i p f hp hf =>
      (hI.view i p f hp hf).mono (fun _ h => h) (fun _ h => h) }
  | publish pool written =>
    cases h
    exact hI.publish pool written
  | restartControlPlane epoch =>
    simp only [ClusterState.step] at h
    split_ifs at h with hbad
    cases h
    exact hI.restart (fun he => hbad (.inl he)) fun he => hbad (.inr he)
  | die i =>
    cases h
    exact hI.die
  | spawn i pid =>
    simp only [ClusterState.step] at h
    split at h
    · cases h
    · cases h
      exact hI.spawn pid
  | poll i fresh =>
    simp only [ClusterState.step] at h
    split at h
    · next p f hp hf =>
      cases h
      exact hI.poll hp hf fresh
    · cases h
  | sessionFailed i url o =>
    obtain ⟨p, hp, rfl⟩ := map_eq_some_iff.mp h
    exact hI.sessionFailed hp cfg.health url o
  | sendRegister i =>
    obtain ⟨p, hp, rfl⟩ := map_eq_some_iff.mp h
    exact hI.send nofun
  | sendHeartbeat i serving =>
    obtain ⟨p, hp, rfl⟩ := map_eq_some_iff.mp h
    refine hI.send fun beat hb => ?_
    cases hb
    exact hI.beat hp serving
  | deliver m =>
    simp only [ClusterState.step] at h
    split_ifs at h with hm
    cases h
    exact hI.receive hm

end

theorem ClusterInv.of_reachable (h : (clusterSystem cfg).Reachable s) : ClusterInv s := by
  refine h.invariant (P := ClusterInv) ?_ fun s e t hI hst => hI.step hst
  rintro s ⟨epoch, hne, rfl⟩
  exact {
    epoch_ne := hne
    epoch_used := mem_cons_self
    published_used := by intro f h; cases h
    published_consistent := by intro f h; cases h
    file_published := by intro f h; cases h
    file_last := by intro f h; cases h
    published_seq := by intro f h; cases h
    applied_published := by intro a h; cases h
    applied_generation := by intro a h; cases h
    process_generation := by intro i p h; cases h
    fresh_view := by intro i p h; cases h
    view := by intro i p f h; cases h
    replaced := by intro i p h; cases h
    sent := by intro beat h; cases h
    record := by intro i r h; cases h }

end Steps

/-! ## The barrier -/

section Barrier

variable {cfg : BarrierConfig} {s : ClusterState} {i target : Nat}

/-- An index nothing is pending for has a live record of this epoch from the target on,
    if it is expected. -/
theorem record_of_not_pending (h : s.isPending cfg target i = false)
    (hexpected : s.isExpected cfg i = true) :
    ∃ r, s.dataPlanes i = some r ∧ s.isLive cfg r = true ∧ r.lastAppliedEpoch = s.epoch ∧
      target ≤ r.lastAppliedSeq := by
  unfold ClusterState.isPending at h
  split at h
  · next r hr =>
    obtain ⟨hrec, hlive⟩ := filter_eq_some_iff.mp hr
    simp only [Bool.or_eq_false_iff, bne_eq_false_iff_eq, decide_eq_false_iff_not, Nat.not_lt] at h
    exact ⟨r, hrec, hlive, h.1, h.2⟩
  · rw [hexpected] at h
    cases h

/-- **ACK barrier soundness.** When the barrier returns success for `target`: every
    expected index has a live record, of a process that applied a snapshot of this epoch
    from the target on; the process now running there has last applied such a snapshot,
    or is a later generation that has applied none and routes nowhere; and it routes only
    to workers that some published snapshot of this epoch from the target on marks
    routable. -/
theorem barrier_sound {cfg : BarrierConfig} {s : ClusterState} {target : Nat}
    (h : (clusterSystem cfg).Reachable s) (hok : s.BarrierSucceeds cfg target) {i : Nat}
    (hexpected : s.isExpected cfg i = true) :
    ∃ r, s.dataPlanes i = some r ∧ s.isLive cfg r = true ∧
      (∃ seq, target ≤ seq ∧ ⟨i, r.generation, s.epoch, seq⟩ ∈ s.applied) ∧
      ∀ p, s.process i = some p →
        (p.reader = none ∧ r.generation < p.generation ∧ p.view.workers = [] ∨
          ∃ f, p.reader = some f ∧ f.cpEpoch = s.epoch ∧ target ≤ f.seq) ∧
        ∀ url, p.view.Routes url →
          ∃ f ∈ s.published, f.cpEpoch = s.epoch ∧ target ≤ f.seq ∧ f.MarksRoutable url := by
  have hI := ClusterInv.of_reachable h
  obtain ⟨r, hr, hlive, hepoch, hseq⟩ := record_of_not_pending (hok.2 i) hexpected
  have happlied : ⟨i, r.generation, s.epoch, r.lastAppliedSeq⟩ ∈ s.applied := by
    rcases hI.record i r hr with hblank | happlied
    · exact absurd (hepoch.symm.trans hblank) hI.epoch_ne
    · rwa [hepoch] at happlied
  refine ⟨r, hr, hlive, ⟨_, hseq, happlied⟩, fun p hp => ?_⟩
  rcases hI.replaced i p hp _ happlied rfl rfl with ⟨hnone, hgen⟩ | ⟨f, hf, hfepoch, hle⟩
  · have hempty := (hI.fresh_view i p hp hnone).1
    refine ⟨.inl ⟨hnone, hgen, hempty⟩, ?_⟩
    rintro url ⟨w, hw, _⟩
    rw [hempty] at hw
    cases hw
  · have hview := hI.view i p f hp hf
    have hfrom : target ≤ f.seq := Nat.le_trans hseq hle
    exact ⟨.inr ⟨f, hf, hfepoch, hfrom⟩, fun url hroutes =>
      ⟨f, hview.published, hfepoch, hfrom, hview.routes url hroutes⟩⟩

end Barrier

/-! ## What the barrier does not promise -/

/-- One data plane, seen within six seconds. -/
def exBarrier : BarrierConfig := ⟨6, some 1, .default⟩

/-- A healthy worker, enabled or not. -/
def exBackend (disabled : Bool) : Worker :=
  { config := ⟨"http://w", none, [.chat]⟩, incarnation := "w1", state := .healthy, disabled }

def exStart : ClusterState := { epoch := "a", usedEpochs := ["a"] }

/-- The data plane registers, applies the snapshot in the file, and acknowledges it. -/
def exAcknowledge (seq : Nat) : List ClusterEvent :=
  [.spawn 0 100, .sendRegister 0, .deliver (.register ⟨0, 1, 100⟩), .poll 0 "",
    .sendHeartbeat 0 true, .deliver (.heartbeat ⟨0, 1, 100, seq, "a", true⟩)]

/-- The data plane that acknowledged dies and is replaced. -/
def exReplaced : ClusterState :=
  (System.exec (fun s e => s.step exBarrier e) exStart
    (.publish [exBackend true] true :: .startBarrier :: exAcknowledge 1 ++
      [.die 0, .spawn 0 101])).getD exStart

/-- The worker is enabled again before the data plane polls. -/
def exReenabled : ClusterState :=
  (System.exec (fun s e => s.step exBarrier e) exStart
    (.publish [exBackend true] true :: .startBarrier :: .publish [exBackend false] true ::
      exAcknowledge 2)).getD exStart

theorem exStart_reachable : (clusterSystem exBarrier).Reachable exStart :=
  .init ⟨"a", by decide, rfl⟩

theorem exReplaced_reachable : (clusterSystem exBarrier).Reachable exReplaced :=
  exStart_reachable.of_exec (rfl : System.exec _ exStart (.publish [exBackend true] true ::
    .startBarrier :: exAcknowledge 1 ++ [.die 0, .spawn 0 101]) = some exReplaced)

theorem exReenabled_reachable : (clusterSystem exBarrier).Reachable exReenabled :=
  exStart_reachable.of_exec (rfl : System.exec _ exStart (.publish [exBackend true] true ::
    .startBarrier :: .publish [exBackend false] true :: exAcknowledge 2) = some exReenabled)

/-- Only the registered index can be pending. -/
theorem exBarrier_succeeds {s : ClusterState} {target : Nat}
    (hbarrier : s.barrier = some target) (hothers : ∀ i, i ≠ 0 → s.dataPlanes i = none)
    (hrec : s.isPending exBarrier target 0 = false) :
    s.BarrierSucceeds exBarrier target := by
  refine ⟨hbarrier, fun i => ?_⟩
  by_cases hi : i = 0
  · subst hi
    exact hrec
  · have hlt : ¬ i < 1 := by omega
    simp [ClusterState.isPending, hothers i hi, ClusterState.isExpected, exBarrier, hlt]

theorem exReplaced_succeeds : exReplaced.BarrierSucceeds exBarrier 1 := by
  refine exBarrier_succeeds rfl (fun i hi => ?_) rfl
  exact (update_of_ne hi _ _).trans (update_of_ne hi _ _)

theorem exReenabled_succeeds : exReenabled.BarrierSucceeds exBarrier 1 := by
  refine exBarrier_succeeds rfl (fun i hi => ?_) rfl
  exact (update_of_ne hi _ _).trans (update_of_ne hi _ _)

/-- The barrier promises neither that the process now at every expected index applied a
    snapshot of this epoch from the target on, nor that none routes to a worker the target
    snapshot marks unroutable. -/
theorem barrier_not_everywhere_applied :
    (¬ ∀ s target, (clusterSystem exBarrier).Reachable s → s.BarrierSucceeds exBarrier target →
      ∀ i p, s.isExpected exBarrier i = true → s.process i = some p →
        ∃ f, p.reader = some f ∧ f.cpEpoch = s.epoch ∧ target ≤ f.seq) ∧
    (¬ ∀ s target, (clusterSystem exBarrier).Reachable s → s.BarrierSucceeds exBarrier target →
      ∀ f ∈ s.published, f.cpEpoch = s.epoch → f.seq = target →
        ∀ e ∈ f.workers, e.routable = false →
          ∀ i p, s.process i = some p → ¬ p.view.Routes e.url) := by
  refine ⟨fun h => ?_, fun h => ?_⟩
  · obtain ⟨f, hf, _⟩ := h exReplaced 1 exReplaced_reachable exReplaced_succeeds 0 _ rfl rfl
    cases hf
  · have hroutes := h exReenabled 1 exReenabled_reachable exReenabled_succeeds
      ⟨1, "a", 0, snapshotWorkers [exBackend true]⟩ (.tail _ (.head _)) rfl rfl
      (snapshotWorker (exBackend true)) (.head _) rfl 0 _ rfl
    exact hroutes ⟨_, .head _, rfl, rfl⟩

/-- The barrier at the state whose data plane applied the later snapshot. -/
theorem barrier_sound_reenabled : ∃ r, exReenabled.dataPlanes 0 = some r ∧
    exReenabled.isLive exBarrier r = true ∧
    (∃ seq, 1 ≤ seq ∧ ⟨0, r.generation, exReenabled.epoch, seq⟩ ∈ exReenabled.applied) ∧
    ∀ p, exReenabled.process 0 = some p →
      (p.reader = none ∧ r.generation < p.generation ∧ p.view.workers = [] ∨
        ∃ f, p.reader = some f ∧ f.cpEpoch = exReenabled.epoch ∧ 1 ≤ f.seq) ∧
      ∀ url, p.view.Routes url →
        ∃ f ∈ exReenabled.published, f.cpEpoch = exReenabled.epoch ∧ 1 ≤ f.seq ∧
          f.MarksRoutable url :=
  barrier_sound exReenabled_reachable exReenabled_succeeds rfl

end OmniRealtime
