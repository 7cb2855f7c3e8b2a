import OmniRealtime.Lib.System
import OmniRealtime.Router.Registry
import OmniRealtime.Router.ReportableWorkers

/-!
# Counter reports on the network

The control plane, its data planes and the reports between them. A report may be lost,
delivered twice or late; data planes are respawned with larger generations; the control plane
restarts, and its ledger starts over; workers are registered under fresh incarnations and
removed.

1. `PlaneInv`, `SentInv`: a row that a report leaves out does not return within the
   generation, and the values of a segment rise with the report number.
2. `CounterInv.step`: every step keeps the invariant, and no step but a restart of the
   control plane lowers a total.
3. `counter_ledger_exact`: the totals are exact after any run.
-/

namespace OmniRealtime

open List Function Function

/-! ## States -/

instance : Fintype ServiceClass where
  elems := {.generation, .speechHttp, .speechBatch, .voiceControl, .ttsWebsocket, .transcription}
  complete c := by cases c <;> decide

deriving instance DecidableEq for WorkerCounters
deriving instance DecidableEq for CounterReport

structure DataPlane where
  generation : Nat := 0
  counterSeq : Nat := 0
  reader : Option WorkerSnapshot := none
  view : DataPlaneWorkerView := {}
  /-- The report being posted, with the records `drained` when it was built. -/
  posting : Option (CounterReport × List SegmentKey) := none

structure CounterNet where
  pool : Pool
  cpEpoch : String
  seq : Nat := 0
  /-- Every segment a pool has had: `uuid4` draws none of them again. -/
  known : List SegmentKey
  published : Option WorkerSnapshot := none
  planes : Nat → DataPlane := fun _ => {}
  /-- Every report that was ever posted; any of them may arrive, any number of times. -/
  sent : List CounterReport := []
  ledger : DataPlaneCounterLedger := {}
  /-- What the ledger has applied, oldest first. -/
  accepted : List CounterReport := []
  /-- What a ledger of this or an earlier control plane has applied. -/
  acknowledged : List CounterReport := []

open CounterNet

inductive CounterEvent
  | restartControlPlane (pool : Pool) (cpEpoch : String)
  | register (worker : Worker)
  | remove (worker : Worker)
  | change (worker : Worker)
  | publish (now : Nat)
  | spawn (dp generation : Nat)
  | refresh (dp : Nat) (fresh : String)
  | startRequest (dp : Nat) (k : SegmentKey)
  | recordRequest (dp : Nat) (k : SegmentKey) (statusCode : Option Int)
      (serviceClass : ServiceClass)
  | finishRequest (dp : Nat) (k : SegmentKey) (outcome : Option (Option Int × ServiceClass))
  | flush (dp : Nat)
  | deliver (report : CounterReport) (now : Nat)
  | acknowledge (dp : Nat)
  | abandon (dp : Nat)

namespace CounterNet

def poolKeys (s : CounterNet) : List SegmentKey := s.pool.workers.map Worker.segmentKey

def publishedKeys (s : CounterNet) : List SegmentKey :=
  match s.published with
  | none => []
  | some snapshot => snapshot.segmentKeys

/-- The incarnation is one that `uuid4` may draw. -/
def Fresh (s : CounterNet) (w : Worker) : Prop :=
  w.incarnation ≠ "" ∧ ∀ k ∈ s.known, k.2 ≠ w.incarnation

instance (s : CounterNet) (w : Worker) : Decidable (s.Fresh w) :=
  inferInstanceAs (Decidable (_ ∧ _))

/-- A restarted control plane restores published workers with their incarnations, and draws
    one for every other worker. -/
def Restores (s : CounterNet) (pool : Pool) : Prop :=
  ∀ w ∈ pool.workers, w.incarnation ≠ "" ∧ (w.segmentKey ∈ s.publishedKeys ∨ s.Fresh w)

instance (s : CounterNet) (pool : Pool) : Decidable (s.Restores pool) :=
  inferInstanceAs (Decidable (∀ w ∈ pool.workers, _))

def setPlane (s : CounterNet) (dp : Nat) (p : DataPlane) : CounterNet :=
  { s with planes := Function.update s.planes dp p }

end CounterNet

namespace DataPlane

/-- A relayed request: its worker record is counted as active. -/
def Serving (p : DataPlane) (k : SegmentKey) : Prop :=
  ∃ w ∈ p.view.reportableWorkers, w.segmentKey = k ∧ 0 < w.activeRequests

instance (p : DataPlane) (k : SegmentKey) : Decidable (p.Serving k) :=
  inferInstanceAs (Decidable (∃ w ∈ p.view.reportableWorkers, _))

def modify (p : DataPlane) (k : SegmentKey) (f : Worker → Worker) : DataPlane :=
  { p with view := p.view.modify k f }

/-- The payload of `_counter_flush_loop`. -/
def payload (p : DataPlane) (dp : Nat) : CounterReport where
  dpIndex := dp
  generation := p.generation
  counterSeq := p.counterSeq + 1
  workers := p.view.reportableWorkers.map Worker.counterRow

/-- One turn of `_counter_flush_loop` up to the post; `drained` is taken first. -/
def flush (p : DataPlane) (dp : Nat) : DataPlane :=
  { p with
    counterSeq := p.counterSeq + 1
    posting := some (p.payload dp, p.view.drainedRetired.map Worker.segmentKey) }

end DataPlane

/-- The end of a request, with the outcome it is counted under. -/
def finishRequest (outcome : Option (Option Int × ServiceClass)) (w : Worker) : Worker :=
  let w := w.decrementActive.getD w
  match outcome with
  | none => w
  | some (statusCode, serviceClass) => w.recordRoutedRequest statusCode serviceClass

local instance lawfulPair : LawfulBEq (String × String) := inferInstance

open CounterNet in
def counterStep (s : CounterNet) : CounterEvent → Option CounterNet
  | .restartControlPlane pool cpEpoch =>
    if s.Restores pool then
      some { s with
        pool := pool
        cpEpoch := cpEpoch
        seq := 0
        known := s.known ++ pool.workers.map Worker.segmentKey
        ledger := {}
        accepted := [] }
    else none
  | .register worker =>
    if h : worker.url ∉ s.pool.workers.map Worker.url then
      if s.Fresh worker then
        some { s with pool := s.pool.add worker h, known := s.known ++ [worker.segmentKey] }
      else none
    else none
  | .remove worker => some { s with pool := s.pool.remove worker }
  | .change worker =>
    if worker.segmentKey ∈ s.poolKeys then some { s with pool := s.pool.put worker } else none
  | .publish now =>
    some { s with
      seq := s.seq + 1
      published := some ⟨s.seq + 1, s.cpEpoch, now, snapshotWorkers s.pool.workers⟩ }
  | .spawn dp generation =>
    if (s.planes dp).generation < generation then
      some (s.setPlane dp { generation := generation })
    else none
  | .refresh dp fresh =>
    let p := s.planes dp
    match s.published with
    | none => none
    | some snapshot =>
      if readerAccepts p.reader snapshot then
        some (s.setPlane dp
          { p with reader := some snapshot, view := p.view.apply fresh snapshot })
      else none
  | .startRequest dp k =>
    let p := s.planes dp
    if k ∈ p.view.workers.map Worker.segmentKey then
      some (s.setPlane dp (p.modify k Worker.incrementActive))
    else none
  | .recordRequest dp k statusCode serviceClass =>
    let p := s.planes dp
    if p.Serving k then
      some (s.setPlane dp (p.modify k fun w => w.recordRoutedRequest statusCode serviceClass))
    else none
  | .finishRequest dp k outcome =>
    let p := s.planes dp
    if p.Serving k then some (s.setPlane dp (p.modify k (OmniRealtime.finishRequest outcome)))
    else none
  | .flush dp =>
    let p := s.planes dp
    if p.posting.isNone then
      some { s.setPlane dp (p.flush dp) with sent := s.sent ++ [p.payload dp] }
    else none
  | .deliver report now =>
    if report ∈ s.sent then
      match s.ledger.apply report now with
      | .ok (true, ledger) =>
        some { s with
          ledger := ledger
          accepted := s.accepted ++ [report]
          acknowledged := s.acknowledged ++ [report] }
      | .ok (false, _) => some s
      | .error _ => some s
    else none
  | .acknowledge dp =>
    let p := s.planes dp
    match p.posting with
    | none => none
    | some (report, drained) =>
      if report ∈ s.acknowledged then
        some (s.setPlane dp { p with view := p.view.releaseRetired drained, posting := none })
      else none
  | .abandon dp => some (s.setPlane dp { s.planes dp with posting := none })

/-- A first control plane, with a pool of fresh workers; no data plane runs. -/
def CounterInit (s : CounterNet) : Prop :=
  ∃ pool : Pool, ∃ cpEpoch : String, (∀ w ∈ pool.workers, w.incarnation ≠ "") ∧
    s = { pool := pool, cpEpoch := cpEpoch, known := pool.workers.map Worker.segmentKey }

def counterSystem : System CounterNet CounterEvent := .ofFun CounterInit counterStep

/-! ## Invariants -/

/-- The segment was in a pool, and is in neither the pool nor the published snapshot: it never
    comes back. -/
def CounterNet.Gone (s : CounterNet) (k : SegmentKey) : Prop :=
  k ∈ s.known ∧ k ∉ s.poolKeys ∧ k ∉ s.publishedKeys

structure ControlInv (s : CounterNet) : Prop where
  pool_known : ∀ k ∈ s.poolKeys, k ∈ s.known
  published_known : ∀ k ∈ s.publishedKeys, k ∈ s.known
  incarnation_ne : ∀ w ∈ s.pool.workers, w.incarnation ≠ ""
  wellFormed : ∀ snapshot, s.published = some snapshot → snapshot.WellFormed

/-- The reports of one generation of one data plane. -/
def CounterReport.From (r : CounterReport) (dp generation : Nat) : Prop :=
  r.dpIndex = dp ∧ r.generation = generation

/-- A reported row of the current generation: its record is still reported, in every later
    report too and with no smaller counters, or the segment is gone. -/
def RowKept (s : CounterNet) (dp : Nat) (p : DataPlane) (r : CounterReport)
    (item : WorkerCounters) : Prop :=
  (∃ w ∈ p.view.reportableWorkers, w.segmentKey = item.key ∧
      ∀ coord, item.value coord ≤ w.count coord) ∧
    (∀ r' ∈ s.sent, r'.From dp p.generation → r.counterSeq ≤ r'.counterSeq →
      item.key ∈ r'.keys) ∨
  s.Gone item.key ∧ item.key ∉ p.view.keys

/-- The drained records are still there, with the counters they were last reported with. -/
def Drained (p : DataPlane) (r : CounterReport) (drained : List SegmentKey) : Prop :=
  ∀ k ∈ drained, ∃ v ∈ p.view.retiring, v.segmentKey = k ∧ v.activeRequests = 0 ∧
    ∃ item ∈ r.workers, item.key = k ∧ ∀ coord, item.value coord = v.count coord

structure PlaneInv (s : CounterNet) (dp : Nat) (p : DataPlane) : Prop where
  separate : p.view.Separate s.publishedKeys
  known : ∀ w ∈ p.view.workers, w.segmentKey ∈ s.known
  /-- A segment the data plane knows is in the published snapshot as long as the pool has it. -/
  current : ∀ w ∈ p.view.workers, w.segmentKey ∈ s.poolKeys → w.segmentKey ∈ s.publishedKeys
  gone : ∀ v ∈ p.view.retiring, s.Gone v.segmentKey
  generation_le : ∀ r ∈ s.sent, r.dpIndex = dp → r.generation ≤ p.generation
  seq_le : ∀ r ∈ s.sent, r.From dp p.generation → r.counterSeq ≤ p.counterSeq
  rows : ∀ r ∈ s.sent, r.From dp p.generation → ∀ item ∈ r.workers, RowKept s dp p r item
  posting : ∀ r drained, p.posting = some (r, drained) →
    r ∈ s.sent ∧ r.From dp p.generation ∧ Drained p r drained

structure SentInv (sent : List CounterReport) : Prop where
  keys_nodup : ∀ r ∈ sent, r.keys.Nodup
  contiguous : ∀ dp generation, ∀ r₁ ∈ sent, ∀ r₂ ∈ sent, ∀ r₃ ∈ sent, r₁.From dp generation →
    r₂.From dp generation → r₃.From dp generation → r₁.counterSeq ≤ r₂.counterSeq →
    r₂.counterSeq ≤ r₃.counterSeq → ∀ k ∈ r₁.keys, k ∈ r₃.keys → k ∈ r₂.keys
  rising : ∀ dp generation, ∀ r ∈ sent, ∀ r' ∈ sent, r.From dp generation →
    r'.From dp generation → r.counterSeq ≤ r'.counterSeq → ∀ item ∈ r.workers,
    ∀ item' ∈ r'.workers, item.key = item'.key → ∀ coord, item.value coord ≤ item'.value coord

structure CounterInv (s : CounterNet) : Prop where
  control : ControlInv s
  plane : ∀ dp, PlaneInv s dp (s.planes dp)
  sent : SentInv s.sent
  ledger : LedgerInv s.ledger s.accepted
  accepted_sent : ∀ r ∈ s.accepted, r ∈ s.sent

/-! ## The control plane -/

/-- What a step of the control plane leaves of a data plane's invariant: no segment that is
    gone returns, and a published segment stays published while the pool has it. -/
structure Follows (s t : CounterNet) : Prop where
  sent : t.sent = s.sent
  known : ∀ k ∈ s.known, k ∈ t.known
  pool : ∀ k ∈ t.poolKeys, k ∈ s.known → k ∈ s.poolKeys ∨ k ∈ s.publishedKeys
  published : ∀ k ∈ t.publishedKeys, k ∈ s.publishedKeys ∨ k ∈ s.poolKeys
  republished : ∀ k ∈ t.poolKeys, k ∈ s.publishedKeys → k ∈ t.publishedKeys

variable {s t : CounterNet}

theorem Follows.gone (h : Follows s t) {k : SegmentKey} (hk : s.Gone k) : t.Gone k := by
  obtain ⟨hknown, hpool, hpub⟩ := hk
  refine ⟨h.known k hknown, fun hmem => ?_, fun hmem => ?_⟩
  · exact (h.pool k hmem hknown).elim hpool hpub
  · exact (h.published k hmem).elim hpub hpool

variable {p : DataPlane} {e : CounterEvent} {r : CounterReport} {dp : Nat}

theorem PlaneInv.follows (h : PlaneInv s dp p) (hf : Follows s t) : PlaneInv t dp p := by
  refine ⟨?_, ?_, ?_, ?_, ?_, ?_, ?_, ?_⟩
  · exact h.separate.change_named fun v hv => (hf.gone (h.gone v hv)).2.2
  · exact fun w hw => hf.known _ (h.known w hw)
  · intro w hw hpool
    rcases hf.pool _ hpool (h.known w hw) with hold | hold
    · exact hf.republished _ hpool (h.current w hw hold)
    · exact hf.republished _ hpool hold
  · exact fun v hv => hf.gone (h.gone v hv)
  · exact hf.sent ▸ h.generation_le
  · exact hf.sent ▸ h.seq_le
  · intro r hr hfrom item hi
    rw [hf.sent] at hr
    rcases h.rows r hr hfrom item hi with ⟨hrec, hlater⟩ | ⟨hgone, hnot⟩
    · refine .inl ⟨hrec, fun r' hr' => ?_⟩
      rw [hf.sent] at hr'
      exact hlater r' hr'
    · exact .inr ⟨hf.gone hgone, hnot⟩
  · intro r drained hposting
    rw [hf.sent]
    exact h.posting r drained hposting

theorem publishedKeys_publish (s : CounterNet) (now : Nat) :
    (WorkerSnapshot.mk (s.seq + 1) s.cpEpoch now (snapshotWorkers s.pool.workers)).segmentKeys =
      s.poolKeys := by
  unfold WorkerSnapshot.segmentKeys snapshotWorkers poolKeys
  rw [map_map]
  rfl

theorem wellFormed_publish (h : ∀ w ∈ s.pool.workers, w.incarnation ≠ "") (now : Nat) :
    (WorkerSnapshot.mk (s.seq + 1) s.cpEpoch now (snapshotWorkers s.pool.workers)).WellFormed := by
  constructor
  · show ((s.pool.workers.map snapshotWorker).map SnapshotWorker.url).Nodup
    rw [map_map]
    exact s.pool.nodup
  · intro e he
    obtain ⟨w, hw, rfl⟩ := mem_map.mp he
    exact h w hw

theorem fresh_notMem {w : Worker} (h : s.Fresh w) : w.segmentKey ∉ s.known :=
  fun hmem => h.2 _ hmem rfl

/-- A step of the control plane. -/
def CounterEvent.Control : CounterEvent → Prop
  | .restartControlPlane .. | .register _ | .remove _ | .change _ | .publish _ => True
  | _ => False

theorem control_step (h : ControlInv s) (he : e.Control) (hstep : counterStep s e = some t) :
    ControlInv t ∧ Follows s t ∧ t.planes = s.planes := by
  cases e with
  | restartControlPlane pool cpEpoch =>
    obtain ⟨hrestores, ⟨⟩⟩ := of_guard hstep
    refine ⟨⟨?_, ?_, ?_, h.wellFormed⟩, ⟨rfl, ?_, ?_, ?_, ?_⟩, rfl⟩
    · exact fun k hk => mem_append_right _ hk
    · exact fun k hk => mem_append_left _ (h.published_known k hk)
    · exact fun w hw => (hrestores w hw).1
    · exact fun k hk => mem_append_left _ hk
    · intro k hk hknown
      obtain ⟨w, hw, rfl⟩ := mem_map.mp hk
      rcases (hrestores w hw).2 with hold | hfrs
      · exact .inr hold
      · exact absurd hknown (fresh_notMem hfrs)
    · exact fun k hk => .inl hk
    · exact fun k _ hk => hk
  | register worker =>
    dsimp only [counterStep] at hstep
    split at hstep
    · next hurl =>
      obtain ⟨hfrs, ⟨⟩⟩ := of_guard hstep
      have hworkers : ∀ w ∈ (s.pool.add worker hurl).workers, w ∈ s.pool.workers ∨ w = worker :=
        fun w hw => Pool.mem_add hw
      have hpool : ∀ k ∈ (s.pool.add worker hurl).workers.map Worker.segmentKey,
          k ∈ s.poolKeys ∨ k = worker.segmentKey := by
        intro k hk
        obtain ⟨w, hw, rfl⟩ := mem_map.mp hk
        rcases hworkers w hw with hw | rfl
        · exact .inl (mem_map_of_mem hw)
        · exact .inr rfl
      refine ⟨⟨?_, ?_, ?_, h.wellFormed⟩, ⟨rfl, ?_, ?_, ?_, ?_⟩, rfl⟩
      · intro k hk
        rcases hpool k hk with hk | rfl
        · exact mem_append_left _ (h.pool_known k hk)
        · exact mem_append_right _ (mem_singleton_self _)
      · exact fun k hk => mem_append_left _ (h.published_known k hk)
      · intro w hw
        rcases hworkers w hw with hw | rfl
        · exact h.incarnation_ne w hw
        · exact hfrs.1
      · exact fun k hk => mem_append_left _ hk
      · intro k hk hknown
        rcases hpool k hk with hk | rfl
        · exact .inl hk
        · exact absurd hknown (fresh_notMem hfrs)
      · exact fun k hk => .inl hk
      · exact fun k _ hk => hk
    · cases hstep
  | remove worker =>
    cases hstep
    have hpool : ∀ k ∈ (s.pool.remove worker).workers.map Worker.segmentKey, k ∈ s.poolKeys := by
      intro k hk
      obtain ⟨w, hw, rfl⟩ := mem_map.mp hk
      exact mem_map_of_mem (Pool.mem_of_mem_remove hw)
    refine ⟨⟨?_, h.published_known, ?_, h.wellFormed⟩, ⟨rfl, fun _ hk => hk, ?_, ?_, ?_⟩, rfl⟩
    · exact fun k hk => h.pool_known k (hpool k hk)
    · exact fun w hw => h.incarnation_ne w (Pool.mem_of_mem_remove hw)
    · exact fun k hk _ => .inl (hpool k hk)
    · exact fun k hk => .inl hk
    · exact fun k _ hk => hk
  | change worker =>
    obtain ⟨hmem, ⟨⟩⟩ := of_guard hstep
    obtain ⟨v, hv, hkey⟩ := mem_map.mp hmem
    have hpool : ∀ k ∈ (s.pool.put worker).workers.map Worker.segmentKey, k ∈ s.poolKeys := by
      intro k hk
      obtain ⟨w, hw, rfl⟩ := mem_map.mp hk
      rcases Pool.mem_put hw with rfl | ⟨hw, -⟩
      · exact hmem
      · exact mem_map_of_mem hw
    refine ⟨⟨?_, h.published_known, ?_, h.wellFormed⟩, ⟨rfl, fun _ hk => hk, ?_, ?_, ?_⟩, rfl⟩
    · exact fun k hk => h.pool_known k (hpool k hk)
    · intro w hw
      rcases Pool.mem_put hw with rfl | ⟨hw, -⟩
      · exact (Worker.segmentKey_eq_iff.mp hkey).2 ▸ h.incarnation_ne v hv
      · exact h.incarnation_ne w hw
    · exact fun k hk _ => .inl (hpool k hk)
    · exact fun k hk => .inl hk
    · exact fun k _ hk => hk
  | publish now =>
    cases hstep
    have hkeys := publishedKeys_publish s now
    refine ⟨⟨h.pool_known, ?_, h.incarnation_ne, ?_⟩, ⟨rfl, fun _ hk => hk, ?_, ?_, ?_⟩, rfl⟩
    · intro k hk
      exact h.pool_known k (hkeys ▸ hk)
    · intro snapshot hsnapshot
      exact Option.some.inj hsnapshot ▸ wellFormed_publish h.incarnation_ne now
    · exact fun k hk _ => .inl hk
    · intro k hk
      exact .inr (hkeys ▸ hk)
    · intro k hk _
      show k ∈ WorkerSnapshot.segmentKeys _
      rw [hkeys]
      exact hk
  | _ => exact absurd he id

/-! ## The data planes -/

section Plane

variable {s : CounterNet} {dp : Nat} {p p' : DataPlane}

open DataPlaneWorkerView

section

variable (h : PlaneInv s dp p)
include h

theorem PlaneInv.setPlane (dp' : Nat) (q : DataPlane) :
    PlaneInv (s.setPlane dp' q) dp p :=
  ⟨h.separate, h.known, h.current, h.gone, h.generation_le, h.seq_le, h.rows, h.posting⟩

/-- The records of a data plane change: none of a gone segment appears, and each is still
    reported with no smaller counters or its segment is gone. -/
theorem PlaneInv.of_view (hgeneration : p'.generation = p.generation)
    (hseq : p'.counterSeq = p.counterSeq) (hseparate : p'.view.Separate s.publishedKeys)
    (hknown : ∀ w ∈ p'.view.workers, w.segmentKey ∈ s.known)
    (hcurrent : ∀ w ∈ p'.view.workers, w.segmentKey ∈ s.poolKeys →
      w.segmentKey ∈ s.publishedKeys) (hgone : ∀ v ∈ p'.view.retiring, s.Gone v.segmentKey)
    (hback : ∀ k, s.Gone k → k ∉ p.view.keys → k ∉ p'.view.keys)
    (hrec : ∀ w ∈ p.view.reportableWorkers,
      (∃ w' ∈ p'.view.reportableWorkers, w'.segmentKey = w.segmentKey ∧
        ∀ coord, w.count coord ≤ w'.count coord) ∨
      s.Gone w.segmentKey ∧ w.segmentKey ∉ p'.view.keys)
    (hposting : ∀ r drained, p'.posting = some (r, drained) →
      p.posting = some (r, drained) ∧ (Drained p r drained → Drained p' r drained)) :
    PlaneInv s dp p' := by
  refine ⟨hseparate, hknown, hcurrent, hgone, ?_, ?_, ?_, ?_⟩
  · exact hgeneration ▸ h.generation_le
  · rw [hgeneration, hseq]
    exact h.seq_le
  · intro r hr hfrom item hi
    rw [hgeneration] at hfrom
    rcases h.rows r hr hfrom item hi with ⟨⟨w, hw, hk, hle⟩, hlater⟩ | ⟨hg, hnot⟩
    · rcases hrec w hw with ⟨w', hw', hk', hle'⟩ | ⟨hg, hnot⟩
      · refine .inl ⟨⟨w', hw', hk'.trans hk, fun coord => (hle coord).trans (hle' coord)⟩, ?_⟩
        rw [hgeneration]
        exact hlater
      · exact .inr ⟨hk ▸ hg, hk ▸ hnot⟩
    · exact .inr ⟨hg, hback _ hg hnot⟩
  · intro r drained hp'
    obtain ⟨hp, hd⟩ := hposting r drained hp'
    obtain ⟨hr, hfrom, hold⟩ := h.posting r drained hp
    exact ⟨hr, hgeneration ▸ hfrom, hd hold⟩

theorem PlaneInv.spawn {generation : Nat} (hlt : p.generation < generation) :
    PlaneInv s dp { generation := generation } := by
  have hnone : ∀ r ∈ s.sent, ¬r.From dp generation := by
    intro r hr ⟨hdp, hgen⟩
    exact absurd (h.generation_le r hr hdp) (not_le.mpr (hgen ▸ hlt))
  refine ⟨⟨nodup_nil, nodup_nil, ?_, ?_, ?_⟩, ?_, ?_, ?_, ?_, ?_, ?_, ?_⟩
  any_goals exact forall_mem_nil _
  · exact fun r hr hdp => (h.generation_le r hr hdp).trans hlt.le
  · exact fun r hr hfrom => absurd hfrom (hnone r hr)
  · exact fun r hr hfrom => absurd hfrom (hnone r hr)
  · exact (by rintro _ _ ⟨⟩)

theorem PlaneInv.refresh (hc : ControlInv s) {snapshot : WorkerSnapshot}
    (hpub : s.published = some snapshot) (fresh : String) :
    PlaneInv s dp { p with reader := some snapshot, view := p.view.apply fresh snapshot } := by
  have hkeys : s.publishedKeys = snapshot.segmentKeys := by
    unfold publishedKeys
    rw [hpub]
  have hwf := hc.wellFormed snapshot hpub
  have hsep := h.separate
  rw [hkeys] at hsep
  have hm := apply_moves fresh hwf hsep
  -- a routed record that is not named is gone: the pool would have it published
  have hleft : ∀ w ∈ p.view.workers, w.segmentKey ∉ snapshot.segmentKeys → s.Gone w.segmentKey := by
    intro w hw hnot
    rw [← hkeys] at hnot
    exact ⟨h.known w hw, fun hpool => hnot (h.current w hw hpool), hnot⟩
  have hretiring : ∀ v ∈ (p.view.apply fresh snapshot).retiring, s.Gone v.segmentKey := by
    intro v hv
    rcases hm.retiring_origin v hv with hold | ⟨hnot, w, hw, hsame⟩
    · exact h.gone v hold
    · rw [← hsame.1] at hnot ⊢
      exact hleft w hw hnot
  refine h.of_view rfl rfl (hkeys ▸ hsep.apply fresh hwf) ?_ ?_ hretiring ?_ ?_ ?_
  · intro w' hw'
    rcases hm.origin w' hw' with ⟨w, hw, hsame⟩ | ⟨hnamed, -⟩
    · exact hsame.1 ▸ h.known w hw
    · exact hc.published_known _ (hkeys ▸ hnamed)
  · intro w' hw' hpool
    rcases hm.origin w' hw' with ⟨w, hw, hsame⟩ | ⟨hnamed, -⟩
    · rw [← hsame.1] at hpool ⊢
      exact h.current w hw hpool
    · exact hkeys ▸ hnamed
  · intro k hgone hnot hmem
    obtain ⟨w', hw', rfl⟩ := mem_keys.mp hmem
    rcases mem_append.mp hw' with hw' | hw'
    · rcases hm.origin w' hw' with ⟨w, hw, hsame⟩ | ⟨hnamed, -⟩
      · exact hnot (mem_keys.mpr ⟨w, mem_append_left _ hw, hsame.1⟩)
      · exact hgone.2.2 (hkeys ▸ hnamed)
    · rcases hm.retiring_origin w' hw' with hold | ⟨-, w, hw, hsame⟩
      · exact hnot (mem_keys.mpr ⟨w', mem_append_right _ hold, rfl⟩)
      · exact hnot (mem_keys.mpr ⟨w, mem_append_left _ hw, hsame.1⟩)
  · intro w hw
    by_cases hk : w.segmentKey ∈ (p.view.apply fresh snapshot).keys
    · obtain ⟨w', hw', heq⟩ := mem_keys.mp hk
      have hsame := hm.same hsep hw hw' heq.symm
      exact .inl ⟨w', hw', heq, fun coord => (hsame.2.1 coord).le⟩
    · obtain ⟨hrouted, hnot, -⟩ := hm.gone hw hk
      exact .inr ⟨hleft w hrouted hnot, hk⟩
  · intro r drained hposting
    refine ⟨hposting, fun hd k hk => ?_⟩
    obtain ⟨v, hv, hv'⟩ := hd k hk
    exact ⟨v, hm.retiring_kept v hv, hv'⟩

theorem PlaneInv.modify {f : Worker → Worker} (hf : Accrues f) {k : SegmentKey}
    (hbusy : ∀ v ∈ p.view.retiring, v.segmentKey = k → v.activeRequests ≠ 0) :
    PlaneInv s dp (p.modify k f) := by
  have hold : ∀ {ws : List Worker} {w' : Worker},
      w' ∈ ws.map (fun w => if w.segmentKey = k then f w else w) →
      ∃ w ∈ ws, w'.segmentKey = w.segmentKey := by
    intro ws w' hw'
    obtain ⟨w, hw, ⟨-, rfl⟩ | ⟨-, rfl⟩⟩ := mem_modify.mp hw'
    · exact ⟨w, hw, hf.segmentKey w⟩
    · exact ⟨_, hw, rfl⟩
  have hnew : ∀ {ws : List Worker} {w : Worker}, w ∈ ws →
      ∃ w' ∈ ws.map (fun w => if w.segmentKey = k then f w else w),
        w'.segmentKey = w.segmentKey ∧ ∀ coord, w.count coord ≤ w'.count coord := by
    intro ws w hw
    by_cases hk : w.segmentKey = k
    · exact ⟨f w, mem_modify.mpr ⟨w, hw, .inl ⟨hk, rfl⟩⟩, hf.segmentKey w, hf.count w⟩
    · exact ⟨w, mem_modify.mpr ⟨w, hw, .inr ⟨hk, rfl⟩⟩, rfl, fun _ => le_rfl⟩
  have hkeys : (p.modify k f).view.keys = p.view.keys := keys_modify hf p.view k
  refine h.of_view rfl rfl (h.separate.modify hf k) ?_ ?_ ?_ ?_ ?_ ?_
  · intro w' hw'
    obtain ⟨w, hw, heq⟩ := hold hw'
    exact heq ▸ h.known w hw
  · intro w' hw'
    obtain ⟨w, hw, heq⟩ := hold hw'
    exact heq ▸ h.current w hw
  · intro v' hv'
    obtain ⟨v, hv, heq⟩ := hold hv'
    exact heq ▸ h.gone v hv
  · intro k' _ hnot
    exact hkeys.symm ▸ hnot
  · intro w hw
    rcases mem_append.mp hw with hw | hw
    · obtain ⟨w', hw', hcnt⟩ := hnew hw
      exact .inl ⟨w', mem_append_left _ hw', hcnt⟩
    · obtain ⟨w', hw', hcnt⟩ := hnew hw
      exact .inl ⟨w', mem_append_right _ hw', hcnt⟩
  · intro r drained hposting
    refine ⟨hposting, fun hd k' hk' => ?_⟩
    obtain ⟨v, hv, hvk, hidle, hi⟩ := hd k' hk'
    have hne : v.segmentKey ≠ k := fun heq => hbusy v hv heq hidle
    exact ⟨v, mem_modify.mpr ⟨v, hv, .inr ⟨hne, rfl⟩⟩, hvk, hidle, hi⟩

theorem PlaneInv.busy_of_serving {k : SegmentKey} (hserving : p.Serving k) :
    ∀ v ∈ p.view.retiring, v.segmentKey = k → v.activeRequests ≠ 0 := by
  intro v hv hvk hidle
  obtain ⟨w, hw, hwk, hact⟩ := hserving
  obtain rfl := h.separate.eq_of_key hw (mem_append_right _ hv) (hwk.trans hvk.symm)
  exact hact.ne' hidle

end

theorem accrues_incrementActive : Accrues Worker.incrementActive :=
  ⟨fun _ => rfl, fun _ => rfl, fun w coord => by cases coord <;> exact le_rfl,
    fun w h hzero coord => by
      have hcnt : w.incrementActive.count coord = w.count coord := by cases coord <;> rfl
      exact hcnt.trans (h hzero coord)⟩

theorem url_recordRoutedRequest (w : Worker) (statusCode : Option Int)
    (serviceClass : ServiceClass) : (w.recordRoutedRequest statusCode serviceClass).url = w.url := by
  dsimp only [Worker.recordRoutedRequest]
  split <;> rfl

theorem accrues_recordRoutedRequest (statusCode : Option Int) (serviceClass : ServiceClass) :
    Accrues fun w => w.recordRoutedRequest statusCode serviceClass :=
  ⟨fun w => url_recordRoutedRequest w statusCode serviceClass,
    fun w => w.segmentKey_recordRoutedRequest statusCode serviceClass,
    fun w => w.count_le_recordRoutedRequest statusCode serviceClass,
    fun w _ => w.tallied_recordRoutedRequest statusCode serviceClass⟩

/-- A request that is over leaves the counters as they are, until it is recorded. -/
theorem decrementActive_getD (w : Worker) :
    ∃ n, w.decrementActive.getD w = { w with activeRequests := n } := by
  unfold Worker.decrementActive
  split
  · exact ⟨_, rfl⟩
  · exact ⟨w.activeRequests, rfl⟩

theorem accrues_finishRequest (outcome : Option (Option Int × ServiceClass)) :
    Accrues (finishRequest outcome) := by
  have hdone : Accrues fun w => w.decrementActive.getD w := by
    refine ⟨fun w => ?_, fun w => ?_, fun w coord => ?_, fun w h hzero coord => ?_⟩
    · obtain ⟨n, hn⟩ := decrementActive_getD w
      rw [hn]
      rfl
    · obtain ⟨n, hn⟩ := decrementActive_getD w
      rw [hn]
      rfl
    · obtain ⟨n, hn⟩ := decrementActive_getD w
      rw [hn]
      cases coord <;> exact le_rfl
    · obtain ⟨n, hn⟩ := decrementActive_getD w
      rw [hn] at hzero ⊢
      have hcnt : Worker.count { w with activeRequests := n } coord = w.count coord := by
        cases coord <;> rfl
      exact hcnt.trans (h hzero coord)
  cases outcome with
  | none => exact hdone
  | some o =>
    have hrec := accrues_recordRoutedRequest o.1 o.2
    exact ⟨fun w => (hrec.url _).trans (hdone.url w),
      fun w => (hrec.segmentKey _).trans (hdone.segmentKey w),
      fun w coord => (hdone.count w coord).trans (hrec.count _ coord),
      fun w h => hrec.tallied _ (hdone.tallied w h)⟩

/-- Released records are gone for good; the others are as they were. -/
theorem PlaneInv.release (h : PlaneInv s dp p) (reported : List SegmentKey) :
    PlaneInv s dp { p with view := p.view.releaseRetired reported, posting := none } := by
  have hsub : ∀ w ∈ (p.view.releaseRetired reported).reportableWorkers,
      w ∈ p.view.reportableWorkers := by
    intro w hw
    rcases mem_append.mp hw with hw | hw
    · exact mem_append_left _ hw
    · exact mem_append_right _ (mem_of_mem_filter hw)
  refine h.of_view rfl rfl (h.separate.releaseRetired reported) h.known h.current ?_ ?_ ?_ ?_
  · exact fun v hv => h.gone v (mem_of_mem_filter hv)
  · intro k _ hnot hmem
    obtain ⟨w, hw, rfl⟩ := mem_keys.mp hmem
    exact hnot (mem_keys.mpr ⟨w, hsub w hw, rfl⟩)
  · intro w hw
    rcases mem_append.mp hw with hrouted | hretired
    · exact .inl ⟨w, mem_append_left _ hrouted, rfl, fun _ => le_rfl⟩
    · by_cases hk : w.segmentKey ∈ reported
      · refine .inr ⟨h.gone w hretired, fun hmem => ?_⟩
        obtain ⟨v, hv, hvk⟩ := mem_keys.mp hmem
        obtain rfl := h.separate.eq_of_key (hsub v hv) hw hvk
        rcases mem_append.mp hv with hv | hv
        · exact h.separate.apart v hv v hretired rfl
        · exact of_decide_eq_true (mem_filter.mp hv).2 hk
      · refine .inl ⟨w, mem_append_right _ ?_, rfl, fun _ => le_rfl⟩
        exact mem_filter.mpr ⟨hretired, decide_eq_true hk⟩
  · exact (by rintro _ _ ⟨⟩)

theorem PlaneInv.abandon (h : PlaneInv s dp p) : PlaneInv s dp { p with posting := none } :=
  h.of_view rfl rfl h.separate h.known h.current h.gone (fun _ _ hnot => hnot)
    (fun w hw => .inl ⟨w, hw, rfl, fun _ => le_rfl⟩)
    (by rintro _ _ ⟨⟩)

end Plane

/-! ## A flush -/

section Flush

open DataPlaneWorkerView

variable {s : CounterNet} {dp : Nat} {r : CounterReport}

theorem keys_payload (p : DataPlane) (dp : Nat) : (p.payload dp).keys = p.view.keys := by
  unfold DataPlane.payload CounterReport.keys DataPlaneWorkerView.keys
  rw [map_map]
  rfl

/-- The report that is being built is the newest of its generation. -/
theorem PlaneInv.seq_lt (h : PlaneInv s dp p) (hr : r ∈ s.sent) (hfrom : r.From dp p.generation) :
    r.counterSeq < (p.payload dp).counterSeq :=
  Nat.lt_succ_of_le (h.seq_le r hr hfrom)

theorem PlaneInv.other (h : PlaneInv s dp p) (hne : r.dpIndex ≠ dp) :
    PlaneInv { s with sent := s.sent ++ [r] } dp p := by
  have hold : ∀ r' ∈ s.sent ++ [r], r'.dpIndex = dp → r' ∈ s.sent := by
    intro r' hr' hdp
    rcases mem_append.mp hr' with hr' | hr'
    · exact hr'
    · obtain rfl := mem_singleton.mp hr'
      exact absurd hdp hne
  refine ⟨h.separate, h.known, h.current, h.gone, ?_, ?_, ?_, ?_⟩
  · exact fun r' hr' hdp => h.generation_le r' (hold r' hr' hdp) hdp
  · exact fun r' hr' hfrom => h.seq_le r' (hold r' hr' hfrom.1) hfrom
  · intro r' hr' hfrom item hi
    rcases h.rows r' (hold r' hr' hfrom.1) hfrom item hi with ⟨hrec, hlater⟩ | hgone
    · exact .inl ⟨hrec, fun r₂ hr₂ hfrom₂ => hlater r₂ (hold r₂ hr₂ hfrom₂.1) hfrom₂⟩
    · exact .inr hgone
  · intro r' drained hposting
    obtain ⟨hr', hrest⟩ := h.posting r' drained hposting
    exact ⟨mem_append_left _ hr', hrest⟩

theorem PlaneInv.flush (h : PlaneInv s dp p) :
    PlaneInv { s with sent := s.sent ++ [p.payload dp] } dp (p.flush dp) := by
  have hlast : p.payload dp ∈ s.sent ++ [p.payload dp] :=
    mem_append_right _ (mem_singleton_self _)
  refine ⟨h.separate, h.known, h.current, h.gone, ?_, ?_, ?_, ?_⟩
  · intro r hr hdp
    rcases mem_append.mp hr with hr | hr
    · exact h.generation_le r hr hdp
    · obtain rfl := mem_singleton.mp hr
      exact le_rfl
  · intro r hr hfrom
    rcases mem_append.mp hr with hr | hr
    · exact (h.seq_lt hr hfrom).le
    · obtain rfl := mem_singleton.mp hr
      exact le_rfl
  · intro r hr hfrom item hi
    rcases mem_append.mp hr with hr | hr
    · rcases h.rows r hr hfrom item hi with ⟨⟨w, hw, hk, hle⟩, hlater⟩ | hgone
      · refine .inl ⟨⟨w, hw, hk, hle⟩, fun r' hr' hfrom' hseq => ?_⟩
        rcases mem_append.mp hr' with hr' | hr'
        · exact hlater r' hr' hfrom' hseq
        · obtain rfl := mem_singleton.mp hr'
          rw [keys_payload]
          exact mem_keys.mpr ⟨w, hw, hk⟩
      · exact .inr hgone
    · obtain rfl := mem_singleton.mp hr
      obtain ⟨w, hw, rfl⟩ := mem_map.mp hi
      refine .inl ⟨⟨w, hw, rfl, fun _ => le_rfl⟩, fun r' hr' hfrom' hseq => ?_⟩
      rcases mem_append.mp hr' with hr' | hr'
      · exact absurd hseq (not_le.mpr (h.seq_lt hr' hfrom'))
      · obtain rfl := mem_singleton.mp hr'
        exact mem_map_of_mem hi
  · intro r drained hposting
    obtain ⟨rfl, rfl⟩ := Prod.mk.inj (Option.some.inj hposting)
    refine ⟨hlast, ⟨rfl, rfl⟩, fun k hk => ?_⟩
    obtain ⟨v, hv, rfl⟩ := mem_map.mp hk
    obtain ⟨hv, hidle⟩ := mem_filter.mp hv
    have hrow : v.counterRow ∈ (p.payload dp).workers :=
      mem_map_of_mem (mem_append_right _ hv)
    exact ⟨v, hv, rfl, of_decide_eq_true hidle, v.counterRow, hrow, rfl, fun _ => rfl⟩

theorem SentInv.flush (h : SentInv s.sent) (hp : PlaneInv s dp p) :
    SentInv (s.sent ++ [p.payload dp]) := by
  -- a row of an older report whose segment is still reported
  have hkept : ∀ r ∈ s.sent, r.From dp p.generation → ∀ item ∈ r.workers, item.key ∈ p.view.keys →
      (∃ w ∈ p.view.reportableWorkers, w.segmentKey = item.key ∧
        ∀ coord, item.value coord ≤ w.count coord) ∧
      ∀ r' ∈ s.sent, r'.From dp p.generation → r.counterSeq ≤ r'.counterSeq →
        item.key ∈ r'.keys := by
    intro r hr hfrom item hi hk
    rcases hp.rows r hr hfrom item hi with hopen | ⟨-, hnot⟩
    · exact hopen
    · exact absurd hk hnot
  refine ⟨?_, ?_, ?_⟩
  · intro r hr
    rcases mem_append.mp hr with hr | hr
    · exact h.keys_nodup r hr
    · obtain rfl := mem_singleton.mp hr
      rw [keys_payload]
      exact hp.separate.keys_nodup
  · intro d g r₁ hr₁ r₂ hr₂ r₃ hr₃ h₁ h₂ h₃ hle₁ hle₂ k hk₁ hk₃
    rcases mem_append.mp hr₂ with hr₂ | hr₂
    · rcases mem_append.mp hr₃ with hr₃ | hr₃
      · rcases mem_append.mp hr₁ with hr₁ | hr₁
        · exact h.contiguous d g r₁ hr₁ r₂ hr₂ r₃ hr₃ h₁ h₂ h₃ hle₁ hle₂ k hk₁ hk₃
        · obtain rfl := mem_singleton.mp hr₁
          obtain ⟨rfl, rfl⟩ := h₁
          exact absurd hle₁ (not_le.mpr (hp.seq_lt hr₂ h₂))
      · obtain rfl := mem_singleton.mp hr₃
        obtain ⟨rfl, rfl⟩ := h₃
        rcases mem_append.mp hr₁ with hr₁ | hr₁
        · obtain ⟨item, hi, rfl⟩ := mem_map.mp hk₁
          rw [keys_payload] at hk₃
          exact (hkept r₁ hr₁ h₁ item hi hk₃).2 r₂ hr₂ h₂ hle₁
        · obtain rfl := mem_singleton.mp hr₁
          exact absurd hle₁ (not_le.mpr (hp.seq_lt hr₂ h₂))
    · obtain rfl := mem_singleton.mp hr₂
      obtain ⟨rfl, rfl⟩ := h₂
      rcases mem_append.mp hr₃ with hr₃ | hr₃
      · exact absurd hle₂ (not_le.mpr (hp.seq_lt hr₃ h₃))
      · obtain rfl := mem_singleton.mp hr₃
        exact hk₃
  · intro d g r hr r' hr' hfrom hfrom' hle item hi item' hi' hk coord
    rcases mem_append.mp hr' with hr' | hr'
    · rcases mem_append.mp hr with hr | hr
      · exact h.rising d g r hr r' hr' hfrom hfrom' hle item hi item' hi' hk coord
      · obtain rfl := mem_singleton.mp hr
        obtain ⟨rfl, rfl⟩ := hfrom
        exact absurd hle (not_le.mpr (hp.seq_lt hr' hfrom'))
    · obtain rfl := mem_singleton.mp hr'
      obtain ⟨rfl, rfl⟩ := hfrom'
      obtain ⟨w', hw', rfl⟩ := mem_map.mp hi'
      rcases mem_append.mp hr with hr | hr
      · have hmem : item.key ∈ p.view.keys := mem_keys.mpr ⟨w', hw', hk.symm⟩
        obtain ⟨⟨w, hw, hwk, hle⟩, -⟩ := hkept r hr hfrom item hi hmem
        obtain rfl := hp.separate.eq_of_key hw hw' (hwk.trans hk)
        exact hle coord
      · obtain rfl := mem_singleton.mp hr
        obtain ⟨w, hw, rfl⟩ := mem_map.mp hi
        obtain rfl := hp.separate.eq_of_key hw hw' hk
        exact le_rfl

end Flush

/-! ## Runs -/

open DataPlaneWorkerView

/-- A record that leaves a data plane has nothing to report, or its final counters are in a
    report that a ledger has applied. -/
def Leaves (s : CounterNet) (dp : Nat) (p p' : DataPlane) : Prop :=
  p'.generation = p.generation → ∀ w ∈ p.view.reportableWorkers, w.segmentKey ∉ p'.view.keys →
    w.Idle ∨ ∃ r ∈ s.acknowledged, r.From dp p.generation ∧
      ∀ coord, r.value (r.segment w.segmentKey) coord = w.count coord

theorem leaves_of_keys {p' : DataPlane} (h : ∀ k ∈ p.view.keys, k ∈ p'.view.keys) :
    Leaves s dp p p' :=
  fun _ w hw hnot => absurd (h _ (mem_keys.mpr ⟨w, hw, rfl⟩)) hnot

theorem leaves_modify {f : Worker → Worker} (hf : Accrues f) (k : SegmentKey) :
    Leaves s dp p (p.modify k f) :=
  leaves_of_keys fun _ hk => (keys_modify hf p.view k).symm ▸ hk

/-- A step of one data plane that sends nothing. -/
def CounterEvent.Plane : CounterEvent → Prop
  | .spawn .. | .refresh .. | .startRequest .. | .recordRequest .. | .finishRequest ..
  | .acknowledge _ | .abandon _ => True
  | _ => False

theorem plane_step (h : CounterInv s) (he : e.Plane) (hstep : counterStep s e = some t) :
    ∃ dp p, t = s.setPlane dp p ∧ PlaneInv s dp p ∧
      Leaves s dp (s.planes dp) p := by
  cases e with
  | spawn dp generation =>
    obtain ⟨hlt, ⟨⟩⟩ := of_guard hstep
    exact ⟨dp, _, rfl, (h.plane dp).spawn hlt, fun heq => absurd heq hlt.ne'⟩
  | refresh dp fresh =>
    dsimp only [counterStep] at hstep
    split at hstep
    · cases hstep
    · next snapshot hpub =>
      cases (of_guard hstep).2
      refine ⟨dp, _, rfl, (h.plane dp).refresh h.control hpub fresh, ?_⟩
      intro _ w hw hnot
      have hkeys : s.publishedKeys = snapshot.segmentKeys := by
        unfold publishedKeys
        rw [hpub]
      have hm := apply_moves fresh (h.control.wellFormed snapshot hpub)
        (hkeys ▸ (h.plane dp).separate)
      exact .inl (hm.gone hw hnot).2.2
  | startRequest dp k =>
    obtain ⟨hk, ⟨⟩⟩ := of_guard hstep
    refine ⟨dp, _, rfl, (h.plane dp).modify accrues_incrementActive ?_,
      leaves_modify accrues_incrementActive k⟩
    intro v hv hvk _
    -- a routed record shares no segment with a retired one
    obtain ⟨w, hw, hwk⟩ := mem_map.mp hk
    exact (h.plane dp).separate.apart w hw v hv (hwk.trans hvk.symm)
  | recordRequest dp k statusCode serviceClass =>
    obtain ⟨hserving, ⟨⟩⟩ := of_guard hstep
    have hf := accrues_recordRoutedRequest statusCode serviceClass
    exact ⟨dp, _, rfl, (h.plane dp).modify hf ((h.plane dp).busy_of_serving hserving),
      leaves_modify hf k⟩
  | finishRequest dp k outcome =>
    obtain ⟨hserving, ⟨⟩⟩ := of_guard hstep
    have hf := accrues_finishRequest outcome
    exact ⟨dp, _, rfl, (h.plane dp).modify hf ((h.plane dp).busy_of_serving hserving),
      leaves_modify hf k⟩
  | acknowledge dp =>
    dsimp only [counterStep] at hstep
    split at hstep
    · cases hstep
    · next r drained hposting =>
      obtain ⟨hack, ⟨⟩⟩ := of_guard hstep
      refine ⟨dp, _, rfl, (h.plane dp).release drained, fun _ w hw hnot => ?_⟩
      obtain ⟨hr, hfrom, hd⟩ := (h.plane dp).posting r drained hposting
      refine .inr ⟨r, hack, hfrom, fun coord => ?_⟩
      have hk : w.segmentKey ∈ drained := by
        by_contra hk
        refine hnot (mem_keys.mpr ⟨w, ?_, rfl⟩)
        rcases mem_append.mp hw with hw | hw
        · exact mem_append_left _ hw
        · exact mem_append_right _ (mem_filter.mpr ⟨hw, decide_eq_true hk⟩)
      obtain ⟨v, hv, hvk, -, item, hi, hkey, hval⟩ := hd _ hk
      obtain rfl := (h.plane dp).separate.eq_of_key (mem_append_right _ hv) hw hvk
      rw [← hkey, CounterReport.value_of_mem (h.sent.keys_nodup r hr) hi]
      exact hval coord
  | abandon dp =>
    cases hstep
    exact ⟨dp, _, rfl, (h.plane dp).abandon, leaves_of_keys fun _ hk => hk⟩
  | _ => exact absurd he id

theorem flush_step (hstep : counterStep s (.flush dp) = some t) :
    t = { s.setPlane dp ((s.planes dp).flush dp) with
      sent := s.sent ++ [(s.planes dp).payload dp] } := by
  dsimp only [counterStep] at hstep
  split at hstep
  · exact (Option.some.inj hstep).symm
  · cases hstep

/-- A delivered report is applied, or leaves everything as it is. -/
theorem deliver_step {now : Nat} (hstep : counterStep s (.deliver r now) = some t) : r ∈ s.sent ∧
    (t = s ∨
      ∃ ledger, s.ledger.apply r now = .ok (true, ledger) ∧ t = { s with
          ledger := ledger
          accepted := s.accepted ++ [r]
          acknowledged := s.acknowledged ++ [r] }) := by
  dsimp only [counterStep] at hstep
  split at hstep
  · next hr =>
    refine ⟨hr, ?_⟩
    split at hstep
    · next ledger happly => exact .inr ⟨ledger, happly, (Option.some.inj hstep).symm⟩
    · exact .inl (Option.some.inj hstep).symm
    · exact .inl (Option.some.inj hstep).symm
  · cases hstep

/-- Accepted reports are sent reports, so a row that one leaves out does not return. -/
theorem CounterInv.returns (h : CounterInv s) (hr : r ∈ s.sent) :
    LedgerInv.Returns s.accepted r := by
  intro r₁ hr₁ r₂ hr₂ hdp₁ hdp₂ hg₁ hg₂ hle hlt k hk₁ hk
  exact h.sent.contiguous r.dpIndex r.generation r₁ (h.accepted_sent r₁ hr₁) r₂
    (h.accepted_sent r₂ hr₂) r hr ⟨hdp₁, hg₁⟩ ⟨hdp₂, hg₂⟩ ⟨rfl, rfl⟩ hle hlt.le k hk₁ hk

theorem CounterInv.init (h : CounterInit s) : CounterInv s := by
  obtain ⟨pool, cpEpoch, hinc, rfl⟩ := h
  refine ⟨⟨fun k hk => hk, ?_, hinc, ?_⟩, fun dp => ?_, ⟨?_, ?_, ?_⟩, LedgerInv.init, ?_⟩
  · exact forall_mem_nil _
  · exact (by rintro _ ⟨⟩)
  · refine ⟨⟨nodup_nil, nodup_nil, ?_, ?_, ?_⟩, ?_, ?_, ?_, ?_, ?_, ?_, ?_⟩
    any_goals exact forall_mem_nil _
    exact (by rintro _ _ ⟨⟩)
  · exact forall_mem_nil _
  · exact fun _ _ => forall_mem_nil _
  · exact fun _ _ => forall_mem_nil _
  · exact forall_mem_nil _

theorem CounterInv.setPlane (h : CounterInv s) (hp : PlaneInv s dp p) :
    CounterInv (s.setPlane dp p) := by
  refine ⟨⟨h.control.pool_known, h.control.published_known, h.control.incarnation_ne,
    h.control.wellFormed⟩, fun dp' => ?_, h.sent, h.ledger, h.accepted_sent⟩
  by_cases hdp : dp' = dp
  · subst hdp
    have hnew : (s.setPlane dp' p).planes dp' = p := update_self ..
    rw [hnew]
    exact hp.setPlane dp' p
  · have hold : (s.setPlane dp p).planes dp' = s.planes dp' := update_of_ne hdp ..
    rw [hold]
    exact (h.plane dp').setPlane dp p

theorem CounterInv.flush (h : CounterInv s) (dp : Nat) :
    CounterInv { s.setPlane dp ((s.planes dp).flush dp) with
      sent := s.sent ++ [(s.planes dp).payload dp] } := by
  refine ⟨⟨h.control.pool_known, h.control.published_known, h.control.incarnation_ne,
    h.control.wellFormed⟩, fun dp' => ?_, h.sent.flush (h.plane dp), h.ledger, ?_⟩
  · by_cases hdp : dp' = dp
    · subst hdp
      have hnew : update s.planes dp' ((s.planes dp').flush dp') dp' =
          (s.planes dp').flush dp' := update_self ..
      show PlaneInv _ dp' (update s.planes dp' ((s.planes dp').flush dp') dp')
      rw [hnew]
      exact (h.plane dp').flush.setPlane dp' ((s.planes dp').flush dp')
    · have hold : update s.planes dp ((s.planes dp).flush dp) dp' = s.planes dp' :=
        update_of_ne hdp ..
      show PlaneInv _ dp' (update s.planes dp ((s.planes dp).flush dp) dp')
      rw [hold]
      exact ((h.plane dp').other fun heq => hdp heq.symm).setPlane dp ((s.planes dp).flush dp)
  · exact fun r hr => mem_append_left _ (h.accepted_sent r hr)

/-- A restart of the control plane. -/
def CounterEvent.Restart : CounterEvent → Prop
  | .restartControlPlane .. => True
  | _ => False

theorem control_ledger (he : e.Control) (hstep : counterStep s e = some t) :
    e.Restart ∧ t.ledger = {} ∧ t.accepted = [] ∨
      t.ledger = s.ledger ∧ t.accepted = s.accepted := by
  cases e with
  | restartControlPlane pool cpEpoch =>
    cases (of_guard hstep).2
    exact .inl ⟨trivial, rfl, rfl⟩
  | register worker =>
    dsimp only [counterStep] at hstep
    split at hstep
    · cases (of_guard hstep).2
      exact .inr ⟨rfl, rfl⟩
    · cases hstep
  | remove worker | publish now =>
    cases hstep
    exact .inr ⟨rfl, rfl⟩
  | change worker =>
    cases (of_guard hstep).2
    exact .inr ⟨rfl, rfl⟩
  | _ => exact absurd he id

theorem CounterEvent.cases_kind (e : CounterEvent) :
    e.Control ∨ e.Plane ∨ (∃ dp, e = .flush dp) ∨ ∃ r now, e = .deliver r now := by
  cases e with
  | flush dp => exact .inr (.inr (.inl ⟨dp, rfl⟩))
  | deliver r now => exact .inr (.inr (.inr ⟨r, now, rfl⟩))
  | restartControlPlane | register | remove | change | publish => exact .inl trivial
  | _ => exact .inr (.inl trivial)

/-- Every step keeps the invariant, and only a restart of the control plane lowers a total. -/
theorem CounterInv.step (h : CounterInv s) (hstep : counterStep s e = some t) : CounterInv t ∧
      (¬e.Restart → ∀ w coord, s.ledger.read w coord ≤ t.ledger.read w coord) := by
  rcases e.cases_kind with he | he | ⟨dp, rfl⟩ | ⟨r, now, rfl⟩
  · obtain ⟨hc, hf, hplanes⟩ := control_step h.control he hstep
    have hplane : ∀ dp, PlaneInv t dp (t.planes dp) := by
      intro dp
      rw [hplanes]
      exact (h.plane dp).follows hf
    rcases control_ledger he hstep with ⟨hrestart, hl, ha⟩ | ⟨hl, ha⟩
    · refine ⟨⟨hc, hplane, hf.sent.symm ▸ h.sent, ?_, ?_⟩, fun hnot => absurd hrestart hnot⟩
      · rw [hl, ha]
        exact LedgerInv.init
      · rw [ha]
        exact (by rintro _ ⟨⟩)
    · refine ⟨⟨hc, hplane, hf.sent.symm ▸ h.sent, ?_, ?_⟩, fun _ w coord => ?_⟩
      · rw [hl, ha]
        exact h.ledger
      · rw [ha, hf.sent]
        exact h.accepted_sent
      · rw [hl]
  · obtain ⟨dp, p, rfl, hp, -⟩ := plane_step h he hstep
    exact ⟨h.setPlane hp, fun _ w coord => le_rfl⟩
  · obtain rfl := flush_step hstep
    exact ⟨h.flush dp, fun _ w coord => le_rfl⟩
  · obtain ⟨hr, rfl | ⟨ledger, happly, rfl⟩⟩ := deliver_step hstep
    · exact ⟨h, fun _ w coord => le_rfl⟩
    · obtain ⟨hledger, hle⟩ := h.ledger.apply (h.sent.keys_nodup r hr) (h.returns hr) happly
      refine ⟨⟨?_, fun dp => ?_, h.sent, hledger, ?_⟩, fun _ => hle⟩
      · exact ⟨h.control.pool_known, h.control.published_known, h.control.incarnation_ne,
          h.control.wellFormed⟩
      · have hp := h.plane dp
        exact ⟨hp.separate, hp.known, hp.current, hp.gone, hp.generation_le, hp.seq_le, hp.rows,
          hp.posting⟩
      · intro r' hr'
        rcases mem_append.mp hr' with hr' | hr'
        · exact h.accepted_sent r' hr'
        · exact mem_singleton.mp hr' ▸ hr

theorem counterInv_of_reachable (h : counterSystem.Reachable s) : CounterInv s :=
  h.invariant (fun _ hinit => .init hinit) fun _ _ _ hs hstep => (hs.step hstep).1

/-- What a step takes away from a data plane is reported already. -/
theorem CounterInv.leaves (h : CounterInv s) (hstep : counterStep s e = some t) (dp : Nat) :
    Leaves s dp (s.planes dp) (t.planes dp) := by
  have hsame : t.planes dp = s.planes dp → Leaves s dp (s.planes dp) (t.planes dp) := by
    intro heq
    rw [heq]
    exact leaves_of_keys fun _ hk => hk
  rcases e.cases_kind with he | he | ⟨dp', rfl⟩ | ⟨r, now, rfl⟩
  · exact hsame (congrFun (control_step h.control he hstep).2.2 dp)
  · obtain ⟨dp', p, rfl, -, hleaves⟩ := plane_step h he hstep
    by_cases hdp : dp = dp'
    · subst hdp
      have hnew : (s.setPlane dp p).planes dp = p := update_self ..
      rw [hnew]
      exact hleaves
    · exact hsame (update_of_ne hdp ..)
  · obtain rfl := flush_step hstep
    by_cases hdp : dp = dp'
    · subst hdp
      have hnew : update s.planes dp ((s.planes dp).flush dp) dp =
          (s.planes dp).flush dp := update_self ..
      show Leaves s dp (s.planes dp) (update s.planes dp ((s.planes dp).flush dp) dp)
      rw [hnew]
      exact leaves_of_keys fun _ hk => hk
    · exact hsame (update_of_ne hdp ..)
  · obtain ⟨-, heq | ⟨ledger, -, heq⟩⟩ := deliver_step hstep
    · exact hsame (congrArg (fun u => u.planes dp) heq)
    · exact hsame (congrArg (fun u => u.planes dp) heq)

theorem foldl_max_le {values : List Nat} {bound start : Nat} (hsrt : start ≤ bound)
    (h : ∀ v ∈ values, v ≤ bound) : values.foldl max start ≤ bound := by
  induction values generalizing start with
  | nil => exact hsrt
  | cons v values ih =>
    refine ih (Nat.max_le.mpr ⟨hsrt, h v mem_cons_self⟩) fun u hu => ?_
    exact h u (mem_cons_of_mem v hu)

theorem le_foldl_max {values : List Nat} {v start : Nat} (h : v ∈ values) :
    v ≤ values.foldl max start := by
  have hgrow : ∀ (us : List Nat) (a : Nat), a ≤ us.foldl max a := by
    intro us
    induction us with
    | nil => exact fun a => le_refl a
    | cons u us ih => exact fun a => (Nat.le_max_left a u).trans (ih _)
  induction values generalizing start with
  | nil => cases h
  | cons u values ih =>
    rcases mem_cons.mp h with rfl | h
    · exact (Nat.le_max_right start v).trans (hgrow values _)
    · exact ih h

/-- Once the last report of a segment is applied, its mark is the final value. -/
theorem CounterInv.highest_eq (h : CounterInv s) (hr : r ∈ s.accepted) {x : CounterSegment}
    (hx : x ∈ r.segments) (hlast : ∀ r' ∈ s.sent, x ∈ r'.segments → r'.counterSeq ≤ r.counterSeq)
    (coord : CounterCoord) : highest s.accepted coord x = r.value x coord := by
  have hsent := h.accepted_sent r hr
  obtain ⟨k, hk, rfl⟩ := mem_map.mp hx
  obtain ⟨item, hi, rfl⟩ := mem_map.mp hk
  rw [CounterReport.value_of_mem (h.sent.keys_nodup r hsent) hi]
  apply le_antisymm
  · refine foldl_max_le (Nat.zero_le _) fun v hv => ?_
    obtain ⟨item', hi', rfl⟩ := mem_map.mp hv
    obtain ⟨r', hr', hrow⟩ := mem_flatMap.mp hi'
    obtain ⟨hi', hseg⟩ := mem_filter.mp hrow
    have hseg := of_decide_eq_true hseg
    have hx' : r.segment item.key ∈ r'.segments :=
      hseg ▸ mem_map_of_mem (mem_map_of_mem hi')
    have hdp : r'.dpIndex = r.dpIndex := congrArg CounterSegment.dpIndex hseg
    have hgen : r'.generation = r.generation := congrArg CounterSegment.generation hseg
    have hkey : item'.key = item.key := Prod.ext (congrArg CounterSegment.workerId hseg)
      (congrArg CounterSegment.incarnation hseg)
    exact h.sent.rising _ _ r' (h.accepted_sent r' hr') r hsent ⟨hdp, hgen⟩ ⟨rfl, rfl⟩
      (hlast r' (h.accepted_sent r' hr') hx') item' hi' item hi hkey coord
  · refine le_foldl_max (mem_map.mpr ⟨item, mem_flatMap.mpr ⟨r, hr, ?_⟩, rfl⟩)
    exact mem_filter.mpr ⟨hi, decide_eq_true rfl⟩

/-- After any run the totals are the sum over all accepted segments of the highest accepted
    value less the baseline, and no step but a restart of the control plane lowers one. Once the
    last report of a segment is accepted its mark is the final value, and no record leaves its
    data plane before a report with its final counters has been applied. -/
theorem counter_ledger_exact {s : CounterNet} (h : counterSystem.Reachable s) :
    (∀ w coord, s.ledger.read w coord = ∑ x ∈ segmentsOf s.accepted with x.workerId = w,
      (highest s.accepted coord x - baseline s.accepted coord x)) ∧
    (∀ e t, counterSystem.step s e t → ¬e.Restart →
      ∀ w coord, s.ledger.read w coord ≤ t.ledger.read w coord) ∧
    (∀ r ∈ s.accepted, ∀ x ∈ r.segments,
      (∀ r' ∈ s.sent, x ∈ r'.segments → r'.counterSeq ≤ r.counterSeq) →
      ∀ coord, highest s.accepted coord x = r.value x coord) ∧
    ∀ e t, counterSystem.step s e t → ∀ dp, Leaves s dp (s.planes dp) (t.planes dp) := by
  have hinv := counterInv_of_reachable h
  exact ⟨hinv.ledger.read_eq, fun e t hstep => (hinv.step hstep).2,
    fun r hr x hx hlast => hinv.highest_eq hr hx hlast, fun e t hstep => hinv.leaves hstep⟩

/-- The state a list of events leads to. -/
def CounterNet.after (s : CounterNet) (events : List CounterEvent) : CounterNet :=
  (System.exec counterStep s events).getD s

theorem CounterNet.reachable_after (h : counterSystem.Reachable s) (events : List CounterEvent) :
    counterSystem.Reachable (s.after events) := by
  unfold CounterNet.after
  cases hrun : System.exec counterStep s events with
  | none => exact h
  | some t => exact System.Reachable.of_exec h hrun

def servedWorker : Worker :=
  { config := ⟨"a", none, []⟩, incarnation := "i", state := .healthy }

/-- No worker is registered yet. -/
def servedStart : CounterNet := { pool := Pool.empty, cpEpoch := "e", known := [] }

/-- A worker is registered, published and reported for the first time. -/
def firstFlush : CounterNet :=
  servedStart.after
    [.register servedWorker, .publish 0, .spawn 0 1, .refresh 0 "f", .flush 0]

/-- The report is applied, a request is served, and the next report is built. -/
def secondFlush : CounterNet :=
  firstFlush.after ((firstFlush.sent.map fun r => .deliver r 1) ++
    [.acknowledge 0, .startRequest 0 servedWorker.segmentKey,
      .finishRequest 0 servedWorker.segmentKey (some (some 200, .generation)), .flush 0])

/-- Both reports arrive, the first for the second time. -/
def servedNet : CounterNet := secondFlush.after (secondFlush.sent.map fun r => .deliver r 2)

theorem counter_ledger_exact_served : servedNet.accepted.length = 2 ∧
    servedNet.ledger.read "a" (.total .routed) = 1 ∧
    ∑ x ∈ segmentsOf servedNet.accepted with x.workerId = "a",
      (highest servedNet.accepted (.total .routed) x -
        baseline servedNet.accepted (.total .routed) x) = 1 := by
  have hinit : counterSystem.Reachable servedStart :=
    .init ⟨Pool.empty, "e", (by rintro _ ⟨⟩), rfl⟩
  have hreach : counterSystem.Reachable servedNet :=
    reachable_after (reachable_after (reachable_after hinit _) _) _
  have hread : servedNet.ledger.read "a" (.total .routed) = 1 := by decide +kernel
  refine ⟨by decide +kernel, hread, ?_⟩
  rw [← (counter_ledger_exact hreach).1]
  exact hread

end OmniRealtime
