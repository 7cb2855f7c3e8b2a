import OmniRealtime.Router.CounterLedger
import OmniRealtime.Router.Snapshot

/-!
# The workers a data plane reports

`data_plane.py`: the counters of a worker record live in the record. A snapshot that names a
new incarnation of a URL, or no longer names the URL, retires the record: it is kept, and
reported, until the control plane has its final counters.

1. `DataPlaneWorkerView.apply_moves`: what a snapshot does to the records. A record of a
   segment the snapshot names is kept with its counters; any other is retired, unless it has
   served nothing; a record is made only for a segment that has none.
2. `DataPlaneWorkerView.Separate.apply`: no two records of a view share a segment.
-/

namespace OmniRealtime

open List Worker

/-! ## Segments of worker records -/

namespace Worker

/-- Worker id and incarnation of a record, as a report names them. -/
def segmentKey (w : Worker) : SegmentKey := (w.workerId, w.incarnation)

/-- A row of the payload of `_counter_flush_loop`. -/
def counterRow (w : Worker) : WorkerCounters where
  workerId := w.workerId
  incarnation := w.incarnation
  routedTotal := w.routedRequests
  successfulTotal := w.successfulRequests
  failedTotal := w.failedRequests
  currentActive := w.activeRequests
  routedRequestsByClass := w.routedRequestsByClass
  successfulRequestsByClass := w.successfulRequestsByClass
  failedRequestsByClass := w.failedRequestsByClass

def count (w : Worker) (coord : CounterCoord) : Nat := w.counterRow.value coord

variable {v w : Worker}

theorem segmentKey_eq_iff :
    v.segmentKey = w.segmentKey ↔ v.url = w.url ∧ v.incarnation = w.incarnation := by
  unfold segmentKey
  rw [Prod.mk.injEq]
  refine and_congr_left fun _ => ⟨fun h => quote_injective h, fun h => ?_⟩
  rw [workerId, workerId, h]

/-- The same segment with the same counters. -/
def SameCounts (v w : Worker) : Prop :=
  v.segmentKey = w.segmentKey ∧ (∀ coord, v.count coord = w.count coord) ∧
    v.activeRequests = w.activeRequests

/-- A record that has nothing to report. -/
def Idle (w : Worker) : Prop := w.activeRequests = 0 ∧ ∀ coord, w.count coord = 0

theorem SameCounts.refl (w : Worker) : w.SameCounts w := ⟨rfl, fun _ => rfl, rfl⟩

theorem SameCounts.trans {u : Worker} (h : u.SameCounts v) (h' : v.SameCounts w) :
    u.SameCounts w :=
  ⟨h.1.trans h'.1, fun coord => (h.2.1 coord).trans (h'.2.1 coord), h.2.2.trans h'.2.2⟩

theorem SameCounts.symm (h : v.SameCounts w) : w.SameCounts v :=
  ⟨h.1.symm, fun coord => (h.2.1 coord).symm, h.2.2.symm⟩

theorem Idle.of_same (h : v.Idle) (hs : v.SameCounts w) : w.Idle :=
  ⟨hs.2.2.symm.trans h.1, fun coord => (hs.2.1 coord).symm.trans (h.2 coord)⟩

/-- Every count of a request is also in the routed total. -/
def Tallied (w : Worker) : Prop := w.routedRequests = 0 → ∀ coord, w.count coord = 0

theorem Idle.tallied (h : w.Idle) : w.Tallied := fun _ => h.2

theorem Tallied.of_same (h : v.Tallied) (hs : v.SameCounts w) : w.Tallied := by
  intro hzero coord
  have hrouted : v.routedRequests = 0 := (hs.2.1 (.total .routed)).trans hzero
  exact (hs.2.1 coord).symm.trans (h hrouted coord)

theorem tallied_recordRoutedRequest (w : Worker) (statusCode : Option Int)
    (serviceClass : ServiceClass) : (w.recordRoutedRequest statusCode serviceClass).Tallied := by
  intro hzero
  have hpos : (w.recordRoutedRequest statusCode serviceClass).routedRequests =
      w.routedRequests + 1 := by
    dsimp only [recordRoutedRequest]
    split <;> rfl
  rw [hpos] at hzero
  cases hzero

theorem le_incrementCounter (counters : ClassCounters) (key c : ServiceClass) :
    counters c ≤ incrementCounter counters key c := by
  unfold incrementCounter
  split
  · exact Nat.le_succ _
  · exact le_rfl

theorem count_le_recordRoutedRequest (w : Worker) (statusCode : Option Int)
    (serviceClass : ServiceClass) (coord : CounterCoord) :
    w.count coord ≤ (w.recordRoutedRequest statusCode serviceClass).count coord := by
  dsimp only [recordRoutedRequest]
  split
  all_goals
    cases coord with
    | total key =>
      cases key
      all_goals first | exact Nat.le_succ _ | exact le_rfl
    | byClass key c =>
      cases key
      all_goals first | exact le_incrementCounter _ _ _ | exact le_rfl

theorem segmentKey_recordRoutedRequest (w : Worker) (statusCode : Option Int)
    (serviceClass : ServiceClass) :
    (w.recordRoutedRequest statusCode serviceClass).segmentKey = w.segmentKey := by
  dsimp only [recordRoutedRequest]
  split <;> rfl

end Worker

namespace SnapshotWorker

def segmentKey (e : SnapshotWorker) : SegmentKey := (workerIdFromUrl e.url, e.incarnation)

end SnapshotWorker

namespace WorkerSnapshot

def segmentKeys (snapshot : WorkerSnapshot) : List SegmentKey :=
  snapshot.workers.map SnapshotWorker.segmentKey

/-- A snapshot of a pool: a URL once, and every worker with its incarnation. -/
structure WellFormed (snapshot : WorkerSnapshot) : Prop where
  urls_nodup : (snapshot.workers.map SnapshotWorker.url).Nodup
  incarnation_ne : ∀ e ∈ snapshot.workers, e.incarnation ≠ ""

end WorkerSnapshot

/-! ## Reports and releases -/

namespace DataPlaneWorkerView

def reportableWorkers (view : DataPlaneWorkerView) : List Worker := view.workers ++ view.retiring

def drainedRetired (view : DataPlaneWorkerView) : List Worker :=
  view.retiring.filter fun w => w.activeRequests = 0

/-- `release_retired`; a record is its segment, no two records of a view share one. -/
def releaseRetired (view : DataPlaneWorkerView) (reported : List SegmentKey) :
    DataPlaneWorkerView :=
  { view with retiring := view.retiring.filter fun w => w.segmentKey ∉ reported }

/-- Change the record of one segment, routed or retiring. -/
def modify (view : DataPlaneWorkerView) (k : SegmentKey) (f : Worker → Worker) :
    DataPlaneWorkerView :=
  { view with
    workers := view.workers.map fun w => if w.segmentKey = k then f w else w
    retiring := view.retiring.map fun w => if w.segmentKey = k then f w else w }

def keys (view : DataPlaneWorkerView) : List SegmentKey :=
  view.reportableWorkers.map Worker.segmentKey

/-- No two records share a segment; `named` are the segments of a snapshot, which no retired
    record has. -/
structure Separate (named : List SegmentKey) (view : DataPlaneWorkerView) : Prop where
  urls_nodup : (view.workers.map Worker.url).Nodup
  retiring_nodup : (view.retiring.map Worker.segmentKey).Nodup
  apart : ∀ w ∈ view.workers, ∀ v ∈ view.retiring, w.segmentKey ≠ v.segmentKey
  retired : ∀ v ∈ view.retiring, v.segmentKey ∉ named
  tallied : ∀ w ∈ view.reportableWorkers, w.Tallied

/-- What becomes of the records while a snapshot that names `named` is applied. -/
structure Moves (named : List SegmentKey) (view view' : DataPlaneWorkerView) : Prop where
  origin : ∀ w' ∈ view'.workers, (∃ w ∈ view.workers, w.SameCounts w') ∨
    w'.segmentKey ∈ named ∧ w'.segmentKey ∉ view.workers.map Worker.segmentKey ∧ w'.Idle
  fate : ∀ w ∈ view.workers, (∃ w' ∈ view'.workers, w.SameCounts w') ∨
    w.segmentKey ∉ named ∧ ((∃ v ∈ view'.retiring, w.SameCounts v) ∨ w.Idle)
  retiring_origin : ∀ v ∈ view'.retiring, v ∈ view.retiring ∨
    v.segmentKey ∉ named ∧ ∃ w ∈ view.workers, w.SameCounts v
  retiring_kept : ∀ v ∈ view.retiring, v ∈ view'.retiring

theorem Moves.refl (named : List SegmentKey) (view : DataPlaneWorkerView) :
    Moves named view view :=
  ⟨fun w hw => .inl ⟨w, hw, .refl w⟩, fun w hw => .inl ⟨w, hw, .refl w⟩, fun _ hv => .inl hv,
    fun _ hv => hv⟩

theorem Moves.trans {named : List SegmentKey} {u v w : DataPlaneWorkerView}
    (h : Moves named u v) (h' : Moves named v w) : Moves named u w := by
  refine ⟨?_, ?_, ?_, ?_⟩
  · intro c hc
    rcases h'.origin c hc with ⟨b, hb, hbc⟩ | ⟨hn, hnew, hi⟩
    · rcases h.origin b hb with ⟨a, ha, hab⟩ | ⟨hn, hnew, hi⟩
      · exact .inl ⟨a, ha, hab.trans hbc⟩
      · exact .inr ⟨hbc.1 ▸ hn, hbc.1 ▸ hnew, hi.of_same hbc⟩
    · refine .inr ⟨hn, fun hold => ?_, hi⟩
      -- a named record of the first view is still there in the second
      obtain ⟨a, ha, hkey⟩ := mem_map.mp hold
      rcases h.fate a ha with ⟨b, hb, hab⟩ | ⟨hnot, -⟩
      · exact hnew (mem_map.mpr ⟨b, hb, hab.1.symm.trans hkey⟩)
      · exact hnot (hkey ▸ hn)
  · intro a ha
    rcases h.fate a ha with ⟨b, hb, hab⟩ | ⟨hnot, ⟨b, hb, hab⟩ | hi⟩
    · rcases h'.fate b hb with ⟨c, hc, hbc⟩ | ⟨hnot, ⟨c, hc, hbc⟩ | hi⟩
      · exact .inl ⟨c, hc, hab.trans hbc⟩
      · exact .inr ⟨hab.1 ▸ hnot, .inl ⟨c, hc, hab.trans hbc⟩⟩
      · exact .inr ⟨hab.1 ▸ hnot, .inr (hi.of_same hab.symm)⟩
    · exact .inr ⟨hnot, .inl ⟨b, h'.retiring_kept b hb, hab⟩⟩
    · exact .inr ⟨hnot, .inr hi⟩
  · intro c hc
    rcases h'.retiring_origin c hc with hc | ⟨hnot, b, hb, hbc⟩
    · exact h.retiring_origin c hc
    · rcases h.origin b hb with ⟨a, ha, hab⟩ | ⟨hn, -⟩
      · exact .inr ⟨hnot, a, ha, hab.trans hbc⟩
      · exact absurd (hbc.1 ▸ hn) hnot
  · intro v hv
    exact h'.retiring_kept v (h.retiring_kept v hv)

variable {v w : Worker}

theorem mem_retire {retiring : List Worker} :
    v ∈ retire retiring w ↔
      v ∈ retiring ∨ v = w ∧ (0 < w.activeRequests ∨ 0 < w.routedRequests) := by
  unfold retire
  split
  · next hserved =>
    rw [mem_append, mem_singleton]
    exact ⟨Or.imp_right fun h => ⟨h, hserved⟩, Or.imp_right And.left⟩
  · next hserved =>
    exact ⟨.inl, fun h => h.resolve_right fun h => hserved h.2⟩

theorem idle_of_not_served (h : w.Tallied) (hnot : ¬(0 < w.activeRequests ∨ 0 < w.routedRequests)) :
    w.Idle := by
  rw [not_or, not_lt, not_lt, Nat.le_zero, Nat.le_zero] at hnot
  exact ⟨hnot.1, h hnot.2⟩

theorem mem_retire_or_idle (retiring : List Worker) (h : w.Tallied) :
    w ∈ retire retiring w ∨ w.Idle := by
  by_cases hserved : 0 < w.activeRequests ∨ 0 < w.routedRequests
  · exact .inl (mem_retire.mpr (.inr ⟨rfl, hserved⟩))
  · exact .inr (idle_of_not_served h hserved)

theorem idle_entryWorker (fresh : String) (e : SnapshotWorker) : (entryWorker fresh e).Idle := by
  refine ⟨rfl, fun coord => ?_⟩
  cases coord with
  | total key | byClass key c => cases key <;> rfl

theorem sameCounts_updateWorker {e : SnapshotWorker} (hurl : w.url = e.url)
    (hinc : e.incarnation = "" ∨ w.incarnation = e.incarnation) :
    w.SameCounts (updateWorker w e) := by
  have hincarnation : (updateWorker w e).incarnation = w.incarnation := by
    dsimp only [updateWorker]
    split
    · rfl
    · next hne => exact (hinc.resolve_left hne).symm
  refine ⟨?_, ?_, rfl⟩
  · rw [segmentKey_eq_iff, hincarnation]
    exact ⟨hurl, rfl⟩
  · intro coord
    cases coord with
    | total key | byClass key c => cases key <;> rfl

/-! ## One entry -/

section Entry

variable {named : List SegmentKey} {view : DataPlaneWorkerView} (fresh : String)
  {e : SnapshotWorker}

theorem Separate.eq_of_url (h : view.Separate named) (hv : v ∈ view.workers) (hw : w ∈ view.workers)
    (hurl : v.url = w.url) : v = w :=
  inj_on_of_nodup_map h.urls_nodup hv hw hurl

theorem Separate.workers_nodup (h : view.Separate named) :
    (view.workers.map segmentKey).Nodup := by
  refine List.Nodup.map_on ?_ (List.Nodup.of_map _ h.urls_nodup)
  intro v hv w hw heq
  exact h.eq_of_url hv hw (segmentKey_eq_iff.mp heq).1

theorem mem_of_find_url {workers : List Worker} {url : String}
    (h : workers.find? (fun w => w.url == url) = some w) : w ∈ workers ∧ w.url = url :=
  ⟨mem_of_find?_eq_some h, by simpa using find?_some h⟩

theorem segmentKey_entryWorker (hinc : e.incarnation ≠ "") :
    (entryWorker fresh e).segmentKey = e.segmentKey := by
  unfold entryWorker segmentKey SnapshotWorker.segmentKey
  rw [if_neg hinc]
  rfl

/-- The records after a replacement or an update: one that stands at the URL of the entry, or
    an old one from elsewhere. -/
theorem mem_map_at {workers : List Worker} {url : String} {f : Worker → Worker} {w' : Worker} :
    w' ∈ workers.map (fun v => if v.url = url then f v else v) ↔
      (∃ w ∈ workers, w.url = url ∧ w' = f w) ∨ w' ∈ workers ∧ w'.url ≠ url := by
  rw [mem_map]
  constructor
  · intro ⟨v, hv, heq⟩
    split at heq
    · next hurl => exact .inl ⟨v, hv, hurl, heq.symm⟩
    · next hurl => exact .inr ⟨heq ▸ hv, heq ▸ hurl⟩
  · intro h
    rcases h with ⟨v, hv, hurl, rfl⟩ | ⟨hw, hurl⟩
    · exact ⟨v, hv, if_pos hurl⟩
    · exact ⟨w', hw, if_neg hurl⟩

theorem urls_map_at {workers : List Worker} {url : String} {f : Worker → Worker}
    (hf : ∀ w, w.url = url → (f w).url = url) :
    (workers.map fun v => if v.url = url then f v else v).map Worker.url =
      workers.map Worker.url := by
  rw [map_map]
  refine map_congr_left fun v _ => ?_
  dsimp only [Function.comp]
  split
  · next hurl => exact (hf v hurl).trans hurl.symm
  · rfl

section

variable (h : view.Separate named)
include h

theorem applyEntry_moves (hn : e.segmentKey ∈ named) (hinc : e.incarnation ≠ "")
    (hone : ∀ w : Worker, w.url = e.url → w.segmentKey ∈ named → w.incarnation = e.incarnation) :
    Moves named view (applyEntry fresh view e) := by
  have hkey := segmentKey_entryWorker fresh hinc
  unfold applyEntry
  split
  · next hfind =>
    have hnone : ∀ w ∈ view.workers, w.url ≠ e.url := by
      intro w hw hurl
      exact find?_eq_none.mp hfind w hw (beq_iff_eq.mpr hurl)
    refine ⟨?_, ?_, fun v hv => .inl hv, fun v hv => hv⟩
    · intro w' hw'
      rcases mem_append.mp hw' with hw' | hw'
      · exact .inl ⟨w', hw', .refl w'⟩
      · obtain rfl := mem_singleton.mp hw'
        refine .inr ⟨hkey ▸ hn, fun hold => ?_, idle_entryWorker fresh e⟩
        obtain ⟨w, hw, heq⟩ := mem_map.mp hold
        exact hnone w hw (segmentKey_eq_iff.mp heq).1
    · exact fun w hw => .inl ⟨w, mem_append_left _ hw, .refl w⟩
  · next w hfind =>
    obtain ⟨hw, hurl⟩ := mem_of_find_url hfind
    have honly : ∀ v ∈ view.workers, v.url = e.url → v = w :=
      fun v hv hvurl => h.eq_of_url hv hw (hvurl.trans hurl.symm)
    split
    · next hchanged =>
      -- a new incarnation: the old record is retired
      have hgone : w.segmentKey ∉ named := fun hmem => hchanged.2 (hone w hurl hmem)
      refine ⟨?_, ?_, ?_, ?_⟩
      · intro w' hw'
        rcases mem_map_at.mp hw' with ⟨-, -, -, rfl⟩ | ⟨hw', -⟩
        · refine .inr ⟨hkey ▸ hn, fun hold => ?_, idle_entryWorker fresh e⟩
          obtain ⟨v, hv, heq⟩ := mem_map.mp hold
          obtain rfl := honly v hv (segmentKey_eq_iff.mp heq).1
          exact hgone (heq ▸ hkey ▸ hn)
        · exact .inl ⟨w', hw', .refl w'⟩
      · intro v hv
        by_cases hvurl : v.url = e.url
        · obtain rfl := honly v hv hvurl
          refine .inr ⟨hgone, ?_⟩
          rcases mem_retire_or_idle view.retiring
            (h.tallied v (mem_append_left _ hv)) with hmem | hi
          · exact .inl ⟨v, hmem, .refl v⟩
          · exact .inr hi
        · exact .inl ⟨v, mem_map_at.mpr (.inr ⟨hv, hvurl⟩), .refl v⟩
      · intro v hv
        rcases mem_retire.mp hv with hv | ⟨rfl, -⟩
        · exact .inl hv
        · exact .inr ⟨hgone, v, hw, .refl v⟩
      · exact fun v hv => mem_retire.mpr (.inl hv)
    · next hsame =>
      have hsame' : w.incarnation = e.incarnation := by
        by_cases heq : w.incarnation = e.incarnation
        · exact heq
        · exact absurd ⟨hinc, heq⟩ hsame
      have hkept := sameCounts_updateWorker hurl (.inr hsame')
      refine ⟨?_, ?_, fun v hv => .inl hv, fun v hv => hv⟩
      · intro w' hw'
        rcases mem_map_at.mp hw' with ⟨v, hv, hvurl, rfl⟩ | ⟨hw', -⟩
        · obtain rfl := honly v hv hvurl
          exact .inl ⟨v, hv, hkept⟩
        · exact .inl ⟨w', hw', .refl w'⟩
      · intro v hv
        by_cases hvurl : v.url = e.url
        · obtain rfl := honly v hv hvurl
          exact .inl ⟨_, mem_map_at.mpr (.inl ⟨v, hv, hvurl, rfl⟩), hkept⟩
        · exact .inl ⟨v, mem_map_at.mpr (.inr ⟨hv, hvurl⟩), .refl v⟩

/-- Records that moved stay apart, when those just retired are gone from the routed ones. -/
theorem Separate.of_moves {view' : DataPlaneWorkerView} (hm : Moves named view view')
    (hurls : (view'.workers.map url).Nodup)
    (hretiring : (view'.retiring.map segmentKey).Nodup)
    (hleft : ∀ w ∈ view'.workers, ∀ v ∈ view'.retiring, v ∉ view.retiring →
      w.segmentKey ≠ v.segmentKey) : view'.Separate named := by
  refine ⟨hurls, hretiring, ?_, ?_, ?_⟩
  · intro w' hw' v hv
    by_cases hold : v ∈ view.retiring
    · rcases hm.origin w' hw' with ⟨w, hw, hsame⟩ | ⟨hn, -⟩
      · exact hsame.1 ▸ h.apart w hw v hold
      · exact fun heq => h.retired v hold (heq ▸ hn)
    · exact hleft w' hw' v hv hold
  · intro v hv
    rcases hm.retiring_origin v hv with hold | ⟨hnot, -⟩
    · exact h.retired v hold
    · exact hnot
  · intro w' hw'
    rcases mem_append.mp hw' with hw' | hw'
    · rcases hm.origin w' hw' with ⟨w, hw, hsame⟩ | ⟨-, -, hi⟩
      · exact (h.tallied w (mem_append_left _ hw)).of_same hsame
      · exact hi.tallied
    · rcases hm.retiring_origin w' hw' with hold | ⟨-, w, hw, hsame⟩
      · exact h.tallied w' (mem_append_right _ hold)
      · exact (h.tallied w (mem_append_left _ hw)).of_same hsame

theorem Separate.nodup_retire (hw : w ∈ view.workers) :
    ((retire view.retiring w).map segmentKey).Nodup := by
  unfold retire
  split
  · rw [map_append, nodup_append]
    refine ⟨h.retiring_nodup, nodup_singleton _, ?_⟩
    intro k hk k' hk' heq
    obtain ⟨v, hv, rfl⟩ := mem_map.mp hk
    obtain rfl := mem_singleton.mp hk'
    exact h.apart w hw v hv heq.symm
  · exact h.retiring_nodup

theorem Separate.applyEntry (hn : e.segmentKey ∈ named) (hinc : e.incarnation ≠ "")
    (hone : ∀ w : Worker, w.url = e.url → w.segmentKey ∈ named → w.incarnation = e.incarnation) :
    (applyEntry fresh view e).Separate named := by
  have hm := applyEntry_moves fresh h hn hinc hone
  refine h.of_moves hm ?_ ?_ ?_
  all_goals unfold DataPlaneWorkerView.applyEntry
  all_goals split
  · next hfind =>
    rw [map_append, nodup_append]
    refine ⟨h.urls_nodup, nodup_singleton _, ?_⟩
    intro url hurl url' hurl' heq
    obtain ⟨w, hw, rfl⟩ := mem_map.mp hurl
    obtain rfl := mem_singleton.mp hurl'
    exact find?_eq_none.mp hfind w hw (beq_iff_eq.mpr heq)
  · split
    all_goals
      show ((view.workers.map fun v => if v.url = e.url then _ else v).map Worker.url).Nodup
      rw [urls_map_at]
      · exact h.urls_nodup
      · exact fun _ _ => rfl
  · exact h.retiring_nodup
  · next w hfind =>
    split
    · exact h.nodup_retire (mem_of_find_url hfind).1
    · exact h.retiring_nodup
  · exact fun _ _ v hv hnew => absurd hv hnew
  · next w hfind =>
    obtain ⟨hw, hurl⟩ := mem_of_find_url hfind
    split
    · next hchanged =>
      intro w' hw' v hv hnew heq
      obtain ⟨rfl, -⟩ := (mem_retire.mp hv).resolve_left hnew
      rcases mem_map_at.mp hw' with ⟨-, -, -, rfl⟩ | ⟨-, hne⟩
      · rw [segmentKey_entryWorker fresh hinc] at heq
        exact hchanged.2 (hone v hurl (heq ▸ hn))
      · exact hne ((segmentKey_eq_iff.mp heq).1.trans hurl)
    · exact fun _ _ v hv hnew => absurd hv hnew

end

end Entry

/-! ## A whole snapshot -/

section Apply

variable {view : DataPlaneWorkerView} (fresh : String) {snapshot : WorkerSnapshot}

theorem incarnation_eq_of_named (h : snapshot.WellFormed) {e : SnapshotWorker}
    (he : e ∈ snapshot.workers) (hurl : w.url = e.url)
    (hmem : w.segmentKey ∈ snapshot.segmentKeys) : w.incarnation = e.incarnation := by
  obtain ⟨e', he', heq⟩ := mem_map.mp hmem
  have hid : workerIdFromUrl e'.url = workerIdFromUrl w.url := congrArg Prod.fst heq
  have hurl' : e'.url = e.url := (quote_injective hid).trans hurl
  obtain rfl := inj_on_of_nodup_map h.urls_nodup he' he hurl'
  exact (congrArg Prod.snd heq).symm

theorem foldl_applyEntry_moves (hwf : snapshot.WellFormed) {entries : List SnapshotWorker}
    (hsub : ∀ e ∈ entries, e ∈ snapshot.workers) (h : view.Separate snapshot.segmentKeys) :
    Moves snapshot.segmentKeys view (entries.foldl (DataPlaneWorkerView.applyEntry fresh) view) ∧
      (entries.foldl (DataPlaneWorkerView.applyEntry fresh) view).Separate
        snapshot.segmentKeys := by
  induction entries generalizing view with
  | nil => exact ⟨.refl _ _, h⟩
  | cons e entries ih =>
    have he := hsub e mem_cons_self
    have hn : e.segmentKey ∈ snapshot.segmentKeys := mem_map_of_mem he
    have hinc := hwf.incarnation_ne e he
    have hone : ∀ w : Worker, w.url = e.url → w.segmentKey ∈ snapshot.segmentKeys →
        w.incarnation = e.incarnation := fun w hurl => incarnation_eq_of_named hwf he hurl
    obtain ⟨hmoves, hsep⟩ := ih (fun e' he' => hsub e' (mem_cons_of_mem e he'))
      (h.applyEntry fresh hn hinc hone)
    exact ⟨(applyEntry_moves fresh h hn hinc hone).trans hmoves, hsep⟩

theorem foldl_retire (retiring dropped : List Worker) :
    dropped.foldl retire retiring =
      retiring ++ dropped.filter fun w => 0 < w.activeRequests ∨ 0 < w.routedRequests := by
  induction dropped generalizing retiring with
  | nil => simp
  | cons w dropped ih =>
    rw [foldl_cons, ih]
    unfold retire
    by_cases hserved : 0 < w.activeRequests ∨ 0 < w.routedRequests
    · rw [if_pos hserved, filter_cons_of_pos (by simpa using hserved), append_assoc,
        singleton_append]
    · rw [if_neg hserved, filter_cons_of_neg (by simpa using hserved)]

/-- The last part of `apply`: records whose URL has no entry are dropped. -/
def dropUnseen (view : DataPlaneWorkerView) (seen : List String) : DataPlaneWorkerView :=
  { view with
    workers := view.workers.filter fun w => w.url ∈ seen
    retiring := (view.workers.filter fun w => w.url ∉ seen).foldl retire view.retiring }

theorem mem_retiring_dropUnseen {seen : List String} :
    v ∈ (view.dropUnseen seen).retiring ↔ v ∈ view.retiring ∨
      (v ∈ view.workers ∧ v.url ∉ seen) ∧ (0 < v.activeRequests ∨ 0 < v.routedRequests) := by
  dsimp only [dropUnseen]
  rw [foldl_retire, mem_append, mem_filter, mem_filter, decide_eq_true_eq, decide_eq_true_eq]

theorem mem_workers_dropUnseen {seen : List String} :
    w ∈ (view.dropUnseen seen).workers ↔ w ∈ view.workers ∧ w.url ∈ seen := by
  dsimp only [dropUnseen]
  rw [mem_filter, decide_eq_true_eq]

theorem dropUnseen_moves (h : view.Separate snapshot.segmentKeys) :
    Moves snapshot.segmentKeys view
      (view.dropUnseen (snapshot.workers.map SnapshotWorker.url)) := by
  have hgone : ∀ w : Worker, w.url ∉ snapshot.workers.map SnapshotWorker.url →
      w.segmentKey ∉ snapshot.segmentKeys := by
    intro w hurl hmem
    obtain ⟨e, he, heq⟩ := mem_map.mp hmem
    have hid : workerIdFromUrl e.url = workerIdFromUrl w.url := congrArg Prod.fst heq
    exact hurl (mem_map.mpr ⟨e, he, quote_injective hid⟩)
  refine ⟨?_, ?_, ?_, ?_⟩
  · intro w hw
    exact .inl ⟨w, (mem_workers_dropUnseen.mp hw).1, .refl w⟩
  · intro w hw
    by_cases hurl : w.url ∈ snapshot.workers.map SnapshotWorker.url
    · exact .inl ⟨w, mem_workers_dropUnseen.mpr ⟨hw, hurl⟩, .refl w⟩
    · refine .inr ⟨hgone w hurl, ?_⟩
      by_cases hserved : 0 < w.activeRequests ∨ 0 < w.routedRequests
      · exact .inl ⟨w, mem_retiring_dropUnseen.mpr (.inr ⟨⟨hw, hurl⟩, hserved⟩), .refl w⟩
      · exact .inr (idle_of_not_served (h.tallied w (mem_append_left _ hw)) hserved)
  · intro v hv
    rcases mem_retiring_dropUnseen.mp hv with hold | ⟨⟨hv, hurl⟩, -⟩
    · exact .inl hold
    · exact .inr ⟨hgone v hurl, v, hv, .refl v⟩
  · exact fun v hv => mem_retiring_dropUnseen.mpr (.inl hv)

theorem Separate.dropUnseen (h : view.Separate snapshot.segmentKeys) :
    (view.dropUnseen (snapshot.workers.map SnapshotWorker.url)).Separate snapshot.segmentKeys := by
  refine h.of_moves (dropUnseen_moves h) ?_ ?_ ?_
  · exact h.urls_nodup.sublist (filter_sublist.map _)
  · dsimp only [DataPlaneWorkerView.dropUnseen]
    rw [foldl_retire, map_append, nodup_append]
    refine ⟨h.retiring_nodup, ?_, ?_⟩
    · exact h.workers_nodup.sublist ((filter_sublist.trans filter_sublist).map _)
    · intro k hk k' hk' heq
      obtain ⟨v, hv, rfl⟩ := mem_map.mp hk
      obtain ⟨w, hw, rfl⟩ := mem_map.mp hk'
      exact h.apart w (mem_of_mem_filter (mem_of_mem_filter hw)) v hv heq.symm
  · intro w hw v hv hnew heq
    obtain ⟨⟨-, hunseen⟩, -⟩ := (mem_retiring_dropUnseen.mp hv).resolve_left hnew
    exact hunseen ((segmentKey_eq_iff.mp heq).1 ▸ (mem_workers_dropUnseen.mp hw).2)

section

variable (hwf : snapshot.WellFormed) (h : view.Separate snapshot.segmentKeys)
include hwf h

theorem apply_moves : Moves snapshot.segmentKeys view (view.apply fresh snapshot) := by
  obtain ⟨hmoves, hsep⟩ := foldl_applyEntry_moves fresh hwf (fun e he => he) h
  have hlast := hmoves.trans (dropUnseen_moves hsep)
  exact ⟨hlast.origin, hlast.fate, hlast.retiring_origin, hlast.retiring_kept⟩

theorem Separate.apply : (view.apply fresh snapshot).Separate snapshot.segmentKeys := by
  have hlast := (foldl_applyEntry_moves fresh hwf (fun e he => he) h).2.dropUnseen
  exact ⟨hlast.urls_nodup, hlast.retiring_nodup, hlast.apart, hlast.retired, hlast.tallied⟩

end

end Apply

/-! ## Keys of a view -/

section Keys

variable {named : List SegmentKey} {view : DataPlaneWorkerView}

theorem Separate.keys_nodup (h : view.Separate named) : view.keys.Nodup := by
  unfold keys reportableWorkers
  rw [map_append, nodup_append]
  refine ⟨h.workers_nodup, h.retiring_nodup, ?_⟩
  · intro k hk k' hk' heq
    obtain ⟨w, hw, rfl⟩ := mem_map.mp hk
    obtain ⟨v, hv, rfl⟩ := mem_map.mp hk'
    exact h.apart w hw v hv heq

theorem mem_keys {view : DataPlaneWorkerView} {k : SegmentKey} :
    k ∈ view.keys ↔ ∃ w ∈ view.reportableWorkers, w.segmentKey = k :=
  mem_map

theorem Separate.eq_of_key (h : view.Separate named) (hv : v ∈ view.reportableWorkers)
    (hw : w ∈ view.reportableWorkers) (hk : v.segmentKey = w.segmentKey) : v = w :=
  inj_on_of_nodup_map h.keys_nodup hv hw hk

theorem Moves.same {view' : DataPlaneWorkerView} (hm : Moves named view view')
    (h : view.Separate named) {w' : Worker} (hw : w ∈ view.reportableWorkers)
    (hw' : w' ∈ view'.reportableWorkers) (hk : w.segmentKey = w'.segmentKey) : w.SameCounts w' := by
  have hold : ∀ v ∈ view.reportableWorkers, v.SameCounts w' → w.SameCounts w' := by
    intro v hv hsame
    exact h.eq_of_key hv hw (hsame.1.trans hk.symm) ▸ hsame
  rcases mem_append.mp hw' with hw' | hw'
  · rcases hm.origin w' hw' with ⟨v, hv, hsame⟩ | ⟨hn, hnew, -⟩
    · exact hold v (mem_append_left _ hv) hsame
    · rcases mem_append.mp hw with hw | hw
      · exact absurd (mem_map.mpr ⟨w, hw, hk⟩) hnew
      · exact absurd (hk ▸ hn) (h.retired w hw)
  · rcases hm.retiring_origin w' hw' with hv | ⟨-, v, hv, hsame⟩
    · exact hold w' (mem_append_right _ hv) (.refl w')
    · exact hold v (mem_append_left _ hv) hsame

theorem Moves.gone {view' : DataPlaneWorkerView} (hm : Moves named view view')
    (hw : w ∈ view.reportableWorkers) (hk : w.segmentKey ∉ view'.keys) :
    w ∈ view.workers ∧ w.segmentKey ∉ named ∧ w.Idle := by
  have hnot : ∀ w' ∈ view'.reportableWorkers, ¬w.SameCounts w' := by
    intro w' hw' hsame
    exact hk (mem_keys.mpr ⟨w', hw', hsame.1.symm⟩)
  rcases mem_append.mp hw with hw | hw
  · rcases hm.fate w hw with ⟨w', hw', hsame⟩ | ⟨hn, ⟨v, hv, hsame⟩ | hi⟩
    · exact absurd hsame (hnot w' (mem_append_left _ hw'))
    · exact absurd hsame (hnot v (mem_append_right _ hv))
    · exact ⟨hw, hn, hi⟩
  · exact absurd (.refl w) (hnot w (mem_append_right _ (hm.retiring_kept w hw)))

/-- Retired records may wait for any later snapshot that does not name them. -/
theorem Separate.change_named {named' : List SegmentKey} (h : view.Separate named)
    (hretired : ∀ v ∈ view.retiring, v.segmentKey ∉ named') : view.Separate named' :=
  ⟨h.urls_nodup, h.retiring_nodup, h.apart, hretired, h.tallied⟩

theorem Separate.releaseRetired (h : view.Separate named) (reported : List SegmentKey) :
    (view.releaseRetired reported).Separate named := by
  refine ⟨h.urls_nodup, h.retiring_nodup.sublist (filter_sublist.map _), ?_, ?_, ?_⟩
  · exact fun w hw v hv => h.apart w hw v (mem_of_mem_filter hv)
  · exact fun v hv => h.retired v (mem_of_mem_filter hv)
  · intro w hw
    rcases mem_append.mp hw with hw | hw
    · exact h.tallied w (mem_append_left _ hw)
    · exact h.tallied w (mem_append_right _ (mem_of_mem_filter hw))

/-- A change of one record that keeps its URL and incarnation. -/
structure Accrues (f : Worker → Worker) : Prop where
  url : ∀ w, (f w).url = w.url
  segmentKey : ∀ w, (f w).segmentKey = w.segmentKey
  count : ∀ w coord, w.count coord ≤ (f w).count coord
  tallied : ∀ w, w.Tallied → (f w).Tallied

theorem map_modify {κ : Type} {g : Worker → κ} {f : Worker → Worker} (hg : ∀ w, g (f w) = g w)
    (ws : List Worker) (k : SegmentKey) :
    (ws.map fun w => if w.segmentKey = k then f w else w).map g = ws.map g := by
  rw [map_map]
  refine map_congr_left fun w _ => ?_
  dsimp only [Function.comp]
  split
  · exact hg w
  · rfl

theorem keys_modify {f : Worker → Worker} (hf : Accrues f) (view : DataPlaneWorkerView)
    (k : SegmentKey) : (view.modify k f).keys = view.keys := by
  unfold keys reportableWorkers modify
  rw [map_append, map_append, map_modify hf.segmentKey, map_modify hf.segmentKey]

/-- Every record of a modified view is an old one, or the old one of the segment changed. -/
theorem mem_modify {f : Worker → Worker} {k : SegmentKey} {ws : List Worker} {w' : Worker} :
    w' ∈ ws.map (fun w => if w.segmentKey = k then f w else w) ↔
      ∃ w ∈ ws, (w.segmentKey = k ∧ w' = f w) ∨ w.segmentKey ≠ k ∧ w' = w := by
  rw [mem_map]
  refine exists_congr fun w => and_congr_right fun _ => ?_
  constructor
  · intro heq
    split at heq
    · next hk => exact .inl ⟨hk, heq.symm⟩
    · next hk => exact .inr ⟨hk, heq.symm⟩
  · intro h
    rcases h with ⟨hk, rfl⟩ | ⟨hk, rfl⟩
    · exact if_pos hk
    · exact if_neg hk

theorem Separate.modify {f : Worker → Worker} (hf : Accrues f) (h : view.Separate named)
    (k : SegmentKey) : (view.modify k f).Separate named := by
  have hold : ∀ {ws : List Worker} {w' : Worker},
      w' ∈ ws.map (fun w => if w.segmentKey = k then f w else w) →
      ∃ w ∈ ws, w'.segmentKey = w.segmentKey ∧ (w.Tallied → w'.Tallied) := by
    intro ws w' hw'
    obtain ⟨w, hw, ⟨-, rfl⟩ | ⟨-, rfl⟩⟩ := mem_modify.mp hw'
    · exact ⟨w, hw, hf.segmentKey w, hf.tallied w⟩
    · exact ⟨_, hw, rfl, id⟩
  refine ⟨?_, ?_, ?_, ?_, ?_⟩
  · exact (map_modify hf.url view.workers k).symm ▸ h.urls_nodup
  · exact (map_modify hf.segmentKey view.retiring k).symm ▸ h.retiring_nodup
  · intro w' hw' v' hv'
    obtain ⟨w, hw, hwk, -⟩ := hold hw'
    obtain ⟨v, hv, hvk, -⟩ := hold hv'
    rw [hwk, hvk]
    exact h.apart w hw v hv
  · intro v' hv'
    obtain ⟨v, hv, hvk, -⟩ := hold hv'
    exact hvk ▸ h.retired v hv
  · intro w' hw'
    rcases mem_append.mp hw' with hw' | hw'
    · obtain ⟨w, hw, -, ht⟩ := hold hw'
      exact ht (h.tallied w (mem_append_left _ hw))
    · obtain ⟨w, hw, -, ht⟩ := hold hw'
      exact ht (h.tallied w (mem_append_right _ hw))

end Keys

end DataPlaneWorkerView

end OmniRealtime
