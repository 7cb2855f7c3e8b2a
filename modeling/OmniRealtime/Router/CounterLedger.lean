import OmniRealtime.Lib.Dict
import OmniRealtime.Lib.SegmentLedger
import OmniRealtime.Router.Worker

/-!
# The counter ledger

`observability.py`: the control plane totals the counters its data planes report. A report
carries cumulative values per worker and incarnation; the ledger keeps a baseline and a
high-water mark per segment, and folds a segment into the retired totals once a report
leaves it out or its data plane has a new generation.

1. `foldl_applyItem`: what one pass over a report leaves, when no row is repeated.
2. `LedgerInv.apply`: the ledger runs the ledger of `Lib/SegmentLedger`, its marks the
   highest accepted value and the baseline of the accepted history.
3. `LedgerInv.read_eq`: a total is the sum over the accepted segments.
-/

namespace OmniRealtime

open List Option SegmentLedger

/-! ## Reports -/

/-- `_COUNTER_KEYS`, `_CLASS_COUNTER_KEYS`. -/
inductive CounterKey
  | routed | successful | failed
  deriving DecidableEq, Repr

structure WorkerCounters where
  workerId : String
  incarnation : String := ""
  routedTotal : Nat := 0
  successfulTotal : Nat := 0
  failedTotal : Nat := 0
  currentActive : Nat := 0
  routedRequestsByClass : ClassCounters := fun _ => 0
  successfulRequestsByClass : ClassCounters := fun _ => 0
  failedRequestsByClass : ClassCounters := fun _ => 0

structure CounterReport where
  dpIndex : Nat
  generation : Nat
  counterSeq : Nat
  workers : List WorkerCounters

open CounterReport

/-- One counter: a total, or its share of a service class. -/
inductive CounterCoord
  | total (key : CounterKey)
  | byClass (key : CounterKey) (serviceClass : ServiceClass)

/-- A worker id and an incarnation. -/
abbrev SegmentKey := String × String

namespace WorkerCounters

/-- `getattr(item, key)`. -/
def total (item : WorkerCounters) : CounterKey → Nat
  | .routed => item.routedTotal
  | .successful => item.successfulTotal
  | .failed => item.failedTotal

def byClass (item : WorkerCounters) : CounterKey → ClassCounters
  | .routed => item.routedRequestsByClass
  | .successful => item.successfulRequestsByClass
  | .failed => item.failedRequestsByClass

def key (item : WorkerCounters) : SegmentKey := (item.workerId, item.incarnation)

def value (item : WorkerCounters) : CounterCoord → Nat
  | .total key => item.total key
  | .byClass key serviceClass => item.byClass key serviceClass

end WorkerCounters

/-! ## The ledger -/

structure WorkerLedger where
  baseline : CounterKey → Nat
  highWater : CounterKey → Nat
  classBaseline : CounterKey → ClassCounters
  classHighWater : CounterKey → ClassCounters
  currentActive : Nat := 0

namespace WorkerLedger

def contribution (l : WorkerLedger) (key : CounterKey) : Nat := l.highWater key - l.baseline key

def classContributions (l : WorkerLedger) (key : CounterKey) : ClassCounters :=
  fun c => l.classHighWater key c - l.classBaseline key c

/-- The ledger of a segment not carried over. -/
def start (firstContact : Bool) (item : WorkerCounters) : WorkerLedger where
  baseline key := if firstContact then item.total key else 0
  highWater := item.total
  classBaseline key := if firstContact then item.byClass key else fun _ => 0
  classHighWater := item.byClass
  currentActive := item.currentActive

/-- The ledger of a segment that is carried over: the marks never fall. -/
def merge (l : WorkerLedger) (item : WorkerCounters) : WorkerLedger :=
  { l with
    highWater := fun key => max (l.highWater key) (item.total key)
    classHighWater := fun key c => max (l.classHighWater key c) (item.byClass key c)
    currentActive := item.currentActive }

def high (l : WorkerLedger) : CounterCoord → Nat
  | .total key => l.highWater key
  | .byClass key c => l.classHighWater key c

def base (l : WorkerLedger) : CounterCoord → Nat
  | .total key => l.baseline key
  | .byClass key c => l.classBaseline key c

/-- `contribution`, `class_contributions`. -/
def credit (l : WorkerLedger) (coord : CounterCoord) : Nat := l.high coord - l.base coord

@[simp] theorem high_start (first : Bool) (item : WorkerCounters) (coord : CounterCoord) :
    (start first item).high coord = item.value coord := by
  cases coord <;> rfl

@[simp] theorem base_start (first : Bool) (item : WorkerCounters) (coord : CounterCoord) :
    (start first item).base coord = if first then item.value coord else 0 := by
  cases coord <;> cases first <;> rfl

@[simp] theorem high_merge (l : WorkerLedger) (item : WorkerCounters) (coord : CounterCoord) :
    (l.merge item).high coord = max (l.high coord) (item.value coord) := by
  cases coord <;> rfl

@[simp] theorem base_merge (l : WorkerLedger) (item : WorkerCounters) (coord : CounterCoord) :
    (l.merge item).base coord = l.base coord := by
  cases coord <;> rfl

end WorkerLedger

/-- `_retired`, `_retired_by_class`; a worker that is missing has zeros. -/
structure RetiredTotals where
  total : String → CounterKey → Nat := fun _ _ => 0
  byClass : String → CounterKey → ClassCounters := fun _ _ _ => 0

namespace RetiredTotals

def retireWorker (r : RetiredTotals) (workerId : String) (l : WorkerLedger) : RetiredTotals where
  total := fun w key => r.total w key + if w = workerId then l.contribution key else 0
  byClass := fun w key c => r.byClass w key c + if w = workerId then l.classContributions key c else 0

/-- `_retire`, and the loop over what a report has not carried on. -/
def retireAll (r : RetiredTotals) (rows : Dict SegmentKey WorkerLedger) : RetiredTotals :=
  rows.foldl (fun r row => r.retireWorker row.1.1 row.2) r

def read (r : RetiredTotals) (w : String) : CounterCoord → Nat
  | .total key => r.total w key
  | .byClass key c => r.byClass w key c

theorem read_retireWorker (r : RetiredTotals) (workerId : String) (l : WorkerLedger) (w : String)
    (coord : CounterCoord) : (r.retireWorker workerId l).read w coord =
      r.read w coord + if w = workerId then l.credit coord else 0 := by
  cases coord <;> rfl

theorem read_retireAll (rows : Dict SegmentKey WorkerLedger) (w : String) (coord : CounterCoord) :
    ∀ r : RetiredTotals, (r.retireAll rows).read w coord = r.read w coord +
      ((rows.filter fun row => row.1.1 = w).map fun row => row.2.credit coord).sum := by
  induction rows with
  | nil => intro r; rfl
  | cons row rows ih =>
    intro r
    show ((r.retireWorker row.1.1 row.2).retireAll rows).read w coord = _
    rw [ih, read_retireWorker, add_assoc, filter_cons]
    by_cases hw : row.1.1 = w
    · rw [if_pos hw.symm, if_pos (decide_eq_true hw), map_cons, sum_cons]
    · rw [if_neg (fun h => hw h.symm), if_neg (by simpa using hw), zero_add]

end RetiredTotals

/-- `_LedgerEntry`; `per_worker` is keyed by worker id and incarnation together. -/
structure LedgerEntry where
  generation : Nat
  counterSeq : Nat
  reportedAt : Nat
  perWorker : Dict SegmentKey WorkerLedger := []

structure DataPlaneCounterLedger where
  entries : Dict Nat LedgerEntry := []
  retired : RetiredTotals := {}
  seenDps : List Nat := []
  livenessSecs : Nat := 3

structure StaleCounterGeneration where
  generation : Nat
  current : Nat

/-- The locals of the loop of `apply`. -/
structure LedgerPass where
  carried : Dict SegmentKey WorkerLedger
  perWorker : Dict SegmentKey WorkerLedger := []
  retired : RetiredTotals

namespace DataPlaneCounterLedger

/-- The body of the loop of `apply`, for one row of the report. -/
def applyItem (firstContact : Bool) (p : LedgerPass) (item : WorkerCounters) : LedgerPass :=
  let ledger :=
    match p.carried.get item.key with
    | none => WorkerLedger.start firstContact item
    | some l => l.merge item
  { carried := p.carried.pop item.key
    perWorker := p.perWorker.set item.key ledger
    retired :=
      match p.perWorker.get item.key with
      | none => p.retired
      | some duplicate => p.retired.retireWorker item.workerId duplicate }

/-- `apply` once the report is neither stale nor a duplicate; `carried` is what is left of the
    last report of the generation. -/
def absorb (l : DataPlaneCounterLedger) (report : CounterReport) (now : Nat)
    (carried : Dict SegmentKey WorkerLedger) (retired : RetiredTotals) : DataPlaneCounterLedger :=
  let firstContact := decide (report.dpIndex ∉ l.seenDps)
  let pass := report.workers.foldl (applyItem firstContact) { carried, retired }
  { l with
    entries := l.entries.set report.dpIndex
      ⟨report.generation, report.counterSeq, now, pass.perWorker⟩
    retired := pass.retired.retireAll pass.carried
    seenDps := if report.dpIndex ∈ l.seenDps then l.seenDps else l.seenDps ++ [report.dpIndex] }

def apply (l : DataPlaneCounterLedger) (report : CounterReport) (now : Nat) :
    Except StaleCounterGeneration (Bool × DataPlaneCounterLedger) :=
  match l.entries.get report.dpIndex with
  | none => .ok (true, l.absorb report now [] l.retired)
  | some entry =>
    if report.generation < entry.generation then
      .error ⟨report.generation, entry.generation⟩
    else if report.generation = entry.generation ∧ report.counterSeq ≤ entry.counterSeq then
      .ok (false, l)
    else if entry.generation < report.generation then
      .ok (true, l.absorb report now [] (l.retired.retireAll entry.perWorker))
    else .ok (true, l.absorb report now entry.perWorker l.retired)

/-- The ledgers of a worker, over all data planes. -/
def ledgersOf (l : DataPlaneCounterLedger) (workerId : String) : List WorkerLedger :=
  l.entries.flatMap fun e => (e.2.perWorker.filter fun row => row.1.1 = workerId).map Prod.snd

def totals (l : DataPlaneCounterLedger) (workerId : String) (key : CounterKey) : Nat :=
  l.retired.total workerId key + ((l.ledgersOf workerId).map fun r => r.contribution key).sum

def classTotals (l : DataPlaneCounterLedger) (workerId : String) (key : CounterKey) :
    ClassCounters := fun c =>
  l.retired.byClass workerId key c +
    ((l.ledgersOf workerId).map fun r => r.classContributions key c).sum

/-- `totals`, `class_totals`. -/
def read (l : DataPlaneCounterLedger) (workerId : String) : CounterCoord → Nat
  | .total key => l.totals workerId key
  | .byClass key c => l.classTotals workerId key c

theorem read_eq (l : DataPlaneCounterLedger) (w : String) (coord : CounterCoord) :
    l.read w coord =
      l.retired.read w coord + ((l.ledgersOf w).map fun r => r.credit coord).sum := by
  cases coord <;> rfl

end DataPlaneCounterLedger

/-! ## One pass over a report -/

open DataPlaneCounterLedger in
/-- Without repeated rows, a pass appends one ledger per row, and carries on what no row took
    up. -/
theorem foldl_applyItem (firstContact : Bool) (items : List WorkerCounters) :
    ∀ p : LedgerPass, (items.map WorkerCounters.key).Nodup →
      (∀ item ∈ items, item.key ∉ p.perWorker.keys) →
      items.foldl (applyItem firstContact) p =
        { carried := p.carried.filter fun row => row.1 ∉ items.map WorkerCounters.key
          perWorker := p.perWorker ++ items.map fun item => (item.key,
            match p.carried.get item.key with
            | none => WorkerLedger.start firstContact item
            | some l => l.merge item)
          retired := p.retired } := by
  induction items with
  | nil =>
    intro p _ _
    simp
  | cons item items ih =>
    intro p hn hnew
    rw [map_cons, nodup_cons] at hn
    have hfrs : item.key ∉ p.perWorker.keys := hnew item mem_cons_self
    have hst : applyItem firstContact p item =
        { carried := p.carried.pop item.key
          perWorker := p.perWorker ++ [(item.key,
            match p.carried.get item.key with
            | none => WorkerLedger.start firstContact item
            | some l => l.merge item)]
          retired := p.retired } := by
      dsimp only [applyItem]
      rw [Dict.get_eq_none.mpr hfrs, Dict.set, if_neg hfrs]
    rw [foldl_cons, hst, ih _ hn.2]
    · have hpop : (p.carried.pop item.key).filter (fun row => row.1 ∉ items.map WorkerCounters.key)
          = p.carried.filter fun row => row.1 ∉ (item :: items).map WorkerCounters.key := by
        unfold Dict.pop
        rw [List.filter_filter]
        refine filter_congr fun row _ => ?_
        rw [map_cons, ← Bool.decide_and]
        refine decide_eq_decide.mpr ?_
        rw [mem_cons, not_or, and_comm]
      have hrows : ∀ it ∈ items, (p.carried.pop item.key).get it.key = p.carried.get it.key := by
        intro it hit
        refine Dict.get_pop_of_ne fun heq => hn.1 ?_
        exact heq ▸ mem_map_of_mem hit
      dsimp only
      rw [hpop, map_cons, append_assoc, singleton_append]
      congr 3
      refine map_congr_left fun it hit => ?_
      rw [hrows it hit]
    · intro it hit hmem
      unfold Dict.keys at hmem
      rw [map_append, mem_append] at hmem
      rcases hmem with hold | hone
      · exact hnew it (mem_cons_of_mem item hit) hold
      · have heq : it.key = item.key := mem_singleton.mp hone
        exact hn.1 (heq ▸ List.mem_map_of_mem hit)

/-! ## The accepted history -/

/-- Where one cumulative count runs: a data plane, its generation, a worker and its
    incarnation. -/
structure CounterSegment where
  dpIndex : Nat
  generation : Nat
  workerId : String
  incarnation : String
  deriving DecidableEq, Repr

namespace CounterReport

def segment (r : CounterReport) (k : SegmentKey) : CounterSegment :=
  ⟨r.dpIndex, r.generation, k.1, k.2⟩

def keys (r : CounterReport) : List SegmentKey := r.workers.map WorkerCounters.key

def segments (r : CounterReport) : List CounterSegment := r.keys.map r.segment

def rows (r : CounterReport) (x : CounterSegment) : List WorkerCounters :=
  r.workers.filter fun item => r.segment item.key = x

def value (r : CounterReport) (x : CounterSegment) (coord : CounterCoord) : Nat :=
  ((r.rows x).head?.map fun item => item.value coord).getD 0

theorem segment_injective (r : CounterReport) : Function.Injective r.segment := by
  intro k k' h
  exact Prod.ext (congrArg CounterSegment.workerId h) (congrArg CounterSegment.incarnation h)

variable {r : CounterReport} {x : CounterSegment}

theorem mem_segments : x ∈ r.segments ↔ x.dpIndex = r.dpIndex ∧ x.generation = r.generation ∧
      (x.workerId, x.incarnation) ∈ r.keys := by
  unfold segments
  rw [List.mem_map]
  constructor
  · intro ⟨k, hk, hx⟩
    subst hx
    exact ⟨rfl, rfl, hk⟩
  · intro ⟨hdp, hgen, hk⟩
    refine ⟨_, hk, ?_⟩
    unfold segment
    rw [← hdp, ← hgen]

theorem rows_of_notMem (h : x ∉ r.segments) : r.rows x = [] := by
  refine filter_eq_nil_iff.mpr fun item hi heq => h ?_
  rw [← of_decide_eq_true heq]
  exact mem_map_of_mem (mem_map_of_mem hi)

theorem rows_of_mem (h : r.keys.Nodup) {item : WorkerCounters} (hi : item ∈ r.workers) : r.rows
    (r.segment item.key) = [item] := by
  have hiff : ∀ it : WorkerCounters, r.segment it.key = r.segment item.key ↔ it.key = item.key :=
    fun it => r.segment_injective.eq_iff
  unfold rows
  simp only [hiff]
  unfold keys at h
  generalize r.workers = items at h hi
  induction items with
  | nil => cases hi
  | cons it items ih =>
    rw [map_cons, nodup_cons] at h
    rcases mem_cons.mp hi with rfl | hrest
    · rw [filter_cons, if_pos (decide_eq_true rfl)]
      congr 1
      refine filter_eq_nil_iff.mpr fun it' hit' heq => h.1 ?_
      rw [← of_decide_eq_true heq]
      exact mem_map_of_mem hit'
    · have hne : it.key ≠ item.key := fun heq => h.1 (heq ▸ List.mem_map_of_mem hrest)
      rw [filter_cons, if_neg (by simpa using hne)]
      exact ih h.2 hrest

theorem value_of_mem (h : r.keys.Nodup) {item : WorkerCounters} (hi : item ∈ r.workers)
    (coord : CounterCoord) : r.value (r.segment item.key) coord = item.value coord := by
  unfold value
  rw [rows_of_mem h hi]
  rfl

theorem value_of_notMem (h : x ∉ r.segments) (coord : CounterCoord) : r.value x coord = 0 := by
  unfold value
  rw [rows_of_notMem h]
  rfl

end CounterReport

def segmentsOf (accepted : List CounterReport) : Finset CounterSegment :=
  (accepted.flatMap CounterReport.segments).toFinset

def highest (accepted : List CounterReport) (coord : CounterCoord) (x : CounterSegment) : Nat :=
  ((accepted.flatMap fun r => r.rows x).map fun item => item.value coord).foldl max 0

/-- The value the first report accepted from the data plane has for a segment. -/
def baseline (accepted : List CounterReport) (coord : CounterCoord) (x : CounterSegment) : Nat :=
  match accepted.find? fun r => r.dpIndex = x.dpIndex with
  | none => 0
  | some r => r.value x coord

variable {x : CounterSegment} {accepted : List CounterReport}

theorem mem_segmentsOf : x ∈ segmentsOf accepted ↔ ∃ r ∈ accepted, x ∈ r.segments := by
  unfold segmentsOf
  rw [List.mem_toFinset, mem_flatMap]

theorem segmentsOf_append (accepted : List CounterReport) (r : CounterReport) :
    segmentsOf (accepted ++ [r]) = segmentsOf accepted ∪ r.segments.toFinset := by
  unfold segmentsOf
  rw [flatMap_append, toFinset_append, flatMap_singleton]

variable {r : CounterReport}

theorem highest_append (h : r.keys.Nodup) (coord : CounterCoord) (x : CounterSegment) :
    highest (accepted ++ [r]) coord x =
      if x ∈ r.segments then max (highest accepted coord x) (r.value x coord)
      else highest accepted coord x := by
  unfold highest
  rw [flatMap_append, flatMap_singleton, map_append, foldl_append]
  split
  · next hx =>
    obtain ⟨k, hk, rfl⟩ := List.mem_map.mp hx
    obtain ⟨item, hi, rfl⟩ := List.mem_map.mp hk
    rw [rows_of_mem h hi, value_of_mem h hi]
    rfl
  · next hx =>
    rw [rows_of_notMem hx]
    rfl

theorem highest_of_notMem (h : x ∉ segmentsOf accepted) (coord : CounterCoord) :
    highest accepted coord x = 0 := by
  have hnil : accepted.flatMap (fun r => r.rows x) = [] := by
    refine flatMap_eq_nil_iff.mpr fun r hr => ?_
    exact rows_of_notMem fun hx => h (mem_segmentsOf.mpr ⟨r, hr, hx⟩)
  unfold highest
  rw [hnil]
  rfl

theorem baseline_of_notMem (h : x ∉ segmentsOf accepted) (coord : CounterCoord) :
    baseline accepted coord x = 0 := by
  unfold baseline
  split
  · rfl
  · next r hr =>
    refine value_of_notMem (fun hx => h ?_) coord
    exact mem_segmentsOf.mpr ⟨r, mem_of_find?_eq_some hr, hx⟩

/-- A report from a data plane that was heard before changes no baseline. -/
theorem baseline_append_of_contacted (h : ∃ r₀ ∈ accepted, r₀.dpIndex = x.dpIndex)
    (coord : CounterCoord) :
    baseline (accepted ++ [r]) coord x = baseline accepted coord x := by
  obtain ⟨r₀, hr₀, hdp⟩ := h
  have hsome : (accepted.find? fun r => r.dpIndex = x.dpIndex).isSome = true := by
    rw [find?_isSome]
    exact ⟨r₀, hr₀, decide_eq_true hdp⟩
  unfold baseline
  rw [find?_append, or_of_isSome hsome]

theorem baseline_append_of_ne (h : r.dpIndex ≠ x.dpIndex) (coord : CounterCoord) :
    baseline (accepted ++ [r]) coord x = baseline accepted coord x := by
  unfold baseline
  rw [find?_append, find?_singleton, if_neg (by simpa using h), or_none]

theorem baseline_append_of_first (hf : ∀ r₀ ∈ accepted, r₀.dpIndex ≠ r.dpIndex)
    (hdp : r.dpIndex = x.dpIndex) (coord : CounterCoord) :
    baseline (accepted ++ [r]) coord x = r.value x coord := by
  have hnone : accepted.find? (fun r => r.dpIndex = x.dpIndex) = none := by
    refine find?_eq_none.mpr fun r₀ hr₀ heq => hf r₀ hr₀ ?_
    exact (of_decide_eq_true heq).trans hdp.symm
  unfold baseline
  rw [find?_append, hnone, none_or, find?_singleton, if_pos (decide_eq_true hdp)]

/-! ## The ledger against the history -/

namespace DataPlaneCounterLedger

def rowSegment (e : Nat × LedgerEntry) (k : SegmentKey) : CounterSegment :=
  ⟨e.1, e.2.generation, k.1, k.2⟩

def entryRows (e : Nat × LedgerEntry) : Dict CounterSegment WorkerLedger :=
  e.2.perWorker.map fun row => (rowSegment e row.1, row.2)

def liveRows (l : DataPlaneCounterLedger) : Dict CounterSegment WorkerLedger :=
  l.entries.flatMap entryRows

def history (l : DataPlaneCounterLedger) (accepted : List CounterReport) (coord : CounterCoord) :
    SegmentLedger CounterSegment String where
  seen := segmentsOf accepted
  live := l.liveRows.keys.toFinset
  high := highest accepted coord
  base := baseline accepted coord
  retired w := l.retired.read w coord

variable (e : Nat × LedgerEntry)

theorem rowSegment_injective : Function.Injective (rowSegment e) := by
  intro k k' h
  exact Prod.ext (congrArg CounterSegment.workerId h) (congrArg CounterSegment.incarnation h)

theorem keys_entryRows : (entryRows e).keys = e.2.perWorker.keys.map (rowSegment e) := by
  unfold entryRows Dict.keys
  rw [List.map_map, List.map_map]
  rfl

theorem mem_keys_entryRows {e : Nat × LedgerEntry} :
    x ∈ (entryRows e).keys ↔ x.dpIndex = e.1 ∧ x.generation = e.2.generation ∧
      (x.workerId, x.incarnation) ∈ e.2.perWorker.keys := by
  rw [keys_entryRows, List.mem_map]
  constructor
  · intro ⟨k, hk, hx⟩
    subst hx
    exact ⟨rfl, rfl, hk⟩
  · intro ⟨hdp, hgen, hk⟩
    refine ⟨_, hk, ?_⟩
    unfold rowSegment
    rw [← hdp, ← hgen]

theorem mem_keys_liveRows {l : DataPlaneCounterLedger} :
    x ∈ l.liveRows.keys ↔ ∃ e ∈ l.entries, x ∈ (entryRows e).keys := by
  unfold liveRows Dict.keys
  rw [map_flatMap, mem_flatMap]

theorem ledgersOf_eq (l : DataPlaneCounterLedger) (w : String) (coord : CounterCoord) :
    (l.ledgersOf w).map (fun r => r.credit coord) =
      (l.liveRows.filter fun row => row.1.workerId = w).map fun row => row.2.credit coord := by
  unfold ledgersOf liveRows
  rw [filter_flatMap, map_flatMap, map_flatMap]
  refine flatMap_congr fun e _ => ?_
  unfold entryRows
  rw [List.filter_map, List.map_map, List.map_map]
  rfl

end DataPlaneCounterLedger

open DataPlaneCounterLedger

structure LedgerInv (l : DataPlaneCounterLedger) (accepted : List CounterReport) : Prop where
  entries_nodup : l.entries.keys.Nodup
  rows_nodup : ∀ e ∈ l.entries, e.2.perWorker.keys.Nodup
  seenDps : ∀ dp, dp ∈ l.seenDps ↔ dp ∈ l.entries.keys
  contacted : ∀ r ∈ accepted, r.dpIndex ∈ l.entries.keys
  last : ∀ e ∈ l.entries, ∃ r ∈ accepted, r.dpIndex = e.1 ∧ r.generation = e.2.generation ∧
    r.counterSeq = e.2.counterSeq ∧ e.2.perWorker.keys = r.keys
  newest : ∀ e ∈ l.entries, ∀ r ∈ accepted, r.dpIndex = e.1 → r.generation < e.2.generation ∨
    r.generation = e.2.generation ∧ r.counterSeq ≤ e.2.counterSeq
  marks : ∀ e ∈ l.entries, ∀ row ∈ e.2.perWorker, ∀ coord,
    row.2.high coord = highest accepted coord (rowSegment e row.1) ∧
      row.2.base coord = baseline accepted coord (rowSegment e row.1)
  valid : ∀ coord, (l.history accepted coord).Valid CounterSegment.workerId

namespace LedgerInv

variable {l : DataPlaneCounterLedger} {accepted : List CounterReport} {e : Nat × LedgerEntry}

section

variable (h : LedgerInv l accepted) {e : Nat × LedgerEntry}
include h

theorem nodup_entryRows (he : e ∈ l.entries) : (entryRows e).keys.Nodup := by
  rw [keys_entryRows]
  exact (h.rows_nodup e he).map (rowSegment_injective e)

theorem nodup_liveRows : l.liveRows.keys.Nodup := by
  unfold liveRows Dict.keys
  rw [map_flatMap, nodup_flatMap]
  refine ⟨fun e he => h.nodup_entryRows he, ?_⟩
  have hdistinct : l.entries.Pairwise fun e e' => e.1 ≠ e'.1 := pairwise_map.mp h.entries_nodup
  refine hdistinct.imp fun {e e'} hne x hx hx' => hne ?_
  exact (mem_keys_entryRows.mp hx).1.symm.trans (mem_keys_entryRows.mp hx').1

theorem credit_eq (coord : CounterCoord) (he : e ∈ l.entries) {row : SegmentKey × WorkerLedger}
    (hrow : row ∈ e.2.perWorker) :
    row.2.credit coord = (l.history accepted coord).credit (rowSegment e row.1) := by
  obtain ⟨hhigh, hbase⟩ := h.marks e he row hrow coord
  unfold WorkerLedger.credit credit
  rw [hhigh, hbase]
  rfl

theorem read_eq_total (w : String) (coord : CounterCoord) :
    l.read w coord = (l.history accepted coord).total CounterSegment.workerId w := by
  have hcredit : ∀ row ∈ l.liveRows,
      row.2.credit coord = (l.history accepted coord).credit row.1 := by
    intro row hrow
    obtain ⟨e, he, hrow⟩ := mem_flatMap.mp hrow
    obtain ⟨row', hrow', rfl⟩ := List.mem_map.mp hrow
    exact h.credit_eq coord he hrow'
  rw [DataPlaneCounterLedger.read_eq, ledgersOf_eq]
  have hsum := Dict.sum_entries h.nodup_liveRows (fun x => x.workerId = w)
    (f := fun r : WorkerLedger => r.credit coord) hcredit
  exact congrArg (l.retired.read w coord + ·) hsum

/-- A total is the sum over the accepted segments of the highest accepted value less the
    baseline. -/
theorem read_eq (w : String) (coord : CounterCoord) :
    l.read w coord = ∑ x ∈ segmentsOf accepted with x.workerId = w,
      (highest accepted coord x - baseline accepted coord x) :=
  (h.read_eq_total w coord).trans ((h.valid coord).total_eq w)

end

theorem init : LedgerInv {} [] := by
  refine ⟨nodup_nil, ?_, ?_, ?_, ?_, ?_, ?_, ?_⟩
  · exact nofun
  · exact fun dp => Iff.rfl
  · exact nofun
  · exact nofun
  · exact nofun
  · exact nofun
  · intro coord
    have hemp : (({} : DataPlaneCounterLedger).history [] coord) = empty := by
      unfold history empty
      congr
      funext w
      cases coord <;> rfl
    rw [hemp]
    exact valid_empty _

theorem entry_unique (h : LedgerInv l accepted) {e e' : Nat × LedgerEntry} (he : e ∈ l.entries)
    (he' : e' ∈ l.entries) (heq : e.1 = e'.1) : e = e' :=
  inj_on_of_nodup_map h.entries_nodup he he' heq

theorem mem_live_of_entry (h : LedgerInv l accepted) (he : e ∈ l.entries) (hdp : x.dpIndex = e.1) :
    x ∈ l.liveRows.keys ↔ x ∈ (entryRows e).keys := by
  rw [mem_keys_liveRows]
  constructor
  · intro ⟨e', he', hx⟩
    have hdp' := (mem_keys_entryRows.mp hx).1
    rw [h.entry_unique he he' (hdp.symm.trans hdp')]
    exact hx
  · exact fun hx => ⟨e, he, hx⟩

theorem read_retire_rows (h : LedgerInv l accepted) (he : e ∈ l.entries)
    {rows : Dict SegmentKey WorkerLedger} (hsub : rows.Sublist e.2.perWorker)
    (retired : RetiredTotals) (w : String) (coord : CounterCoord) :
    (retired.retireAll rows).read w coord = retired.read w coord +
      ∑ x ∈ (rows.keys.map (rowSegment e)).toFinset with x.workerId = w,
        (l.history accepted coord).credit x := by
  have hkeys : Dict.keys (rows.map fun row => (rowSegment e row.1, row.2)) =
      rows.keys.map (rowSegment e) := by
    unfold Dict.keys
    rw [List.map_map, List.map_map]
    rfl
  have hn : (Dict.keys (rows.map fun row => (rowSegment e row.1, row.2))).Nodup := by
    rw [hkeys]
    exact ((h.rows_nodup e he).sublist (hsub.map _)).map (rowSegment_injective e)
  have hcredit : ∀ row ∈ rows.map fun row => (rowSegment e row.1, row.2),
      row.2.credit coord = (l.history accepted coord).credit row.1 := by
    intro row hrow
    obtain ⟨row', hrow', rfl⟩ := mem_map.mp hrow
    exact h.credit_eq coord he (hsub.subset hrow')
  have hsum := Dict.sum_entries hn (fun x => x.workerId = w)
    (f := fun r : WorkerLedger => r.credit coord) hcredit
  rw [hkeys, List.filter_map, List.map_map] at hsum
  rw [RetiredTotals.read_retireAll]
  exact congrArg (retired.read w coord + ·) hsum

/-- How `apply` goes into its loop: what it carries of the last report, and what it has
    retired already. -/
structure Opened (l : DataPlaneCounterLedger) (accepted : List CounterReport) (r : CounterReport)
    (carried : Dict SegmentKey WorkerLedger) (retired : RetiredTotals) : Prop where
  carried_row : ∀ k b, carried.get k = some b → ∃ e ∈ l.entries, (k, b) ∈ e.2.perWorker ∧
    rowSegment e k = r.segment k
  carried_live : ∀ k ∈ r.keys, r.segment k ∈ l.liveRows.keys → carried.get k ≠ none
  retired_read : ∀ w coord,
    (retired.retireAll (carried.filter fun row => row.1 ∉ r.keys)).read w coord =
      l.retired.read w coord +
        ∑ x ∈ l.liveRows.keys.toFinset.filter (fun x => x.dpIndex = r.dpIndex) \
          r.segments.toFinset with x.workerId = w, (l.history accepted coord).credit x
  newer : ∀ r₁ ∈ accepted, r₁.dpIndex = r.dpIndex →
    r₁.generation < r.generation ∨ r₁.generation = r.generation ∧ r₁.counterSeq < r.counterSeq
  /-- No segment comes back that was retired. -/
  back : ∀ x ∈ r.segments, x ∈ segmentsOf accepted → x ∈ l.liveRows.keys

/-- Within a generation, a row that a report leaves out does not return. -/
def Returns (accepted : List CounterReport) (r : CounterReport) : Prop :=
  ∀ r₁ ∈ accepted, ∀ r₂ ∈ accepted, r₁.dpIndex = r.dpIndex → r₂.dpIndex = r.dpIndex →
    r₁.generation = r.generation → r₂.generation = r.generation →
    r₁.counterSeq ≤ r₂.counterSeq → r₂.counterSeq < r.counterSeq →
    ∀ k ∈ r₁.keys, k ∈ r.keys → k ∈ r₂.keys

theorem opened_first (h : LedgerInv l accepted) (hnone : r.dpIndex ∉ l.entries.keys) :
    Opened l accepted r [] l.retired := by
  have hnew : ∀ r₁ ∈ accepted, r₁.dpIndex ≠ r.dpIndex := by
    intro r₁ hr₁ hdp
    exact hnone (hdp ▸ h.contacted r₁ hr₁)
  refine ⟨?_, ?_, ?_, ?_, ?_⟩
  · exact nofun
  · intro k _ hl
    obtain ⟨e, he, hx⟩ := mem_keys_liveRows.mp hl
    refine absurd (Dict.mem_keys.mpr ⟨e.2, ?_⟩) hnone
    rw [show r.dpIndex = e.1 from (mem_keys_entryRows.mp hx).1]
    exact he
  · intro w coord
    have hemp : l.liveRows.keys.toFinset.filter (fun x => x.dpIndex = r.dpIndex) = ∅ := by
      refine Finset.filter_eq_empty_iff.mpr fun x hx hdp => hnone ?_
      obtain ⟨e, he, hx⟩ := mem_keys_liveRows.mp (List.mem_toFinset.mp hx)
      exact Dict.mem_keys.mpr ⟨e.2, by rw [← hdp, (mem_keys_entryRows.mp hx).1]; exact he⟩
    rw [hemp, Finset.empty_sdiff, Finset.filter_empty, Finset.sum_empty]
    rfl
  · exact fun r₁ hr₁ hdp => absurd hdp (hnew r₁ hr₁)
  · intro x hx hs
    obtain ⟨r₁, hr₁, hx₁⟩ := mem_segmentsOf.mp hs
    refine absurd ?_ (hnew r₁ hr₁)
    exact (mem_segments.mp hx₁).1.symm.trans (mem_segments.mp hx).1

theorem opened_generation (h : LedgerInv l accepted) {entry : LedgerEntry}
    (he : (r.dpIndex, entry) ∈ l.entries) (hgen : entry.generation < r.generation) :
    Opened l accepted r [] (l.retired.retireAll entry.perWorker) := by
  have hother : ∀ x ∈ r.segments, x ∉ (entryRows (r.dpIndex, entry)).keys := by
    intro x hx hrow
    have hg := (mem_keys_entryRows.mp hrow).2.1
    rw [(mem_segments.mp hx).2.1] at hg
    exact absurd hg hgen.ne'
  have hnewer : ∀ r₁ ∈ accepted, r₁.dpIndex = r.dpIndex → r₁.generation < r.generation := by
    intro r₁ hr₁ hdp
    rcases h.newest _ he r₁ hr₁ hdp with hlt | ⟨heq, -⟩
    · exact hlt.trans hgen
    · exact heq.trans_lt hgen
  refine ⟨?_, ?_, ?_, ?_, ?_⟩
  · exact nofun
  · intro k hk hl
    have hx : r.segment k ∈ r.segments := List.mem_map_of_mem hk
    exact absurd ((h.mem_live_of_entry he rfl).mp hl) (hother _ hx)
  · intro w coord
    have hrows : l.liveRows.keys.toFinset.filter (fun x => x.dpIndex = r.dpIndex) \
        r.segments.toFinset =
          (entry.perWorker.keys.map (rowSegment (r.dpIndex, entry))).toFinset := by
      rw [← keys_entryRows]
      ext x
      rw [Finset.mem_sdiff, Finset.mem_filter, List.mem_toFinset, List.mem_toFinset,
        List.mem_toFinset]
      constructor
      · intro ⟨⟨hl, hdp⟩, _⟩
        exact (h.mem_live_of_entry he hdp).mp hl
      · intro hx
        have hdp := (mem_keys_entryRows.mp hx).1
        exact ⟨⟨(h.mem_live_of_entry he hdp).mpr hx, hdp⟩, fun hseg => hother x hseg hx⟩
    rw [hrows]
    exact h.read_retire_rows he (List.Sublist.refl _) l.retired w coord
  · exact fun r₁ hr₁ hdp => .inl (hnewer r₁ hr₁ hdp)
  · intro x hx hs
    obtain ⟨r₁, hr₁, hx₁⟩ := mem_segmentsOf.mp hs
    obtain ⟨hdp, hg, -⟩ := mem_segments.mp hx
    obtain ⟨hdp₁, hg₁, -⟩ := mem_segments.mp hx₁
    exact absurd (hg₁.symm.trans hg) (hnewer r₁ hr₁ (hdp₁.symm.trans hdp)).ne

theorem opened_next (h : LedgerInv l accepted) {entry : LedgerEntry}
    (he : (r.dpIndex, entry) ∈ l.entries) (hgen : entry.generation = r.generation)
    (hseq : entry.counterSeq < r.counterSeq) (hreturn : Returns accepted r) :
    Opened l accepted r entry.perWorker l.retired := by
  have hn := h.rows_nodup _ he
  have hsegment : ∀ k, rowSegment (r.dpIndex, entry) k = r.segment k := by
    intro k
    unfold rowSegment CounterReport.segment
    rw [hgen]
  have hl : ∀ k, r.segment k ∈ l.liveRows.keys ↔ k ∈ entry.perWorker.keys := by
    intro k
    rw [h.mem_live_of_entry he rfl, mem_keys_entryRows]
    exact ⟨fun hx => hx.2.2, fun hk => ⟨rfl, hgen.symm, hk⟩⟩
  refine ⟨?_, ?_, ?_, ?_, ?_⟩
  · intro k b hget
    exact ⟨_, he, (Dict.get_eq_some hn).mp hget, hsegment k⟩
  · intro k _ hmem hnone
    exact Dict.get_eq_none.mp hnone ((hl k).mp hmem)
  · intro w coord
    have hrows : l.liveRows.keys.toFinset.filter (fun x => x.dpIndex = r.dpIndex) \
        r.segments.toFinset = ((Dict.keys (entry.perWorker.filter fun row => row.1 ∉ r.keys)).map
            (rowSegment (r.dpIndex, entry))).toFinset := by
      ext x
      rw [Finset.mem_sdiff, Finset.mem_filter, List.mem_toFinset, List.mem_toFinset,
        List.mem_toFinset, List.mem_map]
      constructor
      · intro ⟨⟨hx, hdp⟩, hnot⟩
        obtain ⟨hdp', hg, hk⟩ := mem_keys_entryRows.mp ((h.mem_live_of_entry he hdp).mp hx)
        obtain ⟨b, hb⟩ := Dict.mem_keys.mp hk
        refine ⟨(x.workerId, x.incarnation), Dict.mem_keys.mpr ⟨b, mem_filter.mpr ⟨hb, ?_⟩⟩, ?_⟩
        · refine decide_eq_true fun hkeys => hnot ?_
          exact mem_segments.mpr ⟨hdp, hg.trans hgen, hkeys⟩
        · unfold rowSegment
          rw [← hdp', ← hg]
      · intro ⟨k, hk, hx⟩
        subst hx
        obtain ⟨b, hb⟩ := Dict.mem_keys.mp hk
        obtain ⟨hb, hnot⟩ := mem_filter.mp hb
        rw [hsegment k]
        refine ⟨⟨(hl k).mpr (Dict.mem_keys.mpr ⟨b, hb⟩), rfl⟩, fun hseg => ?_⟩
        exact of_decide_eq_true hnot (mem_segments.mp hseg).2.2
    rw [hrows]
    exact h.read_retire_rows he filter_sublist l.retired w coord
  · intro r₁ hr₁ hdp
    rcases h.newest _ he r₁ hr₁ hdp with hlt | ⟨heq, hle⟩
    · exact .inl (hlt.trans_eq hgen)
    · exact .inr ⟨heq.trans hgen, hle.trans_lt hseq⟩
  · intro x hx hs
    obtain ⟨r₁, hr₁, hx₁⟩ := mem_segmentsOf.mp hs
    obtain ⟨hdp, hg, hk⟩ := mem_segments.mp hx
    obtain ⟨hdp₁, hg₁, hk₁⟩ := mem_segments.mp hx₁
    obtain ⟨r₂, hr₂, hdp₂, hg₂, hseq₂, hkeys⟩ := h.last _ he
    have hle : r₁.counterSeq ≤ r₂.counterSeq := by
      rcases h.newest _ he r₁ hr₁ (hdp₁.symm.trans hdp) with hlt | ⟨-, hle⟩
      · exact absurd (hg₁.symm.trans hg) (hlt.trans_eq hgen).ne
      · exact hle.trans hseq₂.ge
    have hk₂ := hreturn r₁ hr₁ r₂ hr₂ (hdp₁.symm.trans hdp) hdp₂ (hg₁.symm.trans hg)
      (hg₂.trans hgen) hle (hseq₂.trans_lt hseq) _ hk₁ hk
    refine (h.mem_live_of_entry he hdp).mpr (mem_keys_entryRows.mpr ⟨hdp, hg.trans hgen.symm, ?_⟩)
    rw [hkeys]
    exact hk₂

section Absorb

variable {r : CounterReport} {carried : Dict SegmentKey WorkerLedger} {retired : RetiredTotals}

/-- The ledger a row leaves behind. -/
def rowLedger (first : Bool) (carried : Dict SegmentKey WorkerLedger) (item : WorkerCounters) :
    WorkerLedger :=
  match carried.get item.key with
  | none => WorkerLedger.start first item
  | some b => b.merge item

/-- The entry a report leaves behind. -/
def newEntry (l : DataPlaneCounterLedger) (r : CounterReport) (now : Nat)
    (carried : Dict SegmentKey WorkerLedger) : LedgerEntry :=
  ⟨r.generation, r.counterSeq, now, r.workers.map fun item =>
    (item.key, rowLedger (decide (r.dpIndex ∉ l.seenDps)) carried item)⟩

theorem absorb_eq (hn : r.keys.Nodup) (now : Nat) :
    l.absorb r now carried retired = { l with
        entries := l.entries.set r.dpIndex (newEntry l r now carried)
        retired := retired.retireAll (carried.filter fun row => row.1 ∉ r.keys)
        seenDps := if r.dpIndex ∈ l.seenDps then l.seenDps else l.seenDps ++ [r.dpIndex] } := by
  dsimp only [absorb]
  rw [foldl_applyItem _ _ _ hn (fun item _ => not_mem_nil)]
  rfl

theorem keys_newEntry (now : Nat) : (newEntry l r now carried).perWorker.keys = r.keys := by
  unfold newEntry Dict.keys CounterReport.keys
  rw [List.map_map]
  rfl

/-- First contact is contact without an accepted report. -/
theorem contacted_iff (h : LedgerInv l accepted) :
    r.dpIndex ∈ l.seenDps ↔ ∃ r₀ ∈ accepted, r₀.dpIndex = r.dpIndex := by
  rw [h.seenDps]
  constructor
  · intro hmem
    obtain ⟨entry, he⟩ := Dict.mem_keys.mp hmem
    obtain ⟨r₀, hr₀, hdp, -⟩ := h.last _ he
    exact ⟨r₀, hr₀, hdp⟩
  · intro ⟨r₀, hr₀, hdp⟩
    exact hdp ▸ h.contacted r₀ hr₀

theorem rowLedger_marks (h : LedgerInv l accepted) (ho : Opened l accepted r carried retired)
    (hn : r.keys.Nodup) {item : WorkerCounters} (hi : item ∈ r.workers)
    (coord : CounterCoord) :
    (rowLedger (decide (r.dpIndex ∉ l.seenDps)) carried item).high coord =
        highest (accepted ++ [r]) coord (r.segment item.key) ∧
      (rowLedger (decide (r.dpIndex ∉ l.seenDps)) carried item).base coord =
        baseline (accepted ++ [r]) coord (r.segment item.key) := by
  have hkey : item.key ∈ r.keys := mem_map_of_mem hi
  have hx : r.segment item.key ∈ r.segments := mem_map_of_mem hkey
  have hval := value_of_mem hn hi coord
  rw [highest_append hn, if_pos hx, hval]
  unfold rowLedger
  cases hget : carried.get item.key with
  | some b =>
    -- the segment was live: its marks carry on
    obtain ⟨e, he, hrow, hseg⟩ := ho.carried_row _ _ hget
    obtain ⟨hhigh, hbase⟩ := h.marks e he _ hrow coord
    obtain ⟨r₀, hr₀, hdp, -⟩ := h.last e he
    have hdp' : r₀.dpIndex = (r.segment item.key).dpIndex :=
      hdp.trans (congrArg CounterSegment.dpIndex hseg)
    dsimp only at hhigh hbase
    rw [baseline_append_of_contacted ⟨r₀, hr₀, hdp'⟩, WorkerLedger.high_merge,
      WorkerLedger.base_merge, hhigh, hbase, hseg]
    exact ⟨rfl, rfl⟩
  | none =>
    -- the segment is new
    have hunseen : r.segment item.key ∉ segmentsOf accepted := by
      intro hs
      exact ho.carried_live _ hkey (ho.back _ hx hs) hget
    dsimp only
    rw [highest_of_notMem hunseen, WorkerLedger.high_start, WorkerLedger.base_start, Nat.zero_max]
    refine ⟨rfl, ?_⟩
    by_cases hf : r.dpIndex ∈ l.seenDps
    · rw [decide_eq_false (not_not_intro hf), if_neg Bool.false_ne_true,
        baseline_append_of_contacted (h.contacted_iff.mp hf), baseline_of_notMem hunseen]
    · rw [decide_eq_true hf, if_pos rfl, baseline_append_of_first ?_ rfl, hval]
      exact fun r₀ hr₀ hdp => hf (h.contacted_iff.mpr ⟨r₀, hr₀, hdp⟩)

theorem mem_live_absorb (now : Nat) :
    x ∈ (liveRows { l with entries := l.entries.set r.dpIndex (newEntry l r now carried) }).keys ↔
      x.dpIndex ≠ r.dpIndex ∧ x ∈ l.liveRows.keys ∨ x ∈ r.segments := by
  have hnew : x ∈ (entryRows (r.dpIndex, newEntry l r now carried)).keys ↔ x ∈ r.segments := by
    rw [mem_keys_entryRows, keys_newEntry, mem_segments]
    exact Iff.rfl
  rw [mem_keys_liveRows, mem_keys_liveRows]
  constructor
  · intro ⟨e, he, hx⟩
    rcases Dict.mem_set.mp he with rfl | ⟨hne, he⟩
    · exact .inr (hnew.mp hx)
    · exact .inl ⟨fun hdp => hne ((mem_keys_entryRows.mp hx).1.symm.trans hdp), e, he, hx⟩
  · intro hx
    rcases hx with ⟨hne, e, he, hx⟩ | hx
    · refine ⟨e, Dict.mem_set.mpr (.inr ⟨fun hdp => hne ?_, he⟩), hx⟩
      exact (mem_keys_entryRows.mp hx).1.trans hdp
    · exact ⟨_, Dict.mem_set.mpr (.inl rfl), hnew.mpr hx⟩

section

variable (h : LedgerInv l accepted) (ho : Opened l accepted r carried retired)
  (hn : r.keys.Nodup) (now : Nat)
include h ho hn

theorem history_absorb (coord : CounterCoord) :
    (l.absorb r now carried retired).history (accepted ++ [r]) coord =
      (l.history accepted coord).accept CounterSegment.workerId (fun x => x.dpIndex = r.dpIndex)
        r.segments.toFinset (fun x => r.value x coord) (decide (r.dpIndex ∉ l.seenDps)) := by
  rw [absorb_eq hn now]
  dsimp only [history, accept]
  congr 1
  · exact segmentsOf_append accepted r
  · ext x
    rw [List.mem_toFinset, Finset.mem_union, Finset.mem_filter, List.mem_toFinset,
      List.mem_toFinset]
    refine (mem_live_absorb now).trans ?_
    rw [and_comm]
  · funext x
    rw [highest_append hn]
    simp only [List.mem_toFinset]
  · funext x
    simp only [List.mem_toFinset]
    by_cases hs : x ∈ segmentsOf accepted
    · obtain ⟨r₀, hr₀, hx₀⟩ := mem_segmentsOf.mp hs
      rw [if_neg (fun hx => hx.2 hs)]
      exact baseline_append_of_contacted ⟨r₀, hr₀, (mem_segments.mp hx₀).1.symm⟩ coord
    · by_cases hdp : r.dpIndex = x.dpIndex
      · by_cases hf : r.dpIndex ∈ l.seenDps
        · obtain ⟨r₀, hr₀, hdp₀⟩ := h.contacted_iff.mp hf
          rw [baseline_append_of_contacted ⟨r₀, hr₀, hdp₀.trans hdp⟩, baseline_of_notMem hs,
            decide_eq_false (not_not_intro hf), if_neg Bool.false_ne_true, ite_self]
        · rw [baseline_append_of_first _ hdp, baseline_of_notMem hs, decide_eq_true hf,
            if_pos rfl]
          · split
            · rfl
            · next hx => exact value_of_notMem (fun h => hx ⟨h, hs⟩) coord
          · exact fun r₀ hr₀ hdp₀ => hf (h.contacted_iff.mpr ⟨r₀, hr₀, hdp₀⟩)
      · rw [baseline_append_of_ne hdp, if_neg]
        exact fun hx => hdp (mem_segments.mp hx.1).1.symm
  · funext w
    exact ho.retired_read w coord

theorem absorb :
    LedgerInv (l.absorb r now carried retired) (accepted ++ [r]) ∧
      ∀ w coord, l.read w coord ≤ (l.absorb r now carried retired).read w coord := by
  have hback : ∀ coord, ∀ x ∈ r.segments.toFinset, x ∈ (l.history accepted coord).seen →
      x ∈ (l.history accepted coord).live := by
    intro coord x hx hs
    exact List.mem_toFinset.mpr (ho.back x (List.mem_toFinset.mp hx) hs)
  have hinv : LedgerInv (l.absorb r now carried retired) (accepted ++ [r]) := by
    have hvalid : ∀ coord, ((l.absorb r now carried retired).history (accepted ++ [r])
        coord).Valid CounterSegment.workerId := by
      intro coord
      rw [h.history_absorb ho hn now coord]
      exact (h.valid coord).accept (hback coord)
    rw [absorb_eq hn now] at hvalid ⊢
    have hold : ∀ e ∈ l.entries.set r.dpIndex (newEntry l r now carried),
        e = (r.dpIndex, newEntry l r now carried) ∨ e.1 ≠ r.dpIndex ∧ e ∈ l.entries :=
      fun e he => Dict.mem_set.mp he
    refine ⟨Dict.nodup_set h.entries_nodup _ _, ?_, ?_, ?_, ?_, ?_, ?_, hvalid⟩
    · intro e he
      rcases hold e he with rfl | ⟨-, he⟩
      · rw [keys_newEntry]
        exact hn
      · exact h.rows_nodup e he
    · intro dp
      have hset : dp ∈ Dict.keys (l.entries.set r.dpIndex (newEntry l r now carried)) ↔
          dp = r.dpIndex ∨ dp ∈ l.entries.keys := by
        rw [Dict.mem_keys, Dict.mem_keys]
        constructor
        · intro ⟨b, hb⟩
          rcases Dict.mem_set.mp hb with heq | ⟨-, hb⟩
          · exact .inl (congrArg Prod.fst heq)
          · exact .inr ⟨b, hb⟩
        · intro hdp
          by_cases heq : dp = r.dpIndex
          · exact ⟨_, Dict.mem_set.mpr (.inl (congrArg₂ Prod.mk heq rfl))⟩
          · obtain ⟨b, hb⟩ := hdp.resolve_left heq
            exact ⟨b, Dict.mem_set.mpr (.inr ⟨heq, hb⟩)⟩
      refine Iff.trans ?_ hset.symm
      dsimp only
      split
      · next hs =>
        rw [h.seenDps]
        refine ⟨.inr, fun hdp => ?_⟩
        rcases hdp with rfl | hdp
        · exact (h.seenDps _).mp hs
        · exact hdp
      · rw [mem_append, mem_singleton, h.seenDps, or_comm]
    · intro r₁ hr₁
      rw [Dict.mem_keys]
      by_cases hdp : r₁.dpIndex = r.dpIndex
      · exact ⟨_, Dict.mem_set.mpr (.inl (congrArg₂ Prod.mk hdp rfl))⟩
      · rcases mem_append.mp hr₁ with hr₁ | hr₁
        · obtain ⟨b, hb⟩ := Dict.mem_keys.mp (h.contacted r₁ hr₁)
          exact ⟨b, Dict.mem_set.mpr (.inr ⟨hdp, hb⟩)⟩
        · obtain rfl := mem_singleton.mp hr₁
          exact absurd rfl hdp
    · intro e he
      rcases hold e he with rfl | ⟨-, he⟩
      · exact ⟨r, mem_append_right _ (mem_singleton_self r), rfl, rfl, rfl, keys_newEntry now⟩
      · obtain ⟨r₁, hr₁, hfacts⟩ := h.last e he
        exact ⟨r₁, mem_append_left _ hr₁, hfacts⟩
    · intro e he r₁ hr₁ hdp
      rcases hold e he with rfl | ⟨hne, he⟩
      · rcases mem_append.mp hr₁ with hr₁ | hr₁
        · rcases ho.newer r₁ hr₁ hdp with hlt | ⟨heq, hlt⟩
          · exact .inl hlt
          · exact .inr ⟨heq, hlt.le⟩
        · obtain rfl := mem_singleton.mp hr₁
          exact .inr ⟨rfl, le_rfl⟩
      · rcases mem_append.mp hr₁ with hr₁ | hr₁
        · exact h.newest e he r₁ hr₁ hdp
        · obtain rfl := mem_singleton.mp hr₁
          exact absurd hdp.symm hne
    · intro e he row hrow coord
      rcases hold e he with rfl | ⟨hne, he⟩
      · obtain ⟨item, hi, rfl⟩ := mem_map.mp hrow
        exact h.rowLedger_marks ho hn hi coord
      · have hnot : rowSegment e row.1 ∉ r.segments :=
          fun hx => hne (CounterReport.mem_segments.mp hx).1
        rw [highest_append hn, if_neg hnot, baseline_append_of_ne (fun heq => hne heq.symm)]
        exact h.marks e he row hrow coord
  refine ⟨hinv, fun w coord => ?_⟩
  rw [h.read_eq_total, hinv.read_eq_total, h.history_absorb ho hn now coord]
  exact (h.valid coord).total_le_accept (hback coord) w

end

end Absorb

/-- An accepted report without repeated rows, in which no row returns, keeps the invariant and
    lowers no total. -/
theorem apply (h : LedgerInv l accepted) {now : Nat} {l' : DataPlaneCounterLedger}
    (hn : r.keys.Nodup) (hreturn : Returns accepted r)
    (ha : l.apply r now = .ok (true, l')) :
    LedgerInv l' (accepted ++ [r]) ∧ ∀ w coord, l.read w coord ≤ l'.read w coord := by
  unfold DataPlaneCounterLedger.apply at ha
  split at ha
  · next hnone =>
    obtain ⟨-, rfl⟩ := Prod.mk.inj (Except.ok.inj ha)
    exact h.absorb (h.opened_first (Dict.get_eq_none.mp hnone)) hn now
  · next entry hent =>
    have he := (Dict.get_eq_some h.entries_nodup).mp hent
    split at ha
    · cases ha
    next hold =>
      split at ha
      · cases (Prod.mk.inj (Except.ok.inj ha)).1
      next hdup =>
        split at ha
        · next hnew =>
          obtain ⟨-, rfl⟩ := Prod.mk.inj (Except.ok.inj ha)
          exact h.absorb (h.opened_generation he hnew) hn now
        · next hsame =>
          obtain ⟨-, rfl⟩ := Prod.mk.inj (Except.ok.inj ha)
          have hgen : entry.generation = r.generation :=
            le_antisymm (not_lt.mp hold) (not_lt.mp hsame)
          have hseq : entry.counterSeq < r.counterSeq :=
            not_le.mp fun hle => hdup ⟨hgen.symm, hle⟩
          exact h.absorb (h.opened_next he hgen hseq hreturn) hn now

end LedgerInv

end OmniRealtime
