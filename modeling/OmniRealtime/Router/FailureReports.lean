import OmniRealtime.Lib.PrunedIds
import OmniRealtime.Router.HealthPaths
import OmniRealtime.Router.Registry

/-!
# Failure reports

`control_plane.py`: the handler of `/internal/worker_failure`, by which a data plane reports a
failed request. A report is retried until it is answered, and may be delivered late, twice, or by
a data plane that was replaced.

1. `workerFailure`: the handler.
2. `FailureInv.report`: the numbers that were applied or ignored are those that are remembered.
3. `failure_reports_counted_once`: no report is counted twice, and which report is counted.
-/

namespace OmniRealtime

open List Function

/-! ## Reports -/

/-- The key of `applied_failure_seqs`. -/
def WorkerFailureReport.plane (r : WorkerFailureReport) : Nat × Nat := (r.dpIndex, r.generation)

/-- What makes two deliveries the same report. -/
def WorkerFailureReport.key (r : WorkerFailureReport) : (Nat × Nat) × Nat :=
  (r.plane, r.failureSeq)

inductive FailureAnswer
  | staleGeneration
  | workerNotFound
  | staleIncarnation
  | deduplicated
  | ignoredDead
  | counted
  deriving DecidableEq, Repr

/-- The control plane, as far as the handler reads it. -/
structure FailureNet where
  pool : Pool
  dataPlanes : DataPlanes := fun _ => none
  applied : FailureLedger := fun _ => {}
  /-- The reports that were counted, and those a dead worker's mark kept from it. -/
  counted : List ((Nat × Nat) × Nat) := []
  ignored : List ((Nat × Nat) × Nat) := []

/-- `worker_failure`, without the snapshot it may publish; `now` is the time of the handler. -/
def workerFailure (cfg : HealthConfig) (s : FailureNet) (r : WorkerFailureReport) (now : Nat) :
    FailureNet × FailureAnswer :=
  if staleGeneration s.dataPlanes r.dpIndex r.generation then (s, .staleGeneration)
  else
    match findWorker s.pool.workers r.workerId with
    | none => (s, .workerNotFound)
    | some worker =>
      if r.incarnation ≠ "" ∧ worker.incarnation ≠ r.incarnation then (s, .staleIncarnation)
      else
        let (seen, entry) := failureAlreadyApplied (s.applied r.plane) r.failureSeq
        let s := { s with applied := Function.update s.applied r.plane entry }
        if seen then (s, .deduplicated)
        else if worker.isDead then
          -- the number is consumed: a retry cannot apply it after a later clear-dead
          ({ s with ignored := r.key :: s.ignored }, .ignoredDead)
        else
          ({ s with
              pool := s.pool.put (worker.recordRequestFailure cfg ⟨r.statusCode, r.error, now⟩)
              counted := r.key :: s.counted }, .counted)

/-! ## Runs -/

inductive FailureEvent
  | report (r : WorkerFailureReport) (now : Nat)
  | register (hello : DataPlaneHello) (now : Nat)
  | heartbeat (beat : DataPlaneHeartbeat) (now : Nat)
  | drop (dpIndex : Nat)
  /-- Any other handler or the health checks change the pool. -/
  | pool (pool : Pool)

def failureStep (cfg : HealthConfig) (s : FailureNet) : FailureEvent → Option FailureNet
  | .report r now => some (workerFailure cfg s r now).1
  | .register hello now =>
    match s.dataPlanes.register hello now with
    | .error _ => some s
    | .ok dps => some { s with dataPlanes := dps }
  | .heartbeat beat now =>
    match s.dataPlanes.heartbeat beat now with
    | .error _ => some s
    | .ok dps => some { s with dataPlanes := dps }
  | .drop dpIndex => some { s with dataPlanes := s.dataPlanes.drop dpIndex }
  | .pool pool => some { s with pool := pool }

def FailureInit (s : FailureNet) : Prop := ∃ pool, s = { pool := pool }

def failureSystem (cfg : HealthConfig) : System FailureNet FailureEvent :=
  .ofFun FailureInit (failureStep cfg)

/-! ## What is remembered -/

/-- The numbers of a data plane that were counted or ignored. -/
def FailureNet.consumed (s : FailureNet) (plane : Nat × Nat) : Finset Nat :=
  (((s.counted ++ s.ignored).filter fun k => k.1 = plane).map Prod.snd).toFinset

variable {s : FailureNet} {a : AppliedFailures} {n : Nat} {t : FailureNet} {cfg : HealthConfig}
  {w : Worker}

theorem mem_consumed {plane : Nat × Nat} :
    n ∈ s.consumed plane ↔ (plane, n) ∈ s.counted ∨ (plane, n) ∈ s.ignored := by
  unfold FailureNet.consumed
  rw [List.mem_toFinset, mem_map]
  constructor
  · rintro ⟨k, hk, rfl⟩
    obtain ⟨hmem, hp⟩ := mem_filter.1 hk
    rw [← of_decide_eq_true hp]
    exact mem_append.1 hmem
  · intro h
    exact ⟨(plane, n), mem_filter.2 ⟨mem_append.2 h, decide_eq_true rfl⟩, rfl⟩

/-- The bound of the set of a data plane, and how far below its greatest number it is pruned. -/
def failureSeqLimit : Nat := 4096

def failureSeqWindow : Nat := 1024

/-- The entry of a data plane holds these numbers, each once. -/
structure AppliedFailures.Holds (a : AppliedFailures) (s : PrunedIds) : Prop where
  nodup : a.seqs.Nodup
  seqs : a.seqs.toFinset = s.seqs
  floor : a.floor = s.floor

theorem foldr_max_eq_top (seqs : List Nat) : seqs.foldr max 0 = PrunedIds.top seqs.toFinset := by
  induction seqs with
  | nil => rfl
  | cons n seqs ih =>
    unfold PrunedIds.top at ih ⊢
    rw [foldr_cons, ih, toFinset_cons, Finset.sup_insert]
    rfl

/-- `_failure_already_applied` asks whether the number is new, and takes it. -/
theorem AppliedFailures.Holds.take {s : PrunedIds} (h : a.Holds s) (n : Nat) :
    (failureAlreadyApplied a n).1 = !decide (s.New n) ∧
      (failureAlreadyApplied a n).2.Holds (s.take failureSeqLimit failureSeqWindow n) := by
  have hmem : n ∈ a.seqs ↔ n ∈ s.seqs := by rw [← h.seqs, List.mem_toFinset]
  unfold failureAlreadyApplied
  by_cases hnew : s.New n
  · have hnot : n ∉ a.seqs := fun hn => hnew.2 (hmem.1 hn)
    have hcard : (insert n s.seqs).card = (n :: a.seqs).length := by
      rw [← h.seqs, ← toFinset_cons, toFinset_card_of_nodup (h.nodup.cons hnot)]
    rw [if_neg (by rw [h.floor]; exact Nat.not_le_of_lt hnew.1), if_neg hnot]
    dsimp only
    unfold PrunedIds.take
    rw [dif_pos hnew, hcard]
    show _ ∧ AppliedFailures.Holds _ (if 4096 < (n :: a.seqs).length then _ else _)
    split
    · refine ⟨by simp [hnew], ?_, ?_, ?_⟩
      · exact List.Nodup.filter _ (h.nodup.cons hnot)
      · dsimp only
        rw [toFinset_filter, toFinset_cons, h.seqs, foldr_max_eq_top, toFinset_cons, h.seqs]
        show _ = Finset.filter _ _
        congr 1
        ext m
        exact decide_eq_true_iff
      · rw [foldr_max_eq_top, toFinset_cons, h.seqs]
        rfl
    · exact ⟨by simp [hnew], h.nodup.cons hnot, by rw [toFinset_cons, h.seqs], h.floor⟩
  · have hsame : s.take failureSeqLimit failureSeqWindow n = s := dif_neg hnew
    rw [hsame]
    split
    · exact ⟨by simp [hnew], h⟩
    · next hfloor =>
      rw [h.floor, not_le] at hfloor
      have hseen : n ∈ a.seqs := by
        rw [hmem]
        by_contra hn
        exact hnew ⟨hfloor, hn⟩
      rw [if_pos hseen]
      exact ⟨by simp [hnew], h⟩

/-- Nothing was counted or ignored twice, and all of it is remembered. -/
structure FailureInv (s : FailureNet) : Prop where
  nodup : (s.counted ++ s.ignored).Nodup
  remembers : ∀ plane, ∃ ids, (s.applied plane).Holds ids ∧
    ids.Remembers failureSeqLimit failureSeqWindow (s.consumed plane)

theorem FailureInv.congr (hs : FailureInv s) (hcounted : t.counted = s.counted)
    (hi : t.ignored = s.ignored) (happlied : t.applied = s.applied) : FailureInv t := by
  refine ⟨by rw [hcounted, hi]; exact hs.nodup, fun plane => ?_⟩
  have hconsumed : t.consumed plane = s.consumed plane := by
    unfold FailureNet.consumed
    rw [hcounted, hi]
  rw [happlied, hconsumed]
  exact hs.remembers plane

/-- A number counts as seen unless its report was neither counted nor ignored and it is above the
    floor. -/
theorem FailureInv.unseen_iff (hs : FailureInv s) (r : WorkerFailureReport) :
    (failureAlreadyApplied (s.applied r.plane) r.failureSeq).1 = false ↔
      r.key ∉ s.counted ∧ r.key ∉ s.ignored ∧ (s.applied r.plane).floor < r.failureSeq := by
  obtain ⟨ids, hh, hr⟩ := hs.remembers r.plane
  rw [(hh.take r.failureSeq).1, Bool.not_eq_false', decide_eq_true_iff, hr.new_iff,
    mem_consumed, not_or, and_assoc, hh.floor]
  exact Iff.rfl

theorem entry_of_seen (h : (failureAlreadyApplied a n).1 = true) :
    (failureAlreadyApplied a n).2 = a := by
  unfold failureAlreadyApplied at h ⊢
  split at h
  · next hfloor => rw [if_pos hfloor]
  next hfloor =>
  rw [if_neg hfloor]
  split at h
  · next hmem => rw [if_pos hmem]
  next hmem =>
  dsimp only at h
  split at h
  · cases h
  · cases h

theorem FailureInv.consume (hs : FailureInv s) {r : WorkerFailureReport}
    (hu : (failureAlreadyApplied (s.applied r.plane) r.failureSeq).1 = false)
    (hlog : (t.counted ++ t.ignored).Perm (r.key :: (s.counted ++ s.ignored)))
    (happlied : t.applied = update s.applied r.plane
      (failureAlreadyApplied (s.applied r.plane) r.failureSeq).2) : FailureInv t := by
  obtain ⟨hcounted, hi, -⟩ := (hs.unseen_iff r).1 hu
  have hconsumed : ∀ plane, t.consumed plane =
      if plane = r.plane then insert r.failureSeq (s.consumed plane) else s.consumed plane := by
    intro plane
    ext n
    have hmem : n ∈ t.consumed plane ↔ (plane, n) = r.key ∨ n ∈ s.consumed plane := by
      rw [mem_consumed, mem_consumed, ← mem_append, hlog.mem_iff, mem_cons, mem_append]
    rw [hmem]
    by_cases hp : plane = r.plane
    · rw [if_pos hp, Finset.mem_insert, hp]
      exact or_congr_left (by simp [WorkerFailureReport.key])
    · rw [if_neg hp]
      refine or_iff_right fun heq => hp ?_
      exact congrArg Prod.fst heq
  refine ⟨hlog.nodup_iff.2 (nodup_cons.2 ⟨?_, hs.nodup⟩), fun plane => ?_⟩
  · rw [mem_append, not_or]
    exact ⟨hcounted, hi⟩
  · rw [happlied, hconsumed]
    by_cases hp : plane = r.plane
    · rw [if_pos hp, hp, update_self]
      obtain ⟨ids, hh, hr⟩ := hs.remembers r.plane
      obtain ⟨hseen, htaken⟩ := hh.take r.failureSeq
      rw [hseen, Bool.not_eq_false', decide_eq_true_iff] at hu
      exact ⟨_, htaken, hr.take (by decide) hu⟩
    · rw [if_neg hp, update_of_ne hp]
      exact hs.remembers plane

/-- The report comes from a current data plane, names a live worker in its incarnation, was
    neither counted nor ignored, and is above the floor of its data plane. -/
structure ReportCounts (s : FailureNet) (r : WorkerFailureReport) (worker : Worker) : Prop where
  current : staleGeneration s.dataPlanes r.dpIndex r.generation = false
  found : findWorker s.pool.workers r.workerId = some worker
  incarnation : r.incarnation = "" ∨ worker.incarnation = r.incarnation
  alive : worker.state ≠ .dead
  uncounted : r.key ∉ s.counted
  unignored : r.key ∉ s.ignored
  above : (s.applied r.plane).floor < r.failureSeq

/-- What the handler leaves of the reports it does not count: nothing, or the number of a report
    for a dead worker. -/
def LeavesPool (s t : FailureNet) (r : WorkerFailureReport) : Prop :=
  t.pool = s.pool ∧ t.counted = s.counted ∧
    (t.ignored = s.ignored ∧ t.applied = s.applied ∨
      t.ignored = r.key :: s.ignored ∧
        (failureAlreadyApplied (s.applied r.plane) r.failureSeq).1 = false ∧
        t.applied = Function.update s.applied r.plane
          (failureAlreadyApplied (s.applied r.plane) r.failureSeq).2)

section

variable (hs : FailureInv s) (cfg : HealthConfig) (r : WorkerFailureReport) (now : Nat)
include hs

theorem workerFailure_cases :
    (∃ worker, ReportCounts s r worker ∧ workerFailure cfg s r now = ({ s with
        applied := update s.applied r.plane
          (failureAlreadyApplied (s.applied r.plane) r.failureSeq).2
        pool := s.pool.put (worker.recordRequestFailure cfg ⟨r.statusCode, r.error, now⟩)
        counted := r.key :: s.counted }, .counted)) ∨
      (∀ worker, ¬ReportCounts s r worker) ∧ (workerFailure cfg s r now).2 ≠ .counted ∧
        LeavesPool s (workerFailure cfg s r now).1 r := by
  have hsame : LeavesPool s s r := ⟨rfl, rfl, .inl ⟨rfl, rfl⟩⟩
  unfold workerFailure
  split
  · next hstale =>
    refine .inr ⟨fun worker h => ?_, by simp, hsame⟩
    rw [h.current] at hstale
    cases hstale
  next hcurrent =>
  split
  · next hnone =>
    refine .inr ⟨fun worker h => ?_, by simp, hsame⟩
    rw [h.found] at hnone
    cases hnone
  next worker hfound =>
  have hwk : ∀ worker', ReportCounts s r worker' → worker' = worker := fun worker' h =>
    Option.some.inj (h.found.symm.trans hfound)
  split
  · next hother =>
    refine .inr ⟨fun worker' h => ?_, by simp, hsame⟩
    obtain rfl := hwk worker' h
    exact h.incarnation.elim hother.1 hother.2
  next hpinned =>
  dsimp only
  split
  · next hseen =>
    refine .inr ⟨fun worker' h => ?_, by simp, rfl, rfl, .inl ⟨rfl, ?_⟩⟩
    · rw [(hs.unseen_iff r).2 ⟨h.uncounted, h.unignored, h.above⟩] at hseen
      cases hseen
    · dsimp only
      rw [entry_of_seen hseen, update_eq_self]
  next hseen =>
  have hu := Bool.eq_false_of_not_eq_true hseen
  split
  · next hdead =>
    refine .inr ⟨fun worker' h => ?_, by simp, rfl, rfl, .inr ⟨rfl, hu, rfl⟩⟩
    obtain rfl := hwk worker' h
    exact h.alive (Worker.isDead_iff.1 hdead)
  next hdead =>
  obtain ⟨huncounted, hunignored, habove⟩ := (hs.unseen_iff r).1 hu
  refine .inl ⟨worker, ⟨Bool.eq_false_of_not_eq_true hcurrent, hfound, ?_, ?_, huncounted,
    hunignored, habove⟩, rfl⟩
  · rw [not_and_or, not_not, not_not] at hpinned
    exact hpinned
  · rw [Worker.isDead_iff] at hdead
    exact hdead

theorem FailureInv.report : FailureInv (workerFailure cfg s r now).1 := by
  obtain ⟨worker, hc, heq⟩ | ⟨-, -, -, hcounted, hrest⟩ := workerFailure_cases hs cfg r now
  · rw [heq]
    exact hs.consume ((hs.unseen_iff r).2 ⟨hc.uncounted, hc.unignored, hc.above⟩)
      (.refl _) rfl
  · obtain ⟨hi, happlied⟩ | ⟨hi, hu, happlied⟩ := hrest
    · exact hs.congr hcounted hi happlied
    · refine hs.consume hu ?_ happlied
      rw [hcounted, hi]
      exact perm_middle

end

theorem FailureInv.step {e : FailureEvent} (hs : FailureInv s)
    (hst : failureStep cfg s e = some t) : FailureInv t := by
  cases e with
  | report r now =>
    cases hst
    exact hs.report cfg r now
  | register hello now | heartbeat beat now =>
    dsimp only [failureStep] at hst
    split at hst
    · cases hst
      exact hs
    · cases hst
      exact hs.congr rfl rfl rfl
  | drop dpIndex | pool pool =>
    cases hst
    exact hs.congr rfl rfl rfl

theorem failureInv_of_reachable (h : (failureSystem cfg).Reachable s) : FailureInv s := by
  refine h.invariant (fun s h₀ => ?_) fun s e t hs hst => hs.step hst
  obtain ⟨pool, rfl⟩ := h₀
  refine ⟨nodup_nil, fun _ => ⟨{}, ⟨nodup_nil, rfl, rfl⟩, ?_⟩⟩
  exact PrunedIds.remembers_empty _ _

/-! ## Which reports are counted -/

/-- What the handler does in a state: each report is counted at most once, and a report is counted
    exactly where `ReportCounts` says. -/
structure CountedOnce (cfg : HealthConfig) (s : FailureNet) : Prop where
  once : s.counted.Nodup
  counts : ∀ r now worker, ReportCounts s r worker →
    (workerFailure cfg s r now).2 = .counted ∧
      (workerFailure cfg s r now).1.pool =
        s.pool.put (worker.recordRequestFailure cfg ⟨r.statusCode, r.error, now⟩) ∧
      (workerFailure cfg s r now).1.counted = r.key :: s.counted
  otherwise : ∀ r now, (∀ worker, ¬ReportCounts s r worker) →
    (workerFailure cfg s r now).2 ≠ .counted ∧ (workerFailure cfg s r now).1.pool = s.pool ∧
      (workerFailure cfg s r now).1.counted = s.counted
  /-- A floor follows a number that was counted or ignored, at the distance of the window. -/
  floor : ∀ plane, (s.applied plane).floor = 0 ∨
    (s.applied plane).floor + failureSeqWindow ∈ s.consumed plane
  few : ∀ plane, (s.consumed plane).card ≤ failureSeqLimit → (s.applied plane).floor = 0

theorem FailureInv.countedOnce (h : FailureInv s) (cfg : HealthConfig) :
    CountedOnce cfg s where
  once := h.nodup.of_append_left
  counts := by
    intro r now worker hc
    obtain ⟨worker', hc', heq⟩ | ⟨hnot, -⟩ :=
      workerFailure_cases h cfg r now
    · obtain rfl := Option.some.inj (hc.found.symm.trans hc'.found)
      rw [heq]
      exact ⟨rfl, rfl, rfl⟩
    · exact absurd hc (hnot worker)
  otherwise := by
    intro r now hnot
    obtain ⟨worker, hc, -⟩ | ⟨-, hanswer, hpool, hcounted, -⟩ :=
      workerFailure_cases h cfg r now
    · exact absurd hc (hnot worker)
    · exact ⟨hanswer, hpool, hcounted⟩
  floor := by
    intro plane
    obtain ⟨ids, hh, hr⟩ := h.remembers plane
    rw [hh.floor]
    exact hr.follows
  few := by
    intro plane hcard
    obtain ⟨ids, hh, hr⟩ := h.remembers plane
    rw [hh.floor]
    exact hr.few hcard

/-- Whatever the order, the copies and the delay of the reports, and however the data planes, the
    workers and the remembered numbers change, no report is counted twice, and each is counted
    unless it is stale, its worker is gone or dead, or its number is remembered. -/
theorem failure_reports_counted_once {cfg : HealthConfig} {s : FailureNet}
    (h : (failureSystem cfg).Reachable s) : CountedOnce cfg s :=
  (failureInv_of_reachable h).countedOnce cfg

/-! ## Late reports -/

def exReported : Worker where
  config := ⟨"http://a:8000", none, [.chat]⟩
  incarnation := "i"
  state := .healthy

def exReportedPool : Pool := Pool.empty.add exReported List.not_mem_nil

/-- The `n`-th failure that the first process of the data plane 0 reports. -/
def exFailure (n : Nat) : WorkerFailureReport where
  workerId := exReported.workerId
  dpIndex := 0
  generation := 1
  failureSeq := n

/-- A report that is delivered twice is counted once. -/
theorem failure_reports_counted_once_retried : ∃ s : FailureNet,
    CountedOnce .default s ∧ s.counted = [((0, 1), 1)] ∧
      s.pool.workers.map Worker.consecutiveFailures = [1] := by
  have hrun : System.exec (failureStep .default) { pool := exReportedPool }
      [.report (exFailure 1) 5, .report (exFailure 1) 6] = some _ := rfl
  have hreach : (failureSystem .default).Reachable _ := .of_exec (.init ⟨_, rfl⟩) hrun
  exact ⟨_, failure_reports_counted_once hreach, by decide +kernel, by decide +kernel⟩

/-- The pool holds one worker, of this URL and not dead. -/
def HoldsAlive (p : Pool) (w : Worker) : Prop :=
  p.workers = [w] ∧ w.url = exReported.url ∧ w.state ≠ .dead

theorem findWorker_of_holdsAlive {p : Pool} (h : HoldsAlive p w) :
    findWorker p.workers exReported.workerId = some w := by
  have hid : w.workerId = exReported.workerId := Worker.workerId_eq_iff.2 h.2.1
  rw [h.1]
  unfold findWorker
  rw [find?_cons_of_pos (by rw [hid, beq_self_eq_true, Bool.true_or])]

theorem holdsAlive_put {p : Pool} {w : Worker} (h : HoldsAlive p w) (cfg : HealthConfig)
    (o : Worker.Observation) : HoldsAlive (p.put (w.recordRequestFailure cfg o))
      (w.recordRequestFailure cfg o) := by
  refine ⟨?_, h.2.1, fun hdead => h.2.2 (Worker.recordRequestFailure_dead hdead)⟩
  show p.workers.map _ = _
  rw [h.1, map_singleton, if_pos]
  rfl

/-- The numbers from 2 on, one report each, the last first. -/
def exSeqs (n : Nat) : List Nat := (List.range n).reverse.map (· + 2)

theorem exSeqs_succ (n : Nat) : exSeqs (n + 1) = (n + 2) :: exSeqs n := by
  unfold exSeqs
  rw [range_succ, reverse_append, reverse_singleton, singleton_append, map_cons]

theorem lt_of_mem_exSeqs {n m : Nat} (h : m ∈ exSeqs n) : 2 ≤ m ∧ m < n + 2 := by
  obtain ⟨k, hk, rfl⟩ := mem_map.1 h
  rw [mem_reverse, mem_range] at hk
  omega

theorem applied_exSeqs (hseqs : a.seqs = exSeqs n) (hfloor : a.floor = 0) :
    (failureAlreadyApplied a (n + 2)).1 = false ∧
      (n + 1 ≤ 4096 → (failureAlreadyApplied a (n + 2)).2.seqs = exSeqs (n + 1) ∧
        (failureAlreadyApplied a (n + 2)).2.floor = 0) ∧
      (n = 4096 → 1 ≤ (failureAlreadyApplied a (n + 2)).2.floor) := by
  have hnot : n + 2 ∉ a.seqs := fun h => absurd (lt_of_mem_exSeqs (hseqs ▸ h)).2 (by omega)
  have hlen : ((n + 2) :: a.seqs).length = n + 1 := by
    rw [hseqs, ← exSeqs_succ]
    unfold exSeqs
    rw [length_map, length_reverse, length_range]
  unfold failureAlreadyApplied
  rw [if_neg (by omega), if_neg hnot]
  dsimp only
  rw [hlen]
  split
  · next hmany =>
    refine ⟨rfl, fun h => by omega, fun h => ?_⟩
    show 1 ≤ max (n + 2) (a.seqs.foldr max 0) - 1024
    have hmax := Nat.le_max_left (n + 2) (a.seqs.foldr max 0)
    omega
  · refine ⟨rfl, fun _ => ⟨by rw [hseqs, exSeqs_succ], hfloor⟩, fun h => by omega⟩

/-- The reports from 2 on were counted for a live worker. -/
structure Filled (s : FailureNet) (n : Nat) : Prop where
  reachable : (failureSystem .default).Reachable s
  planes : s.dataPlanes 0 = none
  alive : ∃ w, HoldsAlive s.pool w
  counted : s.counted = (exSeqs n).map fun m => ((0, 1), m)
  ignored : s.ignored = []

theorem Filled.counts (h : Filled s n) (hw : HoldsAlive s.pool w) {m : Nat} (hm : m ∉ exSeqs n)
    (habove : (s.applied (0, 1)).floor < m) : ReportCounts s (exFailure m) w where
  current := by
    unfold staleGeneration
    rw [show (exFailure m).dpIndex = 0 from rfl, h.planes]
    rfl
  found := findWorker_of_holdsAlive hw
  incarnation := .inl rfl
  alive := hw.2.2
  uncounted := by
    rw [h.counted, mem_map]
    rintro ⟨k, hk, heq⟩
    have hkm : k = m := congrArg Prod.snd heq
    exact hm (hkm ▸ hk)
  unignored := by
    rw [h.ignored]
    exact not_mem_nil
  above := habove

theorem Filled.next (h : Filled s n) (hfloor : (s.applied (0, 1)).floor = 0) :
    ∃ t, Filled t (n + 1) ∧
      t.applied (0, 1) = (failureAlreadyApplied (s.applied (0, 1)) (n + 2)).2 := by
  obtain ⟨w, hw⟩ := h.alive
  have hnot : n + 2 ∉ exSeqs n := fun hmem => absurd (lt_of_mem_exSeqs hmem).2 (lt_irrefl _)
  have hc := h.counts hw hnot (by rw [hfloor]; exact Nat.zero_lt_succ _)
  have hs := failureInv_of_reachable h.reachable
  have hst : failureStep .default s (.report (exFailure (n + 2)) 0) =
      some (workerFailure .default s (exFailure (n + 2)) 0).1 := rfl
  have hnext := h.reachable.step hst
  obtain ⟨w', hc', heq⟩ | ⟨hno, -⟩ := workerFailure_cases hs .default (exFailure (n + 2)) 0
  · obtain rfl := Option.some.inj (hc.found.symm.trans hc'.found)
    rw [heq] at hnext
    refine ⟨_, ⟨hnext, h.planes, ⟨_, holdsAlive_put hw _ _⟩, ?_, h.ignored⟩, ?_⟩
    · show (exFailure (n + 2)).key :: s.counted = _
      rw [exSeqs_succ, map_cons, h.counted]
      rfl
    · show update s.applied (0, 1) _ (0, 1) = _
      rw [update_self]
      rfl
  · exact absurd hc (hno w)

/-- As long as the numbers fit, all of them are kept. -/
theorem exists_filled (hn : n ≤ 4096) : ∃ s, Filled s n ∧
    (s.applied (0, 1)).seqs = exSeqs n ∧ (s.applied (0, 1)).floor = 0 := by
  induction n with
  | zero =>
    refine ⟨{ pool := exReportedPool }, ⟨.init ⟨_, rfl⟩, rfl, ⟨exReported, rfl, rfl, ?_⟩, rfl, rfl⟩,
      rfl, rfl⟩
    decide
  | succ n ih =>
    obtain ⟨s, hs, hseqs, hfloor⟩ := ih (Nat.le_of_succ_le hn)
    obtain ⟨t, ht, happlied⟩ := hs.next hfloor
    refine ⟨t, ht, ?_⟩
    rw [happlied]
    exact (applied_exSeqs hseqs hfloor).2.1 hn

/-- The first report of a current data plane for a live worker arrives after 4097 later ones and is
    not counted; nor is a report for a worker that is marked dead. -/
theorem current_report_not_counted :
    (∃ s w, (failureSystem .default).Reachable s ∧ s.dataPlanes 0 = none ∧
      findWorker s.pool.workers (exFailure 1).workerId = some w ∧ w.state ≠ .dead ∧
      (exFailure 1).key ∉ s.counted ∧ (exFailure 1).key ∉ s.ignored ∧
      (workerFailure .default s (exFailure 1) 0).2 ≠ .counted ∧
      (workerFailure .default s (exFailure 1) 0).1.counted = s.counted) ∧
    (workerFailure .default { pool := Pool.empty.add (exReported.markDead none) List.not_mem_nil }
      (exFailure 1) 0).2 = .ignoredDead := by
  constructor
  · obtain ⟨s, hs, hseqs, hfloor⟩ := exists_filled (le_refl 4096)
    obtain ⟨t, ht, happlied⟩ := hs.next hfloor
    have hhigh : 1 ≤ (t.applied (0, 1)).floor := by
      rw [happlied]
      exact (applied_exSeqs hseqs hfloor).2.2 rfl
    obtain ⟨w, hw⟩ := ht.alive
    have hlate : ∀ w, ¬ReportCounts t (exFailure 1) w := fun w h => absurd h.above (not_lt.2 hhigh)
    obtain ⟨hanswer, -, hcounted⟩ :=
      ((failureInv_of_reachable ht.reachable).countedOnce .default).otherwise (exFailure 1) 0 hlate
    refine ⟨t, w, ht.reachable, ht.planes, findWorker_of_holdsAlive hw, hw.2.2, ?_, ?_, hanswer,
      hcounted⟩
    · rw [ht.counted, mem_map]
      rintro ⟨k, hk, heq⟩
      have hone : k = 1 := congrArg Prod.snd heq
      exact absurd (lt_of_mem_exSeqs hk).1 (by omega)
    · rw [ht.ignored]
      exact not_mem_nil
  · decide +kernel

end OmniRealtime
