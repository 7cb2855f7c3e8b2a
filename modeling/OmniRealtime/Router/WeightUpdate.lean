import OmniRealtime.Lib.System
import OmniRealtime.Router.Registry

/-!
# Weight-update broadcasts

`app.py`: the broadcast of an admin update to every live worker (`_broadcast_admin_request`),
with the journal written before the targets are disabled and resolved after the outcome is
known, run together with the registry routes, health recording, crashes of the router or
its host at any point, and restarts.

`World.uncertain` lists the ids of the workers an update may have been sent to without
every target being known to have applied it. It is a history variable: no function of the
router reads it.

Results:
1. `uncertain_disabled`: in a run whose restarts find the state directory usable while an
   outcome is unresolved, every uncertain worker is disabled.
2. `uncertain_step`: an id leaves the list only by a complete update or by an operator's
   request after which the journal may no longer name it.
3. `update_fails_closed`: both, for every reachable state.
4. `routable_without_state_dir`: after a restart without a usable state directory the
   quarantine is lost.
-/

namespace OmniRealtime

open List Option DurableFile UpdateJournal

/-! ## The broadcast -/

/-- `_ADMIN_UPDATE_PATHS`. -/
inductive AdminUpdatePath
  | pauseGeneration
  | updateWeightsFromDisk
  | updateWeightsFromDistributed
  | initWeightsUpdateGroup
  | destroyWeightsUpdateGroup
  deriving DecidableEq, Repr

def AdminUpdatePath.route : AdminUpdatePath → String
  | .pauseGeneration => "/pause_generation"
  | .updateWeightsFromDisk => "/update_weights_from_disk"
  | .updateWeightsFromDistributed => "/update_weights_from_distributed"
  | .initWeightsUpdateGroup => "/init_weights_update_group"
  | .destroyWeightsUpdateGroup => "/destroy_weights_update_group"

/-- Where a running broadcast stands: journaled, its targets disabled, its requests sent. -/
inductive UpdatePhase
  | journaled | disabled | sending
  deriving DecidableEq, Repr

/-- The locals of `_broadcast_admin_request_locked`; the admin lock is held while they
    exist. -/
structure WeightUpdate where
  path : AdminUpdatePath
  targets : List String
  previousDisabled : List (String × Bool)
  phase : UpdatePhase
  deriving DecidableEq, Repr

/-- The live workers, refused when the path cannot be broadcast to them. The source checks
    this before taking the lock too, where it can only refuse earlier. -/
def targetWorkers (p : Pool) (path : AdminUpdatePath) : Except Refusal (List Worker) :=
  let targets := p.workers.filter fun w => !w.isDead
  if targets.isEmpty then
    .error .noLiveWorkers
  else if path = .initWeightsUpdateGroup ∧ 1 < targets.length then
    .error (.multipleReplicas targets.length)
  else
    .ok targets

/-- From taking the lock to `journal.begin`. -/
def beginUpdate (journal : Journal) (file : JournalFile) (p : Pool) (path : AdminUpdatePath)
    (io : JournalIo) : JournalFile × Except Refusal WeightUpdate :=
  if journal.hasPending file io.readable then
    (file, .error .unresolvedUpdate)
  else
    match targetWorkers p path with
    | .error e => (file, .error e)
    | .ok targets =>
      let ids := targets.map Worker.workerId
      let (file, journaled) := journal.begin file path.route ids io.write
      if !journaled then
        (file, .error .journalNotDurable)
      else
        (file, .ok {
          path := path
          targets := ids
          previousDisabled := targets.map fun w => (w.workerId, w.disabled)
          phase := .journaled })

/-- Set the `disabled` field of the targets; a target keeps its own where `flag` has no value. -/
def setTargets (p : Pool) (targets : List String) (flag : String → Option Bool) : Pool :=
  p.modify
    (fun w => if w.workerId ∈ targets then w.setDisabled ((flag w.workerId).getD w.disabled)
      else w)
    fun w => by split <;> rfl

def disableTargets (p : Pool) (u : WeightUpdate) : Pool :=
  setTargets p u.targets fun _ => some true

def restoreAdminDisabledState (p : Pool) (u : WeightUpdate) (outcomeSafe : Bool) : Pool :=
  if !outcomeSafe then
    disableTargets p u
  else
    setTargets p u.targets fun id => u.previousDisabled.lookup id

/-- No result means that the broadcast raised; an empty list that nothing was sent. -/
def outcomeSafe : Option (List Bool) → Bool
  | none => false
  | some results => results.all id

/-- The `finally` block of the broadcast. -/
def finishUpdate (journal : Journal) (file : JournalFile) (p : Pool) (u : WeightUpdate)
    (results : Option (List Bool)) (io : JournalIo) : Pool × JournalFile :=
  let safe := outcomeSafe results
  (restoreAdminDisabledState p u safe,
    if safe then (journal.clear file io.write).1
    else (journal.keep file u.targets io.rereadable io.write).1)

/-! ## Health and request recording -/

/-- What the health checker and the proxies record on a worker. -/
inductive Recording
  | healthResult (ok : Bool) (o : Worker.Observation)
  | requestFailure (o : Worker.Observation)
  | routedRequest (statusCode : Option Int) (serviceClass : ServiceClass)
  | incrementActive
  | decrementActive

def Worker.record (cfg : HealthConfig) (w : Worker) : Recording → Worker
  | .healthResult ok o => w.recordHealthResult ok cfg o
  | .requestFailure o => w.recordRequestFailure cfg o
  | .routedRequest s c => w.recordRoutedRequest s c
  | .incrementActive => w.incrementActive
  | .decrementActive => w.decrementActive.getD w

theorem Worker.record_keeps (cfg : HealthConfig) (w : Worker) (r : Recording) :
    (w.record cfg r).url = w.url ∧ (w.record cfg r).disabled = w.disabled := by
  cases r with
  | healthResult ok o => cases ok <;> exact ⟨rfl, rfl⟩
  | requestFailure o | incrementActive => exact ⟨rfl, rfl⟩
  | routedRequest s c =>
    show (w.recordRoutedRequest s c).url = _ ∧ (w.recordRoutedRequest s c).disabled = _
    dsimp only [recordRoutedRequest]
    split <;> exact ⟨rfl, rfl⟩
  | decrementActive =>
    show (w.decrementActive.getD w).url = _ ∧ (w.decrementActive.getD w).disabled = _
    unfold decrementActive
    split <;> exact ⟨rfl, rfl⟩

/-! ## The system -/

/-- The router process. -/
structure App where
  journal : Journal
  pool : Pool
  update : Option WeightUpdate

/-- The router process, if one runs, and the journal file of its endpoint. -/
structure World where
  app : Option App
  file : JournalFile
  uncertain : List String

/-- What happens. A process crash loses the memory, a host crash also picks one of the
    contents the disk may come back with, and a read error outside the router makes the
    file unreadable. -/
inductive Event
  | start (journal : Journal) (pool : Pool) (readable : Bool)
  | crash
  | hostCrash (content : JournalContent)
  | corrupt
  | beginUpdate (path : AdminUpdatePath) (io : JournalIo)
  | disableTargets (published : Bool)
  | awaitSnapshotAck (acked : Option Bool) (io : JournalIo)
  | finish (results : Option (List Bool)) (io : JournalIo)
  | record (url : String) (r : Recording)
  | createWorker (config : WorkerConfig) (incarnation : String) (ok : Bool)
      (o : Worker.Observation) (readable : Bool)
  | updateWorker (r : UpdateRequest) (voiceOwner : Option String) (authReadable : Bool)
      (io : JournalIo)
  | deleteWorker (workerId : String) (voiceOwner : Option String)
  | resolveJournal (acknowledge : Bool) (write : WriteOutcome)

/-- The parameters of a router. -/
structure RouterEnv where
  health : HealthConfig
  admin : AdminConfig

instance (id : String) (c : JournalContent) : Decidable (c.Names id) :=
  match c with
  | .absent => isFalse fun h => h
  | .unreadable => isTrue trivial
  | .document _ ids => inferInstanceAs (Decidable (id ∈ ids))

/-- The ids that stay uncertain after an operator's request about the ids `asked`: an id
    the operator asked about goes once the file may no longer name it. -/
def afterRequest (uncertain : List String) (asked : String → Bool) (file : JournalFile) :
    List String :=
  uncertain.filter fun id => !asked id || decide (∀ c ∈ file.durable, c.Names id)

/-- The end of a broadcast; the ids of a complete update are certain again. -/
def World.finish (s : World) (a : App) (u : WeightUpdate) (results : Option (List Bool))
    (io : JournalIo) : World :=
  let (pool, file) := finishUpdate a.journal s.file a.pool u results io
  { app := some { a with pool := pool, update := none }
    file := file
    uncertain :=
      if outcomeSafe results then s.uncertain.filter (· ∉ u.targets) else s.uncertain }

/-- A step of a broadcast that holds the lock. -/
def stepUpdate (s : World) (a : App) (u : WeightUpdate) : Event → Option World
  | .disableTargets published =>
    if u.phase = .journaled then
      let pool := disableTargets a.pool u
      -- a failing publish leaves the targets disabled and the entry in place
      let update := if published then some { u with phase := .disabled } else none
      some { s with app := some { a with pool := pool, update := update } }
    else none
  | .awaitSnapshotAck acked io =>
    if u.phase = .disabled then
      match acked with
      | some true =>
        some { s with
          app := some { a with update := some { u with phase := .sending } }
          uncertain := s.uncertain ++ u.targets }
      | some false => some (s.finish a u (some []) io)
      | none => some (s.finish a u none io)
    else none
  | .finish results io =>
    if u.phase = .sending ∧ ∀ rs ∈ results, rs.length = u.targets.length then
      some (s.finish a u results io)
    else none
  -- the registry routes are refused while an update owns the lock
  | .createWorker .. | .updateWorker .. | .deleteWorker .. | .resolveJournal .. => some s
  | _ => none

/-- A request that takes the admin lock. -/
def stepRegistry (env : RouterEnv) (s : World) (a : App) : Event → Option World
  | .beginUpdate path io =>
    let (file, result) := beginUpdate a.journal s.file a.pool path io
    some { s with app := some { a with update := result.toOption }, file := file }
  | .createWorker config incarnation ok o readable =>
    -- the staged record is probed before the lock is taken
    let worker : Worker := { config := config, incarnation := incarnation }
    match createWorker a.journal s.file a.pool (worker.recordHealthResult ok env.health o)
        readable with
    | .error _ => some s
    | .ok pool => some { s with app := some { a with pool := pool } }
  | .updateWorker r voiceOwner authReadable io =>
    let (pool, file, _) :=
      applyWorkerUpdate env.admin a.journal s.file a.pool r voiceOwner authReadable io
    some {
      app := some { a with pool := pool }
      file := file
      uncertain := afterRequest s.uncertain (asksToEnable a.pool r) file }
  | .deleteWorker workerId voiceOwner =>
    match applyWorkerDelete a.pool workerId voiceOwner with
    | .error _ => some s
    | .ok pool => some { s with app := some { a with pool := pool } }
  | .resolveJournal acknowledge write =>
    let file := (resolveWeightUpdateJournal a.journal s.file acknowledge write).1
    some { s with file := file, uncertain := afterRequest s.uncertain (fun _ => acknowledge) file }
  | _ => none

def step (env : RouterEnv) (s : World) : Event → Option World
  | .start journal pool readable =>
    if s.app.isSome then none
    else
      let pool := recoverWorkerPoolFromJournal journal s.file readable pool
      some { s with app := some ⟨journal, pool, none⟩ }
  | .crash => some { s with app := none }
  | .hostCrash content =>
    (s.file.hostCrash content).map fun file => { s with app := none, file := file }
  | .corrupt => some { s with file := (s.file.replace .unreadable .failedAfter).1 }
  | .record url r =>
    s.app.map fun a =>
      { s with app := some { a with
        pool := a.pool.modify (fun w => if w.url = url then w.record env.health r else w)
          fun w => by
            split
            · exact (Worker.record_keeps _ _ _).1
            · rfl } }
  | e =>
    s.app.bind fun a =>
      match a.update with
      | some u => stepUpdate s a u e
      | none => stepRegistry env s a e

/-- No router runs yet, and nothing is uncertain. -/
def World.Initial (s : World) : Prop := s.app = none ∧ s.uncertain = []

abbrev updateSystem (env : RouterEnv) : System World Event := .ofFun World.Initial (step env)

/-- The router is not started without a durable state directory while some target's weights
    are uncertain. -/
def StateDirUsable (s : World) : Event → Prop
  | .start .unavailable _ _ => s.uncertain = []
  | _ => True

/-- The operator asks for the worker to be trusted again: by re-enabling it, or by
    resolving the journal. -/
def OperatorRequests (s : World) (id : String) : Event → Prop
  | .updateWorker r _ _ _ =>
    r.disabled = some false ∧
      ∃ a w, s.app = some a ∧ findWorker a.pool.workers r.workerId = some w ∧ w.workerId = id
  | .resolveJournal acknowledge _ => acknowledge = true
  | _ => False

/-- The update of the id is known to be applied by all its targets. -/
def CompletesUpdate (s : World) (id : String) : Event → Prop
  | .finish (some results) _ =>
    (∀ ok ∈ results, ok = true) ∧
      ∃ a u, s.app = some a ∧ a.update = some u ∧ id ∈ u.targets
  | _ => False

/-! ## The invariant -/

/-- A running broadcast: every possible content of the file names its targets. -/
structure UpdateInv (s : World) (p : Pool) (u : WeightUpdate) : Prop where
  named : ∀ c, s.file.Possible c → ∀ id ∈ u.targets, c.Names id
  unsent : u.phase ≠ .sending → s.uncertain = []
  within : ∀ id ∈ s.uncertain, id ∈ u.targets
  sent : u.phase = .sending → ∀ id ∈ u.targets, id ∈ s.uncertain
  disabled : u.phase ≠ .journaled → ∀ w ∈ p.workers, w.workerId ∈ u.targets → w.disabled = true

structure AppInv (s : World) (a : App) : Prop where
  /-- Without a journal no update begins. -/
  unavailable : a.journal = .unavailable → s.uncertain = [] ∧ a.update = none
  quarantined : ∀ w ∈ a.pool.workers, w.workerId ∈ s.uncertain → w.disabled = true
  updating : ∀ u, a.update = some u → UpdateInv s a.pool u

structure Inv (s : World) : Prop where
  /-- Recovery finds every uncertain id, whatever a crash leaves of the file. -/
  listed : ∀ c, s.file.Possible c → ∀ id ∈ s.uncertain, c.Names id
  app : ∀ a, s.app = some a → AppInv s a

variable {s : World}

theorem Inv.initial (h : s.Initial) : Inv s where
  listed := by simp [h.2]
  app := by simp [h.1]

variable {a : App} {readable : Bool}

/-- A later update begins only when nothing is uncertain. -/
theorem uncertain_eq_nil (hinv : Inv s) (ha : s.app = some a)
    (hnone : a.journal.hasPending s.file readable = false) : s.uncertain = [] := by
  cases hj : a.journal with
  | unavailable => exact ((hinv.app a ha).unavailable hj).1
  | durable =>
    rw [hj] at hnone
    refine eq_nil_iff_forall_not_mem.mpr fun id hid => ?_
    have hnms := hinv.listed _ s.file.possible_visible id hid
    have hpnd := hasPending_of_names readable hnms
    exact absurd hpnd (by rw [show hasPending s.file readable = false from hnone]
                          decide)

variable {u : WeightUpdate} {id : String} (results : Option (List Bool)) {uncertain : List String}
  {asked : String → Bool} {file : JournalFile} {w : Worker} {p : Pool}

/-- Only a router with a durable journal runs an update. -/
theorem durable_of_update (hinv : Inv s) (ha : s.app = some a) (hu : a.update = some u) :
    a.journal = .durable := by
  cases hj : a.journal with
  | durable => rfl
  | unavailable =>
    have hnone := ((hinv.app a ha).unavailable hj).2
    rw [hu] at hnone
    cases hnone

/-! ## Steps that change the pool alone -/

/-- Every worker of `q` is disabled, or is a worker of `p` with its `disabled` field. -/
def Tighter (p q : Pool) : Prop :=
  ∀ w ∈ q.workers, w.disabled = true ∨
    ∃ v ∈ p.workers, v.workerId = w.workerId ∧ v.disabled = w.disabled

theorem Tighter.disabled {p q : Pool} (h : Tighter p q) {C : String → Prop}
    (hp : ∀ w ∈ p.workers, C w.workerId → w.disabled = true) :
    ∀ w ∈ q.workers, C w.workerId → w.disabled = true := by
  intro w hw hC
  rcases h w hw with hd | ⟨v, hv, hid, hd⟩
  · exact hd
  · rw [← hd]
    exact hp v hv (hid ▸ hC)

theorem Tighter.of_modify {f : Worker → Worker} {hf : ∀ w, (f w).url = w.url}
    (h : ∀ w ∈ p.workers, (f w).disabled = true ∨ (f w).disabled = w.disabled) :
    Tighter p (p.modify f hf) := by
  intro w hw
  obtain ⟨v, hv, rfl⟩ := mem_map.mp hw
  rcases h v hv with hd | hd
  · exact .inl hd
  · exact .inr ⟨v, hv, Worker.workerId_eq_iff.mpr (hf v).symm, hd.symm⟩

theorem Inv.of_tighter {q : Pool} (hinv : Inv s) (ha : s.app = some a) (hq : Tighter a.pool q) :
    Inv { s with app := some { a with pool := q } } where
  listed := hinv.listed
  app := by
    rintro _ ⟨⟩
    have happ := hinv.app a ha
    refine ⟨happ.unavailable, hq.disabled happ.quarantined, fun u hu => ?_⟩
    have hupd := happ.updating u hu
    exact ⟨hupd.named, hupd.unsent, hupd.within, hupd.sent,
      fun hphase => hq.disabled (hupd.disabled hphase)⟩

theorem Inv.of_certain (h : s.uncertain = []) (ha : s.app = some a) (hu : a.update = none) :
    Inv s where
  listed := by simp [h]
  app := by
    intro b hb
    rw [ha] at hb
    cases hb
    exact ⟨fun _ => ⟨h, hu⟩, by simp [h], by simp [hu]⟩

/-! ## The broadcast -/

theorem mem_setTargets {targets : List String} {flag : String → Option Bool}
    (h : w ∈ (setTargets p targets flag).workers) : ∃ v ∈ p.workers, v.workerId = w.workerId ∧
      (v.workerId ∈ targets → w.disabled = (flag v.workerId).getD v.disabled) ∧
      (v.workerId ∉ targets → w = v) := by
  obtain ⟨v, hv, rfl⟩ := mem_map.mp h
  refine ⟨v, hv, ?_⟩
  by_cases hmem : v.workerId ∈ targets
  · rw [if_pos hmem]
    exact ⟨rfl, fun _ => rfl, fun hnot => absurd hmem hnot⟩
  · rw [if_neg hmem]
    exact ⟨rfl, fun h => absurd h hmem, fun _ => rfl⟩

theorem disableTargets_disabled (h : w ∈ (disableTargets p u).workers)
    (hid : w.workerId ∈ u.targets) : w.disabled = true := by
  obtain ⟨v, -, hvw, hin, -⟩ := mem_setTargets h
  exact hin (hvw ▸ hid)

theorem beginUpdate_cases (journal : Journal) (file : JournalFile) (p : Pool)
    (path : AdminUpdatePath) (io : JournalIo) :
    (∃ e, beginUpdate journal file p path io = (file, .error e)) ∨
    journal.hasPending file io.readable = false ∧
      ((∃ file' e, beginUpdate journal file p path io = (file', .error e)) ∨
        ∃ file' u, beginUpdate journal file p path io = (file', .ok u) ∧ journal = .durable ∧
          u.phase = .journaled ∧ ∀ c, file'.Possible c → ∀ id ∈ u.targets, c.Names id) := by
  unfold beginUpdate
  split
  next => exact .inl ⟨_, rfl⟩
  next hpnd =>
    split
    next => exact .inl ⟨_, rfl⟩
    next targets htargets =>
      refine .inr ⟨by simpa using hpnd, ?_⟩
      cases journal with
      | unavailable => exact .inl ⟨_, _, rfl⟩
      | durable =>
        dsimp only [Journal.begin]
        split
        next => exact .inl ⟨_, _, rfl⟩
        next hok =>
          refine .inr ⟨_, _, rfl, rfl, rfl, fun c hc id hid => ?_⟩
          exact begin_names (by simpa using hok) hc hid

theorem inv_beginUpdate {path : AdminUpdatePath} {io : JournalIo} (hinv : Inv s)
    (ha : s.app = some a) (hu : a.update = none) :
    Inv { s with
      app := some { a with
        update := (beginUpdate a.journal s.file a.pool path io).2.toOption }
      file := (beginUpdate a.journal s.file a.pool path io).1 } := by
  rcases beginUpdate_cases a.journal s.file a.pool path io with
    ⟨e, h⟩ | ⟨hpnd, ⟨file', e, h⟩ | ⟨file', u, h, hj, hphase, hnamed⟩⟩
  · rw [h]
    show Inv { s with app := some { a with update := none } }
    rw [← hu]
    exact hinv.of_tighter ha fun w hw => .inr ⟨w, hw, rfl, rfl⟩
  · have hnil : s.uncertain = [] := uncertain_eq_nil hinv ha hpnd
    rw [h]
    exact .of_certain hnil rfl rfl
  · have hnil : s.uncertain = [] := uncertain_eq_nil hinv ha hpnd
    rw [h]
    refine ⟨by simp [hnil], ?_⟩
    rintro _ ⟨⟩
    refine ⟨fun hun => absurd (hj.symm.trans hun) (by decide), by simp [hnil], ?_⟩
    rintro _ ⟨⟩
    exact {
      named := hnamed
      unsent := fun _ => hnil
      within := by simp [hnil]
      sent := fun hsend => by rw [hphase] at hsend; cases hsend
      disabled := fun hne => absurd hphase hne }

theorem inv_disableTargets (published : Bool) (hinv : Inv s) (ha : s.app = some a)
    (hu : a.update = some u) (hphase : u.phase = .journaled) :
    Inv { s with app := some { a with
      pool := disableTargets a.pool u
      update := if published then some { u with phase := .disabled } else none } } := by
  have hupd := (hinv.app a ha).updating u hu
  have hnil : s.uncertain = [] := hupd.unsent (by rw [hphase]; decide)
  cases published with
  | false => exact .of_certain hnil rfl rfl
  | true =>
    refine ⟨hinv.listed, ?_⟩
    rintro _ ⟨⟩
    have hj := durable_of_update hinv ha hu
    refine ⟨fun hun => absurd (hj.symm.trans hun) (by decide), by simp [hnil], ?_⟩
    rintro _ ⟨⟩
    exact {
      named := hupd.named
      unsent := fun _ => hnil
      within := hupd.within
      sent := nofun
      disabled := fun _ w hw hid => disableTargets_disabled hw hid }

theorem inv_send (hinv : Inv s) (ha : s.app = some a) (hu : a.update = some u)
    (hphase : u.phase = .disabled) :
    Inv { s with
      app := some { a with update := some { u with phase := .sending } }
      uncertain := s.uncertain ++ u.targets } := by
  have hupd := (hinv.app a ha).updating u hu
  have hnil : s.uncertain = [] := hupd.unsent (by rw [hphase]; decide)
  have hdisabled := hupd.disabled (by rw [hphase]; decide)
  rw [hnil, nil_append]
  refine ⟨hupd.named, ?_⟩
  rintro _ ⟨⟩
  have hj := durable_of_update hinv ha hu
  refine ⟨fun hun => absurd (hj.symm.trans hun) (by decide), hdisabled, ?_⟩
  rintro _ ⟨⟩
  exact {
    named := hupd.named
    unsent := fun hne => absurd rfl hne
    within := fun _ hid => hid
    sent := fun _ _ hid => hid
    disabled := fun _ => hdisabled }

/-- A broadcast ends: its targets are certain again, or stay disabled and journaled. -/
theorem inv_finish (io : JournalIo) (hinv : Inv s) (ha : s.app = some a) (hu : a.update = some u) :
    Inv (s.finish a u results io) := by
  have hupd := (hinv.app a ha).updating u hu
  have hj := durable_of_update hinv ha hu
  unfold World.finish finishUpdate restoreAdminDisabledState
  cases hsafe : outcomeSafe results with
  | true =>
    refine .of_certain ?_ rfl rfl
    exact filter_eq_nil_iff.mpr fun id hid => by simpa using hupd.within id hid
  | false =>
    refine ⟨fun c hc id hid => ?_, ?_⟩
    · have hid' := hupd.within id hid
      rw [hj] at hc
      exact keep_names hid' (fun c hc => hupd.named c hc id hid') hc
    · rintro _ ⟨⟩
      refine ⟨fun hun => absurd (hj.symm.trans hun) (by decide), ?_, by rintro _ ⟨⟩⟩
      intro w hw hid
      exact disableTargets_disabled hw (hupd.within _ hid)

/-! ## The registry routes -/

theorem Inv.idle (hj : a.journal = .durable) (ha : s.app = some a) (hu : a.update = none)
    (hlisted : ∀ c, s.file.Possible c → ∀ id ∈ s.uncertain, c.Names id)
    (hquarantined : ∀ w ∈ a.pool.workers, w.workerId ∈ s.uncertain → w.disabled = true) :
    Inv s where
  listed := hlisted
  app := by
    intro b hb
    rw [ha] at hb
    cases hb
    exact ⟨fun hun => absurd (hj.symm.trans hun) (by decide), hquarantined, by simp [hu]⟩

theorem mem_afterRequest : id ∈ afterRequest uncertain asked file ↔
      id ∈ uncertain ∧ (asked id = true → ∀ c, file.Possible c → c.Names id) := by
  unfold afterRequest
  rw [mem_filter]
  cases asked id <;> simp [Possible]

theorem inv_createWorker {worker : Worker} {q : Pool} (hinv : Inv s) (ha : s.app = some a)
    (hu : a.update = none) (hq : createWorker a.journal s.file a.pool worker readable = .ok q) :
    Inv { s with app := some { a with pool := q } } := by
  have happ := hinv.app a ha
  cases hj : a.journal with
  | unavailable => exact .of_certain (happ.unavailable hj).1 rfl hu
  | durable =>
    rw [hj] at hq
    refine .idle rfl rfl hu hinv.listed fun w hw hid => ?_
    rcases createWorker_cases hq hw with hw | hd | ⟨rfl, hnot⟩
    · exact happ.quarantined w hw hid
    · exact hd
    · exact absurd (hinv.listed _ s.file.possible_visible _ hid) hnot

variable {env : RouterEnv} {t : World} {e : Event}

theorem inv_updateWorker (r : UpdateRequest) (voiceOwner : Option String) (authReadable : Bool)
    (io : JournalIo) (hinv : Inv s) (ha : s.app = some a) (hu : a.update = none) :
    let result := applyWorkerUpdate env.admin a.journal s.file a.pool r voiceOwner authReadable io
    Inv {
      app := some { a with pool := result.1 }
      file := result.2.1
      uncertain := afterRequest s.uncertain (asksToEnable a.pool r) result.2.1 } := by
  intro result
  have happ := hinv.app a ha
  cases hj : a.journal with
  | unavailable =>
    refine .of_certain ?_ rfl hu
    rw [(happ.unavailable hj).1]
    rfl
  | durable =>
    have hlisted : ∀ c, result.2.1.Possible c →
        ∀ id ∈ afterRequest s.uncertain (asksToEnable a.pool r) result.2.1, c.Names id := by
      intro c hc id hid
      obtain ⟨hmem, hkept⟩ := mem_afterRequest.mp hid
      cases hasked : asksToEnable a.pool r id with
      | true => exact hkept hasked c hc
      | false =>
        simp only [result, hj] at hc
        exact applyWorkerUpdate_names (fun c hc => hinv.listed c hc id hmem) hasked hc
    refine .idle rfl rfl hu hlisted fun w hw hid => ?_
    have hmem := (mem_afterRequest.mp hid).1
    have hnms := hlisted _ result.2.1.possible_visible _ hid
    simp only [result, hj] at hnms hw
    refine applyWorkerUpdate_disabled ?_ hnms hw
    intro v hv hvw
    exact happ.quarantined v hv (hvw ▸ hmem)

section

variable (hinv : Inv s)
include hinv

theorem inv_resolveJournal {acknowledge : Bool} {write : WriteOutcome} (ha : s.app = some a)
    (hu : a.update = none) :
    Inv { s with
      file := (resolveWeightUpdateJournal a.journal s.file acknowledge write).1
      uncertain := afterRequest s.uncertain (fun _ => acknowledge)
        (resolveWeightUpdateJournal a.journal s.file acknowledge write).1 } := by
  have happ := hinv.app a ha
  cases hj : a.journal with
  | unavailable =>
    refine .of_certain ?_ ha hu
    rw [(happ.unavailable hj).1]
    rfl
  | durable =>
    refine .idle hj ha hu ?_ ?_
    · intro c hc id hid
      obtain ⟨hmem, hkept⟩ := mem_afterRequest.mp hid
      cases acknowledge with
      | true => exact hkept rfl c hc
      | false => exact hinv.listed c hc id hmem
    · intro w hw hid
      exact happ.quarantined w hw (mem_afterRequest.mp hid).1

/-! ## Starting, crashing and running -/

theorem inv_start {journal : Journal} {pool : Pool}
    (husable : StateDirUsable s (.start journal pool readable)) : Inv { s with
      app := some ⟨journal, recoverWorkerPoolFromJournal journal s.file readable pool, none⟩ } := by
  cases journal with
  | unavailable => exact .of_certain husable rfl rfl
  | durable =>
    refine .idle rfl rfl rfl hinv.listed fun w hw hid => ?_
    exact recoverWorkerPoolFromJournal_disabled hw (hinv.listed _ s.file.possible_visible _ hid)

theorem inv_corrupt :
    Inv { s with file := (s.file.replace .unreadable .failedAfter).1 } where
  listed := by
    intro c hc id hid
    rcases replace_possible hc with rfl | hc
    · trivial
    · exact hinv.listed c hc id hid
  app := by
    intro a ha
    have happ := hinv.app a ha
    refine ⟨happ.unavailable, happ.quarantined, fun u hu => ?_⟩
    have hupd := happ.updating u hu
    refine ⟨fun c hc id hid => ?_, hupd.unsent, hupd.within, hupd.sent, hupd.disabled⟩
    rcases replace_possible hc with rfl | hc
    · trivial
    · exact hupd.named c hc id hid

theorem inv_stepUpdate (ha : s.app = some a) (hu : a.update = some u)
    (hst : stepUpdate s a u e = some t) : Inv t := by
  unfold stepUpdate at hst
  split at hst
  next published =>
    obtain ⟨hphase, ⟨⟩⟩ := of_guard hst
    exact inv_disableTargets published hinv ha hu hphase
  next acked io =>
    split at hst
    next hphase =>
      split at hst <;> cases hst
      · exact inv_send hinv ha hu hphase
      · exact inv_finish _ _ hinv ha hu
      · exact inv_finish _ _ hinv ha hu
    next => cases hst
  next results io =>
    cases (of_guard hst).2
    exact inv_finish _ _ hinv ha hu
  all_goals cases hst
  all_goals exact hinv

theorem inv_stepRegistry (ha : s.app = some a) (hu : a.update = none)
    (hst : stepRegistry env s a e = some t) : Inv t := by
  unfold stepRegistry at hst
  split at hst
  next path io =>
    cases hst
    exact inv_beginUpdate hinv ha hu
  next =>
    dsimp only at hst
    split at hst <;> cases hst
    next => exact hinv
    next q hq => exact inv_createWorker hinv ha hu hq
  next =>
    cases hst
    exact inv_updateWorker _ _ _ _ hinv ha hu
  next =>
    split at hst <;> cases hst
    next => exact hinv
    next q hq =>
      refine hinv.of_tighter ha fun w hw => .inr ⟨w, mem_of_applyWorkerDelete hq hw, rfl, rfl⟩
  next =>
    cases hst
    exact inv_resolveJournal hinv ha hu
  next => cases hst

end

theorem inv_record (url : String) (r : Recording) (hinv : Inv s) (ha : s.app = some a) {hurl} :
    Inv { s with app := some { a with
      pool := a.pool.modify (fun w => if w.url = url then w.record env.health r else w) hurl } } := by
  refine hinv.of_tighter ha (.of_modify fun w _ => .inr ?_)
  split
  · exact (Worker.record_keeps _ _ _).2
  · rfl

theorem inv_step (hinv : Inv s) (hst : step env s e = some t) (husable : StateDirUsable s e) :
    Inv t := by
  unfold step at hst
  split at hst
  next journal pool readable =>
    split at hst <;> cases hst
    exact inv_start hinv husable
  next =>
    cases hst
    exact ⟨hinv.listed, by simp⟩
  next content =>
    obtain ⟨file, hfile, rfl⟩ := map_eq_some_iff.mp hst
    refine ⟨fun c hc id hid => ?_, by simp⟩
    exact hinv.listed c (hostCrash_possible hfile hc) id hid
  next =>
    cases hst
    exact inv_corrupt hinv
  next url r =>
    obtain ⟨a, ha, rfl⟩ := map_eq_some_iff.mp hst
    exact inv_record url r hinv ha
  next =>
    obtain ⟨a, ha, hst⟩ := bind_eq_some_iff.mp hst
    split at hst
    next u hu => exact inv_stepUpdate hinv ha hu hst
    next hu => exact inv_stepRegistry hinv ha hu hst

/-! ## Fail closed -/

theorem inv_of_reachable (h : ((updateSystem env).restrict StateDirUsable).Reachable s) :
    Inv s := by
  refine h.invariant (P := Inv) ?_ ?_
  · intro s hs
    exact .initial hs
  · rintro s e t hinv ⟨hst, husable⟩
    exact inv_step hinv hst husable

theorem uncertain_finish (io : JournalIo) (hid : id ∈ s.uncertain) :
    id ∈ (s.finish a u results io).uncertain ∨ outcomeSafe results = true ∧ id ∈ u.targets := by
  show id ∈ (if outcomeSafe results then _ else _) ∨ _
  cases outcomeSafe results with
  | false => exact .inl hid
  | true =>
    by_cases hmem : id ∈ u.targets
    · exact .inr ⟨rfl, hmem⟩
    · exact .inl (mem_filter.mpr ⟨hid, by simpa using hmem⟩)

theorem uncertain_afterRequest (hid : id ∈ uncertain) : id ∈ afterRequest uncertain asked file ∨
      asked id = true ∧ ∃ c, file.Possible c ∧ ¬ c.Names id := by
  by_cases hmem : id ∈ afterRequest uncertain asked file
  · exact .inl hmem
  · rw [mem_afterRequest] at hmem
    push Not at hmem
    exact .inr (hmem hid)

theorem uncertain_stepUpdate (hupd : UpdateInv s a.pool u) (hst : stepUpdate s a u e = some t)
    (hid : id ∈ s.uncertain) : id ∈ t.uncertain ∨
      ∃ results io, e = .finish (some results) io ∧ (∀ ok ∈ results, ok = true) ∧
        id ∈ u.targets := by
  unfold stepUpdate at hst
  split at hst
  next =>
    split at hst <;> cases hst
    exact .inl hid
  next =>
    split at hst
    next hphase =>
      -- nothing was sent yet, so nothing is uncertain
      have hnil := hupd.unsent (by rw [hphase]; decide)
      rw [hnil] at hid
      cases hid
    next => cases hst
  next results io =>
    split at hst <;> cases hst
    rcases uncertain_finish results io hid with hid | ⟨hsafe, hmem⟩
    · exact .inl hid
    · cases results with
      | none => cases hsafe
      | some results =>
        exact .inr ⟨results, io, rfl, by simpa [outcomeSafe] using hsafe, hmem⟩
  all_goals cases hst
  all_goals exact .inl hid

theorem uncertain_stepRegistry (ha : s.app = some a) (hst : stepRegistry env s a e = some t)
    (hid : id ∈ s.uncertain) :
    id ∈ t.uncertain ∨ OperatorRequests s id e ∧ ∃ c, t.file.Possible c ∧ ¬ c.Names id := by
  unfold stepRegistry at hst
  split at hst
  next =>
    cases hst
    exact .inl hid
  next =>
    dsimp only at hst
    split at hst <;> cases hst
    all_goals exact .inl hid
  next r voiceOwner authReadable io =>
    cases hst
    rcases uncertain_afterRequest hid with hid | ⟨hasked, hc⟩
    · exact .inl hid
    · refine .inr ⟨?_, hc⟩
      unfold asksToEnable at hasked
      simp only [Bool.and_eq_true, beq_iff_eq, Option.any_eq_true] at hasked
      obtain ⟨hd, w, hfind, hw⟩ := hasked
      exact ⟨hd, a, w, ha, hfind, hw⟩
  next =>
    split at hst <;> cases hst
    all_goals exact .inl hid
  next acknowledge write =>
    cases hst
    rcases uncertain_afterRequest hid with hid | ⟨hasked, hc⟩
    · exact .inl hid
    · exact .inr ⟨hasked, hc⟩
  next => cases hst

/-- An id leaves the list only by a complete update, or by an operator's request after
    which the journal may no longer name it. -/
theorem uncertain_step (hinv : Inv s) (hst : step env s e = some t) (hid : id ∈ s.uncertain) :
    id ∈ t.uncertain ∨ CompletesUpdate s id e ∨
    OperatorRequests s id e ∧ ∃ c, t.file.Possible c ∧ ¬ c.Names id := by
  unfold step at hst
  split at hst
  next =>
    split at hst <;> cases hst
    exact .inl hid
  next =>
    cases hst
    exact .inl hid
  next =>
    obtain ⟨file, -, rfl⟩ := map_eq_some_iff.mp hst
    exact .inl hid
  next =>
    cases hst
    exact .inl hid
  next =>
    obtain ⟨a, -, rfl⟩ := map_eq_some_iff.mp hst
    exact .inl hid
  next =>
    obtain ⟨a, ha, hst⟩ := bind_eq_some_iff.mp hst
    split at hst
    next u hu =>
      rcases uncertain_stepUpdate ((hinv.app a ha).updating u hu) hst hid
        with hid | ⟨results, io, rfl, hok, hmem⟩
      · exact .inl hid
      · exact .inr (.inl ⟨hok, a, u, ha, hu, hmem⟩)
    next hu =>
      rcases uncertain_stepRegistry ha hst hid with hid | hreq
      · exact .inl hid
      · exact .inr (.inr hreq)

/-- Every uncertain worker is disabled, whichever crashes and journal errors came before. -/
theorem uncertain_disabled (hinv : Inv s) (ha : s.app = some a) (hw : w ∈ a.pool.workers)
    (hid : w.workerId ∈ s.uncertain) : w.isRoutable = false :=
  Worker.isRoutable_of_disabled ((hinv.app a ha).quarantined w hw hid)

/-- **Broadcasts fail closed**: while an update is being sent its targets are uncertain, no
    uncertain worker is routable, and an id stops being uncertain only by a complete update
    or by an operator's request after which the journal may no longer name it. -/
theorem update_fails_closed (env : RouterEnv) {s : World}
    (h : ((updateSystem env).restrict StateDirUsable).Reachable s) :
    (∀ a u, s.app = some a → a.update = some u → u.phase = .sending →
      ∀ id ∈ u.targets, id ∈ s.uncertain) ∧
    (∀ a, s.app = some a → ∀ w ∈ a.pool.workers, w.workerId ∈ s.uncertain →
      w.isRoutable = false) ∧
    (∀ e t, step env s e = some t → ∀ id ∈ s.uncertain, id ∈ t.uncertain ∨
      CompletesUpdate s id e ∨ OperatorRequests s id e ∧ ∃ c, t.file.Possible c ∧ ¬ c.Names id) := by
  have hinv := inv_of_reachable h
  refine ⟨?_, ?_, ?_⟩
  · intro a u ha hu hphase
    exact ((hinv.app a ha).updating u hu).sent hphase
  · intro a ha w hw hid
    exact uncertain_disabled hinv ha hw hid
  · intro e t hst id hid
    exact uncertain_step hinv hst hid

/-! ## A crash during a broadcast -/

/-- One worker, as the configuration builds it. -/
def exPool : Pool where
  workers := [{ config := ⟨"http://w", none, []⟩, incarnation := "1" }]
  nodup := List.nodup_singleton _

def exEnv : RouterEnv := ⟨.default, ⟨some, false⟩⟩

def exIdle : World := ⟨none, .settled .absent, []⟩

/-- The update is sent, and the router crashes before any answer. -/
def exCrashed : List Event :=
  [.start .durable exPool true, .beginUpdate .updateWeightsFromDisk {}, .disableTargets true,
    .awaitSnapshotAck (some true) {}, .crash]

/-- A restart after which the worker answers its health checks again. -/
def exRestart (journal : Journal) : List Event :=
  [.start journal exPool true, .record "http://w" (.healthResult true ⟨some 200, none, 1⟩),
    .record "http://w" (.healthResult true ⟨some 200, none, 2⟩)]

theorem update_fails_closed_restarted : ∃ s a w,
    ((updateSystem exEnv).restrict StateDirUsable).Reachable s ∧ s.app = some a ∧
      w ∈ a.pool.workers ∧ w.state = .healthy ∧ w.isRoutable = false := by
  have hidle : ((updateSystem exEnv).restrict StateDirUsable).Reachable exIdle :=
    .init ⟨rfl, rfl⟩
  have husable : ∀ e ∈ exCrashed ++ exRestart .durable, ∀ s, StateDirUsable s e := by
    intro e he s
    simp only [exCrashed, exRestart, cons_append, nil_append, mem_cons,
      not_mem_nil, or_false] at he
    rcases he with rfl | rfl | rfl | rfl | rfl | rfl | rfl | rfl <;> trivial
  have hreach := hidle.of_exec_restrict husable rfl
  exact ⟨_, _, _, hreach, rfl, mem_cons_self, rfl,
    (update_fails_closed exEnv hreach).2.1 _ rfl _ mem_cons_self mem_cons_self⟩

/-- Without a usable state directory at the restart the quarantine is lost. -/
theorem routable_without_state_dir : ¬ ∀ (env : RouterEnv) (s : World),
    (updateSystem env).Reachable s → ∀ a, s.app = some a → ∀ w ∈ a.pool.workers,
      w.workerId ∈ s.uncertain → w.isRoutable = false := by
  intro h
  have hidle : (updateSystem exEnv).Reachable exIdle := .init ⟨rfl, rfl⟩
  have hrun : System.exec (step exEnv) exIdle (exCrashed ++ exRestart .unavailable) = some _ := rfl
  have hreach := hidle.of_exec hrun
  have hclosed := h exEnv _ hreach _ rfl _ mem_cons_self mem_cons_self
  exact absurd hclosed (by decide)

end OmniRealtime
