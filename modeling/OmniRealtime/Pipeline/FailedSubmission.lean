import OmniRealtime.Pipeline.Coordinator

/-!
# Failed submissions

A submission that raises, from the call of `submit`, `submit_to_replica` or `stream` to where its
exception leaves: `submit_to_stage` raises or its caller is cancelled, and `stream` then aborts the
request in its `finally`.

1. `FailedSubmission.events`: the steps of the coordinator up to there.
2. `Undone`: the request id and every counter are as they were.
3. `failed_submission_undone_iff`.
-/

namespace OmniRealtime

open List Option Function Function

universe u

/-- A submission with what becomes of its awaits: whether the caller is cancelled in
    `submit_to_stage` instead of an exception, and whether the broadcast of an abort raises. -/
structure FailedSubmission where
  requestId : String
  streaming : Bool
  dpRank : Option Nat
  answer : ResolverAnswer
  cancelled : Bool
  abortRaises : Bool

open FailedSubmission

namespace FailedSubmission

variable {ρ : Type u} (f : FailedSubmission) (s : Coordinator ρ)

/-- The request is registered: nothing raises before the await. -/
def registers : Bool :=
  (s.admission f.requestId f.dpRank).isSome && (s.resolveTerminalStages f.answer).isSome

/-- The steps of the submission until its exception has left the caller. -/
def events : List (CoordEvent ρ) :=
  let handle := s.calls.length
  .submit f.requestId f.streaming f.dpRank f.answer ::
    if f.registers s then
      (if f.cancelled then .submitCancelled handle else .submitFailed handle) ::
        if f.streaming then
          [if f.abortRaises then .abortFailed f.requestId else .abortBroadcast f.requestId,
            .abortTaskDone f.requestId, .streamClosed handle]
        else []
    else []

end FailedSubmission

namespace Coordinator

variable {ρ : Type u}

/-- The id and the counters are as they were: no record, future, queue or task of the id is added,
    and no replica counts more. -/
structure Undone (s t : Coordinator ρ) (requestId : String) : Prop where
  reserved : t.requestIdIsReserved requestId = s.requestIdIsReserved requestId
  request : t.requests requestId = s.requests requestId
  future : t.completionFutures requestId = s.completionFutures requestId
  inflight : ∀ stage, (t.stages stage).list = (s.stages stage).list

theorem Undone.refl (s : Coordinator ρ) (requestId : String) : s.Undone s requestId :=
  ⟨rfl, rfl, rfl, fun _ => rfl⟩

/-! ## Counters -/

theorem ext_list {replicas replicas' : StageReplicas} (h : replicas.list = replicas'.list) :
    replicas = replicas' := by
  cases replicas
  cases replicas'
  cases h
  rfl

theorem modify_modify (replicas : StageReplicas) (dpRank : Nat) :
    (replicas.modify dpRank (· + 1)).modify dpRank (· - 1) = replicas := by
  have hlist : ((replicas.modify dpRank (· + 1)).modify dpRank (· - 1)).list = replicas.list := by
    show (replicas.list.map _).map _ = replicas.list
    rw [List.map_map]
    conv_rhs => rw [← map_id replicas.list]
    refine map_congr_left fun r _ => ?_
    show (if (if r.dpRank = dpRank then { r with inflight := r.inflight + 1 } else r).dpRank =
      dpRank then _ else _) = r
    by_cases hr : r.dpRank = dpRank
    · simp only [hr, if_true, Nat.add_sub_cancel]
      subst hr
      rfl
    · simp only [hr, if_false]
  exact ext_list hlist

theorem modify_ne {replicas : StageReplicas} {dpRank : Nat}
    (h : dpRank ∈ replicas.list.map ReplicaInfo.dpRank) :
    (replicas.modify dpRank (· + 1)).list ≠ replicas.list := by
  intro heq
  obtain ⟨r, hr, rfl⟩ := mem_map.1 h
  obtain ⟨i, hi, rfl⟩ := getElem_of_mem hr
  have hat : (replicas.modify replicas.list[i].dpRank (· + 1)).list[i]? = replicas.list[i]? := by
    rw [heq]
  rw [show (replicas.modify replicas.list[i].dpRank (· + 1)).list = replicas.list.map _ from rfl,
    getElem?_map, getElem?_eq_getElem hi, map_some, if_pos rfl] at hat
  have hcnt := congrArg ReplicaInfo.inflight (some.inj hat)
  exact absurd hcnt (Nat.succ_ne_self _)

/-! ## A registered request -/

/-- A coordinator with a call whose replica's counter may still count it. -/
structure Charged (s t : Coordinator ρ) (h dpRank : Nat) (c : Call ρ) (charged : Bool) : Prop where
  entry : t.entryStage = s.entryStage
  call : t.calls[h]? = some c
  stage : c.info.currentStage = some s.entryStage
  owner : c.info.ownerDpRank = if charged then some dpRank else none
  stages : t.stages = if charged then Function.update s.stages s.entryStage
    ((s.stages s.entryStage).modify dpRank (· + 1)) else s.stages
  rank : dpRank ∈ (s.stages s.entryStage).list.map ReplicaInfo.dpRank

/-- The tables of one id. -/
structure Holds (t : Coordinator ρ) (requestId : String) (h : Nat) (queue : Option Nat)
    (task : Option AbortTask) : Prop where
  request : t.requests requestId = some h
  future : t.completionFutures requestId = some h
  queue : t.streamQueues requestId = queue
  task : t.abortTasks requestId = task

variable {s t : Coordinator ρ} {h dpRank : Nat} {c : Call ρ} {charged : Bool} {requestId : String}
  {queue : Option Nat} {task : Option AbortTask}

theorem exists_replicaFor {stage : String} {f : Nat → Nat} {replicas : StageReplicas}
    (hstg : t.stages stage = replicas.modify dpRank f)
    (h : dpRank ∈ replicas.list.map ReplicaInfo.dpRank) :
    ∃ replica, t.replicaFor stage dpRank = some replica := by
  obtain ⟨r, hr, hrank⟩ := mem_map.1 h
  refine isSome_iff_exists.1 (find?_isSome.2
    ⟨if r.dpRank = dpRank then { r with inflight := f r.inflight } else r, ?_, ?_⟩)
  · rw [hstg]
    exact mem_map_of_mem hr
  · rw [if_pos hrank]
    exact decide_eq_true hrank

theorem Holds.release (ht : Holds t requestId h queue task) (h' : Nat) :
    Holds (t.releaseReplica h') requestId h queue task := by
  unfold releaseReplica
  split
  · exact ht
  · split
    · exact ht
    · dsimp only
      split
      · exact ⟨ht.request, ht.future, ht.queue, ht.task⟩
      · exact ⟨ht.request, ht.future, ht.queue, ht.task⟩

theorem Charged.release (hc : Charged s t h dpRank c charged) :
    ∃ c', Charged s (t.releaseReplica h) h dpRank c' false ∧ c'.requestId = c.requestId ∧
      c'.info.state = c.info.state ∧ c'.phase = c.phase := by
  cases charged with
  | false =>
    refine ⟨c, ?_, rfl, rfl, rfl⟩
    unfold releaseReplica
    rw [hc.call]
    dsimp only
    rw [hc.owner]
    exact hc
  | true =>
    have hat : t.stages s.entryStage = (s.stages s.entryStage).modify dpRank (· + 1) := by
      rw [hc.stages, if_pos rfl, update_self]
    obtain ⟨replica, hreplica⟩ := exists_replicaFor hat hc.rank
    refine ⟨{ c with
      releases := c.releases + 1
      info := { c.info with ownerDpRank := none, ownerEndpoint := none } }, ?_, rfl, rfl, rfl⟩
    unfold releaseReplica
    rw [hc.call]
    dsimp only
    rw [hc.owner, if_pos rfl]
    dsimp only
    have hstg : c.info.currentStage.getD t.entryStage = s.entryStage := by
      rw [hc.stage]
      rfl
    rw [hstg, hreplica]
    refine ⟨hc.entry, ?_, hc.stage, rfl, ?_, hc.rank⟩
    · show (t.calls.modify h _)[h]? = _
      rw [getElem?_modify, hc.call]
      simp
    · show update t.stages s.entryStage _ = s.stages
      rw [hat, modify_modify, hc.stages, if_pos rfl, update_idem, update_eq_self]

/-! ## Up to the end of the caller -/

theorem not_reserved_of_admission {id : String} {dpRank : Option Nat} {r : ReplicaInfo × Nat}
    (h : s.admission id dpRank = some r) : s.requests id = none ∧ s.completionFutures id = none ∧
      s.streamQueues id = none ∧ s.abortTasks id = none := by
  unfold admission at h
  split at h
  · cases h
  · next hopen =>
    rw [not_or] at hopen
    have hreserved := hopen.2
    unfold requestIdIsReserved at hreserved
    simp only [Bool.or_eq_true, not_or, not_isSome_iff_eq_none] at hreserved
    obtain ⟨⟨⟨hreq, hf⟩, hq⟩, htk⟩ := hreserved
    exact ⟨hreq, hf, hq, htk⟩

theorem resolveTerminalStages_of_eq (answer : ResolverAnswer)
    (h : t.terminalStages = s.terminalStages) :
    t.resolveTerminalStages answer = s.resolveTerminalStages answer := by
  unfold resolveTerminalStages
  rw [h]

theorem submitRequest_of_resolved {id : String} {streaming : Bool} {dpRank : Option Nat}
    {answer : ResolverAnswer} {r : ReplicaInfo} {cursor : Nat} {terminals : Finset String}
    (hadmission : s.admission id dpRank = some (r, cursor))
    (htms : s.resolveTerminalStages answer = some terminals) :
    s.submitRequest id streaming dpRank answer =
      { s.modifyReplica s.entryStage r.dpRank (· + 1) with
        rrCursors := Function.update s.rrCursors s.entryStage cursor
        calls := s.calls ++ [{
          requestId := id
          streaming := streaming
          info := {
            state := .pending
            currentStage := some s.entryStage
            terminalStages := terminals
            ownerEndpoint := some r.endpoint
            ownerDpRank := some r.dpRank } }]
        requests := Function.update s.requests id (some s.calls.length)
        completionFutures := Function.update s.completionFutures id (some s.calls.length)
        streamQueues :=
          if streaming then Function.update s.streamQueues id (some s.calls.length)
          else s.streamQueues } := by
  unfold submitRequest
  rw [hadmission]
  dsimp only
  rw [resolveTerminalStages_of_eq answer (s := s), htms]
  · rfl
  · rfl

theorem submitRequest_of_rejected {id : String} {streaming : Bool} {dpRank : Option Nat}
    {answer : ResolverAnswer} {r : ReplicaInfo} {cursor : Nat}
    (hadmission : s.admission id dpRank = some (r, cursor))
    (hresolve : s.resolveTerminalStages answer = none) :
    s.submitRequest id streaming dpRank answer =
      { s.modifyReplica s.entryStage r.dpRank (· + 1) with
        rrCursors := Function.update s.rrCursors s.entryStage cursor } := by
  unfold submitRequest
  rw [hadmission]
  dsimp only
  rw [resolveTerminalStages_of_eq answer (s := s), hresolve]
  · rfl
  · rfl

variable {f : FailedSubmission}

/-- The state in which a submission awaits `submit_to_stage`. -/
theorem submitRequest_registered (hreg : f.registers s = true) :
    ∃ dpRank c, Charged s (s.submitRequest f.requestId f.streaming f.dpRank f.answer)
        s.calls.length dpRank c true ∧
      Holds (s.submitRequest f.requestId f.streaming f.dpRank f.answer) f.requestId
        s.calls.length (if f.streaming then some s.calls.length else none) none ∧
      c.requestId = f.requestId ∧ c.streaming = f.streaming ∧ c.info.state = .pending ∧
      c.phase = .submitting := by
  obtain ⟨hadmits, hresolves⟩ := Bool.and_eq_true_iff.1 hreg
  obtain ⟨⟨r, cursor⟩, hadmission⟩ := isSome_iff_exists.1 hadmits
  obtain ⟨terminals, htms⟩ := isSome_iff_exists.1 hresolves
  obtain ⟨hfree, hrank⟩ := admission_eq_some hadmission
  obtain ⟨-, -, hq, htk⟩ := not_reserved_of_admission hadmission
  rw [submitRequest_of_resolved hadmission htms]
  refine ⟨r.dpRank, _, ⟨rfl, getElem?_concat_length, rfl, rfl, rfl, hrank⟩,
    ⟨update_self .., update_self .., ?_, htk⟩, rfl, rfl, rfl, rfl⟩
  cases f.streaming with
  | true => exact update_self ..
  | false => exact hq

theorem Charged.modifyCall (hc : Charged s t h dpRank c charged) {f : Call ρ → Call ρ}
    (hinfo : (f c).info.currentStage = c.info.currentStage ∧
      (f c).info.ownerDpRank = c.info.ownerDpRank) :
    Charged s (t.modifyCall h f) h dpRank (f c) charged where
  entry := hc.entry
  call := by
    show (t.calls.modify h f)[h]? = _
    rw [getElem?_modify, hc.call]
    simp
  stage := hinfo.1.trans hc.stage
  owner := hinfo.2.trans hc.owner
  stages := hc.stages
  rank := hc.rank

theorem Holds.modifyCall (ht : Holds t requestId h queue task) (h' : Nat) (f : Call ρ → Call ρ) :
    Holds (t.modifyCall h' f) requestId h queue task :=
  ⟨ht.request, ht.future, ht.queue, ht.task⟩

theorem Holds.setTask (ht : Holds t requestId h queue task) (task' : Option AbortTask) :
    Holds { t with abortTasks := Function.update t.abortTasks requestId task' } requestId h queue
      task' :=
  ⟨ht.request, ht.future, ht.queue, update_self ..⟩

theorem leaveStream_closing (hc : Charged s t h dpRank c charged)
    (ht : Holds t requestId h (some h) none) (hp : c.info.state = .pending) :
    t.leaveStream h requestId = { t with
      abortTasks := Function.update t.abortTasks requestId (some .broadcasting) }.setPhase h
        .closing := by
  unfold leaveStream
  rw [if_pos ⟨ht.queue, by rw [ht.request]; rfl⟩]
  have hsrt : t.startAbort requestId = ({ t with
      abortTasks := update t.abortTasks requestId (some .broadcasting) }, true) := by
    unfold startAbort
    rw [ht.task, ht.request, bind_some, hc.call, if_neg (by simp)]
    dsimp only
    rw [hp, if_neg (by simp [RequestState.isTerminal])]
  rw [hsrt]
  rfl

/-- The state in which `stream` awaits its abort. -/
structure Closing (s t : Coordinator ρ) (requestId : String) (h dpRank : Nat) (task : AbortTask) :
    Prop where
  charged : ∃ c charged, Charged s t h dpRank c charged ∧ c.phase = .closing ∧
    c.requestId = requestId
  holds : Holds t requestId h (some h) (some task)

theorem closing_of_leaveStream (hc : Charged s t h dpRank c charged)
    (ht : Holds t requestId h (some h) none) (hp : c.info.state = .pending)
    (hid : c.requestId = requestId) :
    Closing s (t.leaveStream h requestId) requestId h dpRank .broadcasting := by
  rw [leaveStream_closing hc ht hp]
  have hc' : Charged s { t with
      abortTasks := update t.abortTasks requestId (some .broadcasting) } h dpRank c
      charged := ⟨hc.entry, hc.call, hc.stage, hc.owner, hc.stages, hc.rank⟩
  exact ⟨⟨_, charged, hc'.modifyCall ⟨rfl, rfl⟩, rfl, hid⟩, (ht.setTask _).modifyCall h _⟩

theorem leave_submitting (hc : Charged s t h dpRank c true) (ht : Holds t f.requestId h queue none)
    (hsubmitting : c.phase = .submitting) (hid : c.requestId = f.requestId)
    (hp : c.info.state = .pending) :
    ∃ t₂ c₂ charged, coordStep t (if f.cancelled then .submitCancelled h else .submitFailed h) =
        some (t₂.leaveCall h c) ∧ Charged s t₂ h dpRank c₂ charged ∧
      Holds t₂ f.requestId h queue none ∧ c₂.requestId = f.requestId ∧
      c₂.info.state = .pending := by
  cases f.cancelled with
  | true =>
    refine ⟨t, c, true, ?_, hc, ht, hid, hp⟩
    rw [if_pos rfl]
    dsimp only [coordStep]
    rw [hc.call]
    dsimp only
    rw [if_pos hsubmitting]
  | false =>
    obtain ⟨c₂, hc₂, hid₂, hstt₂, -⟩ := hc.release
    refine ⟨t.releaseReplica h, c₂, false, ?_, hc₂, ht.release h, hid₂.trans hid,
      hstt₂.trans hp⟩
    rw [if_neg (by simp)]
    dsimp only [coordStep]
    rw [hc.call]
    dsimp only
    rw [if_pos hsubmitting, hid, ht.request]

theorem Charged.reject (hc : Charged s t h dpRank c charged)
    (ht : Holds t requestId h queue task) (exc : Outcome ρ) :
    ∃ c', Charged s (t.rejectCompletionFuture requestId exc) h dpRank c' charged ∧
      Holds (t.rejectCompletionFuture requestId exc) requestId h queue task ∧
      c'.phase = c.phase ∧ c'.requestId = c.requestId := by
  unfold rejectCompletionFuture settle
  rw [ht.future]
  generalize (if (t.streamQueues requestId).isSome then Outcome.cancelled else exc) = outcome
  refine ⟨_, hc.modifyCall ?_, ht.modifyCall h _, ?_, ?_⟩
  · split
    · exact ⟨rfl, rfl⟩
    · exact ⟨rfl, rfl⟩
  · split
    · rfl
    · rfl
  · split
    · rfl
    · rfl

/-- The broadcast of the abort has returned or raised. -/
theorem Closing.broadcast_ok (hcl : Closing s t requestId h dpRank .broadcasting) :
    ∃ t', coordStep t (.abortBroadcast requestId) = some t' ∧
      t'.requests requestId = none ∧ t'.stages = s.stages ∧
      t'.streamQueues requestId = some h ∧ t'.abortTasks requestId = some .finished ∧
      ∃ c, t'.calls[h]? = some c ∧ c.phase = .closing ∧ c.requestId = requestId := by
  obtain ⟨c, charged, hc, hph, hid⟩ := hcl.charged
  have hc₁ := hc.modifyCall (f := fun c => { c with info := { c.info with state := .aborted } })
    ⟨rfl, rfl⟩
  have ht₁ := hcl.holds.modifyCall h fun c => { c with info := { c.info with state := .aborted } }
  obtain ⟨c₂, hc₂, ht₂, hph₂, hid₂⟩ :=
    hc₁.reject ht₁ (.exception s!"Request {requestId} aborted")
  obtain ⟨c₃, hc₃, hid₃, -, hph₃⟩ := hc₂.release
  have ht₃ := ht₂.release h
  have hrun : t.runAbort requestId = ((((t.setState h .aborted).rejectCompletionFuture requestId
      (.exception s!"Request {requestId} aborted")).releaseReplica h).forget requestId).dropPartials
        requestId := by
    unfold runAbort
    rw [hcl.holds.request]
  refine ⟨_, if_pos hcl.holds.task, ?_, ?_, ?_, update_self .., c₃, ?_,
    hph₃.trans (hph₂.trans hph), hid₃.trans (hid₂.trans hid)⟩
  · rw [hrun]
    exact update_self ..
  · rw [hrun]
    exact hc₃.stages
  · rw [hrun]
    exact ht₃.queue
  · rw [hrun]
    exact hc₃.call

theorem Closing.broadcast_raises (hcl : Closing s t requestId h dpRank .broadcasting) :
    ∃ t', coordStep t (.abortFailed requestId) = some t' ∧
      Closing s t' requestId h dpRank .finished := by
  obtain ⟨c, charged, hc, hph, hid⟩ := hcl.charged
  refine ⟨_, if_pos hcl.holds.task, ⟨c, charged, ?_, hph, hid⟩, hcl.holds.setTask _⟩
  exact ⟨hc.entry, hc.call, hc.stage, hc.owner, hc.stages, hc.rank⟩

theorem exec_cons_of_step {e : CoordEvent ρ} {es : List (CoordEvent ρ)} {u : Coordinator ρ}
    (hs : coordStep s e = some u) :
    System.exec coordStep s (e :: es) = System.exec coordStep u es := by
  show (coordStep s e).bind _ = _
  rw [hs]
  rfl

/-- A record that was not there before is left. -/
theorem not_undone_of_request (hfree : s.requests requestId = none)
    (h : t.requests requestId ≠ none) : ¬Undone s t requestId := fun hundone =>
  h (hundone.request.trans hfree)

/-- The counter goes up before the resolver is asked. -/
theorem not_undone_of_resolver {r : ReplicaInfo × Nat}
    (hadmission : s.admission f.requestId f.dpRank = some r)
    (hresolve : s.resolveTerminalStages f.answer = none) :
    ¬Undone s (s.submitRequest f.requestId f.streaming f.dpRank f.answer) f.requestId := by
  obtain ⟨r, cursor⟩ := r
  obtain ⟨-, hrank⟩ := admission_eq_some hadmission
  intro hundone
  have hstg := hundone.inflight s.entryStage
  rw [submitRequest_of_rejected hadmission hresolve] at hstg
  have hat : ((s.modifyReplica s.entryStage r.dpRank (· + 1)).stages s.entryStage).list =
      ((s.stages s.entryStage).modify r.dpRank (· + 1)).list := by
    show (update s.stages s.entryStage _ s.entryStage).list = _
    rw [update_self]
  exact modify_ne hrank (hat.symm.trans hstg)

theorem events_of_registers (hreg : f.registers s = true) :
    f.events s = .submit f.requestId f.streaming f.dpRank f.answer ::
      (if f.cancelled then .submitCancelled s.calls.length else .submitFailed s.calls.length) ::
        if f.streaming then
          [if f.abortRaises then .abortFailed f.requestId else .abortBroadcast f.requestId,
            .abortTaskDone f.requestId, .streamClosed s.calls.length]
        else [] := by
  dsimp only [events]
  rw [if_pos hreg]

/-- `submit` and `submit_to_replica` end where `submit_to_stage` raises. -/
theorem not_undone_of_submit (hreg : f.registers s = true) (hsubmit : f.streaming = false) :
    ∃ t, System.exec coordStep s (f.events s) = some t ∧ ¬Undone s t f.requestId := by
  obtain ⟨dpRank, c, hc, ht, hid, hstm, hp, hph⟩ := submitRequest_registered hreg
  obtain ⟨t₂, c₂, charged, hs, -, ht₂, -, -⟩ := leave_submitting hc ht hph hid hp
  obtain ⟨r, hadmission⟩ := isSome_iff_exists.1 (Bool.and_eq_true_iff.1 hreg).1
  have hleave : t₂.leaveCall s.calls.length c = t₂.setPhase s.calls.length .gone := by
    unfold leaveCall
    rw [hstm, hsubmit, if_neg (by simp)]
  refine ⟨t₂.setPhase s.calls.length .gone, ?_,
    not_undone_of_request (not_reserved_of_admission hadmission).1 ?_⟩
  · rw [events_of_registers hreg, exec_cons_of_step rfl, exec_cons_of_step hs, hleave, hsubmit]
    rfl
  · show t₂.requests f.requestId ≠ none
    rw [ht₂.request]
    simp

theorem closes (htk : t.abortTasks requestId = some .finished) (hcall : t.calls[h]? = some c)
    (hph : c.phase = .closing) (hid : c.requestId = requestId)
    (hq : t.streamQueues requestId = some h) :
    ∃ t', System.exec coordStep t [.abortTaskDone requestId, .streamClosed h] = some t' ∧
      t'.requests = t.requests ∧ t'.stages = t.stages ∧ t'.completionFutures requestId = none ∧
      t'.streamQueues requestId = none ∧ t'.abortTasks requestId = none := by
  let done := { t with abortTasks := update t.abortTasks requestId none }
  have hdone : coordStep t (.abortTaskDone requestId) = some done := if_pos htk
  have hclosed : coordStep done (.streamClosed h) = some (done.closeStream h requestId) := by
    dsimp only [coordStep]
    rw [show done.calls[h]? = some c from hcall]
    dsimp only
    rw [if_pos hph, hid]
  have hclose : done.closeStream h requestId = { done.setPhase h .gone with
      streamQueues := update done.streamQueues requestId none
      completionFutures := update done.completionFutures requestId none } := if_pos hq
  refine ⟨done.closeStream h requestId, ?_, ?_⟩
  · rw [exec_cons_of_step hdone, exec_cons_of_step hclosed]
    rfl
  · rw [hclose]
    exact ⟨rfl, rfl, update_self .., update_self .., update_self ..⟩

/-- `stream` ends where its abort does. -/
theorem stream_undone_iff (hreg : f.registers s = true) (hstream : f.streaming = true) :
    ∃ t, System.exec coordStep s (f.events s) = some t ∧
      (Undone s t f.requestId ↔ f.abortRaises = false) := by
  obtain ⟨dpRank, c, hc, ht, hid, hstm, hp, hph⟩ := submitRequest_registered hreg
  obtain ⟨t₂, c₂, charged, hs, hc₂, ht₂, hid₂, hp₂⟩ :=
    leave_submitting hc ht hph hid hp
  rw [hstream, if_pos rfl] at ht₂
  obtain ⟨r, hadmission⟩ := isSome_iff_exists.1 (Bool.and_eq_true_iff.1 hreg).1
  obtain ⟨hreq₀, hf₀, hq₀, htk₀⟩ := not_reserved_of_admission hadmission
  have hleave : t₂.leaveCall s.calls.length c = t₂.leaveStream s.calls.length f.requestId := by
    unfold leaveCall
    rw [hstm, hstream, if_pos rfl, hid]
  have hclg := closing_of_leaveStream hc₂ ht₂ hp₂ hid₂
  rw [events_of_registers hreg, exec_cons_of_step rfl, exec_cons_of_step hs, hleave, hstream,
    if_pos rfl]
  cases f.abortRaises with
  | true =>
    obtain ⟨t₃, hs₃, hclg₃⟩ := hclg.broadcast_raises
    obtain ⟨c₃, charged₃, hc₃, hph₃, hid₃⟩ := hclg₃.charged
    obtain ⟨t', hexec, hrequests, -⟩ :=
      closes hclg₃.holds.task hc₃.call hph₃ hid₃ hclg₃.holds.queue
    rw [if_pos rfl, exec_cons_of_step hs₃]
    refine ⟨t', hexec, iff_of_false (not_undone_of_request hreq₀ ?_) (by simp)⟩
    rw [hrequests, hclg₃.holds.request]
    simp
  | false =>
    obtain ⟨t₃, hs₃, hreq, hstages, hq, htk, c₃, hcall, hph₃, hid₃⟩ :=
      hclg.broadcast_ok
    obtain ⟨t', hexec, hrequests, hstages', hf, hq', htk'⟩ :=
      closes htk hcall hph₃ hid₃ hq
    have hreq' : t'.requests f.requestId = none := by rw [hrequests, hreq]
    rw [if_neg (by simp), exec_cons_of_step hs₃]
    refine ⟨t', hexec, iff_of_true ⟨?_, ?_, ?_, fun stage => ?_⟩ rfl⟩
    · unfold requestIdIsReserved
      rw [hreq', hf, hq', htk', hreq₀, hf₀, hq₀, htk₀]
    · rw [hreq', hreq₀]
    · rw [hf, hf₀]
    · rw [hstages', hstages]

end Coordinator

open Coordinator in
/-- A submission that raises leaves the id and the counters as they were exactly where nothing was
    admitted, or where `submit_to_stage` raised under `stream` and the abort that follows is
    broadcast. -/
theorem failed_submission_undone_iff {ρ : Type u} (s : Coordinator ρ) (f : FailedSubmission) :
    ∃ t, System.exec coordStep s (f.events s) = some t ∧
      (Undone s t f.requestId ↔ s.admission f.requestId f.dpRank = none ∨
        s.resolveTerminalStages f.answer ≠ none ∧ f.streaming = true ∧ f.abortRaises = false) := by
  cases hadmission : s.admission f.requestId f.dpRank with
  | none =>
    have hevents : f.events s = [.submit f.requestId f.streaming f.dpRank f.answer] := by
      unfold events registers
      rw [hadmission]
      rfl
    have hsame : s.submitRequest f.requestId f.streaming f.dpRank f.answer = s := by
      unfold submitRequest
      rw [hadmission]
    refine ⟨s, ?_, iff_of_true (.refl s _) (.inl rfl)⟩
    rw [hevents]
    exact exec_cons_of_step (congrArg some hsame)
  | some r =>
    cases hresolve : s.resolveTerminalStages f.answer with
    | none =>
      have hevents : f.events s = [.submit f.requestId f.streaming f.dpRank f.answer] := by
        unfold events registers
        rw [hadmission, hresolve]
        rfl
      refine ⟨_, ?_, iff_of_false (not_undone_of_resolver hadmission hresolve) (by simp)⟩
      rw [hevents]
      rfl
    | some terminals =>
      have hreg : f.registers s = true := by
        unfold registers
        rw [hadmission, hresolve]
        rfl
      cases hstream : f.streaming with
      | false =>
        obtain ⟨t, hrun, hleft⟩ := not_undone_of_submit hreg hstream
        exact ⟨t, hrun, iff_of_false hleft (by simp)⟩
      | true =>
        obtain ⟨t, hrun, hiff⟩ := stream_undone_iff hreg hstream
        exact ⟨t, hrun, hiff.trans (by simp)⟩

/-- A coordinator with one replica of its entry stage. -/
def exAdmitting : Coordinator Nat :=
  (System.exec coordStep { entryStage := "preprocess", terminalStages := {"decode"} }
    [.registerStage "preprocess" "inproc://preprocess" none none]).getD
      { entryStage := "preprocess", terminalStages := {"decode"} }

/-- A call of `submit` for which `submit_to_stage` raises. -/
def exFailedSubmit : FailedSubmission where
  requestId := "r"
  streaming := false
  dpRank := none
  answer := .unset
  cancelled := false
  abortRaises := false

open Coordinator in
/-- The request is left in the tables, so that it cannot be submitted again. -/
theorem failed_submission_stays : (coordSystem Nat).Reachable exAdmitting ∧
    ∃ t, System.exec coordStep exAdmitting (exFailedSubmit.events exAdmitting) = some t ∧
      ¬Undone exAdmitting t "r" ∧ exAdmitting.requestIdIsReserved "r" = false ∧
      t.requestIdIsReserved "r" = true ∧ t.submitRequest "r" false none .unset = t := by
  have hrun : System.exec coordStep
      ({ entryStage := "preprocess", terminalStages := {"decode"} } : Coordinator Nat)
      [.registerStage "preprocess" "inproc://preprocess" none none] = some exAdmitting := rfl
  refine ⟨.of_exec (.init ⟨_, _, rfl⟩) hrun, _, rfl, fun h => ?_, rfl, rfl, rfl⟩
  exact absurd h.reserved (by decide)

end OmniRealtime
