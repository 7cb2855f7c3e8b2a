import OmniRealtime.Lib.PromiseChain
import OmniRealtime.Pipeline.AbortTombstones
import OmniRealtime.Pipeline.StageOutlet

/-!
# What reaches the scheduler from one lane

The receive tasks of a lane wait for each other, so a stage puts the stream messages of another
stage into its scheduler's inbox in the order in which they came, whatever the reads do.

1. `Delivers`, `SameLanes`: what the body of a handler puts into the inbox.
2. `LaneStep`: what a step does to the receive tasks and to the items from one stage.
-/

namespace OmniRealtime

open List Option

universe u

/-- The handler of the task is over, or fails the request. -/
def TaskPhase.isOver : TaskPhase → Bool
  | .failing | .closing | .done => true
  | _ => false

namespace StageIntake

variable {δ : Type u} {cfg : StageConfig δ} {s t : StageIntake δ} {source requestId : String}
variable {event : IntakeEvent δ}

def streamOf (source requestId : String) (msg : DataReadyMessage δ) : Option (LaneMessage δ) :=
  if msg.fromStage = source ∧ msg.requestId = requestId then
    match msg.handler with
    | .streamSignal => some (.done requestId)
    | .streamChunk chunkId => some (.chunk requestId chunkId msg.object)
    | .dataReady => none
  else none

/-- The stream message of the lane that an item of the inbox stands for. -/
def itemOf (source requestId : String) : Incoming δ → Option (LaneMessage δ)
  | .streamChunk requestId' item =>
    if item.fromStage = source ∧ requestId' = requestId then
      some (.chunk requestId item.chunkId item.data)
    else none
  | .streamDone requestId' fromStage =>
    if fromStage = source ∧ requestId' = requestId then some (.done requestId) else none
  | _ => none

def laneInbox (s : StageIntake δ) (source requestId : String) : List (LaneMessage δ) :=
  s.inbox.filterMap (itemOf source requestId)

/-- The stream messages of the lane that have come in. -/
def laneTasks (s : StageIntake δ) (source requestId : String) : List (LaneMessage δ) :=
  s.tasks.filterMap fun task => streamOf source requestId task.msg

/-- Those whose handler is over. -/
def laneTaken (s : StageIntake δ) (source requestId : String) : List (LaneMessage δ) :=
  s.tasks.filterMap fun task =>
    if task.phase.isOver then streamOf source requestId task.msg else none

theorem streamOf_some {msg : DataReadyMessage δ} {m : LaneMessage δ}
    (h : streamOf source requestId msg = some m) :
    msg.fromStage = source ∧ msg.requestId = requestId := by
  unfold streamOf at h
  split at h
  · next hkey => exact hkey
  · cases h

theorem requestId_of_itemOf {item : Incoming δ} {m : LaneMessage δ}
    (h : itemOf source requestId item = some m) : item.requestId = requestId := by
  unfold itemOf at h
  split at h
  · split at h
    · next hkey => exact hkey.2
    · cases h
  · split at h
    · next hkey => exact hkey.2
    · cases h
  · cases h

theorem laneInbox_eq_inboxOf (s : StageIntake δ) (source requestId : String) :
    s.laneInbox source requestId = (s.inboxOf requestId).filterMap (itemOf source requestId) := by
  unfold laneInbox inboxOf
  rw [filterMap_filter]
  refine filterMap_congr fun item _ => ?_
  split
  · rfl
  · next hne =>
    cases hitem : itemOf source requestId item with
    | none => rfl
    | some m => exact absurd (decide_eq_true (requestId_of_itemOf hitem)) hne

theorem laneInbox_put (s : StageIntake δ) (item : Incoming δ) (source requestId : String) :
    (s.put item).laneInbox source requestId =
      s.laneInbox source requestId ++ (itemOf source requestId item).toList := by
  unfold laneInbox put
  rw [filterMap_append, filterMap_cons]
  cases itemOf source requestId item <;> rfl

/-! ## What the body of a handler puts in -/

/-- No item of the source enters the inbox. -/
def SameLanes (source : String) (s t : StageIntake δ) : Prop :=
  ∀ requestId, t.laneInbox source requestId = s.laneInbox source requestId

theorem SameLanes.of_inbox (h : t.inbox = s.inbox) : SameLanes source s t := fun requestId =>
  congrArg (List.filterMap (itemOf source requestId)) h

theorem SameLanes.trans {v : StageIntake δ} (h : SameLanes source s t)
    (h' : SameLanes source t v) : SameLanes source s v := fun requestId =>
  (h' requestId).trans (h requestId)

theorem SameLanes.put (s : StageIntake δ) {item : Incoming δ}
    (hitem : ∀ requestId, itemOf source requestId item = none) :
    SameLanes source s (s.put item) := fun requestId => by
  rw [laneInbox_put, hitem requestId]
  exact append_nil _

/-- A message of the lane enters the inbox, or its request is recorded as aborted. -/
def Delivers (source requestId : String) (m : LaneMessage δ) (s t : StageIntake δ) : Prop :=
  SameLanes source s t ∧ requestId ∈ t.recorded ∨
  t.laneInbox source requestId = s.laneInbox source requestId ++ [m] ∧
    ∀ requestId', requestId' ≠ requestId →
      t.laneInbox source requestId' = s.laneInbox source requestId'

section Bodies

variable {order : List String}

theorem inbox_openPrePayload (ho : s.openPrePayloadStreamIfAllowed cfg requestId = some t) :
    t.inbox = s.inbox := by
  unfold openPrePayloadStreamIfAllowed at ho
  split at ho
  · cases ho
  · split at ho
    · exact some.inj ho ▸ rfl
    · obtain ⟨-, rfl⟩ := of_not_guard ho
      exact rfl

theorem inbox_sendFailure : (s.sendFailure cfg order requestId).1.inbox = s.inbox := by
  unfold sendFailure
  split <;> rfl

theorem inbox_queueStreamError : (s.queueStreamError cfg order requestId).1.inbox = s.inbox := by
  unfold queueStreamError
  split
  · rfl
  · exact inbox_sendFailure

section

variable (s : StageIntake δ)

theorem inbox_receiveInput (requestId fromStage : String) (data : δ) (handler : InputHandler δ) :
    (s.receiveInput requestId fromStage data handler).1.inbox = s.inbox := by
  unfold receiveInput
  split
  · rfl
  · split
    · rfl
    · dsimp only
      split
      · rfl
      · rfl
      · split
        · split <;> rfl
        · split
          · split <;> split <;> rfl
          · split <;> rfl

theorem inbox_beginTask (msg : DataReadyMessage δ) (error : Option String) :
    (s.beginTask msg error).1.inbox = s.inbox := by
  unfold beginTask
  split
  · rfl
  · split
    · rfl
    · dsimp only
      split <;> rfl
  · split
    · rfl
    · split <;> rfl

theorem sameLanes_receivePayload (requestId fromStage : String) (payload : δ) :
    SameLanes source s (s.receivePayloadFromStage cfg requestId fromStage payload).1 := by
  unfold receivePayloadFromStage
  split
  · exact .of_inbox rfl
  · dsimp only
    have ho : (if cfg.hasStreamQueue = true then
        (s.activate requestId).openStream requestId else s.activate requestId).inbox = s.inbox := by
      split <;> rfl
    have hreceived := (inbox_receiveInput _ requestId fromStage payload cfg.inputHandler).trans ho
    split
    · exact .of_inbox hreceived
    · exact .of_inbox hreceived
    · exact (SameLanes.of_inbox hreceived).trans (.put _ fun _ => rfl)

theorem delivers_route (requestId : String) {item : StreamItem δ}
    (hfrom : item.fromStage = source) :
    Delivers source requestId (.chunk requestId item.chunkId item.data) s
      (s.routeStreamItemOrFail cfg order requestId item).1 := by
  unfold routeStreamItemOrFail
  split
  · next ho =>
    have hi : SameLanes source s _ := .of_inbox (inbox_openPrePayload ho)
    refine .inr ⟨?_, fun requestId' hne => ?_⟩
    · rw [laneInbox_put, hi requestId]
      exact congrArg (_ ++ toList ·) (if_pos ⟨hfrom, rfl⟩)
    · rw [laneInbox_put, hi requestId']
      refine (congrArg (_ ++ toList ·) (if_neg fun hkey => ?_)).trans (append_nil _)
      exact hne hkey.2.symm
  · exact .inl ⟨.of_inbox inbox_sendFailure, recorded_of_sendFailure⟩

theorem sameLanes_route (requestId : String) {item : StreamItem δ}
    (hfrom : item.fromStage ≠ source) :
    SameLanes source s (s.routeStreamItemOrFail cfg order requestId item).1 := by
  unfold routeStreamItemOrFail
  split
  · next ho =>
    refine (SameLanes.of_inbox (inbox_openPrePayload ho)).trans (.put _ fun _ => ?_)
    exact if_neg fun hkey => hfrom hkey.1
  · exact .of_inbox inbox_sendFailure

end

theorem delivers_done (hr : Remembers s.aborted s.recorded) (requestId : String) :
    Delivers source requestId (.done requestId) s
      (s.receiveStreamSignal cfg order requestId source true none).1 := by
  unfold receiveStreamSignal
  split
  · next habt => exact .inl ⟨.of_inbox rfl, hr.sub requestId habt⟩
  · dsimp only
    rw [if_neg (by simp), if_pos rfl]
    split
    · next ho =>
      have hi : SameLanes source (s.activate requestId) _ :=
        .of_inbox (inbox_openPrePayload ho)
      refine .inr ⟨?_, fun requestId' hne => ?_⟩
      · rw [laneInbox_put, hi requestId]
        exact congrArg (_ ++ toList ·) (if_pos ⟨rfl, rfl⟩)
      · rw [laneInbox_put, hi requestId']
        refine (congrArg (_ ++ toList ·) (if_neg fun hkey => ?_)).trans (append_nil _)
        exact hne hkey.2.symm
    · exact .inl ⟨.of_inbox inbox_sendFailure, recorded_of_sendFailure⟩

theorem sameLanes_signal (s : StageIntake δ) (requestId : String) {fromStage : String}
    (hfrom : fromStage ≠ source) (isDone : Bool) (error : Option String) :
    SameLanes source s (s.receiveStreamSignal cfg order requestId fromStage isDone error).1 := by
  unfold receiveStreamSignal
  split
  · exact .of_inbox rfl
  · dsimp only
    split
    · exact .of_inbox inbox_queueStreamError
    · split
      · split
        · next ho =>
          refine (SameLanes.of_inbox (inbox_openPrePayload ho)).trans (.put _ fun _ => ?_)
          exact if_neg fun hkey => hfrom hkey.1
        · exact .of_inbox inbox_sendFailure
      · exact .of_inbox rfl

theorem recorded_of_queueStreamError_self (hr : Remembers s.aborted s.recorded) :
    requestId ∈ (s.queueStreamError cfg order requestId).1.recorded := by
  unfold queueStreamError
  split
  · next habt => exact hr.sub requestId habt
  · exact recorded_of_sendFailure

theorem delivers_resume (hr : Remembers s.aborted s.recorded) {msg : DataReadyMessage δ}
    {m : LaneMessage δ} (hpln : msg.error = none)
    (hs : streamOf source requestId msg = some m) (error : Option String) :
    Delivers source requestId m s (s.resumeTask cfg order msg error).1 := by
  obtain ⟨hfrom, hreq⟩ := streamOf_some hs
  unfold streamOf at hs
  rw [if_pos ⟨hfrom, hreq⟩] at hs
  unfold resumeTask
  split
  · next hh =>
    rw [hh] at hs
    cases hs
    have hdone : msg.isDone = true := by
      unfold DataReadyMessage.handler at hh
      split at hh
      · next hsignal => exact hsignal.resolve_right (by rw [hpln]; exact Bool.false_ne_true)
      · split at hh <;> cases hh
    rw [hdone, hpln, hfrom, hreq]
    exact delivers_done hr requestId
  · next hh =>
    rw [hreq]
    exact .inl ⟨.of_inbox inbox_queueStreamError, recorded_of_queueStreamError_self hr⟩
  · next hh =>
    rw [hh] at hs
    cases hs
    split
    · next habt => exact .inl ⟨.of_inbox rfl, hr.sub requestId (hreq ▸ habt)⟩
    · rw [hreq]
      exact delivers_route s requestId hfrom
  · next hh =>
    rw [hh] at hs
    cases hs
  · next hh =>
    rw [hh] at hs
    cases hs

theorem sameLanes_resume (s : StageIntake δ) {msg : DataReadyMessage δ}
    (hnone : streamOf source msg.requestId msg = none) (error : Option String) :
    SameLanes source s (s.resumeTask cfg order msg error).1 := by
  have hfrom : msg.handler ≠ .dataReady → msg.fromStage ≠ source := by
    intro hh hfrom
    unfold streamOf at hnone
    rw [if_pos ⟨hfrom, rfl⟩] at hnone
    split at hnone
    · cases hnone
    · cases hnone
    · next hdata => exact hh hdata
  unfold resumeTask
  split
  · next hh =>
    exact sameLanes_signal s msg.requestId (hfrom (by rw [hh]; exact nofun)) _ _
  · exact .of_inbox inbox_queueStreamError
  · next hh =>
    split
    · exact .of_inbox rfl
    · exact sameLanes_route s msg.requestId (hfrom (by rw [hh]; exact nofun))
  · exact .of_inbox inbox_sendFailure
  · split
    · exact .of_inbox rfl
    · exact sameLanes_receivePayload s msg.requestId msg.fromStage msg.object

/-- Where a handler is left. -/
def Leaves (phase : TaskPhase) : Prop := phase = .failing ∨ phase = .closing

theorem Leaves.isOver {phase : TaskPhase} (h : Leaves phase) : phase.isOver = true := by
  rcases h with rfl | rfl <;> rfl

theorem Leaves.ne_done {phase : TaskPhase} (h : Leaves phase) : phase ≠ .done := by
  rcases h with rfl | rfl <;> exact nofun

theorem leaves_sendFailure : Leaves (s.sendFailure cfg order requestId).2 := by
  unfold sendFailure
  split
  · exact .inl rfl
  · exact .inr rfl

section

variable (s : StageIntake δ) (msg : DataReadyMessage δ) (error : Option String)

theorem leaves_resumeTask : Leaves (s.resumeTask cfg order msg error).2 := by
  have hqu : ∀ {s : StageIntake δ} {requestId},
      Leaves (s.queueStreamError cfg order requestId).2 := by
    intro s requestId
    unfold queueStreamError
    split
    · exact .inr rfl
    · exact leaves_sendFailure
  unfold resumeTask
  split
  · unfold receiveStreamSignal
    split
    · exact .inr rfl
    · dsimp only
      split
      · exact hqu
      · split
        · split
          · exact .inr rfl
          · exact leaves_sendFailure
        · exact .inr rfl
  · exact hqu
  · split
    · exact .inr rfl
    · unfold routeStreamItemOrFail
      split
      · exact .inr rfl
      · exact leaves_sendFailure
  · exact leaves_sendFailure
  · split
    · exact .inr rfl
    · unfold receivePayloadFromStage
      split
      · exact .inr rfl
      · dsimp only
        split <;> exact .inr rfl

theorem beginTask_phase :
    (s.beginTask msg error).2.isOver = false ∧
      ((s.beginTask msg error).2 = .discarding → msg.requestId ∈ s.aborted) := by
  unfold beginTask
  split
  · exact ⟨rfl, nofun⟩
  · split
    · next habt => exact ⟨rfl, fun _ => habt⟩
    · dsimp only
      split <;> exact ⟨rfl, nofun⟩
  · split
    · next habt => exact ⟨rfl, fun _ => habt⟩
    · split <;> exact ⟨rfl, nofun⟩

end

end Bodies

/-! ## Steps -/

/-- No message of the source fails on its way, and no handler of one gives up while its request
    is not recorded as aborted. -/
def SourceKept (source : String) (s : StageIntake δ) (turn : IntakeTurn δ) : Prop :=
  match turn.event with
  | .dataReady msg => msg.fromStage = source → msg.error = none
  | .localChunk _ fromStage _ _ | .localSignal _ fromStage _ _ => fromStage ≠ source
  | .raises h => ∀ task, s.tasks[h]? = some task →
      (streamOf source task.msg.requestId task.msg).isSome → task.msg.requestId ∈ s.recorded
  | _ => True

/-- What a step does to the receive tasks and to the items of the source. -/
inductive LaneStep (source : String) (event : IntakeEvent δ) (s t : StageIntake δ) : Prop
  | pass : t.tasks = s.tasks → t.receiveLaneTails = s.receiveLaneTails → SameLanes source s t →
      LaneStep source event s t
  | schedule (msg : DataReadyMessage δ) : event = .dataReady msg →
      (msg.fromStage = source → msg.error = none) → t = s.scheduleReceiveTask msg →
      LaneStep source event s t
  | move {h : ℕ} {task : ReceiveTask δ} (task' : ReceiveTask δ) : s.tasks[h]? = some task → task.phase ≠ .done →
      task'.msg = task.msg → task'.predecessor = task.predecessor → task'.phase ≠ .done →
      t.tasks = s.tasks.set h task' → t.receiveLaneTails = s.receiveLaneTails →
      SameLanes source s t →
      (task'.phase = .discarding → task.msg.requestId ∈ t.recorded) →
      ((streamOf source task.msg.requestId task.msg).isSome → task.msg.requestId ∉ t.recorded →
        task'.phase.isOver = task.phase.isOver) → LaneStep source event s t
  | deliver {h : ℕ} {task : ReceiveTask δ} (task' : ReceiveTask δ) {m : LaneMessage δ} :
      s.tasks[h]? = some task → task.phase.isOver = false → task'.msg = task.msg →
      task'.predecessor = task.predecessor → Leaves task'.phase → t.tasks = s.tasks.set h task' →
      t.receiveLaneTails = s.receiveLaneTails →
      streamOf source task.msg.requestId task.msg = some m → s.predecessorDone task = true →
      t.laneInbox source task.msg.requestId = s.laneInbox source task.msg.requestId ++ [m] →
      (∀ requestId, requestId ≠ task.msg.requestId →
        t.laneInbox source requestId = s.laneInbox source requestId) → LaneStep source event s t
  | finish {h : ℕ} {task : ReceiveTask δ} : s.tasks[h]? = some task → task.phase = .closing →
      s.predecessorDone task = true → t = s.finishTask h task → LaneStep source event s t

theorem modify_eq_set {τ : Type*} {l : List τ} {h : ℕ} {a : τ} (ha : l[h]? = some a) (f : τ → τ) :
    l.modify h f = l.set h (f a) := by
  refine ext_getElem? fun k => ?_
  rw [getElem?_modify, getElem?_set]
  split
  · next hk =>
    subst hk
    rw [ha, if_pos (List.getElem?_eq_some_iff.mp ha).1]
    rfl
  · exact Option.map_id' ..

theorem LaneStep.of_phase {h : ℕ} {task : ReceiveTask δ} {phase : TaskPhase}
    (htk : s.tasks[h]? = some task)
    (htks : t.tasks = s.tasks.modify h fun task => { task with phase := phase })
    (htails : t.receiveLaneTails = s.receiveLaneTails) (hi : SameLanes source s t)
    (hl : task.phase ≠ .done) (hl' : phase ≠ .done)
    (hd : phase = .discarding → task.msg.requestId ∈ t.recorded)
    (hover : (streamOf source task.msg.requestId task.msg).isSome →
      task.msg.requestId ∉ t.recorded → phase.isOver = task.phase.isOver) : LaneStep source event s t :=
  .move { task with phase := phase } htk hl rfl rfl hl'
    (htks.trans (modify_eq_set htk _)) htails hi hd hover

theorem LaneStep.of_setPhase {v : StageIntake δ} {h : ℕ} {task : ReceiveTask δ} {phase : TaskPhase}
    (htk : s.tasks[h]? = some task) (hf : Frame s v) (hi : SameLanes source s v)
    (hl : task.phase ≠ .done) (hl' : phase ≠ .done)
    (hd : phase = .discarding → task.msg.requestId ∈ v.recorded)
    (hover : (streamOf source task.msg.requestId task.msg).isSome →
      task.msg.requestId ∉ v.recorded → phase.isOver = task.phase.isOver) :
    LaneStep source event s (v.setPhase h phase) :=
  .of_phase htk (congrArg (List.modify · h _) hf.tasks) hf.tails
    (hi.trans (.of_inbox rfl)) hl hl' hd hover

theorem LaneStep.of_frame (hf : Frame s t) (hi : SameLanes source s t) :
    LaneStep source event s t := .pass hf.tasks hf.tails hi

theorem sameLanes_leaveLocal (requestId : String) {result : StageIntake δ × TaskPhase}
    (h : SameLanes source s result.1) : SameLanes source s (leaveLocal requestId result) := by
  unfold leaveLocal
  split
  · exact h.trans (.of_inbox rfl)
  · exact h

theorem leaveLocal_tasks (requestId : String) (result : StageIntake δ × TaskPhase) :
    (leaveLocal requestId result).tasks = result.1.tasks ∧
      (leaveLocal requestId result).receiveLaneTails = result.1.receiveLaneTails := by
  unfold leaveLocal
  split <;> exact ⟨rfl, rfl⟩

theorem LaneStep.of_local (requestId : String) {result : StageIntake δ × TaskPhase}
    (hf : Frame s result.1) (hi : SameLanes source s result.1) :
    LaneStep source event s (leaveLocal requestId result) :=
  .pass ((leaveLocal_tasks requestId result).1.trans hf.tasks)
    ((leaveLocal_tasks requestId result).2.trans hf.tails)
    (sameLanes_leaveLocal requestId hi)

section

variable (hr : Remembers s.aborted s.recorded)
  (hpln : ∀ task ∈ s.tasks, task.msg.fromStage = source → task.msg.error = none)
include hr hpln

theorem lane_resume (order : List String) {h : ℕ} {task : ReceiveTask δ} {delivered : Bool}
    (htk : s.tasks[h]? = some task) (hwaiting : isWaiting task.phase = true)
    (hrdy : s.predecessorDone task = true) :
    LaneStep source event s (((s.resumeTask cfg order task.msg task.phase.error).1.setPhase h
        (s.resumeTask cfg order task.msg task.phase.error).2).markDelivered h delivered) := by
  have hf : Frame s (s.resumeTask cfg order task.msg task.phase.error).1 :=
    Frame.resumeTask s order task.msg task.phase.error
  have hleaves : Leaves (s.resumeTask cfg order task.msg task.phase.error).2 :=
    leaves_resumeTask s task.msg task.phase.error
  have hfrs : task.phase.isOver = false := by
    cases hp : task.phase with
    | waiting _ => rfl
    | _ => rw [hp] at hwaiting; cases hwaiting
  have hl : task.phase ≠ .done := by
    intro hdone
    rw [hdone] at hwaiting
    cases hwaiting
  obtain ⟨task', htks, hp, hmsg, hpred⟩ : ∃ task' : ReceiveTask δ,
      (((s.resumeTask cfg order task.msg task.phase.error).1.setPhase h
        (s.resumeTask cfg order task.msg task.phase.error).2).markDelivered h delivered).tasks =
          s.tasks.set h task' ∧
      task'.phase = (s.resumeTask cfg order task.msg task.phase.error).2 ∧
      task'.msg = task.msg ∧ task'.predecessor = task.predecessor := by
    refine ⟨⟨task.msg, task.predecessor, _, task.delivered || delivered⟩, ?_, rfl, rfl, rfl⟩
    show ((s.resumeTask cfg order task.msg task.phase.error).1.tasks.modify h _).modify h _ = _
    have hlen := (List.getElem?_eq_some_iff.mp htk).1
    rw [hf.tasks, modify_eq_set htk, modify_eq_set (getElem?_set_self hlen)]
    exact set_set ..
  rw [← hp] at hleaves
  cases hs : streamOf source task.msg.requestId task.msg with
  | none =>
    refine .move task' htk hl hmsg hpred hleaves.ne_done htks hf.tails ?_ ?_ ?_
    · exact (sameLanes_resume s hs _).trans (.of_inbox rfl)
    · intro hd
      rcases hleaves with heq | heq <;> rw [heq] at hd <;> cases hd
    · intro hsome
      rw [hs] at hsome
      cases hsome
  | some m =>
    have herror := hpln task (mem_of_getElem? htk) (streamOf_some hs).1
    rcases delivers_resume (δ := δ) hr herror hs
      task.phase.error with ⟨hsame, hrcd⟩ | ⟨hi, hothers⟩
    · refine .move task' htk hl hmsg hpred hleaves.ne_done htks hf.tails
        (hsame.trans (.of_inbox rfl)) (fun _ => hrcd) fun _ ho => ?_
      exact absurd hrcd ho
    · exact .deliver task' htk hfrs hmsg hpred hleaves htks hf.tails hs hrdy
        hi hothers

theorem lane_step
    (hdiscards : ∀ task ∈ s.tasks, (streamOf source task.msg.requestId task.msg).isSome →
      task.phase = .discarding → task.msg.requestId ∈ s.recorded) {turn : IntakeTurn δ}
    (hst : intakeStep cfg s turn = some t) (hkept : SourceKept source s turn)
    : LaneStep source turn.event s t := by
  obtain ⟨event, order⟩ := turn
  cases event with
  | submit requestId payload =>
    cases hst
    unfold onSubmit
    split
    · exact .of_frame (.refl s) (.of_inbox rfl)
    · dsimp only
      split <;> exact .pass rfl rfl ((SameLanes.of_inbox rfl).trans (.put _ fun _ => rfl))
  | tpWork requestId payload =>
    cases hst
    unfold onTpWork
    split
    · exact .of_frame (.refl s) (.of_inbox rfl)
    · exact .pass rfl rfl ((SameLanes.of_inbox rfl).trans (.put _ fun _ => rfl))
  | requestUpdate requestId data =>
    cases hst
    unfold onRequestUpdate
    split
    · exact .of_frame (.refl s) (.of_inbox rfl)
    · split
      · exact .of_frame (.refl s) (.of_inbox rfl)
      · exact .pass rfl rfl (.put _ fun _ => rfl)
  | dataReady msg => exact .schedule msg rfl hkept (some.inj hst).symm
  | started h error =>
    obtain ⟨task, htk, rfl⟩ := map_eq_some_iff.mp hst
    obtain ⟨htk, hp⟩ := taskIn_eq_some.mp htk
    have hp : task.phase = .scheduled := of_decide_eq_true hp
    obtain ⟨hover, hd⟩ := beginTask_phase s task.msg error
    have hf := Frame.beginTask s task.msg error
    refine .of_setPhase htk hf (.of_inbox (inbox_beginTask s task.msg error)) ?_ ?_ ?_ ?_
    · rw [hp]
      exact nofun
    · intro hdone
      rw [hdone] at hover
      cases hover
    · exact fun heq => hf.recorded _ (hr.sub _ (hd heq))
    · intro _ _
      rw [hover, hp]
      rfl
  | discarded h =>
    obtain ⟨task, htk, rfl⟩ := map_eq_some_iff.mp hst
    obtain ⟨htk, hp⟩ := taskIn_eq_some.mp htk
    have hp : task.phase = .discarding := of_decide_eq_true hp
    refine .of_setPhase htk (.refl s) (.of_inbox rfl) ?_ nofun nofun fun hs ho => ?_
    · rw [hp]
      exact nofun
    · exact absurd (hdiscards task (mem_of_getElem? htk) hs hp) ho
  | readDone h error =>
    obtain ⟨task, htk, rfl⟩ := map_eq_some_iff.mp hst
    obtain ⟨htk, hp⟩ := taskIn_eq_some.mp htk
    have hp : task.phase = .reading := of_decide_eq_true hp
    refine .of_setPhase htk (.refl s) (.of_inbox rfl) ?_ nofun nofun fun _ _ => ?_
    · rw [hp]
      exact nofun
    · rw [hp]
      rfl
  | acked h =>
    obtain ⟨task, htk, rfl⟩ := map_eq_some_iff.mp hst
    obtain ⟨htk, hp⟩ := taskIn_eq_some.mp htk
    refine .of_setPhase htk (.refl s) (.of_inbox rfl) ?_ nofun nofun fun _ _ => ?_
    · intro hdone
      rw [hdone] at hp
      cases hp
    · cases htaskPhase : task.phase with
      | acking _ => rfl
      | _ => rw [htaskPhase] at hp; cases hp
  | resume h =>
    obtain ⟨task, htk, hresume⟩ := bind_eq_some_iff.mp hst
    obtain ⟨htk, hwaiting⟩ := taskIn_eq_some.mp htk
    obtain ⟨hrdy, ⟨⟩⟩ := of_guard hresume
    exact lane_resume hr hpln order htk hwaiting hrdy
  | failureSent h =>
    obtain ⟨task, htk, rfl⟩ := map_eq_some_iff.mp hst
    obtain ⟨htk, hp⟩ := taskIn_eq_some.mp htk
    have hp : task.phase = .failing := of_decide_eq_true hp
    refine .of_setPhase htk ⟨rfl, rfl, rfl, fun _ h => h, id⟩ (.of_inbox rfl) ?_ nofun nofun
      fun _ _ => ?_
    · rw [hp]
      exact nofun
    · rw [hp]
      rfl
  | raises h =>
    obtain ⟨task, htk, rfl⟩ := map_eq_some_iff.mp hst
    obtain ⟨htk, hp⟩ := taskIn_eq_some.mp htk
    have hp : task.phase ≠ .closing ∧ task.phase ≠ .done := of_decide_eq_true hp
    exact .of_phase htk rfl rfl (.of_inbox rfl) hp.2 nofun nofun fun hs ho =>
      absurd (hkept task htk hs) ho
  | finish h =>
    obtain ⟨task, htk, hfinish⟩ := bind_eq_some_iff.mp hst
    obtain ⟨htk, hp⟩ := taskIn_eq_some.mp htk
    split at hfinish
    · next hrdy =>
      exact .finish htk (of_decide_eq_true hp) hrdy (some.inj hfinish).symm
    · cases hfinish
  | localPayload requestId fromStage payload =>
    cases hst
    exact .of_local requestId (Frame.receivePayloadFromStage s requestId fromStage payload)
      (sameLanes_receivePayload s requestId fromStage payload)
  | localChunk requestId fromStage chunkId data =>
    dsimp only [intakeStep] at hst
    split at hst
    · exact some.inj hst ▸ .of_frame (.refl s) (.of_inbox rfl)
    · cases hst
      have hact : Frame s (s.activate requestId) := ⟨rfl, rfl, rfl, fun _ h => h, id⟩
      exact .of_local requestId (hact.trans (Frame.routeStreamItemOrFail _ order requestId _))
        ((SameLanes.of_inbox rfl).trans (sameLanes_route _ requestId hkept))
  | localSignal requestId fromStage isDone error =>
    cases hst
    exact .of_local requestId (Frame.receiveStreamSignal s order requestId fromStage isDone error)
      (sameLanes_signal s requestId hkept isDone error)
  | abort requestId | routed requestId =>
    cases hst
    exact .pass rfl rfl (.of_inbox rfl)
  | failRequest requestId =>
    cases hst
    exact .of_local requestId (Frame.sendFailure s order requestId) (.of_inbox inbox_sendFailure)
  | localFailureSent requestId =>
    cases (of_guard hst).2
    exact .pass rfl rfl (.of_inbox rfl)

end

theorem LaneStep.messages (h : LaneStep source event s t) :
    t.tasks.map (·.msg) = s.tasks.map (·.msg) ∨
    ∃ msg, event = .dataReady msg ∧ t.tasks.map (·.msg) = s.tasks.map (·.msg) ++ [msg] := by
  have hset : ∀ {h : ℕ} {task task' : ReceiveTask δ}, s.tasks[h]? = some task →
      task'.msg = task.msg → (s.tasks.set h task').map (·.msg) = s.tasks.map (·.msg) := by
    intro h task task' htk hmsg
    refine ext_getElem? fun k => ?_
    rw [getElem?_map, getElem?_map, getElem?_set]
    split
    · next hk =>
      subst hk
      rw [if_pos (List.getElem?_eq_some_iff.mp htk).1, htk]
      exact congrArg some hmsg
    · rfl
  cases h with
  | pass htks _ _ => exact .inl (congrArg _ htks)
  | schedule msg hevt _ ht =>
    subst ht
    exact .inr ⟨msg, hevt, map_append⟩
  | move task' htk _ hmsg _ _ htks => exact .inl ((congrArg _ htks).trans (hset htk hmsg))
  | deliver task' htk _ hmsg _ _ htks =>
    exact .inl ((congrArg _ htks).trans (hset htk hmsg))
  | @finish h task htk _ _ ht =>
    subst ht
    have htks : (s.finishTask h task).tasks = s.tasks.set h { task with phase := .done } := by
      refine Eq.trans ?_ (modify_eq_set htk fun task => { task with phase := .done })
      unfold finishTask
      split <;> rfl
    exact .inl ((congrArg _ htks).trans (hset htk rfl))

end StageIntake

end OmniRealtime
