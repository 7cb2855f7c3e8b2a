import OmniRealtime.Pipeline.LaneLedger

/-!
# Stream lanes from end to end

The sending half of one stage and the receiving half of another, with the control plane between
them, which keeps the order of the messages of one sender. A message for a stage of the same
process is handled as it is sent.

1. `linkStep`: the steps of the two stages and of the control plane.
2. `stream_lane_order`: the scheduler gets the published chunks of a lane in order, then at most
   one done mark.
3. `aborted_send_repeats`: a send that starts after the abort of its request takes the ids again.
-/

namespace OmniRealtime

open List Option StageOutlet

universe u

variable {δ : Type u}

/-! ## The state -/

structure LinkConfig (δ : Type u) where
  outlet : OutletConfig
  intake : StageConfig δ
  source : String
  target : String

structure StreamLink (δ : Type u) where
  outlet : StageOutlet δ := {}
  intake : StageIntake δ := {}
  /-- How many of the messages have come out of the control plane. -/
  arrived : ℕ := 0

/-- The messages published to a target, oldest first. -/
def StageOutlet.sentTo (s : StageOutlet δ) (target : String) : List (LaneMessage δ) :=
  (s.published.filter fun m => m.1 = target).map Prod.snd

/-- The `data_ready` message; a done signal has no reference. -/
def LaneMessage.toDataReady [Inhabited δ] (fromStage : String) (ref : RefKind) :
    LaneMessage δ → DataReadyMessage δ
  | .chunk requestId chunkId data =>
    { requestId := requestId, fromStage := fromStage, chunkId := some chunkId, ref := ref,
      object := data }
  | .done requestId =>
    { requestId := requestId, fromStage := fromStage, isDone := true, object := default }

/-- The call of the local dispatcher. -/
def LaneMessage.toLocal (fromStage : String) : LaneMessage δ → IntakeEvent δ
  | .chunk requestId chunkId data => .localChunk requestId fromStage chunkId data
  | .done requestId => .localSignal requestId fromStage true none

/-! ## Steps -/

inductive LinkEvent (δ : Type u)
  /-- The sender's step, and how the receiver's aborted ids iterate if it takes a message. -/
  | send (event : OutletEvent δ) (order : List String)
  | arrive (ref : RefKind)
  /-- Anything else that the receiver does. -/
  | intake (turn : IntakeTurn δ)

/-- The event is no stream message of the source. -/
def IntakeEvent.fromElsewhere (source : String) : IntakeEvent δ → Bool
  | .dataReady msg => msg.fromStage ≠ source || msg.handler = .dataReady
  | .localChunk _ fromStage _ _ | .localSignal _ fromStage _ _ => fromStage ≠ source
  | _ => true

/-- The message for the target that a step of the sender has published. -/
def handedOver (target : String) (s t : StageOutlet δ) : Option (LaneMessage δ) :=
  (t.sentTo target)[(s.sentTo target).length]?

def linkStep [Inhabited δ] (cfg : LinkConfig δ) (s : StreamLink δ) :
    LinkEvent δ → Option (StreamLink δ)
  | .send event order =>
    (outletStep cfg.outlet s.outlet event).bind fun outlet =>
      match handedOver cfg.target s.outlet outlet with
      | some msg =>
        if cfg.target ∈ cfg.outlet.sameProcessTargets then
          (intakeStep cfg.intake s.intake ⟨msg.toLocal cfg.source, order⟩).map fun intake =>
            { s with outlet := outlet, intake := intake }
        else some { s with outlet := outlet }
      | none => some { s with outlet := outlet }
  | .arrive ref =>
    if cfg.target ∈ cfg.outlet.sameProcessTargets then none
    else
      ((s.outlet.sentTo cfg.target)[s.arrived]?).bind fun msg =>
        (intakeStep cfg.intake s.intake ⟨.dataReady (msg.toDataReady cfg.source ref), []⟩).map
          fun intake => { s with intake := intake, arrived := s.arrived + 1 }
  | .intake turn =>
    if turn.event.fromElsewhere cfg.source then
      (intakeStep cfg.intake s.intake turn).map fun intake => { s with intake := intake }
    else none

def linkSystem [Inhabited δ] (cfg : LinkConfig δ) : System (StreamLink δ) (LinkEvent δ) :=
  .ofFun (fun s => s = {}) (linkStep cfg)

/-- The sends are kept; the messages of a request that was recorded as aborted are handled while it
    still is among the aborted ids; no handler of a stream message gives up before that. -/
def LinkKept (cfg : LinkConfig δ) (s : StreamLink δ) : LinkEvent δ → Prop
  | .send event order =>
    StageOutlet.SendsKept cfg.outlet s.outlet event ∧
    ∀ outlet msg, outletStep cfg.outlet s.outlet event = some outlet →
      handedOver cfg.target s.outlet outlet = some msg →
      s.intake.HandlesKept ⟨msg.toLocal cfg.source, order⟩
  | .arrive _ => True
  | .intake turn =>
    s.intake.HandlesKept turn ∧ StageIntake.SourceKept cfg.source s.intake turn

/-- All that was published has been handled. -/
def StreamLink.AllHandled (cfg : LinkConfig δ) (s : StreamLink δ) (requestId : String) : Prop :=
  cfg.target ∈ cfg.outlet.sameProcessTargets ∨
  s.arrived = (s.outlet.sentTo cfg.target).length ∧
    ∀ task ∈ s.intake.tasks, task.msg.lane = (requestId, cfg.source) → task.phase = .done

/-! ## What is published -/

namespace StageOutlet

variable {s t : StageOutlet δ} {cfg : OutletConfig} {e : OutletEvent δ}

theorem lane_eq_sentTo (s : StageOutlet δ) (target requestId : String) :
    s.lane target requestId = (s.sentTo target).filter fun m => m.requestId = requestId := by
  unfold lane sentTo
  rw [List.filter_map, List.filter_filter]
  refine congrArg (List.map Prod.snd) (filter_congr fun m _ => ?_)
  rw [Bool.decide_and, Bool.and_comm]
  rfl

theorem published_step (h : outletStep cfg s e = some t) :
    t.published = s.published ∨ ∃ m, t.published = s.published ++ [m] := by
  have hsrt : ∀ (v : StageOutlet δ) k c, (v.startChild cfg k c).published = v.published ∨
      ∃ m, (v.startChild cfg k c).published = v.published ++ [m] := by
    intro v k c
    dsimp only [startChild]
    split
    · exact .inr ⟨_, rfl⟩
    · exact .inl rfl
  have hcsh : ∀ v : StageOutlet δ, v.crash.published = v.published := by
    intro v
    unfold crash
    split <;> rfl
  cases e with
  | activate _ | clear _ => cases h; exact .inl rfl
  | takeStream _ _ | gathered | takeResult _ _ | routed | takeError _ | failureSent =>
    dsimp only [outletStep] at h
    split at h <;> cases h
    exact .inl rfl
  | takeTargeted _ _ _ _ =>
    dsimp only [outletStep] at h
    split at h
    · split at h <;> cases h
      · exact hsrt ..
      · exact .inl rfl
    · cases h
  | childStarts k endpoint =>
    obtain ⟨c, -, h⟩ := bind_eq_some_iff.mp h
    split at h
    · split at h <;> cases h
      · exact hsrt ..
      · exact .inl (hcsh _)
    · cases h
  | childRaises k =>
    obtain ⟨c, -, h⟩ := bind_eq_some_iff.mp h
    split at h <;> cases h <;> exact .inl (hcsh _)
  | childPublishes k =>
    obtain ⟨c, -, h⟩ := bind_eq_some_iff.mp h
    split at h <;> cases h
    exact .inr ⟨_, rfl⟩
  | childReturns k =>
    obtain ⟨c, -, h⟩ := bind_eq_some_iff.mp h
    split at h <;> cases h
    exact .inl rfl
  | signalSent =>
    dsimp only [outletStep] at h
    split at h <;> cases h
    exact .inr ⟨_, rfl⟩
  | loopRaises =>
    dsimp only [outletStep] at h
    split at h <;> cases h <;> exact .inl rfl

theorem sentTo_step (h : outletStep cfg s e = some t) (target : String) :
    t.sentTo target = s.sentTo target ++ (handedOver target s t).toList := by
  have hn : t.sentTo target = s.sentTo target → handedOver target s t = none := by
    intro heq
    unfold handedOver
    rw [heq]
    exact List.getElem?_eq_none_iff.mpr (le_refl _)
  have hsome : ∀ {m}, t.sentTo target = s.sentTo target ++ [m] →
      handedOver target s t = some m := by
    intro m heq
    unfold handedOver
    rw [heq]
    exact getElem?_concat_length
  rcases published_step h with heq | ⟨m, heq⟩
  · have hsent : t.sentTo target = s.sentTo target := by
      unfold sentTo
      rw [heq]
    rw [hn hsent, hsent]
    exact (append_nil _).symm
  · by_cases hm : m.1 = target
    · have hsent : t.sentTo target = s.sentTo target ++ [m.2] := by
        unfold sentTo
        rw [heq, filter_append, filter_singleton, decide_eq_true hm, map_append]
        rfl
      rw [hsome hsent, hsent]
      rfl
    · have hsent : t.sentTo target = s.sentTo target := by
        unfold sentTo
        rw [heq, filter_append, filter_singleton, decide_eq_false hm]
        exact congrArg _ (append_nil _)
      rw [hn hsent, hsent]
      exact (append_nil _).symm

end StageOutlet

/-! ## What arrives -/

namespace StageIntake

variable {cfg : StageConfig δ} {s t : StageIntake δ} {source : String}

theorem streamOf_toDataReady [Inhabited δ] (msg : LaneMessage δ) (ref : RefKind)
    (requestId : String) :
    streamOf source requestId (msg.toDataReady source ref) =
      if msg.requestId = requestId then some msg else none := by
  split
  · next hkey =>
    subst hkey
    cases msg with
    | chunk _ _ _ | done _ => exact if_pos ⟨rfl, rfl⟩
  · next hkey =>
    cases msg with
    | chunk _ _ _ | done _ => exact if_neg fun h => hkey h.2

theorem streamOf_of_elsewhere {msg : DataReadyMessage δ}
    (h : (IntakeEvent.dataReady msg).fromElsewhere source = true) (requestId : String) :
    streamOf source requestId msg = none := by
  have h : msg.fromStage ≠ source ∨ msg.handler = .dataReady := by
    rcases Bool.or_eq_true_iff.mp h with h | h
    · exact .inl (of_decide_eq_true h)
    · exact .inr (of_decide_eq_true h)
  unfold streamOf
  rcases h with hfrom | hhandler
  · exact if_neg fun hkey => hfrom hkey.1
  · rw [hhandler]
    split <;> rfl

theorem laneTasks_eq_messages (s : StageIntake δ) (source requestId : String) :
    s.laneTasks source requestId = (s.tasks.map (·.msg)).filterMap (streamOf source requestId) := by
  rw [filterMap_map]
  rfl

/-- A stream message of the same process is handled at once. -/
theorem local_delivers (hremembers : Remembers s.aborted s.recorded) {msg : LaneMessage δ}
    {order : List String} (hstep : intakeStep cfg s ⟨msg.toLocal source, order⟩ = some t) :
    Delivers source msg.requestId msg s t ∧ t.tasks = s.tasks := by
  have hleave : ∀ {result : StageIntake δ × TaskPhase} {v : StageIntake δ},
      v.tasks = s.tasks → v.inbox = s.inbox →
      Frame v result.1 → Delivers source msg.requestId msg v result.1 →
      Delivers source msg.requestId msg s (leaveLocal msg.requestId result) ∧
        (leaveLocal msg.requestId result).tasks = s.tasks := by
    intro result v htasks hibx hfrm hdelivers
    refine ⟨?_, (leaveLocal_tasks _ _).1.trans (hfrm.tasks.trans htasks)⟩
    have hsame : SameLanes source s v := .of_inbox hibx
    have hleft : (leaveLocal msg.requestId result).inbox = result.1.inbox ∧
        (leaveLocal msg.requestId result).recorded = result.1.recorded := by
      unfold leaveLocal
      split <;> exact ⟨rfl, rfl⟩
    have hend : SameLanes source result.1 (leaveLocal msg.requestId result) := .of_inbox hleft.1
    rcases hdelivers with ⟨hn, hrecorded⟩ | ⟨hput, hothers⟩
    · exact .inl ⟨hsame.trans (hn.trans hend), hleft.2 ▸ hrecorded⟩
    · refine .inr ⟨?_, fun requestId hne => ?_⟩
      · rw [hend, hput, hsame]
      · rw [hend, hothers requestId hne, hsame]
  cases msg with
  | chunk requestId chunkId data =>
    dsimp only [LaneMessage.toLocal, intakeStep] at hstep
    split at hstep
    · next habt =>
      cases hstep
      exact ⟨.inl ⟨.of_inbox rfl, hremembers.sub requestId habt⟩, rfl⟩
    · cases hstep
      have hactive : (s.activate requestId).tasks = s.tasks := rfl
      exact hleave hactive rfl (Frame.routeStreamItemOrFail _ order requestId _)
        (delivers_route (s.activate requestId) requestId rfl)
  | done requestId =>
    cases hstep
    exact hleave rfl rfl (Frame.receiveStreamSignal s order requestId source true none)
      (delivers_done hremembers requestId)

end StageIntake

/-! ## The invariant -/

open StageIntake

/-- The two halves of a lane. -/
structure Linked (cfg : LinkConfig δ) (s : StreamLink δ) : Prop where
  outgoing : s.outlet.Outgoing
  ledger : s.intake.Ledger
  relayed : cfg.target ∉ cfg.outlet.sameProcessTargets →
    LaneLedger cfg.source s.intake ∧ s.arrived ≤ (s.outlet.sentTo cfg.target).length ∧
    ∀ requestId, s.intake.laneTasks cfg.source requestId =
      ((s.outlet.sentTo cfg.target).take s.arrived).filter fun m => m.requestId = requestId
  direct : cfg.target ∈ cfg.outlet.sameProcessTargets →
    (∀ msg ∈ s.intake.tasks.map (·.msg), ∀ requestId, streamOf cfg.source requestId msg = none) ∧
    ∀ requestId,
      s.intake.laneInbox cfg.source requestId <+: s.outlet.lane cfg.target requestId ∧
      (requestId ∉ s.intake.recorded →
        s.intake.laneInbox cfg.source requestId = s.outlet.lane cfg.target requestId)

namespace Linked

variable [Inhabited δ] {cfg : LinkConfig δ} {s t : StreamLink δ} {outlet : StageOutlet δ}
  {msg : LaneMessage δ}

omit [Inhabited δ] in
theorem init : Linked cfg ({} : StreamLink δ) where
  outgoing := outgoing_init
  ledger := ledger_init
  relayed _ := ⟨laneLedger_init, le_refl _, fun _ => rfl⟩
  direct _ := ⟨(by rintro _ ⟨⟩), fun _ => ⟨prefix_rfl, fun _ => rfl⟩⟩

section

variable (hs : Linked cfg s)
include hs

omit [Inhabited δ] in
theorem send (ho : outlet.Outgoing) {msg : Option (LaneMessage δ)}
    (hsent : outlet.sentTo cfg.target = s.outlet.sentTo cfg.target ++ msg.toList)
    (hn : cfg.target ∈ cfg.outlet.sameProcessTargets → msg = none) :
    Linked cfg { s with outlet := outlet } := by
  refine ⟨ho, hs.ledger, fun hr => ?_, fun hlocal => ?_⟩
  · obtain ⟨hledger, harrived, htasks⟩ := hs.relayed hr
    refine ⟨hledger, ?_, fun requestId => ?_⟩
    · show s.arrived ≤ (outlet.sentTo cfg.target).length
      rw [hsent, length_append]
      exact harrived.trans (Nat.le_add_right ..)
    · show s.intake.laneTasks cfg.source requestId = ((outlet.sentTo cfg.target).take s.arrived).filter _
      rw [hsent, take_append_of_le_length harrived]
      exact htasks requestId
  · rw [hn hlocal] at hsent
    refine ⟨(hs.direct hlocal).1, fun requestId => ?_⟩
    have hlane : outlet.lane cfg.target requestId = s.outlet.lane cfg.target requestId := by
      rw [lane_eq_sentTo, lane_eq_sentTo, hsent]
      exact congrArg _ (append_nil _)
    show s.intake.laneInbox cfg.source requestId <+: outlet.lane cfg.target requestId ∧ _
    rw [hlane]
    exact (hs.direct hlocal).2 requestId

omit [Inhabited δ] in
theorem sendLocal (hlocal : cfg.target ∈ cfg.outlet.sameProcessTargets)
    (ho : outlet.Outgoing)
    (hsent : outlet.sentTo cfg.target = s.outlet.sentTo cfg.target ++ [msg]) {order : List String}
    {intake : StageIntake δ}
    (hstep : intakeStep cfg.intake s.intake ⟨msg.toLocal cfg.source, order⟩ = some intake)
    (hk : s.intake.HandlesKept ⟨msg.toLocal cfg.source, order⟩) :
    Linked cfg { s with outlet := outlet, intake := intake } := by
  refine ⟨ho, hs.ledger.step hstep, fun hr => absurd hlocal hr, fun _ => ?_⟩
  obtain ⟨hdelivers, htasks⟩ := local_delivers hs.ledger.remembers hstep
  obtain ⟨hn, hlanes⟩ := hs.direct hlocal
  have hqt : ∀ {requestId}, requestId ∈ s.intake.recorded → Quiet requestId s.intake intake :=
    fun hrecorded => quiet_step hstep hk hrecorded
  refine ⟨fun m hm => hn m (htasks ▸ hm), fun requestId => ?_⟩
  show intake.laneInbox cfg.source requestId <+: outlet.lane cfg.target requestId ∧
    (requestId ∉ intake.recorded →
      intake.laneInbox cfg.source requestId = outlet.lane cfg.target requestId)
  obtain ⟨hpre, hcomplete⟩ := hlanes requestId
  rw [lane_eq_sentTo] at hpre hcomplete
  rw [lane_eq_sentTo, hsent, filter_append, filter_singleton]
  by_cases hkey : msg.requestId = requestId
  · subst hkey
    rw [decide_eq_true rfl]
    rcases hdelivers with ⟨hsame, hrecorded⟩ | ⟨hput, -⟩
    · rw [hsame]
      exact ⟨hpre.trans (prefix_append ..), fun hopen => absurd hrecorded hopen⟩
    · have hopen : msg.requestId ∉ s.intake.recorded := by
        intro hrecorded
        have hsame := (hqt hrecorded).inbox
        rw [laneInbox_eq_inboxOf, hsame, ← laneInbox_eq_inboxOf] at hput
        exact absurd (congrArg List.length hput) (by simp)
      rw [hput, hcomplete hopen]
      exact ⟨prefix_rfl, fun _ => rfl⟩
  · have hsame : intake.laneInbox cfg.source requestId = s.intake.laneInbox cfg.source requestId := by
      rcases hdelivers with ⟨hsame, -⟩ | ⟨-, hothers⟩
      · exact hsame requestId
      · exact hothers requestId (Ne.symm hkey)
    rw [decide_eq_false hkey, hsame]
    refine ⟨hpre.trans (prefix_append ..), fun hopen => ?_⟩
    refine (hcomplete fun hrecorded => hopen ((hqt hrecorded).recorded hrecorded)).trans ?_
    exact (append_nil _).symm

theorem arrive (hr : cfg.target ∉ cfg.outlet.sameProcessTargets)
    (hmsg : (s.outlet.sentTo cfg.target)[s.arrived]? = some msg)
    (ref : RefKind) {intake : StageIntake δ}
    (hstep : intakeStep cfg.intake s.intake ⟨.dataReady (msg.toDataReady cfg.source ref), []⟩ =
      some intake) : Linked cfg { s with intake := intake, arrived := s.arrived + 1 } := by
  obtain ⟨hledger, harrived, htasks⟩ := hs.relayed hr
  have hlen := (List.getElem?_eq_some_iff.mp hmsg).1
  refine ⟨hs.outgoing, hs.ledger.step hstep, fun _ => ⟨?_, hlen, fun requestId => ?_⟩,
    fun hlocal => absurd hlocal hr⟩
  · refine hledger.step hs.ledger hstep (fun _ => ?_) (by rintro _ ⟨⟩)
    cases msg <;> rfl
  · cases hstep
    show (s.intake.scheduleReceiveTask _).laneTasks cfg.source requestId = _
    rw [laneTasks_eq_messages, take_add_one, hmsg, filter_append, ← htasks, laneTasks_eq_messages]
    show ((s.intake.tasks ++ [_]).map _).filterMap _ = _
    rw [map_append, filterMap_append]
    refine congrArg _ ?_
    rw [map_singleton, filterMap_cons, streamOf_toDataReady]
    by_cases hkey : msg.requestId = requestId
    · rw [if_pos hkey]
      simp [hkey]
    · rw [if_neg hkey]
      simp [hkey]

omit [Inhabited δ] in
theorem intake {turn : IntakeTurn δ} {intake : StageIntake δ}
    (helse : turn.event.fromElsewhere cfg.source = true)
    (hstep : intakeStep cfg.intake s.intake turn = some intake)
    (hhandles : s.intake.HandlesKept turn) (hk : SourceKept cfg.source s.intake turn) :
    Linked cfg { s with intake := intake } := by
  have hmessages : ∀ {v}, LaneStep cfg.source turn.event s.intake v → ∀ requestId,
      (v.tasks.map (·.msg)).filterMap (streamOf cfg.source requestId) =
        (s.intake.tasks.map (·.msg)).filterMap (streamOf cfg.source requestId) := by
    intro v hlane requestId
    rcases hlane.messages with heq | ⟨msg, hevt, heq⟩
    · rw [heq]
    · rw [hevt] at helse
      rw [heq, filterMap_append, filterMap_cons, streamOf_of_elsewhere helse]
      exact append_nil _
  refine ⟨hs.outgoing, hs.ledger.step hstep, fun hr => ?_, fun hlocal => ?_⟩
  · obtain ⟨hledger, harrived, htasks⟩ := hs.relayed hr
    have hlane := lane_step hledger.remembers hledger.plain hledger.discards hstep hk
    refine ⟨hledger.step hs.ledger hstep hk hhandles, harrived, fun requestId => ?_⟩
    show intake.laneTasks cfg.source requestId = _
    rw [laneTasks_eq_messages, hmessages hlane, ← laneTasks_eq_messages]
    exact htasks requestId
  · obtain ⟨hn, hlanes⟩ := hs.direct hlocal
    have hnoStream : ∀ task ∈ s.intake.tasks, ∀ requestId,
        streamOf cfg.source requestId task.msg = none :=
      fun task htask => hn task.msg (mem_map_of_mem htask)
    have hlane : LaneStep cfg.source turn.event s.intake intake := by
      refine lane_step hs.ledger.remembers (fun task htask hfrom => ?_)
        (fun task htask hstream => ?_) hstep hk
      · cases herror : task.msg.error with
        | none => rfl
        | some text =>
          have hsignal : task.msg.handler = .streamSignal := if_pos (.inr (by rw [herror]; rfl))
          have hn := hnoStream task htask task.msg.requestId
          rw [streamOf, if_pos ⟨hfrom, rfl⟩, hsignal] at hn
          cases hn
      · rw [hnoStream task htask] at hstream
        cases hstream
    have hsame : SameLanes cfg.source s.intake intake := by
      cases hlane with
      | pass _ _ hibx => exact hibx
      | schedule msg _ _ ht => exact ht ▸ .of_inbox rfl
      | move _ _ _ _ _ _ _ _ hibx _ _ => exact hibx
      | deliver _ htask _ _ _ _ _ _ hstream =>
        rw [hnoStream _ (mem_of_getElem? htask)] at hstream
        cases hstream
      | finish htask _ _ ht =>
        refine ht ▸ .of_inbox ?_
        dsimp only [finishTask]
        split <;> rfl
    refine ⟨fun msg hmsg requestId => ?_, fun requestId => ?_⟩
    · have hempty : (intake.tasks.map (·.msg)).filterMap (streamOf cfg.source requestId) = [] := by
        rw [hmessages hlane, filterMap_eq_nil_iff]
        exact fun m hm => hn m hm requestId
      exact filterMap_eq_nil_iff.mp hempty msg hmsg
    · show intake.laneInbox cfg.source requestId <+: _ ∧ _
      rw [hsame]
      refine ⟨(hlanes requestId).1, fun hopen => (hlanes requestId).2 fun hrecorded => hopen ?_⟩
      exact (quiet_step hstep hhandles hrecorded).recorded hrecorded

theorem step {e : LinkEvent δ} (hstep : linkStep cfg s e = some t) (hk : LinkKept cfg s e) :
    Linked cfg t := by
  cases e with
  | send event order =>
    obtain ⟨outlet, houtlet, hstep⟩ := bind_eq_some_iff.mp hstep
    have ho := outgoing_step hk.1 houtlet hs.outgoing
    have hsent := sentTo_step houtlet cfg.target
    split at hstep
    · next msg hmsg =>
      rw [hmsg] at hsent
      split at hstep
      · next hlocal =>
        obtain ⟨intake, hi, rfl⟩ := map_eq_some_iff.mp hstep
        exact hs.sendLocal hlocal ho hsent hi (hk.2 outlet msg houtlet hmsg)
      · next hr =>
        cases hstep
        exact hs.send ho hsent fun hlocal => absurd hlocal hr
    · next hn =>
      cases hstep
      exact hs.send ho hsent fun _ => hn
  | arrive ref =>
    dsimp only [linkStep] at hstep
    split at hstep
    · cases hstep
    · next hr =>
      obtain ⟨msg, hmsg, hstep⟩ := bind_eq_some_iff.mp hstep
      obtain ⟨intake, hi, rfl⟩ := map_eq_some_iff.mp hstep
      exact hs.arrive hr hmsg ref hi
  | intake turn =>
    dsimp only [linkStep] at hstep
    split at hstep
    · next helse =>
      obtain ⟨intake, hi, rfl⟩ := map_eq_some_iff.mp hstep
      exact hs.intake helse hi hk.1 hk.2
    · cases hstep

end

end Linked

section Runs

variable [Inhabited δ] {cfg : LinkConfig δ} {s t : StreamLink δ}

/-- What was recorded as aborted gets nothing more. -/
theorem quiet_link {e : LinkEvent δ} {requestId : String} (hstep : linkStep cfg s e = some t)
    (hk : LinkKept cfg s e) (hrecorded : requestId ∈ s.intake.recorded) :
    Quiet requestId s.intake t.intake := by
  cases e with
  | send event order =>
    obtain ⟨outlet, houtlet, hstep⟩ := bind_eq_some_iff.mp hstep
    split at hstep
    · next msg hmsg =>
      split at hstep
      · obtain ⟨intake, hi, rfl⟩ := map_eq_some_iff.mp hstep
        exact quiet_step hi (hk.2 outlet msg houtlet hmsg) hrecorded
      · exact some.inj hstep ▸ .refl requestId s.intake
    · exact some.inj hstep ▸ .refl requestId s.intake
  | arrive ref =>
    dsimp only [linkStep] at hstep
    split at hstep
    · cases hstep
    · obtain ⟨msg, -, hstep⟩ := bind_eq_some_iff.mp hstep
      obtain ⟨intake, hi, rfl⟩ := map_eq_some_iff.mp hstep
      exact quiet_step hi (by rintro _ ⟨⟩) hrecorded
  | intake turn =>
    dsimp only [linkStep] at hstep
    split at hstep
    · obtain ⟨intake, hi, rfl⟩ := map_eq_some_iff.mp hstep
      exact quiet_step hi hk.1 hrecorded
    · cases hstep

theorem quiet_link_run {events : List (LinkEvent δ)} {requestId : String}
    (hrun : ((linkSystem cfg).restrict (LinkKept cfg)).Run s events t)
    (hrecorded : requestId ∈ s.intake.recorded) : Quiet requestId s.intake t.intake := by
  induction hrun with
  | nil => exact .refl requestId s.intake
  | snoc _ hlast ih => exact ih.trans (quiet_link hlast.1 hlast.2 (ih.recorded hrecorded))

/-- The scheduler's inbox has the first messages of the lane as they were published: its chunks in
    the order of their ids, and then at most one done mark. All of them are there once all are
    handled, unless the receiver has aborted or failed the request; after that nothing more of it
    enters. -/
theorem stream_lane_order {s : StreamLink δ}
    (hs : ((linkSystem cfg).restrict (LinkKept cfg)).Reachable s) (requestId : String) :
    LaneLog requestId (s.intake.laneInbox cfg.source requestId) ∧
    s.intake.laneInbox cfg.source requestId <+: s.outlet.lane cfg.target requestId ∧
    (requestId ∉ s.intake.recorded → s.AllHandled cfg requestId →
      s.intake.laneInbox cfg.source requestId = s.outlet.lane cfg.target requestId) ∧
    ∀ (events : List (LinkEvent δ)) (t : StreamLink δ),
      ((linkSystem cfg).restrict (LinkKept cfg)).Run s events t → requestId ∈ s.intake.recorded →
      t.intake.laneInbox cfg.source requestId = s.intake.laneInbox cfg.source requestId := by
  have hlinked : Linked cfg s := hs.invariant
    (fun s₀ hs₀ => by
      have hempty : s₀ = {} := hs₀
      exact hempty ▸ .init)
    fun _ _ _ hs hst => hs.step hst.1 hst.2
  have hpre : s.intake.laneInbox cfg.source requestId <+: s.outlet.lane cfg.target requestId := by
    by_cases hlocal : cfg.target ∈ cfg.outlet.sameProcessTargets
    · exact ((hlinked.direct hlocal).2 requestId).1
    · obtain ⟨hledger, -, htasks⟩ := hlinked.relayed hlocal
      refine (hledger.inOrder requestId).trans ?_
      rw [htasks, lane_eq_sentTo]
      exact (List.take_prefix ..).filter _
  refine ⟨(hlinked.outgoing.ordered _ _).of_isPrefix hpre, hpre, ?_, ?_⟩
  · intro hopen hall
    by_cases hlocal : cfg.target ∈ cfg.outlet.sameProcessTargets
    · exact ((hlinked.direct hlocal).2 requestId).2 hopen
    · obtain ⟨harrived, hdone⟩ := hall.resolve_left hlocal
      obtain ⟨hledger, -, htasks⟩ := hlinked.relayed hlocal
      have htaken : s.intake.laneTaken cfg.source requestId =
          s.intake.laneTasks cfg.source requestId := by
        refine filterMap_congr fun task htask => ?_
        cases hstream : streamOf cfg.source requestId task.msg with
        | none => split <;> rfl
        | some m =>
          have hlane := lane_of_stream (isSome_iff_exists.mpr ⟨m, hstream⟩)
          rw [hdone task htask hlane]
          rfl
      rw [hledger.complete requestId hopen, htaken, htasks, harrived, take_length,
        lane_eq_sentTo]
  · intro events t hrun hrecorded
    rw [laneInbox_eq_inboxOf, (quiet_link_run hrun hrecorded).inbox, ← laneInbox_eq_inboxOf]

end Runs

/-! ## A send after an abort -/

def exLink : LinkConfig Unit where
  outlet := { streamTargets := ["talker"], sameProcessTargets := {"talker"} }
  intake := exStage
  source := "thinker"
  target := "talker"

/-- The first chunk of a request. -/
theorem stream_lane_order_chunk : ∃ s : StreamLink Unit,
    ((linkSystem exLink).restrict (LinkKept exLink)).Reachable s ∧
    s.outlet.lane "talker" "r" = [.chunk "r" 0 ()] ∧
    (LaneLog "r" (s.intake.laneInbox "thinker" "r") ∧
      s.intake.laneInbox "thinker" "r" <+: s.outlet.lane "talker" "r" ∧
      ("r" ∉ s.intake.recorded → s.AllHandled exLink "r" →
        s.intake.laneInbox "thinker" "r" = s.outlet.lane "talker" "r") ∧
      ∀ (events : List (LinkEvent Unit)) (t : StreamLink Unit),
        ((linkSystem exLink).restrict (LinkKept exLink)).Run s events t →
        "r" ∈ s.intake.recorded →
        t.intake.laneInbox "thinker" "r" = s.intake.laneInbox "thinker" "r") := by
  have hinit : ((linkSystem exLink).restrict (LinkKept exLink)).Reachable ({} : StreamLink Unit) :=
    .init rfl
  have hactive := hinit.step (l := LinkEvent.send (.activate "r") [])
    ⟨(rfl : linkStep exLink _ _ = some _), trivial,
      nofun⟩
  have htaken := hactive.step (l := LinkEvent.send (.takeStream "r" ()) [])
    ⟨(rfl : linkStep exLink _ _ = some _), nodup_singleton _,
      nofun⟩
  have hsent := htaken.step (l := LinkEvent.send (.childStarts 0 true) [])
    ⟨(rfl : linkStep exLink _ _ = some _), fun _ _ => rfl,
      nofun⟩
  exact ⟨_, hsent, rfl, stream_lane_order hsent "r"⟩

/-- The task of the second chunk starts when the abort of the request has cleared its counters. -/
def abortedSend : List (LinkEvent Unit) :=
  [.send (.activate "r") [], .send (.takeStream "r" ()) [], .send (.childStarts 0 true) [],
    .send (.childReturns 0) [], .send .gathered [], .send (.takeStream "r" ()) [],
    .send (.clear "r") [], .send (.childStarts 0 true) []]

theorem aborted_send_repeats : ∃ s : StreamLink Unit, (linkSystem exLink).Reachable s ∧
    s.intake.laneInbox "thinker" "r" = [.chunk "r" 0 (), .chunk "r" 0 ()] ∧
    ¬LaneLog "r" (s.intake.laneInbox "thinker" "r") := by
  have hrun : System.exec (linkStep exLink) {} abortedSend = some _ := rfl
  have hs : (linkSystem exLink).Reachable _ := System.Reachable.of_exec (.init rfl) hrun
  refine ⟨_, hs, rfl, fun hlog => ?_⟩
  have hsecond : 0 = 1 := hlog.chunkId_eq (i := 1) rfl
  cases hsecond

end OmniRealtime
