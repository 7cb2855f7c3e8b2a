import OmniRealtime.Lib.FrameLog
import OmniRealtime.Serve.V2Session

/-!
# Framing of a V2 session

What a session sends is a log of responses, and ends with one terminal. Whoever sends holds the event
lock, and looks at `_finalizing` first; only the accounting error is sent without the lock.

The terminal is not the last word where the `_wire` of `session.done` fails although its message is
delivered: `_terminal_sent` is set, and nobody looks at it.

1. `FramedOnce`: what the client sees, and what is left of the session.
2. `keepsFrame`: the condition. `Framing.step`: what every step keeps.
-/

namespace OmniRealtime

open List Option

namespace WireEvent

/-- What the message is for its response. -/
def mark : WireEvent → FrameMark String
  | .delta (some id) (some seq) _ _ => .within id seq
  | .delta _ _ _ _ | .interrupted none => .between
  | .interrupted (some id) => .close id none
  | .responseDone id seq _ _ _ _ => .close id (some seq)
  | _ => .outside

def visible : WireEvent → Bool
  | .delta _ _ _ visible => visible
  | _ => false

def terminal : WireEvent → Bool
  | .sessionDone _ _ | .accountingError => true
  | _ => false

/-- Neither a terminal nor the end of the connection. -/
def mild (event : WireEvent) : Bool := !event.terminal && !event.isClose

end WireEvent

/-- The response that is open after the messages. -/
def openAfter (sent : List WireEvent) : Option String :=
  (readFrames (sent.map WireEvent.mark)).bind Frames.current

namespace FinishTask

/-- The final snapshot is recorded, and the messages before `session.done` are on the way. -/
def isHolding : FinishTask → Bool
  | .holding => true
  | _ => false

/-- `_finish_impl` needs the event lock no longer. -/
def late : FinishTask → Bool
  | .reporting | .closing | .joiningTimers _ | .joiningStream _ | .over => true
  | _ => false

def reason? : FinishTask → Option DoneReason
  | .snapshotting reason | .acquiring reason _ => some reason
  | _ => none

/-- How far the task is. -/
def rank : FinishTask → ℕ
  | .absent => 0
  | .snapshotting _ => 1
  | .acquiring _ _ => 2
  | .holding => 3
  | .reporting => 4
  | .closing => 5
  | .joiningTimers _ => 6
  | .joiningStream _ => 7
  | .over => 8

def awaited : FinishTask → List V2Task
  | .joiningTimers awaited | .joiningStream awaited => awaited
  | _ => []

end FinishTask

namespace LockHolder

def concluding : LockHolder → Bool
  | .finishError _ _ | .finishSettling _ _ | .finishDone _ => true
  | _ => false

/-- The message may bear a response. -/
def speaks : LockHolder → Bool
  | .finishSettling _ _ => true
  | holder => holder.byStream

end LockHolder

namespace V2Session

variable {s t : V2Session} {act : V2Event} {holder : LockHolder}

/-! ## What is claimed -/

/-- Neither a terminal nor the end of the connection is sent. -/
def Quiet (sent : List WireEvent) : Prop := ∀ event ∈ sent, event.mild = true

/-- The terminal is the last message before the end of the connection. -/
def Ending (s : V2Session) : Prop :=
  match s.finish with
  | .closing => ∃ before, Quiet before ∧ s.sent = before ++ [.accountingError]
  | .joiningTimers _ | .joiningStream _ => ∃ before, Quiet before ∧
      (s.sent = before ++ [.accountingError, .close 1011] ∨
        ∃ reason usage, s.sent = before ++ [.sessionDone reason usage])
  | .over => ∃ before, Quiet before ∧
      (s.sent = before ++ [.accountingError, .close 1011] ∨
        ∃ reason usage, s.sent = before ++ [.sessionDone reason usage, .close 1000])
  | _ => Quiet s.sent

structure FramedOnce (s : V2Session) : Prop where
  framed : (readFrames (s.sent.map WireEvent.mark)).isSome = true
  numbered : ∃ ids : List String, ids.Nodup ∧ ∀ event ∈ s.sent, ∀ id seq,
    event.mark.id? = some id → event.mark.number? = some seq →
      ∃ k, seq = k + 1 ∧ ids[k]? = some id
  inside : ∀ before event after, s.sent = before ++ event :: after → event.visible = true →
    ∃ id, event.mark.id? = some id ∧ openAfter (before ++ [event]) = some id
  closedOnce : ∀ id, s.sent.countP (fun event => event.mark.closes id) ≤ 1
  silent : ∀ before event after id, s.sent = before ++ event :: after →
    event.mark.closes id = true → ∀ later ∈ after, later.mark.id? ≠ some id
  completed : ∀ usage, .sessionDone .completed usage ∈ s.sent → openAfter s.sent = none
  ending : s.Ending
  freed : s.finish = .over → s.frames = ∅ ∧ s.outstandingSeqNos = ∅ ∧ s.pendingFrame = none
  awaits : ∀ task ∈ s.finish.awaited, s.waits task = false

/-! ## The condition -/

/-- `session.done` is not delivered by a `_wire` that fails. The final snapshot does not fail while
    another message is on the way. An accounting error reaches the client, and so does its close. -/
def keepsFrame (s : V2Session) : V2Event → Bool
  | .wireEnds result =>
    match s.eventLock with
    | some (.finishDone _) => result ≠ .late
    | _ => true
  | .finalSnapshot result => result.isSome || !s.requestStarted || s.eventLock.isNone
  | .reportEnds result => result = .sent
  | .closeEnds delivered => delivered
  | _ => true

/-! ## The invariant -/

/-- What is sent, with the message that is on the way. -/
def line (s : V2Session) : List WireEvent := s.sent ++ (s.eventLock.map LockHolder.event).toList

/-- The responses, as the session has them. -/
def frame (s : V2Session) : Frames String where
  opened := s.responseIds
  current := s.response.map OpenResponse.id

/-- The messages that are sent are those that the session has counted. -/
def syncs (s : V2Session) : Prop :=
  (s.stream = .absent ∨ s.stream = .running ∨ s.requestFinished = true) ∧ s.finish.late = false

/-- What holds while `holder` has the event lock. -/
structure Bears (stream : StreamTask) (finish : FinishTask) (requestFinished : Bool)
    (response : Option OpenResponse) (holder : LockHolder) : Prop where
  byStream : holder.byStream = true → stream = .running
  byFinish : holder.concluding = true → finish.isHolding = true
  outside : holder.speaks = false → holder.event.mark = .outside
  mild : (∀ event, holder ≠ .finishDone event) → holder.event.mild = true
  done : ∀ event, holder = .finishDone event → ∃ reason usage, event = .sessionDone reason usage ∧
    (reason = .completed → requestFinished = true ∧ response = none)
  settling : ∀ reason event, holder = .finishSettling reason event →
    requestFinished = true ∧ response = none
  failing : ∀ reason event, holder = .finishError reason event → reason ≠ .completed

structure Framing (s : V2Session) : Prop where
  counted : s.responseSeq = s.responseIds.length
  finished : s.requestFinished = true → s.stream = .finishing ∨ s.stream = .over
  -- The event lock.
  holder : ∀ holder, s.eventLock = some holder →
    Bears s.stream s.finish s.requestFinished s.response holder
  free : s.finish.late = true → s.eventLock = none
  reason : s.finish.reason? = some .completed → s.requestFinished = true
  -- The log.
  log : ∃ f, readFrames (s.line.map WireEvent.mark) = some f ∧ (s.syncs → f = s.frame)
  visible : ∀ event ∈ s.line, event.visible = true → ∃ id, event.mark.id? = some id
  completed : ∀ usage, .sessionDone .completed usage ∈ s.sent → openAfter s.sent = none
  ending : s.Ending
  -- What is left.
  shut : s.finalizing = true → s.closed = true
  freed : s.finish = .over → s.frames = ∅ ∧ s.outstandingSeqNos = ∅ ∧ s.pendingFrame = none
  joined : ∀ task ∈ s.finish.awaited, (task = .stream ∧ s.stream = .over) ∨
    ∃ k, task = .timer k ∧ s.timers[k]? = some .over

theorem set_over {timers : List TimerTask} {j k : ℕ} (ho : timers[j]? = some .over) :
    (timers.set k .over)[j]? = some .over := by
  rw [getElem?_set]
  split
  · rename_i heq
    subst heq
    rw [if_pos (List.getElem?_eq_some_iff.mp ho).1]
  · exact ho

namespace Framing

theorem initial (contextLimit : ℤ) : Framing { contextLimit := contextLimit } where
  counted := rfl
  finished := by
    intro h
    cases h
  holder := by
    intro holder h
    cases h
  free := by
    intro h
    cases h
  reason := by
    intro h
    cases h
  log := ⟨{}, rfl, fun _ => rfl⟩
  visible := by rintro _ ⟨⟩
  completed := by rintro _ ⟨⟩
  ending := by rintro _ ⟨⟩
  shut := by
    intro h
    cases h
  freed := by
    intro h
    cases h
  joined := by rintro _ ⟨⟩

section

variable (h : s.Framing)
include h

theorem frames_sent : ∃ f, readFrames (s.sent.map WireEvent.mark) = some f := by
  obtain ⟨f, hf, -⟩ := h.log
  rw [line, map_append] at hf
  exact frames_prefix hf

theorem toFramedOnce : s.FramedOnce := by
  obtain ⟨f, hf⟩ := h.frames_sent
  exact {
    framed := by rw [hf]; rfl
    numbered := ⟨f.opened, frames_nodup hf, fun event hmem id seq hid hseq =>
      frames_numbered hf _ (mem_map_of_mem hmem) id seq hid hseq⟩
    inside := by
      intro before event after heq hv
      have hmem : event ∈ s.line := by
        refine mem_append_left _ ?_
        rw [heq]
        exact mem_append_right _ mem_cons_self
      obtain ⟨id, hid⟩ := h.visible event hmem hv
      refine ⟨id, hid, ?_⟩
      rw [heq, append_cons, map_append] at hf
      obtain ⟨g, hg⟩ := frames_prefix hf
      rw [openAfter, hg, bind_some]
      rw [map_append, map_singleton, frames_concat] at hg
      obtain ⟨g', -, hread⟩ := bind_eq_some_iff.mp hg
      cases event with
      | delta responseId responseSeq turnId visible =>
        cases responseId with
        | none => cases hid
        | some other =>
          cases responseSeq with
          | none => cases hid
          | some seq =>
            cases hid
            exact Frames.current_of_within hread
      | _ => cases hv
    closedOnce := by
      intro id
      have hcnt := frames_closes hf id
      rw [countP_map] at hcnt
      exact hcnt
    silent := by
      intro before event after id heq hcloses later hlater
      rw [heq, map_append, map_cons] at hf
      exact frames_silent hf hcloses _ (mem_map_of_mem hlater)
    completed := h.completed
    ending := h.ending
    freed := h.freed
    awaits := by
      intro task hmem
      rcases h.joined task hmem with ⟨rfl, ho⟩ | ⟨k, rfl, ho⟩
      · rw [waits, ho]
        rfl
      · rw [waits, ho]
        rfl }

/-! ## Tasks that move on -/

theorem setStream (phase : StreamTask) (hl : s.eventLock.any LockHolder.byStream = false)
    (hphase : phase ≠ .absent ∧ phase ≠ .running) (ho : s.stream = .over → phase = .over)
    (hfin : s.requestFinished = true → phase = .finishing ∨ phase = .over) :
    Framing { s with stream := phase } :=
  { h with
    finished := hfin
    holder := fun holder hhld =>
      { h.holder holder hhld with
        byStream := fun hby =>
          absurd hby (Bool.eq_false_iff.mp ((any_eq_false _ _).mp hl holder hhld)) }
    log := by
      obtain ⟨f, hf, hsync⟩ := h.log
      refine ⟨f, hf, fun hsyncs => hsync ⟨?_, hsyncs.2⟩⟩
      rcases hsyncs.1 with habs | hr | hfin
      · exact absurd habs hphase.1
      · exact absurd hr hphase.2
      · exact .inr (.inr hfin)
    joined := fun task hmem => (h.joined task hmem).imp_left fun hstr =>
      ⟨hstr.1, ho hstr.2⟩ }

theorem failStream (hr : s.stream = .running)
    (hl : s.eventLock.any LockHolder.byStream = false) : Framing { s with stream := .failed } := by
  refine h.setStream _ hl ⟨by rintro ⟨⟩, by rintro ⟨⟩⟩ (fun ho => ?_) fun hfin => ?_
  · rw [hr] at ho
    cases ho
  · rw [unfinished h.finished (.inr hr)] at hfin
    cases hfin

theorem finishStream (hstr : s.stream = .running)
    (hl : s.eventLock.any LockHolder.byStream = false) :
    Framing { s with stream := .finishing, requestFinished := true, frames := ∅ } :=
  { h with
    finished := fun _ => .inl rfl
    holder := fun holder hhld =>
      { h.holder holder hhld with
        byStream := fun hby =>
          absurd hby (Bool.eq_false_iff.mp ((any_eq_false _ _).mp hl holder hhld))
        done := fun event heq => by
          obtain ⟨reason, usage, he, hc⟩ := (h.holder holder hhld).done event heq
          exact ⟨reason, usage, he, fun hrsn => ⟨rfl, (hc hrsn).2⟩⟩
        settling := fun reason event heq =>
          ⟨rfl, ((h.holder holder hhld).settling reason event heq).2⟩ }
    reason := fun _ => rfl
    log := by
      obtain ⟨f, hf, hsync⟩ := h.log
      exact ⟨f, hf, fun hsyncs => hsync ⟨.inr (.inl hstr), hsyncs.2⟩⟩
    freed := fun ho => ⟨rfl, (h.freed ho).2⟩
    joined := fun task hmem => (h.joined task hmem).imp_left fun ho => by
      rw [hstr] at ho
      cases ho.2 }

end

theorem not_finalizing (hfinalizing : s.finalizing = false) : s.finish = .absent := by
  unfold finalizing at hfinalizing
  split at hfinalizing
  · assumption
  · cases hfinalizing

theorem cancelBinaryTimer (h : s.Framing) : s.cancelBinaryTimer.Framing := by
  unfold V2Session.cancelBinaryTimer
  split
  · exact h
  · rename_i k hk
    refine { h with joined := fun task hmem => (h.joined task hmem).imp_right ?_ }
    rintro ⟨j, rfl, ho⟩
    refine ⟨j, rfl, ?_⟩
    show (if _ then s.timers.set k .over else s.timers)[j]? = some .over
    split
    · exact set_over ho
    · exact ho

theorem callFinish (h : s.Framing) {reason : DoneReason}
    (hrsn : reason = .completed → s.requestFinished = true) :
    (s.callFinish reason).Framing := by
  unfold V2Session.callFinish
  split
  · exact h
  · rename_i hfinalizing
    have habs := not_finalizing (Bool.eq_false_iff.mpr hfinalizing)
    have hquiet := h.ending
    rw [Ending, habs] at hquiet
    have hsrt : Framing { s with finish := .snapshotting reason, closed := true } :=
      { h with
        holder := fun holder hhld =>
          { h.holder holder hhld with
            byFinish := fun hby => by
              have hh := (h.holder holder hhld).byFinish hby
              rw [habs] at hh
              cases hh }
        free := by
          intro hlate
          cases hlate
        reason := fun heq => hrsn (some.inj heq)
        log := by
          obtain ⟨f, hf, hsync⟩ := h.log
          exact ⟨f, hf, fun hsyncs => hsync ⟨hsyncs.1, by rw [habs]; rfl⟩⟩
        ending := hquiet
        shut := fun _ => rfl
        freed := by
          intro ho
          cases ho
        joined := (by rintro _ ⟨⟩) }
    exact hsrt.cancelBinaryTimer

/-! ## The event lock -/

/-- Nothing final is sent before `_finish_impl` is through with the event lock. -/
theorem quiet (h : s.Framing) (hlate : s.finish.late = false) : Quiet s.sent := by
  have hending := h.ending
  unfold Ending at hending
  split at hending
  · rename_i heq; rw [heq] at hlate; cases hlate
  · rename_i heq; rw [heq] at hlate; cases hlate
  · rename_i heq; rw [heq] at hlate; cases hlate
  · rename_i heq; rw [heq] at hlate; cases hlate
  · exact hending

theorem ending_of_quiet (hlate : s.finish.late = false) (hquiet : Quiet s.sent) : s.Ending := by
  unfold Ending
  split
  · rename_i heq; rw [heq] at hlate; cases hlate
  · rename_i heq; rw [heq] at hlate; cases hlate
  · rename_i heq; rw [heq] at hlate; cases hlate
  · rename_i heq; rw [heq] at hlate; cases hlate
  · exact hquiet

theorem not_late (h : s.Framing) (hl : s.eventLock = some holder) : s.finish.late = false := by
  cases hlate : s.finish.late with
  | false => rfl
  | true =>
    rw [h.free hlate] at hl
    cases hl

theorem line_of_none (hn : s.eventLock = none) : s.line = s.sent := by
  rw [line, hn]
  exact append_nil _

theorem line_of_some (hl : s.eventLock = some holder) : s.line = s.sent ++ [holder.event] := by
  rw [line, hl]
  rfl

theorem frames_outside {sent : List WireEvent} {event : WireEvent} (hm : event.mark = .outside) :
    readFrames ((sent ++ [event]).map WireEvent.mark) = readFrames (sent.map WireEvent.mark) := by
  rw [map_append, map_singleton, frames_concat, hm]
  exact bind_fun_some _

theorem hold (h : s.Framing) (hn : s.eventLock = none) (hlate : s.finish.late = false)
    (hb : Bears s.stream s.finish s.requestFinished s.response holder)
    (hm : holder.event.mark = .outside) : (s.hold holder).Framing :=
  { h with
    holder := by
      intro other heq
      cases heq
      exact hb
    free := fun hlate' => absurd (hlate.symm.trans hlate') Bool.false_ne_true
    log := by
      obtain ⟨f, hf, hsync⟩ := h.log
      rw [line_of_none hn] at hf
      exact ⟨f, (frames_outside hm).trans hf, hsync⟩
    visible := by
      intro event hmem hv
      rcases mem_append.mp hmem with hmem | hmem
      · exact h.visible event (mem_append_left _ hmem) hv
      · obtain rfl : event = holder.event := mem_singleton.mp hmem
        cases he : holder.event with
        | delta id seq turnId visible =>
          rw [he] at hm
          cases id with
          | none => cases hm
          | some id => cases seq <;> cases hm
        | _ => rw [he] at hv; cases hv }

theorem speak (h : s.Framing) (hn : s.eventLock = none) (hsyncs : s.syncs)
    (response : Option OpenResponse) (seq : ℕ) (ids : List String) (ledger : UsageLedger)
    (billing : List (AccountEntry Usage)) (hseq : seq = ids.length)
    (hb : Bears s.stream s.finish s.requestFinished response holder)
    (hread : s.frame.read holder.event.mark =
      some { opened := ids, current := response.map OpenResponse.id })
    (hv : holder.event.visible = true → ∃ id, holder.event.mark.id? = some id) :
    (V2Session.hold { s with
      response := response
      responseSeq := seq
      responseIds := ids
      ledger := ledger
      billing := billing } holder).Framing :=
  { h with
    counted := hseq
    holder := by
      intro other heq
      cases heq
      exact hb
    free := fun hlate => absurd (hsyncs.2.symm.trans hlate) Bool.false_ne_true
    log := by
      obtain ⟨f, hf, hsync⟩ := h.log
      rw [line_of_none hn, hsync hsyncs] at hf
      refine ⟨_, ?_, fun _ => rfl⟩
      show readFrames ((s.sent ++ [holder.event]).map WireEvent.mark) = _
      rw [map_append, map_singleton, frames_concat, hf]
      exact hread
    visible := by
      intro event hmem hshown
      rcases mem_append.mp hmem with hmem | hmem
      · exact h.visible event (mem_append_left _ hmem) hshown
      · obtain rfl : event = holder.event := mem_singleton.mp hmem
        exact hv hshown }

end Framing

theorem Bears.plain {stream : StreamTask} {finish : FinishTask} {requestFinished : Bool}
    {response : Option OpenResponse} {task : V2Task} {event : WireEvent}
    (hstr : task = .stream → stream = .running)
    (houtside : task ≠ .stream → event.mark = .outside) (hmild : event.mild = true) :
    Bears stream finish requestFinished response (.plain task event) where
  byStream := fun hby => hstr (of_decide_eq_true hby)
  byFinish := by
    intro hby
    cases hby
  outside := fun hspeaks => houtside (of_decide_eq_false hspeaks)
  mild := fun _ => hmild
  done := by
    intro _ heq
    cases heq
  settling := by
    intro _ _ heq
    cases heq
  failing := by
    intro _ _ heq
    cases heq

namespace Framing

variable {task : V2Task}

theorem hold_plain (h : s.Framing) (hn : s.eventLock = none) (hlate : s.finish.late = false)
    {event : WireEvent} (hstr : task = .stream → s.stream = .running)
    (hm : event.mark = .outside) (hmild : event.mild = true) :
    (s.hold (.plain task event)).Framing :=
  h.hold hn hlate (Bears.plain hstr (fun _ => hm) hmild) hm

theorem startBinaryTimer (h : s.Framing) (habs : s.finish = .absent) :
    s.startBinaryTimer.Framing := by
  have hcancel := h.cancelBinaryTimer
  have hfinish : s.cancelBinaryTimer.finish = .absent := by
    unfold V2Session.cancelBinaryTimer
    split <;> exact habs
  exact { hcancel with
    joined := fun task hmem => by
      rw [show s.startBinaryTimer.finish = .absent from hfinish] at hmem
      exact absurd hmem not_mem_nil }

section

variable (h : s.Framing) (hn : s.eventLock = none) (hr : s.stream = .running)
  (hlate : s.finish.late = false)
include h hn hr hlate

theorem send_text {uuid : String} (hfrs : s.freshId uuid = true) (turnId : ℤ) (visible : Bool)
    : ((s.openResponse uuid turnId visible).hold
      (.plain .stream ((s.openResponse uuid turnId visible).deltaEvent turnId visible))).Framing := by
  have hsyncs : s.syncs := ⟨.inr (.inl hr), hlate⟩
  have hb : ∀ response id seq, Bears s.stream s.finish s.requestFinished response
      (.plain .stream (.delta id seq turnId visible)) := fun _ _ _ =>
    Bears.plain (fun _ => hr) (fun hne => absurd rfl hne) rfl
  unfold openResponse
  split
  · rename_i hopen
    refine h.speak hn hsyncs (some { id := "response_" ++ uuid, turnId := turnId })
      (s.responseSeq + 1) (s.responseIds ++ ["response_" ++ uuid]) s.ledger s.billing ?_
      (hb _ _ _) ?_ fun _ => ⟨_, rfl⟩
    · rw [length_append, h.counted]
      rfl
    · have hnew : "response_" ++ uuid ∉ s.responseIds := of_decide_eq_true hfrs
      show s.frame.read (.within ("response_" ++ uuid) (s.responseSeq + 1)) = _
      rw [Frames.read, frame, hopen.1, h.counted]
      exact (if_neg (by rintro ⟨⟩)).trans (if_pos ⟨rfl, hnew, rfl⟩)
  · rename_i hkeep
    refine h.speak hn hsyncs s.response s.responseSeq s.responseIds s.ledger s.billing h.counted
      (hb _ _ _) ?_ ?_
    · cases hresponse : s.response with
      | none =>
        show s.frame.read (s.deltaEvent turnId visible).mark = _
        rw [deltaEvent, hresponse, frame, hresponse]
        rfl
      | some response =>
        show s.frame.read (s.deltaEvent turnId visible).mark = _
        rw [deltaEvent, hresponse, frame, hresponse]
        exact (if_pos rfl).trans (if_pos h.counted)
    · intro hv
      cases hresponse : s.response with
      | none => exact absurd ⟨hresponse, hv⟩ hkeep
      | some response =>
        refine ⟨response.id, ?_⟩
        show (s.deltaEvent turnId visible).mark.id? = _
        rw [deltaEvent, hresponse]
        rfl

theorem send_interrupted :
    (V2Session.hold { s with response := none, billing := s.billing ++ [.mark] }
      (.plain .stream (.interrupted (s.response.map OpenResponse.id)))).Framing := by
  have hb : Bears s.stream s.finish s.requestFinished none
      (.plain .stream (.interrupted (s.response.map OpenResponse.id))) :=
    Bears.plain (fun _ => hr) (fun hne => absurd rfl hne) rfl
  refine h.speak hn ⟨.inr (.inl hr), hlate⟩ none s.responseSeq s.responseIds s.ledger
    (s.billing ++ [.mark]) h.counted hb ?_ ?_
  · show s.frame.read (WireEvent.interrupted (s.response.map OpenResponse.id)).mark = _
    cases hresponse : s.response with
    | none =>
      rw [frame, hresponse]
      rfl
    | some response =>
      rw [frame, hresponse]
      exact if_pos ⟨rfl, rfl⟩
  · intro hv
    cases hv

end

theorem send (h : s.Framing) (hn : s.eventLock = none) {uuid : String} {payload : Payload}
    (htk : task = .stream → s.stream = .running)
    (hstr : payload.fromClient = false → task = .stream ∧ s.freshId uuid = true)
    (hsend : s.send task uuid payload = some t) : t.Framing := by
  unfold V2Session.send at hsend
  split at hsend
  · cases hsend
    exact h
  · rename_i hfinalizing
    have habs := not_finalizing (Bool.or_eq_false_iff.mp (Bool.eq_false_iff.mpr hfinalizing)).1
    have hlate : s.finish.late = false := by rw [habs]; rfl
    cases payload with
    | text turnId visible =>
      dsimp only at hsend
      obtain ⟨rfl, hfrs⟩ := hstr rfl
      split at hsend
      · cases hsend
      split at hsend
      · cases hsend
      cases hsend
      exact h.send_text hn (htk rfl) hlate hfrs turnId visible
    | silence =>
      cases hsend
      refine h.hold hn hlate ?_ rfl
      exact {
        byStream := fun _ => htk (hstr rfl).1
        byFinish := by
          intro hby
          cases hby
        outside := fun _ => rfl
        mild := fun _ => rfl
        done := by
          intro _ heq
          cases heq
        settling := by
          intro _ _ heq
          cases heq
        failing := by
          intro _ _ heq
          cases heq }
    | interrupted =>
      cases hsend
      obtain ⟨rfl, -⟩ := hstr rfl
      exact h.send_interrupted hn (htk rfl) hlate
    | responseDone finishReason =>
      cases hsend
      exact { h with }
    | frameReady seqNo =>
      cases hsend
      have hsame : s.startBinaryTimer.eventLock = s.eventLock ∧
          s.startBinaryTimer.stream = s.stream ∧ s.startBinaryTimer.finish = s.finish := by
        unfold V2Session.startBinaryTimer V2Session.cancelBinaryTimer
        split <;> exact ⟨rfl, rfl, rfl⟩
      exact (h.startBinaryTimer habs).hold_plain (hsame.1.trans hn)
        (by rw [hsame.2.2]; exact hlate) (fun heq => hsame.2.1.trans (htk heq)) rfl rfl
    | error code =>
      dsimp only at hsend
      split at hsend
      · cases hsend
        exact h.hold_plain hn hlate htk rfl rfl
      · cases hsend
        exact { h with }
    | other =>
      cases hsend
      exact h.hold_plain hn hlate htk rfl rfl

variable {sent : List WireEvent} {reason : DoneReason}

/-! ## The wire -/

theorem quiet_concat {event : WireEvent} (hquiet : Quiet sent) (hmild : event.mild = true) :
    Quiet (sent ++ [event]) := by
  intro earlier hmem
  rcases mem_append.mp hmem with hmem | hmem
  · exact hquiet earlier hmem
  · obtain rfl := mem_singleton.mp hmem
    exact hmild

/-- What may have reached the wire when a `_wire` raises. -/
structure Dropped (s : V2Session) (holder : LockHolder) (sent : List WireEvent) : Prop where
  sub : sent = s.sent ∨ sent = s.sent ++ [holder.event]
  quiet : Quiet sent

theorem Dropped.log (hd : Dropped s holder t.sent) (h : s.Framing)
    (hl : s.eventLock = some holder) :
    ∃ f, readFrames (t.sent.map WireEvent.mark) = some f ∧
      (holder.event.mark = .outside ∨ t.sent = s.sent ++ [holder.event] → s.syncs → f = s.frame) := by
  obtain ⟨f, hf, hsync⟩ := h.log
  rw [line_of_some hl] at hf
  rcases hd.sub with heq | heq
  · rw [map_append] at hf
    obtain ⟨g, hg⟩ := frames_prefix hf
    refine ⟨g, by rw [heq]; exact hg, fun hcnd hsyncs => ?_⟩
    have hm := hcnd.resolve_right (by simp [heq])
    rw [← map_append, frames_outside hm, hg] at hf
    exact (some.inj hf).trans (hsync hsyncs)
  · exact ⟨f, by rw [heq]; exact hf, fun _ => hsync⟩

theorem Dropped.visible (hd : Dropped s holder sent) (h : s.Framing)
    (hl : s.eventLock = some holder) :
    ∀ event ∈ sent, event.visible = true → ∃ id, event.mark.id? = some id := by
  intro event hmem
  refine h.visible event ?_
  rw [line_of_some hl]
  rcases hd.sub with heq | heq
  · exact mem_append_left _ (heq ▸ hmem)
  · exact heq ▸ hmem

theorem completed_of_quiet (hquiet : Quiet sent) (usage : Usage) :
    .sessionDone .completed usage ∉ sent := by
  intro hmem
  cases hquiet _ hmem

section

variable (h : s.Framing) (hl : s.eventLock = some holder)
include h hl

/-- The event lock is released; what the session has counted is sent, or bears no response. -/
theorem lower (hd : Dropped s holder sent) {phase : StreamTask}
    (hfin : s.requestFinished = true → phase = .finishing ∨ phase = .over)
    (ho : s.stream = .over → phase = .over)
    (hsyncs : syncs { s with stream := phase } →
      s.syncs ∧ (holder.event.mark = .outside ∨ sent = s.sent ++ [holder.event])) :
    Framing { s with sent := sent, eventLock := none, stream := phase } :=
  { h with
    finished := hfin
    holder := by
      intro other heq
      cases heq
    free := fun _ => rfl
    log := by
      obtain ⟨f, hf, hsync⟩ := Dropped.log (t := { s with sent := sent }) hd h hl
      refine ⟨f, ?_, fun hcounts => hsync (hsyncs hcounts).2 (hsyncs hcounts).1⟩
      rw [line_of_none rfl]
      exact hf
    visible := by
      rw [line_of_none rfl]
      exact hd.visible h hl
    completed := fun usage hmem => absurd hmem (completed_of_quiet hd.quiet usage)
    ending := ending_of_quiet (s := { s with sent := sent, stream := phase }) (h.not_late hl)
      hd.quiet
    joined := fun task hmem => (h.joined task hmem).imp_left fun hstr =>
      ⟨hstr.1, ho hstr.2⟩ }

theorem release (hm : holder.event.mark = .outside) (hd : Dropped s holder sent) :
    Framing { s with sent := sent, eventLock := none } :=
  h.lower hl hd h.finished id fun hsyncs => ⟨hsyncs, .inl hm⟩

theorem dropStream (hby : holder.byStream = true) (hd : Dropped s holder sent) :
    Framing { s with sent := sent, eventLock := none, stream := .failed } := by
  have hr := (h.holder holder hl).byStream hby
  have hunfinished := Bool.eq_false_iff.mp (unfinished h.finished (.inr hr))
  refine h.lower hl hd (fun hfin => absurd hfin hunfinished) (fun ho => ?_)
    fun hsyncs => ?_
  · cases hr.symm.trans ho
  · rcases hsyncs.1 with hphase | hphase | hfin
    · cases hphase
    · cases hphase
    · exact absurd hfin hunfinished

end

theorem finalizing_of_holding (hh : s.finish.isHolding = true) : s.finalizing = true := by
  unfold finalizing
  cases hphase : s.finish with
  | absent =>
    rw [hphase] at hh
    cases hh
  | _ => rfl

/-! ## The end -/

/-- The last message is `session.done`, or the accounting error and its close. -/
def Last (sent : List WireEvent) : Prop :=
  ∃ before, Quiet before ∧ (sent = before ++ [.accountingError, .close 1011] ∨
    ∃ reason usage, sent = before ++ [.sessionDone reason usage])

theorem of_late (hlate : s.finish.late = true) (hn : s.eventLock = none)
    (hcnd : s.responseSeq = s.responseIds.length)
    (hfin : s.requestFinished = true → s.stream = .finishing ∨ s.stream = .over)
    (hlog : ∃ f, readFrames (s.sent.map WireEvent.mark) = some f)
    (hv : ∀ event ∈ s.sent, event.visible = true → ∃ id, event.mark.id? = some id)
    (hc : ∀ usage, .sessionDone .completed usage ∈ s.sent → openAfter s.sent = none)
    (hending : s.Ending) (hcl : s.closed = true)
    (hfreed : s.finish = .over → s.frames = ∅ ∧ s.outstandingSeqNos = ∅ ∧ s.pendingFrame = none)
    (hjoined : ∀ task ∈ s.finish.awaited, (task = .stream ∧ s.stream = .over) ∨
      ∃ k, task = .timer k ∧ s.timers[k]? = some .over) : s.Framing where
  counted := hcnd
  finished := hfin
  holder := by
    intro _ heq
    rw [hn] at heq
    cases heq
  free := fun _ => hn
  reason := by
    intro heq
    cases hphase : s.finish with
    | snapshotting reason | acquiring reason final => rw [hphase] at hlate; cases hlate
    | _ => rw [hphase] at heq; cases heq
  log := by
    obtain ⟨f, hf⟩ := hlog
    refine ⟨f, ?_, fun hsyncs => ?_⟩
    · rw [line_of_none hn]
      exact hf
    · exact absurd (hsyncs.2.symm.trans hlate) Bool.false_ne_true
  visible := by
    rw [line_of_none hn]
    exact hv
  completed := hc
  ending := hending
  shut := fun _ => hcl
  freed := hfreed
  joined := hjoined

theorem dropFinish (h : s.Framing) (hl : s.eventLock = some holder)
    (hby : holder.concluding = true) (hd : Dropped s holder sent) :
    Framing { s with sent := sent, eventLock := none, finish := .reporting } := by
  obtain ⟨f, hf, -⟩ := Dropped.log (t := { s with sent := sent }) hd h hl
  refine of_late rfl rfl h.counted h.finished ⟨f, hf⟩ (hd.visible h hl) (fun usage hmem => ?_)
    hd.quiet (h.shut (finalizing_of_holding ((h.holder holder hl).byFinish hby)))
    (by rintro ⟨⟩) (by rintro _ ⟨⟩)
  exact absurd hmem (completed_of_quiet hd.quiet usage)

section

variable (h : s.Framing)
include h

theorem visible_sent :
    ∀ event ∈ s.sent, event.visible = true → ∃ id, event.mark.id? = some id :=
  fun event hmem => h.visible event (mem_append_left _ hmem)

theorem visible_concat {event : WireEvent} (he : event.visible = false) :
    ∀ event' ∈ s.sent ++ [event], event'.visible = true → ∃ id, event'.mark.id? = some id := by
  intro event' hmem hv
  rcases mem_append.mp hmem with hmem | hmem
  · exact h.visible_sent event' hmem hv
  · obtain rfl := mem_singleton.mp hmem
    exact absurd (he.symm.trans hv) Bool.false_ne_true

theorem completed_concat {event : WireEvent} (hm : event.mark = .outside)
    (he : ∀ usage, event ≠ .sessionDone .completed usage) (usage : Usage)
    (hmem : .sessionDone .completed usage ∈ s.sent ++ [event])
    : openAfter (s.sent ++ [event]) = none := by
  rcases mem_append.mp hmem with hmem | hmem
  · rw [openAfter, frames_outside hm]
    exact h.completed usage hmem
  · exact absurd (mem_singleton.mp hmem).symm (he usage)

section

variable (hn : s.eventLock = none)
include hn

theorem leaveFinish (hlast : Last sent) (hlog : ∃ f, readFrames (sent.map WireEvent.mark) = some f)
    (hv : ∀ event ∈ sent, event.visible = true → ∃ id, event.mark.id? = some id)
    (hc : ∀ usage, .sessionDone .completed usage ∈ sent → openAfter sent = none)
    (hcl : s.closed = true) : (V2Session.leaveFinish { s with sent := sent }).Framing := by
  refine of_late rfl hn h.counted h.finished hlog hv hc hlast hcl
    (by rintro ⟨⟩) fun task hmem => ?_
  obtain ⟨k, hk, rfl⟩ := mem_map.mp hmem
  obtain ⟨hrange, hwts⟩ := mem_filter.mp hk
  refine .inr ⟨k, rfl, ?_⟩
  have hlt := mem_range.mp hrange
  show (s.timers.map fun timer => if timer = .sleeping then .over else timer)[k]? = some .over
  rw [getElem?_map, getElem?_eq_getElem hlt, map_some]
  -- the timers that sleep are cancelled, and none waits for the lock that the session just left
  cases htimer : s.timers[k]
  · rfl
  · have hwaiting : s.waits (.timer k) = true := by
      rw [waits, getElem?_eq_getElem hlt, htimer]
      rfl
    rw [show V2Session.waits { s with sent := sent } (.timer k) = s.waits (.timer k) from rfl,
      hwaiting] at hwts
    cases hwts
  · rfl

theorem endSession (hh : s.finish.isHolding = true) {reason : DoneReason}
    (hc : reason = .completed → s.requestFinished = true ∧ s.response = none) :
    (s.endSession reason).Framing := by
  have hlate : s.finish.late = false := by
    cases hphase : s.finish with
    | holding => rfl
    | _ => rw [hphase] at hh; cases hh
  have hterminal : Framing { s with terminalSent := true } := { h with }
  refine hterminal.hold hn hlate ?_ rfl
  exact {
    byStream := by
      intro hby
      cases hby
    byFinish := fun _ => hh
    outside := fun _ => rfl
    mild := fun hne => absurd rfl (hne _)
    done := by
      intro event heq
      cases heq
      exact ⟨reason, _, rfl, hc⟩
    settling := by
      intro _ _ heq
      cases heq
    failing := by
      intro _ _ heq
      cases heq }

theorem settle (hsyncs : s.syncs) {response : OpenResponse}
    (hresponse : s.response = some response) (reason : String)
    (hhld : holder = .settling (s.doneEvent response reason) ∨
      holder = .finishSettling .completed (s.doneEvent response reason))
    (hstr : holder.byStream = true → s.stream = .running)
    (hfinish : holder.concluding = true → s.finish.isHolding = true ∧ s.requestFinished = true) :
    (s.settled.hold holder).Framing := by
  refine h.speak hn hsyncs none s.responseSeq s.responseIds s.ledger.settle.2
    (s.billing ++ [.settled s.ledger.settle.1.delta]) h.counted ?_ ?_ ?_
  · exact {
      byStream := hstr
      byFinish := fun hby => (hfinish hby).1
      outside := by
        intro hspeaks
        rcases hhld with rfl | rfl <;> cases hspeaks
      mild := by
        intro _
        rcases hhld with rfl | rfl <;> rfl
      done := by
        intro event heq
        rcases hhld with rfl | rfl <;> cases heq
      settling := by
        intro other event heq
        rcases hhld with rfl | rfl
        · cases heq
        · exact ⟨(hfinish rfl).2, rfl⟩
      failing := by
        intro other event heq
        rcases hhld with rfl | rfl <;> cases heq }
  · have he : holder.event = s.doneEvent response reason := by
      rcases hhld with rfl | rfl <;> rfl
    rw [he]
    show s.frame.read (.close response.id (some s.responseSeq)) = _
    rw [Frames.read, frame, hresponse, h.counted]
    exact if_pos ⟨rfl, decide_eq_true rfl⟩
  · intro hv
    rcases hhld with rfl | rfl <;> cases hv

end

section

variable (hl : s.eventLock = some holder)
include hl

theorem dropped_lost :
    Dropped s holder s.sent where
  sub := .inl rfl
  quiet := h.quiet (h.not_late hl)

theorem dropped_late (hmild : holder.event.mild = true)
    : Dropped s holder (s.sent ++ [holder.event]) where
  sub := .inr rfl
  quiet := quiet_concat (h.quiet (h.not_late hl)) hmild

theorem wireFailed (hd : Dropped s holder sent) :
    (V2Session.wireFailed { s with sent := sent } holder).Framing := by
  have hb := h.holder holder hl
  cases holder with
  | plain task event =>
    dsimp only [V2Session.wireFailed]
    split
    · rename_i hby
      exact h.dropStream hl hby hd
    · rename_i hby
      exact h.release hl (hb.outside (Bool.eq_false_iff.mpr hby)) hd
  | silence | settling event => exact h.dropStream hl rfl hd
  | finishError reason event | finishSettling reason event | finishDone event =>
    exact h.dropFinish hl rfl hd

theorem delivered (hmild : holder.event.mild = true) :
    Framing { s with sent := s.sent ++ [holder.event], eventLock := none } :=
  h.lower hl (h.dropped_late hl hmild) h.finished id fun hsyncs => ⟨hsyncs, .inr rfl⟩

end

end

theorem not_late_of_holding (hh : s.finish.isHolding = true) : s.finish.late = false := by
  cases hphase : s.finish with
  | holding => rfl
  | _ => rw [hphase] at hh; cases hh

section

variable (h : s.Framing)
include h

theorem doneSent {event : WireEvent} (hl : s.eventLock = some (.finishDone event)) :
    (V2Session.leaveFinish { s with sent := s.sent ++ [event], eventLock := none }).Framing := by
  have hb := h.holder _ hl
  obtain ⟨reason, usage, rfl, hc⟩ := hb.done event rfl
  have hh := hb.byFinish rfl
  have hquiet := h.quiet (h.not_late hl)
  have hreleased := h.release hl rfl (h.dropped_lost hl)
  obtain ⟨f, hf, hsync⟩ := h.log
  rw [line_of_some hl] at hf
  refine hreleased.leaveFinish rfl ⟨s.sent, hquiet, .inr ⟨reason, usage, rfl⟩⟩ ⟨f, hf⟩ ?_ ?_
    (h.shut (finalizing_of_holding hh))
  · intro event hmem hv
    refine h.visible event ?_ hv
    rw [line_of_some hl]
    exact hmem
  · intro total hmem
    rcases mem_append.mp hmem with hmem | hmem
    · exact absurd hmem (completed_of_quiet hquiet total)
    · obtain ⟨rfl, -⟩ := WireEvent.sessionDone.inj (mem_singleton.mp hmem)
      obtain ⟨hfin, hresponse⟩ := hc rfl
      have hfrm := hsync ⟨.inr (.inr hfin), h.not_late hl⟩
      refine (congrArg (fun read => read.bind Frames.current) hf).trans ?_
      rw [bind_some, hfrm, frame, hresponse]
      rfl

theorem wireSent (hl : s.eventLock = some holder) :
    (V2Session.wireSent { s with sent := s.sent ++ [holder.event] } holder).Framing := by
  have hb := h.holder holder hl
  cases holder with
  | plain task event | settling event => exact h.delivered hl (hb.mild (by rintro _ ⟨⟩))
  | silence =>
    have hsent := h.delivered hl rfl
    have hr := hb.byStream rfl
    dsimp only [V2Session.wireSent]
    split
    · rename_i event t hsettle
      obtain ⟨response, hresponse, heq⟩ := map_eq_some_iff.mp hsettle
      cases heq
      refine hsent.settle rfl ⟨.inr (.inl hr), h.not_late hl⟩ hresponse "silence"
        (.inl rfl) (fun _ => hr) ?_
      intro hby
      cases hby
    · exact hsent
  | finishError reason event =>
    have hsent := h.delivered hl (hb.mild (by rintro _ ⟨⟩))
    refine hsent.endSession rfl (hb.byFinish rfl) fun hrsn => ?_
    exact absurd hrsn (hb.failing reason event rfl)
  | finishSettling reason event =>
    have hsent := h.delivered hl (hb.mild (by rintro _ ⟨⟩))
    exact hsent.endSession rfl (hb.byFinish rfl) fun _ => hb.settling reason event rfl
  | finishDone event => exact h.doneSent hl

theorem wireEnds (hl : s.eventLock = some holder) {result : WireResult}
    (hkeeps : ∀ event, holder = .finishDone event → result ≠ .late) :
    (s.wireEnds holder result).Framing := by
  cases result with
  | sent => exact h.wireSent hl
  | lost => exact h.wireFailed hl (h.dropped_lost hl)
  | late =>
    refine h.wireFailed hl (h.dropped_late hl ((h.holder holder hl).mild ?_))
    rintro event rfl
    exact hkeeps event rfl rfl

/-! ## `_finish_impl` -/

theorem setFinish (hn : s.eventLock = none) (phase : FinishTask)
    (hfinalizing : s.finalizing = true) (hrsn : phase.reason? = none)
    (hlate : phase.late = false → s.finish.late = false)
    (hending : Ending { s with finish := phase }) (ho : phase ≠ .over)
    (hawaited : phase.awaited = []) : Framing { s with finish := phase } :=
  { h with
    holder := by
      intro _ heq
      rw [show s.eventLock = none from hn] at heq
      cases heq
    free := fun _ => hn
    reason := fun heq => by
      rw [hrsn] at heq
      cases heq
    log := by
      obtain ⟨f, hf, hsync⟩ := h.log
      exact ⟨f, hf, fun hsyncs => hsync ⟨hsyncs.1, hlate hsyncs.2⟩⟩
    ending := hending
    shut := fun _ => h.shut hfinalizing
    freed := fun hphase => absurd hphase ho
    joined := fun task hmem => by
      rw [hawaited] at hmem
      exact absurd hmem not_mem_nil }

theorem conclude (hn : s.eventLock = none) (hh : s.finish.isHolding = true)
    (hrsn : reason = .completed → s.requestFinished = true) (error : Option String) :
    (s.conclude reason error).Framing := by
  have hlate := not_late_of_holding hh
  cases error with
  | some code =>
    refine h.hold hn hlate ?_ rfl
    exact {
      byStream := by
        intro hby
        cases hby
      byFinish := fun _ => hh
      outside := fun _ => rfl
      mild := fun _ => rfl
      done := by
        intro _ heq
        cases heq
      settling := by
        intro _ _ heq
        cases heq
      failing := by
        intro other event heq
        cases heq
        unfold errorReason
        split <;> rintro ⟨⟩ }
  | none =>
    show Framing (if _ then _ else _)
    split
    · rename_i hc
      subst hc
      have hfin := hrsn rfl
      unfold settleResponse
      cases hresponse : s.response with
      | none => exact h.endSession hn hh fun _ => ⟨hfin, hresponse⟩
      | some response =>
        refine h.settle hn ⟨.inr (.inr hfin), hlate⟩ hresponse s.finishReason (.inr rfl) ?_
          fun _ => ⟨hh, hfin⟩
        intro hby
        cases hby
    · rename_i hother
      exact h.endSession hn hh fun hc => absurd hc hother

end

theorem finalizing_of_reason (hrsn : s.finish.reason? = some reason) :
    s.finalizing = true ∧ s.finish.late = false := by
  unfold finalizing
  cases hphase : s.finish with
  | snapshotting other | acquiring other final => exact ⟨rfl, rfl⟩
  | _ => rw [hphase] at hrsn; cases hrsn

theorem recordFinal (h : s.Framing) (hn : s.eventLock = none) {final : FinalSnapshot}
    (hphase : s.finish = .acquiring reason final) : (s.recordFinal reason final).Framing := by
  obtain ⟨hfinalizing, hlate⟩ : s.finalizing = true ∧ s.finish.late = false :=
    finalizing_of_reason (by rw [hphase]; rfl)
  have hquiet := h.quiet hlate
  unfold V2Session.recordFinal
  split
  · exact h.setFinish hn .reporting hfinalizing rfl (fun _ => hlate) hquiet (by rintro ⟨⟩) rfl
  · rename_i ledger _
    have hh := h.setFinish hn .holding hfinalizing rfl (fun _ => hlate) hquiet
      (by rintro ⟨⟩) rfl
    have hrcd : Framing { s.withLedger ledger with
        final := some ledger.latest, finish := .holding } := { hh with }
    refine hrcd.conclude hn rfl (fun hrsn => ?_) _
    exact h.reason (by rw [hphase, hrsn]; rfl)

theorem reportEnds (h : s.Framing) (hphase : s.finish = .reporting) :
    (s.reportEnds .sent).Framing := by
  obtain ⟨f, hf⟩ := h.frames_sent
  have hquiet : Quiet s.sent := by
    have hending := h.ending
    rw [Ending, hphase] at hending
    exact hending
  exact of_late rfl (h.free (by rw [hphase]; rfl)) h.counted h.finished
    ⟨f, (frames_outside rfl).trans hf⟩ (h.visible_concat rfl)
    (h.completed_concat rfl (by rintro _ ⟨⟩)) ⟨s.sent, hquiet, rfl⟩
    (h.shut (by unfold finalizing; rw [hphase])) (by rintro ⟨⟩)
    (by rintro _ ⟨⟩)

/-- The close behind the accounting error. -/
theorem closeEnds (h : s.Framing) (hphase : s.finish = .closing) :
    (V2Session.leaveFinish { s with sent := s.sent ++ [.close 1011] }).Framing := by
  obtain ⟨f, hf⟩ := h.frames_sent
  obtain ⟨before, hquiet, hsent⟩ : ∃ before, Quiet before ∧ s.sent = before ++ [.accountingError] := by
    have hending := h.ending
    rw [Ending, hphase] at hending
    exact hending
  refine h.leaveFinish (h.free (by rw [hphase]; rfl)) ⟨before, hquiet, .inl ?_⟩
    ⟨f, (frames_outside rfl).trans hf⟩ (h.visible_concat rfl)
    (h.completed_concat rfl (by rintro _ ⟨⟩)) (h.shut (by unfold finalizing; rw [hphase]))
  rw [hsent, append_assoc]
  rfl

theorem joinStream (h : s.Framing) {awaited : List V2Task}
    (hphase : s.finish = .joiningTimers awaited) : s.joinStream.Framing := by
  have hn := h.free (by rw [hphase]; rfl)
  have hcl := h.shut (by unfold finalizing; rw [hphase])
  have hlast : Last s.sent := by
    have hending := h.ending
    rw [Ending, hphase] at hending
    exact hending
  unfold V2Session.joinStream
  split
  · exact of_late rfl hn h.counted h.finished h.frames_sent h.visible_sent h.completed hlast
      hcl (by rintro ⟨⟩) (by rintro _ ⟨⟩)
  · refine of_late rfl ?_ h.counted (fun _ => .inr rfl) h.frames_sent h.visible_sent h.completed
      hlast hcl (by rintro ⟨⟩) fun task hmem => .inl ⟨mem_singleton.mp hmem, rfl⟩
    show (if s.eventLock.any LockHolder.byStream = true then none else s.eventLock) = none
    rw [hn]
    rfl

/-- The session is closed once: the accounting error has been followed by its own close. -/
theorem closeWebsocket_cases (hlast : Last s.sent) :
    ∃ sent, s.closeWebsocket = { s with sent := sent } ∧
      V2Session.Ending { s with sent := sent, finish := .over } ∧
      (sent = s.sent ∨ sent = s.sent ++ [.close 1000]) := by
  obtain ⟨before, hquiet, hsent⟩ := hlast
  unfold V2Session.closeWebsocket
  rcases hsent with hsent | ⟨reason, usage, hsent⟩
  · have hcl : s.sent.any WireEvent.isClose = true := by
      refine any_eq_true.mpr ⟨.close 1011, ?_, rfl⟩
      rw [hsent]
      exact mem_append_right _ (mem_cons_of_mem _ (mem_singleton_self _))
    rw [if_pos hcl]
    exact ⟨s.sent, rfl, ⟨before, hquiet, .inl hsent⟩, .inl rfl⟩
  · have hopen : s.sent.any WireEvent.isClose = false := by
      refine List.any_eq_false.mpr fun event hmem hclose => ?_
      rw [hsent] at hmem
      rcases mem_append.mp hmem with hmem | hmem
      · have hmild := hquiet event hmem
        rw [WireEvent.mild, hclose, Bool.not_true, Bool.and_false] at hmild
        cases hmild
      · obtain rfl := mem_singleton.mp hmem
        cases hclose
    rw [if_neg (Bool.eq_false_iff.mp hopen)]
    refine ⟨_, rfl, ⟨before, hquiet, .inr ⟨reason, usage, ?_⟩⟩, .inr rfl⟩
    show s.sent ++ [.close 1000] = _
    rw [hsent, append_assoc]
    rfl

theorem cleanUp (h : s.Framing) {awaited : List V2Task}
    (hphase : s.finish = .joiningStream awaited) : s.cleanUp.Framing := by
  have hn := h.free (by rw [hphase]; rfl)
  have hcl := h.shut (by unfold finalizing; rw [hphase])
  obtain ⟨f, hf⟩ := h.frames_sent
  have hlast : Last s.sent := by
    have hending := h.ending
    rw [Ending, hphase] at hending
    exact hending
  obtain ⟨sent, hclose, hending, hsent⟩ := closeWebsocket_cases hlast
  unfold V2Session.cleanUp
  rw [hclose]
  rcases hsent with rfl | rfl
  · exact of_late rfl hn h.counted h.finished h.frames_sent h.visible_sent h.completed hending
      hcl (fun _ => ⟨rfl, rfl, rfl⟩) (by rintro _ ⟨⟩)
  · exact of_late rfl hn h.counted h.finished ⟨f, (frames_outside rfl).trans hf⟩
      (h.visible_concat rfl) (h.completed_concat rfl (by rintro _ ⟨⟩)) hending hcl
      (fun _ => ⟨rfl, rfl, rfl⟩) (by rintro _ ⟨⟩)

/-! ## Steps -/

theorem recordAccounting_ledger (data : AccountingData) :
    ∃ ledger billing,
      (s.recordAccounting data).2 = { s with ledger := ledger, billing := billing } := by
  unfold recordAccounting
  split
  · exact ⟨s.ledger, s.billing, rfl⟩
  split
  · exact ⟨s.ledger, s.billing, rfl⟩
  split
  · exact ⟨s.ledger, s.billing, rfl⟩
  · exact ⟨_, _, rfl⟩

theorem streamReports (h : s.Framing) (hfld : s.stream = .failed) (hn : s.eventLock = none) :
    Framing (({ (s.send .stream "" (.error "response_failed")).getD s with
      stream := .finishing, closed := true, outstandingSeqNos := ∅ } : V2Session).callFinish
        ((s.send .stream "" (.error "response_failed")).getD s).ownReason) := by
  obtain ⟨fatalError, heq⟩ := getD_send_error (s := s)
  rw [heq]
  have hfinishing := h.setStream .finishing (by rw [hn]; rfl) ⟨by rintro ⟨⟩, by rintro ⟨⟩⟩
    (fun ho => by rw [hfld] at ho; cases ho) fun _ => .inl rfl
  have hcl : Framing { s with
      fatalError := fatalError, stream := .finishing, closed := true, outstandingSeqNos := ∅ } :=
    { hfinishing with
      shut := fun _ => rfl
      freed := fun ho => ⟨(h.freed ho).1, rfl, (h.freed ho).2.2⟩ }
  exact hcl.callFinish finished_of_ownReason

theorem not_over (h : s.Framing) (hopen : s.closed = false) : s.finish ≠ .over := by
  intro ho
  rw [h.shut (by unfold finalizing; rw [ho])] at hopen
  cases hopen

theorem step (h : s.Framing) (hst : v2Step s act = some t) (hkeeps : s.keepsFrame act = true) :
    t.Framing := by
  cases act with
  | configure =>
    obtain ⟨habs, ⟨⟩⟩ := of_guard hst
    have hunfinished := Bool.eq_false_iff.mp (unfinished h.finished (.inl habs))
    exact { h with
      finished := fun hfin => absurd hfin hunfinished
      holder := fun holder hhld => { h.holder holder hhld with byStream := fun _ => rfl }
      log := by
        obtain ⟨f, hf, hsync⟩ := h.log
        exact ⟨f, hf, fun hsyncs => hsync ⟨.inl habs, hsyncs.2⟩⟩
      joined := fun task hmem => (h.joined task hmem).imp_left fun ho => by
        rw [habs] at ho
        cases ho.2 }
  | snapshot data =>
    obtain ⟨hctl, heq⟩ := ite_none_right_eq_some.mp hst
    obtain ⟨hr, hl⟩ := running_of_streaming hctl
    obtain ⟨ledger, billing, hrec⟩ := recordAccounting_ledger (s := s) data
    split at heq
    · rename_i u hres
      cases heq
      rw [hres] at hrec
      obtain rfl : t = { s with ledger := ledger, billing := billing } := hrec
      exact { h with }
    · rename_i e u hres
      cases heq
      rw [hres] at hrec
      obtain rfl : u = { s with ledger := ledger, billing := billing } := hrec
      exact { h.failStream hr hl with }
  | streamSend uuid payload =>
    obtain ⟨⟨hctl, hn, hfrs⟩, ⟨⟩⟩ := of_guard hst
    obtain ⟨hr, hl⟩ := running_of_streaming hctl
    cases hsend : s.send .stream uuid payload with
    | some t =>
      exact h.send (isNone_iff_eq_none.mp hn) (fun _ => hr) (fun _ => ⟨rfl, hfrs⟩) hsend
    | none => exact h.failStream hr hl
  | processed seqNo =>
    cases (of_guard hst).2
    refine { h with freed := fun ho => ?_ }
    obtain ⟨hfms, hseqNos, hpnd⟩ := h.freed ho
    exact ⟨by rw [hfms]; rfl, by rw [hseqNos]; rfl, hpnd⟩
  | streamFails =>
    obtain ⟨hctl, ⟨⟩⟩ := of_guard hst
    obtain ⟨hr, hl⟩ := running_of_streaming hctl
    exact h.failStream hr hl
  | streamReports =>
    obtain ⟨⟨hfld, hn⟩, ⟨⟩⟩ := of_guard hst
    exact h.streamReports hfld (isNone_iff_eq_none.mp hn)
  | streamEnds =>
    obtain ⟨hctl, ⟨⟩⟩ := of_guard hst
    obtain ⟨hr, hl⟩ := running_of_streaming hctl
    exact (h.finishStream hr hl).callFinish fun _ => rfl
  | clientSend payload =>
    obtain ⟨⟨hn, hcli⟩, hsend⟩ := ite_none_right_eq_some.mp hst
    refine h.send (isNone_iff_eq_none.mp hn) (by rintro ⟨⟩) (fun hother => ?_) hsend
    exact absurd (hother.symm.trans hcli) Bool.false_ne_true
  | clientFails code | clientCloses =>
    cases hst
    exact { h with shut := fun _ => rfl }
  | cancelTimer =>
    cases hst
    exact h.cancelBinaryTimer
  | reserve seqNo frame =>
    obtain ⟨⟨hopen, -⟩, ⟨⟩⟩ := of_guard hst
    exact { h with freed := fun ho => absurd ho (h.not_over hopen) }
  | storeFrame =>
    dsimp only [v2Step] at hst
    split at hst
    · cases hst
    · obtain ⟨hopen, ⟨⟩⟩ := of_guard hst
      exact { h with freed := fun ho => absurd ho (h.not_over hopen) }
  | release seqNo =>
    cases hst
    refine { h with freed := fun ho => ?_ }
    obtain ⟨hfms, hseqNos, hpnd⟩ := h.freed ho
    refine ⟨by rw [hfms]; rfl, by rw [hseqNos]; rfl, ?_⟩
    show (if s.pendingFrame = some seqNo then none else s.pendingFrame) = none
    rw [hpnd]
    rfl
  | teardown =>
    cases hst
    exact h.callFinish finished_of_ownReason
  | expire k =>
    obtain ⟨hsleeping, ⟨⟩⟩ := of_guard hst
    have hexpired : Framing { s with
        timers := s.timers.set k .finishing, fatalError := some "session_timeout",
        closed := true } := by
      refine { h with
        shut := fun _ => rfl
        joined := fun task hmem => (h.joined task hmem).imp_right ?_ }
      rintro ⟨j, rfl, ho⟩
      refine ⟨j, rfl, ?_⟩
      show (s.timers.set k .finishing)[j]? = some .over
      have hne : k ≠ j := by
        rintro rfl
        rw [hsleeping] at ho
        cases ho
      rw [getElem?_set_ne hne]
      exact ho
    exact hexpired.callFinish (by rintro ⟨⟩)
  | wireEnds result =>
    obtain ⟨holder, hl, rfl⟩ := map_eq_some_iff.mp hst
    refine h.wireEnds hl fun event hdone => ?_
    rw [keepsFrame, hl, hdone] at hkeeps
    exact of_decide_eq_true hkeeps
  | finalSnapshot result =>
    dsimp only [v2Step] at hst
    split at hst
    · rename_i reason hphase
      obtain ⟨hfinalizing, hlate⟩ : s.finalizing = true ∧ s.finish.late = false :=
        finalizing_of_reason (by rw [hphase]; rfl)
      split at hst
      · rename_i final _
        cases hst
        exact { h with
          holder := fun holder hhld =>
            { h.holder holder hhld with
              byFinish := fun hby => by
                have hh := (h.holder holder hhld).byFinish hby
                rw [hphase] at hh
                cases hh }
          free := by
            intro hlate
            cases hlate
          reason := fun heq => h.reason (by rw [hphase]; exact heq)
          log := by
            obtain ⟨f, hf, hsync⟩ := h.log
            exact ⟨f, hf, fun hsyncs => hsync ⟨hsyncs.1, hlate⟩⟩
          ending := h.quiet hlate
          shut := fun _ => h.shut hfinalizing
          freed := by
            intro ho
            cases ho
          joined := (by rintro _ ⟨⟩) }
      · rename_i hfls
        cases hst
        have hn : s.eventLock = none := by
          split at hfls
          · rename_i hstarted
            rw [keepsFrame, hfls, hstarted] at hkeeps
            exact isNone_iff_eq_none.mp hkeeps
          · cases hfls
        exact h.setFinish hn .reporting hfinalizing rfl (fun _ => hlate) (h.quiet hlate)
          (by rintro ⟨⟩) rfl
    · cases hst
  | recordFinal =>
    dsimp only [v2Step] at hst
    split at hst
    · rename_i reason final hphase
      obtain ⟨hn, ⟨⟩⟩ := of_guard hst
      exact h.recordFinal (isNone_iff_eq_none.mp hn) hphase
    · cases hst
  | reportEnds result =>
    dsimp only [v2Step] at hst
    split at hst
    · rename_i hphase
      cases hst
      obtain rfl : result = .sent := of_decide_eq_true hkeeps
      exact h.reportEnds hphase
    · cases hst
  | closeEnds delivered =>
    dsimp only [v2Step] at hst
    split at hst
    · rename_i hphase
      cases hst
      obtain rfl : delivered = true := hkeeps
      exact h.closeEnds hphase
    · cases hst
  | joined =>
    dsimp only [v2Step] at hst
    split at hst
    · rename_i awaited hphase
      cases hst
      exact h.joinStream hphase
    · rename_i awaited hphase
      cases hst
      exact h.cleanUp hphase
    · cases hst
  | finishReturns task =>
    dsimp only [v2Step] at hst
    split at hst
    · obtain ⟨hfinishing, ⟨⟩⟩ := of_guard hst
      refine h.setStream _ ((any_eq_false _ _).mpr fun holder hhld => ?_)
        ⟨by rintro ⟨⟩, by rintro ⟨⟩⟩ (fun _ => rfl) fun _ => .inr rfl
      refine Bool.eq_false_iff.mpr fun hby => ?_
      cases hfinishing.symm.trans ((h.holder holder hhld).byStream hby)
    · rename_i k _ _
      cases (of_guard hst).2
      refine { h with joined := fun task hmem => (h.joined task hmem).imp_right ?_ }
      rintro ⟨j, rfl, ho⟩
      exact ⟨j, rfl, set_over ho⟩
    · cases hst

/-! ## Finalization runs once -/

theorem callFinish_rank (reason : DoneReason) :
    s.finish.rank ≤ (s.callFinish reason).finish.rank := by
  unfold V2Session.callFinish
  split
  · exact le_refl _
  · rename_i hfinalizing
    rw [not_finalizing (Bool.eq_false_iff.mpr hfinalizing)]
    exact Nat.zero_le _

theorem send_finish {task : V2Task} {uuid : String} {payload : Payload}
    (hsend : s.send task uuid payload = some t) : t.finish = s.finish := by
  unfold V2Session.send at hsend
  split at hsend
  · cases hsend
    rfl
  cases payload with
  | text turnId visible =>
    dsimp only at hsend
    split at hsend
    · cases hsend
    split at hsend
    · cases hsend
    cases hsend
    show (s.openResponse uuid turnId visible).finish = s.finish
    unfold openResponse
    split <;> rfl
  | frameReady seqNo =>
    cases hsend
    show s.cancelBinaryTimer.finish = s.finish
    unfold V2Session.cancelBinaryTimer
    split <;> rfl
  | error code =>
    dsimp only at hsend
    split at hsend <;> cases hsend <;> rfl
  | _ => cases hsend; rfl

theorem wireEnds_rank (h : s.Framing) (hl : s.eventLock = some holder) (result : WireResult) :
    s.finish.rank ≤ (s.wireEnds holder result).finish.rank := by
  have hb := h.holder holder hl
  have hh : holder.concluding = true → s.finish = .holding := by
    intro hby
    have hh := hb.byFinish hby
    cases hphase : s.finish with
    | holding => rfl
    | _ => rw [hphase] at hh; cases hh
  -- What `_finish_impl` does behind a `_wire` starts where it holds the lock.
  cases holder with
  | plain task event | settling event => cases result <;> exact le_refl _
  | silence =>
    cases result with
    | sent =>
      show s.finish.rank ≤ (V2Session.wireSent _ .silence).finish.rank
      dsimp only [V2Session.wireSent]
      split
      · rename_i event t hsettle
        obtain ⟨response, -, heq⟩ := map_eq_some_iff.mp hsettle
        cases heq
        exact le_refl _
      · exact le_refl _
    | lost | late => exact le_refl _
  | finishError reason event | finishSettling reason event =>
    rw [hh rfl]
    cases result with
    | sent => exact (congrArg FinishTask.rank (hh rfl)).ge
    | lost | late => exact Nat.le_succ 3
  | finishDone event =>
    rw [hh rfl]
    cases result with
    | sent => exact Nat.le_add_right 3 3
    | lost | late => exact Nat.le_succ 3

/-- No step takes `_finish_impl` back. -/
theorem rank (h : s.Framing) (hst : v2Step s act = some t) : s.finish.rank ≤ t.finish.rank := by
  cases act with
  | snapshot data =>
    obtain ⟨-, heq⟩ := ite_none_right_eq_some.mp hst
    obtain ⟨ledger, billing, hrec⟩ := recordAccounting_ledger (s := s) data
    split at heq
    · rename_i u hres
      cases heq
      rw [hres] at hrec
      exact (congrArg (fun u => u.finish.rank) (show t = _ from hrec)).ge
    · rename_i e u hres
      cases heq
      rw [hres] at hrec
      exact (congrArg (fun u => u.finish.rank) (show u = _ from hrec)).ge
  | streamSend uuid payload =>
    cases (of_guard hst).2
    cases hsend : s.send .stream uuid payload with
    | some t => exact (congrArg FinishTask.rank (send_finish hsend)).ge
    | none => exact le_refl _
  | clientSend payload =>
    obtain ⟨-, hsend⟩ := ite_none_right_eq_some.mp hst
    exact (congrArg FinishTask.rank (send_finish hsend)).ge
  | streamReports =>
    cases (of_guard hst).2
    have hsame : ((s.send .stream "" (.error "response_failed")).getD s).finish = s.finish := by
      cases hsend : s.send .stream "" (.error "response_failed") with
      | some t => exact send_finish hsend
      | none => rfl
    refine le_trans (le_of_eq ?_) (callFinish_rank _)
    exact (congrArg FinishTask.rank hsame).symm
  | streamEnds =>
    cases (of_guard hst).2
    exact callFinish_rank (s := { s with
      stream := .finishing, requestFinished := true, frames := ∅ }) .completed
  | teardown =>
    cases hst
    exact callFinish_rank _
  | expire k =>
    cases (of_guard hst).2
    exact callFinish_rank (s := { s with
      timers := s.timers.set k .finishing, fatalError := some "session_timeout", closed := true })
      .error
  | cancelTimer =>
    cases hst
    unfold V2Session.cancelBinaryTimer
    split <;> exact le_refl _
  | storeFrame =>
    dsimp only [v2Step] at hst
    split at hst
    · cases hst
    · cases (of_guard hst).2
      exact le_refl _
  | clientFails code | clientCloses | release seqNo =>
    cases hst
    exact le_refl _
  | wireEnds result =>
    obtain ⟨holder, hl, rfl⟩ := map_eq_some_iff.mp hst
    exact h.wireEnds_rank hl result
  | finalSnapshot result =>
    dsimp only [v2Step] at hst
    split at hst
    · rename_i reason hphase
      rw [hphase]
      split at hst <;> cases hst <;> exact Nat.le_add_left 1 _
    · cases hst
  | recordFinal =>
    dsimp only [v2Step] at hst
    split at hst
    · rename_i reason final hphase
      cases (of_guard hst).2
      rw [hphase]
      unfold V2Session.recordFinal
      split
      · exact Nat.le_add_left 2 2
      · rename_i ledger _
        refine le_trans (Nat.le_succ 2) (le_of_eq ?_)
        generalize (final.failureCode.filter fun code => code ≠ "").or s.fatalError = error
        cases error with
        | some code => rfl
        | none =>
          show 3 = FinishTask.rank (V2Session.finish (if _ then _ else _))
          split
          · split
            · rename_i event u hsettle
              obtain ⟨response, -, heq⟩ := map_eq_some_iff.mp hsettle
              cases heq
              rfl
            · rfl
          · rfl
    · cases hst
  | reportEnds result =>
    dsimp only [v2Step] at hst
    split at hst
    · rename_i hphase
      cases hst
      rw [hphase]
      cases result <;> exact Nat.le_add_left 4 _
    · cases hst
  | closeEnds delivered =>
    dsimp only [v2Step] at hst
    split at hst
    · rename_i hphase
      cases hst
      rw [hphase]
      exact Nat.le_succ 5
    · cases hst
  | joined =>
    dsimp only [v2Step] at hst
    split at hst
    · rename_i awaited hphase
      cases hst
      rw [hphase]
      unfold V2Session.joinStream
      split <;> exact Nat.le_succ 6
    · rename_i awaited hphase
      cases hst
      rw [hphase]
      exact Nat.le_succ 7
    · cases hst
  | finishReturns task =>
    dsimp only [v2Step] at hst
    split at hst
    · cases (of_guard hst).2
      exact le_refl _
    · cases (of_guard hst).2
      exact le_refl _
    · cases hst
  | _ =>
    cases (of_guard hst).2
    exact le_refl _

end Framing

end V2Session

open V2Session

/-- In every run in which `session.done` is not delivered by a `_wire` that fails, the final snapshot
    does not fail while another message is on the way, and an accounting error reaches the client: the
    session is framed and ends once, and its finalization never starts again. -/
theorem session_framed (contextLimit : ℤ) (s : V2Session)
    (hs : ((v2System contextLimit).restrict fun s act => s.keepsFrame act = true).Reachable s) :
    s.FramedOnce ∧ ∀ act t, v2Step s act = some t → s.finish.rank ≤ t.finish.rank := by
  have hframing : s.Framing := by
    refine hs.invariant (P := V2Session.Framing) (fun s₀ h₀ => ?_) ?_
    · obtain rfl : s₀ = { contextLimit := contextLimit } := h₀
      exact Framing.initial contextLimit
    · rintro a act b ha ⟨hst, hkeeps⟩
      exact ha.step (show v2Step a act = some b from hst) hkeeps
  exact ⟨hframing.toFramedOnce, fun act t hst => hframing.rank hst⟩

/-- The kind of every message. -/
def kinds (s : V2Session) : List String :=
  s.sent.map fun
    | .delta _ _ _ _ => "delta"
    | .silence => "silence"
    | .interrupted _ => "interrupted"
    | .responseDone _ _ _ _ _ _ => "response.done"
    | .error _ | .accountingError => "error"
    | .sessionDone _ _ => "session.done"
    | .close _ => "close"
    | .other => "other"

/-- A response that the end of the request closes. -/
theorem session_framed_completed :
    ∃ s : V2Session, kinds s = ["delta", "response.done", "session.done", "close"] ∧
      s.FramedOnce := by
  have hrun : (System.exec (fun s act => if s.keepsFrame act = true then v2Step s act else none)
      { contextLimit := 131072 }
      [.configure, .snapshot ⟨some 131072, some fun _ => some 0, some 1⟩,
        .streamSend "a" (.text 1 true), .wireEnds .sent, .streamEnds,
        .finalSnapshot (some ⟨some fun _ => some 0, some 1, none⟩), .recordFinal, .wireEnds .sent,
        .wireEnds .sent, .joined, .joined]).map kinds =
      some ["delta", "response.done", "session.done", "close"] := by
    decide +kernel
  obtain ⟨s, hs, hval⟩ := map_eq_some_iff.mp hrun
  exact ⟨s, hval, (session_framed 131072 s (.of_exec_guarded (.init rfl) hs)).1⟩

/-- `session.done` is delivered, and its `_wire` times out. -/
theorem done_times_out_ends_twice :
    ¬∀ s : V2Session, (v2System 131072).Reachable s → s.FramedOnce := by
  intro hall
  have hrun : (System.exec v2Step { contextLimit := 131072 }
      [.teardown, .finalSnapshot none, .recordFinal, .wireEnds .late, .reportEnds .sent]).map
      (fun s => (s.finish.rank, s.sent.map WireEvent.terminal)) = some (5, [true, true]) := by
    decide +kernel
  obtain ⟨s, hs, hval⟩ := map_eq_some_iff.mp hrun
  obtain ⟨hrank, hterminals⟩ := Prod.mk.inj hval
  have hending := (hall s (.of_exec (.init rfl) hs)).ending
  unfold Ending at hending
  cases hphase : s.finish with
  | closing =>
    rw [hphase] at hending
    obtain ⟨before, hquiet, hsent⟩ := hending
    rw [hsent, map_append] at hterminals
    have hbefore : before.map WireEvent.terminal = [true] :=
      append_cancel_right (show _ ++ [true] = [true] ++ [true] from hterminals)
    obtain ⟨event, hmem, hterminal⟩ := mem_map.mp
      (show true ∈ before.map WireEvent.terminal from hbefore ▸ mem_singleton_self true)
    have hmild := hquiet event hmem
    rw [WireEvent.mild, hterminal] at hmild
    cases hmild
  | _ => rw [hphase] at hrank; cases hrank

end OmniRealtime
