import OmniRealtime.Lib.PyFloat
import OmniRealtime.Lib.System

/-!
# The frames of a legacy round

`_handle_frame_meta`, `_handle_binary` and `_pump_frames` of `vl_legacy_adapter/adapter/session.py`,
with the frames that the session buffers. The other tasks of the session may end the round, and the
client may go, at any time. Times are left out: a deadline may pass at any await that has one.

1. `onFrameMeta`, `onBinary`: the receiver. `wakes`, `ackReturns`: the pump.
2. `Relayed`: what becomes of the frames. `step_relayed`: every step keeps it.
-/

namespace OmniRealtime

open List Option

/-- The `timestamp` of a frame's metadata. -/
inductive MetaTimestamp
  | noNumber
  | number (value : PyFloat)
  /-- An integer beyond all floats. -/
  | hugeInt (negative : Bool)

structure LegacyFrame where
  timestamp : PyFloat
  payload : List UInt8
  deriving DecidableEq

/-- A call of `send_frame`. -/
structure FrameSubmission where
  seqNo : ℕ
  frame : LegacyFrame
  final : Bool
  prompt : Option String
  deriving DecidableEq

inductive FrameError
  | waitForReady
  | finalized
  | binaryExpected
  | badTimestamp
  | backwards (timestamp last : PyFloat)
  | metaExpected
  | tooLarge
  | bufferFull
  deriving DecidableEq

/-- What became of a message of the client. -/
inductive FrameHeard
  | noted
  | taken (frame : LegacyFrame)
  | refused (error : FrameError)
  /-- The round is over. -/
  | ignored
  /-- `OverflowError`. -/
  | raised
  deriving DecidableEq

def FrameHeard.frame? : FrameHeard → Option LegacyFrame
  | .taken frame => some frame
  | _ => none

/-- Where `_pump_frames` is. -/
inductive FramePump
  | off
  | fetching
  /-- In `_next_frame_or_none`, with its `item`. -/
  | quiet (item : LegacyFrame)
  /-- In `send_frame`, or in the `_send` of the `frame_ack`; `next` is its `nxt`. -/
  | submitting (final : Bool) (next : Option LegacyFrame)
  | acking (final : Bool) (next : Option LegacyFrame)
  | over (completed : Bool)
  deriving DecidableEq

namespace FramePump

/-- The frames that the pump has not submitted. -/
def holds : FramePump → List LegacyFrame
  | .quiet item => [item]
  | .submitting _ next | .acking _ next => next.toList
  | _ => []

/-- The last frame is on its way, or has gone. -/
def final : FramePump → Bool
  | .submitting final _ | .acking final _ | .over final => final
  | _ => false

def idle : FramePump → Bool
  | .off | .fetching | .quiet _ => true
  | _ => false

end FramePump

structure FrameRelay where
  frameBufferCap : ℕ
  maxFrameBytes : ℕ
  startPrompt : String
  readySent : Bool := false
  roundFinished : Bool := false
  stopRequested : Bool := false
  inputClosed : Bool := false
  pendingMeta : Option PyFloat := none
  lastTimestamp : Option PyFloat := none
  frames : List LegacyFrame := []
  /-- The receiver has not left its loop. -/
  receiving : Bool := true
  /-- The receiver is in `_send_error`; the flag says whether it drops the metadata then. -/
  answering : Option Bool := none
  pump : FramePump := .off
  seqNo : ℕ := 0
  heard : List FrameHeard := []
  submitted : List FrameSubmission := []
  /-- How many of them the upstream has accepted, and how many `frame_ack`s were sent. -/
  accepted : ℕ := 0
  acked : ℕ := 0

inductive RelayEvent
  | ready
  | pumpStarts
  | frameMeta (timestamp : MetaTimestamp)
  | binary (payload : List UInt8)
  | answered
  | receiveTimeout
  | stop
  /-- Another task ends the round. -/
  | roundFinishes (failed : Bool)
  | fetch
  | wakes (expired : Bool)
  | accepts
  | submissionFails
  | ackReturns
  | cancelled

namespace FrameRelay

variable (s : FrameRelay)

def taken : List LegacyFrame := s.heard.filterMap FrameHeard.frame?

def hear (heard : FrameHeard) : FrameRelay := { s with heard := s.heard ++ [heard] }

def refuse (error : FrameError) (drops : Bool) : FrameRelay :=
  { s.hear (.refused error) with answering := some drops }

def onFrameMeta (timestamp : MetaTimestamp) : FrameRelay :=
  if s.roundFinished then s.hear .ignored
  else if !s.readySent then s.refuse .waitForReady false
  else if s.inputClosed then s.refuse .finalized false
  else if s.pendingMeta.isSome then s.refuse .binaryExpected false
  else match timestamp with
    | .noNumber | .hugeInt true => s.refuse .badTimestamp false
    | .hugeInt false => { s.hear .raised with receiving := false }
    | .number value =>
      if value.lt .zero then s.refuse .badTimestamp false
      else match s.lastTimestamp.filter fun last => value.lt last with
        | some last => s.refuse (.backwards value last) false
        | none => { s.hear .noted with pendingMeta := some value }

def onBinary (payload : List UInt8) : FrameRelay :=
  if s.roundFinished then s.hear .ignored
  else if s.inputClosed then s.refuse .finalized false
  else match s.pendingMeta with
    | none => s.refuse .metaExpected false
    | some timestamp =>
      if s.maxFrameBytes < payload.length then s.refuse .tooLarge true
      else if s.frameBufferCap ≤ s.frames.length then s.refuse .bufferFull true
      else { s.hear (.taken ⟨timestamp, payload⟩) with
        frames := s.frames ++ [⟨timestamp, payload⟩]
        lastTimestamp := some timestamp
        pendingMeta := none }

/-- `_fail_round`, by whom it may be. -/
def finish (failed : Bool) : FrameRelay :=
  if failed then { s with roundFinished := true, inputClosed := true, pendingMeta := none }
  else { s with roundFinished := true }

/-- `(self.start_prompt or None) if final else None`. -/
def promptOf (final : Bool) : Option String :=
  if final ∧ s.startPrompt ≠ "" then some s.startPrompt else none

def submit (item : LegacyFrame) (final : Bool) (next : Option LegacyFrame) : FrameRelay :=
  { s with
    pump := .submitting final next
    submitted := s.submitted ++ [⟨s.seqNo, item, final, s.promptOf final⟩] }

/-- The head of the loop of `_pump_frames`, up to the first await. -/
def pumpItem (item : LegacyFrame) : FrameRelay :=
  if s.frames = [] then
    if s.roundFinished || s.stopRequested then { s with pump := .over false }
    else { s with pump := .quiet item }
  else s.submit item false none

/-- One turn of the loop of `_next_frame_or_none`. -/
def wakes (item : LegacyFrame) (expired : Bool) : FrameRelay :=
  if s.roundFinished || s.stopRequested then { s with pump := .over false }
  else match s.frames with
    | next :: frames => FrameRelay.submit { s with frames := frames } item false (some next)
    | [] =>
      if s.pendingMeta.isNone && expired then
        FrameRelay.submit { s with inputClosed := true } item true none
      else s

def ackReturns (final : Bool) (next : Option LegacyFrame) : FrameRelay :=
  let acked := { s with acked := s.acked + 1, seqNo := s.seqNo + 1 }
  if final then { acked with pump := .over true }
  else match next with
    | some item => acked.pumpItem item
    | none => { acked with pump := .fetching }

def reads : Bool := s.receiving && s.answering.isNone

def step : RelayEvent → Option FrameRelay
  | .ready =>
    if s.readySent || s.roundFinished || s.stopRequested then none
    else some { s with readySent := true }
  | .pumpStarts => if s.readySent ∧ s.pump = .off then some { s with pump := .fetching } else none
  | .frameMeta timestamp => if s.reads then some (s.onFrameMeta timestamp) else none
  | .binary payload => if s.reads then some (s.onBinary payload) else none
  | .answered => s.answering.map fun drops =>
      { s with answering := none, pendingMeta := if drops then none else s.pendingMeta }
  | .receiveTimeout =>
    if s.reads ∧ s.pendingMeta.isSome ∧ s.roundFinished = false then
      some { s.finish true with receiving := false }
    else none
  | .stop => if s.reads then some { s with stopRequested := true, receiving := false } else none
  | .roundFinishes failed => some (s.finish failed)
  | .fetch =>
    match s.pump, s.frames with
    | .fetching, item :: frames => some (FrameRelay.pumpItem { s with frames := frames } item)
    | _, _ => none
  | .wakes expired =>
    match s.pump with
    | .quiet item => some (s.wakes item expired)
    | _ => none
  | .accepts =>
    match s.pump with
    | .submitting final next =>
      some { s with accepted := s.accepted + 1, pump := .acking final next }
    | _ => none
  | .submissionFails =>
    match s.pump with
    | .submitting _ _ => some { s with pump := .over false }
    | _ => none
  | .ackReturns =>
    match s.pump with
    | .acking final next => some (s.ackReturns final next)
    | _ => none
  | .cancelled =>
    match s.receiving, s.pump with
    | true, _ | _, .off | _, .over _ => none
    | _, _ => some { s with pump := .over false }

def system (frameBufferCap maxFrameBytes : ℕ) (startPrompt : String) :
    System FrameRelay RelayEvent :=
  .ofFun (· = { frameBufferCap, maxFrameBytes, startPrompt }) step

/-! ## What becomes of the frames -/

/-- The pump submits a frame, waits until it is accepted and sends its `frame_ack`. -/
def Paced : Prop :=
  match s.pump with
  | .submitting _ _ => s.submitted.length = s.seqNo + 1 ∧ s.accepted = s.seqNo ∧ s.acked = s.seqNo
  | .acking _ _ => s.submitted.length = s.seqNo + 1 ∧ s.accepted = s.seqNo + 1 ∧ s.acked = s.seqNo
  | .over false => s.acked ≤ s.accepted ∧ s.accepted ≤ s.submitted.length ∧
      s.submitted.length ≤ s.acked + 1
  | _ => s.submitted.length = s.seqNo ∧ s.accepted = s.seqNo ∧ s.acked = s.seqNo

/-- The final frame is submitted, behind all others; no other one was taken, or will be. -/
structure Concluded : Prop where
  last : ∃ before x, s.submitted = before ++ [x] ∧ (∀ y ∈ before, y.final = false) ∧ x.final = true
  closed : s.inputClosed = true
  all : s.submitted.map FrameSubmission.frame = s.taken
  pump : s.pump.final = true ∨ s.pump = .over false

/-- The frames of a round; a pump that is `over false` was cut off. -/
structure Relayed : Prop where
  numbered : s.submitted.map FrameSubmission.seqNo = range s.submitted.length
  prompts : ∀ x ∈ s.submitted, x.prompt = s.promptOf x.final
  inOrder : s.submitted.map FrameSubmission.frame <+: s.taken
  lossless : s.pump ≠ .over false →
    s.taken = s.submitted.map FrameSubmission.frame ++ (s.pump.holds ++ s.frames)
  finals : (∀ x ∈ s.submitted, x.final = false) ∧ s.pump.final = false ∨ s.Concluded
  paced : s.Paced
  ignored : .ignored ∈ s.heard → s.roundFinished = true

end FrameRelay

namespace FrameRelay

variable {s t : FrameRelay} {item : LegacyFrame} {next : Option LegacyFrame}

theorem Relayed.initial (frameBufferCap maxFrameBytes : ℕ) (startPrompt : String) :
    Relayed { frameBufferCap, maxFrameBytes, startPrompt } where
  numbered := rfl
  prompts := nofun
  inOrder := nil_prefix
  lossless _ := rfl
  finals := .inl ⟨nofun, rfl⟩
  paced := ⟨rfl, rfl, rfl⟩
  ignored := nofun

/-- The receiver has read a message, or another task has done something. -/
theorem Relayed.receiver (h : s.Relayed) (hpump : t.pump = s.pump)
    (hsubmitted : t.submitted = s.submitted) (hprompt : t.startPrompt = s.startPrompt)
    (hcnt : t.seqNo = s.seqNo ∧ t.accepted = s.accepted ∧ t.acked = s.acked)
    (htaken : t.taken = s.taken ∧ t.frames = s.frames ∨ s.inputClosed = false ∧
      ∃ frame, t.taken = s.taken ++ [frame] ∧ t.frames = s.frames ++ [frame])
    (hcl : s.inputClosed = true → t.inputClosed = true)
    (hignored : .ignored ∈ t.heard → t.roundFinished = true) : t.Relayed where
  numbered := hsubmitted ▸ h.numbered
  prompts := by
    unfold promptOf
    rw [hsubmitted, hprompt]
    exact h.prompts
  inOrder := by
    rw [hsubmitted]
    rcases htaken with ⟨htaken, -⟩ | ⟨-, frame, htaken, -⟩
    · exact htaken ▸ h.inOrder
    · exact htaken ▸ h.inOrder.trans (prefix_append ..)
  lossless hpump' := by
    have hall := h.lossless (hpump ▸ hpump')
    rw [hpump, hsubmitted]
    rcases htaken with ⟨htaken, hf⟩ | ⟨-, frame, htaken, hf⟩
    · rw [htaken, hf, hall]
    · rw [htaken, hf, hall, append_assoc, append_assoc]
  finals := by
    rw [hsubmitted, hpump]
    refine h.finals.imp_right fun hend => ⟨hsubmitted ▸ hend.last, hcl hend.closed, ?_, hpump ▸ hend.pump⟩
    rcases htaken with ⟨htaken, -⟩ | ⟨hopen, -⟩
    · rw [hsubmitted, htaken, hend.all]
    · exact absurd (hend.closed.symm.trans hopen) (by decide)
  paced := by
    unfold Paced
    rw [hpump, hsubmitted, hcnt.1, hcnt.2.1, hcnt.2.2]
    exact h.paced
  ignored := hignored

theorem Relayed.hear (h : s.Relayed) (heard : FrameHeard) (hfrm : heard.frame? = none)
    (hheard : heard = .ignored → s.roundFinished = true) : (s.hear heard).Relayed := by
  refine h.receiver rfl rfl rfl ⟨rfl, rfl, rfl⟩ (.inl ⟨?_, rfl⟩) id fun hmem => ?_
  · show (s.heard ++ [heard]).filterMap FrameHeard.frame? = _
    rw [filterMap_append, filterMap_cons_none hfrm]
    exact append_nil _
  · exact (mem_append.mp hmem).elim h.ignored fun heq => hheard (mem_singleton.mp heq).symm

/-- What the receiver does to its own state. -/
theorem Relayed.own (h : s.Relayed) {readySent stopRequested receiving : Bool}
    {pendingMeta : Option PyFloat} {answering : Option Bool} :
    Relayed { s with readySent, stopRequested, receiving, pendingMeta, answering } :=
  { h with finals := h.finals.imp_right fun hend => { hend with } }

section

variable (h : s.Relayed)
include h

theorem Relayed.refuse (error : FrameError) (drops : Bool) : (s.refuse error drops).Relayed :=
  (h.hear (.refused error) rfl nofun).own

theorem Relayed.onFrameMeta (timestamp : MetaTimestamp) : (s.onFrameMeta timestamp).Relayed := by
  unfold FrameRelay.onFrameMeta
  split
  · next hover => exact h.hear _ rfl fun _ => hover
  split
  · exact h.refuse ..
  split
  · exact h.refuse ..
  split
  · exact h.refuse ..
  split
  · exact h.refuse ..
  · exact h.refuse ..
  · exact (h.hear .raised rfl nofun).own
  · split
    · exact h.refuse ..
    · split
      · exact h.refuse ..
      · exact (h.hear .noted rfl nofun).own

theorem Relayed.onBinary (payload : List UInt8) : (s.onBinary payload).Relayed := by
  unfold FrameRelay.onBinary
  split
  · next hover => exact h.hear _ rfl fun _ => hover
  split
  · exact h.refuse ..
  next hopen =>
  split
  · exact h.refuse ..
  split
  · exact h.refuse ..
  split
  · exact h.refuse ..
  · refine h.receiver rfl rfl rfl ⟨rfl, rfl, rfl⟩
      (.inr ⟨Bool.eq_false_iff.mpr hopen, _, ?_, rfl⟩) id fun hmem => ?_
    · exact filterMap_append
    · exact (mem_append.mp hmem).elim h.ignored fun heq => nomatch mem_singleton.mp heq

theorem Relayed.finish (failed : Bool) : (s.finish failed).Relayed := by
  unfold FrameRelay.finish
  split
  · exact h.receiver rfl rfl rfl ⟨rfl, rfl, rfl⟩ (.inl ⟨rfl, rfl⟩) (fun _ => rfl) fun _ => rfl
  · exact h.receiver rfl rfl rfl ⟨rfl, rfl, rfl⟩ (.inl ⟨rfl, rfl⟩) id fun _ => rfl

/-! ## The pump -/

theorem Relayed.drop : Relayed { s with pump := .over false } where
  numbered := h.numbered
  prompts := h.prompts
  inOrder := h.inOrder
  lossless hne := absurd rfl hne
  finals := h.finals.imp (fun hpln => ⟨hpln.1, rfl⟩) fun hend => { hend with pump := .inr rfl }
  paced := by
    have hp := h.paced
    unfold Paced at hp
    show s.acked ≤ s.accepted ∧ s.accepted ≤ s.submitted.length ∧ s.submitted.length ≤ s.acked + 1
    split at hp <;> omega
  ignored := h.ignored

theorem Relayed.plain (hgo : s.pump.final = false) (hcut : s.pump ≠ .over false) :
    ∀ x ∈ s.submitted, x.final = false := by
  rcases h.finals with hpln | hend
  · exact hpln.1
  · rcases hend.pump with hfnl | hover
    · exact absurd (hfnl.symm.trans hgo) (by decide)
    · exact absurd hover hcut

end

theorem Relayed.idle (h : s.Relayed) (hidle : s.pump.idle = true) :
    (∀ x ∈ s.submitted, x.final = false) ∧
      s.taken = s.submitted.map FrameSubmission.frame ++ (s.pump.holds ++ s.frames) ∧
      s.submitted.length = s.seqNo ∧ s.accepted = s.seqNo ∧ s.acked = s.seqNo := by
  have hp := h.paced
  have hpln := h.plain
  have hall := h.lossless
  unfold Paced at hp
  cases hpump : s.pump <;> rw [hpump] at hidle hp hpln hall <;>
    first | exact ⟨hpln rfl nofun, hall nofun, hp⟩ | cases hidle

/-- The pump begins, or takes a frame, and submits none. -/
theorem Relayed.move (h : s.Relayed) (hidle : s.pump.idle = true) {pump : FramePump}
    (hpump : pump.idle = true) {frames : List LegacyFrame}
    (hholds : pump.holds ++ frames = s.pump.holds ++ s.frames) :
    Relayed { s with pump := pump, frames := frames } := by
  obtain ⟨hpln, hall, hp⟩ := h.idle hidle
  refine ⟨h.numbered, h.prompts, h.inOrder, fun _ => ?_, .inl ⟨hpln, ?_⟩, ?_, h.ignored⟩
  · exact hholds ▸ hall
  · cases pump <;> first | rfl | cases hpump
  · cases pump <;> first | exact hp | cases hpump

/-- The pump, with `item` in hand, submits it, and has `next` already. -/
theorem Relayed.submit (h : s.Relayed) (next : Option LegacyFrame) (hpump : s.pump = .quiet item)
    {final : Bool} {frames : List LegacyFrame} (hf : s.frames = next.toList ++ frames)
    (hfnl : final = true → s.inputClosed = true ∧ s.frames = []) :
    (FrameRelay.submit { s with frames := frames } item final next).Relayed := by
  obtain ⟨hpln, hall, hp⟩ := h.idle (by rw [hpump]; rfl)
  have hall' : s.taken = (FrameRelay.submit s item final next).submitted.map
      FrameSubmission.frame ++ (next.toList ++ frames) := by
    rw [hall, hpump, hf, FrameRelay.submit, map_append, append_assoc]
    rfl
  refine ⟨?_, ?_, hall' ▸ prefix_append .., fun _ => hall', ?_, ⟨?_, hp.2⟩, h.ignored⟩
  · show (s.submitted ++ [_]).map FrameSubmission.seqNo = range (s.submitted ++ [_]).length
    rw [map_append, h.numbered, length_append, length_singleton, range_succ, hp.1]
    rfl
  · intro x hx
    rcases mem_append.mp hx with hx | hx
    · exact h.prompts x hx
    · cases mem_singleton.mp hx
      rfl
  · cases final with
    | false =>
      refine .inl ⟨fun x hx => ?_, rfl⟩
      rcases mem_append.mp hx with hx | hx
      · exact hpln x hx
      · cases mem_singleton.mp hx
        rfl
    | true =>
      obtain ⟨hcl, hnone⟩ := hfnl rfl
      refine .inr ⟨⟨s.submitted, _, rfl, hpln, rfl⟩, hcl, ?_, .inl rfl⟩
      rw [← hf, hnone, append_nil] at hall'
      exact hall'.symm
  · show (s.submitted ++ [_]).length = s.seqNo + 1
    rw [length_append, hp.1]
    rfl

theorem Relayed.pumpItem (h : Relayed { s with pump := .quiet item }) :
    (s.pumpItem item).Relayed := by
  unfold FrameRelay.pumpItem
  split
  · split
    · exact h.drop
    · exact h
  · exact h.submit none rfl rfl nofun

theorem Relayed.wakes (h : s.Relayed) (hpump : s.pump = .quiet item) (expired : Bool) :
    (s.wakes item expired).Relayed := by
  unfold FrameRelay.wakes
  split
  · exact h.drop
  split
  · next later frames hf => exact h.submit (some later) hpump hf nofun
  · next hf =>
    split
    · have hcl : Relayed { s with inputClosed := true } :=
        h.receiver rfl rfl rfl ⟨rfl, rfl, rfl⟩ (.inl ⟨rfl, rfl⟩) (fun _ => rfl) h.ignored
      exact hcl.submit none hpump rfl fun _ => ⟨rfl, hf⟩
    · exact h

theorem Relayed.ackReturns (h : s.Relayed) {final : Bool} (hpump : s.pump = .acking final next) :
    (s.ackReturns final next).Relayed := by
  have hall := h.lossless (by rw [hpump]; nofun)
  have hp := h.paced
  unfold Paced at hp
  rw [hpump] at hall hp
  have hcounts : s.submitted.length = s.seqNo + 1 ∧ s.accepted = s.seqNo + 1 ∧
      s.acked + 1 = s.seqNo + 1 := ⟨hp.1, hp.2.1, congrArg (· + 1) hp.2.2⟩
  unfold FrameRelay.ackReturns
  dsimp only
  split
  · next hfnl =>
    subst hfnl
    have hend := h.finals.resolve_left fun hpln => by
      rw [hpump] at hpln
      exact nomatch hpln.2
    have hnone : s.frames = [] := by
      have hlen := congrArg List.length (hend.all.trans hall)
      rw [length_append, length_append] at hlen
      exact length_eq_zero_iff.mp (by omega)
    refine ⟨h.numbered, h.prompts, h.inOrder, fun _ => ?_, .inr { hend with pump := .inl rfl },
      hcounts, h.ignored⟩
    show s.taken = _ ++ ([] ++ s.frames)
    rw [hnone, append_nil, append_nil]
    exact hend.all.symm
  · next hgo =>
    have hpln := h.plain (by rw [hpump]; exact Bool.eq_false_iff.mpr hgo) (by rw [hpump]; nofun)
    split
    · exact Relayed.pumpItem
        ⟨h.numbered, h.prompts, h.inOrder, fun _ => hall, .inl ⟨hpln, rfl⟩, hcounts, h.ignored⟩
    · exact ⟨h.numbered, h.prompts, h.inOrder, fun _ => hall, .inl ⟨hpln, rfl⟩, hcounts, h.ignored⟩

theorem step_relayed {act : RelayEvent} (h : s.Relayed) (hstep : s.step act = some t) :
    t.Relayed := by
  cases act with
  | ready =>
    obtain ⟨-, rfl⟩ := of_not_guard hstep
    exact h.own
  | pumpStarts =>
    obtain ⟨⟨-, hoff⟩, rfl⟩ := of_guard hstep
    exact h.move (by rw [hoff]; rfl) rfl (by rw [hoff]; rfl)
  | frameMeta timestamp =>
    obtain ⟨-, rfl⟩ := of_guard hstep
    exact h.onFrameMeta timestamp
  | binary payload =>
    obtain ⟨-, rfl⟩ := of_guard hstep
    exact h.onBinary payload
  | answered =>
    obtain ⟨drops, -, rfl⟩ := Option.map_eq_some_iff.mp hstep
    exact h.own
  | receiveTimeout =>
    obtain ⟨-, rfl⟩ := of_guard hstep
    exact (h.finish true).own
  | stop =>
    obtain ⟨-, rfl⟩ := of_guard hstep
    exact h.own
  | roundFinishes failed => exact some.inj hstep ▸ h.finish failed
  | fetch =>
    dsimp only [step] at hstep
    split at hstep
    · next item frames hpump hf =>
      cases hstep
      have hqt : Relayed { s with pump := .quiet item, frames := frames } :=
        h.move (by rw [hpump]; rfl) rfl (by rw [hpump, hf]; rfl)
      exact hqt.pumpItem
    · cases hstep
  | wakes expired =>
    dsimp only [step] at hstep
    split at hstep
    · next hpump => exact some.inj hstep ▸ h.wakes hpump expired
    · cases hstep
  | accepts =>
    dsimp only [step] at hstep
    split at hstep
    · next final next hpump =>
      cases hstep
      have hall := h.lossless (by rw [hpump]; nofun)
      have hp := h.paced
      have hfinals := h.finals
      unfold Paced at hp
      rw [hpump] at hall hp hfinals
      refine ⟨h.numbered, h.prompts, h.inOrder, fun _ => hall, hfinals.imp_right fun hend =>
        { hend with pump := ?_ }, ⟨hp.1, congrArg (· + 1) hp.2.1, hp.2.2⟩, h.ignored⟩
      have hlate := hend.pump
      rw [hpump] at hlate
      exact hlate.imp_right nofun
    · cases hstep
  | submissionFails =>
    dsimp only [step] at hstep
    split at hstep
    · exact some.inj hstep ▸ h.drop
    · cases hstep
  | ackReturns =>
    dsimp only [step] at hstep
    split at hstep
    · next hpump => exact some.inj hstep ▸ h.ackReturns hpump
    · cases hstep
  | cancelled =>
    dsimp only [step] at hstep
    split at hstep
    · cases hstep
    · cases hstep
    · cases hstep
    · exact some.inj hstep ▸ h.drop

def exTwoFrames : List RelayEvent :=
  [.ready, .pumpStarts, .frameMeta (.number (.finite 0)), .binary [1], .fetch,
    .frameMeta (.number (.finite 1)), .binary [2], .wakes false, .accepts, .ackReturns, .wakes true,
    .accepts, .ackReturns]

/-- The second frame has metadata only, and the first one waits behind it. -/
def exMissingBinary : List RelayEvent :=
  [.ready, .pumpStarts, .frameMeta (.number (.finite 0)), .binary [1], .fetch,
    .frameMeta (.number (.finite 1)), .receiveTimeout, .wakes false]

end FrameRelay

end OmniRealtime
