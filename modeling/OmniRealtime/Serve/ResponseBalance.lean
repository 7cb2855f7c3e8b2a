import OmniRealtime.Lib.ClaimHandshake
import OmniRealtime.Serve.AudioResponses

/-!
# Responses are balanced

What a realtime session sends about its responses, until it closes: each response is created, then
done, then the next one is created, and it is done as cancelled where a cancel was claimed before
the response was finalized.

1. `Muted`: a session that is closed sends nothing.
2. `Kept`: the invariant of an open session; `Emits` and `Loops` say what the tasks do.
3. `reaches_done`: the way of an open response to its done.
4. `audio_responses_balanced`: the record of every run.
-/

namespace OmniRealtime

open List Option

namespace AudioTurn

open Handshake Point Session Session Entry

def Entry.mark : Entry → Option (Mark ℕ)
  | .sent (.responseCreated requestId) => some (.opened requestId)
  | .sent (.responseDone requestId status _ _ _) => some (.answered requestId (status = .cancelled))
  | .sent _ => none
  | .claimed requestId => some (.claimed requestId)
  | .finalized requestId => some (.settled requestId)

def Session.marks (s : Session) : List (Mark ℕ) := s.log.filterMap Entry.mark

/-- How far the response is with the client. -/
def Response.stage (r : Response) (claimed : Bool) : Stage ℕ :=
  match r.point with
  | .notStarted | .terminals _ .responseDone _ _ | .leaving _ | .finished _ => .idle
  | .terminals t _ _ _ => .settled r.requestId (t.status = .cancelled)
  | _ => .begun r.requestId claimed

def Session.stage (s : Session) : Stage ℕ :=
  match s.activeResponseTask with
  | none => .idle
  | some r => r.stage (s.cancelledResponseRequestId = some r.requestId)

/-! ## Closed sessions -/

/-- A step that neither opens nor closes the session, and sends nothing if it is closed. -/
structure Muted (s t : Session) : Prop where
  isOpen : t.isOpen = s.isOpen
  log : s.isOpen = false → t.log = s.log
  grows : s.log <+: t.log

namespace Muted

variable {s t u : Session} {r : Response}

theorem refl (s : Session) : Muted s s := ⟨rfl, fun _ => rfl, prefix_rfl⟩

theorem trans (h : Muted s t) (h' : Muted t u) : Muted s u :=
  ⟨h'.isOpen.trans h.isOpen, fun hs => (h'.log (h.isOpen.trans hs)).trans (h.log hs),
    h.grows.trans h'.grows⟩

theorem of_eq (h : Muted t u) (hopen : t.isOpen = s.isOpen) (hlog : t.log = s.log) : Muted s u :=
  ⟨h.isOpen.trans hopen, fun hs => (h.log (hopen.trans hs)).trans hlog, hlog ▸ h.grows⟩

theorem frame (h : Muted s t) (hopen : u.isOpen = t.isOpen) (hlog : u.log = t.log) : Muted s u :=
  ⟨hopen.trans h.isOpen, fun hs => hlog.trans (h.log hs), hlog ▸ h.grows⟩

theorem record (s : Session) (e : Entry) : Muted s (s.record e) := by
  unfold Session.record
  split
  · next hopen =>
    exact ⟨rfl, fun hs => absurd (hopen.symm.trans hs) (by decide), prefix_append ..⟩
  · exact refl s

theorem send (s : Session) (e : Event) : Muted s (s.send e) := record s (.sent e)

theorem setTask (h : Muted s t) (r : Response) : Muted s (t.setTask r) := ⟨h.isOpen, h.log, h.grows⟩

section

variable (s : Session)

theorem cancelTask : Muted s s.cancelTask := by
  unfold Session.cancelTask
  split
  · exact refl s
  · split
    · exact refl s
    · exact (refl s).setTask _

theorem cancelActiveResponse (reason : String) : Muted s (s.cancelActiveResponse reason) := by
  unfold Session.cancelActiveResponse
  split
  · exact (refl s).frame rfl rfl
  · split
    · exact refl s
    · split
      · exact refl s
      · exact ((record _ _).trans (cancelTask _)).of_eq rfl rfl

theorem claimTerminal (requestId : ℕ) : Muted s (s.claimTerminal requestId).1 := by
  dsimp only [Session.claimTerminal]
  exact (record _ _).of_eq rfl rfl

section

variable (r : Response)

section

variable (t : Terminals) (inHandler : Bool) (after : Outcome)

theorem afterAudioDone : Muted s (s.afterAudioDone r t inHandler after) := by
  unfold Session.afterAudioDone
  split
  · exact (send s _).setTask _
  · exact (send s _).setTask _

theorem afterTextDone : Muted s (s.afterTextDone r t inHandler after) := by
  unfold Session.afterTextDone
  split
  · exact (send s _).setTask _
  · exact afterAudioDone ..

theorem terminalsRun (point : TerminalPoint) :
    Muted s (s.terminalsRun r t inHandler after point) := by
  cases point with
  | start =>
    dsimp only [Session.terminalsRun]
    split
    · exact (refl s).setTask _
    · split
      · exact afterTextDone ..
      · exact (send s _).setTask _
  | textDone => exact afterTextDone ..
  | audioDone => exact afterAudioDone ..
  | error => exact (send s _).setTask _
  | responseDone => exact (refl s).setTask _

end

theorem leave (outcome : Outcome) : Muted s (s.leave r outcome) := by
  unfold Session.leave
  refine setTask ((refl s).frame ?_ ?_) _
  · split <;> split <;> split <;> rfl
  · split <;> split <;> split <;> rfl

theorem createdSent : Muted s (s.createdSent r) := by
  unfold Session.createdSent
  split
  · dsimp only [emitTerminals]
    refine setTask ?_ _
    exact ((record _ _).trans (claimTerminal _ _)).of_eq rfl rfl
  · exact (refl s).frame rfl rfl

theorem chunkFinish (chunk : Chunk) : Muted s (s.chunkFinish r chunk) := by
  unfold Session.chunkFinish
  split
  · exact (refl s).setTask _
  · dsimp only
    split
    · exact (send s _).setTask _
    · split
      · exact (send s _).setTask _
      · exact (refl s).setTask _

theorem chunkAudio (chunk : Chunk) : Muted s (s.chunkAudio r chunk) := by
  unfold Session.chunkAudio
  split
  · split
    · exact (send s _).setTask _
    · exact chunkFinish ..
  · exact chunkFinish ..

theorem takeChunk (chunk : Chunk) : Muted s (s.takeChunk r chunk) := by
  unfold Session.takeChunk
  split
  · exact refl s
  · split
    · split
      · exact (send s _).setTask _
      · exact chunkAudio ..
    · exact chunkAudio ..

theorem streamEnded : Muted s (s.streamEnded r) := by
  dsimp only [Session.streamEnded]
  split
  · exact (claimTerminal s _).setTask _
  · split
    · exact (claimTerminal s _).setTask _
    · exact (claimTerminal s _).setTask _

theorem onException : Muted s (s.onException r) := by
  dsimp only [Session.onException]
  split
  · exact (claimTerminal s _).setTask _
  · split
    · exact (claimTerminal s _).setTask _
    · exact (claimTerminal s _).setTask _

theorem onCancelled : Muted s (s.onCancelled r) :=
  (claimTerminal s _).setTask _

theorem startResponse : Muted s (s.startResponse r) := by
  dsimp only [Session.startResponse]
  refine setTask ?_ _
  exact (send _ _).of_eq rfl rfl

end

end

theorem responseStep {wake : Wake} (hwake : wake ≠ .sendException)
    (hstep : s.responseStep r wake = some t) : Muted s t := by
  cases wake with
  | sendException => exact absurd rfl hwake
  | resume =>
    dsimp only [Session.responseStep] at hstep
    split at hstep
    · exact some.inj hstep ▸ terminalsRun ..
    · cases hstep
    · cases hstep
    · split at hstep
      · cases hstep
      · split at hstep
        · exact some.inj hstep ▸ startResponse ..
        · exact some.inj hstep ▸ createdSent ..
        · exact some.inj hstep ▸ chunkAudio ..
        · exact some.inj hstep ▸ chunkFinish ..
        · exact some.inj hstep ▸ (refl s).setTask _
        · exact some.inj hstep ▸ (refl s).setTask _
        · exact some.inj hstep ▸ leave ..
        · cases hstep
  | chunk chunk =>
    dsimp only [Session.responseStep] at hstep
    split at hstep
    · obtain ⟨-, rfl⟩ := of_not_guard hstep
      exact takeChunk ..
    · cases hstep
  | streamEnd =>
    dsimp only [Session.responseStep] at hstep
    split at hstep
    · obtain ⟨-, rfl⟩ := of_not_guard hstep
      exact streamEnded ..
    · cases hstep
  | streamException =>
    dsimp only [Session.responseStep] at hstep
    split at hstep
    · obtain ⟨-, rfl⟩ := of_not_guard hstep
      exact onException ..
    · cases hstep
  | cancelled =>
    dsimp only [Session.responseStep] at hstep
    split at hstep
    · split at hstep
      · exact some.inj hstep ▸ (refl s).setTask _
      · exact some.inj hstep ▸ (refl s).setTask _
      · exact some.inj hstep ▸ (refl s).setTask _
      · cases hstep
      · exact some.inj hstep ▸ onCancelled ..
    · cases hstep

end Muted

/-! ## What the tasks do -/

def Point.InLoop : Point → Prop
  | .stream | .textDelta _ | .audioDelta _ | .textDone | .audioDone => True
  | _ => False

section Tasks

variable {s t u : Session} {r r' : Response} {es : List Entry}

theorem record_open (hopen : s.isOpen = true) (e : Entry) :
    s.record e = { s with log := s.log ++ [e] } := if_pos hopen

theorem send_open (hopen : s.isOpen = true) (e : Event) :
    s.send e = { s with log := s.log ++ [.sent e] } := if_pos hopen

theorem marks_append (h : t.log = s.log ++ es) : t.marks = s.marks ++ es.filterMap mark := by
  unfold marks
  rw [h, filterMap_append]

theorem stage_eq (htask : s.activeResponseTask = some r) :
    s.stage = r.stage (s.cancelledResponseRequestId = some r.requestId) := by
  unfold Session.stage
  rw [htask]

/-- The task in the loop has sent something, and is in the loop. -/
def Loops (s : Session) (r : Response) (u : Session) : Prop :=
  ∃ r' es, u = { s with log := s.log ++ es, activeResponseTask := some r' } ∧
    r'.requestId = r.requestId ∧ r'.cancelRequested = r.cancelRequested ∧
    r'.responseDone = r.responseDone ∧ r'.point.InLoop ∧ es.filterMap Entry.mark = []

theorem Loops.of_send (hopen : s.isOpen = true) {e : Event} (hid : r'.requestId = r.requestId)
    (hfg : r'.cancelRequested = r.cancelRequested) (hdone : r'.responseDone = r.responseDone)
    (hloop : r'.point.InLoop) (hmk : (sent e).mark = none) :
    Loops s r ((s.send e).setTask r') := by
  refine ⟨r', [.sent e], ?_, hid, hfg, hdone, hloop, filterMap_cons_none hmk⟩
  rw [send_open hopen]
  rfl

theorem Loops.of_setTask (hid : r'.requestId = r.requestId)
    (hfg : r'.cancelRequested = r.cancelRequested) (hdone : r'.responseDone = r.responseDone)
    (hloop : r'.point.InLoop) : Loops s r (s.setTask r') :=
  ⟨r', [], by rw [append_nil]; rfl, hid, hfg, hdone, hloop, rfl⟩

theorem chunkFinish_loops (hopen : s.isOpen = true) (r : Response) (chunk : Chunk) :
    Loops s r (s.chunkFinish r chunk) := by
  unfold chunkFinish
  split
  · exact .of_setTask rfl rfl rfl trivial
  · dsimp only
    split
    · exact .of_send hopen rfl rfl rfl trivial rfl
    · split
      · exact .of_send hopen rfl rfl rfl trivial rfl
      · exact .of_setTask rfl rfl rfl trivial

theorem chunkAudio_loops (hopen : s.isOpen = true) (r : Response) (chunk : Chunk) :
    Loops s r (s.chunkAudio r chunk) := by
  unfold chunkAudio
  split
  · split
    · exact .of_send hopen rfl rfl rfl trivial rfl
    · exact chunkFinish_loops hopen r chunk
  · exact chunkFinish_loops hopen r chunk

theorem takeChunk_loops (hopen : s.isOpen = true) (htask : s.activeResponseTask = some r)
    (hstr : r.point = .stream) (chunk : Chunk) : Loops s r (s.takeChunk r chunk) := by
  unfold takeChunk
  split
  · refine ⟨r, [], ?_, rfl, rfl, rfl, hstr ▸ trivial, rfl⟩
    rw [append_nil, ← htask]
  · split
    · split
      · exact .of_send hopen rfl rfl rfl trivial rfl
      · exact chunkAudio_loops hopen r chunk
    · exact chunkAudio_loops hopen r chunk

/-- The task of the terminal events has sent one of them; the last of them answers. -/
def Emits (s : Session) (r : Response) (t : Terminals) (u : Session) : Prop :=
  ∃ r' p h a es, u = { s with log := s.log ++ es, activeResponseTask := some r' } ∧
    r'.requestId = r.requestId ∧ r'.cancelRequested = r.cancelRequested ∧
    r'.responseDone = r.responseDone ∧ r'.point = .terminals t p h a ∧
    es.filterMap Entry.mark =
      if p = .responseDone then [.answered r.requestId (t.status = .cancelled)] else []

section

variable (hopen : s.isOpen = true)
include hopen

theorem Emits.of_send {ts : Terminals} {p : TerminalPoint} {h : Bool} {a : Outcome} {e : Event}
    (hid : r'.requestId = r.requestId) (hfg : r'.cancelRequested = r.cancelRequested)
    (hdone : r'.responseDone = r.responseDone) (hpt : r'.point = .terminals ts p h a)
    (hmk : [sent e].filterMap mark =
      if p = .responseDone then [.answered r.requestId (ts.status = .cancelled)] else []) :
    Emits s r ts ((s.send e).setTask r') := by
  refine ⟨r', p, h, a, [.sent e], ?_, hid, hfg, hdone, hpt, hmk⟩
  rw [send_open hopen]
  rfl

section

variable (r : Response) (ts : Terminals) (h : Bool) (a : Outcome)
include h

theorem sendResponseDone_emits : Emits s r ts (s.sendResponseDone r ts h a) :=
  .of_send hopen rfl rfl rfl rfl rfl

theorem afterAudioDone_emits : Emits s r ts (s.afterAudioDone r ts h a) := by
  unfold afterAudioDone
  split
  · exact .of_send hopen rfl rfl rfl rfl rfl
  · exact sendResponseDone_emits hopen r ts h a

theorem afterTextDone_emits : Emits s r ts (s.afterTextDone r ts h a) := by
  unfold afterTextDone
  split
  · exact .of_send hopen rfl rfl rfl rfl rfl
  · exact afterAudioDone_emits hopen r ts h a

end

theorem terminalsRun_emits {r : Response} (hdone : r.responseDone = false) (ts : Terminals)
    (h : Bool) (a : Outcome) {p : TerminalPoint} (hp : p ≠ .responseDone) :
    Emits s r ts (s.terminalsRun r ts h a p) := by
  cases p with
  | start =>
    dsimp only [terminalsRun]
    rw [if_neg (Bool.eq_false_iff.mp hdone)]
    split
    · exact afterTextDone_emits hopen r ts h a
    · exact .of_send hopen rfl rfl rfl rfl rfl
  | textDone => exact afterTextDone_emits hopen { r with textDone := true } ts h a
  | audioDone => exact afterAudioDone_emits hopen { r with audioDone := true } ts h a
  | error => exact sendResponseDone_emits hopen r ts h a
  | responseDone => exact absurd rfl hp

end

/-- The task has finalized the response; it is cancelled if the claim was first. -/
def Settles (s : Session) (r : Response) (u : Session) : Prop :=
  ∃ ts h a, u = { s with
      finalizedResponseRequestId := some r.requestId
      log := s.log ++ [.finalized r.requestId]
      activeResponseTask := some { r with point := .terminals ts .start h a } } ∧
    (ts.status = .cancelled ↔ s.cancelledResponseRequestId = some r.requestId)

section

variable (hopen : s.isOpen = true)
include hopen

theorem claimTerminal_open (requestId : ℕ) :
    s.claimTerminal requestId = ⟨{ s with
      finalizedResponseRequestId := some requestId
      log := s.log ++ [.finalized requestId] },
        decide (s.cancelledResponseRequestId = some requestId)⟩ := by
  refine Prod.ext ?_ rfl
  exact record_open (s := { s with finalizedResponseRequestId := some requestId }) hopen _

theorem streamEnded_settles (r : Response) : Settles s r (s.streamEnded r) := by
  unfold streamEnded
  rw [claimTerminal_open hopen]
  dsimp only
  split
  · next hcancelled => exact ⟨_, _, _, rfl, fun _ => of_decide_eq_true hcancelled, fun _ => rfl⟩
  · next hgo =>
    have hgo : s.cancelledResponseRequestId ≠ some r.requestId :=
      fun heq => hgo (decide_eq_true heq)
    split
    · exact ⟨_, _, _, rfl, nofun, fun heq => absurd heq hgo⟩
    · exact ⟨_, _, _, rfl, nofun, fun heq => absurd heq hgo⟩

theorem onException_settles (hdone : r.responseDone = false) : Settles s r (s.onException r) := by
  unfold onException
  rw [claimTerminal_open hopen]
  dsimp only
  rw [if_neg (Bool.eq_false_iff.mp hdone)]
  split
  · next hcancelled => exact ⟨_, _, _, rfl, fun _ => of_decide_eq_true hcancelled, fun _ => rfl⟩
  · next hgo =>
    have hgo : s.cancelledResponseRequestId ≠ some r.requestId :=
      fun heq => hgo (decide_eq_true heq)
    exact ⟨_, _, _, rfl, nofun, fun heq => absurd heq hgo⟩

theorem onCancelled_settles (hclaimed : s.cancelledResponseRequestId = some r.requestId) :
    Settles s r (s.onCancelled r) := by
  unfold onCancelled
  rw [claimTerminal_open hopen]
  exact ⟨_, _, _, rfl, fun _ => hclaimed, fun _ => rfl⟩

end

end Tasks

/-! ## The invariant -/

/-- No response is active. -/
structure Clean (s : Session) : Prop where
  active : s.activeResponseRequestId = none
  cancelled : s.cancelledResponseRequestId = none
  finalized : s.finalizedResponseRequestId = none

/-- What the session knows of the response, at each point of its task. -/
inductive TaskKept (s : Session) : Option Response → Prop
  | none : Clean s → TaskKept s none
  | notStarted {r : Response} : r.point = .notStarted → Clean s → s.responseStartPending = true →
      r.cancelRequested = false → r.responseDone = false → TaskKept s (some r)
  | created {r : Response} : r.point = .created →
      s.activeResponseRequestId = some r.requestId → s.cancelledResponseRequestId = none →
      s.finalizedResponseRequestId = none → s.responseStartPending = true →
      r.cancelRequested = false → r.responseDone = false → TaskKept s (some r)
  | looping {r : Response} : r.point.InLoop →
      s.activeResponseRequestId = some r.requestId → s.finalizedResponseRequestId = none →
      s.responseStartPending = false → r.responseDone = false →
      (s.cancelledResponseRequestId = none ∧ r.cancelRequested = false ∨
        s.cancelledResponseRequestId = some r.requestId ∧ r.cancelRequested = true) →
      TaskKept s (some r)
  | emitting {r : Response} {t : Terminals} {p : TerminalPoint} {h : Bool} {a : Outcome} :
      r.point = .terminals t p h a → s.activeResponseRequestId = some r.requestId →
      (s.cancelledResponseRequestId = none ∨ s.cancelledResponseRequestId = some r.requestId) →
      s.finalizedResponseRequestId = some r.requestId → s.responseStartPending = false →
      r.cancelRequested = false → r.responseDone = false → TaskKept s (some r)
  | leaving {r : Response} {a : Outcome} :
      r.point = .leaving a → s.activeResponseRequestId = some r.requestId →
      (s.cancelledResponseRequestId = none ∨ s.cancelledResponseRequestId = some r.requestId) →
      s.finalizedResponseRequestId = some r.requestId → s.responseStartPending = false →
      r.cancelRequested = false → TaskKept s (some r)
  | finished {r : Response} {o : Outcome} : r.point = .finished o → Clean s →
      s.responseStartPending = false → TaskKept s (some r)

/-- What an open session keeps; the responses `calls` are done. -/
structure Kept (s : Session) (calls : List (ℕ × Bool)) : Prop where
  told : Told s.marks calls s.stage
  ids : ∀ c ∈ calls, c.1 < s.requests
  drawn : ∀ r, s.activeResponseTask = some r → r.requestId < s.requests ∧
    (r.point = .notStarted → ∀ c ∈ calls, c.1 ≠ r.requestId)
  task : TaskKept s s.activeResponseTask
  turn : s.turn = .responding ↔ s.activeResponseTask.isSome = true
  spawned : s.turn = .spawned → s.responseStartPending = true

theorem kept_init : Kept {} [] where
  told := .nil
  ids _ h := absurd h not_mem_nil
  drawn _ h := by cases h
  task := .none ⟨rfl, rfl, rfl⟩
  turn := by decide
  spawned h := by cases h

section Kept

variable {s u : Session} {r r' : Response} {calls calls' : List (ℕ × Bool)} {b : Bool}

theorem stage_inLoop (h : r.point.InLoop) (b : Bool) : r.stage b = .begun r.requestId b := by
  unfold Response.stage
  cases hp : r.point <;> rw [hp] at h <;> first | rfl | cases h

theorem stage_terminals {t : Terminals} {p : TerminalPoint} {h : Bool} {a : Outcome}
    (hp : r.point = .terminals t p h a) (b : Bool) : r.stage b =
      if p = .responseDone then .idle else .settled r.requestId (t.status = .cancelled) := by
  unfold Response.stage
  rw [hp]
  cases p <;> rfl

section

variable (h : Kept s calls)
include h

theorem Kept.update (htask : s.activeResponseTask = some r)
    (htask' : u.activeResponseTask = some r') (hid : r'.requestId = r.requestId)
    (ht : u.turn = s.turn) (hreq : u.requests = s.requests) (hstarted : r'.point ≠ .notStarted)
    (hkept : TaskKept u (some r')) (htold : Told u.marks calls' u.stage)
    (hcls : ∀ c ∈ calls', c ∈ calls ∨ c.1 = r.requestId) : Kept u calls' := by
  have hdrawn : r.requestId < s.requests := (h.drawn r htask).1
  have hresponding : s.turn = .responding := h.turn.mpr (by rw [htask]; rfl)
  refine ⟨htold, fun c hc => ?_, fun w hw => ?_, htask' ▸ hkept, ?_, fun hspawned => ?_⟩
  · rw [hreq]
    exact (hcls c hc).elim (h.ids c) fun heq => heq ▸ hdrawn
  · obtain rfl : r' = w := some.inj (htask'.symm.trans hw)
    exact ⟨hid ▸ hreq ▸ hdrawn, fun hnot => absurd hnot hstarted⟩
  · rw [ht, htask']
    exact iff_of_true hresponding rfl
  · rw [ht, hresponding] at hspawned
    cases hspawned

theorem Kept.startResponse (hopen : s.isOpen = true) (htask : s.activeResponseTask = some r)
    (hpt : r.point = .notStarted) (hcln : Clean s) (hpnd : s.responseStartPending = true)
    (hfg : r.cancelRequested = false) (hdone : r.responseDone = false) :
    Kept (s.startResponse r) calls := by
  have hfrs := (h.drawn r htask).2 hpt
  have hidle : Told s.marks calls .idle := by
    have htold := h.told
    rw [stage_eq htask] at htold
    unfold Response.stage at htold
    rw [hpt] at htold
    exact htold
  dsimp only [Session.startResponse]
  rw [send_open (s := { s with
    activeResponseRequestId := some r.requestId, activeResponseHasAudio := s.audioModality }) hopen]
  refine h.update htask rfl rfl rfl rfl nofun
    (.created rfl rfl hcln.cancelled hcln.finalized hpnd hfg hdone) ?_ fun _ hc => .inl hc
  have hnone : ¬s.cancelledResponseRequestId = some r.requestId := by
    rw [hcln.cancelled]
    exact nofun
  rw [marks_append (s := s) rfl, stage_eq rfl]
  have hopened := hidle.opened (i := r.requestId) fun hmem => by
    obtain ⟨c, hc, heq⟩ := mem_map.mp hmem
    exact hfrs c hc heq
  exact (decide_eq_false hnone).symm ▸ hopened

theorem Kept.loops (htask : s.activeResponseTask = some r)
    (hstg : s.stage = .begun r.requestId (s.cancelledResponseRequestId = some r.requestId))
    (hact : s.activeResponseRequestId = some r.requestId)
    (hfnl : s.finalizedResponseRequestId = none) (hpnd : s.responseStartPending = false)
    (hdone : r.responseDone = false)
    (hcancel : s.cancelledResponseRequestId = none ∧ r.cancelRequested = false ∨
      s.cancelledResponseRequestId = some r.requestId ∧ r.cancelRequested = true)
    (hloops : Loops s r u) : Kept u calls := by
  obtain ⟨r', es, rfl, hid, hfg, hdone', hloop, hmarks⟩ := hloops
  have hstarted : r'.point ≠ .notStarted := fun heq => by
    rw [heq] at hloop
    exact hloop
  refine h.update htask rfl hid rfl rfl hstarted ?_ ?_ fun _ hc => .inl hc
  · refine .looping hloop (hid ▸ hact) hfnl hpnd (hdone'.trans hdone) ?_
    rw [hid, hfg]
    exact hcancel
  · rw [marks_append (s := s) rfl, hmarks, append_nil, stage_eq rfl, stage_inLoop hloop, hid,
      ← hstg]
    exact h.told

theorem Kept.settles (hsettles : Settles s r' u) (htask : s.activeResponseTask = some r)
    (hid : r'.requestId = r.requestId)
    (hstg : s.stage = .begun r.requestId (s.cancelledResponseRequestId = some r.requestId))
    (hact : s.activeResponseRequestId = some r.requestId)
    (hpnd : s.responseStartPending = false) (hdone : r'.responseDone = false)
    (hfg : r'.cancelRequested = false) (hcancel : s.cancelledResponseRequestId = none ∨
      s.cancelledResponseRequestId = some r.requestId) : Kept u calls := by
  obtain ⟨ts, handler, after, rfl, hstatus⟩ := hsettles
  rw [← hid] at hact hcancel hstg
  refine h.update htask rfl hid rfl rfl nofun
    (.emitting rfl hact hcancel rfl hpnd hfg hdone) ?_ fun _ hc => .inl hc
  have htold := h.told
  rw [hstg] at htold
  rw [marks_append (s := s) rfl, stage_eq rfl, stage_terminals rfl, if_neg nofun,
    decide_eq_decide.mpr hstatus]
  exact htold.settled

theorem Kept.createdSent (hopen : s.isOpen = true) (htask : s.activeResponseTask = some r)
    (hpt : r.point = .created) (hact : s.activeResponseRequestId = some r.requestId)
    (hcancel : s.cancelledResponseRequestId = none) (hfnl : s.finalizedResponseRequestId = none)
    (hfg : r.cancelRequested = false) (hdone : r.responseDone = false)
    : Kept (s.createdSent r) calls := by
  have htold := h.told
  have hstg : r.stage false = .begun r.requestId false := by
    unfold Response.stage
    rw [hpt]
  have hnone : ¬s.cancelledResponseRequestId = some r.requestId := by
    rw [hcancel]
    exact nofun
  rw [stage_eq htask, decide_eq_false hnone, hstg] at htold
  unfold Session.createdSent
  split
  · next reason _ =>
    dsimp only
    rw [record_open (s := { s with
        responseStartPending := false, pendingResponseCancelReason := none,
        cancelledResponseRequestId := some r.requestId,
        cancelledResponseReason := some reason }) hopen,
      claimTerminal_open (s := { s with
        responseStartPending := false, pendingResponseCancelReason := none,
        cancelledResponseRequestId := some r.requestId, cancelledResponseReason := some reason,
        log := s.log ++ [.claimed r.requestId] }) hopen]
    refine h.update htask rfl rfl rfl rfl nofun
      (.emitting rfl hact (.inr rfl) rfl rfl hfg hdone) ?_ fun _ hc => .inl hc
    show Told ((s.log ++ [claimed r.requestId] ++ [finalized r.requestId]).filterMap
      mark) calls (.settled r.requestId true)
    rw [filterMap_append, filterMap_append]
    exact htold.claimed.settled
  · refine h.update htask rfl rfl rfl rfl nofun
      (.looping trivial hact hfnl rfl hdone (.inl ⟨hcancel, hfg⟩)) ?_ fun _ hc => .inl hc
    show Told s.marks calls
      (Stage.begun r.requestId (decide (s.cancelledResponseRequestId = some r.requestId)))
    rw [decide_eq_false hnone]
    exact htold

theorem Kept.emits {t : Terminals} {p : TerminalPoint} {handler : Bool} {a : Outcome}
    (htask : s.activeResponseTask = some r) (hpt : r.point = .terminals t p handler a)
    (hp : p ≠ .responseDone) (hact : s.activeResponseRequestId = some r.requestId)
    (hcancel : s.cancelledResponseRequestId = none ∨
      s.cancelledResponseRequestId = some r.requestId)
    (hfnl : s.finalizedResponseRequestId = some r.requestId)
    (hpnd : s.responseStartPending = false) (hfg : r.cancelRequested = false)
    (hdone : r.responseDone = false) (hemits : Emits s r t u) : ∃ calls', Kept u calls' := by
  obtain ⟨r', p', handler', a', es, rfl, hid, hfg', hdone', hpt', hmarks⟩ := hemits
  have hstarted : r'.point ≠ .notStarted := fun heq => by
    rw [heq] at hpt'
    cases hpt'
  have hkept : TaskKept { s with log := s.log ++ es, activeResponseTask := some r' } (some r') :=
    .emitting hpt' (hid ▸ hact) (hid ▸ hcancel) (hid ▸ hfnl) hpnd
      (hfg'.trans hfg) (hdone'.trans hdone)
  have htold := h.told
  rw [stage_eq htask, stage_terminals hpt, if_neg hp] at htold
  by_cases hlast : p' = .responseDone
  · refine ⟨calls ++ [(r.requestId, decide (t.status = .cancelled))], h.update htask rfl hid rfl rfl hstarted
      hkept ?_ fun c hc => ?_⟩
    · rw [marks_append (s := s) rfl, hmarks, stage_eq rfl, stage_terminals hpt', if_pos hlast,
        if_pos hlast]
      exact htold.answered
    · exact (mem_append.mp hc).imp_right fun hc => congrArg Prod.fst (mem_singleton.mp hc)
  · refine ⟨calls, h.update htask rfl hid rfl rfl hstarted hkept ?_ fun _ hc => .inl hc⟩
    rw [marks_append (s := s) rfl, hmarks, stage_eq rfl, stage_terminals hpt', if_neg hlast,
      if_neg hlast, append_nil, hid]
    exact htold

theorem Kept.answered {t : Terminals} {handler : Bool} {a : Outcome}
    (htask : s.activeResponseTask = some r)
    (hpt : r.point = .terminals t .responseDone handler a)
    (hact : s.activeResponseRequestId = some r.requestId)
    (hcancel : s.cancelledResponseRequestId = none ∨
      s.cancelledResponseRequestId = some r.requestId)
    (hfnl : s.finalizedResponseRequestId = some r.requestId)
    (hpnd : s.responseStartPending = false) (hfg : r.cancelRequested = false) :
    Kept (s.terminalsRun r t handler a .responseDone) calls := by
  refine h.update htask rfl rfl rfl rfl nofun
    (.leaving rfl hact hcancel hfnl hpnd hfg) ?_ fun _ hc => .inl hc
  have htold := h.told
  rw [stage_eq htask, stage_terminals hpt, if_pos rfl] at htold
  exact htold

end

theorem leave_eq (hact : s.activeResponseRequestId = some r.requestId)
    (hcancel : s.cancelledResponseRequestId = none ∨
      s.cancelledResponseRequestId = some r.requestId)
    (hfnl : s.finalizedResponseRequestId = some r.requestId) (o : Outcome) :
    ∃ reason, s.leave r o = { s with
      activeResponseRequestId := none, activeResponseHasAudio := false
      cancelledResponseRequestId := none, cancelledResponseReason := reason
      finalizedResponseRequestId := none
      activeResponseTask := some { r with point := .finished o } } := by
  dsimp only [leave]
  rw [if_pos hact]
  dsimp only
  rcases hcancel with hcancel | hcancel
  · have hnone : ¬s.cancelledResponseRequestId = some r.requestId := by
      rw [hcancel]
      exact nofun
    refine ⟨s.cancelledResponseReason, ?_⟩
    rw [if_neg hnone, if_pos hfnl, ← hcancel]
    rfl
  · refine ⟨none, ?_⟩
    rw [if_pos hcancel]
    dsimp only
    rw [if_pos hfnl]
    rfl

theorem Kept.leave {a : Outcome} (h : Kept s calls) (htask : s.activeResponseTask = some r)
    (hpt : r.point = .leaving a) (hact : s.activeResponseRequestId = some r.requestId)
    (hcancel : s.cancelledResponseRequestId = none ∨
      s.cancelledResponseRequestId = some r.requestId)
    (hfnl : s.finalizedResponseRequestId = some r.requestId)
    (hpnd : s.responseStartPending = false) : Kept (s.leave r a) calls := by
  obtain ⟨reason, heq⟩ := leave_eq hact hcancel hfnl a
  rw [heq]
  refine h.update htask rfl rfl rfl rfl nofun (.finished rfl ⟨rfl, rfl, rfl⟩ hpnd) ?_
    fun _ hc => .inl hc
  have htold := h.told
  rw [stage_eq htask] at htold
  unfold Response.stage at htold
  rw [hpt] at htold
  exact htold

theorem responseStep_kept {wake : Wake} (hopen : s.isOpen = true) (h : Kept s calls)
    (htask : s.activeResponseTask = some r) (hwake : wake ≠ .sendException)
    (hstep : s.responseStep r wake = some u) : ∃ calls', Kept u calls' := by
  have hkept := h.task
  rw [htask] at hkept
  cases hkept with
  | notStarted hpt hcln hpnd hfg hdone =>
    cases wake with
    | sendException => exact absurd rfl hwake
    | resume =>
      simp only [responseStep, hpt, hfg] at hstep
      exact ⟨calls, some.inj hstep ▸ h.startResponse hopen htask hpt hcln hpnd hfg hdone⟩
    | _ => simp [responseStep, hpt, hfg] at hstep
  | created hpt hact hcancel hfnl hpnd hfg hdone =>
    cases wake with
    | sendException => exact absurd rfl hwake
    | resume =>
      simp only [responseStep, hpt, hfg] at hstep
      exact ⟨calls, some.inj hstep ▸
        h.createdSent hopen htask hpt hact hcancel hfnl hfg hdone⟩
    | _ => simp [responseStep, hpt, hfg] at hstep
  | looping hloop hact hfnl hpnd hdone hcancel =>
    have hstg := (stage_eq htask).trans (stage_inLoop hloop _)
    by_cases hfg : r.cancelRequested = true
    · have hclaimed : s.cancelledResponseRequestId = some r.requestId :=
        (hcancel.resolve_left fun hno => absurd (hno.2.symm.trans hfg) (by decide)).1
      cases wake with
      | sendException => exact absurd rfl hwake
      | cancelled =>
        have hthrown : u = s.onCancelled { r with cancelRequested := false } := by
          unfold InLoop at hloop
          split at hloop <;> simp_all [responseStep]
        have hsettles : Settles s { r with cancelRequested := false }
            (s.onCancelled { r with cancelRequested := false }) :=
          onCancelled_settles hopen hclaimed
        exact ⟨calls, hthrown ▸ h.settles hsettles htask rfl hstg hact hpnd hdone rfl
          (.inr hclaimed)⟩
      | _ =>
        unfold InLoop at hloop
        split at hloop <;> simp_all [responseStep]
    · have hfg : r.cancelRequested = false := Bool.eq_false_iff.mpr hfg
      have hcancel' : s.cancelledResponseRequestId = none ∨
          s.cancelledResponseRequestId = some r.requestId := hcancel.imp And.left And.left
      have hgo : ∀ {v}, Loops s r v → Kept v calls :=
        fun hloops => h.loops htask hstg hact hfnl hpnd hdone hcancel hloops
      cases wake with
      | sendException => exact absurd rfl hwake
      | cancelled => simp [responseStep, hfg] at hstep
      | resume =>
        unfold InLoop at hloop
        split at hloop
        · next hpt => simp [responseStep, hpt] at hstep
        · next hpt =>
          simp only [responseStep, hpt, hfg] at hstep
          exact ⟨calls, some.inj hstep ▸ hgo (chunkAudio_loops hopen r _)⟩
        · next hpt =>
          simp only [responseStep, hpt, hfg] at hstep
          exact ⟨calls, some.inj hstep ▸ hgo (chunkFinish_loops hopen r _)⟩
        · next hpt =>
          simp only [responseStep, hpt, hfg] at hstep
          exact ⟨calls, some.inj hstep ▸ hgo (.of_setTask rfl hfg.symm rfl trivial)⟩
        · next hpt =>
          simp only [responseStep, hpt, hfg] at hstep
          exact ⟨calls, some.inj hstep ▸ hgo (.of_setTask rfl hfg.symm rfl trivial)⟩
        · cases hloop
      | chunk chunk =>
        dsimp only [responseStep] at hstep
        split at hstep
        · next hpt =>
          rw [if_neg (Bool.eq_false_iff.mp hfg)] at hstep
          exact ⟨calls, some.inj hstep ▸ hgo (takeChunk_loops hopen htask hpt chunk)⟩
        · cases hstep
      | streamEnd =>
        dsimp only [responseStep] at hstep
        split at hstep
        · rw [if_neg (Bool.eq_false_iff.mp hfg)] at hstep
          exact ⟨calls, some.inj hstep ▸ h.settles (streamEnded_settles hopen r) htask
            rfl hstg hact hpnd hdone hfg hcancel'⟩
        · cases hstep
      | streamException =>
        dsimp only [responseStep] at hstep
        split at hstep
        · rw [if_neg (Bool.eq_false_iff.mp hfg)] at hstep
          exact ⟨calls, some.inj hstep ▸ h.settles (onException_settles hopen hdone) htask
            rfl hstg hact hpnd hdone hfg hcancel'⟩
        · cases hstep
  | emitting hpt hact hcancel hfnl hpnd hfg hdone =>
    next t p handler a =>
    cases wake with
    | sendException => exact absurd rfl hwake
    | resume =>
      simp only [responseStep, hpt] at hstep
      by_cases hlast : p = .responseDone
      · subst hlast
        exact ⟨calls, some.inj hstep ▸
          h.answered htask hpt hact hcancel hfnl hpnd hfg⟩
      · exact h.emits htask hpt hlast hact hcancel hfnl hpnd hfg hdone
          (some.inj hstep ▸ terminalsRun_emits hopen hdone t handler a hlast)
    | _ => simp [responseStep, hpt, hfg] at hstep
  | leaving hpt hact hcancel hfnl hpnd hfg =>
    cases wake with
    | sendException => exact absurd rfl hwake
    | resume =>
      simp only [responseStep, hpt, hfg] at hstep
      exact ⟨calls, some.inj hstep ▸ h.leave htask hpt hact hcancel hfnl hpnd⟩
    | _ => simp [responseStep, hpt, hfg] at hstep
  | finished hpt =>
    cases wake with
    | sendException => exact absurd rfl hwake
    | _ => simp [responseStep, hpt] at hstep

/-! ## Cancels and turns -/

theorem TaskKept.of_eq {task : Option Response} (h : TaskKept s task)
    (hact : u.activeResponseRequestId = s.activeResponseRequestId)
    (hcancelled : u.cancelledResponseRequestId = s.cancelledResponseRequestId)
    (hfinalized : u.finalizedResponseRequestId = s.finalizedResponseRequestId)
    (hpnd : u.responseStartPending = s.responseStartPending) : TaskKept u task := by
  have hcln : Clean s → Clean u := fun hs =>
    ⟨hact.trans hs.active, hcancelled.trans hs.cancelled, hfinalized.trans hs.finalized⟩
  cases h with
  | none hs => exact .none (hcln hs)
  | notStarted hp hs hpend hfg hdone =>
    exact .notStarted hp (hcln hs) (hpnd.trans hpend) hfg hdone
  | created hp ha hc hf hpend hfg hdone =>
    exact .created hp (hact.trans ha) (hcancelled.trans hc) (hfinalized.trans hf)
      (hpnd.trans hpend) hfg hdone
  | looping hl ha hf hpend hdone hc =>
    refine .looping hl (hact.trans ha) (hfinalized.trans hf) (hpnd.trans hpend) hdone ?_
    rw [hcancelled]
    exact hc
  | emitting hp ha hc hf hpend hfg hdone =>
    refine .emitting hp (hact.trans ha) ?_ (hfinalized.trans hf) (hpnd.trans hpend) hfg
      hdone
    rw [hcancelled]
    exact hc
  | leaving hp ha hc hf hpend hfg =>
    refine .leaving hp (hact.trans ha) ?_ (hfinalized.trans hf) (hpnd.trans hpend) hfg
    rw [hcancelled]
    exact hc
  | finished hp hs hpend => exact .finished hp (hcln hs) (hpnd.trans hpend)

section

variable (h : Kept s calls)
include h

theorem Kept.frame (hlog : u.log = s.log) (htask : u.activeResponseTask = s.activeResponseTask)
    (hreq : u.requests = s.requests)
    (hact : u.activeResponseRequestId = s.activeResponseRequestId)
    (hcancelled : u.cancelledResponseRequestId = s.cancelledResponseRequestId)
    (hfinalized : u.finalizedResponseRequestId = s.finalizedResponseRequestId)
    (hpnd : u.responseStartPending = s.responseStartPending)
    (ht : u.turn = .responding ↔ s.turn = .responding)
    (hspawned : u.turn = .spawned → u.responseStartPending = true) : Kept u calls := by
  refine ⟨?_, hreq ▸ h.ids, ?_, ?_, ht.trans (htask ▸ h.turn), hspawned⟩
  · have hstg : u.stage = s.stage := by
      unfold Session.stage
      rw [htask, hcancelled]
    unfold marks
    rw [hlog, hstg]
    exact h.told
  · rw [htask, hreq]
    exact h.drawn
  · rw [htask]
    exact h.task.of_eq hact hcancelled hfinalized hpnd

/-- A cancel is kept for the response to come, or claims the response in the loop, or does
    nothing. -/
theorem Kept.cancelActiveResponse (hopen : s.isOpen = true) (reason : String) :
    Kept (s.cancelActiveResponse reason) calls := by
  unfold Session.cancelActiveResponse
  split
  · exact h.frame rfl rfl rfl rfl rfl rfl rfl Iff.rfl h.spawned
  · next hsrt =>
    have hkept := h.task
    split
    · exact h
    · next requestId hact =>
      split
      · exact h
      · next hfree =>
        obtain ⟨hfnl, hcancelled⟩ := not_or.mp hfree
        obtain ⟨task, htask⟩ : ∃ task, s.activeResponseTask = task := ⟨_, rfl⟩
        rw [htask] at hkept
        cases hkept with
        | none hcln | notStarted _ hcln | finished _ hcln =>
          exact absurd (hcln.active.symm.trans hact) nofun
        | created _ _ _ _ hpend => exact absurd hpend hsrt
        | emitting _ ha _ hf | leaving _ ha _ hf =>
          exact absurd (hf.trans (ha.symm.trans hact)) hfnl
        | looping hloop ha hf hpend hdone hc =>
          next r =>
          obtain rfl : r.requestId = requestId := some.inj (ha.symm.trans hact)
          have hrunning : ¬r.isFinished = true := by
            unfold Response.isFinished
            unfold InLoop at hloop
            split at hloop <;> simp_all
          have hstarted : r.point ≠ .notStarted := fun heq => by
            rw [heq] at hloop
            exact hloop
          rw [record_open (s := { s with
            cancelledResponseRequestId := some r.requestId
            cancelledResponseReason := some reason
            responseCancelReason := some reason }) hopen]
          dsimp only [cancelTask]
          rw [htask]
          dsimp only
          rw [if_neg hrunning]
          refine h.update htask rfl rfl rfl rfl hstarted
            (.looping hloop hact hf hpend hdone (.inr ⟨rfl, rfl⟩)) ?_ fun _ hc => .inl hc
          have htold := h.told
          rw [stage_eq htask, stage_inLoop hloop, decide_eq_false hcancelled] at htold
          have hstg : Response.stage { r with cancelRequested := true } true =
              .begun r.requestId true := stage_inLoop hloop true
          rw [marks_append (s := s) rfl, stage_eq rfl]
          show Told _ calls (Response.stage { r with cancelRequested := true }
            (decide (some r.requestId = some r.requestId)))
          rw [decide_eq_true rfl, hstg]
          exact htold.claimed

theorem Kept.task_none (ht : s.turn ≠ .responding) : s.activeResponseTask = none ∧ Clean s := by
  have hnone : s.activeResponseTask = none := not_isSome_iff_eq_none.mp (mt h.turn.mpr ht)
  have hkept := h.task
  rw [hnone] at hkept
  cases hkept with
  | none hcln => exact ⟨hnone, hcln⟩

theorem Kept.pause (hidle : s.stage = .idle) (hlog : u.log = s.log) (hreq : u.requests = s.requests)
    (hnone : u.activeResponseTask = none) (hcln : Clean u) (ht : u.turn ≠ .responding)
    (hspawned : u.turn = .spawned → u.responseStartPending = true) : Kept u calls := by
  refine ⟨?_, hreq ▸ h.ids, fun r hr => ?_, ?_, iff_of_false ht ?_, hspawned⟩
  · have hstg : u.stage = .idle := by
      unfold Session.stage
      rw [hnone]
    unfold marks
    rw [hlog, hstg, ← hidle]
    exact h.told
  · rw [hnone] at hr
    cases hr
  · rw [hnone]
    exact .none hcln
  · rw [hnone]
    exact nofun

end

theorem stage_none (hnone : s.activeResponseTask = none) : s.stage = .idle := by
  unfold Session.stage
  rw [hnone]

theorem responseEnded_eq (s : Session) (outcome : Outcome) :
    ∃ turn : TurnPoint, turn ≠ .responding ∧ turn ≠ .spawned ∧ s.responseEnded outcome =
      { s with activeResponseTask := none, responseCancelReason := none, turn := turn } := by
  dsimp only [responseEnded]
  split
  · exact ⟨.transcribing, nofun, nofun, rfl⟩
  · exact ⟨.over, nofun, nofun, rfl⟩
  · split
    · exact ⟨.over, nofun, nofun, rfl⟩
    · exact ⟨.transcribing, nofun, nofun, rfl⟩

theorem sendException_quiet (hstep : s.responseStep r .sendException = some u) :
    Muted { s with connected := false } u := by
  dsimp only [responseStep] at hstep
  split at hstep
  · cases hstep
  · exact some.inj hstep ▸ Muted.onException ..
  · exact some.inj hstep ▸ Muted.leave ..
  all_goals first
    | cases hstep
    | split at hstep
      · cases hstep
      · exact some.inj hstep ▸ Muted.onException ..

theorem teardown_closes (s : Session) : s.teardown.isOpen = false := by
  dsimp only [teardown]
  split
  · rfl
  · exact (Muted.cancelTask _).isOpen.trans rfl
  · rfl

theorem turn_step {label : TurnLabel} (hopen : u.isOpen = true) (hstep : turnStep s label = some u)
    (h : s.isOpen = true → Kept s calls) : ∃ calls', Kept u calls' := by
  cases label with
  | sessionUpdate audioModality interruptResponse | speechStarted | speechStopped committed
  | audioClear =>
    cases (of_not_guard hstep).2
    have h := h hopen
    exact ⟨calls, h.frame rfl rfl rfl rfl rfl rfl rfl Iff.rfl h.spawned⟩
  | responseCancel =>
    cases (of_not_guard hstep).2
    have hopen := (Muted.cancelActiveResponse ..).isOpen.symm.trans hopen
    exact ⟨calls, (h hopen).cancelActiveResponse hopen _⟩
  | bargeIn =>
    dsimp only [turnStep] at hstep
    split at hstep
    · cases hstep
    · have hlooked : s.isOpen = true → Kept { s with speechSent := false } calls := fun hs =>
        (h hs).frame rfl rfl rfl rfl rfl rfl rfl Iff.rfl (h hs).spawned
      split at hstep
      · cases hstep
        have hopen := (Muted.cancelActiveResponse ..).isOpen.symm.trans hopen
        exact ⟨calls, (hlooked hopen).cancelActiveResponse hopen _⟩
      · cases hstep
        exact ⟨calls, hlooked hopen⟩
  | takeUtterance =>
    obtain ⟨hidle, ⟨⟩⟩ := of_guard hstep
    have h := h hopen
    refine ⟨calls, h.frame rfl rfl rfl rfl rfl rfl rfl ?_ nofun⟩
    rw [hidle.1]
    exact iff_of_false nofun nofun
  | beginTurn =>
    obtain ⟨htaken, ⟨⟩⟩ := of_guard hstep
    have h := h hopen
    obtain ⟨hnone, hcln⟩ := h.task_none (by rw [htaken.1]; exact nofun)
    exact ⟨calls, h.pause (stage_none hnone) rfl rfl hnone
      ⟨hcln.active, hcln.cancelled, hcln.finalized⟩ nofun fun _ => rfl⟩
  | runTurn =>
    obtain ⟨hspawned, ⟨⟩⟩ := of_guard hstep
    have h := h hopen
    obtain ⟨hnone, hcln⟩ := h.task_none (by rw [hspawned]; exact nofun)
    refine ⟨calls, ?_, fun c hc => Nat.lt_succ_of_lt (h.ids c hc), fun r hr => ?_, ?_,
      iff_of_true rfl rfl, nofun⟩
    · have htold := h.told
      rw [stage_none hnone] at htold
      exact htold
    · cases hr
      exact ⟨Nat.lt_succ_self _, fun _ c hc => Nat.ne_of_lt (h.ids c hc)⟩
    · exact .notStarted rfl ⟨hcln.active, hcln.cancelled, hcln.finalized⟩
        (h.spawned hspawned) rfl rfl
  | response wake =>
    obtain ⟨r, htask, hwoken⟩ := bind_eq_some_iff.mp hstep
    have hwake : wake ≠ .sendException := by
      intro heq
      subst heq
      have hcl := (sendException_quiet hwoken).isOpen.trans (Bool.and_false _)
      exact absurd (hopen.symm.trans hcl) (by decide)
    have hs := (Muted.responseStep hwake hwoken).isOpen.symm.trans hopen
    exact responseStep_kept hs (h hs) htask hwake hwoken
  | responseEnded =>
    dsimp only [turnStep] at hstep
    split at hstep
    · next outcome _ _ htask =>
      cases hstep
      obtain ⟨turn, hresponding, hspawned, heq⟩ := responseEnded_eq s outcome
      rw [heq] at hopen ⊢
      have h := h hopen
      have hkept := h.task
      rw [htask] at hkept
      cases hkept with
      | finished _ hcln =>
        exact ⟨calls, h.pause (stage_eq htask) rfl rfl rfl
          ⟨hcln.active, hcln.cancelled, hcln.finalized⟩ hresponding
          fun hs => absurd hs hspawned⟩
      | _ => contradiction
    · cases hstep
  | transcriptionEnded =>
    obtain ⟨ht, ⟨⟩⟩ := of_guard hstep
    have h := h hopen
    refine ⟨calls, h.frame rfl rfl rfl rfl rfl rfl rfl ?_ nofun⟩
    rw [ht]
    exact iff_of_false nofun nofun
  | endTurn =>
    obtain ⟨hover, ⟨⟩⟩ := of_guard hstep
    have h := h hopen
    obtain ⟨hnone, hcln⟩ := h.task_none (by rw [hover]; exact nofun)
    exact ⟨calls, h.pause (stage_none hnone) rfl rfl hnone
      ⟨hcln.active, hcln.cancelled, hcln.finalized⟩ nofun nofun⟩
  | disconnect =>
    cases hstep
    unfold isOpen at hopen
    rw [Bool.and_false] at hopen
    cases hopen
  | teardown =>
    cases (of_not_guard hstep).2
    exact absurd (hopen.symm.trans (teardown_closes s)) (by decide)

end Kept

/-! ## Runs -/

/-- A session that is closed has the record of the time before. -/
def Balanced (s : Session) : Prop :=
  ∃ calls stage, Told s.marks calls stage ∧ (s.isOpen = true → stage = s.stage ∧ Kept s calls)

theorem closed_log {s u : Session} {label : TurnLabel} (hstep : turnStep s label = some u)
    (hcl : u.isOpen = false) : u.log = s.log := by
  have hqt : ∀ v, Muted v u → u.log = v.log := fun v h => h.log (h.isOpen.symm.trans hcl)
  cases label with
  | response wake =>
    obtain ⟨r, -, hwoken⟩ := bind_eq_some_iff.mp hstep
    by_cases hwake : wake = .sendException
    · subst hwake
      exact hqt { s with connected := false } (sendException_quiet hwoken)
    · exact hqt s (Muted.responseStep hwake hwoken)
  | responseCancel =>
    obtain ⟨-, rfl⟩ := of_not_guard hstep
    exact hqt s (Muted.cancelActiveResponse ..)
  | bargeIn =>
    dsimp only [turnStep] at hstep
    split at hstep
    · cases hstep
    · split at hstep
      · exact hqt { s with speechSent := false } (some.inj hstep ▸ Muted.cancelActiveResponse ..)
      · exact some.inj hstep ▸ rfl
  | responseEnded =>
    dsimp only [turnStep] at hstep
    split at hstep
    · next outcome _ _ _ =>
      obtain ⟨turn, -, -, heq⟩ := responseEnded_eq s outcome
      rw [heq] at hstep
      exact some.inj hstep ▸ rfl
    · cases hstep
  | teardown =>
    cases (of_not_guard hstep).2
    dsimp only [Session.teardown]
    split
    · rfl
    · exact (Muted.cancelTask _).log rfl
    · rfl
  | disconnect => exact some.inj hstep ▸ rfl
  | _ =>
    dsimp only [turnStep] at hstep
    split at hstep
    · first
        | exact some.inj hstep ▸ rfl
        | cases hstep
    · first
        | exact some.inj hstep ▸ rfl
        | cases hstep

theorem turn_balanced {s u : Session} {label : TurnLabel} (hstep : turnStep s label = some u)
    (h : Balanced s) : Balanced u := by
  obtain ⟨calls, stage, htold, hkept⟩ := h
  cases hopen : u.isOpen with
  | false =>
    refine ⟨calls, stage, ?_, fun h => absurd (hopen.symm.trans h) (by decide)⟩
    unfold marks
    rw [closed_log hstep hopen]
    exact htold
  | true =>
    obtain ⟨calls', hkept'⟩ := turn_step hopen hstep fun hs => (hkept hs).2
    exact ⟨calls', u.stage, hkept'.told, fun _ => ⟨rfl, hkept'⟩⟩

/-! ## The way to the done -/

/-- The awaits that a created response has before its done, at most. -/
def Point.distance : Point → Option ℕ
  | .created => some 12
  | .textDelta _ => some 11
  | .audioDelta _ => some 10
  | .textDone | .audioDone => some 9
  | .stream => some 8
  | .terminals _ .start _ _ => some 7
  | .terminals _ .textDone _ _ => some 6
  | .terminals _ .audioDone _ _ => some 5
  | .terminals _ .error _ _ => some 4
  | .terminals _ .responseDone _ _ => some 0
  | .notStarted | .leaving _ | .finished _ => none

/-- The task of the response has at most `n` awaits before it. -/
def Near (s : Session) (n : ℕ) : Prop :=
  ∃ r d, s.activeResponseTask = some r ∧ r.point.distance = some d ∧ d ≤ n

section Way

variable {s u : Session} {r : Response} {calls : List (ℕ × Bool)} {n d : ℕ}

theorem Near.mono {m : ℕ} (h : Near s n) (hle : n ≤ m) : Near s m := by
  obtain ⟨r, d, htask, hd, hn⟩ := h
  exact ⟨r, d, htask, hd, Nat.le_trans hn hle⟩

theorem near_setTask (hd : r.point.distance = some d) : Near (s.setTask r) d :=
  ⟨r, d, rfl, hd, Nat.le_refl d⟩

section

variable (s : Session) (r : Response)

theorem chunkFinish_near (chunk : Chunk) : Near (s.chunkFinish r chunk) 9 := by
  unfold chunkFinish
  split
  · exact (near_setTask rfl).mono (by decide)
  · dsimp only
    split
    · exact near_setTask rfl
    · split
      · exact near_setTask rfl
      · exact (near_setTask rfl).mono (by decide)

theorem chunkAudio_near (chunk : Chunk) : Near (s.chunkAudio r chunk) 10 := by
  unfold chunkAudio
  split
  · split
    · exact near_setTask rfl
    · exact (chunkFinish_near ..).mono (by decide)
  · exact (chunkFinish_near ..).mono (by decide)

theorem createdSent_near : Near (s.createdSent r) 8 := by
  unfold createdSent
  split
  · exact (near_setTask rfl).mono (by decide)
  · exact near_setTask rfl

theorem streamEnded_near : Near (s.streamEnded r) 7 := by
  dsimp only [streamEnded]
  split
  · exact near_setTask rfl
  · split
    · exact near_setTask rfl
    · exact near_setTask rfl

theorem afterAudioDone_near (t : Terminals) (h : Bool) (a : Outcome) :
    Near (s.afterAudioDone r t h a) 4 := by
  unfold afterAudioDone
  split
  · exact near_setTask rfl
  · exact (near_setTask rfl).mono (by decide)

theorem afterTextDone_near (t : Terminals) (h : Bool) (a : Outcome) :
    Near (s.afterTextDone r t h a) 5 := by
  unfold afterTextDone
  split
  · exact near_setTask rfl
  · exact (afterAudioDone_near ..).mono (by decide)

end

theorem terminalsRun_near (s : Session) (hdone : r.responseDone = false) (t : Terminals) (h : Bool)
    (a : Outcome) {p : TerminalPoint} (hp : p ≠ .responseDone)
    (hd : (Point.terminals t p h a).distance = some (d + 1)) :
    Near (s.terminalsRun r t h a p) d := by
  cases p with
  | start =>
    cases hd
    dsimp only [terminalsRun]
    rw [if_neg (Bool.eq_false_iff.mp hdone)]
    split
    · exact (afterTextDone_near ..).mono (by decide)
    · exact near_setTask rfl
  | textDone =>
    cases hd
    exact afterTextDone_near ..
  | audioDone =>
    cases hd
    exact afterAudioDone_near ..
  | error =>
    cases hd
    exact (near_setTask rfl).mono (by decide)
  | responseDone => exact absurd rfl hp

theorem comes_nearer (h : Kept s calls) (htask : s.activeResponseTask = some r)
    (hd : r.point.distance = some (d + 1)) :
    ∃ wake u, wake ≠ Wake.sendException ∧ s.responseStep r wake = some u ∧ Near u d := by
  have hkept := h.task
  rw [htask] at hkept
  cases hkept with
  | notStarted hpt | leaving hpt | finished hpt => simp [hpt, distance] at hd
  | created hpt _ _ _ _ hfg =>
    refine ⟨.resume, s.createdSent r, nofun, by simp [responseStep, hpt, hfg], ?_⟩
    rw [hpt] at hd
    cases hd
    exact (createdSent_near s r).mono (by decide)
  | looping hloop _ _ _ _ hcancel =>
    by_cases hfg : r.cancelRequested = true
    · refine ⟨.cancelled, s.onCancelled { r with cancelRequested := false }, nofun, ?_, ?_⟩
      · unfold InLoop at hloop
        split at hloop <;> simp_all [responseStep]
      · refine (near_setTask rfl).mono ?_
        unfold InLoop at hloop
        split at hloop <;> simp_all [distance]
    · have hfg : r.cancelRequested = false := Bool.eq_false_iff.mpr hfg
      unfold InLoop at hloop
      split at hloop
      · next hpt =>
        refine ⟨.streamEnd, s.streamEnded r, nofun, by simp [responseStep, hpt, hfg],
          ?_⟩
        rw [hpt] at hd
        cases hd
        exact streamEnded_near s r
      · next chunk hpt =>
        refine ⟨.resume, s.chunkAudio r chunk, nofun, by simp [responseStep, hpt, hfg],
          ?_⟩
        rw [hpt] at hd
        cases hd
        exact chunkAudio_near s r chunk
      · next chunk hpt =>
        refine ⟨.resume, s.chunkFinish r chunk, nofun,
          by simp [responseStep, hpt, hfg], ?_⟩
        rw [hpt] at hd
        cases hd
        exact chunkFinish_near s r chunk
      · next hpt =>
        refine ⟨.resume, s.setTask { r with textDone := true, point := .stream }, nofun,
          by simp [responseStep, hpt, hfg], ?_⟩
        rw [hpt] at hd
        cases hd
        exact near_setTask rfl
      · next hpt =>
        refine ⟨.resume, s.setTask { r with audioDone := true, point := .stream }, nofun,
          by simp [responseStep, hpt, hfg], ?_⟩
        rw [hpt] at hd
        cases hd
        exact near_setTask rfl
      · cases hloop
  | emitting hpt hact hcancel hfnl hpnd hfg hdone =>
    next t p handler a =>
    rw [hpt] at hd
    have hp : p ≠ .responseDone := fun heq => by
      subst heq
      cases hd
    exact ⟨.resume, s.terminalsRun r t handler a p, nofun, by simp [responseStep, hpt],
      terminalsRun_near s hdone t handler a hp hd⟩

theorem reaches_done (hopen : s.isOpen = true) (h : Kept s calls) (hnear : Near s n) :
    ∃ (wakes : List Wake) (u : Session) (calls' : List (ℕ × Bool)),
      System.exec turnStep s (wakes.map TurnLabel.response) = some u ∧ s.log <+: u.log ∧
      Told u.marks calls' .idle := by
  induction n using Nat.strongRecOn generalizing s calls with
  | _ n ih =>
    obtain ⟨r, d, htask, hd, hn⟩ := hnear
    cases d with
    | zero =>
      refine ⟨[], s, calls, rfl, prefix_rfl, ?_⟩
      have hidle : s.stage = .idle := by
        rw [stage_eq htask]
        unfold distance at hd
        unfold Response.stage
        split at hd <;> simp_all
      exact hidle ▸ h.told
    | succ d =>
      obtain ⟨wake, v, hwake, hstep, hnear⟩ := comes_nearer h htask hd
      obtain ⟨calls₁, hkept⟩ := responseStep_kept hopen h htask hwake hstep
      have hmuted := Muted.responseStep hwake hstep
      obtain ⟨wakes, u, calls', hrun, hgrows, htold⟩ :=
        ih d hn (hmuted.isOpen.trans hopen) hkept hnear
      refine ⟨wake :: wakes, u, calls', ?_, hmuted.grows.trans hgrows, htold⟩
      have hfst : turnStep s (.response wake) = some v := by
        dsimp only [turnStep]
        rw [htask]
        exact hstep
      rw [map_cons, System.exec, hfst]
      exact hrun

theorem Response.stage_call {i : ℕ} {b : Bool} (hcall : (r.stage b).call = some i) :
    r.requestId = i ∧ r.isFinished = false ∧ ∃ d, r.point.distance = some d := by
  obtain ⟨requestId, wantsAudio, textAcc, finishReason, sawAudio, textDone, audioDone,
    responseDone, point, cancelRequested⟩ := r
  cases point with
  | terminals t p h a =>
    cases p with
    | responseDone => cases hcall
    | _ => exact ⟨some.inj hcall, rfl, _, rfl⟩
  | notStarted => cases hcall
  | leaving _ => cases hcall
  | finished _ => cases hcall
  | _ => exact ⟨some.inj hcall, rfl, _, rfl⟩

theorem stage_call {i : ℕ} (hcall : s.stage.call = some i) :
    ∃ r d, s.activeResponseTask = some r ∧ r.requestId = i ∧ r.isFinished = false ∧
      r.point.distance = some d := by
  cases htask : s.activeResponseTask with
  | none =>
    rw [stage_none htask] at hcall
    cases hcall
  | some r =>
    rw [stage_eq htask] at hcall
    obtain ⟨hid, hrunning, d, hd⟩ := Response.stage_call hcall
    exact ⟨r, d, rfl, hid, hrunning, hd⟩

end Way

/-- What a session records up to its closing: one response after the other, each with its own
    request, created, finalized and done once in this order; it is done as cancelled exactly where
    a cancel was claimed, and then before the response was finalized. Only the last response may be
    without its done; in an open session its task is still running, and its own steps lead to the
    done. -/
theorem audio_responses_balanced {s : Session} (hs : turnSystem.Reachable s) :
    ∃ (calls : List (ℕ × Bool)) (stage : Stage ℕ),
      s.marks = calls.flatMap story ++ stage.marks ∧
      (calls.map Prod.fst ++ stage.call.toList).Nodup ∧
      (s.isOpen = true → ∀ i, stage.call = some i →
        (∃ r, s.activeResponseTask = some r ∧ r.requestId = i ∧ r.isFinished = false) ∧
        ∃ (wakes : List Wake) (u : Session) (c : Bool),
          System.exec turnStep s (wakes.map TurnLabel.response) = some u ∧
          s.log <+: u.log ∧ Mark.answered i c ∈ u.marks) := by
  have hbalanced : Balanced s := by
    refine hs.invariant (fun s₀ h₀ => ?_) fun t label _ h hst =>
      turn_balanced (show turnStep t label = some _ from hst) h
    obtain rfl : s₀ = {} := h₀
    exact ⟨[], .idle, .nil, fun _ => ⟨rfl, kept_init⟩⟩
  obtain ⟨calls, stage, htold, hkept⟩ := hbalanced
  refine ⟨calls, stage, htold.marks_eq, htold.distinct, fun hopen i hi => ?_⟩
  obtain ⟨rfl, hopenKept⟩ := hkept hopen
  obtain ⟨r, d, htask, hid, hrunning, hd⟩ := stage_call hi
  refine ⟨⟨r, htask, hid, hrunning⟩, ?_⟩
  obtain ⟨wakes, u, calls', hrun, hgrows, htold'⟩ :=
    reaches_done hopen hopenKept ⟨r, d, htask, hd, Nat.le_refl d⟩
  have hmem : Mark.opened i ∈ u.marks := by
    obtain ⟨later, hlater⟩ := hgrows
    rw [marks_append hlater.symm]
    refine mem_append_left _ ?_
    rw [htold.marks_eq]
    exact mem_append_right _ (Stage.opened_mem hi)
  obtain ⟨c, hc⟩ := htold'.answer hmem
  exact ⟨wakes, u, c, hrun, hgrows, hc⟩

/-- Speech cuts off a response with audio while its text is streamed. -/
def exBargeIn : List TurnLabel :=
  [.sessionUpdate true true, .speechStopped true, .takeUtterance, .beginTurn, .runTurn,
    .response .resume, .response .resume, .response (.chunk ⟨some "well", .text, none, none⟩),
    .speechStarted, .bargeIn, .response .cancelled, .response .resume, .response .resume,
    .response .resume]

theorem audio_responses_balanced_bargeIn :
    ∃ (s : Session) (calls : List (ℕ × Bool)) (stage : Stage ℕ),
      System.exec turnStep {} exBargeIn = some s ∧
      s.marks = [.opened 0, .claimed 0, .settled 0, .answered 0 true] ∧
      s.marks = calls.flatMap story ++ stage.marks ∧
      (calls.map Prod.fst ++ stage.call.toList).Nodup := by
  have hrun : (System.exec turnStep {} exBargeIn).map marks =
      some [.opened 0, .claimed 0, .settled 0, .answered 0 true] := by
    decide
  obtain ⟨s, hs, hmarks⟩ := map_eq_some_iff.mp hrun
  have hreach : turnSystem.Reachable s := System.Reachable.of_exec (.init rfl) hs
  obtain ⟨calls, stage, htold, hdistinct, -⟩ := audio_responses_balanced hreach
  exact ⟨s, calls, stage, hs, hmarks, htold, hdistinct⟩

end AudioTurn

end OmniRealtime
