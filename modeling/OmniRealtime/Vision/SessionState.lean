import OmniRealtime.Lib.PyFloat

/-!
# Events of a realtime session and their order

`payload_types.py` and `session_state.py`: the validated event a client input becomes, its
form on the control plane, and the session that accepts events in order on the scheduler's
side.

1. `FramePromptEvent.fromDict_toDict`: an event survives the control plane unchanged.
2. `MossVLRealtimeSession.accept_of_accepts`: an event in order is accepted.
3. `MossVLRealtimeSession.ingestAll_append`: a queue of events is accepted one by one.
4. `session_events_in_order`: what a session hands on stays in order.
-/

namespace OmniRealtime

/-! ## Events -/

/-- Why `FramePromptEvent` refuses its fields. -/
inductive EventError
  | emptyRequestId
  | emptySessionId
  | badTimestamp
  | emptyFrameRef
  | emptyPrompt
  | noFrameOrPrompt
  | unexpectedType (eventType : String)
  | missingFields (names : List String)
  deriving DecidableEq, Repr

def EventError.message : EventError → String
  | .emptyRequestId => "request_id must not be empty"
  | .emptySessionId => "session_id must not be empty"
  | .badTimestamp => "timestamp must be finite and non-negative"
  | .emptyFrameRef => "frame_ref must not be empty"
  | .emptyPrompt => "prompt must not be empty"
  | .noFrameOrPrompt => "event must contain a frame or prompt"
  | .unexpectedType eventType => s!"unexpected frame event type: {eventType}"
  | .missingFields names => "frame event is missing fields: " ++ ", ".intercalate names

/-- The fields of an event before they are checked. -/
structure EventFields where
  requestId : String
  sessionId : String
  seqNo : Nat
  timestamp : PyFloat
  frameRef : Option String
  prompt : Option String := none
  final : Bool := false
  fingerprint : Option String := none
  deriving DecidableEq

/-- `not math.isfinite(timestamp) or timestamp < 0`. -/
def badTimestamp (timestamp : PyFloat) : Bool := !timestamp.isFinite || timestamp.lt .zero

/-- `__post_init__`, in the order of its checks. -/
def EventFields.check (f : EventFields) : Option EventError :=
  if f.requestId = "" then some .emptyRequestId
  else if f.sessionId = "" then some .emptySessionId
  else if badTimestamp f.timestamp then some .badTimestamp
  else if f.frameRef = some "" then some .emptyFrameRef
  else if f.prompt = some "" then some .emptyPrompt
  else if f.frameRef = none ∧ f.prompt = none then some .noFrameOrPrompt
  else none

/-- One ordered frame, prompt or combined update; an instance passed `__post_init__`. -/
structure FramePromptEvent extends EventFields where
  checked : toEventFields.check = none

def FramePromptEvent.make (f : EventFields) : Except EventError FramePromptEvent :=
  match h : f.check with
  | none => .ok ⟨f, h⟩
  | some e => .error e

/-- The dictionary on the control plane; an absent key is `none`. -/
structure EventDict where
  type : Option String := none
  requestId : Option String := none
  sessionId : Option String := none
  seqNo : Option Nat := none
  timestamp : Option PyFloat := none
  final : Option Bool := none
  frameRef : Option String := none
  prompt : Option String := none
  fingerprint : Option String := none
  deriving DecidableEq

namespace FramePromptEvent

def toDict (e : FramePromptEvent) : EventDict where
  type := some "FramePromptEvent"
  requestId := some e.requestId
  sessionId := some e.sessionId
  seqNo := some e.seqNo
  timestamp := some e.timestamp
  final := some e.final
  frameRef := e.frameRef
  prompt := e.prompt
  fingerprint := e.fingerprint

/-- The required keys a dictionary lacks, in the order of the source. -/
def missing (d : EventDict) : List String :=
  [("request_id", d.requestId.isSome), ("session_id", d.sessionId.isSome),
    ("seq_no", d.seqNo.isSome), ("timestamp", d.timestamp.isSome)].filterMap
      fun key => if key.2 then none else some key.1

def fromDict (d : EventDict) : Except EventError FramePromptEvent :=
  let eventType := d.type.getD "FramePromptEvent"
  if eventType ≠ "FramePromptEvent" then
    .error (.unexpectedType eventType)
  else
    match d.requestId, d.sessionId, d.seqNo, d.timestamp with
    | some requestId, some sessionId, some seqNo, some timestamp =>
      make {
        requestId := requestId
        sessionId := sessionId
        seqNo := seqNo
        timestamp := timestamp
        frameRef := d.frameRef
        prompt := d.prompt
        final := d.final.getD false
        fingerprint := d.fingerprint }
    | _, _, _, _ => .error (.missingFields (missing d))

theorem make_ok {f : EventFields} {e : FramePromptEvent} (h : make f = .ok e) :
    e.toEventFields = f := by
  unfold make at h
  split at h <;> cases h
  rfl

theorem make_of_check {f : EventFields} (h : f.check = none) : make f = .ok ⟨f, h⟩ := by
  unfold make
  split
  next => rfl
  next err herr => exact absurd (h.symm.trans herr) (by simp)

/-- An event carries a finite timestamp that is not negative. -/
theorem timestamp_ok (e : FramePromptEvent) : badTimestamp e.timestamp = false := by
  have h := e.checked
  unfold EventFields.check at h
  split_ifs at h with hr hs ht
  all_goals simpa using ht

theorem fromDict_toDict (e : FramePromptEvent) : fromDict e.toDict = .ok e := by
  show make e.toEventFields = .ok e
  exact make_of_check e.checked

end FramePromptEvent

/-! ## The session -/

inductive SessionError
  | requestMismatch
  | sessionMismatch
  | finalReceived
  | outOfOrder (expected received : Nat)
  | timestampBackwards
  | invalidEvent (e : EventError)
  deriving DecidableEq, Repr

structure MossVLRealtimeSession where
  requestId : String
  sessionId : String
  nextSeqNo : Nat := 0
  lastTimestamp : Option PyFloat := none
  finalReceived : Bool := false
  pendingEvents : List FramePromptEvent := []

namespace MossVLRealtimeSession

def accept (s : MossVLRealtimeSession) (e : FramePromptEvent) :
    Except SessionError MossVLRealtimeSession :=
  if e.requestId ≠ s.requestId then .error .requestMismatch
  else if e.sessionId ≠ s.sessionId then .error .sessionMismatch
  else if s.finalReceived then .error .finalReceived
  else if e.seqNo ≠ s.nextSeqNo then .error (.outOfOrder s.nextSeqNo e.seqNo)
  else if s.lastTimestamp.any fun last => e.timestamp.lt last then .error .timestampBackwards
  else .ok { s with
    pendingEvents := s.pendingEvents ++ [e]
    nextSeqNo := s.nextSeqNo + 1
    lastTimestamp := some e.timestamp
    finalReceived := e.final }

/-- `drain` without a limit. -/
def drain (s : MossVLRealtimeSession) : List FramePromptEvent × MossVLRealtimeSession :=
  (s.pendingEvents, { s with pendingEvents := [] })

/-- `MossVLRealtimeSessionController.ingest` on the session of the request. -/
def ingest (s : MossVLRealtimeSession) (d : EventDict) :
    Except SessionError MossVLRealtimeSession :=
  match FramePromptEvent.fromDict d with
  | .error e => .error (.invalidEvent e)
  | .ok e => s.accept e

/-- The state `accept` leaves. -/
def accepted (s : MossVLRealtimeSession) (e : FramePromptEvent) : MossVLRealtimeSession :=
  { s with
    pendingEvents := s.pendingEvents ++ [e]
    nextSeqNo := s.nextSeqNo + 1
    lastTimestamp := some e.timestamp
    finalReceived := e.final }

/-- What the session demands of the next event. -/
structure Accepts (s : MossVLRealtimeSession) (e : FramePromptEvent) : Prop where
  request : e.requestId = s.requestId
  session : e.sessionId = s.sessionId
  open' : s.finalReceived = false
  next : e.seqNo = s.nextSeqNo
  order : ∀ last, s.lastTimestamp = some last → e.timestamp.lt last = false

variable {e : FramePromptEvent}

theorem accept_of_accepts {s : MossVLRealtimeSession} (h : s.Accepts e) : s.accept e = .ok
    (s.accepted e) := by
  have hord : (s.lastTimestamp.any fun last => e.timestamp.lt last) = false := by
    cases hlast : s.lastTimestamp with
    | none => rfl
    | some last => exact h.order last hlast
  unfold accept accepted
  simp [h.request, h.session, h.open', h.next, hord]

variable {s t : MossVLRealtimeSession}

theorem accepts_of_accept (h : s.accept e = .ok t) : s.Accepts e ∧ t = s.accepted e := by
  unfold accept at h
  split_ifs at h with hreq hsession hfnl hnext hord
  refine ⟨⟨not_not.mp hreq, not_not.mp hsession, by simpa using hfnl, not_not.mp hnext, ?_⟩,
    (Except.ok.inj h).symm⟩
  intro last hlast
  rw [hlast] at hord
  simpa using hord

theorem ingest_toDict (s : MossVLRealtimeSession) (e : FramePromptEvent) :
    s.ingest e.toDict = s.accept e := by
  rw [ingest, FramePromptEvent.fromDict_toDict]

/-- Ingest the events on the control plane in order. -/
def ingestAll : MossVLRealtimeSession → List FramePromptEvent →
    Except SessionError MossVLRealtimeSession
  | s, [] => .ok s
  | s, e :: es => (s.ingest e.toDict).bind fun s' => ingestAll s' es

variable {es : List FramePromptEvent}

theorem ingestAll_cons (h : s.ingestAll (e :: es) = .ok t) :
    ∃ s', s.accept e = .ok s' ∧ s'.ingestAll es = .ok t := by
  rw [ingestAll, ingest_toDict] at h
  cases he : s.accept e with
  | error err =>
    rw [he] at h
    cases h
  | ok s' =>
    rw [he] at h
    exact ⟨s', rfl, h⟩

theorem ingestAll_append (h : s.ingestAll es = .ok t) (e : FramePromptEvent) :
    s.ingestAll (es ++ [e]) = t.accept e := by
  induction es generalizing s with
  | nil =>
    cases h
    rw [List.nil_append, ingestAll, ingest_toDict]
    cases t.accept e <;> rfl
  | cons e' es ih =>
    obtain ⟨s', haccept, hrest⟩ := ingestAll_cons h
    rw [List.cons_append, ingestAll, ingest_toDict, haccept]
    exact ih hrest

/-- Draining the pending events changes nothing about what is accepted later. -/
theorem ingestAll_pendingEvents (h : s.ingestAll es = .ok t) (pending : List FramePromptEvent) :
    ∃ pending', ingestAll { s with pendingEvents := pending } es =
      .ok { t with pendingEvents := pending' } := by
  induction es generalizing s pending with
  | nil =>
    cases h
    exact ⟨pending, rfl⟩
  | cons e es ih =>
    obtain ⟨s', haccept, hrest⟩ := ingestAll_cons h
    obtain ⟨ha, rfl⟩ := accepts_of_accept haccept
    obtain ⟨pending', hpnd⟩ := ih hrest (pending ++ [e])
    refine ⟨pending', ?_⟩
    have ha' : Accepts { s with pendingEvents := pending } e :=
      ⟨ha.request, ha.session, ha.open', ha.next, ha.order⟩
    rw [ingestAll, ingest_toDict, accept_of_accepts ha']
    exact hpnd

/-! ## What is drained -/

inductive SessionOp
  | ingest (d : EventDict)
  | drain

/-- A session, and what was drained of it. -/
structure SessionTrace where
  session : MossVLRealtimeSession
  drained : List FramePromptEvent := []

namespace SessionTrace

def apply (t : SessionTrace) : SessionOp → SessionTrace
  | .ingest d =>
    match t.session.ingest d with
    | .ok s => { t with session := s }
    | .error _ => t
  | .drain => { session := t.session.drain.2, drained := t.drained ++ t.session.drain.1 }

def events (t : SessionTrace) : List FramePromptEvent := t.drained ++ t.session.pendingEvents

/-- The events of a session, drained or pending, in the order of their numbers. -/
structure InOrder (requestId sessionId : String) (t : SessionTrace) : Prop where
  session : t.session.requestId = requestId ∧ t.session.sessionId = sessionId
  owned : ∀ e ∈ t.events, e.requestId = requestId ∧ e.sessionId = sessionId
  next : t.session.nextSeqNo = t.events.length
  numbers : t.events.map (·.seqNo) = List.range t.events.length
  last : t.session.lastTimestamp = t.events.getLast?.map (·.timestamp)
  final : t.session.finalReceived = t.events.getLast?.any (·.final)
  times : t.events.IsChain fun e e' => e'.timestamp.lt e.timestamp = false
  open' : t.events.IsChain fun e _ => e.final = false

theorem InOrder.ingest {requestId sessionId : String} {t : SessionTrace}
    (h : t.InOrder requestId sessionId) (d : EventDict) :
    (t.apply (.ingest d)).InOrder requestId sessionId := by
  rw [apply]
  cases hs : t.session.ingest d with
  | error _ => exact h
  | ok s =>
    unfold MossVLRealtimeSession.ingest at hs
    split at hs
    · cases hs
    next e _ =>
    obtain ⟨ha, rfl⟩ := accepts_of_accept hs
    have hevents : SessionTrace.events { t with session := t.session.accepted e } =
        t.events ++ [e] := (List.append_assoc ..).symm
    refine ⟨h.session, ?_, ?_, ?_, ?_, ?_, ?_, ?_⟩ <;> rw [hevents]
    · intro e' he'
      rcases List.mem_append.mp he' with he' | he'
      · exact h.owned e' he'
      · obtain rfl := List.mem_singleton.mp he'
        exact ⟨ha.request.trans h.session.1, ha.session.trans h.session.2⟩
    · simp [accepted, h.next]
    · simp [h.numbers, List.range_succ, ha.next, h.next]
    · simp [accepted]
    · simp [accepted]
    · refine List.isChain_append.mpr ⟨h.times, .singleton _, fun e' he' e'' he'' => ?_⟩
      cases he''
      exact ha.order _ (by rw [h.last, he']; rfl)
    · refine List.isChain_append.mpr ⟨h.open', .singleton _, fun e' he' e'' _ => ?_⟩
      have hopen := ha.open'
      rw [h.final, he'] at hopen
      exact hopen

/-- Whatever reaches a session, in whatever order and however often, and whenever it is drained:
    what it hands on is numbered from 0 without a gap, is its own, goes forward in time, and ends
    with the first final event. -/
theorem session_events_in_order (requestId sessionId : String) (ops : List SessionOp) :
    (ops.foldl apply { session := { requestId, sessionId } }).InOrder requestId sessionId := by
  induction ops using List.reverseRecOn with
  | nil => exact ⟨⟨rfl, rfl⟩, by simp [events], rfl, rfl, rfl, rfl, .nil, .nil⟩
  | append_singleton ops op ih =>
    rw [List.foldl_append]
    cases op with
    | ingest d => exact ih.ingest d
    | drain =>
      have hsame : SessionTrace.events (SessionTrace.apply (ops.foldl apply
          { session := { requestId, sessionId } }) .drain) = SessionTrace.events _ :=
        List.append_nil _
      exact ⟨ih.session, hsame ▸ ih.owned, hsame ▸ ih.next, hsame ▸ ih.numbers, hsame ▸ ih.last,
        hsame ▸ ih.final, hsame ▸ ih.times, hsame ▸ ih.open'⟩

end SessionTrace

end MossVLRealtimeSession

end OmniRealtime
