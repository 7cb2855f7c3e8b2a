import OmniRealtime.Lib.System

/-!
# Batches of the streaming scheduler

`scheduling/streaming_simple_scheduler.py`: the loop of `start` with `_next_message`,
`_collect_new_request_batch` and `_collect_stream_chunk_batch`. Messages arrive at any time, also
while a batch is collected, and other threads abort requests at any time. A batch counts as
delivered when it is handed to its handler.

A done mark that comes before its payload is put aside while the collector looks for more
payloads, so that a payload behind it may be delivered first (`done_overtaken`).

1. `dispatch`, `fetch`, `quit`: the loop and its collectors.
2. `BatchLoop.line`: all messages that are not dropped, in the order of delivery.
3. `InLine.step`: a step changes the line by a payload that overtakes done marks, at most.
4. `batches_keep_order`: what is delivered, over all runs.
-/

namespace OmniRealtime

open List

/-! ## Messages -/

inductive QueuedKind
  /-- What `is_streaming_payload` and the cost function answer for the payload, if they do not
      raise. -/
  | newRequest (streaming : Option Bool) (cost : Option Int)
  | streamChunk
  | streamDone
  /-- A type that `_handle_message` does not know. -/
  | unsupported
deriving DecidableEq, Repr

/-- A message of the inbox, with the number of messages that arrived before it. -/
structure QueuedMessage where
  serial : ℕ
  requestId : String
  kind : QueuedKind
deriving DecidableEq, Repr

/-- The settings of the constructor and of the class. -/
structure BatchSettings where
  batchFn : Bool
  maxBatchSizeArg : Int
  requestCostFn : Bool
  maxBatchCostArg : Option Int
  canBatchStreamChunks : Bool
  streamChunkBatchMax : Option Int
  distinctRequests : Bool
deriving DecidableEq, Repr

namespace BatchSettings

def maxBatchSize (c : BatchSettings) : Int := max c.maxBatchSizeArg 1

def maxBatchCost (c : BatchSettings) : Option Int := c.maxBatchCostArg.map (max · 0)

/-- `_message_cost`: nothing where it raises. -/
def messageCost (c : BatchSettings) (msg : QueuedMessage) : Option Int :=
  match msg.kind with
  | .newRequest _ cost => if c.requestCostFn then cost.map (max · 0) else some 0
  | _ => some 0

/-- The cap of `_collect_stream_chunk_batch`. -/
def chunkCap (c : BatchSettings) : Int :=
  match c.streamChunkBatchMax with
  | some cap => if cap = 0 then max c.maxBatchSize 1 else cap
  | none => max c.maxBatchSize 1

end BatchSettings

/-! ## The loop -/

inductive CollectPhase
  | idle
  | newRequests (batch : List QueuedMessage) (batchCost : Int)
  | chunks (batch : List QueuedMessage) (seenRequestIds : List String)
deriving DecidableEq, Repr

def CollectPhase.batch : CollectPhase → List QueuedMessage
  | .idle => []
  | .newRequests batch _ => batch
  | .chunks batch _ => batch

inductive DropReason
  | aborted
  /-- An error was emitted for the message, and its request aborted. -/
  | raised
deriving DecidableEq, Repr

structure BatchLoop where
  inbox : List QueuedMessage := []
  pendingMessages : List QueuedMessage := []
  phase : CollectPhase := .idle
  abortedRequestIds : List String := []
  streamPayloads : List String := []
  delivered : List QueuedMessage := []
  dropped : List (QueuedMessage × DropReason) := []
  arrived : ℕ := 0
deriving DecidableEq, Repr

open BatchLoop

namespace BatchLoop

def drop (s : BatchLoop) (msg : QueuedMessage) (reason : DropReason) : BatchLoop :=
  { s with dropped := s.dropped ++ [(msg, reason)] }

/-- The batch goes to its handler. -/
def deliver (s : BatchLoop) (batch : List QueuedMessage) : BatchLoop :=
  { s with phase := .idle, delivered := s.delivered ++ batch }

/-- `_pending_messages.append`. -/
def append (s : BatchLoop) (msg : QueuedMessage) : BatchLoop :=
  { s with pendingMessages := s.pendingMessages ++ [msg] }

/-- `_pending_messages.appendleft`. -/
def appendleft (s : BatchLoop) (msg : QueuedMessage) : BatchLoop :=
  { s with pendingMessages := msg :: s.pendingMessages }

variable (c : BatchSettings)

def dispatch (s : BatchLoop) (msg : QueuedMessage) : BatchLoop :=
  if msg.requestId ∈ s.abortedRequestIds then s.drop msg .aborted
  else
    match msg.kind with
    | .newRequest streaming _ =>
      if !c.batchFn ∨ c.maxBatchSize ≤ 1 then s.deliver [msg]
      else
        match streaming, c.messageCost msg with
        | none, _ => s.drop msg .raised
        | some true, _ => s.deliver [msg]
        | some false, none => s.drop msg .raised
        | some false, some cost => { s with phase := .newRequests [msg] cost }
    | .streamChunk =>
      if !c.canBatchStreamChunks ∨ c.chunkCap ≤ 1 then s.deliver [msg]
      else
        { s with phase := .chunks [msg] (if c.distinctRequests then [msg.requestId] else []) }
    | .streamDone | .unsupported => s.deliver [msg]

/-- `_next_message`, and what the loop does with the message. -/
def next (s : BatchLoop) : Option BatchLoop :=
  match s.phase, s.pendingMessages, s.inbox with
  | .idle, msg :: rest, _ => some ({ s with pendingMessages := rest }.dispatch c msg)
  | .idle, [], msg :: rest => some ({ s with inbox := rest }.dispatch c msg)
  | _, _, _ => none

def joinNewRequests (s : BatchLoop) (batch : List QueuedMessage) (batchCost : Int) : BatchLoop :=
  if batch.length < c.maxBatchSize then { s with phase := .newRequests batch batchCost }
  else s.deliver batch

/-- The body of the loop of `_collect_new_request_batch`, with the message it has taken. -/
def collectNewRequest (s : BatchLoop) (batch : List QueuedMessage) (batchCost : Int)
    (msg : QueuedMessage) : BatchLoop :=
  if msg.requestId ∈ s.abortedRequestIds then s.drop msg .aborted
  else
    match msg.kind with
    | .streamDone =>
      if msg.requestId ∉ s.streamPayloads then s.append msg
      else (s.append msg).deliver batch
    | .streamChunk | .unsupported => (s.append msg).deliver batch
    | .newRequest none _ => s.drop msg .raised
    | .newRequest (some true) _ => (s.append msg).deliver batch
    | .newRequest (some false) _ =>
      match c.maxBatchCost with
      | none => s.joinNewRequests c (batch ++ [msg]) batchCost
      | some maxBatchCost =>
        match c.messageCost msg with
        | none => s.drop msg .raised
        | some cost =>
          if batchCost + cost > maxBatchCost then (s.appendleft msg).deliver batch
          else s.joinNewRequests c (batch ++ [msg]) (batchCost + cost)

def joinChunks (s : BatchLoop) (batch : List QueuedMessage) (seenRequestIds : List String) :
    BatchLoop :=
  if batch.length < c.chunkCap then { s with phase := .chunks batch seenRequestIds }
  else s.deliver batch

/-- The body of the loop of `_collect_stream_chunk_batch`, with the message it has taken. -/
def collectChunk (s : BatchLoop) (batch : List QueuedMessage) (seenRequestIds : List String)
    (msg : QueuedMessage) : BatchLoop :=
  if msg.kind ≠ .streamChunk then (s.appendleft msg).deliver batch
  else if msg.requestId ∈ s.abortedRequestIds then s.drop msg .aborted
  else if c.distinctRequests ∧ msg.requestId ∈ seenRequestIds then
    (s.appendleft msg).deliver batch
  else
    s.joinChunks c (batch ++ [msg])
      (if c.distinctRequests then msg.requestId :: seenRequestIds else seenRequestIds)

/-- A collector takes a message from the inbox. -/
def fetch (s : BatchLoop) : Option BatchLoop :=
  match s.phase, s.inbox with
  | .newRequests batch batchCost, msg :: rest =>
    some ({ s with inbox := rest }.collectNewRequest c batch batchCost msg)
  | .chunks batch seenRequestIds, msg :: rest =>
    some ({ s with inbox := rest }.collectChunk c batch seenRequestIds msg)
  | _, _ => none

/-- A collector finds the inbox empty, and its time over. -/
def quit (s : BatchLoop) : Option BatchLoop :=
  match s.phase, s.inbox with
  | .newRequests batch _, [] => some (s.deliver batch)
  | .chunks batch _, [] => some (s.deliver batch)
  | _, _ => none

end BatchLoop

inductive LoopEvent
  /-- A message is put into the inbox. -/
  | put (requestId : String) (kind : QueuedKind)
  /-- The sets of aborted requests and of streaming payloads have changed. -/
  | surroundings (abortedRequestIds streamPayloads : List String)
  | next
  | fetch
  | quit
deriving Repr

def loopStep (c : BatchSettings) (s : BatchLoop) : LoopEvent → Option BatchLoop
  | .put requestId kind =>
    some { s with inbox := s.inbox ++ [⟨s.arrived, requestId, kind⟩], arrived := s.arrived + 1 }
  | .surroundings abortedRequestIds streamPayloads =>
    some { s with abortedRequestIds, streamPayloads }
  | .next => s.next c
  | .fetch => s.fetch c
  | .quit => s.quit

def loopSystem (c : BatchSettings) : System BatchLoop LoopEvent :=
  .ofFun (· = {}) (loopStep c)

/-! ## The line -/

/-- All messages that are not dropped, in the order in which they are delivered. -/
def BatchLoop.line (s : BatchLoop) : List QueuedMessage :=
  s.delivered ++ (s.phase.batch ++ (s.pendingMessages ++ s.inbox))

/-- A payload that is computed in a batch may overtake a done mark. -/
def Overtakes (msg before : QueuedMessage) : Prop :=
  (∃ cost, msg.kind = .newRequest (some false) cost) ∧ before.kind = .streamDone

def KeepsPlace (msg msg' : QueuedMessage) : Prop := msg.serial < msg'.serial ∨ Overtakes msg msg'

/-- The hooks raise for the payload. -/
def BatchSettings.Raises (c : BatchSettings) (msg : QueuedMessage) : Prop :=
  ∃ streaming cost, msg.kind = .newRequest streaming cost ∧
    (streaming = none ∨ c.messageCost msg = none)

/-- What one step does to the line `line` and to what was dropped. -/
inductive LineStep (c : BatchSettings) (line : List QueuedMessage)
    (dropped : List (QueuedMessage × DropReason)) (t : BatchLoop) : Prop
  | keeps (hline : t.line = line) (hdropped : t.dropped = dropped)
  | drops (before : List QueuedMessage) (msg : QueuedMessage) (after : List QueuedMessage)
      (reason : DropReason) (hold : line = before ++ msg :: after)
      (hline : t.line = before ++ after) (hdropped : t.dropped = dropped ++ [(msg, reason)])
      (hreason : reason = .raised → c.Raises msg)
  | overtakes (before passed : List QueuedMessage) (msg : QueuedMessage)
      (after : List QueuedMessage) (hold : line = before ++ (passed ++ msg :: after))
      (hline : t.line = before ++ (msg :: (passed ++ after))) (hdropped : t.dropped = dropped)
      (hpass : ∀ other ∈ passed, Overtakes msg other)

def AllDone (msgs : List QueuedMessage) : Prop := ∀ msg ∈ msgs, msg.kind = .streamDone

/-- `_pending_messages` between two messages: a payload that did not fit its batch, or the message
    that ended a batch, with done marks. -/
def IdleShape (pending : List QueuedMessage) : Prop :=
  (∃ msg dones streaming cost, pending = msg :: dones ∧ msg.kind = .newRequest streaming cost ∧
    AllDone dones) ∨
  ∃ dones last, pending = dones ++ last ∧ AllDone dones ∧ last.length ≤ 1

def PendingShape (pending : List QueuedMessage) : CollectPhase → Prop
  | .idle => IdleShape pending
  | .newRequests _ _ => AllDone pending
  | .chunks _ _ => pending = []

/-- A message can be taken from the front of these. -/
def FollowedBy (msg : QueuedMessage) (pending : List QueuedMessage) : Prop :=
  IdleShape pending ∧
    (msg.kind = .streamDone ∨ AllDone pending ∧ (msg.kind = .streamChunk → pending = []))

section Shape

variable {msg : QueuedMessage} {pending : List QueuedMessage}

theorem AllDone.idle (h : AllDone pending) : IdleShape pending :=
  .inr ⟨pending, [], (append_nil _).symm, h, Nat.zero_le _⟩

theorem AllDone.ended (h : AllDone pending) (msg : QueuedMessage) : IdleShape (pending ++ [msg]) :=
  .inr ⟨pending, [msg], rfl, h, le_rfl⟩

theorem allDone_nil : AllDone [] := by rintro _ ⟨⟩

theorem follows_nil (msg : QueuedMessage) : FollowedBy msg [] :=
  ⟨allDone_nil.idle, .inr ⟨allDone_nil, fun _ => rfl⟩⟩

theorem IdleShape.followed (h : IdleShape (msg :: pending)) : FollowedBy msg pending := by
  obtain ⟨first, dones, streaming, cost, heq, hkind, hd⟩ |
    ⟨dones, last, heq, hd, hlast⟩ := h
  · obtain ⟨rfl, rfl⟩ := cons.inj heq
    refine ⟨hd.idle, .inr ⟨hd, fun hchk => ?_⟩⟩
    rw [hkind] at hchk
    cases hchk
  · cases dones with
    | nil =>
      cases last with
      | nil => cases heq
      | cons first rest =>
        obtain ⟨rfl, rfl⟩ := cons.inj heq
        obtain rfl := eq_nil_of_length_eq_zero (Nat.le_zero.1 (Nat.le_of_succ_le_succ hlast))
        exact follows_nil _
    | cons done dones =>
      obtain ⟨rfl, rfl⟩ := cons.inj heq
      exact ⟨.inr ⟨dones, last, rfl, fun m hm => hd m (mem_cons_of_mem _ hm), hlast⟩,
        .inl (hd _ mem_cons_self)⟩

end Shape

namespace BatchLoop

variable {c : BatchSettings} {s : BatchLoop} {msg : QueuedMessage}

theorem dispatch_line (hphase : s.phase = .idle) (hfollows : FollowedBy msg s.pendingMessages) :
    LineStep c (s.delivered ++ msg :: (s.pendingMessages ++ s.inbox)) s.dropped (s.dispatch c msg) ∧
      PendingShape (s.dispatch c msg).pendingMessages (s.dispatch c msg).phase := by
  obtain ⟨hidle, hkind⟩ := hfollows
  have hdrop : ∀ reason, (reason = .raised → c.Raises msg) →
      LineStep c (s.delivered ++ msg :: (s.pendingMessages ++ s.inbox)) s.dropped
        (s.drop msg reason) ∧ PendingShape (s.drop msg reason).pendingMessages
          (s.drop msg reason).phase := by
    intro reason hreason
    refine ⟨.drops s.delivered msg _ reason rfl ?_ rfl hreason, ?_⟩
    · simp [line, drop, hphase, CollectPhase.batch]
    · show PendingShape s.pendingMessages s.phase
      rw [hphase]
      exact hidle
  have hdeliver : LineStep c (s.delivered ++ msg :: (s.pendingMessages ++ s.inbox)) s.dropped
      (s.deliver [msg]) ∧ PendingShape (s.deliver [msg]).pendingMessages (s.deliver [msg]).phase :=
    ⟨.keeps (by simp [line, deliver, CollectPhase.batch]) rfl, hidle⟩
  unfold dispatch
  split
  · exact hdrop _ (by simp)
  · cases hmsg : msg.kind with
    | streamDone | unsupported => exact hdeliver
    | newRequest streaming cost =>
      have hd : AllDone s.pendingMessages :=
        (hkind.resolve_left (by rw [hmsg]; simp)).1
      dsimp only
      split
      · exact hdeliver
      · split
        · exact hdrop _ fun _ => ⟨_, _, hmsg, .inl rfl⟩
        · exact hdeliver
        · next hnone => exact hdrop _ fun _ => ⟨_, _, hmsg, .inr hnone⟩
        · exact ⟨.keeps (by simp [line, CollectPhase.batch]) rfl, hd⟩
    | streamChunk =>
      have he : s.pendingMessages = [] :=
        (hkind.resolve_left (by rw [hmsg]; simp)).2 hmsg
      dsimp only
      split
      · exact hdeliver
      · exact ⟨.keeps (by simp [line, CollectPhase.batch]) rfl, he⟩

theorem collectNewRequest_line (msg : QueuedMessage) {batch : List QueuedMessage} {batchCost : Int}
    (hphase : s.phase = .newRequests batch batchCost) (hd : AllDone s.pendingMessages) :
    LineStep c (s.delivered ++ (batch ++ (s.pendingMessages ++ msg :: s.inbox))) s.dropped
        (s.collectNewRequest c batch batchCost msg) ∧
      PendingShape (s.collectNewRequest c batch batchCost msg).pendingMessages
        (s.collectNewRequest c batch batchCost msg).phase := by
  have hdrop : ∀ reason, (reason = .raised → c.Raises msg) →
      LineStep c (s.delivered ++ (batch ++ (s.pendingMessages ++ msg :: s.inbox))) s.dropped
        (s.drop msg reason) ∧ PendingShape (s.drop msg reason).pendingMessages
          (s.drop msg reason).phase := by
    intro reason hreason
    refine ⟨.drops (s.delivered ++ (batch ++ s.pendingMessages)) msg s.inbox reason
      (by simp) ?_ rfl hreason, ?_⟩
    · simp [line, drop, hphase, CollectPhase.batch]
    · show PendingShape s.pendingMessages s.phase
      rw [hphase]
      exact hd
  have hend : LineStep c (s.delivered ++ (batch ++ (s.pendingMessages ++ msg :: s.inbox)))
      s.dropped ((s.append msg).deliver batch) ∧
        PendingShape ((s.append msg).deliver batch).pendingMessages
          ((s.append msg).deliver batch).phase :=
    ⟨.keeps (by simp [line, append, deliver, CollectPhase.batch]) rfl, hd.ended msg⟩
  have hovertakes : ∀ {cost}, msg.kind = .newRequest (some false) cost →
      ∀ other ∈ s.pendingMessages, Overtakes msg other :=
    fun hmsg other ho => ⟨⟨_, hmsg⟩, hd other ho⟩
  have hjoin : ∀ {cost}, msg.kind = .newRequest (some false) cost → ∀ batchCost',
      LineStep c (s.delivered ++ (batch ++ (s.pendingMessages ++ msg :: s.inbox))) s.dropped
        (s.joinNewRequests c (batch ++ [msg]) batchCost') ∧
      PendingShape (s.joinNewRequests c (batch ++ [msg]) batchCost').pendingMessages
        (s.joinNewRequests c (batch ++ [msg]) batchCost').phase := by
    intro cost hmsg batchCost'
    unfold joinNewRequests
    split
    · refine ⟨.overtakes (s.delivered ++ batch) s.pendingMessages msg s.inbox (by simp) ?_ rfl
        (hovertakes hmsg), hd⟩
      simp [line, CollectPhase.batch]
    · refine ⟨.overtakes (s.delivered ++ batch) s.pendingMessages msg s.inbox (by simp) ?_ rfl
        (hovertakes hmsg), hd.idle⟩
      simp [line, deliver, CollectPhase.batch]
  unfold collectNewRequest
  split
  · exact hdrop _ (by simp)
  · cases hmsg : msg.kind with
    | streamDone =>
      dsimp only
      split
      · refine ⟨.keeps (by simp [line, append, hphase, CollectPhase.batch]) rfl, ?_⟩
        show PendingShape (s.pendingMessages ++ [msg]) s.phase
        rw [hphase]
        intro other ho
        obtain hold | hnew := mem_append.1 ho
        · exact hd other hold
        · rw [mem_singleton.1 hnew, hmsg]
      · exact hend
    | streamChunk => exact hend
    | unsupported => exact hend
    | newRequest streaming cost =>
      cases streaming with
      | none => exact hdrop _ fun _ => ⟨_, _, hmsg, .inl rfl⟩
      | some streaming =>
        cases streaming with
        | true => exact hend
        | false =>
          dsimp only
          split
          · exact hjoin hmsg _
          · split
            · next hnone => exact hdrop _ fun _ => ⟨_, _, hmsg, .inr hnone⟩
            · split
              · refine ⟨.overtakes (s.delivered ++ batch) s.pendingMessages msg s.inbox (by simp)
                  (by simp [line, appendleft, deliver, CollectPhase.batch]) rfl (hovertakes hmsg),
                  .inl ⟨msg, _, _, _, rfl, hmsg, hd⟩⟩
              · exact hjoin hmsg _

theorem collectChunk_line (msg : QueuedMessage) {batch : List QueuedMessage}
    {seenRequestIds : List String}
    (hphase : s.phase = .chunks batch seenRequestIds) (he : s.pendingMessages = []) :
    LineStep c (s.delivered ++ (batch ++ msg :: s.inbox)) s.dropped
        (s.collectChunk c batch seenRequestIds msg) ∧
      PendingShape (s.collectChunk c batch seenRequestIds msg).pendingMessages
        (s.collectChunk c batch seenRequestIds msg).phase := by
  have hback : LineStep c (s.delivered ++ (batch ++ msg :: s.inbox)) s.dropped
      ((s.appendleft msg).deliver batch) ∧
        PendingShape ((s.appendleft msg).deliver batch).pendingMessages
          ((s.appendleft msg).deliver batch).phase := by
    refine ⟨.keeps (by simp [line, appendleft, deliver, CollectPhase.batch, he]) rfl, ?_⟩
    show IdleShape (msg :: s.pendingMessages)
    rw [he]
    exact allDone_nil.ended msg
  unfold collectChunk
  split
  · exact hback
  · split
    · refine ⟨.drops (s.delivered ++ batch) msg s.inbox .aborted (by simp) ?_ rfl (by simp), ?_⟩
      · simp [line, drop, hphase, he, CollectPhase.batch]
      · show PendingShape s.pendingMessages s.phase
        rw [hphase]
        exact he
    · split
      · exact hback
      · unfold joinChunks
        split
        · exact ⟨.keeps (by simp [line, he, CollectPhase.batch]) rfl, he⟩
        · refine ⟨.keeps (by simp [line, deliver, he, CollectPhase.batch]) rfl, ?_⟩
          show IdleShape s.pendingMessages
          rw [he]
          exact allDone_nil.idle

section

variable (c : BatchSettings) (s : BatchLoop)

theorem dispatch_arrived (msg : QueuedMessage) : (s.dispatch c msg).arrived = s.arrived := by
  unfold dispatch
  repeat' split
  all_goals rfl

theorem collectNewRequest_arrived (batch : List QueuedMessage) (batchCost : Int)
    (msg : QueuedMessage) :
    (s.collectNewRequest c batch batchCost msg).arrived = s.arrived := by
  unfold collectNewRequest joinNewRequests
  repeat' split
  all_goals rfl

theorem collectChunk_arrived (batch : List QueuedMessage) (seenRequestIds : List String)
    (msg : QueuedMessage) :
    (s.collectChunk c batch seenRequestIds msg).arrived = s.arrived := by
  unfold collectChunk joinChunks
  repeat' split
  all_goals rfl

end

end BatchLoop

/-! ## Runs -/

/-- The serials of the messages that are delivered or still to be delivered, and of those that were
    dropped. -/
def BatchLoop.serials (s : BatchLoop) : List ℕ :=
  s.line.map (·.serial) ++ s.dropped.map (·.1.serial)

structure InLine (c : BatchSettings) (s : BatchLoop) : Prop where
  order : s.line.Pairwise KeepsPlace
  once : s.serials.Perm (List.range s.arrived)
  raised : ∀ entry ∈ s.dropped, entry.2 = .raised → c.Raises entry.1
  shape : PendingShape s.pendingMessages s.phase

namespace InLine

variable {c : BatchSettings} {s t : BatchLoop}

theorem init : InLine c {} where
  order := List.Pairwise.nil
  once := List.Perm.refl []
  raised := by rintro _ ⟨⟩
  shape := allDone_nil.idle

section

variable (h : InLine c s)
include h

theorem lineStep (hstep : LineStep c s.line s.dropped t)
    (hshp : PendingShape t.pendingMessages t.phase) (harrived : t.arrived = s.arrived) :
    InLine c t := by
  have hord := h.order
  have honce := h.once
  unfold serials at honce
  cases hstep with
  | keeps hline hdropped =>
    refine ⟨hline ▸ hord, ?_, hdropped ▸ h.raised, hshp⟩
    rw [serials, hline, hdropped, harrived]
    exact honce
  | drops before msg after reason hold hline hdropped hreason =>
    rw [hold] at hord honce
    refine ⟨?_, ?_, ?_, hshp⟩
    · rw [hline]
      exact hord.sublist (List.Sublist.append_left (sublist_cons_self ..) before)
    · rw [serials, hline, hdropped, harrived]
      refine List.Perm.trans ?_ honce
      simp only [map_append, map_cons, map_nil, append_assoc, cons_append]
      refine List.Perm.append_left _ ?_
      rw [← append_assoc]
      exact perm_append_singleton ..
    · rw [hdropped]
      intro entry hentry hraised
      obtain hmem | hmem := mem_append.1 hentry
      · exact h.raised entry hmem hraised
      · obtain rfl := mem_singleton.1 hmem
        exact hreason hraised
  | overtakes before passed msg after hold hline hdropped hpass =>
    rw [hold] at hord honce
    refine ⟨?_, ?_, hdropped ▸ h.raised, hshp⟩
    · rw [hline]
      obtain ⟨hbef, hrest, hcross⟩ := pairwise_append.1 hord
      obtain ⟨hpassed, hlast, hmid⟩ := pairwise_append.1 hrest
      obtain ⟨hmsg, ha⟩ := pairwise_cons.1 hlast
      refine pairwise_append.2 ⟨hbef, pairwise_cons.2 ⟨?_, ?_⟩, ?_⟩
      · intro other ho
        obtain ho | ho := mem_append.1 ho
        · exact .inr (hpass other ho)
        · exact hmsg other ho
      · refine pairwise_append.2 ⟨hpassed, ha, fun x hx y hy => ?_⟩
        exact hmid x hx y (mem_cons_of_mem _ hy)
      · intro x hx y hy
        refine hcross x hx y ?_
        simp only [mem_cons, mem_append] at hy ⊢
        obtain hy | hy | hy := hy
        · exact .inr (.inl hy)
        · exact .inl hy
        · exact .inr (.inr hy)
    · rw [serials, hline, hdropped, harrived]
      refine List.Perm.trans (List.Perm.append_right _ (List.Perm.map _ ?_)) honce
      exact List.Perm.append_left _ perm_middle.symm

theorem put (requestId : String) (kind : QueuedKind) :
    InLine c { s with
      inbox := s.inbox ++ [⟨s.arrived, requestId, kind⟩]
      arrived := s.arrived + 1 } := by
  have hline : line { s with
      inbox := s.inbox ++ [⟨s.arrived, requestId, kind⟩]
      arrived := s.arrived + 1 } = s.line ++ [⟨s.arrived, requestId, kind⟩] := by
    simp [line]
  refine ⟨?_, ?_, h.raised, h.shape⟩
  · rw [hline]
    refine pairwise_append.2 ⟨h.order, pairwise_singleton .., fun x hx y hy => ?_⟩
    obtain rfl := mem_singleton.1 hy
    have hserial : x.serial ∈ s.serials :=
      mem_append_left _ (mem_map.2 ⟨x, hx, rfl⟩)
    exact .inl (mem_range.1 (h.once.mem_iff.1 hserial))
  · rw [serials, hline, range_succ, map_append, append_assoc]
    have hlast : ([s.arrived] ++ s.dropped.map (·.1.serial)).Perm
        (s.dropped.map (·.1.serial) ++ [s.arrived]) := perm_append_comm
    refine (List.Perm.append_left _ hlast).trans ?_
    rw [← append_assoc]
    exact h.once.append_right _

theorem next (hnext : s.next c = some t) : InLine c t := by
  have hshp := h.shape
  unfold BatchLoop.next at hnext
  split at hnext
  · next msg rest hphase hpending =>
    cases hnext
    rw [hphase, hpending] at hshp
    obtain ⟨hstep, ha⟩ := dispatch_line (c := c)
      (s := { s with pendingMessages := rest }) hphase hshp.followed
    refine h.lineStep ?_ ha (dispatch_arrived ..)
    have hline : s.line = s.delivered ++ msg :: (rest ++ s.inbox) := by
      simp [line, hphase, hpending, CollectPhase.batch]
    rw [hline]
    exact hstep
  · next msg rest hphase hpending hinbox =>
    cases hnext
    have hfollows : FollowedBy msg s.pendingMessages := hpending ▸ follows_nil msg
    obtain ⟨hstep, ha⟩ := dispatch_line (c := c)
      (s := { s with inbox := rest }) hphase hfollows
    refine h.lineStep ?_ ha (dispatch_arrived ..)
    have hline : s.line = s.delivered ++ msg :: (s.pendingMessages ++ rest) := by
      simp [line, hphase, hpending, hinbox, CollectPhase.batch]
    rw [hline]
    exact hstep
  · cases hnext

theorem fetch (hfetch : s.fetch c = some t) : InLine c t := by
  have hshp := h.shape
  unfold BatchLoop.fetch at hfetch
  split at hfetch
  · next batch batchCost msg rest hphase hinbox =>
    cases hfetch
    rw [hphase] at hshp
    obtain ⟨hstep, ha⟩ := collectNewRequest_line (c := c)
      (s := { s with inbox := rest }) msg hphase hshp
    refine h.lineStep ?_ ha (collectNewRequest_arrived ..)
    have hline : s.line = s.delivered ++ (batch ++ (s.pendingMessages ++ msg :: rest)) := by
      simp [line, hphase, hinbox, CollectPhase.batch]
    rw [hline]
    exact hstep
  · next batch seenRequestIds msg rest hphase hinbox =>
    cases hfetch
    rw [hphase] at hshp
    obtain ⟨hstep, ha⟩ := collectChunk_line (c := c)
      (s := { s with inbox := rest }) msg hphase hshp
    refine h.lineStep ?_ ha (collectChunk_arrived ..)
    have hline : s.line = s.delivered ++ (batch ++ msg :: rest) := by
      have he : s.pendingMessages = [] := hshp
      simp [line, hphase, hinbox, he, CollectPhase.batch]
    rw [hline]
    exact hstep
  · cases hfetch

theorem quit (hquit : s.quit = some t) : InLine c t := by
  have hshp := h.shape
  unfold BatchLoop.quit at hquit
  split at hquit
  · next batch batchCost hphase hinbox =>
    cases hquit
    rw [hphase] at hshp
    refine h.lineStep (.keeps ?_ rfl) (AllDone.idle hshp) rfl
    simp [line, deliver, hphase, CollectPhase.batch]
  · next batch seenRequestIds hphase hinbox =>
    cases hquit
    rw [hphase] at hshp
    refine h.lineStep (.keeps ?_ rfl) ?_ rfl
    · simp [line, deliver, hphase, CollectPhase.batch]
    · show IdleShape s.pendingMessages
      rw [show s.pendingMessages = [] from hshp]
      exact allDone_nil.idle
  · cases hquit

theorem step {event : LoopEvent} (hstep : loopStep c s event = some t) : InLine c t := by
  cases event with
  | put requestId kind =>
    cases hstep
    exact h.put requestId kind
  | surroundings abortedRequestIds streamPayloads =>
    cases hstep
    exact { h with }
  | next => exact h.next hstep
  | fetch => exact h.fetch hstep
  | quit => exact h.quit hstep

end

end InLine

/-- For every content of the inbox, all settings and all times: a message is delivered once, or
    dropped once, or still in line, and it is dropped only if its request was aborted or the hooks
    raise for it; and messages are delivered in the order of their arrival, except that a payload
    that is computed in a batch may come before a done mark. -/
theorem batches_keep_order (c : BatchSettings) (s : BatchLoop)
    (h : (loopSystem c).Reachable s) :
    s.serials.Perm (List.range s.arrived) ∧
    (s.phase = .idle → s.pendingMessages = [] → s.inbox = [] → s.line = s.delivered) ∧
    s.line.Pairwise (fun msg msg' => msg.serial < msg'.serial ∨ Overtakes msg msg') ∧
    (∀ entry ∈ s.dropped, entry.2 = .aborted ∨ c.Raises entry.1) := by
  have hs : InLine c s := by
    refine h.invariant (P := InLine c) (fun s hinit => ?_) fun s event t hs hstep => hs.step hstep
    obtain rfl : s = {} := hinit
    exact .init
  refine ⟨hs.once, fun hphase hpending hinbox => ?_, hs.order, ?_⟩
  · simp [line, hphase, hpending, hinbox, CollectPhase.batch]
  · intro entry hentry
    cases hreason : entry.2 with
    | aborted => exact .inl rfl
    | raised => exact .inr (hs.raised entry hentry hreason)

/-! ## A concrete run -/

def sampleSettings : BatchSettings := ⟨true, 3, false, none, true, none, false⟩

/-- A done mark is put aside, and the payload of its request delivered before it; the message of an
    aborted request is dropped. -/
theorem done_overtaken : ∃ s, (loopSystem sampleSettings).Reachable s ∧
    s.delivered = [⟨0, "a", .newRequest (some false) none⟩, ⟨2, "b", .newRequest (some false) none⟩,
      ⟨1, "b", .streamDone⟩] ∧
    s.dropped = [(⟨3, "d", .streamChunk⟩, .aborted)] := by
  have hrun : System.exec (loopStep sampleSettings) {}
      [.put "a" (.newRequest (some false) none), .put "b" .streamDone,
        .put "b" (.newRequest (some false) none), .next, .fetch, .fetch, .quit, .next,
        .surroundings ["d"] [], .put "d" .streamChunk, .next] = some _ := rfl
  exact ⟨_, .of_exec (.init rfl) hrun, rfl, rfl⟩

/-- The order of arrival of one request's messages is kept in this run. -/
theorem batches_keep_order_chunks : ∃ s, (loopSystem sampleSettings).Reachable s ∧
    s.delivered.map (·.serial) = [0, 1, 2] ∧ s.serials.Perm (List.range s.arrived) := by
  have hrun : System.exec (loopStep sampleSettings) {}
      [.put "a" (.newRequest (some true) none), .put "a" .streamChunk, .next, .next,
        .put "a" .streamDone, .fetch, .next] = some _ := rfl
  have hreach : (loopSystem sampleSettings).Reachable _ := .of_exec (.init rfl) hrun
  exact ⟨_, hreach, rfl, (batches_keep_order sampleSettings _ hreach).1⟩

end OmniRealtime
