import OmniRealtime.Lib.System

/-!
# What a stage streams out

`pipeline/stage/runtime.py`, the sending half of a stage: the loop over the scheduler's outbox
with its stream chunks, done signals and failures, and the aborts that may come at any await.

The tasks of one `gather` start in order and publish in any order, each through the queue of its
target or directly. Untargeted chunks of a stage without stream targets go to the coordinator and
are left out, as are the payloads of a result.

1. `outletStep`: the stretches of the loop and of the tasks it waits for.
2. `outgoing_step`: the messages of a lane are its chunks in order, then at most one done mark.
-/

namespace OmniRealtime

open List Option Function

universe u

/-! ## The state -/

/-- A message of a stream lane, as it is published. -/
inductive LaneMessage (δ : Type u)
  | chunk (requestId : String) (chunkId : ℕ) (data : δ)
  | done (requestId : String)
  deriving DecidableEq

def LaneMessage.requestId {δ : Type u} : LaneMessage δ → String
  | .chunk requestId _ _ => requestId
  | .done requestId => requestId

structure OutletConfig where
  streamTargets : List String
  sameProcessTargets : Finset String

/-- Where a call of `_send_stream_to_target` is. -/
inductive ChildPhase
  | created
  /-- It has its chunk id; the chunk is queued or written. -/
  | sending (chunkId : ℕ)
  | returning
  | over
  deriving DecidableEq

structure StreamChild (δ : Type u) where
  requestId : String
  target : String
  data : δ
  phase : ChildPhase := .created

/-- Where `_drain_outbox_external` is. -/
inductive OutletLoop
  | idle
  | streaming
  /-- `_route_result`, with the targets that still have no done signal. -/
  | routing (requestId : String) (rest : List String)
  | failing (requestId : String)
  | crashed
  deriving DecidableEq

structure StageOutlet (δ : Type u) where
  activeRequests : Finset String := ∅
  streamChunkCounters : String × String → Option ℕ := fun _ => none
  loop : OutletLoop := .idle
  children : List (StreamChild δ) := []
  /-- Every message published, with its target, oldest first. -/
  published : List (String × LaneMessage δ) := []
  /-- The lanes whose counter was cleared, or whose done mark is out. -/
  stale : String × String → Bool := fun _ => false

namespace StageOutlet

variable {δ : Type u}

def clearRequestState (s : StageOutlet δ) (requestId : String) : StageOutlet δ :=
  { s with
    activeRequests := s.activeRequests.erase requestId
    streamChunkCounters := fun key =>
      if key.1 = requestId then none else s.streamChunkCounters key
    stale := fun key =>
      s.stale key || decide (key.1 = requestId) && (s.streamChunkCounters key).isSome }

def publish (s : StageOutlet δ) (target : String) (msg : LaneMessage δ) : StageOutlet δ :=
  { s with published := s.published ++ [(target, msg)] }

def setChild (s : StageOutlet δ) (k : ℕ) (phase : ChildPhase) : StageOutlet δ :=
  { s with children := s.children.modify k fun child => { child with phase := phase } }

def setLoop (s : StageOutlet δ) (loop : OutletLoop) : StageOutlet δ := { s with loop := loop }

def nextChunkId (s : StageOutlet δ) (key : String × String) : ℕ :=
  (s.streamChunkCounters key).getD 0

def count (s : StageOutlet δ) (key : String × String) : StageOutlet δ :=
  { s with
    streamChunkCounters :=
      Function.update s.streamChunkCounters key (some (s.nextChunkId key + 1)) }

def endLane (s : StageOutlet δ) (key : String × String) : StageOutlet δ :=
  { s with stale := Function.update s.stale key true }

/-- `_send_stream_to_target` up to its first await: a stage of the same process has the chunk by
then. -/
def startChild (cfg : OutletConfig) (s : StageOutlet δ) (k : ℕ) (child : StreamChild δ) :
    StageOutlet δ :=
  let key := (child.requestId, child.target)
  let chunkId := s.nextChunkId key
  if child.target ∈ cfg.sameProcessTargets then
    ((s.count key).publish child.target (.chunk child.requestId chunkId child.data)).setChild k
      .returning
  else (s.count key).setChild k (.sending chunkId)

/-- An exception of a task ends the `gather`, and with it the loop. -/
def crash (s : StageOutlet δ) : StageOutlet δ :=
  if s.loop = .streaming then s.setLoop .crashed else s

end StageOutlet

/-! ## Steps -/

inductive OutletEvent (δ : Type u)
  /-- A message of the request comes in. -/
  | activate (requestId : String)
  /-- An abort, or a failure that some other task has sent. -/
  | clear (requestId : String)
  | takeStream (requestId : String) (data : δ)
  | takeTargeted (requestId target : String) (data : δ) (endpoint : Bool)
  /-- The task starts, with an endpoint for its target or without. -/
  | childStarts (k : ℕ) (endpoint : Bool)
  | childRaises (k : ℕ)
  | childPublishes (k : ℕ)
  | childReturns (k : ℕ)
  | gathered
  /-- A result, and the stream targets that `_route_result` finds for it. -/
  | takeResult (requestId : String) (targets : List String)
  | signalSent
  | loopRaises
  | routed
  | takeError (requestId : String)
  | failureSent

open StageOutlet in
def outletStep {δ : Type u} (cfg : OutletConfig) (s : StageOutlet δ) :
    OutletEvent δ → Option (StageOutlet δ)
  | .activate requestId => some { s with activeRequests := insert requestId s.activeRequests }
  | .clear requestId => some (s.clearRequestState requestId)
  | .takeStream requestId data =>
    if s.loop = .idle ∧ requestId ∈ s.activeRequests ∧ cfg.streamTargets ≠ [] then
      some { s with
        loop := .streaming
        children := cfg.streamTargets.map fun target =>
          { requestId := requestId, target := target, data := data } }
    else none
  | .takeTargeted requestId target data endpoint =>
    if s.loop = .idle ∧ requestId ∈ s.activeRequests then
      let child : StreamChild δ := { requestId := requestId, target := target, data := data }
      if endpoint then
        some ({ s with loop := .streaming, children := [child] }.startChild cfg 0 child)
      else some (s.setLoop .crashed)
    else none
  | .childStarts k endpoint =>
    (s.children[k]?).bind fun child =>
      if child.phase = .created then
        if endpoint then some (s.startChild cfg k child) else some (s.setChild k .over).crash
      else none
  | .childRaises k =>
    (s.children[k]?).bind fun child =>
      match child.phase with
      | .sending _ | .returning => some (s.setChild k .over).crash
      | _ => none
  | .childPublishes k =>
    (s.children[k]?).bind fun child =>
      match child.phase with
      | .sending chunkId =>
        some ((s.publish child.target (.chunk child.requestId chunkId child.data)).setChild k
          .returning)
      | _ => none
  | .childReturns k =>
    (s.children[k]?).bind fun child =>
      if child.phase = .returning then some (s.setChild k .over) else none
  | .gathered =>
    if s.loop = .streaming ∧ ∀ child ∈ s.children, child.phase = .over then
      some (s.setLoop .idle)
    else none
  | .takeResult requestId targets =>
    if s.loop = .idle ∧ requestId ∈ s.activeRequests then
      some (s.setLoop (.routing requestId targets))
    else none
  | .signalSent =>
    match s.loop with
    | .routing requestId (target :: rest) =>
      some (((s.publish target (.done requestId)).endLane (requestId, target)).setLoop
        (.routing requestId rest))
    | _ => none
  | .loopRaises =>
    match s.loop with
    | .routing _ _ | .failing _ => some (s.setLoop .crashed)
    | _ => none
  | .routed =>
    match s.loop with
    | .routing requestId [] => some ((s.clearRequestState requestId).setLoop .idle)
    | _ => none
  | .takeError requestId =>
    if s.loop = .idle ∧ requestId ∈ s.activeRequests then some (s.setLoop (.failing requestId))
    else none
  | .failureSent =>
    match s.loop with
    | .failing requestId => some ((s.clearRequestState requestId).setLoop .idle)
    | _ => none

def outletSystem {δ : Type u} (cfg : OutletConfig) : System (StageOutlet δ) (OutletEvent δ) :=
  .ofFun (fun s => s = {}) (outletStep cfg)

/-! ## Lanes -/

/-- The chunks of a request, numbered from zero. -/
inductive Chunks {δ : Type u} (requestId : String) : List (LaneMessage δ) → Prop
  | nil : Chunks requestId []
  | snoc {msgs : List (LaneMessage δ)} (data : δ) : Chunks requestId msgs →
      Chunks requestId (msgs ++ [.chunk requestId msgs.length data])

/-- Chunks in order, then at most one done mark. -/
inductive LaneLog {δ : Type u} (requestId : String) : List (LaneMessage δ) → Prop
  | running {msgs : List (LaneMessage δ)} : Chunks requestId msgs → LaneLog requestId msgs
  | ended {msgs : List (LaneMessage δ)} : Chunks requestId msgs →
      LaneLog requestId (msgs ++ [.done requestId])

variable {requestId : String}

theorem Chunks.of_isPrefix {δ : Type u} {msgs msgs' : List (LaneMessage δ)}
    (h : Chunks requestId msgs') (hpre : msgs <+: msgs') : Chunks requestId msgs := by
  induction h with
  | nil => exact prefix_nil.mp hpre ▸ .nil
  | snoc data hchs ih =>
    rcases prefix_concat_iff.mp hpre with rfl | hpre
    · exact .snoc data hchs
    · exact ih hpre

theorem LaneLog.of_isPrefix {δ : Type u} {msgs msgs' : List (LaneMessage δ)}
    (h : LaneLog requestId msgs') (hpre : msgs <+: msgs') : LaneLog requestId msgs := by
  cases h with
  | running hchs => exact .running (hchs.of_isPrefix hpre)
  | ended hchs =>
    rcases prefix_concat_iff.mp hpre with rfl | hpre
    · exact .ended hchs
    · exact .running (hchs.of_isPrefix hpre)

theorem Chunks.getElem? {δ : Type u} {msgs : List (LaneMessage δ)} (h : Chunks requestId msgs)
    {i : ℕ} {m : LaneMessage δ} (hm : msgs[i]? = some m) :
    ∃ data, m = .chunk requestId i data := by
  induction h with
  | nil => cases hm
  | @snoc msgs data _ ih =>
    rw [getElem?_append] at hm
    split at hm
    · exact ih hm
    · next hi =>
      obtain ⟨hlt, heq⟩ := List.getElem?_eq_some_iff.mp hm
      have hzero : i - msgs.length = 0 := Nat.lt_one_iff.mp hlt
      have hi : i = msgs.length :=
        le_antisymm (Nat.sub_eq_zero_iff_le.mp hzero) (not_lt.mp hi)
      subst hi
      exact ⟨data, (heq.symm.trans (mem_singleton.mp (getElem_mem hlt)))⟩

theorem LaneLog.chunkId_eq {δ : Type u} {requestId' : String} {msgs : List (LaneMessage δ)}
    (h : LaneLog requestId msgs) {i chunkId : ℕ} {data : δ}
    (hm : msgs[i]? = some (.chunk requestId' chunkId data)) : chunkId = i := by
  have hchs : ∀ {msgs : List (LaneMessage δ)}, Chunks requestId msgs →
      msgs[i]? = some (.chunk requestId' chunkId data) → chunkId = i := by
    intro msgs hchs hm
    obtain ⟨data', heq⟩ := hchs.getElem? hm
    cases heq
    rfl
  cases h with
  | running h => exact hchs h hm
  | ended h =>
    rw [getElem?_append] at hm
    split at hm
    · exact hchs h hm
    · cases mem_singleton.mp (mem_of_getElem? hm)

namespace StageOutlet

variable {δ : Type u} {cfg : OutletConfig} {s t : StageOutlet δ}

def lane (s : StageOutlet δ) (target requestId : String) : List (LaneMessage δ) :=
  (s.published.filter fun m => m.1 = target ∧ m.2.requestId = requestId).map Prod.snd

theorem lane_publish_same (s : StageOutlet δ) (target : String) (msg : LaneMessage δ) :
    (s.publish target msg).lane target msg.requestId = s.lane target msg.requestId ++ [msg] := by
  simp [lane, publish, filter_append]

theorem lane_publish_other (s : StageOutlet δ) {target target' : String} {msg : LaneMessage δ}
    (hne : ¬(target' = target ∧ msg.requestId = requestId)) :
    (s.publish target' msg).lane target requestId = s.lane target requestId := by
  simp [lane, publish, filter_append, hne]

theorem getElem?_setChild (s : StageOutlet δ) (k j : ℕ) (phase : ChildPhase) :
    (s.setChild k phase).children[j]? =
      if k = j then (s.children[j]?).map fun child => { child with phase := phase }
      else s.children[j]? := by
  dsimp only [setChild]
  rw [getElem?_modify]
  split
  · rfl
  · exact Option.map_id' ..

/-- A lane whose next chunk id is the number of its chunks. -/
structure LevelAt (requestId : String) (msgs : List (LaneMessage δ)) (nextId : ℕ) : Prop where
  chunks : Chunks requestId msgs
  counter : nextId = msgs.length

abbrev Level (s : StageOutlet δ) (requestId target : String) : Prop :=
  LevelAt requestId (s.lane target requestId) (s.nextChunkId (requestId, target))

/-- What the loop and its tasks keep. -/
structure Outgoing (s : StageOutlet δ) : Prop where
  ordered : ∀ target requestId, LaneLog requestId (s.lane target requestId)
  apart : ∀ (j k : ℕ) (c c' : StreamChild δ), s.children[j]? = some c → s.children[k]? = some c' →
    c.target = c'.target → j = k
  created : ∀ (k : ℕ) (c : StreamChild δ), s.children[k]? = some c → c.phase = .created →
    s.stale (c.requestId, c.target) = false → s.Level c.requestId c.target
  sending : ∀ (k : ℕ) (c : StreamChild δ) (chunkId : ℕ), s.children[k]? = some c →
    c.phase = .sending chunkId →
      Chunks c.requestId (s.lane c.target c.requestId) ∧
      chunkId = (s.lane c.target c.requestId).length ∧
      (s.stale (c.requestId, c.target) = false →
        s.nextChunkId (c.requestId, c.target) = chunkId + 1)
  level : ∀ requestId target, s.stale (requestId, target) = false → s.loop ≠ .crashed →
    (∀ (k : ℕ) (c : StreamChild δ), s.children[k]? = some c → c.requestId = requestId →
      c.target = target → ∀ chunkId, c.phase ≠ .sending chunkId) → s.Level requestId target
  settled : s.loop ≠ .streaming → s.loop ≠ .crashed → ∀ (k : ℕ) (c : StreamChild δ),
    s.children[k]? = some c → c.phase = .over
  routing : ∀ requestId rest, s.loop = .routing requestId rest →
    rest.Nodup ∧ ∀ target ∈ rest, Chunks requestId (s.lane target requestId)

/-- No target is named twice, no send begins in a lane whose counter was cleared or whose done mark
    is out, and no lane is ended twice. -/
def SendsKept (cfg : OutletConfig) (s : StageOutlet δ) : OutletEvent δ → Prop
  | .takeStream _ _ => cfg.streamTargets.Nodup
  | .takeTargeted requestId target _ _ => s.stale (requestId, target) = false
  | .childStarts k _ =>
    ∀ child, s.children[k]? = some child → s.stale (child.requestId, child.target) = false
  | .takeResult requestId targets =>
    targets.Nodup ∧ ∀ target ∈ targets, .done requestId ∉ s.lane target requestId
  | _ => True

theorem LaneLog.chunks_of_open {msgs : List (LaneMessage δ)} (h : LaneLog requestId msgs)
    (hopen : .done requestId ∉ msgs) : Chunks requestId msgs := by
  cases h with
  | running hchs => exact hchs
  | ended hchs => exact absurd (mem_append_right _ (mem_singleton_self _)) hopen

theorem outgoing_init : Outgoing ({} : StageOutlet δ) where
  ordered _ _ := .running .nil
  apart _ _ _ _ h := by cases h
  created _ _ h := by cases h
  sending _ _ _ h := by cases h
  level _ _ _ _ _ := ⟨.nil, rfl⟩
  settled _ _ _ _ h := by cases h
  routing _ _ h := by cases h

/-- Between two messages of the scheduler every lane is level. -/
theorem Outgoing.level_of_settled (h : Outgoing s) (hstr : s.loop ≠ .streaming)
    (hcsh : s.loop ≠ .crashed) {target : String} (hkept : s.stale (requestId, target) = false) :
    s.Level requestId target := by
  refine h.level requestId target hkept hcsh fun k c hc _ _ chunkId hsending => ?_
  rw [h.settled hstr hcsh k c hc] at hsending
  cases hsending

variable {c : StreamChild δ}

/-- A task that is not over is one of a gather, or of one that a task has ended. -/
theorem Outgoing.loop_of_live (h : Outgoing s) {k : ℕ} (hc : s.children[k]? = some c)
    (hlive : c.phase ≠ .over) :
    s.loop = .streaming ∨ s.loop = .crashed := by
  by_contra hnone
  rw [not_or] at hnone
  exact hlive (h.settled hnone.1 hnone.2 k c hc)

theorem Outgoing.setLoop (h : Outgoing s) {loop : OutletLoop}
    (hstl : ∀ (k : ℕ) (c : StreamChild δ), s.children[k]? = some c → c.phase = .over)
    (hl : ∀ requestId target, s.stale (requestId, target) = false → s.Level requestId target)
    (hrouting : ∀ requestId rest, loop = .routing requestId rest →
      rest.Nodup ∧ ∀ target ∈ rest, Chunks requestId (s.lane target requestId)) :
    Outgoing (s.setLoop loop) where
  ordered := h.ordered
  apart := h.apart
  created := h.created
  sending := h.sending
  level requestId target hkept _ _ := hl requestId target hkept
  settled _ _ := hstl
  routing := hrouting

/-- A lane that a clearing leaves in use keeps its counter. -/
theorem kept_of_clear {key : String × String}
    (hkept : (s.clearRequestState requestId).stale key = false) :
    s.stale key = false ∧ (s.clearRequestState requestId).nextChunkId key = s.nextChunkId key := by
  obtain ⟨hstale, hfrs⟩ := Bool.or_eq_false_iff.mp hkept
  refine ⟨hstale, ?_⟩
  dsimp only [nextChunkId, clearRequestState]
  split
  · next hkey =>
    rw [decide_eq_true hkey, Bool.true_and, isSome_eq_false_iff, isNone_iff_eq_none] at hfrs
    rw [hfrs]
  · rfl

section

variable (h : Outgoing s)
include h

theorem Outgoing.clear (requestId : String) : Outgoing (s.clearRequestState requestId) := by
  refine ⟨h.ordered, h.apart, ?_, ?_, ?_, h.settled, h.routing⟩
  · intro k c hc hp hkept
    obtain ⟨hkept, hcounter⟩ := kept_of_clear hkept
    have hl := h.created k c hc hp hkept
    exact ⟨hl.chunks, hcounter.trans hl.counter⟩
  · intro k c chunkId hc hp
    obtain ⟨hchs, hid, hcnt⟩ := h.sending k c chunkId hc hp
    refine ⟨hchs, hid, fun hkept => ?_⟩
    obtain ⟨hkept, hcounter⟩ := kept_of_clear hkept
    exact hcounter.trans (hcnt hkept)
  · intro requestId' target hkept hcsh hfree
    obtain ⟨hkept, hcounter⟩ := kept_of_clear hkept
    have hl := h.level requestId' target hkept hcsh hfree
    exact ⟨hl.chunks, hcounter.trans hl.counter⟩

/-- A task takes a step: nothing changes but its phase, its lane and its counter. -/
theorem Outgoing.moveChild {k : ℕ} (phase : ChildPhase) (hc : s.children[k]? = some c)
    (hlive : c.phase ≠ .over) (hchildren : ∀ j, t.children[j]? =
      if k = j then (s.children[j]?).map fun child => { child with phase := phase }
      else s.children[j]?) (hloop : t.loop = s.loop ∨ t.loop = .crashed)
    (hstale : t.stale = s.stale)
    (ho : ∀ target requestId, ¬(c.target = target ∧ c.requestId = requestId) →
      t.lane target requestId = s.lane target requestId ∧
      t.nextChunkId (requestId, target) = s.nextChunkId (requestId, target))
    (hlane : LaneLog c.requestId (t.lane c.target c.requestId)) (hp : phase ≠ .created)
    (hsending : ∀ chunkId, phase = .sending chunkId →
      Chunks c.requestId (t.lane c.target c.requestId) ∧
      chunkId = (t.lane c.target c.requestId).length ∧
      (t.stale (c.requestId, c.target) = false →
        t.nextChunkId (c.requestId, c.target) = chunkId + 1))
    (hl : (∀ chunkId, phase ≠ .sending chunkId) → t.stale (c.requestId, c.target) = false →
      t.loop ≠ .crashed → t.Level c.requestId c.target) : Outgoing t := by
  have hchild : ∀ {j : ℕ} {c' : StreamChild δ}, t.children[j]? = some c' →
      c' = { c with phase := phase } ∧ j = k ∨
      s.children[j]? = some c' ∧ ¬(c.target = c'.target ∧ c.requestId = c'.requestId) := by
    intro j c' hj
    rw [hchildren] at hj
    split at hj
    · next hkj =>
      subst hkj
      rw [hc] at hj
      exact .inl ⟨(some.inj hj).symm, rfl⟩
    · next hkj => exact .inr ⟨hj, fun heq => hkj (h.apart k j c c' hc hj heq.1)⟩
  have hb : t.loop = .streaming ∨ t.loop = .crashed := by
    rcases hloop with heq | heq
    · rw [heq]
      exact h.loop_of_live hc hlive
    · exact .inr heq
  constructor
  · intro target requestId
    by_cases hkey : c.target = target ∧ c.requestId = requestId
    · obtain ⟨rfl, rfl⟩ := hkey
      exact hlane
    · rw [(ho target requestId hkey).1]
      exact h.ordered target requestId
  · intro j j' c₁ c₂ h₁ h₂ htarget
    have hold : ∀ {j : ℕ} {c' : StreamChild δ}, t.children[j]? = some c' →
        ∃ c₀ : StreamChild δ, s.children[j]? = some c₀ ∧ c₀.target = c'.target := by
      intro j c' hj
      rcases hchild hj with ⟨rfl, rfl⟩ | ⟨hj, -⟩
      · exact ⟨c, hc, rfl⟩
      · exact ⟨c', hj, rfl⟩
    obtain ⟨d₁, hd₁, ht₁⟩ := hold h₁
    obtain ⟨d₂, hd₂, ht₂⟩ := hold h₂
    exact h.apart j j' d₁ d₂ hd₁ hd₂ (ht₁.trans (htarget.trans ht₂.symm))
  · intro j c' hj hcrt hkept
    rcases hchild hj with ⟨rfl, rfl⟩ | ⟨hj, hkey⟩
    · exact absurd hcrt hp
    · obtain ⟨hsame, hcnt⟩ := ho c'.target c'.requestId hkey
      rw [hstale] at hkept
      rw [Level, hsame, hcnt]
      exact h.created j c' hj hcrt hkept
  · intro j c' chunkId hj hsent
    rcases hchild hj with ⟨rfl, rfl⟩ | ⟨hj, hkey⟩
    · exact hsending chunkId hsent
    · obtain ⟨hsame, hcnt⟩ := ho c'.target c'.requestId hkey
      rw [hstale, hsame, hcnt]
      exact h.sending j c' chunkId hj hsent
  · intro requestId target hkept hcsh hfree
    by_cases hkey : c.target = target ∧ c.requestId = requestId
    · obtain ⟨rfl, rfl⟩ := hkey
      refine hl ?_ hkept hcsh
      refine hfree k { c with phase := phase } ?_ rfl rfl
      rw [hchildren, if_pos rfl, hc]
      rfl
    · obtain ⟨hsame, hcnt⟩ := ho target requestId hkey
      have hloop : t.loop = s.loop := hloop.resolve_right hcsh
      rw [hstale] at hkept
      rw [hloop] at hcsh
      rw [Level, hsame, hcnt]
      refine h.level requestId target hkept hcsh fun j c' hj hr ht => ?_
      have hkj : k ≠ j := by
        rintro rfl
        rw [hc] at hj
        cases hj
        exact hkey ⟨ht, hr⟩
      refine hfree j c' ?_ hr ht
      rw [hchildren, if_neg hkj]
      exact hj
  · intro hstr hcsh
    rcases hb with hb | hb
    · exact absurd hb hstr
    · exact absurd hb hcsh
  · intro requestId rest hroute
    rcases hb with hb | hb <;> rw [hb] at hroute <;> cases hroute

theorem Outgoing.setChild {k : ℕ} (hc : s.children[k]? = some c) {phase : ChildPhase}
    (hover : phase = .over ∨ phase = .returning) (hlive : c.phase ≠ .over)
    (hl : s.stale (c.requestId, c.target) = false → s.loop ≠ .crashed →
      s.Level c.requestId c.target) : Outgoing (s.setChild k phase) := by
  refine h.moveChild phase hc hlive (fun j => getElem?_setChild s k j phase) (.inl rfl) rfl
    (fun _ _ _ => ⟨rfl, rfl⟩) (h.ordered c.target c.requestId) ?_ ?_ fun _ => hl
  · rcases hover with rfl | rfl <;> exact ChildPhase.noConfusion
  · rcases hover with rfl | rfl <;> exact fun _ => ChildPhase.noConfusion

theorem Outgoing.publishChunk {k : ℕ} {chunkId : ℕ} (hc : s.children[k]? = some c)
    (hp : c.phase = .sending chunkId) :
    Outgoing ((s.publish c.target (.chunk c.requestId chunkId c.data)).setChild k .returning) := by
  obtain ⟨hchs, rfl, hcounter⟩ := h.sending k c chunkId hc hp
  have hsame := lane_publish_same s c.target
    (.chunk c.requestId (s.lane c.target c.requestId).length c.data)
  have hnew := hchs.snoc c.data
  refine h.moveChild (c := c) .returning hc (by rw [hp]; exact nofun)
    (fun j => getElem?_setChild _ k j _) (.inl rfl) rfl ?_ ?_ nofun nofun ?_
  · exact fun target requestId hne => ⟨lane_publish_other s hne, rfl⟩
  · exact .running (hsame ▸ hnew)
  · intro _ hkept _
    refine ⟨hsame ▸ hnew, (hcounter hkept).trans ?_⟩
    exact ((congrArg List.length hsame).trans length_append).symm

theorem Outgoing.startChild {k : ℕ} (hc : s.children[k]? = some c) (hp : c.phase = .created)
    (hkept : s.stale (c.requestId, c.target) = false) :
    Outgoing (s.startChild cfg k c) := by
  obtain ⟨hchs, hcounter⟩ := h.created k c hc hp hkept
  have hlive : c.phase ≠ .over := by rw [hp]; exact nofun
  have hcnt : ∀ {target requestId}, ¬(c.target = target ∧ c.requestId = requestId) →
      (s.count (c.requestId, c.target)).nextChunkId (requestId, target) =
        s.nextChunkId (requestId, target) := by
    intro target requestId hne
    refine congrArg (Option.getD · 0) (update_of_ne (fun heq => hne ?_) ..)
    cases heq
    exact ⟨rfl, rfl⟩
  have hcnd : (s.count (c.requestId, c.target)).nextChunkId (c.requestId, c.target) =
      (s.lane c.target c.requestId).length + 1 := by
    rw [← hcounter]
    exact congrArg (Option.getD · 0) (update_self (c.requestId, c.target) _ s.streamChunkCounters)
  dsimp only [StageOutlet.startChild]
  rw [hcounter]
  split
  · have hsame := lane_publish_same s c.target
      (.chunk c.requestId (s.lane c.target c.requestId).length c.data)
    have hnew := hchs.snoc c.data
    refine h.moveChild (c := c) .returning hc hlive (fun j => getElem?_setChild _ k j _)
      (.inl rfl) rfl (fun target requestId hne => ⟨lane_publish_other s hne, hcnt hne⟩) ?_ nofun
      nofun ?_
    · exact .running (hsame ▸ hnew)
    · intro _ _ _
      refine ⟨hsame ▸ hnew, hcnd.trans ?_⟩
      exact ((congrArg List.length hsame).trans length_append).symm
  · refine h.moveChild (c := c) (.sending _) hc hlive (fun j => getElem?_setChild _ k j _)
      (.inl rfl) rfl (fun target requestId hne => ⟨rfl, hcnt hne⟩)
      (h.ordered c.target c.requestId) nofun ?_ fun hnone => absurd rfl (hnone _)
    intro chunkId heq
    cases heq
    exact ⟨hchs, rfl, fun _ => hcnd⟩

/-- An exception ends the loop; the other tasks of its gather go on. -/
theorem Outgoing.crash : Outgoing (s.setLoop .crashed) where
  ordered := h.ordered
  apart := h.apart
  created := h.created
  sending := h.sending
  level _ _ _ hcsh := absurd rfl hcsh
  settled _ hcsh := absurd rfl hcsh
  routing _ _ := nofun

theorem Outgoing.raiseChild {k : ℕ} (hc : s.children[k]? = some c) (hlive : c.phase ≠ .over) :
    Outgoing (s.setChild k .over).crash := by
  rcases h.loop_of_live hc hlive with hloop | hloop
  · have hloop' : (s.setChild k .over).loop = .streaming := hloop
    rw [StageOutlet.crash, if_pos hloop']
    exact h.crash.setChild hc (.inl rfl) hlive fun _ hcsh => absurd rfl hcsh
  · have hloop' : (s.setChild k .over).loop ≠ .streaming := by
      rw [show (s.setChild k .over).loop = .crashed from hloop]
      exact nofun
    rw [StageOutlet.crash, if_neg hloop']
    exact h.setChild hc (.inl rfl) hlive fun _ hcsh => absurd hloop hcsh

theorem Outgoing.batch (hidle : s.loop = .idle) (children : List (StreamChild δ))
    (hcrt : ∀ c ∈ children, c.phase = .created) (hnd : (children.map (·.target)).Nodup) :
    Outgoing { s with loop := .streaming, children := children } := by
  have hl : ∀ {requestId target}, s.stale (requestId, target) = false →
      s.Level requestId target := fun hkept =>
    h.level_of_settled (by rw [hidle]; exact nofun) (by rw [hidle]; exact nofun) hkept
  constructor
  · exact h.ordered
  · intro j k c c' hj hk htarget
    have hj' : (children.map (·.target))[j]? = some c.target := by
      rw [getElem?_map, show children[j]? = some c from hj]
      rfl
    have hk' : (children.map (·.target))[k]? = some c.target := by
      rw [getElem?_map, show children[k]? = some c' from hk, htarget]
      rfl
    obtain ⟨hlen, -⟩ := List.getElem?_eq_some_iff.mp hj'
    exact (getElem?_inj hlen hnd).mp (hj'.trans hk'.symm)
  · exact fun k c _ _ hkept => hl hkept
  · intro k c chunkId hc hsending
    rw [hcrt c (mem_of_getElem? hc)] at hsending
    cases hsending
  · exact fun requestId target hkept _ _ => hl hkept
  · exact fun hstr => absurd rfl hstr
  · exact fun _ _ => nofun

theorem Outgoing.signal {target : String} {rest : List String}
    (hloop : s.loop = .routing requestId (target :: rest)) :
    Outgoing (((s.publish target (.done requestId)).endLane (requestId, target)).setLoop
      (.routing requestId rest)) := by
  obtain ⟨hnd, hchs⟩ := h.routing requestId (target :: rest) hloop
  obtain ⟨hnotin, hnd⟩ := nodup_cons.mp hnd
  have hstr : s.loop ≠ .streaming := by rw [hloop]; exact nofun
  have hcsh : s.loop ≠ .crashed := by rw [hloop]; exact nofun
  have hover := h.settled hstr hcsh
  have hsame : (s.publish target (.done requestId)).lane target requestId =
      s.lane target requestId ++ [.done requestId] := lane_publish_same s target (.done requestId)
  have ho : ∀ target' requestId', ¬(target = target' ∧ requestId = requestId') →
      (s.publish target (.done requestId)).lane target' requestId' = s.lane target' requestId' :=
    fun _ _ hne => lane_publish_other s hne
  generalize hnext : s.publish target (.done requestId) = next at hsame ho ⊢
  have hkeep : next.children = s.children ∧ next.stale = s.stale ∧
      next.streamChunkCounters = s.streamChunkCounters := by
    subst hnext
    exact ⟨rfl, rfl, rfl⟩
  constructor
  · intro target' requestId'
    show LaneLog requestId' (next.lane target' requestId')
    by_cases hkey : target = target' ∧ requestId = requestId'
    · obtain ⟨rfl, rfl⟩ := hkey
      rw [hsame]
      exact .ended (hchs target (mem_cons_self ..))
    · rw [ho target' requestId' hkey]
      exact h.ordered target' requestId'
  · intro j k c c' hj hk
    exact h.apart j k c c' (hkeep.1 ▸ hj) (hkeep.1 ▸ hk)
  · intro k c hc hcrt
    rw [hover k c (hkeep.1 ▸ hc)] at hcrt
    cases hcrt
  · intro k c chunkId hc hsending
    rw [hover k c (hkeep.1 ▸ hc)] at hsending
    cases hsending
  · intro requestId' target' hkept _ _
    have hkept : update next.stale (requestId, target) true (requestId', target') =
      false := hkept
    have hne : (requestId', target') ≠ (requestId, target) := by
      intro heq
      rw [heq, update_self] at hkept
      cases hkept
    rw [update_of_ne hne, hkeep.2.1] at hkept
    have hl := h.level_of_settled hstr hcsh hkept
    have hcounter : next.nextChunkId (requestId', target') = s.nextChunkId (requestId', target') :=
      congrArg (Option.getD · 0) (congrFun hkeep.2.2 _)
    have hlane := ho target' requestId' fun heq => hne (by rw [heq.1, heq.2])
    refine ⟨?_, ?_⟩
    · exact hlane ▸ hl.chunks
    · exact hcounter.trans (hl.counter.trans (congrArg List.length hlane.symm))
  · exact fun _ _ k c hc => hover k c (hkeep.1 ▸ hc)
  · intro requestId' rest' hrest
    obtain ⟨rfl, rfl⟩ := OutletLoop.routing.inj hrest
    refine ⟨hnd, fun target' hmem => ?_⟩
    show Chunks requestId (next.lane target' requestId)
    rw [ho target' requestId fun heq => hnotin (heq.1 ▸ hmem)]
    exact hchs target' (mem_cons_of_mem target hmem)

theorem Outgoing.finish (requestId : String) (hstr : s.loop ≠ .streaming)
    (hcsh : s.loop ≠ .crashed) : Outgoing ((s.clearRequestState requestId).setLoop .idle) :=
  (h.clear requestId).setLoop (h.settled hstr hcsh)
    (fun _ _ hkept => (h.clear requestId).level_of_settled hstr hcsh hkept) fun _ _ => nofun

end

end StageOutlet

open StageOutlet in
theorem outgoing_step {δ : Type u} {cfg : OutletConfig} {s t : StageOutlet δ} {e : OutletEvent δ}
    (hkept : SendsKept cfg s e) (hs : outletStep cfg s e = some t) (h : Outgoing s) :
    Outgoing t := by
  cases e with
  | activate requestId =>
    cases hs
    exact ⟨h.ordered, h.apart, h.created, h.sending, h.level, h.settled, h.routing⟩
  | clear requestId =>
    cases hs
    exact h.clear requestId
  | takeStream requestId data =>
    obtain ⟨hidle, ⟨⟩⟩ := of_guard hs
    refine h.batch hidle.1 _ ?_ ?_
    · intro c hc
      obtain ⟨target, -, rfl⟩ := mem_map.mp hc
      rfl
    · rw [List.map_map]
      exact (map_id _).symm ▸ (hkept : cfg.streamTargets.Nodup)
  | takeTargeted requestId target data endpoint =>
    dsimp only [outletStep] at hs
    split at hs
    · next hidle =>
      split at hs
      · cases hs
        refine (h.batch hidle.1 [_] ?_ (nodup_singleton _)).startChild rfl rfl hkept
        exact fun c hc => mem_singleton.mp hc ▸ rfl
      · cases hs
        exact h.crash
    · cases hs
  | childStarts k endpoint =>
    obtain ⟨c, hc, hs⟩ := bind_eq_some_iff.mp hs
    have hkept := hkept c hc
    split at hs
    · next hcrt =>
      split at hs
      · cases hs
        exact h.startChild hc hcrt hkept
      · cases hs
        exact h.raiseChild hc (by rw [hcrt]; exact nofun)
    · cases hs
  | childRaises k =>
    obtain ⟨c, hc, hs⟩ := bind_eq_some_iff.mp hs
    split at hs
    · next hp =>
      cases hs
      exact h.raiseChild hc (by rw [hp]; exact nofun)
    · next hp =>
      cases hs
      exact h.raiseChild hc (by rw [hp]; exact nofun)
    · cases hs
  | childPublishes k =>
    obtain ⟨c, hc, hs⟩ := bind_eq_some_iff.mp hs
    split at hs
    · next hp =>
      cases hs
      exact h.publishChunk hc hp
    · cases hs
  | childReturns k =>
    obtain ⟨c, hc, hs⟩ := bind_eq_some_iff.mp hs
    obtain ⟨hp, ⟨⟩⟩ := of_guard hs
    have hlive : c.phase ≠ .over := by rw [hp]; exact nofun
    refine h.setChild hc (.inl rfl) hlive fun hkept hcsh => ?_
    refine h.level c.requestId c.target hkept hcsh ?_
    intro j c' hj _ htarget chunkId hsending
    cases h.apart j k c' c hj hc htarget
    rw [hc] at hj
    cases hj
    rw [hp] at hsending
    cases hsending
  | gathered =>
    obtain ⟨hgather, ⟨⟩⟩ := of_guard hs
    have hover : ∀ (k : ℕ) (c : StreamChild δ), s.children[k]? = some c → c.phase = .over :=
      fun k c hc => hgather.2 c (mem_of_getElem? hc)
    refine h.setLoop hover ?_ fun _ _ => nofun
    intro requestId target hkept
    refine h.level requestId target hkept ?_ ?_
    · rw [hgather.1]
      exact nofun
    · intro k c hc _ _ chunkId hsending
      rw [hover k c hc] at hsending
      cases hsending
  | takeResult requestId targets =>
    obtain ⟨hidle, ⟨⟩⟩ := of_guard hs
    have hstr : s.loop ≠ .streaming := by rw [hidle.1]; exact nofun
    have hcsh : s.loop ≠ .crashed := by rw [hidle.1]; exact nofun
    refine h.setLoop (h.settled hstr hcsh)
      (fun _ _ hkept => h.level_of_settled hstr hcsh hkept) ?_
    intro requestId' rest hroute
    obtain ⟨rfl, rfl⟩ := OutletLoop.routing.inj hroute
    refine ⟨hkept.1, fun target hmem => ?_⟩
    exact LaneLog.chunks_of_open (h.ordered target requestId) (hkept.2 target hmem)
  | signalSent =>
    dsimp only [outletStep] at hs
    split at hs
    · next hloop =>
      cases hs
      exact h.signal hloop
    · cases hs
  | loopRaises =>
    dsimp only [outletStep] at hs
    split at hs <;> cases hs <;> exact h.crash
  | routed | failureSent =>
    dsimp only [outletStep] at hs
    split at hs
    · next hloop =>
      cases hs
      exact h.finish _ (by rw [hloop]; exact nofun) (by rw [hloop]; exact nofun)
    · cases hs
  | takeError requestId =>
    obtain ⟨hidle, ⟨⟩⟩ := of_guard hs
    have hstr : s.loop ≠ .streaming := by rw [hidle.1]; exact nofun
    have hcsh : s.loop ≠ .crashed := by rw [hidle.1]; exact nofun
    exact h.setLoop (h.settled hstr hcsh)
      (fun _ _ hkept => h.level_of_settled hstr hcsh hkept) fun _ _ => nofun

end OmniRealtime
