import OmniRealtime.Router.SharedAdmission

/-!
# Aggregate reads and reclaimed slots

The slots of `admission_shm.py` over the life of a router: data planes that shed and
admit, and may die at any moment; the supervisor that reaps a dead one, folds its slot
into the retired slot and reclaims it (`_fold_and_reclaim_slot` of `supervisor.py`),
before it spawns the next; and the readers of `_aggregate_to_dict`. A slot read is
atomic and succeeds on an even sequence (`slot_read_untorn`), and may fail as unstable
at any time. A slot write is two steps: the odd marker, then the fields with the next
even number.

`StatsState.step` is one shared-memory access, with the local work up to the next one.
-/

namespace OmniRealtime

/-! ## Reading the slots -/

structure AggregateDict where
  inflight : Int
  maxInflight : Nat
  peakInflight : Int
  rejectedTotal : Int
  deriving DecidableEq, Repr

/-- The dictionary made of the slots read. -/
def aggregateDict (views : List (SlotFields Nat)) (retired : SlotFields Nat) (maxInflight : Nat) :
    AggregateDict where
  inflight := (views.map SlotFields.inflight).sum
  maxInflight := maxInflight
  peakInflight := (((views ++ [retired]).map SlotFields.peakSum).max?).getD 0
  rejectedTotal := (views.map SlotFields.rejectedTotal).sum + retired.rejectedTotal

/-- The fields `_fold_and_reclaim_slot` writes to the retired slot. -/
def foldFields (accumulated view : SlotFields Nat) (now : Nat) : SlotFields Nat where
  inflight := 0
  peakSum := max accumulated.peakSum view.peakSum
  rejectedTotal := accumulated.rejectedTotal + view.rejectedTotal
  generation := 0
  pid := 0
  heartbeatTs := now

namespace SlotView

/-- The odd marker: `seq | 1`. -/
def mark (v : SlotView Nat) : SlotView Nat := { v with seq := v.seq ||| 1 }

/-- The fields, and the even number after the marker. -/
def store (v : SlotView Nat) (fields : SlotFields Nat) : SlotView Nat := ⟨v.seq + 1, fields⟩

end SlotView

/-! ## The state -/

/-- Where `_write_own` stands: not called, called, or after the marker. -/
inductive WriteStage
  | idle
  | called
  | marked
  deriving DecidableEq, Repr

/-- A data-plane process and its `SharedAdmission`. The constructor of the latter ends
    with a `_write_own`. -/
structure AdmissionPlane where
  proc : AdmissionProcess
  alive : Bool := true
  write : WriteStage := .called
  siblingUnstable : Bool := false
  siblingProbedAt : Nat := 0
  deriving DecidableEq, Repr

/-- Where the supervisor stands in `poll_once` with slot `i`: `view` and `accumulated` are
    the locals of `_fold_and_reclaim_slot`.

* `reaped`: about to read the slots; `unread`, `unreadMarked`: the read failed, and the
  reclaim is under way;
* `read`: about to mark the retired slot; `held`: it is marked; `folded`: its fields are
  written; `foldedMarked`: the reclaim is under way; `reclaimed`: about to end the write
  of the retired slot. -/
inductive SupervisorPhase (n : Nat)
  | polling
  | reaped (i : Fin n)
  | unread (i : Fin n)
  | unreadMarked (i : Fin n)
  | read (i : Fin n) (view accumulated : SlotFields Nat)
  | held (i : Fin n) (view accumulated : SlotFields Nat)
  | folded (i : Fin n) (view accumulated : SlotFields Nat)
  | foldedMarked (i : Fin n) (view accumulated : SlotFields Nat)
  | reclaimed (i : Fin n) (view accumulated : SlotFields Nat)
  deriving DecidableEq, Repr

/-- A call of `_aggregate_to_dict`: the attempts begun, and the version and the slots of
    the current one. How many calls had returned, and how many slots had been reclaimed
    unread, when it was made. -/
structure AggregateCall where
  attempt : Nat
  scan : Option (Nat × List (SlotFields Nat))
  after : Nat
  unreadAtCall : Nat
  deriving DecidableEq, Repr

/-- A call that returned, with the rejections and the highest sum so far. -/
structure AggregateReturn where
  dict : AggregateDict
  after : Nat
  unreadAtCall : Nat
  unreadAtReturn : Nat
  rejections : Nat
  highestSum : Nat
  deriving DecidableEq, Repr

/-- The slots, the processes, and the calls of `_aggregate_to_dict` under way. The fields
    from `rejections` on are history: the calls of `try_acquire` that returned `False`, the
    highest sum a data plane observed, the slots reclaimed without having been read, and
    the calls that returned. -/
structure StatsState (n : Nat) (ρ : Type) where
  slot : Fin n → SlotView Nat
  retired : SlotView Nat
  plane : Fin n → Option AdmissionPlane
  generation : Fin n → Int
  supervisor : SupervisorPhase n
  call : ρ → Option AggregateCall
  rejections : Nat
  highestSum : Nat
  unreadReclaims : Nat
  returns : List AggregateReturn

inductive StatsAct (n : Nat) (ρ : Type)
  | spawn (i : Fin n) (pid : Int)
  | tryAcquire (i : Fin n) (now : Nat)
  | look (i : Fin n)
  | lookUnstable (i : Fin n) (now : Nat)
  | decide (i : Fin n)
  | release (i : Fin n)
  | touch (i : Fin n)
  | mark (i : Fin n)
  | store (i : Fin n) (now : Nat)
  | exit (i : Fin n)
  | reap (i : Fin n)
  | supervise (now : Nat)
  | aggregate (r : ρ)
  | readVersion (r : ρ)
  | readSlot (r : ρ)
  | readRetired (r : ρ)
  | unstable (r : ρ)

/-! ## Data planes -/

namespace AdmissionPlane

/-- The process is in no call, or in `try_acquire` while it sums the slots. -/
def ready (x : AdmissionPlane) : Bool := x.alive && x.write == .idle

/-- A shed that is counted: `_rejected_total += 1`, then `_write_own`. -/
def shed (x : AdmissionPlane) : AdmissionPlane :=
  { x with
    proc := { x.proc with rejectedTotal := x.proc.rejectedTotal + 1, phase := .idle }
    write := .called }

def shedFromCachedUnstable (x : AdmissionPlane) (reprobe now : Nat) : Bool :=
  x.siblingUnstable && now - x.siblingProbedAt < reprobe

def markSiblingUnstable (x : AdmissionPlane) (now : Nat) : AdmissionPlane :=
  { x with siblingProbedAt := now, siblingUnstable := true }

end AdmissionPlane

namespace StatsState

variable {n : Nat} {ρ : Type} [DecidableEq ρ]

def setPlane (s : StatsState n ρ) (i : Fin n) (x : AdmissionPlane) : StatsState n ρ :=
  { s with plane := Function.update s.plane i (some x) }

def setSlot (s : StatsState n ρ) (i : Fin n) (v : SlotView Nat) : StatsState n ρ :=
  { s with slot := Function.update s.slot i v }

def setCall (s : StatsState n ρ) (r : ρ) (c : Option AggregateCall) : StatsState n ρ :=
  { s with call := Function.update s.call r c }

/-- A call of `try_acquire` returns `False`. -/
def reject (s : StatsState n ρ) : StatsState n ρ := { s with rejections := s.rejections + 1 }

/-- `_spawn_dp_slot`: the next generation, claiming its slot. -/
def spawnStep (s : StatsState n ρ) (i : Fin n) (pid : Int) : Option (StatsState n ρ) :=
  if s.supervisor = .polling ∧ s.plane i = none then
    let generation := s.generation i + 1
    some { s with
      generation := Function.update s.generation i generation
      plane := Function.update s.plane i
        (some { proc := { generation := generation, pid := pid, phase := .idle } }) }
  else none

/-- `try_acquire` up to the first read of a slot. The own slot has no other writer while its
    owner lives, so its read never fails. -/
def tryAcquireStep (reprobe : Nat) (s : StatsState n ρ) (i : Fin n) (now : Nat)
    (x : AdmissionPlane) : StatsState n ρ :=
  if x.proc.stillOwner (s.slot i).fields then
    if x.shedFromCachedUnstable reprobe now then (s.setPlane i x.shed).reject
    else s.setPlane i { x with proc := { x.proc with phase := .acquiring [] } }
  else s.reject

/-- The next slot `_total_inflight` reads. -/
def lookStep (s : StatsState n ρ) (i : Fin n) (x : AdmissionPlane) : Option (StatsState n ρ) :=
  match x.proc.phase with
  | .acquiring seen =>
    if h : seen.length < n then
      let v := s.slot ⟨seen.length, h⟩
      if Even v.seq then
        some (s.setPlane i
          { x with proc := { x.proc with phase := .acquiring (seen ++ [v.fields.inflight]) } })
      else none
    else none
  | _ => none

/-- `_total_inflight` raises: the shed is counted like any other. -/
def lookUnstableStep (s : StatsState n ρ) (i : Fin n) (now : Nat) (x : AdmissionPlane) :
    Option (StatsState n ρ) :=
  match x.proc.phase with
  | .acquiring _ => some (s.setPlane i (x.markSiblingUnstable now).shed).reject
  | _ => none

/-- The rest of `try_acquire` once all slots are summed. -/
def decideStep (maxInflight : Nat) (s : StatsState n ρ) (i : Fin n) (x : AdmissionPlane) :
    Option (StatsState n ρ) :=
  match x.proc.phase with
  | .acquiring seen =>
    if seen.length = n then
      let y : AdmissionPlane :=
        { x with
          proc := x.proc.decideAcquire maxInflight seen.sum
          siblingUnstable := false
          write := .called }
      if (maxInflight : Int) ≤ seen.sum then some (s.setPlane i y).reject
      else
        some { s.setPlane i y with highestSum := max s.highestSum (seen.sum + 1).toNat }
    else none
  | _ => none

/-- `release`, up to its write. -/
def releaseStep (s : StatsState n ρ) (i : Fin n) (x : AdmissionPlane) : StatsState n ρ :=
  if x.proc.stillOwner (s.slot i).fields ∧ 0 < x.proc.inflight then
    s.setPlane i { x with proc := x.proc.releaseOne, write := .called }
  else s

/-- `touch`, up to its write. -/
def touchStep (s : StatsState n ρ) (i : Fin n) (x : AdmissionPlane) : StatsState n ρ :=
  if x.proc.stillOwner (s.slot i).fields then s.setPlane i { x with write := .called } else s

/-! ## The supervisor -/

/-- `_fold_and_reclaim_slot`, one access at a time. -/
def superviseStep (s : StatsState n ρ) (now : Nat) : Option (StatsState n ρ) :=
  let reclaimFields := (SlotWrite.reclaim now).fields
  match s.supervisor with
  | .polling => none
  | .reaped i =>
    -- A slot whose owner died mid-write stays odd: its read fails.
    if Even (s.slot i).seq ∧ Even s.retired.seq then
      some { s with supervisor := .read i (s.slot i).fields s.retired.fields }
    else some { s with supervisor := .unread i }
  | .unread i =>
    some { s.setSlot i (s.slot i).mark with supervisor := .unreadMarked i }
  | .unreadMarked i =>
    some { s.setSlot i ((s.slot i).store reclaimFields) with
      supervisor := .polling
      plane := Function.update s.plane i none
      unreadReclaims := s.unreadReclaims + 1 }
  | .read i view accumulated =>
    some { s with retired := s.retired.mark, supervisor := .held i view accumulated }
  | .held i view accumulated =>
    some { s with
      retired := { s.retired with fields := foldFields accumulated view now }
      supervisor := .folded i view accumulated }
  | .folded i view accumulated =>
    some { s.setSlot i (s.slot i).mark with supervisor := .foldedMarked i view accumulated }
  | .foldedMarked i view accumulated =>
    some { s.setSlot i ((s.slot i).store reclaimFields) with
      supervisor := .reclaimed i view accumulated }
  | .reclaimed i _ _ =>
    some { s with
      retired := { s.retired with seq := s.retired.seq + 1 }
      supervisor := .polling
      plane := Function.update s.plane i none }

/-! ## Aggregate reads -/

/-- The attempts `_aggregate_to_dict` makes. -/
def aggregateAttempts : Nat := 4

/-- The version, at the start of an attempt. -/
def readVersionStep (s : StatsState n ρ) (r : ρ) (c : AggregateCall) : Option (StatsState n ρ) :=
  if c.scan = none ∧ c.attempt < aggregateAttempts ∧ Even s.retired.seq then
    some (s.setCall r (some { c with attempt := c.attempt + 1, scan := some (s.retired.seq, []) }))
  else none

def readSlotStep (s : StatsState n ρ) (r : ρ) (c : AggregateCall) : Option (StatsState n ρ) :=
  match c.scan with
  | some (version, views) =>
    if h : views.length < n then
      let v := s.slot ⟨views.length, h⟩
      if Even v.seq then
        some (s.setCall r (some { c with scan := some (version, views ++ [v.fields]) }))
      else none
    else none
  | none => none

/-- The last read of an attempt: the call returns when the version is the one it began
    with, and makes another attempt, or raises, when it is not. -/
def readRetiredStep (maxInflight : Nat) (s : StatsState n ρ) (r : ρ) (c : AggregateCall) :
    Option (StatsState n ρ) :=
  match c.scan with
  | some (version, views) =>
    if views.length = n ∧ Even s.retired.seq then
      if s.retired.seq = version then
        some { s.setCall r none with
          returns := s.returns ++
            [⟨aggregateDict views s.retired.fields maxInflight, c.after, c.unreadAtCall,
              s.unreadReclaims, s.rejections, s.highestSum⟩] }
      else if c.attempt < aggregateAttempts then
        some (s.setCall r (some { c with scan := none }))
      else some (s.setCall r none)
    else none
  | none => none

/-! ## Steps -/

/-- A step of a living data plane that is not writing its slot. -/
def ofReady (s : StatsState n ρ) (i : Fin n) (phase : AdmissionPhase → Bool)
    (f : AdmissionPlane → Option (StatsState n ρ)) : Option (StatsState n ρ) :=
  (s.plane i).bind fun x => if x.ready ∧ phase x.proc.phase then f x else none

def step (maxInflight reprobe : Nat) (s : StatsState n ρ) :
    StatsAct n ρ → Option (StatsState n ρ)
  | .spawn i pid => s.spawnStep i pid
  | .tryAcquire i now =>
    s.ofReady i (· == .idle) fun x => some (s.tryAcquireStep reprobe i now x)
  | .look i => s.ofReady i (· != .idle) fun x => s.lookStep i x
  | .lookUnstable i now => s.ofReady i (· != .idle) fun x => s.lookUnstableStep i now x
  | .decide i => s.ofReady i (· != .idle) fun x => s.decideStep maxInflight i x
  | .release i => s.ofReady i (· == .idle) fun x => some (s.releaseStep i x)
  | .touch i => s.ofReady i (· == .idle) fun x => some (s.touchStep i x)
  | .mark i =>
    (s.plane i).bind fun x =>
      if x.alive ∧ x.write = .called then
        some ((s.setSlot i (s.slot i).mark).setPlane i { x with write := .marked })
      else none
  | .store i now =>
    (s.plane i).bind fun x =>
      if x.alive ∧ x.write = .marked then
        some ((s.setSlot i ((s.slot i).store (x.proc.ownFields now))).setPlane i
          { x with write := .idle })
      else none
  | .exit i =>
    (s.plane i).bind fun x =>
      if x.alive then some (s.setPlane i { x with alive := false }) else none
  | .reap i =>
    (s.plane i).bind fun x =>
      if !x.alive ∧ s.supervisor = .polling then some { s with supervisor := .reaped i } else none
  | .supervise now => s.superviseStep now
  | .aggregate r =>
    if s.call r = none then
      some (s.setCall r (some ⟨0, none, s.returns.length, s.unreadReclaims⟩))
    else none
  | .readVersion r => (s.call r).bind fun c => s.readVersionStep r c
  | .readSlot r => (s.call r).bind fun c => s.readSlotStep r c
  | .readRetired r => (s.call r).bind fun c => s.readRetiredStep maxInflight r c
  | .unstable r => (s.call r).bind fun _ => some (s.setCall r none)

/-- The slot file as created, before the first data plane is spawned. -/
def initial : StatsState n ρ where
  slot _ := ⟨0, SlotFields.zero 0⟩
  retired := ⟨0, SlotFields.zero 0⟩
  plane _ := none
  generation _ := 0
  supervisor := .polling
  call _ := none
  rejections := 0
  highestSum := 0
  unreadReclaims := 0
  returns := []

end StatsState

/-- `n` data planes that admit `maxInflight` requests and probe an unstable slot again after
    `reprobe`, the supervisor, and readers `ρ`. -/
def statsSystem (n : Nat) (ρ : Type) [DecidableEq ρ] (maxInflight reprobe : Nat) :
    System (StatsState n ρ) (StatsAct n ρ) :=
  System.ofFun (fun s => s = StatsState.initial) fun s a => s.step maxInflight reprobe a

end OmniRealtime
