import OmniRealtime.Lib.SlotRuns
import OmniRealtime.Lib.System

/-!
# The slots of a CUDA IPC pool

`cuda_ipc.py`: `_ContiguousSlotAllocator`. A buffer takes a run of neighbouring slots of the pool;
`acquire_async` waits when no run is long enough, and every `release` wakes all who wait. The lock
is never held over a suspension, so that an attempt to take slots is one step.

1. `acquire_async` as `attempt` between two waits, `release`, and `SlotPool`: the allocator, the
   calls that wait and what is handed out.
2. `attempt_eq`: an attempt takes the first run that fits or none fits; `release_taken`,
   `taken_of_release`: what a release accepts.
3. `SlotsKept.step`: what every step of any caller keeps.
4. `slots_never_shared`: what is handed out, over all runs.
-/

namespace OmniRealtime

open List Option

open SlotRuns

/-! ## The allocator -/

inductive SlotError
  | value (message : String)
  | runtime (message : String)
deriving DecidableEq, Repr

structure SlotLayout where
  slotIndex : Option Nat
  freeSlots : Nat
  largestFreeRun : Nat
  freeRuns : Nat
deriving DecidableEq, Repr

structure SlotAllocation where
  offset : Nat
  waitRounds : Nat
  freeSlotsBefore : Int
  largestFreeRunBefore : Int
  freeRunsBefore : Int
  lastFailedFreeSlots : Int
  lastFailedLargestFreeRun : Nat
  lastFailedFreeRuns : Nat
deriving DecidableEq, Repr

structure SlotAllocator where
  slotCount : Nat
  slotSize : Nat
  free : List Bool
  freeSlots : Int
  changed : Bool
deriving DecidableEq, Repr

open SlotAllocator

/-- `__init__`. -/
def SlotAllocator.new (slotCount slotSize : Int) : Except SlotError SlotAllocator :=
  if slotCount ≤ 0 then
    .error (.value "slot_count must be positive")
  else if slotSize ≤ 0 then
    .error (.value "slot_size must be positive")
  else
    .ok {
      slotCount := slotCount.toNat
      slotSize := slotSize.toNat
      free := List.replicate slotCount.toNat true
      freeSlots := slotCount
      changed := true }

/-- The loop of `_find_contiguous`. -/
def scanContiguous (numSlots : Nat) : List Bool → Nat → Nat → Nat → Option Nat
  | [], _, _, _ => none
  | isFree :: rest, index, runStart, runLen =>
    if isFree then
      let runStart := if runLen = 0 then index else runStart
      let runLen := runLen + 1
      if runLen = numSlots then some runStart
      else scanContiguous numSlots rest (index + 1) runStart runLen
    else scanContiguous numSlots rest (index + 1) runStart 0

def SlotAllocator.findContiguous (a : SlotAllocator) (numSlots : Nat) : Option Nat :=
  scanContiguous numSlots a.free 0 0 0

/-- The variables of the loop of `_find_contiguous_with_layout`. -/
structure LayoutScan where
  layout : SlotLayout := ⟨none, 0, 0, 0⟩
  runStart : Nat := 0
  runLen : Nat := 0
  inRun : Bool := false

def LayoutScan.step (numSlots : Nat) (scan : LayoutScan) (slot : Bool × Nat) : LayoutScan :=
  if slot.1 then
    let runStart := if scan.inRun then scan.runStart else slot.2
    let runLen := if scan.inRun then scan.runLen + 1 else 1
    { layout :=
        { slotIndex :=
            if scan.layout.slotIndex = none ∧ numSlots ≤ runLen then some runStart
            else scan.layout.slotIndex
          freeSlots := scan.layout.freeSlots + 1
          largestFreeRun := max scan.layout.largestFreeRun runLen
          freeRuns := if scan.inRun then scan.layout.freeRuns else scan.layout.freeRuns + 1 }
      runStart, runLen
      inRun := true }
  else { scan with inRun := false, runLen := 0 }

def SlotAllocator.findContiguousWithLayout (a : SlotAllocator) (numSlots : Nat) : SlotLayout :=
  (a.free.zipIdx.foldl (LayoutScan.step numSlots) {}).layout

/-- An `acquire_async`: its arguments, checked, and what it remembers of its last attempt. -/
structure AcquireCall where
  numSlots : Nat
  captureLayout : Bool
  waitRounds : Nat := 0
  lastFailedFreeSlots : Int := 0
  lastFailedLargestFreeRun : Nat := 0
  lastFailedFreeRuns : Nat := 0
deriving DecidableEq, Repr

/-- The checks of `acquire_async`. -/
def SlotAllocator.acquireCall (a : SlotAllocator) (numSlots : Int) (captureLayout : Bool) :
    Except SlotError AcquireCall :=
  if numSlots ≤ 0 then
    .error (.value "num_slots must be positive")
  else if numSlots > a.slotCount then
    .error (.value s!"allocation requires {numSlots} slots, but pool has {a.slotCount}")
  else .ok { numSlots := numSlots.toNat, captureLayout }

inductive Attempt
  | allocated (allocation : SlotAllocation)
  | waits (call : AcquireCall)
deriving DecidableEq, Repr

/-- The slots of a run are taken. -/
def SlotAllocator.take (a : SlotAllocator) (slotIndex numSlots : Nat) : SlotAllocator :=
  { a with
    free := mark a.free slotIndex false numSlots
    freeSlots := a.freeSlots - numSlots
    changed := if a.freeSlots - numSlots = 0 then false else a.changed }

/-- The call after an attempt that found no run. -/
def AcquireCall.failed (call : AcquireCall) (a : SlotAllocator) : AcquireCall :=
  if call.captureLayout then
    let layout := a.findContiguousWithLayout call.numSlots
    { call with
      waitRounds := call.waitRounds + 1
      lastFailedFreeSlots := a.freeSlots
      lastFailedLargestFreeRun := layout.largestFreeRun
      lastFailedFreeRuns := layout.freeRuns }
  else { call with waitRounds := call.waitRounds + 1 }

/-- `acquire_async` under the lock. -/
def SlotAllocator.attempt (a : SlotAllocator) (call : AcquireCall) : SlotAllocator × Attempt :=
  match a.findContiguous call.numSlots with
  | some slotIndex =>
    (a.take slotIndex call.numSlots,
      .allocated {
        offset := slotIndex * a.slotSize
        waitRounds := call.waitRounds
        freeSlotsBefore := a.freeSlots
        largestFreeRunBefore := -1
        freeRunsBefore := -1
        lastFailedFreeSlots := call.lastFailedFreeSlots
        lastFailedLargestFreeRun := call.lastFailedLargestFreeRun
        lastFailedFreeRuns := call.lastFailedFreeRuns })
  | none => ({ a with changed := false }, .waits (call.failed a))

/-- The slots of a run are given back. -/
def SlotAllocator.giveBack (a : SlotAllocator) (slotIndex numSlots : Nat) : SlotAllocator :=
  { a with
    free := mark a.free slotIndex true numSlots
    freeSlots := a.freeSlots + numSlots
    changed := true }

/-- `release`: the allocator it leaves, and what it raises. -/
def SlotAllocator.release (a : SlotAllocator) (offset numSlots : Int) :
    SlotAllocator × Option SlotError :=
  if numSlots ≤ 0 then (a, some (.value "num_slots must be positive"))
  else if offset % a.slotSize ≠ 0 then (a, some (.value "offset must be slot aligned"))
  else
    let slotIndex := offset / a.slotSize
    if slotIndex < 0 ∨ slotIndex + numSlots > a.slotCount then
      (a, some (.value "slot range is outside the pool"))
    else if (List.range' slotIndex.toNat numSlots.toNat).any (fun i => a.free[i]? = some true) then
      (a, some (.runtime "cuda_ipc slot released twice"))
    else (a.giveBack slotIndex.toNat numSlots.toNat, none)

/-! ## The callers -/

/-- A call that waits for `_changed`; `notified` once the event has woken it and it has not yet
    gone on. -/
structure SlotWaiter where
  call : AcquireCall
  notified : Bool
deriving DecidableEq, Repr

/-- The allocator with the calls that wait. `held` keeps, for each allocation, the slots of its
    range that have not been released. -/
structure SlotPool where
  allocator : SlotAllocator
  waiters : List SlotWaiter := []
  held : List (List Nat) := []
deriving DecidableEq, Repr

inductive SlotEvent
  | acquire (numSlots : Int) (captureLayout : Bool)
  | resume (waiter : Nat)
  | cancel (waiter : Nat)
  | release (offset numSlots : Int)
deriving Repr

/-- An attempt, and the wait after one that found no run: `_changed.wait()` returns at once when
    the event is set. -/
def SlotPool.attempt (s : SlotPool) (call : AcquireCall) : SlotPool :=
  match s.allocator.attempt call with
  | (allocator, .allocated allocation) =>
    { s with
      allocator
      held := List.range' (allocation.offset / allocator.slotSize) call.numSlots :: s.held }
  | (allocator, .waits call) =>
    { s with allocator, waiters := s.waiters ++ [⟨call, allocator.changed⟩] }

/-- `release`; a `set` of the event wakes all who wait for it. -/
def SlotPool.release (s : SlotPool) (offset numSlots : Int) : SlotPool :=
  match s.allocator.release offset numSlots with
  | (allocator, some _) => { s with allocator }
  | (allocator, none) =>
    let slotIndex := (offset / allocator.slotSize).toNat
    { allocator
      waiters := s.waiters.map fun w => { w with notified := true }
      held := s.held.map fun range =>
        range.filter fun i => i ∉ List.range' slotIndex numSlots.toNat }

def poolStep (s : SlotPool) : SlotEvent → Option SlotPool
  | .acquire numSlots captureLayout =>
    match s.allocator.acquireCall numSlots captureLayout with
    | .error _ => some s
    | .ok call => some (s.attempt call)
  | .resume k =>
    match s.waiters[k]? with
    | none => none
    | some w =>
      if w.notified then some ({ s with waiters := s.waiters.eraseIdx k }.attempt w.call)
      else none
  | .cancel k =>
    if k < s.waiters.length then some { s with waiters := s.waiters.eraseIdx k } else none
  | .release offset numSlots => some (s.release offset numSlots)

/-- Every order of calls, wake-ups, cancellations and releases on one allocator. -/
def poolSystem : System SlotPool SlotEvent :=
  .ofFun (fun s => ∃ slotCount slotSize allocator,
    SlotAllocator.new slotCount slotSize = .ok allocator ∧ s = { allocator }) poolStep

/-! ## The operations -/

theorem scanContiguous_spec {slots : List Bool} {numSlots : Nat} (rest : List Bool)
    {index runStart runLen : Nat} (hrest : slots.drop index = rest)
    (hscan : Scanned slots numSlots index runLen) (hrun : 0 < runLen → runStart = index - runLen) :
    match scanContiguous numSlots rest index runStart runLen with
    | some slotIndex => FirstFit slots slotIndex numSlots
    | none => ∀ slotIndex, ¬Fits slots slotIndex numSlots := by
  induction rest generalizing index runStart runLen with
  | nil =>
    rw [scanContiguous]
    exact hscan.ends (drop_eq_nil_iff.1 hrest)
  | cons isFree rest ih =>
    have hnext : slots[index]? = some isFree := by
      rw [← head?_drop, hrest, head?_cons]
    have hdrop : slots.drop (index + 1) = rest := by
      rw [← drop_drop, hrest, drop_one, tail_cons]
    cases isFree with
    | false => exact ih hdrop (hscan.taken hnext) (fun h => absurd h (Nat.lt_irrefl 0))
    | true =>
      have hsrt : (if runLen = 0 then index else runStart) = index - runLen := by
        split
        · next h => rw [h, Nat.sub_zero]
        · next h => exact hrun (Nat.pos_of_ne_zero h)
      rw [scanContiguous, if_pos rfl, hsrt]
      by_cases hlong : runLen + 1 = numSlots
      · simp only [if_pos hlong]
        exact hscan.finds hnext hlong
      · simp only [if_neg hlong]
        have hshort := Nat.lt_of_le_of_ne hscan.short hlong
        refine ih hdrop (hscan.free hnext hshort) fun _ => ?_
        rw [Nat.add_sub_add_right]

theorem findContiguous_spec (a : SlotAllocator) {numSlots : Nat} (hpos : 0 < numSlots) :
    match a.findContiguous numSlots with
    | some slotIndex => FirstFit a.free slotIndex numSlots
    | none => ∀ slotIndex, ¬Fits a.free slotIndex numSlots :=
  scanContiguous_spec a.free drop_zero (scanned_zero hpos) fun h => absurd h (Nat.lt_irrefl 0)

theorem attempt_eq (a : SlotAllocator) (call : AcquireCall) (hpos : 0 < call.numSlots) :
    (∃ slotIndex allocation, FirstFit a.free slotIndex call.numSlots ∧
      allocation.offset = slotIndex * a.slotSize ∧
      a.attempt call = (a.take slotIndex call.numSlots, .allocated allocation)) ∨
    (∀ slotIndex, ¬Fits a.free slotIndex call.numSlots) ∧
      a.attempt call = ({ a with changed := false }, .waits (call.failed a)) := by
  have hspec := findContiguous_spec a hpos
  rw [SlotAllocator.attempt]
  cases hfind : a.findContiguous call.numSlots with
  | some slotIndex =>
    rw [hfind] at hspec
    exact .inl ⟨slotIndex, _, hspec, rfl, rfl⟩
  | none =>
    rw [hfind] at hspec
    exact .inr ⟨hspec, rfl⟩

variable {a : SlotAllocator}

theorem acquireCall_pos {numSlots : Int} {captureLayout : Bool} {call : AcquireCall}
    (h : a.acquireCall numSlots captureLayout = .ok call) : 0 < call.numSlots := by
  unfold acquireCall at h
  split at h
  · cases h
  · next hpos =>
    split at h
    · cases h
    · cases h
      show 0 < numSlots.toNat
      omega

structure TakenRun (a : SlotAllocator) (slotIndex numSlots : Nat) : Prop where
  pos : 0 < numSlots
  inPool : slotIndex + numSlots ≤ a.slotCount
  taken : All a.free slotIndex numSlots false

theorem release_taken {slotIndex numSlots : Nat} (hsz : 0 < a.slotSize)
    (h : TakenRun a slotIndex numSlots) :
    a.release (slotIndex * a.slotSize : Nat) numSlots = (a.giveBack slotIndex numSlots, none) := by
  have hpos := h.pos
  have hdiv : ((slotIndex * a.slotSize : Nat) : Int) / a.slotSize = slotIndex := by
    rw [← Int.natCast_ediv, Nat.mul_div_cancel slotIndex hsz]
  have hmod : ((slotIndex * a.slotSize : Nat) : Int) % a.slotSize = 0 := by
    rw [← Int.natCast_emod, Nat.mul_mod_left, Int.natCast_zero]
  have htaken : (List.range' slotIndex numSlots).any (fun i => a.free[i]? = some true) = false := by
    simp only [List.any_eq_false, mem_range'_1, decide_eq_true_eq]
    rintro i ⟨hlow, hh⟩
    rw [h.taken i hlow hh]
    decide
  rw [SlotAllocator.release, if_neg (by omega), if_neg (not_not.2 hmod)]
  rw [hdiv, if_neg (by have := h.inPool; omega), Int.toNat_natCast, Int.toNat_natCast, htaken]
  rfl

theorem taken_of_release {offset numSlots : Int} (hlen : a.free.length = a.slotCount)
    (h : (a.release offset numSlots).2 = none) :
    TakenRun a (offset / a.slotSize).toNat numSlots.toNat ∧
      offset = ((offset / a.slotSize).toNat * a.slotSize : Nat) ∧ numSlots = numSlots.toNat := by
  dsimp only [SlotAllocator.release] at h
  split at h
  · cases h
  · next hpos =>
    split at h
    · cases h
    · next hmod =>
      split at h
      · cases h
      · next hrange =>
        split at h
        · cases h
        · next hf =>
          obtain ⟨hlow, hh⟩ := not_or.1 hrange
          have hidx : ((offset / a.slotSize).toNat : Int) = offset / a.slotSize :=
            Int.toNat_of_nonneg (Int.not_lt.1 hlow)
          refine ⟨⟨by omega, by omega, ?_⟩, ?_, by omega⟩
          · intro i hsrt hend
            have hlt : i < a.free.length := by omega
            have hi := hf
            simp only [List.any_eq_true, mem_range'_1, decide_eq_true_eq, not_exists, not_and] at hi
            have hne := hi i ⟨hsrt, hend⟩
            rw [getElem?_eq_getElem hlt] at hne ⊢
            cases hsl : a.free[i] with
            | true => exact absurd (congrArg some hsl) hne
            | false => rfl
          · rw [Int.natCast_mul, hidx]
            exact (Int.ediv_mul_cancel (Int.dvd_of_emod_eq_zero (not_not.1 hmod))).symm

theorem release_unchanged {offset numSlots : Int} (h : (a.release offset numSlots).2 ≠ none) :
    (a.release offset numSlots).1 = a := by
  revert h
  dsimp only [SlotAllocator.release]
  intro h
  split
  · rfl
  · split
    · rfl
    · split
      · rfl
      · split
        · rfl
        · next hpos hmod hrange hf =>
          rw [if_neg hpos, if_neg hmod, if_neg hrange, if_neg hf] at h
          exact absurd rfl h

/-! ## What is kept -/

/-- The slot belongs to an allocation and has not been released. -/
def SlotPool.Allocated (s : SlotPool) (i : Nat) : Prop := ∃ range ∈ s.held, i ∈ range

/-- No run fits the call. -/
def SlotPool.Unsatisfiable (s : SlotPool) (call : AcquireCall) : Prop :=
  ∀ slotIndex, ¬Fits s.allocator.free slotIndex call.numSlots

structure SlotsKept (s : SlotPool) : Prop where
  sizePos : 0 < s.allocator.slotSize
  length : s.allocator.free.length = s.allocator.slotCount
  disjoint : s.held.Pairwise List.Disjoint
  taken : ∀ i, s.Allocated i ↔ s.allocator.free[i]? = some false
  counted : s.allocator.freeSlots = s.allocator.free.count true
  asked : ∀ w ∈ s.waiters, 0 < w.call.numSlots
  waiting : ∀ w ∈ s.waiters, w.notified = false → s.Unsatisfiable w.call

namespace SlotsKept

variable {s : SlotPool} {slotIndex numSlots : Nat}

theorem ofNew {slotCount slotSize : Int} {allocator : SlotAllocator}
    (h : new slotCount slotSize = .ok allocator) : SlotsKept { allocator } := by
  unfold new at h
  split at h
  · cases h
  · next hcnt =>
    split at h
    · cases h
    · next hsz =>
      cases h
      refine ⟨by dsimp only; omega, length_replicate, List.Pairwise.nil, ?_, ?_, ?_, ?_⟩
      · intro i
        constructor
        · rintro ⟨range, hrange, -⟩
          exact absurd hrange not_mem_nil
        · intro hi
          have hmem := mem_of_getElem? hi
          cases eq_of_mem_replicate hmem
      · show slotCount = _
        rw [count_replicate_self, Int.toNat_of_nonneg (Int.le_of_lt (Int.not_le.1 hcnt))]
      · exact nofun
      · exact nofun

theorem inPool (h : SlotsKept s) {i : Nat} (hi : s.Allocated i) : i < s.allocator.slotCount := by
  rw [← h.length]
  exact (List.getElem?_eq_some_iff.1 ((h.taken i).1 hi)).1

theorem dropped (h : SlotsKept s) (k : Nat) :
    SlotsKept { s with waiters := s.waiters.eraseIdx k } :=
  { h with
    asked := fun w hw => h.asked w (mem_of_mem_eraseIdx hw)
    waiting := fun w hw => h.waiting w (mem_of_mem_eraseIdx hw) }

/-- A run is taken: no slot of it was handed out. -/
theorem takes (h : SlotsKept s) (hfits : Fits s.allocator.free slotIndex numSlots) :
    SlotsKept { s with
      allocator := s.allocator.take slotIndex numSlots
      held := List.range' slotIndex numSlots :: s.held } where
  sizePos := h.sizePos
  length := (length_mark ..).trans h.length
  disjoint := by
    refine pairwise_cons.2 ⟨?_, h.disjoint⟩
    intro range hrange i hnew hold
    obtain ⟨hlow, hh⟩ := mem_range'_1.1 hnew
    have hf := hfits i hlow hh
    rw [(h.taken i).1 ⟨range, hrange, hold⟩] at hf
    cases hf
  taken := by
    intro i
    show (∃ range ∈ List.range' slotIndex numSlots :: s.held, i ∈ range) ↔
      (mark s.allocator.free slotIndex false numSlots)[i]? = some false
    simp only [mem_cons, exists_eq_or_imp, mem_range'_1]
    by_cases hi : slotIndex ≤ i ∧ i < slotIndex + numSlots
    · rw [getElem?_mark_of_mem hi.1 hi.2 (hfits.lt_length hi.1 hi.2)]
      exact iff_of_true (.inl hi) rfl
    · rw [getElem?_mark_of_not_mem (by omega), ← h.taken i]
      exact or_iff_right hi
  counted := by
    have hcnt := count_mark_false hfits
    have hf := h.counted
    show s.allocator.freeSlots - numSlots = _
    rw [hf, ← hcnt, SlotAllocator.take]
    push_cast
    exact Int.add_sub_cancel ..
  asked := h.asked
  waiting := fun w hw hqt start hsrt => h.waiting w hw hqt start hsrt.of_mark

theorem waits (h : SlotsKept s) {call : AcquireCall} (hpos : 0 < call.numSlots)
    (hnone : s.Unsatisfiable call) {notified : Bool} :
    SlotsKept { s with
      allocator := { s.allocator with changed := false }
      waiters := s.waiters ++ [⟨call, notified⟩] } :=
  { h with
    asked := by
      intro w hw
      obtain hw | hw := mem_append.1 hw
      · exact h.asked w hw
      · exact mem_singleton.1 hw ▸ hpos
    waiting := by
      intro w hw
      obtain hw | hw := mem_append.1 hw
      · exact h.waiting w hw
      · obtain rfl := mem_singleton.1 hw
        exact fun _ => hnone }

theorem failed_numSlots (call : AcquireCall) (a : SlotAllocator) :
    (call.failed a).numSlots = call.numSlots := by
  unfold AcquireCall.failed
  split <;> rfl

theorem attempt_allocated (h : SlotsKept s) {call : AcquireCall} (hpos : 0 < call.numSlots)
    {allocation : SlotAllocation} (hresult : (s.allocator.attempt call).2 = .allocated allocation) :
    ∃ slotIndex, FirstFit s.allocator.free slotIndex call.numSlots ∧
      allocation.offset = slotIndex * s.allocator.slotSize ∧
      s.attempt call = { s with
        allocator := s.allocator.take slotIndex call.numSlots
        held := List.range' slotIndex call.numSlots :: s.held } := by
  obtain ⟨slotIndex, allocation', hfit, hoffset, heq⟩ | ⟨-, heq⟩ := attempt_eq s.allocator call hpos
  · rw [heq] at hresult
    cases hresult
    refine ⟨slotIndex, hfit, hoffset, ?_⟩
    have hdiv : allocation.offset / s.allocator.slotSize = slotIndex := by
      rw [hoffset, Nat.mul_div_cancel slotIndex h.sizePos]
    simp only [SlotPool.attempt, heq, SlotAllocator.take, hdiv]
  · rw [heq] at hresult
    cases hresult

theorem attempt_waits {call call' : AcquireCall} (hpos : 0 < call.numSlots)
    (hresult : (s.allocator.attempt call).2 = .waits call') : s.Unsatisfiable call ∧
      call'.numSlots = call.numSlots ∧ s.attempt call = { s with
        allocator := { s.allocator with changed := false }
        waiters := s.waiters ++ [⟨call', false⟩] } := by
  obtain ⟨slotIndex, allocation', hfit, hoffset, heq⟩ | ⟨hnone, heq⟩ :=
    attempt_eq s.allocator call hpos
  · rw [heq] at hresult
    cases hresult
  · rw [heq] at hresult
    cases hresult
    exact ⟨hnone, failed_numSlots .., by rw [SlotPool.attempt, heq]⟩

theorem attempt (h : SlotsKept s) {call : AcquireCall} (hpos : 0 < call.numSlots) :
    SlotsKept (s.attempt call) := by
  cases hresult : (s.allocator.attempt call).2 with
  | allocated allocation =>
    obtain ⟨slotIndex, hfit, -, heq⟩ := h.attempt_allocated hpos hresult
    rw [heq]
    exact h.takes hfit.1
  | waits call' =>
    obtain ⟨hnone, hsz, heq⟩ := attempt_waits hpos hresult
    rw [heq]
    refine h.waits (hsz ▸ hpos) ?_
    rw [SlotPool.Unsatisfiable, hsz]
    exact hnone

theorem gives (h : SlotsKept s) (hrun : TakenRun s.allocator slotIndex numSlots) : SlotsKept {
      allocator := s.allocator.giveBack slotIndex numSlots
      waiters := s.waiters.map fun w => { w with notified := true }
      held := s.held.map fun range =>
        range.filter fun i => i ∉ List.range' slotIndex numSlots } where
  sizePos := h.sizePos
  length := (length_mark ..).trans h.length
  disjoint := h.disjoint.map _ fun first second hdisjoint i hfst hsecond =>
    hdisjoint (mem_filter.1 hfst).1 (mem_filter.1 hsecond).1
  taken := by
    intro i
    show (∃ range ∈ s.held.map _, i ∈ range) ↔
      (mark s.allocator.free slotIndex true numSlots)[i]? = some false
    simp only [List.mem_map, exists_exists_and_eq_and, mem_filter, decide_eq_true_eq, mem_range'_1]
    by_cases hi : slotIndex ≤ i ∧ i < slotIndex + numSlots
    · rw [getElem?_mark_of_mem hi.1 hi.2 (hrun.taken.lt_length hi.1 hi.2)]
      exact iff_of_false (fun ⟨_, _, _, hout⟩ => hout hi) (by decide)
    · rw [getElem?_mark_of_not_mem (by omega), ← h.taken i]
      exact exists_congr fun range => and_congr_right fun _ => and_iff_left hi
  counted := by
    have hcnt := count_mark_true hrun.taken
    show s.allocator.freeSlots + numSlots = _
    rw [h.counted, giveBack, hcnt]
    push_cast
    rfl
  asked := by
    intro w hw
    obtain ⟨w', hw', rfl⟩ := mem_map.1 hw
    exact h.asked w' hw'
  waiting := by
    intro w hw hqt
    obtain ⟨w', hw', rfl⟩ := mem_map.1 hw
    cases hqt

theorem release_raised {offset numSlots : Int}
    (hresult : (s.allocator.release offset numSlots).2 ≠ none) :
    s.release offset numSlots = s := by
  obtain ⟨error, herror⟩ := ne_none_iff_exists'.1 hresult
  have hunchanged := release_unchanged hresult
  rw [SlotPool.release, ← Prod.eta (s.allocator.release offset numSlots), herror, hunchanged]

theorem release (h : SlotsKept s) (offset numSlots : Int) :
    SlotsKept (s.release offset numSlots) := by
  cases hresult : (s.allocator.release offset numSlots).2 with
  | some error =>
    rw [release_raised (by rw [hresult]; simp)]
    exact h
  | none =>
    obtain ⟨hrun, hoffset, hnum⟩ := taken_of_release h.length hresult
    have heq := release_taken h.sizePos hrun
    rw [← hoffset, ← hnum] at heq
    have hpool := h.gives hrun
    rw [SlotPool.release, heq]
    exact hpool

theorem step (h : SlotsKept s) {event : SlotEvent} {t : SlotPool}
    (hstep : poolStep s event = some t) : SlotsKept t := by
  cases event with
  | acquire numSlots captureLayout =>
    rw [poolStep] at hstep
    cases hcall : s.allocator.acquireCall numSlots captureLayout with
    | error _ =>
      rw [hcall] at hstep
      cases hstep
      exact h
    | ok call =>
      rw [hcall] at hstep
      cases hstep
      exact h.attempt (acquireCall_pos hcall)
  | resume k =>
    rw [poolStep] at hstep
    cases hw : s.waiters[k]? with
    | none =>
      rw [hw] at hstep
      cases hstep
    | some w =>
      rw [hw] at hstep
      cases (of_guard hstep).2
      exact (h.dropped k).attempt (h.asked w (mem_of_getElem? hw))
  | cancel k =>
    cases (of_guard hstep).2
    exact h.dropped k
  | release offset numSlots =>
    cases hstep
    exact h.release offset numSlots

end SlotsKept

/-! ## All runs -/

/-- A release is accepted for a run of slots that are all allocated, and for nothing else. -/
theorem SlotsKept.release_iff {s : SlotPool} (h : SlotsKept s) (offset numSlots : Int) :
    (s.allocator.release offset numSlots).2 = none ↔
      ∃ slotIndex n : Nat, 0 < n ∧ numSlots = n ∧ offset = (slotIndex * s.allocator.slotSize : Nat) ∧
        ∀ i ∈ List.range' slotIndex n, s.Allocated i := by
  constructor
  · intro hresult
    obtain ⟨hrun, hoffset, hnum⟩ := taken_of_release h.length hresult
    refine ⟨_, _, hrun.pos, hnum, hoffset, ?_⟩
    intro i hi
    obtain ⟨hlow, hh⟩ := mem_range'_1.1 hi
    exact (h.taken i).2 (hrun.taken i hlow hh)
  · rintro ⟨slotIndex, n, hpos, rfl, rfl, hall⟩
    have htaken : All s.allocator.free slotIndex n false := fun i hlow hh =>
      (h.taken i).1 (hall i (mem_range'_1.2 ⟨hlow, hh⟩))
    have hlast := h.inPool (hall (slotIndex + (n - 1)) (mem_range'_1.2 (by omega)))
    rw [release_taken h.sizePos ⟨hpos, by omega, htaken⟩]

/-- In every order of calls, wake-ups, cancellations and releases: allocated ranges share no slot
    and lie in the pool, the free count is the number of free slots, an allocation is the first
    fit, what is not allocated is not released, and a call that waits unwoken cannot be met. -/
theorem slots_never_shared (s : SlotPool) (h : poolSystem.Reachable s) :
    s.held.Pairwise List.Disjoint ∧
    (∀ range ∈ s.held, ∀ i ∈ range, i < s.allocator.slotCount) ∧
    (∀ i, s.Allocated i ↔ s.allocator.free[i]? = some false) ∧
    s.allocator.freeSlots = s.allocator.free.count true ∧
    (∀ call allocation, 0 < call.numSlots →
      (s.allocator.attempt call).2 = .allocated allocation →
      ∃ slotIndex, FirstFit s.allocator.free slotIndex call.numSlots ∧
        allocation.offset = slotIndex * s.allocator.slotSize ∧
        (s.attempt call).held = List.range' slotIndex call.numSlots :: s.held) ∧
    (∀ offset numSlots, (s.allocator.release offset numSlots).2 = none ↔
      ∃ slotIndex n : Nat, 0 < n ∧ numSlots = n ∧ offset = (slotIndex * s.allocator.slotSize : Nat) ∧
        ∀ i ∈ List.range' slotIndex n, s.Allocated i) ∧
    (∀ offset numSlots, (s.allocator.release offset numSlots).2 ≠ none →
      s.release offset numSlots = s) ∧
    (∀ w ∈ s.waiters, w.notified = false → s.Unsatisfiable w.call) := by
  have hkept : SlotsKept s := by
    refine h.invariant (P := SlotsKept) ?_ fun s event t hs hstep => hs.step hstep
    rintro s ⟨slotCount, slotSize, allocator, hnew, rfl⟩
    exact .ofNew hnew
  refine ⟨hkept.disjoint, ?_, hkept.taken, hkept.counted, ?_, hkept.release_iff,
    fun _ _ => SlotsKept.release_raised, hkept.waiting⟩
  · exact fun range hrange i hi => hkept.inPool ⟨range, hrange, hi⟩
  · intro call allocation hpos hresult
    obtain ⟨slotIndex, hfit, hoffset, heq⟩ := hkept.attempt_allocated hpos hresult
    exact ⟨slotIndex, hfit, hoffset, by rw [heq]⟩

/-- Two calls for four slots wait and a release wakes both: the first takes the slots, the second
    waits again and is cancelled. -/
theorem slots_never_shared_woken :
    ∃ s, poolSystem.Reachable s ∧ s.held = [[1, 2, 3, 4], [], [0]] ∧
      (∀ w ∈ s.waiters, w.notified = false → s.Unsatisfiable w.call) := by
  have hinit : poolSystem.Reachable { allocator := ⟨5, 8, List.replicate 5 true, 5, true⟩ } :=
    .init ⟨5, 8, _, rfl, rfl⟩
  have hrun : System.exec poolStep { allocator := ⟨5, 8, List.replicate 5 true, 5, true⟩ }
      [.acquire 1 false, .acquire 2 false, .acquire 4 false, .acquire 4 true, .release 8 2,
        .resume 0, .resume 0, .acquire 1 false, .cancel 0] = some _ := rfl
  have hreached := hinit.of_exec hrun
  exact ⟨_, hreached, rfl, (slots_never_shared _ hreached).2.2.2.2.2.2.2⟩

end OmniRealtime
