import OmniRealtime.Lib.StepLedger
import OmniRealtime.Lib.System
import OmniRealtime.Vision.SegmentAppend

/-!
# Decode allocations

The decode path of `batch_adapter.py` and the parked-overrun handling of `scheduler.py`. Each
decode step takes one slot for each request of a batch; the record of the step is shared by the
batch and its copies, and the step is committed, rolled back, or resolved after some of its
requests have parked. The row of the page table a request's pool index names is kept with the
request. Upstream's `prepare_for_decode` is a parameter: it writes the slot of a request at its
allocated length and moves its two lengths on by one, and it may raise before or after.

`DecodeState.apply` is one call, `DecodeState.Guard` what its caller keeps to.
-/

namespace OmniRealtime

/-! ## Requests, records and batches -/

structure DecodeReq (τ : Type) where
  req : RealtimeReq
  state : AppendState τ
  row : Nat → Int := fun _ => 0
  parked : Bool := false
  finished : Bool := false
  isRetracted : Bool := false

/-- What `_DecodeAllocation` keeps of one request. -/
structure DecodeRow where
  req : Nat
  position : Nat
  committedLength : Nat
  poolIndex : Nat
  deriving DecidableEq, Repr

/-- `_DecodeAllocation`, its four tuples as one list of rows. -/
structure DecodeAllocation where
  rows : List DecodeRow
  slots : Option (List Int) := none
  committed : Bool := false
  released : Bool := false
  deriving DecidableEq, Repr

/-- Neither committed nor released. -/
def DecodeAllocation.isOpen (a : DecodeAllocation) : Bool := !a.committed && !a.released

theorem map_req_zip {rows : List DecodeRow} {slots : List Int}
    (hlen : slots.length = rows.length) :
    (rows.zip slots).map (·.1.req) = rows.map (·.req) := by
  have hfst := List.map_fst_zip hlen.ge
  calc (rows.zip slots).map (·.1.req) = ((rows.zip slots).map Prod.fst).map (·.req) :=
        List.map_map.symm
    _ = rows.map (·.req) := by rw [hfst]

theorem DecodeAllocation.isOpen_iff {a : DecodeAllocation} :
    a.isOpen = true ↔ (a.committed || a.released) = false := by
  simp [DecodeAllocation.isOpen]

theorem DecodeAllocation.isOpen_commit (a : DecodeAllocation) :
    ({ a with committed := true } : DecodeAllocation).isOpen = false := rfl

theorem DecodeAllocation.isOpen_release (a : DecodeAllocation) :
    ({ a with released := true } : DecodeAllocation).isOpen = false := by
  simp [DecodeAllocation.isOpen]

/-- A batch object: its requests, the record it carries, and its `out_cache_loc`. -/
structure DecodeBatch where
  reqs : List Nat := []
  record : Option Nat := none
  outCacheLoc : Option (List Int) := none
  deriving DecidableEq, Repr

/-- A slot given to the allocator, with the step and the request it was taken for. -/
structure StepSlot where
  step : Nat
  req : Nat
  slot : Int
  deriving DecidableEq, Repr

def StepSlot.key (e : StepSlot) : Nat × Nat := (e.step, e.req)

/-- Requests, batches and records by object identity, the width of the page table, and what has
    been given back and kept so far. -/
structure DecodeState (τ : Type) where
  req : Nat → DecodeReq τ
  batch : Nat → DecodeBatch := fun _ => {}
  record : Nat → Option DecodeAllocation := fun _ => none
  nextRecord : Nat := 0
  width : Nat
  pageSize : Nat := 1
  disableRadixCache : Bool := false
  freed : List StepSlot := []
  kept : List (Nat × Nat) := []

inductive DecodeError
  | contextExhausted (message : String)
  | noKv
  | upstream
  | newerAllocation
  deriving DecidableEq, Repr

def DecodeError.message : DecodeError → String
  | .contextExhausted message => message
  | .noKv => "'NoneType' object has no attribute 'kv_allocated_len'"
  | .upstream => "prepare_for_decode failed"
  | .newerAllocation => "resolve newer decode allocations before rolling back this step"

/-- What upstream's `prepare_for_decode` does: succeed with these slots, raise before it has
    allocated any, or raise with the slots written and the first `moved` requests moved on. -/
inductive UpstreamDecode
  | done (slots : List Int)
  | raisesBefore
  | raisesAfter (slots : List Int) (moved : Nat)
  deriving DecidableEq, Repr

section Decode

variable {τ : Type}

namespace DecodeReq

variable (r : DecodeReq τ)

def committedTotal : Nat := r.state.encoderLength + r.state.decoderLength

/-- `realtime_decode_capacity_error`. -/
def capacityError (width : Nat) : Option String :=
  let limit := (r.state.contextLimit.filter (0 < ·)).getD width
  let allocated := max r.committedTotal (r.req.kvAllocatedLen.getD r.committedTotal)
  let logical := r.state.effectiveAppendedEncoderLength + allocated - r.state.encoderLength
  if width < allocated + 1 ∨ limit < logical + 2 then
    some ("realtime request exhausted the context length before decode: " ++
      s!"projected token positions {logical + 2}/{limit}, " ++
      s!"KV positions {allocated + 1}/{width}")
  else none

/-- The row of a new record, none for a request without KV. -/
def decodeRow (id : Nat) : Option DecodeRow :=
  match r.req.kvAllocatedLen, r.req.kvCommittedLen, r.req.reqPoolIdx with
  | some position, some committedLength, some poolIndex =>
    some ⟨id, position, committedLength, poolIndex⟩
  | _, _, _ => none

def write (position : Nat) (slot : Int) : DecodeReq τ :=
  { r with row := Function.update r.row position slot }

def setLengths (allocated committed : Option Nat) : DecodeReq τ :=
  { r with req := { r.req with kvAllocatedLen := allocated, kvCommittedLen := committed } }

def moveOn : DecodeReq τ :=
  r.setLengths (r.req.kvAllocatedLen.map (· + 1)) (r.req.kvCommittedLen.map (· + 1))

/-- The two lengths and the cell of a rolled back row. -/
def restore (row : DecodeRow) : DecodeReq τ :=
  (r.setLengths (some row.position) (some row.committedLength)).write row.position 0

/-- One decoded token. -/
def advance : DecodeReq τ :=
  { r with
    state :=
      { r.state with
        decoderLength := r.state.decoderLength + 1
        nextMropePosition := r.state.nextMropePosition + 1
        phase := .decoding } }

/-- What a parked request is left with once its overrun slot is given back. -/
def trimOverrun : DecodeReq τ :=
  if r.state.reqPoolIndex = none then r
  else
    (r.setLengths (r.req.kvAllocatedLen.map (min · r.committedTotal))
      (r.req.kvCommittedLen.map (min · r.committedTotal))).write r.committedTotal 0

/-- Whether a resolved step moves the request on; a waiting one only where it is not a result of
    the lookahead. -/
def advances (resolved : Bool) : Bool :=
  match r.state.phase with
  | .finished | .aborted => false
  | .waitingForEvent => !resolved
  | _ => true

/-- The rows `_resolve_and_process` gives the slot back of. -/
def overruns : Bool := r.parked && !r.finished && !r.isRetracted

end DecodeReq

namespace DecodeState

variable (s : DecodeState τ)

def setBatch (b : Nat) (batch : DecodeBatch) : DecodeState τ :=
  { s with batch := Function.update s.batch b batch }

def setRecord (k : Nat) (record : DecodeAllocation) : DecodeState τ :=
  { s with record := Function.update s.record k (some record) }

def setReq (r : Nat) (req : DecodeReq τ) : DecodeState τ :=
  { s with req := Function.update s.req r req }

/-! ## Rolling back -/

/-- Whether a rollback through a batch of the requests `active` takes the row back. -/
def restorable (active : List Nat) (row : DecodeRow) : Bool :=
  let r := s.req row.req
  active.contains row.req && r.req.reqPoolIdx = some row.poolIndex &&
    r.req.kvAllocatedLen.isSome && r.committedTotal ≤ row.position

/-- A step prepared later still holds a slot behind this row. -/
def hasNewer (row : DecodeRow) : Bool :=
  row.position + 1 < (s.req row.req).req.kvAllocatedLen.getD 0

def rollbackRecord (active : List Nat) (k : Nat) (a : DecodeAllocation) :
    DecodeState τ × Option DecodeError :=
  if a.committed || a.released then (s, none)
  else
    match a.slots with
    | none => (s.setRecord k { a with released := true }, none)
    | some slots =>
      if a.rows.any fun row => s.restorable active row && s.hasNewer row then
        (s, some .newerAllocation)
      else
        let rows := (a.rows.zip slots).filter fun e => s.restorable active e.1
        ({ s with
            req := updateEach (·.1.req) (fun e r => r.restore e.1) rows s.req
            record := Function.update s.record k (some { a with released := true })
            freed := s.freed ++ rows.map fun e => ⟨k, e.1.req, e.2⟩ }, none)

/-- `rollback_moss_vl_realtime_batch` on a batch with the record of a decode step. -/
def rollback (b : Nat) : DecodeState τ × Option DecodeError :=
  match (s.batch b).record with
  | none => (s, none)
  | some k =>
    match s.record k with
    | none => (s, none)
    | some a => s.rollbackRecord (s.batch b).reqs k a

/-! ## Preparing and committing -/

/-- The slots written, and the first `moved` requests moved on. -/
def upstreamDecode (rows : List DecodeRow) (slots : List Int) (moved : Nat) : DecodeState τ :=
  { s with
    req := updateEach (·.req) (fun _ r => r.moveOn) (rows.take moved)
      (updateEach (·.1.req) (fun e r => r.write e.1.position e.2) (rows.zip slots) s.req) }

/-- `prepare_for_decode`, with what it raises. -/
def prepareForDecode (b : Nat) (upstream : UpstreamDecode) :
    DecodeState τ × Option DecodeError :=
  let reqs := (s.batch b).reqs
  match reqs.findSome? fun r => (s.req r).capacityError s.width with
  | some message => (s, some (.contextExhausted message))
  | none =>
    match reqs.mapM fun r => (s.req r).decodeRow r with
    | none => (s, some .noKv)
    | some rows =>
      let k := s.nextRecord
      -- `_begin_allocation` takes the record of an earlier step off the batch
      let begun := ({ s with nextRecord := k + 1 }.setRecord k { rows := rows }).setBatch b
        { reqs := reqs, record := some k, outCacheLoc := none }
      let allocated (slots : List Int) (moved : Nat) : DecodeState τ :=
        ((begun.upstreamDecode rows slots moved).setBatch b
          { reqs := reqs, record := some k, outCacheLoc := some slots }).setRecord k
            { rows := rows, slots := some slots }
      match upstream with
      | .done slots => (allocated slots rows.length, none)
      | .raisesBefore =>
        let undone := begun.rollback b
        (undone.1, some (undone.2.getD .upstream))
      | .raisesAfter slots moved =>
        let undone := (allocated slots moved).rollback b
        (undone.1, some (undone.2.getD .upstream))

/-- `commit_moss_vl_realtime_decode`. -/
def commitDecode (b : Nat) : DecodeState τ :=
  match (s.batch b).record with
  | none => s
  | some k =>
    match s.record k with
    | none => s
    | some a => s.setRecord k { a with committed := true }

/-- `post_decode`, and `post_decode_resolve` of a step that ran ahead. -/
def postDecode (resolved : Bool) (b : Nat) : DecodeState τ :=
  let advanced := (s.batch b).reqs.filter fun r => (s.req r).advances resolved
  ({ s with
    req := updateEach id (fun _ r => r.advance) advanced s.req
    kept := s.kept ++ (((s.batch b).record.map fun k => advanced.map (k, ·)).getD []) }).commitDecode b

/-! ## Parked overruns -/

/-- `_free_parked_overrun_step_slots`. -/
def freeParkedOverrun (b : Nat) (dropped : List Nat) : DecodeState τ :=
  if dropped = [] ∨ s.pageSize ≠ 1 ∨ s.disableRadixCache then s
  else
    match (s.batch b).outCacheLoc with
    | none => s
    | some slots =>
      { s with
        req := updateEach id (fun _ r => r.trimOverrun) dropped s.req
        freed := s.freed ++ (((s.batch b).reqs.zip slots).filter fun e => dropped.contains e.1).map
          fun e => ⟨(s.batch b).record.getD 0, e.1, e.2⟩ }

/-- `_resolve_and_process`: what is dropped is decided before the step is resolved. -/
def resolve (b : Nat) : DecodeState τ :=
  let reqs := (s.batch b).reqs
  let dropped := reqs.filter fun r => (s.req r).overruns
  let keep := reqs.filter fun r =>
    !((s.req r).finished || (s.req r).isRetracted || (s.req r).parked)
  let t := (s.postDecode true b).freeParkedOverrun b dropped
  t.setBatch b { t.batch b with reqs := keep }

/-- `mark_waiting` and the dict of parked requests. -/
def park (r : Nat) : DecodeState τ :=
  s.setReq r
    { s.req r with
      parked := true
      state := { (s.req r).state with phase := .waitingForEvent } }

/-- A committed extend: the request is awake, and its row holds exactly these slots. -/
def extend (r encoderLength : Nat) (slots : List Int) : DecodeState τ :=
  s.setReq r
    { s.req r with
      parked := false
      row := fun p => slots.getD p 0
      req :=
        { (s.req r).req with
          kvAllocatedLen := some slots.length
          kvCommittedLen := some slots.length }
      state :=
        { (s.req r).state with
          encoderLength := encoderLength
          decoderLength := slots.length - encoderLength
          phase := .decoding } }

/-- The request has ended; it is no longer parked. -/
def finish (r : Nat) : DecodeState τ :=
  s.setReq r
    { s.req r with
      parked := false
      finished := true
      state := { (s.req r).state with phase := .finished } }

/-- The release of a request takes its KV and its row away. -/
def teardown (r : Nat) : DecodeState τ :=
  s.setReq r
    { s.req r with req := { (s.req r).req with reqPoolIdx := none, kvAllocatedLen := none } }

end DecodeState

/-! ## Runs -/

/-- What the scheduler and the runner do to decode batches. -/
inductive DecodeOp
  | batch (b : Nat) (reqs : List Nat)
  | merge (b : Nat) (more : List Nat)
  | copy (b snapshot : Nat)
  | filter (b : Nat) (keep : List Nat)
  | prepare (b : Nat) (upstream : UpstreamDecode)
  | commit (b : Nat)
  | postDecode (b : Nat)
  | rollback (b : Nat)
  | resolve (b : Nat)
  | park (r : Nat)
  | extend (r encoderLength : Nat) (slots : List Int)
  | finish (r : Nat)
  | teardown (r : Nat)
  deriving DecidableEq, Repr

namespace DecodeState

variable (s : DecodeState τ)

def apply : DecodeOp → DecodeState τ
  | .batch b reqs => s.setBatch b { reqs := reqs }
  | .merge b more =>
    s.setBatch b { s.batch b with reqs := (s.batch b).reqs ++ more, outCacheLoc := none }
  | .copy b snapshot => s.setBatch snapshot (s.batch b)
  | .filter b keep =>
    s.setBatch b
      { s.batch b with reqs := (s.batch b).reqs.filter keep.contains, outCacheLoc := none }
  | .prepare b upstream => (s.prepareForDecode b upstream).1
  | .commit b => s.commitDecode b
  | .postDecode b => s.postDecode false b
  | .rollback b => (s.rollback b).1
  | .resolve b => s.resolve b
  | .park r => s.park r
  | .extend r encoderLength slots => s.extend r encoderLength slots
  | .finish r => s.finish r
  | .teardown r => s.teardown r

/-- The step of a batch's record has neither been committed nor released. -/
def openBatch (b : Nat) : Bool := ((s.batch b).record.bind s.record).any (·.isOpen)

/-- The request has a row in the open step `k`. -/
def openFor (k r : Nat) : Bool :=
  (s.record k).any fun a => a.isOpen && (a.rows.map (·.req)).contains r

/-- What the callers keep to: upstream gives one slot for each request; the result of a step comes
    once, and not for a step that was rolled back; no parked request is in a batch that does not
    run ahead, and one that runs ahead has no other step outstanding; extends wait for the steps
    of their request. Rollbacks, commits and copies are free. -/
def Guard : DecodeOp → Prop
  | .batch _ reqs => reqs.Nodup
  | .merge b more => ((s.batch b).reqs ++ more).Nodup ∧ s.openBatch b = false
  | .prepare b (.done slots) => slots.length = (s.batch b).reqs.length
  | .prepare b (.raisesAfter slots _) => slots.length = (s.batch b).reqs.length
  | .postDecode b =>
    s.openBatch b = true ∧ ∀ r ∈ (s.batch b).reqs, (s.req r).parked = false
  | .resolve b =>
    s.openBatch b = true ∧ ∀ r ∈ (s.batch b).reqs, (s.req r).overruns = true →
      (s.req r).req.kvAllocatedLen.getD 0 ≤ (s.req r).committedTotal + 1
  | .extend r encoderLength slots =>
    encoderLength ≤ slots.length ∧ ∀ k < s.nextRecord, s.openFor k r = false
  | _ => True

instance (op : DecodeOp) : Decidable (s.Guard op) := by
  unfold Guard
  split <;> infer_instance

/-- Nothing prepared yet, and no row has an entry behind what its request has allocated. -/
structure Initial : Prop where
  batch : ∀ b, s.batch b = {}
  record : ∀ k, s.record k = none
  freed : s.freed = []
  kept : s.kept = []
  allocated : ∀ r n, (s.req r).req.kvAllocatedLen = some n →
    (s.req r).committedTotal ≤ n ∧ ∀ p, n ≤ p → (s.req r).row p = 0
  parked : ∀ r, (s.req r).parked = true → (s.req r).state.phase = .waitingForEvent

end DecodeState

/-- The runs from a given state. -/
def decodeSystem (s₀ : DecodeState τ) : System (DecodeState τ) DecodeOp :=
  (System.ofFun (· = s₀) fun s op => some (s.apply op)).restrict DecodeState.Guard

end Decode

end OmniRealtime
