import OmniRealtime.Vision.BatchAdapter
import OmniRealtime.Vision.DecodeAllocation
import OmniRealtime.Vision.WindowRound

/-!
# A live realtime request

One request of the MOSS-VL realtime scheduler over all its steps: the forwards of its prompt,
segment extends, decode steps that may run ahead, parking, window rounds, and its end. The parts
are those of the other modules; here are the capacity guard of an extend, what `post_prefill` and
`post_decode` do to the lengths and the accounting, and the usage that a step reports.
Upstream's allocation puts the slots of an extend behind its token prefix and records the end of
the extend. A step that raises aborts the request.
-/

namespace OmniRealtime

/-! ## Accounting -/

inductive AccountingError
  | commitFrozen
  | negative
  | outputFrozen
  | noStep
  deriving DecidableEq, Repr

def AccountingError.message : AccountingError → String
  | .commitFrozen => "cannot commit positions after accounting finalization"
  | .negative => "negative committed position increment"
  | .outputFrozen => "cannot record output after accounting finalization"
  | .noStep => "sampled output has no committed model step"

/-- `RealtimeAccounting`, its counters. -/
structure RealtimeAccounting where
  vision : Int := 0
  textInput : Int := 0
  textOutput : Int := 0
  step : Nat := 0
  outputStep : Nat := 0
  frozen : Bool := false
  deriving DecidableEq, Repr

namespace RealtimeAccounting

variable (a : RealtimeAccounting)

def commit (vision textInput : Int) : Except AccountingError RealtimeAccounting :=
  if a.frozen then .error .commitFrozen
  else if vision < 0 ∨ textInput < 0 then .error .negative
  else
    .ok { a with
      vision := a.vision + vision, textInput := a.textInput + textInput, step := a.step + 1 }

def sampled : Except AccountingError RealtimeAccounting :=
  if a.frozen then .error .outputFrozen
  else if a.step = 0 then .error .noStep
  else if a.outputStep ≠ a.step then
    .ok { a with textOutput := a.textOutput + 1, outputStep := a.step }
  else .ok a

def totalTokens : Int := a.vision + (a.textInput + a.textOutput)

def freeze : RealtimeAccounting := { a with frozen := true }

end RealtimeAccounting

/-! ## Sessions -/

/-- The accounting's total and the session usage of one streamed step. -/
structure UsageReport where
  totalTokens : Option Int
  decoderTokens : Nat
  encoderTokens : Nat
  encoderKvTokens : Nat
  tokenSpaceUsed : Nat
  deriving DecidableEq, Repr

inductive LiveError
  | contextExhausted (message : String)
  | segment (error : SegmentError)
  | adapter (error : AdapterError)
  | accounting (error : AccountingError)
  | window (error : WindowError)
  deriving DecidableEq

/-- The request with its runtime state, its page table and its accounting, if it asked for one.
    `launched` counts the decode steps that are not resolved, `writes` lists the ends of what was
    written to its row. -/
structure LiveSession (τ P : Type) where
  req : SegmentReq τ
  state : AppendState τ
  table : ReqToToken
  kvPool : P
  accounting : Option RealtimeAccounting := none
  prefilled : Bool := false
  parked : Bool := false
  finished : Bool := false
  closed : Bool := false
  launched : Nat := 0
  writes : List Nat := []
  reports : List UsageReport := []

/-- New slots of a row, from `start` on. -/
def ReqToToken.splice (t : ReqToToken) (i start : Nat) (slots : List Int) : ReqToToken :=
  { t with
    rows := t.rows.modify i fun row => row.mapIdx fun k v =>
      if start ≤ k ∧ k < start + slots.length then slots.getD (k - start) 0 else v
    row_length := by
      intro row hrow
      obtain ⟨j, hj, rfl⟩ := List.getElem_of_mem hrow
      rw [List.getElem_modify]
      rw [List.length_modify] at hj
      split
      · rw [List.length_mapIdx]
        exact t.row_length _ (List.getElem_mem hj)
      · exact t.row_length _ (List.getElem_mem hj) }

namespace LiveSession

variable {τ P : Type} (s : LiveSession τ P)

def tokenTotal : Nat := s.state.effectiveAppendedEncoderLength + s.state.decoderLength

def kvTotal : Nat := s.state.encoderLength + s.state.decoderLength

def allocated : Nat := s.req.kvAllocatedLen.getD 0

/-- `state.context_limit or row_width`. -/
def contextLimit : Nat := (s.state.contextLimit.filter (0 < ·)).getD s.table.width

def tokenCount : Nat := s.req.originInputIds.length + s.req.outputIds.length

/-- The request as the decode path has it. -/
def decodeReq : DecodeReq τ where
  req := s.req.toRealtimeReq
  state := s.state
  parked := s.parked
  finished := s.finished

def putDecode (d : DecodeReq τ) : LiveSession τ P :=
  { s with req := { s.req with toRealtimeReq := d.req }, state := d.state }

def extendRequest : ExtendRequest τ where
  req := s.req.toRealtimeReq
  state := s.state.toMossVLRealtimeRuntimeState

def putExtend (t : ReqToToken) (r : ExtendRequest τ) : LiveSession τ P :=
  { s with
    table := t
    req := { s.req with toRealtimeReq := r.req }
    state := { s.state with toMossVLRealtimeRuntimeState := r.state } }

/-! ## Guards -/

def guardContextCapacity (segment : MossVLRealtimeSegment) : Except LiveError Unit :=
  let projectedKv := s.kvTotal + segment.rawAppendIds.length + 1
  let projectedTotal := s.tokenTotal + segment.rawAppendIds.length + 2
  if s.contextLimit < projectedTotal ∨ s.table.width < projectedKv then
    .error (.contextExhausted ("realtime request exhausted the context length: " ++
      s!"projected token positions {projectedTotal}/{s.contextLimit}, " ++
      s!"KV positions {projectedKv}/{s.table.width}; " ++
      "the session cannot accept more input and must end"))
  else .ok ()

/-! ## Results of a step -/

/-- What one forward adds to the accounting. -/
def commitAccounting (vision textInput : Int) : Except LiveError (LiveSession τ P) :=
  match s.accounting with
  | none => .ok s
  | some a => do
    let a ← (a.commit vision textInput).mapError .accounting
    .ok { s with accounting := some a }

/-- The stream output builder, up to the text: a token was sampled. -/
def emit : Except LiveError (LiveSession τ P) := do
  let accounting ← match s.accounting with
    | none => pure none
    | some a => (a.sampled.map some).mapError .accounting
  let decoderTokens := s.state.decoderLength + 1
  .ok { s with
    accounting := accounting
    reports := s.reports ++ [
      { totalTokens := accounting.map RealtimeAccounting.totalTokens
        decoderTokens := decoderTokens
        encoderTokens := s.state.effectiveAppendedEncoderLength
        encoderKvTokens := s.state.encoderLength
        tokenSpaceUsed := s.state.effectiveAppendedEncoderLength + decoderTokens }] }

/-- Upstream appends the sampled token to the request. -/
def appendToken (token : Int) : LiveSession τ P :=
  { s with req := { s.req with outputIds := s.req.outputIds ++ [token] } }

/-- The first result of a request binds its row; `seqLen` is where that forward ended. -/
def bindPrefill (seqLen : Nat) : LiveSession τ P :=
  match s.state.reqPoolIndex with
  | some _ => s
  | none =>
    { s with state := { s.state with
        reqPoolIndex := s.req.reqPoolIdx
        decoderLength := seqLen
        nextMropePosition := seqLen
        phase := .decoding } }

/-- What was staged with the segment becomes the state's. -/
def takeStaged : LiveSession τ P :=
  { s with
    state := { s.state with
      pendingTokenId := none
      turnId := (s.req.staged.bind fun _ => s.req.stagedTurnTransition.map
        TurnTransition.turnId).getD s.state.turnId
      visibleFrameCounts := (s.req.staged.map fun st => st.visibleFrameCounts).or
        s.state.visibleFrameCounts
      fullGridThw := (s.req.staged.map fun st => st.fullGridThw).or s.state.fullGridThw
      frameRecords := match s.req.stagedFrameRecords with
        | none => s.state.frameRecords
        | some staged => some (s.state.frameRecords.getD [] ++ staged) }
    req := { s.req with
      previous := none
      staged := none
      stagedFrameRecords := none
      stagedTurnTransition := if s.req.staged.isSome then none else s.req.stagedTurnTransition } }

/-- `post_prefill` past the commit of the batch; `before` is the request as it was. -/
def postPrefill (before : LiveSession τ P) (seqLen : Nat) : Except LiveError (LiveSession τ P) :=
  let s' := (s.bindPrefill seqLen).takeStaged
  let pending : Int := if before.state.pendingTokenId.isSome then 1 else 0
  s'.commitAccounting
    (s'.state.effectiveAppendedEncoderLength - before.state.effectiveAppendedEncoderLength)
    (s'.state.decoderLength - before.state.decoderLength - pending)

/-! ## Steps -/

/-- Upstream's allocation for a forward over more of the prompt. -/
def allocForPrompt (i : Nat) (slots : List Int) : LiveSession τ P :=
  { s with
    table := s.table.splice i s.allocated slots
    writes := s.writes ++ [s.allocated + slots.length]
    req := { s.req with
      toRealtimeReq := { s.req.toRealtimeReq with
        reqPoolIdx := some i
        kvAllocatedLen := some (s.allocated + slots.length)
        kvCommittedLen := some (s.allocated + slots.length) } } }

/-- A forward over the next tokens of the prompt, all of them where it is not chunked. The token
    sampled by the last one is kept. -/
def prefill (i : Nat) (slots : List Int) (token : Int) : Except LiveError (LiveSession τ P) := do
  let seqLen := s.allocated + slots.length
  let s ← (← (s.allocForPrompt i slots).postPrefill s seqLen).emit
  if seqLen = s.req.originInputIds.length then .ok { s.appendToken token with prefilled := true }
  else .ok s

/-- The part of `_materialize_realtime_extensions` before the batch: the segment is guarded and
    appended, with its frame records where the window is on. -/
def materialize (refresh : List Int → List Int → List Int) (segment : MossVLRealtimeSegment)
    (records : Option (List (RealtimeFrameRecord τ))) : Except LiveError (LiveSession τ P) := do
  s.guardContextCapacity segment
  let bound := { s.req with pageRow := s.table.row (s.req.reqPoolIdx.getD 0) }
  let (req, state) ← (appendSegmentToRequest refresh bound s.state segment).mapError .segment
  .ok { s with
    req := match records with
      | none => req
      | some records => req.stageFrameRecords records
    state := state }

/-- Upstream's allocation for an extend. -/
def allocForExtend (slots : List Int) : LiveSession τ P :=
  { s with
    table := s.table.splice (s.req.reqPoolIdx.getD 0) s.req.extendStart slots
    writes := s.writes ++ [s.req.extendStart + slots.length]
    req := { s.req with
      toRealtimeReq := { s.req.toRealtimeReq with
        kvAllocatedLen := some s.req.extendEnd, kvCommittedLen := some s.req.extendEnd } } }

/-- The batch of one appended request, prepared and committed. -/
def runExtend (slots : List Int) : Except LiveError (LiveSession τ P) := do
  let allocated := s.allocForExtend slots
  let prepared := prepareExtend
    { reqs := [allocated.extendRequest], reqToToken := allocated.table, outCacheLoc := slots }
    [s.req.fullUntruncatedFillIds.drop s.req.extendStart] [s.req.extendEnd]
  prepared.2.mapError .adapter
  let committed := commitBatch prepared.1
  committed.2.mapError .adapter
  match committed.1.reqs with
  | [r] => .ok (allocated.putExtend committed.1.reqToToken r)
  | _ => .ok allocated

def extend (refresh : List Int → List Int → List Int) (segment : MossVLRealtimeSegment)
    (records : Option (List (RealtimeFrameRecord τ))) (slots : List Int) (token : Int) :
    Except LiveError (LiveSession τ P) := do
  let appended ← s.materialize refresh segment records
  let committed ← appended.runExtend slots
  let s ← (← committed.postPrefill appended committed.state.decoderLength).emit
  .ok { s.appendToken token with
    parked := false
    writes := s.writes ++ [s.kvTotal] }

/-- `prepare_for_decode`, after its guard. -/
def launch (slot : Int) : Except LiveError (LiveSession τ P) :=
  match s.decodeReq.capacityError s.table.width with
  | some message => .error (.contextExhausted message)
  | none =>
    .ok { s.putDecode s.decodeReq.moveOn with
      table := s.table.splice (s.req.reqPoolIdx.getD 0) s.allocated [slot]
      writes := s.writes ++ [s.allocated + 1]
      launched := s.launched + 1 }

/-- `post_decode`, or `post_decode_resolve` of a step that ran ahead. -/
def postDecode (lookahead : Bool) : Except LiveError (LiveSession τ P) :=
  if s.decodeReq.advances lookahead then
    let moved := s.putDecode s.decodeReq.advance
    if moved.accounting.any (·.frozen) then .ok moved else moved.commitAccounting 0 0
  else .ok s

/-- `_resolve_and_process`: nothing is streamed or kept of a request that has finished or parked,
    and the slot of a parked one is given back unless `keepsSlot`. -/
def resolve (token : Int) (lookahead keepsSlot : Bool) : Except LiveError (LiveSession τ P) := do
  let resolved ← { s with launched := s.launched - 1 : LiveSession τ P }.postDecode lookahead
  if s.parked then
    .ok (if s.finished || keepsSlot then resolved
      else resolved.putDecode resolved.decodeReq.trimOverrun)
  else if s.finished then .ok resolved
  else
    let emitted ← resolved.emit
    .ok (emitted.appendToken token)

/-- `_park_silent_requests`. -/
def park : LiveSession τ P :=
  { s with parked := true, state := { s.state with phase := .waitingForEvent } }

/-- `_evaluate_frame_window`, for one request. -/
def evict [Zero τ] [Sub τ] [LT τ] [DecidableLT τ] (config : RealtimeFrameWindowConfig τ)
    (env : WindowEnv P) : Except LiveError (LiveSession τ P) := do
  let records := s.state.frameRecords.getD []
  match ← (planFrameWindow records config).mapError .window with
  | none => .ok s
  | some plan =>
    let world : WindowWorld τ P :=
      { reqToToken := s.table, state := s.state.toMossVLRealtimeRuntimeState
        req := s.req.toRealtimeReq, kvPool := s.kvPool }
    let round := applyFrameWindowPlan env plan records world
    (round.2.map fun _ => ()).mapError .window
    .ok { s with
      table := round.1.reqToToken
      state := { s.state with toMossVLRealtimeRuntimeState := round.1.state }
      req := { s.req with toRealtimeReq := round.1.req }
      kvPool := round.1.kvPool
      writes := s.writes ++ [round.1.state.committedLength] }

/-- The request has finished: its counters are frozen. -/
def finish : LiveSession τ P :=
  { s with
    finished := true, parked := false, accounting := s.accounting.map RealtimeAccounting.freeze }

def abort : LiveSession τ P :=
  { s with
    closed := true, parked := false
    state := { s.state with phase := .aborted }
    accounting := s.accounting.map RealtimeAccounting.freeze }

end LiveSession

/-! ## Runs -/

inductive LiveOp (τ P : Type) [Zero τ] [LT τ]
  | prefill (row : Nat) (slots : List Int) (token : Int)
  | extend (segment : MossVLRealtimeSegment) (records : Option (List (RealtimeFrameRecord τ)))
      (slots : List Int) (token : Int)
  | launch (slot : Int)
  | resolve (token : Int) (lookahead keepsSlot : Bool)
  | park
  | evict (config : RealtimeFrameWindowConfig τ) (env : WindowEnv P)
  | finish
  | abort

namespace LiveSession

variable {τ P : Type} [Zero τ] [Sub τ] [LT τ] [DecidableLT τ]
variable (refresh : List Int → List Int → List Int) (s : LiveSession τ P)

def step : LiveOp τ P → Except LiveError (LiveSession τ P)
  | .prefill row slots token => s.prefill row slots token
  | .extend segment records slots token => s.extend refresh segment records slots token
  | .launch slot => s.launch slot
  | .resolve token lookahead keepsSlot => s.resolve token lookahead keepsSlot
  | .park => .ok s.park
  | .evict config env => s.evict config env
  | .finish => .ok s.finish
  | .abort => .ok s.abort

/-- The ends of what upstream has written for a step that raises. -/
def attempted : LiveOp τ P → List Nat
  | .prefill _ slots _ => [s.allocated + slots.length]
  | .extend segment records slots _ =>
    match s.materialize refresh segment records with
    | .ok appended => [appended.req.extendStart + slots.length]
    | .error _ => []
  | _ => []

def apply (op : LiveOp τ P) : LiveSession τ P :=
  match s.step refresh op with
  | .ok s' => s'
  | .error _ => { s.abort with writes := s.writes ++ s.attempted refresh op }

/-- What the scheduler keeps to: the prompt is forwarded first, extends, window rounds and aborts
    wait for the steps that run ahead, no more than two of which are out, and a parked or finished
    request is in no new decode step. -/
def Enabled : LiveOp τ P → Prop
  | .prefill row slots _ => s.closed = false ∧ s.prefilled = false ∧ slots ≠ [] ∧
      (s.req.reqPoolIdx = none ∨ s.req.reqPoolIdx = some row) ∧
      s.allocated + slots.length ≤ s.req.originInputIds.length
  | .extend segment _ slots _ => s.closed = false ∧ s.prefilled = true ∧ s.finished = false ∧
      s.launched = 0 ∧ slots.length = segment.rawAppendIds.length + 1
  | .launch _ => s.closed = false ∧ s.prefilled = true ∧ s.finished = false ∧ s.parked = false ∧
      s.launched ≤ 1
  | .resolve _ lookahead _ => s.closed = false ∧ 0 < s.launched ∧
      (lookahead = false → s.parked = false ∧ s.finished = false ∧ s.launched = 1)
  | .park => s.closed = false ∧ s.prefilled = true ∧ s.finished = false ∧ s.launched ≤ 1
  | .evict _ _ => s.closed = false ∧ s.prefilled = true ∧ s.finished = false ∧ s.launched = 0
  | .finish => s.closed = false ∧ s.prefilled = true ∧ s.parked = false ∧ s.launched ≤ 1
  | .abort => s.closed = false ∧ s.launched = 0

/-- A request as it is admitted: nothing of it is allocated, and its prompt and one more token are
    within the context. -/
structure Admitted : Prop where
  fresh : s.req.reqPoolIdx = none ∧ s.req.kvAllocatedLen = none ∧ s.req.outputIds = [] ∧
    s.req.previous = none ∧ s.req.staged = none ∧ s.req.stagedFrameRecords = none
  state : s.state.reqPoolIndex = none ∧ s.state.encoderLength = 0 ∧ s.state.decoderLength = 0 ∧
    s.state.appendedEncoderLength = none ∧ s.state.pendingTokenId = none ∧
    s.state.frameRecords = none
  flags : s.prefilled = false ∧ s.parked = false ∧ s.finished = false ∧ s.closed = false ∧
    s.launched = 0 ∧ s.writes = [] ∧ s.reports = []
  accounting : ∀ a, s.accounting = some a → a = {}
  prompt : s.req.originInputIds.length + 1 ≤ s.contextLimit

end LiveSession

/-- The runs of one admitted request. -/
def liveSystem {τ P : Type} [Zero τ] [Sub τ] [LT τ] [DecidableLT τ]
    (refresh : List Int → List Int → List Int) : System (LiveSession τ P) (LiveOp τ P) :=
  (System.ofFun LiveSession.Admitted fun s op => some (s.apply refresh op)).restrict
    LiveSession.Enabled

end OmniRealtime
