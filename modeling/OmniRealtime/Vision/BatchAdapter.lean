import OmniRealtime.Lib.OwnedPass
import OmniRealtime.Vision.RuntimeState

/-!
# Extend batches

`batch_adapter.py`, the extend path: upstream has allocated fresh slots and appended them to
the rows; the adapter splits them into encoder and decoder slots, begins one KV append for
each request, and installs the decoder-only lengths. A failure rolls the batch back. The
record of a decode allocation, which the extend path deletes, is left out; tensors that only
repeat a list on the device are the list.

Results:
1. `buildPlans_spec`, `beginAll_spec`: what the two loops have done wherever they stop.
2. `rollbackBatch_spec`: what a rollback restores from there.
3. `extend_batch_atomic`: a failed extend batch, rolled back any number of times.
-/

namespace OmniRealtime

open List ReqToToken

/-- What preparing, committing or rolling back a batch raises. -/
inductive AdapterError
  | notRealtime
  | misaligned
  | logprob
  | poolIndex
  | movedBackwards
  | noText
  | inputLength
  | prefixMismatch
  | corrupted (rows prefixes : List Nat) (encoderLength decoderLength rawExtendLength : Nat)
  | seqLen
  | slotsMisaligned
  | unclaimedTail
  | noMediaItem
  | noAddedFrames
  | pageSize
  | append (error : KvAppendError)
  deriving DecidableEq, Repr

def AdapterError.message : AdapterError → String
  | .notRealtime => "batch does not contain only MOSS-VL realtime requests"
  | .misaligned => "input_ids and seq_lens must be request aligned"
  | .logprob => "MOSS-VL realtime does not support prompt logprobs"
  | .poolIndex => "req_pool_idx must be an integer"
  | .movedBackwards => "total encoder length moved backwards"
  | .noText => "realtime extend must contain at least one text token"
  | .inputLength => "raw extend input length does not match request range"
  | .prefixMismatch => "cached prefix does not match committed realtime KV lengths"
  | .corrupted rows prefixes encoderLength decoderLength rawExtendLength =>
    "SGLang extend allocation corrupted the committed KV prefix " ++
      s!"(row_indices={rows}, prefix_indices={prefixes}, encoder_length={encoderLength}, " ++
      s!"decoder_length={decoderLength}, raw_extend_length={rawExtendLength})"
  | .seqLen => "raw sequence length is inconsistent with runtime state"
  | .slotsMisaligned => "allocated KV slots are not request aligned"
  | .unclaimedTail => "allocated KV slots contain an unclaimed tail"
  | .noMediaItem => "realtime extend with encoder slots has no media item"
  | .noAddedFrames => "realtime media item is missing the added-frame count"
  | .pageSize => "MOSS-VL realtime rollback requires page_size == 1"
  | .append error => error.message

/-! ## Requests and their plans -/

/-- A request with its runtime state and the transaction it carries. -/
structure ExtendRequest (τ : Type) where
  req : RealtimeReq
  state : MossVLRealtimeRuntimeState τ
  transaction : Option MossVLRealtimeKVAppendTransaction := none

open ExtendRequest

structure RealtimeExtendPlan where
  rawInputIds : List Int
  newEncoderSlots : List Int
  newDecoderSlots : List Int
  totalEncoderLength : Nat
  totalDecoderLength : Nat
  decoderExtendLength : Nat
  leadingDecoderLength : Nat
  deriving DecidableEq, Repr

section Adapter

variable {τ : Type}

namespace ExtendRequest

variable (r : ExtendRequest τ)

/-- The lengths and positions a failed append must leave as they were. -/
def lengths : Nat × Nat × Nat × Nat × Option Nat :=
  (r.state.encoderLength, r.state.decoderLength, r.state.survivingFrameCount,
    r.state.nextMropePosition, r.state.appendedEncoderLength)

/-- Initial text prefill on a cached prefix, which no realtime append has committed. -/
def AdoptsPrefix : Prop :=
  r.state.encoderLength = 0 ∧ r.state.decoderLength = 0 ∧ r.req.multimodalInputs = none ∧
    r.state.pendingTokenId = none ∧ 0 < r.req.prefixIndices.length

instance : Decidable r.AdoptsPrefix := by unfold AdoptsPrefix; infer_instance

/-- The bootstrap of `_build_plans`: the cached prefix becomes the committed one. -/
def adoptPrefix : ExtendRequest τ :=
  if r.AdoptsPrefix then
    { r with state := { r.state with
        decoderLength := r.req.prefixIndices.length
        nextMropePosition := r.req.prefixIndices.length } }
  else r

/-- `bind_req_pool_index` on the index of the scheduler's request. -/
def bindIndex : Except AdapterError (ExtendRequest τ) :=
  match r.req.reqPoolIdx with
  | none => .error .poolIndex
  | some i => do
    let state ← (r.state.bindReqPoolIndex i).mapError .append
    .ok { r with state := state }

def totalEncoderLength : Nat :=
  match r.req.multimodalInputs with
  | none => r.state.encoderLength
  | some mm => mm.numImageTokens.getD 0

end ExtendRequest

/-- The positions of a list that do not hold a slot, the first eight. -/
def invalidIndices (slots : List Int) : List Nat :=
  ((List.range slots.length).filter fun k => slots.getD k 0 ≤ 0).take 8

/-- `_build_plans`, past the bootstrap of a request. -/
def buildPlan (t : ReqToToken) (outCacheLoc : List Int) (r : ExtendRequest τ)
    (inputIds : List Int) (seqLen offset : Nat) : Except AdapterError RealtimeExtendPlan :=
  let s := r.state
  let encoderDelta := r.totalEncoderLength - s.encoderLength
  let rawExtend := r.req.extendEnd - r.req.extendStart
  let decoderExtend := rawExtend - encoderDelta
  let committedRow := (t.row (r.req.reqPoolIdx.getD 0)).take s.committedLength
  let newSlots := (outCacheLoc.drop offset).take rawExtend
  let leading := if s.pendingTokenId.isSome then 1 else 0
  if r.totalEncoderLength < s.encoderLength then .error .movedBackwards
  else if rawExtend ≤ encoderDelta then .error .noText
  else if inputIds.length ≠ rawExtend then .error .inputLength
  else if r.req.prefixIndices.length ≠ s.effectiveAppendedEncoderLength + s.decoderLength then
    .error .prefixMismatch
  else if committedRow.any (· ≤ 0) then
    .error (.corrupted (invalidIndices committedRow) (invalidIndices r.req.prefixIndices)
      s.encoderLength s.decoderLength rawExtend)
  else if seqLen ≠ s.effectiveAppendedEncoderLength + encoderDelta + s.decoderLength +
      decoderExtend then .error .seqLen
  else if newSlots.length ≠ rawExtend then .error .slotsMisaligned
  else
    .ok
      { rawInputIds := inputIds
        newEncoderSlots := (newSlots.drop leading).take encoderDelta
        newDecoderSlots := newSlots.take leading ++ newSlots.drop (leading + encoderDelta)
        totalEncoderLength := r.totalEncoderLength
        totalDecoderLength := s.decoderLength + decoderExtend
        decoderExtendLength := decoderExtend
        leadingDecoderLength := leading }

/-- The loop of `_build_plans`; the requests come back as far as it has changed them. -/
def buildPlans (t : ReqToToken) (outCacheLoc : List Int) :
    List (ExtendRequest τ) → List (List Int) → List Nat → Nat →
      List (ExtendRequest τ) × Except AdapterError (List RealtimeExtendPlan)
  | r :: rs, inputIds :: inputs, seqLen :: seqLens, offset =>
    match r.bindIndex with
    | .error e => (r :: rs, .error e)
    | .ok bound =>
      let adopted := bound.adoptPrefix
      match buildPlan t outCacheLoc adopted inputIds seqLen offset with
      | .error e => (adopted :: rs, .error e)
      | .ok plan =>
        let rest := buildPlans t outCacheLoc rs inputs seqLens
          (offset + (r.req.extendEnd - r.req.extendStart))
        (adopted :: rest.1, rest.2.map (plan :: ·))
  | rs, _, _, offset =>
    (rs, if offset ≠ outCacheLoc.length then .error .unclaimedTail else .ok [])

def addedFrames (r : ExtendRequest τ) (plan : RealtimeExtendPlan) : Except AdapterError Nat :=
  if plan.newEncoderSlots = [] then .ok 0
  else
    match (r.req.multimodalInputs.map (·.mmItems)).getD [] with
    | [] => .error .noMediaItem
    | item :: _ =>
      match item.addedFrames with
      | none | some 0 => .error .noAddedFrames
      | some added => .ok added

def nextMropePosition (r : ExtendRequest τ) (plan : RealtimeExtendPlan) : Nat :=
  match (r.req.multimodalInputs.bind (·.mropePositions)).getD [] with
  | [] => max r.state.nextMropePosition plan.totalDecoderLength
  | p :: ps => max r.state.nextMropePosition (ps.foldl max p + 1)

/-- One `begin_kv_append` of a batch. -/
def beginOne (t : ReqToToken) (r : ExtendRequest τ) (plan : RealtimeExtendPlan) :
    Except AdapterError (ReqToToken × ExtendRequest τ) := do
  let added ← addedFrames r plan
  let (tx, state, t') ← (beginKvAppend r.state t
    { newEncoderSlots := plan.newEncoderSlots
      newDecoderSlots := plan.newDecoderSlots
      addedFrames := added
      nextMropePosition := some (nextMropePosition r plan)
      -- a batch gives its slots back as a whole
      releases := false }).mapError .append
  .ok (t', { r with state := state, transaction := some tx })

/-- The loop over the plans; table and requests come back as far as it has changed them. -/
def beginAll : ReqToToken → List (ExtendRequest τ) → List RealtimeExtendPlan →
    ReqToToken × List (ExtendRequest τ) × Except AdapterError Unit
  | t, r :: rs, plan :: plans =>
    match beginOne t r plan with
    | .error e => (t, r :: rs, .error e)
    | .ok (t', r') =>
      let rest := beginAll t' rs plans
      (rest.1, r' :: rest.2.1, rest.2.2)
  | t, rs, _ => (t, rs, .ok ())

/-! ## The batch -/

/-- What `_install_batch_metadata` exposes to the model. -/
structure BatchMetadata where
  encoderLensCpu : List Nat := []
  encoderCached : List Bool := []
  encoderOutCacheLoc : List Int := []
  extendLens : List Nat := []
  prefixLens : List Nat := []
  extendNumTokens : Nat := 0
  seqLens : List Nat := []
  seqLensSum : Nat := 0
  prefillInputIds : List Int := []
  deriving DecidableEq, Repr

/-- An extend batch, the shared table and what its allocator was given back;
    `allocatedSlots` is none while the batch has no such attribute. -/
structure ExtendBatch (τ : Type) where
  reqs : List (ExtendRequest τ)
  reqToToken : ReqToToken
  outCacheLoc : List Int
  returnLogprob : Bool := false
  pageSize : Nat := 1
  allocatedSlots : Option (Option (List Int)) := some none
  allocationReleased : Bool := false
  allocationCommitted : Bool := false
  metadata : BatchMetadata := {}
  freed : List (List Int) := []

def installBatchMetadata (b : ExtendBatch τ) (plans : List RealtimeExtendPlan) :
    ExtendBatch τ :=
  let decoderSeqLens := plans.map (·.totalDecoderLength)
  { b with
    outCacheLoc := plans.flatMap (·.newDecoderSlots)
    metadata :=
      { encoderLensCpu := plans.map (·.totalEncoderLength)
        encoderCached := plans.map (·.newEncoderSlots.isEmpty)
        encoderOutCacheLoc := plans.flatMap (·.newEncoderSlots)
        extendLens := plans.map (·.decoderExtendLength)
        prefixLens := b.reqs.map (·.state.decoderLength)
        extendNumTokens := (plans.map (·.decoderExtendLength)).sum
        seqLens := decoderSeqLens
        seqLensSum := decoderSeqLens.sum
        prefillInputIds := plans.flatMap fun p =>
          p.rawInputIds.take p.leadingDecoderLength ++
            p.rawInputIds.drop (p.leadingDecoderLength + p.newEncoderSlots.length) }
    reqs := List.zipWith (fun r p =>
      { r with req := { r.req with
          extendStart := r.req.extendStart + p.newEncoderSlots.length
          logprobStartLen := max r.req.logprobStartLen p.totalEncoderLength } }) b.reqs plans }

/-- `transaction.rollback()` of every request that carries one, in the order given. -/
def rollbackAll : ReqToToken → List (ExtendRequest τ) →
    ReqToToken × List (ExtendRequest τ) × Except AdapterError Unit
  | t, [] => (t, [], .ok ())
  | t, r :: rs =>
    match r.transaction, r.state.reqPoolIndex with
    | none, _ =>
      let rest := rollbackAll t rs
      (rest.1, r :: rest.2.1, rest.2.2)
    | some _, none => (t, r :: rs, .error (.append .unbound))
    | some tx, some i =>
      match tx.rollback r.state i t with
      | .error e => (t, r :: rs, .error (.append e))
      | .ok (_, state, t', _) =>
        let rest := rollbackAll t' rs
        (rest.1, { r with state := state, transaction := none } :: rest.2.1, rest.2.2)

def restoreOne (t : ReqToToken) (r : ExtendRequest τ) : ReqToToken × ExtendRequest τ :=
  let committed := r.state.committedLength
  let req := { r.req with
    kvCommittedLen := some committed
    kvAllocatedLen := r.req.kvAllocatedLen.map fun _ => committed }
  (match r.req.reqPoolIdx with
    | none => t
    | some i => t.zeroRange i committed (r.req.kvAllocatedLen.getD committed),
    { r with req := req })

/-- `_restore_request_kv_bookkeeping`. -/
def restoreAll : ReqToToken → List (ExtendRequest τ) → ReqToToken × List (ExtendRequest τ)
  | t, [] => (t, [])
  | t, r :: rs =>
    let first := restoreOne t r
    let rest := restoreAll first.1 rs
    (rest.1, first.2 :: rest.2)

def releaseAllocatedSlots (b : ExtendBatch τ) : ExtendBatch τ × Except AdapterError Unit :=
  if b.allocationReleased then (b, .ok ())
  else if b.pageSize ≠ 1 then (b, .error .pageSize)
  else
    let slots := (b.allocatedSlots.getD (some b.outCacheLoc)).getD []
    ({ b with
        freed := if slots.isEmpty then b.freed else b.freed ++ [slots]
        allocationReleased := true }, .ok ())

/-- `rollback_moss_vl_realtime_batch`. -/
def rollbackBatch (b : ExtendBatch τ) : ExtendBatch τ × Except AdapterError Unit :=
  if b.allocationReleased then (b, .ok ())
  else if b.allocationCommitted then (b, .ok ())
  else
    let r := rollbackAll b.reqToToken b.reqs.reverse
    let b := { b with reqToToken := r.1, reqs := r.2.1.reverse }
    match r.2.2 with
    | .error e => (b, .error e)
    | .ok () =>
      let restored := restoreAll b.reqToToken b.reqs
      releaseAllocatedSlots { b with reqToToken := restored.1, reqs := restored.2 }

/-- A failure while preparing: the batch is rolled back and the failure raised again. -/
def failPrepare (b : ExtendBatch τ) (e : AdapterError) :
    ExtendBatch τ × Except AdapterError Unit :=
  let rolled := rollbackBatch b
  (rolled.1,
    match rolled.2 with
    | .error e' => .error e'
    | .ok () => .error e)

/-- `prepare_moss_vl_realtime_encoder_info_extend`. -/
def prepareExtend (b : ExtendBatch τ) (inputs : List (List Int)) (seqLens : List Nat) :
    ExtendBatch τ × Except AdapterError Unit :=
  if b.reqs.isEmpty then (b, .error .notRealtime)
  else if inputs.length ≠ b.reqs.length ∨ seqLens.length ≠ b.reqs.length then
    (b, .error .misaligned)
  else if b.returnLogprob then (b, .error .logprob)
  else
    let b := { b with
      allocatedSlots := some (some b.outCacheLoc)
      allocationReleased := false
      allocationCommitted := false }
    let built := buildPlans b.reqToToken b.outCacheLoc b.reqs inputs seqLens 0
    let b := { b with reqs := built.1 }
    match built.2 with
    | .error e => failPrepare b e
    | .ok plans =>
      let begun := beginAll b.reqToToken b.reqs plans
      let b := { b with reqToToken := begun.1, reqs := begun.2.1 }
      match begun.2.2 with
      | .error e => failPrepare b e
      | .ok () => (installBatchMetadata b plans, .ok ())

/-! ## Commit -/

/-- `_reconcile_committed_kv_bookkeeping`. -/
def reconcileCommitted (t : ReqToToken) (r : ExtendRequest τ) : ReqToToken × ExtendRequest τ :=
  let kvTotal := r.state.committedLength
  let tokenTotal := r.state.effectiveAppendedEncoderLength + r.state.decoderLength
  (match r.state.reqPoolIndex with
    | none => t
    | some i => t.zeroRange i kvTotal tokenTotal,
    { r with req := { r.req with
        kvAllocatedLen := r.req.kvAllocatedLen.map fun _ => kvTotal
        kvCommittedLen := r.req.kvCommittedLen.map fun _ => kvTotal } })

/-- `commit_moss_vl_realtime_batch`, on one request. -/
def commitOne (t : ReqToToken) (r : ExtendRequest τ) :
    Except AdapterError (ReqToToken × ExtendRequest τ) :=
  match r.transaction with
  | none => .ok (t, r)
  | some tx => do
    let (_, state) ← (tx.commit r.state).mapError .append
    .ok (reconcileCommitted t { r with state := state, transaction := none })

def commitAll : ReqToToken → List (ExtendRequest τ) →
    ReqToToken × List (ExtendRequest τ) × Except AdapterError Unit
  | t, [] => (t, [], .ok ())
  | t, r :: rs =>
    match commitOne t r with
    | .error e => (t, r :: rs, .error e)
    | .ok (t', r') =>
      let rest := commitAll t' rs
      (rest.1, r' :: rest.2.1, rest.2.2)

/-- `commit_moss_vl_realtime_batch`; the attributes of the allocation are deleted. -/
def commitBatch (b : ExtendBatch τ) : ExtendBatch τ × Except AdapterError Unit :=
  let r := commitAll b.reqToToken b.reqs
  let b := { b with reqToToken := r.1, reqs := r.2.1 }
  match r.2.2 with
  | .error e => (b, .error e)
  | .ok () =>
    ({ b with allocationCommitted := true, allocatedSlots := none, allocationReleased := false },
      .ok ())

/-! ## What the loops have done -/

/-- The row of a request. -/
def rowOf (t : ReqToToken) : Option Nat → List Int
  | none => []
  | some i => t.row i

/-- The index a request owns in the table. -/
def rowIndex (r : ExtendRequest τ) : Option Nat := r.req.reqPoolIdx

/-- Two tables of one shape. -/
def SameShape (t t' : ReqToToken) : Prop := t'.width = t.width ∧ t'.rows.length = t.rows.length

theorem SameShape.refl (t : ReqToToken) : SameShape t t := ⟨rfl, rfl⟩

variable {t t' : ReqToToken}

theorem SameShape.trans {t'' : ReqToToken} (h : SameShape t t') (h' : SameShape t' t'') :
    SameShape t t'' :=
  ⟨h'.1.trans h.1, h'.2.trans h.2⟩

/-- The lengths of a request that has adopted its cached prefix. -/
def adoptedLengths (r : ExtendRequest τ) : Nat × Nat × Nat × Nat × Option Nat :=
  (r.state.encoderLength, r.req.prefixIndices.length, r.state.survivingFrameCount,
    r.req.prefixIndices.length, r.state.appendedEncoderLength)

/-- The bootstrap aside, a request keeps its lengths. -/
def KeepsLengths (r r' : ExtendRequest τ) : Prop :=
  r'.lengths = r.lengths ∨ r.AdoptsPrefix ∧ r'.lengths = adoptedLengths r

/-- What planning leaves of a request. -/
structure Built (r r' : ExtendRequest τ) : Prop where
  req : r'.req = r.req
  transaction : r'.transaction = r.transaction
  keeps : KeepsLengths r r'

theorem Built.refl (r : ExtendRequest τ) : Built r r := ⟨rfl, rfl, .inl rfl⟩

variable {r r' : ExtendRequest τ} {rs : List (ExtendRequest τ)} {b : ExtendBatch τ}

theorem bindIndex_eq_ok (h : r.bindIndex = .ok r') :
    r' = { r with state := { r.state with reqPoolIndex := r.req.reqPoolIdx } } := by
  unfold bindIndex at h
  split at h
  · cases h
  · next i hi =>
    simp only [bind_eq_ok, raisedAs_eq_ok] at h
    obtain ⟨s, hs, hok⟩ := h
    unfold MossVLRealtimeRuntimeState.bindReqPoolIndex at hs
    split at hs
    · cases hs
    · cases hs
      cases hok
      rw [hi]

theorem adoptPrefix_built (h : r.bindIndex = .ok r') :
    Built r r'.adoptPrefix ∧ r'.adoptPrefix.state.reqPoolIndex = r.req.reqPoolIdx := by
  rw [bindIndex_eq_ok h]
  unfold adoptPrefix
  split
  · next hadopt => exact ⟨⟨rfl, rfl, .inr ⟨hadopt, rfl⟩⟩, rfl⟩
  · exact ⟨⟨rfl, rfl, .inl rfl⟩, rfl⟩

/-- Wherever planning stops, the requests before it are built and the others as they were. -/
theorem buildPlans_spec (t : ReqToToken) (outCacheLoc : List Int) (rs : List (ExtendRequest τ)) :
    ∀ (inputs : List (List Int)) (seqLens : List Nat) (offset : Nat),
      List.Forall₂ Built rs (buildPlans t outCacheLoc rs inputs seqLens offset).1 ∧
      (inputs.length = rs.length → seqLens.length = rs.length →
        ∀ plans, (buildPlans t outCacheLoc rs inputs seqLens offset).2 = .ok plans →
          plans.length = rs.length ∧
          ∀ r ∈ (buildPlans t outCacheLoc rs inputs seqLens offset).1,
            r.state.reqPoolIndex = rowIndex r) := by
  induction rs with
  | nil =>
    intro inputs seqLens offset
    refine ⟨by simp [buildPlans], fun _ _ plans h => ⟨?_, fun r hr => ?_⟩⟩
    · dsimp only [buildPlans] at h
      split at h
      · cases h
      · cases h; rfl
    · simp [buildPlans] at hr
  | cons r rs ih =>
    intro inputs seqLens offset
    have hsame : List.Forall₂ Built (r :: rs) (r :: rs) :=
      (forall₂_same).2 fun x _ => Built.refl x
    cases inputs with
    | nil => exact ⟨hsame, fun hlen => by simp at hlen⟩
    | cons input inputs =>
      cases seqLens with
      | nil => exact ⟨hsame, fun _ hlen => by simp at hlen⟩
      | cons seqLen seqLens =>
        have hrest := ih inputs seqLens (offset + (r.req.extendEnd - r.req.extendStart))
        unfold buildPlans
        split
        · exact ⟨hsame, nofun⟩
        · next bound hbind =>
          obtain ⟨hbuilt, hindex⟩ := adoptPrefix_built hbind
          dsimp only
          split
          · exact ⟨.cons hbuilt ((forall₂_same).2 fun x _ => Built.refl x),
              nofun⟩
          · refine ⟨.cons hbuilt hrest.1, fun hin hsq plans h => ?_⟩
            generalize hres : (buildPlans t outCacheLoc rs inputs seqLens
              (offset + (r.req.extendEnd - r.req.extendStart))).2 = res at h
            cases res with
            | error e => cases h
            | ok ps =>
              cases h
              obtain ⟨hlen, hall⟩ := hrest.2 (by simpa using hin) (by simpa using hsq) ps hres
              refine ⟨by rw [length_cons, length_cons, hlen], fun x hx => ?_⟩
              rcases mem_cons.1 hx with rfl | hx
              · rw [hindex, rowIndex, hbuilt.req]
              · exact hall x hx

/-- An append has begun: the request carries a transaction that remembers the committed
    row prefix, and has its old lengths. -/
def Begun (width : Nat) (row : List Int) (r r' : ExtendRequest τ) : Prop :=
  ∃ tx, r' = { r with
      state := { r.state with appendInflight := true, phase := .extending }
      transaction := some tx } ∧
    tx.staged = true ∧ tx.closed = false ∧ tx.before.asTuple = row.take r.state.committedLength ∧
    tx.before.totalLength = r.state.committedLength ∧ r.state.committedLength ≤ width

/-- What the begin loop does to one request and its row. -/
def BeginEffect (width : Nat) (row : List Int) (r : ExtendRequest τ) (row' : List Int)
    (r' : ExtendRequest τ) : Prop :=
  (row' = row ∧ r' = r) ∨ Begun width row r r'

theorem rowOf_write_of_ne {i : Nat} {l : MossVLRealtimeKVLayout} {clear : Bool}
    (h : t.write i l clear = .ok t') {o : Option Nat} (ho : o ≠ some i) :
    rowOf t' o = rowOf t o := by
  cases o with
  | none => rfl
  | some j => exact row_write_of_ne h fun hj => ho (by rw [hj])

theorem beginOne_eq_ok {plan : RealtimeExtendPlan} (hbound : r.state.reqPoolIndex = rowIndex r)
    (h : beginOne t r plan = .ok (t', r')) :
    Begun t.width (rowOf t (rowIndex r)) r r' ∧
      (∀ j, j ≠ rowIndex r → rowOf t' j = rowOf t j) ∧ SameShape t t' := by
  unfold beginOne at h
  obtain ⟨added, -, h⟩ := bind_eq_ok.1 h
  obtain ⟨⟨tx, s, t₁⟩, hbegin, hok⟩ := bind_eq_ok.1 h
  cases hok
  obtain ⟨i, hi, -, hread, hw, -, -, -, -, -, hst, hcl, rfl⟩ :=
    beginKvAppend_eq_ok (raisedAs_eq_ok.1 hbegin)
  have hidx : rowIndex r = some i := hbound.symm.trans hi
  obtain ⟨-, hfit, henc, hdec, hrow⟩ := read_eq_ok.1 hread
  refine ⟨⟨tx, rfl, hst, hcl, ?_, ?_, hfit⟩, ?_, ?_⟩
  · rw [hidx]
    exact hrow.symm
  · rw [MossVLRealtimeKVLayout.totalLength, henc, hdec]
    rfl
  · intro j hj
    exact rowOf_write_of_ne hw (hidx ▸ hj)
  · exact ⟨(write_eq_ok hw).2.2.1, length_rows_write hw⟩

/-- Wherever the begin loop stops, it is a pass over the requests' own rows. -/
theorem beginAll_spec : ∀ (t : ReqToToken) (plans : List RealtimeExtendPlan),
      (∀ r ∈ rs, r.state.reqPoolIndex = rowIndex r) →
      Pass rowOf rowIndex (BeginEffect t.width) t rs (beginAll t rs plans).1
        (beginAll t rs plans).2.1 ∧
      SameShape t (beginAll t rs plans).1 := by
  induction rs with
  | nil => intro t plans _; exact ⟨.nil t, SameShape.refl t⟩
  | cons r rs ih =>
    intro t plans hbound
    have hstop : Pass rowOf rowIndex (BeginEffect t.width) t (r :: rs) t (r :: rs) :=
      Pass.stay (fun _ _ => .inl ⟨rfl, rfl⟩) t _
    cases plans with
    | nil => exact ⟨hstop, SameShape.refl t⟩
    | cons plan plans =>
      unfold beginAll
      split
      · exact ⟨hstop, SameShape.refl t⟩
      · next t' r' hone =>
        obtain ⟨hbegun, hother, hshp⟩ := beginOne_eq_ok (hbound r mem_cons_self) hone
        obtain ⟨hp, hrest⟩ := ih t' plans fun x hx => hbound x (mem_cons_of_mem _ hx)
        rw [hshp.1] at hp
        exact ⟨.cons (.inr hbegun) hother hp, hshp.trans hrest⟩

/-! ## What a rollback restores -/

/-- A request with a transaction can be rolled back. -/
def CanRollback (t : ReqToToken) (r : ExtendRequest τ) : Prop :=
  ∀ tx, r.transaction = some tx → tx.staged = true ∧ tx.closed = false ∧
    tx.before.totalLength ≤ t.width ∧
    ∃ i, rowIndex r = some i ∧ r.state.reqPoolIndex = some i ∧ i < t.rows.length

/-- What rolling back does to one request and its row. -/
def RollbackEffect (width : Nat) (row : List Int) (r : ExtendRequest τ) (row' : List Int)
    (r' : ExtendRequest τ) : Prop :=
  (r.transaction = none ∧ row' = row ∧ r' = r) ∨
    ∃ tx, r.transaction = some tx ∧
      row' = tx.before.asTuple ++ List.replicate (width - tx.before.totalLength) 0 ∧
      r' = { r with
        state := { r.state with appendInflight := false, phase := .waitingForEvent }
        transaction := none }

theorem CanRollback.of_shape (h : CanRollback t r) (hshp : SameShape t t') :
    CanRollback t' r := by
  intro tx htx
  obtain ⟨hst, hcl, hfit, i, hidx, hstt, hi⟩ := h tx htx
  exact ⟨hst, hcl, hshp.1.symm ▸ hfit, i, hidx, hstt, hshp.2.symm ▸ hi⟩

/-- Rolling back never stops early, and is a pass over the requests' own rows. -/
theorem rollbackAll_spec : ∀ {t : ReqToToken}, (∀ r ∈ rs, CanRollback t r) →
      (rollbackAll t rs).2.2 = .ok () ∧
      Pass rowOf rowIndex (RollbackEffect t.width) t rs (rollbackAll t rs).1
        (rollbackAll t rs).2.1 ∧
      SameShape t (rollbackAll t rs).1 := by
  induction rs with
  | nil => intro t _; exact ⟨rfl, .nil t, SameShape.refl t⟩
  | cons r rs ih =>
    intro t hcan
    have hrs : ∀ x ∈ rs, CanRollback t x := fun x hx => hcan x (mem_cons_of_mem _ hx)
    cases htx : r.transaction with
    | none =>
      obtain ⟨hok, hp, hshp⟩ := ih hrs
      unfold rollbackAll
      rw [htx]
      exact ⟨hok, .cons (.inl ⟨htx, rfl, rfl⟩) (fun _ _ => rfl) hp, hshp⟩
    | some tx =>
      obtain ⟨hst, hcl, hfit, i, hidx, hstt, hi⟩ := hcan r mem_cons_self tx htx
      obtain ⟨t', hw, hroll⟩ := exists_rollback (s := r.state) hst hcl hi hfit
      have hshp' : SameShape t t' :=
        ⟨(write_eq_ok hw).2.2.1, length_rows_write hw⟩
      obtain ⟨hok, hp, hshp⟩ := ih fun x hx => (hrs x hx).of_shape hshp'
      rw [hshp'.1] at hp
      unfold rollbackAll
      rw [htx, hstt]
      dsimp only
      rw [hroll]
      refine ⟨hok, .cons (.inr ⟨tx, htx, ?_, rfl⟩) ?_ hp, hshp'.trans hshp⟩
      · rw [hidx]
        exact row_write_clear hw
      · intro j hj
        exact rowOf_write_of_ne hw (hidx ▸ hj)

/-- What restoring the bookkeeping does to one request and its row. -/
def RestoreEffect (row : List Int) (r : ExtendRequest τ) (row' : List Int)
    (r' : ExtendRequest τ) : Prop :=
  row' = row.mapIdx (fun k v => if r.state.committedLength ≤ k ∧
      k < r.req.kvAllocatedLen.getD r.state.committedLength then 0 else v) ∧
    r'.state = r.state ∧ r'.transaction = r.transaction ∧ rowIndex r' = rowIndex r ∧
    r'.req.kvCommittedLen = some r.state.committedLength ∧
    r'.req.kvAllocatedLen = r.req.kvAllocatedLen.map fun _ => r.state.committedLength

theorem restoreOne_spec (t : ReqToToken) (r : ExtendRequest τ) :
    RestoreEffect (rowOf t (rowIndex r)) r (rowOf (restoreOne t r).1 (rowIndex r))
        (restoreOne t r).2 ∧
      (∀ j, j ≠ rowIndex r → rowOf (restoreOne t r).1 j = rowOf t j) ∧
      SameShape t (restoreOne t r).1 := by
  unfold restoreOne rowIndex
  cases hidx : r.req.reqPoolIdx with
  | none => exact ⟨⟨rfl, rfl, rfl, rfl, rfl, rfl⟩, fun _ _ => rfl, SameShape.refl t⟩
  | some i =>
    refine ⟨⟨?_, rfl, rfl, rfl, rfl, rfl⟩, fun j hj => ?_, rfl, length_modify _ _ _⟩
    · exact row_zeroRange_self t i _ _
    · cases j with
      | none => rfl
      | some j => exact row_zeroRange_of_ne t _ _ fun h => hj (by rw [h])

theorem restoreAll_spec {rs : List (ExtendRequest τ)} : ∀ t : ReqToToken,
    Pass rowOf rowIndex RestoreEffect t rs (restoreAll t rs).1 (restoreAll t rs).2 ∧
      SameShape t (restoreAll t rs).1 := by
  induction rs with
  | nil => intro t; exact ⟨.nil t, SameShape.refl t⟩
  | cons r rs ih =>
    intro t
    obtain ⟨heffect, hother, hshp⟩ := restoreOne_spec t r
    obtain ⟨hp, hrest⟩ := ih (t := (restoreOne t r).1)
    exact ⟨.cons heffect hother hp, hshp.trans hrest⟩

theorem clear_tail {row : List Int} {c a : Nat}
    (h : ∀ k, c ≤ k → k < row.length → k < a ∨ row.getD k 0 = 0) :
    row.mapIdx (fun k v => if c ≤ k ∧ k < a then 0 else v) =
      row.take c ++ List.replicate (row.length - c) 0 := by
  refine ext_getElem ?_ fun k hk hk' => ?_
  · rw [length_mapIdx, length_append, length_take, length_replicate]
    omega
  · rw [length_mapIdx] at hk
    rw [getElem_mapIdx]
    by_cases hc : k < c
    · rw [getElem_append_left (by rw [length_take]; omega), getElem_take, if_neg (by omega)]
    · rw [getElem_append_right (by rw [length_take]; omega), getElem_replicate]
      rcases h k (Nat.le_of_not_lt hc) hk with hka | hzero
      · rw [if_pos ⟨Nat.le_of_not_lt hc, hka⟩]
      · rw [getD_eq_getElem _ _ hk] at hzero
        split
        · rfl
        · exact hzero

/-- What upstream's allocation leaves: the request's row is clear from the recorded end on. -/
structure AllocatedForExtend (t : ReqToToken) (r : ExtendRequest τ) : Prop where
  index : ∃ i, rowIndex r = some i ∧ i < t.rows.length
  tail : ∃ a, r.req.kvAllocatedLen = some a ∧
    ∀ k, a ≤ k → k < (rowOf t (rowIndex r)).length → (rowOf t (rowIndex r)).getD k 0 = 0

/-- A request of a failed batch, against how it was: its lengths (a cached prefix it adopted
    aside), its committed row prefix with a clear tail, and no transaction. -/
structure RolledBack (t t' : ReqToToken) (r r' : ExtendRequest τ) : Prop where
  keeps : KeepsLengths r r'
  row : rowOf t' (rowIndex r) =
    (rowOf t (rowIndex r)).take r'.state.committedLength ++
      List.replicate ((rowOf t (rowIndex r)).length - r'.state.committedLength) 0
  transaction : r'.transaction = none
  index : rowIndex r' = rowIndex r
  committed : r'.req.kvCommittedLen = some r'.state.committedLength
  allocated : r'.req.kvAllocatedLen = r.req.kvAllocatedLen.map fun _ => r'.state.committedLength

/-- What a batch under way has done to one request: planned it, or begun its append too. -/
structure UnderWay (t t' : ReqToToken) (r r' : ExtendRequest τ) : Prop where
  keeps : KeepsLengths r r'
  index : rowIndex r' = rowIndex r
  allocated : r'.req.kvAllocatedLen = r.req.kvAllocatedLen
  effect : (rowOf t' (rowIndex r) = rowOf t (rowIndex r) ∧ r'.transaction = none) ∨
    ∃ tx, r'.transaction = some tx ∧ tx.staged = true ∧ tx.closed = false ∧
      tx.before.asTuple = (rowOf t (rowIndex r)).take r'.state.committedLength ∧
      tx.before.totalLength = r'.state.committedLength ∧ r'.state.committedLength ≤ t.width ∧
      r'.state.reqPoolIndex = rowIndex r

theorem length_rowOf (h : AllocatedForExtend t r) : (rowOf t (rowIndex r)).length = t.width := by
  obtain ⟨i, hi, hlt⟩ := h.index
  rw [hi]
  exact t.length_row i hlt

theorem UnderWay.canRollback (h : UnderWay t t' r r') (halloc : AllocatedForExtend t r)
    (hshp : SameShape t t') :
    CanRollback t' r' := by
  intro tx htx
  rcases h.effect with ⟨-, hnone⟩ | ⟨tx', hsome, hst, hcl, -, htot, hfit, hindex⟩
  · rw [hnone] at htx
    cases htx
  · rw [hsome] at htx
    cases htx
    obtain ⟨i, hi, hlt⟩ := halloc.index
    refine ⟨hst, hcl, ?_, i, h.index.trans hi, hindex.trans hi, hshp.2.symm ▸ hlt⟩
    rw [htot, hshp.1]
    exact hfit

theorem UnderWay.rolledBack {t'' : ReqToToken} {r₃ r'' : ExtendRequest τ} {row : List Int}
    (h : UnderWay t t' r r') (halloc : AllocatedForExtend t r)
    (hroll : RollbackEffect t.width (rowOf t' (rowIndex r)) r' row r₃)
    (hrestore : RestoreEffect row r₃ (rowOf t'' (rowIndex r)) r'') : RolledBack t t'' r r'' := by
  obtain ⟨a, ha, htail⟩ := halloc.tail
  have hlen := length_rowOf halloc
  obtain ⟨hrow, hstt, htx, hidx, hcommitted, hallocated⟩ := hrestore
  rcases hroll with ⟨hnone, rfl, rfl⟩ | ⟨tx, hsome, rfl, rfl⟩
  · rcases h.effect with ⟨hsame, -⟩ | ⟨tx, hsome, -⟩
    · have hlengths : r''.lengths = r₃.lengths := by
        unfold lengths
        rw [hstt]
      refine ⟨?_, ?_, htx.trans hnone, hidx.trans h.index, ?_, ?_⟩
      · unfold KeepsLengths
        rw [hlengths]
        exact h.keeps
      · rw [hrow, hsame, h.allocated, ha, hstt]
        refine clear_tail fun k _ hk => ?_
        rcases lt_or_ge k a with hka | hka
        · exact .inl hka
        · exact .inr (htail k hka hk)
      · rw [hcommitted, hstt]
      · rw [hallocated, h.allocated, hstt]
    · rw [hnone] at hsome
      cases hsome
  · rcases h.effect with ⟨-, hnone⟩ | ⟨tx', hsome', -, -, htuple, htot, hfit, -⟩
    · rw [hnone] at hsome
      cases hsome
    · rw [hsome] at hsome'
      cases hsome'
      have hcommitted' : r''.state.committedLength = r'.state.committedLength := by
        rw [hstt]
        rfl
      have hlengths : r''.lengths = r'.lengths := by
        unfold lengths
        rw [hstt]
      refine ⟨?_, ?_, htx, hidx.trans h.index, ?_, ?_⟩
      · unfold KeepsLengths
        rw [hlengths]
        exact h.keeps
      · rw [hrow, hcommitted', htuple, htot, hlen]
        have htake : ((rowOf t (rowIndex r)).take r'.state.committedLength).length =
            r'.state.committedLength := by
          rw [length_take, hlen]
          exact Nat.min_eq_left hfit
        refine (clear_tail fun k hk _ => .inr ?_).trans ?_
        · rw [getD_append_right _ _ _ _ (by rw [htake]; exact hk),
            getD_eq_getElem?_getD, getElem?_replicate]
          split <;> rfl
        · show List.take r'.state.committedLength _ ++
            List.replicate (_ - r'.state.committedLength) 0 = _
          rw [take_left' htake, length_append, htake, length_replicate, Nat.add_sub_cancel_left]
      · rw [hcommitted, hcommitted']
        rfl
      · rw [hallocated, hcommitted', ← h.allocated]
        rfl

/-! ## Failed batches -/

/-- A batch under way: what it owes the allocator and what it has done to its requests. -/
structure BatchUnderWay (b b' : ExtendBatch τ) : Prop where
  shape : SameShape b.reqToToken b'.reqToToken
  requests : List.Forall₂ (UnderWay b.reqToToken b'.reqToToken) b.reqs b'.reqs
  other : ∀ j, j ∉ b.reqs.map rowIndex → rowOf b'.reqToToken j = rowOf b.reqToToken j
  slots : b'.allocatedSlots = some (some b.outCacheLoc)
  notReleased : b'.allocationReleased = false
  notCommitted : b'.allocationCommitted = false
  freed : b'.freed = b.freed
  pageSize : b'.pageSize = b.pageSize

structure BatchRolledBack (b b' : ExtendBatch τ) : Prop where
  requests : List.Forall₂ (RolledBack b.reqToToken b'.reqToToken) b.reqs b'.reqs
  other : ∀ j, j ∉ b.reqs.map rowIndex → rowOf b'.reqToToken j = rowOf b.reqToToken j
  released : b'.allocationReleased = true
  freed : b'.freed = b.freed ++ if b.outCacheLoc.isEmpty then [] else [b.outCacheLoc]

theorem rollbackBatch_of_released (h : b.allocationReleased = true) :
    rollbackBatch b = (b, .ok ()) := by
  unfold rollbackBatch
  rw [if_pos h]

theorem mem_of_forall₂ {α β : Type} {P : β → Prop} {as : List α} {bs : List β}
    (h : List.Forall₂ (fun _ b => P b) as bs) : ∀ b ∈ bs, P b := by
  induction h with
  | nil => intro b hb; cases hb
  | cons hab _ ih =>
    intro b hb
    rcases mem_cons.1 hb with rfl | hb
    · exact hab
    · exact ih b hb

/-- From wherever the batch stopped, a rollback gives every slot back and restores every
    request. -/
theorem rollbackBatch_spec {b b' : ExtendBatch τ} (h : BatchUnderWay b b')
    (hpage : b.pageSize = 1) (hrows : (b.reqs.map rowIndex).Nodup)
    (halloc : ∀ r ∈ b.reqs, AllocatedForExtend b.reqToToken r) :
    (rollbackBatch b').2 = .ok () ∧ BatchRolledBack b (rollbackBatch b').1 := by
  have hunder : List.Forall₂ (fun r r' => AllocatedForExtend b.reqToToken r ∧
      UnderWay b.reqToToken b'.reqToToken r r') b.reqs b'.reqs :=
    (forall₂_and_left _ _).2 ⟨halloc, h.requests⟩
  have hcan : ∀ r ∈ b'.reqs.reverse, CanRollback b'.reqToToken r := by
    intro r hr
    exact mem_of_forall₂ (hunder.imp fun r r' hr => hr.2.canRollback hr.1 h.shape) r
      (mem_reverse.1 hr)
  obtain ⟨hok, hroll, hshp⟩ := rollbackAll_spec hcan
  generalize hr : rollbackAll b'.reqToToken b'.reqs.reverse = rolled at hok hroll hshp
  obtain ⟨hrestore, -⟩ := restoreAll_spec rolled.1
  -- the cells are those of the batch at every stage
  have hmap : b'.reqs.map rowIndex = b.reqs.map rowIndex :=
    map_eq_of_forall₂ (h.requests.imp fun _ _ hr => hr.index)
  have hnd' : (b'.reqs.reverse.map rowIndex).Nodup := by
    rw [map_reverse, hmap, nodup_reverse]
    exact hrows
  have hrolled := forall₂_reverse_iff.2 (hroll.forall₂ hnd')
  rw [reverse_reverse] at hrolled
  have hmap' : rolled.2.1.reverse.map rowIndex = b.reqs.map rowIndex := by
    rw [← hmap]
    refine map_eq_of_forall₂ (hrolled.imp fun r r' hr => ?_)
    rcases hr with ⟨-, -, rfl⟩ | ⟨_, -, -, rfl⟩ <;> rfl
  have hnd'' : (rolled.2.1.reverse.map rowIndex).Nodup := by
    rw [hmap']
    exact hrows
  have hrestored := hrestore.forall₂ hnd''
  have hback := forall₂_trans (T := fun r r₃ => AllocatedForExtend b.reqToToken r ∧
      ∃ r', UnderWay b.reqToToken b'.reqToToken r r' ∧
        RollbackEffect b'.reqToToken.width (rowOf b'.reqToToken (rowIndex r')) r'
          (rowOf rolled.1 (rowIndex r')) r₃)
    hunder hrolled fun r r' r₃ hu heffect => ⟨hu.1, r', hu.2, heffect⟩
  unfold rollbackBatch
  rw [if_neg (by rw [h.notReleased]; exact Bool.false_ne_true),
    if_neg (by rw [h.notCommitted]; exact Bool.false_ne_true)]
  dsimp only
  rw [hr, hok]
  dsimp only [releaseAllocatedSlots]
  rw [if_neg (by rw [h.notReleased]; exact Bool.false_ne_true),
    if_neg (by rw [h.pageSize, hpage]; exact fun hne => hne rfl)]
  refine ⟨rfl, ?_, ?_, rfl, ?_⟩
  · refine forall₂_trans hback hrestored fun r r₃ r'' hr hrest' => ?_
    obtain ⟨ha, r', hu, hroll'⟩ := hr
    rw [hu.index, h.shape.1] at hroll'
    have hidx : rowIndex r₃ = rowIndex r := by
      rcases hroll' with ⟨-, -, rfl⟩ | ⟨_, -, -, rfl⟩
      · exact hu.index
      · exact hu.index
    rw [hidx] at hrest'
    exact hu.rolledBack ha hroll' hrest'
  · intro j hj
    have hj' : j ∉ b'.reqs.reverse.map rowIndex := by
      rw [map_reverse, hmap, mem_reverse]
      exact hj
    have hj'' : j ∉ rolled.2.1.reverse.map rowIndex := by rwa [hmap']
    rw [hrestore.get_of_notMem hj'', hroll.get_of_notMem hj', h.other j hj]
  · rw [h.slots, h.freed]
    show (if b.outCacheLoc.isEmpty then b.freed else b.freed ++ [b.outCacheLoc]) = _
    split <;> simp

theorem Built.underWay (h : Built r r') (hfresh : r.transaction = none) : UnderWay t t r r' where
  keeps := h.keeps
  index := by rw [rowIndex, h.req, rowIndex]
  allocated := by rw [h.req]
  effect := .inl ⟨rfl, h.transaction.trans hfresh⟩

theorem BeginEffect.underWay {r₁ : ExtendRequest τ} (h : Built r r₁) (hfresh : r.transaction = none)
    (hbound : r₁.state.reqPoolIndex = rowIndex r₁)
    (hbegin : BeginEffect t.width (rowOf t (rowIndex r₁)) r₁ (rowOf t' (rowIndex r₁)) r') :
    UnderWay t t' r r' := by
  have hidx : rowIndex r₁ = rowIndex r := by rw [rowIndex, h.req, rowIndex]
  rw [hidx] at hbegin
  rcases hbegin with ⟨hrow, rfl⟩ | ⟨tx, rfl, hst, hcl, htuple, htot, hfit⟩
  · exact ⟨h.keeps, hidx, by rw [h.req], .inl ⟨hrow, h.transaction.trans hfresh⟩⟩
  · refine ⟨h.keeps, hidx, by rw [h.req], .inr ⟨tx, rfl, hst, hcl, htuple, htot, hfit, ?_⟩⟩
    exact hbound.trans hidx

/-- Installing the metadata changes nothing that a rollback reads. -/
theorem underWay_install : ∀ {rs' : List (ExtendRequest τ)} {plans : List RealtimeExtendPlan},
      plans.length = rs'.length → List.Forall₂ (UnderWay t t') rs rs' →
      List.Forall₂ (UnderWay t t') rs (List.zipWith (fun r p =>
        { r with req := { r.req with
            extendStart := r.req.extendStart + p.newEncoderSlots.length
            logprobStartLen := max r.req.logprobStartLen p.totalEncoderLength } }) rs' plans) := by
  induction rs with
  | nil =>
    intro rs' plans _ h
    cases h
    exact .nil
  | cons r rs ih =>
    intro rs' plans hlen h
    cases h with
    | cons hr hrest =>
      cases plans with
      | nil => cases hlen
      | cons p ps =>
        rw [zipWith_cons_cons]
        exact .cons ⟨hr.keeps, hr.index, hr.allocated, hr.effect⟩ (ih (Nat.succ.inj hlen) hrest)

/-- The batch as a failure leaves it: preparing has rolled it back itself, a failed forward
    pass is rolled back by the runner. -/
def failedExtend (b : ExtendBatch τ) (inputs : List (List Int)) (seqLens : List Nat) :
    ExtendBatch τ :=
  let prepared := prepareExtend b inputs seqLens
  match prepared.2 with
  | .error _ => prepared.1
  | .ok () => (rollbackBatch prepared.1).1

/-- Further rollbacks, as the outer error paths run them. -/
def rollbackTimes : Nat → ExtendBatch τ → ExtendBatch τ
  | 0, b => b
  | n + 1, b => rollbackTimes n (rollbackBatch b).1

theorem rollbackTimes_of_released (h : b.allocationReleased = true) (n : Nat) :
    rollbackTimes n b = b := by
  induction n with
  | zero => rfl
  | succ n ih => rw [rollbackTimes, rollbackBatch_of_released h, ih]

section Failed

variable {b : ExtendBatch τ} (hpage : b.pageSize = 1) (hrows : (b.reqs.map rowIndex).Nodup)
  (halloc : ∀ r ∈ b.reqs, AllocatedForExtend b.reqToToken r)

include hpage hrows halloc

theorem failPrepare_spec {b' : ExtendBatch τ} (h : BatchUnderWay b b') (e : AdapterError) :
    (failPrepare b' e).2 = .error e ∧ BatchRolledBack b (failPrepare b' e).1 := by
  obtain ⟨hok, hrolled⟩ := rollbackBatch_spec h hpage hrows halloc
  dsimp only [failPrepare]
  rw [hok]
  exact ⟨rfl, hrolled⟩

theorem prepareExtend_spec {inputs : List (List Int)} {seqLens : List Nat} (hreqs : b.reqs ≠ [])
    (hin : inputs.length = b.reqs.length) (hsq : seqLens.length = b.reqs.length)
    (hlogprob : b.returnLogprob = false) (hfresh : ∀ r ∈ b.reqs, r.transaction = none) :
    (∃ e, (prepareExtend b inputs seqLens).2 = .error e ∧
      BatchRolledBack b (prepareExtend b inputs seqLens).1) ∨
    ((prepareExtend b inputs seqLens).2 = .ok () ∧
      BatchUnderWay b (prepareExtend b inputs seqLens).1) := by
  obtain ⟨hbuilt, hplans⟩ :=
    buildPlans_spec b.reqToToken b.outCacheLoc b.reqs inputs seqLens 0
  have hplans := hplans hin hsq
  unfold prepareExtend
  rw [if_neg (by simpa using hreqs), if_neg (by rw [hin, hsq]; simp),
    if_neg (by rw [hlogprob]; exact Bool.false_ne_true)]
  dsimp only
  generalize buildPlans b.reqToToken b.outCacheLoc b.reqs inputs seqLens 0 = built
    at hbuilt hplans
  have hbuilt' := (forall₂_and_left _ _).2 ⟨hfresh, hbuilt⟩
  cases hres : built.2 with
  | error e =>
    left
    have hunder : BatchUnderWay b { b with
        allocatedSlots := some (some b.outCacheLoc)
        allocationReleased := false
        allocationCommitted := false
        reqs := built.1 } :=
      ⟨SameShape.refl _, hbuilt'.imp fun r r' hr => hr.2.underWay hr.1, fun _ _ => rfl, rfl, rfl,
        rfl, rfl, rfl⟩
    exact ⟨e, failPrepare_spec hpage hrows halloc hunder e⟩
  | ok plans =>
    obtain ⟨hlen, hbound⟩ := hplans plans hres
    obtain ⟨hp, hshp⟩ := beginAll_spec b.reqToToken plans hbound
    dsimp only
    generalize beginAll b.reqToToken built.1 plans = begun at hp hshp
    have hmap : built.1.map rowIndex = b.reqs.map rowIndex :=
      map_eq_of_forall₂ (hbuilt.imp fun r r' hr => by rw [rowIndex, hr.req, rowIndex])
    have hbegun := (forall₂_and_left _ _).2 ⟨hbound, hp.forall₂ (by rw [hmap]; exact hrows)⟩
    have hreqs' : List.Forall₂ (UnderWay b.reqToToken begun.1) b.reqs begun.2.1 :=
      forall₂_trans hbuilt' hbegun fun r r₁ r' hr hr' => hr'.2.underWay hr.2 hr.1 hr'.1
    have hother : ∀ j, j ∉ b.reqs.map rowIndex → rowOf begun.1 j = rowOf b.reqToToken j :=
      fun j hj => hp.get_of_notMem (by rwa [hmap])
    cases hres' : begun.2.2 with
    | error e =>
      left
      dsimp only
      have hunder : BatchUnderWay b { b with
          allocatedSlots := some (some b.outCacheLoc)
          allocationReleased := false
          allocationCommitted := false
          reqToToken := begun.1
          reqs := begun.2.1 } :=
        ⟨hshp, hreqs', hother, rfl, rfl, rfl, rfl, rfl⟩
      exact ⟨e, failPrepare_spec hpage hrows halloc hunder e⟩
    | ok _ =>
      have hlen' : plans.length = begun.2.1.length := hlen.trans hreqs'.length_eq
      exact .inr ⟨rfl, hshp, underWay_install hlen' hreqs', hother, rfl, rfl, rfl, rfl, rfl⟩

/-- Wherever an extend batch fails, it is rolled back once. -/
theorem failedExtend_spec {inputs : List (List Int)} {seqLens : List Nat} (hreqs : b.reqs ≠ [])
    (hin : inputs.length = b.reqs.length) (hsq : seqLens.length = b.reqs.length)
    (hlogprob : b.returnLogprob = false) (hfresh : ∀ r ∈ b.reqs, r.transaction = none) :
    BatchRolledBack b (failedExtend b inputs seqLens) := by
  unfold failedExtend
  rcases prepareExtend_spec hpage hrows halloc hreqs hin hsq hlogprob hfresh with
    ⟨e, herr, hrolled⟩ | ⟨hok, hunder⟩
  · dsimp only
    rw [herr]
    exact hrolled
  · dsimp only
    rw [hok]
    exact (rollbackBatch_spec hunder hpage hrows halloc).2

end Failed

/-- A request with two encoder and two decoder slots, extended by one frame and text. -/
def exExtending : ExtendBatch Nat where
  reqs := [{
    req := { rid := "req-1", reqPoolIdx := some 1, prefixIndices := [11, 12, 21, 22],
             extendStart := 4, extendEnd := 9, kvCommittedLen := some 9, kvAllocatedLen := some 9,
             multimodalInputs := some { numImageTokens := some 4, mropePositions := some [0, 9],
                                        mmItems := [{ addedFrames := some 1 }] } }
    state := { requestId := "req-1", reqPoolIndex := some 1, encoderLength := 2, decoderLength := 2,
               survivingFrameCount := 1, nextMropePosition := 7, pendingTokenId := some 999 } }]
  reqToToken := ⟨12, [[7, 0, 0, 0, 0, 0, 0, 0, 0, 0, 0, 0],
    [11, 12, 21, 22, 23, 13, 14, 24, 25, 0, 0, 0]], by decide⟩
  outCacheLoc := [23, 13, 14, 24, 25]

theorem exExtending_allocated :
    ∀ r ∈ exExtending.reqs, AllocatedForExtend exExtending.reqToToken r := by
  intro r hr
  obtain rfl := mem_singleton.1 hr
  refine ⟨⟨1, rfl, by decide⟩, 9, rfl, ?_⟩
  intro k hk hlt
  have hlt' : k < 12 := hlt
  have hcases : k = 9 ∨ k = 10 ∨ k = 11 := by omega
  rcases hcases with rfl | rfl | rfl <;> rfl

/-- Initial text prefill on a cached prefix of two slots. -/
def exAdopting : ExtendBatch Nat where
  reqs := [{
    req := { rid := "req-cached", reqPoolIdx := some 0, prefixIndices := [41, 42],
             extendStart := 2, extendEnd := 3, kvCommittedLen := some 3, kvAllocatedLen := some 3 }
    state := { requestId := "req-cached", reqPoolIndex := some 0 } }]
  reqToToken := ⟨8, [[41, 42, 43, 0, 0, 0, 0, 0]], by decide⟩
  outCacheLoc := [43]

end Adapter

end OmniRealtime
