import OmniRealtime.Vision.FrameWindow

/-!
# Runtime state and KV-append transactions

`runtime_state.py`: the lengths and frame bookkeeping of one live request, its scheduler
request, and the page-table rewrite whose state changes commit after the model forward. Of
state and request the fields are here that the transaction, the window, a commit or the
batch adapter reads or writes.

1. `beginKvAppend_eq_ok`: what a begun transaction has written, and that the state still
   has its old lengths.
2. `commit_eq_ok`, `exists_rollback`: the two ways a transaction ends.
-/

namespace OmniRealtime

open MossVLRealtimeKVLayout

inductive MossVLRealtimePhase
  | waitingForEvent
  | extending
  | decoding
  | finished
  | aborted
  deriving DecidableEq, Repr

def MossVLRealtimePhase.value : MossVLRealtimePhase → String
  | .waitingForEvent => "waiting_for_event"
  | .extending => "extending"
  | .decoding => "decoding"
  | .finished => "finished"
  | .aborted => "aborted"

/-- Why a KV append is refused. -/
inductive KvAppendError
  | closed (phase : MossVLRealtimePhase)
  | unbound
  | inflight
  | ownership
  | notMonotonic
  | staged
  | notActive
  | layout (error : KvLayoutError)
  deriving DecidableEq, Repr

def KvAppendError.message : KvAppendError → String
  | .closed phase => s!"request is already {phase.value}"
  | .unbound => "bind req_pool_index before appending KV"
  | .inflight => "another KV append is already in flight"
  | .ownership => "request KV pool ownership cannot change while live"
  | .notMonotonic => "next_mrope_position must be monotonic"
  | .staged => "KV append transaction cannot be staged again"
  | .notActive => "KV append transaction is not active"
  | .layout error => error.message

structure MossVLRealtimeRuntimeState (τ : Type) where
  requestId : String
  reqPoolIndex : Option Nat := none
  encoderLength : Nat := 0
  decoderLength : Nat := 0
  survivingFrameCount : Nat := 0
  nextMropePosition : Nat := 0
  pendingTokenId : Option Int := none
  visibleFrameCounts : Option (List Nat) := none
  fullGridThw : Option (List (Nat × Nat × Nat)) := none
  frameRecords : Option (List (RealtimeFrameRecord τ)) := none
  evictedFrameCount : Nat := 0
  -- none until an append has been committed
  appendedEncoderLength : Option Nat := none
  phase : MossVLRealtimePhase := .waitingForEvent
  appendInflight : Bool := false
  deriving DecidableEq, Repr

namespace MossVLRealtimeRuntimeState

variable {τ : Type} (s : MossVLRealtimeRuntimeState τ)

def effectiveAppendedEncoderLength : Nat :=
  s.appendedEncoderLength.getD s.encoderLength

/-- The length of the request's committed row prefix. -/
def committedLength : Nat := s.encoderLength + s.decoderLength

def bindReqPoolIndex (i : Nat) : Except KvAppendError (MossVLRealtimeRuntimeState τ) :=
  if s.reqPoolIndex ≠ none ∧ s.reqPoolIndex ≠ some i then .error .ownership
  else .ok { s with reqPoolIndex := some i }

def requireOpen : Except KvAppendError Unit :=
  if s.phase = .finished ∨ s.phase = .aborted then .error (.closed s.phase) else .ok ()

end MossVLRealtimeRuntimeState

/-! ## The request -/

/-- One media item, with the two entries of its `model_specific_data` that are read here. -/
structure MmItem where
  fullGridThw : Option (List (Nat × Nat × Nat)) := none
  addedFrames : Option Nat := none
  deriving DecidableEq, Repr

structure MultimodalInputs where
  numImageTokens : Option Nat := none
  mediaNumsPerSample : Option (List Nat) := none
  visibleFrameCounts : Option (List Nat) := none
  mropePositions : Option (List Nat) := none
  mmItems : List MmItem := []
  deriving DecidableEq, Repr

/-- The fields of the scheduler's request that the window and the batch adapter touch;
    `kvAllocatedLen` is none while the request has no `kv`. -/
structure RealtimeReq where
  rid : String
  reqPoolIdx : Option Nat := none
  kvAllocatedLen : Option Nat := none
  kvCommittedLen : Option Nat := none
  prefixIndices : List Int := []
  extendStart : Nat := 0
  extendEnd : Nat := 0
  logprobStartLen : Int := 0
  multimodalInputs : Option MultimodalInputs := none
  deriving DecidableEq, Repr

/-! ## Transactions -/

/-- One page-table rewrite; `releases` if slots are given back through the transaction. -/
structure MossVLRealtimeKVAppendTransaction where
  before : MossVLRealtimeKVLayout
  after : MossVLRealtimeKVLayout
  addedFrames : Nat
  stagedNextMropePosition : Nat
  newSlots : List Int
  releases : Bool
  staged : Bool := false
  closed : Bool := false

/-- What a caller of `begin_kv_append` gives. -/
structure KvAppendRequest where
  newEncoderSlots : List Int := []
  newDecoderSlots : List Int := []
  addedFrames : Nat := 0
  nextMropePosition : Option Nat := none
  releases : Bool := false

namespace MossVLRealtimeKVAppendTransaction

variable {τ : Type}

def create (s : MossVLRealtimeRuntimeState τ) (i : Nat) (t : ReqToToken) (r : KvAppendRequest) :
    Except KvAppendError MossVLRealtimeKVAppendTransaction :=
  let stagedPosition := r.nextMropePosition.getD s.nextMropePosition
  if stagedPosition < s.nextMropePosition then .error .notMonotonic
  else do
    let before ← (t.read i s.encoderLength s.decoderLength).mapError .layout
    let encoderLayout ← (before.appendEncoder r.newEncoderSlots).mapError .layout
    let after ← (encoderLayout.appendDecoder r.newDecoderSlots).mapError .layout
    .ok
      { before := before
        after := after
        addedFrames := r.addedFrames
        stagedNextMropePosition := stagedPosition
        newSlots :=
          encoderLayout.encoderSlots.drop before.encoderLength ++
            after.decoderSlots.drop before.decoderLength
        releases := r.releases }

def requireActive (tx : MossVLRealtimeKVAppendTransaction) : Except KvAppendError Unit :=
  if tx.staged = false ∨ tx.closed = true then .error .notActive else .ok ()

def stage (tx : MossVLRealtimeKVAppendTransaction) (s : MossVLRealtimeRuntimeState τ) (i : Nat)
    (t : ReqToToken) :
    Except KvAppendError
      (MossVLRealtimeKVAppendTransaction × MossVLRealtimeRuntimeState τ × ReqToToken) :=
  if tx.closed ∨ tx.staged then .error .staged
  else do
    let t' ← (t.write i tx.after false).mapError .layout
    .ok ({ tx with staged := true }, { s with appendInflight := true, phase := .extending }, t')

def commit (tx : MossVLRealtimeKVAppendTransaction) (s : MossVLRealtimeRuntimeState τ) :
    Except KvAppendError (MossVLRealtimeKVAppendTransaction × MossVLRealtimeRuntimeState τ) := do
  tx.requireActive
  let appendedBaseline := s.appendedEncoderLength.getD tx.before.encoderLength
  .ok ({ tx with closed := true },
    { s with
      encoderLength := tx.after.encoderLength
      decoderLength := tx.after.decoderLength
      survivingFrameCount := s.survivingFrameCount + tx.addedFrames
      appendedEncoderLength :=
        some (appendedBaseline + (tx.after.encoderLength - tx.before.encoderLength))
      nextMropePosition := tx.stagedNextMropePosition
      appendInflight := false
      phase := .decoding })

/-- `rollback`, and the slots it releases. -/
def rollback (tx : MossVLRealtimeKVAppendTransaction) (s : MossVLRealtimeRuntimeState τ) (i : Nat)
    (t : ReqToToken) :
    Except KvAppendError
      (MossVLRealtimeKVAppendTransaction × MossVLRealtimeRuntimeState τ × ReqToToken ×
        List Int) := do
  tx.requireActive
  let t' ← (t.write i tx.before true).mapError .layout
  .ok ({ tx with closed := true }, { s with appendInflight := false, phase := .waitingForEvent },
    t', if tx.releases then tx.newSlots else [])

end MossVLRealtimeKVAppendTransaction

open MossVLRealtimeKVAppendTransaction

section Append

variable {τ : Type}

def beginKvAppend (s : MossVLRealtimeRuntimeState τ) (t : ReqToToken) (r : KvAppendRequest) :
    Except KvAppendError
      (MossVLRealtimeKVAppendTransaction × MossVLRealtimeRuntimeState τ × ReqToToken) := do
  s.requireOpen
  match s.reqPoolIndex with
  | none => .error .unbound
  | some i =>
    if s.appendInflight then .error .inflight
    else do
      let tx ← create s i t r
      tx.stage s i t

variable {s : MossVLRealtimeRuntimeState τ} {tx : MossVLRealtimeKVAppendTransaction}
  {s' : MossVLRealtimeRuntimeState τ} {r : KvAppendRequest}

theorem create_eq_ok {i : Nat} {t : ReqToToken} (h : create s i t r = .ok tx) :
    t.read i s.encoderLength s.decoderLength = .ok tx.before ∧
      tx.after.encoderSlots = tx.before.encoderSlots ++ r.newEncoderSlots ∧
      tx.after.decoderSlots = tx.before.decoderSlots ++ r.newDecoderSlots ∧
      tx.addedFrames = r.addedFrames ∧
      tx.stagedNextMropePosition = r.nextMropePosition.getD s.nextMropePosition ∧
      s.nextMropePosition ≤ tx.stagedNextMropePosition ∧
      tx.newSlots = r.newEncoderSlots ++ r.newDecoderSlots ∧
      tx.releases = r.releases ∧ tx.staged = false ∧ tx.closed = false := by
  dsimp only [create] at h
  split at h
  · cases h
  · next hmono =>
    simp only [bind_eq_ok, raisedAs_eq_ok] at h
    obtain ⟨before, hread, encLayout, henc, after, hdec, htx⟩ := h
    cases htx
    obtain ⟨he1, he2⟩ := appendEncoder_eq_ok.1 henc
    obtain ⟨hd1, hd2⟩ := appendDecoder_eq_ok.1 hdec
    refine ⟨hread, hd1.trans he1, by rw [hd2, he2], rfl, rfl, Nat.le_of_not_lt hmono, ?_, rfl, rfl,
      rfl⟩
    show encLayout.encoderSlots.drop before.encoderLength ++
      after.decoderSlots.drop before.decoderLength = _
    rw [he1, hd2, he2, encoderLength,
      decoderLength, List.drop_left, List.drop_left]

/-- A begun append has written its rows; of the state only phase and flag changed. -/
theorem beginKvAppend_eq_ok {t t' : ReqToToken} (h : beginKvAppend s t r = .ok (tx, s', t')) :
    ∃ i, s.reqPoolIndex = some i ∧ s.appendInflight = false ∧
      t.read i s.encoderLength s.decoderLength = .ok tx.before ∧
      t.write i tx.after false = .ok t' ∧
      tx.after.encoderSlots = tx.before.encoderSlots ++ r.newEncoderSlots ∧
      tx.after.decoderSlots = tx.before.decoderSlots ++ r.newDecoderSlots ∧
      tx.addedFrames = r.addedFrames ∧
      s.nextMropePosition ≤ tx.stagedNextMropePosition ∧
      tx.releases = r.releases ∧ tx.staged = true ∧ tx.closed = false ∧
      s' = { s with appendInflight := true, phase := .extending } := by
  unfold beginKvAppend at h
  obtain ⟨_, -, h⟩ := bind_eq_ok.1 h
  split at h
  · cases h
  · next i hi =>
    split at h
    · cases h
    · next hfree =>
      obtain ⟨tx₀, hcreate, hstg⟩ := bind_eq_ok.1 h
      obtain ⟨hread, henc, hdec, hadded, -, hmono, -, hrel, hst, hcl⟩ := create_eq_ok hcreate
      unfold stage at hstg
      split at hstg
      · cases hstg
      · simp only [bind_eq_ok, raisedAs_eq_ok] at hstg
        obtain ⟨t₁, hwrt, hok⟩ := hstg
        cases hok
        exact ⟨i, hi, Bool.eq_false_iff.2 hfree, hread, hwrt, henc, hdec, hadded, hmono, hrel,
          rfl, hcl, rfl⟩

theorem commit_eq_ok {tx' : MossVLRealtimeKVAppendTransaction} (h : tx.commit s = .ok (tx', s')) :
    tx.staged = true ∧ tx.closed = false ∧ s' = { s with
        encoderLength := tx.after.encoderLength
        decoderLength := tx.after.decoderLength
        survivingFrameCount := s.survivingFrameCount + tx.addedFrames
        appendedEncoderLength := some (s.appendedEncoderLength.getD tx.before.encoderLength +
          (tx.after.encoderLength - tx.before.encoderLength))
        nextMropePosition := tx.stagedNextMropePosition
        appendInflight := false
        phase := .decoding } := by
  unfold commit requireActive at h
  obtain ⟨_, hact, hok⟩ := bind_eq_ok.1 h
  split at hact
  · cases hact
  · next hn =>
    cases hok
    simp only [not_or, Bool.not_eq_false, Bool.not_eq_true] at hn
    exact ⟨hn.1, hn.2, rfl⟩

/-- An active transaction whose row it fits is rolled back, and the row holds the committed
    layout alone. -/
theorem exists_rollback {t : ReqToToken} {i : Nat} (hst : tx.staged = true)
    (hcl : tx.closed = false) (hi : i < t.rows.length) (hw : tx.before.totalLength ≤ t.width) :
    ∃ t', t.write i tx.before true = .ok t' ∧ tx.rollback s i t = .ok ({ tx with closed := true },
        { s with appendInflight := false, phase := .waitingForEvent }, t',
        if tx.releases then tx.newSlots else []) := by
  obtain ⟨t', hwrt⟩ := ReqToToken.exists_write (l := tx.before) true hi hw
  refine ⟨t', hwrt, ?_⟩
  unfold rollback requireActive
  rw [if_neg (by simp [hst, hcl]), hwrt]
  rfl

end Append

end OmniRealtime
