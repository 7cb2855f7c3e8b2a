import OmniRealtime.Lib.Proc
import OmniRealtime.Vision.WindowRound

/-!
# A frame-window round that fails

`apply_frame_window_plan` step by step: every call that may raise, and every assignment where
the source has it, on a state that stays as the failing step left it.

1. `failed_round_changes_nothing`: a round that raises has not written the row yet, has left
   what it works on alone and has given back the slots it took.
2. `planned_round_eq`: a round whose calls return is that of `applyFrameWindowPlan`.
-/

namespace OmniRealtime

open List Option

open Proc

/-! ## Calls and traces -/

/-- How `available_size` ends when it raises: with an exception the round catches, or not. -/
inductive AvailableError
  | caught (text : String)
  | passed (text : String)
  deriving DecidableEq, Repr

/-- The calls of a round, each of which may raise. -/
structure WindowCalls (P : Type) where
  provider : Except String Bool
  alloc : Nat → Except String (Option (List Int))
  free : List Int → Option String
  poolLayers : P → List Int → Nat → List Int → P × Option String
  availableSize : Option (Except AvailableError Nat)

/-- What a round works on, the `alloc` calls that gave slots, and whether the page row has
    been written to. -/
structure WindowTrace (τ P : Type) where
  world : WindowWorld τ P
  allocated : List (List Int) := []
  rowWritten : Bool := false

section Steps

variable {τ P : Type}

/-- A step of the round. -/
abbrev WindowStep (τ P α : Type) := Proc (WindowTrace τ P) WindowError α

variable (calls : WindowCalls P)

def allocSlots (n : Nat) : WindowStep τ P (Option (List Int)) := fun t =>
  match calls.alloc n with
  | .error text => (.error (.outside text), t)
  | .ok none => (.ok none, t)
  | .ok (some dst) => (.ok (some dst), { t with allocated := t.allocated ++ [dst] })

/-- `allocator.free`, unless there is nothing to free. -/
def freeSlots (slots : List Int) : WindowStep τ P Unit := fun t =>
  if slots.isEmpty then (.ok (), t)
  else
    match calls.free slots with
    | some text => (.error (.outside text), t)
    | none => (.ok (), { t with world := { t.world with freed := t.world.freed ++ [slots] } })

/-- The members of a chunk, one lookup each. -/
def memberRunsAt (runs : List (List Int)) (old : Nat) (c : RawChunk) :
    Except WindowError (List (List Int)) :=
  if runs.length < old + c.start + c.count then .error .indexOutOfRange
  else .ok (memberRuns runs old c)

/-- The width of each poolable chunk: that of its first member. -/
def chunkWidths (runs : List (List Int)) (old : Nat) (chunks : List RawChunk) :
    Except WindowError (List Nat) :=
  if chunks.any fun c => runs.length ≤ old + c.start then .error .indexOutOfRange
  else .ok (chunks.map (chunkWidth runs old))

/-- Up to the `try`: the plan to apply, and its fresh slots. -/
def reserveSlots (records : List (RealtimeFrameRecord τ)) (runs : List (List Int))
    (plan : FrameWindowPlan τ) : WindowStep τ P (FrameWindowPlan τ × Option (List Int)) :=
  if plan.poolableChunks = [] then ret (plan, none)
  else
    andThen (lift (chunkWidths runs (oldVirtualCount records) plan.poolableChunks)) fun widths =>
    andThen (lift (calls.provider.mapError .outside)) fun available =>
    if !available then ret (degradedPlan records plan, none)
    else
      andThen (allocSlots calls widths.sum) fun dst =>
        match dst with
        | none => ret (degradedPlan records plan, none)
        | some dst => ret (plan, some dst)

/-- `_pool_group_into_slots`. -/
def poolGroup (members : List (List Int)) (dst : List Int) : WindowStep τ P Unit := fun t =>
  match members with
  | [] => (.error .indexOutOfRange, t)
  | first :: rest =>
    if rest.any (·.length ≠ first.length) then (.error .widthsDiffer, t)
    else
      let r := calls.poolLayers t.world.kvPool members.flatten members.length dst
      ((match r.2 with
        | none => .ok ()
        | some text => .error (.outside text)),
        { t with world := { t.world with kvPool := r.1 } })

/-- The loop over the poolable chunks. -/
def poolEach (runs : List (List Int)) (old : Nat) :
    List RawChunk → List Int → WindowStep τ P (List (List Int))
  | [], _ => ret []
  | c :: cs, dst =>
    let width := chunkWidth runs old c
    andThen (lift (memberRunsAt runs old c)) fun members =>
    andThen (poolGroup calls members (dst.take width)) fun _ =>
    andThen (poolEach runs old cs (dst.drop width)) fun produced =>
    ret (dst.take width :: produced)

/-- `write_req_to_token_layout`: the checks, then the two writes to the row. -/
def writeLayout (i : Nat) (layout : MossVLRealtimeKVLayout) : WindowStep τ P Unit :=
  andThen
    (fun t =>
      match t.world.reqToToken.write i layout false with
      | .error e => (.error (.layout e), t)
      | .ok table =>
        (.ok (), { t with world := { t.world with reqToToken := table }, rowWritten := true }))
    fun _ => modify fun t =>
      let table := t.world.reqToToken
      let cleared := table.zeroRange i layout.totalLength table.width
      { t with world := { t.world with reqToToken := cleared }, rowWritten := true }

/-- The body of the `try`. -/
def rebuild (i : Nat) (layout : MossVLRealtimeKVLayout) (runs : List (List Int))
    (records : List (RealtimeFrameRecord τ)) (plan : FrameWindowPlan τ)
    (dst : Option (List Int)) :
    WindowStep τ P (List Int × List (List Int) × PreparedMetadataUpdate) :=
  let old := oldVirtualCount records
  andThen (asks (·.world)) fun w =>
  andThen (lift (prepareMetadataUpdate w.req w.state records plan)) fun prepared =>
  andThen
    (if plan.poolableChunks = [] then ret []
      else
        match dst with
        | none => raise .slotsNotAllocated
        | some dst => poolEach calls runs old plan.poolableChunks dst)
    fun producedRuns =>
  let keptVirtualRuns := (runs.take old).drop plan.evictedVirtualCount
  let keptRawRuns := runs.drop (old + plan.agedRawTotal)
  let newEncoderSlots := (keptVirtualRuns ++ producedRuns ++ keptRawRuns).flatten
  andThen
    (lift ((MossVLRealtimeKVLayout.make newEncoderSlots layout.decoderSlots).mapError .layout))
    fun newLayout =>
  andThen (writeLayout i newLayout) fun _ => ret (newEncoderSlots, producedRuns, prepared)

/-- `_update_running_batch_encoder_lens`. -/
def updateBatch (rid : String) (encoderLength : Nat) : WindowStep τ P Unit := fun t =>
  match t.world.runningBatch with
  | none => (.ok (), t)
  | some batch =>
    match batch.reqs.findIdx? (· = rid) with
    | none => (.ok (), t)
    | some index =>
      if (batch.encoderLensCpu.any (·.length ≤ index)) then (.error .indexOutOfRange, t)
      else
        let batch :=
          { batch with encoderLensCpu := batch.encoderLensCpu.map (·.set index encoderLength) }
        let t := { t with world := { t.world with runningBatch := some batch } }
        if batch.encoderLens.any (·.length ≤ index) then (.error .indexOutOfRange, t)
        else
          let batch :=
            { batch with encoderLens := batch.encoderLens.map (·.set index encoderLength) }
          (.ok (), { t with world := { t.world with runningBatch := some batch } })

/-- What `available_size` tells; an exception of the caught kinds tells nothing. -/
def poolFree : WindowStep τ P (Option Nat) :=
  match calls.availableSize with
  | none => ret none
  | some (.ok size) => ret (some size)
  | some (.error (.caught _)) => ret none
  | some (.error (.passed text)) => raise (.outside text)

/-- Past the `try`. -/
def finish (runs : List (List Int)) (records : List (RealtimeFrameRecord τ))
    (plan : FrameWindowPlan τ) (encoderLengthBefore : Nat) (newEncoderSlots : List Int)
    (producedRuns : List (List Int)) (prepared : PreparedMetadataUpdate) :
    WindowStep τ P FrameWindowEvent :=
  let encoderLength := newEncoderSlots.length
  andThen (freeSlots calls (departedSlots runs (oldVirtualCount records) plan)) fun _ =>
  andThen
    (modify fun t => { t with world := { t.world with state := commitState t.world.state prepared plan } })
    fun _ =>
  andThen
    (modify fun t =>
      let req := commitReq t.world.req prepared encoderLength t.world.state.decoderLength
      { t with world := { t.world with req := req } })
    fun _ =>
  andThen (asks (·.world)) fun w =>
  andThen (updateBatch w.req.rid encoderLength) fun _ =>
  andThen (poolFree calls) fun poolFreeSlots =>
  andThen
    (modify fun t =>
      { t with world := { t.world with state := { t.world.state with encoderLength := encoderLength } } })
    fun _ =>
  ret
    { requestId := w.state.requestId
      evictedVirtualFrames := plan.evictedVirtualCount
      pooledRawFrames := plan.pooledRawCount
      producedVirtualFrames := producedRuns.length
      droppedRawFrames := plan.droppedRawCount
      encoderLengthBefore := encoderLengthBefore
      encoderLengthAfter := encoderLength
      survivingFrameCount := plan.newRecords.length
      poolFreeSlots := poolFreeSlots }

/-- `apply_frame_window_plan`. -/
def applyRound (plan : FrameWindowPlan τ) (records : List (RealtimeFrameRecord τ)) :
    WindowStep τ P FrameWindowEvent :=
  andThen (asks (·.world)) fun w =>
  andThen (lift (openRound w plan records)) fun (i, layout, runs) =>
  andThen (reserveSlots calls records runs plan) fun (plan, dst) =>
  tryElse (rebuild calls i layout runs records plan dst) (fun _ => true)
    (fun e => andThen (freeSlots calls (dst.getD [])) fun _ => raise e)
    fun (newEncoderSlots, producedRuns, prepared) =>
      finish calls runs records plan w.state.encoderLength newEncoderSlots producedRuns prepared

end Steps

/-! ## Up to the row rewrite -/

section Failure

variable {τ P : Type} {calls : WindowCalls P} {records : List (RealtimeFrameRecord τ)}
  {t₀ : WindowTrace τ P} {held : List (List Int)} {t : WindowTrace τ P}

/-- What the request was before the round, it still is. -/
structure Untouched (t₀ t : WindowTrace τ P) : Prop where
  rowWritten : t.rowWritten = false
  reqToToken : t.world.reqToToken = t₀.world.reqToToken
  state : t.world.state = t₀.world.state
  req : t.world.req = t₀.world.req
  runningBatch : t.world.runningBatch = t₀.world.runningBatch

/-- Nothing is written or freed yet; `held` are the slots the round has taken. -/
structure Holding (t₀ : WindowTrace τ P) (held : List (List Int)) (t : WindowTrace τ P) :
    Prop extends Untouched t₀ t where
  freed : t.world.freed = t₀.world.freed
  allocated : t.allocated = t₀.allocated ++ held

theorem Holding.initial (h : t₀.rowWritten = false) : Holding t₀ [] t₀ :=
  ⟨⟨h, rfl, rfl, rfl, rfl⟩, rfl, (append_nil _).symm⟩

/-- The slots an outcome of the reservation comes with. -/
def reservedSlots {α : Type} (slots : α → Option (List Int)) :
    Except WindowError α → List (List Int)
  | .ok a => (slots a).toList
  | .error _ => []

theorem lift_holding {α : Type} (x : Except WindowError α) :
    Triple (Holding t₀ held) (lift x) fun _ => Holding t₀ held :=
  Triple.lift fun _ h => h

theorem allocSlots_spec (calls : WindowCalls P) (n : Nat) :
    Triple (Holding t₀ []) (allocSlots calls n) fun r => Holding t₀ (reservedSlots id r) := by
  intro t h
  unfold allocSlots
  split
  · exact h
  · exact h
  · next dst _ =>
    refine ⟨⟨h.rowWritten, h.reqToToken, h.state, h.req, h.runningBatch⟩, h.freed, ?_⟩
    show t.allocated ++ [dst] = _
    rw [h.allocated, append_nil]
    rfl

theorem reserveSlots_spec (runs : List (List Int)) (plan : FrameWindowPlan τ) :
    Triple (Holding t₀ []) (reserveSlots calls records runs plan)
      fun r => Holding t₀ (reservedSlots Prod.snd r) := by
  unfold reserveSlots
  split
  · exact Triple.ret fun _ h => h
  · refine (lift_holding _).andThen (fun widths => ?_) fun _ _ h => h
    refine (lift_holding _).andThen (fun available => ?_) fun _ _ h => h
    cases available with
    | false => exact Triple.ret fun _ h => h
    | true =>
      refine (allocSlots_spec calls widths.sum).andThen (fun dst => ?_) fun _ _ h => h
      cases dst with
      | none | some dst => exact Triple.ret fun _ h => h

theorem poolGroup_spec (members : List (List Int)) (dst : List Int) :
    Triple (Holding t₀ held) (poolGroup calls members dst) fun _ => Holding t₀ held := by
  intro t h
  unfold poolGroup
  split
  · exact h
  · split
    · exact h
    · exact ⟨⟨h.rowWritten, h.reqToToken, h.state, h.req, h.runningBatch⟩, h.freed, h.allocated⟩

theorem poolEach_spec (runs : List (List Int)) (old : Nat) (chunks : List RawChunk)
    (dst : List Int) :
    Triple (Holding t₀ held) (poolEach calls runs old chunks dst) fun _ => Holding t₀ held := by
  induction chunks generalizing dst with
  | nil => exact Triple.ret fun _ h => h
  | cons c cs ih =>
    refine (lift_holding _).andThen (fun members => ?_) fun _ _ h => h
    refine (poolGroup_spec members _).andThen (fun _ => ?_) fun _ _ h => h
    refine (ih _).andThen (fun produced => ?_) fun _ _ h => h
    exact Triple.ret fun _ h => h

/-- Either the step raised before the row was written, or the live batch is all that is still
    known. -/
def BeforeRow {α : Type} (t₀ : WindowTrace τ P) (held : List (List Int)) :
    Except WindowError α → WindowTrace τ P → Prop
  | .error _, t => Holding t₀ held t
  | .ok _, t => t.world.runningBatch = t₀.world.runningBatch

theorem writeLayout_spec (i : Nat) (layout : MossVLRealtimeKVLayout) :
    Triple (Holding t₀ held) (writeLayout i layout) (BeforeRow t₀ held) := by
  intro t h
  dsimp only [writeLayout, andThen, tryElse]
  split
  · next heq =>
    split at heq
    · cases heq
    · cases heq
      exact h.runningBatch
  · next heq =>
    split at heq
    · cases heq
      exact h
    · cases heq

/-- Whatever raises in the `try` raises before the row is written. -/
theorem rebuild_spec (i : Nat) (layout : MossVLRealtimeKVLayout) (runs : List (List Int))
    (plan : FrameWindowPlan τ) (dst : Option (List Int)) :
    Triple (Holding t₀ held) (rebuild calls i layout runs records plan dst)
      (BeforeRow t₀ held) := by
  have hasks : Triple (Holding t₀ held) (asks (·.world) : WindowStep τ P (WindowWorld τ P))
      fun _ => Holding t₀ held := Triple.asks fun _ h => h
  refine hasks.andThen (fun w => ?_) fun _ _ h => h
  refine (lift_holding _).andThen (fun prepared => ?_) fun _ _ h => h
  refine Triple.andThen (Q := fun _ => Holding t₀ held) ?_ (fun producedRuns => ?_) fun _ _ h => h
  · split
    · exact Triple.ret fun _ h => h
    · cases dst with
      | none => exact Triple.raise fun _ h => h
      | some dst => exact poolEach_spec runs _ _ dst
  · refine (lift_holding _).andThen (fun newLayout => ?_) fun _ _ h => h
    refine (writeLayout_spec i newLayout).andThen (fun _ => ?_) fun _ _ h => h
    exact Triple.ret fun _ h => h

/-! ## Past the row rewrite -/

/-- What the round relies on of the allocator: it takes slots back, and tells its size or
    raises what the round catches. -/
structure WindowCalls.Return (calls : WindowCalls P) : Prop where
  free : ∀ slots, calls.free slots = none
  availableSize : ∀ text, calls.availableSize ≠ some (.error (.passed text))

/-- The length lists of the live batch follow its requests. -/
def BatchAligned (batch : Option RunningBatch) : Prop :=
  ∀ b ∈ batch, (∀ lens ∈ b.encoderLensCpu, lens.length = b.reqs.length) ∧
    ∀ lens ∈ b.encoderLens, lens.length = b.reqs.length

theorem freeSlots_returns (hcalls : calls.Return) (slots : List Int) (t : WindowTrace τ P) :
    freeSlots calls slots t =
      (.ok (), { t with world := { t.world with freed := t.world.freed ++ freeCall slots } }) := by
  unfold freeSlots freeCall
  split
  · rw [append_nil]
  · rw [hcalls.free]

theorem updateBatch_returns (h : BatchAligned t.world.runningBatch) (rid : String)
    (encoderLength : Nat) : updateBatch rid encoderLength t =
      (.ok (), { t with world := { t.world with
        runningBatch := t.world.runningBatch.map (·.updateEncoderLens rid encoderLength) } }) := by
  obtain ⟨⟨table, state, req, pool, freed, batch⟩, allocated, rowWritten⟩ := t
  unfold updateBatch
  cases batch with
  | none => rfl
  | some batch =>
    obtain ⟨hcpu, hlens⟩ := h batch rfl
    cases hidx : batch.reqs.findIdx? (· = rid) with
    | none => simp only [hidx, map_some, RunningBatch.updateEncoderLens]
    | some index =>
      have hlt : index < batch.reqs.length := (findIdx?_eq_some_iff_getElem.1 hidx).1
      have hnot : ∀ lens : Option (List Nat), (∀ l ∈ lens, l.length = batch.reqs.length) →
          lens.any (fun l => decide (l.length ≤ index)) = false := by
        intro lens hl
        cases lens with
        | none => rfl
        | some l => simpa [hl l rfl] using hlt
      simp only [hidx, hnot _ hcpu, hnot _ hlens, map_some,
        RunningBatch.updateEncoderLens, Bool.false_eq_true, if_false]

/-- The event of a finished round. -/
def finished (calls : WindowCalls P) (w : WindowWorld τ P) (plan : FrameWindowPlan τ)
    (encoderLengthBefore encoderLengthAfter produced : Nat) : FrameWindowEvent where
  requestId := w.state.requestId
  evictedVirtualFrames := plan.evictedVirtualCount
  pooledRawFrames := plan.pooledRawCount
  producedVirtualFrames := produced
  droppedRawFrames := plan.droppedRawCount
  encoderLengthBefore := encoderLengthBefore
  encoderLengthAfter := encoderLengthAfter
  survivingFrameCount := plan.newRecords.length
  poolFreeSlots := calls.availableSize.bind Except.toOption

theorem poolFree_returns (hcalls : calls.Return) (t : WindowTrace τ P) :
    poolFree calls t = (.ok (calls.availableSize.bind Except.toOption), t) := by
  unfold poolFree
  cases havail : calls.availableSize with
  | none => rfl
  | some size =>
    cases size with
    | ok n => rfl
    | error e =>
      cases e with
      | caught text => rfl
      | passed text => exact absurd havail (hcalls.availableSize text)

/-- Nothing raises past the row rewrite. -/
theorem finish_returns (hcalls : calls.Return) (h : BatchAligned t.world.runningBatch)
    (runs : List (List Int)) (records : List (RealtimeFrameRecord τ)) (plan : FrameWindowPlan τ)
    (before : Nat) (newEncoderSlots : List Int) (producedRuns : List (List Int))
    (prepared : PreparedMetadataUpdate) :
    finish calls runs records plan before newEncoderSlots producedRuns prepared t =
      (.ok (finished calls t.world plan before newEncoderSlots.length producedRuns.length),
        { t with world := { t.world with
          state := { commitState t.world.state prepared plan with
            encoderLength := newEncoderSlots.length }
          req := commitReq t.world.req prepared newEncoderSlots.length t.world.state.decoderLength
          freed := t.world.freed ++ freeCall (departedSlots runs (oldVirtualCount records) plan)
          runningBatch := t.world.runningBatch.map
            (·.updateEncoderLens t.world.req.rid newEncoderSlots.length) } }) := by
  refine (andThen_of_ok (freeSlots_returns hcalls _ t) _).trans ?_
  refine (andThen_of_ok rfl _).trans ?_
  refine (andThen_of_ok rfl _).trans ?_
  refine (andThen_of_ok rfl _).trans ?_
  refine (andThen_of_ok (updateBatch_returns ?_ _ _) _).trans ?_
  · exact h
  · exact (andThen_of_ok (poolFree_returns hcalls _) _).trans rfl

/-! ## The round -/

/-- How a round may end: it returns, or it raises with everything as before and every slot it
    took given back. -/
def GaveBack {α : Type} (t₀ : WindowTrace τ P) : Except WindowError α → WindowTrace τ P → Prop
  | .ok _, _ => True
  | .error _, t => Untouched t₀ t ∧ ∃ taken given, t.allocated = t₀.allocated ++ taken ∧
      t.world.freed = t₀.world.freed ++ given ∧ given.flatten = taken.flatten

theorem Holding.gaveBack (h : Holding t₀ [] t) (e : WindowError) :
    GaveBack t₀ (.error e : Except WindowError FrameWindowEvent) t :=
  ⟨h.toUntouched, [], [], h.allocated, by rw [h.freed, append_nil], rfl⟩

/-- The handler gives back what the round holds, and raises again. -/
theorem handler_spec (hcalls : calls.Return) (dst : Option (List Int)) (e : WindowError) :
    Triple (Holding t₀ dst.toList) (andThen (freeSlots calls (dst.getD [])) fun _ => raise e :
        WindowStep τ P FrameWindowEvent) (GaveBack t₀) := by
  intro t h
  rw [andThen_of_ok (freeSlots_returns hcalls _ t)]
  refine ⟨⟨h.rowWritten, h.reqToToken, h.state, h.req, h.runningBatch⟩, dst.toList,
    freeCall (dst.getD []), h.allocated, congrArg (· ++ freeCall (dst.getD [])) h.freed, ?_⟩
  cases dst with
  | none => rfl
  | some slots =>
    unfold freeCall
    cases slots with
    | nil => rfl
    | cons s rest => rfl

/-- A round that raises has not written the row; the request, its state and the live batch
    are as before, and every slot it took is given back. -/
theorem failed_round_changes_nothing {plan : FrameWindowPlan τ} {t t' : WindowTrace τ P}
    {e : WindowError} (hcalls : calls.Return) (hbatch : BatchAligned t.world.runningBatch)
    (hrow : t.rowWritten = false) (h : applyRound calls plan records t = (.error e, t')) :
    Untouched t t' ∧ ∃ taken given, t'.allocated = t.allocated ++ taken ∧
      t'.world.freed = t.world.freed ++ given ∧ given.flatten = taken.flatten := by
  have hround : Triple (Holding t []) (applyRound calls plan records) (GaveBack t) := by
    have hasks : Triple (Holding t []) (asks (·.world) : WindowStep τ P (WindowWorld τ P))
        fun _ => Holding t [] := Triple.asks fun _ h => h
    refine hasks.andThen (fun w => ?_) fun e s hs => hs.gaveBack e
    refine (lift_holding _).andThen (fun ⟨i, layout, runs⟩ => ?_) fun e s hs => hs.gaveBack e
    refine (reserveSlots_spec runs plan).andThen (fun ⟨applied, dst⟩ => ?_)
      fun e s hs => hs.gaveBack e
    refine (rebuild_spec i layout runs applied dst).tryElse
      (fun ⟨newEncoderSlots, producedRuns, prepared⟩ => ?_) (fun e _ => ?_)
      fun e hfalse => absurd hfalse (by decide)
    · -- past the `try` the round returns
      intro s hs
      have hsame : s.world.runningBatch = t.world.runningBatch := hs
      have hreturns := finish_returns hcalls (by rw [hsame]; exact hbatch) runs records applied
        w.state.encoderLength newEncoderSlots producedRuns prepared
      dsimp only
      rw [hreturns]
      trivial
    · exact handler_spec hcalls dst e
  have hfinal := hround t (Holding.initial hrow)
  rw [h] at hfinal
  exact hfinal

/-- The allocator gives the slots 20 and 21, then pooling into them fails. -/
def exFailingCalls : WindowCalls Unit where
  provider := .ok true
  alloc _ := .ok (some [20, 21])
  free _ := none
  poolLayers _ _ _ _ := ((), some "out of memory")
  availableSize := some (.error (.caught "not supported"))

theorem failed_round_changes_nothing_pooling :
    ∃ t', applyRound exFailingCalls exWindowPlan exRecords ⟨exWindowWorld, [], false⟩ =
        (.error (.outside "out of memory"), t') ∧
      Untouched ⟨exWindowWorld, [], false⟩ t' ∧ t'.allocated = [[20, 21]] ∧
      t'.world.freed = [[20, 21]] := by
  have hcalls : exFailingCalls.Return := ⟨fun _ => rfl, nofun⟩
  have hbatch : BatchAligned exWindowWorld.runningBatch := nofun
  have hround : applyRound exFailingCalls exWindowPlan exRecords ⟨exWindowWorld, [], false⟩ =
      (.error (.outside "out of memory"),
        (applyRound exFailingCalls exWindowPlan exRecords ⟨exWindowWorld, [], false⟩).2) := rfl
  exact ⟨_, hround, (failed_round_changes_nothing hcalls hbatch rfl hround).1, rfl, rfl⟩

end Failure

/-! ## Against the plain round -/

section Plain

variable {τ P : Type} {calls : WindowCalls P} {env : WindowEnv P}
  {virtuals raws : List (RealtimeFrameRecord τ)} {plan : FrameWindowPlan τ}

/-- The calls act as those of the plain round. -/
structure WindowCalls.ActsAs (calls : WindowCalls P) (env : WindowEnv P) : Prop where
  provider : calls.provider = env.provider
  alloc : ∀ n, calls.alloc n = .ok (env.alloc n)
  poolLayers : calls.poolLayers = env.poolLayers
  availableSize : calls.availableSize.bind Except.toOption = env.availableSize

/-- A world with other K/V tensors. -/
def WindowTrace.withPool (t : WindowTrace τ P) (pool : P) : WindowTrace τ P :=
  { t with world := { t.world with kvPool := pool } }

/-- The chunks whose lookups stay inside the row. -/
def InRow (runs : List (List Int)) (old : Nat) (chunks : List RawChunk) : Prop :=
  ∀ c ∈ chunks, 0 < c.count ∧ old + c.start + c.count ≤ runs.length

theorem PlanFits.inRow (h : PlanFits virtuals raws plan) {slots : List Int}
    (htile : slotSum (virtuals ++ raws) = slots.length) :
    InRow (frameRuns (virtuals ++ raws) slots) virtuals.length plan.rawChunks := by
  intro c hc
  have hlen : (frameRuns (virtuals ++ raws) slots).length = virtuals.length + raws.length := by
    have hmap := congrArg List.length (map_length_frameRuns htile)
    rwa [length_map, length_map, length_append] at hmap
  have haged := h.aged_le
  obtain ⟨-, hbound⟩ := h.chunks_from.bounds c hc
  exact ⟨h.chunks_from.count_pos c hc, by omega⟩

theorem poolGroup_eq (ha : calls.ActsAs env) {members : List (List Int)} (hne : members ≠ [])
    (dst : List Int) (t : WindowTrace τ P) :
    poolGroup calls members dst t =
      ((match (poolGroupIntoSlots env t.world.kvPool members dst).2 with
        | none => .ok ()
        | some e => .error e),
        t.withPool (poolGroupIntoSlots env t.world.kvPool members dst).1) := by
  cases members with
  | nil => exact absurd rfl hne
  | cons first rest =>
    have hany : ((first :: rest).any fun run =>
        decide (run.length ≠ ((first :: rest).headD []).length)) =
          rest.any fun run => decide (run.length ≠ first.length) := by
      simp
    dsimp only [poolGroup, poolGroupIntoSlots]
    rw [hany, ha.poolLayers]
    cases rest.any fun run => decide (run.length ≠ first.length) with
    | true => rfl
    | false =>
      rw [if_neg Bool.false_ne_true, if_neg Bool.false_ne_true]
      cases (env.poolLayers t.world.kvPool (first :: rest).flatten (first :: rest).length dst).2 with
      | none => rfl
      | some text => rfl

theorem poolEach_eq (ha : calls.ActsAs env) {runs : List (List Int)} {old : Nat}
    {chunks : List RawChunk} (hin : InRow runs old chunks) (dst : List Int)
    (t : WindowTrace τ P) :
    poolEach calls runs old chunks dst t = ((poolChunks env runs old t.world.kvPool chunks dst).2,
        t.withPool (poolChunks env runs old t.world.kvPool chunks dst).1) := by
  induction chunks generalizing dst t with
  | nil => rfl
  | cons c cs ih =>
    obtain ⟨hcnt, hle⟩ := hin c (mem_cons_self ..)
    have hlookup : memberRunsAt runs old c = .ok (memberRuns runs old c) :=
      if_neg (Nat.not_lt_of_le hle)
    have hne : memberRuns runs old c ≠ [] := by
      refine ne_nil_of_length_pos ?_
      rw [memberRuns, length_take, length_drop]
      omega
    have hgroup := poolGroup_eq ha hne (dst.take (chunkWidth runs old c)) t
    dsimp only [poolEach, poolChunks]
    rw [andThen_of_ok (show lift (memberRunsAt runs old c) t = (.ok _, t) by rw [hlookup]; rfl)]
    generalize hr : poolGroupIntoSlots env t.world.kvPool (memberRuns runs old c)
      (dst.take (chunkWidth runs old c)) = r at hgroup ⊢
    obtain ⟨pool, outcome⟩ := r
    cases outcome with
    | some e => rw [andThen_of_error hgroup]
    | none =>
      rw [andThen_of_ok hgroup]
      have hrest := ih (fun c hc => hin c (mem_cons_of_mem _ hc))
        (dst.drop (chunkWidth runs old c)) (t.withPool pool)
      dsimp only [WindowTrace.withPool] at hrest ⊢
      generalize poolChunks env runs old pool cs (dst.drop (chunkWidth runs old c)) = rest at hrest ⊢
      obtain ⟨pool', produced⟩ := rest
      cases produced with
      | error e => exact andThen_of_error hrest _
      | ok produced => exact andThen_of_ok hrest _

theorem reserveSlots_eq (ha : calls.ActsAs env) (records : List (RealtimeFrameRecord τ))
    {runs : List (List Int)} (hin : InRow runs (oldVirtualCount records) plan.rawChunks)
    (t : WindowTrace τ P) :
    reserveSlots calls records runs plan t =
      match reservePooled env records runs plan with
      | .error e => (.error e, t)
      | .ok (applied, dst) =>
        (.ok (applied, dst), { t with allocated := t.allocated ++ dst.toList }) := by
  unfold reserveSlots reservePooled
  split
  · simp only [toList_none, append_nil]
    rfl
  · have hwidths : chunkWidths runs (oldVirtualCount records) plan.poolableChunks =
        .ok (plan.poolableChunks.map (chunkWidth runs (oldVirtualCount records))) := by
      refine if_neg ?_
      rw [Bool.not_eq_true, List.any_eq_false]
      intro c hc
      obtain ⟨hcnt, hle⟩ := hin c (mem_filter.1 hc).1
      rw [decide_eq_true_eq]
      omega
    rw [hwidths]
    refine (andThen_of_ok (t := t) rfl _).trans ?_
    rw [ha.provider]
    cases env.provider with
    | error text => rfl
    | ok available =>
      refine (andThen_of_ok (t := t) rfl _).trans ?_
      cases available with
      | false =>
        simp only [toList_none, append_nil]
        rfl
      | true =>
        have halloc : allocSlots calls
            (plan.poolableChunks.map (chunkWidth runs (oldVirtualCount records))).sum t =
            (.ok (env.alloc (plan.poolableChunks.map
              (chunkWidth runs (oldVirtualCount records))).sum),
              { t with allocated := t.allocated ++ (env.alloc (plan.poolableChunks.map
                (chunkWidth runs (oldVirtualCount records))).sum).toList }) := by
          unfold allocSlots
          rw [ha.alloc]
          cases env.alloc (plan.poolableChunks.map
            (chunkWidth runs (oldVirtualCount records))).sum with
          | none => simp only [toList_none, append_nil]
          | some dst => rfl
        refine (andThen_of_ok halloc _).trans ?_
        cases env.alloc (plan.poolableChunks.map
          (chunkWidth runs (oldVirtualCount records))).sum with
        | none =>
          simp only [toList_none, append_nil]
          rfl
        | some dst => rfl

/-- What the `try` leaves behind, as the plain round has it. -/
def rebuilt (t : WindowTrace τ P) : P × Except WindowError RebuiltRow →
    Except WindowError (List Int × List (List Int) × PreparedMetadataUpdate) × WindowTrace τ P
  | (pool, .error e) => (.error e, t.withPool pool)
  | (pool, .ok row) =>
    (.ok (row.newEncoderSlots, row.producedRuns, row.prepared),
      { t with
        world := { t.world with kvPool := pool, reqToToken := row.reqToToken }
        rowWritten := true })

theorem writeLayout_eq (i : Nat) (layout : MossVLRealtimeKVLayout) (t : WindowTrace τ P) :
    writeLayout i layout t =
      match t.world.reqToToken.write i layout true with
      | .error e => (.error (.layout e), t)
      | .ok table =>
        (.ok (), { t with world := { t.world with reqToToken := table }, rowWritten := true }) := by
  rw [ReqToToken.write_then_zero]
  dsimp only [writeLayout, andThen, tryElse]
  cases t.world.reqToToken.write i layout false with
  | error e => rfl
  | ok table => rfl

theorem rebuild_eq (ha : calls.ActsAs env) (i : Nat) (layout : MossVLRealtimeKVLayout)
    (records : List (RealtimeFrameRecord τ)) {runs : List (List Int)}
    (hin : InRow runs (oldVirtualCount records) plan.rawChunks) (dst : Option (List Int))
    (t : WindowTrace τ P) :
    rebuild calls i layout runs records plan dst t =
      rebuilt t (rebuildRow env t.world i layout runs records plan dst) := by
  have hpool : (if plan.poolableChunks = [] then ret []
      else
        match dst with
        | none => raise .slotsNotAllocated
        | some dst => poolEach calls runs (oldVirtualCount records) plan.poolableChunks dst :
          WindowStep τ P (List (List Int))) t =
      ((poolAll env runs (oldVirtualCount records) t.world.kvPool plan dst).2,
        t.withPool (poolAll env runs (oldVirtualCount records) t.world.kvPool plan dst).1) := by
    unfold poolAll
    split
    · rfl
    · cases dst with
      | none => rfl
      | some dst => exact poolEach_eq ha (fun c hc => hin c (mem_filter.1 hc).1) dst t
  unfold rebuild rebuildRow
  refine (andThen_of_ok (t := t) rfl _).trans ?_
  dsimp only
  cases prepareMetadataUpdate t.world.req t.world.state records plan with
  | error e => rfl
  | ok prepared =>
    refine (andThen_of_ok (t := t) rfl _).trans ?_
    generalize poolAll env runs (oldVirtualCount records) t.world.kvPool plan dst = pooled at hpool ⊢
    obtain ⟨pool, produced⟩ := pooled
    cases produced with
    | error e => exact (andThen_of_error hpool _).trans rfl
    | ok produced =>
      refine (andThen_of_ok hpool _).trans ?_
      dsimp only [bind, Except.bind]
      generalize MossVLRealtimeKVLayout.make _ layout.decoderSlots = made
      cases made with
      | error e => rfl
      | ok newLayout =>
        refine (andThen_of_ok (t := t.withPool pool) rfl _).trans ?_
        have hwrt := writeLayout_eq i newLayout (t.withPool pool)
        dsimp only [WindowTrace.withPool, Except.mapError] at hwrt ⊢
        generalize t.world.reqToToken.write i newLayout true = written at hwrt ⊢
        cases written with
        | error e => exact (andThen_of_error hwrt _).trans rfl
        | ok table => exact (andThen_of_ok hwrt _).trans rfl

/-- A round whose calls return ends as the plain round does. -/
theorem applyRound_eq (hcalls : calls.Return) (ha : calls.ActsAs env)
    (hfits : PlanFits virtuals raws plan) {t : WindowTrace τ P}
    (hbatch : BatchAligned t.world.runningBatch) :
    ((applyRound calls plan (virtuals ++ raws) t).2.world,
        (applyRound calls plan (virtuals ++ raws) t).1) =
      applyFrameWindowPlan env plan (virtuals ++ raws) t.world := by
  have hold := oldVirtualCount_append hfits.virtuals_pooled hfits.raws_raw
  have hround : applyRound calls plan (virtuals ++ raws) t =
      andThen (lift (openRound t.world plan (virtuals ++ raws))) _ t :=
    (andThen_of_ok (t := t) rfl _).trans rfl
  rw [hround]
  unfold applyFrameWindowPlan
  cases hopen : openRound t.world plan (virtuals ++ raws) with
  | error e => rfl
  | ok opened =>
    obtain ⟨i, layout, runs⟩ := opened
    rw [andThen_of_ok (show lift (.ok (i, layout, runs)) t = (.ok _, t) from rfl)]
    dsimp only
    obtain ⟨-, -, -, htile, hruns⟩ := openRound_eq_ok.1 hopen
    have hin : ∀ applied, PlanFits virtuals raws applied →
        InRow runs (oldVirtualCount (virtuals ++ raws)) applied.rawChunks := by
      intro applied happlied
      rw [hruns, hold]
      exact happlied.inRow htile
    have hreserve := reserveSlots_eq ha (virtuals ++ raws) (hin plan hfits) t
    cases hpln : reservePooled env (virtuals ++ raws) runs plan with
    | error e =>
      rw [hpln] at hreserve
      rw [andThen_of_error hreserve]
    | ok reserved =>
      obtain ⟨applied, dst⟩ := reserved
      rw [hpln] at hreserve
      rw [andThen_of_ok hreserve]
      have happlied : PlanFits virtuals raws applied := by
        rw [hruns] at hpln
        obtain ⟨-, -, produced, hreserved⟩ := reservePooled_eq_ok htile hfits hpln
        exact hreserved.fits
      have hrebuild := rebuild_eq ha i layout (virtuals ++ raws) (hin applied happlied) dst
        { t with allocated := t.allocated ++ dst.toList }
      unfold tryElse
      rw [hrebuild]
      dsimp only
      generalize hrow : rebuildRow env t.world i layout runs (virtuals ++ raws) applied dst = row
      obtain ⟨pool, outcome⟩ := row
      cases outcome with
      | error e =>
        dsimp only [rebuilt]
        rw [if_pos rfl, andThen_of_ok (freeSlots_returns hcalls _ _)]
        rfl
      | ok done =>
        have hfinish := finish_returns
          (t := (rebuilt { t with allocated := t.allocated ++ dst.toList } (pool, .ok done)).2)
          hcalls hbatch runs (virtuals ++ raws) applied t.world.state.encoderLength
          done.newEncoderSlots done.producedRuns done.prepared
        rw [finished, ha.availableSize] at hfinish
        exact (congrArg (fun r => (r.2.world, r.1)) hfinish).trans rfl

/-- A planned round whose calls return changes what the plain round changes, and ends with its
    event or with its exception. -/
theorem planned_round_eq [Zero τ] [Sub τ] [LT τ] [DecidableLT τ]
    {records : List (RealtimeFrameRecord τ)} {config : RealtimeFrameWindowConfig τ}
    (hplan : planFrameWindow records config = .ok (some plan)) (hcalls : calls.Return)
    (hacts : calls.ActsAs env) {t : WindowTrace τ P}
    (hbatch : BatchAligned t.world.runningBatch) :
    ((applyRound calls plan records t).2.world, (applyRound calls plan records t).1) =
      applyFrameWindowPlan env plan records t.world := by
  obtain ⟨hfits, -⟩ := planFrameWindow_fits hplan
  have hround := applyRound_eq hcalls hacts hfits hbatch
  rwa [takeWhile_append_dropWhile] at hround

/-- The calls of the example, which return. -/
def exWindowCalls : WindowCalls Unit where
  provider := .ok true
  alloc n := .ok (exWindowEnv.alloc n)
  free _ := none
  poolLayers _ _ _ _ := ((), none)
  availableSize := none

theorem planned_round_eq_pooled :
    ((applyRound exWindowCalls exWindowPlan exRecords ⟨exWindowWorld, [], false⟩).2.world,
        (applyRound exWindowCalls exWindowPlan exRecords ⟨exWindowWorld, [], false⟩).1) =
      applyFrameWindowPlan exWindowEnv exWindowPlan exRecords exWindowWorld := by
  have hplan : planFrameWindow exRecords exWindowConfig = .ok (some exWindowPlan) := rfl
  have hcalls : exWindowCalls.Return := ⟨fun _ => rfl, by rintro _ ⟨⟩⟩
  have hacts : exWindowCalls.ActsAs exWindowEnv := ⟨rfl, fun _ => rfl, rfl, rfl⟩
  exact planned_round_eq hplan hcalls hacts (by rintro _ ⟨⟩)

end Plain

end OmniRealtime
