import OmniRealtime.Vision.RuntimeState
import OmniRealtime.Vision.WindowSpans

/-!
# Applying a frame-window plan

`apply_frame_window_plan` of `frame_window.py`: pool, rewrite the page row, free, then
resync the metadata. The K/V tensors are of any type; what torch does with them, the
allocator and the pool provider are parameters. Frame counts and grids are lists.

Results:
1. `applyFrameWindowPlan_error`: a round that raises has left state, request and row alone.
2. `applyFrameWindowPlan_ok`: what a round that returns has done.
3. `window_round_conserves_slots`: a round on planned records returns, and every slot of
   the old row is kept or freed, once.
-/

namespace OmniRealtime

open List Option MossVLRealtimeKVLayout ReqToToken

/-! ## The round's surroundings -/

/-- The live decode batch; both length lists follow `reqs`. -/
structure RunningBatch where
  reqs : List String
  encoderLensCpu : Option (List Nat) := none
  encoderLens : Option (List Nat) := none
  deriving DecidableEq, Repr

/-- `_update_running_batch_encoder_lens`. -/
def RunningBatch.updateEncoderLens (b : RunningBatch) (rid : String) (encoderLength : Nat) :
    RunningBatch :=
  match b.reqs.findIdx? (· = rid) with
  | none => b
  | some index =>
    { b with
      encoderLensCpu := b.encoderLensCpu.map (·.set index encoderLength)
      encoderLens := b.encoderLens.map (·.set index encoderLength) }

/-- What a round calls: the pool provider (raises, no pool, a pool), the allocator, and the
    pooling of `src` in groups into `dst` over every layer (what it leaves, what it raises). -/
structure WindowEnv (P : Type) where
  provider : Except String Bool
  alloc : Nat → Option (List Int)
  poolLayers : P → List Int → Nat → List Int → P × Option String
  availableSize : Option Nat

/-- What a round changes; `freed` lists the allocator's `free` calls. -/
structure WindowWorld (τ P : Type) where
  reqToToken : ReqToToken
  state : MossVLRealtimeRuntimeState τ
  req : RealtimeReq
  kvPool : P
  freed : List (List Int) := []
  runningBatch : Option RunningBatch := none

structure FrameWindowEvent where
  requestId : String
  evictedVirtualFrames : Nat
  pooledRawFrames : Nat
  producedVirtualFrames : Nat
  droppedRawFrames : Nat
  encoderLengthBefore : Nat
  encoderLengthAfter : Nat
  survivingFrameCount : Nat
  poolFreeSlots : Option Nat
  deriving DecidableEq, Repr

section Apply

variable {τ P : Type}

/-! ## Runs of slots -/

def frameRuns (records : List (RealtimeFrameRecord τ)) (encoderSlots : List Int) :
    List (List Int) :=
  (records.map (·.slots)).splitLengths encoderSlots

def recordSlotRuns (records : List (RealtimeFrameRecord τ)) (encoderSlots : List Int) :
    Except WindowError (List (List Int)) :=
  if slotSum records ≠ encoderSlots.length then
    .error (.recordsDisagree (slotSum records) encoderSlots.length)
  else .ok (frameRuns records encoderSlots)

/-- The runs of a chunk's members, `old` virtual frames into the row. -/
def memberRuns (runs : List (List Int)) (old : Nat) (c : RawChunk) : List (List Int) :=
  (runs.drop (old + c.start)).take c.count

def chunkWidth (runs : List (List Int)) (old : Nat) (c : RawChunk) : Nat :=
  (runs.getD (old + c.start) []).length

/-! ## Metadata -/

structure PreparedMetadataUpdate where
  droppedUnits : Nat
  fullGridThw : Option (List (Nat × Nat × Nat))
  -- of the state and of the request's inputs, which may share one tensor
  visibleCounts : Option (List Nat)
  mmVisibleCounts : Option (List Nat)
  deriving DecidableEq, Repr

/-- The replacement of one visible-count tensor. -/
def remapCounts (remap : List Nat) (rows : Nat) (counts : List Nat) : List Nat :=
  counts.map fun v => remap.getD (min v rows) 0

def prepareMetadataUpdate (req : RealtimeReq) (state : MossVLRealtimeRuntimeState τ)
    (records : List (RealtimeFrameRecord τ)) (plan : FrameWindowPlan τ) :
    Except WindowError PreparedMetadataUpdate := do
  let spans ← coveredSpans records plan
  let remap ← visibleCountRemap records.length spans
  .ok
    { droppedUnits :=
        plan.droppedRawCount + sourceSum (records.take plan.evictedVirtualCount)
      fullGridThw := state.fullGridThw.map fun _ => plan.newRecords.map (·.gridRow)
      visibleCounts := state.visibleFrameCounts.map (remapCounts remap records.length)
      mmVisibleCounts :=
        (req.multimodalInputs.bind (·.visibleFrameCounts)).map
          (remapCounts remap records.length) }

/-- The request's inputs after a round. -/
def commitMultimodal (mm : MultimodalInputs) (fullGridThw : Option (List (Nat × Nat × Nat)))
    (prepared : PreparedMetadataUpdate) (encoderLength : Nat) : MultimodalInputs :=
  { mm with
    numImageTokens := some encoderLength
    mediaNumsPerSample :=
      match mm.mediaNumsPerSample, fullGridThw with
      | some _, some grid => some [grid.length]
      | nums, _ => nums
    visibleFrameCounts := prepared.mmVisibleCounts
    mmItems :=
      match mm.mmItems, fullGridThw with
      | item :: items, some grid => { item with fullGridThw := some grid } :: items
      | items, _ => items }

/-- `_commit_metadata_update`, on the state. -/
def commitState (state : MossVLRealtimeRuntimeState τ) (prepared : PreparedMetadataUpdate)
    (plan : FrameWindowPlan τ) : MossVLRealtimeRuntimeState τ :=
  { state with
    frameRecords := some plan.newRecords
    evictedFrameCount := state.evictedFrameCount + prepared.droppedUnits
    survivingFrameCount := plan.newRecords.length
    fullGridThw := prepared.fullGridThw
    visibleFrameCounts := prepared.visibleCounts }

/-- `_commit_metadata_update`, on the request. -/
def commitReq (req : RealtimeReq) (prepared : PreparedMetadataUpdate)
    (encoderLength decoderLength : Nat) : RealtimeReq :=
  { req with
    multimodalInputs := req.multimodalInputs.map fun mm =>
      commitMultimodal mm prepared.fullGridThw prepared encoderLength
    kvAllocatedLen := req.kvAllocatedLen.map fun _ => encoderLength + decoderLength
    kvCommittedLen := req.kvCommittedLen.map fun _ => encoderLength + decoderLength }

/-! ## The round -/

/-- The checks before anything is allocated. -/
def openRound (w : WindowWorld τ P) (plan : FrameWindowPlan τ)
    (records : List (RealtimeFrameRecord τ)) :
    Except WindowError (Nat × MossVLRealtimeKVLayout × List (List Int)) :=
  if !plan.removesFrames then .error .emptyPlan
  else
    match w.state.reqPoolIndex with
    | none => .error .unboundRow
    | some i => do
      let layout ←
        (w.reqToToken.read i w.state.encoderLength w.state.decoderLength).mapError .layout
      let runs ← recordSlotRuns records layout.encoderSlots
      .ok (i, layout, runs)

/-- The plan the round applies and its fresh slots: without a pool or slots it degrades. -/
def reservePooled (env : WindowEnv P) (records : List (RealtimeFrameRecord τ))
    (runs : List (List Int)) (plan : FrameWindowPlan τ) :
    Except WindowError (FrameWindowPlan τ × Option (List Int)) :=
  if plan.poolableChunks = [] then .ok (plan, none)
  else
    match env.provider with
    | .error text => .error (.outside text)
    | .ok false => .ok (degradedPlan records plan, none)
    | .ok true =>
      match env.alloc
          (plan.poolableChunks.map (chunkWidth runs (oldVirtualCount records))).sum with
      | none => .ok (degradedPlan records plan, none)
      | some dst => .ok (plan, some dst)

def poolGroupIntoSlots (env : WindowEnv P) (pool : P) (members : List (List Int))
    (dst : List Int) : P × Option WindowError :=
  let width := (members.headD []).length
  if members.any (·.length ≠ width) then (pool, some .widthsDiffer)
  else
    let r := env.poolLayers pool members.flatten members.length dst
    (r.1, r.2.map .outside)

/-- The loop that pools each chunk into its part of the fresh slots. -/
def poolChunks (env : WindowEnv P) (runs : List (List Int)) (old : Nat) :
    P → List RawChunk → List Int → P × Except WindowError (List (List Int))
  | pool, [], _ => (pool, .ok [])
  | pool, c :: cs, dst =>
    let width := chunkWidth runs old c
    let r := poolGroupIntoSlots env pool (memberRuns runs old c) (dst.take width)
    match r.2 with
    | some e => (r.1, .error e)
    | none =>
      let rest := poolChunks env runs old r.1 cs (dst.drop width)
      (rest.1, rest.2.map (dst.take width :: ·))

/-- The pooled runs of a plan; nothing is pooled without fresh slots. -/
def poolAll (env : WindowEnv P) (runs : List (List Int)) (old : Nat) (pool : P)
    (plan : FrameWindowPlan τ) (dst : Option (List Int)) :
    P × Except WindowError (List (List Int)) :=
  if plan.poolableChunks = [] then (pool, .ok [])
  else
    match dst with
    | none => (pool, .error .slotsNotAllocated)
    | some dst => poolChunks env runs old pool plan.poolableChunks dst

/-- What stands ready once the row is rewritten. -/
structure RebuiltRow where
  reqToToken : ReqToToken
  newEncoderSlots : List Int
  producedRuns : List (List Int)
  prepared : PreparedMetadataUpdate

/-- The part of the round that may raise with slots allocated. -/
def rebuildRow (env : WindowEnv P) (w : WindowWorld τ P) (i : Nat)
    (layout : MossVLRealtimeKVLayout) (runs : List (List Int))
    (records : List (RealtimeFrameRecord τ)) (plan : FrameWindowPlan τ)
    (dst : Option (List Int)) : P × Except WindowError RebuiltRow :=
  let old := oldVirtualCount records
  match prepareMetadataUpdate w.req w.state records plan with
  | .error e => (w.kvPool, .error e)
  | .ok prepared =>
    let pooled := poolAll env runs old w.kvPool plan dst
    (pooled.1, do
      let producedRuns ← pooled.2
      let keptVirtualRuns := (runs.take old).drop plan.evictedVirtualCount
      let keptRawRuns := runs.drop (old + plan.agedRawTotal)
      let newEncoderSlots := (keptVirtualRuns ++ producedRuns ++ keptRawRuns).flatten
      let newLayout ←
        (MossVLRealtimeKVLayout.make newEncoderSlots layout.decoderSlots).mapError .layout
      let reqToToken ← (w.reqToToken.write i newLayout true).mapError .layout
      .ok ⟨reqToToken, newEncoderSlots, producedRuns, prepared⟩)

/-- A call of `free`; an empty list is not passed on. -/
def freeCall (slots : List Int) : List (List Int) := if slots.isEmpty then [] else [slots]

/-- The slots of the evicted virtual frames and of the aged raw frames. -/
def departedSlots (runs : List (List Int)) (old : Nat) (plan : FrameWindowPlan τ) : List Int :=
  (runs.take plan.evictedVirtualCount).flatten ++
    ((runs.drop old).take plan.agedRawTotal).flatten

/-- The rest of the round, past the point of no return. -/
def commitRound (env : WindowEnv P) (w : WindowWorld τ P) (pool : P) (rebuilt : RebuiltRow)
    (freed : List Int) (plan : FrameWindowPlan τ) : WindowWorld τ P × FrameWindowEvent :=
  let encoderLength := rebuilt.newEncoderSlots.length
  ({ reqToToken := rebuilt.reqToToken
     state := { commitState w.state rebuilt.prepared plan with encoderLength := encoderLength }
     req := commitReq w.req rebuilt.prepared encoderLength w.state.decoderLength
     kvPool := pool
     freed := w.freed ++ freeCall freed
     runningBatch := w.runningBatch.map (·.updateEncoderLens w.req.rid encoderLength) },
    { requestId := w.state.requestId
      evictedVirtualFrames := plan.evictedVirtualCount
      pooledRawFrames := plan.pooledRawCount
      producedVirtualFrames := rebuilt.producedRuns.length
      droppedRawFrames := plan.droppedRawCount
      encoderLengthBefore := w.state.encoderLength
      encoderLengthAfter := encoderLength
      survivingFrameCount := plan.newRecords.length
      poolFreeSlots := env.availableSize })

def applyFrameWindowPlan (env : WindowEnv P) (plan : FrameWindowPlan τ)
    (records : List (RealtimeFrameRecord τ)) (w : WindowWorld τ P) :
    WindowWorld τ P × Except WindowError FrameWindowEvent :=
  match openRound w plan records with
  | .error e => (w, .error e)
  | .ok (i, layout, runs) =>
    match reservePooled env records runs plan with
    | .error e => (w, .error e)
    | .ok (plan, dst) =>
      let r := rebuildRow env w i layout runs records plan dst
      match r.2 with
      | .error e => ({ w with kvPool := r.1, freed := w.freed ++ freeCall (dst.getD []) }, .error e)
      | .ok rebuilt =>
        let done := commitRound env w r.1 rebuilt
          (departedSlots runs (oldVirtualCount records) plan) plan
        (done.1, .ok done.2)

variable {records : List (RealtimeFrameRecord τ)} {slots : List Int}

/-! ## Runs of a tiled row -/

section

variable (h : slotSum records = slots.length)
include h

theorem map_length_frameRuns :
    (frameRuns records slots).map List.length = records.map (·.slots) :=
  map_splitLengths_length _ _ (le_of_eq h)

theorem flatten_frameRuns :
    (frameRuns records slots).flatten = slots :=
  flatten_splitLengths _ _ (le_of_eq h.symm)

/-- Runs taken by position hold as many slots as the records at these positions. -/
theorem length_flatten_runs (f : ∀ {α : Type}, List α → List α)
    (hf : ∀ {α β : Type} (g : α → β) (l : List α), (f l).map g = f (l.map g)) :
    (f (frameRuns records slots)).flatten.length = slotSum (f records) := by
  rw [length_flatten, hf, map_length_frameRuns h, ← hf]
  rfl

end

theorem flatten_cut (runs : List (List Int)) {evicted old : Nat} (aged : Nat) (h : evicted ≤ old) :
    runs.flatten = (runs.take evicted).flatten ++ ((runs.take old).drop evicted).flatten ++
      (((runs.drop old).take aged).flatten ++ (runs.drop (old + aged)).flatten) := by
  have hhead : runs.take evicted ++ (runs.take old).drop evicted = runs.take old := by
    have hcut := take_append_drop evicted (runs.take old)
    rwa [take_take, Nat.min_eq_left h] at hcut
  have htail : (runs.drop old).take aged ++ runs.drop (old + aged) = runs.drop old := by
    have hcut := take_append_drop aged (runs.drop old)
    rwa [drop_drop] at hcut
  rw [← flatten_append, ← flatten_append, hhead, htail, ← flatten_append, take_append_drop]

/-- Parts of a row, kept ones joined by fresh slots: the new row is in order, and the parts
    that leave share nothing with it. -/
theorem slots_repartition {gone₁ kept₁ gone₂ kept₂ fresh decoder : List Int}
    (h : SlotsOk ((gone₁ ++ kept₁ ++ (gone₂ ++ kept₂)) ++ decoder)) (hnodup : fresh.Nodup)
    (hfresh : ∀ s ∈ fresh, 0 < s ∧ s ∉ (gone₁ ++ kept₁ ++ (gone₂ ++ kept₂)) ++ decoder) :
    SlotsOk (kept₁ ++ fresh ++ kept₂ ++ decoder) ∧ (gone₁ ++ gone₂).Nodup ∧
      ∀ s ∈ gone₁ ++ gone₂, 0 < s ∧ s ∉ kept₁ ++ fresh ++ kept₂ ++ decoder := by
  obtain ⟨hpos, hnd⟩ := h
  refine ⟨⟨?_, ?_⟩, ?_, ?_⟩
  · intro s hs
    simp only [mem_append] at hs
    rcases hs with ((hs | hs) | hs) | hs
    · exact hpos s (by simp [hs])
    · exact (hfresh s hs).1
    · exact hpos s (by simp [hs])
    · exact hpos s (by simp [hs])
  · simp only [nodup_append, mem_append] at hnd hfresh ⊢
    grind
  · simp only [nodup_append, mem_append] at hnd ⊢
    grind
  · intro s hs
    refine ⟨hpos s (by simp only [mem_append] at hs ⊢; grind), ?_⟩
    simp only [nodup_append, mem_append] at hnd hfresh hs ⊢
    grind

/-! ## Pooled runs -/

theorem getD_map_length (runs : List (List Int)) (k : Nat) :
    (runs.getD k []).length = (runs.map List.length).getD k 0 := by
  rw [show (0 : Nat) = ([] : List Int).length from rfl, List.getD_map]

variable {virtuals raws : List (RealtimeFrameRecord τ)}

theorem memberRuns_width (h : slotSum (virtuals ++ raws) = slots.length) {c : RawChunk}
    {v : RealtimeFrameRecord τ} (hfold : foldGroup (chunkMembers raws c) = some v) :
    chunkWidth (frameRuns (virtuals ++ raws) slots) virtuals.length c = v.slots ∧
      ∀ run ∈ memberRuns (frameRuns (virtuals ++ raws) slots) virtuals.length c,
        run.length = v.slots := by
  obtain ⟨hne, -, -, hsls⟩ := foldGroup_eq_some hfold
  have hmap := map_length_frameRuns h
  constructor
  · rw [chunkWidth, getD_map_length, hmap]
    obtain ⟨r, rest, hr⟩ := exists_cons_of_ne_nil hne
    have hmem : r ∈ chunkMembers raws c := by rw [hr]; exact mem_cons_self
    have hhead : raws[c.start]? = some r := by
      have hget : (chunkMembers raws c)[0]? = some r := by rw [hr]; rfl
      unfold chunkMembers at hget
      rw [getElem?_take, getElem?_drop] at hget
      split at hget
      · simpa using hget
      · cases hget
    rw [getD_eq_getElem?_getD, getElem?_map,
      getElem?_append_right (Nat.le_add_right _ _), Nat.add_sub_cancel_left, hhead]
    exact hsls r hmem
  · intro run hrun
    have hlen : run.length ∈ (memberRuns (frameRuns (virtuals ++ raws) slots)
        virtuals.length c).map List.length := mem_map_of_mem hrun
    rw [memberRuns, map_take, map_drop, hmap, ← map_drop, ← map_take,
      drop_length_add_append] at hlen
    obtain ⟨m, hm, hmlen⟩ := mem_map.1 hlen
    rw [← hmlen]
    exact hsls m hm

variable {produced : List (RealtimeFrameRecord τ)}

theorem widths_of_produces {chunks : List RawChunk} (h : slotSum (virtuals ++ raws) = slots.length)
    (hprod : Produces raws chunks produced) :
    (chunks.filter (·.poolable)).map
      (chunkWidth (frameRuns (virtuals ++ raws) slots) virtuals.length) =
      produced.map (·.slots) := by
  unfold Produces at hprod
  generalize chunks.filter (·.poolable) = poolable at hprod
  induction hprod with
  | nil => rfl
  | cons hfold _ ih => rw [map_cons, map_cons, ih, (memberRuns_width h hfold).1]

theorem slotSum_produced_le {chunks : List RawChunk} :
    ∀ {cursor : Nat} {produced : List (RealtimeFrameRecord τ)}, ChunksFrom cursor chunks →
      Produces raws chunks produced →
      slotSum produced ≤ slotSum ((raws.drop cursor).take (chunkTotal chunks)) := by
  induction chunks with
  | nil =>
    intro cursor produced _ hprod
    have hnil : produced = [] := forall₂_nil_left_iff.1 hprod
    subst hnil
    exact Nat.zero_le _
  | cons c cs ih =>
    intro cursor produced hfrom hprod
    obtain ⟨rfl, -, hrest⟩ := hfrom
    rw [chunkTotal_cons, take_add, slotSum_append, drop_drop]
    unfold Produces at hprod
    cases hc : c.poolable with
    | false =>
      rw [filter_cons_of_neg (by simp [hc])] at hprod
      exact le_trans (ih hrest hprod) (Nat.le_add_left _ _)
    | true =>
      rw [filter_cons_of_pos hc] at hprod
      cases hprod with
      | cons hfold hprod =>
        obtain ⟨hne, -, -, hsls⟩ := foldGroup_eq_some hfold
        obtain ⟨r, rest, hr⟩ := exists_cons_of_ne_nil hne
        have hfst := hsls r (by rw [hr]; exact mem_cons_self)
        have hmembers : (raws.drop c.start).take c.count = r :: rest := hr
        rw [slotSum_cons, hmembers, slotSum_cons, hfst]
        have htail := ih hrest hprod
        omega

variable {env : WindowEnv P}

theorem poolChunks_eq_ok {runs : List (List Int)} {old : Nat} {chunks : List RawChunk} :
    ∀ {pool p : P} {dst : List Int} {rs : List (List Int)},
      poolChunks env runs old pool chunks dst = (p, .ok rs) →
      rs = (chunks.map (chunkWidth runs old)).splitLengths dst := by
  induction chunks with
  | nil =>
    intro pool p dst rs h
    cases h
    rfl
  | cons c cs ih =>
    intro pool p dst rs h
    rw [map_cons, splitLengths_cons]
    dsimp only [poolChunks] at h
    split at h
    · cases h
    · generalize hrest : poolChunks env runs old _ cs _ = rest at h
      obtain ⟨p', r'⟩ := rest
      cases r' with
      | error e => cases h
      | ok rs' =>
        cases h
        rw [ih hrest]

/-- No pooling call raises. -/
def WindowEnv.PoolsQuietly (env : WindowEnv P) : Prop :=
  ∀ pool src group dst, (env.poolLayers pool src group dst).2 = none

/-- The allocator gives as many slots as asked for, new ones. -/
def WindowEnv.AllocFresh (env : WindowEnv P) (used : List Int) : Prop :=
  ∀ n dst, env.alloc n = some dst →
    dst.length = n ∧ dst.Nodup ∧ ∀ s ∈ dst, 0 < s ∧ s ∉ used

theorem poolGroup_quiet (hquiet : env.PoolsQuietly) (pool : P) {n : Nat} {members : List (List Int)}
    (hwd : ∀ run ∈ members, run.length = n) (dst : List Int) :
    (poolGroupIntoSlots env pool members dst).2 = none := by
  have hsame : members.any (·.length ≠ (members.headD []).length) = false := by
    rw [List.any_eq_false]
    intro run hrun
    cases members with
    | nil => cases hrun
    | cons first rest =>
      simp [hwd run hrun, hwd first mem_cons_self]
  dsimp only [poolGroupIntoSlots]
  rw [if_neg (by rw [hsame]; exact Bool.false_ne_true), hquiet]
  rfl

theorem exists_poolChunks (hquiet : env.PoolsQuietly)
    (h : slotSum (virtuals ++ raws) = slots.length) {poolable : List RawChunk}
    (hprod : List.Forall₂ (fun c v => foldGroup (chunkMembers raws c) = some v) poolable produced) :
    ∀ (pool : P) (dst : List Int), ∃ p rs,
      poolChunks env (frameRuns (virtuals ++ raws) slots) virtuals.length pool poolable dst =
        (p, .ok rs) := by
  induction hprod with
  | nil =>
    intro pool dst
    exact ⟨pool, [], rfl⟩
  | @cons c v cs vs hfold _ ih =>
    intro pool dst
    have hwd := (memberRuns_width h hfold).2
    have hnone := poolGroup_quiet hquiet pool hwd
      (dst.take (chunkWidth (frameRuns (virtuals ++ raws) slots) virtuals.length c))
    obtain ⟨p, rs, hrest⟩ := ih (poolGroupIntoSlots env pool
        (memberRuns (frameRuns (virtuals ++ raws) slots) virtuals.length c)
        (dst.take (chunkWidth (frameRuns (virtuals ++ raws) slots) virtuals.length c))).1
      (dst.drop (chunkWidth (frameRuns (virtuals ++ raws) slots) virtuals.length c))
    dsimp only [poolChunks]
    rw [hnone, hrest]
    exact ⟨_, _, rfl⟩

/-! ## The parts of a round -/

/-- The plan applied, with the slots allocated for it: the given one, or the degraded one. -/
structure Reserved (env : WindowEnv P) (virtuals raws : List (RealtimeFrameRecord τ))
    (applied : FrameWindowPlan τ) (fresh : List Int)
    (produced : List (RealtimeFrameRecord τ)) : Prop where
  fits : PlanFits virtuals raws applied
  produces : Produces raws applied.rawChunks produced
  newRecords : applied.newRecords = virtuals.drop applied.evictedVirtualCount ++ produced ++
    raws.drop (chunkTotal applied.rawChunks)
  fresh_eq : (produced = [] ∧ fresh = []) ∨ env.alloc (slotSum produced) = some fresh

variable {plan : FrameWindowPlan τ}

theorem reserved_degraded (env : WindowEnv P) (h : PlanFits virtuals raws plan) :
    ∃ produced, Reserved env virtuals raws (degradedPlan (virtuals ++ raws) plan) [] produced := by
  obtain ⟨produced, hprod, hnew⟩ := h.degraded.new_records
  have hnil : produced = [] := by
    have hnone := hprod
    unfold Produces at hnone
    rw [show (degradedPlan (virtuals ++ raws) plan).rawChunks.filter (·.poolable) = [] from
      filter_unpooled plan.rawChunks] at hnone
    exact forall₂_nil_left_iff.1 hnone
  exact ⟨produced, h.degraded, hprod, hnew, .inl ⟨hnil, rfl⟩⟩

variable {applied : FrameWindowPlan τ} {dst : Option (List Int)}

theorem reservePooled_eq_ok
    (htile : slotSum (virtuals ++ raws) = slots.length) (hfits : PlanFits virtuals raws plan)
    (h : reservePooled env (virtuals ++ raws) (frameRuns (virtuals ++ raws) slots) plan =
      .ok (applied, dst)) : (applied = plan ∨ applied = degradedPlan (virtuals ++ raws) plan) ∧
      (applied.poolableChunks = [] ∨ dst ≠ none) ∧
      ∃ produced, Reserved env virtuals raws applied (dst.getD []) produced := by
  have hdegraded := reserved_degraded env hfits
  have hnone : (degradedPlan (virtuals ++ raws) plan).poolableChunks = [] :=
    filter_unpooled plan.rawChunks
  obtain ⟨produced, hprod, hnew⟩ := hfits.new_records
  unfold reservePooled at h
  split at h
  · next hemp =>
    cases h
    have hnil : produced = [] := by
      have hno := hprod
      unfold Produces at hno
      rw [show plan.rawChunks.filter (·.poolable) = [] from hemp] at hno
      exact forall₂_nil_left_iff.1 hno
    exact ⟨.inl rfl, .inl hemp, produced, hfits, hprod, hnew, .inl ⟨hnil, rfl⟩⟩
  · split at h
    · cases h
    · cases h
      exact ⟨.inr rfl, .inl hnone, hdegraded⟩
    · split at h
      · cases h
        exact ⟨.inr rfl, .inl hnone, hdegraded⟩
      · next d halloc =>
        cases h
        rw [oldVirtualCount_append hfits.virtuals_pooled hfits.raws_raw,
          FrameWindowPlan.poolableChunks, widths_of_produces htile hprod] at halloc
        exact ⟨.inl rfl, .inr (some_ne_none d), produced, hfits, hprod, hnew, .inr halloc⟩

theorem exists_reservePooled {available : Bool} (hprovider : env.provider = .ok available)
    (records : List (RealtimeFrameRecord τ)) (runs : List (List Int)) (plan : FrameWindowPlan τ) :
    ∃ r, reservePooled env records runs plan = .ok r := by
  unfold reservePooled
  split
  · exact ⟨_, rfl⟩
  · rw [hprovider]
    cases available with
    | false => exact ⟨_, rfl⟩
    | true => dsimp only; split <;> exact ⟨_, rfl⟩

/-- The allocator gives as many slots as asked for. -/
def WindowEnv.AllocExact (env : WindowEnv P) : Prop :=
  ∀ n dst, env.alloc n = some dst → dst.length = n

theorem WindowEnv.AllocFresh.exact {used : List Int} (h : env.AllocFresh used) : env.AllocExact :=
  fun n dst hdst => (h n dst hdst).1

theorem Reserved.length_fresh {fresh : List Int}
    (h : Reserved env virtuals raws applied fresh produced) (he : env.AllocExact) :
    fresh.length = slotSum produced := by
  rcases h.fresh_eq with ⟨rfl, rfl⟩ | halloc
  · rfl
  · exact he _ _ halloc

theorem poolAll_eq_ok {pool p : P} {rs : List (List Int)}
    (htile : slotSum (virtuals ++ raws) = slots.length) (he : env.AllocExact)
    (hres : Reserved env virtuals raws applied (dst.getD []) produced)
    (h : poolAll env (frameRuns (virtuals ++ raws) slots) virtuals.length pool applied dst =
      (p, .ok rs)) : rs.flatten = dst.getD [] := by
  have hlen := hres.length_fresh he
  unfold poolAll at h
  split at h
  · next hemp =>
    cases h
    have hprod := hres.produces
    unfold Produces at hprod
    rw [show applied.rawChunks.filter (·.poolable) = [] from hemp] at hprod
    rw [forall₂_nil_left_iff.1 hprod, slotSum_nil] at hlen
    exact (length_eq_zero_iff.1 hlen).symm
  · split at h
    · cases h
    · next d =>
      rw [poolChunks_eq_ok h, FrameWindowPlan.poolableChunks,
        widths_of_produces htile hres.produces]
      exact flatten_splitLengths _ _ (le_of_eq hlen)

theorem exists_poolAll (hquiet : env.PoolsQuietly)
    (htile : slotSum (virtuals ++ raws) = slots.length)
    (hprod : Produces raws applied.rawChunks produced)
    (hdst : applied.poolableChunks = [] ∨ dst ≠ none) (pool : P) :
    ∃ p rs, poolAll env (frameRuns (virtuals ++ raws) slots) virtuals.length pool applied dst =
      (p, .ok rs) := by
  unfold poolAll
  split
  · exact ⟨_, _, rfl⟩
  · next hsome =>
    cases dst with
    | none => exact absurd rfl (hdst.resolve_left hsome)
    | some d => exact exists_poolChunks hquiet htile hprod pool d

theorem prepareMetadataUpdate_of_fits (h : PlanFits virtuals raws plan) (req : RealtimeReq)
    (state : MossVLRealtimeRuntimeState τ) :
    ∃ spans, SpanCount.Ordered 0 spans (virtuals ++ raws).length ∧
      spans.length = plan.newRecords.length ∧
      prepareMetadataUpdate req state (virtuals ++ raws) plan = .ok
        { droppedUnits := plan.droppedRawCount + sourceSum (virtuals.take plan.evictedVirtualCount)
          fullGridThw := state.fullGridThw.map fun _ => plan.newRecords.map (·.gridRow)
          visibleCounts := state.visibleFrameCounts.map (·.map (SpanCount.met spans))
          mmVisibleCounts := (req.multimodalInputs.bind (·.visibleFrameCounts)).map
            (·.map (SpanCount.met spans)) } := by
  obtain ⟨spans, hsps, hord, hlen⟩ := coveredSpans_of_fits h
  obtain ⟨remap, hremap, -, hget⟩ := visibleCountRemap_of_ordered hord
  refine ⟨spans, hord, hlen, ?_⟩
  have hcounts : remapCounts remap (virtuals ++ raws).length = List.map (SpanCount.met spans) := by
    funext counts
    unfold remapCounts
    congr 1
    funext v
    rw [hget _ (Nat.min_le_right _ _)]
    rcases Nat.le_total v (virtuals ++ raws).length with hv | hv
    · rw [Nat.min_eq_left hv]
    · rw [Nat.min_eq_right hv, hord.met_of_hi_le le_rfl, hord.met_of_hi_le hv]
  unfold prepareMetadataUpdate
  rw [hsps]
  show (visibleCountRemap (virtuals ++ raws).length spans >>= _) = _
  rw [hremap]
  show Except.ok _ = _
  rw [hcounts, take_append_of_le_length h.evicted_le]

variable {w : WindowWorld τ P} {layout : MossVLRealtimeKVLayout} {i : Nat} {w' : WindowWorld τ P}

theorem rebuildRow_eq_ok {runs : List (List Int)} {p : P} {rebuilt : RebuiltRow}
    (h : rebuildRow env w i layout runs records plan dst = (p, .ok rebuilt)) :
    prepareMetadataUpdate w.req w.state records plan = .ok rebuilt.prepared ∧
      poolAll env runs (oldVirtualCount records) w.kvPool plan dst = (p, .ok rebuilt.producedRuns) ∧
      rebuilt.newEncoderSlots =
        ((runs.take (oldVirtualCount records)).drop plan.evictedVirtualCount ++
          rebuilt.producedRuns ++
          runs.drop (oldVirtualCount records + plan.agedRawTotal)).flatten ∧
      ∃ newLayout : MossVLRealtimeKVLayout, newLayout.encoderSlots = rebuilt.newEncoderSlots ∧
        newLayout.decoderSlots = layout.decoderSlots ∧
        w.reqToToken.write i newLayout true = .ok rebuilt.reqToToken := by
  dsimp only [rebuildRow] at h
  split at h
  · cases h
  · next prepared hprep =>
    generalize hpool : poolAll env runs (oldVirtualCount records) w.kvPool plan dst = pooled at h
    obtain ⟨hp, hrest⟩ := Prod.mk.inj h
    simp only [bind_eq_ok, raisedAs_eq_ok] at hrest
    obtain ⟨rs, hrs, newLayout, hmake, t', hwrt, hrebuilt⟩ := hrest
    cases hrebuilt
    obtain ⟨henc, hdec⟩ := make_eq_ok.1 hmake
    refine ⟨hprep, ?_, rfl, newLayout, henc, hdec, hwrt⟩
    exact Prod.ext hp hrs

/-- The slots of the virtual frames that stay. -/
def keptVirtualSlots (runs : List (List Int)) (old : Nat) (plan : FrameWindowPlan τ) :
    List Int :=
  ((runs.take old).drop plan.evictedVirtualCount).flatten

/-- The slots of the raw frames that stay. -/
def keptRawSlots (runs : List (List Int)) (old : Nat) (plan : FrameWindowPlan τ) : List Int :=
  (runs.drop (old + plan.agedRawTotal)).flatten

/-- What a round that returned has done to row, allocator, state and request. -/
structure RoundDone (env : WindowEnv P) (virtuals raws : List (RealtimeFrameRecord τ))
    (w w' : WindowWorld τ P) (i : Nat) (layout : MossVLRealtimeKVLayout)
    (applied : FrameWindowPlan τ) (fresh : List Int)
    (produced : List (RealtimeFrameRecord τ)) (prepared : PreparedMetadataUpdate)
    (newLayout : MossVLRealtimeKVLayout) : Prop where
  index : w.state.reqPoolIndex = some i
  read : w.reqToToken.read i w.state.encoderLength w.state.decoderLength = .ok layout
  tiled : slotSum (virtuals ++ raws) = layout.encoderSlots.length
  reserved : Reserved env virtuals raws applied fresh produced
  encoder : newLayout.encoderSlots =
    keptVirtualSlots (frameRuns (virtuals ++ raws) layout.encoderSlots) virtuals.length applied ++
      fresh ++
      keptRawSlots (frameRuns (virtuals ++ raws) layout.encoderSlots) virtuals.length applied
  decoder : newLayout.decoderSlots = layout.decoderSlots
  written : w.reqToToken.write i newLayout true = .ok w'.reqToToken
  freed : w'.freed = w.freed ++ freeCall
    (departedSlots (frameRuns (virtuals ++ raws) layout.encoderSlots) virtuals.length applied)
  prepare : prepareMetadataUpdate w.req w.state (virtuals ++ raws) applied = .ok prepared
  state : w'.state =
    { commitState w.state prepared applied with encoderLength := newLayout.encoderLength }
  req : w'.req = commitReq w.req prepared newLayout.encoderLength w.state.decoderLength

theorem openRound_eq_ok {runs : List (List Int)} :
    openRound w plan records = .ok (i, layout, runs) ↔
      plan.removesFrames = true ∧ w.state.reqPoolIndex = some i ∧
        w.reqToToken.read i w.state.encoderLength w.state.decoderLength = .ok layout ∧
        slotSum records = layout.encoderSlots.length ∧
        runs = frameRuns records layout.encoderSlots := by
  unfold openRound
  cases hrem : plan.removesFrames with
  | false => simp
  | true =>
    cases hi : w.state.reqPoolIndex with
    | none => simp
    | some j =>
      simp only [Bool.not_true, Bool.false_eq_true, if_false, bind_eq_ok, raisedAs_eq_ok,
        recordSlotRuns]
      constructor
      · rintro ⟨l, hread, rs, hrs, hok⟩
        split at hrs
        · cases hrs
        · next hsum =>
          cases hrs
          cases hok
          exact ⟨trivial, rfl, hread, not_not.1 hsum, rfl⟩
      · rintro ⟨-, hji, hread, hsum, rfl⟩
        cases hji
        exact ⟨layout, hread, _, if_neg (not_not.2 hsum), rfl⟩

/-- A round on records split into virtual and raw frames, once it returns. -/
theorem applyFrameWindowPlan_ok {event : FrameWindowEvent} (he : env.AllocExact)
    (hfits : PlanFits virtuals raws plan)
    (h : applyFrameWindowPlan env plan (virtuals ++ raws) w = (w', .ok event)) :
    ∃ i layout applied dst produced prepared newLayout,
      reservePooled env (virtuals ++ raws) (frameRuns (virtuals ++ raws) layout.encoderSlots) plan =
        .ok (applied, dst) ∧
      RoundDone env virtuals raws w w' i layout applied (dst.getD []) produced prepared
        newLayout := by
  unfold applyFrameWindowPlan at h
  split at h
  · cases h
  · next i layout runs hopen =>
    obtain ⟨-, hindex, hread, htile, rfl⟩ := openRound_eq_ok.1 hopen
    split at h
    · cases h
    · next applied dst hreserve =>
      obtain ⟨-, -, produced, hres⟩ := reservePooled_eq_ok htile hfits hreserve
      have hold := oldVirtualCount_append hfits.virtuals_pooled hfits.raws_raw
      dsimp only at h
      split at h
      · cases h
      · next rebuilt hrebuilt =>
        obtain ⟨hprep, hpool, hnew, newLayout, henc, hdec, hwrt⟩ :=
          rebuildRow_eq_ok (Prod.ext rfl hrebuilt)
        cases h
        rw [hold] at hpool hnew
        refine ⟨i, layout, applied, dst, produced, rebuilt.prepared, newLayout, hreserve,
          hindex, hread, htile, hres, ?_, hdec, hwrt, ?_, hprep, ?_, ?_⟩
        · rw [henc, hnew, flatten_append, flatten_append, poolAll_eq_ok htile he hres hpool]
          rfl
        · rw [← hold]
          rfl
        · rw [encoderLength, henc]
          rfl
        · rw [encoderLength, henc]
          rfl

/-! ## Slot conservation -/

/-- What stays of a row together with fresh slots is a layout again, and what leaves shares
    nothing with it. -/
theorem repartition_of_tiled {fresh decoder : List Int} {old : Nat}
    (htile : slotSum records = slots.length) (hev : plan.evictedVirtualCount ≤ old)
    (hok : SlotsOk (slots ++ decoder)) (hnodup : fresh.Nodup)
    (hfresh : ∀ s ∈ fresh, 0 < s ∧ s ∉ slots ++ decoder) :
    SlotsOk (keptVirtualSlots (frameRuns records slots) old plan ++ fresh ++
        keptRawSlots (frameRuns records slots) old plan ++ decoder) ∧
      (departedSlots (frameRuns records slots) old plan).Nodup ∧
      ∀ s ∈ departedSlots (frameRuns records slots) old plan, 0 < s ∧
        s ∉ keptVirtualSlots (frameRuns records slots) old plan ++ fresh ++
          keptRawSlots (frameRuns records slots) old plan ++ decoder := by
  have hcut := flatten_cut (frameRuns records slots) plan.agedRawTotal hev
  rw [flatten_frameRuns htile] at hcut
  rw [hcut] at hok hfresh
  exact slots_repartition hok hnodup hfresh

section

variable (htile : slotSum (virtuals ++ raws) = slots.length) (plan : FrameWindowPlan τ)
include htile

theorem length_keptVirtualSlots :
    (keptVirtualSlots (frameRuns (virtuals ++ raws) slots) virtuals.length plan).length =
      slotSum (virtuals.drop plan.evictedVirtualCount) := by
  have hlen := length_flatten_runs htile
    (fun l => (l.take virtuals.length).drop plan.evictedVirtualCount)
    (fun g l => by rw [map_drop, map_take])
  rwa [take_left] at hlen

theorem length_keptRawSlots :
    (keptRawSlots (frameRuns (virtuals ++ raws) slots) virtuals.length plan).length =
      slotSum (raws.drop (chunkTotal plan.rawChunks)) := by
  have hlen := length_flatten_runs htile (fun l => l.drop (virtuals.length + plan.agedRawTotal))
    (fun g l => by rw [map_drop])
  rw [drop_length_add_append, agedRawTotal_eq] at hlen
  rwa [keptRawSlots, agedRawTotal_eq]

end

/-- The produced frames fit where the aged raw frames were. -/
theorem Reserved.slotSum_le {fresh : List Int}
    (h : Reserved env virtuals raws applied fresh produced) :
    slotSum applied.newRecords ≤ slotSum (virtuals ++ raws) := by
  have hproduced := slotSum_produced_le h.fits.chunks_from h.produces
  rw [drop_zero] at hproduced
  have hraws : slotSum raws = slotSum (raws.take (chunkTotal applied.rawChunks)) +
      slotSum (raws.drop (chunkTotal applied.rawChunks)) := by
    rw [← slotSum_append, take_append_drop]
  have hvirtuals : slotSum virtuals = slotSum (virtuals.take applied.evictedVirtualCount) +
      slotSum (virtuals.drop applied.evictedVirtualCount) := by
    rw [← slotSum_append, take_append_drop]
  rw [h.newRecords, slotSum_append, slotSum_append, slotSum_append]
  omega

theorem RoundDone.tiles {newLayout : MossVLRealtimeKVLayout} {fresh : List Int}
    {prepared : PreparedMetadataUpdate}
    (h : RoundDone env virtuals raws w w' i layout applied fresh produced prepared newLayout)
    (he : env.AllocExact) : slotSum applied.newRecords = newLayout.encoderLength := by
  rw [h.reserved.newRecords, slotSum_append, slotSum_append,
    encoderLength, h.encoder, length_append, length_append,
    length_keptVirtualSlots h.tiled, length_keptRawSlots h.tiled,
    h.reserved.length_fresh he]

theorem Reserved.fresh_ok {fresh used : List Int}
    (h : Reserved env virtuals raws applied fresh produced) (halloc : env.AllocFresh used) :
    fresh.Nodup ∧ ∀ s ∈ fresh, 0 < s ∧ s ∉ used := by
  rcases h.fresh_eq with ⟨-, rfl⟩ | hsome
  · exact ⟨nodup_nil, (by rintro _ ⟨⟩)⟩
  · exact (halloc _ _ hsome).2

/-- With fresh slots in hand nothing before the row rewrite is refused. -/
theorem exists_rebuildRow
    (hread : w.reqToToken.read i w.state.encoderLength w.state.decoderLength = .ok layout)
    (htile : slotSum (virtuals ++ raws) = layout.encoderSlots.length)
    (hres : Reserved env virtuals raws applied (dst.getD []) produced)
    (hdst : applied.poolableChunks = [] ∨ dst ≠ none) (halloc : env.AllocFresh layout.asTuple)
    (hquiet : env.PoolsQuietly) :
    ∃ p rebuilt, rebuildRow env w i layout (frameRuns (virtuals ++ raws) layout.encoderSlots)
      (virtuals ++ raws) applied dst = (p, .ok rebuilt) := by
  obtain ⟨prepared, hprep⟩ : ∃ prepared,
      prepareMetadataUpdate w.req w.state (virtuals ++ raws) applied = .ok prepared := by
    obtain ⟨_, -, -, hprep⟩ := prepareMetadataUpdate_of_fits hres.fits w.req w.state
    exact ⟨_, hprep⟩
  obtain ⟨p, rs, hpool⟩ := exists_poolAll hquiet htile hres.produces hdst w.kvPool
  have hrs := poolAll_eq_ok htile halloc.exact hres hpool
  obtain ⟨hnodup, hfresh⟩ := hres.fresh_ok halloc
  have hok := (repartition_of_tiled htile hres.fits.evicted_le layout.ok hnodup hfresh).1
  obtain ⟨hi, hwd, henc, hdec, -⟩ := read_eq_ok.1 hread
  have hfit : (keptVirtualSlots (frameRuns (virtuals ++ raws) layout.encoderSlots) virtuals.length
      applied ++ dst.getD [] ++ keptRawSlots (frameRuns (virtuals ++ raws) layout.encoderSlots)
      virtuals.length applied).length + layout.decoderSlots.length ≤ w.reqToToken.width := by
    have hle := hres.slotSum_le
    rw [hres.newRecords, slotSum_append, slotSum_append] at hle
    rw [length_append, length_append, length_keptVirtualSlots htile,
      length_keptRawSlots htile, hres.length_fresh halloc.exact]
    unfold encoderLength at henc
    unfold decoderLength at hdec
    omega
  obtain ⟨t', hwrt⟩ :=
    exists_write (t := w.reqToToken) (l := ⟨_, _, hok⟩) true hi hfit
  have hnew : (((frameRuns (virtuals ++ raws) layout.encoderSlots).take virtuals.length).drop
      applied.evictedVirtualCount ++ rs ++ (frameRuns (virtuals ++ raws) layout.encoderSlots).drop
      (virtuals.length + applied.agedRawTotal)).flatten =
      keptVirtualSlots (frameRuns (virtuals ++ raws) layout.encoderSlots) virtuals.length applied ++
        dst.getD [] ++
        keptRawSlots (frameRuns (virtuals ++ raws) layout.encoderSlots) virtuals.length applied := by
    rw [flatten_append, flatten_append, hrs]
    rfl
  dsimp only [rebuildRow]
  rw [hprep, oldVirtualCount_append hres.fits.virtuals_pooled hres.fits.raws_raw, hpool]
  dsimp only
  refine ⟨p, ⟨t', keptVirtualSlots (frameRuns (virtuals ++ raws) layout.encoderSlots)
    virtuals.length applied ++ dst.getD [] ++
    keptRawSlots (frameRuns (virtuals ++ raws) layout.encoderSlots) virtuals.length applied,
    rs, prepared⟩, Prod.ext rfl ?_⟩
  show (make _ layout.decoderSlots).mapError WindowError.layout >>= _ = _
  rw [hnew, make_of_ok hok]
  show (w.reqToToken.write i _ true).mapError WindowError.layout >>= _ = _
  rw [hwrt]
  rfl

/-- On a tiled row a round with a plan that fits returns. -/
theorem exists_applyFrameWindowPlan {available : Bool} (hfits : PlanFits virtuals raws plan)
    (hremoves : plan.removesFrames = true) (hindex : w.state.reqPoolIndex = some i)
    (hread : w.reqToToken.read i w.state.encoderLength w.state.decoderLength = .ok layout)
    (htile : slotSum (virtuals ++ raws) = layout.encoderSlots.length)
    (hprovider : env.provider = .ok available) (halloc : env.AllocFresh layout.asTuple)
    (hquiet : env.PoolsQuietly) :
    ∃ w' event, applyFrameWindowPlan env plan (virtuals ++ raws) w = (w', .ok event) := by
  have hopen := openRound_eq_ok.2 ⟨hremoves, hindex, hread, htile, rfl⟩
  obtain ⟨⟨applied, dst⟩, hreserve⟩ := exists_reservePooled hprovider (virtuals ++ raws)
    (frameRuns (virtuals ++ raws) layout.encoderSlots) plan
  obtain ⟨-, hdst, produced, hres⟩ := reservePooled_eq_ok htile hfits hreserve
  obtain ⟨p, rebuilt, hrebuilt⟩ :=
    exists_rebuildRow (i := i) hread htile hres hdst halloc hquiet
  unfold applyFrameWindowPlan
  rw [hopen]
  dsimp only
  rw [hreserve]
  dsimp only
  rw [hrebuilt]
  exact ⟨_, _, rfl⟩

theorem not_mem_row_of_write {t t' : ReqToToken} {l : MossVLRealtimeKVLayout}
    (h : t.write i l true = .ok t') {s : Int} (hpos : 0 < s) (hs : s ∉ l.asTuple) :
    s ∉ t'.row i := by
  rw [row_write_clear h, mem_append]
  rintro (hmem | hmem)
  · exact hs hmem
  · exact absurd (eq_of_mem_replicate hmem) (Int.ne_of_gt hpos)

variable [Sub τ] [LT τ] [DecidableLT τ] [Zero τ]

/-- A round with a planned plan, pooled or degraded, returns. The row then holds the kept
    virtual frames, the fresh slots of the pooled frames, the kept raw frames, the decoder
    slots and zeros; the slots of the frames that left, and no others, are freed, once. -/
theorem window_round_conserves_slots {env : WindowEnv P} {config : RealtimeFrameWindowConfig τ}
    {records : List (RealtimeFrameRecord τ)} {plan : FrameWindowPlan τ} {w : WindowWorld τ P}
    {i : Nat} {layout : MossVLRealtimeKVLayout} {available : Bool}
    (hindex : w.state.reqPoolIndex = some i)
    (hread : w.reqToToken.read i w.state.encoderLength w.state.decoderLength = .ok layout)
    (htile : slotSum records = w.state.encoderLength)
    (hplan : planFrameWindow records config = .ok (some plan))
    (hprovider : env.provider = .ok available) (halloc : env.AllocFresh layout.asTuple)
    (hquiet : env.PoolsQuietly) :
    let old := oldVirtualCount records
    let runs := frameRuns records layout.encoderSlots
    ∃ w' event applied dst,
      applyFrameWindowPlan env plan records w = (w', .ok event) ∧
      reservePooled env records runs plan = .ok (applied, dst) ∧
      w'.reqToToken.row i =
        keptVirtualSlots runs old applied ++ dst.getD [] ++ keptRawSlots runs old applied ++
          layout.decoderSlots ++
          List.replicate
            (w.reqToToken.width - (w'.state.encoderLength + w'.state.decoderLength)) 0 ∧
      w'.freed = w.freed ++ freeCall (departedSlots runs old applied) ∧
      (departedSlots runs old applied).Nodup ∧
      (∀ s ∈ departedSlots runs old applied, s ∉ w'.reqToToken.row i) ∧
      (∃ produced, w'.state.frameRecords =
          some ((records.take old).drop applied.evictedVirtualCount ++ produced ++
            records.drop (old + applied.agedRawTotal)) ∧
        slotSum produced = (dst.getD []).length) ∧
      (∃ newRecords, w'.state.frameRecords = some newRecords ∧
        slotSum newRecords = w'.state.encoderLength) ∧
      w'.state.decoderLength = w.state.decoderLength ∧
      w'.req.kvCommittedLen =
        w.req.kvCommittedLen.map (fun _ => w'.state.encoderLength + w'.state.decoderLength) ∧
      w'.req.kvAllocatedLen =
        w.req.kvAllocatedLen.map (fun _ => w'.state.encoderLength + w'.state.decoderLength) := by
  intro old runs
  obtain ⟨hfits, hremoves⟩ := planFrameWindow_fits hplan
  have hsplit : records.takeWhile (·.pooled) ++ records.dropWhile (·.pooled) = records :=
    takeWhile_append_dropWhile
  generalize records.takeWhile (·.pooled) = virtuals at hfits hsplit
  generalize records.dropWhile (·.pooled) = raws at hfits hsplit
  subst hsplit
  have hold : old = virtuals.length :=
    oldVirtualCount_append hfits.virtuals_pooled hfits.raws_raw
  obtain ⟨-, -, henc, hdec, -⟩ := read_eq_ok.1 hread
  have htiled : slotSum (virtuals ++ raws) = layout.encoderSlots.length := htile.trans henc.symm
  obtain ⟨w', event, happly⟩ := exists_applyFrameWindowPlan hfits hremoves hindex hread htiled
    hprovider halloc hquiet
  obtain ⟨i', layout', applied, dst, produced, prepared, newLayout, hreserve, hdone⟩ :=
    applyFrameWindowPlan_ok halloc.exact hfits happly
  obtain rfl : i' = i := some.inj (hdone.index.symm.trans hindex)
  obtain rfl : layout' = layout := Except.ok.inj (hdone.read.symm.trans hread)
  obtain ⟨hnodup, hfresh⟩ := hdone.reserved.fresh_ok halloc
  obtain ⟨-, hdeparted, hgone⟩ :=
    repartition_of_tiled htiled hdone.reserved.fits.evicted_le layout'.ok hnodup hfresh
  have henc' : w'.state.encoderLength = newLayout.encoderLength := by rw [hdone.state]
  have hdec' : w'.state.decoderLength = w.state.decoderLength := by rw [hdone.state]; rfl
  have hrecords : w'.state.frameRecords = some applied.newRecords := by rw [hdone.state]; rfl
  have htotal : newLayout.totalLength = w'.state.encoderLength + w'.state.decoderLength := by
    rw [totalLength, henc', hdec', ← hdec,
      decoderLength, hdone.decoder]
    rfl
  have htuple : newLayout.asTuple = keptVirtualSlots runs old applied ++ dst.getD [] ++
      keptRawSlots runs old applied ++ layout'.decoderSlots := by
    rw [asTuple, hdone.encoder, hdone.decoder, hold]
  refine ⟨w', event, applied, dst, happly, hreserve, ?_, ?_, ?_, ?_, ⟨produced, ?_, ?_⟩,
    ⟨applied.newRecords, hrecords, ?_⟩, hdec', ?_, ?_⟩
  · rw [row_write_clear hdone.written, htotal, htuple]
  · rw [hold]
    exact hdone.freed
  · rw [hold]
    exact hdeparted
  · intro s hs
    rw [hold] at hs
    obtain ⟨hpos, hnot⟩ := hgone s hs
    refine not_mem_row_of_write hdone.written hpos ?_
    rw [htuple, hold]
    exact hnot
  · rw [hrecords, hdone.reserved.newRecords, hold, agedRawTotal_eq, take_left,
      drop_length_add_append]
  · exact (hdone.reserved.length_fresh halloc.exact).symm
  · rw [henc']
    exact hdone.tiles halloc.exact
  · rw [hdone.req, henc', hdec']
    rfl
  · rw [hdone.req, henc', hdec']
    rfl

end Apply

/-! ## A round that pools -/

/-- A virtual frame and three raw ones; the first two raw frames have aged. -/
def exRecords : List (RealtimeFrameRecord Int) :=
  [⟨0, 2, 2, 1, true, 2⟩, ⟨2, 2, 2, 2, false, 1⟩, ⟨3, 2, 2, 2, false, 1⟩, ⟨9, 2, 2, 2, false, 1⟩]

def exWindowConfig : RealtimeFrameWindowConfig Int where
  enabled := true
  rawWindowS := 5
  poolWindowS := 2
  poolRatio := 2
  poolingEnabled := true
  rawWindow_pos := by decide
  poolWindow_pos := by decide
  two_le_poolRatio := by decide

/-- The pool is there, and the allocator has the slots 20 and 21 left. -/
def exWindowEnv : WindowEnv Unit where
  provider := .ok true
  alloc n := if n = 2 then some [20, 21] else none
  poolLayers _ _ _ _ := ((), none)
  availableSize := none

def exWindowWorld : WindowWorld Int Unit where
  reqToToken := ⟨12, [[1, 2, 3, 4, 5, 6, 7, 8, 9, 0, 0, 0]], by decide⟩
  state :=
    { requestId := "r", reqPoolIndex := some 0, encoderLength := 7, decoderLength := 2,
      survivingFrameCount := 4, frameRecords := some exRecords, visibleFrameCounts := some [1, 3, 4] }
  req := { rid := "r", kvAllocatedLen := some 9, kvCommittedLen := some 9 }
  kvPool := ()

/-- The old virtual frame is evicted, the two aged frames fold into one of two slots. -/
def exWindowPlan : FrameWindowPlan Int where
  evictedVirtualCount := 1
  rawChunks := [⟨0, 2, true⟩]
  newRecords := [⟨3, 2, 2, 2, true, 2⟩, ⟨9, 2, 2, 2, false, 1⟩]

theorem exWindowEnv_fresh : exWindowEnv.AllocFresh [1, 2, 3, 4, 5, 6, 7, 8, 9] := by
  intro n dst h
  dsimp only [exWindowEnv] at h
  split at h
  · next hn =>
    cases h
    subst hn
    decide
  · cases h

theorem window_round_conserves_slots_pooled :
    ∃ w' event, applyFrameWindowPlan exWindowEnv exWindowPlan exRecords exWindowWorld =
        (w', .ok event) ∧
      (∃ zeros, w'.reqToToken.row 0 = [20, 21, 6, 7, 8, 9] ++ List.replicate zeros 0) ∧
      w'.freed = [[1, 2, 3, 4, 5]] := by
  have hindex : exWindowWorld.state.reqPoolIndex = some 0 := rfl
  have hplan : planFrameWindow exRecords exWindowConfig = .ok (some exWindowPlan) := rfl
  have hprovider : exWindowEnv.provider = .ok true := rfl
  have hread : exWindowWorld.reqToToken.read 0 7 2 =
      .ok ⟨[1, 2, 3, 4, 5, 6, 7], [8, 9], ⟨by decide, by decide⟩⟩ := rfl
  obtain ⟨w', event, applied, dst, happly, hreserve, hrow, hfreed, -, -, -, -, -, -, -⟩ :=
    window_round_conserves_slots hindex hread rfl hplan hprovider exWindowEnv_fresh
      (fun _ _ _ _ => rfl)
  refine ⟨w', event, happly, ?_, ?_⟩ <;> cases hreserve
  · exact ⟨_, hrow⟩
  · exact hfreed

end OmniRealtime
