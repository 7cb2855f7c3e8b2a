import OmniRealtime.Vision.KvLayout

/-!
# Planning a frame-window round

`frame_window.py`, up to the plan: the records of the committed encoder frames, the
resolved thresholds and `plan_frame_window`. Timestamps are of any type with a difference
and an order; of floats nothing else is used.

1. `planFrameWindow_fits`: a plan drops leading virtual frames and leading raw frames,
   folds whole groups of raw frames, and keeps the rest in order.
2. `PlanFits.degraded`: so does the plan that pools nothing.
-/

namespace OmniRealtime

open List

/-! ## Records and thresholds -/

/-- Why a window round is refused or fails. -/
inductive WindowError
  | pooledNotLeading
  | emptyPlan
  | unboundRow
  | recordsDisagree (records row : Nat)
  | notCovered
  | spansDisagree
  | spansUnordered
  | indexOutOfRange
  | slotsNotAllocated
  | widthsDiffer
  | layout (error : KvLayoutError)
  | outside (text : String)
  deriving DecidableEq, Repr

def WindowError.message : WindowError → String
  | .pooledNotLeading => "pooled frames must form the leading encoder region"
  | .emptyPlan => "refusing to apply an empty frame window plan"
  | .unboundRow => "frame window requires a bound page-table row"
  | .recordsDisagree records row =>
    "frame records disagree with the encoder page-table region " ++
      s!"(records={records} slots, row={row} slots)"
  | .notCovered => "frame window plan does not cover every old record"
  | .spansDisagree => "frame window plan spans disagree with new records"
  | .spansUnordered => "plan spans must be ordered and non-empty"
  | .indexOutOfRange => "list assignment index out of range"
  | .slotsNotAllocated => "pooling slots were not allocated"
  | .widthsDiffer => "pool chunks require uniform member slot widths"
  | .layout error => error.message
  | .outside text => text

/-- One committed encoder frame, real or pooled. -/
structure RealtimeFrameRecord (τ : Type) where
  timestamp : τ
  gridH : Nat
  gridW : Nat
  slots : Nat
  pooled : Bool := false
  pooledSources : Nat := 1
  deriving DecidableEq, Repr

namespace RealtimeFrameRecord

variable {τ : Type}

def gridRow (r : RealtimeFrameRecord τ) : Nat × Nat × Nat := (1, r.gridH, r.gridW)

/-- What the members of a pooled frame must agree on. -/
def shape (r : RealtimeFrameRecord τ) : Nat × Nat × Nat := (r.gridH, r.gridW, r.slots)

end RealtimeFrameRecord

/-- The encoder slots of a run of frames. -/
def slotSum {τ : Type} (records : List (RealtimeFrameRecord τ)) : Nat :=
  (records.map (·.slots)).sum

/-- The raw frames a run of frames stands for. -/
def sourceSum {τ : Type} (records : List (RealtimeFrameRecord τ)) : Nat :=
  (records.map (·.pooledSources)).sum

@[simp]
theorem slotSum_nil {τ : Type} : slotSum ([] : List (RealtimeFrameRecord τ)) = 0 := rfl

@[simp]
theorem slotSum_cons {τ : Type} (r : RealtimeFrameRecord τ) (rs : List (RealtimeFrameRecord τ)) :
    slotSum (r :: rs) = r.slots + slotSum rs := by
  simp [slotSum]

@[simp]
theorem slotSum_append {τ : Type} (rs rs' : List (RealtimeFrameRecord τ)) :
    slotSum (rs ++ rs') = slotSum rs + slotSum rs' := by
  simp [slotSum]

/-- The thresholds of the two windows, as `__post_init__` lets them through. -/
structure RealtimeFrameWindowConfig (τ : Type) [Zero τ] [LT τ] where
  enabled : Bool := false
  rawWindowS : τ
  poolWindowS : τ
  poolRatio : Nat := 4
  poolingEnabled : Bool := false
  rawWindow_pos : 0 < rawWindowS
  poolWindow_pos : 0 < poolWindowS
  two_le_poolRatio : 2 ≤ poolRatio

/-! ## Plans -/

/-- A run of the aged raw frames; one that is not poolable is dropped. -/
structure RawChunk where
  start : Nat
  count : Nat
  poolable : Bool
  deriving DecidableEq, Repr

structure FrameWindowPlan (τ : Type) where
  evictedVirtualCount : Nat
  rawChunks : List RawChunk
  newRecords : List (RealtimeFrameRecord τ)
  deriving DecidableEq, Repr

open FrameWindowPlan

namespace FrameWindowPlan

variable {τ : Type} (plan : FrameWindowPlan τ)

def poolableChunks : List RawChunk := plan.rawChunks.filter (·.poolable)

def pooledRawCount : Nat := (plan.poolableChunks.map (·.count)).sum

def droppedRawCount : Nat := ((plan.rawChunks.filter (!·.poolable)).map (·.count)).sum

def producedVirtualCount : Nat := plan.poolableChunks.length

/-- The raw frames that leave the raw region. -/
def agedRawTotal : Nat := plan.pooledRawCount + plan.droppedRawCount

def removesFrames : Bool := 0 < plan.evictedVirtualCount || !plan.rawChunks.isEmpty

end FrameWindowPlan

section Plan

variable {τ : Type}

/-- The virtual frame a group folds into; none if the members differ in shape. -/
def foldGroup : List (RealtimeFrameRecord τ) → Option (RealtimeFrameRecord τ)
  | [] => none
  | first :: rest =>
    if rest.all (·.shape = first.shape) then
      some
        { timestamp := ((first :: rest).getLast (List.cons_ne_nil _ _)).timestamp
          gridH := first.gridH
          gridW := first.gridW
          slots := first.slots
          pooled := true
          pooledSources := (first :: rest).length }
    else none

/-- The frames of a chunk. -/
def chunkMembers (raws : List (RealtimeFrameRecord τ)) (c : RawChunk) :
    List (RealtimeFrameRecord τ) :=
  (raws.drop c.start).take c.count

/-- The pooling loop: `groups` full groups from `cursor` on, and the frames they produce. -/
def poolLoop (raws : List (RealtimeFrameRecord τ)) (ratio : Nat) :
    Nat → Nat → List RawChunk × List (RealtimeFrameRecord τ)
  | 0, _ => ([], [])
  | groups + 1, cursor =>
    let members := (raws.drop cursor).take ratio
    let rest := poolLoop raws ratio groups (cursor + members.length)
    match foldGroup members with
    | some record => (⟨cursor, members.length, true⟩ :: rest.1, record :: rest.2)
    | none => (⟨cursor, members.length, false⟩ :: rest.1, rest.2)

/-- Turns the first `expired` poolable chunks into plain drops. -/
def expireProduced : Nat → List RawChunk → List RawChunk
  | _, [] => []
  | expired, c :: cs =>
    if c.poolable ∧ 0 < expired then { c with poolable := false } :: expireProduced (expired - 1) cs
    else c :: expireProduced expired cs

variable [Sub τ] [LT τ] [DecidableLT τ]

/-- How many leading frames trail the newest by more than the window. -/
def trailingCount (newest window : τ) (frames : List (RealtimeFrameRecord τ)) : Nat :=
  (frames.takeWhile fun r => window < newest - r.timestamp).length

/-- Layer one: the raw frames that leave the raw window. -/
def agedRawCount (raws : List (RealtimeFrameRecord τ)) (window : τ) : Nat :=
  match raws.getLast? with
  | none => 0
  | some newest => trailingCount newest.timestamp window raws

/-- Layer two: the virtual frames that leave the pool window; the newest never does. -/
def expiredVirtualCount (virtuals : List (RealtimeFrameRecord τ)) (window : τ) : Nat :=
  match virtuals.getLast? with
  | none => 0
  | some newest => trailingCount newest.timestamp window virtuals.dropLast

def planFrameWindow [Zero τ] (records : List (RealtimeFrameRecord τ))
    (config : RealtimeFrameWindowConfig τ) :
    Except WindowError (Option (FrameWindowPlan τ)) :=
  let virtuals := records.takeWhile (·.pooled)
  let raws := records.dropWhile (·.pooled)
  let aged := agedRawCount raws config.rawWindowS
  let groups := aged / config.poolRatio
  let folded :=
    if config.poolingEnabled then poolLoop raws config.poolRatio groups 0
    else if aged = 0 then ([], [])
    else ([⟨0, aged, false⟩], [])
  let poolableCount := if config.poolingEnabled then groups * config.poolRatio else aged
  let virtualsAll := virtuals ++ folded.2
  let evicted := expiredVirtualCount virtualsAll config.poolWindowS
  let expiredProduced := evicted - virtuals.length
  if !config.enabled || records.isEmpty then .ok none
  else if raws.any (·.pooled) then .error .pooledNotLeading
  else if evicted = 0 ∧ folded.1 = [] then .ok none
  else
    .ok (some
      { evictedVirtualCount := if 0 < expiredProduced then virtuals.length else evicted
        -- groups this same round would evict are not pooled at all
        rawChunks := expireProduced expiredProduced folded.1
        newRecords := virtualsAll.drop evicted ++ raws.drop poolableCount })

end Plan

/-! ## What a plan does to the records -/

section Fits

variable {τ : Type}

/-- Chunks that follow one another from `cursor` on. -/
def ChunksFrom : Nat → List RawChunk → Prop
  | _, [] => True
  | cursor, c :: cs => c.start = cursor ∧ 0 < c.count ∧ ChunksFrom (cursor + c.count) cs

def chunkTotal (chunks : List RawChunk) : Nat := (chunks.map (·.count)).sum

@[simp]
theorem chunkTotal_nil : chunkTotal [] = 0 := rfl

@[simp]
theorem chunkTotal_cons (c : RawChunk) (cs : List RawChunk) :
    chunkTotal (c :: cs) = c.count + chunkTotal cs := by
  simp [chunkTotal]

variable {chunks : List RawChunk}

theorem ChunksFrom.bounds {start : Nat} (h : ChunksFrom start chunks) :
    ∀ c ∈ chunks, start ≤ c.start ∧ c.start + c.count ≤ start + chunkTotal chunks := by
  induction chunks generalizing start with
  | nil => intro c hc; cases hc
  | cons head rest ih =>
    obtain ⟨hsrt, -, hrest⟩ := h
    rw [chunkTotal_cons, ← add_assoc]
    intro c hc
    cases hc with
    | head => exact ⟨le_of_eq hsrt.symm, by omega⟩
    | tail _ hc =>
      obtain ⟨hlo, hhi⟩ := ih hrest c hc
      exact ⟨le_trans (Nat.le_add_right _ _) hlo, hhi⟩

theorem ChunksFrom.count_pos {start : Nat} (h : ChunksFrom start chunks) :
    ∀ c ∈ chunks, 0 < c.count := by
  induction chunks generalizing start with
  | nil => intro c hc; cases hc
  | cons head rest ih =>
    obtain ⟨-, hcnt, hrest⟩ := h
    intro c hc
    cases hc with
    | head => exact hcnt
    | tail _ hc => exact ih hrest c hc

/-- The virtual frames the poolable chunks fold into. -/
def Produces (raws : List (RealtimeFrameRecord τ)) (chunks : List RawChunk)
    (produced : List (RealtimeFrameRecord τ)) : Prop :=
  List.Forall₂ (fun c v => foldGroup (chunkMembers raws c) = some v)
    (chunks.filter (·.poolable)) produced

/-- A plan for the records `virtuals ++ raws`: which frames leave, which groups fold, and
    that the others stay in order. -/
structure PlanFits (virtuals raws : List (RealtimeFrameRecord τ)) (plan : FrameWindowPlan τ) :
    Prop where
  virtuals_pooled : ∀ v ∈ virtuals, v.pooled = true
  raws_raw : ∀ r ∈ raws, r.pooled = false
  evicted_le : plan.evictedVirtualCount ≤ virtuals.length
  chunks_from : ChunksFrom 0 plan.rawChunks
  aged_le : chunkTotal plan.rawChunks ≤ raws.length
  new_records : ∃ produced, Produces raws plan.rawChunks produced ∧
    plan.newRecords = virtuals.drop plan.evictedVirtualCount ++ produced ++
      raws.drop (chunkTotal plan.rawChunks)

theorem agedRawTotal_eq (plan : FrameWindowPlan τ) :
    plan.agedRawTotal = chunkTotal plan.rawChunks := by
  unfold agedRawTotal pooledRawCount
    droppedRawCount poolableChunks
  induction plan.rawChunks with
  | nil => rfl
  | cons c cs ih =>
    cases hc : c.poolable with
    | true => simp [hc, ← ih, add_assoc]
    | false => simp [hc, ← ih, add_left_comm]

theorem foldGroup_eq_some {members : List (RealtimeFrameRecord τ)} {v : RealtimeFrameRecord τ}
    (h : foldGroup members = some v) :
    members ≠ [] ∧ v.pooled = true ∧ v.pooledSources = members.length ∧
      ∀ m ∈ members, m.slots = v.slots := by
  cases members with
  | nil => simp [foldGroup] at h
  | cons first rest =>
    rw [foldGroup] at h
    split at h
    · next hall =>
      cases h
      refine ⟨cons_ne_nil _ _, rfl, rfl, fun m hm => ?_⟩
      rcases mem_cons.1 hm with rfl | hm
      · rfl
      · have hshp : m.shape = first.shape := by simpa using List.all_eq_true.1 hall m hm
        exact congrArg (fun s => s.2.2) hshp
    · cases h

variable {raws produced : List (RealtimeFrameRecord τ)}

theorem Produces.pooled (h : Produces raws chunks produced) : ∀ v ∈ produced, v.pooled = true := by
  unfold Produces at h
  generalize chunks.filter (·.poolable) = poolable at h
  induction h with
  | nil => intro v hv; cases hv
  | cons hfold _ ih =>
    intro v hv
    rcases mem_cons.1 hv with rfl | hv
    · exact (foldGroup_eq_some hfold).2.1
    · exact ih v hv

/-- Every group the loop makes is full, and the produced frames are those of the poolable
    groups. -/
theorem poolLoop_spec (raws : List (RealtimeFrameRecord τ)) {ratio : Nat} (hr : 0 < ratio) :
    ∀ (groups cursor : Nat), cursor + groups * ratio ≤ raws.length →
      ChunksFrom cursor (poolLoop raws ratio groups cursor).1 ∧
      chunkTotal (poolLoop raws ratio groups cursor).1 = groups * ratio ∧
      Produces raws (poolLoop raws ratio groups cursor).1
        (poolLoop raws ratio groups cursor).2 := by
  intro groups
  induction groups with
  | zero =>
    intro cursor _
    exact ⟨trivial, by simp [poolLoop], List.Forall₂.nil⟩
  | succ n ih =>
    intro cursor hle
    rw [Nat.succ_mul] at hle
    have hlen : ((raws.drop cursor).take ratio).length = ratio := by
      rw [length_take, length_drop]
      omega
    obtain ⟨hf, ht, hprod⟩ := ih (cursor + ratio) (by omega)
    unfold poolLoop
    simp only [hlen]
    split
    · next record hfold =>
      refine ⟨⟨rfl, hr, hf⟩, ?_, ?_⟩
      · rw [chunkTotal_cons, ht, Nat.succ_mul, add_comm]
      · exact List.Forall₂.cons hfold hprod
    · refine ⟨⟨rfl, hr, hf⟩, ?_, hprod⟩
      rw [chunkTotal_cons, ht, Nat.succ_mul, add_comm]

@[simp]
theorem chunkTotal_expireProduced (expired : Nat) (chunks : List RawChunk) :
    chunkTotal (expireProduced expired chunks) = chunkTotal chunks := by
  induction chunks generalizing expired with
  | nil => rfl
  | cons c cs ih =>
    unfold expireProduced
    split <;> simp [ih]

theorem chunksFrom_expireProduced :
    ∀ {cursor : Nat} (expired : Nat), ChunksFrom cursor chunks →
      ChunksFrom cursor (expireProduced expired chunks) := by
  induction chunks with
  | nil => intro _ _ h; exact h
  | cons c cs ih =>
    intro cursor expired h
    obtain ⟨hsrt, hcnt, hrest⟩ := h
    unfold expireProduced
    split
    · exact ⟨hsrt, hcnt, ih _ hrest⟩
    · exact ⟨hsrt, hcnt, ih _ hrest⟩

theorem expireProduced_eq_nil {expired : Nat} :
    expireProduced expired chunks = [] ↔ chunks = [] := by
  cases chunks with
  | nil => simp [expireProduced]
  | cons c cs => unfold expireProduced; split <;> simp

/-- The first `expired` poolable chunks are no longer poolable, the others still are. -/
theorem filter_expireProduced (expired : Nat) (chunks : List RawChunk) :
    (expireProduced expired chunks).filter (·.poolable) =
      (chunks.filter (·.poolable)).drop expired := by
  induction chunks generalizing expired with
  | nil => simp [expireProduced]
  | cons c cs ih =>
    unfold expireProduced
    cases hc : c.poolable with
    | false => simp [hc, ih]
    | true =>
      cases expired with
      | zero | succ n => simp [hc, ih]

theorem Produces.expire (h : Produces raws chunks produced) (expired : Nat) :
    Produces raws (expireProduced expired chunks) (produced.drop expired) := by
  unfold Produces
  rw [filter_expireProduced]
  exact forall₂_drop expired h

/-- The groups the planner folds before it looks at the virtual frames. -/
theorem folded_spec [Zero τ] [LT τ] (raws : List (RealtimeFrameRecord τ))
    (config : RealtimeFrameWindowConfig τ)
    {aged : Nat} (haged : aged ≤ raws.length) :
    let groups := aged / config.poolRatio
    let folded :=
      if config.poolingEnabled then poolLoop raws config.poolRatio groups 0
      else if aged = 0 then ([], [])
      else ([⟨0, aged, false⟩], [])
    ChunksFrom 0 folded.1 ∧ chunkTotal folded.1 =
        (if config.poolingEnabled then groups * config.poolRatio else aged) ∧
      chunkTotal folded.1 ≤ raws.length ∧ Produces raws folded.1 folded.2 := by
  intro groups folded
  have hratio : 0 < config.poolRatio := lt_of_lt_of_le (by decide) config.two_le_poolRatio
  cases hp : config.poolingEnabled with
  | true =>
    have hle : groups * config.poolRatio ≤ aged := Nat.div_mul_le_self _ _
    obtain ⟨hf, ht, hprod⟩ := poolLoop_spec raws hratio groups 0 (by omega)
    have hfolded : folded = poolLoop raws config.poolRatio groups 0 := if_pos hp
    rw [hfolded, ht]
    exact ⟨hf, rfl, le_trans hle haged, hprod⟩
  | false =>
    by_cases h0 : aged = 0
    · have hfolded : folded = ([], []) := by simp [folded, hp, h0]
      rw [hfolded]
      exact ⟨trivial, h0.symm, Nat.zero_le _, List.Forall₂.nil⟩
    · have hfolded : folded = ([⟨0, aged, false⟩], []) := by simp [folded, hp, h0]
      rw [hfolded]
      exact ⟨⟨rfl, Nat.pos_of_ne_zero h0, trivial⟩, rfl, haged, List.Forall₂.nil⟩

variable {virtuals : List (RealtimeFrameRecord τ)}

theorem fits_of_folded {evicted : Nat} (hv : ∀ v ∈ virtuals, v.pooled = true)
    (hraw : ∀ r ∈ raws, r.pooled = false) (hf : ChunksFrom 0 chunks)
    (ht : chunkTotal chunks ≤ raws.length) (hprod : Produces raws chunks produced) :
    PlanFits virtuals raws
      { evictedVirtualCount := if 0 < evicted - virtuals.length then virtuals.length else evicted
        rawChunks := expireProduced (evicted - virtuals.length) chunks
        newRecords := (virtuals ++ produced).drop evicted ++ raws.drop (chunkTotal chunks) } where
  virtuals_pooled := hv
  raws_raw := hraw
  evicted_le := by
    dsimp only
    split <;> omega
  chunks_from := chunksFrom_expireProduced _ hf
  aged_le := by rw [chunkTotal_expireProduced]; exact ht
  new_records := by
    refine ⟨produced.drop (evicted - virtuals.length), hprod.expire _, ?_⟩
    rw [chunkTotal_expireProduced, drop_append]
    dsimp only
    split
    · rw [drop_of_length_le (by omega), drop_length]
    · rfl

theorem removesFrames_of_folded {newRecords : List (RealtimeFrameRecord τ)} {evicted : Nat}
    (hprod : Produces raws chunks produced) (hle : evicted ≤ (virtuals ++ produced).length - 1)
    (hsome : ¬(evicted = 0 ∧ chunks = [])) :
    FrameWindowPlan.removesFrames
      { evictedVirtualCount := if 0 < evicted - virtuals.length then virtuals.length else evicted
        rawChunks := expireProduced (evicted - virtuals.length) chunks
        newRecords := newRecords } = true := by
  rw [removesFrames, Bool.or_eq_true]
  by_cases hc : chunks = []
  · -- nothing was folded, so the evicted frames are old ones
    left
    subst hc
    have hnil : produced = [] := forall₂_nil_left_iff.1 hprod
    have hpos : 0 < evicted := Nat.pos_of_ne_zero fun h0 => hsome ⟨h0, rfl⟩
    rw [hnil, append_nil] at hle
    rw [decide_eq_true_eq, if_neg (by omega)]
    exact hpos
  · right
    simpa [expireProduced_eq_nil] using hc

section Trailing

variable [Sub τ] [LT τ] [DecidableLT τ]

theorem trailingCount_le (newest window : τ) (frames : List (RealtimeFrameRecord τ)) :
    trailingCount newest window frames ≤ frames.length :=
  (takeWhile_sublist _).length_le

theorem agedRawCount_le (raws : List (RealtimeFrameRecord τ)) (window : τ) :
    agedRawCount raws window ≤ raws.length := by
  unfold agedRawCount
  cases raws.getLast? with
  | none => exact Nat.zero_le _
  | some newest => exact trailingCount_le _ _ _

/-- The newest virtual frame stays. -/
theorem expiredVirtualCount_le (virtuals : List (RealtimeFrameRecord τ)) (window : τ) :
    expiredVirtualCount virtuals window ≤ virtuals.length - 1 := by
  unfold expiredVirtualCount
  cases virtuals.getLast? with
  | none => exact Nat.zero_le _
  | some newest =>
    have h := trailingCount_le newest.timestamp window virtuals.dropLast
    rwa [length_dropLast] at h

variable [Zero τ]

theorem planFrameWindow_fits {records : List (RealtimeFrameRecord τ)}
    {config : RealtimeFrameWindowConfig τ} {plan : FrameWindowPlan τ}
    (h : planFrameWindow records config = .ok (some plan)) :
    PlanFits (records.takeWhile (·.pooled)) (records.dropWhile (·.pooled)) plan ∧
      plan.removesFrames = true := by
  unfold planFrameWindow at h
  have hspec := folded_spec (records.dropWhile (·.pooled)) config
    (agedRawCount_le (records.dropWhile (·.pooled)) config.rawWindowS)
  simp only at h hspec
  generalize hfolded : (if config.poolingEnabled = true then _ else _ :
    List RawChunk × List (RealtimeFrameRecord τ)) = folded at h hspec
  obtain ⟨hf, ht, hle, hprod⟩ := hspec
  rw [← ht] at h
  split at h
  · cases h
  · split at h
    · cases h
    · next hany =>
      split at h
      · cases h
      · next hsome =>
        cases h
        refine ⟨fits_of_folded ?_ ?_ hf hle hprod, ?_⟩
        · intro v hv
          exact mem_takeWhile_imp hv
        · intro r hr
          simpa using fun hp => hany (List.any_eq_true.2 ⟨r, hr, hp⟩)
        · exact removesFrames_of_folded hprod (expiredVirtualCount_le _ _) hsome

end Trailing

/-! ## The degraded plan -/

def oldVirtualCount (records : List (RealtimeFrameRecord τ)) : Nat := records.countP (·.pooled)

def degradedNewRecords (records : List (RealtimeFrameRecord τ)) (plan : FrameWindowPlan τ) :
    List (RealtimeFrameRecord τ) :=
  (records.take (oldVirtualCount records)).drop plan.evictedVirtualCount ++
    records.drop (oldVirtualCount records + plan.agedRawTotal)

/-- The plan of a round that could not pool: every chunk is dropped. -/
def degradedPlan (records : List (RealtimeFrameRecord τ)) (plan : FrameWindowPlan τ) :
    FrameWindowPlan τ where
  evictedVirtualCount := plan.evictedVirtualCount
  rawChunks := plan.rawChunks.map fun c => { c with poolable := false }
  newRecords := degradedNewRecords records plan

theorem chunksFrom_unpooled : ∀ {cursor : Nat}, ChunksFrom cursor chunks →
      ChunksFrom cursor (chunks.map fun c => { c with poolable := false }) := by
  induction chunks with
  | nil => intro _ h; exact h
  | cons c cs ih =>
    intro cursor h
    obtain ⟨hsrt, hcnt, hrest⟩ := h
    exact ⟨hsrt, hcnt, ih hrest⟩

theorem chunkTotal_unpooled (chunks : List RawChunk) :
    chunkTotal (chunks.map fun c => { c with poolable := false }) = chunkTotal chunks := by
  induction chunks with
  | nil => rfl
  | cons c cs ih => simp [ih]

theorem filter_unpooled (chunks : List RawChunk) :
    (chunks.map fun c => { c with poolable := false }).filter (·.poolable) = [] := by
  induction chunks with
  | nil => rfl
  | cons c cs ih => simp

theorem oldVirtualCount_append (hv : ∀ v ∈ virtuals, v.pooled = true)
    (hraw : ∀ r ∈ raws, r.pooled = false) :
    oldVirtualCount (virtuals ++ raws) = virtuals.length := by
  have hzero : raws.countP (·.pooled) = 0 := by
    rw [countP_eq_zero]
    intro r hr
    simp [hraw r hr]
  rw [oldVirtualCount, countP_append, hzero, add_zero]
  exact countP_eq_length.2 hv

theorem PlanFits.countP_raw {plan : FrameWindowPlan τ} (h : PlanFits virtuals raws plan)
    (hprod : Produces raws plan.rawChunks produced) :
    (virtuals.drop plan.evictedVirtualCount ++ produced ++
      raws.drop (chunkTotal plan.rawChunks)).countP (!·.pooled) =
      raws.length - chunkTotal plan.rawChunks := by
  have hvirtual : (virtuals.drop plan.evictedVirtualCount).countP (!·.pooled) = 0 := by
    rw [countP_eq_zero]
    intro v hv
    simp [h.virtuals_pooled v (mem_of_mem_drop hv)]
  have hproduced : produced.countP (!·.pooled) = 0 := by
    rw [countP_eq_zero]
    intro v hv
    simp [hprod.pooled v hv]
  have hkept : (raws.drop (chunkTotal plan.rawChunks)).countP (!·.pooled) =
      (raws.drop (chunkTotal plan.rawChunks)).length := by
    rw [countP_eq_length]
    intro r hr
    simp [h.raws_raw r (mem_of_mem_drop hr)]
  rw [countP_append, countP_append, hvirtual, hproduced, hkept, length_drop]
  omega

theorem PlanFits.degraded {plan : FrameWindowPlan τ} (h : PlanFits virtuals raws plan) :
    PlanFits virtuals raws (degradedPlan (virtuals ++ raws) plan) where
  virtuals_pooled := h.virtuals_pooled
  raws_raw := h.raws_raw
  evicted_le := h.evicted_le
  chunks_from := chunksFrom_unpooled h.chunks_from
  aged_le := by
    show chunkTotal (plan.rawChunks.map _) ≤ _
    rw [chunkTotal_unpooled]
    exact h.aged_le
  new_records := by
    refine ⟨[], ?_, ?_⟩
    · unfold Produces
      rw [show (degradedPlan (virtuals ++ raws) plan).rawChunks.filter (·.poolable) = [] from
        filter_unpooled plan.rawChunks]
      exact List.Forall₂.nil
    · show degradedNewRecords _ _ = _
      rw [degradedNewRecords, oldVirtualCount_append h.virtuals_pooled h.raws_raw,
        take_left, drop_length_add_append, agedRawTotal_eq, append_nil]
      show _ = virtuals.drop plan.evictedVirtualCount ++
        raws.drop (chunkTotal (plan.rawChunks.map _))
      rw [chunkTotal_unpooled]

end Fits

end OmniRealtime
