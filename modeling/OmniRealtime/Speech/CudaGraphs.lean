import OmniRealtime.Lib.Dict
import OmniRealtime.Lib.Proc
import OmniRealtime.Lib.PyFloat

/-!
# CUDA graphs of Code2Wav

`Code2WavCudaGraphRunner` of `models/qwen3_omni/components/code2wav_cuda_graph.py`. What CUDA does
is a parameter: a call changes the world and returns or raises. Counters and texts that are only
reported are left out, and so is what a roll-back asks of CUDA: whatever that raises is logged.

1. `captureAttempt`, `buildLoop`, `build`: how the graphs are captured and published.
2. `Captured.body`: what an attempt that does not fail has captured and measured.
3. `buildLoop_ends`: the retries end.
4. `graph_build_all_or_nothing`: what is published, and what decoding finds afterwards.
-/

namespace OmniRealtime

namespace CudaGraphs

open List Proc

structure GraphKey where
  batchSize : Int
  frames : Int
deriving DecidableEq, Repr

structure MemoryStats where
  allocatedBytes : Int
  reservedBytes : Int
  totalBytes : Int
deriving DecidableEq, Repr

inductive CudaFault
  | outOfMemory
  /-- Any other exception, `_BuildFailure` among them. -/
  | failure (reason : String)
deriving DecidableEq, Repr

/-- The calls that give nothing back. -/
inductive CudaCall
  | enterDevice
  | exitDevice
  | graphPoolHandle
  | newStream
  | newStaticInput (key : GraphKey)
  | warmup (key : GraphKey)
  /-- The model is run without a graph. -/
  | eager (key : GraphKey)
  | replay (key : GraphKey)
  | verifyEquivalence (key : GraphKey)
  | synchronize
  | emptyCache
deriving DecidableEq, Repr

/-- CUDA, with `γ` for a captured graph. -/
structure CudaApi (ω γ : Type) where
  call : CudaCall → ω → Except CudaFault Unit × ω
  capture : GraphKey → ω → Except CudaFault γ × ω
  memoryStats : ω → Except CudaFault MemoryStats × ω

/-- The local variables of `_capture_attempt`, the last measurement and the world. -/
structure Attempt (ω γ : Type) where
  world : ω
  temporary : Dict GraphKey γ := []
  violationIndex : Option Nat := none
  combinedViolation : Bool := false
  tier0Started : Bool := false
  after : Option MemoryStats := none

inductive AttemptOutcome (γ : Type)
  | published (temporary : Dict GraphKey γ) (after : Option MemoryStats)
  | disable (reason : String)
  | shrink (remaining : List GraphKey)

def priorityOrder (keys : List GraphKey) : List GraphKey :=
  keys.mergeSort fun a b =>
    decide (b.batchSize < a.batchSize ∨ b.batchSize = a.batchSize ∧ b.frames ≤ a.frames)

def footprint (before after : MemoryStats) : Int :=
  max 0 (max (after.allocatedBytes - before.allocatedBytes)
    (after.reservedBytes - before.reservedBytes))

section Capture

variable {ω γ : Type} (cuda : CudaApi ω γ)

abbrev Task (ω γ α : Type) : Type := Proc (Attempt ω γ) CudaFault α

/-- A call of CUDA in an attempt. -/
def ask {α : Type} (f : ω → Except CudaFault α × ω) : Task ω γ α := fun s =>
  ((f s.world).1, { s with world := (f s.world).2 })

def captureGraph (key : GraphKey) : Task ω γ γ :=
  .andThen (ask (cuda.call (.newStaticInput key))) fun _ =>
  .andThen (ask (cuda.call (.warmup key))) fun _ =>
  .andThen (ask (cuda.capture key)) fun graph =>
  .andThen (ask (cuda.call (.eager key))) fun _ =>
  .andThen (ask (cuda.call (.replay key))) fun _ =>
  .andThen (ask (cuda.call (.verifyEquivalence key))) fun _ => .ret graph

def Attempt.store (key : GraphKey) (graph : γ) (s : Attempt ω γ) : Attempt ω γ :=
  { s with temporary := s.temporary.set key graph }

variable (before : MemoryStats) (graphBudget : Int)

/-- The batched keys, largest first, up to the first that leaves the budget. -/
def captureTier1 : List GraphKey → Nat → Task ω γ Unit
  | [], _ => .ret ()
  | key :: keys, index =>
    .andThen (captureGraph cuda key) fun graph =>
    .andThen (.modify (Attempt.store key graph)) fun _ =>
    .andThen (ask (cuda.call .synchronize)) fun _ =>
    .andThen (ask (cuda.call .emptyCache)) fun _ =>
    .andThen (ask cuda.memoryStats) fun snapshot =>
    if graphBudget < footprint before snapshot then
      .modify fun s => { s with violationIndex := some index }
    else captureTier1 keys (index + 1)

/-- The keys of single requests. -/
def captureTier0 : List GraphKey → Task ω γ Unit
  | [] => .ret ()
  | key :: keys =>
    .andThen (captureGraph cuda key) fun graph =>
    .andThen (.modify (Attempt.store key graph)) fun _ => captureTier0 keys

variable (tier0Keys tier1Keys : List GraphKey)

/-- What follows when no batched key left the budget. -/
def closeWithTier0 : Task ω γ Unit :=
  .andThen (.modify fun s => { s with tier0Started := true }) fun _ =>
  .andThen (captureTier0 cuda (priorityOrder tier0Keys)) fun _ =>
  .andThen (ask (cuda.call .synchronize)) fun _ =>
  .andThen (ask (cuda.call .emptyCache)) fun _ =>
  .andThen (ask cuda.memoryStats) fun after =>
  .andThen (.modify fun s => { s with after := some after }) fun _ =>
  if graphBudget < footprint before after then
    if tier1Keys = [] then .raise (.failure "memory_budget_exceeded")
    else .modify fun s => { s with combinedViolation := true }
  else .ret ()

/-- The `try` of `_capture_attempt`. -/
def attemptBody : Task ω γ Unit :=
  .andThen (ask (cuda.call .enterDevice)) fun _ =>
  .ensure
    (.andThen (ask (cuda.call .graphPoolHandle)) fun _ =>
      .andThen (ask (cuda.call .newStream)) fun _ =>
      .andThen (if tier1Keys = [] then .ret before else ask cuda.memoryStats) fun _ =>
      .andThen (captureTier1 cuda before graphBudget tier1Keys 0) fun _ =>
      .andThen (.asks Attempt.violationIndex) fun violation =>
      if violation = none then closeWithTier0 cuda before graphBudget tier0Keys tier1Keys
      else .ret ())
    (ask (cuda.call .exitDevice))

/-- The keys that are left when a key, or all keys together, left the budget. -/
def shrunk (violationIndex : Option Nat) (combinedViolation : Bool) : List GraphKey :=
  match tier1Keys with
  | [] => []
  | largest :: _ =>
    if combinedViolation = true ∨ violationIndex = some 0 then
      tier1Keys.filter fun key => decide (key.batchSize < largest.batchSize)
    else tier1Keys.take (violationIndex.getD 0)

/-- The cache is emptied after an attempt is torn down; what fails is logged. -/
def emptyAfterwards (w : ω) : ω :=
  let emptied := Proc.andThen (cuda.call .enterDevice) fun _ =>
    Proc.ensure (cuda.call .emptyCache) (cuda.call .exitDevice)
  (emptied w).2

def captureAttempt (w : ω) : AttemptOutcome γ × ω :=
  let torn (s : Attempt ω γ) (remaining : List GraphKey) : AttemptOutcome γ × ω :=
    (.shrink remaining, emptyAfterwards cuda s.world)
  match attemptBody cuda before graphBudget tier0Keys tier1Keys { world := w } with
  | (.ok (), s) =>
    if s.violationIndex = none ∧ s.combinedViolation = false then
      (.published s.temporary s.after, s.world)
    else torn s (shrunk tier1Keys s.violationIndex s.combinedViolation)
  | (.error .outOfMemory, s) =>
    if tier1Keys = [] then (.disable "capture_failed", s.world)
    else if s.tier0Started then torn s (shrunk tier1Keys s.violationIndex true)
    else torn s (shrunk tier1Keys (some s.temporary.length) s.combinedViolation)
  | (.error (.failure reason), s) =>
    if tier1Keys ≠ [] ∧ s.tier0Started = false then torn s []
    else (.disable reason, s.world)

def tier1MaxAttempts : Nat := 6

/-- The retries of `_build`: what is published, or why nothing is. `none` when they take more rounds
    than allowed here. -/
def buildLoop : Nat → Nat → List GraphKey → ω →
    Option (Except String (Dict GraphKey γ × Option MemoryStats) × ω)
  | 0, _, _, _ => none
  | rounds + 1, attempts, remaining, w =>
    let spent := decide (remaining = [] ∨ tier1MaxAttempts ≤ attempts)
    match captureAttempt cuda before graphBudget tier0Keys (if spent then [] else remaining) w with
    | (.shrink remaining, w) =>
      buildLoop rounds (if spent then attempts else attempts + 1) remaining w
    | (.disable reason, w) => some (.error reason, w)
    | (.published temporary after, w) => some (.ok (temporary, after), w)

end Capture

/-! ## The runner -/

/-- The runner, as far as it is about its graphs. -/
structure Runner (γ : Type) where
  graphKeys : List GraphKey
  graphs : Dict GraphKey γ := []
  sizesByFrames : Dict Int (List Int) := []
  enabled : Bool := false
  disableReason : Option String := none
  before : Option MemoryStats := none
  after : Option MemoryStats := none
  graphBudget : Option Int := none

section Runner

variable {ω γ : Type}

namespace Runner

def tier0Keys (r : Runner γ) : List GraphKey := r.graphKeys.filter fun k => k.batchSize = 1

def tier1Keys (r : Runner γ) : List GraphKey := r.graphKeys.filter fun k => 1 < k.batchSize

/-- `_rollback_build` and `_disable_runtime`. -/
def disable (r : Runner γ) (reason : String) : Runner γ :=
  { r with graphs := [], sizesByFrames := [], enabled := false, disableReason := some reason }

/-- The batch sizes of some keys with as many frames, largest first. -/
def sizesOf (keys : List GraphKey) (frames : Int) : List Int :=
  ((keys.filter fun k => k.frames = frames).map GraphKey.batchSize).dedup.mergeSort
    fun a b => decide (b ≤ a)

/-- The graphs among `temporary` of some keys. -/
def graphsOf (temporary : Dict GraphKey γ) (keys : List GraphKey) : Dict GraphKey γ :=
  keys.foldl (fun (d : Dict GraphKey γ) k => match temporary.get k with
    | some graph => d.set k graph
    | none => d) []

/-- The graphs of an attempt become visible. -/
def publish (r : Runner γ) (temporary : Dict GraphKey γ) (after : Option MemoryStats) : Runner γ :=
  let graphs : Dict GraphKey γ := graphsOf temporary r.graphKeys
  { r with
    graphs
    sizesByFrames := (graphs.keys.map GraphKey.frames).dedup.map fun frames =>
      (frames, sizesOf graphs.keys frames)
    enabled := true
    after }

def availableBatchSizes (r : Runner γ) (frames : Int) : List Int :=
  (r.sizesByFrames.get frames).getD []

end Runner

/-- `_valid_fraction` of a value that is no number, or of the float it is. -/
def validFraction : Option PyFloat → Option ℚ
  | some (.finite q) => if 0 < q ∧ q ≤ 1 then some q else none
  | _ => none

/-- `_build`. The product of a size and the fraction is a parameter. -/
def build (cuda : CudaApi ω γ) (scale : Int → ℚ → Int) (rounds : Nat) (graphKeys : List GraphKey)
    (totalGpuMemoryFraction : Option PyFloat) (w : ω) : Option (Runner γ × ω) :=
  match validFraction totalGpuMemoryFraction with
  | none => some ({ graphKeys, disableReason := some "invalid_total_gpu_memory_fraction" }, w)
  | some fraction =>
    let snapshot := Proc.andThen (cuda.call .enterDevice) fun _ =>
      Proc.ensure cuda.memoryStats (cuda.call .exitDevice)
    match snapshot w with
    | (.error _, w) => some (Runner.disable { graphKeys } "capture_failed", w)
    | (.ok before, w) =>
      let graphBudget := max 0 (scale before.totalBytes fraction - before.allocatedBytes)
      let runner : Runner γ := { graphKeys, before := some before, graphBudget := some graphBudget }
      (buildLoop cuda before graphBudget runner.tier0Keys rounds 0
        (priorityOrder runner.tier1Keys) w).map fun
        | (.ok (temporary, after), w) => (runner.publish temporary after, w)
        | (.error reason, w) => (runner.disable reason, w)

end Runner

/-! ## Decoding -/

/-- How `run` ends. -/
inductive RunMode
  | cudaGraph
  | disabled
  | ineligible
  | keyMiss
  | replayFailed
deriving DecidableEq, Repr

/-- `run`, of codes of the shape of a key; the replay fails or not. -/
def Runner.run {γ : Type} (r : Runner γ) (key : GraphKey) (eligible replayFails : Bool) :
    RunMode × Runner γ :=
  if r.enabled = false then (.disabled, r)
  else if eligible = false then (.ineligible, r)
  else
    match r.graphs.get key with
    | none => (.keyMiss, r)
    | some _ => if replayFails then (.replayFailed, r.disable "runtime_replay_failed")
      else (.cudaGraph, r)

/-- Calls of `run`, one after the other. -/
def Runner.decode {γ : Type} (r : Runner γ) (calls : List (GraphKey × Bool × Bool)) : Runner γ :=
  calls.foldl (fun r c => (r.run c.1 c.2.1 c.2.2).2) r

/-! ## Attempts -/

section Attempts

variable {ω γ : Type} {cuda : CudaApi ω γ} {before : MemoryStats} {graphBudget : Int}
  {tier0Keys tier1Keys : List GraphKey} {P : Attempt ω γ → Prop} {temporary : Dict GraphKey γ}

/-- A condition that does not depend on the world. -/
def Steady (P : Attempt ω γ → Prop) : Prop := ∀ s w, P s → P { s with world := w }

theorem Steady.ask (hP : Steady P) {α : Type} (f : ω → Except CudaFault α × ω) :
    Triple P (ask f) fun _ => P :=
  fun s hs => hP s _ hs

theorem Steady.captureGraph (hP : Steady P) (key : GraphKey) :
    Triple P (captureGraph cuda key) fun _ => P := by
  unfold CudaGraphs.captureGraph
  iterate 6 refine (hP.ask _).andThen (fun _ => ?_) fun _ _ hs => hs
  exact .ret fun _ hs => hs

theorem captureTier0_captures (keys : List GraphKey) (hP : Steady P)
    (hstore : ∀ s key graph, P s → P (s.store key graph)) :
    Proc.Triple P (captureTier0 cuda keys) fun r s =>
      P s ∧ (r = .ok () → ∀ key ∈ keys, key ∈ s.temporary.keys) := by
  induction keys generalizing P with
  | nil => exact .ret fun s hs => ⟨hs, fun _ => List.forall_mem_nil _⟩
  | cons key keys ih =>
    refine (hP.captureGraph key).andThen (fun graph => ?_) fun e s hs => ⟨hs, nofun⟩
    refine Triple.andThen (Q := fun _ s => P s ∧ key ∈ s.temporary.keys)
      (.modify fun s hs => ⟨hstore s key graph hs, Dict.mem_keys_set.mpr (.inl rfl)⟩)
      (fun _ => ?_) fun e s hs => ⟨hs.1, nofun⟩
    refine (ih (P := fun s => P s ∧ key ∈ s.temporary.keys) ?_ ?_).post ?_
    · exact fun s w hs => ⟨hP s w hs.1, hs.2⟩
    · exact fun s k graph hs => ⟨hstore s k graph hs.1, Dict.mem_keys_set.mpr (.inr hs.2)⟩
    · rintro r s ⟨⟨hs, hkey⟩, hall⟩
      exact ⟨hs, fun hok => List.forall_mem_cons.mpr ⟨hkey, hall hok⟩⟩

/-- No key and no set of keys left the budget. -/
def Attempt.Clean (s : Attempt ω γ) : Prop :=
  s.violationIndex = none ∧ s.combinedViolation = false

/-- The keys of single requests are captured, and what all keys hold was measured. -/
def Complete (before : MemoryStats) (graphBudget : Int) (tier0Keys : List GraphKey)
    (temporary : Dict GraphKey γ) (after : Option MemoryStats) : Prop :=
  (∀ key ∈ tier0Keys, key ∈ temporary.keys) ∧
    ∃ stats, after = some stats ∧ footprint before stats ≤ graphBudget

/-- How the `try` of an attempt ends. -/
def Captured (before : MemoryStats) (graphBudget : Int) (tier0Keys tier1Keys : List GraphKey)
    (r : Except CudaFault Unit) (s : Attempt ω γ) : Prop :=
  (tier1Keys = [] → s.Clean) ∧
    (r = .ok () → s.Clean → Complete before graphBudget tier0Keys s.temporary s.after)

namespace Captured

theorem closeWithTier0 :
    Proc.Triple (fun s : Attempt ω γ => tier1Keys = [] → s.Clean)
      (closeWithTier0 cuda before graphBudget tier0Keys tier1Keys)
      (Captured before graphBudget tier0Keys tier1Keys) := by
  refine Triple.andThen (Q := fun _ s => tier1Keys = [] → s.Clean)
    (.modify fun _ hs => hs) (fun _ => ?_) fun e s hs => ⟨hs, nofun⟩
  refine (captureTier0_captures (priorityOrder tier0Keys) (fun _ _ hs => hs)
    fun _ _ _ hs => hs).andThen (fun _ => ?_) fun e s hs => ⟨hs.1, nofun⟩
  let P : Attempt ω γ → Prop := fun s =>
    (tier1Keys = [] → s.Clean) ∧ ∀ key ∈ tier0Keys, key ∈ s.temporary.keys
  have hP : Steady P := fun _ _ hs => hs
  refine Triple.conseq (P := P) ?_ (fun s hs => ⟨hs.1, fun key hkey => ?_⟩) fun _ _ h => h
  · refine (hP.ask _).andThen (fun _ => ?_) fun e s hs => ⟨hs.1, nofun⟩
    refine (hP.ask _).andThen (fun _ => ?_) fun e s hs => ⟨hs.1, nofun⟩
    refine (hP.ask _).andThen (fun after => ?_) fun e s hs => ⟨hs.1, nofun⟩
    refine Triple.andThen (Q := fun _ s => P s ∧ s.after = some after)
      (.modify fun _ hs => ⟨hs, rfl⟩) (fun _ => ?_) fun e s hs => ⟨hs.1.1, nofun⟩
    split
    · split
      · exact .raise fun s hs => ⟨hs.1.1, nofun⟩
      next hbatched =>
        exact .modify fun s _ => ⟨fun h => absurd h hbatched, fun _ hc => nomatch hc.2⟩
    next hwithin =>
      exact .ret fun s hs =>
        ⟨hs.1.1, fun _ _ => ⟨hs.1.2, after, hs.2, Int.not_lt.mp hwithin⟩⟩
  · exact hs.2 rfl key (List.mem_mergeSort.mpr hkey)

theorem body :
    Proc.Triple (fun s : Attempt ω γ => tier1Keys = [] → s.Clean)
      (attemptBody cuda before graphBudget tier0Keys tier1Keys)
      (Captured before graphBudget tier0Keys tier1Keys) := by
  have hP : Steady fun s : Attempt ω γ => tier1Keys = [] → s.Clean := fun _ _ hs => hs
  refine (hP.ask _).andThen (fun _ => ?_) fun e s hs => ⟨hs, nofun⟩
  refine Triple.ensure (Q := Captured before graphBudget tier0Keys tier1Keys) ?_
    fun r s hs => ?_
  · refine (hP.ask _).andThen (fun _ => ?_) fun e s hs => ⟨hs, nofun⟩
    refine (hP.ask _).andThen (fun _ => ?_) fun e s hs => ⟨hs, nofun⟩
    refine Triple.andThen (Q := fun _ s => tier1Keys = [] → s.Clean) ?_ (fun _ => ?_)
      fun e s hs => ⟨hs, nofun⟩
    · split
      · exact .ret fun _ hs => hs
      · exact hP.ask _
    refine Triple.andThen (Q := fun _ s => tier1Keys = [] → s.Clean) ?_ (fun _ => ?_)
      fun e s hs => ⟨hs, nofun⟩
    · by_cases hnone : tier1Keys = []
      · subst hnone
        exact .ret fun _ hs => hs
      · exact fun _ _ h => absurd h hnone
    refine Triple.andThen
      (Q := fun r s => (tier1Keys = [] → s.Clean) ∧ r = .ok s.violationIndex)
      (.asks fun _ hs => ⟨hs, rfl⟩) (fun violation => ?_) fun e s hs => ⟨hs.1, nofun⟩
    split
    · exact closeWithTier0.conseq (fun _ hs => hs.1) fun _ _ h => h
    next hviolation =>
      refine .ret fun s hs => ⟨hs.1, fun _ hc => ?_⟩
      exact absurd ((Except.ok.inj hs.2).trans hc.1) hviolation
  · cases hexit : (ask (cuda.call .exitDevice) s).1 with
    | ok => exact hs
    | error e => exact ⟨hs.1, nofun⟩

end Captured

theorem captureAttempt_published {w w' : ω} {after : Option MemoryStats}
    (h : captureAttempt cuda before graphBudget tier0Keys tier1Keys w =
      (.published temporary after, w')) :
    Complete before graphBudget tier0Keys temporary after := by
  have hends := (Captured.body : Triple _
    (attemptBody cuda before graphBudget tier0Keys tier1Keys) _) { world := w } fun _ => ⟨rfl, rfl⟩
  dsimp only [captureAttempt] at h
  split at h
  next s hbody =>
    rw [hbody] at hends
    split at h
    next hc =>
      cases h
      exact hends.2 rfl hc
    · cases h
  · split at h
    · cases h
    · split at h <;> cases h
  · split at h <;> cases h

section Rounds

variable (cuda before graphBudget tier0Keys)

/-- An attempt without batched keys is the last one. -/
theorem captureAttempt_nil (w : ω) (remaining : List GraphKey) :
    (captureAttempt cuda before graphBudget tier0Keys [] w).1 ≠ .shrink remaining := by
  have hends := (Captured.body : Triple _
    (attemptBody cuda before graphBudget tier0Keys []) _) { world := w } fun _ => ⟨rfl, rfl⟩
  dsimp only [captureAttempt]
  split
  next s hbody =>
    rw [hbody] at hends
    have hc : s.violationIndex = none ∧ s.combinedViolation = false := hends.1 rfl
    rw [if_pos hc]
    exact nofun
  · rw [if_pos rfl]
    exact nofun
  · rw [if_neg fun h => h.1 rfl]
    exact nofun

theorem buildLoop_ends {rounds attempts : Nat} (h : tier1MaxAttempts - attempts < rounds)
    (remaining : List GraphKey) (w : ω) :
    ∃ result, buildLoop cuda before graphBudget tier0Keys rounds attempts remaining w =
      some result := by
  induction rounds generalizing attempts remaining w with
  | zero => exact absurd h (Nat.not_lt_zero _)
  | succ rounds ih =>
    rw [buildLoop]
    by_cases hspent : remaining = [] ∨ tier1MaxAttempts ≤ attempts
    · have hlast := captureAttempt_nil cuda before graphBudget tier0Keys w
      simp only [decide_eq_true hspent, if_true]
      split
      next left w' heq => exact absurd (congrArg Prod.fst heq) (hlast left)
      · exact ⟨_, rfl⟩
      · exact ⟨_, rfl⟩
    · have hleft : tier1MaxAttempts - (attempts + 1) < rounds := by
        have hlt := Nat.lt_of_not_le fun h => hspent (.inr h)
        omega
      simp only [decide_eq_false hspent]
      split
      · exact ih hleft _ _
      · exact ⟨_, rfl⟩
      · exact ⟨_, rfl⟩

end Rounds

theorem buildLoop_published {rounds attempts : Nat} {remaining : List GraphKey} {w w' : ω}
    {after : Option MemoryStats}
    (h : buildLoop cuda before graphBudget tier0Keys rounds attempts remaining w =
      some (.ok (temporary, after), w')) :
    Complete before graphBudget tier0Keys temporary after := by
  induction rounds generalizing attempts remaining w with
  | zero => cases h
  | succ rounds ih =>
    rw [buildLoop] at h
    split at h
    · exact ih h
    · cases h
    next heq =>
      cases h
      exact captureAttempt_published heq

end Attempts

/-! ## What is published -/

namespace Runner

variable {ω γ : Type}

theorem mem_keys_graphsOf {temporary : Dict GraphKey γ} {keys : List GraphKey} {key : GraphKey} :
    key ∈ (graphsOf temporary keys).keys ↔ key ∈ keys ∧ key ∈ temporary.keys := by
  have hfold : ∀ d : Dict GraphKey γ, key ∈ Dict.keys (keys.foldl
      (fun (d : Dict GraphKey γ) k => match temporary.get k with
        | some graph => d.set k graph
        | none => d) d) ↔ key ∈ d.keys ∨ key ∈ keys ∧ key ∈ temporary.keys := by
    induction keys with
    | nil => simp
    | cons k keys ih =>
      intro d
      rw [foldl_cons, ih, List.mem_cons]
      cases hget : temporary.get k with
      | none =>
        have hk := Dict.get_eq_none.mp hget
        have hne : key ∈ temporary.keys → key ≠ k := fun h heq => hk (heq ▸ h)
        tauto
      | some graph =>
        have hk : k ∈ temporary.keys := by
          by_contra hnot
          exact Option.some_ne_none _ (hget.symm.trans (Dict.get_eq_none.mpr hnot))
        have heq : key = k → key ∈ temporary.keys := fun h => h ▸ hk
        rw [Dict.mem_keys_set]
        tauto
  rw [graphsOf, hfold]
  exact or_iff_right not_mem_nil

theorem get_map {β : Type} (keys : List Int) (f : Int → β) (key : Int) :
    Dict.get (keys.map fun key => (key, f key)) key =
      if key ∈ keys then some (f key) else none := by
  unfold Dict.get
  induction keys with
  | nil => rfl
  | cons k keys ih =>
    rw [map_cons, lookup_cons, ih]
    by_cases heq : key = k
    · subst heq
      simp
    · simp [beq_eq_false_iff_ne.mpr heq, heq]

theorem mem_sizesOf {keys : List GraphKey} {frames size : Int} :
    size ∈ sizesOf keys frames ↔ ⟨size, frames⟩ ∈ keys := by
  rw [sizesOf, mem_mergeSort, mem_dedup, mem_map]
  constructor
  · rintro ⟨⟨_, _⟩, hkey, rfl⟩
    obtain ⟨hmem, hfms⟩ := mem_filter.mp hkey
    exact (of_decide_eq_true hfms : _ = frames) ▸ hmem
  · exact fun h => ⟨_, mem_filter.mpr ⟨h, decide_eq_true rfl⟩, rfl⟩

/-- What holds of a runner at any time after it was built. -/
structure AllOrNothing (r : Runner γ) : Prop where
  published : r.enabled = false ∧ r.graphs = [] ∨
    r.enabled = true ∧ ∀ key ∈ r.graphKeys, key.batchSize = 1 → key ∈ r.graphs.keys
  withinBudget : r.enabled = true → ∃ before after budget, r.before = some before ∧
    r.after = some after ∧ r.graphBudget = some budget ∧ footprint before after ≤ budget
  table : ∀ frames size, size ∈ r.availableBatchSizes frames ↔ ⟨size, frames⟩ ∈ r.graphs.keys

namespace AllOrNothing

variable {r : Runner γ}

theorem disabled (henabled : r.enabled = false) (hgraphs : r.graphs = [])
    (hsizes : r.sizesByFrames = []) : r.AllOrNothing where
  published := .inl ⟨henabled, hgraphs⟩
  withinBudget h := nomatch henabled.symm.trans h
  table frames size := by
    rw [availableBatchSizes, hgraphs, hsizes]
    exact iff_of_false not_mem_nil not_mem_nil

theorem publish {before : MemoryStats} {graphBudget : Int} {temporary : Dict GraphKey γ}
    {after : Option MemoryStats} (hbef : r.before = some before)
    (hbudget : r.graphBudget = some graphBudget)
    (h : Complete before graphBudget r.tier0Keys temporary after) :
    (r.publish temporary after).AllOrNothing := by
  obtain ⟨hcaptured, stats, hafter, hwithin⟩ := h
  refine ⟨.inr ⟨rfl, fun key hkey hone => ?_⟩, fun _ => ?_, fun frames size => ?_⟩
  · exact mem_keys_graphsOf.mpr
      ⟨hkey, hcaptured key (mem_filter.mpr ⟨hkey, decide_eq_true hone⟩)⟩
  · exact ⟨before, stats, graphBudget, hbef, hafter, hbudget, hwithin⟩
  · change size ∈ (Dict.get (map _ _) frames).getD [] ↔ ⟨size, frames⟩ ∈ Dict.keys (graphsOf _ _)
    rw [get_map]
    split
    · exact mem_sizesOf
    next hnone =>
      refine iff_of_false not_mem_nil fun hkey => hnone ?_
      exact mem_dedup.mpr (mem_map.mpr ⟨_, hkey, rfl⟩)

theorem run (h : r.AllOrNothing) (key : GraphKey) (eligible replayFails : Bool) :
    (r.run key eligible replayFails).2.AllOrNothing := by
  unfold Runner.run
  split
  · exact h
  split
  · exact h
  split
  · exact h
  split
  · exact disabled rfl rfl rfl
  · exact h

theorem decode (h : r.AllOrNothing) (calls : List (GraphKey × Bool × Bool)) :
    (r.decode calls).AllOrNothing := by
  induction calls generalizing r with
  | nil => exact h
  | cons c calls ih => exact ih (h.run c.1 c.2.1 c.2.2)

end AllOrNothing

end Runner

open Runner

/-- Whatever CUDA does, `_build` ends. Decoding then finds all graphs of single requests, within
    the budget, or none; the batch sizes it is told of are those of the graphs it finds. -/
theorem graph_build_all_or_nothing {ω γ : Type} (cuda : CudaApi ω γ) (scale : Int → ℚ → Int)
    (graphKeys : List GraphKey) (totalGpuMemoryFraction : Option PyFloat) (w : ω) (more : Nat) :
    ∃ r w', build cuda scale (tier1MaxAttempts + 1 + more) graphKeys totalGpuMemoryFraction w =
        some (r, w') ∧
      r.graphKeys = graphKeys ∧ ∀ calls, (r.decode calls).AllOrNothing := by
  unfold build
  split
  · exact ⟨_, _, rfl, rfl, (AllOrNothing.disabled rfl rfl rfl).decode⟩
  dsimp only
  split
  · exact ⟨_, _, rfl, rfl, (AllOrNothing.disabled rfl rfl rfl).decode⟩
  next before w' _ =>
    have hrounds : tier1MaxAttempts - 0 < tier1MaxAttempts + 1 + more := by omega
    obtain ⟨⟨outcome, w''⟩, hloop⟩ := buildLoop_ends cuda before _ _ hrounds _ _
    rw [hloop]
    cases outcome with
    | error reason => exact ⟨_, _, rfl, rfl, (AllOrNothing.disabled rfl rfl rfl).decode⟩
    | ok built =>
      exact ⟨_, _, rfl, rfl, (AllOrNothing.publish rfl rfl (buildLoop_published hloop)).decode⟩

end CudaGraphs

end OmniRealtime
