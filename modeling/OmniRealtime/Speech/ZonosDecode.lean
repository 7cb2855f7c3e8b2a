import OmniRealtime.Speech.ZonosFrames
import OmniRealtime.Speech.ZonosPool

/-!
# Steps of the ZONOS2 runner

`Zonos2ModelRunner` over its pool: prefills, decode steps with or without a lookahead, and what the
scheduler does to a request. A step samples a frame for every request of its batch; which one comes
with the step. The frames of a request are on the host once they are resolved, and in its pool row
from the launch on. A request is told by its place in the order of arrival: its id may come again.

1. `collectLaunch_spec`: what a launch does to the rows of its batch.
2. `foldl_resolved`: what a resolve adds to a request.
-/

namespace OmniRealtime

open List Function

open StatePool (PoolOk Grew Shrank)

/-! ## Requests and steps -/

inductive ZonosPhase
  /-- in the waiting queue: new, or retracted -/
  | waiting
  | running
  | ended
  deriving DecidableEq, Repr

/-- `Zonos2SGLangRequestData`. -/
structure ZonosRequest (S : Type) where
  requestId : String
  prompt : ZonosPrompt S
  repetitionPenalty : ℚ
  outputCodes : List ZonosFrame := []
  eosFrame : Option Int := none
  phase : ZonosPhase := .waiting

/-- A request in a batch and the frame that is sampled for it; a prefill begins at `prefixLen`. -/
structure BatchItem where
  request : Nat
  codes : ZonosFrame
  prefixLen : Nat := 0
  deriving DecidableEq, Repr

/-- What a launch keeps of a request for the resolve. -/
structure LaunchEntry where
  request : Nat
  codes : ZonosFrame
  eosFrame : Option Int
  deriving DecidableEq, Repr

structure ZonosState (E S : Type) where
  requests : List (ZonosRequest S) := []
  pool : StatePool (PoolRow E)
  /-- launched and not yet resolved, oldest first -/
  pending : List (List LaunchEntry) := []

inductive ZonosOp (S : Type)
  | arrive (request : ZonosRequest S)
  | prefill (batch : List BatchItem)
  | decode (batch : List BatchItem) (useGraph lookahead : Bool)
  | resolve
  | retract (request : Nat)
  | finish (request : Nat)
  | abort (request : Nat)

/-- What a step is given for a request, before it samples. -/
structure StepInput (E : Type) where
  input : List E
  repWindow : Option (List (List Int))
  breakToken : Option Int
  generationStep : Int
  deriving DecidableEq

section Runner

variable {E S : Type} (m : ZonosModel E S)

/-! ## The runner -/

/-- The rows of a batch, each with its new frame. The rows are distinct. -/
def scatter (rows : Nat → PoolRow E) (updates : List (Nat × ZonosFrame)) : Nat → PoolRow E :=
  updates.foldl (fun rows u => Function.update rows u.1 (m.collect (rows u.1) u.2)) rows

namespace ZonosState

def requestId (s : ZonosState E S) (it : BatchItem) : String :=
  match s.requests[it.request]? with
  | some d => d.requestId
  | none => ""

def ids (s : ZonosState E S) (batch : List BatchItem) : List String := batch.map s.requestId

/-- `_collect_launch`: none where the pool is exhausted. -/
def collectLaunch (ids : List String) (p : StatePool (PoolRow E)) (batch : List BatchItem) :
    StatePool (PoolRow E) × Option (List LaunchEntry) :=
  match p.prepareActiveRows ids with
  | (p, .error _) => (p, none)
  | (p, .ok rows) =>
    let rows' := scatter m p.rows (rows.zip (batch.map BatchItem.codes))
    ({ p with rows := rows' },
      some ((batch.zip rows).map fun u =>
        { request := u.1.request, codes := u.1.codes, eosFrame := ZonosModel.recordedEos (rows' u.2) }))

/-- `_collect_resolve`, for one request. -/
def resolved (d : ZonosRequest S) (entry : LaunchEntry) : ZonosRequest S :=
  { d with outputCodes := d.outputCodes ++ [entry.codes], eosFrame := entry.eosFrame }

def collectResolve (requests : List (ZonosRequest S)) (entries : List LaunchEntry) :
    List (ZonosRequest S) :=
  entries.foldl (fun requests entry =>
    requests.modify entry.request fun d => resolved d entry) requests

def setPhase (requests : List (ZonosRequest S)) (chosen : List Nat) (phase : ZonosPhase) :
    List (ZonosRequest S) :=
  requests.mapIdx fun i d => if i ∈ chosen then { d with phase := phase } else d

/-- `before_decode`: `write_zonos2_buffers` up to the gather. -/
def stageDecode (s : ZonosState E S) (batch : List BatchItem) :
    StatePool (PoolRow E) × Except String (List Nat) :=
  (s.pool.releaseInactive m.resetRow (s.ids batch)).prepareActiveRows (s.ids batch)

/-- A request ends; the result adapter and the abort callback release its row. -/
def release (s : ZonosState E S) (request : Nat) : ZonosState E S :=
  match s.requests[request]? with
  | none => s
  | some d =>
    { s with
      requests := setPhase s.requests [request] .ended
      pool := s.pool.releaseRow m.resetRow d.requestId }

def apply (s : ZonosState E S) : ZonosOp S → ZonosState E S
  | .arrive d => { s with requests := s.requests ++ [d] }
  | .prefill batch =>
    match collectLaunch m (s.ids batch) s.pool batch with
    | (p, none) => { s with pool := p }
    | (p, some entries) =>
      { s with
        requests := collectResolve (setPhase s.requests (batch.map BatchItem.request) .running) entries
        pool := p }
  | .decode batch _ lookahead =>
    match s.stageDecode m batch with
    | (p, .error _) => { s with pool := p }
    | (p, .ok _) =>
      match collectLaunch m (s.ids batch) p batch with
      | (p, none) => { s with pool := p }
      | (p, some entries) =>
        if lookahead then { s with pool := p, pending := s.pending ++ [entries] }
        else { s with requests := collectResolve s.requests entries, pool := p }
  | .resolve =>
    match s.pending with
    | [] => s
    | entries :: pending =>
      { s with requests := collectResolve s.requests entries, pending := pending }
  | .retract request => { s with requests := setPhase s.requests [request] .waiting }
  | .finish request => s.release m request
  | .abort request => s.release m request

/-! ## What a step is given -/

/-- The repetition window is left out where the first request of the batch has no penalty; the
    captured graph always has it. -/
def windowed (s : ZonosState E S) (batch : List BatchItem) (useGraph : Bool) : Bool :=
  useGraph || match batch.head?.bind fun it => s.requests[it.request]? with
    | some d => d.repetitionPenalty ≠ 1
    | none => true

def inputOf (row : PoolRow E) (windowed : Bool) (input : List E) : StepInput E where
  input := input
  repWindow := if windowed then some (m.repWindow row.repHist) else none
  breakToken := ZonosModel.breakToken row.repHist row.repLen
  generationStep := row.generationStep

/-- SGLang extends over what is not in the cache: the prompt and the frames so far. Chunked prefill
    is off. -/
def prefillInput (s : ZonosState E S) (it : BatchItem) : List E :=
  match s.requests[it.request]? with
  | none => []
  | some d => m.prefillEmbeds d.prompt it.prefixLen
      (d.prompt.promptRows.length + d.outputCodes.length - it.prefixLen)

def prefillInputs (s : ZonosState E S) (batch : List BatchItem) : List (BatchItem × StepInput E) :=
  match s.pool.prepareActiveRows (s.ids batch) with
  | (_, .error _) => []
  | (p, .ok rows) =>
    (batch.zip rows).map fun u =>
      (u.1, inputOf m (p.rows u.2) (s.windowed batch false) (s.prefillInput m u.1))

def decodeInputs (s : ZonosState E S) (batch : List BatchItem) (useGraph : Bool) :
    List (BatchItem × StepInput E) :=
  match s.stageDecode m batch with
  | (_, .error _) => []
  | (p, .ok rows) =>
    match p.prepareActiveRows (s.ids batch) with
    | (_, .error _) => []
    | (p', .ok rows') =>
      (batch.zip (rows.zip rows')).map fun u =>
        (u.1, inputOf m (p'.rows u.2.2) (s.windowed batch useGraph) [(p.rows u.2.1).feedbackEmbed])

/-! ## Runs -/

/-- The frames launched for a request and not yet resolved. -/
def launchedFrames (pending : List (List LaunchEntry)) (i : Nat) : List ZonosFrame :=
  pending.flatMap fun entries => (entries.filter (·.request = i)).map LaunchEntry.codes

/-- All frames of a request. -/
def frames (s : ZonosState E S) (i : Nat) : List ZonosFrame :=
  (match s.requests[i]? with
    | some d => d.outputCodes
    | none => []) ++ launchedFrames s.pending i

/-- What the scheduler keeps to: a batch has no request twice, a prefill takes waiting requests and
    a decode step running ones, and nothing but a lookahead is launched before the last step is
    resolved. -/
def Enabled (s : ZonosState E S) : ZonosOp S → Prop
  | .arrive d => d.outputCodes = [] ∧ d.eosFrame = none ∧ d.phase = .waiting ∧
      ∀ e ∈ s.requests, e.requestId = d.requestId → e.phase = .ended
  | .prefill batch => s.pending = [] ∧ batch ≠ [] ∧ (batch.map BatchItem.request).Nodup ∧
      ∀ it ∈ batch, ∃ d, s.requests[it.request]? = some d ∧ d.phase = .waiting ∧
        it.prefixLen < d.prompt.promptRows.length + d.outputCodes.length
  | .decode batch _ lookahead => (lookahead = true ∨ s.pending = []) ∧ batch ≠ [] ∧
      (batch.map BatchItem.request).Nodup ∧
      ∀ it ∈ batch, ∃ d, s.requests[it.request]? = some d ∧ d.phase = .running
  | .resolve => True
  | .retract i => ∃ d, s.requests[i]? = some d ∧ d.phase = .running
  | .finish i => ∃ d, s.requests[i]? = some d ∧ d.phase = .running
  | .abort i => ∃ d, s.requests[i]? = some d ∧ d.phase ≠ .ended

/-- A batch whose first request has no penalty has no request with one. -/
def PenaltyAgrees (s : ZonosState E S) (batch : List BatchItem) : Prop :=
  s.windowed batch false = false →
    ∀ it ∈ batch, ∀ d, s.requests[it.request]? = some d → d.repetitionPenalty ≤ 1

/-- What keeps the rows right: no prefill of a request that has frames, a decode step over all
    running requests, and a repetition window where a request asks for it. -/
def Tidy (s : ZonosState E S) : ZonosOp S → Prop
  | .prefill batch => (∀ it ∈ batch, ∀ d, s.requests[it.request]? = some d → d.outputCodes = []) ∧
      s.PenaltyAgrees batch
  | .decode batch useGraph _ =>
    (∀ i d, s.requests[i]? = some d → d.phase = .running → i ∈ batch.map BatchItem.request) ∧
      (useGraph = true ∨ s.PenaltyAgrees batch)
  | _ => True

/-! ## Requests after a step -/

theorem getElem?_setPhase (requests : List (ZonosRequest S)) (chosen : List Nat)
    (phase : ZonosPhase) (i : Nat) :
    (setPhase requests chosen phase)[i]? =
      requests[i]?.map fun d => if i ∈ chosen then { d with phase := phase } else d := by
  rw [setPhase, getElem?_mapIdx]

theorem getElem?_collectResolve (requests : List (ZonosRequest S)) (entries : List LaunchEntry)
    (i : Nat) : (collectResolve requests entries)[i]? =
      requests[i]?.map fun d => (entries.filter (·.request = i)).foldl resolved d := by
  induction entries generalizing requests with
  | nil => simp [collectResolve]
  | cons entry entries ih =>
    rw [collectResolve, foldl_cons, ← collectResolve, ih, getElem?_modify]
    by_cases hi : entry.request = i
    · simp [hi, Option.map_map, comp_def]
    · simp [hi]

/-- What a resolve leaves of a request as it was. -/
structure SameRequest (d d' : ZonosRequest S) : Prop where
  requestId : d'.requestId = d.requestId
  prompt : d'.prompt = d.prompt
  penalty : d'.repetitionPenalty = d.repetitionPenalty
  phase : d'.phase = d.phase

theorem foldl_resolved (entries : List LaunchEntry) (d : ZonosRequest S) :
    SameRequest d (entries.foldl resolved d) ∧
      (entries.foldl resolved d).outputCodes = d.outputCodes ++ entries.map LaunchEntry.codes := by
  induction entries generalizing d with
  | nil => exact ⟨⟨rfl, rfl, rfl, rfl⟩, (append_nil _).symm⟩
  | cons entry entries ih =>
    obtain ⟨hsame, hcodes⟩ := ih (resolved d entry)
    refine ⟨⟨hsame.requestId, hsame.prompt, hsame.penalty, hsame.phase⟩, ?_⟩
    rw [foldl_cons, hcodes]
    simp [resolved]

/-! ## A launch -/

variable {m}

theorem scatter_of_not_mem {updates : List (Nat × ZonosFrame)} {row : Nat}
    (hrow : row ∉ updates.map Prod.fst) (rows : Nat → PoolRow E) :
    scatter m rows updates row = rows row := by
  induction updates generalizing rows with
  | nil => rfl
  | cons u updates ih =>
    rw [map_cons, mem_cons, not_or] at hrow
    rw [scatter, foldl_cons, ← scatter, ih hrow.2, update_of_ne hrow.1]

theorem scatter_of_mem {updates : List (Nat × ZonosFrame)} (hnd : (updates.map Prod.fst).Nodup)
    {u : Nat × ZonosFrame} (hu : u ∈ updates) (rows : Nat → PoolRow E) :
    scatter m rows updates u.1 = m.collect (rows u.1) u.2 := by
  induction updates generalizing rows with
  | nil => exact absurd hu not_mem_nil
  | cons v updates ih =>
    obtain ⟨hv, hnd⟩ := nodup_cons.1 hnd
    rw [scatter, foldl_cons, ← scatter]
    rcases mem_cons.1 hu with rfl | hu
    · rw [scatter_of_not_mem hv, update_self]
    · have hne : u.1 ≠ v.1 := fun heq => hv (heq ▸ mem_map_of_mem hu)
      rw [ih hnd hu, update_of_ne hne]

theorem rows_of_ids {p : StatePool (PoolRow E)} {batch : List BatchItem} (rid : BatchItem → String)
    {rows : List Nat} (h : (batch.map rid).map p.rowOf = rows.map some) :
    ∃ row : BatchItem → Nat, rows = batch.map row ∧
      ∀ it ∈ batch, p.rowOf (rid it) = some (row it) := by
  refine ⟨fun it => (p.rowOf (rid it)).getD 0, ?_, ?_⟩
  · have h := congrArg (List.map fun row : Option Nat => row.getD 0) h
    simpa [map_map, comp_def] using h.symm
  · intro it hit
    have hmem : p.rowOf (rid it) ∈ rows.map some :=
      h ▸ mem_map_of_mem (mem_map_of_mem hit)
    obtain ⟨row, -, hrow⟩ := mem_map.1 hmem
    dsimp only
    rw [← hrow]
    rfl

theorem zip_map_self {α β : Type} (xs : List α) (f : α → β) :
    xs.zip (xs.map f) = xs.map fun x => (x, f x) := by
  have h : (xs.map id).zip (xs.map f) = xs.map fun x => (id x, f x) := zip_map'
  simpa using h

/-- What a launch does: every request of the batch has a row, its frame is collected there, and
    its end is recorded. -/
theorem collectLaunch_spec {p p' : StatePool (PoolRow E)} (h : PoolOk m.resetRow p)
    {batch : List BatchItem} {rid : BatchItem → String} {entries : Option (List LaunchEntry)}
    (hnd : (batch.map rid).Nodup)
    (hlaunch : collectLaunch m (batch.map rid) p batch = (p', entries)) :
    ∃ q, Grew m.resetRow p q ∧
      match entries with
      | none => p' = q
      | some entries => PoolOk m.resetRow p' ∧ p'.paddingRow = q.paddingRow ∧
          (∀ r, p'.rowOf r = q.rowOf r) ∧
          (∀ r row, r ∉ batch.map rid → q.rowOf r = some row → p'.rows row = q.rows row) ∧
          ∃ row : BatchItem → Nat, (∀ it ∈ batch, q.rowOf (rid it) = some (row it) ∧
              p'.rows (row it) = m.collect (q.rows (row it)) it.codes) ∧
            entries = batch.map fun it =>
              { request := it.request, codes := it.codes
                eosFrame := ZonosModel.recordedEos (p'.rows (row it)) } := by
  obtain ⟨hg, hrows⟩ := StatePool.prepareActiveRows_spec h (batch.map rid)
  unfold collectLaunch at hlaunch
  cases hprepare : p.prepareActiveRows (batch.map rid) with
  | mk q res =>
    rw [hprepare] at hg hrows hlaunch
    cases res with
    | error message =>
      cases hlaunch
      exact ⟨_, hg, rfl⟩
    | ok rows =>
      obtain ⟨row, rfl, hheld⟩ := rows_of_ids rid (hrows rows rfl)
      cases hlaunch
      have hupdates : (batch.map row).zip (batch.map BatchItem.codes) =
          batch.map fun it => (row it, it.codes) := by
        rw [zip_map']
      have hdistinct : (((batch.map row).zip (batch.map BatchItem.codes)).map Prod.fst).Nodup := by
        rw [hupdates, map_map]
        refine List.Nodup.map_on ?_ (List.Nodup.of_map rid hnd)
        intro it hit it' hit' heq
        have hrid : rid it = rid it' := by
          refine hg.ok.exclusive.injective _ _ (row it) (hheld it hit) ?_
          rw [show row it = row it' from heq]
          exact hheld it' hit'
        exact inj_on_of_nodup_map hnd hit hit' hrid
      have hin : ∀ it ∈ batch, (row it, it.codes) ∈
          (batch.map row).zip (batch.map BatchItem.codes) := by
        intro it hit
        rw [hupdates]
        exact mem_map_of_mem hit
      have hout : ∀ r x, r ∉ batch.map rid → q.rowOf r = some x →
          x ∉ ((batch.map row).zip (batch.map BatchItem.codes)).map Prod.fst := by
        intro r x hr hx hmem
        rw [hupdates, map_map] at hmem
        obtain ⟨it, hit, rfl⟩ := mem_map.1 hmem
        refine hr ?_
        rw [hg.ok.exclusive.injective _ _ _ hx (hheld it hit)]
        exact mem_map_of_mem hit
      refine ⟨q, hg, ⟨hg.ok.exclusive, hg.ok.keys, ?_, hg.ok.memo⟩, rfl, fun _ => rfl,
        ?_, row, ?_, ?_⟩
      · -- A row of the batch is not free.
        intro x hx
        refine (scatter_of_not_mem ?_ _).trans (hg.ok.free x hx)
        rw [hupdates, map_map]
        intro hmem
        obtain ⟨it, hit, rfl⟩ := mem_map.1 hmem
        exact hg.ok.exclusive.apart _ _ (hheld it hit) hx
      · exact fun r x hr hx => scatter_of_not_mem (hout r x hr hx) _
      · exact fun it hit => ⟨hheld it hit, scatter_of_mem hdistinct (hin it hit) _⟩
      · rw [zip_map_self, map_map]
        rfl

/-! ## Frames -/

theorem frames_eq {s : ZonosState E S} {i : Nat} {d : ZonosRequest S}
    (h : s.requests[i]? = some d) : s.frames i = d.outputCodes ++ launchedFrames s.pending i := by
  rw [frames, h]

theorem launchedFrames_append (front back : List (List LaunchEntry)) (i : Nat) :
    launchedFrames (front ++ back) i = launchedFrames front i ++ launchedFrames back i :=
  flatMap_append

theorem launchedFrames_cons (entries : List LaunchEntry) (back : List (List LaunchEntry))
    (i : Nat) :
    launchedFrames (entries :: back) i =
      (entries.filter (·.request = i)).map LaunchEntry.codes ++ launchedFrames back i := rfl

theorem filter_of_nodup {α : Type} {xs : List α} {key : α → Nat} (h : (xs.map key).Nodup) {x : α}
    (hx : x ∈ xs) : xs.filter (fun y => key y = key x) = [x] := by
  induction xs with
  | nil => exact absurd hx not_mem_nil
  | cons y ys ih =>
    obtain ⟨hy, hys⟩ := nodup_cons.1 h
    rcases mem_cons.1 hx with rfl | hx
    · have hnone : ys.filter (fun z => key z = key x) = [] := by
        rw [filter_eq_nil_iff]
        intro z hz
        simpa using fun heq => hy (mem_map.2 ⟨z, hz, heq⟩)
      rw [filter_cons_of_pos (by simp), hnone]
    · have hne : key y ≠ key x := fun heq => hy (heq ▸ mem_map_of_mem hx)
      rw [filter_cons_of_neg (by simpa using hne), ih hys hx]

theorem filter_of_not_mem {α : Type} {xs : List α} {key : α → Nat} {i : Nat}
    (h : i ∉ xs.map key) : xs.filter (fun y => key y = i) = [] := by
  rw [filter_eq_nil_iff]
  intro y hy
  simpa using fun heq => h (mem_map.2 ⟨y, hy, heq⟩)

end ZonosState

end Runner

end OmniRealtime
