import OmniRealtime.Scheduling.AsyncDecode

/-!
# The rows of a launched step

`scheduling/omni_scheduler.py`: which token row a request of a launched step is paired with when the
step is resolved.

1. `Inv.step`: what is handed on was sampled for the request, in its present epoch, while it was
   neither finished nor retracted, as long as the removals of `abort` meet `Settled`.
2. `rows_aligned`: the runs of the loop.
-/

namespace OmniRealtime

open List Option Function

variable {ι : Type} [DecidableEq ι]

/-- Released as often as allocated, but for what is held. -/
def DecodeRequest.Balanced (r : DecodeRequest) : Prop := r.released + r.held.toNat = r.allocated

theorem DecodeRequest.Balanced.release {r : DecodeRequest} (h : r.Balanced) :
    r.release.Balanced := by
  unfold DecodeRequest.release
  split_ifs with hheld
  · simpa [Balanced, hheld] using h
  · exact h

@[simp] theorem DecodeRequest.release_stale (r : DecodeRequest) : r.release.stale = r.stale := by
  unfold DecodeRequest.release
  split_ifs <;> rfl

@[simp] theorem DecodeRequest.release_aborted (r : DecodeRequest) :
    r.release.aborted = r.aborted := by
  unfold DecodeRequest.release
  split_ifs <;> rfl

/-- The row was sampled for the request in its present epoch, and the request was neither finished
    nor retracted when the step was about to be resolved. -/
structure HandedRow.Own (h : HandedRow ι) : Prop where
  row : h.row = (h.request, h.epoch)
  stale : h.stale = false

/-- The requests that a resolution started from: those of the snapshot once it is taken. -/
def Resolution.base (r : Resolution ι) : List ι :=
  match r.snapshot with
  | none => r.step.reqs
  | some snapshot => snapshot.reqs

def RemovalOp.request : RemovalOp ι → ι
  | .releaseResources i | .removeRunning i | .removeCur i => i
  | .removeLast i | .readPending i | .removePending i _ => i

namespace AsyncDecode

variable {s t : AsyncDecode ι} {i : ι} {req : ι → DecodeRequest}

/-! ## The claim -/

structure RowsAligned (s : AsyncDecode ι) : Prop where
  processed : ∀ h ∈ s.processed, h.Own
  streamed : ∀ h ∈ s.streamed, h.Own
  forwarded : ∀ f ∈ s.forwarded, f.2 = false
  released : ∀ i, (s.req i).released ≤ (s.req i).allocated

/-- No request of the step that is neither finished nor retracted has been retracted and admitted
    again since the launch. -/
def SameEpoch (s : AsyncDecode ι) (r : Resolution ι) (snapshot : Snapshot ι) : Prop :=
  ∀ row ∈ r.step.launched, row.1 ∈ snapshot.reqs → snapshot.stale row.1 = false →
    row.2 = (s.req row.1).epoch

/-- When a step is resolved, no request that `abort` took out of its batch stood ahead of one that
    is neither finished nor retracted, and the step is not older than such a request. -/
def Settled (s : AsyncDecode ι) : AsyncEvent ι → Prop
  | .collect => ∀ r snapshot, s.resolution = some r → r.snapshot = some snapshot →
      s.SameEpoch r snapshot
  | .process => ∀ r snapshot, s.resolution = some r → r.snapshot = some snapshot →
      s.SameEpoch r snapshot ∧
      RowPairing.Undisturbed r.step.requests snapshot.reqs r.step.reqs snapshot.stale
  | _ => True

/-! ## The invariant -/

/-- What is left of a launched step: in launch order, and only aborted requests were taken out. -/
structure StepInv (req : ι → DecodeRequest) (step : LaunchedStep ι) (base : List ι) : Prop where
  nodup : step.requests.Nodup
  ordered : base.Sublist step.requests
  reqs : step.reqs.Sublist base
  removed : ∀ i ∈ step.requests, i ∉ base → (req i).aborted = true

structure Inv (s : AsyncDecode ι) : Prop where
  balanced : ∀ i, (s.req i).Balanced
  pending : ∀ step, s.pending = some step → StepInv s.req step step.reqs
  resolution : ∀ r, s.resolution = some r → StepInv s.req r.step r.base
  nodup : s.cur.Nodup
  live : s.phase = .planned ∨ s.phase = .ready → ∀ i ∈ s.cur, (s.req i).stale = false
  listener : ∀ op ∈ s.listener, (s.req op.request).aborted = true
  processed : ∀ h ∈ s.processed, h.Own
  streamed : ∀ h ∈ s.streamed, h.Own
  forwarded : ∀ f ∈ s.forwarded, f.2 = false

omit [DecidableEq ι] in
theorem StepInv.mono {req req' : ι → DecodeRequest} {step : LaunchedStep ι} {base : List ι}
    (h : StepInv req step base)
    (hreq : ∀ i, (req i).aborted = true → (req' i).aborted = true) : StepInv req' step base :=
  { h with removed := fun i hi hbase => hreq i (h.removed i hi hbase) }

theorem removeFrom_sublist (reqs : List ι) (i : ι) : (removeFrom reqs i).Sublist reqs :=
  filter_sublist

theorem StepInv.removeFrom {step : LaunchedStep ι} {base : List ι} (h : StepInv req step base)
    (i : ι) : StepInv req { step with reqs := removeFrom step.reqs i } base :=
  { h with reqs := (removeFrom_sublist _ i).trans h.reqs }

theorem StepInv.removeAborted {step : LaunchedStep ι} (h : StepInv req step step.reqs)
    (hi : (req i).aborted = true) :
    StepInv req { step with reqs := AsyncDecode.removeFrom step.reqs i }
      (AsyncDecode.removeFrom step.reqs i) where
  nodup := h.nodup
  ordered := (removeFrom_sublist _ i).trans h.ordered
  reqs := List.Sublist.refl _
  removed j hj hbase := by
    by_cases heq : j = i
    · exact heq ▸ hi
    · refine h.removed j hj fun hmem => hbase ?_
      exact mem_filter.mpr ⟨hmem, by simpa using heq⟩

namespace Inv

/-! ### What `abort` does -/

theorem modify (h : s.Inv) {f : DecodeRequest → DecodeRequest}
    (hbalanced : (s.req i).Balanced → (f (s.req i)).Balanced)
    (habt : (s.req i).aborted = true → (f (s.req i)).aborted = true)
    (hstale : (f (s.req i)).stale = (s.req i).stale ∨ s.phase ≠ .planned ∧ s.phase ≠ .ready) :
    (s.modify i f).Inv := by
  have hmono (j : ι) (hj : (s.req j).aborted = true) : ((s.modify i f).req j).aborted = true := by
    by_cases heq : j = i
    · subst heq
      simpa [AsyncDecode.modify] using habt hj
    · simpa [AsyncDecode.modify, heq] using hj
  exact { h with
    balanced := fun j => by
      by_cases heq : j = i
      · subst heq
        simpa [AsyncDecode.modify] using hbalanced (h.balanced j)
      · simpa [AsyncDecode.modify, heq] using h.balanced j
    pending := fun step hstep => (h.pending step hstep).mono hmono
    resolution := fun r hr => (h.resolution r hr).mono hmono
    live := fun hph j hj => by
      have hl := h.live hph j hj
      by_cases heq : j = i
      · subst heq
        rcases hstale with hsame | ⟨hplanned, hrdy⟩
        · simpa [AsyncDecode.modify, hsame] using hl
        · rcases hph with hp | hp
          · exact absurd hp hplanned
          · exact absurd hp hrdy
      · simpa [AsyncDecode.modify, heq] using hl
    listener := fun op hop => hmono _ (h.listener op hop) }

theorem recordAbort (h : s.Inv) (i : ι) (deferRunningCleanup : Bool) :
    (s.recordAbort i deferRunningCleanup).Inv :=
  h.modify id (fun _ => rfl) (.inl rfl)

theorem recordAbort_aborted (i : ι) (deferRunningCleanup : Bool) :
    ((s.recordAbort i deferRunningCleanup).req i).aborted = true := by
  simp [AsyncDecode.recordAbort, AsyncDecode.modify]

theorem detachIn (h : s.Inv) (reqs : List ι) (i : ι) : (s.detachIn reqs i).Inv := by
  refine h.modify ?_ ?_ (.inl ?_) <;> split_ifs <;> first | exact id | rfl

theorem removePending (h : s.Inv) (hi : (s.req i).aborted = true) (number : Nat) :
    (s.removePending i number).Inv :=
  { h with
    pending := fun step hstep => by
      obtain ⟨old, hold, rfl⟩ := map_eq_some_iff.mp hstep
      split_ifs
      · exact (h.pending old hold).removeAborted hi
      · exact h.pending old hold
    resolution := fun r hr => by
      obtain ⟨old, hold, rfl⟩ := map_eq_some_iff.mp hr
      have hinv := h.resolution old hold
      obtain ⟨step, snapshot, collected⟩ := old
      split_ifs
      · cases snapshot with
        | none => exact StepInv.removeAborted hinv hi
        | some snapshot => exact hinv.removeFrom i
      · exact hinv }

theorem detachIn_aborted (reqs : List ι) (i j : ι) :
    ((s.detachIn reqs i).req j).aborted = (s.req j).aborted := by
  by_cases heq : j = i
  · subst heq
    simp only [AsyncDecode.detachIn, AsyncDecode.modify, update_self]
    split_ifs <;> rfl
  · simp [AsyncDecode.detachIn, AsyncDecode.modify, heq]

theorem removalOp (h : s.Inv) (op : RemovalOp ι) (hop : (s.req op.request).aborted = true) :
    (s.removalOp op).Inv := by
  cases op with
  | releaseResources i =>
    by_cases hmem : i ∈ s.inBatches
    · rw [AsyncDecode.removalOp, if_pos hmem]
      exact h.modify (·.release) (by simp) (.inl (by simp))
    · rw [AsyncDecode.removalOp, if_neg hmem]
      exact h
  | removeRunning i => exact { h.detachIn s.running i with listener := (h.detachIn _ i).listener }
  | removeCur i =>
    have hd := h.detachIn s.cur i
    exact { hd with
      nodup := hd.nodup.sublist (removeFrom_sublist _ i)
      live := fun hph j hj => hd.live hph j ((removeFrom_sublist _ i).subset hj) }
  | removeLast i => exact { h.detachIn s.last i with listener := (h.detachIn _ i).listener }
  | readPending i => exact h
  | removePending i number =>
    exact (h.detachIn _ i).removePending (by rw [detachIn_aborted]; exact hop) number

theorem removalOp_aborted (op : RemovalOp ι) (j : ι) :
    ((s.removalOp op).req j).aborted = (s.req j).aborted := by
  cases op with
  | releaseResources i =>
    by_cases hmem : i ∈ s.inBatches
    · rw [AsyncDecode.removalOp, if_pos hmem]
      by_cases heq : j = i
      · subst heq
        simp [AsyncDecode.modify]
      · simp [AsyncDecode.modify, heq]
    · rw [AsyncDecode.removalOp, if_neg hmem]
  | removeRunning i | removeCur i | removeLast i | removePending i number =>
    exact detachIn_aborted _ _ _
  | readPending i => rfl

theorem foldl_removalOp (h : s.Inv) (ops : List (RemovalOp ι))
    (hops : ∀ op ∈ ops, (s.req op.request).aborted = true) :
    (ops.foldl AsyncDecode.removalOp s).Inv ∧
      ∀ j, ((ops.foldl AsyncDecode.removalOp s).req j).aborted = (s.req j).aborted := by
  induction ops generalizing s with
  | nil => exact ⟨h, fun _ => rfl⟩
  | cons op ops ih =>
    obtain ⟨hinv, hsame⟩ := ih (h.removalOp op (hops op mem_cons_self)) fun op' hop' => by
      rw [removalOp_aborted]
      exact hops op' (mem_cons_of_mem _ hop')
    exact ⟨hinv, fun j => (hsame j).trans (removalOp_aborted op j)⟩

omit [DecidableEq ι] in
theorem request_of_mem_removalOps {op : RemovalOp ι} (hop : op ∈ removalOps i) :
    op.request = i := by
  simp only [removalOps, mem_cons, not_mem_nil, or_false] at hop
  rcases hop with rfl | rfl | rfl | rfl | rfl <;> rfl

variable {snapshot : Snapshot ι}

section

variable (h : s.Inv)
include h

theorem abortNow (i : ι) (deferRunningCleanup : Bool) : (s.abortNow i deferRunningCleanup).Inv := by
  have hrcd := h.recordAbort i deferRunningCleanup
  have habt := recordAbort_aborted (s := s) i deferRunningCleanup
  obtain ⟨hremoved, hsame⟩ := hrcd.foldl_removalOp (removalOps i) fun op hop => by
    rw [request_of_mem_removalOps hop]
    exact habt
  dsimp only [AsyncDecode.abortNow]
  split_ifs
  · exact hrcd
  · split
    · exact hremoved
    · exact hremoved.removalOp (.removePending i _) ((hsame i).trans habt)

theorem batchFailure (reqs : List ι) : (s.batchFailure reqs).Inv := by
  induction reqs generalizing s with
  | nil => exact h
  | cons i reqs ih => exact ih (h.abortNow i false)

omit [DecidableEq ι] in
theorem goOn (next : AfterResolve) : (s.goOn next).Inv := by
  cases next <;> exact { h with live := fun hp => by simp [AsyncDecode.goOn] at hp }

theorem beginAbort (i : ι) : (s.beginAbort i).Inv :=
  { h.recordAbort i true with
    listener := fun op hop => by
      dsimp only [AsyncDecode.beginAbort] at hop
      split_ifs at hop
      · simp at hop
      · rw [request_of_mem_removalOps hop]
        exact recordAbort_aborted i true }

theorem listenerStep (hst : s.listenerStep = some t) : t.Inv := by
  unfold AsyncDecode.listenerStep at hst
  split at hst
  · cases hst
  · rename_i i rest hop
    cases hst
    refine { h with listener := fun op hmem => ?_ }
    have habt : (s.req i).aborted = true :=
      h.listener (.readPending i) (by rw [hop]; exact mem_cons_self)
    rcases mem_append.mp hmem with hmem | hmem
    · obtain ⟨step, -, rfl⟩ : ∃ step, s.pending = some step ∧
          RemovalOp.removePending i step.number = op := by simpa using hmem
      exact habt
    · exact h.listener op (by rw [hop]; exact mem_cons_of_mem _ hmem)
  · rename_i op rest hne hop
    cases hst
    have hr := h.removalOp op (h.listener op (by rw [hop]; exact mem_cons_self))
    refine { hr with listener := fun op' hop' => ?_ }
    show ((s.removalOp op).req op'.request).aborted = true
    rw [removalOp_aborted]
    exact h.listener op' (by rw [hop]; exact mem_cons_of_mem _ hop')

/-! ### What the loop does -/

omit [DecidableEq ι] in
theorem resolution_of_pending {r : Resolution ι}
    (hr : (s.pending.map fun step => ({ step := step } : Resolution ι)) = some r) :
    StepInv s.req r.step r.base := by
  obtain ⟨step, hstep, rfl⟩ := map_eq_some_iff.mp hr
  exact h.pending step hstep

omit [DecidableEq ι] in
theorem drain (next : AfterResolve) : (s.drain next).Inv :=
  { h with
    pending := nofun
    resolution := fun _ hr => h.resolution_of_pending hr
    live := by simp [AsyncDecode.drain] }

omit [DecidableEq ι] in
theorem forward (hl : ∀ i ∈ s.cur, (s.req i).stale = false) : s.forward.Inv :=
  { h with
    forwarded := fun f hf => by
      rcases mem_append.mp hf with hf | hf
      · exact h.forwarded f hf
      · obtain ⟨i, hi, rfl⟩ := mem_map.mp hf
        exact hl i hi }

omit [DecidableEq ι] in
theorem launch (hph : s.phase = .planned) : s.launch.Inv := by
  have hforward := h.forward (h.live (.inl hph))
  exact { hforward with
    pending := fun step hstep => by
      have hrequests : step.requests = s.cur ∧ step.reqs = s.cur := by
        cases hstep
        simp [LaunchedStep.requests, comp_def]
      obtain ⟨hrequests, hreqs⟩ := hrequests
      exact {
        nodup := by rw [hrequests]; exact h.nodup
        ordered := by rw [hrequests, hreqs]
        reqs := List.Sublist.refl _
        removed := fun i hi hnot => by
          rw [hrequests, ← hreqs] at hi
          exact absurd hi hnot }
    resolution := fun _ hr => h.resolution_of_pending hr
    live := fun hp => by
      dsimp only [AsyncDecode.launch] at hp
      split_ifs at hp <;> simp at hp }

omit [DecidableEq ι] in
theorem dropStale : s.dropStale.Inv :=
  { h with
    nodup := h.nodup.filter _
    live := fun _ i hi => by
      show (s.req i).stale = false
      simpa using (mem_filter.mp hi).2 }

/-- The chunks of a request that is neither in `skip_rids` nor aborted are its own. -/
theorem emitStreamOutput {step : LaunchedStep ι}
    (hr : s.resolution = some ⟨step, some snapshot, false⟩)
    (hepo : s.SameEpoch ⟨step, some snapshot, false⟩ snapshot) :
    (s.emitStreamOutput ⟨step, some snapshot, false⟩ snapshot).Inv := by
  have hstep := h.resolution _ hr
  exact { h with
    resolution := fun r hr' => by
      cases hr'
      exact { hstep with nodup := hstep.nodup }
    streamed := fun handed hmem => by
      rcases mem_append.mp hmem with hold | hnew
      · exact h.streamed handed hold
      obtain ⟨row, hrow, rfl⟩ := mem_map.mp hnew
      obtain ⟨hlaunched, hkept⟩ := mem_filter.mp hrow
      simp only [Bool.and_eq_true, decide_eq_true_eq, Bool.not_eq_true'] at hkept
      obtain ⟨hskip, hl⟩ := hkept
      -- what is no longer in the batch is aborted
      have hbase : row.1 ∈ snapshot.reqs := by
        by_contra hnot
        have hab := hstep.removed row.1 (mem_map_of_mem hlaunched) hnot
        simp [hl] at hab
      have hstale : snapshot.stale row.1 = false := by
        by_contra hne
        exact hskip (mem_filter.mpr ⟨hbase, by simpa using hne⟩)
      exact ⟨Prod.ext rfl (hepo row hlaunched hbase hstale), hstale⟩ }

theorem process {step : LaunchedStep ι} (hr : s.resolution = some ⟨step, some snapshot, true⟩)
    (next : AfterResolve) (hepo : s.SameEpoch ⟨step, some snapshot, true⟩ snapshot)
    (hundisturbed : RowPairing.Undisturbed step.requests snapshot.reqs step.reqs snapshot.stale) :
    (s.process ⟨step, some snapshot, true⟩ snapshot next).Inv := by
  have hstep := h.resolution _ hr
  obtain ⟨pairs, hpairs, hown⟩ := RowPairing.pairKept_aligned
    (show step.launched.length = step.requests.length by simp [LaunchedStep.requests]) hstep.nodup hstep.ordered hstep.reqs hundisturbed
  have hres : RowPairing.pairKept snapshot.preFinished step.reqs step.launched = some pairs :=
    hpairs
  unfold AsyncDecode.process
  simp only [hres]
  exact { h with
    resolution := nofun
    live := by simp
    processed := fun handed hmem => by
      rcases mem_append.mp hmem with hold | hnew
      · exact h.processed handed hold
      obtain ⟨pair, hpair, rfl⟩ := mem_map.mp hnew
      obtain ⟨hzip, hitem, hstale⟩ := hown pair hpair
      obtain ⟨k, hk⟩ := mem_iff_getElem?.mp hzip
      obtain ⟨hfst, hsnd⟩ := getElem?_zip_eq_some.mp hk
      -- the row is the one that was sampled for the request
      have hsame : pair.2.1 = pair.1 := by
        rw [LaunchedStep.requests, getElem?_map, hsnd] at hfst
        exact some.inj hfst
      have hbase : pair.2.1 ∈ snapshot.reqs := hsame ▸ hstep.reqs.subset hitem
      have hl : snapshot.stale pair.2.1 = false := hsame ▸ hstale
      have he := hepo pair.2 (mem_of_getElem? hsnd) hbase hl
      exact ⟨Prod.ext hsame (hsame ▸ he), hstale⟩ }

theorem step {act : AsyncEvent ι} (hst : asyncStep s act = some t) (hsettled : s.Settled act) :
    t.Inv := by
  cases act with
  | allocate i =>
    obtain ⟨⟨hph, hheld, -⟩, ⟨⟩⟩ := of_guard hst
    refine h.modify (fun hb => ?_) id (.inr (by simp [hph]))
    simpa [DecodeRequest.Balanced, hheld] using hb
  | retract i =>
    obtain ⟨⟨hph, -⟩, ⟨⟩⟩ := of_guard hst
    exact h.modify (fun hb => hb.release) (fun ha => by simpa using ha) (.inr (by simp [hph]))
  | plan running batch =>
    obtain ⟨⟨-, hnd, hl⟩, ⟨⟩⟩ := of_guard hst
    exact { h with nodup := hnd, live := fun _ => hl }
  | flush | drain =>
    cases (of_guard hst).2
    exact h.drain _
  | launch =>
    obtain ⟨⟨hph, -⟩, ⟨⟩⟩ := of_guard hst
    exact h.launch hph
  | launchFails | runBatchFails =>
    cases (of_guard hst).2
    exact (h.batchFailure _).goOn _
  | dropStale =>
    cases (of_guard hst).2
    exact h.dropStale
  | runBatch =>
    obtain ⟨hph, ⟨⟩⟩ := of_guard hst
    have hl : ∀ i ∈ s.cur, (s.req i).stale = false := by
      rcases hph with hrdy | ⟨hplanned, -⟩
      · exact h.live (.inr hrdy)
      · exact h.live (.inl hplanned)
    exact { h.forward hl with live := by simp }
  | snapshot =>
    dsimp only [asyncStep] at hst
    split at hst
    · rename_i hr
      cases hst
      exact { h with
        resolution := fun r hr' => by
          cases hr'
          exact { h.resolution _ hr with nodup := (h.resolution _ hr).nodup } }
    · cases hst
  | collectFinish i =>
    dsimp only [asyncStep] at hst
    split at hst
    · rename_i hph hr
      cases (of_guard hst).2
      exact h.modify id id (.inr (by simp [hph]))
    · cases hst
  | collect =>
    dsimp only [asyncStep] at hst
    split at hst
    · rename_i hr
      cases hst
      exact h.emitStreamOutput hr (hsettled _ _ hr rfl)
    · cases hst
  | noResult =>
    dsimp only [asyncStep] at hst
    split at hst
    · cases hst
      have hnone : ({ s with resolution := none } : AsyncDecode ι).Inv :=
        { h with resolution := nofun }
      exact hnone.goOn _
    · cases hst
  | resolveFails =>
    dsimp only [asyncStep] at hst
    split at hst
    · cases hst
      have hnone : ({ s with resolution := none } : AsyncDecode ι).Inv :=
        { h with resolution := nofun }
      exact (hnone.batchFailure _).goOn _
    · cases hst
  | process =>
    dsimp only [asyncStep] at hst
    split at hst
    · rename_i hr
      cases hst
      obtain ⟨hepo, hundisturbed⟩ := hsettled _ _ hr rfl
      exact h.process hr _ hepo hundisturbed
    · cases hst
  | finish i =>
    dsimp only [asyncStep] at hst
    split at hst
    · rename_i hph
      cases (of_guard hst).2
      exact h.modify (fun hb => hb.release) (fun ha => by simpa using ha) (.inr (by simp [hph]))
    · cases hst
  | claim i | close i =>
    dsimp only [asyncStep] at hst
    split at hst
    · cases (of_guard hst).2
      exact h.modify id id (.inl rfl)
    · cases hst
  | processReturns =>
    dsimp only [asyncStep] at hst
    split at hst
    · cases hst
      have hdone : ({ s with processing := [] } : AsyncDecode ι).Inv := { h with nodup := h.nodup }
      exact hdone.goOn _
    · cases hst
  | processFails =>
    dsimp only [asyncStep] at hst
    split at hst
    · cases hst
      have hdone : ({ s with processing := [] } : AsyncDecode ι).Inv := { h with nodup := h.nodup }
      exact (hdone.batchFailure _).goOn _
    · cases hst
  | abortNow i deferRunningCleanup =>
    cases (of_guard hst).2
    exact h.abortNow i _
  | abort i =>
    cases (of_guard hst).2
    exact h.beginAbort i
  | listener => exact h.listenerStep hst

omit [DecidableEq ι] in
theorem rowsAligned : s.RowsAligned where
  processed := h.processed
  streamed := h.streamed
  forwarded := h.forwarded
  released i := by
    have hb := h.balanced i
    unfold DecodeRequest.Balanced at hb
    exact hb ▸ Nat.le_add_right _ _

end

end Inv

/-- The loop, with no removal of `abort` ahead of a live row. -/
def settledSystem (ι : Type) [DecidableEq ι] : System (AsyncDecode ι) (AsyncEvent ι) :=
  (asyncDecodeSystem ι).restrict Settled

omit [DecidableEq ι] in
theorem Inv.initial : ({} : AsyncDecode ι).Inv where
  balanced _ := rfl
  pending := nofun
  resolution := nofun
  nodup := nodup_nil
  live := nofun
  listener := nofun
  processed := nofun
  streamed := nofun
  forwarded := nofun

/-- The step that is resolved is as it was launched. -/
def untouched (s : AsyncDecode ι) : Bool :=
  s.resolution.all fun r =>
    decide (r.step.reqs = r.step.requests) &&
      r.step.launched.all fun row => decide (row.2 = (s.req row.1).epoch)

theorem settled_of_untouched {act : AsyncEvent ι} (h : s.untouched = true) : s.Settled act := by
  have hstep (r : Resolution ι) (hr : s.resolution = some r) :
      r.step.reqs = r.step.requests ∧ ∀ row ∈ r.step.launched, row.2 = (s.req row.1).epoch := by
    simpa [untouched, hr] using h
  cases act with
  | collect =>
    intro r snapshot hr _ row hrow _ _
    exact (hstep r hr).2 row hrow
  | process =>
    intro r snapshot hr _
    obtain ⟨hreqs, hepo⟩ := hstep r hr
    refine ⟨fun row hrow _ _ => hepo row hrow, ?_⟩
    intro ahead item behind hspl _ _
    rw [hreqs, hspl]
    exact ⟨by simp, fun other hother => by simp [hother]⟩
  | _ => trivial

end AsyncDecode

open AsyncDecode

/-- In every run in which `abort` takes no request out of a launched step ahead of one that is
    neither finished nor retracted, what is handed on is the request's own. -/
theorem rows_aligned (ι : Type) [DecidableEq ι] (s : AsyncDecode ι)
    (hs : (settledSystem ι).Reachable s) : s.RowsAligned := by
  refine (hs.invariant (P := AsyncDecode.Inv) (fun s₀ h₀ => ?_) ?_).rowsAligned
  · obtain rfl : s₀ = {} := h₀
    exact AsyncDecode.Inv.initial
  · rintro a act b ha ⟨hst, hsettled⟩
    exact ha.step (show asyncStep a act = some b from hst) hsettled

/-- Requests 0 and 1 are decoded; 0 is finished by the first step while the second is in flight. -/
def lookaheadRun : List (AsyncEvent Nat) :=
  [.allocate 0, .allocate 1, .plan [0, 1] [0, 1], .launch, .plan [0, 1] [0, 1], .launch, .snapshot,
    .collect, .process, .finish 0, .claim 0, .close 0, .processReturns]

/-- Both requests get their own token. -/
theorem rows_aligned_lookahead :
    ∃ s : AsyncDecode Nat, s.processed.map HandedRow.row = [(0, 0), (1, 0)] ∧ s.RowsAligned := by
  have hrun : (System.exec (fun s act => if s.untouched = true then asyncStep s act else none) {}
      lookaheadRun).map (fun s => s.processed.map HandedRow.row) = some [(0, 0), (1, 0)] := by
    decide
  obtain ⟨s, hs, hval⟩ := map_eq_some_iff.mp hrun
  have hreach : ((asyncDecodeSystem Nat).restrict fun s _ => s.untouched = true).Reachable s :=
    .of_exec_guarded (.init rfl) hs
  exact ⟨s, hval, rows_aligned Nat s (hreach.restrict_mono fun _ _ => settled_of_untouched)⟩

/-- The client aborts the finished request, which is removed from the step in flight; its token
    goes to the other request. -/
def lateAbortRun : List (AsyncEvent Nat) :=
  lookaheadRun ++ [.abort 0] ++ List.replicate 6 .listener ++
    [.plan [1] [1], .launch, .snapshot, .collect, .process]

theorem late_abort_shifts_rows :
    ¬∀ s, (asyncDecodeSystem Nat).Reachable s → s.RowsAligned := by
  intro hall
  have hrun : (System.exec asyncStep {} lateAbortRun).map
      (fun s => s.processed.map fun h => (h.request, h.row)) =
      some [(0, (0, 0)), (1, (1, 0)), (1, (0, 0))] := by
    decide
  obtain ⟨s, hs, hval⟩ := map_eq_some_iff.mp hrun
  have hreach : (asyncDecodeSystem Nat).Reachable s := .of_exec (.init rfl) hs
  obtain ⟨h, hmem, heq⟩ : ∃ h ∈ s.processed, (h.request, h.row) = (1, (0, 0)) :=
    mem_map.mp (by rw [hval]; decide)
  have hrow := ((hall s hreach).processed h hmem).row
  simp only [Prod.mk.injEq] at heq
  rw [heq.2, heq.1] at hrow
  simp at hrow

end OmniRealtime
