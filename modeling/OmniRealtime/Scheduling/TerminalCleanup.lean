import OmniRealtime.Scheduling.TerminalOwnership

/-!
# Who ends a request

`scheduling/omni_scheduler.py`: one result or error, the abort callback, and what an aborted
request leaves behind.

1. `Owned.step`: the scheduler thread owns the request from the claim to the close.
2. `Clean.step`: a step that leaves nothing keeps an aborted request clean.
3. `terminal_ownership`: the runs in which no step leaves an entry.
-/

namespace OmniRealtime

open List Option SchedulerPoint TerminalEvent LogOrder

/-! ## Points of the scheduler thread -/

namespace SchedulerPoint

/-- From the claim of the terminal request to its closing. -/
def claims : SchedulerPoint → Bool
  | adapt | finishedCallback _ | pathEnd _ | close _ => true
  | _ => false

/-- A result or an error is still to come. -/
def emits : SchedulerPoint → Bool
  | adapt | finishedCallback _ | pathEnd _ | close _ => true
  | closedFirstEmit .. | closedPrefillStart .. | closedPrefillEnd .. | closedCallback .. => true
  | emitFirstEmit _ | emit _ => true
  | _ => false

def drops : SchedulerPoint → Bool
  | dropCallback | dropFirstEmit | dropPathEnd | dropDetach => true
  | _ => false

/-- The scheduler thread is going to run the abort callback. -/
def owesCallback : SchedulerPoint → Bool
  | dropCallback => true
  | closedFirstEmit cleanup _ | closedPrefillStart cleanup _ => cleanup
  | closedPrefillEnd cleanup _ | closedCallback cleanup _ => cleanup
  | _ => false

/-- Outside `stream_output`. -/
def rests : SchedulerPoint → Bool
  | idle | receive _ => true
  | _ => false

/-- A finished request has no prefill start marker here. -/
def pathEnded : SchedulerPoint → Bool
  | idle | receive _ | dropDetach | close _ => true
  | closedFirstEmit .. | closedPrefillStart .. | closedPrefillEnd .. | closedCallback .. => true
  | emitFirstEmit _ | emit _ => true
  | _ => false

/-- A move between two points that play the same part. -/
structure Quiet (p q : SchedulerPoint) : Prop where
  claims : q.claims = p.claims
  emits : q.emits = p.emits
  drops : q.drops = p.drops
  rests : q.rests = p.rests
  owesCallback : p.owesCallback = true → q.owesCallback = true
  streamOutput : p ≠ .streamOutput

end SchedulerPoint

/-- What `abort` does only for a request that it does not leave to the scheduler thread. -/
def AbortOp.immediate : AbortOp → Bool
  | .runAbortCallback | .removeFromBatch _ => true
  | _ => false

def TerminalEvent.emission : TerminalEvent → Bool
  | .result | .error => true
  | _ => false

namespace TerminalRequest

variable {s t : TerminalRequest} {act : TerminalStep}

/-! ## The claim -/

/-- Both threads are done with the finished request. -/
structure Settled (s : TerminalRequest) : Prop where
  finished : s.finished ≠ none
  scheduler : s.scheduler.rests = true
  listener : s.listener = []

/-- Nothing is stored for the request. -/
structure NoEntry (s : TerminalRequest) : Prop where
  streamIngress : s.streamIngress = false
  requestUpdates : s.requestUpdates = false
  deferredPayload : s.deferredPayload = false
  dirty : s.dirty = false
  prefillStart : s.prefillStart = false
  prefillEnd : s.prefillEnd = false

/-- One answer, and the abort callback for an abort that came in time, outside the claim. -/
structure SoleOwner (s : TerminalRequest) : Prop where
  emitsOnce : s.log.countP TerminalEvent.emission ≤ 1
  callbackOutside : LogOrder.Outside .abortCallback .claimed .closed s.log
  callbackRuns : s.Settled → ¬LogOrder.Owes .recorded .closed .abortCallback s.log

structure TerminalOwnership (s : TerminalRequest) : Prop extends s.SoleOwner where
  noEntry : s.Settled → .recorded ∈ s.log → s.NoEntry

/-- What removes the entry of a message that is buffered. -/
def removedBy : IngressMessage → AbortOp
  | .streamChunk _ | .streamDone => .popStreamIngress
  | .requestUpdate => .popRequestUpdates

/-- The step leaves an entry of an aborted request that `abort` has already removed. -/
def leaves (s : TerminalRequest) : TerminalStep → Bool
  | .prefillEnd skipped =>
    s.aborted && decide (.discardPrefillEnd ∉ s.listener) && s.marksPrefillEnd skipped
  | .advance _ _ =>
    match s.scheduler with
    | .receive message =>
      s.aborted && !(s.completed || s.findRequestData) && decide (removedBy message ∉ s.listener)
    | _ => false
  | _ => false

/-! ## The owner -/

/-- The scheduler thread owns a claimed request until it closes it, and the listener thread one
    that is not left to the scheduler thread. -/
structure Owned (s : TerminalRequest) : Prop where
  finished : s.scheduler.rests = false → s.finished ≠ none
  claimedFinished : s.claimed = true → s.finished ≠ none
  emissions : s.log.countP TerminalEvent.emission + s.scheduler.emits.toNat ≤ s.claimed.toNat
  claimedLog : .claimed ∈ s.log → .closed ∈ s.log ∨ s.scheduler.claims = true
  outside : LogOrder.Outside .abortCallback .claimed .closed s.log
  claims : s.scheduler.claims = true → s.batches ≠ [] ∧ s.hasData = true
  immediate : ∀ op ∈ s.listener, op.immediate = true → s.scheduler.claims = false
  live : s.aborted = false → s.claimed = false → s.finished ≠ some .abort →
    s.batches ≠ [] ∧ s.hasData = true
  drops : s.scheduler.drops = true → s.aborted = true ∨ s.finished = some .abort
  handled : s.scheduler.rests = true → s.finished = some .other →
    s.aborted = true ∨ s.claimed = true
  claimedData : s.claimed = true → s.scheduler.claims = true ∨ s.hasData = false
  listener : s.listener ≠ [] → s.aborted = true
  recorded : .recorded ∈ s.log → s.aborted = true
  owes : LogOrder.Owes .recorded .closed .abortCallback s.log →
    .runAbortCallback ∈ s.listener ∨ s.scheduler.owesCallback = true ∨
      s.aborted = true ∧
        (s.scheduler.claims = true ∨ s.finished = none ∨ s.scheduler = .streamOutput)

theorem Running.owned (h : s.Running) : s.Owned where
  finished hp := by simp [h.scheduler, rests] at hp
  claimedFinished hc := by simp [h.claimed] at hc
  emissions := by simp [h.log, h.scheduler, emits]
  claimedLog hl := by simp [h.log] at hl
  outside := by rw [h.log]; exact outside_nil
  claims hp := by simp [h.scheduler, SchedulerPoint.claims] at hp
  immediate op hop := by simp [h.listener] at hop
  live _ _ _ := ⟨h.batches, h.hasData⟩
  drops hp := by simp [h.scheduler, SchedulerPoint.drops] at hp
  handled _ hf := by simp [h.finished] at hf
  claimedData hc := by simp [h.claimed] at hc
  listener hl := absurd h.listener hl
  recorded hl := by simp [h.log] at hl
  owes ho := by rw [h.log] at ho; exact absurd ho not_owes_nil

namespace Owned

section

variable (h : s.Owned) {q : SchedulerPoint}
include h

theorem claimed_of_emits (hp : s.scheduler.emits = true) : s.claimed = true := by
  have he := h.emissions
  rw [hp] at he
  cases hc : s.claimed with
  | true => rfl
  | false => simp [hc] at he

theorem move (hq : s.scheduler.Quiet q) (firstEmit prefillStart prefillEnd : Bool) : Owned { s with
      firstEmit := firstEmit, prefillStart := prefillStart, prefillEnd := prefillEnd,
      scheduler := q } where
  finished hp := h.finished (hq.rests ▸ hp)
  claimedFinished := h.claimedFinished
  emissions := by simpa only [hq.emits] using h.emissions
  claimedLog hl := (h.claimedLog hl).imp_right (hq.claims.trans ·)
  outside := h.outside
  claims hp := h.claims (hq.claims ▸ hp)
  immediate op hop hi := hq.claims.trans (h.immediate op hop hi)
  live := h.live
  drops hp := h.drops (hq.drops ▸ hp)
  handled hp := h.handled (hq.rests ▸ hp)
  claimedData hc := (h.claimedData hc).imp_left (hq.claims.trans ·)
  listener := h.listener
  recorded := h.recorded
  owes ho := by
    rcases h.owes ho with hl | hp | ⟨ha, hp | hf | hp⟩
    · exact .inl hl
    · exact .inr (.inl (hq.owesCallback hp))
    · exact .inr (.inr ⟨ha, .inl (hq.claims.trans hp)⟩)
    · exact .inr (.inr ⟨ha, .inr (.inl hf)⟩)
    · exact absurd hp hq.streamOutput

/-- The abort callback is run at a point that has not claimed the request, or has closed it. -/
theorem callback (hclaims : s.scheduler.claims = false) (hq : q.claims = false)
    (hemits : q.emits = s.scheduler.emits) (hdrops : q.drops = s.scheduler.drops)
    (hrests : q.rests = s.scheduler.rests) {rest : List AbortOp} (hrest : rest ⊆ s.listener) :
    Owned { s.record .abortCallback with scheduler := q, listener := rest } where
  finished hp := h.finished (hrests ▸ hp)
  claimedFinished := h.claimedFinished
  emissions := by
    have he := h.emissions
    simp only [record, countP_append, countP_singleton, emission, hemits]
    exact he
  claimedLog hl := by
    have hold : .claimed ∈ s.log := by simpa [record] using hl
    refine .inl (mem_append_left _ ?_)
    rcases h.claimedLog hold with hcl | hp
    · exact hcl
    · simp [hclaims] at hp
  outside := by
    refine outside_concat.mpr ⟨h.outside, fun _ hl => ?_⟩
    rcases h.claimedLog hl with hcl | hp
    · exact hcl
    · simp [hclaims] at hp
  claims hp := by simp [hq] at hp
  immediate _ _ _ := hq
  live := h.live
  drops hp := h.drops (hdrops ▸ hp)
  handled hp := h.handled (hrests ▸ hp)
  claimedData hc := by
    rcases h.claimedData hc with hp | hd
    · simp [hclaims] at hp
    · exact .inr hd
  listener hl := h.listener (fun hnil => hl (subset_nil.mp (hnil ▸ hrest)))
  recorded hl := h.recorded (by simpa [record] using hl)
  owes ho := absurd ho (not_owes_answer (by decide))

theorem claimTerminal (hp : s.scheduler = .streamOutput) : s.claimTerminal.Owned := by
  have hfinished : s.finished ≠ none := h.finished (by rw [hp]; rfl)
  have hemissions := h.emissions
  rw [hp] at hemissions
  unfold TerminalRequest.claimTerminal
  split_ifs with hab hclaimed hdata
  · -- aborted: the request is dropped, and the callback is owed
    exact { h with
      finished := fun _ => hfinished
      emissions := hemissions
      claimedLog := fun hl => by simpa [hp, SchedulerPoint.claims] using h.claimedLog hl
      claims := nofun
      immediate := fun _ _ _ => rfl
      drops := fun _ => hab.symm
      handled := nofun
      claimedData := fun hc => by simpa [hp, SchedulerPoint.claims] using h.claimedData hc
      owes := fun _ => .inr (.inl rfl) }
  · have hlive : s.aborted = false := by
      simpa using fun ha => hab (.inr ha)
    exact { h with
      finished := fun _ => hfinished
      emissions := hemissions
      claimedLog := fun hl => by simpa [hp, SchedulerPoint.claims] using h.claimedLog hl
      claims := nofun
      immediate := fun _ _ _ => rfl
      drops := nofun
      handled := fun _ _ => .inr hclaimed
      claimedData := fun hc => by simpa [hp, SchedulerPoint.claims] using h.claimedData hc
      owes := fun ho => by
        rcases h.owes ho with hl | hq | ⟨ha, -⟩
        · exact .inl hl
        · simp [hp, owesCallback] at hq
        · simp [hlive] at ha }
  · -- the claim: nobody has aborted the request, so no `abort` is under way
    rw [not_or] at hab
    have hunclaimed : s.claimed = false := by simpa using hclaimed
    have hlive : s.aborted = false := by simpa using hab.2
    have hlistener : s.listener = [] := by
      by_contra hne
      simp [h.listener hne] at hlive
    exact {
      finished := fun _ => hfinished
      claimedFinished := fun _ => hfinished
      emissions := by
        simpa [record, hunclaimed, emits, emission] using hemissions
      claimedLog := fun _ => .inr rfl
      outside := h.outside.concat (by decide)
      claims := fun _ => h.live hlive hunclaimed hab.1
      immediate := fun op hop => by simp [record, hlistener] at hop
      live := fun _ hc => by simp at hc
      drops := nofun
      handled := nofun
      claimedData := fun _ => .inl rfl
      listener := h.listener
      recorded := fun hl => h.recorded (by simpa [record] using hl)
      owes := fun ho => by
        rcases h.owes (ho.of_concat (by decide)) with hl | hq | ⟨ha, -⟩
        · simp [hlistener] at hl
        · simp [hp, owesCallback] at hq
        · simp [hlive] at ha }
  · -- a finished request that nobody has aborted or claimed has its data
    rw [not_or] at hab
    exact absurd (h.live (by simpa using hab.2) (by simpa using hclaimed) hab.1).2 hdata

theorem close {error : Bool} (hp : s.scheduler = .close error) :
    Owned { s.closeCompleted with scheduler := .closedFirstEmit s.aborted error } := by
  have hclaimed : s.claimed = true := h.claimed_of_emits (by rw [hp]; rfl)
  have hfinished : s.finished ≠ none := h.finished (by rw [hp]; rfl)
  have hemissions := h.emissions
  rw [hp] at hemissions
  exact {
    finished := fun _ => hfinished
    claimedFinished := h.claimedFinished
    emissions := by
      simpa [closeCompleted, emits, emission] using hemissions
    claimedLog := fun _ => .inl (mem_append_right _ mem_cons_self)
    outside := h.outside.concat (by decide)
    claims := nofun
    immediate := fun _ _ _ => rfl
    live := fun _ hc => by simp [closeCompleted, hclaimed] at hc
    drops := nofun
    handled := nofun
    claimedData := fun _ => .inr rfl
    listener := h.listener
    recorded := fun hl => h.recorded (by simpa [closeCompleted] using hl)
    owes := fun ho => by
      rcases h.owes (ho.of_concat (by decide)) with hl | hq | ⟨ha, -⟩
      · exact .inl hl
      · simp [hp, owesCallback] at hq
      · exact .inr (.inl ha) }

theorem detach (hp : s.scheduler = .dropDetach) :
    Owned { s.record .dropped with hasData := false, scheduler := .idle } := by
  have hab : s.aborted = true ∨ s.finished = some .abort := h.drops (by rw [hp]; rfl)
  have hemissions := h.emissions
  rw [hp] at hemissions
  exact {
    finished := nofun
    claimedFinished := h.claimedFinished
    emissions := by
      simpa [record, emits, emission] using hemissions
    claimedLog := fun hl => by
      simpa [record, hp, SchedulerPoint.claims] using h.claimedLog (by simpa [record] using hl)
    outside := h.outside.concat (by decide)
    claims := nofun
    immediate := fun _ _ _ => rfl
    live := fun ha _ hf => by
      rcases hab with ha' | hf'
      · exact absurd (ha'.symm.trans ha) (by decide)
      · exact absurd hf' hf
    drops := nofun
    handled := fun _ hf => by
      rcases hab with ha | hf'
      · exact .inl ha
      · exact absurd (hf.symm.trans hf') (by decide)
    claimedData := fun _ => .inr rfl
    listener := h.listener
    recorded := fun hl => h.recorded (by simpa [record] using hl)
    owes := fun ho => by
      rcases h.owes (ho.of_concat (by decide)) with hl | hq | ⟨-, hq | hf | hq⟩
      · exact .inl hl
      · simp [hp, owesCallback] at hq
      · simp [hp, SchedulerPoint.claims] at hq
      · exact absurd hf (h.finished (by rw [hp]; rfl))
      · simp [hp] at hq }

theorem emit {error : Bool} (hp : s.scheduler = .emit error) :
    Owned { s.record (if error then .error else .result) with scheduler := .idle } := by
  have hclaimed : s.claimed = true := h.claimed_of_emits (by rw [hp]; rfl)
  have hemissions := h.emissions
  rw [hp, hclaimed] at hemissions
  have hne (event : TerminalEvent) (hevt : event.emission = false) :
      (if error then TerminalEvent.error else .result) ≠ event := by
    rintro rfl
    cases error <;> exact absurd hevt (by decide)
  have hmem {event : TerminalEvent} (hevt : event.emission = false)
      (hl : event ∈ (s.record (if error then .error else .result)).log) : event ∈ s.log := by
    rcases mem_append.mp hl with hold | hnew
    · exact hold
    · exact absurd (mem_singleton.mp hnew).symm (hne event hevt)
  exact {
    finished := nofun
    claimedFinished := h.claimedFinished
    emissions := by
      cases error <;>
        simpa [record, hclaimed, emits, emission] using hemissions
    claimedLog := fun hl => by
      rcases h.claimedLog (hmem rfl hl) with hcl | hq
      · exact .inl (mem_append_left _ hcl)
      · simp [hp, SchedulerPoint.claims] at hq
    outside := h.outside.concat (hne _ rfl)
    claims := nofun
    immediate := fun _ _ _ => rfl
    live := fun _ hc => by simp [record, hclaimed] at hc
    drops := nofun
    handled := fun _ _ => .inr hclaimed
    claimedData := fun hc => by simpa [record, hp, SchedulerPoint.claims] using h.claimedData hc
    listener := h.listener
    recorded := fun hl => h.recorded (hmem rfl hl)
    owes := fun ho => by
      rcases h.owes (ho.of_concat (hne _ rfl)) with hl | hq | ⟨-, hq | hf | hq⟩
      · exact .inl hl
      · simp [hp, owesCallback] at hq
      · simp [hp, SchedulerPoint.claims] at hq
      · exact absurd hf (h.claimedFinished hclaimed)
      · simp [hp] at hq }

theorem entries
    (streamIngress requestUpdates deferredPayload dirty firstEmit prefillStart prefillEnd : Bool) :
    Owned { s with
      streamIngress := streamIngress, requestUpdates := requestUpdates,
      deferredPayload := deferredPayload, dirty := dirty, firstEmit := firstEmit,
      prefillStart := prefillStart, prefillEnd := prefillEnd } :=
  { h with claimedFinished := h.claimedFinished }

theorem deliver (message : IngressMessage) : (s.deliver message).Owned := by
  unfold TerminalRequest.deliver
  split_ifs
  · exact h
  · cases message with
    | streamChunk rechecks | streamDone | requestUpdate => exact h.entries _ _ _ _ _ _ _

end

@[simp] theorem deliver_scheduler (message : IngressMessage) :
    (s.deliver message).scheduler = s.scheduler := by
  unfold TerminalRequest.deliver
  split_ifs
  · rfl
  · cases message <;> rfl

section

variable (h : s.Owned)
include h

theorem advance {raises flushed : Bool} (hst : s.advance raises flushed = some t) : t.Owned := by
  unfold TerminalRequest.advance at hst
  split at hst <;> rename_i hp <;> cases hst
  case h_2 message =>
    have hq : (s.deliver message).scheduler.Quiet .idle := by
      rw [deliver_scheduler, hp]
      exact ⟨rfl, rfl, rfl, rfl, nofun, nofun⟩
    exact (h.deliver message).move hq _ _ _
  case h_3 => exact h.claimTerminal hp
  case h_4 =>
    exact h.callback (q := .dropFirstEmit) (by rw [hp]; rfl) rfl (by rw [hp]; rfl)
      (by rw [hp]; rfl) (by rw [hp]; rfl) (List.Subset.refl _)
  case h_7 => exact h.detach hp
  case h_11 => exact h.close hp
  case h_15 error =>
    exact h.callback (q := .emitFirstEmit error) (by rw [hp]; rfl) rfl (by rw [hp]; rfl)
      (by rw [hp]; rfl) (by rw [hp]; rfl) (List.Subset.refl _)
  case h_18 => exact h.emit hp
  all_goals
    refine h.move ?_ _ _ _
    rw [hp]
    exact ⟨rfl, rfl, rfl, rfl, id, nofun⟩

/-- A message is taken, `stream_output` is called again, or a forward step finishes the request. -/
theorem enter (hidle : s.scheduler = .idle) {q : SchedulerPoint} {finished : Option FinishedReason}
    (hq : q.claims = false ∧ q.emits = false ∧ q.drops = false)
    (hfinished : q.rests = false → finished ≠ none)
    (hkeeps : s.finished ≠ none → finished = s.finished)
    (hstr : finished = s.finished ∨ q = .streamOutput) :
    Owned { s with finished := finished, scheduler := q } where
  finished := hfinished
  claimedFinished hc := by
    show finished ≠ none
    rw [hkeeps (h.claimedFinished hc)]
    exact h.claimedFinished hc
  emissions := by
    have he := h.emissions
    rw [hidle] at he
    rw [hq.2.1]
    exact he
  claimedLog hl := by
    rcases h.claimedLog hl with hcl | hp
    · exact .inl hcl
    · simp [hidle, SchedulerPoint.claims] at hp
  outside := h.outside
  claims hp := by simp [hq.1] at hp
  immediate _ _ _ := hq.1
  live ha hc hf := by
    refine h.live ha hc fun hold => hf ?_
    show finished = some .abort
    rw [hkeeps (by simp [hold]), hold]
  drops hp := by simp [hq.2.2] at hp
  handled hp hf := by
    rcases hstr with heq | rfl
    · exact h.handled (by rw [hidle]; rfl) (heq ▸ hf)
    · simp [rests] at hp
  claimedData hc := by
    rcases h.claimedData hc with hp | hd
    · simp [hidle, SchedulerPoint.claims] at hp
    · exact .inr hd
  listener := h.listener
  recorded := h.recorded
  owes ho := by
    rcases h.owes ho with hl | hp | ⟨ha, hp | hf | hp⟩
    · exact .inl hl
    · simp [hidle, owesCallback] at hp
    · simp [hidle, SchedulerPoint.claims] at hp
    · rcases hstr with heq | rfl
      · exact .inr (.inr ⟨ha, .inr (.inl (heq.trans hf))⟩)
      · exact .inr (.inr ⟨ha, .inr (.inr rfl)⟩)
    · simp [hidle] at hp

/-- The record of the abort: the callback is left to the scheduler thread where the request is
    running, or claimed and not closed. -/
theorem beginAbort : s.beginAbort.Owned := by
  have hclaims (hp : s.scheduler.claims = true) : s.runningAbort = true := by
    obtain ⟨hbatches, hdata⟩ := h.claims hp
    have hemits : s.scheduler.emits = true := by
      cases hq : s.scheduler <;> simp_all [SchedulerPoint.claims, emits]
    have hne : s.batches.isEmpty = false := by simpa using hbatches
    simp [runningAbort, hne, h.claimed_of_emits hemits, hdata]
  exact {
    finished := h.finished
    claimedFinished := h.claimedFinished
    emissions := by
      simpa [TerminalRequest.beginAbort, emission] using h.emissions
    claimedLog := fun hl => by
      rcases h.claimedLog (by simpa [TerminalRequest.beginAbort] using hl) with hcl | hp
      · exact .inl (mem_append_left _ hcl)
      · exact .inr hp
    outside := h.outside.concat (by decide)
    claims := h.claims
    immediate := fun op hop hi => by
      refine Bool.eq_false_iff.mpr fun hp => ?_
      rw [TerminalRequest.beginAbort, hclaims hp] at hop
      revert hi
      exact Bool.eq_false_iff.mp ((by decide : ∀ op ∈ abortOps true, op.immediate = false) op hop)
    live := nofun
    drops := fun _ => .inl rfl
    handled := fun _ _ => .inl rfl
    claimedData := h.claimedData
    listener := fun _ => rfl
    recorded := fun _ => rfl
    owes := fun _ => by
      cases hr : s.runningAbort with
      | false =>
        refine .inl ?_
        show .runAbortCallback ∈ abortOps s.runningAbort
        rw [hr]
        decide
      | true =>
        refine .inr (.inr ⟨rfl, ?_⟩)
        unfold runningAbort at hr
        cases hc : s.claimed with
        | true =>
          rcases h.claimedData hc with hp | hd
          · exact .inl hp
          · simp [hc, hd] at hr
        | false =>
          rw [hc, Bool.and_eq_true] at hr
          exact .inr (.inl (isNone_iff_eq_none.mp hr.2)) }

theorem abortEntry {op : AbortOp} {rest : List AbortOp} (hop : s.listener = op :: rest)
    (hne : op ≠ .runAbortCallback) :
    Owned { s with listener := rest } :=
  { h with
    immediate := fun op' hop' => h.immediate op' (by rw [hop]; exact mem_cons_of_mem _ hop')
    listener := fun _ => h.listener (by simp [hop])
    owes := fun ho => by
      rcases h.owes ho with hl | hp | hp
      · rw [hop, mem_cons] at hl
        exact .inl (hl.resolve_left (Ne.symm hne))
      · exact .inr (.inl hp)
      · exact .inr (.inr hp) }

/-- The listener thread removes a request from a batch only where it has not been claimed. -/
theorem removeFromBatch {slot : BatchSlot} (hop : .removeFromBatch slot ∈ s.listener) :
    Owned { s with hasData := false, batches := s.batches.erase slot } :=
  { h with
    claims := fun hp => by
      rw [h.immediate _ hop rfl] at hp
      exact absurd hp (by decide)
    live := fun ha => by
      rw [h.listener (ne_nil_of_mem hop)] at ha
      exact absurd ha (by decide)
    claimedData := fun _ => .inr rfl }

theorem listenerStep {op : AbortOp} {rest : List AbortOp} (hop : s.listener = op :: rest)
    : Owned { s.abortOp op with listener := rest } := by
  have hmem : op ∈ s.listener := by rw [hop]; exact mem_cons_self
  cases op with
  | runAbortCallback =>
    have hclaims := h.immediate _ hmem rfl
    exact h.callback hclaims hclaims rfl rfl rfl (by rw [hop]; exact subset_cons_self _ _)
  | removeFromBatch slot =>
    by_cases hsl : slot ∈ s.batches
    · rw [abortOp, if_pos hsl]
      exact (h.removeFromBatch hmem).abortEntry hop nofun
    · rw [abortOp, if_neg hsl]
      exact h.abortEntry hop nofun
  | popStreamIngress | popRequestUpdates | popDeferredPayload | discardDirty | discardFirstEmit
  | modelPathEnd | discardPrefillStart | discardPrefillEnd =>
    exact (h.abortEntry hop nofun).entries _ _ _ _ _ _ _
  | releaseResources => exact h.abortEntry hop nofun
  | drainInbox => exact h.abortEntry hop nofun

theorem rebatch (hidle : s.scheduler = .idle) {batches : List BatchSlot}
    (hne : s.finished = none → batches ≠ []) : Owned { s with batches := batches } :=
  { h with
    claims := fun hp => by
      rw [hidle] at hp
      exact absurd hp (by decide)
    live := fun ha hc hf => by
      refine ⟨?_, (h.live ha hc hf).2⟩
      cases hfin : s.finished with
      | none => exact hne hfin
      | some reason =>
        cases reason with
        | abort => exact absurd hfin hf
        | other =>
          rcases h.handled (by rw [hidle]; rfl) hfin with ha' | hc'
          · exact absurd (ha'.symm.trans ha) (by decide)
          · exact absurd (hc'.symm.trans hc) (by decide) }

theorem step (hst : terminalStep s act = some t) : t.Owned := by
  cases act with
  | advance raises flushed => exact h.advance hst
  | recv message =>
    dsimp only [terminalStep] at hst
    split_ifs at hst with hidle ha <;> cases hst
    · exact h
    · exact h.enter hidle ⟨rfl, rfl, rfl⟩ nofun (fun _ => rfl) (.inl rfl)
  | rebatch batches =>
    dsimp only [terminalStep] at hst
    split_ifs at hst with hidle
    cases hst
    exact h.rebatch hidle.1 hidle.2.1
  | prefillStart | prefillEnd skipped =>
    dsimp only [terminalStep] at hst
    split_ifs at hst
    cases hst
    exact h.entries _ _ _ _ _ _ _
  | finish reason =>
    obtain ⟨hidle, ⟨⟩⟩ := of_guard hst
    exact h.enter hidle.1 ⟨rfl, rfl, rfl⟩ nofun (fun hf => absurd hidle.2 hf) (.inr rfl)
  | streamOutput =>
    dsimp only [terminalStep] at hst
    split_ifs at hst with hidle
    cases hst
    exact h.enter hidle.1 ⟨rfl, rfl, rfl⟩ (fun _ => hidle.2) (fun _ => rfl) (.inl rfl)
  | abort =>
    dsimp only [terminalStep] at hst
    split_ifs at hst
    cases hst
    exact h.beginAbort
  | listener =>
    dsimp only [terminalStep] at hst
    split at hst
    · cases hst
    · rename_i op rest hop
      cases hst
      exact h.listenerStep hop

/-- Once both threads are done, the abort callback has run for an abort that came in time. -/
theorem callbackRuns (hs : s.Settled) : ¬Owes .recorded .closed .abortCallback s.log := by
  intro ho
  have hrests := hs.scheduler
  rcases h.owes ho with hl | hp | ⟨-, hp | hf | hp⟩
  · simp [hs.listener] at hl
  · cases hq : s.scheduler <;> simp_all [owesCallback, rests]
  · cases hq : s.scheduler <;> simp_all [SchedulerPoint.claims, rests]
  · exact hs.finished hf
  · simp [hp, rests] at hrests

theorem soleOwner : s.SoleOwner where
  emitsOnce :=
    calc s.log.countP emission
      _ ≤ s.log.countP emission + s.scheduler.emits.toNat := Nat.le_add_right _ _
      _ ≤ s.claimed.toNat := h.emissions
      _ ≤ 1 := Bool.toNat_le s.claimed
  callbackOutside := h.outside
  callbackRuns := h.callbackRuns

end

end Owned

/-- The runs of the two threads, whatever they leave behind. -/
theorem owned_of_reachable (h : terminalSystem.Reachable s) : s.Owned :=
  h.invariant (fun _ (h₀ : Running _) => h₀.owned) fun a l b h hst =>
    h.step (show terminalStep a l = some b from hst)

/-! ## What is left -/

/-- An aborted request has no entry that `abort` is not still going to remove, and a finished one no
    prefill start marker. -/
structure Clean (s : TerminalRequest) : Prop where
  listener : ∃ running, s.listener <:+ abortOps running
  streamIngress : s.aborted = true → .popStreamIngress ∉ s.listener → s.streamIngress = false
  requestUpdates : s.aborted = true → .popRequestUpdates ∉ s.listener → s.requestUpdates = false
  deferredPayload : s.aborted = true → .popDeferredPayload ∉ s.listener →
    s.deferredPayload = false
  dirty : s.aborted = true → .discardDirty ∉ s.listener → s.dirty = false
  prefillEnd : s.aborted = true → .discardPrefillEnd ∉ s.listener → s.prefillEnd = false
  prefillStart : s.finished ≠ none → s.scheduler.pathEnded = true → s.prefillStart = false
  again : s.scheduler = .streamOutput → s.claimed = true → s.prefillStart = false

theorem Running.clean (h : s.Running) : s.Clean where
  listener := ⟨true, by rw [h.listener]; exact nil_suffix⟩
  streamIngress ha := by simp [h.aborted] at ha
  requestUpdates ha := by simp [h.aborted] at ha
  deferredPayload ha := by simp [h.aborted] at ha
  dirty ha := by simp [h.aborted] at ha
  prefillEnd ha := by simp [h.aborted] at ha
  prefillStart hf := absurd h.finished hf
  again hp := by simp [h.scheduler] at hp

namespace Clean

section

variable (h : s.Clean) {raises flushed : Bool}
include h

/-- `abort` drops the buffered chunks before it takes the request off the recheck list. -/
theorem discardDirty_mem (hop : .popStreamIngress ∈ s.listener) : .discardDirty ∈ s.listener := by
  obtain ⟨running, hsuffix⟩ := h.listener
  have hall : ∀ running, ∀ l ∈ (abortOps running).tails,
      .popStreamIngress ∈ l → AbortOp.discardDirty ∈ l := by decide
  exact hall running s.listener ((mem_tails _ _).mpr hsuffix) hop

theorem move {q : SchedulerPoint} {prefillStart prefillEnd : Bool}
    (firstEmit claimed hasData : Bool) (log : List TerminalEvent)
    (hsrt : s.finished ≠ none → q.pathEnded = true → prefillStart = false)
    (hend : prefillEnd = true → s.prefillEnd = true) (hq : q ≠ .streamOutput) :
    Clean { s with
      claimed := claimed, hasData := hasData, firstEmit := firstEmit, prefillStart := prefillStart,
      prefillEnd := prefillEnd, scheduler := q, log := log } :=
  { h with
    prefillEnd := fun ha hop => by
      refine Bool.eq_false_iff.mpr fun he => ?_
      rw [h.prefillEnd ha hop] at hend
      exact absurd (hend he) (by decide)
    prefillStart := hsrt
    again := fun hp => absurd hp hq }

/-- A chunk that is buffered although the request is aborted is still going to be removed. -/
theorem deliver {message : IngressMessage} (hp : s.scheduler = .receive message)
    (hl : s.leaves (.advance raises flushed) = false) : (s.deliver message).Clean := by
  unfold TerminalRequest.deliver
  split_ifs with hfound
  · exact h
  · rw [Bool.not_eq_true] at hfound
    have hpop (ha : s.aborted = true) : removedBy message ∈ s.listener := by
      simpa [leaves, hp, ha, hfound] using hl
    cases message with
    | streamChunk rechecks | streamDone =>
      exact { h with
        streamIngress := fun ha hop => absurd (hpop ha) hop
        dirty := fun ha hop => absurd (h.discardDirty_mem (hpop ha)) hop }
    | requestUpdate =>
      exact { h with requestUpdates := fun ha hop => absurd (hpop ha) hop }

theorem closeCompleted : s.closeCompleted.Clean :=
  { h with
    streamIngress := fun ha hop => by
      simp [TerminalRequest.closeCompleted, h.streamIngress ha hop]
    requestUpdates := fun ha hop => by
      simp [TerminalRequest.closeCompleted, h.requestUpdates ha hop] }

theorem claimTerminal (hp : s.scheduler = .streamOutput) : s.claimTerminal.Clean := by
  unfold TerminalRequest.claimTerminal
  split_ifs with hab hclaimed hdata
  · exact h.move _ _ _ _ nofun id nofun
  · exact h.move _ _ _ _ (fun _ _ => h.again hp hclaimed) id nofun
  · exact h.move _ _ _ _ nofun id nofun
  · exact h.closeCompleted.move _ _ _ _ (fun _ _ => rfl) nofun nofun

theorem advance (ho : s.Owned) (hl : s.leaves (.advance raises flushed) = false)
    (hst : s.advance raises flushed = some t) : t.Clean := by
  -- a point inside `stream_output` is reached by a finished request only
  have hstays (hrests : s.scheduler.rests = false) (hended : s.scheduler.pathEnded = true) :
      s.prefillStart = false := h.prefillStart (ho.finished hrests) hended
  unfold TerminalRequest.advance at hst
  split at hst <;> rename_i hp <;> cases hst
  case h_2 message =>
    refine (h.deliver hp hl).move _ _ _ _ (fun hf _ => ?_) id nofun
    exact (h.deliver hp hl).prefillStart hf (by rw [Owned.deliver_scheduler, hp]; rfl)
  case h_3 => exact h.claimTerminal hp
  case h_6 => exact h.move _ _ _ _ (fun _ _ => rfl) id nofun
  case h_10 => exact h.move _ _ _ _ (fun _ _ => rfl) id nofun
  case h_11 =>
    exact h.closeCompleted.move _ _ _ _ (fun _ _ => hstays (by rw [hp]; rfl) (by rw [hp]; rfl)) id
      nofun
  case h_13 => exact h.move _ _ _ _ (fun _ _ => rfl) id nofun
  case h_14 =>
    exact h.move _ _ _ _ (fun _ _ => hstays (by rw [hp]; rfl) (by rw [hp]; rfl)) nofun nofun
  all_goals
    refine h.move _ _ _ _ (fun _ hq => ?_) id nofun
    first
      | exact hstays (by rw [hp]; rfl) (by rw [hp]; rfl)
      | exact nomatch hq

end

end Clean

section AbortOp

variable (op : AbortOp)

/-- A statement of `abort` leaves the rest of the request as it is. -/
@[simp] theorem abortOp_frame :
    (s.abortOp op).finished = s.finished ∧ (s.abortOp op).claimed = s.claimed ∧
      (s.abortOp op).aborted = s.aborted ∧ (s.abortOp op).scheduler = s.scheduler := by
  cases op with
  | removeFromBatch slot =>
    by_cases hsl : slot ∈ s.batches <;> simp [abortOp, hsl]
  | _ => exact ⟨rfl, rfl, rfl, rfl⟩

theorem abortOp_entries :
    (s.abortOp op).streamIngress = (s.streamIngress && decide (op ≠ .popStreamIngress)) ∧
      (s.abortOp op).requestUpdates = (s.requestUpdates && decide (op ≠ .popRequestUpdates)) ∧
      (s.abortOp op).deferredPayload = (s.deferredPayload && decide (op ≠ .popDeferredPayload)) ∧
      (s.abortOp op).dirty = (s.dirty && decide (op ≠ .discardDirty)) ∧
      (s.abortOp op).prefillEnd = (s.prefillEnd && decide (op ≠ .discardPrefillEnd)) := by
  cases op with
  | removeFromBatch slot =>
    by_cases hsl : slot ∈ s.batches <;> simp [abortOp, hsl]
  | _ => simp [abortOp, record, modelPathEnd]

theorem abortOp_prefillStart (h : s.prefillStart = false) :
    (s.abortOp op).prefillStart = false := by
  cases op with
  | removeFromBatch slot =>
    by_cases hsl : slot ∈ s.batches <;> simp [abortOp, hsl, h]
  | _ => simp [abortOp, record, modelPathEnd, h]

end AbortOp

namespace Clean

theorem listenerStep (h : s.Clean) {op : AbortOp} {rest : List AbortOp}
    (hop : s.listener = op :: rest) : Clean { s.abortOp op with listener := rest } := by
  obtain ⟨hfinished, hclaimed, habt, hscheduler⟩ := abortOp_frame (s := s) op
  obtain ⟨hingress, hupdates, hdeferred, hdirty, hend⟩ := abortOp_entries (s := s) op
  -- what is not still to be removed was removed before, or is now
  have hdone {op' : AbortOp} {entry : Bool} (hent : op' ∉ s.listener → entry = false)
      (hmem : op' ∉ rest) : (entry && decide (op ≠ op')) = false := by
    by_cases heq : op = op'
    · simp [heq]
    · rw [hent (by rw [hop, mem_cons, not_or]; exact ⟨Ne.symm heq, hmem⟩), Bool.false_and]
  exact {
    listener := by
      obtain ⟨running, hsuffix⟩ := h.listener
      rw [hop] at hsuffix
      exact ⟨running, (suffix_cons op rest).trans hsuffix⟩
    streamIngress := fun ha hmem => hingress.trans (hdone (h.streamIngress (habt ▸ ha)) hmem)
    requestUpdates := fun ha hmem => hupdates.trans (hdone (h.requestUpdates (habt ▸ ha)) hmem)
    deferredPayload := fun ha hmem => hdeferred.trans (hdone (h.deferredPayload (habt ▸ ha)) hmem)
    dirty := fun ha hmem => hdirty.trans (hdone (h.dirty (habt ▸ ha)) hmem)
    prefillEnd := fun ha hmem => hend.trans (hdone (h.prefillEnd (habt ▸ ha)) hmem)
    prefillStart := fun hf hp =>
      abortOp_prefillStart op (h.prefillStart (hfinished ▸ hf) (hscheduler ▸ hp))
    again := fun hp hc => abortOp_prefillStart op (h.again (hscheduler ▸ hp) (hclaimed ▸ hc)) }

theorem step (h : s.Clean) (ho : s.Owned) (hst : terminalStep s act = some t)
    (hl : s.leaves act = false) : t.Clean := by
  cases act with
  | advance raises flushed => exact h.advance ho hl hst
  | recv message =>
    dsimp only [terminalStep] at hst
    split_ifs at hst with hidle ha <;> cases hst
    · exact h
    · exact h.move _ _ _ _ (fun hf _ => h.prefillStart hf (by rw [hidle]; rfl)) id nofun
  | rebatch batches =>
    cases (of_guard hst).2
    exact { h with listener := h.listener }
  | prefillStart =>
    obtain ⟨hidle, ⟨⟩⟩ := of_guard hst
    exact { h with
      prefillStart := fun hf => absurd hidle.2 hf
      again := fun hp => by simp [hidle.1] at hp }
  | prefillEnd skipped =>
    obtain ⟨hidle, ⟨⟩⟩ := of_guard hst
    exact { h with
      prefillEnd := fun ha hop => by
        have hold := h.prefillEnd ha hop
        have hab : s.aborted = true := ha
        have hmk : s.marksPrefillEnd skipped = false := by simpa [leaves, hab, hop] using hl
        simp [hold, hmk] }
  | finish reason =>
    obtain ⟨hidle, ⟨⟩⟩ := of_guard hst
    exact { h with
      prefillStart := nofun
      again := fun _ hc => absurd hidle.2 (ho.claimedFinished hc) }
  | streamOutput =>
    obtain ⟨hidle, ⟨⟩⟩ := of_guard hst
    exact { h with
      prefillStart := nofun
      again := fun _ _ => h.prefillStart hidle.2 (by rw [hidle.1]; rfl) }
  | abort =>
    cases (of_guard hst).2
    have hall : ∀ running, .popStreamIngress ∈ abortOps running ∧
        .popRequestUpdates ∈ abortOps running ∧ .popDeferredPayload ∈ abortOps running ∧
        .discardDirty ∈ abortOps running ∧ .discardPrefillEnd ∈ abortOps running := by decide
    obtain ⟨hingress, hupdates, hdeferred, hdirty, hend⟩ := hall s.runningAbort
    exact { h with
      listener := ⟨s.runningAbort, suffix_rfl⟩
      streamIngress := fun _ hop => absurd hingress hop
      requestUpdates := fun _ hop => absurd hupdates hop
      deferredPayload := fun _ hop => absurd hdeferred hop
      dirty := fun _ hop => absurd hdirty hop
      prefillEnd := fun _ hop => absurd hend hop }
  | listener =>
    dsimp only [terminalStep] at hst
    split at hst
    · cases hst
    · rename_i op rest hop
      cases hst
      exact h.listenerStep hop

theorem noEntry (h : s.Clean) (hs : s.Settled) (ha : s.aborted = true) : s.NoEntry := by
  have hdone (op : AbortOp) : op ∉ s.listener := by
    rw [hs.listener]
    exact not_mem_nil
  have hrests := hs.scheduler
  have hended : s.scheduler.pathEnded = true := by
    cases hp : s.scheduler <;> simp_all [rests, pathEnded]
  exact {
    streamIngress := h.streamIngress ha (hdone _)
    requestUpdates := h.requestUpdates ha (hdone _)
    deferredPayload := h.deferredPayload ha (hdone _)
    dirty := h.dirty ha (hdone _)
    prefillStart := h.prefillStart hs.finished hended
    prefillEnd := h.prefillEnd ha (hdone _) }

end Clean

/-! ## The runs -/

/-- The system whose steps leave no entry of an aborted request. -/
def cleanSystem : System TerminalRequest TerminalStep :=
  terminalSystem.restrict fun s act => s.leaves act = false

theorem owned_and_clean (h : cleanSystem.Reachable s) : s.Owned ∧ s.Clean := by
  refine h.invariant (P := fun s => s.Owned ∧ s.Clean)
    (fun _ (h₀ : Running _) => ⟨h₀.owned, h₀.clean⟩) ?_
  rintro a l b ⟨howned, hclean⟩ ⟨hst, hl⟩
  have hstep : terminalStep a l = some b := hst
  exact ⟨howned.step hstep, hclean.step howned hstep hl⟩

end TerminalRequest

open TerminalRequest

/-- Whatever the interleaving, the request is answered once and its abort callback runs for an
    abort that came in time, never between the claim and the close. Nothing is left of an aborted
    request in the runs in which no step leaves an entry that `abort` has removed. -/
theorem terminal_ownership (s : TerminalRequest) :
    (terminalSystem.Reachable s → s.SoleOwner) ∧
      (cleanSystem.Reachable s → s.TerminalOwnership) := by
  constructor
  · intro hs
    exact (owned_of_reachable hs).soleOwner
  · intro hs
    obtain ⟨howned, hclean⟩ := owned_and_clean hs
    exact { howned.soleOwner with
      noEntry := fun hsettled hl => hclean.noEntry hsettled (howned.recorded hl) }

def decodingRequest : TerminalRequest := { prefillStart := true, prefillEnd := true }

theorem decodingRequest_running : decodingRequest.Running where
  finished := rfl
  toFinish := rfl
  claimed := rfl
  hasData := rfl
  batches := by decide
  aborted := rfl
  completed := rfl
  scheduler := rfl
  listener := rfl
  log := rfl

/-- The whole `abort` of a running request. -/
def abortSteps : List TerminalStep := .abort :: List.replicate 9 .listener

/-- The forward step after the abort, and `stream_output`. -/
def lastForward : List TerminalStep :=
  [.prefillStart, .prefillEnd false, .finish .other] ++ List.replicate 5 (.advance false false)

/-- The abort of a decoding request removes its prefill markers; the next forward step adds them
    again, and `stream_output` drops the request without the end marker. -/
theorem aborted_request_keeps_prefillEnd :
    ¬∀ s, terminalSystem.Reachable s → s.TerminalOwnership := by
  intro hall
  have hrun : (System.exec terminalStep decodingRequest (abortSteps ++ lastForward)).map
      (fun s => (s.finished, s.scheduler, s.listener, s.log.contains .recorded, s.prefillEnd)) =
      some (some .abort, .idle, [], true, true) := by
    decide
  obtain ⟨s, hs, hval⟩ := map_eq_some_iff.mp hrun
  simp only [Prod.mk.injEq] at hval
  obtain ⟨hfinished, hscheduler, hlistener, hrecorded, hend⟩ := hval
  have hreach : terminalSystem.Reachable s := .of_exec (.init decodingRequest_running) hs
  have hsettled : s.Settled := ⟨by simp [hfinished], by rw [hscheduler]; rfl, hlistener⟩
  have hno := (hall s hreach).noEntry hsettled (by simpa using hrecorded)
  simp [hno.prefillEnd] at hend

/-- An abort between the claim and the close: the scheduler thread closes the request, runs the
    callback and sends the result. -/
theorem terminal_ownership_claimed :
    ∃ s : TerminalRequest, s.log = [.claimed, .recorded, .closed, .abortCallback, .result] ∧
      s.SoleOwner ∧ s.NoEntry := by
  have hrun : (System.exec (fun s act => if s.leaves act = false then terminalStep s act else none)
      decodingRequest
      ([.finish .other, .advance false false] ++ abortSteps ++
        List.replicate 10 (.advance false false))).map
      (fun s => (s.finished, s.scheduler, s.listener, s.log)) =
      some (some .other, .idle, [], [.claimed, .recorded, .closed, .abortCallback, .result]) := by
    decide
  obtain ⟨s, hs, hval⟩ := map_eq_some_iff.mp hrun
  simp only [Prod.mk.injEq] at hval
  obtain ⟨hfinished, hscheduler, hlistener, hlog⟩ := hval
  have hreach : cleanSystem.Reachable s := .of_exec_guarded (.init decodingRequest_running) hs
  have hsettled : s.Settled := ⟨by simp [hfinished], by rw [hscheduler]; rfl, hlistener⟩
  have h := (terminal_ownership s).2 hreach
  exact ⟨s, hlog, h.toSoleOwner, h.noEntry hsettled (by simp [hlog])⟩

end OmniRealtime
