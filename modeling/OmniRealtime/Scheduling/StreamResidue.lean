import OmniRealtime.Scheduling.StreamScheduler

/-!
# What the streaming scheduler leaves behind

`scheduling/streaming_simple_scheduler.py` and `scheduling/streaming_vocoder.py`: the entries of a
request that has ended.

1. `clean_step_iff`: from a clean state, a step leaves an entry of an ended request exactly when
   it leaks.
2. `stream_residue_iff`: the runs that stay clean are those in which no step leaks.
-/

namespace OmniRealtime

namespace StreamScheduler

open Finset

variable {s t u : StreamScheduler} {requestId : String} {order : List String}

/-- Nothing is stored for the request. -/
structure NoEntry (s : StreamScheduler) (requestId : String) : Prop where
  pendingDone : requestId ∉ s.pendingDone
  streamPayloads : requestId ∉ s.streamPayloads
  streamStates : requestId ∉ s.streamStates
  emittedStreamIds : requestId ∉ s.emittedStreamIds

/-- Nothing is stored for a request that has ended. -/
def Clean (s : StreamScheduler) : Prop := ∀ requestId ∈ s.ended, s.NoEntry requestId

/-- The step leaves an entry for a request that has ended, or ends a request that has one. -/
def Leaks (s : StreamScheduler) : SchedulerEvent → Prop
  | .openStream requestId latches _ =>
    requestId ∈ s.ended ∧ (latches = true ∨ requestId ∈ s.aborted)
  | .done requestId _ => requestId ∈ s.ended ∧ requestId ∉ s.completedNonStreaming
  | .chunk requestId (.decoded _) =>
    requestId ∈ s.ended ∧ requestId ∉ s.aborted ∧ requestId ∉ s.completedStream
  | .finishCompute requestId outcome =>
    ¬s.NoEntry requestId ∧ (outcome = .invalid ∨ requestId ∉ s.aborted)
  | _ => False

/-! ## The other requests -/

/-- Only the request has new entries, and only it has ended. -/
structure Elsewhere (requestId : String) (s t : StreamScheduler) : Prop where
  ended : ∀ id, id ≠ requestId → id ∈ t.ended → id ∈ s.ended
  entries : ∀ id, id ≠ requestId → s.NoEntry id → t.NoEntry id

namespace Elsewhere

theorem refl (requestId : String) (s : StreamScheduler) : Elsewhere requestId s s :=
  ⟨fun _ _ => id, fun _ _ => id⟩

section

variable (h : Elsewhere requestId s t)
include h

theorem trans (h' : Elsewhere requestId t u) :
    Elsewhere requestId s u :=
  ⟨fun id hne hid => h.ended id hne (h'.ended id hne hid),
    fun id hne hs => h'.entries id hne (h.entries id hne hs)⟩

/-- What is left to show is about the one request. -/
theorem clean_iff (hs : s.Clean) : t.Clean ↔ (requestId ∈ t.ended → t.NoEntry requestId) := by
  constructor
  · exact fun ht => ht requestId
  · intro hone id hid
    by_cases hsame : id = requestId
    · subst hsame
      exact hone hid
    · exact h.entries id hsame (hs id (h.ended id hsame hid))

theorem of_eq (he : u.ended = t.ended) (hdone : u.pendingDone = t.pendingDone)
    (hpayloads : u.streamPayloads = t.streamPayloads) (hstates : u.streamStates = t.streamStates)
    (hemt : u.emittedStreamIds = t.emittedStreamIds) : Elsewhere requestId s u := by
  refine h.trans ⟨fun id _ hid => he ▸ hid, fun id _ ht => ?_⟩
  exact ⟨hdone ▸ ht.pendingDone, hpayloads ▸ ht.streamPayloads, hstates ▸ ht.streamStates,
    hemt ▸ ht.emittedStreamIds⟩

theorem emit (id : String) (type : OutgoingType) :
    Elsewhere requestId s (t.emit id type) := h.of_eq rfl rfl rfl rfl rfl

theorem recordAborted (order : List String) (id : String) :
    Elsewhere requestId s (t.recordAborted order id) := h.of_eq rfl rfl rfl rfl rfl

theorem markEnded : Elsewhere requestId s (t.markEnded requestId) := by
  refine h.trans ⟨fun id hne hid => ?_, fun id _ ht => ⟨ht.1, ht.2, ht.3, ht.4⟩⟩
  exact (mem_insert.mp hid).resolve_left hne

theorem clearKeepAborted (id : String) :
    Elsewhere requestId s (t.clearKeepAborted id) :=
  h.trans ⟨fun _ _ => fun hid => hid, fun _ _ ht =>
    ⟨fun hid => ht.pendingDone (mem_of_mem_erase hid),
      fun hid => ht.streamPayloads (mem_of_mem_erase hid),
      fun hid => ht.streamStates (mem_of_mem_erase hid),
      fun hid => ht.emittedStreamIds (mem_of_mem_erase hid)⟩⟩

theorem clearRequestState (id : String) :
    Elsewhere requestId s (t.clearRequestState id) :=
  (h.clearKeepAborted id).of_eq rfl rfl rfl rfl rfl

theorem fail : Elsewhere requestId s (t.fail order requestId) :=
  (((h.emit requestId .error).recordAborted order requestId).clearKeepAborted requestId).markEnded

theorem getOrCreate (hc : t.getOrCreateStreamState requestId = some u)
    : Elsewhere requestId s u := by
  unfold getOrCreateStreamState at hc
  split at hc
  · exact Option.some.inj hc ▸ h
  · cases (of_not_guard hc).2
    refine h.trans ⟨fun _ _ => fun hid => hid, fun id hne ht => ?_⟩
    refine ⟨ht.pendingDone, ht.streamPayloads, fun hid => ?_, ht.emittedStreamIds⟩
    exact ht.streamStates ((mem_insert.mp hid).resolve_left hne)

theorem emitStream (emits : Bool) : Elsewhere requestId s (t.emitStream requestId emits) := by
  have hmarked : Elsewhere requestId s
      { t with emittedStreamIds := insert requestId t.emittedStreamIds } := by
    refine h.trans ⟨fun _ _ => fun hid => hid, fun id hne ht => ?_⟩
    refine ⟨ht.pendingDone, ht.streamPayloads, ht.streamStates, fun hid => ?_⟩
    exact ht.emittedStreamIds ((mem_insert.mp hid).resolve_left hne)
  unfold StreamScheduler.emitStream
  split
  · dsimp only
    split
    · exact hmarked
    · exact hmarked.emit requestId .stream
  · exact h

theorem handleStreamChunk (outcome : ChunkOutcome) :
    Elsewhere requestId s (t.handleStreamChunk order requestId outcome) := by
  unfold StreamScheduler.handleStreamChunk
  split
  · exact h.fail
  · split
    · exact h
    · next hc => exact (h.getOrCreate hc).fail
  · split
    · exact h
    · next hc => exact (h.getOrCreate hc).emitStream _

theorem handleStreamDone (outcome : DoneOutcome) :
    Elsewhere requestId s (t.handleStreamDone order requestId outcome) := by
  unfold StreamScheduler.handleStreamDone
  split
  · split
    · exact h
    · refine h.trans ⟨fun _ _ => fun hid => hid, fun id hne ht => ?_⟩
      refine ⟨fun hid => ?_, ht.streamPayloads, ht.streamStates, ht.emittedStreamIds⟩
      exact ht.pendingDone ((mem_insert.mp hid).resolve_left hne)
  · split
    · split
      · exact h
      · exact h.clearRequestState requestId
    · next hc =>
      have hcrt := h.getOrCreate hc
      split
      · exact hcrt.fail
      · next emits =>
        dsimp only
        have hrcd := (hcrt.emitStream emits).of_eq
          (u := (StreamScheduler.emitStream _ requestId emits).recordCompletedStream requestId)
          rfl rfl rfl rfl rfl
        split
        · exact hrcd
        · exact ((hrcd.emit requestId .result).clearRequestState requestId).markEnded

theorem finishPending (outcome : DoneOutcome) :
    Elsewhere requestId s (handleStreamingNewRequest.finishPending order requestId outcome t) := by
  unfold handleStreamingNewRequest.finishPending
  split
  · refine Elsewhere.handleStreamDone ?_ outcome
    refine h.trans ⟨fun _ _ => fun hid => hid, fun id _ ht => ?_⟩
    exact ⟨fun hid => ht.pendingDone (mem_of_mem_erase hid), ht.streamPayloads,
      ht.streamStates, ht.emittedStreamIds⟩
  · exact h

theorem handleStreamingNewRequest (latches : Bool) (outcome : DoneOutcome) :
    Elsewhere requestId s (t.handleStreamingNewRequest order requestId latches outcome) := by
  have hopened : Elsewhere requestId s (t.acceptPayload requestId) := by
    refine h.trans ⟨fun _ _ => fun hid => hid, fun id hne ht => ?_⟩
    refine ⟨ht.pendingDone, fun hid => ?_, ht.streamStates, ht.emittedStreamIds⟩
    exact ht.streamPayloads ((mem_insert.mp hid).resolve_left hne)
  dsimp only [StreamScheduler.handleStreamingNewRequest]
  split
  · next hc => exact (hopened.getOrCreate hc).fail
  · next hc => exact (hopened.getOrCreate hc).finishPending outcome
  · exact hopened.finishPending outcome

theorem finishCompute (outcome : ComputeOutcome) :
    Elsewhere requestId s (t.finishCompute order requestId outcome) := by
  have he : ∀ type, Elsewhere requestId s
      (((t.emit requestId type).recordCompletedNonStreaming order requestId).markEnded
        requestId) := by
    intro type
    have hrcd : Elsewhere requestId s
        ((t.emit requestId type).recordCompletedNonStreaming order requestId) :=
      h.of_eq rfl rfl rfl rfl rfl
    exact hrcd.markEnded
  unfold StreamScheduler.finishCompute
  split
  · exact he .error
  · split
    · exact h
    · exact he .error
  · split
    · exact h
    · exact he .result

end

end Elsewhere

/-! ## The request itself -/

theorem noEntry_clearKeepAborted (s : StreamScheduler) (requestId : String) :
    (s.clearKeepAborted requestId).NoEntry requestId :=
  ⟨notMem_erase _ _, notMem_erase _ _, notMem_erase _ _,
    notMem_erase _ _⟩

theorem noEntry_fail (s : StreamScheduler) (order : List String) (requestId : String) :
    (s.fail order requestId).NoEntry requestId :=
  have hclr := noEntry_clearKeepAborted ((s.emit requestId .error).recordAborted order requestId)
    requestId
  ⟨hclr.1, hclr.2, hclr.3, hclr.4⟩

theorem noEntry_clearRequestState (s : StreamScheduler) (requestId : String) :
    (s.clearRequestState requestId).NoEntry requestId :=
  have hclr := noEntry_clearKeepAborted s requestId
  ⟨hclr.1, hclr.2, hclr.3, hclr.4⟩

theorem Clean.mono (hs : s.Clean) (he : ∀ id ∈ t.ended, id ∈ s.ended)
    (hens : ∀ id, s.NoEntry id → t.NoEntry id) : t.Clean :=
  fun id hid => hens id (hs id (he id hid))

@[simp] theorem ended_emitStream (s : StreamScheduler) (requestId : String) (emits : Bool) :
    (s.emitStream requestId emits).ended = s.ended := by
  unfold emitStream
  split
  · dsimp only
    split <;> rfl
  · rfl

@[simp] theorem streamStates_emitStream (s : StreamScheduler) (requestId : String) (emits : Bool) :
    (s.emitStream requestId emits).streamStates = s.streamStates := by
  unfold emitStream
  split
  · dsimp only
    split <;> rfl
  · rfl

theorem getOrCreate_eq_some (h : s.getOrCreateStreamState requestId = some t) :
    t = { s with streamStates := insert requestId s.streamStates } ∧
      (requestId ∈ s.streamStates ∨ requestId ∉ s.aborted ∧ requestId ∉ s.completedStream) := by
  unfold getOrCreateStreamState at h
  split at h
  · next hold =>
    cases h
    rw [insert_eq_of_mem hold]
    exact ⟨rfl, .inl hold⟩
  · split at h
    · cases h
    · next ho =>
      rw [not_or] at ho
      exact ⟨(Option.some.inj h).symm, .inr ho⟩

theorem getOrCreate_eq_none (h : s.getOrCreateStreamState requestId = none) :
    requestId ∈ s.aborted ∨ requestId ∈ s.completedStream := by
  unfold getOrCreateStreamState at h
  split at h
  · cases h
  · split at h
    · next hcl => exact hcl
    · cases h

theorem noEntry_handleStreamDone (hp : requestId ∈ s.streamPayloads)
    (hlive : requestId ∉ s.ended) (outcome : DoneOutcome)
    (he : requestId ∈ (s.handleStreamDone order requestId outcome).ended) :
    (s.handleStreamDone order requestId outcome).NoEntry requestId := by
  unfold handleStreamDone at he ⊢
  rw [if_neg (not_not.mpr hp)] at he ⊢
  cases hc : s.getOrCreateStreamState requestId with
  | none =>
    rw [hc] at he
    dsimp only at he ⊢
    split at he
    · exact absurd he hlive
    · next ho =>
      rw [if_neg ho]
      exact noEntry_clearRequestState s requestId
  | some u =>
    rw [hc] at he
    obtain ⟨rfl, -⟩ := getOrCreate_eq_some hc
    cases outcome with
    | raises => exact noEntry_fail _ order requestId
    | finishes emits =>
      dsimp only at he ⊢
      split at he
      · dsimp only [recordCompletedStream] at he
        rw [ended_emitStream] at he
        exact absurd he hlive
      · next ho =>
        rw [if_neg ho]
        have hclr := noEntry_clearRequestState ((recordCompletedStream (emitStream
          { s with streamStates := insert requestId s.streamStates } requestId emits)
            requestId).emit requestId .result) requestId
        exact ⟨hclr.1, hclr.2, hclr.3, hclr.4⟩

/-! ## Steps -/

theorem clean_finishCompute_iff (hs : s.Clean) (outcome : ComputeOutcome) :
    (s.finishCompute order requestId outcome).Clean ↔
      ¬(¬s.NoEntry requestId ∧ (outcome = .invalid ∨ requestId ∉ s.aborted)) := by
  rw [((Elsewhere.refl requestId s).finishCompute outcome).clean_iff hs, not_and_or, not_not]
  have he : ∀ type, (requestId ∈ (((s.emit requestId type).recordCompletedNonStreaming order
      requestId).markEnded requestId).ended → (((s.emit requestId type).recordCompletedNonStreaming
        order requestId).markEnded requestId).NoEntry requestId) ↔ s.NoEntry requestId := by
    intro type
    constructor
    · intro h
      have hent := h (mem_insert_self ..)
      exact ⟨hent.1, hent.2, hent.3, hent.4⟩
    · exact fun h _ => ⟨h.1, h.2, h.3, h.4⟩
  unfold finishCompute
  cases outcome with
  | invalid =>
    rw [he]
    simp
  | raises | result =>
    dsimp only
    split
    · next h => exact iff_of_true (hs requestId) (.inr (by simp [h]))
    · next h =>
      rw [he]
      simp [h]

theorem clean_handleStreamChunk_iff (hs : s.Clean) (outcome : ChunkOutcome) :
    (s.handleStreamChunk order requestId outcome).Clean ↔ ¬s.Leaks (.chunk requestId outcome) := by
  rw [((Elsewhere.refl requestId s).handleStreamChunk outcome).clean_iff hs]
  unfold handleStreamChunk
  cases outcome with
  | invalid => exact iff_of_true (fun _ => noEntry_fail s order requestId) id
  | raises =>
    cases hc : s.getOrCreateStreamState requestId with
    | none => exact iff_of_true (hs requestId) id
    | some u => exact iff_of_true (fun _ => noEntry_fail u order requestId) id
  | decoded emits =>
    cases hc : s.getOrCreateStreamState requestId with
    | none =>
      refine iff_of_true (hs requestId) fun hl => ?_
      exact (getOrCreate_eq_none hc).elim hl.2.1 hl.2.2
    | some u =>
      obtain ⟨rfl, hcases⟩ := getOrCreate_eq_some hc
      dsimp only
      rw [ended_emitStream]
      constructor
      · intro hent hl
        have hstates := (hent hl.1).streamStates
        rw [streamStates_emitStream] at hstates
        exact hstates (mem_insert_self ..)
      · intro hkept he
        rcases hcases with hold | ho
        · exact absurd hold (hs requestId he).streamStates
        · exact absurd ⟨he, ho.1, ho.2⟩ hkept

theorem clean_handleStreamDone_iff (hs : s.Clean) (outcome : DoneOutcome) :
    (s.handleStreamDone order requestId outcome).Clean ↔ ¬s.Leaks (.done requestId outcome) := by
  rw [((Elsewhere.refl requestId s).handleStreamDone outcome).clean_iff hs]
  by_cases hp : requestId ∈ s.streamPayloads
  · have hlive : requestId ∉ s.ended := fun he => (hs requestId he).streamPayloads hp
    exact iff_of_true (noEntry_handleStreamDone hp hlive outcome) fun hl => hlive hl.1
  · unfold handleStreamDone
    rw [if_pos hp]
    split
    · next hcmp => exact iff_of_true (hs requestId) fun hl => hl.2 hcmp
    · next ho =>
      constructor
      · intro hent hl
        exact (hent hl.1).pendingDone (mem_insert_self ..)
      · intro hkept he
        exact absurd ⟨he, ho⟩ hkept

theorem noEntry_finishPending (hp : requestId ∈ s.streamPayloads)
    (hlive : requestId ∉ s.ended) (outcome : DoneOutcome)
    (he : requestId ∈ (handleStreamingNewRequest.finishPending order requestId outcome s).ended) :
    (handleStreamingNewRequest.finishPending order requestId outcome s).NoEntry requestId := by
  unfold handleStreamingNewRequest.finishPending at he ⊢
  split at he
  · next hpnd =>
    rw [if_pos hpnd]
    exact noEntry_handleStreamDone (s := { s with pendingDone := s.pendingDone.erase requestId })
      hp hlive outcome he
  · exact absurd he hlive

theorem not_clean_finishPending (hp : requestId ∈ s.streamPayloads)
    (he : requestId ∈ s.ended) (hpnd : requestId ∉ s.pendingDone) (outcome : DoneOutcome) :
    ¬(requestId ∈ (handleStreamingNewRequest.finishPending order requestId outcome s).ended →
      (handleStreamingNewRequest.finishPending order requestId outcome s).NoEntry requestId) := by
  unfold handleStreamingNewRequest.finishPending
  rw [if_neg hpnd]
  exact fun hent => (hent he).streamPayloads hp

theorem clean_handleStreamingNewRequest_iff (hs : s.Clean) (latches : Bool)
    (outcome : DoneOutcome) :
    (s.handleStreamingNewRequest order requestId latches outcome).Clean ↔
      ¬s.Leaks (.openStream requestId latches outcome) := by
  rw [((Elsewhere.refl requestId s).handleStreamingNewRequest latches outcome).clean_iff hs]
  have hp : requestId ∈ (s.acceptPayload requestId).streamPayloads :=
    mem_insert_self ..
  have hfrs : requestId ∉ (s.acceptPayload requestId).completedStream := by
    intro hmem
    exact of_decide_eq_true (List.mem_filter.mp hmem).2 rfl
  dsimp only [handleStreamingNewRequest]
  by_cases he : requestId ∈ s.ended
  · -- the request was aborted after the last check of its payload
    have hent := hs requestId he
    split
    · next u hc =>
      obtain ⟨-, hold | ho⟩ := getOrCreate_eq_some hc
      · exact absurd hold hent.streamStates
      · refine iff_of_true (fun _ => noEntry_fail u order requestId) fun hl => ?_
        exact hl.2.elim Bool.false_ne_true ho.1
    · next u hc =>
      obtain ⟨rfl, -⟩ := getOrCreate_eq_some hc
      refine iff_of_false ?_ (not_not.mpr ⟨he, .inl rfl⟩)
      exact not_clean_finishPending (s := { s.acceptPayload requestId with
        streamStates := insert requestId (s.acceptPayload requestId).streamStates })
        hp he hent.pendingDone outcome
    · next hc =>
      exact iff_of_false (not_clean_finishPending hp he hent.pendingDone outcome)
        (not_not.mpr ⟨he, .inr ((getOrCreate_eq_none hc).resolve_right hfrs)⟩)
  · refine iff_of_true ?_ fun hl => he hl.1
    split
    · next u hc => exact fun _ => noEntry_fail u order requestId
    · next u hc =>
      obtain ⟨rfl, -⟩ := getOrCreate_eq_some hc
      exact noEntry_finishPending (s := { s.acceptPayload requestId with
        streamStates := insert requestId (s.acceptPayload requestId).streamStates })
        hp he outcome
    · exact noEntry_finishPending hp he outcome

/-- From a clean state, a step stays clean exactly when it does not leak. -/
theorem clean_step_iff {turn : SchedulerTurn} (hs : s.Clean)
    (hstep : schedulerStep s turn = some t) : t.Clean ↔ ¬s.Leaks turn.event := by
  obtain ⟨event, order⟩ := turn
  have hsame : ∀ {u : StreamScheduler}, u.ended = s.ended → u.pendingDone = s.pendingDone →
      u.streamPayloads = s.streamPayloads → u.streamStates = s.streamStates →
      u.emittedStreamIds = s.emittedStreamIds → u.Clean := by
    intro u he hdone hpayloads hstates hemt id hid
    have hent := hs id (he ▸ hid)
    exact ⟨hdone ▸ hent.1, hpayloads ▸ hent.2, hstates ▸ hent.3, hemt ▸ hent.4⟩
  have hfail : ∀ {u : StreamScheduler} {id : String}, u.Clean → (u.fail order id).Clean := by
    intro u id hu
    refine (((Elsewhere.refl id u).fail).clean_iff hu).mpr fun _ => noEntry_fail u order id
  cases event with
  | take msg =>
    refine iff_of_true ?_ id
    dsimp only [schedulerStep] at hstep
    split at hstep
    · exact Option.some.inj hstep ▸ hs
    · cases hstep
      refine hs.mono (fun id hid => ?_) fun id hid => ⟨hid.1, hid.2, hid.3, hid.4⟩
      split at hid
      · exact mem_of_mem_erase hid
      · exact hid
  | refuse id | unsupported id =>
    refine iff_of_true ?_ not_false
    obtain ⟨-, rfl⟩ := of_guard hstep
    exact hfail (hsame rfl rfl rfl rfl rfl)
  | checkStreaming id =>
    refine iff_of_true ?_ not_false
    dsimp only [schedulerStep] at hstep
    split at hstep
    · split at hstep <;> exact Option.some.inj hstep ▸ hsame rfl rfl rfl rfl rfl
    · cases hstep
  | revive id =>
    refine iff_of_true ?_ not_false
    obtain ⟨-, rfl⟩ := of_guard hstep
    exact hsame rfl rfl rfl rfl rfl
  | openStream id latches outcome =>
    cases (of_guard hstep).2
    have hclean : Clean { s with revived := s.revived.erase id } := hsame rfl rfl rfl rfl rfl
    exact clean_handleStreamingNewRequest_iff hclean latches outcome
  | startCompute id =>
    refine iff_of_true ?_ not_false
    dsimp only [schedulerStep] at hstep
    split at hstep
    · split at hstep
      · exact Option.some.inj hstep ▸ hsame rfl rfl rfl rfl rfl
      · cases hstep
        refine hs.mono (fun _ hid => hid) fun id' hid => ⟨fun hmem => ?_, hid.2, hid.3, hid.4⟩
        exact hid.pendingDone (mem_of_mem_erase hmem)
    · cases hstep
  | finishCompute id outcome =>
    cases (of_guard hstep).2
    have hclean : Clean { s with computing := s.computing.erase id } :=
      hsame rfl rfl rfl rfl rfl
    rw [clean_finishCompute_iff hclean]
    have hent : NoEntry { s with computing := s.computing.erase id } id ↔ s.NoEntry id :=
      ⟨fun h => ⟨h.1, h.2, h.3, h.4⟩, fun h => ⟨h.1, h.2, h.3, h.4⟩⟩
    rw [hent]
    exact Iff.rfl
  | chunk id outcome =>
    cases (of_guard hstep).2
    have hclean : Clean { s with taken := s.taken.erase (.streamChunk id) } :=
      hsame rfl rfl rfl rfl rfl
    rw [clean_handleStreamChunk_iff hclean]
    cases outcome <;> exact Iff.rfl
  | done id outcome =>
    cases (of_guard hstep).2
    have hclean : Clean { s with taken := s.taken.erase (.streamDone id) } :=
      hsame rfl rfl rfl rfl rfl
    exact clean_handleStreamDone_iff hclean outcome
  | pumpEmit id =>
    refine iff_of_true ?_ not_false
    obtain ⟨hstt, ⟨⟩⟩ := of_guard hstep
    refine (((Elsewhere.refl id s).emitStream true).clean_iff hs).mpr fun he => ?_
    rw [ended_emitStream] at he
    exact absurd hstt.1 (hs id he).streamStates
  | pumpFail id =>
    refine iff_of_true ?_ not_false
    obtain ⟨-, rfl⟩ := of_guard hstep
    exact hfail hs
  | abortRecord id =>
    refine iff_of_true ?_ not_false
    exact Option.some.inj hstep ▸ hsame rfl rfl rfl rfl rfl
  | abortClear id =>
    refine iff_of_true ?_ not_false
    cases (of_guard hstep).2
    have hclr := (((Elsewhere.refl id s).clearKeepAborted id).of_eq
      (u := { s.clearKeepAborted id with aborting := s.aborting.erase id })
      rfl rfl rfl rfl rfl).markEnded
    refine (hclr.clean_iff hs).mpr fun _ => ?_
    have hent := noEntry_clearKeepAborted s id
    exact ⟨hent.1, hent.2, hent.3, hent.4⟩

end StreamScheduler

/-! ## Runs -/

open StreamScheduler

/-- A step after which nothing is stored for an ended request. -/
def KeepsClean (s : StreamScheduler) (turn : SchedulerTurn) : Prop :=
  ∀ t, schedulerStep s turn = some t → t.Clean

theorem clean_init : ({} : StreamScheduler).Clean := fun _ hid => absurd hid (Finset.notMem_empty _)

/-- The runs in which nothing is ever stored for a request that has ended are those in which no
    step leaks. -/
theorem stream_residue_iff {t : StreamScheduler} {turns : List SchedulerTurn} :
    (schedulerSystem.restrict KeepsClean).Run {} turns t ↔
      (schedulerSystem.restrict fun s turn => ¬s.Leaks turn.event).Run {} turns t := by
  refine (System.Run.restrict_iff (P := Clean) ?_ ?_ clean_init).symm
  · intro a turn b ha hstep hkept
    exact (clean_step_iff ha hstep).mpr hkept
  · intro a turn b ha hstep
    rw [← clean_step_iff ha hstep]
    constructor
    · intro hclean t' hstep'
      obtain rfl := Option.some.inj (hstep.symm.trans hstep')
      exact hclean
    · exact fun hkeeps => hkeeps b hstep

/-! ## A done mark that comes twice -/

/-- The done mark of a stream that has finished stays. -/
theorem repeated_done_stays : ∃ t : StreamScheduler, schedulerSystem.Run {}
      ([] ++ [⟨.take (.newRequest "r" (some true)), []⟩] ++ [⟨.checkStreaming "r", []⟩] ++
        [⟨.revive "r", []⟩] ++ [⟨.openStream "r" true .raises, []⟩] ++
        [⟨.take (.streamDone "r"), []⟩] ++ [⟨.done "r" (.finishes true), []⟩] ++
        [⟨.take (.streamDone "r"), []⟩] ++ [⟨.done "r" .raises, []⟩]) t ∧
    ⟨"r", .result⟩ ∈ t.outbox ∧ "r" ∈ t.ended ∧ "r" ∈ t.pendingDone :=
  ⟨_, .snoc (.snoc (.snoc (.snoc (.snoc (.snoc (.snoc (.snoc (.nil _) rfl) rfl) rfl) rfl) rfl) rfl)
    rfl) rfl, by decide, by decide, by decide⟩

end OmniRealtime
