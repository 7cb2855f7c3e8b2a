import OmniRealtime.Legacy.BridgeSession
import OmniRealtime.Lib.LastWord

/-!
# The end of a legacy round

Who ends a round looks at `round_finished` before its message is sent, or not at all, and sets it when
the send has returned. So another task may end the round in between. An error of a failed round at
least closes the connection behind itself; a completed round leaves it open.

1. `EndsOnce`: what the client sees of the end.
2. `keepsEnd`: the condition. `Inv.step`: what every step keeps.
-/

namespace OmniRealtime

open List Option

namespace BridgeMessage

/-- The output or the error of a completed round. -/
def completes : BridgeMessage → Bool
  | .endMarker | .noOutput => true
  | _ => false

def fails : BridgeMessage → Bool
  | .failure _ => true
  | _ => false

/-- The error of a failed or an empty round. -/
def roundError : BridgeMessage → Bool
  | .noOutput | .failure _ => true
  | _ => false

def ends (m : BridgeMessage) : Bool := m.completes || m.fails

/-- An output, an error of the round, or an error that the upstream has reported. -/
def ofRound : BridgeMessage → Bool
  | .output _ | .reported _ => true
  | m => m.ends

theorem ends_ofRound {m : BridgeMessage} (h : m.ends = true) : m.ofRound = true := by
  cases m with
  | endMarker | noOutput | failure => rfl
  | _ => cases h

end BridgeMessage

/-- The task is neither through nor about to close the connection. -/
def BridgeAwait.steady : BridgeAwait → Bool
  | .done | .closing _ => false
  | _ => true

namespace BridgeSession

variable {s t : BridgeSession} {task : BridgeTask} {message : BridgeMessage} {act : BridgeEvent}

structure EndsOnce (s : BridgeSession) : Prop where
  once : s.sent.countP BridgeMessage.ends ≤ 1
  last : LastWord BridgeMessage.ends BridgeMessage.ofRound s.sent
  visible : .endMarker ∈ s.sent → ∃ text ∈ s.deltas, visible text = true
  sound : .endMarker ∈ s.sent → ∀ m ∈ s.sent, m.roundError = false
  atMost : s.releases ≤ 1
  released : s.tasks .receiver = .done → s.releases = if s.capped then 1 else 0

/-! ## The condition -/

/-- The error of a failed round is being sent. -/
def failing (s : BridgeSession) : Bool := s.lock.any fun holder => holder.2.fails

/-- A completed round waits for its send, or a round has ended, and nobody is about to close the
    connection. -/
def settled (s : BridgeSession) : Bool :=
  s.isOpen && (s.waiting.any (fun waiter => waiter.2.completes) ||
    s.sent.any BridgeMessage.ends && !s.failing)

/-- The task is not cancelled in the middle of the error of a failed round while a message of the
    round waits. -/
def mayCancel (s : BridgeSession) (task : BridgeTask) : Bool :=
  !s.lock.any (fun holder => holder.1 = task && holder.2.fails) ||
    s.waiting.all fun waiter => !waiter.2.ofRound

/-- Nobody ends a round that is settled, or reports something of it. -/
def keepsEnd (s : BridgeSession) : BridgeEvent → Bool
  | .receiveTimeout => !s.pendingMeta || !s.settled
  | .startMapped error => error.isNone || !s.settled
  | .setupFailed _ | .frameFailed _ => !s.settled
  | .setupTimeout => !s.settled
  | .finalizerWakes elapsed => !s.silent elapsed || s.roundFinished || !s.settled
  | .watchWakes => s.roundFinished || !s.settled
  | .upstream (.delta text) => text = "" || !s.settled
  | .upstream (.error _) => !s.settled
  | .upstream (.sessionDone _) => s.roundFinished || !s.settled
  | .joined =>
    match s.tasks .receiver with
    | .joining .start => s.mayCancel .pump
    | .joining .finalizer => s.mayCancel .watch
    | .joining .watch => !s.hasUpstream || !s.terminalSeen || s.mayCancel .listener
    | _ => true
  | .abortReturns .receiver => s.mayCancel .listener
  | _ => true

/-! ## The invariant -/

structure Inv (s : BridgeSession) : Prop where
  last : LastWord BridgeMessage.ends BridgeMessage.ofRound s.sent
  /-- Behind the end of the round nothing of it waits, but for what a closed connection loses. -/
  behind : s.isOpen = true → ∀ m ∈ s.sent, m.ends = true →
    s.failing = true ∨ ∀ waiter ∈ s.waiting, waiter.2.ofRound = false
  queue : s.isOpen = true → LastWord (fun waiter => waiter.2.completes)
    (fun waiter => waiter.2.ofRound) s.waiting
  completing : ∀ sender, s.lock = some sender ∨ sender ∈ s.waiting → sender.1 = .finalizer →
    sender.2.fails = false
  marker : (.endMarker ∈ s.sent ∨ ∃ waiter ∈ s.waiting, waiter.2 = .endMarker) →
    s.visibleText = true
  visible : s.visibleText = true → ∃ text ∈ s.deltas, OmniRealtime.visible text = true
  closing : ∀ task timedOut, s.tasks task = .closing timedOut → s.isOpen = false
  slot : s.releases = if s.released then 1 else 0
  capped : s.released = true → s.capped = true
  gone : s.tasks .receiver = .done → s.released = s.capped

namespace Inv

theorem initial (capped : Bool) (frameBufferCap : ℕ) :
    Inv { capped := capped, frameBufferCap := frameBufferCap } where
  last := .nil
  behind := nofun
  queue := fun _ => .nil
  completing := by
    rintro sender (hl | hmem)
    · cases hl
    · exact absurd hmem not_mem_nil
  marker := by
    rintro (hmem | ⟨_, hmem, -⟩)
    · exact absurd hmem not_mem_nil
    · exact absurd hmem not_mem_nil
  visible := by
    intro h
    cases h
  closing := by
    intro task timedOut hc
    dsimp only at hc
    split at hc <;> cases hc
  slot := rfl
  capped := by
    intro h
    cases h
  gone := by
    intro h
    cases h

section

variable (h : s.Inv)
include h

theorem toEndsOnce : s.EndsOnce where
  once := h.last.once fun _ => BridgeMessage.ends_ofRound
  last := h.last
  visible := fun hmem => h.visible (h.marker (.inl hmem))
  sound := by
    intro hmem m hm
    cases herror : m.roundError with
    | false => rfl
    | true =>
      -- Two messages that end the round.
      have he : m.ends = true := by cases m <;> first | rfl | cases herror
      have hne : BridgeMessage.endMarker ≠ m := by rintro rfl; cases herror
      obtain ⟨pre, post, hspl⟩ := append_of_mem hmem
      have honce := h.last.once fun _ => BridgeMessage.ends_ofRound
      rw [hspl] at hm honce
      rw [countP_append, countP_cons_of_pos rfl] at honce
      have hrest : 0 < pre.countP BridgeMessage.ends + post.countP BridgeMessage.ends := by
        rcases mem_append.mp hm with hpre | hpost
        · exact Nat.add_pos_left (countP_pos_iff.mpr ⟨m, hpre, he⟩) _
        · rcases mem_cons.mp hpost with rfl | hpost
          · exact absurd rfl hne
          · exact Nat.add_pos_right _ (countP_pos_iff.mpr ⟨m, hpost, he⟩)
      omega
  atMost := by
    rw [h.slot]
    split <;> decide
  released := by
    intro hdone
    rw [h.slot, h.gone hdone]

/-! ### Moves -/

theorem await {now : BridgeAwait}
    (hc : ∀ timedOut, now = .closing timedOut → s.isOpen = false)
    (hgone : task = .receiver → now = .done → s.released = s.capped) : (s.await task now).Inv :=
  { h with
    closing := by
      intro other timedOut hother
      by_cases ht : other = task
      · subst ht
        exact hc timedOut ((await_self _ _ _).symm.trans hother)
      · exact h.closing other timedOut ((await_of_ne _ _ ht _).symm.trans hother)
    gone := by
      intro hdone
      by_cases ht : task = .receiver
      · subst ht
        exact hgone rfl ((await_self _ _ _).symm.trans hdone)
      · exact h.gone ((await_of_ne _ _ (Ne.symm ht) _).symm.trans hdone) }

theorem goes {now : BridgeAwait} (hnow : now.steady = true) : (s.await task now).Inv := by
  refine h.await (fun timedOut hc => ?_) fun _ hdone => ?_
  · rw [hc] at hnow
    cases hnow
  · rw [hdone] at hnow
    cases hnow

theorem finish (ht : task ≠ .receiver) : (s.await task .done).Inv :=
  h.await (by rintro _ ⟨⟩) fun hreceiver => absurd hreceiver ht

/-- Nothing is sent on a closed connection. -/
theorem shut : Inv { s with isOpen := false } :=
  { h with
    behind := fun ho => absurd ho Bool.false_ne_true
    queue := fun ho => absurd ho Bool.false_ne_true
    closing := fun _ _ _ => rfl }

theorem close (ho : s.isOpen = false) {timedOut : Bool} :
    (s.await task (.closing timedOut)).Inv :=
  h.await (fun _ _ => ho) (by rintro _ ⟨⟩)

theorem closeDownstream (timedOut : Bool) : (s.closeDownstream task timedOut).Inv :=
  h.shut.close rfl

end

/-! ### The send lock -/

theorem of_not_settled (ho : s.isOpen = true) (hset : s.settled = false) :
    (∀ waiter ∈ s.waiting, waiter.2.completes = false) ∧
      ∀ m ∈ s.sent, m.ends = true → s.failing = true := by
  rw [settled, ho, Bool.true_and, Bool.or_eq_false_iff] at hset
  obtain ⟨hw, hsent⟩ := hset
  refine ⟨fun waiter hmem => ?_, fun m hmem he => ?_⟩
  · exact Bool.eq_false_iff.mpr (List.any_eq_false.mp hw waiter hmem)
  · rw [any_eq_true.mpr ⟨m, hmem, he⟩, Bool.true_and] at hsent
    exact (Bool.not_eq_false' _).mp hsent

theorem wire (h : s.Inv)
    (ho : s.isOpen = true → message.ofRound = true → ∀ m ∈ s.sent, m.ends = false) :
    LastWord BridgeMessage.ends BridgeMessage.ofRound (s.wire message).sent := by
  show LastWord _ _ (if s.isOpen = true then s.sent ++ [message] else s.sent)
  split
  · rename_i hisOpen
    exact h.last.concat (ho hisOpen)
  · exact h.last

theorem mem_wire {m : BridgeMessage} (hmem : m ∈ (s.wire message).sent) : m ∈ s.sent ∨ m =
    message := by
  have hmem : m ∈ (if s.isOpen = true then s.sent ++ [message] else s.sent) := hmem
  split at hmem
  · rcases mem_append.mp hmem with hmem | hmem
    · exact .inl hmem
    · exact .inr (mem_singleton.mp hmem)
  · exact .inl hmem

section

variable (h : s.Inv)
include h

theorem send (hround : message.ofRound = true → s.settled = false)
    (hfinalizer : task = .finalizer → message.fails = false)
    (hmk : message = .endMarker → s.visibleText = true) : (s.send task message).Inv := by
  unfold BridgeSession.send
  split
  · rename_i hfree
    obtain ⟨hl, hw⟩ := hfree
    have hflg : s.failing = false := by rw [failing, hl]; rfl
    refine goes (s := { s.wire message with lock := some (task, message) }) ?_ rfl
    exact {
      last := by
        refine h.wire fun ho hp m hmem => ?_
        cases he : m.ends with
        | false => rfl
        | true =>
          have hf := (of_not_settled ho (hround hp)).2 m hmem he
          rw [hflg] at hf
          exact absurd hf Bool.false_ne_true
      behind := by
        intro _ m _ _
        exact .inr fun waiter hmem => absurd (hw ▸ hmem) not_mem_nil
      queue := fun _ => hw ▸ .nil
      completing := by
        rintro sender (hsender | hmem)
        · cases hsender
          exact hfinalizer
        · exact h.completing sender (.inr hmem)
      marker := by
        rintro (hmem | hmem)
        · rcases mem_wire hmem with hmem | heq
          · exact h.marker (.inl hmem)
          · exact hmk heq.symm
        · exact h.marker (.inr hmem)
      visible := h.visible
      closing := h.closing
      slot := h.slot
      capped := h.capped
      gone := h.gone }
  · refine goes (s := { s with waiting := s.waiting ++ [(task, message)] }) ?_ rfl
    exact { h with
      behind := by
        intro ho m hmem he
        rcases h.behind ho m hmem he with hf | hw
        · exact .inl hf
        · cases hp : message.ofRound with
          | true => exact .inl ((of_not_settled (s := s) ho (hround hp)).2 m hmem he)
          | false =>
            refine .inr fun waiter hwaiter => ?_
            rcases mem_append.mp hwaiter with hwaiter | hwaiter
            · exact hw waiter hwaiter
            · obtain rfl := mem_singleton.mp hwaiter
              exact hp
      queue := fun ho =>
        (h.queue ho).concat fun hp => (of_not_settled (s := s) ho (hround hp)).1
      completing := by
        rintro sender (hl | hmem)
        · exact h.completing sender (.inl hl)
        · rcases mem_append.mp hmem with hmem | hmem
          · exact h.completing sender (.inr hmem)
          · obtain rfl := mem_singleton.mp hmem
            exact hfinalizer
      marker := by
        rintro (hmem | ⟨waiter, hmem, heq⟩)
        · exact h.marker (.inl hmem)
        · rcases mem_append.mp hmem with hmem | hmem
          · exact h.marker (.inr ⟨waiter, hmem, heq⟩)
          · obtain rfl := mem_singleton.mp hmem
            exact hmk heq }

theorem passLock (hst : s.passLock = some t) : t.Inv := by
  unfold BridgeSession.passLock at hst
  split at hst
  · rename_i first message rest hl hw
    cases hst
    have hflg : s.failing = false := by rw [failing, hl]; rfl
    have hbehind : s.isOpen = true → ∀ m ∈ s.sent, m.ends = true →
        ∀ waiter ∈ s.waiting, waiter.2.ofRound = false := by
      intro ho m hmem he
      rcases h.behind ho m hmem he with hf | hbehind
      · exact absurd (hflg.symm.trans hf) Bool.false_ne_true
      · exact hbehind
    rw [hw] at hbehind
    have hqu := h.queue
    rw [hw] at hqu
    have hmarker := h.marker
    rw [hw] at hmarker
    have hcompleting := h.completing
    rw [hw] at hcompleting
    exact {
      last := by
        refine h.wire fun ho hp m hmem => ?_
        cases he : m.ends with
        | false => rfl
        | true =>
          have hq := hbehind ho m hmem he (first, message) mem_cons_self
          exact absurd (hq.symm.trans hp) Bool.false_ne_true
      behind := by
        intro ho m hmem he
        rcases mem_wire hmem with hmem | rfl
        · exact .inr fun waiter hwaiter =>
            hbehind ho m hmem he waiter (mem_cons_of_mem _ hwaiter)
        · cases hf : m.fails with
          | true => exact .inl hf
          | false =>
            rw [BridgeMessage.ends, hf, Bool.or_false] at he
            exact .inr fun waiter hwaiter => (hqu ho).rest he waiter hwaiter
      queue := fun ho => (hqu ho).sublist (sublist_cons_self _ _)
      completing := by
        rintro sender (hl | hmem)
        · cases hl
          exact hcompleting _ (.inr mem_cons_self)
        · exact hcompleting _ (.inr (mem_cons_of_mem _ hmem))
      marker := by
        rintro (hmem | ⟨waiter, hmem, heq⟩)
        · rcases mem_wire hmem with hmem | heq
          · exact hmarker (.inl hmem)
          · exact hmarker (.inr ⟨_, mem_cons_self, heq.symm⟩)
        · exact hmarker (.inr ⟨waiter, mem_cons_of_mem _ hmem, heq⟩)
      visible := h.visible
      closing := h.closing
      slot := h.slot
      capped := h.capped
      gone := h.gone }
  · cases hst

/-- A sender leaves the line. The error of a failed round is followed by nothing of the round. -/
theorem unlock {lock : Option (BridgeTask × BridgeMessage)}
    {waiting : List (BridgeTask × BridgeMessage)} (hl : lock = none ∨ lock = s.lock)
    (hw : waiting.Sublist s.waiting)
    (hf : s.isOpen = true → s.failing = true → lock = none →
      ∀ waiter ∈ s.waiting, waiter.2.ofRound = false) :
    Inv { s with lock := lock, waiting := waiting } :=
  { h with
    behind := by
      intro ho m hmem he
      rcases h.behind ho m hmem he with hflg | hq
      · rcases hl with rfl | rfl
        · exact .inr fun waiter hwaiter =>
            hf ho hflg rfl waiter (hw.subset hwaiter)
        · exact .inl hflg
      · exact .inr fun waiter hwaiter => hq waiter (hw.subset hwaiter)
    queue := fun ho => (h.queue ho).sublist hw
    completing := by
      rintro sender (hsender | hmem)
      · rcases hl with rfl | rfl
        · cases hsender
        · exact h.completing sender (.inl hsender)
      · exact h.completing sender (.inr (hw.subset hmem))
    marker := by
      rintro (hmem | ⟨waiter, hmem, heq⟩)
      · exact h.marker (.inl hmem)
      · exact h.marker (.inr ⟨waiter, hw.subset hmem, heq⟩) }

theorem leaveLock
    (hkeep : s.isOpen = true → ∀ m, s.lock = some (task, m) → m.fails = true →
      ∀ waiter ∈ s.waiting, waiter.2.ofRound = false) : (s.leaveLock task).Inv := by
  refine h.unlock ?_ filter_sublist fun ho hflg hnone => ?_
  · split
    · exact .inl rfl
    · exact .inr rfl
  · obtain ⟨⟨holder, m⟩, hl, hf⟩ := (any_eq_true _ _).mp hflg
    rw [hl] at hnone
    split at hnone
    · rename_i hhld
      obtain rfl : holder = task := of_decide_eq_true hhld
      exact hkeep ho m hl hf
    · cases hnone

theorem interrupt (ht : task ≠ .receiver)
    (hkeep : task ≠ .start → task ≠ .finalizer → s.mayCancel task = true) :
    (s.interrupt task).Inv := by
  unfold BridgeSession.interrupt
  split
  · exact h
  · exact h
  · split
    · exact (leaveLock h.shut fun ho => absurd ho Bool.false_ne_true).close rfl
    · rename_i task _ _ _ hother
      refine (h.leaveLock fun ho m hl hf => ?_).finish ht
      by_cases hsrt : task = .start
      · subst hsrt
        cases m with
        | failure text =>
          exact (hother text rfl (by rw [saying, hl]; rfl)).elim
        | _ => cases hf
      · by_cases hfinalizer : task = .finalizer
        · exact absurd ((h.completing _ (.inl hl) hfinalizer).symm.trans hf)
            Bool.false_ne_true
        · have hmay := hkeep hsrt hfinalizer
          rw [mayCancel, hl, any_some, decide_eq_true rfl, hf] at hmay
          exact fun waiter hwaiter => by
            simpa using all_eq_true.mp hmay waiter hwaiter
  · exact h.finish ht

/-! ### Decisions -/

theorem failRound (ht : task ≠ .finalizer) (hset : s.settled = false) (text : String) :
    (s.failRound task text).Inv :=
  send (s := ({ s with inputClosed := true, pendingMeta := false } : BridgeSession).finishRound)
    { h with } (fun _ => hset) (fun hfinalizer => absurd hfinalizer ht) (by rintro ⟨⟩)

theorem complain (hp : message.ofRound = false) : (s.send .receiver message).Inv := by
  refine h.send (fun hround => ?_) (by rintro ⟨⟩) ?_
  · exact absurd (hp.symm.trans hround) Bool.false_ne_true
  · rintro rfl
    cases hp

theorem receive : s.receive.Inv := h.goes rfl

theorem roundCompleted : (s.roundCompleted task).Inv := by
  unfold BridgeSession.roundCompleted
  split
  · exact goes (s := { s with abortInitiated := true }) { h with } rfl
  · exact h.goes rfl

theorem completeRound (hset : s.roundFinished = true ∨ s.settled = false) :
    (s.completeRound task).Inv := by
  unfold BridgeSession.completeRound
  split
  · exact h.roundCompleted
  · rename_i hfin
    refine h.send (fun _ => hset.resolve_left hfin) (fun _ => ?_) fun hmk => ?_
    · split <;> rfl
    · cases hv : s.visibleText with
      | true => rfl
      | false =>
        rw [hv] at hmk
        cases hmk

/-! ### The receiver -/

theorem onFrameMeta (timestamp : FrameTimestamp) : (s.onFrameMeta timestamp).Inv := by
  unfold BridgeSession.onFrameMeta
  split
  · exact h.complain rfl
  split
  · exact h.complain rfl
  split
  · exact h.complain rfl
  cases timestamp with
  | invalid | backwards comparison => exact h.complain rfl
  | valid => exact receive (s := { s with pendingMeta := true }) { h with }

theorem onBinary (tooBig : Bool) : (s.onBinary tooBig).Inv := by
  unfold BridgeSession.onBinary
  split
  · exact h.complain rfl
  split
  · exact h.complain rfl
  split
  · exact h.complain rfl
  split
  · exact h.complain rfl
  exact receive (s := { s with frames := s.frames + 1, pendingMeta := false }) { h with }

theorem shutdown : s.shutdown.Inv := h.goes rfl

theorem onClientMessage (message : BridgeInput) (saysStop : Bool) :
    (s.onClientMessage message saysStop).Inv := by
  unfold BridgeSession.onClientMessage
  split
  · split
    · exact h.shutdown
    · exact h.receive
  cases message with
  | notJson | notObject | unsupported type => exact h.complain rfl
  | start =>
    dsimp only
    split
    · exact h.complain rfl
    · exact (goes (s := { s with started := true }) { h with } rfl).receive
  | frame timestamp => exact h.onFrameMeta timestamp
  | binary tooBig => exact h.onBinary tooBig
  | stop => exact shutdown (s := { s with stopRequested := true }) { h with }
  | raising => exact h.shutdown

/-! ### The pump -/

theorem submit (final next : Bool) : (s.submit final next).Inv :=
  goes (s := { s with pumpFinal := final, pumpNext := next }) { h with } rfl

theorem pumpItem : s.pumpItem.Inv := by
  unfold BridgeSession.pumpItem
  split
  · split
    · exact h.finish (by rintro ⟨⟩)
    · exact h.goes rfl
  · exact h.submit false false

theorem pumpFetch (hst : s.pumpFetch = some t) : t.Inv := by
  cases (of_not_guard hst).2
  exact pumpItem (s := { s with frames := s.frames - 1 }) { h with }

theorem pumpWakes (expired : Bool) : (s.pumpWakes expired).Inv := by
  unfold BridgeSession.pumpWakes
  split
  · exact h.finish (by rintro ⟨⟩)
  split
  · exact submit (s := { s with frames := s.frames - 1 }) { h with } false true
  split
  · exact submit (s := { s with inputClosed := true }) { h with } true false
  exact h

theorem frameAcked : s.frameAcked.Inv := by
  unfold BridgeSession.frameAcked
  split
  · exact finish (s := { s with finalSent := true }) { h with } (by rintro ⟨⟩)
  split
  · exact h.pumpItem
  cases hfetch : s.pumpFetch with
  | none => exact h.goes rfl
  | some t => exact h.pumpFetch hfetch

/-! ### The listener -/

theorem onUpstreamEvent {event : UpstreamEvent} (hkeeps : s.keepsEnd (.upstream event) = true) :
    (s.onUpstreamEvent event).Inv := by
  cases event with
  | delta text =>
    have harrived : Inv { s with deltas := s.deltas ++ [text] } :=
      { h with
        visible := by
          intro hv
          obtain ⟨old, hmem, hold⟩ := h.visible hv
          exact ⟨old, mem_append_left _ hmem, hold⟩ }
    show Inv (if text = "" then _ else _)
    split
    · exact harrived
    · rename_i htext
      refine send (s := { s with
        deltas := s.deltas ++ [text]
        visibleText := s.visibleText || OmniRealtime.visible text
        lastDelta := true
        silenceSince := false }) ?_ (fun _ => ?_) (by rintro ⟨⟩) (by rintro ⟨⟩)
      · exact { h with
          marker := fun hmk => by rw [h.marker hmk]; rfl
          visible := by
            intro hv
            rcases (Bool.or_eq_true _ _).mp hv with hv | hv
            · exact harrived.visible hv
            · exact ⟨text, mem_append_right _ (mem_singleton_self text), hv⟩ }
      · rw [keepsEnd, decide_eq_false htext, Bool.false_or] at hkeeps
        exact (Bool.not_eq_true' _).mp hkeeps
  | silence =>
    exact { h with }
  | sessionDone aborted =>
    have hset : s.roundFinished = true ∨ s.settled = false := by
      rcases (Bool.or_eq_true _ _).mp hkeeps with hfin | hset
      · exact .inl hfin
      · exact .inr ((Bool.not_eq_true' _).mp hset)
    have hseen : Inv { s with terminalSeen := true } := { h with }
    show Inv (if _ then _ else _)
    split
    · rename_i habt
      simp only [Bool.and_eq_true, Bool.not_eq_true'] at habt
      have ho := hset.resolve_left (by rw [habt.2]; exact Bool.false_ne_true)
      exact hseen.send (fun _ => ho) (by rintro ⟨⟩) (by rintro ⟨⟩)
    · exact hseen.completeRound hset
  | error message =>
    refine send (s := { s with lastError := some message }) { h with } (fun _ => ?_)
      (by rintro ⟨⟩) (by rintro ⟨⟩)
    exact (Bool.not_eq_true' _).mp hkeeps
  | other => exact h

/-! ### After a send -/

theorem sendReturns (hst : s.sendReturns = some t) : t.Inv := by
  obtain ⟨⟨task, message⟩, hl, rfl⟩ := map_eq_some_iff.mp hst
  -- The error of a failed round closes the connection; every other message leaves a quiet line.
  have hshut : Inv { s with isOpen := false, lock := none } :=
    h.shut.unlock (.inl rfl) (List.Sublist.refl _) fun ho => absurd ho Bool.false_ne_true
  have hq : message.fails = false → Inv { s with lock := none } := by
    intro hf
    refine h.unlock (.inl rfl) (List.Sublist.refl _) fun _ hflg => ?_
    rw [failing, hl, any_some] at hflg
    exact absurd (hf.symm.trans hflg) Bool.false_ne_true
  have hcl : ∀ finished timedOut, (BridgeSession.closeDownstream
      { s with lock := none, roundFinished := finished } task timedOut).Inv := fun finished timedOut =>
    close (s := { s with isOpen := false, lock := none, roundFinished := finished }) { hshut with } rfl
  cases hf : message.fails with
  | true =>
    obtain ⟨text, rfl⟩ : ∃ text, message = .failure text := by
      cases message with
      | failure text => exact ⟨text, rfl⟩
      | _ => cases hf
    cases task with
    | receiver | start => exact hcl s.roundFinished false
    | pump | watch | listener => exact hcl true false
    | finalizer =>
      exact absurd ((h.completing _ (.inl hl) rfl).symm.trans hf) Bool.false_ne_true
  | false =>
    have hfree := hq hf
    have hfin : ∀ task, (BridgeSession.roundCompleted
        { s with lock := none, roundFinished := true } task).Inv := fun task =>
      roundCompleted (s := { s with lock := none, roundFinished := true }) { hfree with }
    cases task with
    | receiver =>
      cases message with
      | frameRejected text =>
        exact receive (s := { s with lock := none, pendingMeta := false }) { hfree with }
      | failure text => cases hf
      | _ => exact hfree.receive
    | start =>
      have htks : (BridgeSession.startTasks { s with lock := none }).Inv :=
        (((hfree.finish (by rintro ⟨⟩)).goes rfl).goes rfl).goes rfl
      cases message with
      | failure text => cases hf
      | _ => exact htks
    | pump =>
      cases message with
      | failure text => cases hf
      | _ => exact hfree.frameAcked
    | finalizer => exact hfin .finalizer
    | watch => exact hcl true false
    | listener =>
      cases message with
      | failure text => cases hf
      | endMarker | noOutput => exact hfin .listener
      | _ => exact hfree.goes rfl

/-! ### The shutdown -/

theorem releaseSlot : s.releaseSlot.Inv ∧ s.releaseSlot.released = s.releaseSlot.capped := by
  unfold BridgeSession.releaseSlot
  split
  · rename_i hfree
    obtain ⟨hcapped, hr⟩ := (Bool.and_eq_true _ _).mp hfree
    have hr : s.released = false := (Bool.not_eq_true' _).mp hr
    refine ⟨{ h with slot := ?_, capped := fun _ => hcapped, gone := fun _ => hcapped.symm },
      hcapped.symm⟩
    have hsl := h.slot
    rw [hr] at hsl
    exact congrArg (· + 1) hsl
  · rename_i hfree
    refine ⟨h, ?_⟩
    cases hr : s.released with
    | true => exact (h.capped hr).symm
    | false =>
      cases hcapped : s.capped with
      | true => exact absurd (by rw [hcapped, hr]; rfl) hfree
      | false => rfl

theorem join (ht : task ≠ .receiver)
    (hkeep : task ≠ .start → task ≠ .finalizer → s.mayCancel task = true) : (s.join task).Inv :=
  (h.interrupt ht hkeep).goes rfl

theorem joined (hreceiver : s.tasks .receiver = .joining task)
    (hkeeps : s.keepsEnd .joined = true) : (s.joined task).Inv := by
  rw [keepsEnd, hreceiver] at hkeeps
  cases task with
  | receiver => exact h
  | start | finalizer => exact h.join (by rintro ⟨⟩) fun _ _ => hkeeps
  | pump => exact h.join (by rintro ⟨⟩) fun _ hne => absurd rfl hne
  | watch =>
    show s.shutdownUpstream.Inv
    unfold BridgeSession.shutdownUpstream
    split
    · exact h.shut.goes rfl
    split
    · exact goes (s := { s with abortInitiated := true }) { h with } rfl
    · rename_i hupstream htrm
      refine h.join (by rintro ⟨⟩) fun _ _ => ?_
      simp only [Bool.not_eq_true', Bool.not_eq_false] at hupstream htrm
      rw [hupstream, htrm] at hkeeps
      exact hkeeps
  | listener => exact goes (s := { s with upstreamClosed := true }) { h with } rfl

/-! ### Steps -/

theorem setupTimedOut (hset : s.settled = false) : s.setupTimedOut.Inv :=
  failRound (s := { s with setupTimed := false }) { h with } (by rintro ⟨⟩) hset _

end

/-- A task that leaves the line does not settle the round, unless it sends the error of one. -/
theorem leaveLock_not_settled (hset : s.settled = false)
    (hl : ∀ m, s.lock = some (task, m) → m.fails = false) :
    (s.leaveLock task).settled = false := by
  cases ho : s.isOpen with
  | false => exact congrArg (· && _) ho
  | true =>
    obtain ⟨hw, hsent⟩ := of_not_settled ho hset
    have hq : ((s.leaveLock task).waiting.any fun waiter => waiter.2.completes) = false := by
      refine List.any_eq_false.mpr fun waiter hmem => ?_
      exact Bool.eq_false_iff.mp (hw waiter (mem_filter.mp hmem).1)
    cases hany : s.sent.any BridgeMessage.ends with
    | false =>
      show (s.isOpen && (_ || s.sent.any BridgeMessage.ends && _)) = false
      rw [hq, hany, Bool.false_and, Bool.or_false, Bool.and_false]
    | true =>
      obtain ⟨m, hmem, he⟩ := any_eq_true.mp hany
      obtain ⟨⟨holder, text⟩, hhld, hf⟩ := (any_eq_true _ _).mp (hsent m hmem he)
      have hne : holder ≠ task := by
        rintro rfl
        exact absurd ((hl text hhld).symm.trans hf) Bool.false_ne_true
      have hstay : (s.leaveLock task).failing = true := by
        show Option.any _ (if _ then none else s.lock) = true
        rw [hhld, any_some, decide_eq_false hne]
        exact hf
      rw [settled, hq, hstay, Bool.not_true, Bool.and_false, Bool.or_false, Bool.and_false]

theorem step (h : s.Inv) (hst : bridgeStep s act = some t) (hkeeps : s.keepsEnd act = true) :
    t.Inv := by
  cases act with
  | passLock => exact h.passLock hst
  | sendReturns => exact h.sendReturns hst
  | closeReturns task =>
    dsimp only [bridgeStep] at hst
    split at hst
    · rename_i timedOut hc
      cases hst
      cases task with
      | receiver => exact h.shutdown
      | start =>
        show Inv (if timedOut = true then _ else _)
        split
        · have hset : s.settled = false := by
            rw [settled, h.closing .start timedOut hc, Bool.false_and]
          exact h.setupTimedOut hset
        · exact h.finish (by rintro ⟨⟩)
      | listener => exact h.goes rfl
      | pump | finalizer | watch => exact h.finish (by rintro ⟨⟩)
    · cases hst
  | clientLost =>
    cases (of_guard hst).2
    exact h.shut
  | client message saysStop =>
    dsimp only [bridgeStep] at hst
    split at hst
    · cases hst
      exact h.onClientMessage message saysStop
    · cases hst
  | receiveTimeout =>
    cases (of_guard hst).2
    unfold BridgeSession.receiveTimeout
    split
    · rename_i hpnd
      rw [keepsEnd, hpnd] at hkeeps
      exact h.failRound (by rintro ⟨⟩) ((Bool.not_eq_true' _).mp hkeeps) _
    · exact h.closeDownstream false
  | receiveFails =>
    dsimp only [bridgeStep] at hst
    split at hst
    · cases (of_not_guard hst).2
      exact shutdown (s := { s with stopRequested := true }) { h with }
    · cases hst
  | startMapped error =>
    cases (of_guard hst).2
    cases error with
    | none =>
      exact goes (s := { s with setupTimed := true, hasUpstream := true }) { h with } rfl
    | some error =>
      exact failRound (s := { s with setupTimed := true }) { h with } (by rintro ⟨⟩)
        ((Bool.not_eq_true' _).mp hkeeps) _
  | upstreamConnected =>
    cases (of_guard hst).2
    have hlistening : (s.await .listener .listening).Inv := h.goes rfl
    unfold BridgeSession.upstreamConnected
    split
    · exact hlistening.finish (by rintro ⟨⟩)
    · exact hlistening.goes rfl
  | upstreamConfigured =>
    cases (of_guard hst).2
    unfold BridgeSession.upstreamConfigured
    split
    · exact h.finish (by rintro ⟨⟩)
    · exact send (s := { s with readySent := true }) { h with } (by rintro ⟨⟩) (by rintro ⟨⟩)
        (by rintro ⟨⟩)
  | setupFailed error =>
    cases (of_guard hst).2
    have hset : s.settled = false := (Bool.not_eq_true' _).mp hkeeps
    cases error with
    | busy | upstream text => exact h.failRound (by rintro ⟨⟩) hset _
    | unexpected =>
      exact failRound (s := { s with setupTimed := false }) { h with } (by rintro ⟨⟩) hset _
  | setupTimeout =>
    have hset : s.settled = false := (Bool.not_eq_true' _).mp hkeeps
    dsimp only [bridgeStep] at hst
    unfold BridgeSession.setupTimeout at hst
    split at hst
    · split at hst
      · cases hst
        exact h.setupTimedOut hset
      · cases hst
        exact h.setupTimedOut hset
      · cases hst
        exact h.setupTimedOut hset
      · split at hst
        · cases hst
          exact (leaveLock h.shut fun ho => absurd ho Bool.false_ne_true).close rfl
        · rename_i hother
          cases hst
          have hl : ∀ m, s.lock = some (.start, m) → m.fails = false := by
            intro m hl
            cases m with
            | failure text => exact absurd (by rw [saying, hl]; rfl) (hother text)
            | _ => rfl
          refine (h.leaveLock fun _ m hm hf => ?_).setupTimedOut (leaveLock_not_settled hset hl)
          exact absurd ((hl m hm).symm.trans hf) Bool.false_ne_true
      · cases hst
    · cases hst
  | pumpFetch =>
    obtain ⟨-, heq⟩ := ite_none_right_eq_some.mp hst
    exact h.pumpFetch heq
  | pumpWakes expired =>
    cases (of_guard hst).2
    exact h.pumpWakes expired
  | frameAccepted =>
    cases (of_guard hst).2
    exact h.send (by rintro ⟨⟩) (by rintro ⟨⟩) (by rintro ⟨⟩)
  | frameFailed text =>
    cases (of_guard hst).2
    exact h.send (fun _ => (Bool.not_eq_true' _).mp hkeeps) (by rintro ⟨⟩) (by rintro ⟨⟩)
  | frameRaised =>
    cases (of_guard hst).2
    exact h.finish (by rintro ⟨⟩)
  | finalizerWakes elapsed =>
    cases (of_guard hst).2
    unfold BridgeSession.finalizerWakes
    split
    · rename_i hsilent
      refine h.completeRound ?_
      simpa [keepsEnd, hsilent] using hkeeps
    split
    · exact h.finish (by rintro ⟨⟩)
    · exact h
  | watchWakes =>
    cases (of_guard hst).2
    unfold BridgeSession.watchWakes
    split
    · exact h.finish (by rintro ⟨⟩)
    · rename_i hfin
      refine h.send (fun _ => ?_) (by rintro ⟨⟩) (by rintro ⟨⟩)
      simpa [keepsEnd, hfin] using hkeeps
  | upstream event =>
    cases (of_guard hst).2
    exact h.onUpstreamEvent hkeeps
  | listenerEnds how =>
    cases (of_guard hst).2
    exact finish (s := { s with upstreamClosed := true, lastError := _ }) { h with } (by rintro ⟨⟩)
  | abortReturns task =>
    cases (of_guard hst).2
    split
    · rename_i ht
      subst ht
      exact h.join (by rintro ⟨⟩) fun _ _ => hkeeps
    · rename_i ht
      exact h.finish ht
  | slotReleased =>
    obtain ⟨hsl, hr⟩ := h.releaseSlot
    dsimp only [bridgeStep] at hst
    split at hst
    · cases hst
      exact hsl.join (by rintro ⟨⟩) fun hne => absurd rfl hne
    · cases hst
      exact hsl.await (by rintro _ ⟨⟩) fun _ _ => hr
    · cases hst
  | joined =>
    dsimp only [bridgeStep] at hst
    split at hst
    · rename_i task hreceiver
      cases (of_guard hst).2
      exact h.joined hreceiver hkeeps
    · cases hst
  | upstreamClosed =>
    cases (of_guard hst).2
    exact h.shut.goes rfl
  | downstreamClosed =>
    cases (of_guard hst).2
    exact h.goes rfl

end Inv

end BridgeSession

/-- One frame, one visible delta, silence, and the client that stops. -/
def quietRound : List BridgeEvent :=
  [.client .start false, .startMapped none, .upstreamConnected, .upstreamConfigured, .sendReturns,
    .client (.frame .valid) false, .client (.binary false) false, .pumpFetch, .pumpWakes true,
    .frameAccepted, .sendReturns, .upstream (.delta "yes"), .sendReturns, .finalizerWakes true]

end OmniRealtime
