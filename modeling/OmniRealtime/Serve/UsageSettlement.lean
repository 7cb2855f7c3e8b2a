import OmniRealtime.Serve.V2Session

/-!
# Settlement of usage

Every snapshot that the ledger takes is billed once: by the `response.done` that comes next, or by
none. An interruption settles nothing, and a response whose `response.done` is lost is the last one.

The final snapshot is the usage of `session.done` as long as the ledger takes no larger one while
the messages before `session.done` are on the way: `record_accounting` looks at `_finalized`, which
is set later.

1. `Conserved`: what is claimed of a state.
2. `keepsFinal`: the condition. `Inv.step`: what every step keeps.
-/

namespace OmniRealtime

open List Option Account V2Session LockHolder

def WireEvent.settlement? : WireEvent → Option Settlement
  | .responseDone _ _ _ _ _ usage => some usage
  | _ => none

/-- Neither a settlement nor the end. -/
def WireEvent.plain : WireEvent → Bool
  | .responseDone _ _ _ _ _ _ | .sessionDone _ _ => false
  | _ => true

namespace LockHolder

def byFinish : LockHolder → Bool
  | .finishError _ _ | .finishSettling _ _ | .finishDone _ => true
  | _ => false

/-- The usage of the `response.done` that is on the way. -/
def inflight : LockHolder → List Settlement
  | .settling event | .finishSettling _ event => event.settlement?.toList
  | _ => []

/-- The message is one for the state of its holder. -/
def fits : LockHolder → Bool
  | .plain _ event | .finishError _ event => event.plain
  | .settling event | .finishSettling _ event => event.settlement?.isSome
  | .silence | .finishDone _ => true

/-- `session.done` is still to be made. -/
def beforeDone : LockHolder → Bool
  | .finishError _ _ | .finishSettling _ _ => true
  | _ => false

end LockHolder

namespace FinishTask

/-- The final snapshot is not recorded. -/
def early : FinishTask → Bool
  | .absent | .snapshotting _ | .acquiring _ _ => true
  | _ => false

def holds : FinishTask → Bool
  | .holding => true
  | _ => false

def completes : FinishTask → Bool
  | .snapshotting reason | .acquiring reason _ => reason = .completed
  | _ => false

end FinishTask

namespace V2Session

variable {s t : V2Session} {act : V2Event} {holder : LockHolder}

/-! ## What is claimed -/

/-- The usage of every `response.done` sent. -/
def dones (s : V2Session) : List Settlement := s.sent.filterMap WireEvent.settlement?

def deltas (s : V2Session) : List Usage := s.dones.map Settlement.delta

structure Conserved (s : V2Session) : Prop where
  valid : ∀ usage ∈ s.dones, 0 ≤ usage.delta ∧ usage.delta.Reconciles
  telescopes : ∀ before last, s.dones = before ++ [last] → s.deltas.sum = last.cumulative
  /-- Every settlement is of what was consumed since the one before, interrupted or not. -/
  fair : Account.Fair s.billing
  covers : Account.consumption s.billing = s.ledger.latest
  settlements : s.deltas <+: Account.settlements s.billing
  final : ∀ reason usage, WireEvent.sessionDone reason usage ∈ s.sent →
    s.final = some usage ∧ ∀ done ∈ s.dones, done.cumulative ≤ usage

/-- The snapshot of the step is rejected. -/
def rejects (s : V2Session) : V2Event → Bool
  | .snapshot data => (s.recordAccounting data).1.isSome
  | .recordFinal =>
    match s.finish with
    | .acquiring _ final => (s.ledger.record final.usage final.watermark).1.isSome
    | _ => false
  | _ => false

/-! ## The condition -/

/-- While the messages before `session.done` are on the way, the ledger takes no other counters than
    those of the final snapshot. -/
def keepsFinal (s : V2Session) : V2Event → Bool
  | .snapshot data =>
    !s.eventLock.any LockHolder.beforeDone ||
      usageFields.all fun key => (s.recordAccounting data).2.ledger.latest key = s.ledger.latest key
  | _ => true

/-! ## The invariant -/

/-- Somebody may still settle a response. -/
def canSettle (s : V2Session) : Prop :=
  s.stream = .absent ∨ s.stream = .running ∨ s.requestFinished = true ∧ s.finish.early = true

def inflight (s : V2Session) : List Settlement := s.eventLock.elim [] LockHolder.inflight

/-- What holds while `holder` has the event lock. -/
structure Holds (s : V2Session) (holder : LockHolder) : Prop where
  byStream : holder.byStream = true → s.stream = .running ∧ s.final = none
  byFinish : holder.byFinish = true → s.finish.holds = true
  fits : holder.fits = true
  latest : holder.beforeDone = true → s.final = some s.ledger.latest
  terminal : ∀ event, holder = .finishDone event →
    ∃ reason usage, event = .sessionDone reason usage ∧ s.final = some usage
  settling : ∀ reason event, holder = .finishSettling reason event → s.requestFinished = true

structure Inv (s : V2Session) : Prop where
  sound : s.ledger.Sound
  fair : Account.Fair s.billing
  covers : Account.consumption s.billing = s.ledger.latest
  settled : (Account.settlements s.billing).sum = s.ledger.settled
  valid : ∀ delta ∈ Account.settlements s.billing, 0 ≤ delta ∧ delta.Reconciles
  -- Where the tasks are.
  lock : ∀ holder, s.eventLock = some holder → s.Holds holder
  finished : s.requestFinished = true → s.stream = .finishing ∨ s.stream = .over
  completed : s.finish.completes = true → s.requestFinished = true
  -- What has been settled is sent, or on the way, as long as somebody may settle more.
  sentPrefix : s.deltas <+: Account.settlements s.billing
  flow : s.canSettle ∨ s.inflight ≠ [] →
    s.deltas ++ s.inflight.map Settlement.delta = Account.settlements s.billing
  current : ∀ usage ∈ s.inflight, usage.cumulative = s.ledger.settled
  below : ∀ done ∈ s.dones, done.cumulative ≤ s.ledger.settled
  telescopes : ∀ before last, s.dones = before ++ [last] → s.deltas.sum = last.cumulative
  -- The final snapshot.
  early : s.finish.early = true → s.final = none ∧
    ∀ reason usage, WireEvent.sessionDone reason usage ∉ s.sent
  final : ∀ reason usage, WireEvent.sessionDone reason usage ∈ s.sent → s.final = some usage
  bounded : ∀ usage, s.final = some usage → ∀ done ∈ s.dones ++ s.inflight, done.cumulative ≤ usage

variable {event : WireEvent}

theorem Holds.plain {task : V2Task}
    (hstr : task = .stream → s.stream = .running ∧ s.final = none)
    (hevt : event.plain = true) : s.Holds (.plain task event) where
  byStream := fun hby => hstr (of_decide_eq_true hby)
  byFinish := by rintro ⟨⟩
  fits := hevt
  latest := by rintro ⟨⟩
  terminal := by rintro _ ⟨⟩
  settling := by rintro _ _ ⟨⟩

namespace Inv

theorem initial (contextLimit : ℤ) : Inv { contextLimit := contextLimit } where
  sound := .initial
  fair := .nil
  covers := rfl
  settled := rfl
  valid := by rintro _ ⟨⟩
  lock := by rintro _ ⟨⟩
  finished := by rintro ⟨⟩
  completed := by rintro ⟨⟩
  sentPrefix := prefix_rfl
  flow := fun _ => rfl
  current := by rintro _ ⟨⟩
  below := by rintro _ ⟨⟩
  telescopes := fun before last heq => absurd heq (by simp [dones])
  early := fun _ => ⟨rfl, (by rintro _ _ ⟨⟩)⟩
  final := by rintro _ _ ⟨⟩
  bounded := by rintro _ ⟨⟩

theorem toConserved (h : s.Inv) : s.Conserved where
  valid := fun usage hmem =>
    h.valid usage.delta (h.sentPrefix.subset (mem_map_of_mem hmem))
  telescopes := h.telescopes
  fair := h.fair
  covers := h.covers
  settlements := h.sentPrefix
  final := fun reason usage hmem => by
    have hfinal := h.final reason usage hmem
    exact ⟨hfinal, fun done hdone => h.bounded usage hfinal done (mem_append_left _ hdone)⟩

/-! ## Tasks that move on -/

theorem setStream (h : s.Inv) (phase : StreamTask)
    (hl : s.eventLock.any LockHolder.byStream = false)
    (hp : phase ≠ .absent ∧ phase ≠ .running)
    (hf : s.requestFinished = true → phase = .finishing ∨ phase = .over) :
    Inv { s with stream := phase } :=
  { h with
    lock := fun holder hh =>
      { h.lock holder hh with
        byStream := fun hby =>
          absurd hby (Bool.eq_false_iff.mp ((any_eq_false _ _).mp hl holder hh)) }
    finished := hf
    flow := fun hcan => h.flow (hcan.imp_left fun hcan => by
      rcases hcan with habs | hr | hfinish
      · exact absurd habs hp.1
      · exact absurd hr hp.2
      · exact .inr (.inr hfinish)) }

theorem finishStream (h : s.Inv) (hstr : s.stream = .running)
    (hl : s.eventLock.any LockHolder.byStream = false) :
    Inv { s with stream := .finishing, requestFinished := true } :=
  { h with
    lock := fun holder hh =>
      { h.lock holder hh with
        byStream := fun hby =>
          absurd hby (Bool.eq_false_iff.mp ((any_eq_false _ _).mp hl holder hh))
        settling := fun _ _ _ => rfl }
    finished := fun _ => .inl rfl
    completed := fun _ => rfl
    flow := fun _ => h.flow (.inl (.inr (.inl hstr))) }

theorem setFinish (h : s.Inv) (phase : FinishTask)
    (hl : s.eventLock.any LockHolder.byFinish = false) (he : phase.early = false)
    (hc : phase.completes = false) : Inv { s with finish := phase } :=
  { h with
    lock := fun holder hh =>
      { h.lock holder hh with
        byFinish := fun hby =>
          absurd hby (Bool.eq_false_iff.mp ((any_eq_false _ _).mp hl holder hh)) }
    completed := fun hc' => by
      rw [hc] at hc'
      cases hc'
    flow := fun hcan => h.flow (hcan.imp_left fun hcan => by
      rcases hcan with habs | hr | hfinish
      · exact .inl habs
      · exact .inr (.inl hr)
      · rw [he] at hfinish
        cases hfinish.2)
    early := fun he' => by
      rw [he] at he'
      cases he' }

theorem cancelBinaryTimer (h : s.Inv) : s.cancelBinaryTimer.Inv := by
  unfold V2Session.cancelBinaryTimer
  split
  · exact h
  · exact { h with lock := fun holder hh => { h.lock holder hh with } }

variable {reason : DoneReason}

theorem callFinish (h : s.Inv) (hrsn : reason = .completed → s.requestFinished = true) :
    (s.callFinish reason).Inv := by
  unfold V2Session.callFinish
  split_ifs with hfinalizing
  · exact h
  · have habs : s.finish = .absent := by
      unfold finalizing at hfinalizing
      split at hfinalizing
      · assumption
      · exact absurd rfl hfinalizing
    have he : s.finish.early = true := by rw [habs]; rfl
    have hsrt : Inv { s with finish := .snapshotting reason, closed := true } :=
      { h with
        lock := fun holder hh =>
          { h.lock holder hh with
            byFinish := fun hby => by
              have hholding := (h.lock holder hh).byFinish hby
              rw [habs] at hholding
              cases hholding }
        completed := fun hc => hrsn (of_decide_eq_true hc)
        flow := fun hcan => h.flow (hcan.imp_left fun hcan => by
          rcases hcan with hcan | hcan | hcan
          · exact .inl hcan
          · exact .inr (.inl hcan)
          · exact .inr (.inr ⟨hcan.1, he⟩))
        early := fun _ => h.early he }
    exact hsrt.cancelBinaryTimer

/-! ## The ledger -/

theorem withLedger (h : s.Inv) {snapshot : RawUsage} {watermark : Option ℤ} {ledger : UsageLedger}
    (hrec : s.ledger.record snapshot watermark = (none, ledger))
    (hlatest : s.eventLock.any beforeDone = true → ledger.latest = s.ledger.latest) :
    (s.withLedger ledger).Inv := by
  obtain ⟨value, hacc⟩ := UsageLedger.accepted_of_record (by rw [hrec])
  have hres : ledger = { s.ledger with latest := value, watermark := watermark.getD 0 } := by
    simpa only [hrec] using hacc.result
  have hsnd := h.sound.record snapshot watermark
  rw [hrec] at hsnd
  have hstl : ledger.settled = s.ledger.settled := by rw [hres]
  have hb : settlements (s.withLedger ledger).billing =
      settlements s.billing := by
    simp [V2Session.withLedger, AccountEntry.settlement?]
  exact { h with
    sound := hsnd
    fair := h.fair.concat (by rintro _ ⟨⟩)
    covers := by
      simp [V2Session.withLedger, AccountEntry.consumption, h.covers]
    settled := by rw [hb, h.settled]; exact hstl.symm
    valid := by rw [hb]; exact h.valid
    lock := fun holder hh =>
      { h.lock holder hh with
        latest := fun hbef => by
          have hsame := hlatest (by
            rw [show s.eventLock = some holder from hh, any_some, hbef])
          rw [show (s.withLedger ledger).ledger.latest = s.ledger.latest from hsame]
          exact (h.lock holder hh).latest hbef }
    sentPrefix := by rw [hb]; exact h.sentPrefix
    flow := by rw [hb]; exact h.flow
    current := fun usage hmem => (h.current usage hmem).trans hstl.symm
    below := fun done hmem => (h.below done hmem).trans_eq hstl.symm }

theorem recordAccounting (h : s.Inv) {data : AccountingData}
    (hkeeps : s.keepsFinal (.snapshot data) = true) : (s.recordAccounting data).2.Inv := by
  have hlatest : s.eventLock.any beforeDone = true →
      (s.recordAccounting data).2.ledger.latest = s.ledger.latest := by
    intro hbef
    simp only [keepsFinal, hbef, Bool.not_true, Bool.false_or, List.all_eq_true,
      decide_eq_true_eq] at hkeeps
    exact funext fun key => hkeeps key (mem_usageFields key)
  unfold V2Session.recordAccounting at hlatest ⊢
  split_ifs at hlatest ⊢
  · exact h
  · exact h
  · cases hrec : s.ledger.record data.usage data.watermark with
    | mk e ledger =>
      cases e with
      | some e => simpa [hrec] using h
      | none =>
        simp only [hrec] at hlatest ⊢
        exact h.withLedger hrec hlatest

/-! ## The event lock -/

theorem hold (h : s.Inv) (holder : LockHolder) (hn : s.eventLock = none)
    (hholds : s.Holds holder)
    (hi : holder.inflight = []) : (s.hold holder).Inv := by
  have hbef : (s.hold holder).inflight = s.inflight := by
    simp [V2Session.hold, inflight, hi, hn]
  exact { h with
    lock := fun holder' heq => by cases heq; exact { hholds with }
    flow := fun hcan => by
      rw [hbef] at hcan ⊢
      exact h.flow hcan
    current := by rw [hbef]; exact h.current
    bounded := by rw [hbef]; exact h.bounded }

theorem settle (h : s.Inv) (hflow : s.deltas = Account.settlements s.billing)
    (response : OpenResponse) (reason : String)
    (hh : holder = .settling (s.doneEvent response reason) ∨
      holder = .finishSettling .completed (s.doneEvent response reason))
    (hstr : holder.byStream = true → s.stream = .running ∧ s.final = none)
    (hfinish : holder.byFinish = true → s.finish.holds = true ∧ s.requestFinished = true ∧
      s.final = some s.ledger.latest) : (s.settled.hold holder).Inv := by
  have hi : holder.inflight = [s.ledger.settle.1] := by
    rcases hh with rfl | rfl <;> rfl
  have hdelta : s.ledger.settle.1.delta = s.ledger.latest - s.ledger.settled := rfl
  have howed : s.ledger.settle.1.delta = owed s.billing := by
    have htotal := h.fair.total
    rw [h.covers, h.settled] at htotal
    rw [hdelta, htotal, add_sub_cancel_left]
  have hb : settlements (s.billing ++ [.settled s.ledger.settle.1.delta]) =
      settlements s.billing ++ [s.ledger.settle.1.delta] := by
    simp [AccountEntry.settlement?]
  exact {
    sound := h.sound.settle
    fair := h.fair.concat fun amount heq => by cases heq; exact howed
    covers := by
      refine consumption_concat.trans ?_
      rw [h.covers]
      exact add_zero _
    settled := by
      show (settlements (s.billing ++ [.settled s.ledger.settle.1.delta])).sum =
        s.ledger.latest
      rw [hb, sum_append, h.settled, hdelta, sum_singleton, add_sub_cancel]
    valid := by
      intro delta hmem
      rcases mem_append.mp (hb ▸ hmem) with hmem | hmem
      · exact h.valid delta hmem
      · obtain rfl := mem_singleton.mp hmem
        exact ⟨sub_nonneg.mpr h.sound.settled_le,
          h.sound.latest_reconciles.sub h.sound.settled_reconciles⟩
    lock := fun holder' heq => by
      cases heq
      exact {
        byStream := hstr
        byFinish := fun hby => (hfinish hby).1
        fits := by rcases hh with rfl | rfl <;> rfl
        latest := fun hbef => by
          rcases hh with rfl | rfl
          · cases hbef
          · exact (hfinish rfl).2.2
        terminal := fun event heq => by rcases hh with rfl | rfl <;> cases heq
        settling := fun reason event heq => by
          rcases hh with rfl | rfl
          · cases heq
          · exact (hfinish rfl).2.1 }
    finished := h.finished
    completed := h.completed
    sentPrefix := hb ▸ h.sentPrefix.trans (prefix_append _ _)
    flow := fun _ => by
      show s.deltas ++ holder.inflight.map Settlement.delta =
        settlements (s.billing ++ [.settled s.ledger.settle.1.delta])
      rw [hi, hb, ← hflow]
      rfl
    current := fun usage hmem => by
      obtain rfl := mem_singleton.mp (hi ▸ hmem : usage ∈ [s.ledger.settle.1])
      rfl
    below := fun done hmem => (h.below done hmem).trans h.sound.settled_le
    telescopes := h.telescopes
    early := h.early
    final := h.final
    bounded := fun usage hfinal done hmem => by
      rcases mem_append.mp hmem with hmem | hmem
      · exact h.bounded usage hfinal done (mem_append_left _ hmem)
      · obtain rfl := mem_singleton.mp (hi ▸ hmem : done ∈ [s.ledger.settle.1])
        -- The final snapshot is recorded, so it is `_finish_impl` that settles.
        rcases hh with rfl | rfl
        · have hn := (hstr rfl).2
          rw [show s.final = some usage from hfinal] at hn
          cases hn
        · have hlatest := (hfinish rfl).2.2
          rw [show s.final = some usage from hfinal] at hlatest
          cases hlatest
          exact le_refl _ }

theorem endSession (h : s.Inv) (hn : s.eventLock = none) (hholds : s.finish.holds = true)
    (hfinal : s.final = some s.ledger.latest) (reason : DoneReason) :
    (s.endSession reason).Inv := by
  have hsent : Inv { s with terminalSent := true } :=
    { h with lock := fun holder hh => { h.lock holder hh with } }
  refine hsent.hold _ hn ?_ rfl
  exact {
    byStream := by rintro ⟨⟩
    byFinish := fun _ => hholds
    fits := rfl
    latest := by rintro ⟨⟩
    terminal := fun event heq => by
      cases heq
      exact ⟨reason, _, rfl, hfinal⟩
    settling := (by rintro _ _ ⟨⟩) }

theorem openResponse (h : s.Inv) (uuid : String) (turnId : ℤ) (visible : Bool) :
    (s.openResponse uuid turnId visible).Inv := by
  unfold V2Session.openResponse
  split
  · exact { h with lock := fun holder hh => { h.lock holder hh with } }
  · exact h

theorem send (h : s.Inv) (hn : s.eventLock = none) {task : V2Task} {uuid : String}
    {payload : Payload} (ht : task = .stream ∨ payload = .silence → s.stream = .running)
    (hsend : s.send task uuid payload = some t) : t.Inv := by
  unfold V2Session.send at hsend
  split at hsend
  · cases hsend
    exact h
  · rename_i hfinalizing
    have hfinal : s.final = none := by
      refine (h.early ?_).1
      cases hp : s.finish with
      | absent => rfl
      | _ => simp [finalizing, hp] at hfinalizing
    -- What a `send` of a plain message needs, in the state that it leaves.
    have hpln : ∀ {s' : V2Session} {event : WireEvent}, s'.Inv → s'.eventLock = none →
        s'.stream = s.stream → s'.final = s.final → event.plain = true →
        (s'.hold (.plain task event)).Inv := by
      intro s' event h' hn' hstr' hfinal' hevt
      refine h'.hold _ hn' (Holds.plain (fun ht' => ?_) hevt) rfl
      exact ⟨hstr'.trans (ht (.inl ht')), hfinal'.trans hfinal⟩
    cases payload with
    | text turnId visible =>
      dsimp only at hsend
      split_ifs at hsend
      cases hsend
      have hopen := h.openResponse uuid turnId visible
      unfold V2Session.openResponse at hopen ⊢
      split_ifs at hopen ⊢ <;> exact hpln hopen hn rfl rfl rfl
    | silence =>
      cases hsend
      refine h.hold _ hn ?_ rfl
      exact {
        byStream := fun _ => ⟨ht (.inr rfl), hfinal⟩
        byFinish := by rintro ⟨⟩
        fits := rfl
        latest := by rintro ⟨⟩
        terminal := by rintro _ ⟨⟩
        settling := (by rintro _ _ ⟨⟩) }
    | interrupted =>
      cases hsend
      have hb : settlements (s.billing ++ [.mark]) =
          settlements s.billing := by simp [AccountEntry.settlement?]
      have hmk : Inv { s with response := none, billing := s.billing ++ [.mark] } :=
        { h with
          fair := h.fair.concat (by rintro _ ⟨⟩)
          covers := by simp [AccountEntry.consumption, h.covers]
          settled := by rw [hb]; exact h.settled
          valid := by rw [hb]; exact h.valid
          lock := fun holder hh => { h.lock holder hh with }
          sentPrefix := by rw [hb]; exact h.sentPrefix
          flow := by rw [hb]; exact h.flow }
      exact hpln hmk hn rfl rfl rfl
    | responseDone finishReason =>
      cases hsend
      exact { h with lock := fun holder hh => { h.lock holder hh with } }
    | frameReady seqNo =>
      cases hsend
      have hcancel := h.cancelBinaryTimer
      have htimer : s.startBinaryTimer.Inv :=
        { hcancel with lock := fun holder hh => { hcancel.lock holder hh with } }
      have hsame : s.startBinaryTimer.eventLock = s.eventLock ∧
          s.startBinaryTimer.stream = s.stream ∧ s.startBinaryTimer.final = s.final := by
        unfold startBinaryTimer V2Session.cancelBinaryTimer
        split <;> exact ⟨rfl, rfl, rfl⟩
      exact hpln htimer (hsame.1.trans hn) hsame.2.1 hsame.2.2 rfl
    | error code =>
      dsimp only at hsend
      split_ifs at hsend <;> cases hsend
      · exact hpln h hn rfl rfl rfl
      · exact { h with lock := fun holder hh => { h.lock holder hh with } }
    | other =>
      cases hsend
      exact hpln h hn rfl rfl rfl

/-! ## The wire -/

section

variable (h : s.Inv) {reason : DoneReason}
include h

/-- A message without a settlement is sent; a `session.done` has the final snapshot. -/
theorem sendOther (hn : event.settlement? = none)
    (hdone : ∀ reason usage, event = .sessionDone reason usage → s.final = some usage) :
    Inv { s with sent := s.sent ++ [event] } := by
  have hdones : V2Session.dones { s with sent := s.sent ++ [event] } = s.dones := by
    simp [dones, hn]
  have hd : deltas { s with sent := s.sent ++ [event] } = s.deltas :=
    congrArg (List.map Settlement.delta) hdones
  have hmem : ∀ reason usage, WireEvent.sessionDone reason usage ∈ s.sent ++ [event] →
      WireEvent.sessionDone reason usage ∈ s.sent ∨ s.final = some usage := by
    intro reason usage hmem
    refine (mem_append.mp hmem).imp_right fun hmem => ?_
    exact hdone reason usage (mem_singleton.mp hmem).symm
  exact { h with
    lock := fun holder hh => { h.lock holder hh with }
    sentPrefix := by rw [hd]; exact h.sentPrefix
    flow := by rw [hd]; exact h.flow
    below := by rw [hdones]; exact h.below
    telescopes := by rw [hd, hdones]; exact h.telescopes
    early := fun he => by
      obtain ⟨hfinal, hsent⟩ := h.early he
      refine ⟨hfinal, fun reason usage hmem' => (hmem reason usage hmem').elim (hsent reason usage) ?_⟩
      intro hsome
      cases hfinal.symm.trans hsome
    final := fun reason usage hsent => (hmem reason usage hsent).elim (h.final reason usage) id
    bounded := by rw [hdones]; exact h.bounded }

theorem sendPlain (event : WireEvent) (hevt : event.plain = true) :
    Inv { s with sent := s.sent ++ [event] } := by
  cases event with
  | responseDone | sessionDone => cases hevt
  | _ => exact h.sendOther rfl (by rintro _ _ ⟨⟩)

theorem release (hi : s.inflight = []) : Inv { s with eventLock := none } :=
  { h with
    lock := by rintro _ ⟨⟩
    flow := fun hcan => by
      rcases hcan with hcan | hsome
      · have hflow := h.flow (.inl hcan)
        rw [hi] at hflow
        exact hflow
      · exact absurd rfl hsome
    current := by rintro _ ⟨⟩
    bounded := fun usage hfinal => by
      have hbounded := h.bounded usage hfinal
      rw [hi] at hbounded
      exact hbounded }

theorem sendSettlement {usage : Settlement} (hevt : event.settlement? = some usage)
    (hi : s.inflight = [usage]) :
    Inv { s with sent := s.sent ++ [event], eventLock := none } := by
  have hdones : V2Session.dones { s with sent := s.sent ++ [event], eventLock := none } =
      s.dones ++ [usage] := by
    simp [dones, hevt]
  have hd : V2Session.deltas { s with sent := s.sent ++ [event], eventLock := none } =
      s.deltas ++ [usage.delta] := by
    rw [deltas, hdones, map_append]
    rfl
  have hflow : s.deltas ++ [usage.delta] = settlements s.billing := by
    have hflow := h.flow (.inr (by simp [hi]))
    rwa [hi] at hflow
  have hcurrent : usage.cumulative = s.ledger.settled := h.current usage (by simp [hi])
  have hmem : ∀ reason total, WireEvent.sessionDone reason total ∈ s.sent ++ [event] →
      WireEvent.sessionDone reason total ∈ s.sent := by
    intro reason total hmem
    rcases mem_append.mp hmem with hmem | hmem
    · exact hmem
    · obtain rfl := mem_singleton.mp hmem
      cases hevt
  exact { h with
    lock := by rintro _ ⟨⟩
    sentPrefix := by rw [hd, hflow]
    flow := fun _ => by
      rw [hd]
      exact (append_nil _).trans hflow
    current := by rintro _ ⟨⟩
    below := fun done hdone => by
      rw [hdones] at hdone
      rcases mem_append.mp hdone with hdone | hdone
      · exact h.below done hdone
      · obtain rfl := mem_singleton.mp hdone
        exact hcurrent.le
    telescopes := by
      intro before last heq
      rw [hdones] at heq
      obtain ⟨-, hlast⟩ := append_inj' heq rfl
      cases hlast
      rw [hd, hflow, h.settled]
      exact hcurrent.symm
    early := fun he => ⟨(h.early he).1,
      fun reason total hsent => (h.early he).2 reason total (hmem reason total hsent)⟩
    final := fun reason total hsent => h.final reason total (hmem reason total hsent)
    bounded := fun total hfinal done hdone => by
      rw [hdones] at hdone
      rcases mem_append.mp hdone with hdone | hdone
      · exact h.bounded total hfinal done (by rw [hi]; exact hdone)
      · cases hdone }

theorem sendDone (hl : s.eventLock = some (.finishDone event)) :
    Inv { s with sent := s.sent ++ [event] } := by
  obtain ⟨reason, usage, rfl, hfinal⟩ := (h.lock _ hl).terminal event rfl
  refine h.sendOther rfl fun reason' usage' heq => ?_
  cases heq
  exact hfinal

/-- The response task has lost its message, and settles no more. -/
theorem dropStream (hstr : s.stream = .running) {phase : StreamTask}
    (hp : phase = .failed ∨ phase = .over) :
    Inv { s with eventLock := none, stream := phase } := by
  have hunfinished := unfinished h.finished (.inr hstr)
  have hflow : ¬canSettle { s with eventLock := none, stream := phase } := by
    rintro (habs | hr | ⟨hf, -⟩)
    · rcases hp with rfl | rfl <;> cases habs
    · rcases hp with rfl | rfl <;> cases hr
    · rw [show s.requestFinished = true from hf] at hunfinished
      cases hunfinished
  exact { h with
    lock := by rintro _ ⟨⟩
    finished := fun hf => by
      rw [show s.requestFinished = true from hf] at hunfinished
      cases hunfinished
    flow := fun hcan => hcan.elim (fun hcan => absurd hcan hflow) fun hsome => absurd rfl hsome
    current := by rintro _ ⟨⟩
    bounded := fun usage hfinal done hmem => by
      rw [show V2Session.inflight { s with eventLock := none, stream := phase } = [] from rfl,
        append_nil] at hmem
      exact h.bounded usage hfinal done (mem_append_left _ hmem) }

theorem dropFinish (hl : s.eventLock = some holder) (hfinish : holder.byFinish = true)
    : Inv { s with eventLock := none, finish := .reporting } := by
  have hholds := h.lock holder hl
  have hflow : canSettle { s with eventLock := none, finish := .reporting } →
      s.deltas = settlements s.billing := by
    intro hcan
    have hr : s.stream = .absent ∨ s.stream = .running := by
      rcases hcan with hcan | hcan | ⟨-, he⟩
      · exact .inl hcan
      · exact .inr hcan
      · cases he
    have hn : s.inflight = [] := by
      cases hh : holder with
      | finishSettling reason event =>
        rcases h.finished (hholds.settling reason event hh) with hp | hp <;>
          rw [hp] at hr <;> rcases hr with hr | hr <;> cases hr
      | finishError reason event | finishDone event =>
        simp [inflight, hl, hh, LockHolder.inflight]
      | _ => rw [hh] at hfinish; cases hfinish
    have hflow := h.flow (.inl (hr.imp_right .inl))
    rwa [hn, map_nil, append_nil] at hflow
  exact { h with
    lock := by rintro _ ⟨⟩
    completed := by rintro ⟨⟩
    flow := fun hcan => by
      rcases hcan with hcan | hsome
      · exact (append_nil _).trans (hflow hcan)
      · exact absurd rfl hsome
    current := by rintro _ ⟨⟩
    early := by rintro ⟨⟩
    bounded := fun usage hfinal done hmem => by
      rw [show V2Session.inflight { s with eventLock := none, finish := .reporting } = [] from rfl,
        append_nil] at hmem
      exact h.bounded usage hfinal done (mem_append_left _ hmem) }

theorem leaveFinish (hl : s.eventLock.any byFinish = false) : s.leaveFinish.Inv := by
  have hfinish := h.setFinish s.leaveFinish.finish hl rfl rfl
  exact { hfinish with lock := fun holder hh => { hfinish.lock holder hh with } }

theorem failPlain {task : V2Task} (hl : s.eventLock = some (.plain task event)) :
    (s.wireFailed (.plain task event)).Inv := by
  have hrelease := h.release (by simp [inflight, hl, LockHolder.inflight])
  by_cases hby : (LockHolder.plain task event).byStream = true
  · have hr := ((h.lock _ hl).byStream hby).1
    simpa only [wireFailed, hby, if_true] using h.dropStream hr (.inl rfl)
  · simpa only [wireFailed, hby, if_false, Bool.false_eq_true] using hrelease

theorem wireEnds_plain {task : V2Task} (hl : s.eventLock = some (.plain task event))
    (result : WireResult) :
    (s.wireEnds (.plain task event) result).Inv := by
  have hsent := h.sendPlain _ (h.lock _ hl).fits
  cases result with
  | sent => exact hsent.release (by simp [inflight, hl, LockHolder.inflight])
  | late => exact hsent.failPlain hl
  | lost => exact h.failPlain hl

theorem wireEnds_silence (hl : s.eventLock = some .silence) (result : WireResult) :
    (s.wireEnds .silence result).Inv := by
  obtain ⟨hr, hfinal⟩ := (h.lock _ hl).byStream rfl
  have hsent := h.sendPlain .silence rfl
  have hrelease := hsent.release (by simp [inflight, hl, LockHolder.inflight])
  cases result with
  | sent =>
    show Inv (wireSent { s with sent := s.sent ++ [.silence] } .silence)
    simp only [wireSent]
    split
    · rename_i event t hsettle
      -- The lock passes from the silence to the settlement.
      obtain ⟨response, -, heq⟩ := map_eq_some_iff.mp hsettle
      cases heq
      have hflow := hrelease.flow (.inl (.inr (.inl hr)))
      exact hrelease.settle ((append_nil _).symm.trans hflow) response "silence" (.inl rfl)
        (fun _ => ⟨hr, hfinal⟩) (by rintro ⟨⟩)
    · exact hrelease
  | late => exact hsent.dropStream hr (.inl rfl)
  | lost => exact h.dropStream hr (.inl rfl)

theorem wireEnds_settling (hl : s.eventLock = some (.settling event)) (result : WireResult) :
    (s.wireEnds (.settling event) result).Inv := by
  have hholds := h.lock _ hl
  have hr := (hholds.byStream rfl).1
  obtain ⟨usage, hevt⟩ := isSome_iff_exists.mp hholds.fits
  have hsent := h.sendSettlement hevt (by
    simp [inflight, hl, LockHolder.inflight, hevt])
  cases result with
  | sent => exact hsent
  | late => exact hsent.dropStream hr (.inl rfl)
  | lost => exact h.dropStream hr (.inl rfl)

theorem wireEnds_finishError (hl : s.eventLock = some (.finishError reason event))
    (result : WireResult) : (s.wireEnds (.finishError reason event) result).Inv := by
  have hholds := h.lock _ hl
  have hsent := h.sendPlain _ hholds.fits
  cases result with
  | sent =>
    have hrelease := hsent.release (by simp [inflight, hl, LockHolder.inflight])
    exact hrelease.endSession rfl (hholds.byFinish rfl) (hholds.latest rfl) reason
  | late => exact hsent.dropFinish hl rfl
  | lost => exact h.dropFinish hl rfl

theorem wireEnds_finishSettling (hl : s.eventLock = some (.finishSettling reason event))
    (result : WireResult) : (s.wireEnds (.finishSettling reason event) result).Inv := by
  have hholds := h.lock _ hl
  obtain ⟨usage, hevt⟩ := isSome_iff_exists.mp hholds.fits
  have hsent := h.sendSettlement hevt (by
    simp [inflight, hl, LockHolder.inflight, hevt])
  cases result with
  | sent => exact hsent.endSession rfl (hholds.byFinish rfl) (hholds.latest rfl) reason
  | late => exact hsent.setFinish _ rfl rfl rfl
  | lost => exact h.dropFinish hl rfl

theorem wireEnds_finishDone (hl : s.eventLock = some (.finishDone event)) (result : WireResult) :
    (s.wireEnds (.finishDone event) result).Inv := by
  have hsent := h.sendDone hl
  cases result with
  | sent =>
    have hrelease := hsent.release (by simp [inflight, hl, LockHolder.inflight])
    exact hrelease.leaveFinish rfl
  | late => exact hsent.dropFinish hl rfl
  | lost => exact h.dropFinish hl rfl

theorem wireEnds (hl : s.eventLock = some holder) (result : WireResult) :
    (s.wireEnds holder result).Inv := by
  cases holder with
  | plain task event => exact h.wireEnds_plain hl result
  | silence => exact h.wireEnds_silence hl result
  | settling event => exact h.wireEnds_settling hl result
  | finishError reason event => exact h.wireEnds_finishError hl result
  | finishSettling reason event => exact h.wireEnds_finishSettling hl result
  | finishDone event => exact h.wireEnds_finishDone hl result

end

/-! ## The end -/

theorem conclude (h : s.Inv) (hn : s.eventLock = none) (hholds : s.finish.holds = true)
    (hfinal : s.final = some s.ledger.latest)
    (hcmp : reason = .completed → s.requestFinished = true ∧
      s.deltas = settlements s.billing) (error : Option String) :
    (s.conclude reason error).Inv := by
  cases error with
  | some code =>
    refine h.hold (.finishError (errorReason code) (.error (errorCode code))) hn ?_ rfl
    exact {
      byStream := by rintro ⟨⟩
      byFinish := fun _ => hholds
      fits := rfl
      latest := fun _ => hfinal
      terminal := by rintro _ ⟨⟩
      settling := (by rintro _ _ ⟨⟩) }
  | none =>
    dsimp only [V2Session.conclude]
    split_ifs with hrsn
    · obtain ⟨hf, hflow⟩ := hcmp hrsn
      subst hrsn
      split
      · rename_i event t hsettle
        obtain ⟨response, -, heq⟩ := map_eq_some_iff.mp hsettle
        cases heq
        exact h.settle hflow response s.finishReason (.inr rfl) (by rintro ⟨⟩)
          fun _ => ⟨hholds, hf, hfinal⟩
      · exact h.endSession hn hholds hfinal _
    · exact h.endSession hn hholds hfinal _

theorem recordFinal (h : s.Inv) {final : FinalSnapshot}
    (hfinish : s.finish = .acquiring reason final) (hn : s.eventLock = none) :
    (s.recordFinal reason final).Inv := by
  unfold V2Session.recordFinal
  split
  · exact h.setFinish _ (by rw [hn]; rfl) rfl rfl
  · rename_i ledger hrec
    have hledger := h.withLedger hrec (by rw [hn]; nofun)
    have he : s.finish.early = true := by rw [hfinish]; rfl
    have hfree : (s.withLedger ledger).inflight = [] := by
      rw [inflight, show (s.withLedger ledger).eventLock = none from hn]
      rfl
    obtain ⟨value, hacc⟩ := UsageLedger.accepted_of_record (by rw [hrec])
    have hres : ledger =
        { s.ledger with latest := value, watermark := final.watermark.getD 0 } := by
      simpa only [hrec] using hacc.result
    have hbelow : ∀ done ∈ s.dones, done.cumulative ≤ ledger.latest := by
      intro done hdone
      rw [hres]
      exact (h.below done hdone).trans (h.sound.settled_le.trans hacc.mono)
    have hrcd : Inv { s.withLedger ledger with
        final := some ledger.latest, finish := .holding } :=
      { hledger with
        lock := fun holder hh => by
          rw [show (s.withLedger ledger).eventLock = none from hn] at hh
          cases hh
        completed := by rintro ⟨⟩
        flow := fun hcan => hledger.flow (hcan.imp_left fun hcan => by
          rcases hcan with hcan | hcan | ⟨-, hcan⟩
          · exact .inl hcan
          · exact .inr (.inl hcan)
          · cases hcan)
        early := by rintro ⟨⟩
        final := fun reason usage hsent => absurd hsent ((h.early he).2 reason usage)
        bounded := fun usage heq done hmem => by
          cases heq
          rcases mem_append.mp hmem with hmem | hmem
          · exact hbelow done hmem
          · have hemp : done ∈ (s.withLedger ledger).inflight := hmem
            rw [hfree] at hemp
            cases hemp }
    refine hrcd.conclude hn rfl rfl (fun hrsn => ?_) _
    have hf := h.completed (by rw [hfinish, hrsn]; rfl)
    have hflow := hledger.flow (.inl (.inr (.inr ⟨hf, he⟩)))
    rw [hfree] at hflow
    exact ⟨hf, (append_nil _).symm.trans hflow⟩

theorem joinStream (h : s.Inv) (hl : s.eventLock.any byFinish = false) :
    s.joinStream.Inv := by
  unfold V2Session.joinStream
  split
  · exact h.setFinish _ hl rfl rfl
  · by_cases hby : s.eventLock.any byStream = true
    · obtain ⟨holder, hh, hstr⟩ := (any_eq_true _ _).mp hby
      have hr := ((h.lock holder hh).byStream hstr).1
      simpa only [hby, if_true] using
        (h.dropStream hr (.inr rfl)).setFinish (.joiningStream [.stream]) rfl rfl rfl
    · simpa only [hby, if_false, Bool.false_eq_true] using
        (h.setStream .over (by simpa using hby) ⟨(by rintro ⟨⟩), (by rintro ⟨⟩)⟩
          fun _ => .inr rfl).setFinish (.joiningStream [.stream]) hl rfl rfl

theorem cleanUp (h : s.Inv) (hl : s.eventLock.any byFinish = false) :
    s.cleanUp.Inv := by
  have hover := h.setFinish .over hl rfl rfl
  unfold V2Session.cleanUp closeWebsocket
  split
  · exact { hover with lock := fun holder hh => { hover.lock holder hh with } }
  · have hcl := hover.sendPlain (.close 1000) rfl
    exact { hcl with lock := fun holder hh => { hcl.lock holder hh with } }

/-- Without the event lock, what `_finish_impl` does holds it nowhere. -/
theorem not_byFinish (h : s.Inv) (hholds : s.finish.holds = false) :
    s.eventLock.any byFinish = false := by
  cases hl : s.eventLock with
  | none => rfl
  | some holder =>
    cases hby : holder.byFinish with
    | false => exact hby
    | true => rw [(h.lock holder hl).byFinish hby] at hholds; cases hholds

theorem recordAccounting_keeps (data : AccountingData) :
    (s.recordAccounting data).2.stream = s.stream ∧
      (s.recordAccounting data).2.eventLock = s.eventLock := by
  unfold V2Session.recordAccounting
  split_ifs
  · exact ⟨rfl, rfl⟩
  · exact ⟨rfl, rfl⟩
  · split <;> exact ⟨rfl, rfl⟩

theorem failStream (h : s.Inv) (hr : s.stream = .running)
    (hl : s.eventLock.any byStream = false) : Inv { s with stream := .failed } := by
  refine h.setStream _ hl ⟨(by rintro ⟨⟩), (by rintro ⟨⟩)⟩ fun hf => ?_
  rw [unfinished h.finished (.inr hr)] at hf
  cases hf

theorem streamReports (h : s.Inv) (hn : s.eventLock = none) :
    Inv (({ (s.send .stream "" (.error "response_failed")).getD s with
      stream := .finishing, closed := true, outstandingSeqNos := ∅ } : V2Session).callFinish
        ((s.send .stream "" (.error "response_failed")).getD s).ownReason) := by
  obtain ⟨fatalError, heq⟩ := getD_send_error (s := s)
  rw [heq]
  have hfinishing := h.setStream .finishing (by rw [hn]; rfl) ⟨(by rintro ⟨⟩), (by rintro ⟨⟩)⟩ fun _ => .inl rfl
  have hcl : Inv { s with
      fatalError := fatalError, stream := .finishing, closed := true, outstandingSeqNos := ∅ } :=
    { hfinishing with lock := fun holder hh => { hfinishing.lock holder hh with } }
  exact hcl.callFinish finished_of_ownReason

theorem step (h : s.Inv) (hst : v2Step s act = some t) (hkeeps : s.keepsFinal act = true) :
    t.Inv := by
  cases act with
  | configure =>
    obtain ⟨habs, ⟨⟩⟩ := of_guard hst
    have hunfinished := Bool.eq_false_iff.mp (unfinished h.finished (.inl habs))
    exact { h with
      lock := fun holder hh =>
        { h.lock holder hh with
          byStream := fun hby => ⟨rfl, ((h.lock holder hh).byStream hby).2⟩ }
      finished := fun hf => absurd hf hunfinished
      flow := fun _ => h.flow (.inl (.inl habs)) }
  | snapshot data =>
    obtain ⟨hctl, heq⟩ := ite_none_right_eq_some.mp hst
    obtain ⟨hr, hl⟩ := running_of_streaming hctl
    have hrcd := h.recordAccounting hkeeps
    obtain ⟨hstr, heventLock⟩ := recordAccounting_keeps (s := s) data
    split at heq
    · rename_i u hres
      cases heq
      rw [hres] at hrcd
      exact hrcd
    · rename_i e u hres
      cases heq
      rw [hres] at hrcd hstr heventLock
      exact hrcd.failStream (hstr.trans hr) (by rw [heventLock]; exact hl)
  | streamSend uuid payload =>
    obtain ⟨⟨hctl, hn, -⟩, ⟨⟩⟩ := of_guard hst
    obtain ⟨hr, hl⟩ := running_of_streaming hctl
    cases hsend : s.send .stream uuid payload with
    | some t => exact h.send (isNone_iff_eq_none.mp hn) (fun _ => hr) hsend
    | none => exact h.failStream hr hl
  | processed seqNo | reserve seqNo frame =>
    cases (of_guard hst).2
    exact { h with lock := fun holder hh => { h.lock holder hh with } }
  | streamFails =>
    obtain ⟨hctl, ⟨⟩⟩ := of_guard hst
    obtain ⟨hr, hl⟩ := running_of_streaming hctl
    exact h.failStream hr hl
  | streamReports =>
    obtain ⟨⟨-, hn⟩, ⟨⟩⟩ := of_guard hst
    exact h.streamReports (isNone_iff_eq_none.mp hn)
  | streamEnds =>
    obtain ⟨hctl, ⟨⟩⟩ := of_guard hst
    obtain ⟨hr, hl⟩ := running_of_streaming hctl
    have hend := h.finishStream hr hl
    have hcleaned : Inv { s with stream := .finishing, requestFinished := true, frames := ∅ } :=
      { hend with lock := fun holder hh => { hend.lock holder hh with } }
    exact hcleaned.callFinish fun _ => rfl
  | clientSend payload =>
    obtain ⟨⟨hn, hcli⟩, hsend⟩ := ite_none_right_eq_some.mp hst
    refine h.send (isNone_iff_eq_none.mp hn) (fun ht => ?_) hsend
    rcases ht with ht | rfl
    · cases ht
    · cases hcli
  | clientFails code | clientCloses | release seqNo =>
    cases hst
    exact { h with lock := fun holder hh => { h.lock holder hh with } }
  | cancelTimer =>
    cases hst
    exact h.cancelBinaryTimer
  | storeFrame =>
    dsimp only [v2Step] at hst
    split at hst
    · cases hst
    · cases (of_guard hst).2
      exact { h with lock := fun holder hh => { h.lock holder hh with } }
  | teardown =>
    cases hst
    exact h.callFinish finished_of_ownReason
  | expire k =>
    cases (of_guard hst).2
    have hexpired : Inv { s with
        timers := s.timers.set k .finishing, fatalError := some "session_timeout",
        closed := true } :=
      { h with lock := fun holder hh => { h.lock holder hh with } }
    exact hexpired.callFinish (by rintro ⟨⟩)
  | wireEnds result =>
    obtain ⟨holder, hl, rfl⟩ := map_eq_some_iff.mp hst
    exact h.wireEnds hl result
  | finalSnapshot result =>
    dsimp only [v2Step] at hst
    split at hst
    · rename_i reason hp
      have hl := h.not_byFinish (by rw [hp]; rfl)
      have hacquire : ∀ final, Inv { s with finish := .acquiring reason final } := fun final =>
        { h with
          lock := fun holder hh =>
            { h.lock holder hh with
              byFinish := fun hby =>
                absurd hby (Bool.eq_false_iff.mp ((any_eq_false _ _).mp hl holder hh)) }
          completed := fun hc => h.completed (by rw [hp]; exact hc)
          flow := fun hcan => h.flow (hcan.imp_left fun hcan => by
            rcases hcan with hcan | hcan | hcan
            · exact .inl hcan
            · exact .inr (.inl hcan)
            · exact .inr (.inr ⟨hcan.1, by rw [hp]; rfl⟩))
          early := fun _ => h.early (by rw [hp]; rfl) }
      split at hst <;> cases hst
      · exact hacquire _
      · exact h.setFinish _ hl rfl rfl
    · cases hst
  | recordFinal =>
    dsimp only [v2Step] at hst
    split at hst
    · rename_i reason final hp
      obtain ⟨hn, ⟨⟩⟩ := of_guard hst
      exact h.recordFinal hp (isNone_iff_eq_none.mp hn)
    · cases hst
  | reportEnds result =>
    dsimp only [v2Step] at hst
    split at hst
    · rename_i hp
      cases hst
      have hl := h.not_byFinish (by rw [hp]; rfl)
      have hsent := h.sendPlain .accountingError rfl
      cases result with
      | sent => exact hsent.setFinish _ hl rfl rfl
      | late => exact hsent.leaveFinish hl
      | lost => exact h.leaveFinish hl
    · cases hst
  | closeEnds delivered =>
    dsimp only [v2Step] at hst
    split at hst
    · rename_i hp
      cases hst
      have hl := h.not_byFinish (by rw [hp]; rfl)
      cases delivered with
      | true => exact (h.sendPlain (.close 1011) rfl).leaveFinish hl
      | false => exact h.leaveFinish hl
    · cases hst
  | joined =>
    dsimp only [v2Step] at hst
    split at hst
    · rename_i hp
      cases hst
      exact h.joinStream (h.not_byFinish (by rw [hp]; rfl))
    · rename_i hp
      cases hst
      exact h.cleanUp (h.not_byFinish (by rw [hp]; rfl))
    · cases hst
  | finishReturns task =>
    dsimp only [v2Step] at hst
    split at hst
    · obtain ⟨hfinishing, ⟨⟩⟩ := of_guard hst
      refine h.setStream _ ((any_eq_false _ _).mpr fun holder hh => ?_)
        ⟨(by rintro ⟨⟩), (by rintro ⟨⟩)⟩ fun _ => .inr rfl
      refine Bool.eq_false_iff.mpr fun hby => ?_
      cases hfinishing.symm.trans ((h.lock holder hh).byStream hby).1
    · cases (of_guard hst).2
      exact { h with lock := fun holder hh => { h.lock holder hh with } }
    · cases hst

end Inv

theorem ledger_of_rejects (hst : v2Step s act = some t) (hrejects : s.rejects act = true) :
    t.ledger = s.ledger := by
  cases act with
  | snapshot data =>
    obtain ⟨-, heq⟩ := ite_none_right_eq_some.mp hst
    obtain ⟨e, hres⟩ := isSome_iff_exists.mp hrejects
    have hsame : (s.recordAccounting data).2 = s := by
      unfold recordAccounting at hres ⊢
      split_ifs at hres ⊢
      · rfl
      · cases hrec : s.ledger.record data.usage data.watermark with
        | mk e ledger =>
          rw [hrec] at hres
          cases e with
          | some e => rfl
          | none => cases hres
    split at heq
    · rename_i u hn
      rw [hn] at hres
      cases hres
    · rename_i u hsome
      cases heq
      rw [hsome] at hsame
      exact congrArg (fun u => u.ledger) (show u = s from hsame)
  | recordFinal =>
    dsimp only [v2Step] at hst
    dsimp only [rejects] at hrejects
    split at hst
    · rename_i reason final hp
      cases (of_guard hst).2
      simp only [hp] at hrejects
      unfold V2Session.recordFinal
      split
      · rfl
      · rename_i ledger hrec
        rw [hrec] at hrejects
        cases hrejects
    · cases hst
  | _ => cases hrejects

end V2Session

open V2Session

/-- A rejected snapshot leaves the ledger unchanged. In every run in which the final snapshot stays
    the last word, usage is settled once. -/
theorem usage_conserved (contextLimit : ℤ) :
    (∀ s act t, v2Step s act = some t → s.rejects act = true → t.ledger = s.ledger) ∧
    ∀ s, ((v2System contextLimit).restrict fun s act => s.keepsFinal act = true).Reachable s →
      s.Conserved := by
  constructor
  · intro s act t hst hrejects
    exact ledger_of_rejects hst hrejects
  · intro s hs
    refine (hs.invariant (P := V2Session.Inv) (fun s₀ h₀ => ?_) ?_).toConserved
    · obtain rfl : s₀ = { contextLimit := contextLimit } := h₀
      exact V2Session.Inv.initial contextLimit
    · rintro a act b ha ⟨hst, hkeeps⟩
      exact ha.step (show v2Step a act = some b from hst) hkeeps

/-- The counters of a snapshot. -/
def counts (vision textInput textOutput : ℤ) : RawUsage := some fun
  | .visionTokens => some vision
  | .textInputTokens => some textInput
  | .textOutputTokens => some textOutput
  | .textTokens => some (textInput + textOutput)
  | .totalTokens => some (vision + (textInput + textOutput))

/-- The total of every `session.done`, of every delta, and of the final snapshot. -/
def totals (s : V2Session) : List ℤ × List ℤ × Option ℤ :=
  (s.sent.filterMap fun
      | .sessionDone _ usage => some (usage .totalTokens)
      | _ => none,
    s.deltas.map fun usage => usage .totalTokens, s.final.map fun usage => usage .totalTokens)

/-- An answer that is interrupted, and one that ends in a silence. -/
def interruptedRun : List V2Event :=
  [.configure, .snapshot ⟨some 131072, counts 145 78 10, some 10⟩, .streamSend "a" (.text 1 true),
    .wireEnds .sent, .streamSend "b" .interrupted, .wireEnds .sent,
    .snapshot ⟨some 131072, counts 290 90 15, some 15⟩, .streamSend "c" (.text 2 true),
    .wireEnds .sent, .streamSend "d" .silence, .wireEnds .sent, .wireEnds .sent]

theorem usage_conserved_interrupted :
    ∃ s : V2Session, totals s = ([402], [395], some 402) ∧ s.Conserved := by
  have hrun : (System.exec (fun s act => if s.keepsFinal act = true then v2Step s act else none)
      { contextLimit := 131072 } (interruptedRun ++
        [.teardown, .finalSnapshot (some ⟨counts 290 90 22, some 16, none⟩), .recordFinal,
          .wireEnds .sent])).map totals = some ([402], [395], some 402) := by
    decide +kernel
  obtain ⟨s, hs, hval⟩ := map_eq_some_iff.mp hrun
  exact ⟨s, hval, (usage_conserved 131072).2 s (.of_exec_guarded (.init rfl) hs)⟩

/-- A snapshot comes while the error is on the way, after the final one. -/
theorem snapshot_overrides_final :
    ¬∀ s : V2Session, (v2System 131072).Reachable s → s.Conserved := by
  intro hall
  have hrun : (System.exec v2Step { contextLimit := 131072 }
      [.configure, .clientFails "response_failed", .teardown,
        .finalSnapshot (some ⟨counts 145 78 1, some 1, none⟩), .recordFinal,
        .snapshot ⟨some 131072, counts 145 78 2, some 2⟩, .wireEnds .sent, .wireEnds .sent]).map
      totals = some ([225], [], some 224) := by
    decide +kernel
  obtain ⟨s, hs, hval⟩ := map_eq_some_iff.mp hrun
  have hconserved := hall s (.of_exec (.init rfl) hs)
  obtain ⟨hdone, hrest⟩ := Prod.mk.inj hval
  obtain ⟨-, hfinal⟩ := Prod.mk.inj hrest
  obtain ⟨event, hsent, htotal⟩ := mem_filterMap.mp
    (show (225 : ℤ) ∈ s.sent.filterMap _ by rw [hdone]; decide)
  cases event with
  | sessionDone reason usage =>
    have hsame := (hconserved.final reason usage hsent).1
    rw [hsame] at hfinal
    cases (some.inj hfinal).symm.trans (some.inj htotal)
  | _ => cases htotal

end OmniRealtime
