import OmniRealtime.Vision.CapacityGuards

/-!
# Usage of a live request

The accounting is moved by the results of steps, the lengths by what the steps commit. They agree
where the prompt is prefilled in one forward: a prompt in chunks is streamed and counted once for
each chunk, and only its first chunk moves the decoder length.

1. `UsageAgrees`: the total is the session's token space.
2. `Agreeing`: what every step keeps.
3. `usage_agrees_with_runtime`, `usage_counts_each_chunk`.
-/

namespace OmniRealtime

namespace LiveSession

variable {τ P : Type} {s s' : LiveSession τ P} {a a' : Option RealtimeAccounting} {n : Nat}

/-- Tokens that were sampled and have not been forwarded. -/
def pendingSampled (s : LiveSession τ P) : Nat :=
  if s.req.outputIds = [] then 0 else s.tokenCount - s.tokenTotal

structure UsageAgrees (s : LiveSession τ P) : Prop where
  pending : s.pendingSampled ≤ 1
  total : ∀ a ∈ s.accounting, a.totalTokens = s.tokenTotal + s.pendingSampled
  reports : ∀ report ∈ s.reports, ∀ n ∈ report.totalTokens, n = report.tokenSpaceUsed

/-! ## The invariant -/

/-- The accounting counts every token of the request. -/
structure Counting (a : Option RealtimeAccounting) (n : Nat) : Prop where
  total : ∀ b ∈ a, b.totalTokens = n
  steps : ∀ b ∈ a, b.outputStep ≤ b.step

/-- Nothing of the prompt has been forwarded. -/
structure Unread (s : LiveSession τ P) : Prop where
  row : s.req.kvAllocatedLen = none ∧ s.state.reqPoolIndex = none
  lengths : s.state.encoderLength = 0 ∧ s.state.decoderLength = 0 ∧
    s.state.appendedEncoderLength = none
  records : s.state.frameRecords = none ∧ s.req.stagedFrameRecords = none
  pending : s.state.pendingTokenId = none
  output : s.req.outputIds = []
  idle : s.launched = 0 ∧ s.parked = false ∧ s.finished = false
  counted : Counting s.accounting 0

/-- A request whose prompt has been forwarded. -/
structure Agreeing (s : LiveSession τ P) : Prop where
  output : s.req.outputIds ≠ []
  counted : Counting s.accounting s.tokenCount
  upper : s.tokenCount ≤ s.tokenTotal + 1
  live : s.finished = false →
    s.tokenCount = s.tokenTotal + 1 ∧ ∀ b ∈ s.accounting, b.frozen = false
  finished : s.finished = true → s.parked = false ∧ s.tokenTotal + s.launched ≤ s.tokenCount
  phase : s.state.phase = if s.parked then .waitingForEvent else .decoding
  plain : s.state.appendedEncoderLength = none → s.state.frameRecords = none

structure Accounted (s : LiveSession τ P) : Prop where
  usage : s.UsageAgrees
  unread : s.closed = false → s.prefilled = false → s.Unread
  agreeing : s.closed = false → s.prefilled = true → s.Agreeing

theorem Counting.of_counted {n : Int} {m m' : Nat} (h : Counting a m) (hcnt : Counted a a' n)
    (hm : (m : Int) + n = m') : Counting a' m' ∧ ∀ b ∈ a', b.frozen = false := by
  cases a with
  | none =>
    rw [show a' = none from hcnt]
    exact ⟨⟨fun _ hb => absurd hb (by simp), fun _ hb => absurd hb (by simp)⟩,
      fun _ hb => absurd hb (by simp)⟩
  | some a =>
    obtain ⟨b, rfl, hb⟩ := hcnt
    obtain ⟨ht, hfrozen, hsteps⟩ := hb (h.steps a rfl)
    refine ⟨⟨fun c hc => ?_, fun c hc => ?_⟩, fun c hc => ?_⟩
    · cases hc
      rw [ht, h.total a rfl, hm]
    · cases hc
      exact hsteps.le
    · cases hc
      exact hfrozen

theorem Counting.of_uncounted (h : Counting a n) (huncounted : Uncounted a a') :
    Counting a' n ∧ ((∀ b ∈ a, b.frozen = false) → ∀ b ∈ a', b.frozen = false) := by
  rcases huncounted with rfl | ⟨b, b', rfl, rfl, ht, hfrozen, hout, hstep⟩
  · exact ⟨h, fun h => h⟩
  · refine ⟨⟨fun c hc => ?_, fun c hc => ?_⟩, fun ho c hc => ?_⟩
    · cases hc
      rw [ht]
      exact h.total b rfl
    · cases hc
      rw [hout]
      exact (h.steps b rfl).trans hstep
    · cases hc
      rw [hfrozen]
      exact ho b rfl

theorem Agreeing.tokenTotal_le (h : s.Agreeing) : s.tokenTotal ≤ s.tokenCount := by
  cases hfin : s.finished with
  | false =>
    rw [(h.live hfin).1]
    exact Nat.le_succ _
  | true => exact (Nat.le_add_right _ _).trans (h.finished hfin).2

theorem Agreeing.usage (h : s.Agreeing)
    (hreports : ∀ report ∈ s.reports, ∀ n ∈ report.totalTokens, n = report.tokenSpaceUsed) :
    s.UsageAgrees := by
  have hpnd : s.pendingSampled = s.tokenCount - s.tokenTotal := if_neg h.output
  refine ⟨?_, fun a ha => ?_, hreports⟩
  · rw [hpnd]
    exact Nat.sub_le_of_le_add (by rw [add_comm]; exact h.upper)
  · rw [h.counted.total a ha, hpnd, ← Nat.cast_add, Nat.add_sub_cancel' h.tokenTotal_le]

theorem Accounted.of_agreeing (hp : s.prefilled = true) (h : s.Agreeing)
    (hreports : ∀ report ∈ s.reports, ∀ n ∈ report.totalTokens, n = report.tokenSpaceUsed) :
    s.Accounted where
  usage := h.usage hreports
  unread := fun _ hprompt => absurd hp (by simp [hprompt])
  agreeing := fun _ _ => h

theorem reports_append {reports : List UsageReport} {report : UsageReport}
    {a : Option RealtimeAccounting}
    (h : ∀ report ∈ reports, ∀ n ∈ report.totalTokens, n = (report.tokenSpaceUsed : Int))
    (hcnd : Counting a n) (ht : report.totalTokens = a.map RealtimeAccounting.totalTokens)
    (hused : report.tokenSpaceUsed = n) :
    ∀ r ∈ reports ++ [report], ∀ m ∈ r.totalTokens, m = (r.tokenSpaceUsed : Int) := by
  intro r hr m hm
  rcases List.mem_append.1 hr with hold | hnew
  · exact h r hold m hm
  · rw [List.mem_singleton.1 hnew, ht] at hm
    obtain ⟨b, hb, rfl⟩ := Option.mem_map.1 hm
    rw [List.mem_singleton.1 hnew, hused]
    exact hcnd.total b hb

/-! ## Steps -/

theorem accounted_prefill {i : Nat} {slots : List Int} {token : Int} (hs : s.Accounted)
    (hcl : s.closed = false) (hprompt : s.prefilled = false)
    (hwhole : slots.length = s.req.originInputIds.length)
    (h : s.prefill i slots token = .ok s') : s'.Accounted := by
  have hu := hs.unread hcl hprompt
  have hf := prefill_spec h
  have hall : s.allocated = 0 := by
    rw [allocated, hu.row.1]
    rfl
  obtain ⟨hkv, ht⟩ := lengths_of_text (s := s') (by
    rw [hf.encoder.1, hf.encoder.2]
    exact ⟨hu.lengths.1, hu.lengths.2.2⟩)
  obtain ⟨-, hbef⟩ := lengths_of_text (s := s) ⟨hu.lengths.1, hu.lengths.2.2⟩
  rw [hf.decoder, if_pos hu.row.2, hall, zero_add, hwhole] at ht
  rw [hu.lengths.2.1] at hbef
  rcases hf.last with ⟨hdone, -, hout⟩ | ⟨-, hmore, -⟩
  · have hcnt : s'.tokenCount = s'.tokenTotal + 1 := by
      rw [tokenCount, hf.origin, hout, hu.output, ht]
      rfl
    obtain ⟨hcnd, report, hreports, hrep, hused⟩ := hf.counted
    have hgain : ((0 : Nat) : Int) + (((s'.tokenTotal : Int) - s.tokenTotal -
        if s.state.pendingTokenId.isSome then 1 else 0) + 1) = (s'.tokenCount : Int) := by
      rw [hbef, hu.pending, hcnt, Nat.cast_add]
      simp
    obtain ⟨hcounting, ho⟩ := hu.counted.of_counted hcnd hgain
    obtain ⟨hfin, -, hparked, -⟩ := hf.flags
    have hagree : s'.Agreeing :=
      { output := fun hnil => by simp [hnil, hu.output] at hout
        counted := hcounting
        upper := hcnt.le
        live := fun _ => ⟨hcnt, ho⟩
        finished := fun h => absurd (hfin.trans hu.idle.2.2) (by simp [h])
        phase := by
          rw [hf.phase, if_pos hu.row.2, hparked, hu.idle.2.1]
          rfl
        plain := fun _ => (hf.records hu.records.2).trans hu.records.1 }
    refine .of_agreeing hdone hagree ?_
    rw [hreports]
    exact reports_append hs.usage.reports hcounting hrep (hused.trans hcnt.symm)
  · exact absurd (by rw [hall, zero_add, hwhole]) hmore

theorem accounted_extend {refresh : List Int → List Int → List Int}
    (hrefresh : Refreshes refresh) {segment : MossVLRealtimeSegment}
    {records : Option (List (RealtimeFrameRecord τ))} {slots : List Int} {token : Int}
    (hs : s.Accounted) (hcl : s.closed = false) (hp : s.prefilled = true)
    (hl : s.finished = false) (hsls : slots.length = segment.rawAppendIds.length + 1)
    (h : s.extend refresh segment records slots token = .ok s') : s'.Accounted := by
  have ha := hs.agreeing hcl hp
  have he := extend_spec hrefresh hsls h
  have hcnt : s'.tokenCount = s'.tokenTotal + 1 := by
    rw [he.tokenCount, he.pending, he.tokenTotal]
    exact congrArg (· + 1) (add_right_comm _ _ _)
  obtain ⟨hcnd, report, hreports, hrep, hused⟩ := he.counted
  have hgain : (s.tokenCount : Int) + (segment.rawAppendIds.length + 1) = s'.tokenCount := by
    rw [he.tokenCount, Nat.cast_add, Nat.cast_add, Int.add_assoc]
    rfl
  obtain ⟨hcounting, ho⟩ := ha.counted.of_counted hcnd hgain
  obtain ⟨e, -, happ⟩ := he.encoder
  refine .of_agreeing (he.flags.prefilled.trans hp)
    { output := ?_
      counted := hcounting
      upper := hcnt.le
      live := fun _ => ⟨hcnt, ho⟩
      finished := fun h => absurd (he.flags.finished.trans hl) (by simp [h])
      phase := by rw [he.phase, he.awake]; rfl
      plain := fun hnone => absurd happ (by simp [hnone]) } ?_
  · intro hnil
    have hlen := he.tokenCount
    rw [tokenCount, tokenCount, hnil, he.flags.origin] at hlen
    simp at hlen
    omega
  · rw [hreports]
    exact reports_append hs.usage.reports hcounting hrep (hused.trans hcnt.symm)

theorem accounted_launch {slot : Int} (hs : s.Accounted) (hcl : s.closed = false)
    (hp : s.prefilled = true) (hl : s.finished = false)
    (h : s.launch slot = .ok s') : s'.Accounted := by
  have ha := hs.agreeing hcl hp
  obtain ⟨-, -, -, hs'⟩ := launch_eq_ok h
  rw [hs']
  exact .of_agreeing hp
    { output := ha.output
      counted := ha.counted
      upper := ha.upper
      live := ha.live
      finished := fun h => absurd hl (by simp [show s.finished = true from h])
      phase := ha.phase
      plain := ha.plain } hs.usage.reports

theorem not_advances_of_waiting (h : s.state.phase = .waitingForEvent) :
    s.decodeReq.advances true = false := by
  unfold DecodeReq.advances
  rw [show s.decodeReq.state.phase = .waitingForEvent from h]
  rfl

theorem accounted_resolve {token : Int} {lookahead keepsSlot : Bool} (hs : s.Accounted)
    (hcl : s.closed = false) (hp : s.prefilled = true) (hone : 0 < s.launched)
    (hahead : lookahead = false → s.parked = false)
    (h : s.resolve token lookahead keepsSlot = .ok s') : s'.Accounted := by
  have ha := hs.agreeing hcl hp
  have hd := resolve_spec h
  obtain ⟨n, -, hmoves, -, ht, happ, -, hrcs, -, hph⟩ := hd.state.lengths
  have hsame : s'.parked = s.parked ∧ s'.finished = s.finished ∧ s'.prefilled = s.prefilled ∧
      s'.launched = s.launched - 1 := by
    rw [hd.session]
    exact ⟨rfl, rfl, rfl, rfl⟩
  obtain ⟨hparked', hfin', hpre, hless⟩ := hsame
  have hpln : s'.state.appendedEncoderLength = none → s'.state.frameRecords = none := by
    rw [happ, hrcs]
    exact ha.plain
  cases hparked : s.parked with
  | true =>
    have hl : s.finished = false := by
      cases hfin : s.finished with
      | false => rfl
      | true => exact absurd hparked (by simp [(ha.finished hfin).1])
    have hlookahead : lookahead = true := by
      cases lookahead with
      | true => rfl
      | false => exact absurd hparked (by simp [hahead rfl])
    have hwaiting : s.state.phase = .waitingForEvent := by rw [ha.phase, hparked]; rfl
    have hstt : s'.state = s.state := by
      have hstep := hd.state
      rw [hlookahead, not_advances_of_waiting hwaiting] at hstep
      exact hstep
    have hdone : (s.parked || s.finished) = true := by rw [hparked]; rfl
    obtain ⟨hqt, hreports⟩ := hd.quiet hdone
    obtain ⟨hcounting, ho⟩ := ha.counted.of_uncounted hqt
    have hlen : s'.req.outputIds.length = s.req.outputIds.length := by rw [hd.output, if_pos hdone]
    have hcnt : s'.tokenCount = s.tokenCount := by rw [tokenCount, hd.origin, hlen]; rfl
    have hsum : s'.tokenTotal = s.tokenTotal := by rw [tokenTotal, hstt]; rfl
    obtain ⟨hn, hthawed⟩ := ha.live hl
    refine .of_agreeing (hpre.trans hp)
      { output := fun hnil => ha.output (List.length_eq_zero_iff.1 (hlen ▸ by rw [hnil]; rfl))
        counted := by rw [hcnt]; exact hcounting
        upper := by rw [hcnt, hsum]; exact ha.upper
        live := fun _ => ⟨by rw [hcnt, hsum]; exact hn, ho hthawed⟩
        finished := fun h => absurd (hfin'.trans hl) (by simp [h])
        phase := by rw [hstt, hparked']; exact ha.phase
        plain := hpln } ?_
    rw [hreports]
    exact hs.usage.reports
  | false =>
    have hdecoding : s.state.phase = .decoding := by rw [ha.phase, hparked]; rfl
    have hadv := advances_of_decoding hdecoding lookahead
    obtain rfl := hmoves hadv
    have hph' : s'.state.phase = if s'.parked then .waitingForEvent else .decoding := by
      rw [hparked', hparked]
      exact hph hdecoding
    cases hfin : s.finished with
    | true =>
      have hdone : (s.parked || s.finished) = true := by rw [hfin, Bool.or_true]
      obtain ⟨hqt, hreports⟩ := hd.quiet hdone
      obtain ⟨hcounting, -⟩ := ha.counted.of_uncounted hqt
      have hlen : s'.req.outputIds.length = s.req.outputIds.length := by
        rw [hd.output, if_pos hdone]
      have hcnt : s'.tokenCount = s.tokenCount := by rw [tokenCount, hd.origin, hlen]; rfl
      obtain ⟨-, hroom⟩ := ha.finished hfin
      have hupper := ha.upper
      refine .of_agreeing (hpre.trans hp)
        { output := fun hnil => ha.output (List.length_eq_zero_iff.1 (hlen ▸ by rw [hnil]; rfl))
          counted := by rw [hcnt]; exact hcounting
          upper := by omega
          live := fun h => absurd (hfin'.trans hfin) (by simp [h])
          finished := fun _ => ⟨hparked'.trans hparked, by omega⟩
          phase := hph'
          plain := hpln } ?_
      rw [hreports]
      exact hs.usage.reports
    | false =>
      have hl : (s.parked || s.finished) = false := by rw [hparked, hfin]; rfl
      obtain ⟨hn, hthawed⟩ := ha.live hfin
      obtain ⟨hcnd, report, hreports, hrep, hused⟩ :=
        hd.counted hl hadv fun a h => hthawed a h
      have hlen : s'.req.outputIds.length = s.req.outputIds.length + 1 := by
        rw [hd.output, hl]
        rfl
      have hcnt : s'.tokenCount = s.tokenCount + 1 := by
        rw [tokenCount, hd.origin, hlen]
        rfl
      have hn' : s'.tokenCount = s'.tokenTotal + 1 := by rw [hcnt, hn, ht]
      obtain ⟨hcounting, ho⟩ := ha.counted.of_counted hcnd
        (show (s.tokenCount : Int) + 1 = s'.tokenCount by rw [hcnt, Nat.cast_add]; rfl)
      refine .of_agreeing (hpre.trans hp)
        { output := fun hnil => by simp [hnil] at hlen
          counted := hcounting
          upper := hn'.le
          live := fun _ => ⟨hn', ho⟩
          finished := fun h => absurd (hfin'.trans hfin) (by simp [h])
          phase := hph'
          plain := hpln } ?_
      rw [hreports]
      exact reports_append hs.usage.reports hcounting hrep (hused.trans hn'.symm)

theorem Counting.freeze {a : Option RealtimeAccounting} (h : Counting a n) :
    Counting (a.map RealtimeAccounting.freeze) n := by
  refine ⟨fun b hb => ?_, fun b hb => ?_⟩
  · obtain ⟨c, hc, rfl⟩ := Option.mem_map.1 hb
    exact h.total c hc
  · obtain ⟨c, hc, rfl⟩ := Option.mem_map.1 hb
    exact h.steps c hc

/-- An aborted request keeps its counters and its lengths. -/
theorem Accounted.abort (h : s.Accounted) (writes : List Nat) :
    Accounted { s.abort with writes := writes } where
  usage :=
    { pending := h.usage.pending
      total := fun a ha => by
        obtain ⟨b, hb, rfl⟩ := Option.mem_map.1 ha
        exact h.usage.total b hb
      reports := h.usage.reports }
  unread := fun hcl => absurd hcl (by simp [LiveSession.abort])
  agreeing := fun hcl => absurd hcl (by simp [LiveSession.abort])

theorem Accounted.initial (h : s.Admitted) : s.Accounted := by
  obtain ⟨-, halloc, hout, -, -, hstaged⟩ := h.fresh
  obtain ⟨hunbound, henc, hdec, happ, hpnd, hrcs⟩ := h.state
  obtain ⟨hp, hparked, hfin, -, hlaunched, -, hreports⟩ := h.flags
  obtain ⟨-, ht⟩ := lengths_of_text ⟨henc, happ⟩
  have hcounting : Counting s.accounting 0 :=
    ⟨fun a ha => by rw [h.accounting a ha]; rfl, fun a ha => by rw [h.accounting a ha]⟩
  have hnothing : s.pendingSampled = 0 := if_pos hout
  exact
    { usage :=
        { pending := by rw [hnothing]; exact Nat.zero_le _
          total := by rw [ht, hdec, hnothing]; exact hcounting.total
          reports := by rw [hreports]; exact nofun }
      unread := fun _ _ =>
        { row := ⟨halloc, hunbound⟩
          lengths := ⟨henc, hdec, happ⟩
          records := ⟨hrcs, hstaged⟩
          pending := hpnd
          output := hout
          idle := ⟨hlaunched, hparked, hfin⟩
          counted := hcounting }
      agreeing := fun _ h => absurd hp (by simp [h]) }

section Window

variable [Zero τ] [Sub τ] [LT τ] [DecidableLT τ]

theorem accounted_evict {config : RealtimeFrameWindowConfig τ} {env : WindowEnv P}
    (hs : s.Accounted) (hcl : s.closed = false) (hp : s.prefilled = true)
    (h : s.evict config env = .ok s') : s'.Accounted := by
  rcases evict_spec h with rfl | he
  · exact hs
  have ha := hs.agreeing hcl hp
  have happended : s.state.appendedEncoderLength ≠ none := fun hnone => he.records (ha.plain hnone)
  have ht := he.tokenTotal happended
  obtain ⟨req, state, hs'⟩ := he.session
  have hcnt : s'.tokenCount = s.tokenCount := congrArg (·.tokenCount) hs'
  have hlaunched : s'.launched = s.launched := congrArg (·.launched) hs'
  have hfin : s'.finished = s.finished := congrArg (·.finished) hs'
  have hparked : s'.parked = s.parked := congrArg (·.parked) hs'
  have haccounting : s'.accounting = s.accounting := congrArg (·.accounting) hs'
  have hreports : s'.reports = s.reports := congrArg (·.reports) hs'
  have hout : s'.req.outputIds = s.req.outputIds := congrArg (·.req.outputIds) hs'
  refine .of_agreeing ((congrArg (·.prefilled) hs').trans hp)
    { output := by rw [hout]; exact ha.output
      counted := by rw [hcnt, haccounting]; exact ha.counted
      upper := by rw [hcnt, ht]; exact ha.upper
      live := by rw [hfin, hcnt, ht, haccounting]; exact ha.live
      finished := by rw [hfin, hparked, ht, hlaunched, hcnt]; exact ha.finished
      phase := by rw [he.kept.1, hparked]; exact ha.phase
      plain := fun hnone => absurd (he.appended.symm.trans hnone) happended } ?_
  rw [hreports]
  exact hs.usage.reports

/-! ## Runs -/

/-- A prompt is forwarded as a whole. -/
def OneForward (s : LiveSession τ P) : LiveOp τ P → Prop
  | .prefill _ slots _ => slots.length = s.req.originInputIds.length
  | _ => True

theorem Accounted.step {refresh : List Int → List Int → List Int} (hrefresh : Refreshes refresh)
    {op : LiveOp τ P} (hs : s.Accounted) (hop : s.Enabled op) (hwhole : s.OneForward op)
    (h : s.step refresh op = .ok s') : s'.Accounted := by
  cases op with
  | prefill row slots token =>
    obtain ⟨hcl, hprompt, -⟩ := hop
    exact accounted_prefill hs hcl hprompt hwhole h
  | extend segment records slots token =>
    obtain ⟨hcl, hp, hl, -, hsls⟩ := hop
    exact accounted_extend hrefresh hs hcl hp hl hsls h
  | launch slot =>
    obtain ⟨hcl, hp, hl, -⟩ := hop
    exact accounted_launch hs hcl hp hl h
  | resolve token lookahead keepsSlot =>
    obtain ⟨hcl, hone, hahead⟩ := hop
    have hp : s.prefilled = true := by
      cases hprompt : s.prefilled with
      | true => rfl
      | false => exact absurd (hs.unread hcl hprompt).idle.1 (Nat.ne_of_gt hone)
    exact accounted_resolve hs hcl hp hone (fun h => (hahead h).1) h
  | park =>
    obtain ⟨hcl, hp, hl, -⟩ := hop
    cases h
    have ha := hs.agreeing hcl hp
    exact .of_agreeing hp
      { output := ha.output
        counted := ha.counted
        upper := ha.upper
        live := ha.live
        finished := fun h => absurd hl (by simp [show s.finished = true from h])
        phase := rfl
        plain := ha.plain } hs.usage.reports
  | evict config env =>
    obtain ⟨hcl, hp, -⟩ := hop
    exact accounted_evict hs hcl hp h
  | finish =>
    obtain ⟨hcl, hp, hawake, hlast⟩ := hop
    cases h
    have ha := hs.agreeing hcl hp
    refine .of_agreeing hp
      { output := ha.output
        counted := ha.counted.freeze
        upper := ha.upper
        live := fun h => absurd h (by simp [LiveSession.finish])
        finished := fun _ => ⟨rfl, ?_⟩
        phase := by
          have hph := ha.phase
          rw [hawake] at hph
          exact hph
        plain := ha.plain } hs.usage.reports
    cases hfin : s.finished with
    | true => exact (ha.finished hfin).2
    | false =>
      show s.tokenTotal + s.launched ≤ s.tokenCount
      rw [(ha.live hfin).1]
      exact Nat.add_le_add_left hlast _
  | abort =>
    cases h
    exact hs.abort s.writes

end Window

end LiveSession

/-- The accounting agrees with the lengths, and every report with both, in each run that prefills
    its prompt in one forward. -/
theorem usage_agrees_with_runtime {τ P : Type} [Zero τ] [Sub τ] [LT τ] [DecidableLT τ]
    {refresh : List Int → List Int → List Int} (hrefresh : LiveSession.Refreshes refresh)
    {s : LiveSession τ P}
    (h : ((liveSystem refresh).restrict LiveSession.OneForward).Reachable s) : s.UsageAgrees := by
  suffices hs : s.Accounted from hs.usage
  refine h.invariant (P := LiveSession.Accounted) (fun s hadmitted => .initial hadmitted) ?_
  rintro s op t hs ⟨⟨hstep, hop⟩, hwhole⟩
  cases hstep
  unfold LiveSession.apply
  split
  · next s' hok => exact hs.step hrefresh hop hwhole hok
  · exact hs.abort _

/-- A prompt of two tokens and a segment of one, in whole forwards. -/
theorem usage_agrees_with_runtime_extended : exLiveRun.UsageAgrees := by
  have hrefresh : LiveSession.Refreshes (· ++ ·) := fun _ _ => rfl
  refine usage_agrees_with_runtime hrefresh (.step (.step (.step (.init exLiveSession_admitted)
    (l := .prefill 0 [1, 2] 7) ⟨⟨rfl, ?_⟩, rfl⟩) (l := .extend exTextSegment none [3, 4] 8)
    ⟨⟨rfl, ?_⟩, trivial⟩) (l := .launch 5) ⟨⟨rfl, ?_⟩, trivial⟩)
  · exact ⟨rfl, rfl, by simp, .inl rfl, by decide⟩
  · exact ⟨rfl, rfl, rfl, rfl, rfl⟩
  · exact ⟨rfl, rfl, rfl, rfl, Nat.zero_le _⟩

/-- The prompt of two tokens in two chunks. -/
def exChunkedRun : LiveSession Int Unit :=
  (exLiveSession.apply (· ++ ·) (.prefill 0 [1] 7)).apply (· ++ ·) (.prefill 0 [2] 8)

/-- Each chunk is counted as if a token of it had been kept, and the second is not in the lengths:
    the total is three tokens, with the one that was kept, and the space that is reported two. -/
theorem usage_counts_each_chunk :
    ∃ s, (liveSystem (τ := Int) (P := Unit) (· ++ ·)).Reachable s ∧ ¬s.UsageAgrees := by
  refine ⟨exChunkedRun, .step (.step (.init exLiveSession_admitted) (l := .prefill 0 [1] 7)
    ⟨rfl, rfl, rfl, by simp, .inl rfl, by decide⟩) (l := .prefill 0 [2] 8)
    ⟨rfl, rfl, rfl, by simp, .inr rfl, by decide⟩, fun h => ?_⟩
  have hmem : ({ totalTokens := some 3, decoderTokens := 2, encoderTokens := 0
                 encoderKvTokens := 0, tokenSpaceUsed := 2 } : UsageReport) ∈
      exChunkedRun.reports := by
    decide
  exact absurd (h.reports _ hmem 3 rfl) (by decide)

end OmniRealtime
