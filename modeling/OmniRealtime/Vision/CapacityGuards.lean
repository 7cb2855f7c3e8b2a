import OmniRealtime.Vision.LiveSteps

/-!
# Capacity of a live request

The row of a request is filled in KV positions, the context in token positions, and steps that run
ahead take both before their results are known.

1. `Spare`: the row and the context have room for all that is allocated, one token more included.
2. `Within`: what every step keeps, over the prompt (`Prompting`) and after it (`Running`).
3. `capacity_guards_hold`: nothing is written past the row, and the context is never passed.
-/

namespace OmniRealtime

namespace LiveSession

variable {τ P : Type} {s s' : LiveSession τ P} {writes : List Nat}

/-! ## The invariant -/

/-- A request over its prompt: only the first forward has moved its lengths. -/
structure Prompting (s : LiveSession τ P) : Prop where
  allocated : s.allocated ≤ s.req.originInputIds.length
  decoder : s.state.decoderLength ≤ s.allocated
  unbound : s.state.reqPoolIndex = none → s.req.kvAllocatedLen = none
  phase : s.state.reqPoolIndex ≠ none → s.state.phase = .decoding
  encoder : s.state.encoderLength = 0 ∧ s.state.appendedEncoderLength = none
  records : s.state.frameRecords = none ∧ s.req.stagedFrameRecords = none
  output : s.req.outputIds = []
  idle : s.launched = 0 ∧ s.parked = false ∧ s.finished = false
  fits : s.req.originInputIds.length + 1 ≤ s.contextLimit

/-- Room for what is allocated: `ahead` positions of it are not committed yet. -/
structure Spare (s : LiveSession τ P) (ahead : Nat) : Prop where
  allocated : s.req.kvAllocatedLen = some (s.kvTotal + ahead)
  row : s.kvTotal + ahead ≤ s.table.width
  context : s.tokenTotal + ahead + 1 ≤ s.contextLimit

/-- A request past its prompt. -/
structure Running (s : LiveSession τ P) : Prop where
  spare : ∃ ahead, s.Spare ahead ∧ s.launched ≤ ahead ∧
    (s.parked = false → s.tokenCount + s.launched ≤ s.tokenTotal + ahead + 1) ∧
    (s.state.appendedEncoderLength ≠ none → s.parked = false →
      s.launched = ahead ∧ s.state.phase = .decoding)
  parked : s.parked = true → s.launched ≤ 1
  count : s.tokenCount ≤ s.contextLimit
  plain : s.state.appendedEncoderLength = none →
    s.state.encoderLength = 0 ∧ s.state.frameRecords = none

/-- The capacity of a session, and its invariant while it is open. -/
structure Within (s : LiveSession τ P) : Prop where
  writes : ∀ e ∈ s.writes, e ≤ s.table.width
  tokens : s.tokenTotal + 1 ≤ s.contextLimit
  count : s.tokenCount ≤ s.contextLimit
  prompting : s.closed = false → s.prefilled = false → s.Prompting
  running : s.closed = false → s.prefilled = true → s.Running

theorem Within.of_running (hwrites : ∀ e ∈ s.writes, e ≤ s.table.width)
    (hprefilled : s.prefilled = true) (h : s.Running) : s.Within := by
  obtain ⟨ahead, hspare, -⟩ := h.spare
  exact
    { writes := hwrites
      tokens := (Nat.add_le_add_right (Nat.le_add_right _ _) 1).trans hspare.context
      count := h.count
      prompting := fun _ hp => absurd hprefilled (by simp [hp])
      running := fun _ _ => h }

theorem Within.abort (h : s.Within) (hwrites : ∀ e ∈ writes, e ≤ s.table.width) :
    Within { s.abort with writes := writes } where
  writes := hwrites
  tokens := h.tokens
  count := h.count
  prompting := fun hc => absurd hc (by simp [LiveSession.abort])
  running := fun hc => absurd hc (by simp [LiveSession.abort])

/-! ## Steps -/

theorem writes_append {width : Nat} {e : Nat} (h : ∀ e ∈ writes, e ≤ width) (he : e ≤ width) :
    ∀ e' ∈ writes ++ [e], e' ≤ width := by
  intro e' hmem
  rcases List.mem_append.1 hmem with hold | hnew
  · exact h e' hold
  · rw [List.mem_singleton.1 hnew]
    exact he

theorem contextLimit_eq (hlimit : s'.state.contextLimit = s.state.contextLimit)
    (hwidth : s'.table.width = s.table.width) : s'.contextLimit = s.contextLimit := by
  rw [contextLimit, hlimit, hwidth]
  rfl

theorem lengths_of_text (h : s.state.encoderLength = 0 ∧ s.state.appendedEncoderLength = none) :
    s.kvTotal = s.state.decoderLength ∧ s.tokenTotal = s.state.decoderLength := by
  have heff : s.state.effectiveAppendedEncoderLength = 0 := by
    show s.state.appendedEncoderLength.getD s.state.encoderLength = 0
    rw [h.2, h.1]
    rfl
  exact ⟨by rw [kvTotal, h.1, zero_add], by rw [tokenTotal, heff, zero_add]⟩

/-- The guard of a prompt is its admission: it fits with one more token. -/
theorem within_prefill {i : Nat} {slots : List Int} {token : Int} (hs : s.Within)
    (hrow : s.contextLimit ≤ s.table.width) (hc : s.closed = false)
    (hprompt : s.prefilled = false)
    (hfits : s.allocated + slots.length ≤ s.req.originInputIds.length)
    (h : s.prefill i slots token = .ok s') : s'.Within := by
  have hp := hs.prompting hc hprompt
  have hf := prefill_spec h
  have hlimit := contextLimit_eq hf.contextLimit hf.width
  have henc : s'.state.encoderLength = 0 ∧ s'.state.appendedEncoderLength = none := by
    rw [hf.encoder.1, hf.encoder.2]
    exact hp.encoder
  have hdec : s'.state.decoderLength ≤ s.allocated + slots.length := by
    rw [hf.decoder]
    split
    · exact le_rfl
    · exact hp.decoder.trans (Nat.le_add_right _ _)
  have hph : s'.state.phase = .decoding := by
    rw [hf.phase]
    split
    · rfl
    · next hbound => exact hp.phase hbound
  have hrcs : s'.state.frameRecords = none := by
    rw [hf.records hp.records.2]
    exact hp.records.1
  have hwrites : ∀ e ∈ s'.writes, e ≤ s'.table.width := by
    rw [hf.writes, hf.width]
    exact writes_append hs.writes ((hfits.trans (Nat.le_succ _)).trans (hp.fits.trans hrow))
  have hall : s'.allocated = s.allocated + slots.length := by
    rw [allocated, hf.allocated]
    rfl
  have hfits' : s'.req.originInputIds.length + 1 ≤ s'.contextLimit := by
    rw [hf.origin, hlimit]
    exact hp.fits
  obtain ⟨hfin, -, hparked, hlaunched⟩ := hf.flags
  rw [hp.idle.1] at hlaunched
  rw [hp.idle.2.1] at hparked
  rw [hp.idle.2.2] at hfin
  obtain ⟨hkv, ht⟩ := lengths_of_text henc
  rcases hf.last with ⟨hdone, hlast, hout⟩ | ⟨hmore, -, hout⟩
  · obtain ⟨ahead, hahead⟩ := Nat.exists_eq_add_of_le hdec
    have hcnt : s'.tokenCount = s.req.originInputIds.length + 1 := by
      rw [tokenCount, hf.origin, hout, hp.output]
      rfl
    have hlen : s'.state.decoderLength + ahead = s.req.originInputIds.length :=
      hahead.symm.trans hlast
    refine .of_running hwrites hdone
      { spare := ⟨ahead, ⟨?_, ?_, ?_⟩, by rw [hlaunched]; exact Nat.zero_le _, fun _ => ?_,
          fun happ => absurd henc.2 happ⟩
        parked := fun h => absurd hparked (by simp [h])
        count := by rw [hcnt, hlimit]; exact hp.fits
        plain := fun _ => ⟨henc.1, hrcs⟩ }
    · rw [hf.allocated, hkv, hahead]
    · rw [hkv, hlen, hf.width]
      exact (Nat.le_succ _).trans (hp.fits.trans hrow)
    · rw [ht, hlen, hlimit]
      exact hp.fits
    · rw [hcnt, hlaunched, ht, hlen]
  · have hopen : s'.prefilled = false := hmore.trans hprompt
    exact
      { writes := hwrites
        tokens := by
          rw [ht, hlimit]
          exact (Nat.add_le_add_right (hdec.trans hfits) 1).trans hp.fits
        count := by
          rw [tokenCount, hf.origin, hout, hp.output, hlimit]
          exact (Nat.le_succ _).trans hp.fits
        prompting := fun _ _ =>
          { allocated := by rw [hall, hf.origin]; exact hfits
            decoder := by rw [hall]; exact hdec
            unbound := fun hnone => absurd hnone hf.bound
            phase := fun _ => hph
            encoder := henc
            records := ⟨hrcs, hf.staged⟩
            output := hout.trans hp.output
            idle := ⟨hlaunched, hparked, hfin⟩
            fits := hfits' }
        running := fun _ hdone => absurd hopen (by simp [hdone]) }

variable {refresh : List Int → List Int → List Int}

/-- An extend that its guard admits takes one position of the row and of the context for each token
    of the segment and for the pending one, and the sampled token fits too. -/
theorem within_extend (hrefresh : Refreshes refresh) {segment : MossVLRealtimeSegment}
    {records : Option (List (RealtimeFrameRecord τ))} {slots : List Int} {token : Int}
    (hs : s.Within) (hrow : s.contextLimit ≤ s.table.width) (hprefilled : s.prefilled = true)
    (hi : s.launched = 0) (hsls : slots.length = segment.rawAppendIds.length + 1)
    (h : s.extend refresh segment records slots token = .ok s') : s'.Within := by
  have he := extend_spec hrefresh hsls h
  have hlimit := contextLimit_eq he.flags.contextLimit he.flags.width
  obtain ⟨e, -, happ⟩ := he.encoder
  have hlaunched : s'.launched = 0 := he.launched.trans hi
  have hcontext : s'.tokenTotal + 1 ≤ s'.contextLimit := by
    rw [he.tokenTotal, hlimit]
    exact he.fitsContext
  have hcnt : s'.tokenCount = s'.tokenTotal + 1 := by
    rw [he.tokenCount, he.pending, he.tokenTotal]
    exact congrArg (· + 1) (add_right_comm _ _ _)
  refine .of_running ?_ (he.flags.prefilled.trans hprefilled)
    { spare := ⟨0, ⟨he.allocated, ?_, hcontext⟩, hlaunched.le, fun _ => ?_,
        fun _ _ => ⟨hlaunched, he.phase⟩⟩
      parked := fun _ => by rw [hlaunched]; exact Nat.zero_le _
      count := by rw [hcnt]; exact hcontext
      plain := fun hnone => absurd happ (by simp [hnone]) }
  · rw [he.writes, he.flags.width]
    refine writes_append (writes_append hs.writes ?_) he.fitsRow
    exact (Nat.le_succ _).trans (he.fitsContext.trans hrow)
  · rw [he.kvTotal, he.flags.width]
    exact he.fitsRow
  · rw [hcnt, hlaunched]

/-- A step that its guard admits takes one more position. -/
theorem within_launch {slot : Int} (hs : s.Within) (hc : s.closed = false)
    (hprefilled : s.prefilled = true) (ha : s.parked = false)
    (h : s.launch slot = .ok s') : s'.Within := by
  have hr := hs.running hc hprefilled
  obtain ⟨ahead, hspare, hlaunched, hcnt, hexact⟩ := hr.spare
  obtain ⟨hcap, halloc, hwidth, hs'⟩ := launch_eq_ok h
  obtain ⟨hfits, hcontext⟩ := capacityError_eq_none hspare.allocated (Nat.le_add_right _ _) hcap
  rw [Nat.add_sub_cancel_left] at hcontext
  have hall : s.allocated = s.kvTotal + ahead := by
    rw [allocated, hspare.allocated]
    rfl
  have hsame : s'.kvTotal = s.kvTotal ∧ s'.tokenTotal = s.tokenTotal ∧
      s'.tokenCount = s.tokenCount ∧ s'.state = s.state ∧ s'.parked = s.parked ∧
      s'.prefilled = s.prefilled ∧ s'.launched = s.launched + 1 ∧
      s'.writes = s.writes ++ [s.allocated + 1] := by
    rw [hs']
    exact ⟨rfl, rfl, rfl, rfl, rfl, rfl, rfl, rfl⟩
  obtain ⟨hkv, ht, htokens, hstt, hparked, hpre, hone, hwrites⟩ := hsame
  have hlimit := contextLimit_eq (congrArg (·.contextLimit) hstt) hwidth
  refine .of_running ?_ (hpre.trans hprefilled)
    { spare := ⟨ahead + 1, ⟨?_, ?_, ?_⟩, ?_, fun _ => ?_, fun happ _ => ?_⟩
      parked := fun h => absurd (hparked.trans ha) (by simp [h])
      count := by rw [htokens, hlimit]; exact hr.count
      plain := by rw [hstt]; exact hr.plain }
  · rw [hwrites, hwidth, hall]
    exact writes_append hs.writes hfits
  · rw [halloc, hspare.allocated, hkv]
    rfl
  · rw [hkv, hwidth]
    exact hfits
  · rw [ht, hlimit]
    exact hcontext
  · rw [hone]
    exact Nat.succ_le_succ hlaunched
  · rw [htokens, hone, ht]
    exact Nat.succ_le_succ (hcnt ha)
  · rw [hstt] at happ ⊢
    obtain ⟨hall, hph⟩ := hexact happ ha
    exact ⟨hone.trans (congrArg (· + 1) hall), hph⟩

theorem AdvancedBy.lengths {advances : Bool} (h : AdvancedBy advances s.state s'.state) :
    ∃ n ≤ 1, (advances = true → n = 1) ∧ s'.kvTotal = s.kvTotal + n ∧
      s'.tokenTotal = s.tokenTotal + n ∧
      s'.state.appendedEncoderLength = s.state.appendedEncoderLength ∧
      s'.state.encoderLength = s.state.encoderLength ∧
      s'.state.frameRecords = s.state.frameRecords ∧
      s'.state.contextLimit = s.state.contextLimit ∧
      (s.state.phase = .decoding → s'.state.phase = .decoding) := by
  unfold AdvancedBy at h
  cases advances with
  | true =>
    rw [if_pos rfl] at h
    refine ⟨1, le_rfl, fun _ => rfl, ?_, ?_, ?_⟩
    · rw [kvTotal, h]
      rfl
    · rw [tokenTotal, h]
      rfl
    · rw [h]
      exact ⟨rfl, rfl, rfl, rfl, fun _ => rfl⟩
  | false =>
    rw [if_neg (by simp)] at h
    refine ⟨0, Nat.zero_le _, fun h => absurd h (by simp), ?_, ?_, ?_⟩
    · rw [kvTotal, h]
      rfl
    · rw [tokenTotal, h]
      rfl
    · rw [h]
      exact ⟨rfl, rfl, rfl, rfl, fun h => h⟩

theorem advances_of_decoding (h : s.state.phase = .decoding) (lookahead : Bool) :
    s.decodeReq.advances lookahead = true := by
  unfold DecodeReq.advances
  rw [show s.decodeReq.state.phase = .decoding from h]

/-- A resolved step keeps its position where the request moves on, and leaves it allocated or gives
    it back where the request has parked. -/
theorem within_resolve {token : Int} {lookahead keepsSlot : Bool} (hs : s.Within)
    (hc : s.closed = false) (hprefilled : s.prefilled = true) (hone : 0 < s.launched)
    (h : s.resolve token lookahead keepsSlot = .ok s') : s'.Within := by
  have hr := hs.running hc hprefilled
  obtain ⟨ahead, hspare, hlaunched, hcnt, hexact⟩ := hr.spare
  have hd := resolve_spec h
  obtain ⟨n, hn, hmoves, hkv, ht, happ, henc, hrcs, hcl, hph⟩ := hd.state.lengths
  have hsame : s'.table.width = s.table.width ∧ s'.parked = s.parked ∧
      s'.prefilled = s.prefilled ∧ s'.launched = s.launched - 1 ∧ s'.writes = s.writes := by
    rw [hd.session]
    exact ⟨rfl, rfl, rfl, rfl, rfl⟩
  obtain ⟨hwidth, hparked, hpre, hless, hwrites⟩ := hsame
  have hlimit := contextLimit_eq hcl hwidth
  have hroom : ∃ rest, s'.req.kvAllocatedLen = some (s'.kvTotal + rest) ∧ n + rest ≤ ahead ∧
      s.launched - 1 ≤ rest ∧ (s.parked = false → n + rest = ahead) := by
    obtain ⟨rest, hrest⟩ := Nat.exists_eq_add_of_le (hn.trans (le_trans hone hlaunched))
    rcases hd.allocated with hkept | ⟨hp, htrimmed⟩
    · refine ⟨rest, ?_, hrest.ge, by omega, fun _ => hrest.symm⟩
      rw [hkept, hspare.allocated, hkv, hrest, add_assoc]
    · have hlast := hr.parked hp
      refine ⟨0, ?_, by omega, by omega, fun h => absurd hp (by simp [h])⟩
      rw [htrimmed, hspare.allocated, Option.map_some, Nat.min_eq_right (by omega)]
      rfl
  obtain ⟨rest, halloc, hwithin, hbehind, hkeeps⟩ := hroom
  have htokens : s.parked = true ∧ s'.tokenCount = s.tokenCount ∨
      s.parked = false ∧ s'.tokenCount ≤ s.tokenCount + 1 := by
    unfold tokenCount
    rw [hd.origin, hd.output]
    cases s.parked with
    | true => exact .inl ⟨rfl, rfl⟩
    | false =>
      refine .inr ⟨rfl, ?_⟩
      cases s.finished with
      | true => exact Nat.le_succ _
      | false => exact le_rfl
  have hrow := hspare.row
  have hcontext := hspare.context
  have hcnt' : s.parked = false → s'.tokenCount + s'.launched ≤ s'.tokenTotal + rest + 1 := by
    intro ha
    have hbef := hcnt ha
    have heq := hkeeps ha
    rcases htokens with ⟨hp, -⟩ | ⟨-, htok⟩
    · exact absurd hp (by simp [ha])
    · omega
  refine .of_running (by rw [hwrites, hwidth]; exact hs.writes) (hpre.trans hprefilled)
    { spare := ⟨rest, ⟨halloc, ?_, ?_⟩, by rw [hless]; exact hbehind, by rwa [hparked], ?_⟩
      parked := fun h => ?_
      count := ?_
      plain := fun hnone => ?_ }
  · rw [hwidth]
    omega
  · rw [hlimit]
    omega
  · intro hsome ha
    rw [happ] at hsome
    rw [hparked] at ha
    obtain ⟨hall, hdecoding⟩ := hexact hsome ha
    have hmoved := hmoves (advances_of_decoding hdecoding _)
    have heq := hkeeps ha
    exact ⟨by omega, hph hdecoding⟩
  · rw [hparked] at h
    rw [hless]
    exact (Nat.sub_le _ _).trans (hr.parked h)
  · rw [hlimit]
    rcases htokens with ⟨-, htok⟩ | ⟨ha, -⟩
    · rw [htok]
      exact hr.count
    · have hafter := hcnt' ha
      omega
  · rw [henc, hrcs]
    exact hr.plain (happ.symm.trans hnone)

theorem Within.prefilled_of_launched (hs : s.Within) (hc : s.closed = false)
    (h : 0 < s.launched) : s.prefilled = true := by
  cases hprefilled : s.prefilled with
  | true => rfl
  | false =>
    have hi := (hs.prompting hc hprefilled).idle.1
    rw [hi] at h
    cases h

theorem Within.initial (h : s.Admitted) : s.Within := by
  obtain ⟨hpool, halloc, hout, -, -, hstaged⟩ := h.fresh
  obtain ⟨hunbound, henc, hdec, happ, -, hrcs⟩ := h.state
  obtain ⟨hprefilled, hparked, hfin, -, hlaunched, hwrites, -⟩ := h.flags
  obtain ⟨-, ht⟩ := lengths_of_text ⟨henc, happ⟩
  have hcnt : s.tokenCount = s.req.originInputIds.length := by
    rw [tokenCount, hout]
    rfl
  exact
    { writes := by rw [hwrites]; exact nofun
      tokens := by
        rw [ht, hdec]
        exact (Nat.add_le_add_right (Nat.zero_le _) 1).trans h.prompt
      count := hcnt.trans_le ((Nat.le_succ _).trans h.prompt)
      prompting := fun _ _ =>
        { allocated := by rw [allocated, halloc]; exact Nat.zero_le _
          decoder := by rw [hdec]; exact Nat.zero_le _
          unbound := fun _ => halloc
          phase := fun hbound => absurd hunbound hbound
          encoder := ⟨henc, happ⟩
          records := ⟨hrcs, hstaged⟩
          output := hout
          idle := ⟨hlaunched, hparked, hfin⟩
          fits := h.prompt }
      running := fun _ h => absurd hprefilled (by simp [h]) }

section Window

variable [Zero τ] [Sub τ] [LT τ] [DecidableLT τ] {op : LiveOp τ P}

/-- A window round takes encoder slots out of the row; the tokens they stood for still count. -/
theorem within_evict {config : RealtimeFrameWindowConfig τ} {env : WindowEnv P} (hs : s.Within)
    (hc : s.closed = false) (hprefilled : s.prefilled = true) (hi : s.launched = 0)
    (h : s.evict config env = .ok s') : s'.Within := by
  rcases evict_spec h with rfl | he
  · exact hs
  have hr := hs.running hc hprefilled
  obtain ⟨ahead, hspare, hlaunched, hcnt, hexact⟩ := hr.spare
  have happended : s.state.appendedEncoderLength ≠ none := fun hnone =>
    he.records (hr.plain hnone).2
  obtain ⟨req, state, hs'⟩ := he.session
  have hwrites : s'.writes = s.writes ++ [s'.kvTotal] := congrArg (·.writes) hs'
  have hparked : s'.parked = s.parked := congrArg (·.parked) hs'
  have hlaunches : s'.launched = s.launched := congrArg (·.launched) hs'
  have htokens : s'.tokenCount = s.tokenCount := congrArg (·.tokenCount) hs'
  have hlimit := contextLimit_eq (congrArg (·.state.contextLimit) hs') he.width
  have ht := he.tokenTotal happended
  have hcontext := hspare.context
  refine .of_running ?_ ((congrArg (·.prefilled) hs').trans hprefilled)
    { spare := ⟨0, ⟨?_, ?_, ?_⟩, by rw [hlaunches, hi], fun ha => ?_, fun _ ha => ?_⟩
      parked := by rw [hparked, hlaunches]; exact hr.parked
      count := by rw [htokens, hlimit]; exact hr.count
      plain := fun hnone => absurd (he.appended.symm.trans hnone) happended }
  · rw [hwrites, he.width]
    exact writes_append hs.writes he.fits
  · rw [he.allocated, hspare.allocated]
    rfl
  · rw [he.width]
    exact he.fits
  · rw [ht, hlimit]
    omega
  · rw [hparked] at ha
    have hbef := hcnt ha
    obtain ⟨hall, -⟩ := hexact happended ha
    rw [hi] at hall hbef
    rw [← hall] at hbef
    rw [htokens, hlaunches, hi, ht]
    exact hbef
  · rw [hparked] at ha
    rw [he.kept.1]
    exact ⟨hlaunches.trans hi, (hexact happended ha).2⟩

/-! ## Runs -/

section

variable (hrefresh : Refreshes refresh)
include hrefresh

theorem bounds_of_step (hop : s.Enabled op) (h : s.step refresh op = .ok s') :
    s'.table.width = s.table.width ∧ s'.contextLimit = s.contextLimit := by
  suffices hwidth : s'.table.width = s.table.width ∧
      s'.state.contextLimit = s.state.contextLimit from
    ⟨hwidth.1, contextLimit_eq hwidth.2 hwidth.1⟩
  cases op with
  | prefill row slots token => exact ⟨(prefill_spec h).width, (prefill_spec h).contextLimit⟩
  | extend segment records slots token =>
    obtain ⟨-, -, -, -, hsls⟩ := hop
    have he := (extend_spec hrefresh hsls h).flags
    exact ⟨he.width, he.contextLimit⟩
  | launch slot =>
    obtain ⟨-, -, hwidth, hs'⟩ := launch_eq_ok h
    exact ⟨hwidth, congrArg (·.state.contextLimit) hs'⟩
  | resolve token lookahead keepsSlot =>
    have hd := resolve_spec h
    obtain ⟨-, -, -, -, -, -, -, -, hlimit, -⟩ := hd.state.lengths
    exact ⟨congrArg (·.table.width) hd.session, hlimit⟩
  | evict config env =>
    rcases evict_spec h with rfl | he
    · exact ⟨rfl, rfl⟩
    · obtain ⟨req, state, hs'⟩ := he.session
      exact ⟨he.width, congrArg (·.state.contextLimit) hs'⟩
  | park | finish | abort =>
    cases h
    exact ⟨rfl, rfl⟩

theorem Within.step (hs : s.Within) (hrow : s.contextLimit ≤ s.table.width) (hop : s.Enabled op)
    (h : s.step refresh op = .ok s') : s'.Within := by
  cases op with
  | prefill row slots token =>
    obtain ⟨hc, hprompt, -, -, hfits⟩ := hop
    exact within_prefill hs hrow hc hprompt hfits h
  | extend segment records slots token =>
    obtain ⟨-, hprefilled, -, hi, hsls⟩ := hop
    exact within_extend hrefresh hs hrow hprefilled hi hsls h
  | launch slot =>
    obtain ⟨hc, hprefilled, -, ha, -⟩ := hop
    exact within_launch hs hc hprefilled ha h
  | resolve token lookahead keepsSlot =>
    obtain ⟨hc, hone, -⟩ := hop
    exact within_resolve hs hc (hs.prefilled_of_launched hc hone) hone h
  | park =>
    obtain ⟨hc, hprefilled, -, hlast⟩ := hop
    cases h
    have hr := hs.running hc hprefilled
    obtain ⟨ahead, hspare, hlaunched, -, -⟩ := hr.spare
    exact .of_running hs.writes hprefilled
      { spare := ⟨ahead, ⟨hspare.allocated, hspare.row, hspare.context⟩, hlaunched,
          fun h => absurd h (by simp [LiveSession.park]),
          fun _ h => absurd h (by simp [LiveSession.park])⟩
        parked := fun _ => hlast
        count := hr.count
        plain := hr.plain }
  | evict config env =>
    obtain ⟨hc, hprefilled, -, hi⟩ := hop
    exact within_evict hs hc hprefilled hi h
  | finish =>
    obtain ⟨hc, hprefilled, ha, -⟩ := hop
    cases h
    have hr := hs.running hc hprefilled
    obtain ⟨ahead, hspare, hlaunched, hcnt, hexact⟩ := hr.spare
    exact .of_running hs.writes hprefilled
      { spare := ⟨ahead, ⟨hspare.allocated, hspare.row, hspare.context⟩, hlaunched,
          fun _ => hcnt ha, fun happ _ => hexact happ ha⟩
        parked := fun h => absurd h (by simp [LiveSession.finish])
        count := hr.count
        plain := hr.plain }
  | abort =>
    cases h
    exact hs.abort hs.writes

omit [Sub τ] [DecidableLT τ] in
/-- What a step that raises has written is within the row too. -/
theorem attempted_within (hs : s.Within) (hrow : s.contextLimit ≤ s.table.width)
    (hop : s.Enabled op) : ∀ e ∈ s.attempted refresh op, e ≤ s.table.width := by
  intro e he
  cases op with
  | prefill row slots token =>
    obtain ⟨hc, hprompt, -, -, hfits⟩ := hop
    rw [List.mem_singleton.1 he]
    exact (hfits.trans (Nat.le_succ _)).trans ((hs.prompting hc hprompt).fits.trans hrow)
  | extend segment records slots token =>
    obtain ⟨-, -, -, -, hsls⟩ := hop
    dsimp only [attempted] at he
    split at he
    · next appended hmaterialize =>
      have hmat := materialize_eq_ok hrefresh hmaterialize
      rw [List.mem_singleton.1 he, hmat.extendStart, hsls]
      exact (Nat.le_succ _).trans (hmat.fitsContext.trans hrow)
    · exact absurd he List.not_mem_nil
  | launch | resolve | park | evict | finish | abort => exact absurd he List.not_mem_nil

end

end Window

end LiveSession

/-- In every run of an admitted request no step writes past the width of its row, and the tokens
    and the positions of the context stay within its limit. Upstream's row is as wide as the
    context. -/
theorem capacity_guards_hold {τ P : Type} [Zero τ] [Sub τ] [LT τ] [DecidableLT τ]
    {refresh : List Int → List Int → List Int} (hrefresh : LiveSession.Refreshes refresh)
    {s₀ s : LiveSession τ P} {ops : List (LiveOp τ P)} (hadmitted : s₀.Admitted)
    (hrow : s₀.contextLimit ≤ s₀.table.width) (hrun : (liveSystem refresh).Run s₀ ops s) :
    (∀ e ∈ s.writes, e ≤ s₀.table.width) ∧ s.tokenTotal + 1 ≤ s₀.contextLimit ∧
      s.tokenCount ≤ s₀.contextLimit := by
  have hinv : s.table.width = s₀.table.width ∧ s.contextLimit = s₀.contextLimit ∧ s.Within := by
    refine hrun.invariant (P := fun s => s.table.width = s₀.table.width ∧
      s.contextLimit = s₀.contextLimit ∧ s.Within) ?_ ⟨rfl, rfl, .initial hadmitted⟩
    rintro s op t ⟨hwidth, hlimit, hs⟩ ⟨hstep, hop⟩
    cases hstep
    have hrow' : s.contextLimit ≤ s.table.width := by rwa [hwidth, hlimit]
    unfold LiveSession.apply
    split
    · next s' hok =>
      obtain ⟨hw, hl⟩ := LiveSession.bounds_of_step hrefresh hop hok
      exact ⟨hw.trans hwidth, hl.trans hlimit, hs.step hrefresh hrow' hop hok⟩
    · refine ⟨hwidth, hlimit, hs.abort fun e he => ?_⟩
      rcases List.mem_append.1 he with hold | hnew
      · exact hs.writes e hold
      · exact LiveSession.attempted_within hrefresh hs hrow' hop e hnew
  obtain ⟨hwidth, hlimit, hs⟩ := hinv
  rw [← hwidth, ← hlimit]
  exact ⟨hs.writes, hs.tokens, hs.count⟩

/-- A prompt of two tokens in a row of eight positions. -/
def exLiveSession : LiveSession Int Unit where
  req := { rid := "req-1", originInputIds := [5, 6], outputIds := [], fullUntruncatedFillIds := []
           maxNewTokens := 4, pageRow := [] }
  state := { requestId := "req-1" }
  table := ⟨8, [[0, 0, 0, 0, 0, 0, 0, 0]], by decide⟩
  kvPool := ()
  accounting := some {}

theorem exLiveSession_admitted : exLiveSession.Admitted where
  fresh := ⟨rfl, rfl, rfl, rfl, rfl, rfl⟩
  state := ⟨rfl, rfl, rfl, rfl, rfl, rfl⟩
  flags := ⟨rfl, rfl, rfl, rfl, rfl, rfl, rfl⟩
  accounting := fun a h => (Option.some.inj h).symm
  prompt := by decide

def exTextSegment : MossVLRealtimeSegment where
  events := []
  eventInputIds := [9]
  encoderPadIds := []
  fullGridThw := []
  multimodalInputs :=
    { numImageTokens := some 0, mropePositions := some [0, 6], visibleFrameCounts := some [0]
      mmItems := [{ addedFrames := some 0 }] }

def exLiveRun : LiveSession Int Unit :=
  ((exLiveSession.apply (· ++ ·) (.prefill 0 [1, 2] 7)).apply (· ++ ·)
    (.extend exTextSegment none [3, 4] 8)).apply (· ++ ·) (.launch 5)

theorem capacity_guards_hold_extended :
    exLiveRun.writes = [2, 4, 4, 5] ∧ (∀ e ∈ exLiveRun.writes, e ≤ 8) ∧
      exLiveRun.tokenTotal + 1 ≤ 8 ∧ exLiveRun.tokenCount ≤ 8 := by
  have hrefresh : LiveSession.Refreshes (· ++ ·) := fun _ _ => rfl
  refine ⟨rfl, capacity_guards_hold hrefresh exLiveSession_admitted (by decide)
    (.snoc (.snoc (.snoc (.nil _) ⟨rfl, ?_⟩) ⟨rfl, ?_⟩) ⟨rfl, ?_⟩)⟩
  · exact ⟨rfl, rfl, by simp, .inl rfl, by decide⟩
  · exact ⟨rfl, rfl, rfl, rfl, rfl⟩
  · exact ⟨rfl, rfl, rfl, rfl, Nat.zero_le _⟩

end OmniRealtime
