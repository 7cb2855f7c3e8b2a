import OmniRealtime.Vision.LiveSession

/-!
# Steps of a live request

What each step does to the lengths, the tokens and the accounting of a request.

1. `extendOne_eq_ok`: a batch of one request, prepared and committed.
2. `extend_spec`, `prefill_spec`, `launch_spec`, `resolve_spec`, `evict_spec`: the steps.
-/

namespace OmniRealtime

open RealtimeAccounting ReqToToken

section One

variable {τ : Type} {r : ExtendRequest τ} {t : ReqToToken} {seqLen : Nat}

/-! ## A batch of one request -/

theorem bindIndex_state {r bound : ExtendRequest τ} (h : r.bindIndex = .ok bound) :
    ∃ i, r.req.reqPoolIdx = some i ∧
      bound = { r with state := { r.state with reqPoolIndex := some i } } := by
  unfold ExtendRequest.bindIndex at h
  split at h
  · cases h
  · next i hi =>
    obtain ⟨state, hs, hok⟩ := bind_eq_ok.1 h
    cases hok
    have hs := raisedAs_eq_ok.1 hs
    unfold MossVLRealtimeRuntimeState.bindReqPoolIndex at hs
    split at hs
    · cases hs
    · cases hs
      exact ⟨i, hi, rfl⟩

theorem buildPlan_lengths {out : List Int} {ids : List Int} {plan : RealtimeExtendPlan}
    (h : buildPlan t out r ids seqLen 0 = .ok plan) :
    plan.newEncoderSlots.length + plan.newDecoderSlots.length =
      r.req.extendEnd - r.req.extendStart := by
  dsimp only [buildPlan] at h
  split at h; · cases h
  next hback =>
  split at h; · cases h
  next htext =>
  split at h; · cases h
  split at h; · cases h
  split at h; · cases h
  split at h; · cases h
  split at h; · cases h
  next hsls =>
  cases h
  have hlen := not_not.1 hsls
  have hlead : (if r.state.pendingTokenId.isSome = true then 1 else 0) ≤ 1 := by
    split <;> simp
  generalize (if r.state.pendingTokenId.isSome = true then 1 else 0) = lead at hlead ⊢
  simp only [List.length_take, List.length_drop, List.length_append] at hlen ⊢
  omega

/-- What a prepared and committed batch does to its one request. -/
structure ExtendedOne (r r' : ExtendRequest τ) : Prop where
  state : ∃ e d surviving appended next, r'.state =
    { r.state with
      reqPoolIndex := r.req.reqPoolIdx
      encoderLength := r.state.encoderLength + e
      decoderLength := r.state.decoderLength + d
      survivingFrameCount := surviving
      appendedEncoderLength := some appended
      nextMropePosition := next
      appendInflight := false
      phase := .decoding } ∧
    e + d = r.req.extendEnd - r.req.extendStart ∧
    appended = r.state.effectiveAppendedEncoderLength + e
  req : ∃ start logprob, r'.req =
    { r.req with
      extendStart := start
      logprobStartLen := logprob
      kvAllocatedLen := r.req.kvAllocatedLen.map fun _ => r'.state.committedLength
      kvCommittedLen := r.req.kvCommittedLen.map fun _ => r'.state.committedLength }
  pool : r.req.reqPoolIdx ≠ none

theorem failPrepare_ne_ok (b : ExtendBatch τ) (e : AdapterError) :
    (failPrepare b e).2 ≠ .ok () := by
  dsimp only [failPrepare]
  split
  · simp
  · simp

/-- A request whose transaction has begun, with the metadata of its plan. -/
def installed (r : ExtendRequest τ) (plan : RealtimeExtendPlan) : ExtendRequest τ :=
  { r with req := { r.req with
      extendStart := r.req.extendStart + plan.newEncoderSlots.length
      logprobStartLen := max r.req.logprobStartLen plan.totalEncoderLength } }

theorem prepareExtend_one {slots : List Int} {ids : List Int}
    (h : (prepareExtend { reqs := [r], reqToToken := t, outCacheLoc := slots } [ids]
      [seqLen]).2 = .ok ()) : ∃ bound plan t' r', r.bindIndex = .ok bound ∧
      buildPlan t slots bound.adoptPrefix ids seqLen 0 = .ok plan ∧
      beginOne t bound.adoptPrefix plan = .ok (t', r') ∧
      (prepareExtend { reqs := [r], reqToToken := t, outCacheLoc := slots } [ids]
        [seqLen]).1.reqs = [installed r' plan] ∧
      (prepareExtend { reqs := [r], reqToToken := t, outCacheLoc := slots } [ids]
        [seqLen]).1.reqToToken = t' := by
  unfold prepareExtend at h ⊢
  simp only [List.isEmpty_cons, Bool.false_eq_true, if_false, List.length_singleton, ne_eq,
    not_true_eq_false, or_self] at h ⊢
  cases hbound : r.bindIndex with
  | error e =>
    simp only [buildPlans, hbound] at h
    exact absurd h (failPrepare_ne_ok _ _)
  | ok bound =>
    cases hplan : buildPlan t slots bound.adoptPrefix ids seqLen 0 with
    | error e =>
      simp only [buildPlans, hbound, hplan] at h
      exact absurd h (failPrepare_ne_ok _ _)
    | ok plan =>
      simp only [buildPlans, hbound, hplan] at h ⊢
      by_cases htail : 0 + (r.req.extendEnd - r.req.extendStart) ≠ slots.length
      · rw [if_pos htail] at h
        exact absurd h (failPrepare_ne_ok _ _)
      · rw [if_neg htail] at h ⊢
        simp only [Except.map] at h ⊢
        cases hbegin : beginOne t bound.adoptPrefix plan with
        | error e =>
          simp only [beginAll, hbegin] at h
          exact absurd h (failPrepare_ne_ok _ _)
        | ok begun =>
          obtain ⟨t', r'⟩ := begun
          refine ⟨bound, plan, t', r', rfl, hplan, hbegin, ?_, ?_⟩
          · simp only [beginAll, hbegin]
            rfl
          · simp only [beginAll, hbegin]
            rfl

theorem commitBatch_one {b : ExtendBatch τ} {r : ExtendRequest τ} (hreqs : b.reqs = [r])
    (h : (commitBatch b).2 = .ok ()) : ∃ t' r', commitOne b.reqToToken r = .ok (t', r') ∧
      (commitBatch b).1.reqs = [r'] ∧ (commitBatch b).1.reqToToken = t' := by
  unfold commitBatch at h ⊢
  rw [hreqs] at h ⊢
  cases hcom : commitOne b.reqToToken r with
  | error e =>
    simp only [commitAll, hcom] at h
    cases h
  | ok done =>
    obtain ⟨t', r'⟩ := done
    refine ⟨t', r', rfl, ?_, ?_⟩
    · simp only [commitAll, hcom]
    · simp only [commitAll, hcom]

theorem extendOne_eq_ok {slots : List Int}
    {ids : List Int} (hmedia : r.req.multimodalInputs ≠ none)
    (hprepared : (prepareExtend { reqs := [r], reqToToken := t, outCacheLoc := slots } [ids]
      [seqLen]).2 = .ok ())
    (hcommitted : (commitBatch (prepareExtend { reqs := [r], reqToToken := t, outCacheLoc := slots }
      [ids] [seqLen]).1).2 = .ok ()) :
    ∃ r', (commitBatch (prepareExtend { reqs := [r], reqToToken := t, outCacheLoc := slots }
        [ids] [seqLen]).1).1.reqs = [r'] ∧
      (commitBatch (prepareExtend { reqs := [r], reqToToken := t, outCacheLoc := slots }
        [ids] [seqLen]).1).1.reqToToken.width = t.width ∧ ExtendedOne r r' := by
  obtain ⟨bound, plan, t', r', hbound, hplan, hbegin, hreqs, htable⟩ := prepareExtend_one hprepared
  obtain ⟨t'', r'', hcom, hreqs', htable'⟩ := commitBatch_one hreqs hcommitted
  obtain ⟨i, hi, rfl⟩ := bindIndex_state hbound
  -- A request with media does not adopt a prefix.
  have hadopt : ExtendRequest.adoptPrefix
      { r with state := { r.state with reqPoolIndex := some i } } =
      { r with state := { r.state with reqPoolIndex := some i } } :=
    if_neg fun h => hmedia h.2.2.1
  rw [hadopt] at hplan hbegin
  unfold beginOne at hbegin
  obtain ⟨added, -, hbegun⟩ := bind_eq_ok.1 hbegin
  obtain ⟨⟨tx, state, t₁⟩, happend, hok⟩ := bind_eq_ok.1 hbegun
  cases hok
  obtain ⟨j, -, -, hread, hwrt, henc, hdec, -, -, -, -, -, rfl⟩ :=
    beginKvAppend_eq_ok (raisedAs_eq_ok.1 happend)
  obtain ⟨-, -, henclen, hdeclen, -⟩ := read_eq_ok.1 hread
  unfold commitOne at hcom
  obtain ⟨⟨tx', state⟩, hdone, hok⟩ := bind_eq_ok.1 hcom
  obtain ⟨-, -, rfl⟩ := commit_eq_ok (raisedAs_eq_ok.1 hdone)
  have hlengths := buildPlan_lengths hplan
  have hencafter : tx.after.encoderLength = r.state.encoderLength + plan.newEncoderSlots.length := by
    rw [MossVLRealtimeKVLayout.encoderLength, henc, List.length_append]
    exact congrArg (· + _) henclen
  have hdecafter : tx.after.decoderLength = r.state.decoderLength + plan.newDecoderSlots.length := by
    rw [MossVLRealtimeKVLayout.decoderLength, hdec, List.length_append]
    exact congrArg (· + _) hdeclen
  have hw : t'.width = t.width := (write_eq_ok hwrt).2.2.1
  have hdelta : tx.after.encoderLength - tx.before.encoderLength = plan.newEncoderSlots.length := by
    rw [hencafter, henclen]
    exact Nat.add_sub_cancel_left _ _
  refine ⟨r'', hreqs', ?_, ?_⟩
  · rw [htable']
    cases hok
    rw [htable]
    exact hw
  · cases hok
    refine ⟨⟨plan.newEncoderSlots.length, plan.newDecoderSlots.length,
      r.state.survivingFrameCount + tx.addedFrames,
      r.state.effectiveAppendedEncoderLength + plan.newEncoderSlots.length,
      tx.stagedNextMropePosition, ?_, hlengths, rfl⟩,
      ⟨r.req.extendStart + plan.newEncoderSlots.length,
        max r.req.logprobStartLen plan.totalEncoderLength, rfl⟩, by rw [hi]; simp⟩
    show ({ r.state with
      reqPoolIndex := some i
      encoderLength := tx.after.encoderLength
      decoderLength := tx.after.decoderLength
      survivingFrameCount := r.state.survivingFrameCount + tx.addedFrames
      appendedEncoderLength := some (r.state.appendedEncoderLength.getD tx.before.encoderLength +
        (tx.after.encoderLength - tx.before.encoderLength))
      nextMropePosition := tx.stagedNextMropePosition
      appendInflight := false
      phase := .decoding } : MossVLRealtimeRuntimeState τ) = _
    rw [hdelta, hencafter, hdecafter, henclen, hi]
    rfl

end One

namespace LiveSession

variable {τ P : Type} {s s' : LiveSession τ P}

/-! ## Appending -/

/-- Upstream's `_refresh_fill_ids`: the prompt and what came behind it. -/
def Refreshes (refresh : List Int → List Int → List Int) : Prop :=
  ∀ origin output, refresh origin output = origin ++ output

variable {segment : MossVLRealtimeSegment} {records : Option (List (RealtimeFrameRecord τ))}
  {slots : List Int} {u : LiveSession τ P} {vision textInput : Int}

theorem guardContextCapacity_eq_ok {u : Unit} (h : s.guardContextCapacity segment = .ok u) :
    s.tokenTotal + segment.rawAppendIds.length + 2 ≤ s.contextLimit ∧
      s.kvTotal + segment.rawAppendIds.length + 1 ≤ s.table.width := by
  dsimp only [guardContextCapacity] at h
  split at h
  · cases h
  · next hf => exact ⟨Nat.le_of_not_lt fun h => hf (.inl h), Nat.le_of_not_lt fun h => hf (.inr h)⟩

theorem append_pending {refresh : List Int → List Int → List Int} {req req' : SegmentReq τ}
    {state state' : AppendState τ}
    (h : appendSegmentToRequest refresh req state segment = .ok (req', state')) :
    (refresh req.originInputIds req.outputIds).length =
      state.effectiveAppendedEncoderLength + state.decoderLength + 1 := by
  dsimp only [appendSegmentToRequest] at h
  split at h
  · cases h
  · next hp => exact not_not.1 hp

/-- A request with a segment behind its tokens, ready for its extend. -/
structure Materialized (s : LiveSession τ P) (segment : MossVLRealtimeSegment)
    (s' : LiveSession τ P) : Prop where
  fitsContext : s.tokenTotal + segment.rawAppendIds.length + 2 ≤ s.contextLimit
  fitsRow : s.kvTotal + segment.rawAppendIds.length + 1 ≤ s.table.width
  pending : s.tokenCount = s.tokenTotal + 1
  session : s' = { s with req := s'.req, state := s'.state }
  state : ∃ token allowance, s'.state =
    { s.state with pendingTokenId := some token, decodeAllowance := some allowance }
  origin : s'.req.originInputIds = s.req.originInputIds
  output : s'.req.outputIds = s.req.outputIds ++ segment.rawAppendIds
  pool : s'.req.reqPoolIdx = s.req.reqPoolIdx
  media : s'.req.multimodalInputs = some segment.multimodalInputs
  extendStart : s'.req.extendStart = s.tokenTotal
  extendEnd : s'.req.extendEnd = s.tokenTotal + segment.rawAppendIds.length + 1

theorem materialize_eq_ok {refresh : List Int → List Int → List Int} (hrefresh : Refreshes refresh)
    (h : s.materialize refresh segment records = .ok s') : Materialized s segment s' := by
  unfold materialize at h
  obtain ⟨u, hgrd, h₁⟩ := bind_eq_ok.1 h
  obtain ⟨⟨req, state⟩, happend, hok⟩ := bind_eq_ok.1 h₁
  have happend := raisedAs_eq_ok.1 happend
  obtain ⟨hcontext, hrow⟩ := guardContextCapacity_eq_ok hgrd
  have hp := append_pending happend
  obtain ⟨positions, counts, allowance, -, hreq, hs⟩ := append_eq_ok happend
  dsimp only at hp hreq hs
  rw [hrefresh, List.length_append] at hp
  have hlast : ∃ token, (refresh s.req.originInputIds s.req.outputIds).getLast? = some token := by
    rw [hrefresh]
    refine Option.isSome_iff_exists.1 (List.getLast?_isSome.2 fun hnil => ?_)
    have hlen := congrArg List.length hnil
    rw [List.length_append, List.length_nil, hp] at hlen
    cases hlen
  obtain ⟨token, htoken⟩ := hlast
  have hend : (refresh s.req.originInputIds (s.req.outputIds ++ segment.rawAppendIds)).length =
      s.tokenTotal + segment.rawAppendIds.length + 1 := by
    rw [hrefresh, List.length_append, List.length_append, ← add_assoc, hp]
    exact add_right_comm _ _ _
  cases hok
  subst hreq hs
  refine ⟨hcontext, hrow, hp, rfl, ⟨token, allowance, ?_⟩, ?_, ?_, ?_, ?_, ?_, ?_⟩
  · dsimp only
    rw [htoken]
  all_goals cases records
  all_goals first | rfl | exact hend

/-! ## Results -/

/-- The accounting after a step that adds `n` tokens; none where none was asked for. -/
def Counted (a a' : Option RealtimeAccounting) (n : Int) : Prop :=
  match a with
  | none => a' = none
  | some a => ∃ b, a' = some b ∧ (a.outputStep ≤ a.step →
      b.totalTokens = a.totalTokens + n ∧ b.frozen = false ∧ b.outputStep = b.step)

theorem commit_then_sampled {a b c : RealtimeAccounting} (hsteps : a.outputStep ≤ a.step)
    (hcom : a.commit vision textInput = .ok b) (hsampled : b.sampled = .ok c) :
    c.totalTokens = a.totalTokens + (vision + textInput + 1) ∧ c.frozen = false ∧
      c.outputStep = c.step := by
  unfold commit at hcom
  split at hcom
  · cases hcom
  split at hcom
  · cases hcom
  cases hcom
  unfold sampled at hsampled
  split at hsampled
  · cases hsampled
  next hfrozen =>
  dsimp only at hsampled hfrozen
  rw [if_neg (Nat.succ_ne_zero _), if_pos (Nat.ne_of_lt (Nat.lt_succ_of_le hsteps))] at hsampled
  cases hsampled
  refine ⟨?_, Bool.eq_false_iff.2 hfrozen, rfl⟩
  unfold totalTokens
  ring

theorem emit_eq_ok (h : s.emit = .ok s') : ∃ report accounting,
    s' = { s with accounting := accounting, reports := s.reports ++ [report] } := by
  unfold emit at h
  split at h
  · cases h
    exact ⟨_, none, rfl⟩
  · obtain ⟨accounting, -, hok⟩ := bind_eq_ok.1 h
    cases hok
    exact ⟨_, accounting, rfl⟩

theorem commit_then_emit (hcom : s.commitAccounting vision textInput = .ok u)
    (he : u.emit = .ok s') :
    ∃ report accounting, s' = { s with accounting := accounting, reports := s.reports ++ [report] } ∧
      Counted s.accounting accounting (vision + textInput + 1) ∧
      report.totalTokens = accounting.map totalTokens ∧
      report.tokenSpaceUsed = s.tokenTotal + 1 := by
  unfold commitAccounting at hcom
  cases ha : s.accounting with
  | none =>
    rw [ha] at hcom
    cases hcom
    unfold emit at he
    rw [ha] at he
    cases he
    exact ⟨_, _, rfl, rfl, rfl, rfl⟩
  | some a =>
    rw [ha] at hcom
    obtain ⟨b, hb, hok⟩ := bind_eq_ok.1 hcom
    cases hok
    have hb := raisedAs_eq_ok.1 hb
    unfold emit at he
    obtain ⟨c, hc, hok⟩ := bind_eq_ok.1 he
    cases hok
    obtain ⟨d, hd, rfl⟩ := map_eq_ok.1 (raisedAs_eq_ok.1 hc)
    exact ⟨_, _, rfl, ⟨d, rfl, fun hsteps => commit_then_sampled hsteps hb hd⟩, rfl, rfl⟩

theorem takeStaged_records (h : s.req.stagedFrameRecords = none) :
    s.takeStaged.state.frameRecords = s.state.frameRecords := by
  unfold takeStaged
  rw [h]

theorem bindPrefill_of_bound {seqLen : Nat} (hbound : s.state.reqPoolIndex ≠ none) :
    s.bindPrefill seqLen = s := by
  obtain ⟨i, hi⟩ := Option.ne_none_iff_exists'.1 hbound
  unfold bindPrefill
  rw [hi]

theorem bindPrefill_state (hpool : s.req.reqPoolIdx ≠ none) (seqLen : Nat) :
    ∃ state, s.bindPrefill seqLen = { s with state := state } ∧
      state.encoderLength = s.state.encoderLength ∧
      state.appendedEncoderLength = s.state.appendedEncoderLength ∧
      state.contextLimit = s.state.contextLimit ∧
      state.decoderLength =
        (if s.state.reqPoolIndex = none then seqLen else s.state.decoderLength) ∧
      state.phase = (if s.state.reqPoolIndex = none then .decoding else s.state.phase) ∧
      state.frameRecords = s.state.frameRecords ∧ state.reqPoolIndex ≠ none := by
  unfold bindPrefill
  cases hidx : s.state.reqPoolIndex with
  | none => exact ⟨_, rfl, rfl, rfl, rfl, rfl, rfl, rfl, hpool⟩
  | some i =>
    exact ⟨s.state, rfl, rfl, rfl, rfl, (if_neg (by simp)).symm, (if_neg (by simp)).symm, rfl,
      by rw [hidx]; simp⟩

/-- A forward, committed and streamed: the accounting gains what the row does, and the sampled
    token in the place of the one that was pending. -/
theorem postPrefill_then_emit {before : LiveSession τ P} {seqLen : Nat} {w : LiveSession τ P}
    (hpost : s.postPrefill before seqLen = .ok w) (he : w.emit = .ok s') :
    ∃ report accounting, s' = { (s.bindPrefill seqLen).takeStaged with
        accounting := accounting, reports := s.reports ++ [report] } ∧
      Counted s.accounting accounting (((s.bindPrefill seqLen).tokenTotal : Int) -
        before.tokenTotal - (if before.state.pendingTokenId.isSome then 1 else 0) + 1) ∧
      report.totalTokens = accounting.map totalTokens ∧
      report.tokenSpaceUsed = (s.bindPrefill seqLen).tokenTotal + 1 := by
  have hk : (s.bindPrefill seqLen).accounting = s.accounting ∧
      (s.bindPrefill seqLen).reports = s.reports := by
    unfold bindPrefill
    split
    · exact ⟨rfl, rfl⟩
    · exact ⟨rfl, rfl⟩
  rw [← hk.1, ← hk.2]
  unfold postPrefill at hpost
  generalize s.bindPrefill seqLen = bound at hpost ⊢
  obtain ⟨report, accounting, rfl, hcnt, hrep⟩ :=
    commit_then_emit (s := bound.takeStaged) hpost he
  refine ⟨report, accounting, rfl, ?_, hrep⟩
  have hval : (bound.state.effectiveAppendedEncoderLength : Int) -
      before.state.effectiveAppendedEncoderLength + (bound.state.decoderLength -
        before.state.decoderLength - if before.state.pendingTokenId.isSome then 1 else 0) + 1 =
      (bound.tokenTotal : Int) - before.tokenTotal -
        (if before.state.pendingTokenId.isSome then 1 else 0) + 1 := by
    unfold tokenTotal
    rw [Nat.cast_add, Nat.cast_add]
    ring
  exact hval ▸ hcnt

/-! ## Extends -/

/-- What a step leaves of a session as it was. -/
structure SameFlags (s s' : LiveSession τ P) : Prop where
  width : s'.table.width = s.table.width
  contextLimit : s'.state.contextLimit = s.state.contextLimit
  origin : s'.req.originInputIds = s.req.originInputIds
  prefilled : s'.prefilled = s.prefilled
  finished : s'.finished = s.finished
  closed : s'.closed = s.closed

theorem runExtend_eq_ok (hmedia : s.req.multimodalInputs ≠ none) (h : s.runExtend slots = .ok s') :
    ∃ r, ExtendedOne (s.allocForExtend slots).extendRequest r ∧
      s' = (s.allocForExtend slots).putExtend s'.table r ∧ s'.table.width = s.table.width := by
  unfold runExtend at h
  obtain ⟨u, hprepared, h₁⟩ := bind_eq_ok.1 h
  obtain ⟨v, hcommitted, h₂⟩ := bind_eq_ok.1 h₁
  obtain ⟨r, hreqs, hw, hone⟩ :=
    extendOne_eq_ok (r := (s.allocForExtend slots).extendRequest) hmedia
      (raisedAs_eq_ok.1 hprepared) (raisedAs_eq_ok.1 hcommitted)
  rw [hreqs] at h₂
  cases h₂
  exact ⟨r, hone, rfl, hw⟩

/-- A request whose row holds a segment of `n` tokens: `e` of the encoder, `d` of the decoder. -/
structure Committed (s : LiveSession τ P) (n e d : Nat) (s' : LiveSession τ P) : Prop where
  session : s' = { s with
    table := s'.table, req := s'.req, state := s'.state,
    writes := s.writes ++ [s.tokenTotal + n + 1] }
  width : s'.table.width = s.table.width
  sum : e + d = n + 1
  state : ∃ surviving next pending allowance, s'.state =
    { s.state with
      reqPoolIndex := s.req.reqPoolIdx
      encoderLength := s.state.encoderLength + e
      decoderLength := s.state.decoderLength + d
      survivingFrameCount := surviving
      nextMropePosition := next
      appendedEncoderLength := some (s.state.effectiveAppendedEncoderLength + e)
      pendingTokenId := some pending
      decodeAllowance := some allowance
      appendInflight := false
      phase := .decoding }
  origin : s'.req.originInputIds = s.req.originInputIds
  output : s'.req.outputIds.length = s.req.outputIds.length + n
  pool : s'.req.reqPoolIdx = s.req.reqPoolIdx ∧ s.req.reqPoolIdx ≠ none
  allocated : s'.req.kvAllocatedLen = some s'.kvTotal

theorem committed_of_ok (hsls : slots.length = segment.rawAppendIds.length + 1)
    (hmat : Materialized s segment u) (h : u.runExtend slots = .ok s') :
    ∃ e d, Committed s segment.rawAppendIds.length e d s' := by
  have hmedia : u.req.multimodalInputs ≠ none := by rw [hmat.media]; simp
  obtain ⟨r, hone, hs', hw⟩ := runExtend_eq_ok hmedia h
  obtain ⟨pending, allowance, hs⟩ := hmat.state
  obtain ⟨e, d, surviving, appended, next, hr, hsum, happended⟩ := hone.state
  obtain ⟨start, logprob, hreq⟩ := hone.req
  have hsum : e + d = segment.rawAppendIds.length + 1 := by
    rw [hsum]
    show u.req.extendEnd - u.req.extendStart = _
    rw [hmat.extendStart, hmat.extendEnd, add_assoc, Nat.add_sub_cancel_left]
  have hwrites : u.writes ++ [u.req.extendStart + slots.length] =
      s.writes ++ [s.tokenTotal + segment.rawAppendIds.length + 1] := by
    rw [hmat.session, hmat.extendStart, hsls, add_assoc]
  have hpool : r.req.reqPoolIdx = s.req.reqPoolIdx := by
    rw [hreq]
    exact hmat.pool
  have hsession : s' = { s with
      table := s'.table, req := s'.req, state := s'.state,
      writes := s.writes ++ [s.tokenTotal + segment.rawAppendIds.length + 1] } := by
    rw [← hwrites, hs', hmat.session]
    rfl
  refine ⟨e, d, hsession, ?_, hsum, ⟨surviving, next, pending, allowance, ?_⟩, ?_, ?_, ⟨?_, ?_⟩, ?_⟩
  · rw [hw, hmat.session]
  · rw [hs']
    show { u.state with toMossVLRealtimeRuntimeState := r.state } = _
    rw [hr, happended, ← hmat.pool]
    show { u.state with
      reqPoolIndex := u.req.reqPoolIdx
      encoderLength := u.state.encoderLength + e
      decoderLength := u.state.decoderLength + d
      survivingFrameCount := surviving
      nextMropePosition := next
      appendedEncoderLength := some (u.state.effectiveAppendedEncoderLength + e)
      appendInflight := false
      phase := .decoding } = _
    rw [hs]
    rfl
  · rw [hs']
    exact hmat.origin
  · rw [hs']
    show u.req.outputIds.length = _
    rw [hmat.output, List.length_append]
  · rw [hs']
    exact hpool
  · rw [← hmat.pool]
    exact hone.pool
  · rw [hs']
    show r.req.kvAllocatedLen = some r.state.committedLength
    rw [hreq]
    rfl

/-- A segment of `n` tokens has been extended. -/
structure Extended (s : LiveSession τ P) (n : Nat) (s' : LiveSession τ P) : Prop where
  flags : SameFlags s s'
  fitsContext : s.tokenTotal + n + 2 ≤ s.contextLimit
  fitsRow : s.kvTotal + n + 1 ≤ s.table.width
  pending : s.tokenCount = s.tokenTotal + 1
  awake : s'.parked = false
  launched : s'.launched = s.launched
  encoder : ∃ e, s'.state.encoderLength = s.state.encoderLength + e ∧
    s'.state.appendedEncoderLength = some (s.state.effectiveAppendedEncoderLength + e)
  kvTotal : s'.kvTotal = s.kvTotal + n + 1
  tokenTotal : s'.tokenTotal = s.tokenTotal + n + 1
  tokenCount : s'.tokenCount = s.tokenCount + n + 1
  bound : s'.state.reqPoolIndex = s.req.reqPoolIdx ∧ s.req.reqPoolIdx ≠ none
  pool : s'.req.reqPoolIdx = s.req.reqPoolIdx
  allocated : s'.req.kvAllocatedLen = some s'.kvTotal
  phase : s'.state.phase = .decoding
  writes : s'.writes = s.writes ++ [s.tokenTotal + n + 1] ++ [s.kvTotal + n + 1]
  counted : Counted s.accounting s'.accounting (n + 1) ∧
    ∃ report, s'.reports = s.reports ++ [report] ∧
      report.totalTokens = s'.accounting.map RealtimeAccounting.totalTokens ∧
      report.tokenSpaceUsed = s'.tokenTotal + 1

theorem extend_spec {refresh : List Int → List Int → List Int} (hrefresh : Refreshes refresh)
    {token : Int} (hsls : slots.length = segment.rawAppendIds.length + 1)
    (h : s.extend refresh segment records slots token = .ok s') :
    Extended s segment.rawAppendIds.length s' := by
  unfold extend at h
  obtain ⟨u, hmaterialize, h₁⟩ := bind_eq_ok.1 h
  obtain ⟨v, hrun, h₂⟩ := bind_eq_ok.1 h₁
  obtain ⟨w, hpost, h₃⟩ := bind_eq_ok.1 h₂
  obtain ⟨x, he, hok⟩ := bind_eq_ok.1 h₃
  cases hok
  have hmat := materialize_eq_ok hrefresh hmaterialize
  obtain ⟨e, d, hv⟩ := committed_of_ok hsls hmat hrun
  obtain ⟨token', allowance', hbef⟩ := hmat.state
  obtain ⟨surviving, next, pending, allowance, hs⟩ := hv.state
  have hbound : v.state.reqPoolIndex ≠ none := by
    rw [hs]
    exact hv.pool.2
  have hsame : v.accounting = s.accounting ∧ v.reports = s.reports ∧ v.launched = s.launched ∧
      v.prefilled = s.prefilled ∧ v.finished = s.finished ∧ v.closed = s.closed ∧
      v.writes = s.writes ++ [s.tokenTotal + segment.rawAppendIds.length + 1] := by
    rw [hv.session]
    exact ⟨rfl, rfl, rfl, rfl, rfl, rfl, rfl⟩
  obtain ⟨haccounting, hreports, hlaunched, hpre, hfin, hcl, hwrites⟩ := hsame
  obtain ⟨report, accounting, rfl, hcnt, hrep, hused⟩ :=
    postPrefill_then_emit hpost he
  rw [bindPrefill_of_bound hbound] at hcnt hused ⊢
  have henc : v.state.encoderLength = s.state.encoderLength + e := by rw [hs]
  have hdec : v.state.decoderLength = s.state.decoderLength + d := by rw [hs]
  have happ : v.state.appendedEncoderLength = some (s.state.effectiveAppendedEncoderLength + e) := by
    rw [hs]
  have heff : v.state.effectiveAppendedEncoderLength =
      s.state.effectiveAppendedEncoderLength + e := by
    show v.state.appendedEncoderLength.getD _ = _
    rw [happ]
    rfl
  have hkv : v.kvTotal = s.kvTotal + segment.rawAppendIds.length + 1 := by
    rw [kvTotal, henc, hdec, Nat.add_add_add_comm, hv.sum]
    rfl
  have htot : v.tokenTotal = s.tokenTotal + segment.rawAppendIds.length + 1 := by
    rw [tokenTotal, heff, hdec, Nat.add_add_add_comm, hv.sum]
    rfl
  refine
    { flags := ⟨hv.width, by rw [← congrArg (·.contextLimit) hs]; rfl, hv.origin, hpre,
        hfin, hcl⟩
      fitsContext := hmat.fitsContext
      fitsRow := hmat.fitsRow
      pending := hmat.pending
      awake := rfl
      launched := hlaunched
      encoder := ⟨e, henc, happ⟩
      kvTotal := hkv
      tokenTotal := htot
      tokenCount := ?_
      bound := ⟨(congrArg (·.reqPoolIndex) hs), hv.pool.2⟩
      pool := hv.pool.1
      allocated := hv.allocated
      phase := congrArg (·.phase) hs
      writes := ?_
      counted := ⟨?_, report, ?_, hrep, hused⟩ }
  · show v.req.originInputIds.length + (v.req.outputIds ++ [token]).length = _
    rw [hv.origin, List.length_append, hv.output, ← add_assoc, ← add_assoc]
    rfl
  · show v.writes ++ [v.kvTotal] = _
    rw [hwrites, hkv]
  · have hbase : u.tokenTotal = s.tokenTotal := by
      rw [tokenTotal, hbef]
      rfl
    have hgain : ((s.tokenTotal + segment.rawAppendIds.length + 1 : Nat) : Int) - s.tokenTotal - 1 +
        1 = segment.rawAppendIds.length + 1 := by
      rw [Nat.cast_add, Nat.cast_add]
      ring
    rw [haccounting, htot, hbase, hbef] at hcnt
    exact hgain ▸ hcnt
  · show v.reports ++ [report] = _
    rw [hreports]

/-! ## Forwards of the prompt -/

/-- A forward over `n` more tokens of the prompt. -/
structure Forwarded (s : LiveSession τ P) (n : Nat) (s' : LiveSession τ P) : Prop where
  width : s'.table.width = s.table.width
  contextLimit : s'.state.contextLimit = s.state.contextLimit
  origin : s'.req.originInputIds = s.req.originInputIds
  flags : s'.finished = s.finished ∧ s'.closed = s.closed ∧ s'.parked = s.parked ∧
    s'.launched = s.launched
  encoder : s'.state.encoderLength = s.state.encoderLength ∧
    s'.state.appendedEncoderLength = s.state.appendedEncoderLength
  decoder : s'.state.decoderLength =
    if s.state.reqPoolIndex = none then s.allocated + n else s.state.decoderLength
  allocated : s'.req.kvAllocatedLen = some (s.allocated + n)
  bound : s'.state.reqPoolIndex ≠ none
  phase : s'.state.phase =
    if s.state.reqPoolIndex = none then .decoding else s.state.phase
  records : s.req.stagedFrameRecords = none → s'.state.frameRecords = s.state.frameRecords
  staged : s'.req.stagedFrameRecords = none
  last : (s'.prefilled = true ∧ s.allocated + n = s.req.originInputIds.length ∧
      s'.req.outputIds.length = s.req.outputIds.length + 1) ∨
    (s'.prefilled = s.prefilled ∧ s.allocated + n ≠ s.req.originInputIds.length ∧
      s'.req.outputIds = s.req.outputIds)
  writes : s'.writes = s.writes ++ [s.allocated + n]
  counted : Counted s.accounting s'.accounting (((s'.tokenTotal : Int) - s.tokenTotal -
      if s.state.pendingTokenId.isSome then 1 else 0) + 1) ∧
    ∃ report, s'.reports = s.reports ++ [report] ∧
      report.totalTokens = s'.accounting.map RealtimeAccounting.totalTokens ∧
      report.tokenSpaceUsed = s'.tokenTotal + 1

theorem prefill_spec {i : Nat} {token : Int} (h : s.prefill i slots token = .ok s') :
    Forwarded s slots.length s' := by
  unfold prefill at h
  obtain ⟨w, hpost, h₁⟩ := bind_eq_ok.1 h
  obtain ⟨x, he, hok⟩ := bind_eq_ok.1 h₁
  obtain ⟨report, accounting, hx, hcnt, hrep, hused⟩ :=
    postPrefill_then_emit (s := s.allocForPrompt i slots) hpost he
  obtain ⟨state, hbind, henc, happ, hlim, hdec, hph, hrcs, hbound⟩ :=
    bindPrefill_state (s := s.allocForPrompt i slots) (by simp [allocForPrompt])
      (s.allocated + slots.length)
  rw [hbind] at hx hcnt hused
  subst hx
  split at hok
  all_goals
    rename_i hlast
    cases hok
    refine {
      width := rfl
      contextLimit := hlim
      origin := rfl
      flags := ⟨rfl, rfl, rfl, rfl⟩
      encoder := ⟨henc, happ⟩
      decoder := hdec
      allocated := rfl
      bound := hbound
      phase := hph
      records := fun hnone => (takeStaged_records (s := { s.allocForPrompt i slots with state := state })
        hnone).trans hrcs
      staged := rfl
      last := ?_
      writes := rfl
      counted := ⟨hcnt, report, rfl, hrep, hused⟩ }
  · exact .inl ⟨rfl, hlast, List.length_append⟩
  · exact .inr ⟨rfl, hlast, rfl⟩

/-! ## Decode steps -/

/-- The positions that the guard of a decode step looks at, for a row that is ahead of its lengths. -/
theorem capacityError_eq_none {alloc : Nat} (halloc : s.req.kvAllocatedLen = some alloc)
    (hwithin : s.kvTotal ≤ alloc) (h : s.decodeReq.capacityError s.table.width = none) :
    alloc + 1 ≤ s.table.width ∧ s.tokenTotal + (alloc - s.kvTotal) + 2 ≤ s.contextLimit := by
  unfold DecodeReq.capacityError at h
  have hmax : max s.decodeReq.committedTotal (s.decodeReq.req.kvAllocatedLen.getD
      s.decodeReq.committedTotal) = alloc := by
    show max s.kvTotal (s.req.kvAllocatedLen.getD s.kvTotal) = alloc
    rw [halloc]
    exact Nat.max_eq_right hwithin
  rw [hmax] at h
  dsimp only at h
  split at h
  · cases h
  · next hf =>
    refine ⟨Nat.le_of_not_lt fun h => hf (.inl h), ?_⟩
    have hlim : s.state.effectiveAppendedEncoderLength + alloc - s.state.encoderLength + 2 ≤
        s.contextLimit := Nat.le_of_not_lt fun h => hf (.inr h)
    unfold kvTotal at hwithin ⊢
    unfold tokenTotal
    omega

theorem launch_eq_ok {slot : Int} (h : s.launch slot = .ok s') :
    s.decodeReq.capacityError s.table.width = none ∧
      s'.req.kvAllocatedLen = s.req.kvAllocatedLen.map (· + 1) ∧
      s'.table.width = s.table.width ∧
      s' = { s with
        req := { s.req with toRealtimeReq := s'.req.toRealtimeReq }
        table := s'.table
        launched := s.launched + 1
        writes := s.writes ++ [s.allocated + 1] } := by
  unfold launch at h
  split at h
  · cases h
  · next hcap =>
    cases h
    exact ⟨hcap, rfl, rfl, rfl⟩

/-- A token further on, or not at all. -/
def AdvancedBy (advances : Bool) (state state' : AppendState τ) : Prop :=
  if advances then state' = { state with
    decoderLength := state.decoderLength + 1
    nextMropePosition := state.nextMropePosition + 1
    phase := .decoding }
  else state' = state

/-- The accounting after a step that streams nothing: its total stays. -/
def Uncounted (a a' : Option RealtimeAccounting) : Prop :=
  a' = a ∨ ∃ b b', a = some b ∧ a' = some b' ∧ b'.totalTokens = b.totalTokens ∧
    b'.frozen = b.frozen ∧ b'.outputStep = b.outputStep ∧ b.step ≤ b'.step

theorem commit_zero {a b : RealtimeAccounting} (h : a.commit 0 0 = .ok b) :
    b.totalTokens = a.totalTokens ∧ b.frozen = a.frozen ∧ b.outputStep = a.outputStep ∧
      a.step ≤ b.step := by
  unfold commit at h
  split at h
  · cases h
  split at h
  · cases h
  cases h
  refine ⟨?_, rfl, rfl, Nat.le_succ _⟩
  unfold totalTokens
  ring

/-- `post_decode`: of the request only the lengths move on, and the total stays. -/
theorem postDecode_spec {lookahead : Bool} (h : s.postDecode lookahead = .ok s') :
    s' = { s with state := s'.state, accounting := s'.accounting } ∧
      AdvancedBy (s.decodeReq.advances lookahead) s.state s'.state ∧
      Uncounted s.accounting s'.accounting := by
  unfold postDecode at h
  cases hadv : s.decodeReq.advances lookahead with
  | false =>
    rw [hadv] at h
    cases h
    exact ⟨rfl, rfl, .inl rfl⟩
  | true =>
    rw [hadv] at h
    dsimp only at h
    rw [if_pos rfl] at h
    split at h
    · cases h
      exact ⟨rfl, rfl, .inl rfl⟩
    · unfold commitAccounting at h
      split at h
      · cases h
        exact ⟨rfl, rfl, .inl rfl⟩
      · next a ha =>
        obtain ⟨b, hb, hok⟩ := bind_eq_ok.1 h
        cases hok
        exact ⟨rfl, rfl, .inr ⟨a, b, ha, rfl, commit_zero (raisedAs_eq_ok.1 hb)⟩⟩

/-- A decode step has been resolved; a request that has parked or finished streams nothing. -/
structure Resolved (s : LiveSession τ P) (lookahead : Bool) (s' : LiveSession τ P) : Prop where
  session : s' = { s with
    req := s'.req, state := s'.state, accounting := s'.accounting, launched := s.launched - 1,
    reports := s'.reports }
  state : AdvancedBy (s.decodeReq.advances lookahead) s.state s'.state
  origin : s'.req.originInputIds = s.req.originInputIds
  output : s'.req.outputIds.length =
    if s.parked || s.finished then s.req.outputIds.length else s.req.outputIds.length + 1
  pool : s'.req.reqPoolIdx = s.req.reqPoolIdx
  allocated : s'.req.kvAllocatedLen = s.req.kvAllocatedLen ∨
    s.parked = true ∧ s'.req.kvAllocatedLen = s.req.kvAllocatedLen.map (min · s'.kvTotal)
  quiet : (s.parked || s.finished) = true →
    Uncounted s.accounting s'.accounting ∧ s'.reports = s.reports
  counted : (s.parked || s.finished) = false → s.decodeReq.advances lookahead = true →
    (∀ a, s.accounting = some a → a.frozen = false) →
    Counted s.accounting s'.accounting 1 ∧
    ∃ report, s'.reports = s.reports ++ [report] ∧
      report.totalTokens = s'.accounting.map RealtimeAccounting.totalTokens ∧
      report.tokenSpaceUsed = s'.tokenTotal + 1

theorem trimOverrun_eq (d : DecodeReq τ) : ∃ req, d.trimOverrun.req = req ∧
    req.reqPoolIdx = d.req.reqPoolIdx ∧
    (req.kvAllocatedLen = d.req.kvAllocatedLen ∨
      req.kvAllocatedLen = d.req.kvAllocatedLen.map (min · d.committedTotal)) ∧
    d.trimOverrun.state = d.state := by
  unfold DecodeReq.trimOverrun
  split
  · exact ⟨_, rfl, rfl, .inl rfl, rfl⟩
  · exact ⟨_, rfl, rfl, .inr rfl, rfl⟩

/-- A step of a request that is still decoding is committed before it is streamed. -/
theorem postDecode_then_emit (lookahead : Bool) (hadvances : s.decodeReq.advances lookahead = true)
    (ho : ∀ a, s.accounting = some a → a.frozen = false) (hpost : s.postDecode lookahead = .ok u)
    (he : u.emit = .ok s') : Counted s.accounting s'.accounting 1 ∧
    ∃ report, s'.reports = s.reports ++ [report] ∧
      report.totalTokens = s'.accounting.map totalTokens ∧
      report.tokenSpaceUsed = s'.tokenTotal + 1 := by
  have hthawed : (s.putDecode s.decodeReq.advance).accounting.any (·.frozen) = false := by
    show s.accounting.any (·.frozen) = false
    cases ha : s.accounting with
    | none => rfl
    | some a => exact ho a ha
  dsimp only [postDecode] at hpost
  rw [hadvances, if_pos rfl, hthawed, if_neg (by simp)] at hpost
  obtain ⟨report, accounting, rfl, hcnt, hrep, hused⟩ :=
    commit_then_emit (s := s.putDecode s.decodeReq.advance) hpost he
  exact ⟨hcnt, report, rfl, hrep, hused⟩

theorem resolve_spec {token : Int} {lookahead keepsSlot : Bool}
    (h : s.resolve token lookahead keepsSlot = .ok s') : Resolved s lookahead s' := by
  unfold resolve at h
  obtain ⟨u, hpost, h₁⟩ := bind_eq_ok.1 h
  obtain ⟨hu, hs, hqt⟩ := postDecode_spec hpost
  have hk : u.req = s.req ∧ u.reports = s.reports := by
    rw [hu]
    exact ⟨rfl, rfl⟩
  have hsession : ∀ (req : SegmentReq τ) (reports : List UsageReport), { u with
      req := req, reports := reports } = { s with
      req := req, state := u.state, accounting := u.accounting, launched := s.launched - 1,
      reports := reports } := by
    intro req reports
    rw [hu]
  -- A request that is parked or finished keeps its output.
  have hstay : (s.parked || s.finished) = true → Resolved s lookahead u := fun hdone =>
    { session := hsession _ _
      state := hs
      origin := by rw [hk.1]
      output := by rw [hk.1, if_pos hdone]
      pool := by rw [hk.1]
      allocated := .inl (by rw [hk.1])
      quiet := fun _ => ⟨hqt, hk.2⟩
      counted := fun h => absurd hdone (by simp [h]) }
  cases hparked : s.parked with
  | true =>
    rw [hparked, if_pos rfl] at h₁
    have hdone : (s.parked || s.finished) = true := by rw [hparked]; rfl
    cases hkeeps : (s.finished || keepsSlot) with
    | true =>
      rw [hkeeps, if_pos rfl] at h₁
      cases h₁
      exact hstay hdone
    | false =>
      rw [hkeeps, if_neg (by simp)] at h₁
      cases h₁
      obtain ⟨req, hreq, hpool, halloc, hsame⟩ := trimOverrun_eq u.decodeReq
      have heq : u.putDecode u.decodeReq.trimOverrun =
          { u with req := { u.req with toRealtimeReq := req } } := by
        rw [putDecode, hreq, hsame]
        rfl
      rw [heq]
      exact
        { session := hsession _ _
          state := hs
          origin := by rw [← hk.1]
          output := by rw [if_pos hdone, ← hk.1]
          pool := by rw [← hk.1]; exact hpool
          allocated := by
            rw [← hk.1]
            exact halloc.imp id fun h => ⟨hparked, h⟩
          quiet := fun _ => ⟨hqt, hk.2⟩
          counted := fun h => absurd hdone (by simp [h]) }
  | false =>
    rw [hparked, if_neg (by simp)] at h₁
    cases hfin : s.finished with
    | true =>
      rw [hfin, if_pos rfl] at h₁
      cases h₁
      have hdone : (s.parked || s.finished) = true := by rw [hfin, Bool.or_true]
      exact hstay hdone
    | false =>
      rw [hfin, if_neg (by simp)] at h₁
      obtain ⟨v, he, hok⟩ := bind_eq_ok.1 h₁
      cases hok
      have hlive : (s.parked || s.finished) = false := by rw [hparked, hfin]; rfl
      obtain ⟨report, accounting, hv⟩ := emit_eq_ok he
      have hcnd := fun hadv ho => postDecode_then_emit (s := { s with
        launched := s.launched - 1 }) lookahead hadv ho hpost he
      subst hv
      exact
        { session := by
            show { u with
              accounting := accounting
              req := { u.req with outputIds := u.req.outputIds ++ [token] }
              reports := u.reports ++ [report] } = _
            rw [hu]
            rfl
          state := hs
          origin := by rw [← hk.1]; rfl
          output := by
            rw [hlive, ← hk.1]
            exact List.length_append
          pool := by rw [← hk.1]; rfl
          allocated := .inl (by rw [← hk.1]; rfl)
          quiet := fun h => absurd hlive (by simp [h])
          counted := fun _ hadv ho => hcnd hadv ho }

/-! ## Window rounds -/

/-- A round that returned has written a row that fits, and set the lengths to it. -/
theorem applyFrameWindowPlan_lengths {env : WindowEnv P} {plan : FrameWindowPlan τ}
    {records : List (RealtimeFrameRecord τ)} {w : WindowWorld τ P} {event : FrameWindowEvent}
    (h : (applyFrameWindowPlan env plan records w).2 = .ok event) :
    ∃ applied prepared encoderLength,
      (applyFrameWindowPlan env plan records w).1.reqToToken.width = w.reqToToken.width ∧
      encoderLength + w.state.decoderLength ≤ w.reqToToken.width ∧
      (applyFrameWindowPlan env plan records w).1.state =
        { commitState w.state prepared applied with encoderLength := encoderLength } ∧
      (applyFrameWindowPlan env plan records w).1.req =
        commitReq w.req prepared encoderLength w.state.decoderLength := by
  unfold applyFrameWindowPlan at h ⊢
  cases ho : openRound w plan records with
  | error e =>
    rw [ho] at h
    cases h
  | ok opened =>
    obtain ⟨i, layout, runs⟩ := opened
    obtain ⟨-, -, hread, -, -⟩ := openRound_eq_ok.1 ho
    rw [ho] at h
    dsimp only at h ⊢
    cases hreserve : reservePooled env records runs plan with
    | error e =>
      rw [hreserve] at h
      cases h
    | ok reserved =>
      obtain ⟨applied, dst⟩ := reserved
      rw [hreserve] at h
      dsimp only at h ⊢
      cases hrebuild : (rebuildRow env w i layout runs records applied dst).2 with
      | error e =>
        rw [hrebuild] at h
        cases h
      | ok rebuilt =>
        obtain ⟨-, -, -, newLayout, henc, hdec, hwrt⟩ :=
          rebuildRow_eq_ok (Prod.ext rfl hrebuild)
        obtain ⟨-, hf, hw, -⟩ := write_eq_ok hwrt
        obtain ⟨-, -, -, hdeclen, -⟩ := read_eq_ok.1 hread
        refine ⟨applied, rebuilt.prepared, rebuilt.newEncoderSlots.length, hw, ?_, rfl, rfl⟩
        rw [← henc, ← hdeclen]
        show newLayout.encoderLength + layout.decoderSlots.length ≤ _
        rw [← hdec]
        exact hf

section Window

variable [Zero τ] [Sub τ] [LT τ] [DecidableLT τ]

/-- A round has rewritten the row. -/
structure Evicted (s s' : LiveSession τ P) : Prop where
  session : ∃ req : RealtimeReq, ∃ state : MossVLRealtimeRuntimeState τ, s' = { s with
    req := { s.req with toRealtimeReq := req }
    state := { s.state with toMossVLRealtimeRuntimeState := state }
    table := s'.table
    kvPool := s'.kvPool
    writes := s.writes ++ [s'.kvTotal] }
  records : s.state.frameRecords ≠ none
  width : s'.table.width = s.table.width
  fits : s'.kvTotal ≤ s.table.width
  decoder : s'.state.decoderLength = s.state.decoderLength
  appended : s'.state.appendedEncoderLength = s.state.appendedEncoderLength
  kept : s'.state.phase = s.state.phase ∧ s'.state.reqPoolIndex = s.state.reqPoolIndex ∧
    s'.state.pendingTokenId = s.state.pendingTokenId ∧ s'.state.frameRecords ≠ none ∧
    s'.req.reqPoolIdx = s.req.reqPoolIdx
  allocated : s'.req.kvAllocatedLen = s.req.kvAllocatedLen.map fun _ => s'.kvTotal

omit [Zero τ] [Sub τ] [LT τ] [DecidableLT τ] in
theorem Evicted.tokenTotal (h : Evicted s s') (happended : s.state.appendedEncoderLength ≠ none) :
    s'.tokenTotal = s.tokenTotal := by
  obtain ⟨appended, happ⟩ := Option.ne_none_iff_exists'.1 happended
  unfold LiveSession.tokenTotal MossVLRealtimeRuntimeState.effectiveAppendedEncoderLength
  rw [h.appended, happ, h.decoder]
  rfl

theorem planFrameWindow_nil (config : RealtimeFrameWindowConfig τ) :
    planFrameWindow ([] : List (RealtimeFrameRecord τ)) config = .ok none := by
  dsimp only [planFrameWindow]
  rw [if_pos (by simp)]

theorem evict_spec {config : RealtimeFrameWindowConfig τ} {env : WindowEnv P}
    (h : s.evict config env = .ok s') : s' = s ∨ Evicted s s' := by
  unfold evict at h
  obtain ⟨plan, hplan, h₁⟩ := bind_eq_ok.1 h
  cases plan with
  | none =>
    cases h₁
    exact .inl rfl
  | some plan =>
    obtain ⟨u, hround, hok⟩ := bind_eq_ok.1 h₁
    cases hok
    obtain ⟨event, hdone, -⟩ := map_eq_ok.1 (raisedAs_eq_ok.1 hround)
    obtain ⟨applied, prepared, encoderLength, hw, hf, hs, hreq⟩ :=
      applyFrameWindowPlan_lengths hdone
    have hrcs : s.state.frameRecords ≠ none := by
      intro hnone
      have hplan := raisedAs_eq_ok.1 hplan
      rw [hnone] at hplan
      rw [show (none : Option (List (RealtimeFrameRecord τ))).getD [] = [] from rfl,
        planFrameWindow_nil] at hplan
      cases hplan
    generalize applyFrameWindowPlan env plan (s.state.frameRecords.getD []) _ = round
      at hw hs hreq
    obtain ⟨w, r⟩ := round
    dsimp only at hw hs hreq
    refine .inr ⟨⟨w.req, w.state, rfl⟩, hrcs, hw, ?_, ?_, ?_, ?_, ?_⟩
    · show w.state.encoderLength + w.state.decoderLength ≤ _
      rw [hs]
      exact hf
    · show w.state.decoderLength = _
      rw [hs]
      rfl
    · show w.state.appendedEncoderLength = _
      rw [hs]
      rfl
    · show w.state.phase = _ ∧ w.state.reqPoolIndex = _ ∧ w.state.pendingTokenId = _ ∧
        w.state.frameRecords ≠ none ∧ w.req.reqPoolIdx = _
      rw [hs, hreq]
      exact ⟨rfl, rfl, rfl, by simp [commitState], rfl⟩
    · show w.req.kvAllocatedLen =
        s.req.kvAllocatedLen.map fun _ => w.state.encoderLength + w.state.decoderLength
      rw [hs, hreq]
      rfl

end Window

end LiveSession

end OmniRealtime
