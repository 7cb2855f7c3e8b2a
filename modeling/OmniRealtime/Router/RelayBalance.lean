import OmniRealtime.Router.ProxyRelay

/-!
# Releases of a proxied request

1. `relayCall_settles`: a streamed response that is called returns the worker's count and
   the slot, however it ends.
2. `forwardAdmitted_spec`: what is left to be returned when the handler is done.
3. `relay_balanced_iff`: the slot is always released once; the worker's count is returned
   too unless the response cannot be built from its headers, or a voice mutation fails in a
   way that its handlers do not name.
-/

namespace OmniRealtime

namespace ProxyRelay

open Proc

variable {q : ProxyRequest} {u : Upstream} {l : List CounterOp}

/-- The worker's response is open, and nothing is released. -/
def Opened (l : List CounterOp) (s : RelayState) : Prop := s = ⟨false, false, l⟩

/-- The worker's count and the slot are returned. -/
def Settled (l : List CounterOp) (s : RelayState) : Prop :=
  s = ⟨true, true, l ++ [.decrement, .release]⟩

/-! ## The cleanup -/

theorem cleanup_opened (u : Upstream) : Triple (Opened l) (cleanup u) fun _ s => Settled l s := by
  rintro s rfl
  have hreturn : (andThen (emit .decrement) fun _ => release) ⟨false, true, l⟩
      = (.ok (), ⟨true, true, l ++ [.decrement] ++ [.release]⟩) := rfl
  unfold Settled cleanup ensure
  cases u.aclose <;> simp [Proc.await, ret, raise, hreturn]

theorem cleanup_settled (u : Upstream) :
    Triple (Settled l) (cleanup u) fun r s => r = .ok () ∧ Settled l s := by
  rintro s rfl
  exact ⟨rfl, rfl⟩

theorem release_settled : Triple (Settled l) release fun r s => r = .ok () ∧ Settled l s := by
  rintro s rfl
  exact ⟨rfl, rfl⟩

theorem iterUpstreamBytes_spec (u : Upstream) (chunkSends : List (Option PyExn)) :
    Triple (Opened l) (iterUpstreamBytes u chunkSends) fun _ s => Opened l s ∨ Settled l s := by
  induction chunkSends with
  | nil =>
    have hcln : Triple (Opened l) (cleanup u) fun _ s => Opened l s ∨ Settled l s :=
      (cleanup_opened u).post fun _ _ h => .inr h
    unfold iterUpstreamBytes
    split
    · exact hcln
    · split
      · refine Triple.andThen (Q := fun _ => Opened l) ?_ (fun _ => hcln) fun _ _ h => .inl h
        exact .await (fun _ _ h => h) fun _ _ _ h => h
      · refine Triple.ensure (Q := fun _ => Opened l) (.raise fun _ h => h) fun r => ?_
        refine (cleanup_opened u).post fun c s h => ?_
        cases c <;> exact .inr h
  | cons chunkSend rest ih =>
    refine Triple.andThen (Q := fun _ => Opened l) ?_ (fun _ => ih) fun _ _ h => .inl h
    exact .await (fun _ _ h => h) fun _ _ _ h => h

theorem streamResponse_spec (u : Upstream) :
    Triple (Opened l) (streamResponse u) fun _ s => Opened l s ∨ Settled l s := by
  refine Triple.andThen (Q := fun _ => Opened l) ?_ (fun _ => ?_) fun _ _ h => .inl h
  · exact .await (fun _ _ h => h) fun _ _ _ h => h
  · refine (iterUpstreamBytes_spec u _).andThen (fun _ => ?_) fun _ _ h => h
    exact .await (fun _ _ h => h) fun _ _ _ h => h

/-- Whatever the stream and the client do, the call of the response returns both. -/
theorem relayCall_settles (u : Upstream) :
    Triple (Opened l) (relayCall u) fun _ s => Settled l s := by
  refine (streamResponse_spec u).ensure fun r => ?_
  rintro s (hopen | hstl)
  · have hcln := cleanup_opened u s hopen
    split <;> exact hcln
  · have hcln := cleanup_settled u s hstl
    split <;> exact hcln.2

/-! ## What the handler leaves open -/

/-- The handler did not return the relay of a worker. -/
def NotRelay (r : Except PyExn ProxyResponse) : Prop := ∀ u, r ≠ .ok (.relay u)

theorem notRelay_plain : NotRelay (.ok .plain) := fun _ h => by cases h

theorem notRelay_error (e : PyExn) : NotRelay (.error e) := fun _ h => by cases h

/-- The relayed response can be built, or a buffered one settles: the body of a voice mutation
    is read, or its read is cancelled or fails in `httpx`, and what a 2xx body commits is
    parsed, or is not valid. -/
def Relayable (q : ProxyRequest) (u : Upstream) : Prop :=
  match q.mutation with
  | none => Encodable (relayHeaders q u)
  | some _ =>
    match u.aread with
    | some e => (e == .cancelled || e.isHttpError) = true
    | none => 200 ≤ u.statusCode ∧ u.statusCode < 300 →
        ∀ e, u.committed = some e → e.isValueError = true

theorem streamingRelayResponse_eq (q : ProxyRequest) (u : Upstream) :
    streamingRelayResponse q u =
      if Encodable (relayHeaders q u) then ret (.relay u) else raise .unicodeEncode := by
  unfold streamingRelayResponse initHeaders
  rw [tryElse_ret]
  split
  · rfl
  · rfl

/-- What comes after the cleanup of a buffered response changes nothing. -/
theorem headers_plain (headers : Dict String HeaderText) :
    Triple (Settled l) (andThen (initHeaders headers) fun _ => ret ProxyResponse.plain)
      fun r s => NotRelay r ∧ Settled l s := by
  unfold initHeaders
  split
  · exact fun _ h => ⟨notRelay_plain, h⟩
  · exact fun _ h => ⟨notRelay_error _, h⟩

theorem cleanup_then {m : RelayTask ProxyResponse} (u : Upstream)
    (hm : Triple (Settled l) m fun r s => NotRelay r ∧ Settled l s) :
    Triple (Opened l) (andThen (cleanup u) fun _ => m) fun r s => NotRelay r ∧ Settled l s :=
  (cleanup_opened u).andThen (fun _ => hm) fun e _ h => ⟨notRelay_error e, h⟩

theorem buffer_settles {request : VoiceMutationRequest} (hq : q.mutation = some request)
    (h : Relayable q u) :
    Triple (Opened l) (bufferVoiceMutationResponse q u) fun r s => NotRelay r ∧ Settled l s := by
  have hpln := fun headers => cleanup_then (l := l) u (headers_plain headers)
  unfold Relayable at h
  rw [hq] at h
  unfold bufferVoiceMutationResponse
  cases haread : u.aread with
  | some e =>
    rw [haread] at h
    rw [await_some, tryElse_raise, if_pos h]
    split
    · exact cleanup_then u fun _ hs => ⟨notRelay_error e, hs⟩
    · exact hpln _
  | none =>
    rw [haread] at h
    have hcom : commitVoiceMutation u = ret () := by
      unfold commitVoiceMutation
      split
      · next hstatus =>
        cases hc : u.committed with
        | none => rfl
        | some e => rw [await_some, tryElse_raise, if_pos (h hstatus e hc)]
      · rfl
    rw [await_none, tryElse_ret, hcom, andThen_ret]
    exact hpln _

theorem buffer_raises {request : VoiceMutationRequest} (hq : q.mutation = some request)
    (h : ¬ Relayable q u) : ∃ e, bufferVoiceMutationResponse q u = raise e := by
  unfold Relayable at h
  rw [hq] at h
  unfold bufferVoiceMutationResponse
  cases haread : u.aread with
  | some e =>
    rw [haread] at h
    rw [await_some, tryElse_raise, if_neg h]
    exact ⟨e, rfl⟩
  | none =>
    rw [haread] at h
    obtain ⟨hstatus, e, hc, hval⟩ : (200 ≤ u.statusCode ∧ u.statusCode < 300) ∧
        ∃ e, u.committed = some e ∧ ¬ e.isValueError = true := by
      simpa only [Classical.not_imp, not_forall, exists_prop] using h
    have hcom : commitVoiceMutation u = raise e := by
      rw [commitVoiceMutation, if_pos hstatus, hc, await_some, tryElse_raise, if_neg hval]
    rw [await_none, tryElse_ret, hcom, andThen_raise]
    exact ⟨e, rfl⟩

/-! ## The exchange with the worker -/

theorem emit_then {α : Type} {op : CounterOp} {m : RelayTask α}
    {Q : Except PyExn α → RelayState → Prop} (h : Triple (Opened (l ++ [op])) m Q) :
    Triple (Opened l) (andThen (emit op) fun _ => m) Q := by
  rintro s rfl
  exact h _ rfl

/-- No worker's response was opened. -/
def NotOpened (r : Except PyExn (Option Upstream)) : Prop := ∀ u, r ≠ .ok (some u)

theorem notOpened_none : NotOpened (.ok none) := fun _ h => by cases h

theorem notOpened_error (e : PyExn) : NotOpened (.error e) := fun _ h => by cases h

theorem forwardRelay_failed {e : PyExn} (hbuild : q.buildRequest = none)
    (hsend : q.send = .error e) :
    Triple (Opened l) (forwardRelay q)
      fun r s => NotRelay r ∧ Opened (l ++ [.increment] ++ [.decrement]) s := by
  have hopen : Triple (Opened l) (openUpstream q)
      fun r s => NotOpened r ∧ Opened (l ++ [.increment] ++ [.decrement]) s := by
    unfold openUpstream sendUpstream initHeaders
    rw [hbuild, await_none, andThen_ret, hsend, tryElse_raise, if_pos rfl]
    refine emit_then (emit_then ?_)
    split_ifs
    · exact fun _ h => ⟨notOpened_none, h⟩
    · exact fun _ h => ⟨notOpened_none, h⟩
    · exact fun _ h => ⟨notOpened_error _, h⟩
    · exact fun _ h => ⟨notOpened_error _, h⟩
  refine hopen.andThen (fun o => ?_) fun e s h => ⟨notRelay_error e, h.2⟩
  cases o with
  | none => exact fun _ h => ⟨notRelay_plain, h.2⟩
  | some u => exact fun _ h => absurd rfl (h.1 u)

theorem forwardRelay_sent {u : Upstream} (hbuild : q.buildRequest = none) (hsend : q.send = .ok u) :
    forwardRelay q = andThen (emit .increment) fun _ => buildRelayResponse q u := by
  unfold forwardRelay openUpstream sendUpstream
  rw [hbuild, await_none, andThen_ret, hsend, tryElse_ret]
  rfl

/-! ## The way to the worker -/

/-- The request is not turned away before it is sent to a worker. -/
structure Reaches (q : ProxyRequest) : Prop where
  contentLength : ∀ value, q.contentLength = some value → exceedsMaxSize value q.bodyLimit = false
  fits : q.chunks.sum ≤ q.bodyLimit
  body : q.bodyEnd = none
  metadata : q.metadata = none
  large : q.largeRequestError = false
  selection : q.selection = none
  buildRequest : q.buildRequest = none

theorem readBodyWithLimit_eq (q : ProxyRequest) (totalSize : Nat) (chunks : List Nat)
    (h : totalSize ≤ q.bodyLimit) :
    readBodyWithLimit q totalSize chunks =
      if totalSize + chunks.sum ≤ q.bodyLimit then await q.bodyEnd
      else raise .payloadTooLarge := by
  induction chunks generalizing totalSize with
  | nil => rw [readBodyWithLimit, List.sum_nil, add_zero, if_pos h]
  | cons chunk rest ih =>
    rw [readBodyWithLimit, List.sum_cons, ← add_assoc]
    split_ifs with hover hfits
    · exact absurd (le_trans (Nat.le_add_right _ _) hfits) (not_le.mpr hover)
    · rfl
    · rw [ih _ (not_lt.mp hover), if_pos ‹_›]
    · rw [ih _ (Nat.not_lt.mp hover), if_neg ‹_›]

theorem forwardAdmitted_of_reaches (h : Reaches q) : forwardAdmitted q = forwardRelay q := by
  have hlen : (q.contentLength.any fun value => exceedsMaxSize value q.bodyLimit) = false := by
    cases hc : q.contentLength with
    | none => rfl
    | some value => exact h.contentLength value hc
  unfold forwardAdmitted selectAndForward
  rw [readBodyWithLimit_eq q 0 q.chunks (Nat.zero_le _), Nat.zero_add, if_pos h.fits, h.body,
    h.metadata, h.large, h.selection, hlen]
  rfl

/-- The task responds or raises at once. -/
def TurnsAway (m : RelayTask ProxyResponse) : Prop := m = ret .plain ∨ ∃ e, m = raise e

theorem TurnsAway.stage {o : Option PyExn} {p : PyExn → Bool} {rest : RelayTask ProxyResponse}
    (h : o = none → TurnsAway rest) :
    TurnsAway (tryElse (await o) p (fun _ => ret .plain) fun _ => rest) := by
  cases o with
  | none => exact h rfl
  | some e =>
    rw [await_some, tryElse_raise]
    split
    · exact .inl rfl
    · exact .inr ⟨e, rfl⟩

/-- A request that is turned away before it is sent changes no counter. -/
theorem forwardAdmitted_of_not_reaches (h : ¬ Reaches q) : TurnsAway (forwardAdmitted q) := by
  unfold forwardAdmitted selectAndForward
  split
  · exact .inl rfl
  · next hlen =>
    rw [readBodyWithLimit_eq q 0 q.chunks (Nat.zero_le _), Nat.zero_add]
    split
    · next hfits =>
      refine TurnsAway.stage fun hbody => TurnsAway.stage fun hmetadata => ?_
      split
      · exact .inl rfl
      · next hlarge =>
        refine TurnsAway.stage fun hselection => ?_
        cases hbuild : q.buildRequest with
        | some e =>
          refine .inr ⟨e, ?_⟩
          rw [forwardRelay, openUpstream, hbuild, await_some, andThen_raise, andThen_raise]
        | none =>
          refine absurd ⟨fun value hval => ?_, hfits, hbody, hmetadata,
            Bool.eq_false_iff.mpr hlarge, hselection, hbuild⟩ h
          rw [hval] at hlen
          exact Bool.eq_false_iff.mpr hlen
    · rw [tryElse_raise]
      exact .inl rfl

/-! ## The request to its end -/

/-- The state the handler starts in. -/
def admittedState : RelayState := ⟨false, false, [.acquire]⟩

section

variable (hadmitted : q.admitted = true)
include hadmitted

/-- Where the handler has returned no relay, what is left is released then. -/
theorem run_eq_release (hr : NotRelay (forwardAdmitted q admittedState).1) :
    run q = (release (forwardAdmitted q admittedState).2).2.log := by
  have hforward : forwardModelRequest q {}
      = ((forwardAdmitted q admittedState).1, (release (forwardAdmitted q admittedState).2).2) := by
    unfold forwardModelRequest
    rw [if_pos hadmitted]
    show tryElse (forwardAdmitted q) _ _ releaseBuilt admittedState = _
    unfold tryElse
    generalize forwardAdmitted q admittedState = outcome at hr ⊢
    obtain ⟨r, s⟩ := outcome
    match r with
    | .ok .plain => rfl
    | .ok (.relay u) => exact absurd rfl (hr u)
    | .error e => rfl
  unfold run serve andThen tryElse
  rw [hforward]
  generalize forwardAdmitted q admittedState = outcome at hr ⊢
  obtain ⟨r, s⟩ := outcome
  match r with
  | .ok .plain => rfl
  | .ok (.relay u) => exact absurd rfl (hr u)
  | .error e => rfl

theorem run_eq_relay {s : RelayState} (h : forwardAdmitted q admittedState = (.ok (.relay u), s))
    (hs : Opened l s) : run q = l ++ [.decrement, .release] := by
  have hforward : forwardModelRequest q {} = (.ok (.relay u), s) := by
    unfold forwardModelRequest
    rw [if_pos hadmitted]
    show tryElse (forwardAdmitted q) _ _ releaseBuilt admittedState = _
    unfold tryElse
    rw [h]
    rfl
  have hcall : Triple (Opened l) (ensure (relayCall u) release) fun _ s => Settled l s := by
    refine (relayCall_settles u).ensure fun r => release_settled.post ?_
    rintro c s ⟨rfl, hs⟩
    exact hs
  have hend := hcall s hs
  unfold run serve andThen tryElse
  rw [hforward]
  exact congrArg RelayState.log hend

/-- The log of a request: the worker's count is kept where a response cannot be relayed. -/
theorem run_eq :
    (¬ Reaches q → run q = [.acquire, .release]) ∧
    (Reaches q → ∀ e, q.send = .error e → run q = [.acquire, .increment, .decrement, .release]) ∧
    (Reaches q → ∀ u, q.send = .ok u → Relayable q u →
      run q = [.acquire, .increment, .decrement, .release]) ∧
    (Reaches q → ∀ u, q.send = .ok u → ¬ Relayable q u →
      run q = [.acquire, .increment, .release]) := by
  have hsent : ∀ {u}, Reaches q → q.send = .ok u → forwardAdmitted q admittedState
      = buildRelayResponse q u ⟨false, false, [.acquire, .increment]⟩ := by
    intro u h hsend
    rw [forwardAdmitted_of_reaches h, forwardRelay_sent h.buildRequest hsend]
    rfl
  refine ⟨fun h => ?_, fun h e hsend => ?_, fun h u hsend hrelay => ?_, fun h u hsend hrelay => ?_⟩
  · rcases forwardAdmitted_of_not_reaches h with hf | ⟨e, hf⟩
    · rw [run_eq_release hadmitted (hf ▸ notRelay_plain), hf]
      rfl
    · rw [run_eq_release hadmitted (hf ▸ notRelay_error e), hf]
      rfl
  · have hspec := forwardRelay_failed (l := [.acquire]) h.buildRequest hsend admittedState rfl
    rw [← forwardAdmitted_of_reaches h] at hspec
    rw [run_eq_release hadmitted hspec.1, hspec.2]
    rfl
  · have hforward := hsent h hsend
    unfold buildRelayResponse at hforward
    unfold Relayable at hrelay
    cases hmutation : q.mutation with
    | none =>
      simp only [hmutation] at hforward hrelay
      rw [streamingRelayResponse_eq, if_pos hrelay] at hforward
      exact run_eq_relay hadmitted hforward rfl
    | some request =>
      have hrelay : Relayable q u := hrelay
      have hspec := buffer_settles (l := [.acquire, .increment]) hmutation hrelay _ rfl
      simp only [hmutation] at hforward
      rw [← hforward] at hspec
      rw [run_eq_release hadmitted hspec.1, hspec.2]
      rfl
  · have hforward := hsent h hsend
    unfold buildRelayResponse at hforward
    cases hmutation : q.mutation with
    | none =>
      unfold Relayable at hrelay
      simp only [hmutation] at hforward hrelay
      rw [streamingRelayResponse_eq, if_neg hrelay] at hforward
      rw [run_eq_release hadmitted (hforward ▸ notRelay_error _), hforward]
      rfl
    | some request =>
      obtain ⟨e, he⟩ := buffer_raises hmutation hrelay
      simp only [hmutation, he] at hforward
      rw [run_eq_release hadmitted (hforward ▸ notRelay_error e), hforward]
      rfl

end

/-! ## The shared counters -/

/-- The slots in use, and the requests of the chosen worker. -/
structure Counters where
  inflight : Nat
  active : Nat
  deriving DecidableEq, Repr

/-- `none` where `release` or `decrement_active` fails its assertion. -/
def Counters.apply (c : Counters) : CounterOp → Option Counters
  | .acquire => some { c with inflight := c.inflight + 1 }
  | .release => if 0 < c.inflight then some { c with inflight := c.inflight - 1 } else none
  | .increment => some { c with active := c.active + 1 }
  | .decrement => if 0 < c.active then some { c with active := c.active - 1 } else none

def Counters.applyAll (c : Counters) : List CounterOp → Option Counters
  | [] => some c
  | op :: rest => (c.apply op).bind fun d => d.applyAll rest

/-- One release for each successful admit, one decrement for each increment, and both counters
    as they were, whatever they were. -/
def Balanced (log : List CounterOp) : Prop :=
  log.count .release = log.count .acquire ∧ log.count .decrement = log.count .increment ∧
    ∀ c : Counters, c.applyAll log = some c

theorem balanced_relayed : Balanced [.acquire, .increment, .decrement, .release] :=
  ⟨by decide, by decide, fun _ => rfl⟩

theorem balanced_turned_away : Balanced [.acquire, .release] :=
  ⟨by decide, by decide, fun _ => rfl⟩

theorem not_balanced_kept : ¬ Balanced [.acquire, .increment, .release] :=
  fun h => absurd h.2.1 (by decide)

end ProxyRelay

open ProxyRelay in
/-- **Releases of a proxied request.** However its calls and awaits end, a request returns the
    slot it was admitted to exactly once. Both counters are back where they were if and only
    if, where the worker responded, its response can be relayed. -/
theorem relay_balanced_iff (q : ProxyRequest) :
    (run q).count .release = (run q).count .acquire ∧
    (Balanced (run q) ↔
      (q.admitted = true → Reaches q → ∀ u, q.send = .ok u → Relayable q u)) := by
  by_cases hadmitted : q.admitted = true
  · obtain ⟨haway, hfailed, hrelayed, hkept⟩ := run_eq hadmitted
    by_cases hreach : Reaches q
    · cases hsend : q.send with
      | error e =>
        rw [hfailed hreach e hsend]
        exact ⟨by decide, fun _ _ _ _ hu => (nomatch hu), fun _ => balanced_relayed⟩
      | ok u =>
        by_cases hrelay : Relayable q u
        · rw [hrelayed hreach u hsend hrelay]
          refine ⟨by decide, fun _ _ _ v hv => ?_, fun _ => balanced_relayed⟩
          obtain rfl : u = v := Except.ok.inj hv
          exact hrelay
        · rw [hkept hreach u hsend hrelay]
          refine ⟨by decide, fun h => absurd h not_balanced_kept, fun h => ?_⟩
          exact absurd (h hadmitted hreach u rfl) hrelay
    · rw [haway hreach]
      exact ⟨by decide, fun _ _ h => absurd h hreach, fun _ => balanced_turned_away⟩
  · have hrun : run q = [] := by
      unfold run serve forwardModelRequest
      rw [if_neg hadmitted]
      rfl
    rw [hrun]
    exact ⟨rfl, fun _ h => absurd h hadmitted, fun _ => ⟨rfl, rfl, fun _ => rfl⟩⟩

/-- A JSON request whose body names the request id `日`, and the worker's plain answer. -/
def exNamedRequest : ProxyRequest where
  admitted := true
  bodyLimit := 1048576
  contentLength := some (some 24)
  chunks := [24]
  bodyEnd := none
  metadata := none
  largeRequestError := false
  mutation := none
  selection := none
  workerId := headerText "worker-1"
  requestId := headerText "日"
  stream := false
  buildRequest := none
  send := .ok
    { statusCode := 200
      headers := [("content-type", headerText "application/json")]
      aread := none
      committed := none
      aclose := none
      startSend := none
      chunkSends := [none]
      streamEnd := none
      eventSend := none
      endSend := none }

open ProxyRelay in
/-- The diagnostic header with the client's request id cannot be encoded: the worker's count is
    never returned. -/
theorem named_request_keeps_count : ¬ ∀ q : ProxyRequest, Balanced (run q) := by
  intro h
  have hrun : run exNamedRequest = [.acquire, .increment, .release] := by decide +kernel
  exact not_balanced_kept (hrun ▸ h exNamedRequest)

end OmniRealtime
