import OmniRealtime.Comm.KvReceive
import OmniRealtime.Lib.LogOrder

/-!
# What becomes of a reservation

A reservation of the KV receiver is committed or aborted, by whoever comes first: its read,
the clean-up of its request, or close. A second notice for a transfer whose copy is under way
starts a second read of it, and both settle the reservation (`reservation_committed_twice`).

1. `SettledOnce`, `CommitsInOrder`: what the log says of one reservation, and of commits and
   clean-ups.
2. `Reservations`: a reservation is in `_inbound_kv` or settled, and a read in progress is the
   only one of its transfer.
3. `Reservations.settles`, `reserves`, `begins`, `cleanup`, `closeRest`, `step`.
4. `kv_reservations_settled`: every run without a second read of one transfer.
5. `forgotten_request_committed`: what the bound on the set of aborted requests admits.
-/

namespace OmniRealtime

open List Option Function Dict KvReceive ReceiverCall Tombstones

/-! ## The log -/

/-- The call is about reservation `n`. -/
def ReceiverCall.concerns (n : ℕ) : ReceiverCall → Bool
  | .reserve m _ | .commit m _ | .abort m _ => m = n
  | .cleanup _ => false

def callsOf (n : ℕ) (calls : List ReceiverCall) : List ReceiverCall :=
  calls.filter (ReceiverCall.concerns n)

/-- One commit or one abort has followed the reservation, and nothing else. -/
def SettledOnce (calls : List ReceiverCall) (n : ℕ) (requestId : String) : Prop :=
  callsOf n calls = [.reserve n requestId, .commit n requestId] ∨
    callsOf n calls = [.reserve n requestId, .abort n requestId]

/-- The request has not been cleaned up since the reservation. -/
def Uncleaned (calls : List ReceiverCall) (n : ℕ) (requestId : String) : Prop :=
  ∀ before after, calls = before ++ .reserve n requestId :: after → .cleanup requestId ∉ after

/-- No commit comes after a clean-up of its request, except where the request has left the bounded
    set of aborted ones and was reserved for again. -/
def CommitsInOrder (calls : List ReceiverCall) (discarded : List String) : Prop :=
  ∀ before after n requestId, calls = before ++ .commit n requestId :: after →
    (.cleanup requestId ∈ before → requestId ∈ discarded) ∧ Uncleaned before n requestId

section Log

variable {calls : List ReceiverCall} {call : ReceiverCall} {n : ℕ} {requestId : String}
  {discarded : List String}

theorem concerns_reserve {m : ℕ} (h : n ≠ m) :
    (ReceiverCall.reserve n requestId).concerns m = false := decide_eq_false h

theorem concerns_abort {m : ℕ} (h : n ≠ m) :
    (abort n requestId).concerns m = false := decide_eq_false h

theorem callsOf_concat (n : ℕ) (calls : List ReceiverCall) (call : ReceiverCall) :
    callsOf n (calls ++ [call]) = callsOf n calls ++ if call.concerns n then [call] else [] := by
  rw [callsOf, filter_append, filter_singleton, callsOf]
  cases call.concerns n <;> rfl

theorem callsOf_concat_of_not (h : call.concerns n = false) :
    callsOf n (calls ++ [call]) = callsOf n calls := by
  rw [callsOf_concat, h]
  exact append_nil _

theorem SettledOnce.concat (h : SettledOnce calls n requestId) (ho : call.concerns n = false) :
    SettledOnce (calls ++ [call]) n requestId := by
  unfold SettledOnce
  rw [callsOf_concat_of_not ho]
  exact h

theorem uncleaned_concat (h : Uncleaned calls n requestId) (hcall : call ≠ .cleanup requestId) :
    Uncleaned (calls ++ [call]) n requestId := by
  intro before after heq
  obtain ⟨rest, rfl, hcalls⟩ | ⟨rfl, -, -⟩ := LogOrder.concat_eq_append_cons.1 heq
  · rw [mem_append, mem_singleton, not_or]
    exact ⟨h before rest hcalls, Ne.symm hcall⟩
  · exact not_mem_nil

theorem uncleaned_reserve (h : callsOf n calls = []) :
    Uncleaned (calls ++ [.reserve n requestId]) n requestId := by
  intro before after heq
  obtain ⟨rest, -, rfl⟩ | ⟨rfl, -, -⟩ := LogOrder.concat_eq_append_cons.1 heq
  · rw [callsOf, filter_append, append_eq_nil_iff] at h
    have hreserve := filter_eq_nil_iff.1 h.2 _ mem_cons_self
    exact absurd (decide_eq_true rfl) hreserve
  · exact not_mem_nil

theorem commitsInOrder_concat (h : CommitsInOrder calls discarded)
    (hcom : ∀ n requestId, call = .commit n requestId →
      (.cleanup requestId ∈ calls → requestId ∈ discarded) ∧ Uncleaned calls n requestId) :
    CommitsInOrder (calls ++ [call]) discarded := by
  intro before after n requestId heq
  obtain ⟨rest, -, hcalls⟩ | ⟨-, rfl, hlast⟩ := LogOrder.concat_eq_append_cons.1 heq
  · exact h before rest n requestId hcalls
  · exact hcom n requestId hlast.symm

theorem CommitsInOrder.mono (h : CommitsInOrder calls discarded) {discarded' : List String}
    (hsubset : discarded ⊆ discarded') : CommitsInOrder calls discarded' := by
  intro before after n requestId heq
  obtain ⟨hcleaned, huncleaned⟩ := h before after n requestId heq
  exact ⟨fun hmem => hsubset (hcleaned hmem), huncleaned⟩

end Log

/-! ## The invariant -/

/-- A reservation in `_inbound_kv`. -/
structure HeldReservation (calls : List ReceiverCall) (reads : List KvRead)
    (discarded : List String) (entry : String × ℕ) (transfer : InboundTransfer) : Prop where
  named : transfer.request.transferId = entry.1
  openCall : callsOf entry.2 calls = [.reserve entry.2 transfer.request.requestId]
  started : transfer.copyStarted = true ↔ ∃ read ∈ reads, read.transfer = entry.2
  uncleaned : transfer.abortError = false → Uncleaned calls entry.2 transfer.request.requestId
  unmarked : transfer.abortError = false → .cleanup transfer.request.requestId ∈ calls →
    transfer.request.requestId ∈ discarded

theorem HeldReservation.concat {calls : List ReceiverCall} {reads : List KvRead}
    {discarded : List String} {entry : String × ℕ} {transfer : InboundTransfer}
    (h : HeldReservation calls reads discarded entry transfer) {call : ReceiverCall}
    (ho : call.concerns entry.2 = false)
    (hcleanup : transfer.abortError = false → call ≠ .cleanup transfer.request.requestId) :
    HeldReservation (calls ++ [call]) reads discarded entry transfer where
  named := h.named
  openCall := (callsOf_concat_of_not ho).trans h.openCall
  started := h.started
  uncleaned := fun hclear => uncleaned_concat (h.uncleaned hclear) (hcleanup hclear)
  unmarked := by
    intro hclear hmem
    refine h.unmarked hclear ((mem_append.1 hmem).resolve_right fun hlast => ?_)
    exact hcleanup hclear (mem_singleton.1 hlast).symm

structure Reservations (s : KvReceive) : Prop where
  keys : s.inboundKv.keys.Nodup
  held : ∀ entry ∈ s.inboundKv, ∃ transfer, s.transfers entry.2 = some transfer ∧
    HeldReservation s.calls s.reads s.discarded entry transfer
  reading : ∀ read ∈ s.reads, (read.notice.objectId, read.transfer) ∈ s.inboundKv
  single : (s.reads.map (·.transfer)).Nodup
  settled : ∀ n < s.reserved,
    (∃ id, (id, n) ∈ s.inboundKv) ∨ ∃ requestId, SettledOnce s.calls n requestId
  fresh : ∀ n, s.reserved ≤ n → callsOf n s.calls = []
  commits : CommitsInOrder s.calls s.discarded
  marked : s.closing ≠ .closed → ∀ requestId, .cleanup requestId ∈ s.calls →
    requestId ∈ s.abortedKvRequests ∨ requestId ∈ s.discarded
  stopped : s.closing ≠ .«open» → s.controlRuns = false
  drained : s.closing = .reads ∨ s.closing = .closed → s.created = []
  empty : s.closing = .closed → s.inboundKv = []

def EndsReservation (n : ℕ) (transfer : InboundTransfer) (call : ReceiverCall) : Prop :=
  call = .abort n transfer.request.requestId ∨
    call = .commit n transfer.request.requestId ∧ transfer.abortError = false

section Ends

variable {n : ℕ} {transfer : InboundTransfer} {call : ReceiverCall}

theorem EndsReservation.ne_cleanup (h : EndsReservation n transfer call) (requestId : String) :
    call ≠ .cleanup requestId := by
  obtain rfl | ⟨rfl, -⟩ := h <;> simp

theorem EndsReservation.concerns (h : EndsReservation n transfer call) (m : ℕ) :
    call.concerns m = decide (n = m) := by
  obtain rfl | ⟨rfl, -⟩ := h <;> rfl

end Ends

namespace Reservations

variable {s : KvReceive} {id : String} {n : ℕ} {transfer : InboundTransfer}

theorem init : Reservations {} where
  keys := nodup_nil
  held := nofun
  reading := nofun
  single := nodup_nil
  settled := fun _ h => absurd h (Nat.not_lt_zero _)
  fresh := fun _ _ => rfl
  commits := fun before after n requestId h => absurd h.symm (by simp)
  marked := nofun
  stopped := fun h => absurd rfl h
  drained := fun _ => rfl
  empty := fun _ => rfl

section

variable (h : Reservations s) (hentry : (id, n) ∈ s.inboundKv)
include h hentry

theorem holds (ht : s.transfers n = some transfer) :
    HeldReservation s.calls s.reads s.discarded (id, n) transfer := by
  obtain ⟨transfer', ht', hholds⟩ := h.held (id, n) hentry
  obtain rfl := some.inj (ht'.symm.trans ht)
  exact hholds

theorem one_name {id' : String} (hentry' : (id', n) ∈ s.inboundKv) : id = id' := by
  obtain ⟨transfer, ht, hholds⟩ := h.held (id, n) hentry
  exact hholds.named.symm.trans (h.holds hentry' ht).named

theorem one_number {n' : ℕ} (hentry' : (id, n') ∈ s.inboundKv) : n = n' := by
  have hget := (get_eq_some h.keys).2 hentry
  rw [(get_eq_some h.keys).2 hentry'] at hget
  exact (some.inj hget).symm

theorem lt_reserved : n < s.reserved := by
  obtain ⟨transfer, -, hholds⟩ := h.held (id, n) hentry
  by_contra hge
  have hcalls := hholds.openCall
  rw [h.fresh n (Nat.le_of_not_lt hge)] at hcalls
  cases hcalls

theorem settles (ht : s.transfers n = some transfer) {call : ReceiverCall}
    (hcall : EndsReservation n transfer call) {reads : List KvRead}
    (hr : ∀ read, read ∈ reads ↔ read ∈ s.reads ∧ read.transfer ≠ n)
    (hsingle : (reads.map (·.transfer)).Nodup) :
    Reservations { s with
      calls := s.calls ++ [call]
      inboundKv := s.inboundKv.pop id
      reads } where
  keys := nodup_pop h.keys id
  held := by
    intro entry hmem
    obtain ⟨hold, hne⟩ := mem_pop.1 hmem
    obtain ⟨other, ho, hholds⟩ := h.held entry hold
    have hnum : n ≠ entry.2 := by
      intro heq
      have hmem' : (entry.1, n) ∈ s.inboundKv := by rw [heq]; exact hold
      exact hne (h.one_name hmem' hentry)
    have hcalls := hholds.concat (hcall.concerns entry.2 ▸ decide_eq_false hnum)
      fun _ => hcall.ne_cleanup _
    refine ⟨other, ho, { hcalls with started := hholds.started.trans ?_ }⟩
    refine exists_congr fun read => ?_
    rw [hr]
    constructor
    · rintro ⟨hread, heq⟩
      exact ⟨⟨hread, by rw [heq]; exact Ne.symm hnum⟩, heq⟩
    · rintro ⟨⟨hread, -⟩, heq⟩
      exact ⟨hread, heq⟩
  reading := by
    intro read hread
    obtain ⟨hold, hne⟩ := (hr read).1 hread
    refine mem_pop.2 ⟨h.reading read hold, ?_⟩
    intro heq
    have hmem := h.reading read hold
    rw [show read.notice.objectId = id from heq] at hmem
    exact hne (h.one_number hmem hentry)
  single := hsingle
  settled := by
    intro m hm
    by_cases heq : m = n
    · subst heq
      refine .inr ⟨transfer.request.requestId, ?_⟩
      have hcalls := (h.holds hentry ht).openCall
      obtain rfl | ⟨rfl, -⟩ := hcall
      · right
        rw [callsOf_concat, hcalls]
        simp [concerns]
      · left
        rw [callsOf_concat, hcalls]
        simp [concerns]
    · obtain ⟨id', hmem⟩ | ⟨requestId, hsettled⟩ := h.settled m hm
      · refine .inl ⟨id', mem_pop.2 ⟨hmem, ?_⟩⟩
        intro hid
        rw [show id' = id from hid] at hmem
        exact heq (h.one_number hmem hentry)
      · refine .inr ⟨requestId, ?_⟩
        exact hsettled.concat (hcall.concerns m ▸ decide_eq_false (Ne.symm heq))
  fresh := by
    intro m hm
    have hne : n ≠ m := ne_of_lt (lt_of_lt_of_le (h.lt_reserved hentry) hm)
    rw [callsOf_concat_of_not (hcall.concerns m ▸ decide_eq_false hne)]
    exact h.fresh m hm
  commits := by
    refine commitsInOrder_concat h.commits fun m requestId heq => ?_
    have hholds := h.holds hentry ht
    obtain rfl | ⟨rfl, hclear⟩ := hcall
    · cases heq
    · cases heq
      exact ⟨hholds.unmarked hclear, hholds.uncleaned hclear⟩
  marked := by
    intro hopen requestId hmem
    refine h.marked hopen requestId ((mem_append.1 hmem).resolve_right fun hlast => ?_)
    exact hcall.ne_cleanup _ (mem_singleton.1 hlast).symm
  stopped := h.stopped
  drained := h.drained
  empty := by
    intro hclosed
    have hnil := h.empty hclosed
    rw [hnil] at hentry
    exact absurd hentry not_mem_nil

end

/-! ## Prepare -/

section

variable (h : Reservations s)
include h

theorem answered (message : KvAnswer) : Reservations (s.answer message) :=
  { h with }

theorem open_of_control (hctl : s.controlRuns = true) : s.closing = .«open» := by
  by_contra hc
  rw [h.stopped hc] at hctl
  cases hctl

theorem ne_reserved {entry : String × ℕ} (hentry : entry ∈ s.inboundKv) :
    entry.2 ≠ s.reserved :=
  ne_of_lt (h.lt_reserved (show (entry.1, entry.2) ∈ s.inboundKv from hentry))

theorem unmarked_reserve (hopen : s.closing = .«open») {requestId : String}
    (hmk : requestId ∉ s.abortedKvRequests)
    (hmem : .cleanup requestId ∈ s.calls ++ [.reserve s.reserved requestId]) :
    requestId ∈ s.discarded := by
  have hold := (mem_append.1 hmem).resolve_right (by simp)
  exact (h.marked (by rw [hopen]; simp) requestId hold).resolve_left hmk

theorem reserves (hopen : s.closing = .«open») {message : KvPrepare}
    (hn : message.transferId ∉ s.inboundKv.keys)
    (hmk : message.requestId ∉ s.abortedKvRequests) (destination : KvDestination) :
    Reservations ((s.reserve message).install s.reserved message destination) where
  keys := nodup_set h.keys ..
  held := by
    intro entry hmem
    obtain rfl | ⟨-, hold⟩ := Dict.mem_set.1 hmem
    · refine ⟨_, update_self .., rfl, ?_, ?_, ?_, ?_⟩
      · show callsOf s.reserved (s.calls ++ [.reserve s.reserved message.requestId]) = _
        rw [callsOf_concat, h.fresh s.reserved le_rfl]
        simp [concerns]
      · refine iff_of_false (by simp) ?_
        rintro ⟨read, hread, heq⟩
        exact h.ne_reserved (h.reading read hread) heq
      · exact fun _ => uncleaned_reserve (h.fresh s.reserved le_rfl)
      · exact fun _ => h.unmarked_reserve hopen hmk
    · obtain ⟨transfer, ht, hholds⟩ := h.held entry hold
      refine ⟨transfer, (update_of_ne (h.ne_reserved hold) ..).trans ht, ?_⟩
      exact hholds.concat (concerns_reserve (Ne.symm (h.ne_reserved hold))) (by simp)
  reading := by
    intro read hread
    have hold := h.reading read hread
    have hne : read.notice.objectId ≠ message.transferId :=
      fun heq => hn (heq ▸ Dict.mem_keys.2 ⟨_, hold⟩)
    exact Dict.mem_set.2 (.inr ⟨hne, hold⟩)
  single := h.single
  settled := by
    intro m hm
    obtain heq | hlt := Nat.eq_or_lt_of_le (Nat.le_of_lt_succ hm)
    · exact .inl ⟨message.transferId, Dict.mem_set.2 (.inl (by rw [heq]))⟩
    · obtain ⟨id, hmem⟩ | ⟨requestId, hsettled⟩ := h.settled m hlt
      · refine .inl ⟨id, Dict.mem_set.2 (.inr ⟨?_, hmem⟩)⟩
        rintro rfl
        exact hn (Dict.mem_keys.2 ⟨_, hmem⟩)
      · exact .inr ⟨requestId, hsettled.concat (concerns_reserve (Nat.ne_of_gt hlt))⟩
  fresh := by
    intro m hm
    refine (callsOf_concat_of_not (concerns_reserve (ne_of_lt hm))).trans ?_
    exact h.fresh m (Nat.le_of_succ_le hm)
  commits := commitsInOrder_concat h.commits (by simp)
  marked := by
    intro hc requestId hmem
    exact h.marked hc requestId ((mem_append.1 hmem).resolve_right (by simp))
  stopped := h.stopped
  drained := h.drained
  empty := fun hclosed => absurd (hclosed.symm.trans hopen) (by simp)

theorem rejects (message : KvPrepare) :
    Reservations ((s.reserve message).log (.abort s.reserved message.requestId)) where
  keys := h.keys
  held := by
    intro entry hmem
    obtain ⟨transfer, ht, hholds⟩ := h.held entry hmem
    have ho := Ne.symm (h.ne_reserved hmem)
    refine ⟨transfer, ht, ?_⟩
    exact (hholds.concat (concerns_reserve ho) (by simp)).concat (concerns_abort ho)
      (by simp)
  reading := h.reading
  single := h.single
  settled := by
    intro m hm
    obtain heq | hlt := Nat.eq_or_lt_of_le (Nat.le_of_lt_succ hm)
    · refine .inr ⟨message.requestId, .inr ?_⟩
      show callsOf m (s.calls ++ [.reserve s.reserved message.requestId] ++
        [.abort s.reserved message.requestId]) = _
      rw [callsOf_concat, callsOf_concat, h.fresh m (le_of_eq heq.symm), heq]
      simp [concerns]
    · have ho := Nat.ne_of_gt hlt
      refine (h.settled m hlt).imp_right fun ⟨requestId, hsettled⟩ => ⟨requestId, ?_⟩
      exact (hsettled.concat (concerns_reserve ho)).concat (concerns_abort ho)
  fresh := by
    intro m hm
    have ho := Nat.ne_of_lt hm
    refine (callsOf_concat_of_not (concerns_abort ho)).trans ?_
    refine (callsOf_concat_of_not (concerns_reserve ho)).trans ?_
    exact h.fresh m (Nat.le_of_succ_le hm)
  commits := commitsInOrder_concat (commitsInOrder_concat h.commits (by simp)) (by simp)
  marked := by
    intro hc requestId hmem
    have hmem' := (mem_append.1 hmem).resolve_right (by simp)
    exact h.marked hc requestId ((mem_append.1 hmem').resolve_right (by simp))
  stopped := h.stopped
  drained := h.drained
  empty := h.empty

theorem onPrepare (hctl : s.controlRuns = true) (message : KvPrepare)
    (replies : PrepareReplies) : Reservations (s.onPrepare message replies) := by
  have hopen := h.open_of_control hctl
  have hdies : Reservations { s with controlRuns := false } := { h with stopped := fun _ => rfl }
  unfold KvReceive.onPrepare
  split
  · exact h.answered _
  · next hmk =>
    unfold prepareKvReceive
    by_cases hn : message.transferId ∈ s.inboundKv.keys
    · rw [if_pos hn]
      exact hdies
    · rw [if_neg hn]
      split
      · next hnone =>
        exact hdies
      · next t outcome hsome =>
        refine Reservations.answered ?_ _
        split at hsome
        · cases hsome
          exact h
        · split at hsome
          · cases hsome
          · split at hsome
            · cases hsome
              exact h
            · split at hsome
              · cases hsome
                exact h
              · split at hsome
                · cases hsome
                  exact h.reserves hopen hn hmk _
                · cases hsome
                  exact h.rejects message

end

/-! ## Reads and clean-up -/

section

variable (h : Reservations s)
include h

theorem replaced (hentry : (id, n) ∈ s.inboundKv) {transfer' : InboundTransfer}
    {reads : List KvRead} (hnew : HeldReservation s.calls reads s.discarded (id, n) transfer')
    (hothers : ∀ read, read.transfer ≠ n → (read ∈ reads ↔ read ∈ s.reads))
    (hmine : ∀ read ∈ reads, read.transfer = n → read.notice.objectId = id)
    (hsingle : (reads.map (·.transfer)).Nodup) :
    Reservations ({ s with reads }.setTransfer n transfer') :=
  { h with
    held := by
      intro entry hmem
      by_cases hnum : entry.2 = n
      · have hn : entry.1 = id := h.one_name (n := n) (hnum ▸ hmem) hentry
        obtain rfl : entry = (id, n) := Prod.ext hn hnum
        exact ⟨transfer', update_self .., hnew⟩
      · obtain ⟨other, ho, hholds⟩ := h.held entry hmem
        refine ⟨other, (update_of_ne hnum ..).trans ho, { hholds with started := ?_ }⟩
        refine hholds.started.trans (exists_congr fun read => ?_)
        constructor
        · rintro ⟨hread, heq⟩
          exact ⟨(hothers read (heq ▸ hnum)).2 hread, heq⟩
        · rintro ⟨hread, heq⟩
          exact ⟨(hothers read (heq ▸ hnum)).1 hread, heq⟩
    reading := by
      intro read hread
      by_cases hnum : read.transfer = n
      · rw [hmine read hread hnum, hnum]
        exact hentry
      · exact h.reading read ((hothers read hnum).1 hread)
    single := hsingle }

theorem begins {notice : KvNotice} (hget : s.inboundKv.get notice.objectId = some n)
    (ht : s.transfers n = some transfer) (hfst : ∀ read ∈ s.reads, read.transfer ≠ n) :
    Reservations ({ s with reads := s.reads ++ [(⟨notice, n⟩ : KvRead)] }.setTransfer n
      { transfer with copyStarted := true }) := by
  have hentry := (get_eq_some h.keys).1 hget
  have hholds := h.holds hentry ht
  refine h.replaced hentry ?_ ?_ ?_ ?_
  · exact { hholds with
      started := iff_of_true rfl ⟨_, mem_append_right _ mem_cons_self, rfl⟩ }
  · intro read hne
    rw [mem_append, mem_singleton]
    refine or_iff_left ?_
    rintro rfl
    exact hne rfl
  · intro read hread hnum
    rw [mem_append, mem_singleton] at hread
    obtain hold | rfl := hread
    · exact absurd hnum (hfst read hold)
    · rfl
  · rw [map_append, nodup_append]
    refine ⟨h.single, nodup_singleton _, ?_⟩
    rintro a ha b hb rfl
    obtain ⟨read, hread, heq⟩ := mem_map.1 ha
    exact hfst read hread (heq.trans (mem_singleton.1 hb))

theorem dooms (hentry : (id, n) ∈ s.inboundKv) (ht : s.transfers n = some transfer) :
    Reservations (s.setTransfer n { transfer with abortError := true }) := by
  have hholds := h.holds hentry ht
  have hnew : HeldReservation s.calls s.reads s.discarded (id, n)
      { transfer with abortError := true } :=
    { hholds with
      uncleaned := fun hclear => absurd hclear (by simp)
      unmarked := fun hclear => absurd hclear (by simp) }
  refine h.replaced hentry hnew (fun _ _ => Iff.rfl) ?_ h.single
  intro read hread hnum
  exact h.one_name (hnum ▸ h.reading read hread) hentry

/-- A transfer of the request is told to abort, if it is held. -/
def Doomed (requestId : String) (s : KvReceive) (n : ℕ) : Prop :=
  ∀ transfer, s.transfers n = some transfer → transfer.request.requestId = requestId →
    transfer.abortError = true

/-- What one round of the loop of `cleanup` does. -/
structure Swept (requestId : String) (s : KvReceive) (entry : String × ℕ) (t : KvReceive) :
    Prop where
  reservations : Reservations t
  marks : t.abortedKvRequests = s.abortedKvRequests ∧ t.discarded = s.discarded ∧
    t.closing = s.closing
  subset : t.inboundKv ⊆ s.inboundKv
  others : ∀ other ∈ s.inboundKv, other.1 ≠ entry.1 → other ∈ t.inboundKv
  doomed : ∀ m, Doomed requestId s m → Doomed requestId t m
  own : entry ∈ t.inboundKv → Doomed requestId t entry.2

theorem swept {entry : String × ℕ} (hentry : entry ∈ s.inboundKv) (requestId : String) :
    Swept requestId s entry (s.cleanupTransfer requestId entry) := by
  obtain ⟨transfer, ht, hholds⟩ := h.held entry hentry
  unfold cleanupTransfer
  rw [ht]
  dsimp only
  split
  · next hne =>
    refine ⟨h, ⟨rfl, rfl, rfl⟩, List.Subset.refl _, fun _ hmem _ => hmem, fun _ hm => hm, ?_⟩
    intro _ transfer' ht' heq
    rw [ht] at ht'
    cases ht'
    exact absurd heq hne
  · next heq =>
    obtain rfl := not_not.1 heq
    split
    · have hset : ∀ m, Doomed transfer.request.requestId s m → Doomed transfer.request.requestId
          (s.setTransfer entry.2 { transfer with abortError := true }) m := by
        intro m hm transfer' ht' hreq
        obtain ⟨-, hsame⟩ | ⟨-, hold⟩ := update_eq_some ht'
        · cases hsame
          rfl
        · exact hm transfer' hold hreq
      refine ⟨h.dooms hentry ht, ⟨rfl, rfl, rfl⟩, List.Subset.refl _, fun _ hmem _ => hmem,
        hset, ?_⟩
      intro _ transfer' ht' _
      obtain ⟨-, hsame⟩ | ⟨hne, -⟩ := update_eq_some ht'
      · cases hsame
        rfl
      · exact absurd rfl hne
    · next hidle =>
      have hnone : ∀ read ∈ s.reads, read.transfer ≠ entry.2 := by
        intro read hread hnum
        exact hidle (hholds.started.2 ⟨read, hread, hnum⟩)
      refine ⟨?_, ⟨rfl, rfl, rfl⟩, ?_, ?_, fun _ hm => hm, ?_⟩
      · refine h.settles hentry ht (.inl rfl) (fun read => ?_) h.single
        exact ⟨fun hread => ⟨hread, hnone read hread⟩, And.left⟩
      · exact fun _ hmem => (mem_pop.1 hmem).1
      · exact fun _ hmem hne => mem_pop.2 ⟨hmem, hne⟩
      · exact fun hmem => absurd rfl (mem_pop.1 hmem).2

end

theorem swept_all (requestId : String) (entries : List (String × ℕ))
    (hkeys : (entries.map Prod.fst).Nodup) {s : KvReceive} (h : Reservations s)
    (hsubset : entries ⊆ s.inboundKv) :
    let t := entries.foldl (cleanupTransfer requestId) s
    Reservations t ∧ (t.abortedKvRequests = s.abortedKvRequests ∧ t.discarded = s.discarded ∧
        t.closing = s.closing) ∧
      t.inboundKv ⊆ s.inboundKv ∧
      ∀ entry ∈ t.inboundKv, entry ∈ entries ∨ Doomed requestId s entry.2 →
        Doomed requestId t entry.2 := by
  induction entries generalizing s with
  | nil =>
    refine ⟨h, ⟨rfl, rfl, rfl⟩, List.Subset.refl _, fun entry _ hor => ?_⟩
    exact hor.resolve_left not_mem_nil
  | cons entry rest ih =>
    obtain ⟨hfrs, hrest⟩ := nodup_cons.1 hkeys
    have hone := h.swept (hsubset mem_cons_self) requestId
    have hheld : rest ⊆ (s.cleanupTransfer requestId entry).inboundKv := by
      intro other ho
      refine hone.others other (hsubset (mem_cons_of_mem _ ho)) fun heq => ?_
      exact hfrs (mem_map.2 ⟨other, ho, heq⟩)
    obtain ⟨hall, ⟨habt, hdiscarded, hc⟩, hin, hdoomed⟩ :=
      ih hrest hone.reservations hheld
    obtain ⟨habt', hdiscarded', hc'⟩ := hone.marks
    refine ⟨hall, ⟨habt.trans habt', hdiscarded.trans hdiscarded',
      hc.trans hc'⟩, List.Subset.trans hin hone.subset, fun other ho hor => ?_⟩
    refine hdoomed other ho ?_
    rw [mem_cons] at hor
    obtain (rfl | hmem) | hold := hor
    · exact .inr (hone.own (hin ho))
    · exact .inl hmem
    · exact .inr (hone.doomed _ hold)

theorem marked_of_insert {requestId other : String} {order : List String}
    (h : other ∈ s.abortedKvRequests.insert requestId) :
    other ∈ (s.mark requestId order).abortedKvRequests ∨
      other ∈ (s.mark requestId order).discarded := by
  by_cases hkept : other ∈ (s.mark requestId order).abortedKvRequests
  · exact .inl hkept
  · exact .inr (mem_append_right _ (mem_filter.2 ⟨h, decide_eq_true hkept⟩))

section

variable (h : Reservations s)
include h

theorem mark (requestId : String) (order : List String) :
    Reservations (s.mark requestId order) :=
  { h with
    held := by
      intro entry hmem
      obtain ⟨transfer, ht, hholds⟩ := h.held entry hmem
      refine ⟨transfer, ht, { hholds with unmarked := fun hclear hcall => ?_ }⟩
      exact mem_append_left _ (hholds.unmarked hclear hcall)
    commits := h.commits.mono (subset_append_left ..)
    marked := by
      intro hc other hcall
      obtain hmem | hmem := h.marked hc other hcall
      · exact marked_of_insert (mem_insert_of_mem hmem)
      · exact .inr (mem_append_left _ hmem) }

/-- A request that has no transfer under way has been cleaned up. -/
theorem logCleanup {requestId : String}
    (hdoomed : ∀ entry ∈ s.inboundKv, Doomed requestId s entry.2)
    (hmk : requestId ∈ s.abortedKvRequests ∨ requestId ∈ s.discarded) :
    Reservations (s.log (.cleanup requestId)) :=
  { h with
    held := by
      intro entry hmem
      obtain ⟨transfer, ht, hholds⟩ := h.held entry hmem
      refine ⟨transfer, ht, hholds.concat rfl fun hclear heq => ?_⟩
      have hset := hdoomed entry hmem transfer ht (ReceiverCall.cleanup.inj heq).symm
      rw [hclear] at hset
      cases hset
    settled := by
      intro m hm
      refine (h.settled m hm).imp_right fun ⟨requestId', hsettled⟩ => ⟨requestId', ?_⟩
      exact hsettled.concat rfl
    fresh := fun m hm => (callsOf_concat_of_not rfl).trans (h.fresh m hm)
    commits := commitsInOrder_concat h.commits (by simp)
    marked := by
      intro hc other hcall
      rw [log, mem_append, mem_singleton] at hcall
      obtain hold | hnew := hcall
      · exact h.marked hc other hold
      · obtain rfl := ReceiverCall.cleanup.inj hnew
        exact hmk }

theorem cleanup (requestId : String) (order : List String) :
    Reservations (s.cleanup requestId order) := by
  have hmk := h.mark requestId order
  obtain ⟨hall, ⟨habt, hdiscarded, -⟩, hin, hdoomed⟩ :=
    swept_all requestId s.inboundKv h.keys hmk (List.Subset.refl _)
  refine hall.logCleanup (fun entry hmem => hdoomed entry hmem (.inl (hin hmem))) ?_
  rw [habt, hdiscarded]
  exact marked_of_insert mem_insert_self

theorem failed (notice : KvNotice) (order : List String) :
    Reservations (s.failed notice order) := (h.cleanup notice.requestId order).answered _

theorem leaveRead {k : ℕ} {read : KvRead} (hread : s.reads[k]? = some read)
    (ht : s.transfers read.transfer = some transfer) {call : ReceiverCall}
    (hcall : EndsReservation read.transfer transfer call) :
    Reservations ((s.log call).leaveRead k read) := by
  have hentry := h.reading read (mem_of_getElem? hread)
  refine h.settles hentry ht hcall (fun other => ?_)
    (h.single.sublist ((eraseIdx_sublist ..).map _))
  rw [mem_eraseIdx_iff_getElem?]
  constructor
  · rintro ⟨i, hne, hi⟩
    refine ⟨mem_of_getElem? hi, fun heq => hne ?_⟩
    have hat : s.reads[i]? = some other := hi
    have hlt : i < (s.reads.map (·.transfer)).length := by
      rw [length_map]
      exact (List.getElem?_eq_some_iff.1 hat).1
    refine (getElem?_inj hlt h.single).1 ?_
    rw [getElem?_map, getElem?_map, hat, hread, map_some, map_some, heq]
  · rintro ⟨hmem, hne⟩
    obtain ⟨i, hi⟩ := mem_iff_getElem?.1 hmem
    refine ⟨i, ?_, hi⟩
    rintro rfl
    rw [hread] at hi
    exact hne (congrArg KvRead.transfer (some.inj hi).symm)

theorem readRaises {k : ℕ} {read : KvRead} (hread : s.reads[k]? = some read)
    (ht : s.transfers read.transfer = some transfer) (order : List String) :
    Reservations (s.readRaises k read transfer order) :=
  (h.leaveRead hread ht (.inl rfl)).failed _ _

theorem readReturns {k : ℕ} {read : KvRead} (hread : s.reads[k]? = some read)
    (ht : s.transfers read.transfer = some transfer) (committed : Bool) (order : List String)
    : Reservations (s.readReturns k read transfer committed order) := by
  unfold KvReceive.readReturns
  split
  · exact h.readRaises hread ht order
  · next hclear =>
    split
    · exact (h.leaveRead hread ht (.inr ⟨rfl, eq_false_of_ne_true hclear⟩)).answered _
    · exact h.readRaises hread ht order

end

/-! ## Close -/

/-- The loop of `close`, when no read is under way. -/
theorem closes (entries : List (String × ℕ)) {s : KvReceive}
    (h : Reservations { s with inboundKv := entries }) (hr : s.reads = []) :
    Reservations { entries.foldl KvReceive.closeTransfer s with inboundKv := [] } := by
  induction entries generalizing s with
  | nil => exact h
  | cons entry rest ih =>
    obtain ⟨transfer, ht, -⟩ := h.held entry mem_cons_self
    have hone : s.closeTransfer entry = s.log (.abort entry.2 transfer.request.requestId) := by
      unfold closeTransfer
      rw [show s.transfers entry.2 = some transfer from ht]
    have hpop : pop (entry :: rest) entry.1 = rest := by
      obtain ⟨hfrs, -⟩ := nodup_cons.1 h.keys
      rw [pop, filter_cons_of_neg (by simp), filter_eq_self]
      intro other ho
      refine decide_eq_true fun heq => hfrs ?_
      exact mem_map.2 ⟨other, ho, heq⟩
    rw [foldl_cons, hone]
    refine ih ?_ hr
    have hentry : (entry.1, entry.2) ∈ entry :: rest := mem_cons_self
    have hnone : ∀ read, read ∈ s.reads ↔ read ∈ s.reads ∧ read.transfer ≠ entry.2 := by
      intro read
      rw [hr]
      simp
    have hsettled := h.settles hentry ht (.inl rfl) hnone h.single
    rw [hpop] at hsettled
    exact hsettled

theorem foldl_closeTransfer (entries : List (String × ℕ)) (s : KvReceive) :
    (entries.foldl KvReceive.closeTransfer s).reads = s.reads ∧
      (entries.foldl KvReceive.closeTransfer s).controlRuns = s.controlRuns ∧
      (entries.foldl KvReceive.closeTransfer s).created = s.created := by
  induction entries generalizing s with
  | nil => exact ⟨rfl, rfl, rfl⟩
  | cons entry rest ih =>
    have hone : (s.closeTransfer entry).reads = s.reads ∧
        (s.closeTransfer entry).controlRuns = s.controlRuns ∧
        (s.closeTransfer entry).created = s.created := by
      unfold closeTransfer
      split <;> exact ⟨rfl, rfl, rfl⟩
    obtain ⟨hr, hctl, hcrt⟩ := ih (s.closeTransfer entry)
    exact ⟨hr.trans hone.1, hctl.trans hone.2.1, hcrt.trans hone.2.2⟩

theorem closeRest (h : Reservations s) (hc : s.closing = .reads) (hr : s.reads = []) :
    Reservations s.closeRest := by
  have hall := closes s.inboundKv h hr
  obtain ⟨-, hctl, hcrt⟩ := foldl_closeTransfer s.inboundKv s
  exact { hall with
    marked := fun hopen => absurd rfl hopen
    stopped := fun _ => hctl.trans (h.stopped (by rw [hc]; simp))
    drained := fun _ => hcrt.trans (h.drained (.inl hc))
    empty := fun _ => rfl }

end Reservations

/-! ## Runs -/

/-- The notice is taken up while a read of its transfer is under way. -/
def Overlaps (s : KvReceive) : ReceiveEvent → Prop
  | .startRead k relay _ =>
    ∃ notice ∈ s.created[k]?, notice.requestId ∉ s.abortedKvRequests ∧ relay = true ∧
      notice.transport = .cudaIpc ∧
      ∃ read ∈ s.reads, s.inboundKv.get notice.objectId = some read.transfer
  | _ => False

instance : ∀ s event, Decidable (Overlaps s event)
  | s, .startRead k relay _ =>
    inferInstanceAs (Decidable (∃ notice ∈ s.created[k]?,
      notice.requestId ∉ s.abortedKvRequests ∧ relay = true ∧ notice.transport = .cudaIpc ∧
      ∃ read ∈ s.reads, s.inboundKv.get notice.objectId = some read.transfer))
  | _, .registerPool .. | _, .registerReceiver .. | _, .prepare .. | _, .notice ..
  | _, .readReturns .. | _, .readRaises .. | _, .readCancelled .. | _, .cleanup ..
  | _, .close | _, .closeReads | _, .closeRest => .isFalse id

namespace Reservations

variable {s : KvReceive}

theorem startRead (h : Reservations s) {k : ℕ} {notice : KvNotice}
    (hcrt : s.created[k]? = some notice) {relay : Bool} {order : List String}
    (hfst : ¬Overlaps s (.startRead k relay order)) :
    Reservations (s.startRead k notice relay order) := by
  have htaken : Reservations { s with created := s.created.eraseIdx k } :=
    { h with
      drained := by
        intro hc
        rw [h.drained hc] at hcrt
        cases hcrt }
  dsimp only [KvReceive.startRead]
  split
  · exact htaken.answered _
  · next hmk =>
    split
    · next hrelay =>
      unfold beginRead
      split
      · exact htaken.failed notice order
      · next htransport =>
        cases hget : s.inboundKv.get notice.objectId with
        | none => exact htaken.failed notice order
        | some n =>
          obtain ⟨transfer, ht, -⟩ := h.held _ ((get_eq_some h.keys).1 hget)
          have hbegins := htaken.begins hget ht fun read hread hnum =>
            hfst ⟨notice, hcrt, hmk, hrelay, not_not.1 htransport, read, hread, hnum ▸ hget⟩
          simp only [bind_some, ht, map_some, getD_some]
          exact hbegins
    · exact htaken.failed notice order

theorem reading_eq_some {k : ℕ} {f : KvRead → InboundTransfer → KvReceive} {t : KvReceive}
    (hstep : s.reading k f = some t) : ∃ read transfer, s.reads[k]? = some read ∧
      s.transfers read.transfer = some transfer ∧ t = f read transfer := by
  obtain ⟨read, hread, hmap⟩ := bind_eq_some_iff.1 hstep
  obtain ⟨transfer, ht, heq⟩ := map_eq_some_iff.1 hmap
  exact ⟨read, transfer, hread, ht, heq.symm⟩

theorem step (h : Reservations s) {event : ReceiveEvent} {t : KvReceive}
    (hstep : receiveStep s event = some t) (hfst : ¬Overlaps s event) : Reservations t := by
  cases event with
  | registerPool poolId pool | registerReceiver poolId =>
    cases hstep
    exact { h with }
  | prepare message replies =>
    obtain ⟨hctl, ⟨⟩⟩ := of_guard hstep
    exact h.onPrepare hctl message replies
  | notice notice =>
    obtain ⟨hctl, ⟨⟩⟩ := of_guard hstep
    have hopen := h.open_of_control hctl
    exact { h with
      drained := by
        rintro (heq | heq)
        · exact absurd (heq.symm.trans hopen) (by simp)
        · exact absurd (heq.symm.trans hopen) (by simp) }
  | startRead k relay order =>
    obtain ⟨notice, hcrt, rfl⟩ := map_eq_some_iff.1 hstep
    exact h.startRead hcrt hfst
  | readReturns k committed order =>
    obtain ⟨read, transfer, hread, ht, rfl⟩ := reading_eq_some hstep
    exact h.readReturns hread ht committed order
  | readRaises k order =>
    obtain ⟨read, transfer, hread, ht, rfl⟩ := reading_eq_some hstep
    exact h.readRaises hread ht order
  | readCancelled k =>
    obtain ⟨read, transfer, hread, ht, rfl⟩ := reading_eq_some hstep
    exact h.leaveRead hread ht (.inl rfl)
  | cleanup requestId order =>
    cases hstep
    exact h.cleanup requestId order
  | close =>
    rw [receiveStep] at hstep
    split at hstep
    · cases hstep
      exact { h with
        marked := fun _ => h.marked (by simp [*])
        stopped := fun _ => rfl
        drained := fun hc => by simp at hc
        empty := fun hclosed => absurd hclosed (by simp) }
    · cases hstep
      exact h
  | closeReads =>
    obtain ⟨hc, ⟨⟩⟩ := of_guard hstep
    exact { h with
      marked := fun _ => h.marked (by simp [hc])
      stopped := fun _ => h.stopped (by simp [hc])
      drained := fun _ => rfl
      empty := fun hclosed => absurd hclosed (by simp) }
  | closeRest =>
    obtain ⟨⟨hc, hr⟩, ⟨⟩⟩ := of_guard hstep
    exact h.closeRest hc hr

end Reservations

/-- In every run in which no notice is taken up while a read of its transfer is under way: one
    commit or one abort follows a reservation, unless it is still in `_inbound_kv`, where nothing
    is left once `close` is through; and no commit comes after a clean-up of its request. -/
theorem kv_reservations_settled (s : KvReceive)
    (h : (receiveSystem.restrict fun s event => ¬Overlaps s event).Reachable s) :
    (∀ n requestId, .reserve n requestId ∈ s.calls →
      SettledOnce s.calls n requestId ∨
        callsOf n s.calls = [.reserve n requestId] ∧ ∃ id, (id, n) ∈ s.inboundKv) ∧
    (s.closing = .closed → s.inboundKv = [] ∧ s.reads = []) ∧
    CommitsInOrder s.calls s.discarded := by
  have hs : Reservations s := by
    refine h.invariant (P := Reservations) (fun s hinit => ?_) fun s event t hs hstep => ?_
    · obtain rfl : s = {} := hinit
      exact .init
    · exact hs.step hstep.1 hstep.2
  refine ⟨fun n requestId hmem => ?_, fun hclosed => ?_, hs.commits⟩
  · have hcalls : .reserve n requestId ∈ callsOf n s.calls :=
      mem_filter.2 ⟨hmem, decide_eq_true rfl⟩
    have hlt : n < s.reserved := by
      by_contra hge
      rw [hs.fresh n (Nat.le_of_not_lt hge)] at hcalls
      exact absurd hcalls not_mem_nil
    obtain ⟨id, hentry⟩ | ⟨requestId', hsettled⟩ := hs.settled n hlt
    · obtain ⟨transfer, -, hholds⟩ := hs.held (id, n) hentry
      have hopen := hholds.openCall
      rw [show callsOf n s.calls = _ from hopen, mem_singleton] at hcalls
      cases hcalls
      exact .inr ⟨hopen, id, hentry⟩
    · refine .inl ?_
      have hsame : requestId = requestId' := by
        obtain heq | heq := hsettled
        · rw [heq] at hcalls
          simpa using hcalls
        · rw [heq] at hcalls
          simpa using hcalls
      rw [hsame]
      exact hsettled
  · have hempty := hs.empty hclosed
    refine ⟨hempty, eq_nil_iff_forall_not_mem.2 fun read hread => ?_⟩
    have hentry := hs.reading read hread
    rw [hempty] at hentry
    exact absurd hentry not_mem_nil

/-! ## Concrete runs -/

def samplePool : KvPool := ⟨"NHD", 1, [⟨"layer.0.kv", 8, 4⟩]⟩

def samplePrepare (requestId transferId : String) (page : Int) : ReceiveEvent :=
  .prepare ⟨requestId, transferId, "prefill", "decode", "pool", [page], samplePool.layout⟩
    ⟨.cudaIpc, true, some ⟨"pool", [page]⟩, true⟩

def sampleNotice (requestId transferId : String) : ReceiveEvent :=
  .notice ⟨requestId, transferId, .cudaIpc⟩

/-- Two transfers: the request of the first is cleaned up while it is read, the second is
    committed, and its second notice comes too late. -/
theorem kv_reservations_settled_cleaned : ∃ s : KvReceive, s.closing = .closed ∧
    callsOf 0 s.calls = [.reserve 0 "a", .abort 0 "a"] ∧
    callsOf 1 s.calls = [.reserve 1 "b", .commit 1 "b"] ∧ CommitsInOrder s.calls s.discarded := by
  have hrun : System.exec
      (fun s event => if ¬Overlaps s event then receiveStep s event else none) {}
      [.registerPool "pool" samplePool, .registerReceiver "pool", samplePrepare "a" "t" 0,
        samplePrepare "b" "u" 1, sampleNotice "a" "t", .startRead 0 true [], .cleanup "a" [],
        sampleNotice "b" "u", sampleNotice "b" "u", .startRead 0 true [], .readReturns 1 true [],
        .startRead 0 true [], .readReturns 0 true [], .close, .closeReads, .closeRest] =
      some _ := rfl
  exact ⟨_, rfl, rfl, rfl, (kv_reservations_settled _ (.of_exec_guarded (.init rfl) hrun)).2.2⟩

/-- The second notice of a transfer, taken up during the copy, commits the reservation again. -/
theorem reservation_committed_twice : ∃ s : KvReceive, receiveSystem.Reachable s ∧
    s.closing = .closed ∧
    callsOf 0 s.calls = [.reserve 0 "a", .commit 0 "a", .commit 0 "a"] := by
  have hrun : System.exec receiveStep {}
      [.registerPool "pool" samplePool, .registerReceiver "pool", samplePrepare "a" "t" 0,
        sampleNotice "a" "t", sampleNotice "a" "t", .startRead 0 true [], .startRead 0 true [],
        .readReturns 0 true [], .readReturns 0 true [], .close, .closeReads, .closeRest] =
      some _ := rfl
  exact ⟨_, .of_exec (.init rfl) hrun, rfl, rfl⟩

/-! ## A request that is forgotten -/

/-- The engine after some clean-ups. -/
def afterCleanups (aborted discarded : List String) (calls : List ReceiverCall) : KvReceive where
  kvPools := [("pool", samplePool)]
  kvReceivers := ["pool"]
  abortedKvRequests := aborted
  discarded := discarded
  calls := calls

def sampleId (n : ℕ) : String := String.ofList (List.replicate n 'r')

theorem sampleId_injective : Injective sampleId := by
  intro m n h
  have hlists : List.replicate m 'r' = List.replicate n 'r' := String.ofList_injective h
  have hlengths := congrArg List.length hlists
  rwa [length_replicate, length_replicate] at hlengths

theorem afterCleanups_step (aborted discarded order : List String) (calls : List ReceiverCall)
    (requestId : String) : ∃ discarded',
    receiveStep (afterCleanups aborted discarded calls) (.cleanup requestId order) =
      some (afterCleanups (record 10000 5000 order aborted requestId) discarded'
        (calls ++ [.cleanup requestId])) := ⟨_, rfl⟩

theorem afterCleanups_reachable (n : ℕ) : ∃ discarded calls, receiveSystem.Reachable
      (afterCleanups (fill 10000 5000 sampleId n) discarded calls) := by
  induction n with
  | zero =>
    have hrun : System.exec receiveStep {}
      [.registerPool "pool" samplePool, .registerReceiver "pool"] = some _ := rfl
    exact ⟨[], [], .of_exec (.init rfl) hrun⟩
  | succ n ih =>
    obtain ⟨discarded, calls, hrch⟩ := ih
    obtain ⟨discarded', hstep⟩ := afterCleanups_step
      (fill 10000 5000 sampleId n) discarded [] calls (sampleId n)
    exact ⟨discarded', _, hrch.step hstep⟩

/-- The engine with a transfer whose notice has arrived. -/
def afterNotice (aborted discarded : List String) (calls : List ReceiverCall)
    (requestId : String) : KvReceive :=
  { afterCleanups aborted discarded (calls ++ [.reserve 0 requestId]) with
    transfers := Function.update (fun _ => none) 0 (some
      { request := ⟨requestId, "t", "prefill", "decode", "pool", [0], samplePool.layout⟩
        destination := ⟨"pool", [0]⟩ })
    inboundKv := [("t", 0)]
    reserved := 1
    answers := [.ready "t" (.ok ⟨"pool", [0]⟩)]
    created := [⟨requestId, "t", .cudaIpc⟩] }

/-- A transfer of a request that is not marked is committed. -/
theorem commits_unmarked {aborted discarded : List String} {calls : List ReceiverCall}
    {requestId : String} (hmk : requestId ∉ aborted)
    (hrch : receiveSystem.Reachable (afterCleanups aborted discarded calls)) :
    ∃ s, receiveSystem.Reachable s ∧
      s.calls = (calls ++ [.reserve 0 requestId]) ++ .commit 0 requestId :: [] := by
  have hnoticed : System.exec receiveStep (afterCleanups aborted discarded calls)
      [samplePrepare requestId "t" 0, sampleNotice requestId "t"] =
        some (afterNotice aborted discarded calls requestId) := by
    show bind (some (if requestId ∈ aborted then _ else _)) _ = _
    rw [if_neg hmk]
    rfl
  have hread : ∃ s, System.exec receiveStep (afterNotice aborted discarded calls requestId)
      [.startRead 0 true [], .readReturns 0 true []] = some s ∧
        s.calls = (calls ++ [.reserve 0 requestId]) ++ .commit 0 requestId :: [] := by
    show ∃ s, bind (some (if requestId ∈ aborted then _ else _)) _ = some s ∧ _
    rw [if_neg hmk]
    exact ⟨_, rfl, rfl⟩
  obtain ⟨s, hs, hcalls⟩ := hread
  exact ⟨s, (hrch.of_exec hnoticed).of_exec hs, hcalls⟩

/-- A request that is cleaned up after ten thousand others may leave the set of aborted ones at
    once, and be reserved and committed for. -/
theorem forgotten_request_committed : ∃ s before after requestId n, receiveSystem.Reachable s ∧
    s.calls = before ++ .commit n requestId :: after ∧ .cleanup requestId ∈ before := by
  obtain ⟨discarded, calls, hrch⟩ := afterCleanups_reachable 10000
  obtain ⟨discarded', hstep⟩ := afterCleanups_step (fill 10000 5000 sampleId 10000)
    discarded [sampleId 10000] calls (sampleId 10000)
  have hmk := notMem_record_fill sampleId_injective (show 5000 ≤ 10000 from by decide)
  obtain ⟨s, hs, hcalls⟩ := commits_unmarked hmk (hrch.step hstep)
  exact ⟨s, _, [], _, 0, hs, hcalls, by simp⟩

/-- Without the condition on notices a reservation is committed twice, and without the exception
    for requests that were forgotten a commit comes after the clean-up of its request. -/
theorem kv_reservations_not_settled :
    (∃ s : KvReceive, receiveSystem.Reachable s ∧ s.closing = .closed ∧
      callsOf 0 s.calls = [.reserve 0 "a", .commit 0 "a", .commit 0 "a"]) ∧
    ∃ s before after requestId n, receiveSystem.Reachable s ∧
      s.calls = before ++ .commit n requestId :: after ∧ .cleanup requestId ∈ before :=
  ⟨reservation_committed_twice, forgotten_request_committed⟩

end OmniRealtime
