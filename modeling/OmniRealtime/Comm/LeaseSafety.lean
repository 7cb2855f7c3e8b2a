import OmniRealtime.Comm.KvTransfer

/-!
# Leases of KV transfers

Where the lease of a send is, over every run of the engine.

1. `Custody`: a lease is with the caller, with a pending or retained transfer, or released.
2. `kv_lease_safety`: no lease is released twice or under a reader, and the bookkeeping never
   fails, as long as no failed publish returns and no answer reaches another transfer.
-/

namespace OmniRealtime

open List Option Function

namespace KvTransfers

open Function

variable {s t : KvTransfers} {i : ℕ} {send : KvSend} {transfer : PendingTransfer}

/-! ## Custody -/

/-- The send has handed its lease over to the transfer it published. -/
structure Published (send : KvSend) (transfer : PendingTransfer) : Prop where
  phase : send.phase = .publishing ∨ send.phase = .awaitingAck ∨ send.phase = .over
  lease : send.lease = false
  given : transfer.lease = send.given
  objectId : transfer.objectId = send.transferId

/-- Where the lease of a send is, given its transfer and how often it was released. -/
inductive Custody (send : KvSend) (retained : Prop) : Option PendingTransfer → ℕ → Prop
  | caller : send.phase = .preparing ∨ send.phase = .waitingReady → send.lease = send.given →
      Custody send retained none 0
  | returned : send.phase = .over → send.lease = false →
      Custody send retained none send.given.toNat
  | pending {transfer : PendingTransfer} : Published send transfer → transfer.task ≠ .over →
      Custody send retained (some transfer) 0
  | kept {transfer : PendingTransfer} : Published send transfer → transfer.task = .over →
      retained → Custody send retained (some transfer) 0
  | released {transfer : PendingTransfer} : Published send transfer → transfer.task = .over →
      transfer.receiverTerminal = true →
      Custody send retained (some transfer) transfer.lease.toNat

namespace Custody

variable {retained : Prop} {transfers : Option PendingTransfer} {n : ℕ}

theorem le_one (h : Custody send retained transfers n) : n ≤ 1 := by
  cases h with
  | caller _ _ | pending _ _ | kept _ _ _ => exact Nat.zero_le 1
  | returned _ _ | released _ _ _ => exact Bool.toNat_le _

/-- A send past its publish holds no lease. -/
theorem published (h : Custody send retained (some transfer) n) : Published send transfer := by
  cases h with
  | pending hp _ => exact hp
  | kept hp _ _ => exact hp
  | released hp _ _ => exact hp

theorem leave (h : Custody send retained transfers n) :
    Custody { send with phase := .over, lease := false } retained transfers
      (n + send.lease.toNat) := by
  cases h with
  | caller _ hl =>
    rw [hl, zero_add]
    exact .returned rfl rfl
  | returned _ hl =>
    rw [hl]
    exact .returned rfl rfl
  | pending hp htk =>
    rw [hp.lease]
    exact .pending ⟨.inr (.inr rfl), rfl, hp.given, hp.objectId⟩ htk
  | kept hp htk hkept =>
    rw [hp.lease]
    exact .kept ⟨.inr (.inr rfl), rfl, hp.given, hp.objectId⟩ htk hkept
  | released hp htk ht =>
    rw [hp.lease]
    exact .released ⟨.inr (.inr rfl), rfl, hp.given, hp.objectId⟩ htk ht

theorem moved (h : Custody send retained transfers n) {phase : SendPhase} {ready : ReadyFuture}
    (hcaller : send.phase = .preparing ∨ send.phase = .waitingReady →
      phase = .preparing ∨ phase = .waitingReady)
    (ho : send.phase = .over → phase = .over)
    (hpublished : send.phase = .publishing ∨ send.phase = .awaitingAck →
      phase = .publishing ∨ phase = .awaitingAck) :
    Custody { send with phase := phase, ready := ready } retained transfers n := by
  have hmoved {transfer : PendingTransfer} (hp : Published send transfer) :
      Published { send with phase := phase, ready := ready } transfer := by
    refine ⟨?_, hp.lease, hp.given, hp.objectId⟩
    rcases hp.phase with h | h | h
    · exact (hpublished (.inl h)).imp id .inl
    · exact (hpublished (.inr h)).imp id .inl
    · exact .inr (.inr (ho h))
  cases h with
  | caller hph hl => exact .caller (hcaller hph) hl
  | returned hph hl => exact .returned (ho hph) hl
  | pending hp htk => exact .pending (hmoved hp) htk
  | kept hp htk hkept => exact .kept (hmoved hp) htk hkept
  | released hp htk ht => exact .released (hmoved hp) htk ht

/-- A transfer that no watcher has ended has not released its lease. -/
theorem eq_zero (h : Custody send retained (some transfer) n) (htk : transfer.task ≠ .over) :
    n = 0 := by
  cases h with
  | pending _ _ => rfl
  | kept _ ho _ | released _ ho _ => exact absurd ho htk

end Custody

/-! ## The invariant -/

/-- The dict of pending transfers names those no watcher has ended, and every lease is somewhere. -/
structure Leased (s : KvTransfers) : Prop where
  fresh : ∀ i, s.sends i = none → s.transfers i = none ∧ s.releases i = 0
  custody : ∀ i send, s.sends i = some send →
    Custody send (i ∈ s.retainedPendingKvTransfers) (s.transfers i) (s.releases i)
  registered : ∀ objectId i, s.pending.get objectId = some i ↔
    ∃ transfer, s.transfers i = some transfer ∧ transfer.objectId = objectId ∧
      transfer.task ≠ .over
  answered : ∀ i transfer, s.transfers i = some transfer → transfer.ack = .received →
    transfer.receiverTerminal = true

theorem leased_start : Leased {} where
  fresh _ _ := ⟨rfl, rfl⟩
  custody _ _ h := by cases h
  registered objectId i := by
    constructor
    · intro h
      cases h
    · intro ⟨_, h, _⟩
      cases h
  answered _ _ h := by cases h

section

variable (h : Leased s)
include h

theorem sends_of_transfer (htransfer : s.transfers i = some transfer) :
    ∃ send, s.sends i = some send := by
  cases hsend : s.sends i with
  | none => rw [(h.fresh i hsend).1] at htransfer; cases htransfer
  | some send => exact ⟨send, rfl⟩

theorem Leased.setSend {send : KvSend}
    (hc : Custody send (i ∈ s.retainedPendingKvTransfers) (s.transfers i) (s.releases i)) :
    Leased (s.setSend i send) where
  fresh j hj := by
    have hne : j ≠ i := fun heq => by simp [KvTransfers.setSend, heq] at hj
    exact h.fresh j ((update_of_ne hne ..).symm.trans hj)
  custody j send' hj := by
    rcases update_eq_some hj with ⟨rfl, heq⟩ | ⟨-, hold⟩
    · cases heq
      exact hc
    · exact h.custody j send' hold
  registered := h.registered
  answered := h.answered

section

variable (hold : s.transfers i = some transfer) (ha : transfer.task ≠ .over)
  {transfer' : PendingTransfer}
include hold ha

theorem Leased.operate {t : KvTransfers} (hsends : t.sends = s.sends)
    (htransfers : t.transfers = update s.transfers i (some transfer'))
    (hothers : ∀ j, j ≠ i → t.releases j = s.releases j ∧
      (j ∈ t.retainedPendingKvTransfers ↔ j ∈ s.retainedPendingKvTransfers))
    (hc : ∀ send, Published send transfer → s.releases i = 0 →
      Custody send (i ∈ t.retainedPendingKvTransfers) (some transfer') (t.releases i))
    (hregistered : ∀ objectId j, t.pending.get objectId = some j ↔
      ∃ p, update s.transfers i (some transfer') j = some p ∧ p.objectId = objectId ∧
        p.task ≠ .over) (hanswered : transfer'.ack = .received → transfer'.receiverTerminal = true)
    : Leased t where
  fresh j hj := by
    rw [hsends] at hj
    have hne : j ≠ i := by
      rintro rfl
      cases hold.symm.trans (h.fresh j hj).1
    rw [htransfers, update_of_ne hne, (hothers j hne).1]
    exact h.fresh j hj
  custody j send hj := by
    have hbef := h.custody j send (hsends ▸ hj)
    rw [htransfers]
    by_cases hji : j = i
    · subst hji
      rw [hold] at hbef
      rw [update_self]
      exact hc send hbef.published (hbef.eq_zero ha)
    · rw [update_of_ne hji, (hothers j hji).1, propext (hothers j hji).2]
      exact hbef
  registered := htransfers ▸ hregistered
  answered j p hp := by
    rcases update_eq_some (htransfers ▸ hp) with ⟨-, heq⟩ | ⟨-, hp⟩
    · cases heq
      exact hanswered
    · exact h.answered j p hp

/-- A transfer that is pending stays so when its watcher is armed or its receiver answers. -/
theorem Leased.setTransfer (hid : transfer'.objectId = transfer.objectId)
    (hl : transfer'.lease = transfer.lease) (ha' : transfer'.task ≠ .over)
    (hanswered : transfer'.ack = .received → transfer'.receiverTerminal = true) :
    Leased (s.setTransfer i transfer') := by
  refine h.operate hold ha rfl rfl (fun j _ => ⟨rfl, Iff.rfl⟩) (fun send hp hzero => ?_)
    (fun objectId j => (h.registered objectId j).trans ?_) hanswered
  · show Custody send _ _ (s.releases i)
    rw [hzero]
    exact .pending ⟨hp.phase, hp.lease, hl.trans hp.given, hid.trans hp.objectId⟩ ha'
  · by_cases hji : j = i
    · subst hji
      simp [hold, hid, ha, ha']
    · rw [update_of_ne hji]

end

theorem pendingOf_eq_some {objectId : String}
    (hpnd : s.pendingOf objectId = some (i, transfer)) :
    s.transfers i = some transfer ∧ transfer.objectId = objectId ∧ transfer.task ≠ .over := by
  obtain ⟨j, hget, hmap⟩ := bind_eq_some_iff.mp hpnd
  obtain ⟨p, hp, heq⟩ := map_eq_some_iff.mp hmap
  cases heq
  obtain ⟨p', hp', hid, ha⟩ := (h.registered objectId i).mp hget
  rw [hp] at hp'
  cases hp'
  exact ⟨hp, hid, ha⟩

section

variable (hold : s.transfers i = some transfer) (ha : transfer.task ≠ .over)
include hold ha

/-- The end of a watcher takes its own transfer out of the dict, and no other. -/
theorem registered_pop (objectId : String) (j : ℕ) :
    (s.pending.pop transfer.objectId).get objectId = some j ↔
      ∃ p, update s.transfers i (some { transfer with task := .over }) j = some p ∧
        p.objectId = objectId ∧ p.task ≠ .over := by
  have hown : s.pending.get transfer.objectId = some i :=
    (h.registered _ _).mpr ⟨transfer, hold, rfl, ha⟩
  by_cases hid : objectId = transfer.objectId
  · subst hid
    rw [Dict.get_pop_self]
    constructor
    · intro hnone
      cases hnone
    · intro ⟨p, hp, hpid, hptask⟩
      rcases update_eq_some hp with ⟨-, heq⟩ | ⟨hne, hj⟩
      · cases heq
        exact absurd rfl hptask
      · have hother := (h.registered transfer.objectId j).mpr ⟨p, hj, hpid, hptask⟩
        rw [hown] at hother
        exact absurd (some.inj hother).symm hne
  · rw [Dict.get_pop_of_ne hid, h.registered]
    by_cases hji : j = i
    · subst hji
      simp [hold, Ne.symm hid]
    · rw [update_of_ne hji]

theorem Leased.releasePending (ht : transfer.receiverTerminal = true) :
    Leased (s.releasePending i transfer) := by
  refine h.operate hold ha rfl rfl (fun j hji => ⟨update_of_ne hji .., Iff.rfl⟩)
    (fun send hp hzero => ?_) (registered_pop h hold ha) fun _ => ht
  show Custody send _ _ (update s.releases i _ i)
  rw [update_self, hzero, zero_add]
  exact .released ⟨hp.phase, hp.lease, hp.given, hp.objectId⟩ rfl ht

theorem Leased.retainPending : Leased (s.retainPending i transfer) := by
  refine h.operate hold ha rfl rfl
    (fun j hji => ⟨rfl, by simp [KvTransfers.retainPending, KvTransfers.setTransfer, hji]⟩)
    (fun send hp hzero => ?_) (registered_pop h hold ha) (h.answered i transfer hold)
  show Custody send (i ∈ s.retainedPendingKvTransfers ++ [i]) _ (s.releases i)
  rw [hzero]
  exact .kept ⟨hp.phase, hp.lease, hp.given, hp.objectId⟩ rfl
    (mem_append_right _ (mem_singleton_self _))

theorem Leased.watchFailed : Leased (s.watchFailed i transfer) := by
  unfold KvTransfers.watchFailed
  split
  · next ht => exact h.releasePending hold ha ht
  · exact h.retainPending hold ha

end

theorem Leased.leave
    (hc : Custody send (i ∈ s.retainedPendingKvTransfers) (s.transfers i) (s.releases i)) :
    Leased (s.leave i send) where
  fresh j hj := by
    have hne : j ≠ i := fun heq => by simp [KvTransfers.leave, KvTransfers.setSend, heq] at hj
    have hold := h.fresh j ((update_of_ne hne ..).symm.trans hj)
    exact ⟨hold.1, (update_of_ne hne ..).trans hold.2⟩
  custody j send' hj := by
    show Custody send' _ (s.transfers j) (update s.releases i _ j)
    rcases update_eq_some hj with ⟨rfl, heq⟩ | ⟨hne, hold⟩
    · cases heq
      rw [update_self]
      exact hc.leave
    · rw [update_of_ne hne]
      exact h.custody j send' hold
  registered := h.registered
  answered := h.answered

end

/-! ## What a failure of pending transfers changes -/

/-- `_fail_pending` arms a pending transfer whose answer it decides, or does nothing. -/
theorem failPending_cases (s : KvTransfers) (objectId : String) :
    s.failPending objectId = s ∨ ∃ i transfer transfer',
      s.pendingOf objectId = some (i, transfer) ∧ transfer'.objectId = transfer.objectId ∧
      transfer'.lease = transfer.lease ∧
      transfer'.receiverTerminal = transfer.receiverTerminal ∧
      (transfer.task ≠ .over → transfer'.task ≠ .over) ∧
      (transfer'.ack = .received → transfer.ack = .received) ∧
      s.failPending objectId = s.setTransfer i transfer' := by
  unfold failPending
  cases hpnd : s.pendingOf objectId with
  | none => exact .inl rfl
  | some entry =>
    obtain ⟨i, transfer⟩ := entry
    obtain ⟨j, hget, hmap⟩ := bind_eq_some_iff.mp hpnd
    obtain ⟨p, hp, heq⟩ := map_eq_some_iff.mp hmap
    cases heq
    right
    dsimp only
    generalize hfld :
      (if transfer.ack = .waiting then { transfer with ack := .failed } else transfer) = failed
    have hsame : failed.objectId = transfer.objectId ∧ failed.lease = transfer.lease ∧
        failed.receiverTerminal = transfer.receiverTerminal ∧ failed.task = transfer.task ∧
        (failed.ack = .received → transfer.ack = .received) := by
      rw [← hfld]
      split
      · exact ⟨rfl, rfl, rfl, rfl, nofun⟩
      · exact ⟨rfl, rfl, rfl, rfl, id⟩
    obtain ⟨hid, hl, ht, htk, hack⟩ := hsame
    split
    · next hunarmed =>
      have hfound : (s.setTransfer i failed).pendingOf objectId = some (i, failed) := by
        refine bind_eq_some_iff.mpr ⟨i, hget, ?_⟩
        show (update s.transfers i (some failed) i).map _ = _
        rw [update_self]
        rfl
      have harm : (s.setTransfer i failed).armPending objectId =
          some ((s.setTransfer i failed).setTransfer i { failed with task := .watching }) := by
        rw [armPending, hfound]
        exact if_pos hunarmed
      refine ⟨i, transfer, { failed with task := .watching }, rfl, hid, hl, ht,
        fun _ ho => (by cases ho), hack, ?_⟩
      rw [harm]
      simp [setTransfer]
    · exact ⟨i, transfer, failed, rfl, hid, hl, ht, fun h => htk ▸ h, hack, rfl⟩

section

variable (h : Leased s)
include h

theorem Leased.failPending (objectId : String) : Leased (s.failPending objectId) := by
  rcases failPending_cases s objectId with heq | ⟨i, p, p', hpnd, hid, hl, ht, htk,
    hack, heq⟩
  · rw [heq]
    exact h
  · obtain ⟨hp, -, ha⟩ := pendingOf_eq_some h hpnd
    rw [heq]
    exact h.setTransfer hp ha hid hl (htk ha)
      fun hreceived => ht.trans (h.answered i p hp (hack hreceived))

theorem Leased.armPending {objectId : String} (harm : s.armPending objectId = some t) :
    Leased t := by
  obtain ⟨⟨i, p⟩, hpnd, harm⟩ := bind_eq_some_iff.mp harm
  obtain ⟨hp, -, ha⟩ := pendingOf_eq_some h hpnd
  cases (of_guard harm).2
  exact h.setTransfer hp ha rfl rfl nofun (h.answered i p hp)

theorem Leased.ackTransfer (objectId : String) (success : Bool) :
    Leased (s.ackTransfer objectId success) := by
  unfold KvTransfers.ackTransfer
  split
  · exact h
  · next i p hpnd =>
    obtain ⟨hp, -, ha⟩ := pendingOf_eq_some h hpnd
    exact h.setTransfer hp ha rfl rfl ha fun _ => rfl

theorem Leased.answerReady (transferId : String) (answer : ReadyFuture) :
    Leased (s.answerReady transferId answer) := by
  unfold KvTransfers.answerReady
  split
  · exact h
  · next i send hfound =>
    obtain ⟨j, -, hmap⟩ := bind_eq_some_iff.mp hfound
    obtain ⟨send', hsend, heq⟩ := map_eq_some_iff.mp hmap
    cases heq
    split
    · exact h.setSend ((h.custody i send hsend).moved id id id)
    · exact h

/-! ## Steps -/

theorem custody_new (hnew : s.sends i = none) (transferId requestId : String) (given : Bool) :
    Custody { transferId := transferId, requestId := requestId, given := given, lease := given }
      (i ∈ s.retainedPendingKvTransfers) (s.transfers i) (s.releases i) := by
  rw [(h.fresh i hnew).1, (h.fresh i hnew).2]
  exact .caller (.inl rfl) rfl

theorem Leased.start (hnew : s.sends i = none) (transferId requestId : String)
    (given rejected : Bool) : Leased (s.start i transferId requestId given rejected) := by
  have hc := custody_new h hnew transferId requestId given
  unfold KvTransfers.start
  split
  · exact h.leave hc
  · have hkeys : Leased { s with
        kvReady := s.kvReady.set transferId i
        outboundKvRequests := s.outboundKvRequests.set transferId requestId } :=
      ⟨h.fresh, h.custody, h.registered, h.answered⟩
    exact hkeys.setSend hc

/-- The transfer registered for a send takes its lease. -/
theorem Leased.publish (hsend : s.sends i = some send) (hph : send.phase = .waitingReady) :
    Leased (s.publish i send) := by
  have hc := h.custody i send hsend
  unfold KvTransfers.publish registerPending
  split_ifs with hkeys
  · exact h.leave hc
  · have hnone : s.transfers i = none ∧ s.releases i = 0 ∧ send.lease = send.given := by
      revert hc
      generalize s.transfers i = transfers
      generalize s.releases i = n
      intro hc
      cases hc with
      | caller _ hl => exact ⟨rfl, rfl, hl⟩
      | returned ho _ => rw [hph] at ho; cases ho
      | pending hp _ | kept hp _ _ | released hp _ _ =>
        rcases hp.phase with h | h | h <;> rw [hph] at h <;> cases h
    constructor
    · intro j hj
      have hne : j ≠ i := fun heq => by simp [KvTransfers.setSend, heq] at hj
      have hold := h.fresh j ((update_of_ne hne ..).symm.trans hj)
      exact ⟨(update_of_ne hne ..).trans hold.1, hold.2⟩
    · intro j send' hj
      show Custody send' _ (update s.transfers i _ j) (s.releases j)
      rcases update_eq_some hj with ⟨rfl, heq⟩ | ⟨hne, hold⟩
      · cases heq
        rw [update_self, hnone.2.1]
        exact .pending ⟨.inl rfl, rfl, hnone.2.2, rfl⟩ nofun
      · rw [update_of_ne hne]
        exact h.custody j send' hold
    · intro objectId j
      show (s.pending.set send.transferId i).get objectId = some j ↔
        ∃ p, update s.transfers i _ j = some p ∧ _
      rw [Dict.get_set_of_fresh hkeys]
      have hfree : s.pending.get send.transferId = none := Dict.get_eq_none.mpr hkeys
      by_cases hji : j = i
      · subst hji
        rw [update_self]
        have hold : s.pending.get objectId ≠ some j := fun hget => by
          obtain ⟨p, hp, -⟩ := (h.registered objectId j).mp hget
          rw [hnone.1] at hp
          cases hp
        by_cases hid : objectId = send.transferId
        · simp [hid]
        · simp [hid, hold, Ne.symm hid]
      · rw [update_of_ne hji, ← h.registered]
        by_cases hid : objectId = send.transferId
        · simp [hid, hfree, Ne.symm hji]
        · simp [hid]
    · intro j p hp
      rcases update_eq_some hp with ⟨-, heq⟩ | ⟨-, hold⟩
      · cases heq
        intro hack
        cases hack
      · exact h.answered j p hold

end

theorem Leased.foldl {β : Type} {f : KvTransfers → β → KvTransfers}
    (hf : ∀ s b, Leased s → Leased (f s b)) (h : Leased s) (bs : List β) :
    Leased (bs.foldl f s) := by
  induction bs generalizing s with
  | nil => exact h
  | cons b bs ih => exact ih (hf s b h)

theorem Leased.cleanup (h : Leased s) (requestId : String) : Leased (s.cleanup requestId) := by
  refine h.foldl (fun s entry hs => ?_) _
  unfold cleanupTransfer
  split
  · exact (hs.answerReady entry.1 .failed).failPending entry.1
  · exact hs

theorem Leased.close (h : Leased s) : Leased s.close := by
  unfold KvTransfers.close
  split
  · exact h
  · have hcl : Leased { s with closed := true } :=
      ⟨h.fresh, h.custody, h.registered, h.answered⟩
    have hfld := hcl.foldl (fun _ objectId hs => hs.failPending objectId) s.pending.keys
    have hrdy := hfld.foldl (fun _ transferId hs => hs.answerReady transferId .failed)
      (s.pending.keys.foldl KvTransfers.failPending { s with closed := true }).kvReady.keys
    exact ⟨hrdy.fresh, hrdy.custody, hrdy.registered, hrdy.answered⟩

end KvTransfers

open KvTransfers

variable {s t : KvTransfers}

theorem KvTransfers.inPhase_eq_some {i : ℕ} {phase : SendPhase} {f : KvSend → Option KvTransfers}
    (h : s.inPhase i phase f = some t) :
    ∃ send, s.sends i = some send ∧ send.phase = phase ∧ f send = some t := by
  obtain ⟨send, hsend, h⟩ := bind_eq_some_iff.mp h
  split at h
  · next hph => exact ⟨send, hsend, hph, h⟩
  · cases h

theorem KvTransfers.watched_eq_some {i : ℕ} {f : PendingTransfer → Option KvTransfers}
    (h : s.watched i f = some t) :
    ∃ transfer, s.transfers i = some transfer ∧ transfer.task ≠ .over ∧ f transfer = some t := by
  obtain ⟨transfer, htransfer, h⟩ := bind_eq_some_iff.mp h
  split at h
  · next htk =>
    refine ⟨transfer, htransfer, fun ho => ?_, h⟩
    rw [htk] at ho
    cases ho
  · cases h

/-- Every event of the engine keeps track of every lease. -/
theorem leased_step {e : KvEvent} (h : Leased s) (hstep : kvStep s e = some t) : Leased t := by
  cases e with
  | start i transferId requestId lease rejected =>
    obtain ⟨hnew, ⟨⟩⟩ := of_guard hstep
    exact h.start hnew transferId requestId lease rejected
  | prepareSent i sent =>
    obtain ⟨send, hsend, hph, hstep⟩ := inPhase_eq_some hstep
    have hc := h.custody i send hsend
    split at hstep
    · cases hstep
      exact h.setSend (hc.moved (fun _ => .inr rfl)
        (fun ho => by rw [hph] at ho; cases ho)
        (fun hpub => by rcases hpub with hpub | hpub <;> rw [hph] at hpub <;> cases hpub))
    · cases hstep
      exact h.leave hc
  | ready transferId success =>
    cases hstep
    exact h.answerReady transferId _
  | resume i put =>
    obtain ⟨send, hsend, hph, hstep⟩ := inPhase_eq_some hstep
    have hc := h.custody i send hsend
    split at hstep
    · cases hstep
    · cases hstep
      exact h.leave hc
    · split at hstep
      · cases hstep
        exact h.publish hsend hph
      · cases hstep
        exact h.leave hc
  | giveUp i | sendEnds i =>
    obtain ⟨send, hsend, hph, hstep⟩ := inPhase_eq_some hstep
    cases hstep
    exact h.leave (h.custody i send hsend)
  | publishReturned i =>
    obtain ⟨send, hsend, hph, hstep⟩ := inPhase_eq_some hstep
    split at hstep
    · cases hstep
      have hsame : Leased { s with bookkeepingError := true } :=
        ⟨h.fresh, h.custody, h.registered, h.answered⟩
      exact hsame.leave (hsame.custody i send hsend)
    · next u harm =>
      cases hstep
      have hu := h.armPending harm
      have hsend' : u.sends i = some send := by
        obtain ⟨⟨j, p⟩, -, harm⟩ := bind_eq_some_iff.mp harm
        cases (of_guard harm).2
        exact hsend
      refine hu.setSend ((hu.custody i send hsend').moved ?_ ?_ fun _ => .inr rfl)
      · intro hcaller
        rcases hcaller with hcaller | hcaller <;> rw [hph] at hcaller <;> cases hcaller
      · intro ho
        rw [hph] at ho
        cases ho
  | publishRaised i =>
    obtain ⟨send, hsend, hph, hstep⟩ := inPhase_eq_some hstep
    cases hstep
    have hfld := h.failPending send.transferId
    refine hfld.leave (hfld.custody i send ?_)
    rcases failPending_cases s send.transferId with heq | ⟨j, p, p', -, -, -, -, -, -, heq⟩
    · rw [heq]
      exact hsend
    · rw [heq]
      exact hsend
  | ack i success =>
    obtain ⟨transfer, htransfer, rfl⟩ := map_eq_some_iff.mp hstep
    have hsame : Leased { s with reported := insert i s.reported } :=
      ⟨h.fresh, h.custody, h.registered, h.answered⟩
    exact hsame.ackTransfer transfer.objectId success
  | watchWakes i =>
    obtain ⟨transfer, htransfer, htk, hstep⟩ := watched_eq_some hstep
    split at hstep
    · cases hstep
    · next hack =>
      cases hstep
      exact h.releasePending htransfer htk (h.answered i transfer htransfer hack)
    · cases hstep
      exact h.watchFailed htransfer htk
  | watchTimesOut i =>
    obtain ⟨transfer, htransfer, htk, hstep⟩ := watched_eq_some hstep
    cases (of_guard hstep).2
    exact h.watchFailed htransfer htk
  | watchCancelled i =>
    obtain ⟨transfer, htransfer, htk, hstep⟩ := watched_eq_some hstep
    cases hstep
    exact h.watchFailed htransfer htk
  | cleanup requestId =>
    cases hstep
    exact h.cleanup requestId
  | close =>
    cases hstep
    exact h.close

/-! ## Reports of the receiver -/

namespace KvTransfers

variable {s t u : KvTransfers} {i : ℕ} {send : KvSend} {transfer : PendingTransfer}

/-- No receiver has reported anew, and the bookkeeping has not failed. -/
structure Silent (s t : KvTransfers) : Prop where
  error : t.bookkeepingError = s.bookkeepingError
  reported : s.reported ⊆ t.reported
  terminal : ∀ i transfer, t.transfers i = some transfer → transfer.receiverTerminal = true →
    ∃ transfer', s.transfers i = some transfer' ∧ transfer'.receiverTerminal = true

namespace Silent

theorem refl (s : KvTransfers) : Silent s s :=
  ⟨rfl, Finset.Subset.refl _, fun _ transfer h ht => ⟨transfer, h, ht⟩⟩

theorem trans (h : Silent s t) (h' : Silent t u) : Silent s u := by
  refine ⟨h'.error.trans h.error, h.reported.trans h'.reported, fun i p hp ht => ?_⟩
  obtain ⟨p', hp', ht'⟩ := h'.terminal i p hp ht
  exact h.terminal i p' hp' ht'

theorem of_eq (herror : t.bookkeepingError = s.bookkeepingError)
    (hreported : t.reported = s.reported) (htransfers : t.transfers = s.transfers) : Silent s t :=
  ⟨herror, hreported ▸ Finset.Subset.refl _, fun _ p hp ht => ⟨p, htransfers ▸ hp, ht⟩⟩

theorem setTransfer (hold : s.transfers i = some transfer) {transfer' : PendingTransfer}
    (ht : transfer'.receiverTerminal = transfer.receiverTerminal) :
    Silent s (s.setTransfer i transfer') := by
  refine ⟨rfl, Finset.Subset.refl _, fun j p hp hp' => ?_⟩
  rcases update_eq_some hp with ⟨rfl, heq⟩ | ⟨-, hj⟩
  · cases heq
    exact ⟨transfer, hold, ht.symm.trans hp'⟩
  · exact ⟨p, hj, hp'⟩

theorem failPending (s : KvTransfers) (objectId : String) : Silent s (s.failPending objectId) := by
  rcases failPending_cases s objectId with heq | ⟨i, p, p', hpnd, -, -, ht, -, -, heq⟩
  · rw [heq]
    exact .refl s
  · obtain ⟨j, -, hmap⟩ := bind_eq_some_iff.mp hpnd
    obtain ⟨p₀, hp₀, hpair⟩ := map_eq_some_iff.mp hmap
    cases hpair
    rw [heq]
    exact .setTransfer hp₀ ht

theorem armPending {objectId : String} (harm : s.armPending objectId = some t) : Silent s t := by
  obtain ⟨⟨i, p⟩, hpnd, harm⟩ := bind_eq_some_iff.mp harm
  obtain ⟨j, -, hmap⟩ := bind_eq_some_iff.mp hpnd
  obtain ⟨p₀, hp₀, hpair⟩ := map_eq_some_iff.mp hmap
  cases hpair
  cases (of_guard harm).2
  exact .setTransfer hp₀ rfl

theorem answerReady (s : KvTransfers) (transferId : String) (answer : ReadyFuture) :
    Silent s (s.answerReady transferId answer) := by
  unfold KvTransfers.answerReady
  split
  · exact .refl s
  · split
    · exact .of_eq rfl rfl rfl
    · exact .refl s

theorem leave (s : KvTransfers) (i : ℕ) (send : KvSend) : Silent s (s.leave i send) :=
  .of_eq rfl rfl rfl

theorem releasePending (hold : s.transfers i = some transfer) :
    Silent s (s.releasePending i transfer) := by
  let popped := { s with pending := s.pending.pop transfer.objectId }.release i transfer.lease
  have hpop : Silent s popped := .of_eq rfl rfl rfl
  have hend : Silent popped (popped.setTransfer i { transfer with task := .over }) :=
    setTransfer (s := popped) hold rfl
  exact hpop.trans hend

theorem watchFailed (hold : s.transfers i = some transfer) :
    Silent s (s.watchFailed i transfer) := by
  unfold KvTransfers.watchFailed
  split
  · exact releasePending hold
  · let popped : KvTransfers :=
      { s with
        pending := s.pending.pop transfer.objectId
        retainedPendingKvTransfers := s.retainedPendingKvTransfers ++ [i] }
    have hpop : Silent s popped := .of_eq rfl rfl rfl
    have hend : Silent popped (popped.setTransfer i { transfer with task := .over }) :=
      setTransfer (s := popped) hold rfl
    exact hpop.trans hend

theorem publish (s : KvTransfers) (i : ℕ) (send : KvSend) : Silent s (s.publish i send) := by
  unfold KvTransfers.publish registerPending
  split_ifs
  · exact leave s i send
  · refine ⟨rfl, Finset.Subset.refl _, fun j p hp ht => ?_⟩
    rcases update_eq_some hp with ⟨-, heq⟩ | ⟨-, hj⟩
    · cases heq
      cases ht
    · exact ⟨p, hj, ht⟩

theorem foldl {β : Type} {f : KvTransfers → β → KvTransfers} (hf : ∀ s b, Silent s (f s b))
    (s : KvTransfers) (bs : List β) : Silent s (bs.foldl f s) := by
  induction bs generalizing s with
  | nil => exact .refl s
  | cons b bs ih => exact (hf s b).trans (ih (f s b))

theorem cleanup (s : KvTransfers) (requestId : String) : Silent s (s.cleanup requestId) := by
  refine foldl (fun s entry => ?_) s _
  unfold cleanupTransfer
  split
  · exact (answerReady s entry.1 .failed).trans (failPending _ entry.1)
  · exact .refl s

theorem close (s : KvTransfers) : Silent s s.close := by
  unfold KvTransfers.close
  split
  · exact .refl s
  · have hcl : Silent s { s with closed := true } := .of_eq rfl rfl rfl
    have hfld := hcl.trans
      (foldl (fun s objectId => failPending s objectId) { s with closed := true } s.pending.keys)
    have hrdy := hfld.trans (foldl (fun s transferId => answerReady s transferId .failed) _
      (s.pending.keys.foldl KvTransfers.failPending { s with closed := true }).kvReady.keys)
    exact hrdy.trans (.of_eq rfl rfl rfl)

end Silent

/-- The bookkeeping has not failed, and a transfer told of an outcome is one that has it. -/
structure Accounted (s : KvTransfers) : Prop where
  noError : s.bookkeepingError = false
  told : ∀ i transfer, s.transfers i = some transfer → transfer.receiverTerminal = true →
    i ∈ s.reported

theorem Accounted.silent (h : Accounted s) (hst : Silent s t) : Accounted t := by
  refine ⟨hst.error.trans h.noError, fun i p hp ht => ?_⟩
  obtain ⟨p', hp', ht'⟩ := hst.terminal i p hp ht
  exact hst.reported (h.told i p' hp' ht')

/-- A published transfer that nothing has failed is the one its own send arms. -/
theorem armPending_of_unarmed (h : Leased s) (hsend : s.sends i = some send)
    (hph : send.phase = .publishing)
    (hunarmed : ∀ transfer, s.transfers i = some transfer → transfer.task = .unarmed) :
    s.armPending send.transferId ≠ none := by
  have hc := h.custody i send hsend
  cases htransfer : s.transfers i with
  | none =>
    rw [htransfer] at hc
    generalize s.releases i = n at hc
    cases hc with
    | caller hcaller _ => rcases hcaller with h | h <;> rw [hph] at h <;> cases h
    | returned ho _ => rw [hph] at ho; cases ho
  | some transfer =>
    rw [htransfer] at hc
    have htk := hunarmed transfer htransfer
    have hget : s.pending.get send.transferId = some i :=
      (h.registered _ _).mpr ⟨transfer, htransfer, hc.published.objectId, by
        rw [htk]
        decide⟩
    simp [armPending, pendingOf, hget, htransfer, htk]

/-- No publish returns after its transfer was failed, and no answer of a receiver reaches a later
transfer of the same id. -/
def Undisturbed (s : KvTransfers) : KvEvent → Prop
  | .publishReturned i => ∀ transfer, s.transfers i = some transfer → transfer.task = .unarmed
  | .ack i _ => ∀ transfer j, s.transfers i = some transfer →
      s.pending.get transfer.objectId = some j → j = i
  | _ => True

end KvTransfers

theorem accounted_step {e : KvEvent} (hleased : Leased s) (h : Accounted s)
    (hkept : s.Undisturbed e) (hstep : kvStep s e = some t) : Accounted t := by
  cases e with
  | start i transferId requestId lease rejected =>
    cases (of_guard hstep).2
    unfold KvTransfers.start
    split
    · exact h.silent (.leave s i _)
    · exact h.silent (.of_eq rfl rfl rfl)
  | prepareSent i sent =>
    obtain ⟨send, -, -, hstep⟩ := inPhase_eq_some hstep
    split at hstep
    · cases hstep
      exact h.silent (.of_eq rfl rfl rfl)
    · cases hstep
      exact h.silent (.leave s i send)
  | ready transferId success =>
    cases hstep
    exact h.silent (.answerReady s transferId _)
  | resume i put =>
    obtain ⟨send, -, -, hstep⟩ := inPhase_eq_some hstep
    split at hstep
    · cases hstep
    · cases hstep
      exact h.silent (.leave s i send)
    · split at hstep
      · cases hstep
        exact h.silent (.publish s i send)
      · cases hstep
        exact h.silent (.leave s i send)
  | giveUp i | sendEnds i =>
    obtain ⟨send, -, -, hstep⟩ := inPhase_eq_some hstep
    cases hstep
    exact h.silent (.leave s i send)
  | publishReturned i =>
    obtain ⟨send, hsend, hph, hstep⟩ := inPhase_eq_some hstep
    split at hstep
    · next hfld => exact absurd hfld (armPending_of_unarmed hleased hsend hph hkept)
    · next u harm =>
      cases hstep
      exact (h.silent (.armPending harm)).silent (.of_eq rfl rfl rfl)
  | publishRaised i =>
    obtain ⟨send, -, -, hstep⟩ := inPhase_eq_some hstep
    cases hstep
    exact (h.silent (.failPending s send.transferId)).silent (.leave _ i send)
  | ack i success =>
    obtain ⟨transfer, htransfer, rfl⟩ := map_eq_some_iff.mp hstep
    have hmore : Accounted { s with reported := insert i s.reported } :=
      ⟨h.noError, fun j p hp ht => Finset.mem_insert_of_mem (h.told j p hp ht)⟩
    unfold ackTransfer
    split
    · exact hmore
    · next j p hpnd =>
      -- the answer lands on the transfer that its receiver has read
      obtain ⟨j', hget, hmap⟩ := bind_eq_some_iff.mp hpnd
      obtain ⟨p', hp', hpair⟩ := map_eq_some_iff.mp hmap
      cases hpair
      have hji : j = i := hkept transfer j htransfer hget
      refine ⟨hmore.noError, fun k q hq ht => ?_⟩
      rcases update_eq_some hq with ⟨rfl, -⟩ | ⟨-, hold⟩
      · rw [hji]
        exact Finset.mem_insert_self i _
      · exact hmore.told k q hold ht
  | watchWakes i =>
    obtain ⟨transfer, htransfer, -, hstep⟩ := watched_eq_some hstep
    split at hstep
    · cases hstep
    · cases hstep
      exact h.silent (.releasePending htransfer)
    · cases hstep
      exact h.silent (.watchFailed htransfer)
  | watchTimesOut i =>
    obtain ⟨transfer, htransfer, -, hstep⟩ := watched_eq_some hstep
    cases (of_guard hstep).2
    exact h.silent (.watchFailed htransfer)
  | watchCancelled i =>
    obtain ⟨transfer, htransfer, -, hstep⟩ := watched_eq_some hstep
    cases hstep
    exact h.silent (.watchFailed htransfer)
  | cleanup requestId =>
    cases hstep
    exact h.silent (.cleanup s requestId)
  | close =>
    cases hstep
    exact h.silent (.close s)

/-! ## Lease safety -/

/-- What holds of the leases and of the bookkeeping in a state. -/
structure LeaseSafe (s : KvTransfers) : Prop where
  once : ∀ i, s.releases i ≤ 1
  /-- What may have been exposed is released only after its receiver has reported, -/
  afterReport : ∀ i transfer, s.transfers i = some transfer → s.releases i ≠ 0 → i ∈ s.reported
  /-- and is held otherwise. -/
  held : ∀ i transfer, s.transfers i = some transfer → transfer.lease = true →
    s.releases i = 0 →
      s.pending.get transfer.objectId = some i ∨ i ∈ s.retainedPendingKvTransfers
  noError : s.bookkeepingError = false

theorem releases_le_one (h : Leased s) (i : ℕ) : s.releases i ≤ 1 := by
  cases hsend : s.sends i with
  | none =>
    rw [(h.fresh i hsend).2]
    exact Nat.zero_le 1
  | some send => exact (h.custody i send hsend).le_one

theorem leaseSafe_of_accounted (h : Leased s) (haccounted : Accounted s) :
    LeaseSafe s where
  once := releases_le_one h
  afterReport i transfer htransfer hreleased := by
    obtain ⟨send, hsend⟩ := sends_of_transfer h htransfer
    have hc := h.custody i send hsend
    rw [htransfer] at hc
    generalize s.releases i = n at hc hreleased
    cases hc with
    | pending _ _ | kept _ _ _ => exact absurd rfl hreleased
    | released _ _ ht => exact haccounted.told i transfer htransfer ht
  held i transfer htransfer hl hzero := by
    obtain ⟨send, hsend⟩ := sends_of_transfer h htransfer
    have hc := h.custody i send hsend
    rw [htransfer] at hc
    generalize s.releases i = n at hc hzero
    cases hc with
    | pending _ htk => exact .inl ((h.registered _ _).mpr ⟨transfer, htransfer, rfl, htk⟩)
    | kept _ _ hkept => exact .inr hkept
    | released _ _ _ => rw [hl] at hzero; cases hzero
  noError := haccounted.noError

/-- In every run in which no publish returns after its transfer was failed and no answer reaches a
later transfer of its id, every lease is safe and the bookkeeping never fails. -/
theorem kv_lease_safety {s : KvTransfers} (h : (kvSystem.restrict Undisturbed).Reachable s) :
    LeaseSafe s := by
  have hboth : Leased s ∧ Accounted s := by
    refine h.invariant (P := fun s => Leased s ∧ Accounted s) ?_ ?_
    · intro s hinit
      have hstart : s = {} := hinit
      rw [hstart]
      exact ⟨leased_start, rfl, nofun⟩
    · intro s e t ⟨hleased, haccounted⟩ ⟨hstep, hkept⟩
      exact ⟨leased_step hleased hstep, accounted_step hleased haccounted hkept hstep⟩
  exact leaseSafe_of_accounted hboth.1 hboth.2

/-- One transfer up to the sending of its DataReady message. -/
def publishEvents : List KvEvent :=
  [.start 0 "t" "r" true false, .prepareSent 0 true, .ready "t" true, .resume 0 true]

/-- One transfer, published, acknowledged and released. -/
theorem kv_lease_safety_acknowledged :
    ∃ s, (kvSystem.restrict Undisturbed).Reachable s ∧ s.releases 0 = 1 ∧ LeaseSafe s := by
  have hinit : (kvSystem.restrict Undisturbed).Reachable {} := .init rfl
  have hpublished := hinit.of_exec_restrict (by simp [publishEvents, Undisturbed])
    (rfl : System.exec kvStep {} publishEvents = some _)
  have hsent := hpublished.step (l := .publishReturned 0)
    ⟨(rfl : kvStep _ _ = some _), by intro transfer htransfer; cases htransfer; rfl⟩
  have hacked := hsent.step (l := .ack 0 true)
    ⟨(rfl : kvStep _ _ = some _),
      by intro transfer j htransfer hget; cases htransfer; cases hget; rfl⟩
  have hreleased := hacked.of_exec_restrict (by simp [Undisturbed])
    (rfl : System.exec kvStep _ [.watchWakes 0] = some _)
  exact ⟨_, hreleased, rfl, kv_lease_safety hreleased⟩

/-- Clean-up arms a transfer whose publish still waits, and the publish then returns. -/
theorem cleanup_arms_waiting_publish :
    ¬ ∀ s, kvSystem.Reachable s → LeaseSafe s := by
  intro hall
  have hinit : kvSystem.Reachable {} := .init rfl
  have hreached := System.Reachable.of_exec hinit
    (rfl : System.exec kvStep {} (publishEvents ++ [.cleanup "r", .publishReturned 0]) = some _)
  exact absurd (hall _ hreached).noError (by decide)

end OmniRealtime
