import OmniRealtime.Vision.DecodeInvariant

/-!
# Decode steps as transactions

1. `Later`: what every later state keeps of a record, and of what is given back.
2. `rollback_restores_prepare`: what a rollback makes of a prepare.
3. `decode_allocation_transactional`: what is given back, what a rollback restores, and that a
   prepare that raises changes no request.
-/

namespace OmniRealtime

open List Option Function DecodeState

section Decode

variable {τ : Type}

/-- A record keeps its rows and slots, a settled step stays settled, and what is given back is of
    a step that was still open. -/
structure Later (s t : DecodeState τ) : Prop where
  next : s.nextRecord ≤ t.nextRecord
  record : ∀ k a, s.record k = some a →
    ∃ a', t.record k = some a' ∧ a'.rows = a.rows ∧ a'.slots = a.slots
  settled : ∀ k, t.openStep k → s.openStep k ∨ s.nextRecord ≤ k
  freed : ∀ e ∈ t.freed, e ∈ s.freed ∨ s.openStep e.step ∨ s.nextRecord ≤ e.step

namespace Later

variable {s t u : DecodeState τ} {k b : Nat} {a a' : DecodeAllocation} {back : List StepSlot}

theorem trans (h₁ : Later s t) (h₂ : Later t u) : Later s u where
  next := h₁.next.trans h₂.next
  record k a ha := by
    obtain ⟨a', ha', hrows, hs⟩ := h₁.record k a ha
    obtain ⟨a'', ha'', hrows', hs'⟩ := h₂.record k a' ha'
    exact ⟨a'', ha'', hrows'.trans hrows, hs'.trans hs⟩
  settled k hk := by
    rcases h₂.settled k hk with hk | hk
    · exact h₁.settled k hk
    · exact .inr (h₁.next.trans hk)
  freed e he := by
    rcases h₂.freed e he with he | he | he
    · exact h₁.freed e he
    · exact .inr (h₁.settled _ he)
    · exact .inr (.inr (h₁.next.trans he))

theorem of_same (hrec : t.record = s.record) (hnext : t.nextRecord = s.nextRecord)
    (hfreed : t.freed = s.freed) : Later s t where
  next := hnext.ge
  record k a ha := ⟨a, hrec ▸ ha, rfl, rfl⟩
  settled k hk := .inl (by rwa [openStep, hrec] at hk)
  freed e he := .inl (hfreed ▸ he)

theorem settle (ha : s.record k = some a) (a' : DecodeAllocation) (hrows : a'.rows = a.rows)
    (hs : a'.slots = a.slots) (hcl : a'.isOpen = false) (req : Nat → DecodeReq τ)
    (keep : List Nat) (hback : back = [] ∨ a.isOpen = true) (hstep : ∀ e ∈ back, e.step = k) :
    Later s (s.settled req k a' back keep) where
  next := le_rfl
  record j b hb := by
    by_cases hj : j = k
    · subst hj
      obtain rfl := some.inj (ha.symm.trans hb)
      exact ⟨a', update_self _ _ _, hrows, hs⟩
    · exact ⟨b, (update_of_ne hj _ _).trans hb, rfl, rfl⟩
  settled := by
    rintro j ⟨b, hb, hopen⟩
    obtain ⟨rfl, heq⟩ | ⟨-, hold⟩ := update_eq_some hb
    · cases heq
      rw [hcl] at hopen
      cases hopen
    · exact .inl ⟨b, hold, hopen⟩
  freed e he := by
    rcases mem_append.1 he with he | he
    · exact .inl he
    · rcases hback with rfl | hopen
      · exact absurd he not_mem_nil
      · exact .inr (.inl ⟨a, hstep e he ▸ ha, hopen⟩)

theorem setRecord (ha : s.record k = some a) (hrows : a'.rows = a.rows)
    (hs : a'.slots = a.slots) (hcl : a'.isOpen = false) : Later s (s.setRecord k a') := by
  have h := Later.settle ha a' hrows hs hcl s.req [] (.inl rfl)
    nofun
  unfold DecodeState.settled at h
  rw [append_nil, map_nil, append_nil] at h
  exact h

theorem prepared (h : DecodeInv s) (loc : Option (List Int)) (req : Nat → DecodeReq τ)
    (hstep : ∀ e ∈ back, e.step = s.nextRecord) : Later s (s.prepared b a loc req back) where
  next := Nat.le_succ _
  record k a' ha' :=
    ⟨a', (update_of_ne (ne_of_lt (h.known k a' ha')) _ _).trans ha', rfl, rfl⟩
  settled := by
    rintro j ⟨a', ha', hopen⟩
    obtain ⟨rfl, -⟩ | ⟨-, hold⟩ := update_eq_some ha'
    · exact .inr le_rfl
    · exact .inl ⟨a', hold, hopen⟩
  freed e he := by
    rcases mem_append.1 he with he | he
    · exact .inl he
    · exact .inr (.inr (hstep e he).ge)

theorem prepareForDecode (h : DecodeInv s) {upstream : UpstreamDecode}
    (hguard : s.Guard (.prepare b upstream)) : Later s (s.prepareForDecode b upstream).1 := by
  rcases prepareForDecode_cases h hguard with
    ⟨e, heq⟩ | ⟨rows, -, ⟨t, e, hundone, heq⟩ | ⟨slots, -, -, heq⟩⟩
  · rw [heq]
    exact .of_same rfl rfl rfl
  · rw [heq]
    rcases hundone.state with rfl | ⟨slots, -, rfl⟩
    · exact .prepared h _ _ nofun
    · refine .prepared h _ _ fun e he => ?_
      obtain ⟨e, -, rfl⟩ := mem_map.1 he
      rfl
  · rw [heq]
    exact .prepared h _ _ nofun

theorem rollback (s : DecodeState τ) (b : Nat) : Later s (s.rollback b).1 := by
  unfold DecodeState.rollback
  split
  · exact .of_same rfl rfl rfl
  split
  · exact .of_same rfl rfl rfl
  · next k _ _ a ha =>
    obtain heq | ⟨-, heq⟩ | ⟨slots, hopen, hs, hnewer⟩ :=
      rollbackRecord_cases (s := s) (s.batch b).reqs k a
    · rw [heq]
      exact .of_same rfl rfl rfl
    · rw [heq]
      exact .setRecord ha rfl rfl a.isOpen_release
    · rw [rollbackRecord_eq hopen hs hnewer]
      refine .settle ha { a with released := true } rfl rfl a.isOpen_release _ []
        (.inr hopen) fun e he => ?_
      obtain ⟨e, -, rfl⟩ := mem_map.1 he
      rfl

theorem commitDecode (s : DecodeState τ) (b : Nat) : Later s (s.commitDecode b) := by
  unfold DecodeState.commitDecode
  split
  · exact .of_same rfl rfl rfl
  split
  · exact .of_same rfl rfl rfl
  · next a ha => exact .setRecord ha rfl rfl a.isOpen_commit

theorem postDecode (hopen : s.openBatch b = true) (resolved : Bool) :
    Later s (s.postDecode resolved b) := by
  obtain ⟨k, a, hb, ha, -⟩ := exists_of_openBatch hopen
  rw [postDecode_eq hb ha]
  exact .settle ha { a with committed := true } rfl rfl a.isOpen_commit _ _ (.inl rfl) nofun

theorem resolve (hopen : s.openBatch b = true) : Later s (s.resolve b) := by
  have ht : Later s ((s.postDecode true b).freeParkedOverrun b (s.dropped b)) := by
    have hpost := Later.postDecode hopen true
    obtain ⟨k, a, hb, ha, hopen⟩ := exists_of_openBatch hopen
    rcases freeParkedOverrun_cases hb ha with heq | ⟨slots, -, heq⟩
    · rw [heq]
      exact hpost
    · rw [heq]
      refine .settle ha { a with committed := true } rfl rfl a.isOpen_commit _ _ (.inr hopen)
          fun e he => ?_
      obtain ⟨e, -, rfl⟩ := mem_map.1 he
      rfl
  exact ht.trans (.of_same rfl rfl rfl)

theorem apply (h : DecodeInv s) {op : DecodeOp} (hguard : s.Guard op) : Later s (s.apply op) := by
  cases op with
  | prepare b upstream => exact .prepareForDecode h hguard
  | commit b => exact .commitDecode s b
  | postDecode b => exact .postDecode hguard.1 false
  | rollback b => exact .rollback s b
  | resolve b => exact .resolve hguard.1
  | _ => exact .of_same rfl rfl rfl

end Later

/-! ## The guarantees -/

section Guarantees

variable {s₀ s t : DecodeState τ} {b k : Nat} {a : DecodeAllocation}

theorem decodeInv_of_reachable (h₀ : s₀.Initial) (h : (decodeSystem s₀).Reachable s) :
    DecodeInv s := by
  refine h.invariant (P := DecodeInv) (fun s₁ h₁ => ?_) ?_
  · obtain rfl : s₁ = s₀ := h₁
    exact .initial h₀
  · rintro u op v hu ⟨hstep, hguard⟩
    cases hstep
    exact hu.apply hguard

/-- Along a run from a state of the invariant. -/
theorem later_of_run {ops : List DecodeOp} (h : DecodeInv s)
    (hrun : (decodeSystem s₀).Run s ops t) :
    DecodeInv t ∧ Later s t := by
  refine hrun.invariant (P := fun t => DecodeInv t ∧ Later s t) ?_ ⟨h, .of_same rfl rfl rfl⟩
  rintro u op v ⟨hu, hlater⟩ ⟨hstep, hguard⟩
  cases hstep
  exact ⟨hu.apply hguard, hlater.trans (.apply hu hguard)⟩

theorem prepareForDecode_raises (h : DecodeInv s) {upstream : UpstreamDecode}
    (hguard : s.Guard (.prepare b upstream)) {e : DecodeError}
    (hraise : (s.prepareForDecode b upstream).2 = some e) :
    (s.prepareForDecode b upstream).1.req = s.req := by
  rcases prepareForDecode_cases h hguard with
    ⟨e, heq⟩ | ⟨rows, -, ⟨t, e, hundone, heq⟩ | ⟨slots, -, -, heq⟩⟩
  · rw [heq]
  · rw [heq]
    rcases hundone.state with rfl | ⟨slots, -, rfl⟩ <;> rfl
  · rw [heq] at hraise
    cases hraise

theorem rollback_of_closed (h : s.openBatch b = false) : s.rollback b = (s, none) := by
  unfold DecodeState.rollback
  split
  · rfl
  · next k hb =>
    split
    · rfl
    · next a ha =>
      have hflags : (a.committed || a.released) = true := by
        by_contra hopen
        have hisOpen := DecodeAllocation.isOpen_iff.2 (Bool.eq_false_of_not_eq_true hopen)
        simp [openBatch, hb, ha, hisOpen] at h
      unfold rollbackRecord
      rw [hflags]
      rfl

/-- A rollback that does not raise takes each row back that it can. -/
theorem rollback_restores (h : DecodeInv t) (hb : (t.batch b).record = some k)
    (ha : t.record k = some a) (hopen : a.isOpen = true) {slots : List Int}
    (hs : a.slots = some slots) (hreturns : (t.rollback b).2 = none) {row : DecodeRow}
    (hrow : row ∈ a.rows) (hrestorable : t.restorable (t.batch b).reqs row = true) :
    (t.rollback b).1.req row.req = (t.req row.req).restore row ∧
      ∃ e ∈ (t.rollback b).1.freed, e.key = (k, row.req) := by
  have hrollback : t.rollback b = t.rollbackRecord (t.batch b).reqs k a := by
    unfold rollback
    rw [hb]
    dsimp only
    rw [ha]
  rw [hrollback] at hreturns ⊢
  have hnewer : ∀ row ∈ a.rows, t.restorable (t.batch b).reqs row = true →
      t.hasNewer row = false := by
    by_contra hnot
    push Not at hnot
    obtain ⟨row', hrow', hrest', hnew'⟩ := hnot
    have hany : (a.rows.any fun row => t.restorable (t.batch b).reqs row && t.hasNewer row) =
        true := List.any_eq_true.2 ⟨row', hrow', by simpa [hrest'] using hnew'⟩
    unfold rollbackRecord at hreturns
    rw [DecodeAllocation.isOpen_iff.1 hopen, hs] at hreturns
    dsimp only at hreturns
    rw [hany] at hreturns
    cases hreturns
  rw [rollbackRecord_eq hopen hs hnewer]
  obtain ⟨slot, hzip⟩ : ∃ slot, (row, slot) ∈ a.rows.zip slots := by
    rw [← map_fst_zip (h.slots k a slots ha hs).ge] at hrow
    obtain ⟨e, he, rfl⟩ := mem_map.1 hrow
    exact ⟨e.2, he⟩
  have hmem : (row, slot) ∈ (a.rows.zip slots).filter
      fun e => t.restorable (t.batch b).reqs e.1 := mem_filter.2 ⟨hzip, hrestorable⟩
  constructor
  · have hupd := updateEach_of_mem (g := fun (e : DecodeRow × Int) (q : DecodeReq τ) => q.restore e.1)
      (f := t.req) (h.zip_reqs_nodup ha hs _) hmem
    exact hupd
  · exact ⟨⟨k, row.req, slot⟩, mem_append_right _ (mem_map.2 ⟨(row, slot), hmem, rfl⟩), rfl⟩

/-- A request's lengths, and its cell at the place of the next slot. -/
def SameAllocation (before after : DecodeReq τ) : Prop :=
  after.req.kvAllocatedLen = before.req.kvAllocatedLen ∧
    after.req.kvCommittedLen = before.req.kvCommittedLen ∧
    ∀ n, before.req.kvAllocatedLen = some n → after.row n = before.row n

/-- A rollback that does not raise gives each request of its batch the lengths and the cell it had
    before the prepare, if its row is still its own and no later token took the place. -/
theorem rollback_restores_prepare (h : DecodeInv s) {slots : List Int}
    (hguard : s.Guard (.prepare b (.done slots)))
    (hprepare : (s.prepareForDecode b (.done slots)).2 = none) {ops : List DecodeOp}
    (hrun : (decodeSystem s₀).Run (s.prepareForDecode b (.done slots)).1 ops t) {c r : Nat}
    (hc : (t.batch c).record = some s.nextRecord) (hopen : t.openBatch c = true)
    (hreturns : (t.rollback c).2 = none) (hr : r ∈ (s.batch b).reqs) (hrc : r ∈ (t.batch c).reqs)
    (hpool : (t.req r).req.reqPoolIdx = (s.req r).req.reqPoolIdx)
    (hkv : (t.req r).req.kvAllocatedLen ≠ none)
    (htotal : (t.req r).committedTotal ≤ (s.req r).req.kvAllocatedLen.getD 0) :
    SameAllocation (s.req r) ((t.rollback c).1.req r) ∧
      ∃ e ∈ (t.rollback c).1.freed, e.key = (s.nextRecord, r) := by
  rcases prepareForDecode_cases h hguard with
    ⟨e, heq⟩ | ⟨rows, hrows, ⟨u, e, -, heq⟩ | ⟨slots', -, -, heq⟩⟩
  · rw [heq] at hprepare
    cases hprepare
  · rw [heq] at hprepare
    cases hprepare
  -- The record of the step is still the one of the prepare.
  obtain ⟨hinv, hlater⟩ := later_of_run (h.prepareForDecode hguard) hrun
  obtain ⟨a, ha, harows, haslots⟩ := hlater.record s.nextRecord _
    (show (s.prepareForDecode b (.done slots)).1.record s.nextRecord = some _ by
      rw [heq]
      exact update_self _ _ _)
  obtain ⟨k, a', hk, ha', hopen'⟩ := exists_of_openBatch hopen
  obtain rfl := some.inj (hc.symm.trans hk)
  obtain rfl := some.inj (ha.symm.trans ha')
  rw [← hrows.reqs] at hr
  obtain ⟨row, hmem, rfl⟩ := mem_map.1 hr
  obtain ⟨-, hallocated, hcommitted, hidx⟩ :=
    DecodeReq.decodeRow_eq_some.1 (hrows.row row hmem)
  have hrestorable : t.restorable (t.batch c).reqs row = true := by
    rw [hallocated] at htotal
    exact restorable_iff.2 ⟨hrc, hpool.trans hidx, isSome_iff_ne_none.2 hkv, htotal⟩
  obtain ⟨hrestore, hfreed⟩ :=
    rollback_restores hinv hk ha hopen' haslots hreturns (harows ▸ hmem) hrestorable
  refine ⟨?_, hfreed⟩
  rw [hrestore]
  refine ⟨hallocated.symm, hcommitted.symm, fun n hn => ?_⟩
  obtain rfl := some.inj (hallocated.symm.trans hn)
  rw [h.empty _ _ hallocated row.position le_rfl]
  exact update_self _ _ _

end Guarantees

end Decode

/-! ## Two requests -/

/-- Requests of five encoder and four decoder slots. -/
def sampleDecodeState : DecodeState Nat where
  req r :=
    { req :=
        { rid := "", reqPoolIdx := some r, kvAllocatedLen := some 9, kvCommittedLen := some 9 }
      state :=
        { requestId := "", reqPoolIndex := some r, encoderLength := 5, decoderLength := 4
          phase := .decoding }
      row := fun p => if p < 9 then (10 * r + p + 1 : Nat) else 0 }
  width := 32

theorem sampleDecodeState_initial : sampleDecodeState.Initial where
  batch _ := rfl
  record _ := rfl
  freed := rfl
  kept := rfl
  allocated r n hn := by
    obtain rfl : 9 = n := some.inj hn
    exact ⟨le_rfl, fun p hp => if_neg (not_lt.2 hp)⟩
  parked r hr := nomatch hr

/-- A step runs ahead while request 0 parks, and its result comes after it; the rollbacks of both
    steps come too late. -/
def sampleLookahead : List DecodeOp :=
  [.batch 0 [0, 1], .prepare 0 (.done [26, 27]), .copy 0 1, .prepare 0 (.done [28, 29]), .copy 0 2,
    .resolve 1, .park 0, .filter 0 [1], .resolve 2, .rollback 2, .rollback 0]

end OmniRealtime
