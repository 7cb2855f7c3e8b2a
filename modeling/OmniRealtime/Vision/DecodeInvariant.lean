import OmniRealtime.Vision.DecodeAllocation

/-!
# The invariant of decode steps

Every call keeps it. A step is open until it is committed or released, and each open step of a
request holds one place behind the committed ones of its row.

1. `DecodeInv.settle`: an open step is committed, released or resolved.
2. `DecodeInv.prepared`: one more step.
3. `DecodeInv.apply`: one call.
-/

namespace OmniRealtime

open List Option Function DecodeReq DecodeState Function

section Decode

variable {τ : Type}

namespace DecodeState

variable (s : DecodeState τ)

def openStep (k : Nat) : Prop := ∃ a, s.record k = some a ∧ a.isOpen = true

def openSteps (r : Nat) : Finset Nat := (Finset.range s.nextRecord).filter (s.openFor · r)

end DecodeState

/-- What a batch shares with the open record it carries. -/
structure Shares (batch : DecodeBatch) (a : DecodeAllocation) : Prop where
  subset : batch.reqs ⊆ a.rows.map (·.req)
  aligned : ∀ slots, batch.outCacheLoc = some slots →
    batch.reqs = a.rows.map (·.req) ∧ a.slots = some slots

/-- An entry given back is the slot its record has for that request. -/
def StepSlot.Issued (record : Nat → Option DecodeAllocation) (e : StepSlot) : Prop :=
  ∃ a slots row, record e.step = some a ∧ a.slots = some slots ∧
    (row, e.slot) ∈ a.rows.zip slots ∧ row.req = e.req

structure DecodeInv (s : DecodeState τ) : Prop where
  known : ∀ k a, s.record k = some a → k < s.nextRecord
  rows : ∀ k a, s.record k = some a → (a.rows.map (·.req)).Nodup
  slots : ∀ k a slots, s.record k = some a → a.slots = some slots →
    slots.length = a.rows.length
  reqs : ∀ b, (s.batch b).reqs.Nodup
  shares : ∀ b k, (s.batch b).record = some k →
    ∃ a, s.record k = some a ∧ (a.isOpen = true → Shares (s.batch b) a)
  -- each open step holds a place behind the committed ones
  lag : ∀ r n, (s.req r).req.kvAllocatedLen = some n →
    (s.req r).committedTotal + (s.openSteps r).card ≤ n
  empty : ∀ r n, (s.req r).req.kvAllocatedLen = some n → ∀ p, n ≤ p → (s.req r).row p = 0
  parked : ∀ r, (s.req r).parked = true → (s.req r).state.phase = .waitingForEvent
  ledger : LedgerOk s.openStep s.nextRecord (s.freed.map StepSlot.key) s.kept
  issued : ∀ e ∈ s.freed, e.Issued s.record

namespace DecodeInv

variable {s : DecodeState τ}

theorem initial (h : s.Initial) : DecodeInv s where
  known k a ha := by simp [h.record] at ha
  rows k a ha := by simp [h.record] at ha
  slots k a slots ha := by simp [h.record] at ha
  reqs b := by rw [h.batch]; exact .nil
  shares b k hk := by simp [h.batch] at hk
  lag r n hn := by
    have hnone : s.openSteps r = ∅ := by
      refine Finset.filter_eq_empty_iff.2 fun k _ => ?_
      simp [openFor, h.record]
    rw [hnone]
    exact (h.allocated r n hn).1
  empty r n hn := (h.allocated r n hn).2
  parked := h.parked
  ledger := by
    rw [h.freed, h.kept]
    exact .nil _ _
  issued e he := by simp [h.freed] at he

/-! ### Batches -/

theorem setBatch (h : DecodeInv s) {b : Nat} {batch : DecodeBatch} (hreqs : batch.reqs.Nodup)
    (hshares : ∀ k, batch.record = some k →
      ∃ a, s.record k = some a ∧ (a.isOpen = true → Shares batch a)) :
    DecodeInv (s.setBatch b batch) where
  known := h.known
  rows := h.rows
  slots := h.slots
  reqs c := by
    by_cases hc : c = b
    · subst hc
      simpa [DecodeState.setBatch] using hreqs
    · simpa [DecodeState.setBatch, hc] using h.reqs c
  shares c k hk := by
    by_cases hc : c = b
    · subst hc
      simp only [DecodeState.setBatch, update_self] at hk ⊢
      exact hshares k hk
    · simp only [DecodeState.setBatch, update_of_ne hc] at hk ⊢
      exact h.shares c k hk
  lag := h.lag
  empty := h.empty
  parked := h.parked
  ledger := h.ledger
  issued := h.issued

theorem copy (h : DecodeInv s) (b snapshot : Nat) :
    DecodeInv (s.setBatch snapshot (s.batch b)) :=
  h.setBatch (h.reqs b) (h.shares b)

theorem filter (h : DecodeInv s) (b : Nat) (p : Nat → Bool) (outCacheLoc : Option (List Int))
    (hloc : outCacheLoc = none ∨ s.openBatch b = false) :
    DecodeInv (s.setBatch b
      { s.batch b with reqs := (s.batch b).reqs.filter p, outCacheLoc := outCacheLoc }) := by
  refine h.setBatch ((h.reqs b).filter p) fun k hk => ?_
  obtain ⟨a, ha, hshares⟩ := h.shares b k hk
  refine ⟨a, ha, fun ho => ⟨?_, ?_⟩⟩
  · exact fun r hr => (hshares ho).subset (mem_of_mem_filter hr)
  · intro slots hsls
    rcases hloc with rfl | hcl
    · cases hsls
    · replace hk : (s.batch b).record = some k := hk
      simp [openBatch, hk, ha, ho] at hcl

theorem merge (h : DecodeInv s) {b : Nat} {more : List Nat}
    (hnd : ((s.batch b).reqs ++ more).Nodup) (hcl : s.openBatch b = false) :
    DecodeInv (s.setBatch b
      { s.batch b with reqs := (s.batch b).reqs ++ more, outCacheLoc := none }) := by
  refine h.setBatch hnd fun k hk => ?_
  obtain ⟨a, ha, -⟩ := h.shares b k hk
  replace hk : (s.batch b).record = some k := hk
  refine ⟨a, ha, fun ho => ?_⟩
  simp [openBatch, hk, ha, ho] at hcl

/-! ### Open steps -/

end DecodeInv

namespace DecodeState

variable {s : DecodeState τ} {k r : Nat} {a a' : DecodeAllocation}

theorem mem_openSteps : k ∈ s.openSteps r ↔ k < s.nextRecord ∧ s.openFor k r = true := by
  simp [openSteps]

theorem openFor_of_record (ha : s.record k = some a) :
    s.openFor k r = (a.isOpen && (a.rows.map (·.req)).contains r) := by
  simp [openFor, ha]

/-- The record of a step replaced, with the requests and the two accounts after it. -/
def settled (s : DecodeState τ) (req : Nat → DecodeReq τ) (k : Nat) (a : DecodeAllocation)
    (back : List StepSlot) (keep : List Nat) : DecodeState τ :=
  { s with
    req := req
    record := Function.update s.record k (some a)
    freed := s.freed ++ back
    kept := s.kept ++ keep.map (k, ·) }

theorem openSteps_settled (req : Nat → DecodeReq τ) (back : List StepSlot) (keep : List Nat)
    (hcl : a.isOpen = false) :
    (s.settled req k a back keep).openSteps r = (s.openSteps r).erase k := by
  ext j
  rw [Finset.mem_erase, mem_openSteps, mem_openSteps]
  by_cases hj : j = k
  · subst hj
    simp [openFor, settled, hcl]
  · simp [openFor, settled, hj]

theorem openSteps_begun {t : DecodeState τ} (hnext : t.nextRecord = s.nextRecord + 1)
    (hrec : t.record = Function.update s.record s.nextRecord (some a)) :
    t.openSteps r =
      if a.isOpen && (a.rows.map (·.req)).contains r then insert s.nextRecord (s.openSteps r)
      else s.openSteps r := by
  have hold : ∀ j, j ≠ s.nextRecord → t.openFor j r = s.openFor j r := by
    intro j hj
    simp [openFor, hrec, hj]
  have hnew : t.openFor s.nextRecord r = (a.isOpen && (a.rows.map (·.req)).contains r) := by
    simp [openFor, hrec]
  ext j
  rw [mem_openSteps, hnext]
  by_cases hj : j = s.nextRecord
  · subst hj
    rw [hnew]
    split <;> simp_all [mem_openSteps]
  · rw [hold j hj]
    have hlt : j < s.nextRecord + 1 ↔ j < s.nextRecord :=
      ⟨fun h => Nat.lt_of_le_of_ne (Nat.le_of_lt_succ h) hj, Nat.lt_succ_of_lt⟩
    rw [hlt]
    split
    · rw [Finset.mem_insert, mem_openSteps]
      exact ⟨.inr, fun h => h.resolve_left hj⟩
    · rw [mem_openSteps]

theorem notMem_openSteps_next : s.nextRecord ∉ s.openSteps r :=
  fun h => lt_irrefl _ (mem_openSteps.1 h).1

end DecodeState

namespace DecodeInv

variable {s : DecodeState τ} {k : Nat} {a a' : DecodeAllocation}

section

variable (h : DecodeInv s)
include h

theorem mem_openSteps_of_row (ha : s.record k = some a) (ho : a.isOpen = true) {r : Nat}
    (hr : r ∈ a.rows.map (·.req)) : k ∈ s.openSteps r := by
  refine mem_openSteps.2 ⟨h.known k a ha, ?_⟩
  rw [openFor_of_record ha, ho]
  simpa using hr

/-- What a request must be like once the step `k` is settled. -/
structure Settles (s : DecodeState τ) (k r : Nat) (q : DecodeReq τ) : Prop where
  lag : ∀ n, q.req.kvAllocatedLen = some n →
    q.committedTotal + ((s.openSteps r).erase k).card ≤ n
  empty : ∀ n, q.req.kvAllocatedLen = some n → ∀ p, n ≤ p → q.row p = 0
  parked : q.parked = true → q.state.phase = .waitingForEvent

theorem settles (k r : Nat) : Settles s k r (s.req r) where
  lag n hn := (Nat.add_le_add_left Finset.card_erase_le _).trans (h.lag r n hn)
  empty := h.empty r
  parked := h.parked r

/-- The record of a step is settled, with what becomes of the requests, and of what is given
    back and kept. -/
theorem settle (ha : s.record k = some a) (a' : DecodeAllocation)
    (hrows : a'.rows = a.rows) (hsls : a'.slots = a.slots) (hcl : a'.isOpen = false)
    (req : Nat → DecodeReq τ) (back : List StepSlot) (keep : List Nat)
    (hreq : ∀ r, Settles s k r (req r))
    (hledger : back = [] ∧ keep = [] ∨
      a.isOpen = true ∧ (back.map (·.req)).Nodup ∧ ∀ r ∈ back.map (·.req), r ∉ keep)
    (hissued : ∀ e ∈ back, e.step = k ∧ e.Issued s.record) :
    DecodeInv (s.settled req k a' back keep) := by
  -- Every other record is the old one, and so are the rows and slots of this one.
  have hcases : ∀ j b, update s.record k (some a') j = some b →
      ∃ old, s.record j = some old ∧ b.rows = old.rows ∧ b.slots = old.slots ∧
        (b.isOpen = true → b = old ∧ j ≠ k) := by
    intro j b hb
    obtain ⟨rfl, heq⟩ | ⟨hne, hb⟩ := update_eq_some hb
    · cases heq
      exact ⟨a, ha, hrows, hsls, fun ho => absurd ho (by simp [hcl])⟩
    · exact ⟨b, hb, rfl, rfl, fun _ => ⟨rfl, hne⟩⟩
  have hst : ∀ j, (s.settled req k a' back keep).openStep j → s.openStep j ∧ j ≠ k := by
    rintro j ⟨b, hb, ho⟩
    obtain ⟨old, hold, -, -, hsame⟩ := hcases j b hb
    obtain ⟨rfl, hne⟩ := hsame ho
    exact ⟨⟨b, hold, ho⟩, hne⟩
  have hkeepIssued : ∀ e : StepSlot, e.Issued s.record →
      e.Issued (update s.record k (some a')) := by
    rintro e ⟨b, slots, row, hb, hbslots, hmem, hreq⟩
    by_cases hek : e.step = k
    · rw [hek] at hb
      obtain rfl := some.inj (ha.symm.trans hb)
      refine ⟨a', slots, row, ?_, hsls.trans hbslots, hrows ▸ hmem, hreq⟩
      rw [hek, update_self]
    · exact ⟨b, slots, row, (update_of_ne hek _ _).trans hb, hbslots, hmem, hreq⟩
  refine
    { known := ?_, rows := ?_, slots := ?_, reqs := h.reqs, shares := ?_, lag := ?_
      empty := fun r => (hreq r).empty, parked := fun r => (hreq r).parked
      ledger := ?_, issued := ?_ }
  · intro j b hb
    obtain ⟨old, hold, -⟩ := hcases j b hb
    exact h.known j old hold
  · intro j b hb
    obtain ⟨old, hold, hrows, -⟩ := hcases j b hb
    rw [hrows]
    exact h.rows j old hold
  · intro j b slots hb hbslots
    obtain ⟨old, hold, hrows, hsls, -⟩ := hcases j b hb
    rw [hrows]
    exact h.slots j old slots hold (hsls ▸ hbslots)
  · intro c j hj
    obtain ⟨old, hold, hshares⟩ := h.shares c j hj
    by_cases hjk : j = k
    · subst hjk
      exact ⟨a', update_self _ _ _, fun ho => absurd ho (by simp [hcl])⟩
    · exact ⟨old, (update_of_ne hjk _ _).trans hold, hshares⟩
  · intro r n hn
    rw [openSteps_settled req back keep hcl]
    exact (hreq r).lag n hn
  · rcases hledger with ⟨rfl, rfl⟩ | ⟨ho, hback, hapart⟩
    · show LedgerOk _ _ ((s.freed ++ []).map StepSlot.key) (s.kept ++ [])
      rw [append_nil, append_nil]
      exact h.ledger.mono fun j hj => (hst j hj).1
    · have hkey : back.map StepSlot.key = (back.map (·.req)).map (k, ·) := by
        rw [List.map_map]
        refine map_congr_left fun e he => ?_
        show (e.step, e.req) = (k, e.req)
        rw [(hissued e he).1]
      show LedgerOk _ _ ((s.freed ++ back).map StepSlot.key) _
      rw [map_append, hkey]
      exact h.ledger.settle ⟨a, ha, ho⟩ (h.known k a ha) (fun j hj => (hst j hj).1)
        (fun hk => (hst k hk).2 rfl) _ _ hback hapart
  · intro e he
    rcases mem_append.1 he with he | he
    · exact hkeepIssued e (h.issued e he)
    · exact hkeepIssued e (hissued e he).2

/-! ### Commits and rollbacks -/

theorem setRecord (ha : s.record k = some a) (hrows : a'.rows = a.rows)
    (hsls : a'.slots = a.slots) (hcl : a'.isOpen = false) : DecodeInv (s.setRecord k a') := by
  have hsettle := h.settle ha a' hrows hsls hcl s.req [] [] (h.settles k)
    (.inl ⟨rfl, rfl⟩) nofun
  unfold settled at hsettle
  rw [append_nil, map_nil, append_nil] at hsettle
  exact hsettle

theorem commitDecode (b : Nat) : DecodeInv (s.commitDecode b) := by
  unfold DecodeState.commitDecode
  split
  · exact h
  split
  · exact h
  · next k _ a ha =>
    exact h.setRecord ha rfl rfl a.isOpen_commit

theorem zip_reqs_nodup (ha : s.record k = some a) {slots : List Int} (hsls : a.slots = some slots)
    (p : DecodeRow × Int → Bool) : (((a.rows.zip slots).filter p).map (·.1.req)).Nodup := by
  have hzip := map_req_zip (h.slots k a slots ha hsls)
  exact (h.rows k a ha).sublist (hzip ▸ filter_sublist.map _)

end

end DecodeInv

namespace DecodeState

variable {s : DecodeState τ} {k : Nat} {a : DecodeAllocation} {slots : List Int} {active : List Nat}

theorem restorable_iff {row : DecodeRow} : s.restorable active row = true ↔
      row.req ∈ active ∧ (s.req row.req).req.reqPoolIdx = some row.poolIndex ∧
        (s.req row.req).req.kvAllocatedLen.isSome = true ∧
        (s.req row.req).committedTotal ≤ row.position := by
  simp [restorable, and_assoc]

theorem hasNewer_eq_false {row : DecodeRow} :
    s.hasNewer row = false ↔ (s.req row.req).req.kvAllocatedLen.getD 0 ≤ row.position + 1 := by
  simp [hasNewer]

theorem rollbackRecord_eq (ho : a.isOpen = true) (hsls : a.slots = some slots)
    (hnewer : ∀ row ∈ a.rows, s.restorable active row = true → s.hasNewer row = false) :
    s.rollbackRecord active k a = (s.settled (updateEach (·.1.req) (fun e r => r.restore e.1)
          ((a.rows.zip slots).filter fun e => s.restorable active e.1) s.req)
        k { a with released := true }
        (((a.rows.zip slots).filter fun e => s.restorable active e.1).map
          fun e => ⟨k, e.1.req, e.2⟩) [], none) := by
  have hflags := DecodeAllocation.isOpen_iff.1 ho
  have hany : (a.rows.any fun row => s.restorable active row && s.hasNewer row) = false := by
    rw [List.any_eq_false]
    intro row hrow hboth
    obtain ⟨hrest, hnew⟩ := Bool.and_eq_true_iff.1 hboth
    rw [hnewer row hrow hrest] at hnew
    cases hnew
  unfold rollbackRecord settled
  rw [hflags, hsls]
  simp [hany]

theorem rollbackRecord_cases (active : List Nat) (k : Nat) (a : DecodeAllocation) :
    (s.rollbackRecord active k a).1 = s ∨
      a.slots = none ∧ s.rollbackRecord active k a = (s.setRecord k { a with released := true }, none) ∨
      ∃ slots, a.isOpen = true ∧ a.slots = some slots ∧
        ∀ row ∈ a.rows, s.restorable active row = true → s.hasNewer row = false := by
  cases hflags : a.committed || a.released with
  | true =>
    refine .inl ?_
    unfold rollbackRecord
    rw [hflags]
    rfl
  | false =>
    have ho := DecodeAllocation.isOpen_iff.2 hflags
    cases hsls : a.slots with
    | none =>
      refine .inr (.inl ⟨rfl, ?_⟩)
      unfold rollbackRecord
      rw [hflags, hsls]
      rfl
    | some slots =>
      by_cases hnewer : ∀ row ∈ a.rows, s.restorable active row = true → s.hasNewer row = false
      · exact .inr (.inr ⟨slots, ho, rfl, hnewer⟩)
      · refine .inl ?_
        have hany : (a.rows.any fun row => s.restorable active row && s.hasNewer row) = true := by
          push Not at hnewer
          obtain ⟨row, hrow, hrest, hnew⟩ := hnewer
          refine List.any_eq_true.2 ⟨row, hrow, ?_⟩
          simpa [hrest] using hnew
        unfold rollbackRecord
        rw [hflags, hsls]
        dsimp only
        rw [hany]
        rfl

end DecodeState

namespace DecodeInv

variable {s : DecodeState τ} {k : Nat} {a a' : DecodeAllocation}

theorem rollbackRecord (h : DecodeInv s) (ha : s.record k = some a) (active : List Nat) :
    DecodeInv (s.rollbackRecord active k a).1 := by
  obtain heq | ⟨hnone, heq⟩ | ⟨slots, ho, hsls, hnewer⟩ :=
    rollbackRecord_cases (s := s) active k a
  · rw [heq]
    exact h
  · rw [heq]
    exact h.setRecord ha rfl rfl a.isOpen_release
  rw [rollbackRecord_eq ho hsls hnewer]
  have hnd := h.zip_reqs_nodup ha hsls fun e => s.restorable active e.1
  -- A row that is taken back is the last of its request.
  have hrow : ∀ e ∈ (a.rows.zip slots).filter (fun e => s.restorable active e.1),
      e.1 ∈ a.rows ∧ (s.req e.1.req).committedTotal ≤ e.1.position ∧
        ∃ n, (s.req e.1.req).req.kvAllocatedLen = some n ∧ n ≤ e.1.position + 1 := by
    intro e he
    obtain ⟨hzip, hrest⟩ := mem_filter.1 he
    have hmem : e.1 ∈ a.rows := (of_mem_zip (show (e.1, e.2) ∈ _ from hzip)).1
    obtain ⟨-, -, hkv, htot⟩ := restorable_iff.1 hrest
    obtain ⟨n, hn⟩ := isSome_iff_exists.1 hkv
    have hlast := hnewer e.1 hmem hrest
    simp [hasNewer, hn] at hlast
    exact ⟨hmem, htot, n, hn, hlast⟩
  refine h.settle ha { a with released := true } rfl rfl a.isOpen_release _ _ []
    (fun r => ?_) (.inr ⟨ho, ?_, ?_⟩) ?_
  · rcases updateEach_cases (g := fun e r => r.restore e.1) (f := s.req) hnd r with
      ⟨e, he, rfl, heq⟩ | ⟨-, heq⟩
    · rw [heq]
      obtain ⟨hmem, htot, m, hm, hle⟩ := hrow e he
      refine ⟨?_, ?_, h.parked _⟩
      · intro n hn
        cases hn
        have hcard := Finset.card_erase_add_one
          (h.mem_openSteps_of_row ha ho (List.mem_map_of_mem (f := (·.req)) hmem))
        have hlag := h.lag _ m hm
        show (s.req e.1.req).committedTotal + _ ≤ e.1.position
        omega
      · intro n hn p hp
        cases hn
        show update (s.req e.1.req).row e.1.position 0 p = 0
        rcases Nat.eq_or_lt_of_le hp with rfl | hlt
        · exact update_self _ _ _
        · rw [update_of_ne (Nat.ne_of_gt hlt)]
          exact h.empty _ m hm p (hle.trans hlt)
    · rw [heq]
      exact h.settles k r
  · rw [List.map_map]
    exact hnd
  · exact fun r _ => not_mem_nil
  · intro e he
    obtain ⟨e, hmem, rfl⟩ := List.mem_map.1 he
    exact ⟨rfl, a, slots, e.1, ha, hsls, mem_of_mem_filter hmem, rfl⟩

theorem rollback (h : DecodeInv s) (b : Nat) : DecodeInv (s.rollback b).1 := by
  unfold DecodeState.rollback
  split
  · exact h
  split
  · exact h
  · next a ha => exact h.rollbackRecord ha _

end DecodeInv

/-! ### Results of a step -/

namespace DecodeState

variable {s : DecodeState τ} {b k : Nat} {a : DecodeAllocation}

/-- The requests a step's result moves on, and those whose overrun is dropped. -/
def advanced (s : DecodeState τ) (resolved : Bool) (b : Nat) : List Nat :=
  (s.batch b).reqs.filter fun r => (s.req r).advances resolved

def dropped (s : DecodeState τ) (b : Nat) : List Nat :=
  (s.batch b).reqs.filter fun r => (s.req r).overruns

theorem openBatch_settled {a' : DecodeAllocation} (hb : (s.batch b).record = some k)
    (hcl : a'.isOpen = false) (req : Nat → DecodeReq τ) (back : List StepSlot)
    (keep : List Nat) : (s.settled req k a' back keep).openBatch b = false := by
  simp [openBatch, settled, hb, hcl]

theorem exists_of_openBatch (h : s.openBatch b = true) :
    ∃ k a, (s.batch b).record = some k ∧ s.record k = some a ∧ a.isOpen = true := by
  unfold openBatch at h
  rw [Option.any_eq_true] at h
  obtain ⟨a, hbind, ho⟩ := h
  obtain ⟨k, hb, ha⟩ := bind_eq_some_iff.1 hbind
  exact ⟨k, a, hb, ha, ho⟩

theorem postDecode_eq (hb : (s.batch b).record = some k) (ha : s.record k = some a)
    (resolved : Bool) :
    s.postDecode resolved b =
      s.settled (updateEach id (fun _ r => r.advance) (s.advanced resolved b) s.req) k
        { a with committed := true } [] (s.advanced resolved b) := by
  dsimp only [postDecode, commitDecode, settled]
  rw [hb]
  dsimp only
  rw [ha, append_nil]
  rfl

/-- What a resolved step leaves behind, before its batch is trimmed. -/
theorem freeParkedOverrun_cases (hb : (s.batch b).record = some k) (ha : s.record k = some a) :
    (s.postDecode true b).freeParkedOverrun b (s.dropped b) = s.postDecode true b ∨
      ∃ slots, (s.batch b).outCacheLoc = some slots ∧
        (s.postDecode true b).freeParkedOverrun b (s.dropped b) = s.settled
            (updateEach id (fun _ r => r.trimOverrun) (s.dropped b)
              (updateEach id (fun _ r => r.advance) (s.advanced true b) s.req))
            k { a with committed := true }
            ((((s.batch b).reqs.zip slots).filter fun e => (s.dropped b).contains e.1).map
              fun e => ⟨k, e.1, e.2⟩)
            (s.advanced true b) := by
  rw [postDecode_eq hb ha]
  unfold freeParkedOverrun
  split
  · exact .inl rfl
  · split
    · exact .inl rfl
    · next slots hsls =>
      refine .inr ⟨slots, hsls, ?_⟩
      dsimp only [settled]
      rw [hb, append_nil]
      rfl

end DecodeState

namespace DecodeInv

variable {s : DecodeState τ} {b k : Nat} {a : DecodeAllocation}

section

variable (h : DecodeInv s)
include h

theorem advanced_nodup (resolved : Bool) (b : Nat) : ((s.advanced resolved b).map id).Nodup := by
  rw [List.map_id]
  exact (h.reqs b).filter _

theorem dropped_nodup (b : Nat) : ((s.dropped b).map id).Nodup := by
  rw [List.map_id]
  exact (h.reqs b).filter _

section

variable (hb : (s.batch b).record = some k) (ha : s.record k = some a) (ho : a.isOpen = true)
include hb ha ho

theorem mem_openSteps_of_batch {r : Nat} (hr : r ∈ (s.batch b).reqs) : k ∈ s.openSteps r := by
  obtain ⟨a', ha', hshares⟩ := h.shares b k hb
  obtain rfl := some.inj (ha.symm.trans ha')
  exact h.mem_openSteps_of_row ha ho ((hshares ho).subset hr)

theorem advance {resolved : Bool} (hparked : ∀ r ∈ s.advanced resolved b, (s.req r).parked = false)
    (r : Nat) :
    Settles s k r (updateEach id (fun _ r => r.advance) (s.advanced resolved b) s.req r) := by
  rcases updateEach_cases (g := fun _ r => r.advance) (f := s.req) (h.advanced_nodup resolved b) r
    with ⟨r', hr', heq, hreq⟩ | ⟨-, hreq⟩
  · obtain rfl : r' = r := heq
    rw [hreq]
    refine ⟨fun n hn => ?_, h.empty r', fun hp => ?_⟩
    · have hcard := Finset.card_erase_add_one
        (h.mem_openSteps_of_batch hb ha ho (mem_of_mem_filter hr'))
      have hlag := h.lag _ n hn
      have htot : (s.req r').advance.committedTotal = (s.req r').committedTotal + 1 := rfl
      omega
    · exact absurd (show (s.req r').parked = true from hp) (by simp [hparked r' hr'])
  · rw [hreq]
    exact h.settles k r

end

theorem postDecode (ho : s.openBatch b = true) {resolved : Bool}
    (hparked : ∀ r ∈ s.advanced resolved b, (s.req r).parked = false) :
    DecodeInv (s.postDecode resolved b) := by
  obtain ⟨k, a, hb, ha, ho⟩ := exists_of_openBatch ho
  rw [postDecode_eq hb ha]
  refine h.settle ha { a with committed := true } rfl rfl a.isOpen_commit _ [] _
    (h.advance hb ha ho hparked) (.inr ⟨ho, .nil, ?_⟩) ?_
  · exact nofun
  · exact nofun

/-- Of the slots a batch has beside its requests, those of the dropped ones are the record's. -/
theorem issued_of_batch (hb : (s.batch b).record = some k) (ha : s.record k = some a)
    (ho : a.isOpen = true) {slots : List Int} (hloc : (s.batch b).outCacheLoc = some slots) :
    slots.length = (s.batch b).reqs.length ∧
      ∀ e ∈ (s.batch b).reqs.zip slots, StepSlot.Issued s.record ⟨k, e.1, e.2⟩ := by
  obtain ⟨a', ha', hshares⟩ := h.shares b k hb
  obtain rfl := some.inj (ha.symm.trans ha')
  obtain ⟨hreqs, hsls⟩ := (hshares ho).aligned slots hloc
  refine ⟨?_, fun e he => ?_⟩
  · rw [hreqs, length_map, h.slots k a slots ha hsls]
  · rw [hreqs, zip_map_left] at he
    obtain ⟨e, hmem, rfl⟩ := mem_map.1 he
    exact ⟨a, slots, e.1, ha, hsls, hmem, rfl⟩

/-- A parked request whose only outstanding step is given back. -/
theorem settles_trimOverrun {r : Nat} (hk : k ∈ s.openSteps r)
    (hlast : (s.req r).req.kvAllocatedLen.getD 0 ≤ (s.req r).committedTotal + 1) :
    Settles s k r (s.req r).trimOverrun := by
  unfold trimOverrun
  split
  · exact h.settles k r
  refine ⟨?_, ?_, h.parked r⟩
  · intro n hn
    obtain ⟨m, hm, rfl⟩ := map_eq_some_iff.1
      (show (s.req r).req.kvAllocatedLen.map (min · (s.req r).committedTotal) = some n from hn)
    rw [hm] at hlast
    have hlag := h.lag r m hm
    have hcard := Finset.card_erase_add_one hk
    show (s.req r).committedTotal + _ ≤ min m _
    simp only [getD_some] at hlast
    omega
  · intro n hn p hp
    obtain ⟨m, hm, rfl⟩ := map_eq_some_iff.1
      (show (s.req r).req.kvAllocatedLen.map (min · (s.req r).committedTotal) = some n from hn)
    rw [hm] at hlast
    have hlag := h.lag r m hm
    show update (s.req r).row (s.req r).committedTotal 0 p = 0
    by_cases hp' : p = (s.req r).committedTotal
    · rw [hp']
      exact update_self _ _ _
    · rw [update_of_ne hp']
      refine h.empty r m hm p ?_
      simp only [getD_some] at hlast
      omega

theorem resolve (ho : s.openBatch b = true)
    (hlast : ∀ r ∈ (s.batch b).reqs, (s.req r).overruns = true →
      (s.req r).req.kvAllocatedLen.getD 0 ≤ (s.req r).committedTotal + 1) :
    DecodeInv (s.resolve b) := by
  -- What moves on is not parked, so nothing that moves on is dropped.
  have hparked : ∀ r ∈ s.advanced true b, (s.req r).parked = false := by
    intro r hr
    have hadvances := (mem_filter.1 hr).2
    by_contra hp
    have hph := h.parked r (by simpa using hp)
    simp [advances, hph] at hadvances
  have hapart : ∀ r ∈ s.dropped b, r ∉ s.advanced true b := by
    intro r hr hadv
    have hover := (mem_filter.1 hr).2
    simp [overruns, hparked r hadv] at hover
  have hpost := h.postDecode ho hparked
  obtain ⟨k, a, hb, ha, ho⟩ := exists_of_openBatch ho
  have ht : DecodeInv ((s.postDecode true b).freeParkedOverrun b (s.dropped b)) ∧
      ((s.postDecode true b).freeParkedOverrun b (s.dropped b)).batch = s.batch ∧
      ((s.postDecode true b).freeParkedOverrun b (s.dropped b)).openBatch b = false := by
    have hbt : (s.postDecode true b).batch = s.batch ∧
        (s.postDecode true b).openBatch b = false := by
      rw [postDecode_eq hb ha]
      exact ⟨rfl, openBatch_settled hb a.isOpen_commit _ _ _⟩
    rcases freeParkedOverrun_cases hb ha with heq | ⟨slots, hloc, heq⟩
    · rw [heq]
      exact ⟨hpost, hbt⟩
    rw [heq]
    obtain ⟨hl, hissued⟩ := h.issued_of_batch hb ha ho hloc
    refine ⟨?_, rfl, openBatch_settled hb a.isOpen_commit _ _ _⟩
    refine h.settle ha { a with committed := true } rfl rfl a.isOpen_commit _ _ _
      (fun r => ?_) (.inr ⟨ho, ?_, ?_⟩) ?_
    · rcases updateEach_cases (g := fun _ r => r.trimOverrun)
        (f := updateEach id (fun _ r => r.advance) (s.advanced true b) s.req) (h.dropped_nodup b) r
        with ⟨r', hr', heq, hreq⟩ | ⟨-, hreq⟩
      · obtain rfl : r' = r := heq
        rw [hreq, updateEach_of_notMem (by simpa using hapart r' hr')]
        obtain ⟨hmem, hover⟩ := mem_filter.1 hr'
        exact h.settles_trimOverrun (h.mem_openSteps_of_batch hb ha ho hmem) (hlast r' hmem hover)
      · rw [hreq]
        exact h.advance hb ha ho hparked r
    · rw [List.map_map]
      have hsub := (filter_sublist (p := fun e : Nat × Int => (s.dropped b).contains e.1)
        (l := (s.batch b).reqs.zip slots)).map Prod.fst
      rw [map_fst_zip hl.ge] at hsub
      exact (h.reqs b).sublist hsub
    · intro r hr
      rw [List.map_map] at hr
      obtain ⟨e, he, rfl⟩ := mem_map.1 hr
      exact hapart e.1 (by simpa using (mem_filter.1 he).2)
    · intro e he
      obtain ⟨e, hmem, rfl⟩ := mem_map.1 he
      exact ⟨rfl, hissued e (mem_of_mem_filter hmem)⟩
  obtain ⟨hinv, hbt, hcl⟩ := ht
  have hfilter := hinv.filter b
    (fun r => !((s.req r).finished || (s.req r).isRetracted || (s.req r).parked))
    (((s.postDecode true b).freeParkedOverrun b (s.dropped b)).batch b).outCacheLoc (.inr hcl)
  have hreqs : (((s.postDecode true b).freeParkedOverrun b (s.dropped b)).batch b).reqs =
      (s.batch b).reqs := by rw [hbt]
  rw [hreqs] at hfilter
  exact hfilter

end

/-! ### Requests -/

section

variable (h : DecodeInv s) (r : Nat)
include h

theorem setReq {r : Nat} {q : DecodeReq τ}
    (hlag : ∀ n, q.req.kvAllocatedLen = some n → q.committedTotal + (s.openSteps r).card ≤ n)
    (hemp : ∀ n, q.req.kvAllocatedLen = some n → ∀ p, n ≤ p → q.row p = 0)
    (hparked : q.parked = true → q.state.phase = .waitingForEvent) :
    DecodeInv (s.setReq r q) := by
  have hreq : ∀ r', (∃ _ : r' = r, (s.setReq r q).req r' = q) ∨ (s.setReq r q).req r' = s.req r' := by
    intro r'
    by_cases hr : r' = r
    · exact .inl ⟨hr, hr ▸ update_self _ _ _⟩
    · exact .inr (update_of_ne hr _ _)
  refine
    { known := h.known, rows := h.rows, slots := h.slots, reqs := h.reqs, shares := h.shares
      lag := fun r' => ?_, empty := fun r' => ?_, parked := fun r' => ?_
      ledger := h.ledger, issued := h.issued }
  all_goals
    obtain ⟨rfl, heq⟩ | heq := hreq r'
    all_goals rw [heq]
  · exact hlag
  · exact h.lag r'
  · exact hemp
  · exact h.empty r'
  · exact hparked
  · exact h.parked r'

theorem park : DecodeInv (s.park r) :=
  h.setReq (h.lag r) (h.empty r) fun _ => rfl

theorem finish : DecodeInv (s.finish r) :=
  h.setReq (h.lag r) (h.empty r) nofun

theorem teardown : DecodeInv (s.teardown r) :=
  h.setReq nofun nofun (h.parked r)

theorem extend {r encoderLength : Nat} {slots : List Int} (hle : encoderLength ≤ slots.length)
    (hsteps : ∀ k < s.nextRecord, s.openFor k r = false) :
    DecodeInv (s.extend r encoderLength slots) := by
  have hnone : s.openSteps r = ∅ := by
    refine Finset.filter_eq_empty_iff.2 fun k hk => ?_
    simp [hsteps k (Finset.mem_range.1 hk)]
  refine h.setReq ?_ ?_ nofun
  · intro n hn
    cases hn
    rw [hnone]
    show encoderLength + (slots.length - encoderLength) + 0 ≤ slots.length
    omega
  · intro n hn p hp
    cases hn
    exact getD_eq_default _ _ hp

end

end DecodeInv

/-! ### Preparing -/

theorem DecodeReq.decodeRow_eq_some {q : DecodeReq τ} {id : Nat} {row : DecodeRow} :
    q.decodeRow id = some row ↔ row.req = id ∧ q.req.kvAllocatedLen = some row.position ∧
        q.req.kvCommittedLen = some row.committedLength ∧
        q.req.reqPoolIdx = some row.poolIndex := by
  obtain ⟨req, position, committedLength, poolIndex⟩ := row
  unfold decodeRow
  split
  · next p c i hp hc hi =>
    rw [hp, hc, hi]
    simp only [some.injEq, DecodeRow.mk.injEq]
    exact ⟨fun ⟨h₁, h₂, h₃, h₄⟩ => ⟨h₁.symm, h₂, h₃, h₄⟩,
      fun ⟨h₁, h₂, h₃, h₄⟩ => ⟨h₁.symm, h₂, h₃, h₄⟩⟩
  · next hnone =>
    constructor
    · intro h
      cases h
    · rintro ⟨-, hp, hc, hi⟩
      exact absurd hi (hnone _ _ _ hp hc)

/-- Whatever upstream wrote and moved on, restoring the row gives the request back. -/
theorem DecodeReq.restore_write {q : DecodeReq τ} {row : DecodeRow}
    (hrow : q.decodeRow row.req = some row) (hcell : q.row row.position = 0) (slot : Int) :
    (q.write row.position slot).restore row = q ∧
      (q.write row.position slot).moveOn.restore row = q := by
  obtain ⟨-, hallocated, hcommitted, -⟩ := decodeRow_eq_some.1 hrow
  have hreq : ({ q.req with
      kvAllocatedLen := some row.position
      kvCommittedLen := some row.committedLength } : RealtimeReq) = q.req := by
    rw [← hallocated, ← hcommitted]
  have hcells : update (update q.row row.position slot) row.position 0 = q.row := by
    rw [update_idem, ← hcell, update_eq_self]
  have heq : ({ q with
      req :=
        { q.req with
          kvAllocatedLen := some row.position
          kvCommittedLen := some row.committedLength }
      row := update (update q.row row.position slot) row.position 0 } :
        DecodeReq τ) = q := by
    rw [hreq, hcells]
  exact ⟨heq, heq⟩

namespace DecodeState

variable {s : DecodeState τ} {b k : Nat} {rows : List DecodeRow} {slots : List Int}

theorem mapM_decodeRow {reqs : List Nat} {rows : List DecodeRow}
    (h : (reqs.mapM fun r => (s.req r).decodeRow r) = some rows) :
    rows.map (·.req) = reqs ∧ ∀ row ∈ rows, (s.req row.req).decodeRow row.req = some row := by
  induction reqs generalizing rows with
  | nil =>
    cases h
    exact ⟨rfl, nofun⟩
  | cons r reqs ih =>
    rw [mapM_cons] at h
    obtain ⟨row, hrow, hrest⟩ := bind_eq_some_iff.1 h
    obtain ⟨rest, hmap, heq⟩ := bind_eq_some_iff.1 hrest
    cases heq
    obtain ⟨hreqs, hall⟩ := ih hmap
    have hid := (DecodeReq.decodeRow_eq_some.1 hrow).1
    refine ⟨by rw [map_cons, hreqs, hid], fun row' hrow' => ?_⟩
    rcases mem_cons.1 hrow' with rfl | hrow'
    · rw [hid]
      exact hrow
    · exact hall row' hrow'

/-- The requests after upstream: each of a row is written, and the first ones are moved on. -/
theorem upstreamDecode_cases (hnd : (rows.map (·.req)).Nodup)
    (hl : slots.length = rows.length) (moved r : Nat) :
    (∃ row slot, (row, slot) ∈ rows.zip slots ∧ row.req = r ∧
      (rows.length ≤ moved → (s.upstreamDecode rows slots moved).req r =
        ((s.req r).write row.position slot).moveOn) ∧
      ((s.upstreamDecode rows slots moved).req r = (s.req r).write row.position slot ∨
        (s.upstreamDecode rows slots moved).req r = ((s.req r).write row.position slot).moveOn)) ∨
      r ∉ rows.map (·.req) ∧ (s.upstreamDecode rows slots moved).req r = s.req r := by
  have hzip : (rows.zip slots).map (·.1.req) = rows.map (·.req) := map_req_zip hl
  have htake : ((rows.take moved).map (·.req)).Nodup :=
    hnd.sublist ((take_sublist moved rows).map _)
  rcases updateEach_cases (g := fun (e : DecodeRow × Int) r => r.write e.1.position e.2)
    (f := s.req) (hzip ▸ hnd) r with ⟨⟨row, slot⟩, hmem, rfl, hwrt⟩ | ⟨hnot, hwrt⟩
  · refine .inl ⟨row, slot, hmem, rfl, ?_⟩
    rcases updateEach_cases (g := fun (_ : DecodeRow) r => r.moveOn)
      (f := updateEach (·.1.req) (fun e r => r.write e.1.position e.2) (rows.zip slots) s.req)
      htake row.req with ⟨row', hrow', -, hmove⟩ | ⟨hnot, hmove⟩
    · have heq := hmove.trans (congrArg moveOn hwrt)
      exact ⟨fun _ => heq, .inr heq⟩
    · have heq := hmove.trans hwrt
      refine ⟨fun hle => ?_, .inl heq⟩
      rw [take_of_length_le hle] at hnot
      exact absurd (mem_map_of_mem (of_mem_zip hmem).1) hnot
  · rw [hzip] at hnot
    refine .inr ⟨hnot, ?_⟩
    have hnot' : r ∉ (rows.take moved).map (·.req) :=
      fun hr => hnot (((take_sublist moved rows).map _).subset hr)
    exact (updateEach_of_notMem hnot').trans hwrt

/-- A state with the record of one more step, carried by a batch. -/
def prepared (s : DecodeState τ) (b : Nat) (a : DecodeAllocation) (loc : Option (List Int))
    (req : Nat → DecodeReq τ) (back : List StepSlot) : DecodeState τ :=
  { s with
    req := req
    record := Function.update s.record s.nextRecord (some a)
    nextRecord := s.nextRecord + 1
    batch := Function.update s.batch b
      { reqs := (s.batch b).reqs, record := some s.nextRecord, outCacheLoc := loc }
    freed := s.freed ++ back }

/-- The rows of a record are those of the requests. -/
structure RowsOf (s : DecodeState τ) (reqs : List Nat) (rows : List DecodeRow) : Prop where
  reqs : rows.map (·.req) = reqs
  row : ∀ row ∈ rows, (s.req row.req).decodeRow row.req = some row

/-- The step whose upstream call raised: it is released, and no request has changed. -/
structure Undone (s : DecodeState τ) (b : Nat) (rows : List DecodeRow) (upstream : UpstreamDecode)
    (t : DecodeState τ) : Prop where
  notDone : ∀ slots, upstream ≠ .done slots
  state : t = s.prepared b { rows := rows, released := true } none s.req [] ∨
    ∃ slots, slots.length = rows.length ∧
      t = s.prepared b { rows := rows, slots := some slots, released := true } (some slots) s.req
        ((rows.zip slots).map fun e => ⟨s.nextRecord, e.1.req, e.2⟩)

/-- After upstream raised with the slots written, the rollback takes every row back. -/
theorem rollback_upstream (h : DecodeInv s) (hrows : RowsOf s (s.batch b).reqs rows)
    (hl : slots.length = rows.length) (moved : Nat) :
    (s.prepared b { rows := rows, slots := some slots } (some slots)
        (s.upstreamDecode rows slots moved).req []).rollback b =
      (s.prepared b { rows := rows, slots := some slots, released := true } (some slots) s.req
        ((rows.zip slots).map fun e => ⟨s.nextRecord, e.1.req, e.2⟩), none) := by
  have hnd : (rows.map (·.req)).Nodup := by
    rw [hrows.reqs]
    exact h.reqs b
  have hcases := s.upstreamDecode_cases hnd hl moved
  let t := s.prepared b { rows := rows, slots := some slots } (some slots)
    (s.upstreamDecode rows slots moved).req []
  -- A request of the step is as it was but for its own cell and lengths.
  have hrow : ∀ row ∈ rows, row.req ∈ (s.batch b).reqs ∧
      (t.req row.req).req.reqPoolIdx = some row.poolIndex ∧
      (∃ n, (t.req row.req).req.kvAllocatedLen = some n ∧ n ≤ row.position + 1) ∧
      (t.req row.req).committedTotal ≤ row.position ∧
      (t.req row.req).restore row = s.req row.req := by
    intro row hmem
    have hdecode := hrows.row row hmem
    obtain ⟨-, hallocated, -, hpool⟩ := decodeRow_eq_some.1 hdecode
    have hact : row.req ∈ (s.batch b).reqs := by
      rw [← hrows.reqs]
      exact mem_map_of_mem hmem
    have hcell := h.empty _ _ hallocated row.position le_rfl
    have htot : (s.req row.req).committedTotal ≤ row.position :=
      (Nat.le_add_right _ _).trans (h.lag _ _ hallocated)
    rcases s.upstreamDecode_cases hnd hl moved row.req with
      ⟨row', slot, hzip, hreq, -, hval⟩ | ⟨hnot, -⟩
    · obtain rfl : row' = row :=
        inj_on_of_nodup_map hnd (of_mem_zip hzip).1 hmem hreq
      have hrestore := restore_write hdecode hcell slot
      rcases hval with hval | hval
      · rw [show t.req row'.req = _ from hval]
        exact ⟨hact, hpool, ⟨_, hallocated, Nat.le_succ _⟩, htot, hrestore.1⟩
      · rw [show t.req row'.req = _ from hval]
        refine ⟨hact, hpool, ⟨_, ?_, le_rfl⟩, htot, hrestore.2⟩
        show ((s.req row'.req).req.kvAllocatedLen).map (· + 1) = some (row'.position + 1)
        rw [hallocated]
        rfl
    · exact absurd (mem_map_of_mem hmem) hnot
  have hrestorable : ∀ row ∈ rows, t.restorable (s.batch b).reqs row = true := by
    intro row hmem
    obtain ⟨hact, hpool, ⟨n, hn, -⟩, htot, -⟩ := hrow row hmem
    exact restorable_iff.2 ⟨hact, hpool, isSome_iff_exists.2 ⟨n, hn⟩, htot⟩
  have hnewer : ∀ row ∈ rows, t.restorable (s.batch b).reqs row = true →
      t.hasNewer row = false := by
    intro row hmem _
    obtain ⟨-, -, ⟨n, hn, hle⟩, -, -⟩ := hrow row hmem
    exact hasNewer_eq_false.2 (hn ▸ hle)
  have hfilter : ((rows.zip slots).filter fun e => t.restorable (s.batch b).reqs e.1) =
      rows.zip slots :=
    filter_eq_self.2 fun e he => hrestorable e.1 (of_mem_zip (show (e.1, e.2) ∈ _ from he)).1
  have hreq : updateEach (·.1.req) (fun (e : DecodeRow × Int) r => r.restore e.1)
      (rows.zip slots) t.req = s.req := by
    have hzip : (rows.zip slots).map (·.1.req) = rows.map (·.req) := map_req_zip hl
    funext r
    rcases updateEach_cases (g := fun (e : DecodeRow × Int) r => r.restore e.1) (f := t.req)
      (hzip ▸ hnd) r with ⟨e, he, rfl, heq⟩ | ⟨hnot, heq⟩
    · obtain ⟨-, -, -, -, hrestore⟩ := hrow e.1 (of_mem_zip (show (e.1, e.2) ∈ _ from he)).1
      exact heq.trans hrestore
    · rw [hzip] at hnot
      rcases s.upstreamDecode_cases hnd hl moved r with ⟨row, slot, hmem, rfl, -⟩ | ⟨-, hsame⟩
      · exact absurd (mem_map_of_mem (of_mem_zip hmem).1) hnot
      · exact heq.trans hsame
  have hbt : (t.batch b).record = some s.nextRecord ∧ (t.batch b).reqs = (s.batch b).reqs := by
    constructor <;> simp [t, prepared]
  have hrec : t.record s.nextRecord = some { rows := rows, slots := some slots } :=
    update_self _ _ _
  show t.rollback b = _
  unfold rollback
  rw [hbt.1]
  dsimp only
  rw [hrec, hbt.2]
  dsimp only
  rw [rollbackRecord_eq rfl rfl hnewer, hfilter, hreq]
  unfold settled
  simp [t, prepared]

/-- A prepare raises before it has begun a step, or begins one, and undoes it where upstream
    raised. -/
theorem prepareForDecode_cases (h : DecodeInv s) {upstream : UpstreamDecode}
    (hg : s.Guard (.prepare b upstream)) :
    (∃ e, s.prepareForDecode b upstream = (s, some e)) ∨ ∃ rows, RowsOf s (s.batch b).reqs rows ∧
        ((∃ t e, Undone s b rows upstream t ∧ s.prepareForDecode b upstream = (t, some e)) ∨
          ∃ slots, upstream = .done slots ∧ slots.length = rows.length ∧
            s.prepareForDecode b upstream =
              (s.prepared b { rows := rows, slots := some slots } (some slots)
                (s.upstreamDecode rows slots rows.length).req [], none)) := by
  dsimp only [prepareForDecode]
  split
  · exact .inl ⟨_, rfl⟩
  split
  · exact .inl ⟨_, rfl⟩
  next rows hmap =>
  obtain ⟨hreqs, hrow⟩ := mapM_decodeRow hmap
  have hl : ∀ {slots : List Int}, slots.length = (s.batch b).reqs.length →
      slots.length = rows.length := by
    intro slots hsls
    rw [hsls, ← hreqs, length_map]
  -- The two writes of the record, and of the batch, are one.
  have hallocated : ∀ (slots : List Int) (moved : Nat),
      ((((({ s with nextRecord := s.nextRecord + 1 } : DecodeState τ).setRecord s.nextRecord
          { rows := rows }).setBatch b
          { reqs := (s.batch b).reqs, record := some s.nextRecord, outCacheLoc := none }
          ).upstreamDecode rows slots moved).setBatch b
          { reqs := (s.batch b).reqs, record := some s.nextRecord, outCacheLoc := some slots }
          ).setRecord s.nextRecord { rows := rows, slots := some slots } =
        s.prepared b { rows := rows, slots := some slots } (some slots)
          (s.upstreamDecode rows slots moved).req [] := by
    intro slots moved
    simp [setRecord, setBatch, upstreamDecode, prepared]
  refine .inr ⟨rows, ⟨hreqs, hrow⟩, ?_⟩
  cases upstream with
  | done slots =>
    refine .inr ⟨slots, rfl, hl hg, ?_⟩
    exact congrArg (·, none) (hallocated slots rows.length)
  | raisesBefore =>
    refine .inl ⟨_, .upstream, ⟨fun slots hsls => ?_, .inl rfl⟩, ?_⟩
    · cases hsls
    · simp [rollback, rollbackRecord, setRecord, setBatch, prepared]
  | raisesAfter slots moved =>
    refine .inl ⟨_, .upstream, ⟨fun slots hsls => ?_, .inr ⟨slots, hl hg, rfl⟩⟩, ?_⟩
    · cases hsls
    · dsimp only
      rw [hallocated slots moved, rollback_upstream h ⟨hreqs, hrow⟩ (hl hg) moved]
      rfl

end DecodeState

namespace DecodeInv

variable {s : DecodeState τ} {b : Nat} {a : DecodeAllocation}

theorem prepared (h : DecodeInv s) {loc : Option (List Int)} {req : Nat → DecodeReq τ}
    {back : List StepSlot} (hreqs : a.rows.map (·.req) = (s.batch b).reqs)
    (hsls : ∀ slots, a.slots = some slots → slots.length = a.rows.length)
    (hloc : ∀ slots, loc = some slots → a.slots = some slots)
    (hreq : ∀ r, (req r).parked = (s.req r).parked ∧ (req r).state = (s.req r).state ∧
      ∀ n, (req r).req.kvAllocatedLen = some n →
        (s.req r).committedTotal + (s.openSteps r).card +
            (if a.isOpen && (s.batch b).reqs.contains r then 1 else 0) ≤ n ∧
          ∀ p, n ≤ p → (req r).row p = 0)
    (hback : a.isOpen = true → back = []) (hnd : (back.map (·.req)).Nodup)
    (hissued : ∀ e ∈ back, e.step = s.nextRecord ∧
      ∃ slots row, a.slots = some slots ∧ (row, e.slot) ∈ a.rows.zip slots ∧ row.req = e.req) :
    DecodeInv (s.prepared b a loc req back) := by
  have hnext : ∀ k a', s.record k = some a' →
      (s.prepared b a loc req back).record k = some a' := fun k a' ha' =>
    (update_of_ne (ne_of_lt (h.known k a' ha')) _ _).trans ha'
  have hcases : ∀ k a', (s.prepared b a loc req back).record k = some a' →
      k = s.nextRecord ∧ a' = a ∨ s.record k = some a' := by
    intro k a' hk
    obtain ⟨rfl, heq⟩ | ⟨-, hold⟩ := update_eq_some hk
    · exact .inl ⟨rfl, (some.inj heq).symm⟩
    · exact .inr hold
  have hnew : (s.prepared b a loc req back).record s.nextRecord = some a :=
    update_self _ _ _
  refine
    { known := ?_, rows := ?_, slots := ?_, reqs := ?_, shares := ?_, lag := ?_
      empty := fun r n hn => ((hreq r).2.2 n hn).2, parked := ?_, ledger := ?_, issued := ?_ }
  · intro k a' hk
    rcases hcases k a' hk with ⟨rfl, -⟩ | hold
    · exact Nat.lt_succ_self _
    · exact Nat.lt_succ_of_lt (h.known k a' hold)
  · intro k a' hk
    rcases hcases k a' hk with ⟨-, rfl⟩ | hold
    · rw [hreqs]
      exact h.reqs b
    · exact h.rows k a' hold
  · intro k a' slots hk hs
    rcases hcases k a' hk with ⟨-, rfl⟩ | hold
    · exact hsls slots hs
    · exact h.slots k a' slots hold hs
  · intro c
    by_cases hc : c = b
    · subst hc
      simpa [DecodeState.prepared] using h.reqs c
    · simpa [DecodeState.prepared, hc] using h.reqs c
  · intro c k hk
    by_cases hc : c = b
    · subst hc
      simp only [DecodeState.prepared, update_self, some.injEq] at hk ⊢
      subst hk
      exact ⟨a, hnew, fun _ => ⟨fun r hr => hreqs ▸ hr, fun slots hs => ⟨hreqs.symm, hloc slots hs⟩⟩⟩
    · simp only [DecodeState.prepared, update_of_ne hc] at hk ⊢
      obtain ⟨a', ha', hshares⟩ := h.shares c k hk
      exact ⟨a', hnext k a' ha', hshares⟩
  · intro r n hn
    obtain ⟨-, hstt, hrow⟩ := hreq r
    have hle := (hrow n hn).1
    have htot : (req r).committedTotal = (s.req r).committedTotal := by
      unfold committedTotal
      rw [hstt]
    rw [openSteps_begun (s := s) (a := a) rfl rfl, hreqs]
    show (req r).committedTotal + _ ≤ n
    rw [htot]
    split
    · next ho =>
      rw [Finset.card_insert_of_notMem notMem_openSteps_next]
      rw [if_pos ho] at hle
      omega
    · next hcl =>
      rw [if_neg hcl] at hle
      exact hle
  · intro r hr
    obtain ⟨hparked, hstt, -⟩ := hreq r
    show (req r).state.phase = _
    rw [hstt]
    exact h.parked r (hparked ▸ hr)
  · have ho : ∀ k, (s.prepared b a loc req back).openStep k → s.openStep k ∨ k = s.nextRecord := by
      rintro k ⟨a', hk, ho⟩
      rcases hcases k a' hk with ⟨rfl, -⟩ | hold
      · exact .inr rfl
      · exact .inl ⟨a', hold, ho⟩
    show LedgerOk _ (s.nextRecord + 1) ((s.freed ++ back).map StepSlot.key) s.kept
    cases ha : a.isOpen with
    | true =>
      rw [hback ha, append_nil]
      exact h.ledger.begin_step ho
    | false =>
      have hkey : back.map StepSlot.key = (back.map (·.req)).map (s.nextRecord, ·) := by
        rw [List.map_map]
        refine map_congr_left fun e he => ?_
        show (e.step, e.req) = (s.nextRecord, e.req)
        rw [(hissued e he).1]
      have hbegun : LedgerOk (fun k => s.openStep k ∨ k = s.nextRecord) (s.nextRecord + 1)
          (s.freed.map StepSlot.key) s.kept := h.ledger.begin_step fun k hk => hk
      have hcl : ¬(s.prepared b a loc req back).openStep s.nextRecord := by
        rintro ⟨a', hk, ho'⟩
        obtain rfl := some.inj (hnew.symm.trans hk)
        rw [ha] at ho'
        cases ho'
      have hstl := hbegun.settle (.inr rfl) (Nat.lt_succ_self _) ho hcl _ [] hnd
        fun r _ => not_mem_nil
      rw [map_nil, append_nil] at hstl
      rw [map_append, hkey]
      exact hstl
  · intro e he
    rcases mem_append.1 he with he | he
    · obtain ⟨a', slots, row, ha', hs, hmem, hrow⟩ := h.issued e he
      exact ⟨a', slots, row, hnext _ a' ha', hs, hmem, hrow⟩
    · obtain ⟨hst, slots, row, hs, hmem, hrow⟩ := hissued e he
      exact ⟨a, slots, row, hst ▸ hnew, hs, hmem, hrow⟩

theorem prepareForDecode (h : DecodeInv s) {upstream : UpstreamDecode}
    (hg : s.Guard (.prepare b upstream)) :
    DecodeInv (s.prepareForDecode b upstream).1 := by
  -- A step that is undone leaves every request where it was.
  have hsame : ∀ (a : DecodeAllocation), a.isOpen = false → ∀ r,
      (s.req r).parked = (s.req r).parked ∧ (s.req r).state = (s.req r).state ∧
        ∀ n, (s.req r).req.kvAllocatedLen = some n →
          (s.req r).committedTotal + (s.openSteps r).card +
              (if a.isOpen && (s.batch b).reqs.contains r then 1 else 0) ≤ n ∧
            ∀ p, n ≤ p → (s.req r).row p = 0 := by
    intro a hcl r
    refine ⟨rfl, rfl, fun n hn => ⟨?_, h.empty r n hn⟩⟩
    rw [hcl]
    exact h.lag r n hn
  rcases prepareForDecode_cases h hg with
    ⟨e, heq⟩ | ⟨rows, hrows, ⟨t, e, hundone, heq⟩ | ⟨slots, -, hl, heq⟩⟩
  · rw [heq]
    exact h
  · rw [heq]
    rcases hundone.state with rfl | ⟨slots, hl, rfl⟩
    · refine h.prepared hrows.reqs ?_ ?_ (hsame _ rfl) (fun _ => rfl) .nil ?_
      · exact nofun
      · exact nofun
      · exact nofun
    · refine h.prepared hrows.reqs ?_ ?_ (hsame _ rfl) ?_ ?_ ?_
      · intro slots' hs
        cases hs
        exact hl
      · exact fun slots' hs => hs
      · exact fun ho => absurd ho Bool.false_ne_true
      · rw [List.map_map]
        show ((rows.zip slots).map (·.1.req)).Nodup
        rw [map_req_zip hl, hrows.reqs]
        exact h.reqs b
      · intro e he
        obtain ⟨e, hmem, rfl⟩ := mem_map.1 he
        exact ⟨rfl, slots, e.1, rfl, hmem, rfl⟩
  · rw [heq]
    refine h.prepared hrows.reqs ?_ (fun slots' hs => hs) (fun r => ?_) (fun _ => rfl) .nil ?_
    · intro slots' hs
      cases hs
      exact hl
    · have hnd : (rows.map (·.req)).Nodup := hrows.reqs ▸ h.reqs b
      rcases s.upstreamDecode_cases hnd hl rows.length r with
        ⟨row, slot, hmem, rfl, hmoved, -⟩ | ⟨hnot, hreq⟩
      · rw [hmoved le_rfl]
        obtain ⟨-, hallocated, -, -⟩ :=
          decodeRow_eq_some.1 (hrows.row row (of_mem_zip hmem).1)
        have hposition : ((s.req row.req).write row.position slot).moveOn.req.kvAllocatedLen =
            some (row.position + 1) := by
          show (s.req row.req).req.kvAllocatedLen.map (· + 1) = _
          rw [hallocated]
          rfl
        refine ⟨rfl, rfl, fun n hn => ?_⟩
        obtain rfl := some.inj (hposition.symm.trans hn)
        refine ⟨?_, fun p hp => ?_⟩
        · refine Nat.add_le_add (h.lag _ _ hallocated) ?_
          split <;> simp
        · show update (s.req row.req).row row.position slot p = 0
          rw [update_of_ne (Nat.ne_of_gt hp)]
          exact h.empty _ _ hallocated p (le_of_lt hp)
      · rw [hreq]
        refine ⟨rfl, rfl, fun n hn => ⟨?_, h.empty r n hn⟩⟩
        have hout : (s.batch b).reqs.contains r = false := by
          rw [hrows.reqs] at hnot
          simpa using hnot
        rw [hout, Bool.and_false]
        exact h.lag r n hn
    · exact nofun

theorem apply (h : DecodeInv s) {op : DecodeOp} (hg : s.Guard op) : DecodeInv (s.apply op) := by
  cases op with
  | batch b reqs => exact h.setBatch hg nofun
  | merge b more => exact h.merge hg.1 hg.2
  | copy b snapshot => exact h.copy b snapshot
  | filter b keep => exact h.filter b keep.contains none (.inl rfl)
  | prepare b upstream => exact h.prepareForDecode hg
  | commit b => exact h.commitDecode b
  | postDecode b =>
    exact h.postDecode hg.1 fun r hr => hg.2 r (mem_of_mem_filter hr)
  | rollback b => exact h.rollback b
  | resolve b => exact h.resolve hg.1 hg.2
  | park r => exact h.park r
  | extend r encoderLength slots => exact h.extend hg.1 hg.2
  | finish r => exact h.finish r
  | teardown r => exact h.teardown r

end DecodeInv

end Decode

end OmniRealtime
