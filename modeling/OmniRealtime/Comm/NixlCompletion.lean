import OmniRealtime.Comm.NixlRelay
import OmniRealtime.Lib.HeldSlots

/-!
# Puts that complete for themselves

All puts of a relay expect the same message, and a poll takes every notification there is. So a put
may complete for the receiver of another, which goes on reading a slot that is free again, and the
other put never sees its notification. A timeout and a cancellation free the slot too.

1. `Paired`: the puts that have ended, and those that are still to end.
2. `endsOwn`: the steps that end a put for its own receiver. `Inv.step`: they keep the invariant.
-/

namespace OmniRealtime

open List Option Function CreditAllocator

/-- A put that has at most one wait in its loop, and ends for its own receiver. -/
structure PutOperation.Sound (slotSize : ℕ) (op : PutOperation) : Prop where
  fits : op.size ≤ slotSize
  waits : op.waits ≤ 1
  idle : op.completed = true → op.waits = 0
  once : op.ends.length = op.completed.toNat
  completes : ∀ e ∈ op.ends, (e.timedOut = false ↔ e.receiver = .finished)
  timely : ∀ e ∈ op.ends, e.timedOut = true → e.arrived = false
  ended : op.completed = true → op.receiver.mayRead = false
  arrived : op.arrived = true → op.receiver = .finished

structure GetOperation.Sound (op : GetOperation) : Prop where
  waits : op.waits ≤ 1
  idle : op.completed = true → op.waits = 0

namespace NixlRelay

variable {s t : NixlRelay} {credits slotSize n : ℕ} {op : PutOperation} {act : NixlEvent}

/-! ## What is claimed -/

/-- Another put or get has the slot of a put. -/
def Taken (s : NixlRelay) (n offset : ℕ) : Prop :=
  (∃ m other, m ≠ n ∧ s.puts m = some other ∧ other.completed = false ∧ other.offset = offset) ∨
    ∃ m other, s.gets m = some other ∧ other.completed = false ∧ other.offset = offset

structure Paired (s : NixlRelay) : Prop where
  /-- A wait ends without timing out exactly when the receiver has finished. -/
  completes : ∀ n op, s.puts n = some op → ∀ e ∈ op.ends,
    (e.timedOut = false ↔ e.receiver = .finished)
  timely : ∀ n op, s.puts n = some op → ∀ e ∈ op.ends, e.timedOut = true → e.arrived = false
  once : ∀ n op, s.puts n = some op → op.ends.length = op.completed.toNat
  reserved : ∀ n op, s.puts n = some op → op.receiver.mayRead = true →
    op.completed = false ∧
      (0 < op.size → op.offset ∉ s.allocator.freeCredits ∧ ¬s.Taken n op.offset)
  /-- The next poll of the put finds its notification. -/
  delivered : ∀ n op, s.puts n = some op → op.arrived = true → op.completed = false →
    ∃ note ∈ s.newNotifs, note.source = n

/-! ## The condition -/

def putCompleted (s : NixlRelay) (n : ℕ) : Bool := (s.puts n).any PutOperation.completed

/-- A poll finds nothing, or its own notification and only those of completed puts besides. A wait
    gives up when its receiver is gone, and is cancelled when its receiver has finished. There is
    one wait at a time. -/
def endsOwn (s : NixlRelay) : NixlEvent → Bool
  | .poll n late => (s.puts n).all fun op =>
    if s.newNotifs.isEmpty then !late || op.receiver = .gone
    else s.newNotifs.any (fun note => note.source = n) &&
      s.newNotifs.all fun note => note.source = n || s.putCompleted note.source
  | .cancelPut n => (s.puts n).all fun op => op.receiver = .finished
  | .waitPut n => (s.puts n).all fun op => op.waits = 0
  | .waitGet n => (s.gets n).all fun op => op.waits = 0
  | _ => true

/-! ## The invariant -/

/-- What every operation holds. -/
def held (s : NixlRelay) : ℕ ⊕ ℕ → Option ℕ
  | .inl n => (s.puts n).bind fun op => if op.completed then none else some op.offset
  | .inr n => (s.gets n).bind fun op => if op.completed then none else some op.offset

structure Inv (credits slotSize : ℕ) (s : NixlRelay) : Prop where
  size : s.slotSize = slotSize
  capacity : s.allocator.credits = credits
  pool : 0 < slotSize →
    Exclusive (CreditAllocator.initialCredits credits (some slotSize)) s.allocator.freeCredits s.held
  puts : ∀ n op, s.puts n = some op → op.Sound slotSize
  gets : ∀ n op, s.gets n = some op → op.Sound
  delivered : ∀ n op, s.puts n = some op → op.arrived = true → op.completed = false →
    ∃ note ∈ s.newNotifs, note.source = n
  notifs : ∀ note ∈ s.newNotifs, note.msg = expectedNotification ∧
    ∃ op, s.puts note.source = some op ∧ op.arrived = true

section Held

variable {get : GetOperation}

theorem held_setPut (op : PutOperation) :
    (s.setPut n op).held =
      update s.held (.inl n) (if op.completed then none else some op.offset) := by
  funext i
  cases i with
  | inl m =>
    by_cases hmn : m = n
    · subst hmn
      simp [held, setPut]
    · simp [held, setPut, hmn]
  | inr m => simp [held, setPut]

theorem held_setGet (op : GetOperation) :
    (s.setGet n op).held =
      update s.held (.inr n) (if op.completed then none else some op.offset) := by
  funext i
  cases i with
  | inl m => simp [held, setGet]
  | inr m =>
    by_cases hmn : m = n
    · subst hmn
      simp [held, setGet]
    · simp [held, setGet, hmn]

theorem held_put (hop : s.puts n = some op) :
    s.held (.inl n) = if op.completed then none else some op.offset := by simp [held, hop]

theorem held_get (hop : s.gets n = some get) :
    s.held (.inr n) = if get.completed then none else some get.offset := by simp [held, hop]

end Held

theorem initialCredits_nodup (hsz : 0 < slotSize) :
    (initialCredits credits (some slotSize)).Nodup :=
  List.Nodup.map (fun _ _ heq => Nat.eq_of_mul_eq_mul_right hsz heq) nodup_range

theorem initialCredits_length :
    (CreditAllocator.initialCredits credits (some slotSize)).length = credits := by
  simp [initialCredits]

theorem release_freeCredits {allocator : CreditAllocator}
    (hfull : allocator.freeCredits.length < allocator.credits) (offset : ℕ) :
    (allocator.release offset).freeCredits = allocator.freeCredits ++ [offset] := by
  rw [release, if_neg fun ⟨_, hle⟩ => absurd hfull (Nat.not_lt.mpr hle)]

theorem release_credits (allocator : CreditAllocator) (offset : ℕ) :
    (allocator.release offset).credits = allocator.credits := by
  unfold release
  split <;> rfl

theorem acquire_eq_some {allocator rest : CreditAllocator} {offset : ℕ}
    (h : allocator.acquire = some (offset, rest)) :
    allocator.freeCredits = offset :: rest.freeCredits ∧ rest.credits = allocator.credits := by
  unfold acquire at h
  split at h
  · cases h
  · rename_i credit free hfree
    cases h
    exact ⟨hfree, rfl⟩

namespace Inv

theorem initial : Inv credits slotSize (.create credits slotSize) where
  size := rfl
  capacity := rfl
  pool := by
    intro hsz
    have hnone : (create credits slotSize).held = fun _ => none := by
      funext i
      cases i <;> rfl
    rw [hnone]
    exact Exclusive.full (initialCredits_nodup hsz)
  puts := nofun
  gets := nofun
  delivered := nofun
  notifs := nofun

theorem toPaired (h : Inv credits slotSize s) : s.Paired where
  completes := fun n op hop => (h.puts n op hop).completes
  timely := fun n op hop => (h.puts n op hop).timely
  once := fun n op hop => (h.puts n op hop).once
  delivered := h.delivered
  reserved := by
    intro n op hop hread
    have hopen : op.completed = false := by
      cases hc : op.completed with
      | false => rfl
      | true => exact absurd hread (by simp [(h.puts n op hop).ended hc])
    refine ⟨hopen, fun hsz => ?_⟩
    have hp := h.pool (Nat.lt_of_lt_of_le hsz (h.puts n op hop).fits)
    have hh : s.held (.inl n) = some op.offset := by simp [held_put hop, hopen]
    refine ⟨hp.apart _ _ hh, ?_⟩
    intro htaken
    rcases htaken with ⟨m, other, hmn, ho, hrun, hoffset⟩ | ⟨m, other, ho, hrun, hoffset⟩
    · have hm : s.held (.inl m) = some op.offset := by simp [held_put ho, hrun, hoffset]
      exact hmn (Sum.inl.inj (hp.injective _ _ _ hm hh))
    · have hm : s.held (.inr m) = some op.offset := by simp [held_get ho, hrun, hoffset]
      exact nomatch hp.injective _ _ _ hm hh

/-! ## Steps -/

section

variable (h : Inv credits slotSize s) {offset : ℕ} {old : PutOperation}
include h

theorem setPut_notify {notifs : List Notification} (hop : s.puts n = some old)
    (hsnd : op.Sound slotSize) (hoffset : op.offset = old.offset)
    (hc : op.completed = old.completed) (harrived : old.arrived = true → op.arrived = true)
    (hnote : op.arrived = true → op.completed = false → ∃ note ∈ notifs, note.source = n)
    (hold : s.newNotifs ⊆ notifs) (hnew : ∀ note ∈ notifs, note ∈ s.newNotifs ∨
      note.msg = expectedNotification ∧ note.source = n ∧ op.arrived = true) :
    Inv credits slotSize (NixlRelay.setPut { s with newNotifs := notifs } n op) where
  size := h.size
  capacity := h.capacity
  pool := by
    intro hsz
    have hsame : (NixlRelay.setPut { s with newNotifs := notifs } n op).held = s.held := by
      refine (held_setPut op).trans ?_
      rw [hc, hoffset, ← held_put hop]
      exact update_eq_self _ _
    rw [hsame]
    exact h.pool hsz
  puts := by
    intro m other ho
    obtain ⟨-, heq⟩ | ⟨-, ho⟩ := update_eq_some ho
    · cases heq
      exact hsnd
    · exact h.puts m other ho
  gets := h.gets
  delivered := by
    intro m other ho
    obtain ⟨rfl, heq⟩ | ⟨-, ho⟩ := update_eq_some ho
    · cases heq
      exact hnote
    · intro hother_arrived hopen
      obtain ⟨note, hmem, hsrc⟩ := h.delivered m other ho hother_arrived hopen
      exact ⟨note, hold hmem, hsrc⟩
  notifs := by
    intro note hmem
    rcases hnew note hmem with hmem | ⟨hmsg, rfl, hset⟩
    · obtain ⟨hmsg, other, ho, hn⟩ := h.notifs note hmem
      refine ⟨hmsg, ?_⟩
      by_cases hsrc : note.source = n
      · subst hsrc
        rw [hop] at ho
        cases ho
        exact ⟨op, update_self _ _ _, harrived hn⟩
      · exact ⟨other, (update_of_ne hsrc _ _).trans ho, hn⟩
    · exact ⟨hmsg, op, update_self _ _ _, hset⟩

theorem setPut (hop : s.puts n = some old) (hsnd : op.Sound slotSize)
    (hoffset : op.offset = old.offset) (hc : op.completed = old.completed)
    (harrived : old.arrived = true → op.arrived = true)
    (hnote : op.arrived = true → op.completed = false → ∃ note ∈ s.newNotifs, note.source = n) :
    Inv credits slotSize (s.setPut n op) :=
  h.setPut_notify hop hsnd hoffset hc harrived hnote (List.Subset.refl _)
    fun _ hmem => .inl hmem

theorem setGet {old get : GetOperation} (hget : s.gets n = some old) (hsnd : get.Sound)
    (hoffset : get.offset = old.offset) (hc : get.completed = old.completed)
    : Inv credits slotSize (s.setGet n get) :=
  { h with
    pool := by
      intro hsz
      have hsame : (s.setGet n get).held = s.held := by
        rw [held_setGet, hc, hoffset, ← held_get hget, update_eq_self]
      rw [hsame]
      exact h.pool hsz
    gets := by
      intro m other ho
      obtain ⟨rfl, heq⟩ | ⟨-, hold⟩ := update_eq_some ho
      · cases heq
        exact hsnd
      · exact h.gets m other hold }

/-- A slot that is given back by a holder, who holds nothing from now on. -/
theorem pool_release {i : ℕ ⊕ ℕ} (hh : s.held i = some offset) (hsz : 0 < slotSize) :
    Exclusive (initialCredits credits (some slotSize))
      (s.allocator.release offset).freeCredits (update s.held i none) := by
  have hlt := (h.pool hsz).length_lt hh
  rw [initialCredits_length, ← h.capacity] at hlt
  rw [release_freeCredits hlt]
  exact (h.pool hsz).give hh

theorem pool_rotate {rest : CreditAllocator} (hacquire : s.allocator.acquire = some (offset, rest))
    (hsz : 0 < slotSize) : Exclusive (initialCredits credits (some slotSize))
      (rest.release offset).freeCredits s.held := by
  obtain ⟨hfree, hcredits⟩ := acquire_eq_some hacquire
  have hp := h.pool hsz
  rw [hfree] at hp
  have hle := hp.length_le
  rw [initialCredits_length, length_cons, ← h.capacity, ← hcredits] at hle
  rw [release_freeCredits hle]
  exact hp.rotate

theorem pool_take {rest : CreditAllocator} (hacquire : s.allocator.acquire = some (offset, rest))
    (i : ℕ ⊕ ℕ) (hsz : 0 < slotSize) :
    Exclusive (initialCredits credits (some slotSize)) rest.freeCredits
      (update s.held i (some offset)) := by
  obtain ⟨hfree, -⟩ := acquire_eq_some hacquire
  have hp := h.pool hsz
  rw [hfree] at hp
  exact hp.take i

theorem setAllocator {allocator : CreditAllocator} (hcredits : allocator.credits = credits)
    (hp : 0 < slotSize → Exclusive (initialCredits credits (some slotSize))
      allocator.freeCredits s.held) :
    Inv credits slotSize { s with allocator := allocator } :=
  { h with
    capacity := hcredits
    pool := hp }

theorem putAsync {size offset : ℕ} {raises : Bool} {rest : CreditAllocator} (hnew : s.puts n = none)
    (hfits : size ≤ slotSize) (hacquire : s.allocator.acquire = some (offset, rest)) :
    Inv credits slotSize
      (NixlRelay.putAsync { s with allocator := rest } n size raises offset) := by
  have hcredits := (acquire_eq_some hacquire).2.trans h.capacity
  cases raises with
  | true => exact h.setAllocator ((release_credits _ _).trans hcredits) (h.pool_rotate hacquire)
  | false =>
    exact {
      size := h.size
      capacity := hcredits
      pool := by
        intro hsz
        have hh : (NixlRelay.putAsync { s with allocator := rest } n size false offset).held =
            update s.held (.inl n) (some offset) := held_setPut _
        rw [hh]
        exact h.pool_take hacquire (.inl n) hsz
      puts := by
        intro m other ho
        obtain ⟨-, heq⟩ | ⟨-, hold⟩ := update_eq_some ho
        · cases heq
          exact {
            fits := hfits
            waits := Nat.zero_le 1
            idle := nofun
            once := rfl
            completes := nofun
            timely := nofun
            ended := nofun
            arrived := nofun }
        · exact h.puts m other hold
      gets := h.gets
      delivered := by
        intro m other ho
        obtain ⟨-, heq⟩ | ⟨-, hold⟩ := update_eq_some ho
        · cases heq
          nofun
        · exact h.delivered m other hold
      notifs := by
        intro note hmem
        obtain ⟨hmsg, other, ho, hn⟩ := h.notifs note hmem
        have hsrc : note.source ≠ n := by
          intro heq
          rw [heq, hnew] at ho
          cases ho
        exact ⟨hmsg, other, by simpa [NixlRelay.putAsync, NixlRelay.setPut, hsrc] using ho,
          hn⟩ }

theorem getAsync {raises : Bool} {rest : CreditAllocator}
    (hacquire : s.allocator.acquire = some (offset, rest)) :
    Inv credits slotSize (NixlRelay.getAsync { s with allocator := rest } n raises offset) := by
  have hcredits := (acquire_eq_some hacquire).2.trans h.capacity
  cases raises with
  | true => exact h.setAllocator ((release_credits _ _).trans hcredits) (h.pool_rotate hacquire)
  | false =>
    exact { h with
      capacity := hcredits
      pool := by
        intro hsz
        have hh : (NixlRelay.getAsync { s with allocator := rest } n false offset).held =
            update s.held (.inr n) (some offset) := held_setGet _
        rw [hh]
        exact h.pool_take hacquire (.inr n) hsz
      gets := by
        intro m other ho
        obtain ⟨-, heq⟩ | ⟨-, hold⟩ := update_eq_some ho
        · cases heq
          exact ⟨Nat.zero_le 1, nofun⟩
        · exact h.gets m other hold }

theorem endGet {get : GetOperation} (hget : s.gets n = some get) (hw : 0 < get.waits)
    : Inv credits slotSize (s.endGet n get) := by
  have hsnd := h.gets n get hget
  have hopen : get.completed = false := by
    cases hc : get.completed with
    | false => rfl
    | true => exact absurd hw (by simp [hsnd.idle hc])
  exact { h with
    capacity := (release_credits _ _).trans h.capacity
    pool := by
      intro hsz
      have hh : (s.endGet n get).held = update s.held (.inr n) none := held_setGet _
      rw [hh]
      exact h.pool_release (by simp [held_get hget, hopen]) hsz
    gets := by
      intro m other ho
      obtain ⟨-, heq⟩ | ⟨-, hold⟩ := update_eq_some ho
      · cases heq
        have hlast : get.waits - 1 = 0 := Nat.sub_eq_zero_of_le hsnd.waits
        exact ⟨Nat.le_trans (Nat.le_of_eq hlast) (Nat.zero_le 1), fun _ => hlast⟩
      · exact h.gets m other hold }

theorem endPut (hop : s.puts n = some op) (hw : 0 < op.waits) {timedOut : Bool}
    (hover : op.receiver.mayRead = false) (hends : timedOut = false ↔ op.receiver = .finished) :
    Inv credits slotSize (s.endPut n op timedOut) := by
  have hsnd := h.puts n op hop
  have hopen : op.completed = false := by
    cases hc : op.completed with
    | false => rfl
    | true => exact absurd hw (by simp [hsnd.idle hc])
  have hlast : op.waits - 1 = 0 := Nat.sub_eq_zero_of_le hsnd.waits
  have hnone : op.ends = [] := eq_nil_of_length_eq_zero (by rw [hsnd.once, hopen]; rfl)
  have hone : (op.ended timedOut).ends = [⟨timedOut, op.receiver, op.arrived⟩] := by
    simp [PutOperation.ended, hnone]
  exact {
    size := h.size
    capacity := (release_credits _ _).trans h.capacity
    pool := by
      intro hsz
      have hh : (s.endPut n op timedOut).held = update s.held (.inl n) none :=
        held_setPut _
      rw [hh]
      exact h.pool_release (by simp [held_put hop, hopen]) hsz
    puts := by
      intro m other ho
      obtain ⟨-, heq⟩ | ⟨-, hold⟩ := update_eq_some ho
      · cases heq
        exact {
          fits := hsnd.fits
          waits := Nat.le_trans (Nat.le_of_eq hlast) (Nat.zero_le 1)
          idle := fun _ => hlast
          once := by rw [hone]; rfl
          completes := by simpa [hone] using hends
          timely := by
            intro e he htimedOut
            rw [hone, mem_singleton] at he
            subst he
            dsimp only at htimedOut ⊢
            cases harrived : op.arrived with
            | false => rfl
            | true =>
              have hfalse := hends.mpr (hsnd.arrived harrived)
              exact absurd htimedOut (by simp [hfalse])
          ended := fun _ => hover
          arrived := hsnd.arrived }
      · exact h.puts m other hold
    gets := h.gets
    delivered := by
      intro m other ho
      obtain ⟨-, heq⟩ | ⟨-, hold⟩ := update_eq_some ho
      · cases heq
        nofun
      · exact h.delivered m other hold
    notifs := by
      intro note hmem
      obtain ⟨hmsg, other, ho, hn⟩ := h.notifs note hmem
      refine ⟨hmsg, ?_⟩
      by_cases hsrc : note.source = n
      · rw [hsrc, hop] at ho
        cases ho
        refine ⟨op.ended timedOut, ?_, hn⟩
        rw [hsrc]
        exact update_self _ _ _
      · exact ⟨other, by simpa [NixlRelay.endPut, NixlRelay.setPut, hsrc] using ho, hn⟩ }

theorem arrive (hop : s.puts n = some op) (hfin : op.receiver = .finished) :
    Inv credits slotSize (NixlRelay.setPut { s with newNotifs := s.newNotifs ++ [⟨n, notifMsg⟩] } n
      { op with arrived := true }) := by
  refine h.setPut_notify hop ?_ rfl rfl (fun _ => rfl) ?_ (subset_append_left _ _) ?_
  · exact { h.puts n op hop with arrived := fun _ => hfin }
  · exact fun _ _ => ⟨⟨n, notifMsg⟩, by simp, rfl⟩
  · intro note hmem
    rcases mem_append.mp hmem with hmem | hmem
    · exact .inl hmem
    · obtain rfl := mem_singleton.mp hmem
      exact .inr ⟨rfl, rfl, rfl⟩

/-- The notifications are taken, and no put that has not ended waits for one of them. -/
theorem drain (hover : ∀ note ∈ s.newNotifs, s.putCompleted note.source = true) :
    Inv credits slotSize { s with newNotifs := [] } :=
  { h with
    delivered := by
      intro m other ho harrived hopen
      obtain ⟨note, hmem, rfl⟩ := h.delivered m other ho harrived hopen
      have hc := hover note hmem
      rw [putCompleted, show s.puts note.source = some other from ho] at hc
      exact absurd hc (by simp [hopen])
    notifs := nofun }

theorem poll (hop : s.puts n = some op) (hw : 0 < op.waits) {late : Bool}
    (hown : s.endsOwn (.poll n late) = true) :
    Inv credits slotSize (s.pollPut n op late) := by
  simp only [endsOwn, hop, all_some] at hown
  by_cases hnil : s.newNotifs = []
  · -- There is nothing to take, so the put goes on or times out.
    have hsame : ({ s with newNotifs := [] } : NixlRelay) = s := by rw [← hnil]
    simp only [pollPut, hnil, hsame, any_nil, Bool.false_eq_true, if_false]
    cases late with
    | false => exact h
    | true =>
      simp only [hnil, isEmpty_nil, if_true, Bool.not_true, Bool.false_or,
        decide_eq_true_eq] at hown
      exact h.endPut hop hw (by rw [hown]; rfl) (by rw [hown]; exact ⟨nofun, nofun⟩)
  · -- Its own notification is among those taken.
    rw [if_neg (by simpa using hnil), Bool.and_eq_true, List.any_eq_true, List.all_eq_true] at hown
    obtain ⟨⟨note, hmem, hsrc⟩, hothers⟩ := hown
    have hsrc : note.source = n := of_decide_eq_true hsrc
    obtain ⟨hmsg, other, ho, harrived⟩ := h.notifs note hmem
    rw [hsrc, hop] at ho
    cases ho
    have hfin := (h.puts n op hop).arrived harrived
    have hfound : s.newNotifs.any (fun note => note.msg = expectedNotification) = true :=
      any_eq_true.mpr ⟨note, hmem, decide_eq_true hmsg⟩
    simp only [pollPut, hfound, if_true]
    have hend := h.endPut hop hw (by rw [hfin]; rfl) ⟨fun _ => hfin, fun _ => rfl⟩
    refine hend.drain fun other ho => ?_
    by_cases heq : other.source = n
    · rw [heq]
      simp [putCompleted, NixlRelay.endPut, NixlRelay.setPut, PutOperation.ended]
    · have hc := hothers other ho
      simpa [heq, putCompleted, NixlRelay.endPut, NixlRelay.setPut] using hc

theorem step (hst : nixlStep s act = some t) (hown : s.endsOwn act = true)
    : Inv credits slotSize t := by
  cases act with
  | put n size raises =>
    dsimp only [nixlStep] at hst
    split_ifs at hst with hused hlarge
    · cases hst
      exact h
    · obtain ⟨⟨offset, rest⟩, hacquire, rfl⟩ := map_eq_some_iff.mp hst
      exact h.putAsync (not_isSome_iff_eq_none.mp hused) (h.size ▸ Nat.le_of_not_lt hlarge) hacquire
  | get n size raises =>
    dsimp only [nixlStep] at hst
    split_ifs at hst
    · cases hst
      exact h
    · obtain ⟨⟨offset, rest⟩, hacquire, rfl⟩ := map_eq_some_iff.mp hst
      exact h.getAsync hacquire
  | read n =>
    obtain ⟨op, hop, hst⟩ := bind_eq_some_iff.mp hst
    obtain ⟨hreceiver, ⟨⟩⟩ := of_guard hst
    have hsnd := h.puts n op hop
    have hexpected : op.receiver ≠ .finished := by simp [hreceiver]
    refine h.setPut hop ?_ rfl rfl id (h.delivered n op hop)
    exact { hsnd with
      ended := fun hc => absurd (hsnd.ended hc) (by simp [hreceiver, Receiver.mayRead])
      arrived := fun harrived => absurd (hsnd.arrived harrived) hexpected }
  | finish n =>
    obtain ⟨op, hop, hst⟩ := bind_eq_some_iff.mp hst
    obtain ⟨hreceiver, ⟨⟩⟩ := of_guard hst
    have hsnd := h.puts n op hop
    refine h.setPut hop ?_ rfl rfl id (h.delivered n op hop)
    exact { hsnd with
      ended := fun _ => rfl
      arrived := fun _ => rfl }
  | lose n =>
    obtain ⟨op, hop, hst⟩ := bind_eq_some_iff.mp hst
    obtain ⟨hreceiver, ⟨⟩⟩ := of_guard hst
    have hsnd := h.puts n op hop
    refine h.setPut hop ?_ rfl rfl id (h.delivered n op hop)
    exact { hsnd with
      ended := fun _ => rfl
      arrived := fun harrived => by
        rw [hsnd.arrived harrived] at hreceiver
        cases hreceiver }
  | arrive n =>
    obtain ⟨op, hop, hst⟩ := bind_eq_some_iff.mp hst
    obtain ⟨⟨hreceiver, -⟩, ⟨⟩⟩ := of_guard hst
    exact h.arrive hop hreceiver
  | waitPut n =>
    obtain ⟨op, hop, rfl⟩ := map_eq_some_iff.mp hst
    have hsnd := h.puts n op hop
    simp only [endsOwn, hop, all_some, decide_eq_true_eq] at hown
    split_ifs with hc
    · exact h
    · refine h.setPut hop ?_ rfl rfl id (h.delivered n op hop)
      exact { hsnd with
        waits := by simp [hown]
        idle := fun hover => absurd hover hc }
  | poll n late =>
    obtain ⟨op, hop, hst⟩ := bind_eq_some_iff.mp hst
    obtain ⟨hw, ⟨⟩⟩ := of_guard hst
    exact h.poll hop hw hown
  | cancelPut n =>
    obtain ⟨op, hop, hst⟩ := bind_eq_some_iff.mp hst
    obtain ⟨hw, ⟨⟩⟩ := of_guard hst
    simp only [endsOwn, hop, all_some, decide_eq_true_eq] at hown
    exact h.endPut hop hw (by rw [hown]; rfl) ⟨fun _ => hown, fun _ => rfl⟩
  | waitGet n =>
    obtain ⟨get, hget, rfl⟩ := map_eq_some_iff.mp hst
    simp only [endsOwn, hget, all_some, decide_eq_true_eq] at hown
    split_ifs with hc
    · exact h
    · exact h.setGet hget ⟨by simp [hown], fun hover => absurd hover hc⟩ rfl rfl
  | doneGet n =>
    obtain ⟨get, hget, hst⟩ := bind_eq_some_iff.mp hst
    obtain ⟨hw, ⟨⟩⟩ := of_guard hst
    exact h.endGet hget hw

end

end Inv

end NixlRelay

open NixlRelay

/-- In every run in which puts end for their own receivers, they complete for themselves. -/
theorem nixl_puts_paired (credits slotSize : ℕ) (s : NixlRelay)
    (hs : ((nixlSystem credits slotSize).restrict fun s act => s.endsOwn act = true).Reachable s) :
    s.Paired := by
  refine (hs.invariant (P := NixlRelay.Inv credits slotSize) (fun s₀ h₀ => ?_) ?_).toPaired
  · obtain rfl : s₀ = .create credits slotSize := h₀
    exact NixlRelay.Inv.initial
  · rintro a act b ha ⟨hst, hown⟩
    exact ha.step (show nixlStep a act = some b from hst) hown

/-- A put whose receiver reads and notifies. -/
def putRun (n : ℕ) : List NixlEvent := [.put n 1 false, .waitPut n, .read n, .finish n, .arrive n]

def putEnds (s : NixlRelay) : Option (List WaitEnd) := (s.puts 0).map PutOperation.ends

theorem nixl_puts_paired_twice :
    ∃ s : NixlRelay, putEnds s = some [⟨false, .finished, true⟩] ∧ s.Paired := by
  have hrun : (System.exec (fun s act => if s.endsOwn act = true then nixlStep s act else none)
      (.create 2 1) (.put 1 1 false :: putRun 0 ++ [.poll 0 false])).map putEnds =
      some (some [⟨false, .finished, true⟩]) := by
    decide
  obtain ⟨s, hs, hval⟩ := map_eq_some_iff.mp hrun
  exact ⟨s, hval, nixl_puts_paired 2 1 s (.of_exec_guarded (.init rfl) hs)⟩

/-- Two puts. The receiver of the second has finished, and the first polls before it. -/
theorem poll_takes_notification_of_other_put :
    ¬∀ s : NixlRelay, (nixlSystem 2 1).Reachable s → s.Paired := by
  intro hall
  have hrun : (System.exec nixlStep (.create 2 1)
      ([.put 0 1 false, .waitPut 0, .read 0] ++ putRun 1 ++ [.poll 0 false])).map putEnds =
      some (some [⟨false, .reading, false⟩]) := by
    decide
  obtain ⟨s, hs, hval⟩ := map_eq_some_iff.mp hrun
  obtain ⟨op, hop, hends⟩ := map_eq_some_iff.mp hval
  have hreceiver := ((hall s (.of_exec (.init rfl) hs)).completes 0 op hop _
    (by rw [hends]; exact mem_singleton_self _)).mp rfl
  cases hreceiver

end OmniRealtime
