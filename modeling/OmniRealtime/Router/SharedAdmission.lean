import OmniRealtime.Lib.StaleScan
import OmniRealtime.Router.AdmissionShm

/-!
# Shared admission

`SharedAdmission` of `admission_shm.py`: `n` data planes admit requests against one
bound, each through its own slot. A slot read and a slot write are atomic here (the
seqlock of `AdmissionShm` makes them so), so that no read fails as unstable, and no data
plane dies; everything else interleaves.

1. `AdmissionInv.step`: a data plane's slot, its own counter and the requests it holds
   agree.
2. `Simulates.step`: the data planes run the stale-scan protocol of `Lib/StaleScan`.
3. `admission_overshoot`: the slots never add up to more than `maxInflight + n - 1`, are
   never negative, and count the requests admitted and not released.
-/

namespace OmniRealtime

open Function

/-! ## Data planes -/

/-- Where a data plane stands in a call of `SharedAdmission`: the constructor before it
    claims the slot, `try_acquire` while it sums the slots, `release` or `touch` after the
    ownership check, or none. -/
inductive AdmissionPhase
  | unclaimed
  | idle
  | acquiring (seen : List Int)
  | releasing
  | touching
  deriving DecidableEq, Repr

/-- The state of one `SharedAdmission`, and how many requests it has admitted and
    released so far. -/
structure AdmissionProcess where
  generation : Int
  pid : Int
  inflight : Int := 0
  peakSum : Int := 0
  rejectedTotal : Int := 0
  phase : AdmissionPhase := .unclaimed
  admitted : Nat := 0
  released : Nat := 0
  deriving DecidableEq, Repr

open AdmissionProcess

namespace AdmissionProcess

/-- What `_write_own` puts into the slot. -/
def ownFields (p : AdmissionProcess) (now : Nat) : SlotFields Nat :=
  ⟨p.inflight, p.peakSum, p.rejectedTotal, p.generation, p.pid, now⟩

/-- `_still_owner`, on the fields read from the own slot. -/
def stillOwner (p : AdmissionProcess) (own : SlotFields Nat) : Bool :=
  own.generation == p.generation && own.pid == p.pid

/-- The rest of `try_acquire` once the slots are summed, before it writes its slot. -/
def decideAcquire (p : AdmissionProcess) (maxInflight : Nat) (total : Int) : AdmissionProcess :=
  if (maxInflight : Int) ≤ total then
    { p with rejectedTotal := p.rejectedTotal + 1, phase := .idle }
  else
    let observed := total + 1
    { p with
      inflight := p.inflight + 1
      peakSum := if p.peakSum < observed then observed else p.peakSum
      phase := .idle
      admitted := p.admitted + 1 }

/-- The rest of `release` when a request is in flight, before it writes its slot. -/
def releaseOne (p : AdmissionProcess) : AdmissionProcess :=
  { p with inflight := p.inflight - 1, phase := .idle, released := p.released + 1 }

end AdmissionProcess

/-- The slots in shared memory and the data planes. -/
structure AdmissionState (n : Nat) where
  slot : Fin n → SlotFields Nat
  proc : Fin n → AdmissionProcess

inductive AdmissionAct (n : Nat)
  | claim (p : Fin n) (now : Nat)
  | tryAcquire (p : Fin n)
  | look (p : Fin n)
  | decide (p : Fin n) (now : Nat)
  | release (p : Fin n)
  | finishRelease (p : Fin n) (now : Nat)
  | touch (p : Fin n)
  | finishTouch (p : Fin n) (now : Nat)

namespace AdmissionState

variable {n : Nat}

def setProc (s : AdmissionState n) (p : Fin n) (x : AdmissionProcess) : AdmissionState n :=
  { s with proc := Function.update s.proc p x }

/-- The data plane's new state, and its slot rewritten from it (`_write_own`). -/
def writeOwn (s : AdmissionState n) (p : Fin n) (x : AdmissionProcess) (now : Nat) :
    AdmissionState n where
  slot := Function.update s.slot p (x.ownFields now)
  proc := Function.update s.proc p x

/-- A call that starts with the ownership check: a fenced data plane returns at once. -/
def enter (s : AdmissionState n) (p : Fin n) (phase : AdmissionPhase) : Option (AdmissionState n) :=
  if (s.proc p).phase = .idle then
    if (s.proc p).stillOwner (s.slot p) then some (s.setProc p { s.proc p with phase })
    else some s
  else none

/-- One atomic slot access, with the local work up to the next one; `none` when the data
    plane is not there. -/
def step (maxInflight : Nat) (s : AdmissionState n) : AdmissionAct n → Option (AdmissionState n)
  | .claim p now =>
    if (s.proc p).phase = .unclaimed then
      some (s.writeOwn p { s.proc p with phase := .idle } now)
    else none
  | .tryAcquire p => s.enter p (.acquiring [])
  | .look p =>
    match (s.proc p).phase with
    | .acquiring seen =>
      if h : seen.length < n then
        some (s.setProc p
          { s.proc p with phase := .acquiring (seen ++ [(s.slot ⟨seen.length, h⟩).inflight]) })
      else none
    | _ => none
  | .decide p now =>
    match (s.proc p).phase with
    | .acquiring seen =>
      if seen.length = n then
        some (s.writeOwn p ((s.proc p).decideAcquire maxInflight seen.sum) now)
      else none
    | _ => none
  | .release p => s.enter p .releasing
  | .finishRelease p now =>
    if (s.proc p).phase = .releasing then
      -- A release that nothing holds is logged and ignored.
      if (s.proc p).inflight ≤ 0 then some (s.setProc p { s.proc p with phase := .idle })
      else some (s.writeOwn p (s.proc p).releaseOne now)
    else none
  | .touch p => s.enter p .touching
  | .finishTouch p now =>
    if (s.proc p).phase = .touching then
      some (s.writeOwn p { s.proc p with phase := .idle } now)
    else none

/-- The requests in flight, as the slots have them. -/
def totalInflight (s : AdmissionState n) : Int := ∑ p, (s.slot p).inflight

end AdmissionState

/-- The slot file as created, and data planes that have not claimed their slots. -/
def admissionSystem (n maxInflight : Nat) : System (AdmissionState n) (AdmissionAct n) :=
  System.ofFun
    (fun s => (∀ p, s.slot p = SlotFields.zero 0) ∧
      ∀ p, ∃ generation pid, s.proc p = { generation, pid })
    fun s a => s.step maxInflight a

/-! ## Slots and counters -/

/-- The slot of a data plane, its own counter, and its requests agree. -/
structure ProcessInv (slot : SlotFields Nat) (x : AdmissionProcess) : Prop where
  slot_eq : slot.inflight = x.inflight
  held : x.inflight = x.admitted - x.released
  nonneg : 0 ≤ x.inflight

def AdmissionInv {n : Nat} (s : AdmissionState n) : Prop :=
  ∀ p, ProcessInv (s.slot p) (s.proc p)

section Invariant

variable {n maxInflight : Nat} {s t : AdmissionState n} {p : Fin n}

variable {x : AdmissionProcess} {slot : SlotFields Nat}

theorem ProcessInv.setPhase (h : ProcessInv slot x) (phase : AdmissionPhase) : ProcessInv slot
    { x with phase } := ⟨h.slot_eq, h.held, h.nonneg⟩

theorem ProcessInv.decideAcquire (h : ProcessInv slot x) (maxInflight : Nat) (total : Int)
    (now : Nat) : ProcessInv ((x.decideAcquire maxInflight total).ownFields now)
      (x.decideAcquire maxInflight total) := by
  have hheld := h.held
  have hnonneg := h.nonneg
  unfold AdmissionProcess.decideAcquire
  split_ifs
  · exact ⟨rfl, hheld, hnonneg⟩
  · refine ⟨rfl, ?_, ?_⟩
    · simp only [Nat.cast_add, Nat.cast_one]
      omega
    · simp only
      omega

theorem ProcessInv.releaseOne (h : ProcessInv slot x) (hpos : ¬ x.inflight ≤ 0) (now : Nat) :
    ProcessInv (x.releaseOne.ownFields now) x.releaseOne := by
  have hheld := h.held
  refine ⟨rfl, ?_, ?_⟩
  · simp only [AdmissionProcess.releaseOne, Nat.cast_add, Nat.cast_one]
    omega
  · simp only [AdmissionProcess.releaseOne]
    omega

section

variable (h : AdmissionInv s)
include h

theorem AdmissionInv.setProc (hx : ProcessInv (s.slot p) x) : AdmissionInv (s.setProc p x) := by
  intro q
  by_cases hq : q = p
  · subst hq
    simpa [AdmissionState.setProc] using hx
  · simpa [AdmissionState.setProc, hq] using h q

theorem AdmissionInv.writeOwn {now : Nat} (hx : ProcessInv (x.ownFields now) x)
    : AdmissionInv (s.writeOwn p x now) := by
  intro q
  by_cases hq : q = p
  · subst hq
    simpa [AdmissionState.writeOwn] using hx
  · simpa [AdmissionState.writeOwn, hq] using h q

theorem AdmissionInv.enter {phase : AdmissionPhase} (hst : s.enter p phase = some t)
    : AdmissionInv t := by
  unfold AdmissionState.enter at hst
  split_ifs at hst
  · cases hst
    exact h.setProc ((h p).setPhase phase)
  · cases hst
    exact h

theorem AdmissionInv.step {a : AdmissionAct n} (hst : s.step maxInflight a = some t)
    : AdmissionInv t := by
  cases a with
  | claim p now | finishTouch p now =>
    simp only [AdmissionState.step] at hst
    split_ifs at hst
    cases hst
    exact h.writeOwn ⟨rfl, (h p).held, (h p).nonneg⟩
  | tryAcquire p | release p | touch p => exact h.enter hst
  | look p =>
    simp only [AdmissionState.step] at hst
    split at hst
    · split_ifs at hst
      cases hst
      exact h.setProc ((h p).setPhase _)
    · cases hst
  | decide p now =>
    simp only [AdmissionState.step] at hst
    split at hst
    · split_ifs at hst
      cases hst
      exact h.writeOwn ((h p).decideAcquire _ _ now)
    · cases hst
  | finishRelease p now =>
    simp only [AdmissionState.step] at hst
    split_ifs at hst with _ hpos
    · cases hst
      exact h.setProc ((h p).setPhase _)
    · cases hst
      exact h.writeOwn ((h p).releaseOne hpos now)

end

theorem AdmissionInv.of_reachable (h : (admissionSystem n maxInflight).Reachable s) :
    AdmissionInv s := by
  refine h.invariant (P := AdmissionInv) ?_ fun s a t hs hst => hs.step hst
  rintro s ⟨hsl, hproc⟩ p
  obtain ⟨generation, pid, hp⟩ := hproc p
  rw [hsl p, hp]
  exact ⟨rfl, by simp, Int.le_refl 0⟩

end Invariant

/-! ## Data planes run the stale-scan protocol -/

def ScanMatches : AdmissionPhase → Option StaleScan.Scan → Prop
  | .acquiring seen, scan => ∃ c, scan = some c ∧ seen = c.seen.map (Nat.cast : Nat → Int)
  | _, scan => scan = none

/-- The slots hold the counters of the protocol, and its scans are the calls of
    `try_acquire` under way. -/
structure Simulates {n : Nat} (s : AdmissionState n) (a : StaleScan.State n) : Prop where
  inv : AdmissionInv s
  count : ∀ p, (s.slot p).inflight = a.count p
  scan : ∀ p, ScanMatches (s.proc p).phase (a.scan p)

section Simulation

variable {n maxInflight : Nat} {s t : AdmissionState n} {a : StaleScan.State n} {p : Fin n}

/-- At most one step of the protocol leads from `a` to a state that `t` simulates. -/
def Matched (maxInflight : Nat) (a : StaleScan.State n) (t : AdmissionState n) : Prop :=
  ∃ b, (b = a ∨ ∃ k, (StaleScan.system n maxInflight).step a k b) ∧ Simulates t b

section

variable (h : Simulates s a) {x : AdmissionProcess} {scan : Option StaleScan.Scan}
include h

theorem scan_eq_none (hph : ∀ seen, (s.proc p).phase ≠ .acquiring seen) : a.scan p = none := by
  have hscan := h.scan p
  cases hp : (s.proc p).phase with
  | acquiring seen => exact absurd hp (hph seen)
  | unclaimed | idle | releasing | touching => rw [hp] at hscan; exact hscan

theorem scan_eq_some {seen : List Int} (hph : (s.proc p).phase = .acquiring seen) :
    ∃ c, a.scan p = some c ∧ seen = c.seen.map (Nat.cast : Nat → Int) := by
  have hscan := h.scan p
  rw [hph] at hscan
  exact hscan

/-- A step of one data plane that moves no slot and no other data plane. -/
theorem simulates_setProc (hinv : AdmissionInv (s.setProc p x)) (hscan : ScanMatches x.phase scan)
    (clock : Nat) (admitted : Fin n → Option StaleScan.Scan) :
    Simulates (s.setProc p x) ⟨clock, a.count, update a.scan p scan, admitted⟩ := by
  refine ⟨hinv, h.count, fun q => ?_⟩
  by_cases hq : q = p
  · subst hq
    simpa [AdmissionState.setProc] using hscan
  · simpa [AdmissionState.setProc, hq] using h.scan q

theorem simulates_writeOwn {now : Nat} {count : Nat} (hinv : AdmissionInv (s.writeOwn p x now))
    (hcnt : x.inflight = count) (hscan : ScanMatches x.phase scan) (clock : Nat)
    (admitted : Fin n → Option StaleScan.Scan) : Simulates (s.writeOwn p x now)
      ⟨clock, update a.count p count, update a.scan p scan, admitted⟩ := by
  refine ⟨hinv, fun q => ?_, fun q => ?_⟩
  · by_cases hq : q = p
    · subst hq
      simpa [AdmissionState.writeOwn, ownFields] using hcnt
    · simpa [AdmissionState.writeOwn, hq] using h.count q
  · by_cases hq : q = p
    · subst hq
      simpa [AdmissionState.writeOwn] using hscan
    · simpa [AdmissionState.writeOwn, hq] using h.scan q

theorem own_inflight (p : Fin n) : (s.proc p).inflight = a.count p :=
  (h.inv p).slot_eq.symm.trans (h.count p)

/-- Outside a scan, rewriting the slot with the same counter is a stutter. -/
theorem matched_writeOwn {now : Nat} (hinv : AdmissionInv (s.writeOwn p x now))
    (hn : a.scan p = none) (hcnt : x.inflight = (s.proc p).inflight)
    (hscan : ScanMatches x.phase none) : Matched maxInflight a (s.writeOwn p x now) := by
  have hsim := simulates_writeOwn h hinv (hcnt.trans (own_inflight h p)) hscan a.clock a.admitted
  rw [← hn, update_eq_self, update_eq_self] at hsim
  exact ⟨a, .inl rfl, hsim⟩

theorem matched_setProc (hinv : AdmissionInv (s.setProc p x)) (hn : a.scan p = none)
    (hscan : ScanMatches x.phase none) : Matched maxInflight a (s.setProc p x) := by
  have hsim := simulates_setProc h hinv hscan a.clock a.admitted
  rw [← hn, update_eq_self] at hsim
  exact ⟨a, .inl rfl, hsim⟩

/-- A call other than `try_acquire` stutters. -/
theorem matched_enter (phase : AdmissionPhase) (hph : ScanMatches phase none)
    (hst : s.enter p phase = some t) :
    Matched maxInflight a t := by
  have hinv := h.inv.enter hst
  unfold AdmissionState.enter at hst
  split_ifs at hst with hidle howner
  · cases hst
    have hn := scan_eq_none h (p := p) (by rw [hidle]; exact nofun)
    exact matched_setProc h hinv hn hph
  · cases hst
    exact ⟨a, .inl rfl, h⟩

/-- `try_acquire` starts a scan, unless the data plane is fenced. -/
theorem matched_tryAcquire (hst : s.enter p (.acquiring []) = some t) :
    Matched maxInflight a t := by
  have hinv := h.inv.enter hst
  unfold AdmissionState.enter at hst
  split_ifs at hst with hidle howner
  · cases hst
    have hn := scan_eq_none h (p := p) (by rw [hidle]; exact nofun)
    exact ⟨_, .inr ⟨.start p, .start hn⟩,
      simulates_setProc h hinv ⟨⟨a.clock, []⟩, rfl, rfl⟩ (a.clock + 1) a.admitted⟩
  · cases hst
    exact ⟨a, .inl rfl, h⟩

theorem matched_look {seen : List Int} (hph : (s.proc p).phase = .acquiring seen)
    (hlt : seen.length < n) :
    Matched maxInflight a (s.setProc p { s.proc p with
        phase := .acquiring (seen ++ [(s.slot ⟨seen.length, hlt⟩).inflight]) }) := by
  obtain ⟨c, hc, hseen⟩ := scan_eq_some h hph
  have hlen : c.seen.length = seen.length := by rw [hseen, List.length_map]
  have hsl := h.count ⟨seen.length, hlt⟩
  have hscan : ScanMatches (.acquiring (seen ++ [(s.slot ⟨seen.length, hlt⟩).inflight]))
      (some ⟨c.start, c.seen ++ [a.count ⟨seen.length, hlt⟩]⟩) := by
    refine ⟨_, rfl, ?_⟩
    rw [List.map_append, ← hseen, hsl]
    rfl
  exact ⟨_, .inr ⟨.look p, .look ⟨seen.length, hlt⟩ hc hlen⟩,
    simulates_setProc h (h.inv.setProc ((h.inv p).setPhase _)) hscan a.clock a.admitted⟩

/-- The decision of `try_acquire` is the protocol's, on the sum it saw. -/
theorem matched_decide {seen : List Int} (now : Nat) (hph : (s.proc p).phase = .acquiring seen)
    (hlen : seen.length = n) :
    Matched maxInflight a (s.writeOwn p ((s.proc p).decideAcquire maxInflight seen.sum) now) := by
  obtain ⟨c, hc, hseen⟩ := scan_eq_some h hph
  have hfull : c.seen.length = n := by rw [← hlen, hseen, List.length_map]
  have hsum : seen.sum = (c.seen.sum : Int) := by rw [hseen, Nat.cast_list_sum]
  have hinv : AdmissionInv (s.writeOwn p ((s.proc p).decideAcquire maxInflight seen.sum) now) :=
    h.inv.writeOwn ((h.inv p).decideAcquire _ _ now)
  have hown := own_inflight h p
  unfold decideAcquire at hinv ⊢
  split_ifs at hinv ⊢ with hreject
  · have hsim := simulates_writeOwn h hinv hown rfl a.clock a.admitted
    rw [update_eq_self] at hsim
    exact ⟨_, .inr ⟨.reject p, .reject hc⟩, hsim⟩
  · have hbelow : c.seen.sum < maxInflight := by omega
    refine ⟨_, .inr ⟨.acquire p, .acquire hc hfull hbelow⟩,
      simulates_writeOwn h hinv ?_ rfl a.clock (update a.admitted p (some c))⟩
    simp only [Nat.cast_add, Nat.cast_one]
    omega

theorem matched_finishRelease (now : Nat) (hph : (s.proc p).phase = .releasing)
    (hpos : ¬ (s.proc p).inflight ≤ 0) :
    Matched maxInflight a (s.writeOwn p (s.proc p).releaseOne now) := by
  have hown := own_inflight h p
  have hn := scan_eq_none h (p := p) (by rw [hph]; exact nofun)
  have hinv : AdmissionInv (s.writeOwn p (s.proc p).releaseOne now) :=
    h.inv.writeOwn ((h.inv p).releaseOne hpos now)
  have hcnt : (s.proc p).releaseOne.inflight = ((a.count p - 1 : Nat) : Int) := by
    simp only [releaseOne]
    omega
  have hsim := simulates_writeOwn h hinv hcnt (rfl : ScanMatches .idle none) a.clock a.admitted
  rw [← hn, update_eq_self] at hsim
  exact ⟨_, .inr ⟨.release p, .release hn (by omega)⟩, hsim⟩

theorem matched_step {act : AdmissionAct n} (hst : s.step maxInflight act = some t)
    : Matched maxInflight a t := by
  have hinv := h.inv.step hst
  cases act with
  | claim p now | finishTouch p now =>
    simp only [AdmissionState.step] at hst
    split_ifs at hst with hph
    cases hst
    have hn := scan_eq_none h (p := p) (by rw [hph]; exact nofun)
    exact matched_writeOwn h hinv hn rfl rfl
  | tryAcquire p => exact matched_tryAcquire h hst
  | look p =>
    simp only [AdmissionState.step] at hst
    split at hst
    next seen hph =>
      split_ifs at hst with hlt
      cases hst
      exact matched_look h hph hlt
    next => cases hst
  | decide p now =>
    simp only [AdmissionState.step] at hst
    split at hst
    next seen hph =>
      split_ifs at hst with hlen
      cases hst
      exact matched_decide h now hph hlen
    next => cases hst
  | release p => exact matched_enter h .releasing rfl hst
  | finishRelease p now =>
    simp only [AdmissionState.step] at hst
    split_ifs at hst with hph hpos
    · cases hst
      have hn := scan_eq_none h (p := p) (by rw [hph]; exact nofun)
      exact matched_setProc h hinv hn rfl
    · cases hst
      exact matched_finishRelease h now hph hpos
  | touch p => exact matched_enter h .touching rfl hst

end

/-- Every reachable state of the data planes simulates a reachable state of the
    protocol. -/
theorem simulates_of_reachable (h : (admissionSystem n maxInflight).Reachable s) :
    ∃ a, (StaleScan.system n maxInflight).Reachable a ∧ Simulates s a := by
  refine h.simulated Simulates ?_ fun s l t a hR hst => matched_step hR hst
  intro s hs
  have hinv := AdmissionInv.of_reachable (.init hs : (admissionSystem n maxInflight).Reachable s)
  refine ⟨StaleScan.State.initial, rfl, hinv, fun p => ?_, fun p => ?_⟩
  · rw [hs.1 p]
    rfl
  · obtain ⟨generation, pid, hp⟩ := hs.2 p
    rw [hp]
    rfl

end Simulation

/-! ## The overshoot bound -/

/-- **Shared admission overshoots by at most `n - 1`.** In every reachable state of `n`
    data planes the slots add up to at most `maxInflight + n - 1`, no slot is negative,
    and the slots add up to the requests admitted and not released. -/
theorem admission_overshoot {n maxInflight : Nat} {s : AdmissionState n}
    (h : (admissionSystem n maxInflight).Reachable s) :
    s.totalInflight ≤ ((maxInflight + n - 1 : Nat) : Int) ∧
    (∀ p, 0 ≤ (s.slot p).inflight) ∧
    s.totalInflight = ∑ p, (((s.proc p).admitted : Int) - (s.proc p).released) := by
  obtain ⟨a, ha, hsim⟩ := simulates_of_reachable h
  refine ⟨?_, fun p => ?_, ?_⟩
  · have hbound := StaleScan.sum_count_le ha
    have hsum : s.totalInflight = ((∑ p, a.count p : Nat) : Int) := by
      rw [Nat.cast_sum]
      exact Finset.sum_congr rfl fun p _ => hsim.count p
    rw [hsum]
    exact Int.ofNat_le.mpr hbound
  · rw [hsim.count p]
    exact Int.natCast_nonneg _
  · exact Finset.sum_congr rfl fun p _ => (hsim.inv p).slot_eq.trans (hsim.inv p).held

/-- Two data planes with a bound of one. -/
def exAdmission : AdmissionState 2 where
  slot _ := SlotFields.zero 0
  proc p := { generation := 1, pid := 100 + p.val }

/-- Both claim their slots and sum them, and only then write what they decided. -/
def exRace : List (AdmissionAct 2) :=
  [.claim 0 0, .claim 1 0, .tryAcquire 0, .tryAcquire 1, .look 0, .look 1, .look 0, .look 1,
    .decide 0 1, .decide 1 1]

def exOvershot : AdmissionState 2 :=
  (System.exec (fun s a => s.step 1 a) exAdmission exRace).getD exAdmission

theorem exOvershot_reachable : (admissionSystem 2 1).Reachable exOvershot := by
  have hinit : (admissionSystem 2 1).Reachable exAdmission :=
    .init ⟨fun _ => rfl, fun p => ⟨1, 100 + p.val, rfl⟩⟩
  have hrun : System.exec (fun s a => s.step 1 a) exAdmission exRace = some exOvershot := rfl
  exact hinit.of_exec hrun

/-- The bound is reached: two requests in flight with a bound of one. -/
theorem admission_overshoot_race : exOvershot.totalInflight = 2 ∧
    exOvershot.totalInflight ≤ ((1 + 2 - 1 : Nat) : Int) :=
  ⟨by decide, (admission_overshoot exOvershot_reachable).1⟩

end OmniRealtime
