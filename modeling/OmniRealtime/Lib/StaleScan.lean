import OmniRealtime.Lib.System

/-!
# Admission by a stale scan

`n` parties share an array of counters, one counter a party. A party admits by reading
the counters one at a time, in index order, and incrementing its own when the values it
read add up to less than `limit`. Other parties move while a scan is under way, so its
sum is not the value of any one moment.

1. `Inv.step`: every scan explains the counters it has read: a counter has grown by at
   most one since, unless its owner admitted by a later scan.
2. `sum_count_le`: the counters never add up to more than `limit + n - 1`.
-/

namespace OmniRealtime

open List Option Function

namespace StaleScan

open Finset Function

/-- A scan: when it started, and the counters read so far, in index order. -/
structure Scan where
  start : Nat
  seen : List Nat

/-- The counters and the scans under way. `clock` and `admitted` (the scan by which a
    party last admitted) are history: no step depends on them. -/
structure State (n : Nat) where
  clock : Nat
  count : Fin n → Nat
  scan : Fin n → Option Scan
  admitted : Fin n → Option Scan

variable {n : Nat} {limit : Nat} {s : State n}

inductive Act (n : Nat)
  | start (p : Fin n)
  | look (p : Fin n)
  | acquire (p : Fin n)
  | reject (p : Fin n)
  | release (p : Fin n)

/-- `Step limit s a t`:

* `start`, `look`: a party begins a scan, and reads the next counter;
* `acquire`, `reject`: after its last read it increments its own counter, or gives up;
* `release`: a party that is not scanning decrements its own counter. -/
inductive Step (limit : Nat) : State n → Act n → State n → Prop
  | start {s : State n} {p : Fin n} : s.scan p = none →
      Step limit s (.start p)
        { s with
          clock := s.clock + 1
          scan := Function.update s.scan p (some ⟨s.clock, []⟩) }
  | look {s : State n} {p : Fin n} {c : Scan} (q : Fin n) : s.scan p = some c →
      c.seen.length = q →
      Step limit s (.look p)
        { s with scan := Function.update s.scan p (some ⟨c.start, c.seen ++ [s.count q]⟩) }
  | acquire {s : State n} {p : Fin n} {c : Scan} : s.scan p = some c → c.seen.length = n →
      c.seen.sum < limit →
      Step limit s (.acquire p)
        { s with
          count := Function.update s.count p (s.count p + 1)
          scan := Function.update s.scan p none
          admitted := Function.update s.admitted p (some c) }
  | reject {s : State n} {p : Fin n} {c : Scan} : s.scan p = some c →
      Step limit s (.reject p) { s with scan := Function.update s.scan p none }
  | release {s : State n} {p : Fin n} : s.scan p = none → 0 < s.count p →
      Step limit s (.release p) { s with count := Function.update s.count p (s.count p - 1) }

/-- All counters at zero, nobody scanning. -/
def State.initial : State n := ⟨0, fun _ => 0, fun _ => none, fun _ => none⟩

def system (n limit : Nat) : System (State n) (Act n) where
  init s := s = State.initial
  step := Step limit

/-! ## The invariant -/

/-- The scan is under way, or the last one its party admitted by. -/
def Known (s : State n) (c : Scan) : Prop := ∃ p, s.scan p = some c ∨ s.admitted p = some c

/-- The party `q` has not admitted by a scan that started after `start`. -/
def NotLater (s : State n) (q : Fin n) (start : Nat) : Prop :=
  ∀ a, s.admitted q = some a → a.start ≤ start

structure Inv (limit : Nat) (s : State n) : Prop where
  known_lt : ∀ c, Known s c → c.start < s.clock
  admitted_full : ∀ p a, s.admitted p = some a → a.seen.length = n ∧ a.seen.sum < limit
  admitted_before : ∀ p a c, s.admitted p = some a → s.scan p = some c → a.start ≤ c.start
  unadmitted : ∀ p, s.admitted p = none → s.count p = 0
  /-- A counter grew by at most one since it was read, ... -/
  grown : ∀ c, Known s c → ∀ q : Fin n, q < c.seen.length → NotLater s q c.start →
    s.count q ≤ c.seen.getD q 0 + 1
  /-- ... and not at all while its owner is still in a scan from before. -/
  fixed : ∀ c, Known s c → ∀ q : Fin n, q < c.seen.length → NotLater s q c.start →
    ∀ b, s.scan q = some b → b.start ≤ c.start → s.count q ≤ c.seen.getD q 0

theorem Inv.initial (limit : Nat) : Inv limit (State.initial : State n) := by
  have hnone : ∀ c, ¬ Known (State.initial : State n) c := by
    rintro c ⟨p, h | h⟩ <;> cases h
  refine ⟨fun c hc => absurd hc (hnone c), ?_, ?_, fun _ _ => rfl,
    fun c hc => absurd hc (hnone c), fun c hc => absurd hc (hnone c)⟩
  · intro p a h; cases h
  · intro p a c h; cases h

/-! ## Each step keeps the invariant -/

section Steps

variable {limit : Nat} {s : State n} {p : Fin n} {c : Scan}

theorem Inv.start (hI : Inv limit s) :
    Inv limit { s with
        clock := s.clock + 1
        scan := Function.update s.scan p (some ⟨s.clock, []⟩) } := by
  -- The new scan has read nothing and starts after every known one.
  have hk : ∀ d, Known { s with
        clock := s.clock + 1
        scan := update s.scan p (some ⟨s.clock, []⟩) } d →
      Known s d ∨ d = ⟨s.clock, []⟩ := by
    rintro d ⟨q, h | h⟩
    · rcases update_eq_some h with ⟨_, hd⟩ | ⟨_, hd⟩
      · exact .inr (some.inj hd).symm
      · exact .inl ⟨q, .inl hd⟩
    · exact .inl ⟨q, .inr h⟩
  refine ⟨?_, hI.admitted_full, ?_, hI.unadmitted, ?_, ?_⟩
  · intro d hd
    rcases hk d hd with hd | rfl
    · exact Nat.lt_succ_of_lt (hI.known_lt d hd)
    · exact Nat.lt_succ_self _
  · intro q a d ha hd
    rcases update_eq_some hd with ⟨_, hd⟩ | ⟨_, hd⟩
    · cases hd
      exact le_of_lt (hI.known_lt a ⟨q, .inr ha⟩)
    · exact hI.admitted_before q a d ha hd
  · intro d hd q hq hl
    rcases hk d hd with hd | rfl
    · exact hI.grown d hd q hq hl
    · cases hq
  · intro d hd q hq hl b hb hle
    rcases hk d hd with hd | rfl
    · rcases update_eq_some hb with ⟨_, hb⟩ | ⟨_, hb⟩
      · cases hb
        exact absurd (hI.known_lt d hd) (not_lt.mpr hle)
      · exact hI.fixed d hd q hq hl b hb hle
    · cases hq

theorem getD_append_singleton {seen : List Nat} {x : Nat} {i : Nat} :
    (seen ++ [x]).getD i 0 =
      if i < seen.length then seen.getD i 0 else if i = seen.length then x else 0 := by
  split_ifs with hlt heq
  · exact getD_append _ _ _ _ hlt
  · simp [heq, List.getD]
  · exact getD_eq_default _ _ (by simp; omega)

section

variable (hI : Inv limit s)
include hI

theorem Inv.look (hc : s.scan p = some c) (r : Fin n) (hr : c.seen.length = r) :
    Inv limit
      { s with scan := Function.update s.scan p (some ⟨c.start, c.seen ++ [s.count r]⟩) } := by
  have hk : ∀ d, Known
      { s with scan := update s.scan p (some ⟨c.start, c.seen ++ [s.count r]⟩) } d →
      Known s d ∨ d = ⟨c.start, c.seen ++ [s.count r]⟩ := by
    rintro d ⟨q, h | h⟩
    · rcases update_eq_some h with ⟨_, hd⟩ | ⟨_, hd⟩
      · exact .inr (some.inj hd).symm
      · exact .inl ⟨q, .inl hd⟩
    · exact .inl ⟨q, .inr h⟩
  -- A scan of the new state goes back to one of the old state with the same start.
  have hscan : ∀ q b, update s.scan p (some ⟨c.start, c.seen ++ [s.count r]⟩) q = some b →
      ∃ b', s.scan q = some b' ∧ b'.start = b.start := by
    intro q b hb
    rcases update_eq_some hb with ⟨rfl, heq⟩ | ⟨_, hb⟩
    · cases heq
      exact ⟨c, hc, rfl⟩
    · exact ⟨b, hb, rfl⟩
  have hc' : Known s c := ⟨p, .inl hc⟩
  refine ⟨?_, hI.admitted_full, ?_, hI.unadmitted, ?_, ?_⟩
  · intro d hd
    rcases hk d hd with hd | rfl
    · exact hI.known_lt d hd
    · exact hI.known_lt c hc'
  · intro q a d ha hd
    obtain ⟨d', hd', hsrt⟩ := hscan q d hd
    exact hsrt ▸ hI.admitted_before q a d' ha hd'
  · intro d hd q hq hl
    rcases hk d hd with hd | rfl
    · exact hI.grown d hd q hq hl
    · simp only [getD_append_singleton]
      simp only [length_append, length_singleton] at hq
      by_cases hlt : q.val < c.seen.length
      · rw [if_pos hlt]
        exact hI.grown c hc' q hlt hl
      · obtain rfl : q = r := Fin.ext (by omega)
        rw [if_neg hlt, if_pos hr.symm]
        exact Nat.le_succ _
  · intro d hd q hq hl b hb hle
    obtain ⟨b', hb', hsrt⟩ := hscan q b hb
    rcases hk d hd with hd | rfl
    · exact hI.fixed d hd q hq hl b' hb' (hsrt ▸ hle)
    · simp only [getD_append_singleton]
      simp only [length_append, length_singleton] at hq
      by_cases hlt : q.val < c.seen.length
      · rw [if_pos hlt]
        exact hI.fixed c hc' q hlt hl b' hb' (hsrt ▸ hle)
      · obtain rfl : q = r := Fin.ext (by omega)
        rw [if_neg hlt, if_pos hr.symm]

theorem Inv.acquire (hc : s.scan p = some c) (hfull : c.seen.length = n)
    (hsum : c.seen.sum < limit) :
    Inv limit { s with
        count := Function.update s.count p (s.count p + 1)
        scan := Function.update s.scan p none
        admitted := Function.update s.admitted p (some c) } := by
  have hk : ∀ d, Known { s with
        count := update s.count p (s.count p + 1)
        scan := update s.scan p none
        admitted := update s.admitted p (some c) } d → Known s d := by
    rintro d ⟨q, h | h⟩
    · rcases update_eq_some h with ⟨_, hd⟩ | ⟨_, hd⟩
      · cases hd
      · exact ⟨q, .inl hd⟩
    · rcases update_eq_some h with ⟨_, hd⟩ | ⟨_, hd⟩
      · exact ⟨p, .inl (hc.trans hd)⟩
      · exact ⟨q, .inr hd⟩
  -- `p` now admitted by the scan it was in, which is later than the one before.
  have hl : ∀ q start, NotLater { s with
        count := update s.count p (s.count p + 1)
        scan := update s.scan p none
        admitted := update s.admitted p (some c) } q start →
      NotLater s q start ∧ (q = p → c.start ≤ start) := by
    intro q start h
    by_cases hq : q = p
    · subst hq
      have hle : c.start ≤ start := h c (by simp)
      exact ⟨fun a ha => le_trans (hI.admitted_before q a c ha hc) hle, fun _ => hle⟩
    · exact ⟨fun a ha => h a (by simpa [hq] using ha), fun heq => absurd heq hq⟩
  refine ⟨fun d hd => hI.known_lt d (hk d hd), ?_, ?_, ?_, ?_, ?_⟩
  · intro q a ha
    rcases update_eq_some ha with ⟨_, ha⟩ | ⟨_, ha⟩
    · cases ha
      exact ⟨hfull, hsum⟩
    · exact hI.admitted_full q a ha
  · intro q a d ha hd
    rcases update_eq_some hd with ⟨_, hd⟩ | ⟨hq, hd⟩
    · cases hd
    · exact hI.admitted_before q a d (by simpa [hq] using ha) hd
  · intro q hq
    by_cases hqp : q = p
    · subst hqp
      simp at hq
    · simp only [update_of_ne hqp] at hq ⊢
      exact hI.unadmitted q hq
  · intro d hd q hq hnot
    obtain ⟨hnot', hle⟩ := hl q _ hnot
    by_cases hqp : q = p
    · subst hqp
      have := hI.fixed d (hk d hd) q hq hnot' c hc (hle rfl)
      simpa using this
    · simp only [update_of_ne hqp]
      exact hI.grown d (hk d hd) q hq hnot'
  · intro d hd q hq hnot b hb hle
    rcases update_eq_some hb with ⟨_, hb⟩ | ⟨hqp, hb⟩
    · cases hb
    · simp only [update_of_ne hqp]
      exact hI.fixed d (hk d hd) q hq (hl q _ hnot).1 b hb hle

theorem Inv.reject : Inv limit { s with scan := Function.update s.scan p none } := by
  have hscan : ∀ q b, update s.scan p none q = some b → s.scan q = some b := by
    intro q b hb
    rcases update_eq_some hb with ⟨_, hb⟩ | ⟨_, hb⟩
    · cases hb
    · exact hb
  have hk : ∀ d, Known { s with scan := update s.scan p none } d → Known s d := by
    rintro d ⟨q, h | h⟩
    · exact ⟨q, .inl (hscan q d h)⟩
    · exact ⟨q, .inr h⟩
  exact ⟨fun d hd => hI.known_lt d (hk d hd), hI.admitted_full,
    fun q a d ha hd => hI.admitted_before q a d ha (hscan q d hd), hI.unadmitted,
    fun d hd => hI.grown d (hk d hd),
    fun d hd q hq hnot b hb => hI.fixed d (hk d hd) q hq hnot b (hscan q b hb)⟩

theorem Inv.release : Inv limit { s with count := Function.update s.count p (s.count p - 1) } := by
  have hle : ∀ q, update s.count p (s.count p - 1) q ≤ s.count q := by
    intro q
    by_cases hq : q = p
    · subst hq
      simp
    · simp [hq]
  refine ⟨hI.known_lt, hI.admitted_full, hI.admitted_before, ?_, ?_, ?_⟩
  · intro q hq
    exact Nat.le_zero.mp (hI.unadmitted q hq ▸ hle q)
  · intro d hd q hq hnot
    exact le_trans (hle q) (hI.grown d hd q hq hnot)
  · intro d hd q hq hnot b hb hsrt
    exact le_trans (hle q) (hI.fixed d hd q hq hnot b hb hsrt)

theorem Inv.step {t : State n} {a : Act n} (h : Step limit s a t) : Inv limit t := by
  cases h with
  | start _ => exact hI.start
  | look q hc hq => exact hI.look hc q hq
  | acquire hc hfull hsum => exact hI.acquire hc hfull hsum
  | reject _ => exact hI.reject
  | release _ _ => exact hI.release

end

end Steps

theorem Inv.of_reachable (h : (system n limit).Reachable s) : Inv limit s := by
  refine h.invariant ?_ fun s a t hI hst => hI.step hst
  rintro s rfl
  exact Inv.initial limit

/-! ## The bound -/

theorem sum_getD_eq_sum {seen : List Nat} (h : seen.length = n) :
    ∑ q : Fin n, seen.getD q 0 = seen.sum := by
  subst h
  rw [← Fin.sum_univ_getElem]
  exact sum_congr rfl fun q _ => by simp [List.getD]

/-- The last scan that admitted explains every counter: each has grown by at most one
    since that scan read it. -/
theorem sum_count_le_of_inv (hI : Inv limit s) : ∑ q, s.count q ≤ limit + n - 1 := by
  classical
  rcases eq_empty_or_nonempty
    (univ.filter fun p => (s.admitted p).isSome = true) with hnone | hsome
  · have hzero : ∀ q, s.count q = 0 := by
      intro q
      refine hI.unadmitted q ?_
      by_contra hq
      have : q ∈ univ.filter fun p => (s.admitted p).isSome = true := by
        simpa using isSome_iff_ne_none.mpr hq
      rw [hnone] at this
      exact absurd this (notMem_empty q)
    simp [hzero]
  · obtain ⟨p, hp, hmax⟩ := exists_max_image _
      (fun p => ((s.admitted p).map Scan.start).getD 0) hsome
    obtain ⟨c, hc⟩ := isSome_iff_exists.mp (Finset.mem_filter.mp hp).2
    obtain ⟨hfull, hsum⟩ := hI.admitted_full p c hc
    have hnot : ∀ q, NotLater s q c.start := by
      intro q a ha
      have := hmax q (by simp [ha])
      simpa [ha, hc] using this
    have hgrown : ∀ q : Fin n, s.count q ≤ c.seen.getD q 0 + 1 := fun q =>
      hI.grown c ⟨p, .inr hc⟩ q (by rw [hfull]; exact q.isLt) (hnot q)
    calc ∑ q, s.count q
        ≤ ∑ q : Fin n, (c.seen.getD q 0 + 1) := Finset.sum_le_sum fun q _ => hgrown q
      _ = c.seen.sum + n := by rw [sum_add_distrib, sum_getD_eq_sum hfull]; simp
      _ ≤ limit + n - 1 := by omega

theorem sum_count_le (h : (system n limit).Reachable s) :
    ∑ q, s.count q ≤ limit + n - 1 := sum_count_le_of_inv (Inv.of_reachable h)

end StaleScan

end OmniRealtime
