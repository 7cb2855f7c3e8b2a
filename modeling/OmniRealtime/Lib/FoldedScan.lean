import OmniRealtime.Lib.System

/-!
# Totals read by a scan while parts of them are folded

`n` parties count events, each in a slot of its own. A party that is gone has its slot
folded into one more slot, the retired one, and starts again from zero. A reader adds up
the slots one at a time, in index order, and the retired one last. It keeps the sum when
no fold began in between, which it tells from a version that is odd during a fold.

Counts live in an ordered monoid, so that a maximum is counted like a sum. A slot may
also be lost: emptied without being folded.

1. `Inv.step`: what a scan will return, were it to read the rest now, is no more than
   has happened, no more than the total where nothing was lost, and no less than what an
   earlier result said.
2. `value_le_occurred`, `value_le_value`: the same of the results.
-/

namespace OmniRealtime

open List Function

namespace FoldedScan

/-- A scan under way: the version it began at, the slots read so far, how many results
    there were when it was asked for, and how many losses. -/
structure Scan (M : Type) where
  version : Nat
  values : List M
  after : Nat
  epoch : Nat

/-- A result, with what had happened and how many losses there were by then. -/
structure Result (M : Type) where
  value : M
  after : Nat
  epoch : Nat
  epochEnd : Nat
  occurred : M

/-- `pending` has happened and is not in the slot yet; `moved` has left its slot and is
    not in the retired one yet. -/
structure State (n : Nat) (M ρ : Type) where
  slot : Fin n → M
  pending : Fin n → M
  retired : M
  moved : M
  version : Nat
  occurred : M
  losses : Nat
  scan : ρ → Option (Scan M)
  results : List (Result M)

inductive Act (n : Nat) (M ρ : Type)
  | happen (i : Fin n) (d : M)
  | publish (i : Fin n)
  | drop (i : Fin n)
  | beginFold
  | move (i : Fin n)
  | endFold
  | lose (i : Fin n)
  | start (r : ρ) (after epoch : Nat)
  | look (r : ρ)
  | finish (r : ρ)
  | abandon (r : ρ)

section

variable {n : Nat} {M ρ : Type} [AddCommMonoid M] [DecidableEq ρ]

/-- `Step s a t`:

* `happen`, `publish`, `drop`: an event of a party, its slot brought up to date, or the
  party gone before it could do so;
* `beginFold`, `move`, `endFold`: a fold;
* `lose`: a slot emptied outside a fold;
* `start`, `look`, `finish`, `abandon`: a scan. -/
inductive Step : State n M ρ → Act n M ρ → State n M ρ → Prop
  | happen {s : State n M ρ} (i : Fin n) (d : M) :
      Step s (.happen i d)
        { s with
          pending := Function.update s.pending i (s.pending i + d)
          occurred := s.occurred + d }
  | publish {s : State n M ρ} (i : Fin n) :
      Step s (.publish i)
        { s with
          slot := Function.update s.slot i (s.slot i + s.pending i)
          pending := Function.update s.pending i 0 }
  | drop {s : State n M ρ} (i : Fin n) :
      Step s (.drop i) { s with pending := Function.update s.pending i 0 }
  | beginFold {s : State n M ρ} : Even s.version →
      Step s .beginFold { s with version := s.version + 1 }
  | move {s : State n M ρ} (i : Fin n) : ¬ Even s.version →
      Step s (.move i)
        { s with slot := Function.update s.slot i 0, moved := s.moved + s.slot i }
  | endFold {s : State n M ρ} : ¬ Even s.version →
      Step s .endFold
        { s with retired := s.retired + s.moved, moved := 0, version := s.version + 1 }
  | lose {s : State n M ρ} (i : Fin n) : Even s.version →
      Step s (.lose i)
        { s with slot := Function.update s.slot i 0, losses := s.losses + 1 }
  | start {s : State n M ρ} (r : ρ) {after epoch : Nat} : Even s.version →
      after ≤ s.results.length → epoch ≤ s.losses →
      Step s (.start r after epoch)
        { s with scan := Function.update s.scan r (some ⟨s.version, [], after, epoch⟩) }
  | look {s : State n M ρ} {r : ρ} {c : Scan M} (i : Fin n) : s.scan r = some c →
      c.values.length = i →
      Step s (.look r)
        { s with
          scan := Function.update s.scan r (some { c with values := c.values ++ [s.slot i] }) }
  | finish {s : State n M ρ} {r : ρ} {c : Scan M} : s.scan r = some c →
      c.values.length = n → c.version = s.version →
      Step s (.finish r)
        { s with
          scan := Function.update s.scan r none
          results := s.results ++
            [⟨c.values.sum + s.retired, c.after, c.epoch, s.losses, s.occurred⟩] }
  | abandon {s : State n M ρ} (r : ρ) :
      Step s (.abandon r) { s with scan := Function.update s.scan r none }

/-- Nothing has happened. -/
def State.initial : State n M ρ where
  slot _ := 0
  pending _ := 0
  retired := 0
  moved := 0
  version := 0
  occurred := 0
  losses := 0
  scan _ := none
  results := []

def system (n : Nat) (M ρ : Type) [AddCommMonoid M] [DecidableEq ρ] :
    System (State n M ρ) (Act n M ρ) where
  init s := s = State.initial
  step := Step

/-! ## The slots from an index on -/

/-- The sum of the slots a scan has yet to read after `k` of them. -/
def rest (k : Nat) (f : Fin n → M) : M := ∑ i with k ≤ i.val, f i

theorem rest_length (f : Fin n → M) : rest n f = 0 := by
  have hnone : (Finset.univ.filter fun i : Fin n => n ≤ i.val) = ∅ :=
    Finset.filter_eq_empty_iff.mpr fun i _ => Nat.not_le.mpr i.isLt
  rw [rest, hnone, Finset.sum_empty]

theorem rest_succ (i : Fin n) (f : Fin n → M) : rest i.val f = f i + rest (i.val + 1) f := by
  have hspl : (Finset.univ.filter fun j : Fin n => i.val ≤ j.val)
      = insert i (Finset.univ.filter fun j : Fin n => i.val + 1 ≤ j.val) := by
    ext j
    simp only [Finset.mem_filter, Finset.mem_univ, true_and, Finset.mem_insert, Fin.ext_iff]
    omega
  rw [rest, hspl, Finset.sum_insert (by simp), rest]

/-- A slot that is still to be read is one summand among the rest. -/
theorem rest_split {k : Nat} {i : Fin n} (h : k ≤ i.val) (f : Fin n → M) :
    ∃ r, rest k f = f i + r ∧ ∀ x, rest k (update f i x) = x + r := by
  have hmem : i ∈ Finset.univ.filter fun j : Fin n => k ≤ j.val := by simpa using h
  refine ⟨∑ j ∈ (Finset.univ.filter fun j : Fin n => k ≤ j.val) \ {i}, f j,
    Finset.sum_eq_add_sum_sdiff_singleton_of_mem hmem f, fun x => ?_⟩
  exact Finset.sum_update_of_mem hmem f x

theorem rest_update_of_lt {k : Nat} {i : Fin n} (h : i.val < k) (f : Fin n → M) (x : M) :
    rest k (update f i x) = rest k f := by
  refine Finset.sum_congr rfl fun j hj => ?_
  have hk : k ≤ j.val := (Finset.mem_filter.mp hj).2
  refine update_of_ne (fun hji : j = i => ?_) x f
  exact Nat.not_lt.mpr hk (hji ▸ h)

theorem rest_add (k : Nat) (i : Fin n) (f : Fin n → M) (x : M) :
    rest k (update f i (f i + x)) = rest k f ∨
      rest k (update f i (f i + x)) = rest k f + x := by
  rcases Nat.lt_or_ge i.val k with hread | hunread
  · exact .inl (rest_update_of_lt hread f _)
  · obtain ⟨r, hr, hupd⟩ := rest_split hunread f
    exact .inr (by rw [hupd, hr, add_right_comm])

end

/-! ## The invariant -/

section Invariant

variable {n : Nat} {M ρ : Type} [AddCommMonoid M] [PartialOrder M]

/-- Everything the slots show, the part in transit included. -/
def State.total (s : State n M ρ) : M := rest 0 s.slot + s.retired + s.moved

/-- What the scan would return if it read the rest of the slots now. -/
def State.outcome (s : State n M ρ) (c : Scan M) : M :=
  c.values.sum + rest c.values.length s.slot + s.retired

/-- The results so far that count as before the scan, and from its epoch on. -/
structure ScanOk (s : State n M ρ) (c : Scan M) : Prop where
  sound : s.outcome c + rest 0 s.pending ≤ s.occurred
  le_total : c.epoch = s.losses → s.outcome c ≤ s.total
  later : ∀ j x, j < c.after → s.results[j]? = some x → x.epoch = s.losses →
    x.value ≤ s.outcome c

structure Inv (s : State n M ρ) : Prop where
  sound : s.total + rest 0 s.pending ≤ s.occurred
  settled : Even s.version → s.moved = 0
  begun : ∀ r c, s.scan r = some c →
    Even c.version ∧ c.version ≤ s.version ∧ c.after ≤ s.results.length ∧ c.epoch ≤ s.losses
  scans : ∀ r c, s.scan r = some c → c.version = s.version → ScanOk s c
  result_sound : ∀ x ∈ s.results,
    x.value ≤ x.occurred ∧ x.after ≤ s.results.length ∧ x.epoch ≤ s.losses
  result_le : ∀ x ∈ s.results, x.epoch = s.losses → x.value ≤ s.total
  result_later : ∀ j x y, s.results[j]? = some x → y ∈ s.results → j < y.after →
    x.epoch = y.epochEnd → x.value ≤ y.value

theorem Inv.initial : Inv (State.initial : State n M ρ) := by
  refine ⟨?_, fun _ => rfl, nofun, nofun, nofun, nofun, nofun⟩
  simp [State.total, State.initial, rest]

variable {s t : State n M ρ} {c : Scan M} {i : Fin n}

/-- A step of a party changes slots, what is pending and what has occurred. It keeps the
    invariant where no total shrinks and none outgrows what has occurred. -/
theorem Inv.ofParty {slot pending : Fin n → M} {occurred : M} (hI : Inv s)
    (ht : t = { s with slot, pending, occurred })
    (hsnd : t.total + rest 0 t.pending ≤ t.occurred) (htot : s.total ≤ t.total)
    (hscan : ∀ c, s.outcome c + rest 0 s.pending ≤ s.occurred →
      t.outcome c + rest 0 t.pending ≤ t.occurred)
    (hgrow : ∀ c, s.outcome c ≤ t.outcome c)
    (hle : ∀ c, s.moved = 0 → s.outcome c ≤ s.total → t.outcome c ≤ t.total) : Inv t := by
  subst ht
  refine ⟨hsnd, hI.settled, hI.begun, fun r c hc hv => ?_, hI.result_sound,
    fun x hx he => (hI.result_le x hx he).trans htot, hI.result_later⟩
  have hok := hI.scans r c hc hv
  have hmoved : s.moved = 0 := hI.settled (hv ▸ (hI.begun r c hc).1)
  exact ⟨hscan c hok.sound, fun he => hle c hmoved (hok.le_total he),
    fun j x hj hx he => (hok.later j x hj hx he).trans (hgrow c)⟩

theorem Inv.beginFold (hI : Inv s) (heven : Even s.version) :
    Inv { s with version := s.version + 1 } := by
  refine ⟨hI.sound, fun h => ?_, fun r c hc => ?_, fun r c hc hv => ?_, hI.result_sound,
    hI.result_le, hI.result_later⟩
  · exact absurd heven (Nat.even_add_one.mp h)
  · obtain ⟨h, hle, hrest⟩ := hI.begun r c hc
    exact ⟨h, Nat.le_succ_of_le hle, hrest⟩
  · have hle := (hI.begun r c hc).2.1
    exact absurd (Nat.lt_succ_of_le hle) (hv ▸ Nat.lt_irrefl _)

theorem Inv.move (hI : Inv s) (i : Fin n) (hodd : ¬ Even s.version) :
    Inv { s with slot := update s.slot i 0, moved := s.moved + s.slot i } := by
  obtain ⟨a, ha, hsl⟩ := rest_split (Nat.zero_le i.val) s.slot
  have htot : ({ s with slot := update s.slot i 0, moved := s.moved + s.slot i } :
      State n M ρ).total = s.total := by
    simp only [State.total, hsl, ha]
    abel
  refine ⟨htot ▸ hI.sound, fun h => absurd h hodd, hI.begun, fun r c hc hv => ?_,
    hI.result_sound, fun x hx he => htot ▸ hI.result_le x hx he, hI.result_later⟩
  exact absurd (hv ▸ (hI.begun r c hc).1) hodd

theorem Inv.endFold (hI : Inv s) :
    Inv { s with retired := s.retired + s.moved, moved := 0, version := s.version + 1 } := by
  have htot : ({ s with retired := s.retired + s.moved, moved := 0, version := s.version + 1 } :
      State n M ρ).total = s.total := by
    simp only [State.total, add_zero, add_assoc]
  refine ⟨htot ▸ hI.sound, fun _ => rfl, fun r c hc => ?_, fun r c hc hv => ?_,
    hI.result_sound, fun x hx he => htot ▸ hI.result_le x hx he, hI.result_later⟩
  · obtain ⟨h, hle, hrest⟩ := hI.begun r c hc
    exact ⟨h, Nat.le_succ_of_le hle, hrest⟩
  · have hle := (hI.begun r c hc).2.1
    exact absurd (Nat.lt_succ_of_le hle) (hv ▸ Nat.lt_irrefl _)

section Scans

variable [DecidableEq ρ]

theorem Inv.start (hI : Inv s) (r : ρ) {after epoch : Nat} (heven : Even s.version)
    (hafter : after ≤ s.results.length) (hepo : epoch ≤ s.losses) :
    Inv { s with scan := update s.scan r (some ⟨s.version, [], after, epoch⟩) } := by
  have hmoved := hI.settled heven
  have ho : s.outcome ⟨s.version, [], after, epoch⟩ = s.total := by
    simp [State.outcome, State.total, hmoved]
  refine ⟨hI.sound, hI.settled, fun q c hc => ?_, fun q c hc hv => ?_, hI.result_sound,
    hI.result_le, hI.result_later⟩
  · rcases update_eq_some hc with ⟨_, hc⟩ | ⟨_, hc⟩
    · cases hc
      exact ⟨heven, Nat.le_refl _, hafter, hepo⟩
    · exact hI.begun q c hc
  · rcases update_eq_some hc with ⟨_, hc⟩ | ⟨_, hc⟩
    · cases hc
      refine ⟨ho.symm ▸ hI.sound, fun _ => ho.le, fun j x _ hx he => ?_⟩
      exact ho.symm ▸ hI.result_le x (mem_of_getElem? hx) he
    · have hok := hI.scans q c hc hv
      exact ⟨hok.sound, hok.le_total, hok.later⟩

theorem Inv.look (hI : Inv s) {r : ρ} (hc : s.scan r = some c) (hi : c.values.length = i) :
    Inv { s with
      scan := Function.update s.scan r (some { c with values := c.values ++ [s.slot i] }) } := by
  -- Reading a slot moves it from the rest to the values.
  have ho : s.outcome { c with values := c.values ++ [s.slot i] } = s.outcome c := by
    simp only [State.outcome, sum_append, sum_singleton, length_append,
      length_singleton, hi, rest_succ i s.slot]
    abel
  refine ⟨hI.sound, hI.settled, fun q d hd => ?_, fun q d hd hv => ?_, hI.result_sound,
    hI.result_le, hI.result_later⟩
  · rcases update_eq_some hd with ⟨_, hd⟩ | ⟨_, hd⟩
    · cases hd
      exact hI.begun r c hc
    · exact hI.begun q d hd
  · rcases update_eq_some hd with ⟨_, hd⟩ | ⟨_, hd⟩
    · cases hd
      have hok := hI.scans r c hc hv
      exact ⟨ho.symm ▸ hok.sound, fun he => ho.symm ▸ hok.le_total he,
        fun j x hj hx he => ho.symm ▸ hok.later j x hj hx he⟩
    · have hok := hI.scans q d hd hv
      exact ⟨hok.sound, hok.le_total, hok.later⟩

theorem Inv.abandon (hI : Inv s) (r : ρ) :
    Inv { s with scan := update s.scan r none } := by
  have hold : ∀ q d, update s.scan r none q = some d → s.scan q = some d := by
    intro q d hd
    rcases update_eq_some hd with ⟨_, hd⟩ | ⟨_, hd⟩
    · cases hd
    · exact hd
  refine ⟨hI.sound, hI.settled, fun q d hd => hI.begun q d (hold q d hd), fun q d hd hv => ?_,
    hI.result_sound, hI.result_le, hI.result_later⟩
  have hok := hI.scans q d (hold q d hd) hv
  exact ⟨hok.sound, hok.le_total, hok.later⟩

end Scans

variable [IsOrderedAddMonoid M]

theorem Inv.happen (hI : Inv s) (i : Fin n) (d : M) :
    Inv { s with
      pending := update s.pending i (s.pending i + d)
      occurred := s.occurred + d } := by
  obtain ⟨q, hq, hupd⟩ := rest_split (Nat.zero_le i.val) s.pending
  -- Both sides of every bound grow by `d`.
  have hadd : ∀ a : M, a + rest 0 s.pending ≤ s.occurred →
      a + rest 0 (update s.pending i (s.pending i + d)) ≤ s.occurred + d := by
    intro a ha
    rw [hupd, add_right_comm, ← hq, ← add_assoc]
    exact add_le_add_left ha d
  exact hI.ofParty rfl (hadd _ hI.sound) le_rfl (fun c hc => hadd _ hc) (fun _ => le_rfl)
    fun _ _ h => h

variable [CanonicallyOrderedAdd M]

theorem Inv.publish (hI : Inv s) (i : Fin n) :
    Inv { s with
      slot := Function.update s.slot i (s.slot i + s.pending i)
      pending := Function.update s.pending i 0 } := by
  obtain ⟨q, hq, hpnd⟩ := rest_split (Nat.zero_le i.val) s.pending
  obtain ⟨a, ha, hsl⟩ := rest_split (Nat.zero_le i.val) s.slot
  rw [← zero_add q, ← hpnd 0] at hq
  generalize ht : ({ s with
    slot := Function.update s.slot i (s.slot i + s.pending i)
    pending := Function.update s.pending i 0 } : State n M ρ) = t
  have htot : t.total = s.total + s.pending i := by
    simp only [← ht, State.total, hsl, ha]
    abel
  have hpend : rest 0 s.pending = s.pending i + rest 0 t.pending := by
    rw [hq, ← ht]
  have hoccurred : t.occurred = s.occurred := by rw [← ht]
  -- A scan that is past the slot misses the update.
  have ho : ∀ c, t.outcome c = s.outcome c ∨ t.outcome c = s.outcome c + s.pending i := by
    intro c
    simp only [← ht, State.outcome]
    rcases rest_add c.values.length i s.slot (s.pending i) with h | h
    · exact .inl (by rw [h])
    · exact .inr (by rw [h]; abel)
  refine hI.ofParty ht.symm ?_ (htot ▸ le_self_add) (fun c hc => ?_) (fun c => ?_)
    fun c _ hc => ?_
  · rw [htot, add_assoc, ← hpend, hoccurred]
    exact hI.sound
  · rw [hoccurred]
    rw [hpend, ← add_assoc] at hc
    rcases ho c with h | h
    · rw [h]
      exact le_trans (add_le_add_left le_self_add _) hc
    · rwa [h]
  · rcases ho c with h | h
    · exact h.ge
    · exact h ▸ le_self_add
  · rw [htot]
    rcases ho c with h | h
    · exact h ▸ hc.trans le_self_add
    · exact h ▸ add_le_add_left hc _

theorem Inv.drop (hI : Inv s) (i : Fin n) :
    Inv { s with pending := update s.pending i 0 } := by
  obtain ⟨q, hq, hpnd⟩ := rest_split (Nat.zero_le i.val) s.pending
  have hle : ∀ a : M, a + rest 0 s.pending ≤ s.occurred →
      a + rest 0 (update s.pending i 0) ≤ s.occurred := by
    intro a ha
    rw [hpnd, zero_add]
    exact le_trans (add_le_add_right (hq ▸ le_add_self) a) ha
  exact hI.ofParty rfl (hle _ hI.sound) le_rfl (fun c hc => hle _ hc) (fun _ => le_rfl)
    fun _ _ h => h

omit [IsOrderedAddMonoid M] in
theorem rest_clear_le (k : Nat) (i : Fin n) (f : Fin n → M) :
    rest k (update f i 0) ≤ rest k f := by
  rcases lt_or_ge i.val k with hread | hunread
  · exact (rest_update_of_lt hread f 0).le
  · obtain ⟨r, hr, hupd⟩ := rest_split hunread f
    rw [hupd, hr, zero_add]
    exact le_add_self

/-- What was read before a loss is of an earlier epoch. -/
theorem Inv.lose (hI : Inv s) (i : Fin n) :
    Inv { s with slot := update s.slot i 0, losses := s.losses + 1 } := by
  have hpast : ∀ e, e ≤ s.losses → e ≠ s.losses + 1 :=
    fun e he => ne_of_lt (Nat.lt_succ_of_le he)
  refine ⟨?_, hI.settled, fun r c hc => ?_, fun r c hc hv => ⟨?_, fun he => ?_, ?_⟩,
    fun x hx => ?_, fun x hx he => ?_, hI.result_later⟩
  · refine le_trans ?_ hI.sound
    simp only [State.total]
    gcongr
    exact rest_clear_le 0 i s.slot
  · obtain ⟨h, hle, hafter, hepo⟩ := hI.begun r c hc
    exact ⟨h, hle, hafter, Nat.le_succ_of_le hepo⟩
  · refine le_trans ?_ (hI.scans r c hc hv).sound
    simp only [State.outcome]
    gcongr
    exact rest_clear_le _ i s.slot
  · exact absurd he (hpast _ (hI.begun r c hc).2.2.2)
  · intro j x _ hx he
    exact absurd he (hpast _ (hI.result_sound x (mem_of_getElem? hx)).2.2)
  · obtain ⟨h, hafter, hepo⟩ := hI.result_sound x hx
    exact ⟨h, hafter, Nat.le_succ_of_le hepo⟩
  · exact absurd he (hpast _ (hI.result_sound x hx).2.2)

variable [DecidableEq ρ]

omit [IsOrderedAddMonoid M] in
theorem Inv.finish (hI : Inv s) {r : ρ} (hc : s.scan r = some c) (hfull : c.values.length = n)
    (hv : c.version = s.version) :
    Inv { s with
      scan := Function.update s.scan r none
      results := s.results ++
        [⟨c.values.sum + s.retired, c.after, c.epoch, s.losses, s.occurred⟩] } := by
  have hok := hI.scans r c hc hv
  obtain ⟨_, _, hafter, hepo⟩ := hI.begun r c hc
  have ho : c.values.sum + s.retired = s.outcome c := by
    rw [State.outcome, hfull, rest_length, add_zero]
  have hlen : (s.results ++
      [(⟨c.values.sum + s.retired, c.after, c.epoch, s.losses, s.occurred⟩ : Result M)]).length
      = s.results.length + 1 := length_append
  -- An index an earlier call knew of is one of the old results.
  have hget : ∀ {j x y}, j < y → y ≤ s.results.length →
      (s.results ++ [⟨c.values.sum + s.retired, c.after, c.epoch, s.losses, s.occurred⟩])[j]?
        = some x → s.results[j]? = some x := by
    intro j x y hj hy hx
    rwa [getElem?_append_left (lt_of_lt_of_le hj hy)] at hx
  have hold := hI.abandon r
  refine ⟨hI.sound, hI.settled, fun q d hd => ?_, fun q d hd hdv => ?_, fun x hx => ?_,
    fun x hx he => ?_, fun j x y hx hy hj he => ?_⟩
  · obtain ⟨h, hle, ha, he⟩ := hold.begun q d hd
    exact ⟨h, hle, hlen ▸ Nat.le_succ_of_le ha, he⟩
  · have hd' := hold.scans q d hd hdv
    exact ⟨hd'.sound, hd'.le_total, fun j x hj hx =>
      hd'.later j x hj (hget hj (hold.begun q d hd).2.2.1 hx)⟩
  · rcases mem_append.mp hx with hx | hx
    · obtain ⟨h, ha, he⟩ := hI.result_sound x hx
      exact ⟨h, hlen ▸ Nat.le_succ_of_le ha, he⟩
    · obtain rfl := mem_singleton.mp hx
      refine ⟨?_, hlen ▸ Nat.le_succ_of_le hafter, hepo⟩
      exact ho ▸ le_self_add.trans hok.sound
  · rcases mem_append.mp hx with hx | hx
    · exact hI.result_le x hx he
    · obtain rfl := mem_singleton.mp hx
      exact ho ▸ hok.le_total he
  · rcases mem_append.mp hy with hy | hy
    · exact hI.result_later j x y (hget hj (hI.result_sound y hy).2.1 hx) hy hj he
    · obtain rfl := mem_singleton.mp hy
      exact ho ▸ hok.later j x hj (hget hj hafter hx) he

theorem Inv.step {a : Act n M ρ} (hI : Inv s) (h : Step s a t) : Inv t := by
  cases h with
  | happen i d => exact hI.happen i d
  | publish i => exact hI.publish i
  | drop i => exact hI.drop i
  | beginFold heven => exact hI.beginFold heven
  | move i hodd => exact hI.move i hodd
  | endFold => exact hI.endFold
  | lose i => exact hI.lose i
  | start r heven hafter hepo => exact hI.start r heven hafter hepo
  | look i hc hi => exact hI.look hc hi
  | finish hc hfull hv => exact hI.finish hc hfull hv
  | abandon r => exact hI.abandon r

section

variable (h : (system n M ρ).Reachable s)
include h

theorem Inv.of_reachable : Inv s := by
  refine h.invariant ?_ fun s a t hI hst => hI.step hst
  rintro s rfl
  exact Inv.initial

/-- A result is no more than had happened. -/
theorem value_le_occurred {x : Result M} (hx : x ∈ s.results) :
    x.value ≤ x.occurred := ((Inv.of_reachable h).result_sound x hx).1

/-- A result asked for after another had returned is no less, where nothing was lost from
    the start of the one to the end of the other. -/
theorem value_le_value {j : Nat} {x y : Result M} (hx : s.results[j]? = some x) (hy : y ∈ s.results)
    (hj : j < y.after) (hepo : x.epoch = y.epochEnd) : x.value ≤ y.value :=
  (Inv.of_reachable h).result_later j x y hx hy hj hepo

end

end Invariant

end FoldedScan

end OmniRealtime
