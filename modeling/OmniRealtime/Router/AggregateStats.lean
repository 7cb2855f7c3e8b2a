import OmniRealtime.Lib.FoldedScan
import OmniRealtime.Router.AggregateReads

/-!
# Aggregate statistics over restarts

The slots of `AggregateReads` are the slots of a folded scan (`Lib/FoldedScan`) that
counts pairs of a number of rejections and a peak.

1. `Simulates.step`: every step of the router is at most one step of the folded scan.
2. `aggregate_stats_sound`: no read returns more rejections than occurred, and successive
   reads never decrease, unless a slot was reclaimed unread in between. Only a slot whose
   owner died in the middle of a write is reclaimed unread.
3. `unread_reclaim_decreases`: there, a later read does return less.
-/

namespace OmniRealtime

open List Option Function AdmissionProcess StatsState

/-! ## Rejections and peaks as one count -/

/-- A number of rejections, and a highest sum. -/
@[ext] structure AdmissionStats where
  rejected : Nat
  peak : Nat
  deriving DecidableEq, Repr

namespace AdmissionStats

instance : Zero AdmissionStats := ⟨⟨0, 0⟩⟩

instance : Add AdmissionStats := ⟨fun a b => ⟨a.rejected + b.rejected, max a.peak b.peak⟩⟩

instance : LE AdmissionStats := ⟨fun a b => a.rejected ≤ b.rejected ∧ a.peak ≤ b.peak⟩

@[simp] theorem zero_rejected : (0 : AdmissionStats).rejected = 0 := rfl

@[simp] theorem zero_peak : (0 : AdmissionStats).peak = 0 := rfl

@[simp] theorem add_rejected (a b : AdmissionStats) :
    (a + b).rejected = a.rejected + b.rejected := rfl

@[simp] theorem add_peak (a b : AdmissionStats) : (a + b).peak = max a.peak b.peak := rfl

theorem le_def {a b : AdmissionStats} : a ≤ b ↔ a.rejected ≤ b.rejected ∧ a.peak ≤ b.peak :=
  Iff.rfl

instance : AddCommMonoid AdmissionStats where
  add_assoc a b c := AdmissionStats.ext (Nat.add_assoc _ _ _) (max_assoc _ _ _)
  zero_add a := AdmissionStats.ext (Nat.zero_add _) (Nat.zero_max _)
  add_zero a := AdmissionStats.ext (Nat.add_zero _) (Nat.max_zero _)
  add_comm a b := AdmissionStats.ext (Nat.add_comm _ _) (max_comm _ _)
  nsmul := nsmulRec

instance : PartialOrder AdmissionStats where
  le_refl a := ⟨le_refl _, le_refl _⟩
  le_trans _ _ _ hab hbc := ⟨hab.1.trans hbc.1, hab.2.trans hbc.2⟩
  le_antisymm a b hab hba :=
    AdmissionStats.ext (Nat.le_antisymm hab.1 hba.1) (Nat.le_antisymm hab.2 hba.2)

instance : IsOrderedAddMonoid AdmissionStats where
  add_le_add_left _ _ hab _ := ⟨Nat.add_le_add_right hab.1 _, max_le_max_right _ hab.2⟩

instance : CanonicallyOrderedAdd AdmissionStats where
  exists_add_of_le {a b} hab := by
    refine ⟨⟨b.rejected - a.rejected, b.peak⟩, AdmissionStats.ext ?_ ?_⟩
    · exact (Nat.add_sub_cancel' hab.1).symm
    · exact (max_eq_right hab.2).symm
  le_add_self a b := ⟨Nat.le_add_left _ _, le_max_right _ _⟩
  le_self_add a b := ⟨Nat.le_add_right _ _, le_max_left _ _⟩

end AdmissionStats

def SlotFields.Holds (f : SlotFields Nat) (m : AdmissionStats) : Prop :=
  f.rejectedTotal = m.rejected ∧ f.peakSum = m.peak

theorem holds_zero (now : Nat) : (SlotWrite.reclaim now).fields.Holds 0 := ⟨rfl, rfl⟩

theorem holds_fold {accumulated view : SlotFields Nat} {a v : AdmissionStats}
    (ha : accumulated.Holds a) (hv : view.Holds v) (now : Nat) :
    (foldFields accumulated view now).Holds (a + v) := by
  constructor
  · simp [foldFields, ha.1, hv.1]
  · simp [foldFields, ha.2, hv.2, Nat.cast_max]

variable {views : List (SlotFields Nat)}

theorem rejected_sum {views : List (SlotFields Nat)} {values : List AdmissionStats}
    (h : List.Forall₂ SlotFields.Holds views values) :
    (views.map SlotFields.rejectedTotal).sum = values.sum.rejected := by
  induction h with
  | nil => rfl
  | cons hd _ ih => simp [ih, hd.1]

theorem peak_max {values : List AdmissionStats} (h : List.Forall₂ SlotFields.Holds views values)
    (hne : views ≠ []) : (views.map SlotFields.peakSum).max? = some (values.sum.peak : Int) := by
  induction h with
  | nil => exact absurd rfl hne
  | @cons f m fs ms hd htl ih =>
    cases htl with
    | nil => simp [hd.2]
    | cons hd' htl' =>
      have hrest := ih (cons_ne_nil _ _)
      simp only [map_cons, max?_cons (x := f.peakSum), sum_cons, AdmissionStats.add_peak] at hrest ⊢
      rw [hrest]
      simp [hd.2, Nat.cast_max]

theorem aggregateDict_holds {values : List AdmissionStats} {retired : SlotFields Nat}
    {m : AdmissionStats} (h : List.Forall₂ SlotFields.Holds views values) (hm : retired.Holds m)
    (maxInflight : Nat) :
    (aggregateDict views retired maxInflight).rejectedTotal = (values.sum + m).rejected ∧
      (aggregateDict views retired maxInflight).peakInflight = (values.sum + m).peak := by
  constructor
  · simp [aggregateDict, rejected_sum h, hm.1]
  · have hall := rel_append h (List.Forall₂.cons hm .nil)
    have hpeak := peak_max hall (append_ne_nil_of_right_ne_nil views (by simp))
    rw [aggregateDict, hpeak]
    simp

/-! ## The simulation -/

namespace AggregateReads

open FoldedScan

variable {n : Nat} {ρ : Type} {maxInflight reprobe : Nat} {s t : StatsState n ρ}
  {a : FoldedScan.State n AdmissionStats ρ} {i : Fin n} {x y : AdmissionPlane}

/-- The slot belongs to a process that is gone. -/
def Dead (s : StatsState n ρ) (i : Fin n) : Prop :=
  ∃ x, s.plane i = some x ∧ x.alive = false

/-- No fold is under way, or one is, with the retired slot marked. -/
def Settled (s : StatsState n ρ) (a : State n AdmissionStats ρ) : Prop :=
  Even s.retired.seq ∧ a.moved = 0 ∧ s.retired.fields.Holds a.retired

/-- What the supervisor knows, and where its fold stands. -/
def Supervises (s : StatsState n ρ) (a : State n AdmissionStats ρ) : Prop :=
  match s.supervisor with
  | .polling => Settled s a
  | .reaped i | .unread i | .unreadMarked i => Settled s a ∧ Dead s i
  | .read i view accumulated =>
    Settled s a ∧ Dead s i ∧ view.Holds (a.slot i) ∧ accumulated.Holds a.retired
  | .held i view accumulated =>
    ¬ Even s.retired.seq ∧ a.moved = 0 ∧ Dead s i ∧ view.Holds (a.slot i) ∧
      accumulated.Holds a.retired
  | .folded i _ _ | .foldedMarked i _ _ =>
    ¬ Even s.retired.seq ∧ a.moved = 0 ∧ Dead s i ∧
      s.retired.fields.Holds (a.retired + a.slot i)
  | .reclaimed i _ _ =>
    ¬ Even s.retired.seq ∧ Dead s i ∧ a.slot i = 0 ∧
      s.retired.fields.Holds (a.retired + a.moved)

/-- A call that returned is a result of the folded scan. -/
structure Returned (y : AggregateReturn) (x : Result AdmissionStats) : Prop where
  rejected : y.dict.rejectedTotal = x.value.rejected
  peak : y.dict.peakInflight = x.value.peak
  after : y.after = x.after
  epoch : y.unreadAtCall = x.epoch
  epochEnd : y.unreadAtReturn = x.epochEnd
  occurred : x.occurred.rejected ≤ y.rejections ∧ x.occurred.peak ≤ y.highestSum

/-- A call with its version read is a scan. -/
def Scanning (a : State n AdmissionStats ρ) (r : ρ) (c : AggregateCall) : Prop :=
  ∀ version views, c.scan = some (version, views) →
    ∃ values, a.scan r = some ⟨version, values, c.after, c.unreadAtCall⟩ ∧
      List.Forall₂ SlotFields.Holds views values

structure Simulates (s : StatsState n ρ) (a : State n AdmissionStats ρ) : Prop where
  slot : ∀ i, (s.slot i).fields.Holds (a.slot i)
  /-- What a process counts and its slot does not show is pending. -/
  alive : ∀ i x, s.plane i = some x → x.alive = true →
    (x.proc.ownFields 0).Holds (a.slot i + a.pending i)
  gone : ∀ i, (∀ x, s.plane i = some x → x.alive = false) → a.pending i = 0
  vacant : ∀ i, s.plane i = none → a.slot i = 0
  supervises : Supervises s a
  version : a.version = s.retired.seq
  losses : a.losses = s.unreadReclaims
  known : ∀ r c, s.call r = some c →
    c.after ≤ s.returns.length ∧ c.unreadAtCall ≤ s.unreadReclaims
  scanning : ∀ r c, s.call r = some c → Scanning a r c
  returned : List.Forall₂ Returned s.returns a.results
  occurred : a.occurred.rejected ≤ s.rejections ∧ a.occurred.peak ≤ s.highestSum

theorem Simulates.initial : Simulates (StatsState.initial : StatsState n ρ) State.initial where
  slot _ := ⟨rfl, rfl⟩
  alive _ _ hx := nomatch hx
  gone _ _ := rfl
  vacant _ _ := rfl
  supervises := ⟨Even.zero, rfl, ⟨rfl, rfl⟩⟩
  version := rfl
  losses := rfl
  known _ _ hc := nomatch hc
  scanning _ _ hc := nomatch hc
  returned := .nil
  occurred := ⟨le_rfl, le_rfl⟩

/-! ### Data planes -/

/-- The supervisor is not concerned with the slot of a living process. -/
theorem Supervises.ofPlane {slot : Fin n → SlotView Nat} {plane : Fin n → Option AdmissionPlane}
    {rejections highestSum : Nat} {slot' pending : Fin n → AdmissionStats}
    {occurred : AdmissionStats} (h : Supervises s a) (hi : ¬ Dead s i)
    (hplane : ∀ j, j ≠ i → plane j = s.plane j) (hsl : ∀ j, j ≠ i → slot' j = a.slot j) :
    Supervises { s with slot, plane, rejections, highestSum }
      { a with slot := slot', pending, occurred } := by
  have hdead : ∀ {j}, Dead s j → Dead { s with slot, plane, rejections, highestSum } j ∧
        slot' j = a.slot j := by
    intro j hj
    have hji : j ≠ i := fun hji => hi (hji ▸ hj)
    obtain ⟨z, hz, hg⟩ := hj
    exact ⟨⟨z, (hplane j hji).trans hz, hg⟩, hsl j hji⟩
  unfold Supervises at h ⊢
  dsimp only
  cases hsup : s.supervisor with
  | polling =>
    rw [hsup] at h
    exact h
  | reaped j | unread j | unreadMarked j =>
    rw [hsup] at h
    exact ⟨h.1, (hdead h.2).1⟩
  | read j view accumulated =>
    rw [hsup] at h
    obtain ⟨hset, hd, hview, hacc⟩ := h
    exact ⟨hset, (hdead hd).1, (hdead hd).2.symm ▸ hview, hacc⟩
  | held j view accumulated =>
    rw [hsup] at h
    obtain ⟨hodd, hmoved, hd, hview, hacc⟩ := h
    exact ⟨hodd, hmoved, (hdead hd).1, (hdead hd).2.symm ▸ hview, hacc⟩
  | folded j view accumulated | foldedMarked j view accumulated =>
    rw [hsup] at h
    obtain ⟨hodd, hmoved, hd, hret⟩ := h
    exact ⟨hodd, hmoved, (hdead hd).1, (hdead hd).2.symm ▸ hret⟩
  | reclaimed j view accumulated =>
    rw [hsup] at h
    obtain ⟨hodd, hd, hzero, hret⟩ := h
    exact ⟨hodd, (hdead hd).1, (hdead hd).2.trans hzero, hret⟩

/-- A step of a living process: its slot, its own state, and what it rejected or
    observed. -/
theorem Simulates.ofPlane {v : SlotView Nat} {m p : AdmissionStats} (occurred : AdmissionStats)
    (rejections highestSum : Nat) (h : Simulates s a) (hx : s.plane i = some x)
    (halv : x.alive = true) (hv : v.fields.Holds m)
    (hy : y.alive = true → (y.proc.ownFields 0).Holds (m + p)) (hg : y.alive = false → p = 0)
    (hocc : occurred.rejected ≤ rejections ∧ occurred.peak ≤ highestSum) :
    Simulates { s with
        slot := update s.slot i v
        plane := update s.plane i (some y)
        rejections, highestSum }
      { a with
        slot := update a.slot i m
        pending := update a.pending i p
        occurred } := by
  have hlive : ¬ Dead s i := by
    rintro ⟨z, hz, hdead⟩
    obtain rfl := some.inj (hx.symm.trans hz)
    exact absurd (halv.symm.trans hdead) (by decide)
  refine ⟨fun j => ?_, fun j z hz hza => ?_, fun j hj => ?_, fun j hj => ?_,
    h.supervises.ofPlane hlive (fun j hj => update_of_ne hj _ _) (fun j hj => update_of_ne hj _ _),
    h.version, h.losses, h.known, h.scanning, h.returned, hocc⟩
  all_goals rcases eq_or_ne j i with rfl | hji
  · simpa using hv
  · simpa [hji] using h.slot j
  · obtain rfl : y = z := by simpa using hz
    simpa using hy hza
  · simpa [hji] using h.alive j z (by simpa [hji] using hz) hza
  · simpa using hg (hj y (by simp))
  · simpa [hji] using h.gone j (by simpa [hji] using hj)
  · simp at hj
  · simpa [hji] using h.vacant j (by simpa [hji] using hj)

variable [DecidableEq ρ]

/-- At most one step of the folded scan leads to a state that `s` is related to. -/
def Matched (s : StatsState n ρ) (a : State n AdmissionStats ρ) : Prop :=
  ∃ b, (b = a ∨ ∃ k, FoldedScan.Step a k b) ∧ Simulates s b

omit [DecidableEq ρ] in
/-- A step of a living process that counts nothing and shows nothing new. -/
theorem Simulates.quiet {v : SlotView Nat} (h : Simulates s a) (hx : s.plane i = some x)
    (halv : x.alive = true) (hv : v.fields = (s.slot i).fields) (hy : y.alive = true)
    (hrejected : y.proc.rejectedTotal = x.proc.rejectedTotal)
    (hpeak : y.proc.peakSum = x.proc.peakSum) :
    Simulates ((s.setSlot i v).setPlane i y) a := by
  have hown := h.alive i x hx halv
  have hn := h.ofPlane a.occurred s.rejections s.highestSum hx halv (v := v) (y := y)
    (hv ▸ h.slot i) (fun _ => ⟨hrejected.trans hown.1, hpeak.trans hown.2⟩)
    (fun hg => absurd (hy.symm.trans hg) (by decide)) h.occurred
  simp only [update_eq_self] at hn
  exact hn

omit [DecidableEq ρ] in
theorem Simulates.setPlane (h : Simulates s a) (hx : s.plane i = some x)
    (halv : x.alive = true) (hy : y.alive = true)
    (hrejected : y.proc.rejectedTotal = x.proc.rejectedTotal)
    (hpeak : y.proc.peakSum = x.proc.peakSum) : Simulates (s.setPlane i y) a := by
  have hn := h.quiet (v := s.slot i) hx halv rfl hy hrejected hpeak
  rwa [setSlot, update_eq_self] at hn

section

variable (h : Simulates s a) (hx : s.plane i = some x) (halv : x.alive = true)
include h hx halv

/-- A living process counts `d` more, and its slot does not show it yet. -/
theorem Simulates.happens {d : AdmissionStats} {rejections highestSum : Nat}
    (hrejected : y.proc.rejectedTotal = x.proc.rejectedTotal + d.rejected)
    (hpeak : y.proc.peakSum = max x.proc.peakSum d.peak)
    (hocc : s.rejections + d.rejected ≤ rejections ∧ max s.highestSum d.peak ≤ highestSum)
    (hy : y.alive = true) :
    Matched { s.setPlane i y with rejections, highestSum } a := by
  have hown := h.alive i x hx halv
  have hafter : (y.proc.ownFields 0).Holds (a.slot i + (a.pending i + d)) := by
    rw [← add_assoc]
    constructor
    · show y.proc.rejectedTotal = _
      rw [hrejected, AdmissionStats.add_rejected, Nat.cast_add, ← hown.1]
      rfl
    · show y.proc.peakSum = _
      rw [hpeak, AdmissionStats.add_peak, Nat.cast_max, ← hown.2]
      rfl
  refine ⟨_, .inr ⟨_, FoldedScan.Step.happen i d⟩, ?_⟩
  have hn := h.ofPlane (a.occurred + d) rejections highestSum hx halv (v := s.slot i) (y := y)
    (h.slot i) (fun _ => hafter) (fun hg => absurd (hy.symm.trans hg) (by decide))
    ⟨le_trans (Nat.add_le_add_right h.occurred.1 _) hocc.1,
      le_trans (max_le_max_right _ h.occurred.2) hocc.2⟩
  simp only [update_eq_self] at hn
  exact hn

theorem Simulates.stores {now : Nat} :
    Matched ((s.setSlot i ((s.slot i).store (x.proc.ownFields now))).setPlane i
      { x with write := .idle }) a := by
  have hown := h.alive i x hx halv
  refine ⟨_, .inr ⟨_, FoldedScan.Step.publish i⟩, ?_⟩
  exact h.ofPlane a.occurred s.rejections s.highestSum hx halv hown
    (fun _ => (add_zero (a.slot i + a.pending i)).symm ▸ hown) (fun _ => rfl) h.occurred

theorem Simulates.exits : Matched (s.setPlane i { x with alive := false }) a := by
  refine ⟨_, .inr ⟨_, FoldedScan.Step.drop i⟩, ?_⟩
  have hn := h.ofPlane a.occurred s.rejections s.highestSum hx halv (v := s.slot i)
    (y := { x with alive := false }) (p := 0) (h.slot i) nofun (fun _ => rfl) h.occurred
  simp only [update_eq_self] at hn
  exact hn

end

omit [DecidableEq ρ] in
theorem Simulates.spawn {pid : Int} (h : Simulates s a) (hst : s.spawnStep i pid = some t) :
    Simulates t a := by
  unfold spawnStep at hst
  split_ifs at hst with hfree
  obtain ⟨hsup, hnone⟩ := hfree
  cases hst
  have hsl := h.vacant i hnone
  have hpnd := h.gone i fun x hx => nomatch hnone.symm.trans hx
  have hstl := h.supervises
  simp only [Supervises, hsup] at hstl
  refine { h with alive := ?_, gone := ?_, vacant := ?_, supervises := ?_ }
  · intro j z hz hza
    rcases update_eq_some hz with ⟨rfl, hz⟩ | ⟨_, hz⟩
    · cases hz
      rw [hsl, hpnd]
      exact ⟨rfl, rfl⟩
    · exact h.alive j z hz hza
  · intro j hj
    rcases eq_or_ne j i with rfl | hji
    · exact hpnd
    · exact h.gone j fun z hz => hj z (by simpa [hji] using hz)
  · intro j hj
    rcases eq_or_ne j i with rfl | hji
    · exact hsl
    · exact h.vacant j (by simpa [hji] using hj)
  · simp only [Supervises, hsup]
    exact hstl

/-! ### Sheds and admissions -/

omit [DecidableEq ρ] in
theorem ready_alive (h : x.ready = true) : x.alive = true := (Bool.and_eq_true_iff.mp h).1

theorem Matched.quiet (h : Simulates s a) : Matched s a := ⟨a, .inl rfl, h⟩

omit [DecidableEq ρ] in
theorem Simulates.reject (h : Simulates s a) : Simulates s.reject a :=
  { h with occurred := ⟨Nat.le_succ_of_le h.occurred.1, h.occurred.2⟩ }

omit [DecidableEq ρ] in
theorem Simulates.peak_nonneg (h : Simulates s a) (hx : s.plane i = some x)
    (halv : x.alive = true) : 0 ≤ x.proc.peakSum := by
  have hpeak : x.proc.peakSum = _ := (h.alive i x hx halv).2
  rw [hpeak]
  exact Int.natCast_nonneg _

section

variable (h : Simulates s a) (hx : s.plane i = some x)
include h hx

theorem Simulates.sheds (halv : x.alive = true) (hy : y.alive = true)
    (hrejected : y.proc.rejectedTotal = x.proc.rejectedTotal + 1)
    (hpeak : y.proc.peakSum = x.proc.peakSum) : Matched (s.setPlane i y).reject a := by
  refine h.happens (d := ⟨1, 0⟩) hx halv hrejected ?_ ⟨le_rfl, ?_⟩ hy
  · rw [hpeak]
    exact (max_eq_left (h.peak_nonneg hx halv)).symm
  · exact (Nat.max_zero _).le

section

variable (hr : x.ready = true)
include hr

theorem Simulates.tryAcquire {now : Nat} : Matched (s.tryAcquireStep reprobe i now x) a := by
  have halv := ready_alive hr
  unfold tryAcquireStep
  split_ifs
  · exact h.sheds hx halv halv rfl rfl
  · exact .quiet (h.setPlane hx halv halv rfl rfl)
  · exact .quiet h.reject

theorem Simulates.look (hst : s.lookStep i x = some t) : Matched t a := by
  have halv := ready_alive hr
  unfold lookStep at hst
  split at hst
  · split at hst
    · dsimp only at hst
      split_ifs at hst
      cases hst
      exact .quiet (h.setPlane hx halv halv rfl rfl)
    · cases hst
  · cases hst

theorem Simulates.lookUnstable {now : Nat} (hst : s.lookUnstableStep i now x = some t)
    : Matched t a := by
  have halv := ready_alive hr
  unfold lookUnstableStep at hst
  split at hst
  · cases hst
    exact h.sheds hx halv halv rfl rfl
  · cases hst

theorem Simulates.decide (hst : s.decideStep maxInflight i x = some t) : Matched t a := by
  have halv := ready_alive hr
  unfold decideStep at hst
  split at hst
  · rename_i seen _
    split_ifs at hst with hfull hshed
    · cases hst
      refine h.sheds hx halv halv ?_ ?_
      · simp [decideAcquire, hshed]
      · simp [decideAcquire, hshed]
    · cases hst
      have hnonneg := h.peak_nonneg hx halv
      refine h.happens (d := ⟨0, (seen.sum + 1).toNat⟩) hx halv ?_ ?_
        ⟨le_rfl, le_rfl⟩ halv
      · simp [decideAcquire, hshed]
      · -- A recorded peak is never below zero, so `toNat` changes no maximum.
        simp only [decideAcquire, if_neg hshed]
        split_ifs <;> omega
  · cases hst

theorem Simulates.release : Matched (s.releaseStep i x) a := by
  have halv := ready_alive hr
  unfold releaseStep
  split_ifs
  · exact .quiet (h.setPlane hx halv halv rfl rfl)
  · exact .quiet h

theorem Simulates.touch : Matched (s.touchStep i x) a := by
  have halv := ready_alive hr
  unfold touchStep
  split_ifs
  · exact .quiet (h.setPlane hx halv halv rfl rfl)
  · exact .quiet h

end

end

/-! ### The supervisor -/

section Supervisor

omit [DecidableEq ρ]

theorem even_mark {v : SlotView Nat} (h : Even v.seq) : v.mark.seq = v.seq + 1 := by
  obtain ⟨k, hk⟩ := h
  show v.seq ||| 1 = v.seq + 1
  rw [hk, ← two_mul]
  exact (Nat.two_pow_add_eq_or_of_lt (i := 1) (b := 1) (by decide) k).symm

theorem Simulates.slot_mark (h : Simulates s a) (i j : Fin n) :
    (update s.slot i (s.slot i).mark j).fields.Holds (a.slot j) := by
  rcases eq_or_ne j i with rfl | hji
  · simpa [SlotView.mark] using h.slot j
  · simpa [hji] using h.slot j

theorem Simulates.slot_reclaim {now : Nat} (h : Simulates s a) (i j : Fin n) :
    (update s.slot i ((s.slot i).store (SlotWrite.reclaim now).fields) j).fields.Holds
      (update a.slot i 0 j) := by
  rcases eq_or_ne j i with rfl | hji
  · simpa [SlotView.store] using holds_zero now
  · simpa [hji] using h.slot j

theorem Dead.ne (hi : Dead s i) {j : Fin n} {x : AdmissionPlane} (hx : s.plane j = some x)
    (halv : x.alive = true) : j ≠ i := by
  rintro rfl
  obtain ⟨z, hz, hdead⟩ := hi
  obtain rfl := some.inj (hx.symm.trans hz)
  exact absurd (halv.symm.trans hdead) (by decide)

theorem Simulates.alive_reclaim (h : Simulates s a) (hi : Dead s i) (j : Fin n)
    (x : AdmissionPlane) (hx : s.plane j = some x) (halv : x.alive = true) :
    (x.proc.ownFields 0).Holds (update a.slot i 0 j + a.pending j) := by
  simpa [hi.ne hx halv] using h.alive j x hx halv

theorem Simulates.vacant_reclaim (h : Simulates s a) (i j : Fin n) (hj : s.plane j = none) :
    update a.slot i 0 j = 0 := by
  rcases eq_or_ne j i with rfl | hji
  · simp
  · simpa [hji] using h.vacant j hj

theorem Simulates.retire (h : Simulates s a) (hi : Dead s i) (hzero : a.slot i = 0)
    (hstl : Settled s a) :
    Simulates { s with supervisor := .polling, plane := update s.plane i none } a := by
  refine { h with alive := ?_, gone := ?_, vacant := ?_, supervises := hstl }
  · intro j x hx halv
    rcases update_eq_some hx with ⟨_, hx⟩ | ⟨_, hx⟩
    · cases hx
    · exact h.alive j x hx halv
  · intro j hj
    refine h.gone j fun x hx => ?_
    rcases eq_or_ne j i with rfl | hji
    · obtain ⟨z, hz, hdead⟩ := hi
      exact some.inj (hx.symm.trans hz) ▸ hdead
    · exact hj x (by simpa [hji] using hx)
  · intro j hj
    rcases eq_or_ne j i with rfl | hji
    · exact hzero
    · exact h.vacant j (by simpa [hji] using hj)

end Supervisor

theorem Simulates.supervise {now : Nat} (h : Simulates s a)
    (hst : s.superviseStep now = some t) : Matched t a := by
  have hs := h.supervises
  unfold Supervises at hs
  unfold superviseStep at hst
  cases hsup : s.supervisor with
  | polling =>
    rw [hsup] at hst
    cases hst
  | reaped i =>
    rw [hsup] at hs hst
    obtain ⟨hstl, hdead⟩ := hs
    dsimp only at hst
    split_ifs at hst
    · cases hst
      exact .quiet { h with supervises := ⟨hstl, hdead, h.slot i, hstl.2.2⟩ }
    · cases hst
      exact .quiet { h with supervises := ⟨hstl, hdead⟩ }
  | unread i | folded i view accumulated =>
    rw [hsup] at hs hst
    cases hst
    exact .quiet { h with slot := h.slot_mark i, supervises := hs }
  | unreadMarked i =>
    rw [hsup] at hs hst
    cases hst
    obtain ⟨hstl, hdead⟩ := hs
    have he : Even a.version := h.version ▸ hstl.1
    refine ⟨_, .inr ⟨_, FoldedScan.Step.lose i he⟩, ?_⟩
    have hlost : Simulates { s.setSlot i ((s.slot i).store (SlotWrite.reclaim now).fields) with
          unreadReclaims := s.unreadReclaims + 1 }
        { a with slot := update a.slot i 0, losses := a.losses + 1 } :=
      { h with
        slot := h.slot_reclaim i
        alive := h.alive_reclaim hdead
        vacant := h.vacant_reclaim i
        supervises := by simp only [Supervises, setSlot, hsup]; exact ⟨hstl, hdead⟩
        losses := congrArg (· + 1) h.losses
        known := fun r c hc => ⟨(h.known r c hc).1, Nat.le_succ_of_le (h.known r c hc).2⟩ }
    exact hlost.retire hdead (update_self i 0 a.slot) hstl
  | read i view accumulated =>
    rw [hsup] at hs hst
    cases hst
    obtain ⟨⟨he, hmoved, _⟩, hdead, hview, hacc⟩ := hs
    refine ⟨_, .inr ⟨_, FoldedScan.Step.beginFold (h.version ▸ he)⟩, ?_⟩
    have hodd : ¬ Even s.retired.mark.seq := by
      rw [even_mark he]
      exact Nat.even_add_one.not.mpr (not_not.mpr he)
    exact { h with
      supervises := ⟨hodd, hmoved, hdead, hview, hacc⟩
      version := (congrArg (· + 1) h.version).trans (even_mark he).symm }
  | held i view accumulated =>
    rw [hsup] at hs hst
    cases hst
    obtain ⟨hodd, hmoved, hdead, hview, hacc⟩ := hs
    exact .quiet { h with supervises := ⟨hodd, hmoved, hdead, holds_fold hacc hview now⟩ }
  | foldedMarked i view accumulated =>
    rw [hsup] at hs hst
    cases hst
    obtain ⟨hodd, hmoved, hdead, hret⟩ := hs
    refine ⟨_, .inr ⟨_, FoldedScan.Step.move i (h.version ▸ hodd)⟩, ?_⟩
    exact { h with
      slot := h.slot_reclaim i
      alive := h.alive_reclaim hdead
      vacant := h.vacant_reclaim i
      supervises := by
        refine ⟨hodd, hdead, update_self i 0 a.slot, ?_⟩
        rw [hmoved, zero_add]
        exact hret }
  | reclaimed i view accumulated =>
    rw [hsup] at hs hst
    cases hst
    obtain ⟨hodd, hdead, hzero, hret⟩ := hs
    refine ⟨_, .inr ⟨_, FoldedScan.Step.endFold (h.version ▸ hodd)⟩, ?_⟩
    have he : Even (s.retired.seq + 1) := Nat.even_add_one.mpr hodd
    have hended : Simulates
        { s with retired := { s.retired with seq := s.retired.seq + 1 }, supervisor := .polling }
        { a with retired := a.retired + a.moved, moved := 0, version := a.version + 1 } :=
      { h with
        supervises := ⟨he, rfl, hret⟩
        version := congrArg (· + 1) h.version }
    exact hended.retire hdead hzero ⟨he, rfl, hret⟩

/-! ### Aggregate reads -/

section

variable (h : Simulates s a) {c : AggregateCall} {r : ρ}
include h

/-- A reader's own step, where it is known when its call was made, and scans what the folded
    scan does. -/
theorem Simulates.ofCall {c : Option AggregateCall} {b : State n AdmissionStats ρ}
    {scan : ρ → Option (Scan AdmissionStats)} (hb : b = { a with scan })
    (hscan : ∀ q, q ≠ r → scan q = a.scan q)
    (hknown : ∀ d, c = some d → d.after ≤ s.returns.length ∧ d.unreadAtCall ≤ s.unreadReclaims)
    (hc : ∀ d, c = some d → Scanning b r d) : Simulates (s.setCall r c) b := by
  subst hb
  refine { h with known := ?_, scanning := ?_ }
  · intro q d hd
    rcases update_eq_some hd with ⟨_, hd⟩ | ⟨_, hd⟩
    · exact hknown d hd
    · exact h.known q d hd
  · intro q d hd
    rcases update_eq_some hd with ⟨rfl, hnew⟩ | ⟨hqr, hd⟩
    · exact hc d hnew
    · intro version views hviews
      obtain ⟨values, hvalues, hh⟩ := h.scanning q d hd version views hviews
      exact ⟨values, (hscan q hqr).trans hvalues, hh⟩

theorem Simulates.setCall {c : Option AggregateCall}
    (hknown : ∀ d, c = some d → d.after ≤ s.returns.length ∧ d.unreadAtCall ≤ s.unreadReclaims)
    (hc : ∀ d, c = some d → d.scan = none) : Simulates (s.setCall r c) a :=
  h.ofCall rfl (fun _ _ => rfl) hknown fun d hd _ _ hscan => nomatch (hc d hd).symm.trans hscan

theorem Simulates.readVersion (hc : s.call r = some c) (hst : s.readVersionStep r c = some t) :
    Matched t a := by
  unfold readVersionStep at hst
  split_ifs at hst with hnew
  cases hst
  obtain ⟨hafter, hunread⟩ := h.known r c hc
  have hresults : c.after ≤ a.results.length := h.returned.length_eq ▸ hafter
  refine ⟨_, .inr ⟨_, FoldedScan.Step.start r (h.version ▸ hnew.2.2) hresults
    (h.losses ▸ hunread)⟩, ?_⟩
  refine h.ofCall rfl (fun q hq => update_of_ne hq _ _) ?_ ?_
  · intro d hd
    cases hd
    exact ⟨hafter, hunread⟩
  · intro d hd version views hviews
    cases hd
    obtain ⟨rfl, rfl⟩ := Prod.mk.inj (some.inj hviews)
    exact ⟨[], by simp [h.version], .nil⟩

theorem Simulates.readSlot (hc : s.call r = some c) (hst : s.readSlotStep r c = some t) :
    Matched t a := by
  unfold readSlotStep at hst
  split at hst
  · rename_i version views hscan
    split at hst
    · rename_i hlt
      dsimp only at hst
      split_ifs at hst
      cases hst
      obtain ⟨values, hvalues, hh⟩ := h.scanning r c hc version views hscan
      refine ⟨_, .inr ⟨_, FoldedScan.Step.look ⟨views.length, hlt⟩ hvalues
        hh.length_eq.symm⟩, ?_⟩
      refine h.ofCall rfl (fun q hq => update_of_ne hq _ _) ?_ ?_
      · intro d hd
        cases hd
        exact h.known r c hc
      · intro d hd version' views' hviews
        cases hd
        obtain ⟨rfl, rfl⟩ := Prod.mk.inj (some.inj hviews)
        exact ⟨_, update_self r _ a.scan, rel_append hh (.cons (h.slot _) .nil)⟩
    · cases hst
  · cases hst

theorem Simulates.readRetired (hc : s.call r = some c)
    (hst : s.readRetiredStep maxInflight r c = some t) : Matched t a := by
  unfold readRetiredStep at hst
  split at hst
  · rename_i version views hscan
    split_ifs at hst with hfull hversion
    · cases hst
      obtain ⟨hlength, he⟩ := hfull
      obtain ⟨values, hvalues, hh⟩ := h.scanning r c hc version views hscan
      have hlen : values.length = n := hh.length_eq.symm.trans hlength
      refine ⟨_, .inr ⟨_, FoldedScan.Step.finish hvalues hlen
        (hversion.symm.trans h.version.symm)⟩, ?_⟩
      -- The version is even, so the retired slot holds the retired count.
      have hretired : s.retired.fields.Holds a.retired := by
        have hs := h.supervises
        unfold Supervises at hs
        cases hsup : s.supervisor <;> rw [hsup] at hs <;>
          first | exact hs.2.2 | exact hs.1.2.2 | exact absurd he hs.1
      obtain ⟨hrejected, hpeak⟩ := aggregateDict_holds hh hretired maxInflight
      have hcall : Simulates (s.setCall r none) { a with scan := update a.scan r none } :=
        h.ofCall rfl (fun q hq => update_of_ne hq _ _) nofun nofun
      refine { hcall with known := ?_, returned := ?_ }
      · intro q d hd
        obtain ⟨hafter, hunread⟩ := hcall.known q d hd
        exact ⟨hafter.trans (length_append ▸ Nat.le_add_right _ _), hunread⟩
      · refine rel_append h.returned (.cons ?_ .nil)
        exact ⟨hrejected, hpeak, rfl, rfl, h.losses.symm, h.occurred⟩
    · cases hst
      refine .quiet (h.setCall ?_ ?_)
      · intro d hd
        cases hd
        exact h.known r c hc
      · intro d hd
        cases hd
        rfl
    · cases hst
      exact .quiet (h.setCall nofun nofun)
  · cases hst

end

/-! ### Every step -/

omit [DecidableEq ρ] in
theorem ofReady_eq_some {phase : AdmissionPhase → Bool}
    {f : AdmissionPlane → Option (StatsState n ρ)} (h : s.ofReady i phase f = some t) :
    ∃ x, s.plane i = some x ∧ x.ready = true ∧ f x = some t := by
  obtain ⟨x, hx, hst⟩ := bind_eq_some_iff.mp h
  split_ifs at hst with hr
  exact ⟨x, hx, hr.1, hst⟩

theorem Simulates.step {l : StatsAct n ρ} (h : Simulates s a)
    (hst : s.step maxInflight reprobe l = some t) : Matched t a := by
  cases l with
  | spawn i pid => exact .quiet (h.spawn hst)
  | tryAcquire i now =>
    dsimp only [StatsState.step] at hst
    obtain ⟨x, hx, hr, hf⟩ := ofReady_eq_some hst
    cases hf
    exact h.tryAcquire hx hr
  | look i =>
    dsimp only [StatsState.step] at hst
    obtain ⟨x, hx, hr, hf⟩ := ofReady_eq_some hst
    exact h.look hx hr hf
  | lookUnstable i now =>
    dsimp only [StatsState.step] at hst
    obtain ⟨x, hx, hr, hf⟩ := ofReady_eq_some hst
    exact h.lookUnstable hx hr hf
  | decide i =>
    dsimp only [StatsState.step] at hst
    obtain ⟨x, hx, hr, hf⟩ := ofReady_eq_some hst
    exact h.decide hx hr hf
  | release i =>
    dsimp only [StatsState.step] at hst
    obtain ⟨x, hx, hr, hf⟩ := ofReady_eq_some hst
    cases hf
    exact h.release hx hr
  | touch i =>
    dsimp only [StatsState.step] at hst
    obtain ⟨x, hx, hr, hf⟩ := ofReady_eq_some hst
    cases hf
    exact h.touch hx hr
  | mark i =>
    obtain ⟨x, hx, hif⟩ := bind_eq_some_iff.mp hst
    split_ifs at hif with hcalled
    cases hif
    exact .quiet (h.quiet hx hcalled.1 rfl hcalled.1 rfl rfl)
  | store i now =>
    obtain ⟨x, hx, hif⟩ := bind_eq_some_iff.mp hst
    split_ifs at hif with hmarked
    cases hif
    exact h.stores hx hmarked.1
  | exit i =>
    obtain ⟨x, hx, hif⟩ := bind_eq_some_iff.mp hst
    split_ifs at hif with halv
    cases hif
    exact h.exits hx halv
  | reap i =>
    obtain ⟨x, hx, hif⟩ := bind_eq_some_iff.mp hst
    split_ifs at hif with hdead
    cases hif
    have hstl := h.supervises
    simp only [Supervises, hdead.2] at hstl
    exact .quiet { h with supervises := ⟨hstl, x, hx, by simpa using hdead.1⟩ }
  | supervise now => exact h.supervise hst
  | aggregate r =>
    simp only [StatsState.step] at hst
    split_ifs at hst
    cases hst
    refine .quiet (h.setCall ?_ ?_)
    · intro d hd
      cases hd
      exact ⟨le_rfl, le_rfl⟩
    · intro d hd
      cases hd
      rfl
  | readVersion r =>
    obtain ⟨c, hc, hread⟩ := bind_eq_some_iff.mp hst
    exact h.readVersion hc hread
  | readSlot r =>
    obtain ⟨c, hc, hread⟩ := bind_eq_some_iff.mp hst
    exact h.readSlot hc hread
  | readRetired r =>
    obtain ⟨c, hc, hread⟩ := bind_eq_some_iff.mp hst
    exact h.readRetired hc hread
  | unstable r =>
    obtain ⟨c, hc, hend⟩ := bind_eq_some_iff.mp hst
    cases hend
    exact .quiet (h.setCall nofun nofun)

/-- The router runs the folded scan. -/
theorem simulated (h : (statsSystem n ρ maxInflight reprobe).Reachable s) :
    ∃ a, (FoldedScan.system n AdmissionStats ρ).Reachable a ∧ Simulates s a := by
  refine h.simulated (A := FoldedScan.system n AdmissionStats ρ) Simulates ?_
    fun s l t a hsim hst => hsim.step (show s.step maxInflight reprobe l = some t from hst)
  rintro s rfl
  exact ⟨_, rfl, .initial⟩

/-! ### Slots left in the middle of a write -/

section Writing

omit [DecidableEq ρ]

/-- Whether the owner of the slot is between the marker and the end of a write, or died
    there. -/
def ownerMarked (s : StatsState n ρ) (i : Fin n) : Bool :=
  match s.plane i with
  | some x => x.write == .marked
  | none => false

/-- What the supervisor has made of the marker of a slot, if anything. -/
def superviseMark (phase : SupervisorPhase n) (i : Fin n) : Option Bool :=
  match phase with
  | .unreadMarked j | .foldedMarked j _ _ => if j = i then some true else none
  | .reclaimed j _ _ => if j = i then some false else none
  | _ => none

/-- The slot is in the middle of a write. -/
def writing (s : StatsState n ρ) (i : Fin n) : Bool :=
  (superviseMark s.supervisor i).getD (ownerMarked s i)

/-- The sequence of a slot is odd in the middle of a write, and a slot that the supervisor
    gave up reading was left there by its owner. -/
structure SeqInv (s : StatsState n ρ) : Prop where
  slot : ∀ i, Even (s.slot i).seq ↔ writing s i = false
  unread : ∀ i, s.supervisor = .unread i ∨ s.supervisor = .unreadMarked i →
    Dead s i ∧ ownerMarked s i = true

theorem SeqInv.initial : SeqInv (StatsState.initial : StatsState n ρ) where
  slot _ := ⟨fun _ => rfl, fun _ => Even.zero⟩
  unread _ h := by rcases h with h | h <;> cases h

theorem odd_mark (v : SlotView Nat) : ¬ Even v.mark.seq :=
  Nat.not_even_iff.mpr (Seqlock.or_one_odd v.seq)

/-- The supervisor has made nothing of the slot of a living process. -/
theorem Simulates.superviseMark_alive (h : Simulates s a) (hx : s.plane i = some x)
    (halv : x.alive = true) : superviseMark s.supervisor i = none := by
  have hs := h.supervises
  unfold Supervises at hs
  cases hsup : s.supervisor with
  | polling | reaped | unread | read | held | folded => rfl
  | unreadMarked j =>
    rw [hsup] at hs
    exact if_neg (hs.2.ne hx halv).symm
  | foldedMarked j =>
    rw [hsup] at hs
    exact if_neg (hs.2.2.1.ne hx halv).symm
  | reclaimed j =>
    rw [hsup] at hs
    exact if_neg (hs.2.1.ne hx halv).symm

theorem SeqInv.ofPlane {v : SlotView Nat} (rejections highestSum : Nat) (hI : SeqInv s)
    (h : Simulates s a) (hx : s.plane i = some x) (halv : x.alive = true)
    (hv : Even v.seq ↔ (y.write == .marked) = false) :
    SeqInv { s with
      slot := update s.slot i v
      plane := update s.plane i (some y)
      rejections, highestSum } := by
  refine ⟨fun j => ?_, fun j hj => ?_⟩
  · rcases eq_or_ne j i with rfl | hji
    · simpa [writing, ownerMarked, h.superviseMark_alive hx halv] using hv
    · simpa [writing, ownerMarked, hji] using hI.slot j
  · obtain ⟨hdead, hmarked⟩ := hI.unread j hj
    have hij : i ≠ j := hdead.ne hx halv
    obtain ⟨z, hz, hg⟩ := hdead
    exact ⟨⟨z, by simpa [hij.symm] using hz, hg⟩, by simpa [ownerMarked, hij.symm] using hmarked⟩

theorem SeqInv.setPlane (rejections highestSum : Nat) (hI : SeqInv s) (h : Simulates s a)
    (hx : s.plane i = some x) (halv : x.alive = true)
    (hy : (y.write == .marked) = (x.write == .marked)) :
    SeqInv { s.setPlane i y with rejections, highestSum } := by
  have hsl := hI.slot i
  simp only [writing, h.superviseMark_alive hx halv, getD_none, ownerMarked, hx] at hsl
  have hn := hI.ofPlane rejections highestSum (v := s.slot i) (y := y) h hx halv (hy ▸ hsl)
  simp only [update_eq_self] at hn
  exact hn

theorem SeqInv.ofReady (rejections highestSum : Nat) (hI : SeqInv s) (h : Simulates s a)
    (hx : s.plane i = some x) (hr : x.ready = true) (hy : y.write ≠ .marked) :
    SeqInv { s.setPlane i y with rejections, highestSum } := by
  refine hI.setPlane rejections highestSum h hx (ready_alive hr) ?_
  have hidle : x.write = .idle := eq_of_beq (Bool.and_eq_true_iff.mp hr).2
  rw [hidle]
  exact beq_false_of_ne hy

section

variable (hI : SeqInv s) (h : Simulates s a) (hx : s.plane i = some x) (hr : x.ready = true)
include hI h hx hr

theorem SeqInv.tryAcquire {now : Nat} : SeqInv (s.tryAcquireStep reprobe i now x) := by
  have hidle : x.write = .idle := eq_of_beq (Bool.and_eq_true_iff.mp hr).2
  unfold tryAcquireStep
  split_ifs
  · exact hI.ofReady (s.rejections + 1) s.highestSum h hx hr nofun
  · exact hI.ofReady s.rejections s.highestSum h hx hr (hidle ▸ nofun)
  · exact ⟨hI.slot, hI.unread⟩

theorem SeqInv.look (hst : s.lookStep i x = some t) : SeqInv t := by
  have hidle : x.write = .idle := eq_of_beq (Bool.and_eq_true_iff.mp hr).2
  unfold lookStep at hst
  split at hst
  · split at hst
    · dsimp only at hst
      split_ifs at hst
      cases hst
      exact hI.ofReady s.rejections s.highestSum h hx hr (hidle ▸ nofun)
    · cases hst
  · cases hst

theorem SeqInv.decide (hst : s.decideStep maxInflight i x = some t) : SeqInv t := by
  unfold decideStep at hst
  split at hst
  · split_ifs at hst
    · cases hst
      exact hI.ofReady (s.rejections + 1) s.highestSum h hx hr nofun
    · cases hst
      exact hI.ofReady s.rejections _ h hx hr nofun
  · cases hst

end

theorem SeqInv.slot_of {slot : Fin n → SlotView Nat} {phase : SupervisorPhase n}
    {owner : Fin n → Bool} (hI : SeqInv s)
    (hother : ∀ j, i ≠ j → slot j = s.slot j ∧
      superviseMark phase j = superviseMark s.supervisor j ∧ owner j = ownerMarked s j)
    (hi : Even (slot i).seq ↔ (superviseMark phase i).getD (owner i) = false) (j : Fin n) :
    Even (slot j).seq ↔ (superviseMark phase j).getD (owner j) = false := by
  rcases eq_or_ne i j with rfl | hij
  · exact hi
  · obtain ⟨hsl, hph, howner⟩ := hother j hij
    rw [hsl, hph, howner]
    exact hI.slot j

theorem ownerMarked_retire {j : Fin n} (hij : i ≠ j) :
    ownerMarked { s with plane := update s.plane i none } j = ownerMarked s j := by
  simp [ownerMarked, hij.symm]

theorem SeqInv.supervise {now : Nat} (hI : SeqInv s) (h : Simulates s a)
    (hst : s.superviseStep now = some t) : SeqInv t := by
  have hs := h.supervises
  unfold Supervises at hs
  unfold superviseStep at hst
  cases hsup : s.supervisor with
  | polling =>
    rw [hsup] at hst
    cases hst
  | reaped i =>
    rw [hsup] at hs hst
    have hsl := hI.slot
    simp only [writing, hsup, superviseMark, getD_none] at hsl
    dsimp only at hst
    split_ifs at hst with he
    · cases hst
      exact ⟨hsl, nofun⟩
    · -- The retired slot is even, so it is the slot of the dead process that is not.
      cases hst
      refine ⟨hsl, fun j hj => ?_⟩
      obtain rfl : i = j := by simpa using hj
      refine ⟨hs.2, Bool.eq_true_of_not_eq_false fun hfree => ?_⟩
      exact he ⟨(hsl i).mpr hfree, hs.1.1⟩
  | unread i =>
    rw [hsup] at hs hst
    cases hst
    refine ⟨hI.slot_of (i := i) (fun j hij => ?_) ?_, fun j hj => ?_⟩
    · simp [setSlot, superviseMark, hsup, hij, hij.symm, ownerMarked]
    · simp [setSlot, superviseMark, odd_mark]
    · obtain rfl : i = j := by simpa using hj
      exact hI.unread i (.inl hsup)
  | unreadMarked i =>
    rw [hsup] at hs hst
    cases hst
    have hodd : ¬ Even (s.slot i).seq := fun he => by
      simpa [writing, hsup, superviseMark] using (hI.slot i).mp he
    refine ⟨hI.slot_of (i := i) (fun j hij => ?_) ?_, nofun⟩
    · exact ⟨by simp [setSlot, hij.symm], by simp [superviseMark, hsup, hij],
        ownerMarked_retire hij⟩
    · simp [setSlot, superviseMark, ownerMarked, SlotView.store, Nat.even_add_one, hodd]
  | read i view accumulated | held i view accumulated =>
    rw [hsup] at hs hst
    cases hst
    refine ⟨hI.slot_of (i := i) (fun j hij => ⟨rfl, by simp [superviseMark, hsup], rfl⟩) ?_, nofun⟩
    have hsl := hI.slot i
    simp only [writing, hsup, superviseMark, getD_none] at hsl
    exact hsl
  | folded i view accumulated =>
    rw [hsup] at hs hst
    cases hst
    refine ⟨hI.slot_of (i := i) (fun j hij => ?_) ?_, nofun⟩
    · simp [setSlot, superviseMark, hsup, hij, hij.symm, ownerMarked]
    · simp [setSlot, superviseMark, odd_mark]
  | foldedMarked i view accumulated =>
    rw [hsup] at hs hst
    cases hst
    have hodd : ¬ Even (s.slot i).seq := fun he => by
      simpa [writing, hsup, superviseMark] using (hI.slot i).mp he
    refine ⟨hI.slot_of (i := i) (fun j hij => ?_) ?_, nofun⟩
    · exact ⟨by simp [setSlot, hij.symm], by simp [superviseMark, hsup, hij], rfl⟩
    · simp [setSlot, superviseMark, SlotView.store, Nat.even_add_one, hodd]
  | reclaimed i view accumulated =>
    rw [hsup] at hs hst
    cases hst
    have he : Even (s.slot i).seq := by
      refine (hI.slot i).mpr ?_
      simp [writing, hsup, superviseMark]
    refine ⟨hI.slot_of (i := i) (fun j hij => ?_) ?_, nofun⟩
    · exact ⟨rfl, by simp [superviseMark, hsup, hij], ownerMarked_retire hij⟩
    · simp [superviseMark, ownerMarked, he]

theorem SeqInv.step {l : StatsAct n ρ} (hI : SeqInv s) (h : Simulates s a)
    [DecidableEq ρ] (hst : s.step maxInflight reprobe l = some t) : SeqInv t := by
  cases l with
  | spawn i pid =>
    dsimp only [StatsState.step, spawnStep] at hst
    split_ifs at hst with hfree
    cases hst
    refine ⟨fun j => ?_, fun j hj => ?_⟩
    · rcases eq_or_ne j i with rfl | hji
      · have hcalled : (WriteStage.called == WriteStage.marked) = false := rfl
        simpa [writing, ownerMarked, hfree, hcalled] using hI.slot j
      · simpa [writing, ownerMarked, hji] using hI.slot j
    · simp [hfree.1] at hj
  | tryAcquire i now =>
    dsimp only [StatsState.step] at hst
    obtain ⟨x, hx, hr, hf⟩ := ofReady_eq_some hst
    cases hf
    exact hI.tryAcquire h hx hr
  | look i =>
    dsimp only [StatsState.step] at hst
    obtain ⟨x, hx, hr, hf⟩ := ofReady_eq_some hst
    exact hI.look h hx hr hf
  | lookUnstable i now =>
    dsimp only [StatsState.step] at hst
    obtain ⟨x, hx, hr, hf⟩ := ofReady_eq_some hst
    unfold lookUnstableStep at hf
    split at hf
    · cases hf
      exact hI.ofReady (s.rejections + 1) s.highestSum h hx hr nofun
    · cases hf
  | decide i =>
    dsimp only [StatsState.step] at hst
    obtain ⟨x, hx, hr, hf⟩ := ofReady_eq_some hst
    exact hI.decide h hx hr hf
  | release i =>
    dsimp only [StatsState.step] at hst
    obtain ⟨x, hx, hr, hf⟩ := ofReady_eq_some hst
    cases hf
    unfold releaseStep
    split_ifs
    · exact hI.ofReady s.rejections s.highestSum h hx hr nofun
    · exact hI
  | touch i =>
    dsimp only [StatsState.step] at hst
    obtain ⟨x, hx, hr, hf⟩ := ofReady_eq_some hst
    cases hf
    unfold touchStep
    split_ifs
    · exact hI.ofReady s.rejections s.highestSum h hx hr nofun
    · exact hI
  | mark i =>
    obtain ⟨x, hx, hif⟩ := bind_eq_some_iff.mp hst
    split_ifs at hif with hcalled
    cases hif
    exact hI.ofPlane s.rejections s.highestSum h hx hcalled.1
      ⟨fun he => absurd he (odd_mark _), nofun⟩
  | store i now =>
    obtain ⟨x, hx, hif⟩ := bind_eq_some_iff.mp hst
    split_ifs at hif with hmarked
    cases hif
    have hsl := hI.slot i
    simp only [writing, h.superviseMark_alive hx hmarked.1, getD_none, ownerMarked, hx,
      hmarked.2] at hsl
    refine hI.ofPlane s.rejections s.highestSum h hx hmarked.1 ⟨fun _ => rfl, fun _ => ?_⟩
    exact Nat.even_add_one.mpr fun he => nomatch hsl.mp he
  | exit i =>
    obtain ⟨x, hx, hif⟩ := bind_eq_some_iff.mp hst
    split_ifs at hif with halv
    cases hif
    exact hI.setPlane s.rejections s.highestSum h hx halv rfl
  | reap i =>
    obtain ⟨x, hx, hif⟩ := bind_eq_some_iff.mp hst
    split_ifs at hif with hdead
    cases hif
    refine ⟨fun j => ?_, fun j hj => ?_⟩
    · simpa [writing, ownerMarked, superviseMark, hdead.2] using hI.slot j
    · simp at hj
  | supervise now => exact hI.supervise h hst
  | aggregate r =>
    dsimp only [StatsState.step] at hst
    split_ifs at hst
    cases hst
    exact ⟨hI.slot, hI.unread⟩
  | readVersion r =>
    obtain ⟨c, hc, hread⟩ := bind_eq_some_iff.mp hst
    unfold readVersionStep at hread
    split_ifs at hread
    cases hread
    exact ⟨hI.slot, hI.unread⟩
  | readSlot r =>
    obtain ⟨c, hc, hread⟩ := bind_eq_some_iff.mp hst
    unfold readSlotStep at hread
    split at hread
    · split at hread
      · dsimp only at hread
        split_ifs at hread
        cases hread
        exact ⟨hI.slot, hI.unread⟩
      · cases hread
    · cases hread
  | readRetired r =>
    obtain ⟨c, hc, hread⟩ := bind_eq_some_iff.mp hst
    unfold readRetiredStep at hread
    split at hread
    · split_ifs at hread <;> cases hread <;> exact ⟨hI.slot, hI.unread⟩
    · cases hread
  | unstable r =>
    obtain ⟨c, hc, hend⟩ := bind_eq_some_iff.mp hst
    cases hend
    exact ⟨hI.slot, hI.unread⟩

end Writing

theorem SeqInv.of_reachable (h : (statsSystem n ρ maxInflight reprobe).Reachable s) : SeqInv s := by
  refine (h.invariant (P := fun s => SeqInv s ∧ ∃ a, Simulates s a) ?_ ?_).1
  · rintro s rfl
    exact ⟨.initial, _, .initial⟩
  · rintro s l t ⟨hI, a, hsim⟩ hst
    obtain ⟨b, _, hb⟩ := hsim.step (show s.step maxInflight reprobe l = some t from hst)
    exact ⟨hI.step hsim hst, b, hb⟩

end AggregateReads

/-! ## Aggregate statistics -/

/-- **Aggregates are sound, and lose only what could not be read.** A call returns no more
    rejections than occurred, and no higher peak than was observed. A call made after another
    had returned returns no less than that one, unless a slot was reclaimed unread between
    the start of the first and the return of the second; the owner of such a slot died in the
    middle of a write of it. -/
theorem aggregate_stats_sound {n : Nat} {ρ : Type} [DecidableEq ρ] {maxInflight reprobe : Nat}
    {s : StatsState n ρ} (h : (statsSystem n ρ maxInflight reprobe).Reachable s) :
    (∀ y ∈ s.returns,
      y.dict.rejectedTotal ≤ y.rejections ∧ y.dict.peakInflight ≤ y.highestSum) ∧
    (∀ (j : Nat) (x y : AggregateReturn), s.returns[j]? = some x → y ∈ s.returns →
      j < y.after → x.unreadAtCall = y.unreadAtReturn →
        x.dict.rejectedTotal ≤ y.dict.rejectedTotal ∧
        x.dict.peakInflight ≤ y.dict.peakInflight) ∧
    ∀ i, s.supervisor = .unreadMarked i →
      ∃ x, s.plane i = some x ∧ x.alive = false ∧ x.write = .marked := by
  obtain ⟨a, ha, hsim⟩ := AggregateReads.simulated h
  -- A return is a result of the folded scan, at the same place.
  have hmem : ∀ y ∈ s.returns, ∃ v ∈ a.results, AggregateReads.Returned y v := by
    intro y hy
    obtain ⟨k, hk, rfl⟩ := getElem_of_mem hy
    have hk' : k < a.results.length := hsim.returned.length_eq ▸ hk
    exact ⟨a.results[k], getElem_mem hk', hsim.returned.get hk hk'⟩
  refine ⟨fun y hy => ?_, fun j x y hx hy hj hepoch => ?_, fun i hi => ?_⟩
  · obtain ⟨v, hv, hret⟩ := hmem y hy
    obtain ⟨hrejected, hpeak⟩ := FoldedScan.value_le_occurred ha hv
    rw [hret.rejected, hret.peak]
    exact ⟨Int.ofNat_le.mpr (hrejected.trans hret.occurred.1),
      Int.ofNat_le.mpr (hpeak.trans hret.occurred.2)⟩
  · obtain ⟨hj', rfl⟩ := List.getElem?_eq_some_iff.mp hx
    have hlt : j < a.results.length := hsim.returned.length_eq ▸ hj'
    have hxret : AggregateReads.Returned s.returns[j] a.results[j] := hsim.returned.get hj' hlt
    obtain ⟨v, hv, hret⟩ := hmem y hy
    obtain ⟨hrejected, hpeak⟩ := FoldedScan.value_le_value ha (getElem?_eq_getElem hlt) hv
      (hret.after ▸ hj) (hxret.epoch.symm.trans (hepoch.trans hret.epochEnd))
    rw [hxret.rejected, hret.rejected, hxret.peak, hret.peak]
    exact ⟨Int.ofNat_le.mpr hrejected, Int.ofNat_le.mpr hpeak⟩
  · obtain ⟨⟨x, hx, hdead⟩, hmarked⟩ :=
      (AggregateReads.SeqInv.of_reachable h).unread i (.inr hi)
    refine ⟨x, hx, hdead, ?_⟩
    simpa [AggregateReads.ownerMarked, hx] using hmarked

local instance neZeroOne : NeZero 1 := ⟨one_ne_zero⟩

/-- One data plane that sheds a request, and one aggregate read. -/
def exShedAndRead : List (StatsAct 1 Unit) :=
  [.spawn 0 7, .mark 0, .store 0 0, .tryAcquire 0 1, .look 0, .decide 0, .mark 0, .store 0 1,
    .aggregate (), .readVersion (), .readSlot (), .readRetired ()]

/-- The process dies idle, its slot is folded, and a second read begins. -/
def exFold : List (StatsAct 1 Unit) :=
  [.exit 0, .reap 0, .supervise 2, .supervise 2, .supervise 2, .supervise 2, .supervise 2,
    .supervise 2, .aggregate (), .readVersion (), .readSlot (), .readRetired ()]

/-- The process dies in the middle of a write, its slot is reclaimed unread, and a second
    read begins. -/
def exUnread : List (StatsAct 1 Unit) :=
  [.touch 0, .mark 0, .exit 0, .reap 0, .supervise 2, .supervise 2, .supervise 2,
    .aggregate (), .readVersion (), .readSlot (), .readRetired ()]

theorem reachable_of_exec_stats {labels : List (StatsAct 1 Unit)} {s : StatsState 1 Unit}
    (h : System.exec (fun s a => s.step 0 0 a) .initial labels = some s) :
    (statsSystem 1 Unit 0 0).Reachable s := .of_exec (.init rfl) h

/-- The two reads around a fold return the same count. -/
theorem aggregate_stats_sound_fold : ∃ s : StatsState 1 Unit,
    s.returns.map (fun y => (y.dict.rejectedTotal, y.after)) = [(1, 0), (1, 1)] ∧
    (∀ y ∈ s.returns,
      y.dict.rejectedTotal ≤ y.rejections ∧ y.dict.peakInflight ≤ y.highestSum) ∧
    (∀ (j : Nat) (x y : AggregateReturn), s.returns[j]? = some x → y ∈ s.returns →
      j < y.after → x.unreadAtCall = y.unreadAtReturn →
        x.dict.rejectedTotal ≤ y.dict.rejectedTotal ∧
        x.dict.peakInflight ≤ y.dict.peakInflight) ∧
    ∀ i, s.supervisor = .unreadMarked i →
      ∃ x, s.plane i = some x ∧ x.alive = false ∧ x.write = .marked := by
  have hrun : (System.exec (fun s a => StatsState.step 0 0 s a) .initial
      (exShedAndRead ++ exFold)).map
        (fun s => s.returns.map fun y => (y.dict.rejectedTotal, y.after))
      = some [(1, 0), (1, 1)] := by decide +kernel
  obtain ⟨s, hs, hval⟩ := map_eq_some_iff.mp hrun
  exact ⟨s, hval, aggregate_stats_sound (reachable_of_exec_stats hs)⟩

/-- After a slot was reclaimed unread, a later read returns less. -/
theorem unread_reclaim_decreases : ¬ ∀ s : StatsState 1 Unit,
    (statsSystem 1 Unit 0 0).Reachable s →
      ∀ (j : Nat) (x y : AggregateReturn), s.returns[j]? = some x → y ∈ s.returns →
        j < y.after → x.dict.rejectedTotal ≤ y.dict.rejectedTotal := by
  intro h
  have hrun : (System.exec (fun s a => StatsState.step 0 0 s a) .initial
      (exShedAndRead ++ exUnread)).map returns
      = some [⟨⟨0, 0, 0, 1⟩, 0, 0, 0, 1, 0⟩, ⟨⟨0, 0, 0, 0⟩, 1, 1, 1, 1, 0⟩] := by
    decide +kernel
  obtain ⟨s, hs, hval⟩ := map_eq_some_iff.mp hrun
  have hle := h s (reachable_of_exec_stats hs) 0 _ ⟨⟨0, 0, 0, 0⟩, 1, 1, 1, 1, 0⟩
    (by rw [hval]; rfl) (by rw [hval]; simp) one_pos
  exact absurd hle (by decide)

end OmniRealtime
