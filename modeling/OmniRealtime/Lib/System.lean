import Mathlib

/-!
# Labelled transition systems

A `System` has initial states and a labelled step relation. A safety result is
proved once per step and lifted to runs here.

1. `Run.invariant`: what every step preserves holds along every run.
2. `Reachable.invariant`: the same from the initial states.
3. `Reachable.simulated`: what simulates a system step by step, stuttering allowed,
   has a related state for every reachable one.
4. `Reachable.of_exec`: where the step is a function, the state a list of labels leads
   to is reachable.
5. `restrict`: the system whose steps all meet a side condition; its runs are
   runs of the original system (`Run.of_restrict`). `Run.restrict_iff`: when two side
   conditions restrict to the same runs.
-/

namespace OmniRealtime

open Option

universe u v w x

/-! ## Guarded steps -/

/-- A step behind a guard is taken where the guard holds. -/
theorem of_guard {α : Type*} {p : Prop} [Decidable p] {a b : α}
    (h : (if p then some a else none) = some b) : p ∧ a = b := by
  obtain ⟨hp, hab⟩ := ite_none_right_eq_some.mp h
  exact ⟨hp, Option.some.inj hab⟩

/-- A step behind an early return is taken where the function does not return. -/
theorem of_not_guard {α : Type*} {p : Prop} [Decidable p] {a b : α}
    (h : (if p then none else some a) = some b) : ¬p ∧ a = b := by
  obtain ⟨hp, hab⟩ := ite_none_left_eq_some.mp h
  exact ⟨hp, Option.some.inj hab⟩

/-! ## Systems -/

/-- A labelled transition system over states `σ` and labels `ι`. -/
structure System (σ : Type u) (ι : Type v) where
  init : σ → Prop
  step : σ → ι → σ → Prop

namespace System

variable {σ : Type u} {ι : Type v} {S : System σ ι} {f : σ → ι → Option σ} {ls : List ι}
  {C D : σ → ι → Prop} {s t : σ} {P : σ → Prop}

/-- `S.Run s ls t`: the labels `ls`, in order, lead from `s` to `t`. -/
inductive Run (S : System σ ι) : σ → List ι → σ → Prop
  | nil (s : σ) : Run S s [] s
  | snoc {s t u : σ} {ls : List ι} {l : ι} :
      Run S s ls t → S.step t l u → Run S s (ls ++ [l]) u

/-- `s` is reached by some run from an initial state. -/
def Reachable (S : System σ ι) (s : σ) : Prop :=
  ∃ s₀ ls, S.init s₀ ∧ S.Run s₀ ls s

/-- The system whose step is a partial function. -/
def ofFun (init : σ → Prop) (f : σ → ι → Option σ) : System σ ι where
  init := init
  step s l t := f s l = some t

/-- The labels in order; `none` when one of them cannot be taken. -/
def exec (f : σ → ι → Option σ) : σ → List ι → Option σ
  | s, [] => some s
  | s, l :: ls => (f s l).bind fun t => exec f t ls

/-- The system whose steps all meet the side condition `C`. -/
def restrict (S : System σ ι) (C : σ → ι → Prop) : System σ ι where
  init := S.init
  step s l t := S.step s l t ∧ C s l

/-! ## Invariants -/

theorem Run.invariant (hstep : ∀ s l t, P s → S.step s l t → P t) (hrun : S.Run s ls t) (hs : P s) :
    P t := by
  induction hrun with
  | nil => exact hs
  | snoc _ hlast ih => exact hstep _ _ _ ih hlast

theorem Reachable.init {s : σ} (h : S.init s) : S.Reachable s :=
  ⟨s, [], h, .nil s⟩

theorem Reachable.step {l : ι} (h : S.Reachable s) (hst : S.step s l t) : S.Reachable t := by
  obtain ⟨s₀, ls, h₀, hrun⟩ := h
  exact ⟨s₀, ls ++ [l], h₀, hrun.snoc hst⟩

theorem Reachable.invariant (hinit : ∀ s, S.init s → P s)
    (hstep : ∀ s l t, P s → S.step s l t → P t) {s : σ} (h : S.Reachable s) : P s := by
  obtain ⟨s₀, _, h₀, hrun⟩ := h
  exact hrun.invariant hstep (hinit s₀ h₀)

theorem Reachable.of_exec {init : σ → Prop} (h : (ofFun init f).Reachable s)
    (hrun : exec f s ls = some t) : (ofFun init f).Reachable t := by
  induction ls generalizing s with
  | nil => exact Option.some.inj hrun ▸ h
  | cons l ls ih =>
    obtain ⟨u, hstep, hrest⟩ := bind_eq_some_iff.mp hrun
    exact ih (h.step (l := l) hstep) hrest

/-! ## Simulation -/

/-- Every step of `S` from related states is matched by at most one step of `A`. -/
theorem Reachable.simulated {α : Type w} {κ : Type x} {A : System α κ} (R : σ → α → Prop)
    (hinit : ∀ s, S.init s → ∃ a, A.init a ∧ R s a)
    (hstep : ∀ s l t a, R s a → S.step s l t → ∃ b, (b = a ∨ ∃ k, A.step a k b) ∧ R t b) {s : σ}
    (h : S.Reachable s) : ∃ a, A.Reachable a ∧ R s a := by
  refine h.invariant (P := fun s => ∃ a, A.Reachable a ∧ R s a) ?_ ?_
  · intro s hs
    obtain ⟨a, ha, hR⟩ := hinit s hs
    exact ⟨a, .init ha, hR⟩
  · rintro s l t ⟨a, ha, hR⟩ hst
    obtain ⟨b, rfl | ⟨k, hk⟩, hR'⟩ := hstep s l t a hR hst
    · exact ⟨b, ha, hR'⟩
    · exact ⟨b, ha.step hk, hR'⟩

/-! ## Runs of a restricted system -/

theorem Run.of_restrict {C : σ → ι → Prop} (h : (S.restrict C).Run s ls t) : S.Run s ls t := by
  induction h with
  | nil => exact .nil _
  | snoc _ hlast ih => exact ih.snoc hlast.1

/-- A weaker side condition reaches no fewer states. -/
theorem Reachable.restrict_mono (hCD : ∀ s l, C s l → D s l) {s : σ}
    (h : (S.restrict C).Reachable s) : (S.restrict D).Reachable s := by
  obtain ⟨s₀, ls, h₀, hrun⟩ := h
  refine ⟨s₀, ls, h₀, ?_⟩
  induction hrun with
  | nil => exact .nil _
  | snoc _ hlast ih => exact ih.snoc ⟨hlast.1, hCD _ _ hlast.2⟩

theorem Reachable.restrict_restrict {S : System σ ι} {C D : σ → ι → Prop} {s : σ}
    (h : (S.restrict fun s l => C s l ∧ D s l).Reachable s) :
    ((S.restrict C).restrict D).Reachable s := by
  obtain ⟨s₀, ls, h₀, hrun⟩ := h
  refine ⟨s₀, ls, h₀, ?_⟩
  induction hrun with
  | nil => exact .nil _
  | snoc _ hlast ih => exact ih.snoc ⟨⟨hlast.1, hlast.2.1⟩, hlast.2.2⟩

/-- Where two side conditions agree on the steps from invariant states, and the first keeps the
    invariant, they restrict to the same runs. -/
theorem Run.restrict_iff (hP : ∀ s l t, P s → S.step s l t → C s l → P t)
    (hCD : ∀ s l t, P s → S.step s l t → (C s l ↔ D s l)) (hs : P s) :
    (S.restrict C).Run s ls t ↔ (S.restrict D).Run s ls t := by
  have hstep : ∀ a l b, P a → (S.restrict C).step a l b → P b :=
    fun a l b ha hab => hP a l b ha hab.1 hab.2
  constructor
  · intro hrun
    induction hrun with
    | nil => exact .nil _
    | snoc hbef hlast ih =>
      exact ih.snoc ⟨hlast.1, (hCD _ _ _ (hbef.invariant hstep hs) hlast.1).mp hlast.2⟩
  · intro hrun
    induction hrun with
    | nil => exact .nil _
    | snoc _ hlast ih =>
      exact ih.snoc ⟨hlast.1, (hCD _ _ _ (ih.invariant hstep hs) hlast.1).mpr hlast.2⟩

/-- A list of labels that meet the side condition in every state. -/
theorem Reachable.of_exec_restrict {init : σ → Prop} {C : σ → ι → Prop}
    (h : ((ofFun init f).restrict C).Reachable s) (hC : ∀ l ∈ ls, ∀ u, C u l)
    (hrun : exec f s ls = some t) : ((ofFun init f).restrict C).Reachable t := by
  induction ls generalizing s with
  | nil => exact Option.some.inj hrun ▸ h
  | cons l ls ih =>
    obtain ⟨u, hstep, hrest⟩ := bind_eq_some_iff.mp hrun
    have hu := h.step (l := l) ⟨hstep, hC l List.mem_cons_self s⟩
    exact ih hu (fun l' hl' => hC l' (List.mem_cons_of_mem l hl')) hrest

/-- A list of labels whose steps are checked against the side condition one by one. -/
theorem Reachable.of_exec_guarded {init : σ → Prop} {C : σ → ι → Prop} [∀ s l, Decidable (C s l)]
    (h : ((ofFun init f).restrict C).Reachable s)
    (hrun : exec (fun s l => if C s l then f s l else none) s ls = some t) :
    ((ofFun init f).restrict C).Reachable t := by
  induction ls generalizing s with
  | nil => exact Option.some.inj hrun ▸ h
  | cons l ls ih =>
    obtain ⟨u, hgrd, hrest⟩ := bind_eq_some_iff.mp hrun
    obtain ⟨hC, hstep⟩ := ite_none_right_eq_some.mp hgrd
    exact ih (h.step (l := l) ⟨hstep, hC⟩) hrest

end System

/-! ## Partial maps -/

/-- A value of an updated map is the new one, or an old one of another key. -/
theorem update_eq_some {α : Type u} {β : Type v} [DecidableEq α] {f : α → Option β} {a b : α}
    {v : Option β} {x : β} (h : Function.update f a v b = some x) :
    b = a ∧ v = some x ∨ b ≠ a ∧ f b = some x := by
  by_cases hba : b = a
  · subst hba
    exact .inl ⟨rfl, by simpa using h⟩
  · exact .inr ⟨hba, by simpa [hba] using h⟩

end OmniRealtime
