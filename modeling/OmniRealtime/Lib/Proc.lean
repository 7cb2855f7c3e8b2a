import Mathlib

/-!
# Tasks that may raise

A task over a state that returns or raises, with `try`/`except`/`else` and `finally`, and
the rules of pre- and postconditions for it. A postcondition is about the state a task
ends in and how it ends: an exception is not a failure.
-/

namespace OmniRealtime

/-- A task over states `σ` that returns an `α` or raises an `ε`. -/
def Proc (σ ε α : Type) : Type := σ → Except ε α × σ

namespace Proc

variable {σ ε α β : Type}

def ret (a : α) : Proc σ ε α := fun s => (.ok a, s)

def raise (e : ε) : Proc σ ε α := fun s => (.error e, s)

def modify (f : σ → σ) : Proc σ ε Unit := fun s => (.ok (), f s)

/-- A value of the state. -/
def asks (f : σ → α) : Proc σ ε α := fun s => (.ok (f s), s)

/-- A computation that may raise and leaves the state alone. -/
def lift (x : Except ε α) : Proc σ ε α := fun s => (x, s)

/-- `try: m`, `except` the exceptions in `p`: `handler`, `else: rest`. Neither `handler` nor
    `rest` is in the scope of the `try`. -/
def tryElse (m : Proc σ ε α) (p : ε → Bool) (handler : ε → Proc σ ε β) (rest : α → Proc σ ε β) :
    Proc σ ε β := fun s =>
  match m s with
  | (.ok a, t) => rest a t
  | (.error e, t) => if p e then handler e t else (.error e, t)

/-- One task after the other. -/
def andThen (m : Proc σ ε α) (rest : α → Proc σ ε β) : Proc σ ε β :=
  tryElse m (fun _ => false) raise rest

/-- `try: m finally: cleanup`: an exception of `cleanup` replaces the outcome of `m`. -/
def ensure (m : Proc σ ε α) (cleanup : Proc σ ε Unit) : Proc σ ε α := fun s =>
  match m s with
  | (outcome, t) =>
    match cleanup t with
    | (.ok (), u) => (outcome, u)
    | (.error e, u) => (.error e, u)

/-- An `await`, or a call, that ends as the environment says: it raises, or not. -/
def await : Option ε → Proc σ ε Unit
  | none => ret ()
  | some e => raise e

@[simp] theorem await_none : (await none : Proc σ ε Unit) = ret () := rfl

@[simp] theorem await_some (e : ε) : await (some e) = (raise e : Proc σ ε Unit) := rfl

@[simp] theorem tryElse_ret (a : α) (p : ε → Bool) (handler : ε → Proc σ ε β)
    (rest : α → Proc σ ε β) : tryElse (ret a) p handler rest = rest a := rfl

@[simp] theorem tryElse_raise (e : ε) (p : ε → Bool) (handler : ε → Proc σ ε β)
    (rest : α → Proc σ ε β) :
    tryElse (raise e) p handler rest = if p e then handler e else raise e := by
  funext s
  show (if p e then handler e s else (.error e, s)) = (if p e then handler e else raise e) s
  split <;> rfl

@[simp] theorem andThen_ret (a : α) (rest : α → Proc σ ε β) : andThen (ret a) rest = rest a := rfl

@[simp] theorem andThen_raise (e : ε) (rest : α → Proc σ ε β) :
    andThen (raise e) rest = raise e := rfl

theorem andThen_of_ok {m : Proc σ ε α} {s t : σ} {a : α} (h : m s = (.ok a, t))
    (rest : α → Proc σ ε β) : andThen m rest s = rest a t := by
  unfold andThen tryElse
  rw [h]

theorem andThen_of_error {m : Proc σ ε α} {s t : σ} {e : ε} (h : m s = (.error e, t))
    (rest : α → Proc σ ε β) : andThen m rest s = (.error e, t) := by
  unfold andThen tryElse
  rw [h]
  rfl

/-! ## Rules -/

/-- From a state in `P`, the task ends in a way and a state in `Q`. -/
def Triple (P : σ → Prop) (m : Proc σ ε α) (Q : Except ε α → σ → Prop) : Prop :=
  ∀ s, P s → Q (m s).1 (m s).2

namespace Triple

variable {P P' : σ → Prop} {m : Proc σ ε α} {Q Q' : Except ε α → σ → Prop}
  {R : Except ε β → σ → Prop}

theorem conseq (h : Triple P m Q) (hP : ∀ s, P' s → P s) (hQ : ∀ r s, Q r s → Q' r s) :
    Triple P' m Q' := fun s hs => hQ _ _ (h s (hP s hs))

theorem post (h : Triple P m Q) (hQ : ∀ r s, Q r s → Q' r s) : Triple P m Q' :=
  h.conseq (fun _ hs => hs) hQ

theorem ret {a : α} (h : ∀ s, P s → Q (.ok a) s) : Triple P (Proc.ret a) Q := h

theorem raise {e : ε} (h : ∀ s, P s → Q (.error e) s) : Triple P (Proc.raise e) Q := h

theorem modify {f : σ → σ} {Q : Except ε Unit → σ → Prop} (h : ∀ s, P s → Q (.ok ()) (f s)) :
    Triple P (Proc.modify f) Q := h

theorem asks {f : σ → α} (h : ∀ s, P s → Q (.ok (f s)) s) : Triple P (Proc.asks f) Q := h

theorem lift {x : Except ε α} (h : ∀ s, P s → Q x s) : Triple P (Proc.lift x) Q := h

theorem await {o : Option ε} {Q : Except ε Unit → σ → Prop}
    (hok : o = none → ∀ s, P s → Q (.ok ()) s)
    (hraise : ∀ e, o = some e → ∀ s, P s → Q (.error e) s) : Triple P (Proc.await o) Q := by
  cases o with
  | none => exact hok rfl
  | some e => exact hraise e rfl

theorem tryElse {p : ε → Bool} {handler : ε → Proc σ ε β} {rest : α → Proc σ ε β}
    (hm : Triple P m Q) (hrest : ∀ a, Triple (Q (.ok a)) (rest a) R)
    (hcaught : ∀ e, p e = true → Triple (Q (.error e)) (handler e) R)
    (hpassed : ∀ e, p e = false → ∀ s, Q (.error e) s → R (.error e) s) :
    Triple P (Proc.tryElse m p handler rest) R := by
  intro s hs
  have hend := hm s hs
  unfold Proc.tryElse
  split
  · next a t heq =>
    rw [heq] at hend
    exact hrest a t hend
  · next e t heq =>
    rw [heq] at hend
    split
    · next hp => exact hcaught e hp t hend
    · next hp => exact hpassed e (Bool.eq_false_iff.mpr hp) t hend

theorem andThen {rest : α → Proc σ ε β} (hm : Triple P m Q)
    (hrest : ∀ a, Triple (Q (.ok a)) (rest a) R)
    (hraised : ∀ e s, Q (.error e) s → R (.error e) s) : Triple P (Proc.andThen m rest) R :=
  hm.tryElse hrest (fun _ hp => absurd hp Bool.false_ne_true) fun e _ s => hraised e s

theorem ensure {cleanup : Proc σ ε Unit} (hm : Triple P m Q)
    (hcln : ∀ r, Triple (Q r) cleanup fun c s => match c with
      | .ok () => Q' r s
      | .error e => Q' (.error e) s) : Triple P (Proc.ensure m cleanup) Q' := by
  intro s hs
  have hend := hcln (m s).1 (m s).2 (hm s hs)
  unfold Proc.ensure
  split
  next r t heq =>
  rw [heq] at hend
  split
  · next u hu =>
    rw [hu] at hend
    exact hend
  · next e u hu =>
    rw [hu] at hend
    exact hend

end Triple

end Proc

end OmniRealtime
