import OmniRealtime.Lib.System

/-!
# Reference encoding

`ReferenceEncodeService` of `scheduling/reference_encoder.py`: calls of `get_or_encode`, which share
an encode by its key, and the worker that encodes the items of leaders in batches. What the lock
holds together is a step, as is each operation on the batch queue or on a future. What hooks do (an
encode, a revalidation, a load that raises) is a choice of the run.

A call names itself, its item, and the futures it creates.

1. `callStep`, `batchStep`: the calls and the batch worker.
2. `callStep_eq_some`, `batchStep_eq_some`: what a step can do.
3. `CallMove.rank_lt`, `BatchMove.work_lt`: calls end, and the worker alone ends.
-/

namespace OmniRealtime

open List Option Function

namespace ReferenceFlights

variable {κ α σ : Type}

/-! ## The service -/

/-- Where a call of `get_or_encode` is. The item of an uncacheable call has no key. -/
inductive Call (κ α σ : Type)
  | lookup (key : κ)
  | following (key : κ) (leader : Nat)
  /-- `_encode_leader`. -/
  | encoding (key : Option κ)
  /-- The item was handed to the batch worker. -/
  | waiting (key : Option κ)
  | storing (key : κ) (artifact : α)
  | revalidating (key : κ) (stored : σ)
  | committing (key : κ) (stored : σ) (shouldCache : Bool)
  /-- An exception was raised; the in-flight entry is still there. -/
  | failing (key : κ)
  /-- The in-flight entry is gone; the leader's future is to be completed. -/
  | publishing (stored : Option σ)
  | loading (leader : Option Nat) (stored : σ)
  | returned (leader : Option Nat) (stored : σ)
  | returnedUncached (artifact : α)
  | raised
deriving DecidableEq, Repr

inductive BatchWorker (α : Type)
  /-- In `_drain_batch`. -/
  | collecting (taken : List Nat)
  | encoding (batch : List Nat) (stopping : Bool)
  | settling (todo : List (Nat × Option α)) (stopping : Bool)
  /-- In `_drain_pending_on_shutdown`. -/
  | draining
  | stopped
  /-- `InvalidStateError` of a future. -/
  | died
deriving DecidableEq, Repr

/-- What a call has done. -/
inductive Mark (κ α σ : Type)
  | encoded (id : Nat) (artifact : α)
  | stored (id : Nat) (artifact : α) (stored : σ)
  /-- `revalidate` was true. -/
  | validated (id : Nat) (key : κ) (stored : σ)
deriving DecidableEq, Repr

/-- The service. Futures are completed with a value, or with an exception (`none`). The batch queue
    holds items and shutdown sentinels (`none`). `log` is what calls did, latest first, `handed` are
    the items put into the queue, and `produced` the artifacts that the hook gave the worker, each
    with its item. -/
structure Service (κ α σ : Type) where
  cache : κ → Option σ := fun _ => none
  inflight : κ → Option Nat := fun _ => none
  calls : Nat → Option (Call κ α σ) := fun _ => none
  leaders : Nat → Option (Option σ) := fun _ => none
  queue : List (Option Nat) := []
  worker : BatchWorker α := .collecting []
  futures : Nat → Option (Option α) := fun _ => none
  log : List (Mark κ α σ) := []
  handed : List Nat := []
  produced : List (Nat × α) := []

open Service

def Service.setCall (s : Service κ α σ) (id : Nat) (c : Call κ α σ) : Service κ α σ :=
  { s with calls := Function.update s.calls id (some c) }

/-- A call whose `_encode_leader` has returned or raised. -/
def Call.encoded : Option κ → Option α → Call κ α σ
  | some key, some artifact => .storing key artifact
  | some key, none => .failing key
  | none, some artifact => .returnedUncached artifact
  | none, none => .raised

def Service.finishEncode (s : Service κ α σ) (id : Nat) (key : Option κ) (artifact : Option α) :
    Service κ α σ :=
  { s with log := (artifact.map (Mark.encoded id)).toList ++ s.log }.setCall id
    (.encoded key artifact)

/-- A leader whose future is completed. -/
def Call.published : Option σ → Call κ α σ
  | some stored => .loading none stored
  | none => .raised

def Service.setWorker (s : Service κ α σ) (worker : BatchWorker α) : Service κ α σ :=
  { s with worker }

/-! ## Calls -/

inductive CallEvent (κ α σ : Type)
  /-- The input is normalized, and its key computed. -/
  | enter (key : Option κ)
  | lookup
  | followerResult
  | followerTimeout
  | encodeOne (artifact : Option α)
  | handOver
  | batchResult
  | batchTimeout
  | store (stored : Option σ)
  | revalidate (valid : Option Bool)
  /-- The lock is held, and `cache.put` may raise. -/
  | commit (raises : Bool)
  | drop
  | publish
  | load (raises : Bool)
deriving DecidableEq, Repr

def callStep [DecidableEq κ] (batching : Bool) (s : Service κ α σ) (id : Nat) :
    CallEvent κ α σ → Option (Service κ α σ)
  | .enter key =>
    match s.calls id, key with
    | none, some key => some (s.setCall id (.lookup key))
    | none, none => some (s.setCall id (.encoding none))
    | some _, _ => none
  | .lookup =>
    match s.calls id with
    | some (.lookup key) =>
      match s.cache key, s.inflight key with
      | some stored, _ => some (s.setCall id (.loading none stored))
      | none, some leader => some (s.setCall id (.following key leader))
      | none, none =>
        some ({ s with inflight := Function.update s.inflight key (some id) }.setCall id
          (.encoding (some key)))
    | _ => none
  | .followerResult =>
    match s.calls id with
    | some (.following _ leader) =>
      match s.leaders leader with
      | some (some stored) => some (s.setCall id (.loading (some leader) stored))
      | some none => some (s.setCall id .raised)
      | none => none
    | _ => none
  | .followerTimeout =>
    match s.calls id with
    | some (.following _ _) => some (s.setCall id .raised)
    | _ => none
  | .encodeOne artifact =>
    match s.calls id with
    | some (.encoding key) => if batching then none else some (s.finishEncode id key artifact)
    | _ => none
  | .handOver =>
    match s.calls id with
    | some (.encoding key) =>
      if batching then
        some ({ s with queue := s.queue ++ [some id], handed := id :: s.handed }.setCall id
          (.waiting key))
      else none
    | _ => none
  | .batchResult =>
    match s.calls id with
    | some (.waiting key) => (s.futures id).map (s.finishEncode id key)
    | _ => none
  | .batchTimeout =>
    match s.calls id with
    | some (.waiting key) => some (s.finishEncode id key none)
    | _ => none
  | .store stored =>
    match s.calls id, stored with
    | some (.storing key artifact), some stored =>
      some ({ s with log := .stored id artifact stored :: s.log }.setCall id
        (.revalidating key stored))
    | some (.storing key _), none => some (s.setCall id (.failing key))
    | _, _ => none
  | .revalidate valid =>
    match s.calls id, valid with
    | some (.revalidating key stored), some true =>
      some ({ s with log := .validated id key stored :: s.log }.setCall id
        (.committing key stored true))
    | some (.revalidating key stored), some false =>
      some (s.setCall id (.committing key stored false))
    | some (.revalidating key _), none => some (s.setCall id (.failing key))
    | _, _ => none
  | .commit raises =>
    match s.calls id with
    | some (.committing key stored shouldCache) =>
      if shouldCache && raises then some (s.setCall id (.failing key))
      else
        some ({ s with
          cache := if shouldCache then Function.update s.cache key (some stored) else s.cache
          inflight := Function.update s.inflight key none }.setCall id (.publishing (some stored)))
    | _ => none
  | .drop =>
    match s.calls id with
    | some (.failing key) =>
      some ({ s with inflight := Function.update s.inflight key none }.setCall id
        (.publishing none))
    | _ => none
  | .publish =>
    match s.calls id with
    | some (.publishing stored) =>
      some ({ s with leaders := Function.update s.leaders id (some stored) }.setCall id
        (.published stored))
    | _ => none
  | .load raises =>
    match s.calls id with
    | some (.loading leader stored) =>
      some (s.setCall id (if raises then .raised else .returned leader stored))
    | _ => none

/-! ## The batch worker -/

inductive BatchEvent (α : Type)
  /-- An entry is taken from the queue. -/
  | take
  /-- The batch is full, or no more entries came in time. -/
  | start
  /-- `_encode_batch`: what `encode_batch` returns or raises, and `encode_one` of each item where
      that failed. -/
  | encode (artifacts : Option (List α)) (single : Nat → Option α)
  /-- It raises a `BaseException`. -/
  | encodeRaises
  | settle
  | settled
  | drain

def encodeBatch (batch : List Nat) (artifacts : Option (List α)) (single : Nat → Option α) :
    List (Option α) :=
  match artifacts with
  | some artifacts =>
    if artifacts.length = batch.length then artifacts.map some else batch.map single
  | none => batch.map single

/-- What the hook gives for each item: the results of `encode_batch` where there is one for each
    item, and of `encode_one` where not. -/
def encodes (batch : List Nat) (artifacts : Option (List α)) (single : Nat → Option α) :
    List (Nat × α) :=
  match artifacts.filter fun artifacts => artifacts.length = batch.length with
  | some artifacts => batch.zip artifacts
  | none => batch.filterMap fun id => (single id).map fun artifact => (id, artifact)

def batchStep (maxBatchSize : Nat) (s : Service κ α σ) : BatchEvent α → Option (Service κ α σ)
  | .take =>
    match s.worker, s.queue with
    | .collecting [], some id :: queue =>
      some ({ s with queue }.setWorker (.collecting [id]))
    | .collecting [], none :: queue => some ({ s with queue }.setWorker .draining)
    | .collecting (first :: taken), entry :: queue =>
      if taken.length + 1 < maxBatchSize then
        match entry with
        | some id => some ({ s with queue }.setWorker (.collecting (first :: taken ++ [id])))
        | none => some ({ s with queue }.setWorker (.encoding (first :: taken) true))
      else none
    | _, _ => none
  | .start =>
    match s.worker with
    | .collecting (first :: taken) => some (s.setWorker (.encoding (first :: taken) false))
    | _ => none
  | .encode artifacts single =>
    match s.worker with
    | .encoding batch stopping =>
      some ({ s with produced := s.produced ++ encodes batch artifacts single }.setWorker
        (.settling (batch.zip (encodeBatch batch artifacts single)) stopping))
    | _ => none
  | .encodeRaises =>
    match s.worker with
    | .encoding batch stopping =>
      some (s.setWorker (.settling (batch.map fun id => (id, none)) stopping))
    | _ => none
  | .settle =>
    match s.worker with
    | .settling ((id, outcome) :: todo) stopping =>
      if s.futures id = none then
        some ({ s with futures := Function.update s.futures id (some outcome) }.setWorker
          (.settling todo stopping))
      else some (s.setWorker .died)
    | _ => none
  | .settled =>
    match s.worker with
    | .settling [] stopping => some (s.setWorker (if stopping then .draining else .collecting []))
    | _ => none
  | .drain =>
    match s.worker, s.queue with
    | .draining, some id :: queue =>
      some ({ s with queue }.setWorker (.settling [(id, none)] true))
    | .draining, none :: queue => some ({ s with queue }.setWorker .draining)
    | .draining, [] => some (s.setWorker .stopped)
    | _, _ => none

inductive ServiceEvent (κ α σ : Type)
  | call (id : Nat) (e : CallEvent κ α σ)
  | work (e : BatchEvent α)
  | close
  /-- The cache drops an entry. -/
  | evict (key : κ)

def serviceStep [DecidableEq κ] (batching : Bool) (maxBatchSize : Nat) (s : Service κ α σ) :
    ServiceEvent κ α σ → Option (Service κ α σ)
  | .call id e => callStep batching s id e
  | .work e => batchStep maxBatchSize s e
  | .close => if batching then some { s with queue := s.queue ++ [none] } else some s
  | .evict key => some { s with cache := Function.update s.cache key none }

/-- Every interleaving of the calls and the worker. -/
def serviceSystem (κ α σ : Type) [DecidableEq κ] (batching : Bool) (maxBatchSize : Nat) :
    System (Service κ α σ) (ServiceEvent κ α σ) :=
  .ofFun (fun s => s = {}) (serviceStep batching maxBatchSize)

/-- Nothing is handed to a worker that has stopped. -/
def HandedInTime (s : Service κ α σ) : ServiceEvent κ α σ → Prop
  | .call _ .handOver => s.worker ≠ .stopped
  | _ => True

/-! ## Steps of a call -/

/-- The key whose in-flight entry the call is. -/
def Call.leads : Call κ α σ → Option κ
  | .encoding key | .waiting key => key
  | .storing key _ | .revalidating key _ | .committing key _ _ | .failing key => some key
  | _ => none

/-- How many more steps the call can take. -/
def Call.rank : Call κ α σ → Nat
  | .lookup _ => 9
  | .encoding _ => 8
  | .waiting _ => 7
  | .storing _ _ => 6
  | .revalidating _ _ => 5
  | .committing _ _ _ => 4
  | .failing _ => 3
  | .publishing _ | .following _ _ => 2
  | .loading _ _ => 1
  | .returned _ _ | .returnedUncached _ | .raised => 0

/-- What a step of a call can do. -/
inductive CallMove [DecidableEq κ] (s : Service κ α σ) (id : Nat) (e : CallEvent κ α σ) :
    Service κ α σ → Prop
  | entered {c : Call κ α σ} (hnew : s.calls id = none)
      (hc : c = .encoding none ∨ ∃ key, c = .lookup key) : CallMove s id e (s.setCall id c)
  | hit {key : κ} {stored : σ} (hc : s.calls id = some (.lookup key)) :
      CallMove s id e (s.setCall id (.loading none stored))
  | joined {key : κ} {leader : Nat} (hc : s.calls id = some (.lookup key))
      (hleader : s.inflight key = some leader) :
      CallMove s id e (s.setCall id (.following key leader))
  | led {key : κ} (hc : s.calls id = some (.lookup key)) (hnone : s.inflight key = none) :
      CallMove s id e ({ s with inflight := Function.update s.inflight key (some id) }.setCall id
        (.encoding (some key)))
  | followed {key : κ} {leader : Nat} {stored : σ} (hc : s.calls id = some (.following key leader))
      (hleader : s.leaders leader = some (some stored)) :
      CallMove s id e (s.setCall id (.loading (some leader) stored))
  | gaveUp {key : κ} {leader : Nat} (hc : s.calls id = some (.following key leader)) :
      CallMove s id e (s.setCall id .raised)
  | handed {key : Option κ} (he : e = .handOver) (hc : s.calls id = some (.encoding key)) :
      CallMove s id e ({ s with queue := s.queue ++ [some id], handed := id :: s.handed }.setCall id
        (.waiting key))
  | encoded {key : Option κ} (artifact : Option α)
      (hc : s.calls id = some (.encoding key) ∨ s.calls id = some (.waiting key)) :
      CallMove s id e (s.finishEncode id key artifact)
  | stored {key : κ} {artifact : α} (stored : σ) (hc : s.calls id = some (.storing key artifact)) :
      CallMove s id e ({ s with log := .stored id artifact stored :: s.log }.setCall id
        (.revalidating key stored))
  | validated {key : κ} {stored : σ} (hc : s.calls id = some (.revalidating key stored)) :
      CallMove s id e ({ s with log := .validated id key stored :: s.log }.setCall id
        (.committing key stored true))
  | uncacheable {key : κ} {stored : σ} (hc : s.calls id = some (.revalidating key stored)) :
      CallMove s id e (s.setCall id (.committing key stored false))
  | failed {c : Call κ α σ} {key : κ} (hc : s.calls id = some c)
      (hfails : (∃ artifact, c = .storing key artifact) ∨ (∃ stored, c = .revalidating key stored) ∨
        ∃ stored, c = .committing key stored true) : CallMove s id e (s.setCall id (.failing key))
  | committed {key : κ} {stored : σ} {shouldCache : Bool}
      (hc : s.calls id = some (.committing key stored shouldCache)) :
      CallMove s id e ({ s with
        cache := if shouldCache then Function.update s.cache key (some stored) else s.cache
        inflight := Function.update s.inflight key none }.setCall id (.publishing (some stored)))
  | dropped {key : κ} (hc : s.calls id = some (.failing key)) :
      CallMove s id e ({ s with inflight := Function.update s.inflight key none }.setCall id
        (.publishing none))
  | published {stored : Option σ} (hc : s.calls id = some (.publishing stored)) :
      CallMove s id e ({ s with leaders := Function.update s.leaders id (some stored) }.setCall id
        (.published stored))
  | loaded {leader : Option Nat} {stored : σ} {c : Call κ α σ}
      (hc : s.calls id = some (.loading leader stored))
      (hc' : c = .raised ∨ c = .returned leader stored) : CallMove s id e (s.setCall id c)

variable {s t : Service κ α σ} {e : CallEvent κ α σ} {id : Nat}

theorem callStep_eq_some [DecidableEq κ] {batching : Bool} (h : callStep batching s id e = some t) :
    CallMove s id e t := by
  cases e with
  | enter key =>
    dsimp only [callStep] at h
    split at h
    next key hnew => exact some.inj h ▸ .entered hnew (.inr ⟨key, rfl⟩)
    next hnew => exact some.inj h ▸ .entered hnew (.inl rfl)
    next => cases h
  | lookup =>
    rw [callStep] at h
    split at h
    next key hc =>
      split at h
      next => exact some.inj h ▸ .hit hc
      next hleader => exact some.inj h ▸ .joined hc hleader
      next hnone => exact some.inj h ▸ .led hc hnone
    next => cases h
  | followerResult =>
    rw [callStep] at h
    split at h
    next hc =>
      split at h
      next hleader => exact some.inj h ▸ .followed hc hleader
      next => exact some.inj h ▸ .gaveUp hc
      next => cases h
    next => cases h
  | followerTimeout =>
    rw [callStep] at h
    split at h
    next hc => exact some.inj h ▸ .gaveUp hc
    next => cases h
  | encodeOne artifact =>
    rw [callStep] at h
    split at h
    next hc =>
      obtain ⟨-, rfl⟩ := of_not_guard h
      exact .encoded artifact (.inl hc)
    next => cases h
  | handOver =>
    rw [callStep] at h
    split at h
    next hc =>
      obtain ⟨-, rfl⟩ := of_guard h
      exact .handed rfl hc
    next => cases h
  | batchResult =>
    rw [callStep] at h
    split at h
    next key hc =>
      obtain ⟨artifact, _, rfl⟩ := map_eq_some_iff.mp h
      exact .encoded artifact (.inr hc)
    next => cases h
  | batchTimeout =>
    rw [callStep] at h
    split at h
    next hc => exact some.inj h ▸ .encoded none (.inr hc)
    next => cases h
  | store stored =>
    dsimp only [callStep] at h
    split at h
    next stored hc => exact some.inj h ▸ .stored stored hc
    next artifact hc => exact some.inj h ▸ .failed hc (.inl ⟨artifact, rfl⟩)
    next => cases h
  | revalidate valid =>
    dsimp only [callStep] at h
    split at h
    next hc => exact some.inj h ▸ .validated hc
    next hc => exact some.inj h ▸ .uncacheable hc
    next stored hc => exact some.inj h ▸ .failed hc (.inr (.inl ⟨stored, rfl⟩))
    next => cases h
  | commit raises =>
    rw [callStep] at h
    split at h
    next stored shouldCache hc =>
      split at h
      next hraises =>
        obtain ⟨rfl, _⟩ := (Bool.and_eq_true _ _).mp hraises
        exact some.inj h ▸ .failed hc (.inr (.inr ⟨stored, rfl⟩))
      next => exact some.inj h ▸ .committed hc
    next => cases h
  | drop =>
    rw [callStep] at h
    split at h
    next hc => exact some.inj h ▸ .dropped hc
    next => cases h
  | publish =>
    rw [callStep] at h
    split at h
    next hc => exact some.inj h ▸ .published hc
    next => cases h
  | load raises =>
    rw [callStep] at h
    split at h
    next hc =>
      cases raises with
      | true => exact some.inj h ▸ .loaded hc (.inl rfl)
      | false => exact some.inj h ▸ .loaded hc (.inr rfl)
    next => cases h

theorem CallMove.rank_lt [DecidableEq κ] (h : CallMove s id e t) {before : Call κ α σ}
    (hbef : s.calls id = some before) : ∃ c, t.calls id = some c ∧ c.rank < before.rank := by
  have hat : ∀ b, s.calls id = some b → b = before := fun b hb =>
    some.inj (hb.symm.trans hbef)
  cases h with
  | entered hnew hc =>
    rw [hnew] at hbef
    cases hbef
  | hit hc | joined hc hleader | led hc hnone | followed hc hleader | gaveUp hc | handed he hc
  | stored stored hc | validated hc | uncacheable hc | committed hc | dropped hc =>
    exact ⟨_, update_self _ _ _, hat _ hc ▸ by simp [Call.rank]⟩
  | @encoded key artifact hc =>
    refine ⟨_, update_self _ _ _, ?_⟩
    have hsmall : (Call.encoded key artifact : Call κ α σ).rank < 7 := by
      cases key <;> cases artifact <;> simp [Call.encoded, Call.rank]
    rcases hc with hc | hc
    · exact hat _ hc ▸ Nat.lt_succ_of_lt hsmall
    · exact hat _ hc ▸ hsmall
  | failed hc hfails =>
    refine ⟨_, update_self _ _ _, hat _ hc ▸ ?_⟩
    rcases hfails with ⟨artifact, rfl⟩ | ⟨stored, rfl⟩ | ⟨stored, rfl⟩ <;> simp [Call.rank]
  | @published stored hc =>
    refine ⟨_, update_self _ _ _, hat _ hc ▸ ?_⟩
    cases stored <;> simp [Call.published, Call.rank]
  | loaded hc hc' =>
    refine ⟨_, update_self _ _ _, hat _ hc ▸ ?_⟩
    rcases hc' with rfl | rfl <;> simp [Call.rank]

theorem callStep_enabled [DecidableEq κ] (batching : Bool) {c : Call κ α σ}
    (hc : s.calls id = some c) (hrank : c.rank ≠ 0) : ∃ e t, callStep batching s id e = some t := by
  cases c with
  | lookup key =>
    cases hcache : s.cache key with
    | some stored => exact ⟨.lookup, _, by simp only [callStep, hc, hcache]; rfl⟩
    | none =>
      cases hinflight : s.inflight key with
      | some leader | none =>
        exact ⟨.lookup, _, by simp only [callStep, hc, hcache, hinflight]; rfl⟩
  | following key leader => exact ⟨.followerTimeout, _, by rw [callStep, hc]⟩
  | encoding key =>
    cases batching with
    | true => exact ⟨.handOver, _, by rw [callStep, hc]; exact if_pos rfl⟩
    | false => exact ⟨.encodeOne none, _, by rw [callStep, hc]; exact if_neg Bool.false_ne_true⟩
  | waiting key => exact ⟨.batchTimeout, _, by rw [callStep, hc]⟩
  | storing key artifact => exact ⟨.store none, _, by simp only [callStep, hc]; rfl⟩
  | revalidating key stored => exact ⟨.revalidate none, _, by simp only [callStep, hc]; rfl⟩
  | committing key stored shouldCache =>
    have hput : ¬ ((shouldCache && false) = true) := by
      rw [Bool.and_false]
      exact Bool.false_ne_true
    exact ⟨.commit false, _, by rw [callStep, hc]; exact if_neg hput⟩
  | failing key => exact ⟨.drop, _, by rw [callStep, hc]⟩
  | publishing stored => exact ⟨.publish, _, by rw [callStep, hc]⟩
  | loading leader stored => exact ⟨.load true, _, by rw [callStep, hc]⟩
  | returned leader stored | returnedUncached artifact | raised => exact absurd rfl hrank

/-! ## Steps of the worker -/

/-- What a step of the worker can do. -/
inductive BatchMove (s : Service κ α σ) : Service κ α σ → Prop
  | took {id : Nat} {queue : List (Option Nat)} (hworker : s.worker = .collecting [])
      (hqueue : s.queue = some id :: queue) :
      BatchMove s ({ s with queue }.setWorker (.collecting [id]))
  | closed {queue : List (Option Nat)} (hworker : s.worker = .collecting [])
      (hqueue : s.queue = none :: queue) : BatchMove s ({ s with queue }.setWorker .draining)
  | added {first : Nat} {taken : List Nat} {id : Nat} {queue : List (Option Nat)}
      (hworker : s.worker = .collecting (first :: taken)) (hqueue : s.queue = some id :: queue) :
      BatchMove s ({ s with queue }.setWorker (.collecting (first :: taken ++ [id])))
  | cut {first : Nat} {taken : List Nat} {queue : List (Option Nat)}
      (hworker : s.worker = .collecting (first :: taken)) (hqueue : s.queue = none :: queue) :
      BatchMove s ({ s with queue }.setWorker (.encoding (first :: taken) true))
  | started {first : Nat} {taken : List Nat} (hworker : s.worker = .collecting (first :: taken)) :
      BatchMove s (s.setWorker (.encoding (first :: taken) false))
  | encoded {batch : List Nat} {stopping : Bool} (artifacts : Option (List α))
      (single : Nat → Option α) (hworker : s.worker = .encoding batch stopping) :
      BatchMove s ({ s with produced := s.produced ++ encodes batch artifacts single }.setWorker
        (.settling (batch.zip (encodeBatch batch artifacts single)) stopping))
  | raised {batch : List Nat} {stopping : Bool} (hworker : s.worker = .encoding batch stopping) :
      BatchMove s (s.setWorker (.settling (batch.map fun id => (id, none)) stopping))
  | completed {id : Nat} {outcome : Option α} {todo : List (Nat × Option α)} {stopping : Bool}
      (hworker : s.worker = .settling ((id, outcome) :: todo) stopping)
      (hnone : s.futures id = none) :
      BatchMove s ({ s with futures := Function.update s.futures id (some outcome) }.setWorker
        (.settling todo stopping))
  | refused {id : Nat} {outcome : Option α} {todo : List (Nat × Option α)} {stopping : Bool}
      (hworker : s.worker = .settling ((id, outcome) :: todo) stopping)
      (hsome : s.futures id ≠ none) : BatchMove s (s.setWorker .died)
  | settled {stopping : Bool} (hworker : s.worker = .settling [] stopping) :
      BatchMove s (s.setWorker (if stopping then .draining else .collecting []))
  | drained {id : Nat} {queue : List (Option Nat)} (hworker : s.worker = .draining)
      (hqueue : s.queue = some id :: queue) :
      BatchMove s ({ s with queue }.setWorker (.settling [(id, none)] true))
  | skipped {queue : List (Option Nat)} (hworker : s.worker = .draining)
      (hqueue : s.queue = none :: queue) : BatchMove s ({ s with queue }.setWorker .draining)
  | stopped (hworker : s.worker = .draining) (hqueue : s.queue = []) :
      BatchMove s (s.setWorker .stopped)

theorem batchStep_eq_some {maxBatchSize : Nat} {e : BatchEvent α}
    (h : batchStep maxBatchSize s e = some t) : BatchMove s t := by
  cases e with
  | take =>
    dsimp only [batchStep] at h
    split at h
    next hworker hqueue => exact some.inj h ▸ .took hworker hqueue
    next hworker hqueue => exact some.inj h ▸ .closed hworker hqueue
    next hworker hqueue =>
      split at h
      next =>
        split at h
        next => exact some.inj h ▸ .added hworker hqueue
        next => exact some.inj h ▸ .cut hworker hqueue
      next => cases h
    next => cases h
  | start =>
    rw [batchStep] at h
    split at h
    next hworker => exact some.inj h ▸ .started hworker
    next => cases h
  | encode artifacts single =>
    rw [batchStep] at h
    split at h
    next hworker => exact some.inj h ▸ .encoded artifacts single hworker
    next => cases h
  | encodeRaises =>
    rw [batchStep] at h
    split at h
    next hworker => exact some.inj h ▸ .raised hworker
    next => cases h
  | settle =>
    rw [batchStep] at h
    split at h
    next hworker =>
      split at h
      next hnone => exact some.inj h ▸ .completed hworker hnone
      next hsome => exact some.inj h ▸ .refused hworker hsome
    next => cases h
  | settled =>
    rw [batchStep] at h
    split at h
    next hworker => exact some.inj h ▸ .settled hworker
    next => cases h
  | drain =>
    dsimp only [batchStep] at h
    split at h
    next hworker hqueue => exact some.inj h ▸ .drained hworker hqueue
    next hworker hqueue => exact some.inj h ▸ .skipped hworker hqueue
    next hworker hqueue => exact some.inj h ▸ .stopped hworker hqueue
    next => cases h

theorem BatchMove.frame (h : BatchMove s t) :
    t.calls = s.calls ∧ t.inflight = s.inflight ∧ t.leaders = s.leaders ∧ t.cache = s.cache ∧
      t.log = s.log := by
  cases h <;> exact ⟨rfl, rfl, rfl, rfl, rfl⟩

/-- How many more steps the worker can take, with nothing put into the queue. -/
def BatchWorker.work : BatchWorker α → Nat
  | .collecting [] => 2
  | .collecting (_ :: taken) => 2 * taken.length + 7
  | .encoding batch _ => 2 * batch.length + 4
  | .settling todo _ => 2 * todo.length + 3
  | .draining => 1
  | .stopped | .died => 0

def Service.work (s : Service κ α σ) : Nat :=
  6 * s.queue.length + s.worker.work

theorem length_encodeBatch (batch : List Nat) (artifacts : Option (List α))
    (single : Nat → Option α) : (encodeBatch batch artifacts single).length = batch.length := by
  cases artifacts with
  | none => exact length_map _
  | some artifacts =>
    rw [encodeBatch]
    split
    next hlen => exact (length_map _).trans hlen
    next => exact length_map _

theorem Service.work_setWorker (s : Service κ α σ) (worker : BatchWorker α) :
    (s.setWorker worker).work = 6 * s.queue.length + worker.work :=
  rfl

theorem BatchMove.work_lt (h : BatchMove s t) : t.work < s.work := by
  cases h with
  | took hworker hqueue =>
    rw [work_setWorker, work, hworker, hqueue, length_cons]
    simp only [BatchWorker.work, length_nil]
    omega
  | closed hworker hqueue | skipped hworker hqueue =>
    rw [work_setWorker, work, hworker, hqueue, length_cons]
    simp only [BatchWorker.work]
    omega
  | added hworker hqueue =>
    rw [work_setWorker, work, hworker, hqueue, length_cons, cons_append]
    simp only [BatchWorker.work, length_append, length_singleton]
    omega
  | cut hworker hqueue =>
    rw [work_setWorker, work, hworker, hqueue, length_cons]
    simp only [BatchWorker.work, length_cons]
    omega
  | started hworker | completed hworker hnone =>
    rw [work_setWorker, work, hworker]
    simp only [BatchWorker.work, length_cons]
    omega
  | encoded artifacts single hworker =>
    rw [work_setWorker, work, hworker]
    simp only [BatchWorker.work, length_zip, length_encodeBatch, Nat.min_self]
    omega
  | raised hworker =>
    rw [work_setWorker, work, hworker]
    simp only [BatchWorker.work, length_map]
    omega
  | refused hworker hsome | stopped hworker hqueue =>
    rw [work_setWorker, work, hworker]
    simp only [BatchWorker.work]
    omega
  | @settled stopping hworker =>
    rw [work_setWorker, work, hworker]
    cases stopping <;> simp [BatchWorker.work]
  | drained hworker hqueue =>
    rw [work_setWorker, work, hworker, hqueue, length_cons]
    simp only [BatchWorker.work, length_singleton]
    omega

/-- A run of the worker alone is bounded. -/
theorem exec_batchStep_length {maxBatchSize : Nat} {events : List (BatchEvent α)}
    (h : System.exec (batchStep maxBatchSize) s events = some t) :
    events.length ≤ s.work := by
  induction events generalizing s with
  | nil => exact Nat.zero_le _
  | cons e events ih =>
    obtain ⟨u, hst, hrest⟩ := bind_eq_some_iff.mp h
    exact Nat.lt_of_le_of_lt (ih hrest) (batchStep_eq_some hst).work_lt

end ReferenceFlights

end OmniRealtime
