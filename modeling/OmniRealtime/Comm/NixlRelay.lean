import OmniRealtime.Lib.System

/-!
# The NIXL relay

`relay/nixl.py` and the `CreditAllocator` of `relay/base.py`: the puts and gets of one relay, the
receivers of its puts, and the agent that keeps their notifications until somebody asks for new
ones. One step is what runs between two awaits.

1. `CreditAllocator`: the slots of the pool.
2. `nixlStep`, `nixlSystem`: the steps of the relay and of the receivers.
-/

namespace OmniRealtime

/-! ## Credits -/

structure CreditAllocator where
  credits : ℕ
  freeCredits : List ℕ
  deriving DecidableEq, Repr

namespace CreditAllocator

/-- What a new allocator can hand out: offsets where it has a slot size, numbers where not. -/
def initialCredits (credits : ℕ) : Option ℕ → List ℕ
  | some slotSize => (List.range credits).map (· * slotSize)
  | none => List.range credits

def create (credits : ℕ) (slotSize : Option ℕ) : CreditAllocator where
  credits := credits
  freeCredits := initialCredits credits slotSize

/-- `acquire_async`; it waits while there is no credit. -/
def acquire (allocator : CreditAllocator) : Option (ℕ × CreditAllocator) :=
  match allocator.freeCredits with
  | [] => none
  | credit :: rest => some (credit, { allocator with freeCredits := rest })

/-- A full pool drops the credit. A queue of size zero is unbounded. -/
def release (allocator : CreditAllocator) (creditId : ℕ) : CreditAllocator :=
  if 0 < allocator.credits ∧ allocator.credits ≤ allocator.freeCredits.length then allocator
  else { allocator with freeCredits := allocator.freeCredits ++ [creditId] }

end CreditAllocator

/-! ## The state -/

/-- The receiver of a put; one that is gone will not read any more. -/
inductive Receiver
  | expected | reading | finished | gone
  deriving DecidableEq, Repr

def Receiver.mayRead : Receiver → Bool
  | .expected | .reading => true
  | .finished | .gone => false

/-- How a `wait_for_completion` ended, where the receiver was by then, and whether its notification
    had arrived. -/
structure WaitEnd where
  timedOut : Bool
  receiver : Receiver
  arrived : Bool
  deriving DecidableEq, Repr

/-- `waits` counts the calls of `wait_for_completion` that are in its loop. -/
structure PutOperation where
  offset : ℕ
  size : ℕ
  receiver : Receiver := .expected
  arrived : Bool := false
  waits : ℕ := 0
  completed : Bool := false
  ends : List WaitEnd := []
  deriving DecidableEq, Repr

def PutOperation.ended (op : PutOperation) (timedOut : Bool) : PutOperation :=
  { op with
    waits := op.waits - 1
    completed := true
    ends := op.ends ++ [{ timedOut := timedOut, receiver := op.receiver, arrived := op.arrived }] }

structure GetOperation where
  offset : ℕ
  waits : ℕ := 0
  completed : Bool := false
  deriving DecidableEq, Repr

/-- `source` is the put whose receiver sent it; the relay does not learn it. -/
structure Notification where
  source : ℕ
  msg : String
  deriving DecidableEq, Repr

/-- The `expected_notification` of every put. -/
def expectedNotification : String := "done"

/-- The `notif_msg` of every get. -/
def notifMsg : String := "done"

structure NixlRelay where
  slotSize : ℕ
  allocator : CreditAllocator
  puts : ℕ → Option PutOperation := fun _ => none
  gets : ℕ → Option GetOperation := fun _ => none
  /-- What the next `get_new_notifs` returns. -/
  newNotifs : List Notification := []

namespace NixlRelay

def create (credits slotSize : ℕ) : NixlRelay where
  slotSize := slotSize
  allocator := .create credits (some slotSize)

def setPut (s : NixlRelay) (n : ℕ) (op : PutOperation) : NixlRelay :=
  { s with puts := Function.update s.puts n (some op) }

def setGet (s : NixlRelay) (n : ℕ) (op : GetOperation) : NixlRelay :=
  { s with gets := Function.update s.gets n (some op) }

/-- `put_async` from the credit on. -/
def putAsync (s : NixlRelay) (n size : ℕ) (raises : Bool) (offset : ℕ) : NixlRelay :=
  if raises then { s with allocator := s.allocator.release offset }
  else s.setPut n { offset := offset, size := size }

/-- `get_async` from the credit on. -/
def getAsync (s : NixlRelay) (n : ℕ) (raises : Bool) (offset : ℕ) : NixlRelay :=
  if raises then { s with allocator := s.allocator.release offset }
  else s.setGet n { offset := offset }

/-- The `finally` of a put's wait. -/
def endPut (s : NixlRelay) (n : ℕ) (op : PutOperation) (timedOut : Bool) : NixlRelay :=
  ({ s with allocator := s.allocator.release op.offset } : NixlRelay).setPut n (op.ended timedOut)

/-- The `finally` of a get's wait. -/
def endGet (s : NixlRelay) (n : ℕ) (op : GetOperation) : NixlRelay :=
  ({ s with allocator := s.allocator.release op.offset } : NixlRelay).setGet n
    { op with waits := op.waits - 1, completed := true }

/-- Once through the loop of a put's wait; `late` is that its time is over. -/
def pollPut (s : NixlRelay) (n : ℕ) (op : PutOperation) (late : Bool) : NixlRelay :=
  let found := s.newNotifs.any fun note => note.msg = expectedNotification
  let s : NixlRelay := { s with newNotifs := [] }
  if found then s.endPut n op false
  else if late then s.endPut n op true
  else s

end NixlRelay

/-! ## Steps -/

inductive NixlEvent
  /-- `put_async` is called, or has got its credit. -/
  | put (n size : ℕ) (raises : Bool)
  | get (n size : ℕ) (raises : Bool)
  /-- The receiver of a put begins to read. -/
  | read (n : ℕ)
  | finish (n : ℕ)
  /-- The receiver fails. -/
  | lose (n : ℕ)
  /-- The notification of the receiver arrives at the agent. -/
  | arrive (n : ℕ)
  | waitPut (n : ℕ)
  | poll (n : ℕ) (late : Bool)
  | cancelPut (n : ℕ)
  | waitGet (n : ℕ)
  /-- The transfer of a get is done or has failed, or its wait is cancelled. -/
  | doneGet (n : ℕ)
  deriving Repr

def nixlStep (s : NixlRelay) : NixlEvent → Option NixlRelay
  | .put n size raises =>
    if (s.puts n).isSome then none
    else if s.slotSize < size then some s
    else s.allocator.acquire.map fun (offset, allocator) =>
      ({ s with allocator := allocator } : NixlRelay).putAsync n size raises offset
  | .get n size raises =>
    if (s.gets n).isSome then none
    else if s.slotSize < size then some s
    else s.allocator.acquire.map fun (offset, allocator) =>
      ({ s with allocator := allocator } : NixlRelay).getAsync n raises offset
  | .read n => (s.puts n).bind fun op =>
    if op.receiver = .expected then some (s.setPut n { op with receiver := .reading }) else none
  | .finish n => (s.puts n).bind fun op =>
    if op.receiver = .reading then some (s.setPut n { op with receiver := .finished }) else none
  | .lose n => (s.puts n).bind fun op =>
    if op.receiver.mayRead = true then some (s.setPut n { op with receiver := .gone }) else none
  | .arrive n => (s.puts n).bind fun op =>
    if op.receiver = .finished ∧ op.arrived = false then
      some (({ s with newNotifs := s.newNotifs ++ [⟨n, notifMsg⟩] } : NixlRelay).setPut n
        { op with arrived := true })
    else none
  | .waitPut n => (s.puts n).map fun op =>
    -- `_completed`: the call returns at once.
    if op.completed then s else s.setPut n { op with waits := op.waits + 1 }
  | .poll n late => (s.puts n).bind fun op =>
    if 0 < op.waits then some (s.pollPut n op late) else none
  | .cancelPut n => (s.puts n).bind fun op =>
    if 0 < op.waits then some (s.endPut n op false) else none
  | .waitGet n => (s.gets n).map fun op =>
    if op.completed then s else s.setGet n { op with waits := op.waits + 1 }
  | .doneGet n => (s.gets n).bind fun op =>
    if 0 < op.waits then some (s.endGet n op) else none

/-- A relay with `credits` slots of `slotSize` bytes. -/
def nixlSystem (credits slotSize : ℕ) : System NixlRelay NixlEvent :=
  .ofFun (fun s => s = .create credits slotSize) nixlStep

end OmniRealtime
