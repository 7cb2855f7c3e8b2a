import OmniRealtime.Lib.ReplyLane
import OmniRealtime.Lib.System
import OmniRealtime.Pipeline.AdminBroadcast

/-!
# Admin operations of a tensor-parallel stage

`pipeline/tp_control.py` and `_on_admin` of `pipeline/stage/runtime.py`: the leader hands an
operation to its followers, runs it, and collects one reply from each follower's queue by a thread
that waits for at most the operation's timeout.

1. `leaderResult`: the result of the leader, from its own and the followers' replies.
2. `tpStep`: the steps of the leader, of its reader threads and of the followers.
-/

namespace OmniRealtime

structure AdminOperation where
  opId : String
  action : String
  deriving DecidableEq, Repr

/-! ## Running an operation -/

/-- The dict that a scheduler's `admin` answers; `rest` are its other keys. -/
structure AdminAnswer where
  success : Option Bool := none
  message : Option String := none
  data : Dict String AdminValue := []
  error : Option String := none
  rest : Dict String AdminValue := []

/-- How `scheduler.admin` ends; none of the schedulers answers an `AdminResult`. -/
inductive AdminOutcome
  | answer (answer : AdminAnswer)
  | other (value : AdminValue)
  /-- The scheduler has no `admin`. -/
  | unsupported
  | raises (message : String)

/-- The rank of a stage process. -/
structure TpRank where
  stage : String
  role : String
  tpRank : Option ℕ := none
  dpRank : Option ℕ := none

namespace TpRank

variable (rank : TpRank)

def adminResult (operation : AdminOperation) (success : Bool) (message : String)
    (data : Dict String AdminValue) (error : Option String) : AdminResult where
  opId := operation.opId
  stage := rank.stage
  action := operation.action
  success := success
  message := message
  data := data
  error := error
  rank := rank.tpRank
  role := some rank.role
  dpRank := rank.dpRank

/-- `data.setdefault` for each of the other keys. -/
def withRest (data rest : Dict String AdminValue) : Dict String AdminValue :=
  rest.foldl (fun data entry => if entry.1 ∈ data.keys then data else data.set entry.1 entry.2) data

def runAdminOperation (operation : AdminOperation) : AdminOutcome → AdminResult
  | .answer answer =>
    rank.adminResult operation (answer.success.getD true)
      (match answer.message with
        | none | some "" => "ok"
        | some message => message)
      (withRest answer.data answer.rest) answer.error
  | .other value => rank.adminResult operation true "ok" [("result", value)] none
  | .unsupported =>
    rank.adminResult operation true "stage does not support admin operations"
      [("skipped", .bool true), ("unsupported", .bool true)] none
  | .raises message => rank.adminResult operation false message [] (some message)

@[simp] theorem runAdminOperation_opId (operation : AdminOperation) (outcome : AdminOutcome) :
    (rank.runAdminOperation operation outcome).opId = operation.opId := by
  cases outcome <;> rfl

end TpRank

/-! ## The leader's result -/

/-- `collect_admin_results`, on the messages that the threads have read. -/
def collectAdminResults (opId : String) (messages : List AdminResult) :
    Except String (List AdminResult) :=
  match messages.find? (fun message => message.opId ≠ opId) with
  | some message =>
    .error ("Unexpected TP follower admin op id: " ++ message.opId ++ " != " ++ opId)
  | none => .ok messages

def failedCollection (own : AdminResult) (error : String) : AdminResult :=
  { own with
    success := false
    error := some error
    message := "failed to collect TP follower admin results" }

def leaderResult (leader : TpRank) (operation : AdminOperation) (own : AdminResult)
    (followers : Except String (List AdminResult)) : AdminResult :=
  let own := match followers with
    | .ok _ => own
    | .error error => failedCollection own error
  let rankResults := own :: (followers.toOption).getD []
  let success := rankResults.all AdminResult.success
  let errors := joinErrors (rankResults.filterMap AdminResult.errorText)
  { opId := operation.opId
    stage := leader.stage
    action := operation.action
    success := success
    message := if success then own.message else if errors = "" then own.message else errors
    data := (own.data.set "tp_size" (.int rankResults.length)).set "rank_results"
      (.list (rankResults.map AdminResult.toDict))
    error := if success then none else if errors = "" then own.error else some errors
    rank := some 0
    role := some leader.role
    dpRank := leader.dpRank }

/-! ## The state -/

/-- What is on the way between the leader and a follower; a reader is known by its operation. -/
abbrev FollowerLane := ReplyLane String AdminOperation AdminResult

/-- What the leader's `_on_admin` is doing; `got` are the messages that its threads have read. -/
inductive TpPhase (n : ℕ)
  | idle
  | running (operation : AdminOperation)
  | collecting (operation : AdminOperation) (own : AdminResult) (got : Fin n → Option AdminResult)

/-- An operation that the leader has answered, with what went into the result. -/
structure TpReport where
  operation : AdminOperation
  own : AdminResult
  replies : List AdminResult
  result : AdminResult

structure TpAdmin (n : ℕ) where
  leader : TpRank
  followers : Fin n → TpRank
  lanes : Fin n → FollowerLane := fun _ => {}
  issued : List String := []
  phase : TpPhase n := .idle
  reports : List TpReport := []

namespace TpAdmin

variable {n : ℕ} (s : TpAdmin n)

def reported : List String := s.reports.map fun report => report.operation.opId

def setLane (k : Fin n) (lane : FollowerLane) : TpAdmin n :=
  { s with lanes := Function.update s.lanes k lane }

/-- The leader answers. -/
def report (operation : AdminOperation) (own : AdminResult)
    (followers : Except String (List AdminResult)) : TpAdmin n :=
  { s with
    phase := .idle
    reports := s.reports ++ [
      { operation := operation
        own := own
        replies := (followers.toOption).getD []
        result := leaderResult s.leader operation own followers }] }

/-- A thread of the operation has read a message; nobody waits for it once the operation is
    answered. -/
def receive (k : Fin n) (opId : String) (message : AdminResult) : TpAdmin n :=
  match s.phase with
  | .collecting operation own got =>
    if operation.opId = opId then
      { s with phase := .collecting operation own (Function.update got k (some message)) }
    else s
  | _ => s

/-- A thread of the operation raises `Empty`, whose text is empty. -/
def giveUp (opId : String) : TpAdmin n :=
  match s.phase with
  | .collecting operation own _ =>
    if operation.opId = opId then s.report operation own (.error "") else s
  | _ => s

end TpAdmin

/-! ## Steps -/

inductive TpEvent (n : ℕ)
  /-- The leader hands the operation to its followers. -/
  | issue (operation : AdminOperation)
  /-- The leader has run the operation, and starts a thread for each queue. -/
  | runOwn (outcome : AdminOutcome)
  /-- A follower runs its next operation, and sends the reply. -/
  | execute (k : Fin n) (outcome : AdminOutcome)
  | arrive (k : Fin n)
  /-- The operation's thread takes the next message of the queue. -/
  | take (k : Fin n) (opId : String)
  | expire (k : Fin n) (opId : String)
  /-- All threads have read a message. -/
  | finish

def tpStep {n : ℕ} (s : TpAdmin n) : TpEvent n → Option (TpAdmin n)
  | .issue operation =>
    match s.phase with
    | .idle =>
      if operation.opId ∈ s.issued then none
      else some { s with
        lanes := fun k => (s.lanes k).ask operation
        issued := s.issued ++ [operation.opId]
        phase := .running operation }
    | _ => none
  | .runOwn outcome =>
    match s.phase with
    | .running operation => some { s with
        lanes := fun k => (s.lanes k).read operation.opId
        phase := .collecting operation (s.leader.runAdminOperation operation outcome)
          fun _ => none }
    | _ => none
  | .execute k outcome =>
    ((s.lanes k).answer fun operation =>
      (s.followers k).runAdminOperation operation outcome).map (s.setLane k)
  | .arrive k =>
    ((s.lanes k).arrive fun reply => reply.opId ∉ s.reported).map (s.setLane k)
  | .take k opId =>
    ((s.lanes k).take opId).map fun taken => (s.setLane k taken.2).receive k opId taken.1
  | .expire k opId => ((s.lanes k).expire opId).map fun lane => (s.setLane k lane).giveUp opId
  | .finish =>
    match s.phase with
    | .collecting operation own got =>
      if ∀ k, (got k).isSome = true then
        some (s.report operation own
          (collectAdminResults operation.opId ((List.finRange n).filterMap got)))
      else none
    | _ => none

def tpSystem {n : ℕ} (leader : TpRank) (followers : Fin n → TpRank) :
    System (TpAdmin n) (TpEvent n) :=
  .ofFun (fun s => s = { leader := leader, followers := followers }) tpStep

end OmniRealtime
