import OmniRealtime.Lib.Dict

/-!
# Admin operations

`pipeline/coordinator.py` and `proto/admin.py`: an operation is sent to every replica of the stages
it is for, their replies are collected, merged for each stage and aggregated.

1. `AdminResult`: a reply, with what it says of itself in `data`.
2. `handleAdminResult`: a reply is collected.
3. `mergeStageReplicaResults`, `aggregateAdminResults`: the verdict.
4. `admin`: the whole operation, on the replies that have come when its task wakes up.
-/

namespace OmniRealtime

/-! ## Results -/

/-- A value of a result's `data`. -/
inductive AdminValue
  | null
  | bool (b : Bool)
  | int (n : ℤ)
  | str (s : String)
  | list (items : List AdminValue)
  | dict (entries : List (String × AdminValue))

def AdminValue.truthy : AdminValue → Bool
  | .null => false
  | .bool b => b
  | .int n => n ≠ 0
  | .str s => s ≠ ""
  | .list items => !items.isEmpty
  | .dict entries => !entries.isEmpty

structure AdminResult where
  opId : String
  stage : String
  action : String
  success : Bool
  message : String := ""
  data : Dict String AdminValue := []
  error : Option String := none
  rank : Option ℕ := none
  role : Option String := none
  dpRank : Option ℕ := none

namespace AdminResult

def optional {α : Type*} (f : α → AdminValue) : Option α → AdminValue
  | none => .null
  | some a => f a

def toDict (r : AdminResult) : AdminValue :=
  .dict ([("op_id", .str r.opId), ("stage", .str r.stage), ("action", .str r.action),
    ("success", .bool r.success), ("message", .str r.message), ("data", .dict r.data),
    ("error", optional .str r.error), ("rank", optional (fun n => .int n) r.rank),
    ("role", optional .str r.role)] ++
      match r.dpRank with
      | none => []
      | some dpRank => [("dp_rank", .int dpRank)])

/-- `data.get(key)` as a condition. -/
def flag (r : AdminResult) (key : String) : Bool := (r.data.get key).any AdminValue.truthy

/-- The stage has not run the operation. -/
def skipped (r : AdminResult) : Bool := r.flag "skipped" || r.flag "unsupported"

/-- An error that is not empty. -/
def errorText (r : AdminResult) : Option String := r.error.filter fun error => error ≠ ""

/-- The order of the replicas: by rank, and the replies without one last. -/
def Before (r r' : AdminResult) : Prop :=
  r.dpRank.isNone < r'.dpRank.isNone ∨
    r.dpRank.isNone = r'.dpRank.isNone ∧ r.dpRank.getD 0 ≤ r'.dpRank.getD 0

instance : DecidableRel Before := fun _ _ => inferInstanceAs (Decidable (_ ∨ _))

end AdminResult

def isUpdateAction (action : String) : Bool :=
  action ∈ ["init_weights_update_group", "destroy_weights_update_group",
    "update_weights_from_disk", "update_weights_from_tensor", "update_weights_from_distributed"]

/-! ## Collecting replies -/

structure AdminPendingOperation where
  expectedStages : List String
  action : String
  results : Dict String (List AdminResult) := []
  pendingReplicaCounts : Dict String ℕ
  /-- The stages of the dict that the future was resolved with. Its lists are the lists of
      `results`, which later replies still reach. -/
  future : Option (List String) := none

namespace AdminPendingOperation

/-- Every stage has replied, and no reply is waited for. -/
def isComplete (p : AdminPendingOperation) : Bool :=
  p.expectedStages.all (fun stage => stage ∈ p.results.keys) &&
    p.pendingReplicaCounts.all fun e => e.2 = 0

/-- `_handle_admin_result` for the operation `opId`. -/
def handleAdminResult (p : AdminPendingOperation) (opId : String) (result : AdminResult) :
    AdminPendingOperation :=
  if result.opId ≠ opId then p
  else
    let p := { p with
      results := p.results.set result.stage ((p.results.get result.stage).getD [] ++ [result])
      pendingReplicaCounts :=
        match p.pendingReplicaCounts.get result.stage with
        | some remaining => p.pendingReplicaCounts.set result.stage (remaining - 1)
        | none => p.pendingReplicaCounts }
    { p with future := p.future.or (if p.isComplete then some p.results.keys else none) }

end AdminPendingOperation

/-! ## The verdict -/

structure AdminReport where
  opId : String
  action : String
  success : Bool
  message : String
  results : List AdminResult

def joinErrors (errors : List String) : String := "; ".intercalate errors

/-- `_merge_stage_replica_results`; there is at least one reply. -/
def mergeStageReplicaResults (opId action stageName : String) (items : List AdminResult) :
    Option AdminResult :=
  match items with
  | [item] => some item
  | items =>
    let ordered := items.insertionSort AdminResult.Before
    ordered.head?.map fun first =>
      let errors := ordered.filterMap AdminResult.errorText
      let success := ordered.all AdminResult.success
      { opId := opId
        stage := stageName
        action := action
        success := success
        message := if success then first.message else joinErrors errors
        data := first.data.set "replica_results" (.list (ordered.map AdminResult.toDict))
        error := if success then none
          else if joinErrors errors = "" then first.error else some (joinErrors errors)
        rank := first.rank
        role := first.role }

def aggregateAdminResults (opId action : String)
    (resultsByStage : Dict String (List AdminResult)) : Option AdminReport := do
  let results ← resultsByStage.mapM fun e => mergeStageReplicaResults opId action e.1 e.2
  let updatedResults := results.filter fun item => !item.skipped
  let success :=
    if isUpdateAction action then
      !updatedResults.isEmpty && updatedResults.all AdminResult.success
    else results.all AdminResult.success
  let errors := results.filterMap AdminResult.errorText
  let message :=
    if success then "ok"
    else if errors ≠ [] then joinErrors errors
    else "admin operation did not complete successfully"
  return ⟨opId, action, success, message, results⟩

/-! ## The operation -/

/-- The number of replicas of each registered stage. -/
abbrev StageRegistry := Dict String ℕ

namespace StageRegistry

def replicas (registry : StageRegistry) (stage : String) : ℕ := (registry.get stage).getD 0

def resolveAdminStages (registry : StageRegistry) : Option (List String) → Option (List String)
  | none => some (registry.keys.insertionSort (· ≤ ·))
  | some stages => if stages.all (fun stage => stage ∈ registry.keys) then some stages else none

/-- The operation as it is registered before it is sent. -/
def adminPending (registry : StageRegistry) (action : String) (targetStages : List String) :
    AdminPendingOperation where
  expectedStages := targetStages
  action := action
  pendingReplicaCounts :=
    targetStages.foldl (fun d stage => d.set stage (registry.replicas stage)) []

/-- The messages of the operation: each stage in the list's order, and each of its replicas. -/
def adminSends (registry : StageRegistry) (targetStages : List String) : List (String × ℕ) :=
  targetStages.flatMap fun stage => (List.range (registry.replicas stage)).map (stage, ·)

/-- `admin`, with the replies that have come when its task wakes up; without a verdict it
    raises. -/
def admin (registry : StageRegistry) (opId action : String) (stages : Option (List String))
    (replies : List AdminResult) : Option AdminReport := do
  let targetStages ← registry.resolveAdminStages stages
  if targetStages = [] then none
  else
    let pending := replies.foldl (fun p reply => p.handleAdminResult opId reply)
      (registry.adminPending action targetStages)
    let stages ← pending.future
    aggregateAdminResults opId action (stages.map fun s => (s, (pending.results.get s).getD []))

end StageRegistry

end OmniRealtime
