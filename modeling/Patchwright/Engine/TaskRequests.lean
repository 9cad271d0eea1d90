import Patchwright.Engine.DeliveryOutcome
import Patchwright.Engine.Preparation

/-!
# Requests that take a task to its delivery gate

Creating, planning, preparing and verifying a task.  Planning, preparing and
verifying work on the repository between two holds of the store; what they
find there is an argument here.  Planning and verifying look whether the task
is still the one they started from before they write, and a preparation is
guarded by its claim.
-/

namespace Patchwright

open Checked

/-- What one hold of the store has committed, and what the call goes on with. -/
abbrev Held (α : Type) : Type := EventStore × Except String α

section Creating

def createTask (ambient : Ambient) (store : EventStore) (id : TaskId)
    (title repositoryPath : String) : Except String EventStore := do
  let task ← (Task.new id ambient.now title repositoryPath).mapError ValidationError.message
  return store.saveTask task "task created"

end Creating

section Planning

/-- The first hold of `task.plan`.  A task that is planned already answers at
once, which is `none`. -/
def planBegin (store : EventStore) (taskId : TaskId) :
    Except String (Option (Task × RepositoryBinding)) := do
  let task ← okOr "task is missing" (store.loadTask taskId)
  if task.state = .awaitingPreparationApproval then
    let _ ← okOr "task contract is missing" (store.taskContract taskId)
    return none
  else
    ensure (task.state = .discovered) "task cannot be planned from its current state"
    let bindingId ← okOr "task repository binding is missing" task.repositoryBindingId
    let binding ← okOr "task repository binding is missing" (store.repositoryBinding bindingId)
    return some (task, binding)

def planEdges : List (TaskState × String) := [
  (.assessing, "Task source and repository assessed"),
  (.planned, "Typed task contract planned"),
  (.awaitingPreparationApproval, "Task is awaiting preparation approval")]

/-- The second hold of `task.plan`, with the contract the assessment has made. -/
def planFinish (ambient : Ambient) (store : EventStore) (task : Task)
    (contract : TaskContract) : Except String EventStore := do
  let fresh ← okOr "task is missing" (store.loadTask task.id)
  ensure (fresh = task) "task changed while planning"
  let events ← (advance ambient.now { task with contractVersion := contract.version }
    planEdges).mapError ValidationError.message
  return (store.saveTaskContract contract).saveTaskEvents events

end Planning

section Preparing

variable [Sha256]

/-- The hold of `task.prepare` after its claim. -/
def prepareLoad (store : EventStore) (preview : PreparationPreview) :
    Except String (Task × RepositoryBinding) := do
  let fresh ← (previewPreparation store preview.taskId).mapError PreparationError.message
  ensure (fresh = preview) "preparation preview is stale"
  let task ← okOr "task is missing" (store.loadTask preview.taskId)
  ensure (task.state = .awaitingPreparationApproval) "task is not awaiting preparation approval"
  let bindingId ← okOr "task repository binding is missing" task.repositoryBindingId
  let binding ← okOr "task repository binding is missing" (store.repositoryBinding bindingId)
  return (task, binding)

omit [Sha256] in
/-- The hold of `task.prepare` that stores the prepared task. -/
def prepareSave (ambient : Ambient) (store : EventStore) (task : Task) (worktreePath : String)
    (checkpointId : Uuid) : Except String EventStore := do
  let task ← ({ task with repositoryPath := worktreePath }.transition .preparing
    ambient.now).mapError ValidationError.message
  let checkpoint ← (TaskCheckpoint.new checkpointId ambient.now task.id task.state
    "Approved isolated worktree prepared at captured source SHA").mapError JobError.message
  store.saveTaskWithCheckpoint { task with checkpointId := some checkpoint.id }
    "Task preparation approved" checkpoint

end Preparing

section Verifying

/-- Submit a prepared or implemented task for verification. -/
def submitEdges : TaskState → List (TaskState × String)
  | .preparing => [
      (.implementing, "Prepared worktree was explicitly submitted for verification"),
      (.verifying, "Implementation submitted for verification")]
  | .implementing => [(.verifying, "Implementation submitted for verification")]
  | _ => []

/-- The first hold of `task.readyForDelivery`.  A task that is ready already
answers at once. -/
def verifyBegin (ambient : Ambient) (store : EventStore) (taskId : TaskId) :
    Held (Option (Task × TaskContract)) :=
  match store.loadTask taskId with
  | none => (store, .error "task was not found")
  | some task =>
      if task.state = .awaitingDeliveryApproval then (store, .ok none)
      else
        match advance ambient.now task (submitEdges task.state) with
        | .error error => (store, .error error.message)
        | .ok events =>
            let submitted := (events.getLast?.map Prod.fst).getD task
            (store.saveTaskEvents events, do
              ensure (submitted.state = .verifying)
                ("task state " ++ submitted.state.display ++ " cannot be verified")
              let contract ← okOr "task contract was not found" (store.taskContract taskId)
              ensure (contract.verificationCommands ≠ [])
                "task contract has no verification commands"
              return some (submitted, contract))

/-- What a verification finds in the worktree: its inspection before the
commands, whether they passed, and its inspection after them. -/
structure VerificationRun where
  before : Except String Inspection
  passed : Bool
  after : Except String Inspection

def VerificationRun.check (run : VerificationRun) : Except String Unit := do
  let before ← run.before
  ensure (¬ before.dirty) "task worktree is dirty"
  ensure run.passed "verification command failed"
  let after ← run.after
  ensure (¬ (after.dirty ∨ after.headSha ≠ before.headSha))
    "task or worktree changed while verification was running"

/-- The second hold of `task.readyForDelivery`, after the commands have passed. -/
def verifyFinish (ambient : Ambient) (store : EventStore) (task : Task) (checkpointId : Uuid) :
    Except String EventStore := do
  ensure (store.loadTask task.id = some task)
    "task or worktree changed while verification was running"
  let reviewing ← (task.transition .reviewing ambient.now).mapError ValidationError.message
  let ready ← (reviewing.transition .awaitingDeliveryApproval ambient.now).mapError
    ValidationError.message
  let checkpoint ← (TaskCheckpoint.new checkpointId ambient.now ready.id ready.state
    "Verified commit is awaiting exact GitHub delivery approval").mapError JobError.message
  (store.saveTask reviewing
    "Contract verification commands passed at the captured commit").saveTaskWithCheckpoint
      { ready with checkpointId := some checkpoint.id }
      "Task is ready for approval-bound GitHub delivery" checkpoint

end Verifying

end Patchwright
