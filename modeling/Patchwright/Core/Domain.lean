import Patchwright.Core.Contract

/-!
# The task lifecycle

A task advances along fixed edges, may be interrupted from any state that is
neither terminal nor already an interruption, and resumes at the state it was
interrupted in.  `LifecycleStep` collects the three ways a task may change.
-/

namespace Patchwright

open Checked

inductive TaskState where
  | discovered
  | assessing
  | planned
  | awaitingPreparationApproval
  | preparing
  | implementing
  | verifying
  | reviewing
  | awaitingDeliveryApproval
  | delivering
  | monitoring
  | awaitingMergeApproval
  | merging
  | paused
  | blocked
  | completed
  | failed
  | cancelled
  deriving DecidableEq, Repr

namespace TaskState

def display : TaskState → String
  | discovered => "discovered"
  | assessing => "assessing"
  | planned => "planned"
  | awaitingPreparationApproval => "awaitingPreparationApproval"
  | preparing => "preparing"
  | implementing => "implementing"
  | verifying => "verifying"
  | reviewing => "reviewing"
  | awaitingDeliveryApproval => "awaitingDeliveryApproval"
  | delivering => "delivering"
  | monitoring => "monitoring"
  | awaitingMergeApproval => "awaitingMergeApproval"
  | merging => "merging"
  | paused => "paused"
  | blocked => "blocked"
  | completed => "completed"
  | failed => "failed"
  | cancelled => "cancelled"

/-- The edges of the lifecycle proper. -/
def permits : TaskState → TaskState → Bool
  | discovered, assessing => true
  | assessing, planned => true
  | planned, awaitingPreparationApproval => true
  | awaitingPreparationApproval, preparing => true
  | preparing, implementing => true
  | implementing, verifying => true
  | verifying, reviewing => true
  | reviewing, awaitingDeliveryApproval => true
  | awaitingDeliveryApproval, delivering => true
  | delivering, monitoring => true
  | monitoring, completed => true
  | monitoring, awaitingMergeApproval => true
  | merging, completed => true
  | merging, awaitingMergeApproval => true
  | awaitingMergeApproval, merging => true
  | _, _ => false

def isTerminal : TaskState → Bool
  | completed | failed | cancelled => true
  | _ => false

def isInterruption : TaskState → Bool
  | paused | blocked | failed | cancelled => true
  | _ => false

def isRecoverableInterruption : TaskState → Bool
  | paused | blocked => true
  | _ => false

/-- A task in this state may be interrupted. -/
def isInterruptible (state : TaskState) : Bool :=
  !(state.isTerminal || state.isInterruption)

end TaskState

inductive ValidationError where
  | emptyTitle
  | relativeRepository
  | invalidTransition (fromState toState : TaskState)
  | emptyInterruptionReason
  | invalidInterruptionState (state : TaskState)
  deriving DecidableEq, Repr

def ValidationError.message : ValidationError → String
  | emptyTitle => "title must not be empty"
  | relativeRepository => "repository path must be absolute"
  | invalidTransition fromState toState =>
      "invalid transition: " ++ fromState.display ++ " -> " ++ toState.display
  | emptyInterruptionReason => "interruption reason must not be empty"
  | invalidInterruptionState state => state.display ++ " is not an interruption state"

structure TaskInterruption where
  state : TaskState
  resumeState : TaskState
  reason : String
  deriving DecidableEq, Repr

structure Task where
  id : TaskId
  title : String
  repositoryPath : String
  state : TaskState
  createdAt : DateTime
  updatedAt : DateTime
  interruption : Option TaskInterruption
  source : TaskSource
  repositoryBindingId : Option RepositoryBindingId
  contractVersion : Nat
  checkpointId : Option Uuid
  deriving DecidableEq, Repr

namespace Task

/-- A task with a nonempty title, rooted at an absolute path.  The identifier
is the random one the source draws. -/
def new (id : TaskId) (now : DateTime) (title repositoryPath : String) :
    Except ValidationError Task := do
  let title := trim title
  ensure (title ≠ "") .emptyTitle
  ensure (repositoryPath.toList.head? = some '/') .relativeRepository
  return {
    id, title, repositoryPath, state := .discovered, createdAt := now, updatedAt := now,
    interruption := none, source := .localRequest, repositoryBindingId := none,
    contractVersion := 1, checkpointId := none }

/-- Advance along an edge of the lifecycle. -/
def transition (task : Task) (next : TaskState) (now : DateTime) :
    Except ValidationError Task := do
  ensure (task.state.permits next) (.invalidTransition task.state next)
  return { task with state := next, updatedAt := now }

/-- Interrupt a task and record where it was and why. -/
def interrupt (task : Task) (interruptionState : TaskState) (reason : String)
    (now : DateTime) : Except ValidationError Task := do
  ensure interruptionState.isInterruption (.invalidInterruptionState interruptionState)
  ensure task.state.isInterruptible (.invalidTransition task.state interruptionState)
  let reason := trim reason
  ensure (reason ≠ "") .emptyInterruptionReason
  return { task with
    state := interruptionState
    interruption := some {
      state := interruptionState, resumeState := task.state, reason }
    updatedAt := now }

/-- Return a paused or blocked task to the state it was interrupted in. -/
def resume (task : Task) (now : DateTime) : Except ValidationError Task := do
  let interruption ← okOr (.invalidTransition task.state task.state) task.interruption
  ensure (task.state.isRecoverableInterruption ∧ interruption.state = task.state)
    (.invalidTransition task.state interruption.resumeState)
  return { task with
    state := interruption.resumeState, interruption := none, updatedAt := now }

theorem transition_eq_ok {task next : Task} {state : TaskState} {now : DateTime} :
    task.transition state now = .ok next ↔
      task.state.permits state ∧ { task with state := state, updatedAt := now } = next := by
  simp [transition]

theorem interrupt_eq_ok {task next : Task} {state : TaskState} {reason : String}
    {now : DateTime} :
    task.interrupt state reason now = .ok next ↔
      state.isInterruption ∧ task.state.isInterruptible ∧ trim reason ≠ "" ∧
        { task with
          state := state
          interruption := some { state, resumeState := task.state, reason := trim reason }
          updatedAt := now } = next := by
  simp [interrupt]

theorem resume_eq_ok {task next : Task} {now : DateTime} :
    task.resume now = .ok next ↔
      ∃ interruption, task.interruption = some interruption ∧
        (task.state.isRecoverableInterruption ∧ interruption.state = task.state) ∧
        { task with
          state := interruption.resumeState, interruption := none, updatedAt := now } =
            next := by
  simp [resume]

end Task

end Patchwright
