import Patchwright.Library.Table
import Patchwright.Codex.Session
import Patchwright.Core.GitHubActions
import Patchwright.Engine.GitHub
import Patchwright.Engine.Jobs
import Patchwright.Engine.Monitoring

/-!
# The event store

One value of `EventStore` is the committed content of the database.  Each
operation below is one transaction: it returns the store after the commit, or
the error with which it rolls back.  Rows keep the typed value of a payload
column beside the columns that queries read on their own; where both hold the
same fact, the column may differ from the payload after an upsert, exactly as
the conflict clauses leave it.
-/

namespace Patchwright

open Checked

/-- A row of the append-only task history. -/
structure TaskEvent where
  taskId : TaskId
  summary : String
  payload : Task
  deriving DecidableEq, Repr

/-- A claimed delivery.  Without a result it is in flight, or was when the
engine stopped. -/
structure Delivery where
  result : Option Json
  claimedAt : Int
  completedAt : Option Int
  taskId : Option TaskId

/-- The state a recorded result names. -/
def Delivery.resultState (delivery : Delivery) : Option String :=
  delivery.result.bind fun result => (result.get? "state").bind Json.asStr?

/-- An ambiguous delivery of the task that no completion followed. -/
def Delivery.IsAmbiguousFor (delivery : Delivery) (taskId : TaskId) : Prop :=
  delivery.taskId = some taskId ∧ delivery.completedAt = none ∧
    delivery.resultState = some "ambiguous"

instance (delivery : Delivery) (taskId : TaskId) : Decidable (delivery.IsAmbiguousFor taskId) :=
  inferInstanceAs (Decidable (_ ∧ _ ∧ _))

structure ApprovalRow where
  taskId : TaskId
  capability : Capability
  actionDigest : String
  payload : Approval
  expiresAt : DateTime
  invalidatedAt : Option DateTime
  deriving DecidableEq, Repr

structure PreparationClaim where
  taskId : TaskId
  actionDigest : String
  claimedAt : DateTime
  result : Option String
  completedAt : Option DateTime
  deriving DecidableEq, Repr

structure JobEvent where
  jobId : JobId
  state : JobState
  summary : String
  checkpoint : Option JobCheckpoint
  deriving DecidableEq, Repr

structure GitHubSnapshotRow where
  payload : GitHubRepositorySnapshot
  syncedAt : DateTime
  deriving DecidableEq, Repr

/-- What one command of a verification left behind: its outcome, and digests of
its output. -/
structure VerificationEvidence where
  runId : Uuid
  taskId : TaskId
  ordinal : Nat
  commandSha256 : String
  program : String
  success : Bool
  exitCode : Option Int
  stdoutSha256 : String
  stdoutBytes : Nat
  stderrSha256 : String
  stderrBytes : Nat
  failureKind : Option String
  startedAt : DateTime
  completedAt : DateTime
  deriving DecidableEq, Repr

/-- A webhook the engine has taken over from the relay. -/
structure GitHubWebhookDelivery where
  event : String
  action : String
  repositoryFullName : Option String
  entityNumber : Option Nat
  payloadSha256 : String
  receivedAt : String
  ingestedAt : DateTime
  deriving DecidableEq, Repr

structure EventStore where
  tasks : Table TaskId Task
  taskEvents : List TaskEvent
  deliveries : Table String Delivery
  approvals : Table Uuid ApprovalRow
  taskContracts : Table TaskId TaskContract
  repositoryBindings : Table RepositoryBindingId RepositoryBinding
  preparationClaims : Table Uuid PreparationClaim
  jobs : Table JobId Job
  jobEvents : List JobEvent
  taskCheckpoints : List TaskCheckpoint
  taskSources : Table String TaskId
  monitors : Table Uuid MonitorRecord
  githubSnapshots : Table String GitHubSnapshotRow
  codexSessions : Table TaskId CodexSessionRecord
  verificationEvidence : List VerificationEvidence
  codexEvents : List CodexEventRecord
  codexRuntimeApprovals : Table Uuid CodexRuntimeApproval
  githubWebhookDeliveries : Table String GitHubWebhookDelivery

def EventStore.empty : EventStore where
  tasks := ∅
  taskEvents := []
  deliveries := ∅
  approvals := ∅
  taskContracts := ∅
  repositoryBindings := ∅
  preparationClaims := ∅
  jobs := ∅
  jobEvents := []
  taskCheckpoints := []
  taskSources := ∅
  monitors := ∅
  githubSnapshots := ∅
  codexSessions := ∅
  verificationEvidence := []
  codexEvents := []
  codexRuntimeApprovals := ∅
  githubWebhookDeliveries := ∅

inductive PreparationClaimOutcome where
  | claimed
  | approvalUnavailable
  | alreadyClaimed
  | taskInProgress
  deriving DecidableEq, Repr

def validateCodexEventKind (value : String) : Except String String := do
  let value := trim value
  ensure (value ≠ "" ∧ value.utf8ByteSize ≤ 64 ∧ ¬ value.toList.any isControl)
    "invalid Codex event kind"
  return value

def validateCodexIdentity (value field : String) : Except String Unit :=
  ensure (value ≠ "" ∧ value.utf8ByteSize ≤ 256 ∧ ¬ value.toList.any isControl)
    ("invalid Codex " ++ field)

def validateCodexEventContent (value : String) : Except String String := do
  ensure (value.utf8ByteSize ≤ 64 * 1024 ∧ '\x00' ∉ value.toList) "invalid Codex event content"
  return value

/-- Check an optional identity. -/
def validateOptional (value : Option String) (field : String) : Except String Unit :=
  match value with
  | some value => validateCodexIdentity value field
  | none => .ok ()

namespace EventStore

section Tasks

def loadTask (store : EventStore) (id : TaskId) : Option Task := store.tasks.lookup id

/-- Every task is stored under its own identifier. -/
def TasksKeyed (store : EventStore) : Prop :=
  ∀ entry ∈ store.tasks.entries, Task.id entry.2 = entry.1

instance (store : EventStore) : Decidable store.TasksKeyed :=
  inferInstanceAs (Decidable (∀ entry ∈ store.tasks.entries, Task.id entry.2 = entry.1))

theorem TasksKeyed.id_eq {store : EventStore} (hkeyed : store.TasksKeyed) {id : TaskId}
    {task : Task} (htask : store.loadTask id = some task) : task.id = id :=
  hkeyed ⟨id, task⟩ (AList.mem_lookup_iff.mp htask)

/-- The payloads recorded for a task, oldest first. -/
def timeline (store : EventStore) (id : TaskId) : List Task :=
  (store.taskEvents.filter fun event => event.taskId = id).map TaskEvent.payload

/-- Store a task over whatever row it has, and append it to the history. -/
def saveTask (store : EventStore) (task : Task) (summary : String) : EventStore :=
  { store with
    tasks := store.tasks.insert task.id task
    taskEvents := store.taskEvents ++ [{ taskId := task.id, summary, payload := task }] }

def saveTaskEvents (store : EventStore) (events : List (Task × String)) : EventStore :=
  events.foldl (fun store event => store.saveTask event.1 event.2) store

def saveTaskWithCheckpoint (store : EventStore) (task : Task) (summary : String)
    (checkpoint : TaskCheckpoint) : Except String EventStore := do
  ensure (task.id = checkpoint.taskId) "checkpoint task does not match"
  ensure (task.state = checkpoint.state) "checkpoint state does not match"
  let _ ← (validateSummary checkpoint.summary).mapError JobError.message
  return { store.saveTask task summary with
    taskCheckpoints := store.taskCheckpoints ++ [checkpoint] }

/-- Store a converted task, unless its source has a task already. -/
def createConvertedTask (store : EventStore) (task : Task) (sourceKey : String) :
    Except String (EventStore × Task × Bool) := do
  ensure (sourceKey ≠ "") "source key is required"
  match store.taskSources.lookup sourceKey with
  | some existing =>
      let existing ← okOr "Query returned no rows" (store.loadTask existing)
      return (store, existing, false)
  | none => do
      ensure (store.loadTask task.id = none) "UNIQUE constraint failed: tasks.id"
      ensure (∀ entry ∈ store.taskSources.entries, entry.2 ≠ task.id)
        "UNIQUE constraint failed: task_sources.task_id"
      return ({ store.saveTask task "task created from GitHub snapshot" with
        taskSources := store.taskSources.insert sourceKey task.id }, task, true)

end Tasks

section CodexSessions

def codexSession (store : EventStore) (taskId : TaskId) : Option CodexSessionRecord :=
  store.codexSessions.lookup taskId

def upsertCodexSession (store : EventStore) (session : CodexSessionRecord) : EventStore :=
  { store with codexSessions := store.codexSessions.insert session.taskId session }

/-- Take a prepared task to implementing, as long as it is still prepared and
its session is the one that became ready. -/
def enterImplementingWithCodex (store : EventStore) (task : Task) (checkpoint : TaskCheckpoint)
    (session : CodexSessionRecord) : Except String EventStore := do
  ensure (task.id = checkpoint.taskId) "checkpoint task does not match"
  ensure (task.state = checkpoint.state) "checkpoint state does not match"
  ensure (task.state = .implementing) "task is not entering implementing"
  ensure (session.taskId = task.id) "Codex session task does not match"
  ensure (session.status = .ready ∧ session.threadId.isSome) "Codex session is not ready"
  let _ ← (validateSummary checkpoint.summary).mapError JobError.message
  let persistedTask ← okOr "Query returned no rows" (store.loadTask task.id)
  ensure (persistedTask.state = .preparing) "persisted task is not prepared"
  let persistedSession ← okOr "Query returned no rows" (store.codexSession task.id)
  ensure (persistedSession.processGeneration = session.processGeneration ∧
    persistedSession.status = .ready ∧ persistedSession.threadId = session.threadId)
    "persisted Codex session does not match the ready generation"
  return { store.saveTask task checkpoint.summary with
    taskCheckpoints := store.taskCheckpoints ++ [checkpoint] }

/-- The number after the last event of the task. -/
def nextSequence (store : EventStore) (taskId : TaskId) : Nat :=
  ((store.codexEvents.filter fun event => event.taskId = taskId).map
    CodexEventRecord.sequence).foldr max 0 + 1

/-- Record an event behind the others of its task, and move its session to it. -/
def appendCodexEvent (store : EventStore) (session : CodexSessionRecord) (draft : CodexEventDraft)
    (now : DateTime) : Except String (EventStore × CodexSessionRecord) := do
  let kind ← validateCodexEventKind draft.kind
  let summary ← (validateSummary draft.summary).mapError JobError.message
  let content ← draft.content.mapM validateCodexEventContent
  validateOptional draft.threadId "thread id"
  validateOptional draft.turnId "turn id"
  validateOptional draft.itemId "item id"
  let sequence := store.nextSequence session.taskId
  let session := { session with lastSequence := sequence, updatedAt := now }
  let event : CodexEventRecord := {
    taskId := session.taskId, processGeneration := session.processGeneration, sequence, kind,
    summary, threadId := draft.threadId, turnId := draft.turnId, itemId := draft.itemId, content,
    occurredAt := now }
  return ({ store.upsertCodexSession session with
    codexEvents := store.codexEvents ++ [event] }, session)

def saveCodexRuntimeApproval (store : EventStore) (approval : CodexRuntimeApproval) : EventStore :=
  { store with
    codexRuntimeApprovals := store.codexRuntimeApprovals.insert approval.id approval }

end CodexSessions

section Preparations

/-- An approval that a preparation may be claimed on. -/
def AdmitsPreparation (store : EventStore) (approvalId : Uuid) (taskId : TaskId)
    (actionDigest : String) (now : DateTime) : Prop :=
  ∃ row ∈ store.approvals.lookup approvalId, row.taskId = taskId ∧
    row.capability = .prepareWorktree ∧ row.actionDigest = actionDigest ∧
    row.invalidatedAt = none ∧ JulianBefore now row.expiresAt

instance (store : EventStore) (approvalId : Uuid) (taskId : TaskId) (actionDigest : String)
    (now : DateTime) :
    Decidable (store.AdmitsPreparation approvalId taskId actionDigest now) :=
  inferInstanceAs (Decidable (∃ row ∈ store.approvals.lookup approvalId, _))

/-- A preparation of the task is under way. -/
def PreparationActive (store : EventStore) (taskId : TaskId) : Prop :=
  ∃ entry ∈ store.preparationClaims.entries,
    PreparationClaim.taskId entry.2 = taskId ∧ PreparationClaim.completedAt entry.2 = none

instance (store : EventStore) (taskId : TaskId) : Decidable (store.PreparationActive taskId) :=
  inferInstanceAs (Decidable (∃ entry ∈ store.preparationClaims.entries, _ ∧ _))

/-- Claim a preparation.  An approval is claimed once, and a task has one
active claim. -/
def claimPreparation (store : EventStore) (approvalId : Uuid) (taskId : TaskId)
    (actionDigest : String) (now : DateTime) : EventStore × PreparationClaimOutcome :=
  let claimed := store.preparationClaims.lookup approvalId ≠ none
  let admitted := store.AdmitsPreparation approvalId taskId actionDigest now
  if admitted ∧ ¬ claimed ∧ ¬ store.PreparationActive taskId then
    ({ store with
      preparationClaims := store.preparationClaims.insert approvalId {
        taskId, actionDigest, claimedAt := now, result := none, completedAt := none } },
      .claimed)
  else if claimed then (store, .alreadyClaimed)
  else if ¬ admitted then (store, .approvalUnavailable)
  else (store, .taskInProgress)

def completePreparationClaim (store : EventStore) (approvalId : Uuid) (result : String)
    (now : DateTime) : Except String EventStore := do
  ensure (result ∈ ["succeeded", "failed", "interrupted"]) "invalid preparation result"
  let claim ← okOr "preparation approval is not actively claimed"
    (store.preparationClaims.lookup approvalId)
  ensure (claim.completedAt = none) "preparation approval is not actively claimed"
  return { store with
    preparationClaims := store.preparationClaims.insert approvalId
      { claim with result := some result, completedAt := some now } }

def recoverInterruptedPreparations (store : EventStore) (now : DateTime) : EventStore :=
  { store with
    preparationClaims := store.preparationClaims.mapRows fun _ claim =>
      if claim.completedAt = none then
        { claim with result := some "interrupted", completedAt := some now }
      else claim }

end Preparations

section Jobs

def job (store : EventStore) (id : JobId) : Option Job := store.jobs.lookup id

def createJob (store : EventStore) (job : Job) : Except String EventStore := do
  ensure (store.jobs.lookup job.id = none) "UNIQUE constraint failed: jobs.id"
  return { store with
    jobs := store.jobs.insert job.id job
    jobEvents := store.jobEvents ++ [{
      jobId := job.id, state := job.state, summary := job.summary
      checkpoint := job.checkpoint }] }

/-- Move a job that is still in the expected state.  The second component tells
whether it was. -/
def transitionJob (store : EventStore) (id : JobId) (expected next : JobState)
    (cancellation : CancellationState) (summary : String) (checkpoint : Option JobCheckpoint)
    (now : DateTime) : Except String (EventStore × Bool) := do
  ensure (expected.permits next)
    ("invalid job transition: " ++ expected.debug ++ " -> " ++ next.debug)
  let summary ← (validateSummary summary).mapError JobError.message
  match store.job id with
  | none => return (store, false)
  | some current =>
      if current.state ≠ expected then return (store, false)
      else
        let checkpoint := checkpoint.orElse fun _ => current.checkpoint
        return ({ store with
          jobs := store.jobs.insert id { current with
            state := next, cancellation, summary, checkpoint, updatedAt := now
            generation := current.generation + 1 }
          jobEvents := store.jobEvents ++ [{ jobId := id, state := next, summary, checkpoint }] },
          true)

/-- The job has ended. -/
def JobTerminated (store : EventStore) (id : JobId) : Prop :=
  ∃ job, store.job id = some job ∧ job.state.isTerminal

/-- The event that a restart records for a job it interrupts. -/
def interruptedEvent (id : JobId) (job : Job) : JobEvent where
  jobId := id
  state := .interrupted
  summary := "engine restart interrupted job"
  checkpoint := job.checkpoint

def isRecoverable (job : Job) : Bool := job.state = .running || job.state = .cancelling

def recoverInterruptedJobs (store : EventStore) (now : DateTime) : EventStore :=
  { store with
    jobs := store.jobs.mapRows fun _ job =>
      if isRecoverable job then
        { job with
          state := .interrupted, summary := "engine restart interrupted job"
          updatedAt := now, generation := job.generation + 1 }
      else job
    jobEvents := store.jobEvents ++
      ((store.jobs.entries.filter fun entry => isRecoverable entry.2).mergeSort
        fun left right => left.1.uuid.value ≤ right.1.uuid.value).map fun entry =>
          interruptedEvent entry.1 entry.2 }

end Jobs

section Monitors

def monitor (store : EventStore) (id : Uuid) : Option MonitorRecord := store.monitors.lookup id

def saveMonitor (store : EventStore) (monitor : MonitorRecord) : EventStore :=
  { store with monitors := store.monitors.insert monitor.id monitor }

def saveMonitorWithTaskEvent (store : EventStore) (monitor : MonitorRecord) (task : Task)
    (summary : String) : Except String EventStore := do
  ensure (monitor.taskId = task.id) "monitor task does not match event task"
  return (store.saveMonitor monitor).saveTask task summary

end Monitors

section Verifications

def saveVerificationEvidence (store : EventStore) (evidence : VerificationEvidence) :
    Except String EventStore := do
  ensure (∀ stored ∈ store.verificationEvidence,
      ¬ (stored.taskId = evidence.taskId ∧ stored.runId = evidence.runId ∧
        stored.ordinal = evidence.ordinal))
    "UNIQUE constraint failed: verification_evidence"
  return { store with verificationEvidence := store.verificationEvidence ++ [evidence] }

/-- The evidence of one run, in the order it was stored. -/
def evidenceOf (store : EventStore) (runId : Uuid) : List VerificationEvidence :=
  store.verificationEvidence.filter fun evidence => evidence.runId = runId

end Verifications

section Snapshots

/-- Store a snapshot over whatever its repository has. -/
def replaceGithubSnapshot (store : EventStore) (snapshot : GitHubRepositorySnapshot)
    (now : DateTime) : EventStore :=
  { store with
    githubSnapshots := store.githubSnapshots.insert snapshot.repository.fullName
      { payload := snapshot, syncedAt := now } }

def githubRepositoryWithSnapshotAt (store : EventStore) (fullName : String) :
    Option (GitHubRepositorySnapshot × DateTime) :=
  (store.githubSnapshots.lookup fullName).map fun row => (row.payload, row.syncedAt)

end Snapshots

/-- What opening the database does to its rows. -/
def reopen (store : EventStore) (now : DateTime) : EventStore :=
  (store.recoverInterruptedPreparations now).recoverInterruptedJobs now

section Approvals

/-- Store an approval.  On a repeated identifier the columns that the conflict
clause does not name keep their values. -/
def saveApproval [Sha256] (store : EventStore) (approval : Approval) : EventStore :=
  let fresh : ApprovalRow := {
    taskId := approval.fingerprint.taskId
    capability := approval.capability
    actionDigest := approval.fingerprint.digestSha256
    payload := approval
    expiresAt := approval.expiresAt
    invalidatedAt := none }
  let row := match store.approvals.lookup approval.id with
    | none => fresh
    | some existing => { existing with
        payload := fresh.payload
        actionDigest := fresh.actionDigest
        expiresAt := fresh.expiresAt }
  { store with approvals := store.approvals.insert approval.id row }

/-- The stored approval, unless it was invalidated. -/
def approval (store : EventStore) (id : Uuid) : Option Approval :=
  match store.approvals.lookup id with
  | some row => if row.invalidatedAt = none then some row.payload else none
  | none => none

/-- Invalidate the approvals stored under a task that still count. -/
def invalidateTaskApprovals (store : EventStore) (taskId : TaskId) (now : DateTime) :
    EventStore :=
  { store with
    approvals := store.approvals.mapRows fun _ row =>
      if row.taskId = taskId ∧ row.invalidatedAt = none then
        { row with invalidatedAt := some now }
      else row }

end Approvals

section Contracts

def taskContract (store : EventStore) (id : TaskId) : Option TaskContract :=
  store.taskContracts.lookup id

def saveTaskContract (store : EventStore) (contract : TaskContract) : EventStore :=
  { store with taskContracts := store.taskContracts.insert contract.taskId contract }

def repositoryBinding (store : EventStore) (id : RepositoryBindingId) :
    Option RepositoryBinding :=
  store.repositoryBindings.lookup id

/-- Store a binding, unless another binding has its repository name. -/
def saveRepositoryBinding (store : EventStore) (binding : RepositoryBinding) :
    Except String EventStore := do
  ensure (∀ entry ∈ store.repositoryBindings.entries,
      entry.1 = binding.id ∨ entry.2.fullName ≠ binding.fullName)
    "UNIQUE constraint failed: repository_bindings.full_name"
  return { store with
    repositoryBindings := store.repositoryBindings.insert binding.id binding }

end Contracts

section Deliveries

def deliveryResult (store : EventStore) (key : String) : Option Json :=
  (store.deliveries.lookup key).bind Delivery.result

/-- The state the recorded result of a key names. -/
def deliveryState (store : EventStore) (key : String) : Option String :=
  (store.deliveries.lookup key).bind Delivery.resultState

/-- Store a row for a claimed delivery, with the task it moved. -/
def putClaim (store : EventStore) (key : String) (delivery : Delivery)
    (taskEvent : Option (Task × String)) : EventStore :=
  let claimed := { store with deliveries := store.deliveries.insert key delivery }
  match taskEvent with
  | some (task, summary) => claimed.saveTask task summary
  | none => claimed

/-- Claim a delivery: reset the row of a failed one, or insert a new row.
`none` where the key is claimed already. -/
def claimDeliveryWithTaskEvent (store : EventStore) (key : String)
    (taskEvent : Option (Task × String)) (now : DateTime) : Option EventStore :=
  let taskId := taskEvent.map fun event => event.1.id
  let claimedAt := now / nanosPerSecond
  match store.deliveries.lookup key with
  | some delivery =>
      if delivery.resultState = some "failed" then
        some (store.putClaim key { delivery with
          claimedAt, result := none, completedAt := none
          taskId := taskId.orElse fun _ => delivery.taskId } taskEvent)
      else none
  | none =>
      some (store.putClaim key { result := none, claimedAt, completedAt := none, taskId }
        taskEvent)

/-- Write the result of a claimed delivery. -/
def recordResult (store : EventStore) (key : String) (result : Json)
    (completedAt : Option Int) : Except String EventStore := do
  let delivery ← okOr "delivery key was not claimed" (store.deliveries.lookup key)
  return { store with
    deliveries := store.deliveries.insert key
      { delivery with result := some result, completedAt } }

def completeDelivery (store : EventStore) (key : String) (result : Json) (now : DateTime) :
    Except String EventStore :=
  store.recordResult key result (some (now / nanosPerSecond))

def markDeliveryAmbiguous (store : EventStore) (key : String) (result : Json) :
    Except String EventStore :=
  store.recordResult key result none

/-- The latest claimed of the ambiguous deliveries of a task. -/
def ambiguousDeliveryForTask (store : EventStore) (taskId : TaskId) : Option String :=
  let candidates := store.deliveries.entries.filter fun entry =>
    Delivery.IsAmbiguousFor entry.2 taskId
  (candidates.latestBy fun entry => entry.2.claimedAt).map fun entry => entry.1

def completeDeliveryWithTaskEvents (store : EventStore) (key : String) (result : Json)
    (events : List (Task × String)) (now : DateTime) : Except String EventStore := do
  let store ← store.completeDelivery key result now
  return store.saveTaskEvents events

/-- Record a merge that did not happen: the result, the approvals of the task
and its state change together. -/
def completeFailedMergeDelivery (store : EventStore) (key : String) (result : Json)
    (task : Task) (summary : String) (now : DateTime) : Except String EventStore := do
  let store ← store.completeDelivery key result now
  return (store.invalidateTaskApprovals task.id now).saveTask task summary

end Deliveries

theorem completeDelivery_eq (store : EventStore) (key : String) (result : Json)
    (now : DateTime) :
    store.completeDelivery key result now =
      store.completeDeliveryWithTaskEvents key result [] now := by
  unfold completeDeliveryWithTaskEvents
  cases store.completeDelivery key result now <;> rfl

/-! ### What the operations leave alone -/

section Frames

variable (store : EventStore) (task : Task) (summary : String) (events : List (Task × String))

@[simp]
theorem loadTask_saveTask_self : (store.saveTask task summary).loadTask task.id = some task := by
  simp [loadTask, saveTask]

theorem TasksKeyed.saveTask {store : EventStore} (hkeyed : store.TasksKeyed) (task : Task)
    (summary : String) : (store.saveTask task summary).TasksKeyed := by
  intro entry hentry
  simp only [EventStore.saveTask, AList.insert, List.kinsert, List.mem_cons] at hentry
  rcases hentry with rfl | hentry
  · rfl
  · exact hkeyed entry ((List.kerase_sublist _ _).subset hentry)

theorem TasksKeyed.saveTaskEvents {store : EventStore} (hkeyed : store.TasksKeyed)
    (events : List (Task × String)) : (store.saveTaskEvents events).TasksKeyed := by
  induction events generalizing store with
  | nil => exact hkeyed
  | cons event events ih => exact ih (hkeyed.saveTask event.1 event.2)

theorem loadTask_saveTask_ne {id : TaskId} (hid : id ≠ task.id) :
    (store.saveTask task summary).loadTask id = store.loadTask id := by
  simp [loadTask, saveTask, AList.lookup_insert_ne hid]

@[simp]
theorem saveTaskEvents_nil : store.saveTaskEvents [] = store := rfl

@[simp]
theorem saveTaskEvents_cons (event : Task × String) :
    store.saveTaskEvents (event :: events) =
      (store.saveTask event.1 event.2).saveTaskEvents events := rfl

/-- Saving task events touches the two task tables only. -/
theorem saveTaskEvents_frame :
    store.saveTaskEvents events = { store with
      tasks := (store.saveTaskEvents events).tasks
      taskEvents := (store.saveTaskEvents events).taskEvents } := by
  induction events generalizing store with
  | nil => rfl
  | cons event events ih =>
      rw [saveTaskEvents_cons, ih]
      rfl

@[simp]
theorem saveTask_deliveries : (store.saveTask task summary).deliveries = store.deliveries := rfl

@[simp]
theorem saveTask_approvals : (store.saveTask task summary).approvals = store.approvals := rfl

@[simp]
theorem saveTaskEvents_deliveries :
    (store.saveTaskEvents events).deliveries = store.deliveries := by
  rw [saveTaskEvents_frame]

@[simp]
theorem saveTaskEvents_approvals :
    (store.saveTaskEvents events).approvals = store.approvals := by
  rw [saveTaskEvents_frame]

@[simp]
theorem invalidateTaskApprovals_deliveries (taskId : TaskId) (now : DateTime) :
    (store.invalidateTaskApprovals taskId now).deliveries = store.deliveries := rfl

@[simp]
theorem putClaim_approvals (key : String) (delivery : Delivery)
    (taskEvent : Option (Task × String)) :
    (store.putClaim key delivery taskEvent).approvals = store.approvals := by
  cases taskEvent <;> rfl

@[simp]
theorem putClaim_deliveries (key : String) (delivery : Delivery)
    (taskEvent : Option (Task × String)) :
    (store.putClaim key delivery taskEvent).deliveries =
      store.deliveries.insert key delivery := by
  cases taskEvent <;> rfl

theorem TasksKeyed.putClaim {store : EventStore} (hkeyed : store.TasksKeyed) (key : String)
    (delivery : Delivery) (taskEvent : Option (Task × String)) :
    (store.putClaim key delivery taskEvent).TasksKeyed := by
  cases taskEvent with
  | none => exact hkeyed
  | some event => exact TasksKeyed.saveTask hkeyed event.1 event.2

@[simp]
theorem saveApproval_deliveries [Sha256] (approval : Approval) :
    (store.saveApproval approval).deliveries = store.deliveries := rfl

end Frames

/-! ### What a claim and a recorded result do -/

section DeliveryRules

variable {store next : EventStore} {key : String} {result : Json} {now : DateTime}

/-- A claim succeeds on a new key or on one whose delivery failed; the row it
leaves has no result. -/
theorem claimDeliveryWithTaskEvent_eq_some {taskEvent : Option (Task × String)} :
    store.claimDeliveryWithTaskEvent key taskEvent now = some next ↔
      ∃ delivery : Delivery, store.putClaim key delivery taskEvent = next ∧
        delivery.result = none ∧ delivery.completedAt = none ∧
        delivery.claimedAt = now / nanosPerSecond ∧
        ((store.deliveries.lookup key = none ∧
            delivery.taskId = taskEvent.map fun event => event.1.id) ∨
          ∃ old, store.deliveries.lookup key = some old ∧
            old.resultState = some "failed" ∧
            delivery.taskId =
              (taskEvent.map fun event => event.1.id).orElse fun _ => old.taskId) := by
  unfold claimDeliveryWithTaskEvent
  cases hrow : store.deliveries.lookup key with
  | none =>
      simp only [Option.some.injEq, true_and, reduceCtorEq, false_and, exists_false, or_false]
      constructor
      · intro hnext
        exact ⟨_, hnext, rfl, rfl, rfl, rfl⟩
      · rintro ⟨⟨result, claimedAt, completedAt, taskId⟩, hnext, rfl, rfl, rfl, rfl⟩
        exact hnext
  | some old =>
      by_cases hfailed : old.resultState = some "failed"
      · simp only [hfailed, if_true, Option.some.injEq, reduceCtorEq, false_and, false_or]
        constructor
        · intro hnext
          exact ⟨_, hnext, rfl, rfl, rfl, old, rfl, hfailed, rfl⟩
        · rintro ⟨⟨result, claimedAt, completedAt, taskId⟩, hnext, rfl, rfl, rfl, _, rfl, _, rfl⟩
          exact hnext
      · simp [hfailed]

/-- A key can be claimed when it is new or its delivery failed. -/
theorem claimDeliveryWithTaskEvent_isSome (taskEvent : Option (Task × String)) :
    (store.claimDeliveryWithTaskEvent key taskEvent now).isSome ↔
      store.deliveries.lookup key = none ∨ store.deliveryState key = some "failed" := by
  unfold claimDeliveryWithTaskEvent deliveryState
  cases store.deliveries.lookup key with
  | none => exact iff_of_true rfl (.inl rfl)
  | some old =>
      dsimp only [Option.bind_some]
      split
      · next hfailed => exact iff_of_true rfl (.inr hfailed)
      · next hopen => exact iff_of_false nofun fun hrow => hrow.elim nofun hopen

theorem recordResult_eq_ok {completedAt : Option Int} :
    store.recordResult key result completedAt = .ok next ↔
      ∃ delivery, store.deliveries.lookup key = some delivery ∧
        { store with
          deliveries := store.deliveries.insert key
            { delivery with result := some result, completedAt } } = next := by
  simp [recordResult]

theorem recordResult_of_claimed {delivery : Delivery} (result : Json) (completedAt : Option Int)
    (hrow : store.deliveries.lookup key = some delivery) :
    store.recordResult key result completedAt = .ok { store with
      deliveries := store.deliveries.insert key
        { delivery with result := some result, completedAt } } :=
  recordResult_eq_ok.2 ⟨delivery, hrow, rfl⟩

end DeliveryRules

/-! ### What a transition of a job does -/

section JobRules

variable {store : EventStore} {id : JobId} {expected next : JobState}
variable {cancellation : CancellationState} {summary : String} {checkpoint : Option JobCheckpoint}
variable {now : DateTime} {job : Job}

theorem transitionJob_of_not_permits (hpermits : ¬ expected.permits next) :
    store.transitionJob id expected next cancellation summary checkpoint now =
      .error ("invalid job transition: " ++ expected.debug ++ " -> " ++ next.debug) := by
  rw [transitionJob, ensure, if_neg hpermits]
  rfl

/-- A job in another state is left as it is. -/
theorem transitionJob_of_ne {text : String} (hpermits : expected.permits next)
    (htext : validateSummary summary = .ok text) (hjob : store.job id = some job)
    (hstate : job.state ≠ expected) :
    store.transitionJob id expected next cancellation summary checkpoint now =
      .ok (store, false) := by
  unfold transitionJob
  rw [ensure, if_pos hpermits, htext, hjob]
  exact if_pos hstate

/-- A job in the expected state is moved. -/
theorem transitionJob_of_eq {text : String} (cancellation : CancellationState)
    (checkpoint : Option JobCheckpoint) (now : DateTime) (hpermits : expected.permits next)
    (htext : validateSummary summary = .ok text) (hjob : store.job id = some job)
    (hstate : job.state = expected) :
    ∃ moved, store.transitionJob id expected next cancellation summary checkpoint now =
        .ok (moved, true) ∧
      moved.job id = some { job with
        state := next, cancellation, summary := text
        checkpoint := checkpoint.orElse fun _ => job.checkpoint
        updatedAt := now, generation := job.generation + 1 } := by
  unfold transitionJob
  rw [ensure, if_pos hpermits, htext, hjob]
  exact ⟨_, if_neg (not_not.mpr hstate), AList.lookup_insert _⟩

end JobRules

end EventStore

end Patchwright
