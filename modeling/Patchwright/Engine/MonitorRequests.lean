import Patchwright.Engine.Delivery
import Patchwright.Engine.Evidence

/-!
# Requests about monitors

A monitor is started for a task in monitoring against the stored snapshot of
its repository, and observes that snapshot on request.  The snapshot has to be
fresh: the age that counts is the time since it was stored.  An observation
that succeeds takes the task to its merge gate.
-/

namespace Patchwright

open Checked

def maxMonitorSnapshotAge : Duration := minutes 5

/-- The stored snapshot of a repository and the instant it was stored, if that
is recent. -/
def freshGithubSnapshot (store : EventStore) (repositoryFullName : String) (now : DateTime) :
    Except String (GitHubRepositorySnapshot × DateTime) := do
  let (snapshot, snapshotAt) ← okOr "repository is missing from the GitHub snapshot"
    (store.githubRepositoryWithSnapshotAt repositoryFullName)
  ensure (0 ≤ now - snapshotAt ∧ now - snapshotAt ≤ maxMonitorSnapshotAge)
    "GitHub snapshot is stale; sync the repository before monitoring"
  return (snapshot, snapshotAt)

section Starting

structure MonitorStartRequest where
  taskId : TaskId
  repositoryFullName : String
  pullRequestNumber : Nat
  expectedHeadSha : String
  expectedBaseSha : String
  repairBudget : Nat
  deriving DecidableEq, Repr

def validateMonitorTarget (task : Task) (item : GitHubWorkItem) (request : MonitorStartRequest) :
    Except String Unit := do
  ensure (item.headSha = some request.expectedHeadSha ∧
    item.baseSha = some request.expectedBaseSha)
    "monitor SHA identity does not match the fresh pull request"
  match task.source with
  | .gitHubPullRequest _ =>
      ensure (task.source.repositoryFullName = some request.repositoryFullName ∧
        task.source.itemNumber = some request.pullRequestNumber ∧
        task.source.headSha = some request.expectedHeadSha ∧
        task.source.baseSha = some request.expectedBaseSha)
        "monitor target does not match the task pull-request source"
  | .gitHubIssue _ => do
      ensure (task.source.repositoryFullName = some request.repositoryFullName)
        "monitor repository does not match the task issue source"
      ensure (item.headRef = some (preparedBranch task.id))
        "monitor pull request is not the task's prepared branch"
  | .localRequest =>
      ensure (item.headRef = some (preparedBranch task.id))
        "monitor pull request is not the task's prepared branch"

/-- A monitor for the pull request that a task in monitoring waits for. -/
def createVerifiedMonitor (ambient : Ambient) (store : EventStore)
    (request : MonitorStartRequest) (id : Uuid) : Except String MonitorRecord := do
  let task ← okOr "task is missing" (store.loadTask request.taskId)
  ensure (task.state = .monitoring) "task is not in the monitoring state"
  let contract ← okOr "task contract is missing" (store.taskContract task.id)
  ensure (contract.source = task.source) "task source no longer matches its contract"
  ensure (task.repositoryBindingId = some contract.repositoryBindingId)
    "task repository binding no longer matches its contract"
  let binding ← okOr "task repository binding is missing"
    (store.repositoryBinding contract.repositoryBindingId)
  ensure (binding.fullName = request.repositoryFullName)
    "monitor repository does not match the task binding"
  let (snapshot, snapshotAt) ← freshGithubSnapshot store request.repositoryFullName ambient.now
  let item ← okOr "pull request is missing from the fresh GitHub snapshot"
    (snapshot.workItems.find? fun item =>
      item.kind = .pullRequest ∧ item.repositoryFullName = request.repositoryFullName ∧
        item.number = request.pullRequestNumber)
  validateMonitorTarget task item request
  (MonitorRecord.new id request.taskId request.repositoryFullName request.pullRequestNumber
    request.expectedHeadSha request.expectedBaseSha snapshotAt
    request.repairBudget).mapError MonitoringError.message

def monitorStart (ambient : Ambient) (store : EventStore) (request : MonitorStartRequest)
    (id : Uuid) : Except String EventStore := do
  let monitor ← createVerifiedMonitor ambient store request id
  return store.saveMonitor monitor

end Starting

section Observing

/-- The stored snapshot a monitor would look at, as it answers it. -/
def observeFresh (ambient : Ambient) (store : EventStore) (monitorId : Uuid) :
    Except String (MonitorRecord × MonitorOutcome) := do
  let monitor ← okOr "monitor is missing" (store.monitor monitorId)
  let (snapshot, snapshotAt) ←
    freshGithubSnapshot store monitor.repositoryFullName ambient.now
  observeSnapshot monitor snapshot snapshotAt ambient.now

/-- Take the task of a monitor that has succeeded to its merge gate. -/
def passMonitoring (ambient : Ambient) (store : EventStore) (monitor : MonitorRecord) :
    Except String EventStore := do
  let task ← okOr "task is missing" (store.loadTask monitor.taskId)
  ensure (task.state = .monitoring) "task is not in the monitoring state"
  let task ← (task.transition .awaitingMergeApproval ambient.now).mapError
    ValidationError.message
  store.saveMonitorWithTaskEvent monitor task
    "GitHub evidence satisfied monitoring; merge approval is required"

/-- One observation.  Approvals that it invalidates stay invalidated where a
later check rejects it. -/
def monitorObserve (ambient : Ambient) (store : EventStore) (monitorId : Uuid) :
    EventStore × Except String MonitorOutcome :=
  match observeFresh ambient store monitorId with
  | .error error => (store, .error error)
  | .ok (monitor, outcome) =>
      let store := if outcome.invalidateApprovals then
        store.invalidateTaskApprovals monitor.taskId ambient.now else store
      if outcome.state = .succeeded then
        match passMonitoring ambient store monitor with
        | .error error => (store, .error error)
        | .ok passed => (passed, .ok outcome)
      else (store.saveMonitor monitor, .ok outcome)

def mutateMonitor (store : EventStore) (monitorId : Uuid)
    (mutate : MonitorRecord → MonitorRecord × Bool) : Except String EventStore := do
  let monitor ← okOr "monitor is missing" (store.monitor monitorId)
  let (monitor, changed) := mutate monitor
  return if changed then store.saveMonitor monitor else store

def monitorWake (ambient : Ambient) (store : EventStore) (monitorId : Uuid) :
    Except String EventStore :=
  mutateMonitor store monitorId fun monitor => monitor.wake ambient.now

def monitorCancel (ambient : Ambient) (store : EventStore) (monitorId : Uuid) :
    Except String EventStore :=
  mutateMonitor store monitorId fun monitor => monitor.cancel ambient.now

end Observing

end Patchwright
