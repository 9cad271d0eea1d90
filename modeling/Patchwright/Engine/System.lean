import Patchwright.Library.Runs
import Patchwright.Codex.Service
import Patchwright.Engine.MonitorRequests

/-!
# The engine

The engine serves any number of requests at once.  They share one store behind
a mutex, and a step of the engine is one hold of it: what a request does between
two holds shows in the step that starts its next one.  A request that has let go
of the store is an `RpcCall`; the Codex service keeps its own place.

Beside the source, the engine counts its steps.  It notes when the request of a
delivery was sent and when the fetch of a stored snapshot was started; nothing
it does depends on these notes.
-/

namespace Patchwright

open Checked

/-- The moment a snapshot was asked for. -/
structure Fetch where
  tick : Nat
  startedAt : DateTime
  deriving DecidableEq, Repr

structure SentNote where
  taskId : TaskId
  tick : Nat
  deriving DecidableEq, Repr

section System

variable [Sha256]

/-- Where a request has let go of the store. -/
inductive RpcCall where
  | planning (task : Task)
  | claimed (approvalId : Uuid) (preview : PreparationPreview)
  | preparing (approvalId : Uuid) (preview : PreparationPreview) (task : Task)
  | prepared (approvalId : Uuid) (succeeded : Bool)
  | verifying (task : Task)
  | executing (preview : DeliveryPreview) (key : String)
  | sent (preview : DeliveryPreview) (key : String)
      (result : Except MutationError MutationResult)
  | reconciling (taskId : TaskId) (repositoryId : Nat)
  | fetching (taskId : Option TaskId) (repository : GitHubRepository) (fetch : Fetch)

structure Engine where
  store : EventStore
  codex : CodexService
  calls : Table Nat RpcCall
  ticks : Nat
  sentAt : Table String SentNote
  storedFetch : Table String Fetch

/-- An engine that has just opened its database. -/
def Engine.opened (store : EventStore) (now : DateTime) : Engine where
  store := store.reopen now
  codex := .idle
  calls := ∅
  ticks := 0
  sentAt := ∅
  storedFetch := ∅

namespace Engine

def endCall (engine : Engine) (id : Nat) : Engine :=
  { engine with calls := engine.calls.erase id }

def putCall (engine : Engine) (id : Nat) (call : RpcCall) : Engine :=
  { engine with calls := engine.calls.insert id call }

/-- Commit a hold, and go on with the call or end it. -/
def commit {ε α : Type} (engine : Engine) (id : Nat) (store : EventStore)
    (next : α → Option RpcCall) (outcome : Except ε α) : Engine :=
  let committed := { engine with store }
  match outcome.toOption.bind next with
  | some call => committed.putCall id call
  | none => committed.endCall id

end Engine

/-- The requests that take a task to its delivery gate. -/
inductive TaskAction where
  | create (id : TaskId) (title repositoryPath : String)
  | convert (task : Task) (sourceKey : String)
  | bind (binding : RepositoryBinding)
  | plan (call : Nat) (taskId : TaskId)
  | finishPlan (call : Nat) (assessed : Except String TaskContract)
  | approvePreparation (preview : PreparationPreview) (approvedBy : String) (id : Uuid)
  | prepare (call : Nat) (preview : PreparationPreview) (approvalId : Uuid)
  | loadPreparation (call : Nat)
  | savePreparation (call : Nat) (worktree : Except String Unit) (checkpointId : Uuid)
  | completePreparation (call : Nat)
  | verify (call : Nat) (taskId : TaskId)
  | finishVerify (call : Nat) (run : VerificationRun) (checkpointId : Uuid)

/-- The requests of the delivery protocol. -/
inductive DeliveryAction where
  | approve (preview : DeliveryPreview) (approvedBy : String) (id : Uuid)
  | execute (call : Nat) (preview : DeliveryPreview) (approvalId : Uuid)
  | send (call : Nat) (outside : Outside)
  | record (call : Nat)
  | reconcile (call : Nat) (taskId : TaskId)

/-- Fetching and storing snapshots.  A fetch belongs to a synchronization, or to
the reconciliation of a task. -/
inductive SnapshotAction where
  | sync (call : Nat) (repository : GitHubRepository)
  | fetchTask (call : Nat) (repository : GitHubRepository)
  | fail (call : Nat)
  | store (call : Nat) (snapshot : GitHubRepositorySnapshot)

inductive MonitorAction where
  | start (request : MonitorStartRequest) (id : Uuid)
  | observe (id : Uuid)
  | wake (id : Uuid)
  | cancel (id : Uuid)

inductive Action where
  | task (action : TaskAction)
  | delivery (action : DeliveryAction)
  | snapshot (action : SnapshotAction)
  | monitor (action : MonitorAction)
  | codex (event : CodexEvent)
  | restart

structure Event where
  ambient : Ambient
  action : Action

/-- Whether a conversion may build this task. -/
def IsConverted (task : Task) : Prop :=
  task.state = .discovered ∧ task.interruption = none ∧ task.source ≠ .localRequest

instance (task : Task) : Decidable (IsConverted task) :=
  inferInstanceAs (Decidable (_ ∧ _ ∧ _))

def taskStep (ambient : Ambient) (engine : Engine) : TaskAction → Option Engine
  | .create id title repositoryPath =>
      if engine.store.loadTask id = none then
        some { engine with
          store := (createTask ambient engine.store id title repositoryPath).toOption.getD
            engine.store }
      else none
  | .convert task sourceKey =>
      if IsConverted task ∧ engine.store.loadTask task.id = none then
        some { engine with
          store := ((engine.store.createConvertedTask task sourceKey).toOption.map
            Prod.fst).getD engine.store }
      else none
  | .bind binding =>
      some { engine with
        store := (engine.store.saveRepositoryBinding binding).toOption.getD engine.store }
  | .plan call taskId =>
      if engine.calls.lookup call = none then
        some (engine.commit call engine.store
          (fun begun => begun.map fun (task, _) => .planning task)
          (planBegin engine.store taskId))
      else none
  | .finishPlan call assessed =>
      match engine.calls.lookup call with
      | some (.planning task) =>
          some ({ engine with
            store := (assessed.bind (planFinish ambient engine.store task)).toOption.getD
              engine.store }.endCall call)
      | _ => none
  | .approvePreparation preview approvedBy id =>
      if engine.store.approvals.lookup id = none then
        some { engine with
          store := ((approvePreparation ambient engine.store preview approvedBy
            id).toOption.map Prod.fst).getD engine.store }
      else none
  | .prepare call preview approvalId =>
      if engine.calls.lookup call = none then
        let authorised := authorizePreparation ambient engine.store preview approvalId
        some (engine.commit call (authorised.toOption.getD engine.store)
          (fun _ => some (.claimed approvalId preview)) authorised)
      else none
  | .loadPreparation call =>
      match engine.calls.lookup call with
      | some (.claimed approvalId preview) =>
          match prepareLoad engine.store preview with
          | .ok (task, _) => some (engine.putCall call (.preparing approvalId preview task))
          | .error _ => some (engine.putCall call (.prepared approvalId false))
      | _ => none
  | .savePreparation call worktree checkpointId =>
      match engine.calls.lookup call with
      | some (.preparing approvalId preview task) =>
          let saved := worktree.bind fun _ =>
            prepareSave ambient engine.store task preview.worktreePath checkpointId
          some ({ engine with store := saved.toOption.getD engine.store }.putCall call
            (.prepared approvalId saved.isOk))
      | _ => none
  | .completePreparation call =>
      match engine.calls.lookup call with
      | some (.prepared approvalId succeeded) =>
          some ({ engine with
            store := (engine.store.completePreparationClaim approvalId
              (if succeeded then "succeeded" else "failed") ambient.now).toOption.getD
                engine.store }.endCall call)
      | _ => none
  | .verify call taskId =>
      if engine.calls.lookup call = none then
        let held := verifyBegin ambient engine.store taskId
        some (engine.commit call held.1
          (fun begun => begun.map fun (task, _) => .verifying task) held.2)
      else none
  | .finishVerify call run checkpointId =>
      match engine.calls.lookup call with
      | some (.verifying task) =>
          some ({ engine with
            store := (run.check.bind fun _ =>
              verifyFinish ambient engine.store task checkpointId).toOption.getD
                engine.store }.endCall call)
      | _ => none

/-- The first hold of `task.reconcileGitHub`: the repository to ask about. -/
def reconcileBegin (store : EventStore) (taskId : TaskId) : Except String Nat := do
  let task ← okOr "task is missing" (store.loadTask taskId)
  let fullName ← okOr "task is not backed by GitHub" task.source.repositoryFullName
  let repositoryId ← okOr "task is not backed by GitHub" task.source.repositoryId
  let bindingId ← okOr "task repository binding is missing" task.repositoryBindingId
  let binding ← okOr "task repository binding is missing" (store.repositoryBinding bindingId)
  ensure (binding.githubRepositoryId = repositoryId ∧ binding.fullName = fullName)
    "task repository identity changed"
  return repositoryId

def deliveryCallStep (ambient : Ambient) (engine : Engine) : DeliveryAction → Option Engine
  | .approve preview approvedBy id =>
      if engine.store.approvals.lookup id = none then
        some { engine with
          store := ((approveDelivery ambient engine.store preview approvedBy id).toOption.map
            Prod.fst).getD engine.store }
      else none
  | .execute call preview approvalId =>
      if engine.calls.lookup call = none then
        match authorizeExecution ambient engine.store preview approvalId with
        | .ok (store, key) => some ({ engine with store }.putCall call (.executing preview key))
        | .error _ => some engine
      else none
  | .send call outside =>
      match engine.calls.lookup call with
      | some (.executing preview key) =>
          some ({ engine with
            sentAt := engine.sentAt.insert key ⟨preview.taskId, engine.ticks⟩ }.putCall call
              (.sent preview key (executeGithubAction outside engine.store preview).1))
      | _ => none
  | .record call =>
      match engine.calls.lookup call with
      | some (.sent preview key result) =>
          some ({ engine with
            store := (recordOutcome ambient engine.store preview key result).toOption.getD
              engine.store }.endCall call)
      | _ => none
  | .reconcile call taskId =>
      if engine.calls.lookup call = none then
        some (engine.commit call engine.store
          (fun repositoryId => some (.reconciling taskId repositoryId))
          (reconcileBegin engine.store taskId))
      else none

/-- Store a fetched snapshot; a reconciliation then settles its task with it. -/
def storeSnapshot (ambient : Ambient) (store : EventStore) (taskId : Option TaskId)
    (snapshot : GitHubRepositorySnapshot) : EventStore :=
  let store := store.replaceGithubSnapshot snapshot ambient.now
  match taskId with
  | none => store
  | some taskId =>
      ((reconcileCompletedTaskFromSnapshot ambient store taskId snapshot).toOption.map
        Prod.fst).getD store

def snapshotStep (ambient : Ambient) (engine : Engine) : SnapshotAction → Option Engine
  | .sync call repository =>
      if engine.calls.lookup call = none then
        some (engine.putCall call (.fetching none repository ⟨engine.ticks, ambient.now⟩))
      else none
  | .fetchTask call repository =>
      match engine.calls.lookup call with
      | some (.reconciling taskId repositoryId) =>
          if repository.id = repositoryId then
            some (engine.putCall call
              (.fetching (some taskId) repository ⟨engine.ticks, ambient.now⟩))
          else some (engine.endCall call)
      | _ => none
  | .fail call =>
      match engine.calls.lookup call with
      | some (.fetching ..) | some (.reconciling ..) => some (engine.endCall call)
      | _ => none
  | .store call snapshot =>
      match engine.calls.lookup call with
      | some (.fetching taskId repository fetch) =>
          if snapshot.repository = repository then
            some ({ engine with
              store := storeSnapshot ambient engine.store taskId snapshot
              storedFetch := engine.storedFetch.insert repository.fullName fetch }.endCall call)
          else none
      | _ => none

def monitorStep (ambient : Ambient) (engine : Engine) : MonitorAction → Engine
  | .start request id =>
      { engine with
        store := (monitorStart ambient engine.store request id).toOption.getD engine.store }
  | .observe id => { engine with store := (monitorObserve ambient engine.store id).1 }
  | .wake id =>
      { engine with store := (monitorWake ambient engine.store id).toOption.getD engine.store }
  | .cancel id =>
      { engine with store := (monitorCancel ambient engine.store id).toOption.getD engine.store }

/-- A restart ends every call and every process; the notes are kept. -/
def restarted (ambient : Ambient) (engine : Engine) : Engine :=
  { engine with store := engine.store.reopen ambient.now, codex := .idle, calls := ∅ }

def actionStep (ambient : Ambient) (engine : Engine) : Action → Option Engine
  | .task action => taskStep ambient engine action
  | .delivery action => deliveryCallStep ambient engine action
  | .snapshot action => snapshotStep ambient engine action
  | .monitor action => some (monitorStep ambient engine action)
  | .codex event =>
      (codexStep ambient engine.store engine.codex event).map fun (store, codex) =>
        { engine with store, codex }
  | .restart => some (restarted ambient engine)

/-- One step of the engine. -/
def engineStep (engine : Engine) (event : Event) : Option Engine :=
  (actionStep event.ambient engine event.action).map fun next =>
    { next with ticks := engine.ticks + 1 }

end System

end Patchwright
