import Patchwright.Engine.TaskRequests

/-!
# The Codex service

One service owns every running app-server process.  It is behind a lock of its
own, so its operations follow one another; but each of them takes the store
several times, and between two holds any other request may run.  An operation
that is under way is a `CodexCall`, one constructor for each place where it has
let go of the store.

An interruption is the case to watch: the task is loaded in one hold, a copy of
it is interrupted, and the copy is stored in a later hold as it is.
-/

namespace Patchwright

open Checked

/-- A running process: its session, the turn it works on and its job. -/
structure ActiveCodex where
  session : CodexSessionRecord
  activeTurnId : Option String
  executionJobId : JobId
  deriving DecidableEq, Repr

inductive CodexCall where
  | starting (task : Task)
  | connected (task : Task) (session : CodexSessionRecord)
  | entered (taskId : TaskId) (session : CodexSessionRecord)
  | stopping (taskId : TaskId) (cancel hadTurn : Bool) (active : ActiveCodex)
  | stopped (copy : Task) (cancel : Bool) (executionJobId : JobId)
  | stopSaved (cancel : Bool) (executionJobId : JobId)
  | turnFinished (executionJobId : JobId)
  | crashing (taskId : TaskId) (executionJobId : JobId)
  | crashed (copy : Task) (executionJobId : JobId)
  | crashSaved (executionJobId : JobId)
  deriving DecidableEq, Repr

structure CodexService where
  active : Table TaskId ActiveCodex
  call : Option CodexCall

def CodexService.idle : CodexService := ⟨∅, none⟩

/-- The next place of an operation whose hold succeeds; one that fails is over. -/
def CodexService.goOn {ε α : Type} (service : CodexService) (next : α → CodexCall)
    (outcome : Except ε α) : CodexService :=
  { service with call := outcome.toOption.map next }

section Starting

/-- A paused task is resumed, and stays resumed where the start is refused. -/
def resumePaused (ambient : Ambient) (store : EventStore) (task : Task) :
    Except String (EventStore × Task) :=
  if task.state = .paused then do
    let resumed ← (task.resume ambient.now).mapError
      fun _ => "task state " ++ task.state.display ++ " cannot start Codex"
    return (store.saveTask resumed "Codex task resumed", resumed)
  else .ok (store, task)

/-- The first hold of `codex.start`. -/
def startLoad (ambient : Ambient) (store : EventStore) (taskId : TaskId) : Held Task :=
  match store.loadTask taskId with
  | none => (store, .error "task was not found")
  | some task =>
      match resumePaused ambient store task with
      | .error error => (store, .error error)
      | .ok (store, task) =>
          (store, do
            ensure (task.state = .preparing ∨ task.state = .implementing)
              ("task state " ++ task.state.display ++ " cannot start Codex")
            return task)

/-- The hold in which a prepared task becomes implementing, if the session is
ready and the task was loaded as prepared. -/
def startEnter (ambient : Ambient) (store : EventStore) (task : Task)
    (session : CodexSessionRecord) (checkpointId : Uuid) : Except String EventStore :=
  if session.status = .ready ∧ task.state = .preparing then do
    let task ← (task.transition .implementing ambient.now).mapError ValidationError.message
    let checkpoint ← (TaskCheckpoint.new checkpointId ambient.now task.id task.state
      "Codex thread ready").mapError JobError.message
    store.enterImplementingWithCodex task checkpoint session
  else .ok store

/-- The hold that records the job of a started session. -/
def startRun (ambient : Ambient) (store : EventStore) (taskId : TaskId) (jobId : JobId) :
    Held Unit :=
  match Job.new jobId ambient.now .taskExecution (some taskId) "Codex task execution queued" with
  | .error error => (store, .error error.message)
  | .ok job =>
      match store.createJob job with
      | .error error => (store, .error error)
      | .ok created =>
          match created.transitionJob jobId .queued .running .notRequested
              "Codex task execution running" none ambient.now with
          | .error error => (created, .error error)
          | .ok (running, moved) =>
              (running, ensure moved
                "durable Codex job compare-and-set transition failed")

end Starting

section Turns

/-- The hold of `persist_incoming` for a completed turn: an implementing task
is submitted for verification. -/
def completeTurn (ambient : Ambient) (store : EventStore) (taskId : TaskId)
    (checkpointId : Uuid) : Except String EventStore := do
  let task ← okOr "task was not found" (store.loadTask taskId)
  if task.state = .implementing then
    let task ← (task.transition .verifying ambient.now).mapError ValidationError.message
    let checkpoint ← (TaskCheckpoint.new checkpointId ambient.now task.id task.state
      "Codex turn completed; verification is ready").mapError JobError.message
    store.saveTaskWithCheckpoint { task with checkpointId := some checkpoint.id }
      "Codex implementation turn completed" checkpoint
  else return store

end Turns

section Interrupting

def stopState (cancel : Bool) : TaskState := if cancel then .cancelled else .paused

def stopReason (cancel : Bool) : String :=
  if cancel then "Cancelled by operator; worktree and evidence retained"
  else "Paused by operator; worktree and evidence retained"

def stopSummary (cancel : Bool) : String :=
  if cancel then "Codex task cancelled" else "Codex task paused"

/-- The first hold of an interruption: the job has to be running. -/
def interruptBegin (ambient : Ambient) (store : EventStore) (jobId : JobId) (cancel : Bool) :
    Except String EventStore := do
  let (store, moved) ← store.transitionJob jobId .running .cancelling .requested
    (if cancel then "Codex task cancellation requested" else "Codex task pause requested") none
    ambient.now
  ensure moved "durable Codex job compare-and-set transition failed"
  return store

/-- Load the task once the process has ended, and interrupt the copy unless the
turn has completed meanwhile. -/
def interruptLoad (ambient : Ambient) (store : EventStore) (taskId : TaskId)
    (cancel completed : Bool) (jobId : JobId) : Except String CodexCall := do
  let task ← okOr "task was not found" (store.loadTask taskId)
  if completed then return .turnFinished jobId
  else
    let copy ← (task.interrupt (stopState cancel) (stopReason cancel) ambient.now).mapError
      fun _ => "task state " ++ task.state.display ++ " cannot start Codex"
    return .stopped copy cancel jobId

/-- Store an interrupted copy over whatever the task has become. -/
def saveInterrupted (ambient : Ambient) (store : EventStore) (copy : Task) (summary : String)
    (checkpointId : Uuid) : Except String EventStore := do
  let checkpoint ← (TaskCheckpoint.new checkpointId ambient.now copy.id copy.state
    summary).mapError JobError.message
  store.saveTaskWithCheckpoint copy summary checkpoint

/-- The last hold of an interruption. -/
def interruptEnd (ambient : Ambient) (store : EventStore) (jobId : JobId) (next : JobState)
    (summary : String) : EventStore :=
  match store.transitionJob jobId .cancelling next .acknowledged summary none ambient.now with
  | .error _ => store
  | .ok (moved, _) => moved

end Interrupting

section Crashing

/-- Load the task of a process that has ended unexpectedly, and fail the copy.
A task that has ended is left alone. -/
def crashLoad (ambient : Ambient) (store : EventStore) (taskId : TaskId) (jobId : JobId) :
    Except String CodexCall := do
  let task ← okOr "task was not found" (store.loadTask taskId)
  if task.state = .failed ∨ task.state = .cancelled ∨ task.state = .completed then
    return .crashSaved jobId
  else
    let copy ← (task.interrupt .failed
      "Codex app-server exited unexpectedly; worktree and evidence retained"
      ambient.now).mapError fun _ =>
        "task state " ++ task.state.display ++ " cannot start Codex"
    return .crashed copy jobId

def crashEnd (ambient : Ambient) (store : EventStore) (jobId : JobId) : EventStore :=
  match store.transitionJob jobId .running .failed .notRequested
      "Codex app-server exited unexpectedly" none ambient.now with
  | .error _ => store
  | .ok (moved, _) => moved

end Crashing

/-! ### The service as a machine -/

/-- One step of the service.  `received` is the notification of a completed
turn; `answered` tells whether the process has answered the request to
interrupt its turn. -/
inductive CodexEvent where
  | start (taskId : TaskId)
  | connect (session : Option CodexSessionRecord)
  | enter (checkpointId : Uuid)
  | launch (jobId : JobId)
  | beginTurn (taskId : TaskId) (turnId : String)
  | received (taskId : TaskId) (threadId turnId : Option String) (checkpointId : Uuid)
  | interrupt (taskId : TaskId) (cancel : Bool)
  | loadInterrupted (answered : Bool)
  | saveInterrupted (checkpointId : Uuid)
  | endInterrupt
  | crash (taskId : TaskId)
  | loadCrashed
  | saveCrashed (checkpointId : Uuid)
  | endCrash
  | abandon
  deriving DecidableEq, Repr

/-- Whether a notification is about the turn a process works on. -/
def ActiveCodex.worksOn (active : ActiveCodex) (threadId turnId : Option String) : Bool :=
  threadId = active.session.threadId ∧ turnId = active.activeTurnId

/-- The processes that read notifications: those in the table while no
operation has let go of the store, and the one that is being interrupted. -/
def CodexService.listener (service : CodexService) (taskId : TaskId) : Option ActiveCodex :=
  match service.call with
  | none => service.active.lookup taskId
  | some (.stopping stopping _ _ active) => if stopping = taskId then some active else none
  | some _ => none

/-- Forget the turn of a listener. -/
def CodexService.clearTurn (service : CodexService) (taskId : TaskId) : CodexService :=
  match service.call with
  | some (.stopping stopping cancel hadTurn active) =>
      { service with
        call := some (.stopping stopping cancel hadTurn { active with activeTurnId := none }) }
  | _ => { service with
      active := service.active.modify taskId fun active => { active with activeTurnId := none } }

/-- One step of the service on the store.  It is refused where the service is
not at the place the step starts from. -/
def codexStep (ambient : Ambient) (store : EventStore) (service : CodexService) :
    CodexEvent → Option (EventStore × CodexService)
  | .start taskId =>
      if service.call = none ∧ service.active.lookup taskId = none then
        let held := startLoad ambient store taskId
        some (held.1, service.goOn .starting held.2)
      else none
  | .connect session =>
      match service.call, session with
      | some (.starting task), some session =>
          if session.taskId = task.id then
            some (store.upsertCodexSession session,
              { service with call := some (.connected task session) })
          else none
      | some (.starting _), none => some (store, { service with call := none })
      | _, _ => none
  | .enter checkpointId =>
      match service.call with
      | some (.connected task session) =>
          let entered := startEnter ambient store task session checkpointId
          some (entered.toOption.getD store,
            service.goOn (fun _ => .entered task.id session) entered)
      | _ => none
  | .launch jobId =>
      match service.call with
      | some (.entered taskId session) =>
          let held := startRun ambient store taskId jobId
          match held.2 with
          | .ok _ => some (held.1, {
              active := service.active.insert taskId ⟨session, none, jobId⟩, call := none })
          | .error _ => some (held.1, { service with call := none })
      | _ => none
  | .beginTurn taskId turnId =>
      if service.call = none ∧ (service.active.lookup taskId).isSome then
        some (store, { service with
          active := service.active.modify taskId fun active =>
            { active with activeTurnId := some turnId } })
      else none
  | .received taskId threadId turnId checkpointId =>
      match service.listener taskId with
      | some active =>
          if active.worksOn threadId turnId then
            some ((completeTurn ambient store taskId checkpointId).toOption.getD store,
              service.clearTurn taskId)
          else some (store, service)
      | none => none
  | .interrupt taskId cancel =>
      match service.call, service.active.lookup taskId with
      | none, some active =>
          let begun := interruptBegin ambient store active.executionJobId cancel
          let hadTurn := active.session.threadId.isSome && active.activeTurnId.isSome
          some (begun.toOption.getD store, {
            active := service.active.erase taskId
            call := begun.toOption.map fun _ => .stopping taskId cancel hadTurn active })
      | _, _ => none
  | .loadInterrupted answered =>
      match service.call with
      | some (.stopping taskId cancel hadTurn active) =>
          let completed := hadTurn && answered && active.activeTurnId.isNone
          some (store, service.goOn id
            (interruptLoad ambient store taskId cancel completed active.executionJobId))
      | _ => none
  | .saveInterrupted checkpointId =>
      match service.call with
      | some (.stopped copy cancel jobId) =>
          let saved := Patchwright.saveInterrupted ambient store copy (stopSummary cancel)
            checkpointId
          some (saved.toOption.getD store, service.goOn (fun _ => .stopSaved cancel jobId) saved)
      | _ => none
  | .endInterrupt =>
      match service.call with
      | some (.stopSaved cancel jobId) =>
          some (interruptEnd ambient store jobId .cancelled (stopSummary cancel),
            { service with call := none })
      | some (.turnFinished jobId) =>
          some (interruptEnd ambient store jobId .succeeded
            "Codex turn completed during cancellation", { service with call := none })
      | _ => none
  | .crash taskId =>
      match service.call, service.active.lookup taskId with
      | none, some active =>
          some (store.upsertCodexSession { active.session with status := .failed }, {
            active := service.active.erase taskId
            call := some (.crashing taskId active.executionJobId) })
      | _, _ => none
  | .loadCrashed =>
      match service.call with
      | some (.crashing taskId jobId) =>
          some (store, service.goOn id (crashLoad ambient store taskId jobId))
      | _ => none
  | .saveCrashed checkpointId =>
      match service.call with
      | some (.crashed copy jobId) =>
          let saved := Patchwright.saveInterrupted ambient store copy
            "Codex app-server crash recorded" checkpointId
          some (saved.toOption.getD store, service.goOn (fun _ => .crashSaved jobId) saved)
      | _ => none
  | .endCrash =>
      match service.call with
      | some (.crashSaved jobId) =>
          some (crashEnd ambient store jobId, { service with call := none })
      | _ => none
  | .abandon =>
      match service.call with
      | some _ => some (store, { service with call := none })
      | none => none

namespace Sample

def executionJobId : JobId := ⟨⟨12⟩⟩

def session : CodexSessionRecord where
  taskId := taskId
  processGeneration := ⟨13⟩
  protocolVersion := "2.0"
  executableVersion := "0.1.0"
  accountState := .signedIn
  threadId := some "thread-1"
  lastTurnId := none
  lastSequence := 0
  status := .ready
  updatedAt := 0

/-- The process of a task is running. -/
def runningService : CodexService := ⟨AList.singleton taskId ⟨session, none, executionJobId⟩, none⟩

/-- The task is in a given state, and the job of its process is running. -/
def runningStore (state : TaskState) : EventStore :=
  (startRun ambient (store state) taskId executionJobId).1

end Sample

end Patchwright
