import Patchwright.Codex.Service
import Patchwright.Library.Effects

/-!
# Starting Codex

A start loads the task, resumes it if it is paused, launches the app-server,
opens a thread in three requests, and then takes a prepared task to implementing
and records a running job.  Each access to the store is a transaction of its
own.  What the start meets outside the store is a `StartWorld`: how the launch
ends, what is written to the process and read from it, and which accesses the
store denies.
-/

namespace Patchwright

open Checked
open Protocol (RequestId ResponseEnvelope ServerLine ProtocolDecoder)

/-! ### Status -/

inductive CodexServiceState where
  | unavailable
  | notStarted
  | ready
  | staleThreadNeedsConfirmation
  | failed
  | exited
  deriving DecidableEq, Repr

structure CodexRuntimeStatus where
  taskId : TaskId
  state : CodexServiceState
  processGeneration : Option Uuid
  accountState : Option CodexAccountState
  threadId : Option String
  turnId : Option String
  lastSequence : Nat
  canStart : Bool
  canSend : Bool
  canSteer : Bool
  deriving DecidableEq, Repr

def statusFromSession (session : CodexSessionRecord) (processReady : Bool) :
    CodexRuntimeStatus where
  taskId := session.taskId
  state := match session.status with
    | .ready => if processReady then .ready else .exited
    | .staleThreadNeedsConfirmation => .staleThreadNeedsConfirmation
    | .failed => .failed
    | .starting | .initialized => .exited
  processGeneration := some session.processGeneration
  accountState := some session.accountState
  threadId := session.threadId
  turnId := session.lastTurnId
  lastSequence := session.lastSequence
  canStart := !processReady
  canSend := processReady
  canSteer := false

def statusFromActive (taskId : TaskId) (active : ActiveCodex) (processReady : Bool) :
    CodexRuntimeStatus :=
  { statusFromSession active.session processReady with
    taskId
    canSteer := processReady && active.activeTurnId.isSome
    turnId := active.activeTurnId }

/-! ### What a start meets -/

/-- The accesses to the store that a start makes. -/
inductive StartAccess where
  | loadTask
  | saveTask
  | codexSession
  | taskContract
  | checkpoint (kind : String)
  | enterImplementing
  | createJob
  | transitionJob
  deriving DecidableEq, Repr

structure StartWorld where
  ambient : Ambient
  executableVersion : String
  /-- The generation of the launched process. -/
  launched : Except String Uuid
  /-- How the write of a message ends, by the method of the message. -/
  written : String → Except String Unit
  /-- The lines of the process, and the failure to read one. -/
  lines : List (Except String ServerLine)
  /-- The store fails at the access. -/
  denied : StartAccess → Option String
  checkpointId : Uuid
  jobId : JobId

/-- A hold that is one transaction: where it fails it has changed nothing. -/
def Held.transact {α : Type} (store : EventStore) : Except String (EventStore × α) → Held α
  | .ok (next, value) => (next, .ok value)
  | .error error => (store, .error error)

abbrev StartM : Type → Type := EStateM String EventStore

namespace StartM

def ofExcept {α : Type} : Except String α → StartM α
  | .ok value => pure value
  | .error error => throw error

/-- One access to the store, where it is not denied. -/
def access {α : Type} (world : StartWorld) (access : StartAccess)
    (operation : EventStore → Held α) : StartM α := fun store =>
  match world.denied access with
  | some error => .error error store
  | none =>
      match operation store with
      | (next, .ok value) => .ok value next
      | (next, .error error) => .error error next

end StartM

/-! ### The dialogue with the process -/

inductive ThreadBootstrap where
  | start (instructions : String)
  | resume (threadId : String)
  deriving DecidableEq, Repr

def ThreadBootstrap.isResume : ThreadBootstrap → Bool
  | .start _ => false
  | .resume _ => true

/-- The method of the request that opens the thread. -/
def ThreadBootstrap.method : ThreadBootstrap → String
  | .start _ => "thread/start"
  | .resume _ => "thread/resume"

def validateMetadata (value field : String) (maximum : Nat) : Except String Unit :=
  ensure (¬ (trim value = "" ∨ value.utf8ByteSize > maximum ∨ '\x00' ∈ value.toList))
    ("invalid " ++ field)

def validateBootstrap : ThreadBootstrap → Except String Unit
  | .start instructions => validateMetadata instructions "task instructions" (64 * 1024)
  | .resume threadId => validateMetadata threadId "thread id" 256

/-- Where the dialogue stands: the decoder, and what is still to be read. -/
structure Wire where
  decoder : ProtocolDecoder
  lines : List (Except String ServerLine)

/-- Read lines until a response is among them. -/
def awaitResponse : Nat → Wire → Except String (ResponseEnvelope × Wire)
  | 0, _ => .error "unexpected message during Codex handshake"
  | limit + 1, wire =>
      match wire.lines with
      | [] => .error "Codex app-server closed its output"
      | .error error :: _ => .error error
      | .ok line :: lines =>
          match wire.decoder.decodeLine line with
          | (_, .error _) => .error "Codex app-server sent an invalid message"
          | (decoder, .ok (.response response)) => .ok (response, ⟨decoder, lines⟩)
          | (decoder, .ok (.event _)) => awaitResponse limit ⟨decoder, lines⟩
          | (_, .ok (.serverRequest _)) => .error "unexpected message during Codex handshake"

section Dialogue

variable (world : StartWorld)

def sendRequest (wire : Wire) (id : Int) (method : String) :
    Except String (ResponseEnvelope × Wire) := do
  let decoder ← (wire.decoder.registerRequest (.number id)).mapError
    fun _ => "duplicate Codex request id"
  world.written method
  awaitResponse 128 ⟨decoder, wire.lines⟩

def validateInitializeResponse (response : ResponseEnvelope) : Except String Unit := do
  ensure (response.isError = false) "Codex app-server rejected initialize"
  ["userAgent", "codexHome", "platformFamily", "platformOs"].forM fun field =>
    ensure (((response.payload.get? field).bind Json.asStr?).any (· ≠ ""))
      ("Codex response is missing required field " ++ field)

def decodeAccountState (response : ResponseEnvelope) : CodexAccountState :=
  if response.isError then .unavailable
  else
    match response.payload.get? "account" with
    | some .null => .signedOut
    | some (.obj _) => .signedIn
    | _ => .unavailable

/-- Initialize the process. -/
def greet : Except String Wire := do
  let (response, wire) ← sendRequest world ⟨.new, world.lines⟩ 1 "initialize"
  validateInitializeResponse response
  world.written "initialized"
  return wire

def readAccount (wire : Wire) : Except String (CodexAccountState × Wire) := do
  let (response, wire) ← sendRequest world wire 2 "account/read"
  return (decodeAccountState response, wire)

/-- How the request for a thread is answered. -/
inductive ThreadAnswer where
  | ready (threadId : String)
  | stale
  | rejected
  deriving DecidableEq, Repr

def openThread (bootstrap : ThreadBootstrap) (wire : Wire) : Except String ThreadAnswer := do
  let (response, _) ← sendRequest world wire 3 bootstrap.method
  if response.isError then
    return if bootstrap.isResume then .stale else .rejected
  else
    let threadId ← okOr "Codex response is missing required field thread.id"
      (((response.payload.get? "thread").bind (Json.get? "id")).bind Json.asStr?)
    validateMetadata threadId "thread id" 256
    return .ready threadId

end Dialogue

/-! ### The session -/

section Connecting

variable (world : StartWorld)

def checkpointSession (record : CodexSessionRecord) (kind summary : String) :
    StartM CodexSessionRecord :=
  .access world (.checkpoint kind) fun store =>
    .transact store (store.appendCodexEvent record (.status kind summary) world.ambient.now)

/-- The record of a session that has only started. -/
def startingRecord (taskId : TaskId) (generation : Uuid) (bootstrap : ThreadBootstrap) :
    CodexSessionRecord where
  taskId
  processGeneration := generation
  protocolVersion := "2.0"
  executableVersion := world.executableVersion
  accountState := .unavailable
  threadId := match bootstrap with
    | .start _ => none
    | .resume threadId => some threadId
  lastTurnId := none
  lastSequence := 0
  status := .starting
  updatedAt := world.ambient.now

/-- Record how the thread was opened. -/
def recordThread (record : CodexSessionRecord) : ThreadAnswer → StartM CodexSessionRecord
  | .stale => checkpointSession world { record with status := .staleThreadNeedsConfirmation }
      "threadStale" "Saved Codex thread requires confirmation"
  | .rejected => do
      let _ ← checkpointSession world { record with status := .failed } "threadFailed"
        "Codex thread start failed"
      throw "Codex app-server rejected thread/start"
  | .ready threadId => checkpointSession world
      { record with threadId := some threadId, status := .ready } "threadReady"
      "Codex thread ready"

def connect (taskId : TaskId) (generation : Uuid) (bootstrap : ThreadBootstrap) :
    StartM CodexSessionRecord := do
  .ofExcept (validateMetadata world.executableVersion "executable version" 128)
  .ofExcept (validateBootstrap bootstrap)
  let record ← checkpointSession world (startingRecord world taskId generation bootstrap)
    "processStarted" "Codex process started"
  let wire ← .ofExcept (greet world)
  let record ← checkpointSession world { record with status := .initialized } "initialized"
    "Codex initialized"
  let (accountState, wire) ← .ofExcept (readAccount world wire)
  let record ← checkpointSession world { record with accountState } "accountRead"
    "Codex account state read"
  let answer ← .ofExcept (openThread world bootstrap wire)
  recordThread world record answer

end Connecting

/-! ### The start -/

section Starting

variable (world : StartWorld)

/-- Why a task in the state cannot start Codex. -/
def invalidTaskState (state : TaskState) : String :=
  "task state " ++ state.display ++ " cannot start Codex"

def resumeTask (task : Task) : StartM Task := do
  if task.state = .paused then
    let resumed ← .ofExcept ((task.resume world.ambient.now).mapError
      fun _ => invalidTaskState task.state)
    .access world .saveTask fun store =>
      (store.saveTask resumed "Codex task resumed", .ok resumed)
  else return task

/-- What a new thread is told about the task. -/
def startInstructions (task : Task) : Option TaskContract → String
  | none => "Implement the Patchwright task: " ++ task.title
  | some contract => "Goal: " ++ contract.goal ++ "\nAcceptance criteria:\n- " ++
      "\n- ".intercalate contract.acceptanceCriteria

/-- The thread of the stored session is resumed. -/
def bootstrapOf (session : Option CodexSessionRecord) (instructions : String) : ThreadBootstrap :=
  match session.bind CodexSessionRecord.threadId with
  | some threadId => .resume threadId
  | none => .start instructions

def readBootstrap (task : Task) (taskId : TaskId) : StartM ThreadBootstrap := do
  let session ← .access world .codexSession fun store => (store, .ok (store.codexSession taskId))
  let contract ← .access world .taskContract fun store =>
    (store, .ok (store.taskContracts.lookup taskId))
  return bootstrapOf session (startInstructions task contract)

/-- A prepared task becomes implementing once its session is ready. -/
def enterImplementing (task : Task) (record : CodexSessionRecord) : StartM Unit :=
  if record.status = .ready ∧ task.state = .preparing then
    .access world .enterImplementing fun store => .transact store
      ((startEnter world.ambient store task record world.checkpointId).map (·, ()))
  else return ()

/-- Record the job of the session, and move it to running. -/
def recordJob (taskId : TaskId) : StartM Unit := do
  let job ← .ofExcept ((Job.new world.jobId world.ambient.now .taskExecution (some taskId)
    "Codex task execution queued").mapError JobError.message)
  .access world .createJob fun store => .transact store ((store.createJob job).map (·, ()))
  let moved ← .access world .transitionJob fun store => .transact store
    (store.transitionJob world.jobId .queued .running .notRequested
      "Codex task execution running" none world.ambient.now)
  .ofExcept (ensure moved "durable Codex job compare-and-set transition failed")

/-- The start of a task that may run Codex. -/
def startSession (taskId : TaskId) (task : Task) : StartM (CodexSessionRecord × JobId) := do
  .ofExcept (ensure (task.state = .preparing ∨ task.state = .implementing)
    (invalidTaskState task.state))
  let bootstrap ← readBootstrap world task taskId
  let generation ← .ofExcept world.launched
  let record ← connect world taskId generation bootstrap
  enterImplementing world task record
  recordJob world taskId
  return (record, world.jobId)

/-- A start, with the processes that run after it. -/
def CodexService.start (service : CodexService) (processReady : Bool) (taskId : TaskId) :
    StartM (CodexRuntimeStatus × Table TaskId ActiveCodex) := do
  match service.active.lookup taskId with
  | some active => return (statusFromActive taskId active processReady, service.active)
  | none =>
      let task ← .access world .loadTask fun store =>
        (store, okOr "task was not found" (store.loadTask taskId))
      let task ← resumeTask world task
      let (record, jobId) ← startSession world taskId task
      return (statusFromSession record (record.status = .ready),
        service.active.insert taskId ⟨record, none, jobId⟩)

end Starting

/-! ### The holds of the service -/

/-- A hold as the result of an action. -/
def Held.result {α : Type} : Held α → EStateM.Result String EventStore α
  | (store, .ok value) => .ok value store
  | (store, .error error) => .error error store

theorem resumeTask_resumed {world : StartWorld} {task resumed : Task}
    (hpaused : task.state = .paused)
    (hresumed : task.resume world.ambient.now = .ok resumed) :
    resumeTask world task = StartM.access world .saveTask fun store =>
      (store.saveTask resumed "Codex task resumed", .ok resumed) := by
  rw [resumeTask, if_pos hpaused, hresumed]
  rfl

section Holds

variable {world : StartWorld} (hopen : ∀ point, world.denied point = none)

include hopen

theorem access_open {α : Type} (point : StartAccess) (operation : EventStore → Held α)
    (store : EventStore) :
    (StartM.access world point operation).run store = Held.result (operation store) := by
  change StartM.access world point operation store = _
  rw [StartM.access, hopen]
  rcases operation store with ⟨next, error | value⟩
  · rfl
  · rfl

/-- The hold in which a start loads the task is that of the service. -/
theorem startLoad_result (store : EventStore) (taskId : TaskId) :
    (do
      let task ← StartM.access world .loadTask fun store =>
        (store, okOr "task was not found" (store.loadTask taskId))
      let task ← resumeTask world task
      StartM.ofExcept (ensure (task.state = .preparing ∨ task.state = .implementing)
        (invalidTaskState task.state))
      return task : StartM Task).run store =
      Held.result (startLoad world.ambient store taskId) := by
  have hstate : ∀ (task : Task) (loaded : EventStore), (do
        StartM.ofExcept (ensure (task.state = .preparing ∨ task.state = .implementing)
          (invalidTaskState task.state))
        return task : StartM Task).run loaded =
      Held.result (loaded, (do
        ensure (task.state = .preparing ∨ task.state = .implementing)
          ("task state " ++ task.state.display ++ " cannot start Codex")
        return task)) := by
    intro task loaded
    rw [invalidTaskState]
    cases ensure (task.state = .preparing ∨ task.state = .implementing)
      ("task state " ++ task.state.display ++ " cannot start Codex") with
    | error error => rfl
    | ok _ => rfl
  rw [EStateM.run_bind, access_open hopen, startLoad]
  cases hrow : store.loadTask taskId with
  | none => rfl
  | some task =>
      simp only [okOr, Held.result]
      rw [EStateM.run_bind, resumePaused]
      by_cases hpaused : task.state = .paused
      · rw [if_pos hpaused]
        cases hresumed : task.resume world.ambient.now with
        | error error =>
            rw [resumeTask, if_pos hpaused, hresumed]
            rfl
        | ok resumed =>
            rw [resumeTask_resumed hpaused hresumed, access_open hopen]
            exact hstate resumed _
      · rw [if_neg hpaused, resumeTask, if_neg hpaused]
        exact hstate task store

/-- The hold in which a start records its job is that of the service. -/
theorem startRun_result (store : EventStore) (taskId : TaskId) :
    (recordJob world taskId).run store =
      Held.result (startRun world.ambient store taskId world.jobId) := by
  rw [recordJob, startRun]
  cases hnew : Job.new world.jobId world.ambient.now .taskExecution (some taskId)
      "Codex task execution queued" with
  | error error => rfl
  | ok job =>
      dsimp only
      change (StartM.access world .createJob _ >>= fun _ => _ : StartM Unit).run store = _
      rw [EStateM.run_bind, access_open hopen]
      cases hcreate : store.createJob job with
      | error error => rfl
      | ok created =>
          simp only [Except.map, Held.transact, Held.result]
          rw [EStateM.run_bind, access_open hopen]
          cases hmove : created.transitionJob world.jobId .queued .running .notRequested
              "Codex task execution running" none world.ambient.now with
          | error error => rfl
          | ok moved =>
              simp only [Held.result]
              cases ensure moved.2 "durable Codex job compare-and-set transition failed" <;> rfl

end Holds

end Patchwright
