import Patchwright.Codex.Conversation
import Patchwright.Codex.EventLog
import Patchwright.Codex.Start

/-!
# What a failed start leaves behind

A start changes the task in two places and the jobs in two more, and a failure
after any of them leaves the change in place.  A start that resumes a paused
task is clean exactly when everything after it succeeds; one that takes a
prepared task to implementing is clean exactly when the job is then recorded.
-/

namespace Patchwright

open Checked
open Effects

/-! ### Accesses -/

namespace StartM

variable {world : StartWorld} {α : Type} {point : StartAccess} {operation : EventStore → Held α}
  {store after : EventStore} {value : α}

theorem ofExcept_run_ok {outcome : Except String α} :
    (ofExcept outcome).run store = .ok value after ↔ outcome = .ok value ∧ store = after := by
  cases outcome with
  | error error => exact iff_of_false nofun nofun
  | ok other =>
      constructor
      · rintro ⟨⟩
        exact ⟨rfl, rfl⟩
      · rintro ⟨⟨⟩, rfl⟩
        rfl

theorem access_run_ok : (access world point operation).run store = .ok value after ↔
    world.denied point = none ∧ operation store = (after, .ok value) := by
  change access world point operation store = _ ↔ _
  rw [access]
  cases world.denied point with
  | some error => exact iff_of_false (by rintro ⟨⟩) (by rintro ⟨⟨⟩, _⟩)
  | none =>
      rcases operation store with ⟨next, error | result⟩
      · exact iff_of_false (by rintro ⟨⟩) (by rintro ⟨_, ⟨⟩⟩)
      · constructor
        · rintro ⟨⟩
          exact ⟨rfl, rfl⟩
        · rintro ⟨_, ⟨⟩⟩
          rfl

theorem access_run_denied {error : String} (hdenied : world.denied point = some error) :
    (access world point operation).run store = .error error store := by
  change access world point operation store = _
  rw [access, hdenied]

theorem access_final (point : StartAccess) (operation : EventStore → Held α) (store : EventStore) :
    final ((access world point operation).run store) = store ∨
      final ((access world point operation).run store) = (operation store).1 := by
  change final (access world point operation store) = _ ∨
    final (access world point operation store) = _
  rw [access]
  cases world.denied point with
  | some error => exact .inl rfl
  | none =>
      rcases operation store with ⟨next, error | result⟩
      · exact .inr rfl
      · exact .inr rfl

/-- A transaction that fails leaves the store as it was. -/
theorem transact_run_error {transaction : EventStore → Except String (EventStore × α)}
    {error : String} (hrun : (access world point fun store =>
      Held.transact store (transaction store)).run store = .error error after) :
    after = store := by
  change access world point (fun store => Held.transact store (transaction store)) store = _ at hrun
  rw [access] at hrun
  cases hdenied : world.denied point with
  | some error =>
      rw [hdenied] at hrun
      cases hrun
      rfl
  | none =>
      rw [hdenied] at hrun
      cases hdone : transaction store with
      | error error =>
          rw [hdone] at hrun
          cases hrun
          rfl
      | ok result =>
          rw [hdone] at hrun
          cases hrun

theorem quiet_ofExcept {γ : Type} {view : EventStore → γ} (outcome : Except String α) :
    Quiet view (ofExcept outcome) := by
  intro store
  cases outcome <;> rfl

theorem quiet_access {γ : Type} {view : EventStore → γ}
    (hkept : ∀ store, view (operation store).1 = view store) :
    Quiet view (access world point operation) := by
  intro store
  have hfinal : final ((access world point operation).run store) = store ∨
      final ((access world point operation).run store) = (operation store).1 :=
    access_final point operation store
  rcases hfinal with hsame | hdone
  · rw [hsame]
  · rw [hdone]
    exact hkept store

end StartM

theorem Held.transact_ok {α : Type} {store after : EventStore} {value : α}
    {outcome : Except String (EventStore × α)} :
    Held.transact store outcome = (after, .ok value) ↔ outcome = .ok (after, value) := by
  cases outcome with
  | error error => exact iff_of_false nofun nofun
  | ok result =>
      constructor
      · rintro ⟨⟩
        rfl
      · rintro ⟨⟩
        rfl

theorem Held.transact_kept {α γ : Type} (view : EventStore → γ) {store : EventStore}
    {outcome : Except String (EventStore × α)}
    (hkept : ∀ after value, outcome = .ok (after, value) → view after = view store) :
    view (Held.transact store outcome).1 = view store := by
  cases outcome with
  | error error => rfl
  | ok result => exact hkept result.1 result.2 rfl

/-! ### The view of a task -/

/-- An execution that is queued or running. -/
def EventStore.OpenJob (store : EventStore) (id : JobId) : Prop :=
  ∃ job, store.job id = some job ∧ job.kind = .taskExecution ∧
    (job.state = .queued ∨ job.state = .running)

/-- What a failed start has to leave as it was: the row of the task, its
timeline, and which executions are queued or running. -/
structure StartView where
  row : Option Task
  timeline : List Task
  openJobs : JobId → Prop

def startView (taskId : TaskId) (store : EventStore) : StartView :=
  ⟨store.loadTask taskId, store.timeline taskId, store.OpenJob⟩

theorem startView_of_recordsOnly {store next : EventStore} (hrecords : store.RecordsOnly next)
    (taskId : TaskId) : startView taskId next = startView taskId store := by
  rw [startView, startView, EventStore.loadTask, EventStore.timeline, hrecords.tasks,
    hrecords.taskEvents]
  congr 1
  funext id
  rw [EventStore.OpenJob, EventStore.OpenJob, EventStore.job, EventStore.job, hrecords.jobs]

section Dialogue

variable (world : StartWorld) (taskId id : TaskId)

theorem quiet_checkpointSession (record : CodexSessionRecord) (kind summary : String) :
    Quiet (startView taskId) (checkpointSession world record kind summary) := by
  apply StartM.quiet_access
  intro store
  apply Held.transact_kept (startView taskId)
  intro after next hstored
  exact startView_of_recordsOnly (appendCodexEvent_recordsOnly hstored).1 taskId

theorem quiet_recordThread (record : CodexSessionRecord) (answer : ThreadAnswer) :
    Quiet (startView taskId) (recordThread world record answer) := by
  cases answer with
  | ready threadId => exact quiet_checkpointSession world taskId _ _ _
  | stale => exact quiet_checkpointSession world taskId _ _ _
  | rejected => exact (quiet_checkpointSession world taskId _ _ _).bind fun _ _ => rfl

/-- The dialogue with the process touches neither the task nor its jobs. -/
theorem quiet_connect (generation : Uuid) (bootstrap : ThreadBootstrap) :
    Quiet (startView taskId) (connect world id generation bootstrap) := by
  refine (StartM.quiet_ofExcept _).bind fun _ => (StartM.quiet_ofExcept _).bind fun _ =>
    (quiet_checkpointSession world taskId _ _ _).bind fun record =>
    (StartM.quiet_ofExcept _).bind fun wire =>
    (quiet_checkpointSession world taskId _ _ _).bind fun record =>
    (StartM.quiet_ofExcept _).bind fun account =>
    (quiet_checkpointSession world taskId _ _ _).bind fun record =>
    (StartM.quiet_ofExcept _).bind fun answer => ?_
  exact quiet_recordThread world taskId _ answer

theorem quiet_readBootstrap (task : Task) :
    Quiet (startView taskId) (readBootstrap world task id) :=
  (StartM.quiet_access fun _ => rfl).bind fun _ => (StartM.quiet_access fun _ => rfl).bind
    fun _ _ => rfl

end Dialogue

/-! ### The way to a thread -/

/-- The dialogue alone, without what is recorded of it. -/
def handshake (world : StartWorld) (bootstrap : ThreadBootstrap) : Except String ThreadAnswer := do
  validateMetadata world.executableVersion "executable version" 128
  validateBootstrap bootstrap
  let wire ← greet world
  let (_, wire) ← readAccount world wire
  openThread world bootstrap wire

/-- The kind of the event that records an answer. -/
def ThreadAnswer.checkpoint : ThreadAnswer → String
  | .ready _ => "threadReady"
  | .stale => "threadStale"
  | .rejected => "threadFailed"

/-- The kinds of the events that are recorded on the way to an answer. -/
def ThreadAnswer.checkpoints (answer : ThreadAnswer) : List String :=
  ["processStarted", "initialized", "accountRead", answer.checkpoint]

/-- The dialogue ends with the answer, the answer is no rejection, and all of it
can be recorded. -/
structure Opens (world : StartWorld) (bootstrap : ThreadBootstrap) (answer : ThreadAnswer) :
    Prop where
  answered : handshake world bootstrap = .ok answer
  accepted : answer ≠ .rejected
  recorded : ∀ kind ∈ answer.checkpoints, world.denied (.checkpoint kind) = none

/-- What the record of a session says about the thread. -/
def ThreadAnswer.Describes (record : CodexSessionRecord) : ThreadAnswer → Prop
  | .ready threadId => record.status = .ready ∧ record.threadId = some threadId
  | .stale => record.status = .staleThreadNeedsConfirmation
  | .rejected => record.status = .failed

def startLabels : List (String × String) :=
  [("processStarted", "Codex process started"), ("initialized", "Codex initialized"),
    ("accountRead", "Codex account state read"), ("threadReady", "Codex thread ready"),
    ("threadStale", "Saved Codex thread requires confirmation"),
    ("threadFailed", "Codex thread start failed")]

theorem startLabels_valid : ∀ label ∈ startLabels,
    validateCodexEventKind label.1 = .ok label.1 ∧ validateSummary label.2 = .ok label.2 := by
  decide

section Connect

variable {world : StartWorld} {store after : EventStore} {record next : CodexSessionRecord}
  {kind summary : String}

theorem checkpointSession_run_ok :
    (checkpointSession world record kind summary).run store = .ok next after ↔
      world.denied (.checkpoint kind) = none ∧
        store.appendCodexEvent record (.status kind summary) world.ambient.now =
          .ok (after, next) := by
  rw [checkpointSession, StartM.access_run_ok, Held.transact_ok]

/-- A checkpoint of a start is recorded wherever the store is not denied. -/
theorem checkpointSession_run (hlabel : (kind, summary) ∈ startLabels) (store : EventStore)
    (record : CodexSessionRecord) (hdenied : world.denied (.checkpoint kind) = none) :
    ∃ next after, (checkpointSession world record kind summary).run store = .ok next after ∧
      store.RecordsOnly after ∧ after.codexSession record.taskId = some next ∧
      next.taskId = record.taskId ∧ next.status = record.status ∧
      next.threadId = record.threadId := by
  obtain ⟨hkind, hsummary⟩ := startLabels_valid _ hlabel
  obtain ⟨⟨after, next⟩, hstored⟩ := (appendCodexEvent_accepts_iff store record
    (.status kind summary) world.ambient.now).mpr ⟨⟨kind, hkind⟩, ⟨summary, hsummary⟩,
      ⟨none, rfl⟩, nofun, nofun, nofun⟩
  refine ⟨next, after, checkpointSession_run_ok.2 ⟨hdenied, hstored⟩,
    (appendCodexEvent_recordsOnly hstored).1, (EventStore.appendCodexEvent_eq_ok hstored).2.2.1, ?_⟩
  simp only [EventStore.appendCodexEvent, bind_eq_ok, pure_eq_ok, Prod.mk.injEq] at hstored
  obtain ⟨_, _, _, _, _, _, _, _, _, _, _, _, _, rfl⟩ := hstored
  exact ⟨rfl, rfl, rfl⟩

theorem recordThread_run {answer : ThreadAnswer} (haccepted : answer ≠ .rejected)
    (hrecorded : world.denied (.checkpoint answer.checkpoint) = none)
    (store : EventStore) (record : CodexSessionRecord) :
    ∃ next after, (recordThread world record answer).run store = .ok next after ∧
      store.RecordsOnly after ∧ after.codexSession record.taskId = some next ∧
      next.taskId = record.taskId ∧ answer.Describes next := by
  cases answer with
  | rejected => exact absurd rfl haccepted
  | stale =>
      have hlabel : ("threadStale", "Saved Codex thread requires confirmation") ∈ startLabels := by
        decide
      obtain ⟨next, after, hrun, hrecords, hsession, htask, hstatus, _⟩ :=
        checkpointSession_run hlabel store
          { record with status := .staleThreadNeedsConfirmation } hrecorded
      exact ⟨next, after, hrun, hrecords, hsession, htask, hstatus⟩
  | ready threadId =>
      have hlabel : ("threadReady", "Codex thread ready") ∈ startLabels := by decide
      obtain ⟨next, after, hrun, hrecords, hsession, htask, hstatus, hthread⟩ :=
        checkpointSession_run hlabel store
          { record with threadId := some threadId, status := .ready } hrecorded
      exact ⟨next, after, hrun, hrecords, hsession, htask, hstatus, hthread⟩

theorem recordThread_run_ok {answer : ThreadAnswer}
    (hrun : (recordThread world record answer).run store = .ok next after) :
    answer ≠ .rejected ∧ world.denied (.checkpoint answer.checkpoint) = none := by
  cases answer with
  | rejected =>
      simp only [recordThread, run_bind_eq_ok] at hrun
      obtain ⟨_, _, _, hthrow⟩ := hrun
      cases hthrow
  | stale => exact ⟨nofun, (checkpointSession_run_ok.1 hrun).1⟩
  | ready threadId => exact ⟨nofun, (checkpointSession_run_ok.1 hrun).1⟩

variable {taskId : TaskId} {generation : Uuid} {bootstrap : ThreadBootstrap}

/-- A connection that comes about has opened a thread. -/
theorem connect_opens
    (hrun : (connect world taskId generation bootstrap).run store = .ok record after) :
    ∃ answer, Opens world bootstrap answer := by
  simp only [connect, run_bind_eq_ok, StartM.ofExcept_run_ok, checkpointSession_run_ok] at hrun
  obtain ⟨_, _, ⟨hversion, rfl⟩, _, _, ⟨hbootstrap, rfl⟩, started, _, ⟨hstarted, _⟩, wire, _,
    ⟨hgreet, rfl⟩, initialized, _, ⟨hinitialized, _⟩, account, _, ⟨haccount, rfl⟩, read, _,
    ⟨hread, _⟩, answer, _, ⟨hanswer, rfl⟩, hthread⟩ := hrun
  obtain ⟨haccepted, hrecorded⟩ := recordThread_run_ok hthread
  refine ⟨answer, ?_, haccepted, ?_⟩
  · simp only [handshake, bind_eq_ok]
    exact ⟨_, hversion, _, hbootstrap, wire, hgreet, account, haccount, hanswer⟩
  · simp only [ThreadAnswer.checkpoints, List.forall_mem_cons]
    exact ⟨hstarted, hinitialized, hread, hrecorded, List.forall_mem_nil _⟩

/-- Where a thread is opened, the connection comes about. -/
theorem Opens.connect_run {answer : ThreadAnswer} (hopens : Opens world bootstrap answer)
    (store : EventStore) (taskId : TaskId) (generation : Uuid) :
    ∃ record after, (connect world taskId generation bootstrap).run store = .ok record after ∧
      store.RecordsOnly after ∧ after.codexSession taskId = some record ∧
      record.taskId = taskId ∧ answer.Describes record := by
  have hanswered := hopens.answered
  have hrecorded := hopens.recorded
  simp only [handshake, bind_eq_ok] at hanswered
  simp only [ThreadAnswer.checkpoints, List.forall_mem_cons] at hrecorded
  obtain ⟨_, hversion, _, hbootstrap, wire, hgreet, account, haccount, hanswer⟩ := hanswered
  have hlabels : ("processStarted", "Codex process started") ∈ startLabels ∧
      ("initialized", "Codex initialized") ∈ startLabels ∧
      ("accountRead", "Codex account state read") ∈ startLabels := by
    decide
  obtain ⟨started, first, hstarted, hfirst, _, hstartedTask, _⟩ := checkpointSession_run
    hlabels.1 store (startingRecord world taskId generation bootstrap) hrecorded.1
  obtain ⟨initialized, second, hinitialized, hsecond, _, hinitializedTask, _⟩ :=
    checkpointSession_run hlabels.2.1 first { started with status := .initialized } hrecorded.2.1
  obtain ⟨read, third, hread, hthird, _, hreadTask, _⟩ := checkpointSession_run hlabels.2.2 second
    { initialized with accountState := account.1 } hrecorded.2.2.1
  obtain ⟨record, after, hthread, hafter, hsession, hrecordTask, hdescribes⟩ :=
    recordThread_run hopens.accepted hrecorded.2.2.2.1 third read
  have htask : read.taskId = taskId := hreadTask.trans (hinitializedTask.trans hstartedTask)
  rw [htask] at hsession hrecordTask
  refine ⟨record, after, ?_, (hfirst.trans hsecond).trans (hthird.trans hafter), hsession,
    hrecordTask, hdescribes⟩
  simp only [connect, run_bind_eq_ok, StartM.ofExcept_run_ok]
  exact ⟨_, _, ⟨hversion, rfl⟩, _, _, ⟨hbootstrap, rfl⟩, started, first, hstarted, wire, first,
    ⟨hgreet, rfl⟩, initialized, second, hinitialized, account, second, ⟨haccount, rfl⟩, read, third,
    hread, answer, third, ⟨hanswer, rfl⟩, hthread⟩

end Connect

/-! ### Entering and recording -/

section Recording

variable {world : StartWorld} {store after earlier : EventStore} {taskId : TaskId} {task : Task}
  {record : CodexSessionRecord}

theorem timeline_saveTask (store : EventStore) (task : Task) (summary : String) :
    (store.saveTask task summary).timeline task.id = store.timeline task.id ++ [task] := by
  simp [EventStore.timeline, EventStore.saveTask]

theorem startSummaries_valid :
    validateSummary "Codex thread ready" = .ok "Codex thread ready" ∧
      validateSummary "Codex task execution queued" = .ok "Codex task execution queued" ∧
      validateSummary "Codex task execution running" = .ok "Codex task execution running" := by
  decide

/-- The store once a prepared task has entered. -/
def enteredStore (ambient : Ambient) (checkpointId : Uuid) (store : EventStore) (task : Task) :
    EventStore :=
  { store.saveTask { task with state := .implementing, updatedAt := ambient.now }
      "Codex thread ready" with
    taskCheckpoints := store.taskCheckpoints ++ [{
      id := checkpointId, taskId := task.id, state := .implementing
      summary := "Codex thread ready", occurredAt := ambient.now }] }

/-- A prepared task enters with the session that has become ready. -/
theorem startEnter_ready (ambient : Ambient) (checkpointId : Uuid)
    (hrow : store.loadTask taskId = some task) (hid : task.id = taskId)
    (hstate : task.state = .preparing) (hsession : store.codexSession taskId = some record)
    (htask : record.taskId = taskId) (hready : record.status = .ready)
    (hthread : record.threadId.isSome) :
    startEnter ambient store task record checkpointId =
      .ok (enteredStore ambient checkpointId store task) := by
  subst hid
  have hpermits : task.state.permits .implementing = true := by
    rw [hstate]
    rfl
  rw [startEnter, if_pos ⟨hready, hstate⟩]
  simp only [bind_eq_ok, mapError_eq_ok, Task.transition_eq_ok, TaskCheckpoint.new,
    EventStore.enterImplementingWithCodex, ensure_eq_ok, okOr_eq_ok, pure_eq_ok]
  exact ⟨_, ⟨hpermits, rfl⟩, _, ⟨_, startSummaries_valid.1, rfl⟩, (), rfl, (), rfl, (), rfl, (),
    htask, (), ⟨hready, hthread⟩, _, startSummaries_valid.1, task, hrow, (), hstate, record,
    hsession, (), ⟨rfl, hready, rfl⟩, rfl⟩

theorem enteredStore_grows (ambient : Ambient) (checkpointId : Uuid) (store : EventStore)
    (task : Task) : ((enteredStore ambient checkpointId store task).timeline task.id).length =
      (store.timeline task.id).length + 1 := by
  have htimeline := timeline_saveTask store
    { task with state := .implementing, updatedAt := ambient.now } "Codex thread ready"
  exact (congrArg List.length htimeline).trans List.length_append

/-- The job can be recorded and moved. -/
structure RecordsJob (world : StartWorld) (store : EventStore) : Prop where
  created : world.denied .createJob = none
  fresh : store.job world.jobId = none
  moved : world.denied .transitionJob = none

/-- The job of a start when it is created. -/
def queuedJob (world : StartWorld) (taskId : TaskId) : Job where
  id := world.jobId
  kind := .taskExecution
  taskId := some taskId
  state := .queued
  cancellation := .notRequested
  summary := "Codex task execution queued"
  checkpoint := none
  createdAt := world.ambient.now
  updatedAt := world.ambient.now
  generation := 0

theorem new_queuedJob (world : StartWorld) (taskId : TaskId) :
    Job.new world.jobId world.ambient.now .taskExecution (some taskId)
      "Codex task execution queued" = .ok (queuedJob world taskId) := by
  rw [Job.new, startSummaries_valid.2.1]
  rfl

/-- The store once the job is created. -/
def queuedStore (world : StartWorld) (store : EventStore) (taskId : TaskId) : EventStore :=
  { store with
    jobs := store.jobs.insert world.jobId (queuedJob world taskId)
    jobEvents := store.jobEvents ++ [{
      jobId := world.jobId, state := .queued, summary := "Codex task execution queued"
      checkpoint := none }] }

theorem createJob_eq_ok : store.createJob (queuedJob world taskId) = .ok after ↔
    store.job world.jobId = none ∧ queuedStore world store taskId = after := by
  simp only [EventStore.createJob, bind_eq_ok, ensure_eq_ok, pure_eq_ok]
  constructor
  · rintro ⟨_, hfresh, hafter⟩
    exact ⟨hfresh, hafter⟩
  · rintro ⟨hfresh, hafter⟩
    exact ⟨(), hfresh, hafter⟩

/-- The queued job moves. -/
theorem transitionJob_queued (world : StartWorld) (store : EventStore) (taskId : TaskId) :
    ∃ after, (queuedStore world store taskId).transitionJob world.jobId .queued .running
      .notRequested "Codex task execution running" none world.ambient.now = .ok (after, true) := by
  have hjob : (queuedStore world store taskId).job world.jobId = some (queuedJob world taskId) :=
    AList.lookup_insert _
  rw [EventStore.transitionJob, startSummaries_valid.2.2, hjob]
  exact ⟨_, rfl⟩

theorem openJob_queuedStore (world : StartWorld) (store : EventStore) (taskId : TaskId) :
    (queuedStore world store taskId).OpenJob world.jobId :=
  ⟨queuedJob world taskId, AList.lookup_insert _, rfl, .inl rfl⟩

/-- A created job that is left queued shows. -/
theorem startView_queuedStore (hfresh : store.job world.jobId = none)
    (hview : startView taskId store = startView taskId earlier) (id : TaskId) :
    startView taskId (queuedStore world store id) ≠ startView taskId earlier := by
  intro hsame
  rw [← hview] at hsame
  have hopen := openJob_queuedStore world store id
  have hjobs : (queuedStore world store id).OpenJob = store.OpenJob :=
    congrArg StartView.openJobs hsame
  rw [hjobs] at hopen
  obtain ⟨job, hjob, _⟩ := hopen
  cases hfresh.symm.trans hjob

theorem recordJob_succeeds_iff :
    Succeeds (recordJob world taskId) store ↔ RecordsJob world store := by
  simp only [Succeeds, recordJob, run_bind_eq_ok, StartM.ofExcept_run_ok, StartM.access_run_ok,
    Held.transact_ok, new_queuedJob, Except.mapError, Except.ok.injEq]
  constructor
  · rintro ⟨_, _, _, _, ⟨rfl, rfl⟩, _, _, ⟨hcreated, hcreate⟩, _, _, ⟨hmoved, _⟩, _⟩
    obtain ⟨_, hcreate, _⟩ := map_eq_ok.1 hcreate
    exact ⟨hcreated, (createJob_eq_ok.1 hcreate).1, hmoved⟩
  · rintro ⟨hcreated, hfresh, hmoved⟩
    obtain ⟨after, hmove⟩ := transitionJob_queued world store taskId
    have hcreate : (store.createJob (queuedJob world taskId)).map (·, ()) =
        .ok (queuedStore world store taskId, ()) :=
      map_eq_ok.2 ⟨_, createJob_eq_ok.2 ⟨hfresh, rfl⟩, rfl⟩
    exact ⟨(), after, _, _, ⟨rfl, rfl⟩, (), _, ⟨hcreated, hcreate⟩, true, after, ⟨hmoved, hmove⟩,
      rfl, rfl⟩

/-- Recording the job fails without a trace unless the job stays queued. -/
theorem recordJob_cleanFrom_iff (hview : startView taskId store = startView taskId earlier) :
    CleanFrom (startView taskId) earlier (recordJob world taskId) store ↔
      (world.denied .createJob = none → store.job world.jobId = none →
        world.denied .transitionJob = none) := by
  by_cases hall : RecordsJob world store
  · exact iff_of_true ((recordJob_succeeds_iff.2 hall).cleanFrom earlier)
      fun _ _ => hall.moved
  · have hjob : recordJob world taskId = (do
        StartM.access world .createJob fun store => Held.transact store
          ((store.createJob (queuedJob world taskId)).map (·, ()))
        let moved ← StartM.access world .transitionJob fun store => Held.transact store
          (store.transitionJob world.jobId .queued .running .notRequested
            "Codex task execution running" none world.ambient.now)
        StartM.ofExcept (ensure moved
          "durable Codex job compare-and-set transition failed")) := by
      rw [recordJob, new_queuedJob]
      rfl
    rw [hjob]
    by_cases hcreate : world.denied .createJob = none ∧ store.job world.jobId = none
    · have hmade : (store.createJob (queuedJob world taskId)).map (·, ()) =
          .ok (queuedStore world store taskId, ()) :=
        map_eq_ok.2 ⟨_, createJob_eq_ok.2 ⟨hcreate.2, rfl⟩, rfl⟩
      have hrun : (StartM.access world .createJob fun store => Held.transact store
          ((store.createJob (queuedJob world taskId)).map (·, ()))).run store =
            .ok () (queuedStore world store taskId) :=
        StartM.access_run_ok.2 ⟨hcreate.1, Held.transact_ok.2 hmade⟩
      rw [cleanFrom_bind_ok hrun]
      apply iff_of_false
      · intro hclean
        cases hdenied : world.denied .transitionJob with
        | none => exact hall ⟨hcreate.1, hcreate.2, hdenied⟩
        | some error =>
            exact startView_queuedStore hcreate.2 hview taskId
              (hclean _ _ (run_bind_error (StartM.access_run_denied hdenied)))
      · intro hmoved
        exact hall ⟨hcreate.1, hcreate.2, hmoved hcreate.1 hcreate.2⟩
    · refine iff_of_true ?_ fun hcreated hfresh => absurd ⟨hcreated, hfresh⟩ hcreate
      apply cleanFrom_bind_of_fails hview
      · rintro ⟨value, after, hrun⟩
        obtain ⟨hcreated, hmade⟩ := StartM.access_run_ok.1 hrun
        obtain ⟨_, hmade, _⟩ := map_eq_ok.1 (Held.transact_ok.1 hmade)
        exact hcreate ⟨hcreated, (createJob_eq_ok.1 hmade).1⟩
      · exact fun error failed hrun => StartM.transact_run_error hrun

end Recording

/-! ### From the thread to the job -/

/-- What a start does once the session is connected. -/
def finishStart (world : StartWorld) (taskId : TaskId) (task : Task)
    (record : CodexSessionRecord) : StartM (CodexSessionRecord × JobId) := do
  enterImplementing world task record
  recordJob world taskId
  return (record, world.jobId)

/-- The answer takes the task to implementing. -/
def Enters (task : Task) (answer : ThreadAnswer) : Prop :=
  (∃ threadId, answer = .ready threadId) ∧ task.state = .preparing

section Finishing

variable {world : StartWorld} {store earlier : EventStore} {taskId : TaskId} {task : Task}
  {record : CodexSessionRecord} {answer : ThreadAnswer}

theorem enters_iff (haccepted : answer ≠ .rejected) (hdescribes : answer.Describes record) :
    Enters task answer ↔ record.status = .ready ∧ task.state = .preparing := by
  cases answer with
  | ready threadId => exact and_congr_left fun _ => iff_of_true ⟨threadId, rfl⟩ hdescribes.1
  | stale =>
      have hstale : record.status = .staleThreadNeedsConfirmation := hdescribes
      apply and_congr_left
      intro _
      rw [hstale]
      exact iff_of_false nofun nofun
  | rejected => exact absurd rfl haccepted

/-- The store after the session of the task has been connected. -/
structure Connected (store : EventStore) (taskId : TaskId) (task : Task)
    (record : CodexSessionRecord) (answer : ThreadAnswer) : Prop where
  row : store.loadTask taskId = some task
  id : task.id = taskId
  session : store.codexSession taskId = some record
  owner : record.taskId = taskId
  describes : answer.Describes record
  accepted : answer ≠ .rejected

theorem Connected.enter_run (hconnected : Connected store taskId task record answer)
    (henters : Enters task answer) (hdenied : world.denied .enterImplementing = none) :
    (enterImplementing world task record).run store =
      .ok () (enteredStore world.ambient world.checkpointId store task) := by
  have hready := (enters_iff hconnected.accepted hconnected.describes).mp henters
  have hthread : record.threadId.isSome := by
    obtain ⟨⟨threadId, hanswer⟩, _⟩ := henters
    have hdescribes := hconnected.describes
    rw [hanswer] at hdescribes
    rw [hdescribes.2]
    rfl
  rw [enterImplementing, if_pos hready]
  apply StartM.access_run_ok.2
  refine ⟨hdenied, Held.transact_ok.2 ?_⟩
  rw [startEnter_ready world.ambient world.checkpointId hconnected.row hconnected.id hready.2
    hconnected.session hconnected.owner hready.1 hthread]
  rfl

theorem Connected.stay_run (hconnected : Connected store taskId task record answer)
    (hstays : ¬ Enters task answer) :
    (enterImplementing world task record).run store = .ok () store := by
  rw [enters_iff hconnected.accepted hconnected.describes] at hstays
  rw [enterImplementing, if_neg hstays]
  rfl

theorem Connected.enter_denied (hconnected : Connected store taskId task record answer)
    (henters : Enters task answer) {error : String}
    (hdenied : world.denied .enterImplementing = some error) :
    (enterImplementing world task record).run store = .error error store := by
  have hready := (enters_iff hconnected.accepted hconnected.describes).mp henters
  rw [enterImplementing, if_pos hready]
  exact StartM.access_run_denied hdenied

theorem recordsJob_congr {other : EventStore} (hjobs : other.jobs = store.jobs) :
    RecordsJob world other ↔ RecordsJob world store := by
  have hjob : other.job world.jobId = store.job world.jobId := by
    rw [EventStore.job, EventStore.job, hjobs]
  exact ⟨fun ⟨hcreated, hfresh, hmoved⟩ => ⟨hcreated, hjob ▸ hfresh, hmoved⟩,
    fun ⟨hcreated, hfresh, hmoved⟩ => ⟨hcreated, hjob ▸ hfresh, hmoved⟩⟩

theorem quiet_recordJob (world : StartWorld) (taskId id : TaskId) :
    Quiet (fun store => store.timeline taskId) (recordJob world id) := by
  refine (StartM.quiet_ofExcept _).bind fun job => (StartM.quiet_access fun store => ?_).bind
    fun _ => (StartM.quiet_access fun store => ?_).bind fun moved => StartM.quiet_ofExcept _
  · apply Held.transact_kept fun store => store.timeline taskId
    intro after _ hmade
    obtain ⟨made, hcreate, hafter⟩ := map_eq_ok.1 hmade
    simp only [EventStore.createJob, bind_eq_ok, pure_eq_ok] at hcreate
    obtain ⟨_, _, rfl⟩ := hcreate
    cases hafter
    rfl
  · apply Held.transact_kept fun store => store.timeline taskId
    intro after moved hmove
    simp only [EventStore.transitionJob, bind_eq_ok] at hmove
    obtain ⟨_, _, _, _, hmove⟩ := hmove
    split at hmove
    · cases hmove
      rfl
    · split at hmove <;> cases hmove <;> rfl

theorem finishStart_succeeds_iff (hconnected : Connected store taskId task record answer) :
    Succeeds (finishStart world taskId task record) store ↔
      (Enters task answer → world.denied .enterImplementing = none) ∧ RecordsJob world store := by
  have hfinish : ∀ after, Succeeds (recordJob world taskId >>= fun _ =>
      pure (record, world.jobId)) after ↔ RecordsJob world after := by
    intro after
    rw [← recordJob_succeeds_iff, succeeds_bind_iff]
    exact ⟨fun ⟨value, last, hrun, _⟩ => ⟨value, last, hrun⟩,
      fun ⟨value, last, hrun⟩ => ⟨value, last, hrun, _, _, rfl⟩⟩
  rw [finishStart, succeeds_bind_iff]
  by_cases henters : Enters task answer
  · cases hdenied : world.denied .enterImplementing with
    | some error =>
        apply iff_of_false
        · rintro ⟨_, _, hrun, _⟩
          cases (hconnected.enter_denied henters hdenied).symm.trans hrun
        · exact fun hgoes => nomatch hgoes.1 henters
    | none =>
        have hrun := hconnected.enter_run henters hdenied
        have hjobs : (enteredStore world.ambient world.checkpointId store task).jobs =
          store.jobs := rfl
        rw [← recordsJob_congr hjobs, ← hfinish]
        constructor
        · rintro ⟨_, _, hother, hrest⟩
          cases hrun.symm.trans hother
          exact ⟨fun _ => rfl, hrest⟩
        · exact fun hgoes => ⟨_, _, hrun, hgoes.2⟩
  · have hrun := @Connected.stay_run world _ _ _ _ _ hconnected henters
    rw [← hfinish]
    constructor
    · rintro ⟨_, _, hother, hrest⟩
      cases hrun.symm.trans hother
      exact ⟨fun h => absurd h henters, hrest⟩
    · exact fun hgoes => ⟨_, _, hrun, hgoes.2⟩

/-- The end of a start fails without a trace exactly when the job of a task that
has entered is recorded, and that of any other does not stay queued. -/
theorem finishStart_cleanFrom_iff (hconnected : Connected store taskId task record answer)
    (hview : startView taskId store = startView taskId earlier) :
    CleanFrom (startView taskId) earlier (finishStart world taskId task record) store ↔
      (Enters task answer → world.denied .enterImplementing = none → RecordsJob world store) ∧
        (¬ Enters task answer → world.denied .createJob = none → store.job world.jobId = none →
          world.denied .transitionJob = none) := by
  by_cases henters : Enters task answer
  · rw [and_iff_left fun hstays => absurd henters hstays, forall_prop_of_true henters]
    cases hdenied : world.denied .enterImplementing with
    | some error =>
        refine iff_of_true ?_ nofun
        intro other failed hfailed
        rw [finishStart, run_bind_error (hconnected.enter_denied henters hdenied)] at hfailed
        cases hfailed
        exact hview
    | none =>
        have hgoes := @finishStart_succeeds_iff world _ _ _ _ _ hconnected
        rw [forall_prop_of_true rfl, cleanFrom_iff_succeeds, hgoes, and_iff_right fun _ => hdenied]
        intro error failed hfailed hsame
        rw [finishStart, run_bind_ok (hconnected.enter_run henters hdenied)] at hfailed
        have hquiet : Quiet (fun store => store.timeline taskId) (do
            recordJob world taskId
            return (record, world.jobId) : StartM (CodexSessionRecord × JobId)) :=
          (quiet_recordJob world taskId taskId).bind fun _ _ => rfl
        have hkept := hquiet (enteredStore world.ambient world.checkpointId store task)
        rw [hfailed] at hkept
        change failed.timeline taskId =
          (enteredStore world.ambient world.checkpointId store task).timeline taskId at hkept
        have hgrown := enteredStore_grows world.ambient world.checkpointId store task
        have hlength : failed.timeline taskId = store.timeline taskId :=
          congrArg StartView.timeline (hsame.trans hview.symm)
        rw [hconnected.id, ← hkept, hlength] at hgrown
        omega
  · rw [and_iff_right fun h => absurd h henters, forall_prop_of_true henters, finishStart,
      cleanFrom_bind_ok (hconnected.stay_run henters), cleanFrom_bind_pure,
      recordJob_cleanFrom_iff hview]

end Finishing

/-! ### The whole start -/

/-- How a start goes about its thread, by what is stored of the task. -/
def bootstrapFor (store : EventStore) (taskId : TaskId) (task : Task) : ThreadBootstrap :=
  bootstrapOf (store.codexSession taskId)
    (startInstructions task (store.taskContracts.lookup taskId))

/-- The start of the task gets as far as an open thread. -/
structure Reaches (world : StartWorld) (store : EventStore) (taskId : TaskId) (task : Task)
    (answer : ThreadAnswer) : Prop where
  startable : task.state = .preparing ∨ task.state = .implementing
  session : world.denied .codexSession = none
  contract : world.denied .taskContract = none
  launched : ∃ generation, world.launched = .ok generation
  opens : Opens world (bootstrapFor store taskId task) answer

/-- The start of the task goes through to the end. -/
def GoesThrough (world : StartWorld) (store : EventStore) (taskId : TaskId) (task : Task) : Prop :=
  ∃ answer, Reaches world store taskId task answer ∧
    (Enters task answer → world.denied .enterImplementing = none) ∧ RecordsJob world store

/-- A start that gets as far as an open thread records its job once the task has
entered, and otherwise leaves no job queued. -/
def LeavesNothing (world : StartWorld) (store : EventStore) (taskId : TaskId) (task : Task) :
    Prop :=
  ∀ answer, Reaches world store taskId task answer →
    (Enters task answer → world.denied .enterImplementing = none → RecordsJob world store) ∧
      (¬ Enters task answer → world.denied .createJob = none → store.job world.jobId = none →
        world.denied .transitionJob = none)

section Session

variable {world : StartWorld} {store after earlier : EventStore} {taskId : TaskId} {task : Task}
  {answer : ThreadAnswer} {bootstrap : ThreadBootstrap}

theorem readBootstrap_run_ok : (readBootstrap world task taskId).run store = .ok bootstrap after ↔
    world.denied .codexSession = none ∧ world.denied .taskContract = none ∧
      bootstrapFor store taskId task = bootstrap ∧ store = after := by
  simp only [readBootstrap, run_bind_eq_ok, StartM.access_run_ok, Prod.mk.injEq, Except.ok.injEq]
  constructor
  · rintro ⟨_, _, ⟨hsession, rfl, rfl⟩, _, _, ⟨hcontract, rfl, rfl⟩, ⟨⟩⟩
    exact ⟨hsession, hcontract, rfl, rfl⟩
  · rintro ⟨hsession, hcontract, rfl, rfl⟩
    exact ⟨_, _, ⟨hsession, rfl, rfl⟩, _, _, ⟨hcontract, rfl, rfl⟩, rfl⟩

theorem startSession_eq (world : StartWorld) (taskId : TaskId) (task : Task) :
    startSession world taskId task = (do
      StartM.ofExcept (ensure (task.state = .preparing ∨ task.state = .implementing)
        (invalidTaskState task.state))
      let bootstrap ← readBootstrap world task taskId
      let generation ← StartM.ofExcept world.launched
      let record ← connect world taskId generation bootstrap
      finishStart world taskId task record) := rfl

theorem Opens.answer_unique {other : ThreadAnswer} (hfirst : Opens world bootstrap answer)
    (hsecond : Opens world bootstrap other) : answer = other :=
  Except.ok.inj (hfirst.answered.symm.trans hsecond.answered)

/-- A start that gets as far as an open thread goes on from a connected store. -/
theorem Reaches.connected (hreaches : Reaches world store taskId task answer)
    (hrow : store.loadTask taskId = some task) (hid : task.id = taskId) :
    ∃ generation record after, world.launched = .ok generation ∧
      (connect world taskId generation (bootstrapFor store taskId task)).run store =
        .ok record after ∧
      Connected after taskId task record answer ∧ store.RecordsOnly after := by
  obtain ⟨generation, hlaunched⟩ := hreaches.launched
  obtain ⟨record, after, hrun, hrecords, hsession, howner, hdescribes⟩ :=
    hreaches.opens.connect_run store taskId generation
  have hkept : after.loadTask taskId = store.loadTask taskId := by
    rw [EventStore.loadTask, EventStore.loadTask, hrecords.tasks]
  exact ⟨generation, record, after, hlaunched, hrun,
    ⟨hkept.trans hrow, hid, hsession, howner, hdescribes, hreaches.opens.accepted⟩, hrecords⟩

theorem startSession_succeeds_iff (hrow : store.loadTask taskId = some task)
    (hid : task.id = taskId) : Succeeds (startSession world taskId task) store ↔
      GoesThrough world store taskId task := by
  simp only [startSession_eq, succeeds_bind_iff, StartM.ofExcept_run_ok, readBootstrap_run_ok,
    ensure_eq_ok]
  constructor
  · rintro ⟨_, _, ⟨hstartable, rfl⟩, _, _, ⟨hsession, hcontract, rfl, rfl⟩, generation, _,
      ⟨hlaunched, rfl⟩, record, after, hrun, hfinish⟩
    obtain ⟨answer, hopens⟩ := connect_opens hrun
    have hreaches : Reaches world store taskId task answer :=
      ⟨hstartable, hsession, hcontract, ⟨generation, hlaunched⟩, hopens⟩
    obtain ⟨other, reached, last, hother, hreached, hconnected, hrecords⟩ :=
      hreaches.connected hrow hid
    cases hlaunched.symm.trans hother
    cases hrun.symm.trans hreached
    rw [finishStart_succeeds_iff hconnected, recordsJob_congr hrecords.jobs] at hfinish
    exact ⟨answer, hreaches, hfinish⟩
  · intro ⟨answer, hreaches, hfinish⟩
    obtain ⟨generation, record, after, hlaunched, hrun, hconnected, hrecords⟩ :=
      hreaches.connected hrow hid
    rw [← recordsJob_congr hrecords.jobs, ← finishStart_succeeds_iff hconnected] at hfinish
    exact ⟨(), store, ⟨hreaches.startable, rfl⟩, _, store,
      ⟨hreaches.session, hreaches.contract, rfl, rfl⟩, generation, store, ⟨hlaunched, rfl⟩, record,
      after, hrun, hfinish⟩

theorem Reaches.run_eq (hreaches : Reaches world store taskId task answer) {generation : Uuid}
    {record : CodexSessionRecord} (hlaunched : world.launched = .ok generation)
    (hrun : (connect world taskId generation (bootstrapFor store taskId task)).run store =
      .ok record after) :
    (startSession world taskId task).run store =
      (finishStart world taskId task record).run after := by
  have hstartable : ensure (task.state = .preparing ∨ task.state = .implementing)
      (invalidTaskState task.state) = .ok () := ensure_eq_ok.2 hreaches.startable
  rw [startSession_eq, run_bind_ok (StartM.ofExcept_run_ok.2 ⟨hstartable, rfl⟩),
    run_bind_ok (readBootstrap_run_ok.2 ⟨hreaches.session, hreaches.contract, rfl, rfl⟩),
    run_bind_ok (StartM.ofExcept_run_ok.2 ⟨hlaunched, rfl⟩), run_bind_ok hrun]

/-- A start that has changed nothing yet is clean exactly when it leaves nothing. -/
theorem startSession_cleanFrom_iff (hrow : store.loadTask taskId = some task)
    (hid : task.id = taskId) :
    CleanFrom (startView taskId) store (startSession world taskId task) store ↔
      LeavesNothing world store taskId task := by
  have hfinish : ∀ {answer record after}, Connected after taskId task record answer →
      store.RecordsOnly after →
      (CleanFrom (startView taskId) store (finishStart world taskId task record) after ↔
        (Enters task answer → world.denied .enterImplementing = none → RecordsJob world store) ∧
          (¬ Enters task answer → world.denied .createJob = none →
            store.job world.jobId = none → world.denied .transitionJob = none)) := by
    intro answer record after hconnected hrecords
    have hjob : after.job world.jobId = store.job world.jobId := by
      rw [EventStore.job, EventStore.job, hrecords.jobs]
    rw [finishStart_cleanFrom_iff hconnected (startView_of_recordsOnly hrecords taskId),
      recordsJob_congr hrecords.jobs, hjob]
  constructor
  · intro hclean answer hreaches
    obtain ⟨generation, record, after, hlaunched, hrun, hconnected, hrecords⟩ :=
      hreaches.connected hrow hid
    rw [← hfinish hconnected hrecords, CleanFrom, ← hreaches.run_eq hlaunched hrun]
    exact hclean
  · intro hleaves
    rw [startSession_eq, cleanFrom_bind_of_quiet (StartM.quiet_ofExcept _) rfl]
    rintro _ _ hensured
    obtain ⟨hstartable, rfl⟩ := StartM.ofExcept_run_ok.1 hensured
    rw [cleanFrom_bind_of_quiet (quiet_readBootstrap world taskId taskId task) rfl]
    intro bootstrap _ hbootstrap
    obtain ⟨hsession, hcontract, rfl, rfl⟩ := readBootstrap_run_ok.1 hbootstrap
    rw [cleanFrom_bind_of_quiet (StartM.quiet_ofExcept _) rfl]
    intro generation _ hprocess
    obtain ⟨hlaunched, rfl⟩ := StartM.ofExcept_run_ok.1 hprocess
    rw [cleanFrom_bind_of_quiet (quiet_connect world taskId taskId generation _) rfl]
    intro record after hrun
    obtain ⟨answer, hopens⟩ := connect_opens hrun
    have hreaches : Reaches world store taskId task answer :=
      ⟨ensure_eq_ok.1 hstartable, hsession, hcontract, ⟨generation, hlaunched⟩, hopens⟩
    obtain ⟨other, reached, last, hother, hreached, hconnected, hrecords⟩ :=
      hreaches.connected hrow hid
    cases hlaunched.symm.trans hother
    cases hrun.symm.trans hreached
    exact (hfinish hconnected hrecords).mpr (hleaves answer hreaches)

theorem timeline_saveTask_le (store : EventStore) (task : Task) (summary : String)
    (id : TaskId) :
    (store.timeline id).length ≤ ((store.saveTask task summary).timeline id).length := by
  rw [EventStore.timeline, EventStore.timeline, EventStore.saveTask, List.filter_append,
    List.map_append, List.length_append]
  exact Nat.le_add_right _ _

theorem grows_enterImplementing (world : StartWorld) (taskId : TaskId) (task : Task)
    (record : CodexSessionRecord) : Grows (fun store => (store.timeline taskId).length)
      (enterImplementing world task record) := by
  intro store
  rw [enterImplementing]
  split
  next hready =>
    rcases @StartM.access_final world _ .enterImplementing _ store with hsame | hdone
    · rw [hsame]
    · rw [hdone]
      cases hentered : startEnter world.ambient store task record world.checkpointId with
      | error error => exact Nat.le_refl _
      | ok next =>
          simp only [startEnter, if_pos hready, bind_eq_ok, mapError_eq_ok, pure_eq_ok,
            EventStore.enterImplementingWithCodex] at hentered
          obtain ⟨entered, _, checkpoint, _, _, _, _, _, _, _, _, _, _, _, _, _, _, _, _, _, _, _,
            _, _, rfl⟩ := hentered
          exact timeline_saveTask_le store entered checkpoint.summary taskId
  next => exact Nat.le_refl _

/-- No step of a start makes the timeline of the task shorter. -/
theorem grows_startSession (world : StartWorld) (taskId : TaskId) (task : Task) :
    Grows (fun store => (store.timeline taskId).length) (startSession world taskId task) := by
  have hquiet : ∀ {α : Type} {action : StartM α}, Quiet (startView taskId) action →
      Grows (fun store => (store.timeline taskId).length) action := fun hquiet =>
    hquiet.grows fun view => view.timeline.length
  have hjob : Grows (fun store => (store.timeline taskId).length) (recordJob world taskId) :=
    (quiet_recordJob world taskId taskId).grows List.length
  rw [startSession_eq]
  refine (hquiet (StartM.quiet_ofExcept _)).bind fun _ =>
    (hquiet (quiet_readBootstrap world taskId taskId task)).bind fun bootstrap =>
    (hquiet (StartM.quiet_ofExcept _)).bind fun generation =>
    (hquiet (quiet_connect world taskId taskId generation bootstrap)).bind fun record => ?_
  exact (grows_enterImplementing world taskId task record).bind fun _ =>
    hjob.bind fun _ _ => Nat.le_refl _

end Session

section Start

variable {world : StartWorld} {store : EventStore} {taskId : TaskId} {resumed : Task}

theorem goesThrough_saved (world : StartWorld) (store : EventStore) (saved task : Task)
    (summary : String) : GoesThrough world (store.saveTask saved summary) taskId task ↔
      GoesThrough world store taskId task := by
  have hreaches : ∀ answer, Reaches world (store.saveTask saved summary) taskId task answer ↔
      Reaches world store taskId task answer := fun answer =>
    ⟨fun ⟨hstartable, hsession, hcontract, hlaunched, hopens⟩ =>
      ⟨hstartable, hsession, hcontract, hlaunched, hopens⟩,
     fun ⟨hstartable, hsession, hcontract, hlaunched, hopens⟩ =>
      ⟨hstartable, hsession, hcontract, hlaunched, hopens⟩⟩
  have hjob : RecordsJob world (store.saveTask saved summary) ↔ RecordsJob world store :=
    recordsJob_congr rfl
  rw [GoesThrough, GoesThrough, hjob]
  exact exists_congr fun answer => and_congr_left fun _ => hreaches answer

/-- A resumed task stays resumed, so a clean start goes through. -/
theorem resumed_cleanFrom_iff (hid : resumed.id = taskId) :
    CleanFrom (startView taskId) store (startSession world taskId resumed)
        (store.saveTask resumed "Codex task resumed") ↔
      GoesThrough world store taskId resumed := by
  have hrow : (store.saveTask resumed "Codex task resumed").loadTask taskId = some resumed := by
    rw [← hid]
    exact AList.lookup_insert _
  rw [cleanFrom_iff_succeeds, startSession_succeeds_iff hrow hid, goesThrough_saved]
  · intro error failed hfailed hsame
    have hgrown := grows_startSession world taskId resumed
      (store.saveTask resumed "Codex task resumed")
    have hlength : failed.timeline taskId = store.timeline taskId :=
      congrArg StartView.timeline hsame
    have hsaved := congrArg List.length
      (timeline_saveTask store resumed "Codex task resumed")
    rw [List.length_append, List.length_singleton, hid] at hsaved
    rw [hfailed] at hgrown
    change ((store.saveTask resumed "Codex task resumed").timeline taskId).length ≤
      (failed.timeline taskId).length at hgrown
    rw [hlength, hsaved] at hgrown
    omega

/-- When a failed start of the task leaves nothing behind. -/
structure StartsClean (world : StartWorld) (store : EventStore) (taskId : TaskId) (task : Task) :
    Prop where
  resumed : ∀ resumed, task.state = .paused → task.resume world.ambient.now = .ok resumed →
    world.denied .saveTask = none → GoesThrough world store taskId resumed
  fresh : task.state ≠ .paused → LeavesNothing world store taskId task

/-- A start that resumes the task is clean exactly when it goes through. -/
theorem resuming_clean_iff {task : Task} (hid : task.id = taskId) (hpaused : task.state = .paused)
    (hresumed : task.resume world.ambient.now = .ok resumed)
    (hallowed : world.denied .saveTask = none) :
    CleanFrom (startView taskId) store (resumeTask world task >>= startSession world taskId)
        store ↔ GoesThrough world store taskId resumed := by
  have hsame : resumed.id = taskId := by
    obtain ⟨_, _, _, rfl⟩ := Task.resume_eq_ok.1 hresumed
    exact hid
  have hrun : (resumeTask world task).run store =
      .ok resumed (store.saveTask resumed "Codex task resumed") := by
    rw [resumeTask_resumed hpaused hresumed]
    exact StartM.access_run_ok.2 ⟨hallowed, rfl⟩
  rw [cleanFrom_bind_ok hrun, resumed_cleanFrom_iff hsame]

/-- A task that cannot be resumed is left as it is. -/
theorem not_resumed_clean {task : Task} (hpaused : task.state = .paused)
    (hrefused : ∀ resumed, task.resume world.ambient.now = .ok resumed →
      world.denied .saveTask ≠ none) :
    CleanFrom (startView taskId) store (resumeTask world task >>= startSession world taskId)
      store := by
  cases hresumed : task.resume world.ambient.now with
  | error error =>
      rw [resumeTask, if_pos hpaused, hresumed]
      rintro _ _ ⟨⟩
      rfl
  | ok resumed =>
      obtain ⟨error, hdenied⟩ := Option.ne_none_iff_exists'.mp (hrefused resumed hresumed)
      rw [resumeTask_resumed hpaused hresumed]
      intro other failed hfailed
      rw [run_bind_error (StartM.access_run_denied hdenied)] at hfailed
      cases hfailed
      rfl

theorem taskStart_clean_iff {task : Task} (hrow : store.loadTask taskId = some task)
    (hid : task.id = taskId) :
    CleanFrom (startView taskId) store (resumeTask world task >>= startSession world taskId)
        store ↔ StartsClean world store taskId task := by
  by_cases hpaused : task.state = .paused
  · constructor
    · exact fun hclean => ⟨fun resumed _ hresumed hallowed =>
        (resuming_clean_iff hid hpaused hresumed hallowed).mp hclean,
        fun hfresh => absurd hpaused hfresh⟩
    · intro hclean
      by_cases hresumes : ∃ resumed, task.resume world.ambient.now = .ok resumed ∧
          world.denied .saveTask = none
      · obtain ⟨resumed, hresumed, hallowed⟩ := hresumes
        exact (resuming_clean_iff hid hpaused hresumed hallowed).mpr
          (hclean.resumed resumed hpaused hresumed hallowed)
      · exact not_resumed_clean hpaused fun resumed hresumed hallowed =>
          hresumes ⟨resumed, hresumed, hallowed⟩
  · have hrun : (resumeTask world task).run store = .ok task store := by
      rw [resumeTask, if_neg hpaused]
      rfl
    rw [cleanFrom_bind_ok hrun, startSession_cleanFrom_iff hrow hid]
    exact ⟨fun hleaves => ⟨fun _ hstate => absurd hstate hpaused, fun _ => hleaves⟩,
      fun hclean => hclean.fresh hpaused⟩

/-- If a start fails, the task and its jobs are as before, exactly when the task
that it loads starts clean. -/
theorem start_clean_iff (hkeyed : store.TasksKeyed) (service : CodexService)
    (processReady : Bool) :
    (∀ error failed, (service.start world processReady taskId).run store = .error error failed →
      startView taskId failed = startView taskId store) ↔
      (service.active.lookup taskId = none → world.denied .loadTask = none →
        ∀ task, store.loadTask taskId = some task → StartsClean world store taskId task) := by
  change CleanFrom (startView taskId) store (service.start world processReady taskId) store ↔ _
  rw [CodexService.start]
  cases hactive : service.active.lookup taskId with
  | some active => exact iff_of_true nofun nofun
  | none =>
      dsimp only
      rw [cleanFrom_bind_of_quiet (StartM.quiet_access fun _ => rfl) rfl]
      simp only [StartM.access_run_ok, Prod.mk.injEq, okOr_eq_ok]
      have hstart : ∀ task, store.loadTask taskId = some task →
          (CleanFrom (startView taskId) store
            ((resumeTask world task >>= startSession world taskId) >>= fun session =>
              pure (statusFromSession session.1 (session.1.status = .ready),
                service.active.insert taskId ⟨session.1, none, session.2⟩)) store ↔
            StartsClean world store taskId task) := by
        intro task hrow
        rw [cleanFrom_bind_pure, taskStart_clean_iff hrow (hkeyed.id_eq hrow)]
      constructor
      · intro hclean _ hallowed task hrow
        rw [← hstart task hrow, bind_assoc]
        exact hclean task store ⟨hallowed, rfl, hrow⟩
      · rintro hclean task _ ⟨hallowed, rfl, hrow⟩
        have htask := (hstart task hrow).mpr (hclean trivial hallowed task hrow)
        rw [bind_assoc] at htask
        exact htask

end Start

namespace Sample

/-- A task that was paused while it was implementing. -/
def pausedTask : Task :=
  { task .paused with
    interruption := some ⟨.paused, .implementing, "Paused by operator"⟩ }

def pausedForStart : EventStore :=
  { EventStore.empty with
    tasks := AList.singleton taskId pausedTask
    taskEvents := [{ taskId := taskId, summary := "Codex task paused", payload := pausedTask }] }

/-- The app-server cannot be launched. -/
def unlaunched : StartWorld where
  ambient := ambient
  executableVersion := "0.1.0"
  launched := .error "launch Codex app-server"
  written _ := .ok ()
  lines := []
  denied _ := none
  checkpointId := ⟨21⟩
  jobId := ⟨⟨22⟩⟩

theorem pausedForStart_keyed : pausedForStart.TasksKeyed := by decide

end Sample

/-- The failed launch leaves the paused task resumed. -/
theorem failed_start_resumes :
    ∃ failed, (CodexService.idle.start Sample.unlaunched false Sample.taskId).run
        Sample.pausedForStart = .error "launch Codex app-server" failed ∧
      startView Sample.taskId failed ≠ startView Sample.taskId Sample.pausedForStart := by
  refine ⟨_, rfl, fun hsame => ?_⟩
  exact absurd (congrArg (fun view => view.timeline.length) hsame) (by decide)

theorem start_clean_iff_paused :
    (∀ error failed, (CodexService.idle.start Sample.unlaunched false Sample.taskId).run
        Sample.pausedForStart = .error error failed →
      startView Sample.taskId failed = startView Sample.taskId Sample.pausedForStart) ↔
      (CodexService.idle.active.lookup Sample.taskId = none →
        Sample.unlaunched.denied .loadTask = none →
        ∀ task, Sample.pausedForStart.loadTask Sample.taskId = some task →
          StartsClean Sample.unlaunched Sample.pausedForStart Sample.taskId task) :=
  start_clean_iff Sample.pausedForStart_keyed CodexService.idle false

end Patchwright
