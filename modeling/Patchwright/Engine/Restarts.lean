import Patchwright.Engine.History

/-!
# Requests that a crash has cut off

Planning and verifying save their task several times, each time in a transaction
of its own.  An engine that stops between two of them finds the task on opening
its database as the last one left it.  This module issues the same request again
and tells after which transactions it goes through.
-/

namespace Patchwright

open Checked

section Planning

/-- What `task.plan` does to the store when nothing comes in between.  The
assessment of the repository is an argument. -/
def taskPlan (assess : Task → RepositoryBinding → Except String TaskContract) (ambient : Ambient)
    (store : EventStore) (taskId : TaskId) : Except String EventStore := do
  match ← planBegin store taskId with
  | none => return store
  | some (task, binding) => do
      let contract ← assess task binding
      planFinish ambient store task contract

/-- The contract is saved first, then the task in each of its states. -/
def planSaved (store : EventStore) (contract : TaskContract) (events : List (Task × String)) :
    Nat → EventStore
  | 0 => store
  | commits + 1 => (store.saveTaskContract contract).saveTaskEvents (events.take commits)

/-- The store after the first transactions of the last hold of `task.plan`. -/
def planStopped (ambient : Ambient) (store : EventStore) (task : Task) (contract : TaskContract)
    (commits : Nat) : Except String EventStore := do
  let fresh ← okOr "task is missing" (store.loadTask task.id)
  ensure (fresh = task) "task changed while planning"
  let events ← (advance ambient.now { task with contractVersion := contract.version }
    planEdges).mapError ValidationError.message
  return planSaved store contract events commits

end Planning

section Verifying

/-- Where a verification stops: while it submits its task, while its commands
run, and after some of the transactions of its last hold. -/
inductive VerifyStop where
  | submitting (commits : Nat)
  | running (evidence : List VerificationEvidence)
  | finishing (evidence : List VerificationEvidence) (commits : Nat)

def EventStore.withEvidence (store : EventStore) (evidence : List VerificationEvidence) :
    EventStore :=
  { store with verificationEvidence := store.verificationEvidence ++ evidence }

/-- What `task.readyForDelivery` does to the store when nothing comes in between,
with what its commands find and the evidence they leave. -/
def taskVerify (ambient : Ambient) (store : EventStore) (taskId : TaskId) (run : VerificationRun)
    (evidence : List VerificationEvidence) (checkpointId : Uuid) : Except String EventStore := do
  let held := verifyBegin ambient store taskId
  match ← held.2 with
  | none => return held.1
  | some (task, _) => do
      run.check
      verifyFinish ambient (held.1.withEvidence evidence) task checkpointId

/-- The store after the first transactions of the last hold of a verification. -/
def finishStopped (ambient : Ambient) (store : EventStore) (task : Task) (checkpointId : Uuid) :
    Nat → Except String EventStore
  | 0 => return store
  | 1 => do
      ensure (store.loadTask task.id = some task)
        "task or worktree changed while verification was running"
      let reviewing ← (task.transition .reviewing ambient.now).mapError ValidationError.message
      return store.saveTask reviewing
        "Contract verification commands passed at the captured commit"
  | _ => verifyFinish ambient store task checkpointId

/-- The store of a verification that stops. -/
def verifyStopped (ambient : Ambient) (store : EventStore) (taskId : TaskId) (checkpointId : Uuid) :
    VerifyStop → Except String EventStore
  | .submitting commits => do
      let task ← okOr "task was not found" (store.loadTask taskId)
      let events ← (advance ambient.now task (submitEdges task.state)).mapError
        ValidationError.message
      return store.saveTaskEvents (events.take commits)
  | .running evidence => do
      let held := verifyBegin ambient store taskId
      let _ ← okOr "task is ready" (← held.2)
      return held.1.withEvidence evidence
  | .finishing evidence commits => do
      let held := verifyBegin ambient store taskId
      let (task, _) ← okOr "task is ready" (← held.2)
      finishStopped ambient (held.1.withEvidence evidence) task checkpointId commits

end Verifying

def EventStore.HasState (store : EventStore) (id : TaskId) (state : TaskState) : Prop :=
  ∃ task, store.loadTask id = some task ∧ task.state = state

theorem EventStore.HasState.unique {store : EventStore} {id : TaskId} {state other : TaskState}
    (hstate : store.HasState id state) (hother : store.HasState id other) : state = other := by
  rcases hstate with ⟨task, hrow, rfl⟩
  rcases hother with ⟨again, hagain, rfl⟩
  rw [hrow, Option.some.injEq] at hagain
  rw [hagain]

/-- Opening the database leaves the rows of tasks as they are. -/
theorem EventStore.HasState.reopen {store : EventStore} {id : TaskId} {state : TaskState}
    (hstate : store.HasState id state) (now : DateTime) : (store.reopen now).HasState id state :=
  hstate

/-! ### Planning again -/

section PlanAgain

variable {assess : Task → RepositoryBinding → Except String TaskContract}
variable {ambient : Ambient} {store stopped : EventStore} {taskId : TaskId} {task : Task}
variable {binding : RepositoryBinding} {contract : TaskContract}

theorem planBegin_eq_some :
    planBegin store taskId = .ok (some (task, binding)) ↔
      store.loadTask taskId = some task ∧ task.state = .discovered ∧
        ∃ bindingId, task.repositoryBindingId = some bindingId ∧
          store.repositoryBinding bindingId = some binding := by
  simp only [planBegin, bind_eq_ok, okOr_eq_ok]
  constructor
  · rintro ⟨row, hrow, hrest⟩
    split at hrest
    · simp only [bind_eq_ok, pure_eq_ok, reduceCtorEq, and_false, exists_false] at hrest
    · simp only [bind_eq_ok, okOr_eq_ok, ensure_eq_ok, pure_eq_ok, Option.some.injEq,
        Prod.mk.injEq] at hrest
      rcases hrest with ⟨-, hstate, bindingId, hbinding, found, hfound, rfl, rfl⟩
      exact ⟨hrow, hstate, bindingId, hbinding, hfound⟩
  · rintro ⟨hrow, hstate, bindingId, hbinding, hfound⟩
    refine ⟨task, hrow, ?_⟩
    rw [if_neg (by rw [hstate]; decide)]
    simp only [bind_eq_ok, okOr_eq_ok, ensure_eq_ok, pure_eq_ok]
    exact ⟨(), hstate, bindingId, hbinding, binding, hfound, rfl⟩

/-- The saves of a task that is planned. -/
def plannedEvents (now : DateTime) (task : Task) : List (Task × String) :=
  planEdges.map fun edge => ({ task with state := edge.1, updatedAt := now }, edge.2)

theorem advance_planEdges (now : DateTime) (task : Task) (hstate : task.state = .discovered) :
    advance now task planEdges = .ok (plannedEvents now task) := by
  simp [advance, planEdges, plannedEvents, Task.transition, hstate, TaskState.permits, ensure, bind,
    Except.bind, pure, Except.pure]

/-- A task that is not planned yet is planned. -/
theorem taskPlan_of_discovered (ambient : Ambient) (hkeyed : store.TasksKeyed)
    (hbegin : planBegin store taskId = .ok (some (task, binding)))
    (hassess : assess task binding = .ok contract) :
    ∃ next, taskPlan assess ambient store taskId = .ok next ∧
      next.HasState taskId .awaitingPreparationApproval := by
  rcases planBegin_eq_some.1 hbegin with ⟨hrow, hstate, -⟩
  have hid := hkeyed.id_eq hrow
  have hadvance := advance_planEdges ambient.now
    { task with contractVersion := contract.version } hstate
  refine ⟨(store.saveTaskContract contract).saveTaskEvents
    (plannedEvents ambient.now { task with contractVersion := contract.version }), ?_, ?_⟩
  · simp only [taskPlan, bind_eq_ok]
    refine ⟨_, hbegin, ?_⟩
    simp only [bind_eq_ok]
    refine ⟨contract, hassess, ?_⟩
    simp only [planFinish, bind_eq_ok, okOr_eq_ok, ensure_eq_ok, mapError_eq_ok, pure_eq_ok]
    exact ⟨task, hid.symm ▸ hrow, (), rfl, _, hadvance, rfl⟩
  · rw [← hid]
    exact ⟨_, EventStore.loadTask_saveTask_self _ _ _, rfl⟩

theorem taskPlan_of_planned (hstate : store.HasState taskId .awaitingPreparationApproval)
    (hcontract : store.taskContract taskId = some contract) :
    taskPlan assess ambient store taskId = .ok store := by
  rcases hstate with ⟨row, hrow, hstate⟩
  rw [taskPlan, planBegin, hrow, okOr, ok_bind, if_pos hstate, hcontract]
  rfl

theorem not_taskPlan_of_state {state : TaskState} (hstate : store.HasState taskId state)
    (hdiscovered : state ≠ .discovered) (hplanned : state ≠ .awaitingPreparationApproval)
    (next : EventStore) : taskPlan assess ambient store taskId ≠ .ok next := by
  rcases hstate with ⟨row, hrow, rfl⟩
  rw [taskPlan, planBegin, hrow, okOr, ok_bind, if_neg hplanned, ensure, if_neg hdiscovered]
  rintro ⟨⟩

theorem planStopped_eq_ok {commits : Nat}
    (hok : planStopped ambient store task contract commits = .ok stopped) :
    ∃ events, advance ambient.now { task with contractVersion := contract.version } planEdges =
        .ok events ∧ planSaved store contract events commits = stopped := by
  simp only [planStopped, bind_eq_ok, okOr_eq_ok, ensure_eq_ok, mapError_eq_ok, pure_eq_ok] at hok
  rcases hok with ⟨-, -, -, -, events, hevents, hstopped⟩
  exact ⟨events, hevents, hstopped⟩

/-- A saved task is the row of its identifier. -/
theorem hasState_saveTask (store : EventStore) (task : Task) (summary : String) :
    (store.saveTask task summary).HasState task.id task.state :=
  ⟨task, EventStore.loadTask_saveTask_self _ _ _, rfl⟩

/-- Planning goes through again unless it stopped between two states. -/
theorem taskPlan_restarts_iff {commits : Nat} (hkeyed : store.TasksKeyed)
    (hcontracts : ∀ task binding contract, assess task binding = .ok contract →
      contract.taskId = task.id)
    (hbegin : planBegin store taskId = .ok (some (task, binding)))
    (hassess : assess task binding = .ok contract)
    (hstopped : planStopped ambient store task contract commits = .ok stopped)
    (now : DateTime) (again : Ambient) :
    (∃ next, taskPlan assess again (stopped.reopen now) taskId = .ok next ∧
        next.HasState taskId .awaitingPreparationApproval) ↔
      commits ≠ 2 ∧ commits ≠ 3 := by
  rcases planBegin_eq_some.1 hbegin with ⟨hrow, hstate, bindingId, hbinding, hfound⟩
  obtain rfl : task.id = taskId := hkeyed.id_eq hrow
  rcases planStopped_eq_ok hstopped with ⟨events, hevents, rfl⟩
  have hadvance := advance_planEdges ambient.now
    { task with contractVersion := contract.version } hstate
  cases hadvance.symm.trans hevents
  match commits with
  | 0 =>
      have hopened : (store.reopen now).TasksKeyed := hkeyed
      have hbegun : planBegin (store.reopen now) task.id = .ok (some (task, binding)) := hbegin
      have hplanned := taskPlan_of_discovered again hopened hbegun hassess
      exact iff_of_true hplanned (by decide)
  | 1 =>
      have hopened : ((store.saveTaskContract contract).reopen now).TasksKeyed := hkeyed
      have hbegun : planBegin ((store.saveTaskContract contract).reopen now) task.id =
          .ok (some (task, binding)) := planBegin_eq_some.2 ⟨hrow, hstate, bindingId, hbinding, hfound⟩
      have hplanned := taskPlan_of_discovered again hopened hbegun hassess
      exact iff_of_true hplanned (by decide)
  | 2 =>
      have hsaved := hasState_saveTask (store.saveTaskContract contract)
        { task with
          contractVersion := contract.version, state := .assessing, updatedAt := ambient.now }
        "Task source and repository assessed"
      refine iff_of_false ?_ (by decide)
      rintro ⟨next, hnext, -⟩
      exact not_taskPlan_of_state (hsaved.reopen now) nofun nofun next hnext
  | 3 =>
      have hsaved := hasState_saveTask ((store.saveTaskContract contract).saveTask
          { task with
            contractVersion := contract.version, state := .assessing, updatedAt := ambient.now }
          "Task source and repository assessed")
        { task with
          contractVersion := contract.version, state := .planned, updatedAt := ambient.now }
        "Typed task contract planned"
      refine iff_of_false ?_ (by decide)
      rintro ⟨next, hnext, -⟩
      exact not_taskPlan_of_state (hsaved.reopen now) nofun nofun next hnext
  | commits + 4 =>
      have htake : (plannedEvents ambient.now
          { task with contractVersion := contract.version }).take (commits + 3) =
            plannedEvents ambient.now { task with contractVersion := contract.version } :=
        List.take_of_length_le (Nat.le_add_left 3 commits)
      rw [planSaved, htake]
      have hcontract : ((store.saveTaskContract contract).saveTaskEvents (plannedEvents ambient.now
          { task with contractVersion := contract.version })).taskContract task.id =
            some contract := by
        rw [EventStore.saveTaskEvents_frame, ← hcontracts task binding contract hassess]
        exact AList.lookup_insert _
      have hsaved : ((store.saveTaskContract contract).saveTaskEvents (plannedEvents ambient.now
          { task with contractVersion := contract.version })).HasState task.id
            .awaitingPreparationApproval :=
        hasState_saveTask _ _ _
      refine iff_of_true ⟨_, taskPlan_of_planned (hsaved.reopen now) hcontract,
        hsaved.reopen now⟩ ?_
      omega

end PlanAgain

/-! ### Verifying again -/

/-- The states from which a verification submits its task. -/
def TaskState.isSubmitted : TaskState → Bool
  | preparing | implementing | verifying => true
  | _ => false

theorem TaskState.isSubmitted_iff {state : TaskState} :
    state.isSubmitted ↔ state = .preparing ∨ state = .implementing ∨ state = .verifying := by
  cases state <;> simp [isSubmitted]

/-- The task has a contract with commands. -/
def EventStore.HasCommands (store : EventStore) (taskId : TaskId) : Prop :=
  ∃ contract, store.taskContract taskId = some contract ∧ contract.verificationCommands ≠ []

section VerifyAgain

variable {ambient : Ambient} {store stopped : EventStore} {taskId : TaskId} {task : Task}
variable {run : VerificationRun} {evidence : List VerificationEvidence} {checkpointId : Uuid}

/-- Submitting leaves a verifying task, by saves that stay among the states a
verification submits from. -/
theorem advance_submitEdges (now : DateTime) (hstate : task.state.isSubmitted) :
    ∃ events, advance now task (submitEdges task.state) = .ok events ∧
      (∀ event ∈ events, event.1.id = task.id ∧ event.1.state.isSubmitted) ∧
      ((events.getLast?.map Prod.fst).getD task).id = task.id ∧
      ((events.getLast?.map Prod.fst).getD task).state = .verifying := by
  rcases TaskState.isSubmitted_iff.1 hstate with hcase | hcase | hcase
  · rw [hcase]
    refine ⟨[({ task with state := .implementing, updatedAt := now },
      "Prepared worktree was explicitly submitted for verification"),
      ({ task with state := .verifying, updatedAt := now },
        "Implementation submitted for verification")], ?_, ?_, rfl, rfl⟩
    · simp [advance, submitEdges, Task.transition, hcase, TaskState.permits, ensure, bind,
        Except.bind, pure, Except.pure]
    · simp [TaskState.isSubmitted]
  · rw [hcase]
    refine ⟨[({ task with state := .verifying, updatedAt := now },
      "Implementation submitted for verification")], ?_, ?_, rfl, rfl⟩
    · simp [advance, submitEdges, Task.transition, hcase, TaskState.permits, ensure, bind,
        Except.bind, pure, Except.pure]
    · simp [TaskState.isSubmitted]
  · rw [hcase]
    exact ⟨[], rfl, fun event hnone => absurd hnone List.not_mem_nil, rfl, hcase⟩

/-- The row after saves of one task is the last of them. -/
theorem loadTask_saveTaskEvents_last (store : EventStore) {events : List (Task × String)}
    {id : TaskId}
    (hids : ∀ event ∈ events, event.1.id = id) :
    (store.saveTaskEvents events).loadTask id =
      (events.getLast?.map Prod.fst).or (store.loadTask id) := by
  have hwrote := EventStore.Wrote.saveTaskEvents store hids
  rw [hwrote.loadTask_self, List.getLast?_map]

/-- The first hold of a verification from a state it submits from. -/
theorem verifyBegin_submitted (ambient : Ambient) (hkeyed : store.TasksKeyed)
    (hrow : store.loadTask taskId = some task)
    (hstate : task.state.isSubmitted) :
    ∃ submitted, (verifyBegin ambient store taskId).1.loadTask taskId = some submitted ∧
      submitted.id = taskId ∧ submitted.state = .verifying ∧
      (verifyBegin ambient store taskId).1.taskContracts = store.taskContracts ∧
      (verifyBegin ambient store taskId).1.TasksKeyed ∧
      (∀ contract, store.taskContract taskId = some contract → contract.verificationCommands ≠ [] →
        (verifyBegin ambient store taskId).2 = .ok (some (submitted, contract))) ∧
      (∀ begun, (verifyBegin ambient store taskId).2 = .ok begun →
        store.HasCommands taskId ∧ ∃ contract, begun = some (submitted, contract)) := by
  obtain rfl : task.id = taskId := hkeyed.id_eq hrow
  rcases advance_submitEdges ambient.now hstate with ⟨events, hevents, hsaves, hid, hverifying⟩
  have hbegin : verifyBegin ambient store task.id = (store.saveTaskEvents events, do
      ensure (((events.getLast?.map Prod.fst).getD task).state = .verifying)
        ("task state " ++ ((events.getLast?.map Prod.fst).getD task).state.display ++
          " cannot be verified")
      let contract ← okOr "task contract was not found" (store.taskContract task.id)
      ensure (contract.verificationCommands ≠ []) "task contract has no verification commands"
      return some ((events.getLast?.map Prod.fst).getD task, contract)) := by
    have hopen : task.state ≠ .awaitingDeliveryApproval := by
      intro hready
      rw [hready] at hstate
      exact absurd hstate nofun
    rw [verifyBegin, hrow]
    dsimp only
    rw [if_neg hopen, hevents]
  rw [hbegin]
  refine ⟨(events.getLast?.map Prod.fst).getD task, ?_, hid, hverifying, ?_, ?_, ?_, ?_⟩
  · rw [loadTask_saveTaskEvents_last store fun event hevent => (hsaves event hevent).1, hrow]
    cases events.getLast?.map Prod.fst <;> rfl
  · rw [EventStore.saveTaskEvents_frame]
  · exact hkeyed.saveTaskEvents events
  · intro contract hcontract hcommands
    rw [ensure, if_pos hverifying, hcontract]
    dsimp only [okOr]
    rw [ok_bind, ok_bind, ensure, if_pos hcommands]
    rfl
  · intro begun hbegun
    simp only [bind_eq_ok, ensure_eq_ok, okOr_eq_ok, pure_eq_ok] at hbegun
    rcases hbegun with ⟨-, -, contract, hcontract, -, hcommands, rfl⟩
    exact ⟨⟨contract, hcontract, hcommands⟩, contract, rfl⟩

theorem ready_summary : validateSummary "Verified commit is awaiting exact GitHub delivery approval" =
    .ok "Verified commit is awaiting exact GitHub delivery approval" := by
  decide

theorem verifyFinish_hasState {next : EventStore}
    (hok : verifyFinish ambient store task checkpointId = .ok next) :
    next.HasState task.id .awaitingDeliveryApproval := by
  simp only [verifyFinish, bind_eq_ok, ensure_eq_ok, mapError_eq_ok, Task.transition_eq_ok] at hok
  rcases hok with ⟨-, -, _, ⟨-, rfl⟩, _, ⟨-, rfl⟩, checkpoint, -, hsaved⟩
  have hwrote := EventStore.Wrote.saveTaskWithCheckpoint hsaved
  exact ⟨_, hwrote.loadTask_self, rfl⟩

/-- The last hold goes through on the row it started from. -/
theorem verifyFinish_of_verifying (ambient : Ambient) (checkpointId : Uuid)
    (hrow : store.loadTask task.id = some task)
    (hstate : task.state = .verifying) :
    ∃ next, verifyFinish ambient store task checkpointId = .ok next ∧
      next.HasState task.id .awaitingDeliveryApproval := by
  have hok : (verifyFinish ambient store task checkpointId).isOk := by
    simp [verifyFinish, hrow, hstate, ensure, Task.transition, TaskState.permits,
      TaskCheckpoint.new, ready_summary, EventStore.saveTaskWithCheckpoint, bind, Except.bind,
      Except.mapError, pure, Except.pure, Except.isOk, Except.toBool]
  cases hnext : verifyFinish ambient store task checkpointId with
  | error error =>
      rw [hnext] at hok
      cases hok
  | ok next => exact ⟨next, rfl, verifyFinish_hasState hnext⟩

theorem taskVerify_of_submitted (ambient : Ambient) (store : EventStore)
    (evidence : List VerificationEvidence) (checkpointId : Uuid) (hkeyed : store.TasksKeyed)
    (hrow : store.loadTask taskId = some task) (hstate : task.state.isSubmitted)
    (hcommands : store.HasCommands taskId) (hquiet : run.check = .ok ()) :
    ∃ next, taskVerify ambient store taskId run evidence checkpointId = .ok next ∧
      next.HasState taskId .awaitingDeliveryApproval := by
  rcases hcommands with ⟨contract, hcontract, hsome⟩
  rcases verifyBegin_submitted ambient hkeyed hrow hstate with
    ⟨submitted, hsubmitted, rfl, hverifying, -, -, hbegun, -⟩
  have hheld : ((verifyBegin ambient store submitted.id).1.withEvidence evidence).loadTask
      submitted.id = some submitted := hsubmitted
  rcases verifyFinish_of_verifying ambient checkpointId hheld
    hverifying with ⟨next, hnext, hready⟩
  refine ⟨next, ?_, hready⟩
  simp only [taskVerify, bind_eq_ok]
  refine ⟨_, hbegun contract hcontract hsome, ?_⟩
  simp only [bind_eq_ok]
  exact ⟨(), hquiet, hnext⟩

theorem not_taskVerify_of_no_commands (store : EventStore) (hkeyed : store.TasksKeyed)
    (hrow : store.loadTask taskId = some task) (hstate : task.state.isSubmitted)
    (hcommands : ¬ store.HasCommands taskId) (next : EventStore) :
    taskVerify ambient store taskId run evidence checkpointId ≠ .ok next := by
  rcases verifyBegin_submitted ambient hkeyed hrow hstate with
    ⟨submitted, -, -, -, -, -, -, hchecked⟩
  intro hnext
  simp only [taskVerify, bind_eq_ok] at hnext
  rcases hnext with ⟨begun, hbegun, -⟩
  exact hcommands (hchecked begun hbegun).1

theorem taskVerify_of_ready (ambient : Ambient) (run : VerificationRun)
    (evidence : List VerificationEvidence) (checkpointId : Uuid)
    (hready : store.HasState taskId .awaitingDeliveryApproval) :
    taskVerify ambient store taskId run evidence checkpointId = .ok store := by
  rcases hready with ⟨row, hrow, hstate⟩
  have hbegin : verifyBegin ambient store taskId = (store, .ok none) := by
    rw [verifyBegin, hrow]
    exact if_pos hstate
  rw [taskVerify, hbegin]
  rfl

theorem not_taskVerify_of_state {state : TaskState} (hstate : store.HasState taskId state)
    (hsubmitted : ¬ state.isSubmitted) (hready : state ≠ .awaitingDeliveryApproval)
    (next : EventStore) :
    taskVerify ambient store taskId run evidence checkpointId ≠ .ok next := by
  rcases hstate with ⟨row, hrow, rfl⟩
  have hnone : submitEdges row.state = [] := by
    unfold submitEdges
    split
    · next hpreparing => exact absurd (hpreparing ▸ rfl) hsubmitted
    · next himplementing => exact absurd (himplementing ▸ rfl) hsubmitted
    · rfl
  have hverifying : row.state ≠ .verifying := fun hverifying => hsubmitted (hverifying ▸ rfl)
  intro hnext
  simp only [taskVerify, bind_eq_ok] at hnext
  rcases hnext with ⟨begun, hbegun, -⟩
  rw [verifyBegin, hrow] at hbegun
  dsimp only at hbegun
  rw [if_neg hready, hnone, advance] at hbegun
  simp only [bind_eq_ok, ensure_eq_ok] at hbegun
  rcases hbegun with ⟨-, hsame, -⟩
  exact hverifying hsame

theorem EventStore.hasCommands_congr {next : EventStore} (taskId : TaskId)
    (hcontracts : next.taskContracts = store.taskContracts) :
    next.HasCommands taskId ↔ store.HasCommands taskId := by
  rw [EventStore.HasCommands, EventStore.taskContract, hcontracts]
  rfl

/-- A verification that stops while it submits leaves its task where it can
submit it again. -/
theorem submitting_row {commits : Nat} (hkeyed : store.TasksKeyed)
    (hrow : store.loadTask taskId = some task) (hstate : task.state.isSubmitted)
    (hstopped : verifyStopped ambient store taskId checkpointId (.submitting commits) =
      .ok stopped) :
    ∃ row, stopped.loadTask taskId = some row ∧ row.state.isSubmitted ∧
      stopped.taskContracts = store.taskContracts ∧ stopped.TasksKeyed := by
  simp only [verifyStopped, bind_eq_ok, okOr_eq_ok, mapError_eq_ok, pure_eq_ok] at hstopped
  rcases hstopped with ⟨loaded, hloaded, events, hevents, rfl⟩
  cases hrow.symm.trans hloaded
  obtain rfl : task.id = taskId := hkeyed.id_eq hrow
  rcases advance_submitEdges ambient.now hstate with ⟨saves, hsaves, hsubmitted, -⟩
  obtain rfl := Except.ok.inj (hsaves.symm.trans hevents)
  have hids : ∀ event ∈ saves.take commits, event.1.id = task.id :=
    fun event hevent => (hsubmitted event (List.mem_of_mem_take hevent)).1
  have hlast := loadTask_saveTaskEvents_last store hids
  rw [hrow] at hlast
  have hcontracts : (store.saveTaskEvents (saves.take commits)).taskContracts =
      store.taskContracts := by
    rw [EventStore.saveTaskEvents_frame]
  cases hend : (saves.take commits).getLast? with
  | none =>
      rw [hend] at hlast
      exact ⟨task, hlast, hstate, hcontracts, hkeyed.saveTaskEvents _⟩
  | some event =>
      rw [hend] at hlast
      have hmem := List.mem_of_mem_take (List.mem_of_getLast? hend)
      exact ⟨event.1, hlast, (hsubmitted event hmem).2, hcontracts, hkeyed.saveTaskEvents _⟩

/-- A verification that has submitted its task leaves it verifying. -/
theorem running_row {saved : List VerificationEvidence} (hkeyed : store.TasksKeyed)
    (hrow : store.loadTask taskId = some task) (hstate : task.state.isSubmitted)
    (hstopped : verifyStopped ambient store taskId checkpointId (.running saved) = .ok stopped) :
    store.HasCommands taskId ∧ stopped.HasState taskId .verifying ∧
      stopped.taskContracts = store.taskContracts ∧ stopped.TasksKeyed := by
  rcases verifyBegin_submitted ambient hkeyed hrow hstate with
    ⟨submitted, hsubmitted, -, hverifying, hcontracts, hheld, -, hchecked⟩
  simp only [verifyStopped, bind_eq_ok, okOr_eq_ok, pure_eq_ok] at hstopped
  rcases hstopped with ⟨begun, hbegun, -, -, rfl⟩
  exact ⟨(hchecked begun hbegun).1, ⟨submitted, hsubmitted, hverifying⟩, hcontracts, hheld⟩

/-- A verification that stops in its last hold has submitted its task before. -/
theorem finishing_eq_ok {saved : List VerificationEvidence} {commits : Nat}
    (hkeyed : store.TasksKeyed) (hrow : store.loadTask taskId = some task)
    (hstate : task.state.isSubmitted)
    (hstopped : verifyStopped ambient store taskId checkpointId (.finishing saved commits) =
      .ok stopped) :
    ∃ middle submitted,
      verifyStopped ambient store taskId checkpointId (.running saved) = .ok middle ∧
      submitted.id = taskId ∧
      finishStopped ambient middle submitted checkpointId commits = .ok stopped := by
  rcases verifyBegin_submitted ambient hkeyed hrow hstate with
    ⟨submitted, -, hid, -, -, -, -, hchecked⟩
  simp only [verifyStopped, bind_eq_ok, okOr_eq_ok] at hstopped
  rcases hstopped with ⟨begun, hbegun, pair, hsome, hfinish⟩
  rcases (hchecked begun hbegun).2 with ⟨contract, rfl⟩
  obtain rfl := Option.some.inj hsome
  refine ⟨_, submitted, ?_, hid, hfinish⟩
  simp only [verifyStopped, bind_eq_ok, okOr_eq_ok, pure_eq_ok]
  exact ⟨_, hbegun, _, rfl, trivial⟩

/-- A verification goes through again, where its task has a contract with
commands, unless it stopped between the two saves of its last hold. -/
theorem taskVerify_restarts_iff {stop : VerifyStop} (hkeyed : store.TasksKeyed)
    (hrow : store.loadTask taskId = some task) (hstate : task.state.isSubmitted)
    (hstopped : verifyStopped ambient store taskId checkpointId stop = .ok stopped)
    (hquiet : run.check = .ok ()) (now : DateTime) (again : Ambient) (anew : Uuid) :
    (∃ next, taskVerify again (stopped.reopen now) taskId run evidence anew = .ok next ∧
        next.HasState taskId .awaitingDeliveryApproval) ↔
      store.HasCommands taskId ∧ ∀ saved, stop ≠ .finishing saved 1 := by
  cases stop with
  | submitting commits =>
      rcases submitting_row hkeyed hrow hstate hstopped with
        ⟨row, hstoppedRow, hsubmitted, hcontracts, hopened⟩
      have hsame := EventStore.hasCommands_congr taskId hcontracts
      by_cases hcommands : store.HasCommands taskId
      · have hgoes := taskVerify_of_submitted again (stopped.reopen now) evidence anew hopened
          hstoppedRow hsubmitted (hsame.mpr hcommands) hquiet
        exact iff_of_true hgoes ⟨hcommands, by rintro _ ⟨⟩⟩
      · refine iff_of_false ?_ fun hboth => hcommands hboth.1
        rintro ⟨next, hnext, -⟩
        exact not_taskVerify_of_no_commands (stopped.reopen now) hopened hstoppedRow
          hsubmitted (fun hhas => hcommands (hsame.mp hhas)) next hnext
  | running saved =>
      rcases running_row hkeyed hrow hstate hstopped with
        ⟨hcommands, ⟨submitted, hsubmitted, hverifying⟩, hcontracts, hopened⟩
      have hgoes := taskVerify_of_submitted again (stopped.reopen now) evidence anew hopened
        hsubmitted (hverifying ▸ rfl) ((EventStore.hasCommands_congr taskId hcontracts).mpr hcommands) hquiet
      exact iff_of_true hgoes ⟨hcommands, by rintro _ ⟨⟩⟩
  | finishing saved commits =>
      rcases finishing_eq_ok hkeyed hrow hstate hstopped with
        ⟨middle, submitted, hmiddle, rfl, hfinish⟩
      rcases running_row hkeyed hrow hstate hmiddle with
        ⟨hcommands, ⟨row, hmiddleRow, hverifying⟩, hcontracts, hopened⟩
      rcases commits with _ | _ | commits
      · obtain rfl := pure_eq_ok.1 hfinish
        have hgoes := taskVerify_of_submitted again (middle.reopen now) evidence anew hopened
          hmiddleRow (hverifying ▸ rfl) ((EventStore.hasCommands_congr _ hcontracts).mpr hcommands) hquiet
        exact iff_of_true hgoes ⟨hcommands, fun _ => by rintro ⟨⟩⟩
      · simp only [finishStopped, bind_eq_ok, ensure_eq_ok, mapError_eq_ok, pure_eq_ok,
          Task.transition_eq_ok] at hfinish
        rcases hfinish with ⟨-, -, _, ⟨-, rfl⟩, rfl⟩
        have hreviewing := hasState_saveTask middle
          { submitted with state := .reviewing, updatedAt := ambient.now }
          "Contract verification commands passed at the captured commit"
        refine iff_of_false ?_ fun hboth => hboth.2 saved rfl
        rintro ⟨next, hnext, -⟩
        exact not_taskVerify_of_state (hreviewing.reopen now) (by rintro ⟨⟩) (by rintro ⟨⟩) next hnext
      · have hready := verifyFinish_hasState hfinish
        have hgoes := taskVerify_of_ready again run evidence anew (hready.reopen now)
        exact iff_of_true ⟨_, hgoes, hready.reopen now⟩ ⟨hcommands, fun _ => by rintro ⟨⟩⟩

end VerifyAgain

/-- A planning or verification that a crash has cut off goes through when it is
issued again, and leaves the task at its gate, exactly when it did not stop
between two states that the request does not start from: assessing and planned
for a planning, reviewing for a verification. -/
theorem cutOff_restarts_iff (assess : Task → RepositoryBinding → Except String TaskContract)
    (hcontracts : ∀ task binding contract, assess task binding = .ok contract →
      contract.taskId = task.id)
    {store : EventStore} (hkeyed : store.TasksKeyed) (ambient again : Ambient) (now : DateTime) :
    (∀ taskId task binding contract commits stopped,
      planBegin store taskId = .ok (some (task, binding)) →
      assess task binding = .ok contract →
      planStopped ambient store task contract commits = .ok stopped →
      ((∃ next, taskPlan assess again (stopped.reopen now) taskId = .ok next ∧
          next.HasState taskId .awaitingPreparationApproval) ↔
        commits ≠ 2 ∧ commits ≠ 3)) ∧
    (∀ taskId task checkpointId stop stopped run evidence anew,
      store.loadTask taskId = some task → task.state.isSubmitted →
      verifyStopped ambient store taskId checkpointId stop = .ok stopped →
      VerificationRun.check run = .ok () →
      ((∃ next, taskVerify again (stopped.reopen now) taskId run evidence anew = .ok next ∧
          next.HasState taskId .awaitingDeliveryApproval) ↔
        store.HasCommands taskId ∧ ∀ saved, stop ≠ .finishing saved 1)) :=
  ⟨fun _ _ _ _ _ _ hbegin hassess hstopped =>
      taskPlan_restarts_iff hkeyed hcontracts hbegin hassess hstopped now again,
    fun _ _ _ _ _ _ _ anew hrow hstate hstopped hquiet =>
      taskVerify_restarts_iff hkeyed hrow hstate hstopped hquiet now again anew⟩

namespace Sample

/-- An assessment that always comes to the contract of the sample. -/
def assess (task : Task) (_ : RepositoryBinding) : Except String TaskContract :=
  .ok { contract with taskId := task.id }

def quietRun : VerificationRun := ⟨.ok ⟨false, headSha⟩, true, .ok ⟨false, headSha⟩⟩

/-- Planning stops after the task was saved as assessing. -/
def planStoppedStore (commits : Nat) : EventStore :=
  (planStopped ambient (store .discovered) (task .discovered) contract commits).toOption.getD .empty

/-- Verifying stops in its last hold. -/
def verifyStoppedStore (commits : Nat) : EventStore :=
  (verifyStopped ambient (store .verifying) taskId ⟨16⟩ (.finishing [] commits)).toOption.getD .empty

theorem restart_samples :
    (store .discovered).TasksKeyed ∧ (store .verifying).TasksKeyed ∧
      planBegin (store .discovered) taskId = .ok (some (task .discovered, binding)) ∧
      (∀ commits ∈ [1, 2],
        (planStopped ambient (store .discovered) (task .discovered) contract commits).isOk) ∧
      (store .verifying).loadTask taskId = some (task .verifying) ∧
      (∀ commits ∈ [0, 1],
        (verifyStopped ambient (store .verifying) taskId ⟨16⟩ (.finishing [] commits)).isOk) ∧
      quietRun.check = .ok () ∧
      ((planStoppedStore 2).loadTask taskId).map Task.state = some .assessing ∧
      ((verifyStoppedStore 1).loadTask taskId).map Task.state = some .reviewing := by
  decide

end Sample

open Sample

/-- A planning that stops after the task was saved as assessing, and a
verification that stops after it was saved as reviewing: neither request is
accepted again. -/
theorem cutOff_stranded :
    planStopped ambient (store .discovered) (task .discovered) contract 2 =
        .ok (planStoppedStore 2) ∧
      (¬ ∃ next, taskPlan assess ambient ((planStoppedStore 2).reopen 0) taskId = .ok next) ∧
      verifyStopped ambient (store .verifying) taskId ⟨16⟩ (.finishing [] 1) =
        .ok (verifyStoppedStore 1) ∧
      ¬ ∃ next, taskVerify ambient ((verifyStoppedStore 1).reopen 0) taskId quietRun [] ⟨17⟩ =
        .ok next := by
  obtain ⟨-, -, -, hplan, -, hverify, -, hassessed, hreviewed⟩ := restart_samples
  have hplanned := eq_ok_getD (hplan 2 (by decide)) .empty
  have hverified := eq_ok_getD (hverify 1 (by decide)) .empty
  have hassessing : (planStoppedStore 2).HasState taskId .assessing :=
    Option.map_eq_some_iff.mp hassessed
  have hreviewing : (verifyStoppedStore 1).HasState taskId .reviewing :=
    Option.map_eq_some_iff.mp hreviewed
  refine ⟨hplanned, ?_, hverified, ?_⟩
  · rintro ⟨next, hnext⟩
    exact not_taskPlan_of_state (hassessing.reopen 0) nofun nofun next hnext
  · rintro ⟨next, hnext⟩
    exact not_taskVerify_of_state (hreviewing.reopen 0) nofun nofun next hnext

/-- Stopped before they change the task, both requests go through again. -/
theorem cutOff_restarted :
    (∃ next, taskPlan assess ambient ((planStoppedStore 1).reopen 0) taskId = .ok next ∧
        next.HasState taskId .awaitingPreparationApproval) ∧
      ∃ next, taskVerify ambient ((verifyStoppedStore 0).reopen 0) taskId quietRun [] ⟨17⟩ =
          .ok next ∧
        next.HasState taskId .awaitingDeliveryApproval := by
  obtain ⟨hdiscovered, hverifying, hbegin, hplan, hrow, hverify, hquiet, -, -⟩ := restart_samples
  have hcontracts : ∀ task binding contract, assess task binding = .ok contract →
      contract.taskId = task.id := by
    rintro task binding contract ⟨⟩
    rfl
  have hcommands : (store .verifying).HasCommands taskId := ⟨contract, rfl, nofun⟩
  have hplanAgain := (cutOff_restarts_iff assess hcontracts hdiscovered ambient ambient 0).1 taskId
    (task .discovered) binding contract 1 (planStoppedStore 1) hbegin rfl
    (eq_ok_getD (hplan 1 (by decide)) .empty)
  have hverifyAgain := (cutOff_restarts_iff assess hcontracts hverifying ambient ambient 0).2 taskId
    (task .verifying) ⟨16⟩ (.finishing [] 0) (verifyStoppedStore 0) quietRun [] ⟨17⟩ hrow rfl
    (eq_ok_getD (hverify 0 (by decide)) .empty) hquiet
  exact ⟨hplanAgain.mpr (by decide), hverifyAgain.mpr ⟨hcommands, fun _ => nofun⟩⟩

end Patchwright
