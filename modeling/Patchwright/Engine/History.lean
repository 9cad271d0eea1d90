import Patchwright.Library.Journal
import Patchwright.Engine.System

/-!
# What a step writes to the history of tasks

The task rows and their history form a journal.  Every step of the engine
writes payloads of at most one task, and `Effect` says which payloads it may
write and on which row: a new task, a planned or prepared one, moves along the
lifecycle, a resumed task, or the copy that the Codex service has interrupted.
Only the last of these disregards the row.
-/

namespace Patchwright

open Checked Runs

namespace EventStore

def journal (store : EventStore) : Journal TaskId Task := ⟨store.loadTask, store.timeline⟩

/-- Payloads of one task were written, and nothing else changed in the task
rows and their history. -/
structure Wrote (first second : EventStore) (id : TaskId) (payloads : List Task) : Prop
    extends Journal.Wrote first.journal second.journal id payloads where
  keyed : first.TasksKeyed → second.TasksKeyed

namespace Wrote

variable {first second third : EventStore} {id : TaskId} {payloads : List Task}

theorem loadTask_ne (hwrote : Wrote first second id payloads) {other : TaskId}
    (hother : other ≠ id) : second.loadTask other = first.loadTask other :=
  hwrote.row_ne other hother

theorem loadTask_self (hwrote : Wrote first second id payloads) :
    second.loadTask id = payloads.getLast?.or (first.loadTask id) := hwrote.row

theorem of_eq (htasks : second.tasks = first.tasks)
    (hevents : second.taskEvents = first.taskEvents) (id : TaskId) :
    Wrote first second id [] where
  row := congrArg (AList.lookup id) htasks
  history := by
    change second.timeline id = first.timeline id ++ []
    rw [List.append_nil, timeline, hevents, timeline]
  row_ne := fun other _ => congrArg (AList.lookup other) htasks
  history_ne := fun other _ => by
    change second.timeline other = first.timeline other
    rw [timeline, hevents, timeline]
  keyed := fun hkeyed => by
    rw [TasksKeyed, htasks]
    exact hkeyed

theorem refl (store : EventStore) (id : TaskId) : Wrote store store id [] := of_eq rfl rfl id

theorem trans {more : List Task} (hfirst : Wrote first second id payloads)
    (hsecond : Wrote second third id more) : Wrote first third id (payloads ++ more) where
  toWrote := hfirst.toWrote.trans hsecond.toWrote
  keyed := fun hkeyed => hsecond.keyed (hfirst.keyed hkeyed)

/-- A write that is followed by changes of other tables. -/
theorem then_eq (hwrote : Wrote first second id payloads) (htasks : third.tasks = second.tasks)
    (hevents : third.taskEvents = second.taskEvents) : Wrote first third id payloads := by
  have hboth := hwrote.trans (of_eq htasks hevents id)
  rwa [List.append_nil] at hboth

/-- A write that follows changes of other tables. -/
theorem after_eq (hwrote : Wrote second third id payloads) (htasks : second.tasks = first.tasks)
    (hevents : second.taskEvents = first.taskEvents) : Wrote first third id payloads :=
  (of_eq htasks hevents id).trans hwrote

theorem saveTask (store : EventStore) (task : Task) (summary : String) :
    Wrote store (store.saveTask task summary) task.id [task] where
  row := loadTask_saveTask_self store task summary
  history := by
    change ((store.taskEvents ++ [_]).filter _).map _ = (store.taskEvents.filter _).map _ ++ [task]
    rw [List.filter_append, List.map_append]
    simp
  row_ne := fun other hother => loadTask_saveTask_ne store task summary hother
  history_ne := fun other hother => by
    change ((store.taskEvents ++ [_]).filter _).map _ = (store.taskEvents.filter _).map _
    rw [List.filter_append, List.map_append]
    simp [hother.symm]
  keyed := fun hkeyed => hkeyed.saveTask task summary

theorem saveTaskEvents (store : EventStore) {events : List (Task × String)}
    (hids : ∀ event ∈ events, event.1.id = id) :
    Wrote store (store.saveTaskEvents events) id (events.map Prod.fst) := by
  induction events generalizing store with
  | nil => exact refl store id
  | cons event events ih =>
      have hfirst := saveTask store event.1 event.2
      rw [hids event List.mem_cons_self] at hfirst
      exact hfirst.trans (ih _ fun later hlater => hids later (List.mem_cons_of_mem _ hlater))

theorem saveTaskWithCheckpoint {store next : EventStore} {task : Task} {summary : String}
    {checkpoint : TaskCheckpoint}
    (hok : store.saveTaskWithCheckpoint task summary checkpoint = .ok next) :
    Wrote store next task.id [task] := by
  simp only [EventStore.saveTaskWithCheckpoint, bind_eq_ok, ensure_eq_ok, pure_eq_ok] at hok
  rcases hok with ⟨-, -, -, -, -, -, rfl⟩
  exact (saveTask store task summary).then_eq rfl rfl

end Wrote

end EventStore

/-! ### Moves along the lifecycle -/

section Moves

/-- The state comes after the preparation approval. -/
def TaskState.isLate : TaskState → Bool
  | discovered | assessing | planned | awaitingPreparationApproval => false
  | _ => true

theorem TaskState.isLate_of_permits {state next : TaskState} (hpermits : state.permits next)
    (hlate : state.isLate) : next.isLate := by
  unfold TaskState.permits at hpermits
  split at hpermits <;> simp_all [isLate]

/-- Each payload is one transition away from the one before it. -/
def Moves (row : Task) (payloads : List Task) : Prop :=
  (row :: payloads).IsChain fun earlier later => earlier.state.permits later.state

theorem Moves.isLate {row : Task} {payloads : List Task} (hmoves : Moves row payloads)
    (hlate : row.state.isLate) : ∀ task ∈ payloads, task.state.isLate := by
  induction payloads generalizing row with
  | nil => exact fun task htask => absurd htask List.not_mem_nil
  | cons payload payloads ih =>
      rw [Moves, List.isChain_cons_cons] at hmoves
      have hnext := TaskState.isLate_of_permits hmoves.1 hlate
      intro task htask
      rcases List.mem_cons.mp htask with rfl | htail
      · exact hnext
      · exact ih hmoves.2 hnext task htail

theorem moves_singleton {row task : Task} (hpermits : row.state.permits task.state) :
    Moves row [task] := List.isChain_pair.mpr hpermits

/-- Moves depend on the state of the row only. -/
theorem Moves.of_state_eq {row other : Task} {payloads : List Task} (hmoves : Moves row payloads)
    (hstate : other.state = row.state) : Moves other payloads := by
  cases payloads with
  | nil => exact List.isChain_singleton other
  | cons payload payloads =>
      rw [Moves, List.isChain_cons_cons] at hmoves ⊢
      rwa [hstate]

/-- What a walk along a list of edges writes. -/
theorem advance_eq_ok {now : DateTime} {task : Task} {edges : List (TaskState × String)}
    {events : List (Task × String)} (hok : advance now task edges = .ok events) :
    Moves task (events.map Prod.fst) ∧ (∀ event ∈ events, event.1.id = task.id) ∧
      (events.map fun event => event.1.state) = edges.map Prod.fst := by
  induction edges generalizing task events with
  | nil =>
      rw [advance, Except.ok.injEq] at hok
      subst hok
      exact ⟨List.isChain_singleton task, fun event hevent => absurd hevent List.not_mem_nil, rfl⟩
  | cons edge edges ih =>
      simp only [advance, bind_eq_ok, Task.transition_eq_ok, pure_eq_ok] at hok
      rcases hok with ⟨_, ⟨hpermits, rfl⟩, later, hlater, rfl⟩
      rcases ih hlater with ⟨hmoves, hids, hstates⟩
      refine ⟨?_, ?_, ?_⟩
      · rw [List.map_cons, Moves, List.isChain_cons_cons]
        exact ⟨hpermits, hmoves⟩
      · intro event hevent
        rcases List.mem_cons.mp hevent with rfl | htail
        · rfl
        · exact hids event htail
      · rw [List.map_cons, List.map_cons, hstates]

end Moves

/-! ### What each hold writes -/

section Holds

/-- A hold writes nothing, or moves one task along the lifecycle from a row
whose state meets a guard. -/
def MovesTask (store next : EventStore) (id : TaskId) (guard : TaskState → Prop) : Prop :=
  ∃ payloads, EventStore.Wrote store next id payloads ∧
    (payloads = [] ∨ ∃ row, store.loadTask id = some row ∧ guard row.state ∧ Moves row payloads)

variable {ambient : Ambient} {store next : EventStore} {id : TaskId} {task : Task}
variable {guard : TaskState → Prop}

theorem MovesTask.of_eq (htasks : next.tasks = store.tasks)
    (hevents : next.taskEvents = store.taskEvents) : MovesTask store next id guard :=
  ⟨[], .of_eq htasks hevents id, .inl rfl⟩

theorem MovesTask.refl : MovesTask store store id guard := .of_eq rfl rfl

theorem MovesTask.of_wrote {payloads : List Task}
    (hwrote : EventStore.Wrote store next id payloads) (hrow : store.loadTask id = some task)
    (hguard : guard task.state) (hmoves : Moves task payloads) : MovesTask store next id guard :=
  ⟨payloads, hwrote, .inr ⟨task, hrow, hguard, hmoves⟩⟩

theorem MovesTask.mono {weaker : TaskState → Prop} (hmoves : MovesTask store next id guard)
    (hweaker : ∀ state, guard state → weaker state) : MovesTask store next id weaker := by
  rcases hmoves with ⟨payloads, hwrote, hnone | ⟨row, hrow, hguard, hpayloads⟩⟩
  · exact ⟨payloads, hwrote, .inl hnone⟩
  · exact ⟨payloads, hwrote, .inr ⟨row, hrow, hweaker _ hguard, hpayloads⟩⟩

/-- Moves that are followed by changes of other tables. -/
theorem MovesTask.then_eq {last : EventStore} (hmoves : MovesTask store next id guard)
    (htasks : last.tasks = next.tasks) (hevents : last.taskEvents = next.taskEvents) :
    MovesTask store last id guard := by
  rcases hmoves with ⟨payloads, hwrote, hpayloads⟩
  exact ⟨payloads, hwrote.then_eq htasks hevents, hpayloads⟩

/-- Moves that follow changes of other tables. -/
theorem MovesTask.after_eq {first : EventStore} (hmoves : MovesTask store next id guard)
    (htasks : store.tasks = first.tasks) (hevents : store.taskEvents = first.taskEvents) :
    MovesTask first next id guard := by
  rcases hmoves with ⟨payloads, hwrote, hpayloads⟩
  refine ⟨payloads, hwrote.after_eq htasks hevents, ?_⟩
  rwa [EventStore.loadTask, htasks] at hpayloads

theorem planFinish_moves {contract : TaskContract}
    (hok : planFinish ambient store task contract = .ok next) :
    MovesTask store next task.id (· = .discovered) := by
  simp only [planFinish, bind_eq_ok, okOr_eq_ok, ensure_eq_ok, mapError_eq_ok, pure_eq_ok] at hok
  rcases hok with ⟨fresh, hrow, -, rfl, events, hevents, rfl⟩
  rcases advance_eq_ok hevents with ⟨hmoves, hids, hstates⟩
  have hwrote := EventStore.Wrote.saveTaskEvents (store.saveTaskContract contract) hids
  refine .of_wrote (hwrote.after_eq rfl rfl) hrow ?_ (hmoves.of_state_eq rfl)
  cases events with
  | nil => cases hstates
  | cons event events =>
      rw [List.map_cons, Moves, List.isChain_cons_cons] at hmoves
      rw [List.map_cons, planEdges, List.map_cons, List.cons.injEq] at hstates
      have hpermits := hmoves.1
      rw [hstates.1] at hpermits
      generalize fresh.state = state at hpermits
      cases state <;> first | rfl | exact absurd hpermits (by decide)

theorem prepareSave_wrote {worktreePath : String} {checkpointId : Uuid}
    (hok : prepareSave ambient store task worktreePath checkpointId = .ok next) :
    ∃ saved, EventStore.Wrote store next task.id [saved] ∧ task.state.permits saved.state := by
  simp only [prepareSave, bind_eq_ok, mapError_eq_ok, Task.transition_eq_ok] at hok
  rcases hok with ⟨_, ⟨hpermits, rfl⟩, checkpoint, -, hsaved⟩
  have hwrote := EventStore.Wrote.saveTaskWithCheckpoint hsaved
  exact ⟨_, hwrote, hpermits⟩

theorem verifyBegin_moves (hkeyed : store.TasksKeyed) :
    MovesTask store (verifyBegin ambient store id).1 id
      fun state => state = .preparing ∨ state = .implementing := by
  unfold verifyBegin
  cases hrow : store.loadTask id with
  | none => exact .refl
  | some row =>
      dsimp only
      split
      · exact .refl
      · cases hevents : advance ambient.now row (submitEdges row.state) with
        | error error => exact .refl
        | ok events =>
            rcases advance_eq_ok hevents with ⟨hmoves, hids, hstates⟩
            rw [hkeyed.id_eq hrow] at hids
            refine ⟨_, EventStore.Wrote.saveTaskEvents store hids, ?_⟩
            by_cases hguard : row.state = .preparing ∨ row.state = .implementing
            · exact .inr ⟨row, hrow, hguard, hmoves⟩
            · left
              have hnone : submitEdges row.state = [] := by
                unfold submitEdges
                split
                · next hstate => exact absurd (.inl hstate) hguard
                · next hstate => exact absurd (.inr hstate) hguard
                · rfl
              rw [hnone, List.map_nil, List.map_eq_nil_iff] at hstates
              rw [hstates, List.map_nil]

theorem verifyFinish_moves {checkpointId : Uuid}
    (hok : verifyFinish ambient store task checkpointId = .ok next) :
    MovesTask store next task.id (· = .verifying) := by
  simp only [verifyFinish, bind_eq_ok, ensure_eq_ok, mapError_eq_ok, Task.transition_eq_ok] at hok
  rcases hok with ⟨-, hrow, _, ⟨hreviewing, rfl⟩, _, ⟨hready, rfl⟩, checkpoint, -, hsaved⟩
  have hfirst := EventStore.Wrote.saveTask store
    { task with state := .reviewing, updatedAt := ambient.now }
    "Contract verification commands passed at the captured commit"
  have hsecond := EventStore.Wrote.saveTaskWithCheckpoint hsaved
  refine .of_wrote (hfirst.trans hsecond) hrow ?_ ?_
  · generalize task.state = state at hreviewing
    cases state <;> first | rfl | exact absurd hreviewing (by decide)
  · exact List.isChain_cons_cons.mpr ⟨hreviewing, List.isChain_pair.mpr hready⟩

theorem startLoad_wrote (hkeyed : store.TasksKeyed) :
    ∃ payloads, EventStore.Wrote store (startLoad ambient store id).1 id payloads ∧
      (payloads = [] ∨ ∃ row resumed, store.loadTask id = some row ∧
        row.resume ambient.now = .ok resumed ∧ payloads = [resumed]) := by
  unfold startLoad
  cases hrow : store.loadTask id with
  | none => exact ⟨[], .refl store id, .inl rfl⟩
  | some row =>
      dsimp only
      unfold resumePaused
      split
      · exact ⟨[], .refl store id, .inl rfl⟩
      · next saved task hsaved =>
          split at hsaved
          · simp only [bind_eq_ok, mapError_eq_ok, pure_eq_ok, Prod.mk.injEq] at hsaved
            rcases hsaved with ⟨resumed, hresumed, rfl, rfl⟩
            have hid : resumed.id = id := by
              rw [← hkeyed.id_eq hrow]
              rcases Task.resume_eq_ok.1 hresumed with ⟨-, -, -, rfl⟩
              rfl
            have hwrote := EventStore.Wrote.saveTask store resumed "Codex task resumed"
            rw [hid] at hwrote
            exact ⟨[resumed], hwrote, .inr ⟨row, resumed, rfl, hresumed, rfl⟩⟩
          · rw [Except.ok.injEq, Prod.mk.injEq] at hsaved
            rcases hsaved with ⟨rfl, rfl⟩
            exact ⟨[], .refl store id, .inl rfl⟩

theorem startEnter_moves {session : CodexSessionRecord} {checkpointId : Uuid}
    (hok : startEnter ambient store task session checkpointId = .ok next) :
    MovesTask store next task.id (· = .preparing) := by
  unfold startEnter at hok
  split at hok
  · simp only [EventStore.enterImplementingWithCodex, bind_eq_ok, mapError_eq_ok, okOr_eq_ok,
      ensure_eq_ok, pure_eq_ok, Task.transition_eq_ok] at hok
    rcases hok with ⟨_, ⟨-, rfl⟩, checkpoint, -, -, -, -, -, -, -, -, -, -, -, -, -, row, hrow, -,
      hstate, _, -, -, -, rfl⟩
    have hwrote := EventStore.Wrote.saveTask store
      { task with state := .implementing, updatedAt := ambient.now } checkpoint.summary
    refine .of_wrote (hwrote.then_eq rfl rfl) hrow hstate (moves_singleton ?_)
    rw [hstate]
    rfl
  · cases hok
    exact .refl

theorem completeTurn_moves {checkpointId : Uuid} (hkeyed : store.TasksKeyed)
    (hok : completeTurn ambient store id checkpointId = .ok next) :
    MovesTask store next id (· = .implementing) := by
  simp only [completeTurn, bind_eq_ok, okOr_eq_ok] at hok
  rcases hok with ⟨row, hrow, hok⟩
  split at hok
  · next hstate =>
      simp only [bind_eq_ok, mapError_eq_ok, Task.transition_eq_ok] at hok
      rcases hok with ⟨_, ⟨hpermits, rfl⟩, checkpoint, -, hsaved⟩
      have hwrote := EventStore.Wrote.saveTaskWithCheckpoint hsaved
      rw [← hkeyed.id_eq hrow]
      exact .of_wrote hwrote ((hkeyed.id_eq hrow).symm ▸ hrow) hstate (moves_singleton hpermits)
  · rw [pure_eq_ok] at hok
    subst hok
    exact .refl

theorem saveInterrupted_wrote {copy : Task} {summary : String} {checkpointId : Uuid}
    (hok : saveInterrupted ambient store copy summary checkpointId = .ok next) :
    EventStore.Wrote store next copy.id [copy] := by
  simp only [saveInterrupted, bind_eq_ok, mapError_eq_ok] at hok
  rcases hok with ⟨checkpoint, -, hsaved⟩
  exact EventStore.Wrote.saveTaskWithCheckpoint hsaved

theorem passMonitoring_moves {monitor : MonitorRecord} (hkeyed : store.TasksKeyed)
    (hok : passMonitoring ambient store monitor = .ok next) :
    MovesTask store next monitor.taskId (· = .monitoring) := by
  simp only [passMonitoring, EventStore.saveMonitorWithTaskEvent, bind_eq_ok, okOr_eq_ok,
    ensure_eq_ok, mapError_eq_ok, pure_eq_ok, Task.transition_eq_ok] at hok
  rcases hok with ⟨row, hrow, -, hstate, _, ⟨hpermits, rfl⟩, -, -, rfl⟩
  have hwrote := EventStore.Wrote.saveTask (store.saveMonitor monitor)
    { row with state := .awaitingMergeApproval, updatedAt := ambient.now }
    "GitHub evidence satisfied monitoring; merge approval is required"
  rw [← hkeyed.id_eq hrow]
  exact .of_wrote (hwrote.after_eq rfl rfl) ((hkeyed.id_eq hrow).symm ▸ hrow) hstate
    (moves_singleton hpermits)

theorem monitorObserve_moves {monitorId : Uuid} (hkeyed : store.TasksKeyed) :
    ∃ id, MovesTask store (monitorObserve ambient store monitorId).1 id (· = .monitoring) := by
  unfold monitorObserve
  split
  · exact ⟨⟨⟨0⟩⟩, .refl⟩
  · next monitor outcome _ =>
      refine ⟨monitor.taskId, ?_⟩
      dsimp only
      generalize hkept : (if outcome.invalidateApprovals = true then
        store.invalidateTaskApprovals monitor.taskId ambient.now else store) = kept
      have htasks : kept.tasks = store.tasks := by
        rw [← hkept]
        split <;> rfl
      have hevents : kept.taskEvents = store.taskEvents := by
        rw [← hkept]
        split <;> rfl
      have hkeyed' : kept.TasksKeyed :=
        (EventStore.Wrote.of_eq htasks hevents monitor.taskId).keyed hkeyed
      split
      · split
        · exact .of_eq htasks hevents
        · next hpassed => exact (passMonitoring_moves hkeyed' hpassed).after_eq htasks hevents
      · exact .of_eq htasks hevents

end Holds

end Patchwright
