import Patchwright.Library.Runs
import Patchwright.Codex.Service

/-!
# One interruption and its exits

An interruption takes the process of a task out of the table, asks the process
to stop, ends it, and then settles task and job in holds of their own.  Every
one of these steps can fail, and each failure is an exit.  The steps are those
of the Codex service; here each of them also tells whether what it asked for has
happened, and the rest of the engine may change the store in between, though
never the row of the job.
-/

namespace Patchwright

open Checked Runs

/-- A request to pause or to cancel a task, with the process it finds. -/
structure InterruptRequest where
  taskId : TaskId
  cancel : Bool
  entry : ActiveCodex

def InterruptRequest.jobId (request : InterruptRequest) : JobId := request.entry.executionJobId

inductive InterruptPlace where
  | called
  | requested
  | ended (completed : Bool)
  | loaded (call : CodexCall)
  | saved
  | settled
  deriving DecidableEq

structure Interruption where
  store : EventStore
  active : Table TaskId ActiveCodex
  place : InterruptPlace

/-- The steps of an interruption.  A write, a read and the end of the process
each tell whether they succeed. -/
inductive InterruptEvent where
  | begin (ambient : Ambient) (written : Bool)
  | terminate (ended completed : Bool)
  | load (ambient : Ambient) (read : Bool)
  | save (ambient : Ambient) (checkpointId : Uuid) (written : Bool)
  | settle (ambient : Ambient)
  | elsewhere (store : EventStore)

section Step

variable (request : InterruptRequest)

/-- One step of an interruption.  Its last write succeeds. -/
def interruptStep (state : Interruption) : InterruptEvent → Option Interruption
  | .begin ambient written =>
      if state.place = .called ∧ state.active.lookup request.taskId = some request.entry then
        let taken := { state with active := state.active.erase request.taskId }
        match interruptBegin ambient state.store request.jobId request.cancel, written with
        | .ok store, true => some { taken with store, place := .requested }
        | _, _ => some { taken with place := .settled }
      else none
  | .terminate ended completed =>
      if state.place = .requested then
        some { state with place := if ended then .ended completed else .settled }
      else none
  | .load ambient read =>
      match state.place with
      | .ended completed =>
          match interruptLoad ambient state.store request.taskId request.cancel completed
            request.jobId, read with
          | .ok call, true => some { state with place := .loaded call }
          | _, _ => some { state with place := .settled }
      | _ => none
  | .save ambient checkpointId written =>
      match state.place with
      | .loaded (.stopped copy cancel _) =>
          match saveInterrupted ambient state.store copy (stopSummary cancel) checkpointId,
            written with
          | .ok store, true => some { state with store, place := .saved }
          | _, _ => some { state with place := .settled }
      | _ => none
  | .settle ambient =>
      match state.place with
      | .saved => some { state with
          store := interruptEnd ambient state.store request.jobId .cancelled
            (stopSummary request.cancel)
          place := .settled }
      | .loaded (.turnFinished _) => some { state with
          store := interruptEnd ambient state.store request.jobId .succeeded
            "Codex turn completed during cancellation"
          place := .settled }
      | _ => none
  | .elsewhere store =>
      if store.job request.jobId = state.store.job request.jobId then some { state with store }
      else none

end Step

/-! ### The row of the job -/

/-- The job is stored in this state. -/
def EventStore.JobIn (store : EventStore) (id : JobId) (state : JobState) : Prop :=
  ∃ job, store.job id = some job ∧ job.state = state

section Row

variable {ambient : Ambient} {store next : EventStore} {id : JobId} {state : JobState}
variable {cancel : Bool}

theorem EventStore.JobIn.congr (hin : store.JobIn id state) (hjob : next.job id = store.job id) :
    next.JobIn id state := by
  rcases hin with ⟨job, hfound, hstate⟩
  exact ⟨job, hjob.trans hfound, hstate⟩

theorem EventStore.jobTerminated_congr (hjob : next.job id = store.job id) :
    next.JobTerminated id ↔ store.JobTerminated id := by
  rw [EventStore.JobTerminated, hjob]
  rfl

theorem EventStore.JobIn.terminated_iff (hin : store.JobIn id state) :
    store.JobTerminated id ↔ state.isTerminal := by
  rcases hin with ⟨job, hjob, rfl⟩
  constructor
  · rintro ⟨again, hagain, hterminal⟩
    rw [hjob, Option.some.injEq] at hagain
    rwa [hagain]
  · exact fun hterminal => ⟨job, hjob, hterminal⟩

theorem interruptBegin_of_running (ambient : Ambient) (cancel : Bool)
    (hin : store.JobIn id .running) :
    ∃ next, interruptBegin ambient store id cancel = .ok next ∧ next.JobIn id .cancelling := by
  rcases hin with ⟨job, hjob, hstate⟩
  have hsummary : ∀ cancel : Bool, validateSummary (if cancel then
      "Codex task cancellation requested" else "Codex task pause requested") =
        .ok (if cancel then "Codex task cancellation requested"
          else "Codex task pause requested") := by
    decide
  have hpermits : JobState.running.permits .cancelling := rfl
  rcases EventStore.transitionJob_of_eq .requested none ambient.now hpermits (hsummary cancel) hjob
    hstate with
    ⟨moved, hmoved, hrow⟩
  refine ⟨moved, ?_, _, hrow, rfl⟩
  simp only [interruptBegin, bind_eq_ok, ensure_eq_ok, pure_eq_ok]
  exact ⟨_, hmoved, (), rfl, rfl⟩

/-- The first write of an interruption expects a running job. -/
theorem interruptBegin_running (hok : interruptBegin ambient store id cancel = .ok next) :
    store.JobIn id .running := by
  simp only [interruptBegin, bind_eq_ok, ensure_eq_ok, pure_eq_ok] at hok
  rcases hok with ⟨⟨moved, hit⟩, hmoved, -, rfl, -⟩
  simp only [EventStore.transitionJob, bind_eq_ok, ensure_eq_ok] at hmoved
  rcases hmoved with ⟨-, -, text, -, hmoved⟩
  split at hmoved
  · simp [pure_eq_ok] at hmoved
  · next job hjob =>
      split at hmoved
      · simp [pure_eq_ok] at hmoved
      · next hstate => exact ⟨job, hjob, not_not.mp hstate⟩

theorem interruptEnd_of_cancelling {summary : String} (state : JobState)
    (hin : store.JobIn id .cancelling) (hpermits : JobState.cancelling.permits state) {text : String}
    (hsummary : validateSummary summary = .ok text) :
    (interruptEnd ambient store id state summary).JobIn id state := by
  rcases hin with ⟨job, hjob, hstate⟩
  rcases EventStore.transitionJob_of_eq .acknowledged none ambient.now hpermits hsummary hjob
    hstate with ⟨moved, hmoved, hrow⟩
  rw [interruptEnd, hmoved]
  exact ⟨_, hrow, rfl⟩

theorem stopSummary_valid (cancel : Bool) :
    validateSummary (stopSummary cancel) = .ok (stopSummary cancel) := by
  revert cancel
  decide

/-- Storing an interrupted copy succeeds and leaves the jobs alone. -/
theorem saveInterrupted_ok (ambient : Ambient) (store : EventStore) (id : JobId) (cancel : Bool)
    (copy : Task) (checkpointId : Uuid) :
    ∃ next, saveInterrupted ambient store copy (stopSummary cancel) checkpointId = .ok next ∧
      next.job id = store.job id := by
  have hcheckpoint : TaskCheckpoint.new checkpointId ambient.now copy.id copy.state
      (stopSummary cancel) =
        .ok ⟨checkpointId, copy.id, copy.state, stopSummary cancel, ambient.now⟩ := by
    rw [TaskCheckpoint.new, stopSummary_valid]
    rfl
  refine ⟨{ store.saveTask copy (stopSummary cancel) with
    taskCheckpoints := store.taskCheckpoints ++
      [⟨checkpointId, copy.id, copy.state, stopSummary cancel, ambient.now⟩] }, ?_, rfl⟩
  simp only [saveInterrupted, EventStore.saveTaskWithCheckpoint, bind_eq_ok, mapError_eq_ok,
    ensure_eq_ok, pure_eq_ok]
  exact ⟨_, hcheckpoint, (), rfl, (), rfl, _, stopSummary_valid cancel, rfl⟩

/-- What an interruption finds when it loads its task. -/
theorem interruptLoad_eq_ok {taskId : TaskId} {completed : Bool} {call : CodexCall}
    (hok : interruptLoad ambient store taskId cancel completed id = .ok call) :
    (∃ task, store.loadTask taskId = some task ∧ (completed ∨ task.state.isInterruptible)) ∧
      (call = .turnFinished id ∨ ∃ copy, call = .stopped copy cancel id) := by
  simp only [interruptLoad, bind_eq_ok, okOr_eq_ok] at hok
  rcases hok with ⟨task, hrow, hok⟩
  split at hok
  · next hcompleted =>
      rw [pure_eq_ok] at hok
      exact ⟨⟨task, hrow, .inl hcompleted⟩, .inl hok.symm⟩
  · simp only [bind_eq_ok, mapError_eq_ok, Task.interrupt_eq_ok, pure_eq_ok] at hok
    rcases hok with ⟨copy, ⟨-, hinterruptible, -, -⟩, rfl⟩
    exact ⟨⟨task, hrow, .inr hinterruptible⟩, .inr ⟨copy, rfl⟩⟩

theorem stopReason_valid (cancel : Bool) : trim (stopReason cancel) ≠ "" := by
  revert cancel
  decide

theorem interruptLoad_of_interruptible (ambient : Ambient) (cancel : Bool) (id : JobId)
    {taskId : TaskId} {completed : Bool} {task : Task}
    (hrow : store.loadTask taskId = some task)
    (hstate : completed ∨ task.state.isInterruptible) :
    ∃ call, interruptLoad ambient store taskId cancel completed id = .ok call := by
  cases completed with
  | true =>
      refine ⟨.turnFinished id, ?_⟩
      simp only [interruptLoad, bind_eq_ok, okOr_eq_ok]
      exact ⟨task, hrow, rfl⟩
  | false =>
      have hstop : (stopState cancel).isInterruption := by
        cases cancel <;> rfl
      refine ⟨.stopped { task with
        state := stopState cancel
        interruption := some {
          state := stopState cancel, resumeState := task.state, reason := trim (stopReason cancel) }
        updatedAt := ambient.now } cancel id, ?_⟩
      simp only [interruptLoad, bind_eq_ok, okOr_eq_ok]
      refine ⟨task, hrow, ?_⟩
      simp only [Bool.false_eq_true, if_false, bind_eq_ok, mapError_eq_ok, Task.interrupt_eq_ok,
        pure_eq_ok]
      exact ⟨_, ⟨hstop, hstate.resolve_left (by rintro ⟨⟩), stopReason_valid cancel, rfl⟩, rfl⟩

end Row

/-! ### Clear ways and stranded jobs -/

namespace Interruption

/-- The job has ended, or it is running and a later request finds its process. -/
def Settled (request : InterruptRequest) (state : Interruption) : Prop :=
  state.store.JobTerminated request.jobId ∨
    (state.store.JobIn request.jobId .running ∧
      state.active.lookup request.taskId = some request.entry)

/-- The job is running when the interruption begins and its write succeeds, or
the job had ended before; the process can be ended; the task can be read, is
there, and may be interrupted unless the turn has completed; and the interrupted
task can be written. -/
def Clear (request : InterruptRequest) (state : Interruption) : InterruptEvent → Prop
  | .begin _ written => state.store.JobTerminated request.jobId ∨
      (state.store.JobIn request.jobId .running ∧ written)
  | .terminate ended _ => ended
  | .load _ read => read ∧ ∃ task, state.store.loadTask request.taskId = some task ∧
      (state.place = .ended true ∨ task.state.isInterruptible)
  | .save _ _ written => written
  | .settle _ | .elsewhere _ => True

/-- How an interruption stands that has met no obstacle. -/
def OnCourse (request : InterruptRequest) (state : Interruption) : Prop :=
  match state.place with
  | .called => True
  | .settled => state.store.JobTerminated request.jobId
  | _ => state.store.JobIn request.jobId .cancelling ∧ state.active.lookup request.taskId = none

/-- The interruption is over, the process is out of reach and the job goes on. -/
def Stranded (request : InterruptRequest) (state : Interruption) : Prop :=
  state.place = .settled ∧ state.active.lookup request.taskId = none ∧
    ¬ state.store.JobTerminated request.jobId

end Interruption

/-! ### Every exit -/

section Exits

variable {request : InterruptRequest} {state next : Interruption}

/-- An interruption begins on a running job, or is over at once. -/
theorem begin_eq_some {ambient : Ambient} {written : Bool}
    (hstep : interruptStep request state (.begin ambient written) = some next) :
    next.active = state.active.erase request.taskId ∧
      ((state.store.JobIn request.jobId .running ∧ written ∧ next.place = .requested ∧
          next.store.JobIn request.jobId .cancelling) ∨
        (¬ (state.store.JobIn request.jobId .running ∧ written) ∧ next.place = .settled ∧
          next.store = state.store)) := by
  simp only [interruptStep] at hstep
  split at hstep
  · split at hstep
    · next store hbegin =>
        cases hstep
        have hrunning := interruptBegin_running hbegin
        rcases interruptBegin_of_running ambient request.cancel hrunning
          with ⟨begun, hbegun, hcancelling⟩
        cases hbegun.symm.trans hbegin
        exact ⟨rfl, .inl ⟨hrunning, rfl, rfl, hcancelling⟩⟩
    · next hmiss =>
        cases hstep
        refine ⟨rfl, .inr ⟨?_, rfl, rfl⟩⟩
        rintro ⟨hrunning, rfl⟩
        rcases interruptBegin_of_running ambient request.cancel hrunning
          with ⟨begun, hbegun, -⟩
        exact hmiss begun hbegun rfl
  · cases hstep

/-- A task that is there and may be interrupted is loaded; any other one ends the
interruption. -/
theorem load_eq_some {ambient : Ambient} {read : Bool}
    (hstep : interruptStep request state (.load ambient read) = some next) :
    ∃ completed, state.place = .ended completed ∧ next.store = state.store ∧
      next.active = state.active ∧
      ((state.Clear request (.load ambient read) ∧ ∃ call, next.place = .loaded call) ∨
        (¬ state.Clear request (.load ambient read) ∧ next.place = .settled)) := by
  simp only [interruptStep] at hstep
  split at hstep
  · next completed hplace =>
      split at hstep
      · next call hload =>
          cases hstep
          rcases (interruptLoad_eq_ok hload).1 with ⟨task, hrow, hstate⟩
          refine ⟨completed, hplace, rfl, rfl, .inl ⟨⟨rfl, task, hrow, ?_⟩, call, rfl⟩⟩
          rcases hstate with rfl | hstate
          · exact .inl hplace
          · exact .inr hstate
      · next hmiss =>
          cases hstep
          refine ⟨completed, hplace, rfl, rfl, .inr ⟨?_, rfl⟩⟩
          rintro ⟨rfl, task, hrow, hstate⟩
          rw [hplace, InterruptPlace.ended.injEq] at hstate
          rcases interruptLoad_of_interruptible ambient request.cancel request.jobId hrow hstate with ⟨call, hcall⟩
          exact hmiss call hcall rfl
  · cases hstep

theorem save_eq_some {ambient : Ambient} {checkpointId : Uuid} {written : Bool}
    (hstep : interruptStep request state (.save ambient checkpointId written) = some next) :
    (∃ call, state.place = .loaded call) ∧ next.active = state.active ∧
      next.store.job request.jobId = state.store.job request.jobId ∧
      ((written = true ∧ next.place = .saved) ∨ (written = false ∧ next.place = .settled)) := by
  simp only [interruptStep] at hstep
  split at hstep
  · next copy cancel jobId hplace =>
      rcases saveInterrupted_ok ambient state.store request.jobId cancel copy checkpointId with ⟨saved, hsaved, hjob⟩
      rw [hsaved] at hstep
      cases written with
      | true =>
          cases hstep
          exact ⟨⟨_, hplace⟩, rfl, hjob, .inl ⟨rfl, rfl⟩⟩
      | false =>
          cases hstep
          exact ⟨⟨_, hplace⟩, rfl, rfl, .inr ⟨rfl, rfl⟩⟩
  · cases hstep

/-- The last step ends a job that is being cancelled. -/
theorem settle_eq_some {ambient : Ambient}
    (hstep : interruptStep request state (.settle ambient) = some next) :
    state.place ≠ .called ∧ state.place ≠ .settled ∧ next.place = .settled ∧
      next.active = state.active ∧
      (state.store.JobIn request.jobId .cancelling → next.store.JobTerminated request.jobId) := by
  simp only [interruptStep] at hstep
  split at hstep
  · next hplace =>
      cases hstep
      refine ⟨hplace ▸ nofun, hplace ▸ nofun, rfl, rfl, fun hcancelling => ?_⟩
      exact (interruptEnd_of_cancelling .cancelled hcancelling rfl
        (stopSummary_valid request.cancel)).terminated_iff.mpr rfl
  · next hplace =>
      cases hstep
      refine ⟨hplace ▸ nofun, hplace ▸ nofun, rfl, rfl, fun hcancelling => ?_⟩
      have hsummary : validateSummary "Codex turn completed during cancellation" =
          .ok "Codex turn completed during cancellation" := by
        decide
      exact (interruptEnd_of_cancelling .succeeded hcancelling rfl
        hsummary).terminated_iff.mpr rfl
  · cases hstep

/-- A step that the way is clear for keeps the interruption on course. -/
theorem interruptStep_onCourse {event : InterruptEvent} (hclear : state.Clear request event)
    (hcourse : state.OnCourse request) (hstep : interruptStep request state event = some next) :
    next.OnCourse request := by
  unfold Interruption.OnCourse at hcourse ⊢
  cases event with
  | begin ambient written =>
      rcases begin_eq_some hstep with
        ⟨hactive, ⟨-, -, hplace, hcancelling⟩ | ⟨hrefused, hplace, hstore⟩⟩
      · rw [hplace, hactive]
        exact ⟨hcancelling, AList.lookup_erase _ _⟩
      · rw [hplace, hstore]
        exact hclear.resolve_right hrefused
  | terminate ended completed =>
      simp only [interruptStep] at hstep
      split at hstep
      · next hplace =>
          cases hstep
          rw [hplace] at hcourse
          obtain rfl : ended = true := hclear
          exact hcourse
      · cases hstep
  | load ambient read =>
      rcases load_eq_some hstep with
        ⟨completed, hplace, hstore, hactive, ⟨-, call, hnext⟩ | ⟨hblocked, -⟩⟩
      · rw [hplace] at hcourse
        rw [hnext, hstore, hactive]
        exact hcourse
      · exact absurd hclear hblocked
  | save ambient checkpointId written =>
      rcases save_eq_some hstep with ⟨⟨call, hplace⟩, hactive, hjob, ⟨-, hnext⟩ | ⟨hfailed, -⟩⟩
      · rw [hplace] at hcourse
        rw [hnext, hactive]
        exact ⟨hcourse.1.congr hjob, hcourse.2⟩
      · exact absurd hclear (Bool.eq_false_iff.mp hfailed)
  | settle ambient =>
      rcases settle_eq_some hstep with ⟨hcalled, hover, hnext, -, hends⟩
      rw [hnext]
      generalize state.place = place at hcourse hcalled hover
      cases place with
      | called => exact absurd rfl hcalled
      | settled => exact absurd rfl hover
      | _ => exact hends hcourse.1
  | elsewhere store =>
      simp only [interruptStep] at hstep
      split at hstep
      · next hjob =>
          cases hstep
          dsimp only
          generalize state.place = place at hcourse
          cases place with
          | called => trivial
          | settled => exact (EventStore.jobTerminated_congr hjob).mpr hcourse
          | _ => exact ⟨hcourse.1.congr hjob, hcourse.2⟩
      · cases hstep

/-- A step that meets an obstacle strands the job. -/
theorem interruptStep_obstructed {event : InterruptEvent} (hblocked : ¬ state.Clear request event)
    (hcourse : state.OnCourse request) (hstep : interruptStep request state event = some next) :
    next.Stranded request := by
  have hopen : state.store.JobIn request.jobId .cancelling →
      ¬ state.store.JobTerminated request.jobId := fun hcancelling hterminated =>
    absurd (hcancelling.terminated_iff.1 hterminated) (by decide)
  unfold Interruption.OnCourse at hcourse
  cases event with
  | begin ambient written =>
      rw [Interruption.Clear, not_or] at hblocked
      rcases begin_eq_some hstep with ⟨hactive, ⟨hrunning, hwritten, -⟩ | ⟨-, hplace, hstore⟩⟩
      · exact absurd ⟨hrunning, hwritten⟩ hblocked.2
      · refine ⟨hplace, ?_, hstore ▸ hblocked.1⟩
        rw [hactive]
        exact AList.lookup_erase _ _
  | terminate ended completed =>
      simp only [interruptStep] at hstep
      split at hstep
      · next hplace =>
          cases hstep
          rw [hplace] at hcourse
          obtain rfl : ended = false := Bool.eq_false_iff.mpr hblocked
          exact ⟨rfl, hcourse.2, hopen hcourse.1⟩
      · cases hstep
  | load ambient read =>
      rcases load_eq_some hstep with ⟨completed, hplace, hstore, hactive, ⟨hclear, -⟩ | ⟨-, hnext⟩⟩
      · exact absurd hclear hblocked
      · rw [hplace] at hcourse
        exact ⟨hnext, hactive ▸ hcourse.2, hstore ▸ hopen hcourse.1⟩
  | save ambient checkpointId written =>
      rcases save_eq_some hstep with ⟨⟨call, hplace⟩, hactive, hjob, ⟨hwritten, -⟩ | ⟨-, hnext⟩⟩
      · exact absurd hwritten hblocked
      · rw [hplace] at hcourse
        refine ⟨hnext, hactive ▸ hcourse.2, fun hterminated => ?_⟩
        exact hopen hcourse.1 ((EventStore.jobTerminated_congr hjob).mp hterminated)
  | _ => exact absurd trivial hblocked

/-- Nothing rescues a stranded job. -/
theorem interruptStep_stranded {event : InterruptEvent} (hstranded : state.Stranded request)
    (hstep : interruptStep request state event = some next) : next.Stranded request := by
  rcases hstranded with ⟨hover, hactive, hopen⟩
  cases event with
  | elsewhere store =>
      simp only [interruptStep] at hstep
      split at hstep
      · next hjob =>
          cases hstep
          refine ⟨hover, hactive, fun hterminated => ?_⟩
          exact hopen ((EventStore.jobTerminated_congr hjob).mp hterminated)
      · cases hstep
  | load ambient read =>
      rcases load_eq_some hstep with ⟨completed, hplace, -⟩
      exact absurd (hover.symm.trans hplace) nofun
  | save ambient checkpointId written =>
      rcases save_eq_some hstep with ⟨⟨call, hplace⟩, -⟩
      exact absurd (hover.symm.trans hplace) nofun
  | settle ambient => exact absurd hover (settle_eq_some hstep).2.1
  | begin ambient written =>
      simp only [interruptStep] at hstep
      rw [hover, if_neg fun hcalled => absurd hcalled.1 nofun] at hstep
      cases hstep
  | terminate ended completed =>
      simp only [interruptStep] at hstep
      rw [hover, if_neg nofun] at hstep
      cases hstep

/-- Whatever exit an interruption takes, it leaves the job ended, or running with
its process in reach, exactly when every step has had a clear way. -/
theorem interrupt_settles_iff {start final : Interruption} {events : List InterruptEvent}
    (hcalled : start.place = .called)
    (hrun : run (interruptStep request) start events = some final) (hover : final.place = .settled) :
    final.Settled request ↔
      EveryStep (interruptStep request) (Interruption.Clear request) start events := by
  have hcourse : start.OnCourse request := by
    rw [Interruption.OnCourse, hcalled]
    trivial
  have hdichotomy := everyStep_dichotomy (Interruption.Clear request)
    (Interruption.OnCourse request) (Interruption.Stranded request)
    (fun _ _ _ => interruptStep_onCourse) (fun _ _ _ => interruptStep_obstructed)
    (fun _ _ _ => interruptStep_stranded) hrun hcourse
  rcases hdichotomy with ⟨hevery, hfinal⟩ | ⟨hmissed, -, hactive, hopen⟩
  · rw [Interruption.OnCourse, hover] at hfinal
    exact iff_of_true (.inl hfinal) hevery
  · refine iff_of_false ?_ hmissed
    rintro (hterminated | ⟨-, hfound⟩)
    · exact hopen hterminated
    · rw [hactive] at hfound
      exact absurd hfound nofun

end Exits

namespace Sample

def cancelRequest : InterruptRequest := ⟨taskId, true, ⟨session, none, executionJobId⟩⟩

def calledInterruption (state : TaskState) : Interruption :=
  ⟨runningStore state, runningService.active, .called⟩

/-- The process cannot be ended. -/
def survivedEvents : List InterruptEvent := [.begin ambient true, .terminate false false]

/-- The task is cancelled. -/
def cancelledEvents : List InterruptEvent :=
  [.begin ambient true, .terminate true false, .load ambient true, .save ambient ⟨18⟩ true,
    .settle ambient]

/-- The task has ended otherwise before it is loaded. -/
def refusedEvents : List InterruptEvent :=
  [.begin ambient true, .terminate true false, .load ambient true]

def interruptedEnd (state : TaskState) (events : List InterruptEvent) : Interruption :=
  (run (interruptStep cancelRequest) (calledInterruption state) events).getD
    (calledInterruption state)

/-- The interruption is over and leaves the job in this state. -/
def LeavesJob (state : TaskState) (events : List InterruptEvent) (job : JobState) : Prop :=
  (run (interruptStep cancelRequest) (calledInterruption state) events).isSome ∧
    (interruptedEnd state events).place = .settled ∧
    ((interruptedEnd state events).store.job executionJobId).map Job.state = some job

instance (state : TaskState) (events : List InterruptEvent) (job : JobState) :
    Decidable (LeavesJob state events job) :=
  inferInstanceAs (Decidable (_ ∧ _ ∧ _))

/-- The interruption is over, leaves the job in cancelling and so is not settled. -/
def StrandsJob (state : TaskState) (events : List InterruptEvent) : Prop :=
  run (interruptStep cancelRequest) (calledInterruption state) events =
      some (interruptedEnd state events) ∧
    (interruptedEnd state events).place = .settled ∧
    (interruptedEnd state events).store.JobIn executionJobId .cancelling ∧
    ¬ (interruptedEnd state events).Settled cancelRequest

theorem interrupt_samples :
    LeavesJob .implementing survivedEvents .cancelling ∧
      LeavesJob .completed refusedEvents .cancelling ∧
      LeavesJob .implementing cancelledEvents .cancelled := by
  decide

end Sample

open Sample

/-- A process that cannot be ended, and a task that may not be interrupted any
more: the job stays in cancelling, out of reach. -/
theorem interrupt_strands :
    StrandsJob .implementing survivedEvents ∧ StrandsJob .completed refusedEvents := by
  have hleft : ∀ state events, LeavesJob state events .cancelling → StrandsJob state events := by
    intro state events hleaves
    have hin : (interruptedEnd state events).store.JobIn executionJobId .cancelling :=
      Option.map_eq_some_iff.mp hleaves.2.2
    refine ⟨eq_some_getD hleaves.1 _, hleaves.2.1, hin, ?_⟩
    rintro (hterminated | ⟨⟨job, hjob, hrunning⟩, -⟩)
    · exact absurd (hin.terminated_iff.1 hterminated) (by decide)
    · rcases hin with ⟨again, hagain, hcancelling⟩
      cases hjob.symm.trans hagain
      exact absurd (hrunning.symm.trans hcancelling) (by decide)
  exact ⟨hleft _ _ interrupt_samples.1, hleft _ _ interrupt_samples.2.1⟩

/-- An interruption without obstacles. -/
theorem interrupt_cancels :
    (interruptedEnd .implementing cancelledEvents).Settled cancelRequest ∧
      EveryStep (interruptStep cancelRequest) (Interruption.Clear cancelRequest)
        (calledInterruption .implementing) cancelledEvents := by
  obtain ⟨hrun, hover, hcancelled⟩ := interrupt_samples.2.2
  have hin : (interruptedEnd .implementing cancelledEvents).store.JobIn executionJobId .cancelled :=
    Option.map_eq_some_iff.mp hcancelled
  have hsettled : (interruptedEnd .implementing cancelledEvents).Settled cancelRequest :=
    .inl (hin.terminated_iff.2 rfl)
  exact ⟨hsettled, (interrupt_settles_iff rfl (eq_some_getD hrun _) hover).mp hsettled⟩

end Patchwright
