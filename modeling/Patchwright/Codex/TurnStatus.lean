import Patchwright.Codex.Turns

/-!
# The status of a completed turn

The server reports the end of a turn in one message, whether the turn was
completed, interrupted or has failed.  The handler does not look at the status:
whatever ends the active turn submits the task, and during an interruption it
also decides which way the interruption takes.  This module says what holds as
long as only completed turns are reported.
-/

namespace Patchwright

open Checked Runs
open Protocol (ServerLine RequestId)

/-- The task is stored in this state. -/
def EventStore.TaskIn (store : EventStore) (id : TaskId) (state : TaskState) : Prop :=
  (store.loadTask id).map Task.state = some state

namespace Conversation

/-- A line that ends the active turn is a notification that the turn is completed. -/
def Truthful (state : Conversation) : ConversationEvent → Prop
  | .line _ _ read =>
      read.Completes state.connection.session.threadId state.connection.activeTurnId →
        ∃ turn ∈ read.completedTurn?, state.connection.session.threadId = some turn.1 ∧
          state.connection.activeTurnId = some turn.2
  | _ => True

/-- The turn that the interruption asked to end has been reported as completed. -/
def AskedCompleted (state : Conversation) : Prop := ∃ turn ∈ state.asked, turn ∈ state.completions

/-- The interruption has only its last write before it. -/
def Stopping (state : Conversation) : Prop :=
  (∃ jobId, state.place = .holding (.turnFinished jobId)) ∨
    ∃ cancel jobId, state.place = .holding (.stopSaved cancel jobId)

/-- What a step may do. -/
structure Honest (state : Conversation) (event : ConversationEvent) (next : Conversation) :
    Prop where
  /-- The service submits the task on a completed turn alone. -/
  submits : (∀ store, event ≠ .elsewhere store) →
    state.store.TaskIn state.taskId .implementing → next.store.TaskIn state.taskId .verifying →
    ∃ ambient draws read turn, event = .line ambient draws read ∧ turn ∈ read.completedTurn? ∧
      state.connection.session.threadId = some turn.1 ∧
      state.connection.activeTurnId = some turn.2
  /-- An interruption finds its turn completed only if it was reported so. -/
  branches : ∀ cancel, next.place = .ended cancel true → next.AskedCompleted
  /-- Without such a report it ends with the task and the job stopped. -/
  stops : ∀ ambient, event = .settle ambient → state.Stopping → ¬ state.AskedCompleted →
    next.store.JobIn state.connection.executionJobId .cancelled ∧
      ∃ cancel, ∃ copy ∈ next.store.timeline state.taskId, copy.state = stopState cancel ∧
        state.place = .holding (.stopSaved cancel state.connection.executionJobId)

/-- What holds of every place of an interruption. -/
def Sound (state : Conversation) : Prop :=
  match state.place with
  | .asked _ _ threadId turnId =>
      state.store.JobIn state.connection.executionJobId .cancelling ∧
        state.asked = some (threadId, turnId) ∧
        state.connection.session.threadId = some threadId ∧
        (state.connection.activeTurnId = some turnId ∨ state.AskedCompleted)
  | .ended _ completed =>
      state.store.JobIn state.connection.executionJobId .cancelling ∧
        (completed → state.AskedCompleted)
  | .holding (.turnFinished jobId) =>
      jobId = state.connection.executionJobId ∧
        state.store.JobIn state.connection.executionJobId .cancelling ∧ state.AskedCompleted
  | .holding (.stopped copy cancel jobId) =>
      jobId = state.connection.executionJobId ∧
        state.store.JobIn state.connection.executionJobId .cancelling ∧
        copy.state = stopState cancel ∧ copy.id = state.taskId
  | .holding (.stopSaved cancel jobId) =>
      jobId = state.connection.executionJobId ∧
        state.store.JobIn state.connection.executionJobId .cancelling ∧
        ∃ copy ∈ state.store.timeline state.taskId, copy.state = stopState cancel
  | .holding (.crashed copy _) => copy.state = .failed
  | _ => True

end Conversation

/-! ### What the holds of an interruption write -/

section Holds

variable {ambient : Ambient} {store next : EventStore} {id : JobId} {cancel : Bool}

theorem transitionJob_tasks {expected state : JobState} {cancellation : CancellationState}
    {summary : String} {checkpoint : Option JobCheckpoint} {now : DateTime} {moved : Bool}
    (hok : store.transitionJob id expected state cancellation summary checkpoint now =
      .ok (next, moved)) :
    next.tasks = store.tasks ∧ next.taskEvents = store.taskEvents := by
  simp only [EventStore.transitionJob, bind_eq_ok] at hok
  rcases hok with ⟨_, -, text, -, hok⟩
  split at hok
  · rw [pure_eq_ok, Prod.mk.injEq] at hok
    exact hok.1 ▸ ⟨rfl, rfl⟩
  · split at hok
    all_goals
      rw [pure_eq_ok, Prod.mk.injEq] at hok
      exact hok.1 ▸ ⟨rfl, rfl⟩

theorem interruptBegin_wrote (hok : interruptBegin ambient store id cancel = .ok next) :
    next.JobIn id .cancelling ∧ next.tasks = store.tasks ∧ next.taskEvents = store.taskEvents := by
  have hrunning := interruptBegin_running hok
  obtain ⟨again, hagain, hcancelling⟩ := interruptBegin_of_running ambient cancel hrunning
  cases hok.symm.trans hagain
  simp only [interruptBegin, bind_eq_ok, ensure_eq_ok, pure_eq_ok] at hok
  rcases hok with ⟨⟨moved, hit⟩, hmoved, _, -, rfl⟩
  exact ⟨hcancelling, transitionJob_tasks hmoved⟩

theorem interruptEnd_tasks (ambient : Ambient) (store : EventStore) (id : JobId) (state : JobState)
    (summary : String) :
    (interruptEnd ambient store id state summary).tasks = store.tasks ∧
      (interruptEnd ambient store id state summary).taskEvents = store.taskEvents := by
  unfold interruptEnd
  split
  · exact ⟨rfl, rfl⟩
  · next moved hit hmoved => exact transitionJob_tasks hmoved

theorem crashEnd_tasks (ambient : Ambient) (store : EventStore) (id : JobId) :
    (crashEnd ambient store id).tasks = store.tasks ∧
      (crashEnd ambient store id).taskEvents = store.taskEvents := by
  unfold crashEnd
  split
  · exact ⟨rfl, rfl⟩
  · next moved hit hmoved => exact transitionJob_tasks hmoved

/-- Which way an interruption goes once the task is loaded. -/
theorem interruptLoad_cases {taskId : TaskId} {completed : Bool} {call : CodexCall}
    (hkeyed : store.TasksKeyed)
    (hok : interruptLoad ambient store taskId cancel completed id = .ok call) :
    (completed ∧ call = .turnFinished id) ∨
      (¬ completed ∧ ∃ copy, call = .stopped copy cancel id ∧ copy.state = stopState cancel ∧
        copy.id = taskId) := by
  simp only [interruptLoad, bind_eq_ok, okOr_eq_ok] at hok
  rcases hok with ⟨task, hrow, hok⟩
  split at hok
  · next hcompleted =>
      rw [pure_eq_ok] at hok
      exact .inl ⟨hcompleted, hok.symm⟩
  · next hcompleted =>
      simp only [bind_eq_ok, mapError_eq_ok, Task.interrupt_eq_ok, pure_eq_ok] at hok
      have hid := hkeyed.id_eq hrow
      rcases hok with ⟨_, ⟨-, -, -, rfl⟩, rfl⟩
      exact .inr ⟨hcompleted, _, rfl, rfl, hid⟩

theorem crashLoad_cases {taskId : TaskId} {call : CodexCall}
    (hok : crashLoad ambient store taskId id = .ok call) :
    call = .crashSaved id ∨ ∃ copy, call = .crashed copy id ∧ copy.state = .failed := by
  simp only [crashLoad, bind_eq_ok, okOr_eq_ok] at hok
  rcases hok with ⟨task, -, hok⟩
  split at hok
  · rw [pure_eq_ok] at hok
    exact .inl hok.symm
  · simp only [bind_eq_ok, mapError_eq_ok, Task.interrupt_eq_ok, pure_eq_ok] at hok
    rcases hok with ⟨_, ⟨-, -, -, rfl⟩, rfl⟩
    exact .inr ⟨_, rfl, rfl⟩

theorem completeTurn_jobs {taskId : TaskId} {checkpointId : Uuid}
    (hok : completeTurn ambient store taskId checkpointId = .ok next) : next.jobs = store.jobs := by
  simp only [completeTurn, bind_eq_ok, okOr_eq_ok] at hok
  rcases hok with ⟨row, -, hok⟩
  split at hok
  · simp only [bind_eq_ok, mapError_eq_ok, EventStore.saveTaskWithCheckpoint, ensure_eq_ok,
      pure_eq_ok] at hok
    rcases hok with ⟨_, -, checkpoint, -, _, -, _, -, _, -, rfl⟩
    rfl
  · rw [pure_eq_ok] at hok
    rw [hok]

/-- A task is in one state. -/
theorem EventStore.TaskIn.unique {taskId : TaskId} {state other : TaskState}
    (hin : store.TaskIn taskId state) (hother : store.TaskIn taskId other) : state = other :=
  Option.some.inj (hin.symm.trans hother)

theorem EventStore.TaskIn.congr {taskId : TaskId} {state : TaskState}
    (hin : store.TaskIn taskId state) (htasks : next.tasks = store.tasks) :
    next.TaskIn taskId state := by
  rw [EventStore.TaskIn, EventStore.loadTask, htasks]
  exact hin

end Holds

/-! ### One step -/

namespace Conversation

section Lines

variable {ambient : Ambient} {draws : Draws} {state : Conversation} {read : ServerLine}
variable {worked : Worked ConversationPlace}

/-- Where an operation gets to that is not the answer to an interruption. -/
def Quiet (place : ConversationPlace) : Prop :=
  place = .idle ∨ (∃ id threadId message, place = .starting id threadId message) ∨
    ∃ id threadId turnId message, place = .steering id threadId turnId message

theorem Quiet.sound {next : Conversation} (hquiet : Quiet next.place) : next.Sound := by
  rw [Sound]
  rcases hquiet with hplace | ⟨_, _, _, hplace⟩ | ⟨_, _, _, _, hplace⟩ <;>
    rw [hplace] <;> trivial

/-- An answer to `turn/interrupt` says whether a turn is still active. -/
theorem hear_asked {cancel : Bool} {id : RequestId} {threadId turnId : String}
    (hplace : state.place = .asked cancel id threadId turnId)
    (hheard : state.hear ambient draws read = some worked) :
    worked.outcome.toOption.getD (afterFailure state.place) = state.place ∨
      ∃ completed, worked.outcome.toOption.getD (afterFailure state.place) =
          .ended cancel completed ∧
        (completed → worked.connection.activeTurnId = none) := by
  rw [Conversation.hear, hplace, Option.some.injEq] at hheard
  have hfailure : afterFailure state.place = .ended cancel false := by rw [hplace]; rfl
  rcases answer_cases ambient draws state id read _ with
    ⟨-, hstays⟩ | ⟨next, connection, payload, -, -, -, hanswer⟩
  · rw [hheard] at hstays
    cases houtcome : worked.outcome with
    | error error => exact .inr ⟨false, hfailure, by rintro ⟨⟩⟩
    | ok place => exact .inl (hstays place houtcome)
  · rw [hanswer] at hheard
    subst hheard
    exact .inr ⟨connection.activeTurnId.isNone, rfl, Option.isNone_iff_eq_none.mp⟩

theorem map_idle {α : Type} (worked : Worked α) (fallback : ConversationPlace)
    (hfallback : fallback = .idle) :
    (worked.map fun _ => ConversationPlace.idle).outcome.toOption.getD fallback = .idle := by
  rw [Worked.map]
  cases worked.outcome with
  | error error => exact hfallback
  | ok value => rfl

theorem hear_quiet (hplace : ∀ cancel id threadId turnId,
      state.place ≠ .asked cancel id threadId turnId)
    (hheard : state.hear ambient draws read = some worked) :
    Quiet (worked.outcome.toOption.getD (afterFailure state.place)) := by
  have hanswered : ∀ id finish, state.answer ambient draws id read finish = worked →
      (∀ next connection payload, ∃ (α : Type) (finished : Worked α),
        finish next connection payload = finished.map fun _ => ConversationPlace.idle) →
      Quiet state.place → afterFailure state.place = .idle →
      Quiet (worked.outcome.toOption.getD (afterFailure state.place)) := by
    intro id finish hworked hfinish hquiet hfailure
    rcases answer_cases ambient draws state id read finish with
      ⟨-, hstays⟩ | ⟨next, connection, payload, -, -, -, hanswer⟩
    · rw [hworked] at hstays
      cases houtcome : worked.outcome with
      | error error => exact .inl hfailure
      | ok place => exact (hstays place houtcome).symm ▸ hquiet
    · obtain ⟨α, finished, hfinished⟩ := hfinish next connection payload
      rw [← hworked, hanswer, hfinished, map_idle finished _ hfailure]
      exact .inl rfl
  rw [Conversation.hear] at hheard
  cases hat : state.place with
  | idle =>
      rw [hat, Option.some.injEq] at hheard
      have hidle : afterFailure .idle = .idle := rfl
      rw [← hheard, map_idle _ _ hidle]
      exact .inl rfl
  | starting id threadId message =>
      rw [hat, Option.some.injEq] at hheard
      rw [hat] at hanswered
      exact hanswered id _ hheard (fun _ _ _ => ⟨_, _, rfl⟩) (.inr (.inl ⟨id, threadId, message, rfl⟩))
        rfl
  | steering id threadId turnId message =>
      rw [hat, Option.some.injEq] at hheard
      rw [hat] at hanswered
      exact hanswered id _ hheard (fun _ _ _ => ⟨_, _, rfl⟩)
        (.inr (.inr ⟨id, threadId, turnId, message, rfl⟩)) rfl
  | asked cancel id threadId turnId => exact absurd hat (hplace cancel id threadId turnId)
  | ended cancel completed => rw [hat] at hheard; cases hheard
  | crashing => rw [hat] at hheard; cases hheard
  | holding call => rw [hat] at hheard; cases hheard
  | closed => rw [hat] at hheard; cases hheard

/-- The turn that a truthful line ends is on record after it. -/
theorem askedCompleted_of_completes {turnId threadId : String}
    (hasked : state.asked = some (threadId, turnId))
    (hthread : state.connection.session.threadId = some threadId)
    (hactive : state.connection.activeTurnId = some turnId)
    (htruthful : state.Truthful (.line ambient draws read))
    (hcompletes : read.Completes state.connection.session.threadId state.connection.activeTurnId) :
    (threadId, turnId) ∈ state.completions ++ state.newCompletions read := by
  rcases htruthful hcompletes with ⟨⟨thread, turn⟩, hturn, hsameThread, hsameTurn⟩
  cases hthread.symm.trans hsameThread
  cases hactive.symm.trans hsameTurn
  refine List.mem_append_right _ (List.mem_filter.mpr ⟨Option.mem_toList.mpr hturn, ?_⟩)
  rw [decide_eq_true_iff]
  exact ⟨hthread, hactive⟩

/-- What a line leaves of the store. -/
theorem hear_store (hheard : state.hear ambient draws read = some worked)
    (hkeyed : state.store.TasksKeyed) :
    worked.store.TasksKeyed ∧ worked.store.jobs = state.store.jobs ∧
      state.connection.SameThread worked.connection.toActiveCodex ∧
      (worked.store.tasks = state.store.tasks ∨
        read.Completes state.connection.session.threadId state.connection.activeTurnId) := by
  rcases hear_cases hheard with ⟨hread, -⟩ | ⟨-, hrecords, hthread, -, -⟩
  · rcases hread with ⟨hrecorded, -⟩ | ⟨hcompletes, hsubmitted⟩
    · exact ⟨(hrecorded.store.wrote state.taskId).keyed hkeyed, hrecorded.store.jobs,
        hrecorded.turn.toSameThread, .inl hrecorded.store.tasks⟩
    · obtain ⟨recorded, hrecords, ⟨hstore, -⟩ | ⟨submitted, hcomplete, hrest⟩⟩ := hsubmitted.store
      · rw [hstore]
        exact ⟨(hrecords.wrote state.taskId).keyed hkeyed, hrecords.jobs, hsubmitted.thread,
          .inr hcompletes⟩
      · have hrecordedKeyed := (hrecords.wrote state.taskId).keyed hkeyed
        have hsubmittedKeyed : submitted.TasksKeyed := by
          rcases completeTurn_wrote hrecordedKeyed hcomplete with
            ⟨row, -, ⟨-, moved, -, hwrote⟩ | ⟨-, rfl⟩⟩
          · exact hwrote.keyed hrecordedKeyed
          · exact hrecordedKeyed
        exact ⟨(hrest.wrote state.taskId).keyed hsubmittedKeyed,
          (hrest.jobs.trans (completeTurn_jobs hcomplete)).trans hrecords.jobs, hsubmitted.thread,
          .inr hcompletes⟩
  · exact ⟨(hrecords.wrote state.taskId).keyed hkeyed, hrecords.jobs, hthread, .inl hrecords.tasks⟩

theorem job_congr {store next : EventStore} {id : JobId} {state : JobState}
    (hin : store.JobIn id state) (hjobs : next.jobs = store.jobs) : next.JobIn id state :=
  hin.congr (by rw [EventStore.job, EventStore.job, hjobs])

theorem line_sound {next : Conversation} (hsound : state.Sound) (hkeyed : state.store.TasksKeyed)
    (htruthful : state.Truthful (.line ambient draws read))
    (hstep : conversationStep state (.line ambient draws read) = some next) :
    next.Sound ∧ next.store.TasksKeyed := by
  simp only [conversationStep, Option.map_eq_some_iff] at hstep
  rcases hstep with ⟨worked, hheard, rfl⟩
  obtain ⟨hnextKeyed, hjobs, hthread, -⟩ := hear_store hheard hkeyed
  refine ⟨?_, hnextKeyed⟩
  by_cases hasking : ∃ cancel id threadId turnId, state.place = .asked cancel id threadId turnId
  · obtain ⟨cancel, id, threadId, turnId, hplace⟩ := hasking
    rw [Sound, hplace] at hsound
    obtain ⟨hjob, hasked, hthreadId, hactive⟩ := hsound
    have hnextJob : worked.store.JobIn worked.connection.executionJobId .cancelling := by
      rw [hthread.executionJobId]
      exact job_congr hjob hjobs
    have hnextActive : worked.connection.activeTurnId = some turnId ∨
        (threadId, turnId) ∈ state.completions ++ state.newCompletions read := by
      rcases hactive with hactive | ⟨turn, hturn, hmem⟩
      · rcases hear_cases hheard with ⟨hread, -⟩ | ⟨⟨_, _, _, hstarting⟩, -⟩
        · rcases hread with ⟨hrecorded, -⟩ | ⟨hcompletes, -⟩
          · exact .inl (hrecorded.turn.activeTurnId.trans hactive)
          · exact .inr (askedCompleted_of_completes hasked hthreadId hactive htruthful hcompletes)
        · rw [hplace] at hstarting
          cases hstarting
      · cases hasked.symm.trans hturn
        exact .inr (List.mem_append_left _ hmem)
    have hnextAsked : ∀ hmem : (threadId, turnId) ∈ state.completions ++ state.newCompletions read,
        ∃ turn ∈ state.asked, turn ∈ state.completions ++ state.newCompletions read :=
      fun hmem => ⟨_, hasked, hmem⟩
    rcases hear_asked hplace hheard with hstays | ⟨completed, hended, hnone⟩
    · rw [Sound, hstays, hplace]
      exact ⟨hnextJob, hasked, hthread.threadId.trans hthreadId, hnextActive.imp_right hnextAsked⟩
    · rw [Sound, hended]
      refine ⟨hnextJob, fun hcompleted => hnextAsked (hnextActive.resolve_left ?_)⟩
      rw [hnone hcompleted]
      rintro ⟨⟩
  · refine Quiet.sound (hear_quiet ?_ hheard)
    exact fun cancel id threadId turnId hplace => hasking ⟨cancel, id, threadId, turnId, hplace⟩

end Lines

section Steps

variable {state next : Conversation}

/-- Whatever an operation waits for now, it is not the end of an interruption. -/
theorem beginWaiting_quiet {α : Type} (begun : Connection × Except CodexServiceError α)
    (waiting : α → ConversationPlace) (hwaiting : ∀ value, Quiet (waiting value)) :
    Quiet (state.beginWaiting begun waiting).place := by
  rw [beginWaiting]
  cases begun.2 with
  | error error => exact .inl rfl
  | ok value => exact hwaiting value

theorem askInterrupt_same (connection : Connection) :
    (askInterrupt connection).1.toActiveCodex = connection.toActiveCodex ∧
      ∀ id threadId turnId, (askInterrupt connection).2 = some (id, threadId, turnId) →
        connection.session.threadId = some threadId ∧
          connection.activeTurnId = some turnId := by
  unfold askInterrupt
  split
  next threadId turnId hthread hturn =>
    split
    · exact ⟨rfl, nofun⟩
    · constructor
      · unfold Connection.beginRequest
        dsimp only
        split <;> rfl
      · intro id thread turn hasked
        rw [Option.map_eq_some_iff] at hasked
        rcases hasked with ⟨_, -, hsame⟩
        cases hsame
        exact ⟨hthread, hturn⟩
  next => exact ⟨rfl, nofun⟩

/-- A step that leaves the tasks alone submits nothing. -/
theorem not_submits_of_tasks {id : TaskId} {store after : EventStore}
    (htasks : after.tasks = store.tasks) (hbefore : store.TaskIn id .implementing)
    (hafter : after.TaskIn id .verifying) : False := by
  have hsame := (hbefore.congr htasks).unique hafter
  cases hsame

/-- A saved copy that is not in verifying submits nothing. -/
theorem not_submits_of_save {id : TaskId} {store after : EventStore} {copy : Task}
    (hwrote : EventStore.Wrote store after copy.id [copy]) (hcopy : copy.state ≠ .verifying)
    (hbefore : store.TaskIn id .implementing) (hafter : after.TaskIn id .verifying) : False := by
  by_cases hid : id = copy.id
  · subst hid
    have hrow : after.loadTask copy.id = some copy := hwrote.row
    rw [EventStore.TaskIn, hrow, Option.map_some, Option.some.injEq] at hafter
    exact hcopy hafter
  · rw [EventStore.TaskIn, hwrote.loadTask_ne hid] at hafter
    cases hbefore.unique hafter

theorem stopState_ne_verifying (cancel : Bool) : stopState cancel ≠ .verifying := by
  cases cancel <;> decide

theorem keyed_of_tasks {store after : EventStore} (hkeyed : store.TasksKeyed)
    (hsame : after.tasks = store.tasks ∧ after.taskEvents = store.taskEvents) :
    after.TasksKeyed :=
  (EventStore.Wrote.of_eq hsame.1 hsame.2 ⟨⟨0⟩⟩).keyed hkeyed

/-- A step that neither reads a line nor saves a task. -/
structure Idles (state next : Conversation) : Prop where
  sound : next.Sound
  tasks : next.store.tasks = state.store.tasks ∧ next.store.taskEvents = state.store.taskEvents

theorem interrupt_idles {ambient : Ambient} {cancel : Bool}
    (hstep : conversationStep state (.interrupt ambient cancel) = some next) :
    Idles state next := by
  simp only [conversationStep] at hstep
  split at hstep
  · split at hstep
    next error herror =>
      cases hstep
      exact ⟨trivial, rfl, rfl⟩
    next store hbegin =>
      obtain ⟨hjob, htasks⟩ := interruptBegin_wrote hbegin
      obtain ⟨hsame, hasked⟩ := askInterrupt_same state.connection
      split at hstep
      next connection hask =>
        rw [hask] at hsame
        cases hstep
        refine ⟨?_, htasks⟩
        rw [Sound]
        refine ⟨?_, by rintro ⟨⟩⟩
        dsimp only at hsame ⊢
        rw [hsame]
        exact hjob
      next connection id threadId turnId hask =>
        rw [hask] at hsame hasked
        obtain ⟨hthread, hturn⟩ := hasked id threadId turnId rfl
        cases hstep
        refine ⟨?_, htasks⟩
        rw [Sound]
        dsimp only at hsame ⊢
        rw [hsame]
        exact ⟨hjob, rfl, hthread, .inl hturn⟩
  · cases hstep

theorem load_idles {ambient : Ambient} (hsound : state.Sound) (hkeyed : state.store.TasksKeyed)
    (hstep : conversationStep state (.load ambient) = some next) : Idles state next := by
  simp only [conversationStep] at hstep
  split at hstep
  next cancel completed hplace =>
    rw [Sound, hplace] at hsound
    rw [Option.some.injEq] at hstep
    subst hstep
    cases hload : interruptLoad ambient state.store state.taskId cancel completed
        state.connection.executionJobId with
    | error error => exact ⟨trivial, rfl, rfl⟩
    | ok call =>
        refine ⟨?_, rfl, rfl⟩
        rcases interruptLoad_cases hkeyed hload with
          ⟨hcompleted, rfl⟩ | ⟨-, copy, rfl, hstate, hid⟩
        · exact ⟨rfl, hsound.1, hsound.2 hcompleted⟩
        · exact ⟨rfl, hsound.1, hstate, hid⟩
  next hplace =>
    rw [Option.some.injEq] at hstep
    subst hstep
    cases hload : crashLoad ambient state.store state.taskId state.connection.executionJobId with
    | error error => exact ⟨trivial, rfl, rfl⟩
    | ok call =>
        refine ⟨?_, rfl, rfl⟩
        rcases crashLoad_cases hload with rfl | ⟨copy, rfl, hstate⟩
        · trivial
        · exact hstate
  next => cases hstep

theorem giveUp_idles (hsound : state.Sound) (hstep : conversationStep state .giveUp = some next) :
    Idles state next := by
  simp only [conversationStep] at hstep
  split at hstep
  next hplace =>
    cases hstep
    rw [hplace]
    exact ⟨trivial, rfl, rfl⟩
  next hplace =>
    cases hstep
    rw [hplace]
    exact ⟨trivial, rfl, rfl⟩
  next hplace =>
    rw [Sound, hplace] at hsound
    cases hstep
    rw [hplace]
    exact ⟨⟨hsound.1, by rintro ⟨⟩⟩, rfl, rfl⟩
  next => cases hstep

theorem save_sound {ambient : Ambient} {checkpointId : Uuid} (hsound : state.Sound)
    (hkeyed : state.store.TasksKeyed)
    (hstep : conversationStep state (.save ambient checkpointId) = some next) :
    next.Sound ∧ next.store.TasksKeyed ∧
      (next.store = state.store ∨ ∃ copy, copy.state ≠ .verifying ∧
        EventStore.Wrote state.store next.store copy.id [copy]) := by
  simp only [conversationStep] at hstep
  split at hstep
  next copy cancel jobId hplace =>
    rw [Sound, hplace] at hsound
    obtain ⟨rfl, hjob, hstate, hid⟩ := hsound
    rw [Option.some.injEq] at hstep
    subst hstep
    obtain ⟨store, hsaved, hkept⟩ := saveInterrupted_ok ambient state.store
      state.connection.executionJobId cancel copy checkpointId
    have hwrote := saveInterrupted_wrote hsaved
    have hhistory : store.timeline copy.id = state.store.timeline copy.id ++ [copy] :=
      hwrote.history
    rw [hsaved]
    refine ⟨⟨rfl, hjob.congr hkept, copy, ?_, hstate⟩, hwrote.keyed hkeyed,
      .inr ⟨copy, hstate ▸ stopState_ne_verifying cancel, hwrote⟩⟩
    change copy ∈ store.timeline state.taskId
    rw [← hid, hhistory]
    exact List.mem_append_right _ (List.mem_singleton_self copy)
  next copy jobId hplace =>
    rw [Sound, hplace] at hsound
    rw [Option.some.injEq] at hstep
    subst hstep
    cases hsaved : saveInterrupted ambient state.store copy "Codex app-server crash recorded"
        checkpointId with
    | error error => exact ⟨trivial, hkeyed, .inl rfl⟩
    | ok store =>
        have hwrote := saveInterrupted_wrote hsaved
        refine ⟨trivial, hwrote.keyed hkeyed, .inr ⟨copy, ?_, hwrote⟩⟩
        rw [hsound]
        decide
  next => cases hstep

/-- The last write of an interruption that found no completed turn. -/
theorem settle_sound {ambient : Ambient} (hsound : state.Sound)
    (hstep : conversationStep state (.settle ambient) = some next) :
    next.place = .closed ∧
      (next.store.tasks = state.store.tasks ∧ next.store.taskEvents = state.store.taskEvents) ∧
      (state.Stopping → ¬ state.AskedCompleted →
        next.store.JobIn state.connection.executionJobId .cancelled ∧
          ∃ cancel, ∃ copy ∈ next.store.timeline state.taskId, copy.state = stopState cancel ∧
            state.place = .holding (.stopSaved cancel state.connection.executionJobId)) := by
  simp only [conversationStep] at hstep
  split at hstep
  next cancel jobId hplace =>
    rw [Sound, hplace] at hsound
    obtain ⟨rfl, hjob, copy, hcopy, hstate⟩ := hsound
    cases hstep
    obtain ⟨htasks, hevents⟩ := interruptEnd_tasks ambient state.store
      state.connection.executionJobId .cancelled (stopSummary cancel)
    refine ⟨rfl, ⟨htasks, hevents⟩, fun _ _ => ⟨?_, cancel, copy, ?_, hstate, hplace⟩⟩
    · exact interruptEnd_of_cancelling .cancelled hjob rfl (stopSummary_valid cancel)
    · dsimp only
      rw [EventStore.timeline, hevents]
      exact hcopy
  next jobId hplace =>
    rw [Sound, hplace] at hsound
    cases hstep
    exact ⟨rfl, interruptEnd_tasks _ _ _ _ _, fun _ hnot => absurd hsound.2.2 hnot⟩
  next jobId hplace =>
    cases hstep
    refine ⟨rfl, crashEnd_tasks _ _ _, ?_⟩
    rintro (⟨_, hother⟩ | ⟨_, _, hother⟩) <;>
    · rw [hplace] at hother
      cases hother
  next => cases hstep

theorem elsewhere_sound {store : EventStore} (hsound : state.Sound)
    (hstep : conversationStep state (.elsewhere store) = some next) :
    next.Sound ∧ next.store.TasksKeyed := by
  simp only [conversationStep] at hstep
  split at hstep
  next hguard =>
    obtain ⟨hjob, hkeyed, hprefix⟩ := hguard
    rw [Option.some.injEq] at hstep
    subst hstep
    refine ⟨?_, hkeyed⟩
    rw [Sound] at hsound ⊢
    dsimp only at hsound ⊢
    split at hsound
    next => exact ⟨hsound.1.congr hjob, hsound.2⟩
    next => exact ⟨hsound.1.congr hjob, hsound.2⟩
    next => exact ⟨hsound.1, hsound.2.1.congr hjob, hsound.2.2⟩
    next => exact ⟨hsound.1, hsound.2.1.congr hjob, hsound.2.2⟩
    next =>
      obtain ⟨hid, hin, copy, hcopy, hstate⟩ := hsound
      exact ⟨hid, hin.congr hjob, copy, hprefix.subset hcopy, hstate⟩
    next => exact hsound
    next => trivial
  next => cases hstep

theorem Idles.honest {event : ConversationEvent} (hidles : Idles state next)
    (hevent : ∀ ambient, event ≠ .settle ambient) : Honest state event next where
  submits := fun _ hbefore hafter => absurd hafter (not_submits_of_tasks hidles.tasks.1 hbefore)
  branches := fun cancel hplace => by
    have hsound := hidles.sound
    rw [Sound, hplace] at hsound
    exact hsound.2 rfl
  stops := fun ambient hsettle => absurd hsettle (hevent ambient)

/-- A step of a truthful conversation is honest and keeps it sound. -/
theorem truthful_step {event : ConversationEvent} (hsound : state.Sound)
    (hkeyed : state.store.TasksKeyed) (htruthful : state.Truthful event)
    (hstep : conversationStep state event = some next) :
    (next.Sound ∧ next.store.TasksKeyed) ∧ Honest state event next := by
  have hidle : Idles state next → (∀ ambient, event ≠ .settle ambient) →
      (next.Sound ∧ next.store.TasksKeyed) ∧ Honest state event next := fun hidles hevent =>
    ⟨⟨hidles.sound, keyed_of_tasks hkeyed hidles.tasks⟩, hidles.honest hevent⟩
  have hbranches : next.Sound → ∀ cancel, next.place = .ended cancel true →
      next.AskedCompleted := by
    intro hnext cancel hplace
    rw [Sound, hplace] at hnext
    exact hnext.2 rfl
  cases event with
  | startTurn message =>
      simp only [conversationStep] at hstep
      split at hstep
      · cases hstep
        refine hidle ⟨(beginWaiting_quiet _ _ fun _ => ?_).sound, rfl, rfl⟩ fun _ => by rintro ⟨⟩
        exact .inr (.inl ⟨_, _, _, rfl⟩)
      · cases hstep
  | steerTurn message =>
      simp only [conversationStep] at hstep
      split at hstep
      · cases hstep
        refine hidle ⟨(beginWaiting_quiet _ _ fun _ => ?_).sound, rfl, rfl⟩ fun _ => by rintro ⟨⟩
        exact .inr (.inr ⟨_, _, _, _, rfl⟩)
      · cases hstep
  | line ambient draws read =>
      have hnext := line_sound hsound hkeyed htruthful hstep
      refine ⟨hnext, ?_, hbranches hnext.1, by rintro _ ⟨⟩⟩
      intro _ hbefore hafter
      simp only [conversationStep, Option.map_eq_some_iff] at hstep
      rcases hstep with ⟨worked, hheard, rfl⟩
      rcases (hear_store hheard hkeyed).2.2.2 with htasks | hcompletes
      · exact absurd hafter (not_submits_of_tasks htasks hbefore)
      · rcases htruthful hcompletes with ⟨turn, hturn, hthread, hactive⟩
        exact ⟨ambient, draws, read, turn, rfl, hturn, hthread, hactive⟩
  | giveUp => exact hidle (giveUp_idles hsound hstep) fun _ => by rintro ⟨⟩
  | interrupt ambient cancel => exact hidle (interrupt_idles hstep) fun _ => by rintro ⟨⟩
  | crash draws =>
      simp only [conversationStep] at hstep
      split at hstep
      · cases hstep
        have hrecords := (appendEvent_recordsOnly draws state.store
          { state.connection with session := { state.connection.session with status := .failed } }
          (.status "error" "Codex app-server exited unexpectedly")).1
        refine hidle ⟨?_, hrecords.tasks, hrecords.taskEvents⟩ fun _ => by rintro ⟨⟩
        rw [Sound]
        dsimp only
        split <;> trivial
      · cases hstep
  | load ambient => exact hidle (load_idles hsound hkeyed hstep) fun _ => by rintro ⟨⟩
  | save ambient checkpointId =>
      obtain ⟨hnext, hnextKeyed, hstore⟩ := save_sound hsound hkeyed hstep
      refine ⟨⟨hnext, hnextKeyed⟩, ?_, hbranches hnext, by rintro _ ⟨⟩⟩
      intro _ hbefore hafter
      rcases hstore with hsame | ⟨copy, hcopy, hwrote⟩
      · exact absurd hafter (not_submits_of_tasks (hsame ▸ rfl) hbefore)
      · exact absurd hafter (not_submits_of_save hwrote hcopy hbefore)
  | settle ambient =>
      obtain ⟨hclosed, htasks, hstops⟩ := settle_sound hsound hstep
      have hnext : next.Sound := by
        rw [Sound, hclosed]
        trivial
      exact ⟨⟨hnext, keyed_of_tasks hkeyed htasks⟩,
        fun _ hbefore hafter => absurd hafter (not_submits_of_tasks htasks.1 hbefore),
        hbranches hnext, fun _ _ => hstops⟩
  | abandon =>
      simp only [conversationStep] at hstep
      split at hstep
      · cases hstep
      · cases hstep
        exact hidle ⟨trivial, rfl, rfl⟩ fun _ => by rintro ⟨⟩
  | elsewhere store =>
      have hnext := elsewhere_sound hsound hstep
      exact ⟨hnext, fun hnot => absurd rfl (hnot store), hbranches hnext.1, by rintro _ ⟨⟩⟩

end Steps

end Conversation

open Conversation

/-- In every conversation in which a line that ends the active turn is a
notification that the turn is completed, a task is submitted on such a
notification alone, an interruption takes a turn for completed only where one
was received for the turn it asked to end, and without one it ends with the task
paused or cancelled and the job cancelled. -/
theorem turn_status_honest {first : Conversation} {events : List ConversationEvent}
    (hkeyed : first.store.TasksKeyed) (hidle : first.place = .idle)
    (htruthful : EveryStep conversationStep Truthful first events) :
    EveryStep conversationStep (fun state event => ∀ next,
      conversationStep state event = some next → Honest state event next) first events := by
  have hsound : first.Sound := by
    rw [Sound, hidle]
    trivial
  exact everyStep_of_invariant (fun state => state.Sound ∧ state.store.TasksKeyed)
    (fun _ _ _ hcond hinv hnext => truthful_step hinv.1 hinv.2 hcond hnext)
    htruthful ⟨hsound, hkeyed⟩

namespace Sample

/-- A turn is active and the job of its process is running. -/
def workingConversation : Conversation where
  store := runningStore .implementing
  connection := {
    session, activeTurnId := some "turn-1", executionJobId, decoder := .new
    nextRequestId := 5, clientMessageIds := {message.id}, interruptSent := false }
  place := .idle
  completions := []
  asked := none

def workingEnd (events : List ConversationEvent) : Conversation :=
  (run conversationStep workingConversation events).getD workingConversation

def interruptedLine : ConversationEvent := .line ambient draws (turnLine 106 "interrupted")

/-- The response to `turn/interrupt`. -/
def stoppedLine : ConversationEvent :=
  .line ambient draws ⟨20, .ok (.obj [("id", .int 5), ("result", .obj [])])⟩

/-- A cancellation, to which the server reports the turn as interrupted. -/
def cancelledTurn : List ConversationEvent :=
  [.interrupt ambient true, interruptedLine, stoppedLine, .load ambient, .settle ambient]

end Sample

open Sample

theorem working_samples :
    (run conversationStep workingConversation [interruptedLine]).isSome ∧
      (workingEnd [interruptedLine]).store.TaskIn taskId .verifying ∧
      (run conversationStep workingConversation cancelledTurn).isSome ∧
      (workingEnd cancelledTurn).place = .closed ∧
      (workingEnd cancelledTurn).store.TaskIn taskId .verifying ∧
      ((workingEnd cancelledTurn).store.job executionJobId).map Job.state = some .succeeded := by
  unfold EventStore.TaskIn
  decide

/-- A turn that is reported as interrupted submits its task, and a cancellation
that is answered so ends with the task in verifying and the job succeeded. -/
theorem interruptedTurn_submitted :
    (turnLine 106 "interrupted").completedTurn? = none ∧
      run conversationStep workingConversation [interruptedLine] =
        some (workingEnd [interruptedLine]) ∧
      ¬ Honest workingConversation interruptedLine (workingEnd [interruptedLine]) ∧
      run conversationStep workingConversation cancelledTurn = some (workingEnd cancelledTurn) ∧
      (workingEnd cancelledTurn).place = .closed ∧
      (workingEnd cancelledTurn).store.TaskIn taskId .verifying ∧
      (workingEnd cancelledTurn).store.JobIn executionJobId .succeeded := by
  obtain ⟨hrun, hverifying, hcancelled, hclosed, hsubmitted, hjob⟩ := working_samples
  refine ⟨rfl, eq_some_getD hrun _, ?_, eq_some_getD hcancelled _, hclosed, hsubmitted,
    Option.map_eq_some_iff.mp hjob⟩
  intro hhonest
  obtain ⟨_, _, read, turn, hevent, hturn, -⟩ := hhonest.submits (fun _ => nofun) rfl hverifying
  cases hevent
  exact Option.not_mem_none turn hturn

/-- A turn that is reported as completed submits its task. -/
theorem completedTurn_submitted :
    EveryStep conversationStep (fun state event => ∀ next,
      conversationStep state event = some next → Honest state event next)
      workingConversation [completedLine] := by
  refine turn_status_honest (by decide) rfl ⟨fun _ => ?_, fun _ _ => trivial⟩
  exact ⟨("thread-1", "turn-1"), rfl, rfl, rfl⟩

end Patchwright
