import Patchwright.Codex.Conversation

/-!
# The completion of a turn

A turn is active from the moment its response has been handled.  A completion
that is read before is not the completion of the active turn, so the handler
drops it; the decoder has seen it by then and refuses it when it comes again.
This module says which arrival orders leave the task submitted.
-/

namespace Patchwright

open Checked Runs
open Protocol (ServerLine RequestId)

namespace Conversation

/-- A line that is handled without an error, or a step of the rest of the engine
that leaves the task alone. -/
def Smooth (state : Conversation) : ConversationEvent → Prop
  | .line ambient draws line =>
      ∃ worked ∈ state.hear ambient draws line, worked.outcome.isOk
  | .elsewhere store => store.loadTask state.taskId = state.store.loadTask state.taskId ∧
      store.timeline state.taskId = state.store.timeline state.taskId
  | _ => False

instance (state : Conversation) : ∀ event, Decidable (state.Smooth event)
  | .line ambient draws line =>
      inferInstanceAs (Decidable (∃ worked ∈ state.hear ambient draws line, worked.outcome.isOk))
  | .elsewhere _ => inferInstanceAs (Decidable (_ ∧ _))
  | .startTurn _ | .steerTurn _ | .giveUp | .interrupt .. | .crash _ | .load _ | .save ..
  | .settle _ | .abandon => inferInstanceAs (Decidable False)

/-- The task is in verifying, one event after it was in the first store. -/
def Submitted (first : EventStore) (id : TaskId) (state : Conversation) : Prop :=
  ∃ row, row.state = .verifying ∧ state.store.loadTask id = some row ∧
    state.store.timeline id = first.timeline id ++ [row]

/-- The task is as it was in the first store, in implementing. -/
def Implementing (first : EventStore) (id : TaskId) (state : Conversation) : Prop :=
  ∃ row, row.state = .implementing ∧ state.store.loadTask id = some row ∧
    state.store.timeline id = first.timeline id

/-- How far a task gets through lines alone. -/
structure Progress (first : Conversation) (state : Conversation) : Prop where
  keyed : state.store.TasksKeyed
  taskId : state.taskId = first.taskId
  threadId : state.connection.session.threadId = first.connection.session.threadId
  row : Implementing first.store first.taskId state ∨ Submitted first.store first.taskId state

/-- No turn is active, and the task has been submitted once. -/
def Handled (first final : Conversation) : Prop :=
  final.connection.activeTurnId = none ∧ Submitted first.store first.taskId final

end Conversation

/-- The event is a line that reports the end of this turn. -/
def ConversationEvent.Completes (event : ConversationEvent) (threadId turnId : Option String) :
    Prop :=
  match event with
  | .line _ _ read => read.Completes threadId turnId
  | _ => False

section Submitting

variable {ambient : Ambient} {store next : EventStore} {id : TaskId} {checkpointId : Uuid}

/-- Submitting a task writes one event, if the task is implementing. -/
theorem completeTurn_wrote (hkeyed : store.TasksKeyed)
    (hok : completeTurn ambient store id checkpointId = .ok next) :
    ∃ row, store.loadTask id = some row ∧
      ((row.state = .implementing ∧ ∃ moved, moved.state = .verifying ∧
          EventStore.Wrote store next id [moved]) ∨
        (row.state ≠ .implementing ∧ next = store)) := by
  simp only [completeTurn, bind_eq_ok, okOr_eq_ok] at hok
  rcases hok with ⟨row, hrow, hok⟩
  refine ⟨row, hrow, ?_⟩
  split at hok
  · next hstate =>
      simp only [bind_eq_ok, mapError_eq_ok, Task.transition_eq_ok] at hok
      rcases hok with ⟨_, ⟨-, rfl⟩, checkpoint, -, hsaved⟩
      have hwrote := EventStore.Wrote.saveTaskWithCheckpoint hsaved
      refine .inl ⟨hstate, _, ?_, hkeyed.id_eq hrow ▸ hwrote⟩
      rfl
  · next hstate =>
      rw [pure_eq_ok] at hok
      exact .inr ⟨hstate, hok.symm⟩

end Submitting

namespace Conversation

variable {first state next : Conversation} {event : ConversationEvent}

theorem Progress.congr (hprogress : Progress first state) (hkeyed : next.store.TasksKeyed)
    (hthread : state.connection.SameThread next.connection.toActiveCodex)
    (hrow : next.store.loadTask first.taskId = state.store.loadTask first.taskId)
    (hevents : next.store.timeline first.taskId = state.store.timeline first.taskId) :
    Progress first next where
  keyed := hkeyed
  taskId := hthread.taskId.trans hprogress.taskId
  threadId := hthread.threadId.trans hprogress.threadId
  row := by
    refine hprogress.row.imp ?_ ?_
    · rintro ⟨row, hstate, hload, htimeline⟩
      exact ⟨row, hstate, hrow.trans hload, hevents.trans htimeline⟩
    · rintro ⟨row, hstate, hload, htimeline⟩
      exact ⟨row, hstate, hrow.trans hload, hevents.trans htimeline⟩

theorem Progress.recordsOnly (hprogress : Progress first state)
    (hrecords : state.store.RecordsOnly next.store)
    (hthread : state.connection.SameThread next.connection.toActiveCodex) : Progress first next := by
  have hwrote := hrecords.wrote first.taskId
  refine hprogress.congr (hwrote.keyed hprogress.keyed) hthread hwrote.row ?_
  exact hwrote.history.trans (List.append_nil _)

/-- Ending the active turn submits the task, or finds it submitted. -/
theorem Progress.submitted {ambient : Ambient} {draws : Draws} {recorded submitted : EventStore}
    (hprogress : Progress first state) (hrecords : state.store.RecordsOnly recorded)
    (hcomplete : completeTurn ambient recorded state.taskId draws.checkpointId = .ok submitted)
    (hrest : submitted.RecordsOnly next.store)
    (hthread : state.connection.SameThread next.connection.toActiveCodex) :
    Progress first next ∧ Submitted first.store first.taskId next := by
  have hkeyed := (hrecords.wrote first.taskId).keyed hprogress.keyed
  rw [hprogress.taskId] at hcomplete
  have hbefore := hrecords.wrote first.taskId
  have hafter := hrest.wrote first.taskId
  have hbeforeRow : recorded.loadTask first.taskId = state.store.loadTask first.taskId :=
    hbefore.row
  have hlast : Submitted first.store first.taskId next ∧ next.store.TasksKeyed := by
    rcases completeTurn_wrote hkeyed hcomplete with
      ⟨row, hrow, ⟨himplementing, moved, hverifying, hwrote⟩ | ⟨hstate, rfl⟩⟩
    · have hall := (hbefore.trans hwrote).trans hafter
      refine ⟨⟨moved, hverifying, hall.row, ?_⟩, hall.keyed hprogress.keyed⟩
      have htimeline : next.store.timeline first.taskId =
          state.store.timeline first.taskId ++ [moved] := hall.history
      rcases hprogress.row with ⟨again, -, -, hsame⟩ | ⟨again, hagain, hload, -⟩
      · rw [htimeline, hsame]
      · cases (hbeforeRow.symm.trans hrow).symm.trans hload
        rw [himplementing] at hagain
        cases hagain
    · have hall := hbefore.trans hafter
      refine ⟨?_, hall.keyed hprogress.keyed⟩
      rcases hprogress.row with ⟨again, hagain, hload, -⟩ | ⟨again, hagain, hload, hsame⟩
      · cases (hbeforeRow.symm.trans hrow).symm.trans hload
        exact absurd hagain hstate
      · refine ⟨again, hagain, (hall.row).trans hload, ?_⟩
        exact hall.history.trans ((List.append_nil _).trans hsame)
  exact ⟨⟨hlast.2, hthread.taskId.trans hprogress.taskId,
    hthread.threadId.trans hprogress.threadId, .inr hlast.1⟩, hlast.1⟩

/-- What one smooth step does: it leaves the turn alone, ends it, or is the
response that makes a turn active. -/
theorem smooth_step (hprogress : Progress first state) (hsmooth : state.Smooth event)
    (hstep : conversationStep state event = some next) :
    Progress first next ∧
      ((¬ event.Completes state.connection.session.threadId state.connection.activeTurnId ∧
          next.connection.activeTurnId = state.connection.activeTurnId ∧
          next.store.timeline first.taskId = state.store.timeline first.taskId ∧
          (∀ id threadId message, state.place = .starting id threadId message →
            next.place = state.place)) ∨
        (event.Completes state.connection.session.threadId state.connection.activeTurnId ∧
          next.connection.activeTurnId = none ∧ Submitted first.store first.taskId next ∧
          (∀ id threadId message, state.place = .starting id threadId message →
            next.place = state.place)) ∨
        ((∃ id threadId message, state.place = .starting id threadId message) ∧
          next.connection.activeTurnId.isSome)) := by
  cases event with
  | line ambient draws line =>
      rcases hsmooth with ⟨worked, hheard, hok⟩
      rw [Option.mem_def] at hheard
      simp only [conversationStep, hheard, Option.map_some, Option.some.injEq] at hstep
      obtain ⟨place, hplace⟩ : ∃ place, worked.outcome = .ok place := by
        cases houtcome : worked.outcome with
        | error error => rw [houtcome] at hok; cases hok
        | ok place => exact ⟨place, rfl⟩
      have hnext : next.place = place := by
        rw [← hstep, hplace]
        rfl
      have hconnection : next.connection = worked.connection := by rw [← hstep]
      have hstore : next.store = worked.store := by rw [← hstep]
      rcases hear_cases hheard with ⟨hread, hstays⟩ | ⟨hstarting, hrecords, hthread, -, hactive⟩
      · have hkept : ∀ id threadId message, state.place = .starting id threadId message →
            next.place = state.place :=
          fun id threadId message hat => hnext.trans (hstays id threadId message hat place hplace)
        rcases hread with ⟨hrecorded, hfails⟩ | ⟨hcompletes, hthread, hended, recorded, hrecords,
          ⟨-, hfailed⟩ | ⟨submitted, hsubmitted, hrest⟩⟩
        · refine ⟨hprogress.recordsOnly (hstore ▸ hrecorded.store)
            (hconnection ▸ hrecorded.turn.toSameThread), .inl ⟨?_, ?_, ?_, hkept⟩⟩
          · exact fun hcompletes => hfails hcompletes hok
          · rw [hconnection, hrecorded.turn.activeTurnId]
          · rw [hstore]
            exact (hrecorded.store.wrote first.taskId).history.trans (List.append_nil _)
        · exact absurd hok hfailed
        · obtain ⟨hprogress, hsubmitted⟩ := hprogress.submitted hrecords hsubmitted
            (hstore ▸ hrest) (hconnection ▸ hthread)
          exact ⟨hprogress, .inr (.inl ⟨hcompletes, hconnection ▸ hended, hsubmitted, hkept⟩)⟩
      · exact ⟨hprogress.recordsOnly (hstore ▸ hrecords) (hconnection ▸ hthread),
          .inr (.inr ⟨hstarting, hconnection ▸ hactive⟩)⟩
  | elsewhere store =>
      rcases hsmooth with ⟨hrow, hevents⟩
      simp only [conversationStep] at hstep
      split at hstep
      · next hguard =>
          rw [Option.some.injEq] at hstep
          subst hstep
          rw [hprogress.taskId] at hrow hevents
          exact ⟨hprogress.congr hguard.2.1 ⟨rfl, rfl, rfl⟩ hrow hevents,
            .inl ⟨id, rfl, hevents, fun _ _ _ _ => rfl⟩⟩
      · cases hstep
  | _ => exact absurd hsmooth id

theorem smooth_idle (hsmooth : state.Smooth event) (hidle : state.place = .idle)
    (hstep : conversationStep state event = some next) : next.place = .idle := by
  cases event with
  | line ambient draws line =>
      rcases hsmooth with ⟨worked, hheard, hok⟩
      rw [Option.mem_def] at hheard
      simp only [conversationStep, hheard, Option.map_some, Option.some.injEq] at hstep
      rw [Conversation.hear, hidle, Option.some.injEq] at hheard
      subst hstep hheard
      dsimp only [Worked.map]
      cases (pumpLine ambient draws state.store state.connection line).outcome with
      | error error => exact congrArg afterFailure hidle
      | ok value => rfl
  | elsewhere store =>
      simp only [conversationStep] at hstep
      split at hstep
      · rw [Option.some.injEq] at hstep
        rw [← hstep]
        exact hidle
      · cases hstep
  | _ => exact absurd hsmooth id

/-- How a conversation stands whose turn has been submitted. -/
def Done (first state : Conversation) : Prop :=
  Progress first state ∧ state.place = .idle ∧ Handled first state

theorem done_step (hdone : Done first state) (hsmooth : state.Smooth event)
    (hstep : conversationStep state event = some next) : Done first next := by
  obtain ⟨hprogress, hidle, hended, row, hverifying, hrow, hevents⟩ := hdone
  obtain ⟨hnext, hkept⟩ := smooth_step hprogress hsmooth hstep
  refine ⟨hnext, smooth_idle hsmooth hidle hstep, ?_⟩
  rcases hkept with ⟨-, hsame, htimeline, -⟩ | ⟨-, hnone, hsubmitted, -⟩ |
    ⟨⟨id, threadId, message, hat⟩, -⟩
  · refine ⟨hsame.trans hended, hnext.row.resolve_left ?_⟩
    rintro ⟨again, -, -, hfirst⟩
    rw [htimeline, hevents] at hfirst
    exact List.append_ne_nil_of_right_ne_nil [] (List.cons_ne_nil row [])
      (List.append_right_eq_self.mp hfirst)
  · exact ⟨hnone, hsubmitted⟩
  · rw [hidle] at hat
    cases hat

/-- After the response the turn is handled once its end is read. -/
theorem handled_iff {turnId : Option String} {events : List ConversationEvent}
    {final : Conversation} (hprogress : Progress first state) (hidle : state.place = .idle)
    (hactive : state.connection.activeTurnId = turnId) (hturn : turnId.isSome)
    (hsmooth : EveryStep conversationStep Smooth state events)
    (hrun : run conversationStep state events = some final) :
    Handled first final ↔
      ∃ event ∈ events, event.Completes first.connection.session.threadId turnId := by
  induction events generalizing state with
  | nil =>
      rw [run_nil, Option.some.injEq] at hrun
      subst hrun
      refine iff_of_false (fun hhandled => ?_) fun ⟨_, hmem, _⟩ => List.not_mem_nil hmem
      rw [← hactive, hhandled.1] at hturn
      cases hturn
  | cons event events ih =>
      obtain ⟨next, hstep, hrest⟩ := run_cons_eq_some.1 hrun
      obtain ⟨hnext, hcases⟩ := smooth_step hprogress hsmooth.1 hstep
      have hnextIdle := smooth_idle hsmooth.1 hidle hstep
      rw [hprogress.threadId, hactive] at hcases
      rcases hcases with ⟨hnot, hsame, -, -⟩ | ⟨hcompletes, hnone, hsubmitted, -⟩ |
        ⟨⟨id, threadId, message, hat⟩, -⟩
      · rw [ih hnext hnextIdle hsame (hsmooth.2 next hstep) hrest]
        simp only [List.mem_cons, exists_eq_or_imp, hnot, false_or]
      · have hdone := invariant_of_everyStep
          (fun _ _ _ hcond hinv hgo => done_step hinv hcond hgo) (hsmooth.2 next hstep) hrest
          (⟨hnext, hnextIdle, hnone, hsubmitted⟩ : Done first next)
        exact iff_of_true hdone.2.2 ⟨event, List.mem_cons_self, hcompletes⟩
      · rw [hidle] at hat
        cases hat

end Conversation

open Conversation

/-- A turn whose lines are all handled without an error leaves its task
submitted, with one event and no active turn, exactly when its end is read after
the response to the request that started it. -/
theorem turn_handled_iff {first waiting answered final : Conversation} {id : RequestId}
    {threadId : String} {message : OperatorMessage} {before after : List ConversationEvent}
    {response : ConversationEvent} (hkeyed : first.store.TasksKeyed)
    (hrow : ∃ row, first.store.loadTask first.taskId = some row ∧ row.state = .implementing)
    (hbefore : run conversationStep first before = some waiting)
    (hwaiting : waiting.place = .starting id threadId message)
    (hresponse : conversationStep waiting response = some answered)
    (hanswered : answered.place = .idle)
    (hafter : run conversationStep answered after = some final)
    (hsmooth : EveryStep conversationStep Smooth first (before ++ response :: after)) :
    Handled first final ↔ ∃ event ∈ after,
      event.Completes first.connection.session.threadId answered.connection.activeTurnId := by
  obtain ⟨hsmoothBefore, hsmoothAnswer, hsmoothAfter⟩ := everyStep_append hsmooth hbefore
  have hstart : Conversation.Progress first first := by
    rcases hrow with ⟨row, hload, hstate⟩
    exact ⟨hkeyed, rfl, rfl, .inl ⟨row, hstate, hload, rfl⟩⟩
  have hprogress : Conversation.Progress first waiting := invariant_of_everyStep
    (fun _ _ _ hcond hinv hgo => (smooth_step hinv hcond hgo).1) hsmoothBefore hbefore hstart
  obtain ⟨hnext, hcases⟩ := smooth_step hprogress hsmoothAnswer hresponse
  have hactive : answered.connection.activeTurnId.isSome := by
    have hplace : answered.place ≠ waiting.place := by
      rw [hwaiting, hanswered]
      exact nofun
    rcases hcases with ⟨-, -, -, hstays⟩ | ⟨-, -, -, hstays⟩ | ⟨-, hactive⟩
    · exact absurd (hstays _ _ _ hwaiting) hplace
    · exact absurd (hstays _ _ _ hwaiting) hplace
    · exact hactive
  exact handled_iff hnext hanswered rfl hactive (hsmoothAfter answered hresponse) hafter

namespace Sample

def message : OperatorMessage := ⟨"message-1", "Fix the parser."⟩

/-- The request to start a turn has been sent. -/
def startingConversation : Conversation where
  store := store .implementing
  connection := {
    session, activeTurnId := none, executionJobId, decoder := ⟨{.number 4}, ∅⟩
    nextRequestId := 5, clientMessageIds := {message.id}, interruptSent := false }
  place := .starting (.number 4) "thread-1" message
  completions := []
  asked := none

def turnMessage (status : String) : Json :=
  .obj [("method", .str "turn/completed"), ("params", .obj [("threadId", .str "thread-1"),
    ("turn", .obj [("id", .str "turn-1"), ("status", .str status)])])]

/-- The end of the turn, as a line of the server. -/
def turnLine (length : Nat) (status : String) : ServerLine := ⟨length, .ok (turnMessage status)⟩

def completedLine : ConversationEvent := .line ambient draws (turnLine 104 "completed")

/-- The response to the request. -/
def startedLine : ConversationEvent :=
  .line ambient draws ⟨42, .ok (.obj [("id", .int 4),
    ("result", .obj [("turn", .obj [("id", .str "turn-1")])])])⟩

def conversationEnd (events : List ConversationEvent) : Conversation :=
  (run conversationStep startingConversation events).getD startingConversation

instance (state : Conversation) (events : List ConversationEvent) :
    Decidable (EveryStep conversationStep Conversation.Smooth state events) :=
  decidableEveryStep conversationStep Conversation.Smooth state events

/-- Both lines are handled, and the turn and the task stand like this. -/
def EndsWith (events : List ConversationEvent) (turnId : Option String) (state : TaskState) : Prop :=
  (run conversationStep startingConversation events).isSome ∧
    EveryStep conversationStep Conversation.Smooth startingConversation events ∧
    (conversationEnd events).place = .idle ∧
    (conversationEnd events).connection.activeTurnId = turnId ∧
    ((conversationEnd events).store.loadTask taskId).map Task.state = some state

instance (events : List ConversationEvent) (turnId : Option String) (state : TaskState) :
    Decidable (EndsWith events turnId state) :=
  inferInstanceAs (Decidable (_ ∧ _ ∧ _ ∧ _ ∧ _))

end Sample

open Sample

theorem turn_samples :
    EndsWith [completedLine, startedLine] (some "turn-1") .implementing ∧
      EndsWith [startedLine, completedLine] none .verifying ∧
      EndsWith [startedLine] (some "turn-1") .implementing := by
  decide

/-- A completion before the response is dropped, and refused when it is repeated:
the turn stays active and the task in implementing. -/
theorem earlyCompletion_lost :
    (turnLine 104 "completed").completedTurn? = some ("thread-1", "turn-1") ∧
      run conversationStep startingConversation [completedLine, startedLine] =
        some (conversationEnd [completedLine, startedLine]) ∧
      EveryStep conversationStep Conversation.Smooth startingConversation
        [completedLine, startedLine] ∧
      (conversationEnd [completedLine, startedLine]).connection.activeTurnId = some "turn-1" ∧
      ¬ Conversation.Handled startingConversation (conversationEnd [completedLine, startedLine]) ∧
      ¬ (conversationEnd [completedLine, startedLine]).Smooth completedLine := by
  obtain ⟨hrun, hsmooth, -, hactive, -⟩ := turn_samples.1
  refine ⟨by decide, eq_some_getD hrun _, hsmooth, hactive, ?_, by decide⟩
  rintro ⟨hended, -⟩
  rw [hactive] at hended
  cases hended

/-- A completion after the response is handled. -/
theorem lateCompletion_handled :
    Conversation.Handled startingConversation (conversationEnd [startedLine, completedLine]) := by
  obtain ⟨hrun, hsmooth, -, -, -⟩ := turn_samples.2.1
  obtain ⟨hanswered, -, hidle, hactive, -⟩ := turn_samples.2.2
  have hresponse : conversationStep startingConversation startedLine =
      some (conversationEnd [startedLine]) := by
    obtain ⟨next, hstep, hnext⟩ := run_cons_eq_some.1 (eq_some_getD hanswered startingConversation)
    rw [run_nil] at hnext
    exact hstep.trans hnext
  have hafter : run conversationStep (conversationEnd [startedLine]) [completedLine] =
      some (conversationEnd [startedLine, completedLine]) := by
    obtain ⟨next, hstep, hnext⟩ := run_cons_eq_some.1 (eq_some_getD hrun startingConversation)
    cases hresponse.symm.trans hstep
    exact hnext
  refine (turn_handled_iff (by decide) ⟨task .implementing, rfl, rfl⟩ (run_nil _ _) rfl hresponse
    hidle hafter hsmooth).mpr ⟨completedLine, List.mem_singleton_self _, ?_⟩
  rw [hactive]
  exact ⟨turnMessage "completed", rfl, _, rfl, rfl, rfl, rfl⟩

end Patchwright
