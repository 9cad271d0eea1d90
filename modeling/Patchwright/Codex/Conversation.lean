import Patchwright.Codex.Connection
import Patchwright.Codex.Interruption
import Patchwright.Engine.History

/-!
# Conversations with an app-server process

A running process is served by one operation at a time.  Between two steps of
the operation under way the store is free, and the rest of the engine may take
it; a line of the process goes to whichever operation reads next.  Within one
line the store is taken more than once, but what the holds before the last one
write are tables that only this connection writes.  An answer to a permission
request reads and writes neither the task nor the active turn and is left out.

Beside the state of the service a conversation keeps a record of the turns of
which it has received a completion, as a notification with the status completed
that arrived while the turn was active, and of the turn that an interruption has
asked to end.
-/

namespace Patchwright

open Checked Runs
open Protocol (ServerLine RequestId IncomingMessage)

/-- Where the operation under way is. -/
inductive ConversationPlace where
  | idle
  | starting (id : RequestId) (threadId : String) (message : OperatorMessage)
  | steering (id : RequestId) (threadId turnId : String) (message : OperatorMessage)
  | asked (cancel : Bool) (id : RequestId) (threadId turnId : String)
  | ended (cancel completed : Bool)
  | crashing
  | holding (call : CodexCall)
  | closed
  deriving DecidableEq, Repr

structure Conversation where
  store : EventStore
  connection : Connection
  place : ConversationPlace
  completions : List (String × String)
  asked : Option (String × String)

inductive ConversationEvent where
  | startTurn (message : OperatorMessage)
  | steerTurn (message : OperatorMessage)
  | line (ambient : Ambient) (draws : Draws) (line : ServerLine)
  | giveUp
  | interrupt (ambient : Ambient) (cancel : Bool)
  | crash (draws : Draws)
  | load (ambient : Ambient)
  | save (ambient : Ambient) (checkpointId : Uuid)
  | settle (ambient : Ambient)
  | abandon
  | elsewhere (store : EventStore)

/-- The thread and the turn that a notification reports as completed. -/
def Protocol.ServerLine.completedTurn? (line : ServerLine) : Option (String × String) := do
  let raw ← line.value.toOption
  let params ← raw.get? "params"
  let threadId ← stringField params "threadId"
  let turn ← params.get? "turn"
  let turnId ← stringField turn "id"
  if raw.get? "id" |>.isNone then
    if stringField raw "method" = some "turn/completed" ∧
        stringField turn "status" = some "completed" then
      return (threadId, turnId)
    else none
  else none

def Worked.map {α β : Type} (change : α → β) (worked : Worked α) : Worked β :=
  ⟨worked.store, worked.connection, change <$> worked.outcome⟩

namespace Conversation

def taskId (state : Conversation) : TaskId := state.connection.session.taskId

/-- The turn that a line completes, if it is the active one. -/
def newCompletions (state : Conversation) (line : ServerLine) : List (String × String) :=
  line.completedTurn?.toList.filter fun turn =>
    state.connection.session.threadId = some turn.1 ∧ state.connection.activeTurnId = some turn.2

section Lines

variable (ambient : Ambient) (draws : Draws)

/-- A request goes on waiting, or does what follows its response; one that
fails is not waited for any more. -/
def answer (state : Conversation) (id : RequestId) (line : ServerLine)
    (finish : EventStore → Connection → Json → Worked ConversationPlace) :
    Worked ConversationPlace :=
  let worked := requestLine ambient draws state.store state.connection id line
  match worked.outcome with
  | .error error => ⟨worked.store, worked.connection.cancelRequest id, .error error⟩
  | .ok none => ⟨worked.store, worked.connection, .ok state.place⟩
  | .ok (some payload) => finish worked.store worked.connection payload

/-- What the operation that reads a line does with it, and where it gets to. -/
def hear (state : Conversation) (line : ServerLine) : Option (Worked ConversationPlace) :=
  match state.place with
  | .idle =>
      some ((pumpLine ambient draws state.store state.connection line).map fun _ => .idle)
  | .starting id threadId message =>
      some (state.answer ambient draws id line fun store connection payload =>
        (startTurnEnd draws store connection threadId message payload).map fun _ => .idle)
  | .steering id threadId turnId message =>
      some (state.answer ambient draws id line fun store connection payload =>
        (steerTurnEnd draws store connection threadId turnId message payload).map fun _ => .idle)
  | .asked cancel id _ _ =>
      some (state.answer ambient draws id line fun store connection _ =>
        ⟨store, connection, .ok (.ended cancel connection.activeTurnId.isNone)⟩)
  | _ => none

end Lines

/-- Where an operation gets to whose request has failed. -/
def afterFailure : ConversationPlace → ConversationPlace
  | .asked cancel _ _ _ => .ended cancel false
  | _ => .idle

/-- Begin an operation whose request waits. -/
def beginWaiting {α : Type} (state : Conversation) (begun : Connection × Except CodexServiceError α)
    (waiting : α → ConversationPlace) : Conversation :=
  { state with
    connection := begun.1
    place := match begun.2 with
      | .error _ => .idle
      | .ok begun => waiting begun }

/-- Go on with a stored task, or be over. -/
def goOn (state : Conversation) (held : Except String (EventStore × ConversationPlace)) :
    Conversation :=
  match held with
  | .error _ => { state with place := .closed }
  | .ok (store, place) => { state with store, place }

end Conversation

open Conversation

/-- One step of a conversation.  The rest of the engine leaves the job of the
process alone, stores tasks under their own identifiers and removes nothing from
the history of the task. -/
def conversationStep (state : Conversation) : ConversationEvent → Option Conversation
  | .startTurn message =>
      if state.place = .idle then
        some (state.beginWaiting (startTurnBegin state.connection message) fun (id, threadId) =>
          .starting id threadId message)
      else none
  | .steerTurn message =>
      if state.place = .idle then
        some (state.beginWaiting (steerTurnBegin state.connection message) fun (id, threadId, turnId) =>
          .steering id threadId turnId message)
      else none
  | .line ambient draws line =>
      (state.hear ambient draws line).map fun worked => { state with
        store := worked.store
        connection := worked.connection
        place := worked.outcome.toOption.getD (afterFailure state.place)
        completions := state.completions ++ state.newCompletions line }
  | .giveUp =>
      match state.place with
      | .starting id _ _ | .steering id _ _ _ | .asked _ id _ _ =>
          some { state with
            connection := state.connection.cancelRequest id
            place := afterFailure state.place }
      | _ => none
  | .interrupt ambient cancel =>
      if state.place = .idle then
        match interruptBegin ambient state.store state.connection.executionJobId cancel with
        | .error _ => some { state with place := .closed }
        | .ok store =>
            match askInterrupt state.connection with
            | (connection, none) =>
                some { state with store, connection, place := .ended cancel false }
            | (connection, some (id, threadId, turnId)) =>
                some { state with
                  store, connection
                  place := .asked cancel id threadId turnId
                  asked := some (threadId, turnId) }
      else none
  | .crash draws =>
      if state.place = .idle then
        let failed := { state.connection with
          session := { state.connection.session with status := .failed } }
        let worked := appendEvent draws state.store failed
          (.status "error" "Codex app-server exited unexpectedly")
        some { state with
          store := worked.store
          connection := worked.connection
          place := if worked.outcome.isOk then .crashing else .closed }
      else none
  | .load ambient =>
      match state.place with
      | .ended cancel completed =>
          some (state.goOn ((fun call => (state.store, .holding call)) <$>
            interruptLoad ambient state.store state.taskId cancel completed
              state.connection.executionJobId))
      | .crashing =>
          some (state.goOn ((fun call => (state.store, .holding call)) <$>
            crashLoad ambient state.store state.taskId state.connection.executionJobId))
      | _ => none
  | .save ambient checkpointId =>
      match state.place with
      | .holding (.stopped copy cancel jobId) =>
          some (state.goOn ((fun store => (store, .holding (.stopSaved cancel jobId))) <$>
            saveInterrupted ambient state.store copy (stopSummary cancel) checkpointId))
      | .holding (.crashed copy jobId) =>
          some (state.goOn ((fun store => (store, .holding (.crashSaved jobId))) <$>
            saveInterrupted ambient state.store copy "Codex app-server crash recorded"
              checkpointId))
      | _ => none
  | .settle ambient =>
      match state.place with
      | .holding (.stopSaved cancel jobId) =>
          some { state with
            store := interruptEnd ambient state.store jobId .cancelled (stopSummary cancel)
            place := .closed }
      | .holding (.turnFinished jobId) =>
          some { state with
            store := interruptEnd ambient state.store jobId .succeeded
              "Codex turn completed during cancellation"
            place := .closed }
      | .holding (.crashSaved jobId) =>
          some { state with store := crashEnd ambient state.store jobId, place := .closed }
      | _ => none
  | .abandon => if state.place = .idle then none else some { state with place := .closed }
  | .elsewhere store =>
      if store.job state.connection.executionJobId =
          state.store.job state.connection.executionJobId ∧ store.TasksKeyed ∧
          state.store.timeline state.taskId <+: store.timeline state.taskId then
        some { state with store }
      else none

/-! ### What a line does -/

/-- Between two stores only records of a connection were written. -/
structure EventStore.RecordsOnly (store next : EventStore) : Prop where
  tasks : next.tasks = store.tasks
  taskEvents : next.taskEvents = store.taskEvents
  jobs : next.jobs = store.jobs

/-- The connection serves the same thread of the same task. -/
structure ActiveCodex.SameThread (active next : ActiveCodex) : Prop where
  threadId : next.session.threadId = active.session.threadId
  taskId : next.session.taskId = active.session.taskId
  executionJobId : next.executionJobId = active.executionJobId

/-- The connection works on the same turn as well. -/
structure ActiveCodex.SameTurn (active next : ActiveCodex) : Prop
    extends active.SameThread next where
  activeTurnId : next.activeTurnId = active.activeTurnId

namespace ActiveCodex

variable {first second third : ActiveCodex}

theorem SameThread.trans (hfirst : first.SameThread second) (hsecond : second.SameThread third) :
    first.SameThread third :=
  ⟨hsecond.threadId.trans hfirst.threadId, hsecond.taskId.trans hfirst.taskId,
    hsecond.executionJobId.trans hfirst.executionJobId⟩

theorem SameTurn.trans (hfirst : first.SameTurn second) (hsecond : second.SameTurn third) :
    first.SameTurn third :=
  ⟨hfirst.toSameThread.trans hsecond.toSameThread,
    hsecond.activeTurnId.trans hfirst.activeTurnId⟩

end ActiveCodex

/-- The message is the end of this turn, as the service reads it. -/
def CompletesTurn (raw : Json) (threadId turnId : Option String) : Prop :=
  ∃ params, stringField raw "method" = some "turn/completed" ∧ raw.get? "params" = some params ∧
    messageThreadId params = threadId ∧ messageTurnId params = turnId

/-- The line holds such a message. -/
def Protocol.ServerLine.Completes (line : ServerLine) (threadId turnId : Option String) : Prop :=
  ∃ raw, line.value = .ok raw ∧ CompletesTurn raw threadId turnId

section Outcomes

variable {α β : Type}

/-- Some work only recorded what it read. -/
structure Worked.Recorded (store : EventStore) (active : ActiveCodex) (worked : Worked α) :
    Prop where
  store : store.RecordsOnly worked.store
  turn : active.SameTurn worked.connection.toActiveCodex

/-- Some work ended the active turn and submitted its task, or failed at that. -/
structure Worked.Submitted (ambient : Ambient) (draws : Draws) (store : EventStore)
    (active : ActiveCodex) (worked : Worked α) : Prop where
  thread : active.SameThread worked.connection.toActiveCodex
  ended : worked.connection.activeTurnId = none
  store : ∃ recorded, store.RecordsOnly recorded ∧
    ((worked.store = recorded ∧ ¬ worked.outcome.isOk) ∨
      ∃ submitted, completeTurn ambient recorded active.session.taskId draws.checkpointId =
        .ok submitted ∧ submitted.RecordsOnly worked.store)

/-- Some work has read a line of the process. -/
def Worked.Read (ambient : Ambient) (draws : Draws) (store : EventStore) (active : ActiveCodex)
    (line : ServerLine) (worked : Worked α) : Prop :=
  (worked.Recorded store active ∧
      (line.Completes active.session.threadId active.activeTurnId → ¬ worked.outcome.isOk)) ∨
    (line.Completes active.session.threadId active.activeTurnId ∧
      worked.Submitted ambient draws store active)

variable {ambient : Ambient} {draws : Draws} {store : EventStore} {active : ActiveCodex}
variable {line : ServerLine}

theorem Worked.map_isOk (worked : Worked α) (change : α → β) :
    (worked.map change).outcome.isOk = worked.outcome.isOk := by
  rw [Worked.map]
  cases worked.outcome <;> rfl

theorem Worked.Recorded.map {worked : Worked α} (hrecorded : worked.Recorded store active)
    (change : α → β) : (worked.map change).Recorded store active :=
  ⟨hrecorded.store, hrecorded.turn⟩

theorem Worked.Read.map {worked : Worked α} (hread : worked.Read ambient draws store active line)
    (change : α → β) : (worked.map change).Read ambient draws store active line := by
  rcases hread with ⟨hrecorded, hfails⟩ | ⟨hcompletes, hsubmitted⟩
  · refine .inl ⟨hrecorded.map change, ?_⟩
    rw [Worked.map_isOk]
    exact hfails
  · refine .inr ⟨hcompletes, hsubmitted.thread, hsubmitted.ended, ?_⟩
    rw [Worked.map_isOk]
    exact hsubmitted.store

end Outcomes

namespace EventStore.RecordsOnly

variable {first second third : EventStore}

theorem refl (store : EventStore) : store.RecordsOnly store := ⟨rfl, rfl, rfl⟩

theorem trans (hfirst : first.RecordsOnly second) (hsecond : second.RecordsOnly third) :
    first.RecordsOnly third :=
  ⟨hsecond.tasks.trans hfirst.tasks, hsecond.taskEvents.trans hfirst.taskEvents,
    hsecond.jobs.trans hfirst.jobs⟩

theorem wrote (hrecords : first.RecordsOnly second) (id : TaskId) : Wrote first second id [] :=
  .of_eq hrecords.tasks hrecords.taskEvents id

end EventStore.RecordsOnly

section Lines

variable {ambient : Ambient} {draws : Draws} {store : EventStore} {connection : Connection}
variable {raw : Json} {message : IncomingMessage} {draft : CodexEventDraft} {line : ServerLine}

theorem appendCodexEvent_recordsOnly {session next : CodexSessionRecord} {stored : EventStore}
    {now : DateTime} (hstored : store.appendCodexEvent session draft now = .ok (stored, next)) :
    store.RecordsOnly stored ∧ next.threadId = session.threadId ∧
      next.taskId = session.taskId := by
  simp only [EventStore.appendCodexEvent, bind_eq_ok, pure_eq_ok, Prod.mk.injEq] at hstored
  rcases hstored with ⟨kind, -, summary, -, content, -, _, -, _, -, _, -, rfl, rfl⟩
  exact ⟨⟨rfl, rfl, rfl⟩, rfl, rfl⟩

theorem appendEvent_recordsOnly (draws : Draws) (store : EventStore) (connection : Connection)
    (draft : CodexEventDraft) :
    store.RecordsOnly (appendEvent draws store connection draft).store ∧
      connection.SameTurn (appendEvent draws store connection draft).connection.toActiveCodex := by
  unfold appendEvent
  split
  · exact ⟨.refl store, ⟨⟨rfl, rfl, rfl⟩, rfl⟩⟩
  · next stored session hstored =>
      rcases appendCodexEvent_recordsOnly hstored with ⟨hrecords, hthread, htask⟩
      exact ⟨hrecords, ⟨⟨hthread, htask, rfl⟩, rfl⟩⟩

theorem persistApproval_recordsOnly (draws : Draws) (store : EventStore) (connection : Connection)
    (message : IncomingMessage) :
    store.RecordsOnly (persistApproval draws store connection message).store ∧
      (persistApproval draws store connection message).connection = connection := by
  unfold persistApproval
  split
  · split <;> exact ⟨⟨rfl, rfl, rfl⟩, rfl⟩
  · exact ⟨.refl store, rfl⟩

/-- Only messages of one method end turns. -/
theorem eventContent_completed_iff {method : String} {params : Json} {kind summary : String}
    {content : Option String} (hcontent : eventContent method params = some (kind, summary, content)) :
    kind = "turnCompleted" ↔ method = "turn/completed" := by
  unfold eventContent at hcontent
  split at hcontent
  all_goals
    simp only [Option.map_eq_some_iff, Option.some.injEq, Prod.mk.injEq, reduceCtorEq] at hcontent
  case h_6 =>
    rcases hcontent with ⟨item, -, rfl, -⟩
    decide
  case h_7 =>
    rcases hcontent with ⟨item, -, rfl, -⟩
    decide
  all_goals
    rcases hcontent with ⟨rfl, -⟩
    decide

theorem normalizeEvent_takes_iff (active : ActiveCodex) (hdraft : normalizeEvent raw = some draft) :
    (draft.completed ∧ active.worksOn draft.threadId draft.turnId) ↔
      CompletesTurn raw active.session.threadId active.activeTurnId := by
  obtain ⟨method, hmethod, hrest⟩ := Option.bind_eq_some_iff.mp hdraft
  obtain ⟨params, hparams, hrest⟩ := Option.bind_eq_some_iff.mp hrest
  obtain ⟨⟨kind, summary, content⟩, hcontent, hdraft⟩ := Option.bind_eq_some_iff.mp hrest
  cases hdraft
  simp only [CodexEventDraft.completed, ActiveCodex.worksOn, decide_eq_true_iff, CompletesTurn,
    eventContent_completed_iff hcontent, hmethod, hparams, Option.some.injEq, exists_and_left,
    exists_eq_left']

/-- A message that is not kept ends no turn. -/
theorem not_completesTurn_of_none (hnone : normalizeEvent raw = none)
    (threadId turnId : Option String) : ¬ CompletesTurn raw threadId turnId := by
  rintro ⟨params, hmethod, hparams, -, -⟩
  rw [normalizeEvent, hmethod, hparams] at hnone
  cases hnone

theorem persistCompletion_submitted {recorded : EventStore} {session : CodexSessionRecord}
    (hrecords : store.RecordsOnly recorded) (hthread : session.threadId = connection.session.threadId)
    (htask : session.taskId = connection.session.taskId) :
    (persistCompletion ambient draws recorded { connection with session } message).Submitted ambient
      draws store connection.toActiveCodex := by
  unfold persistCompletion
  dsimp only
  rw [htask]
  split
  next error herror => exact ⟨⟨hthread, htask, rfl⟩, rfl, recorded, hrecords, .inl ⟨rfl, nofun⟩⟩
  next submitted hsubmitted =>
    have happroval := persistApproval_recordsOnly draws submitted
      { connection with session, activeTurnId := none } message
    refine ⟨?_, ?_, recorded, hrecords, .inr ⟨submitted, hsubmitted, happroval.1⟩⟩
    · rw [happroval.2]
      exact ⟨hthread, htask, rfl⟩
    · rw [happroval.2]

/-- A message that ends the active turn submits its task, unless its event is
refused; any other message is only recorded. -/
theorem persistIncoming_cases (hmessage : ∀ response, message ≠ .response response) :
    ((persistIncoming ambient draws store connection raw message).Recorded store
          connection.toActiveCodex ∧
        (CompletesTurn raw connection.session.threadId connection.activeTurnId →
          ¬ (persistIncoming ambient draws store connection raw message).outcome.isOk)) ∨
      (CompletesTurn raw connection.session.threadId connection.activeTurnId ∧
        (persistIncoming ambient draws store connection raw message).Submitted ambient draws store
          connection.toActiveCodex) := by
  have hsame : connection.SameTurn connection.toActiveCodex := ⟨⟨rfl, rfl, rfl⟩, rfl⟩
  cases hdraft : normalizeEvent raw with
  | none =>
      have hpersist : persistIncoming ambient draws store connection raw message =
          persistApproval draws store connection message := by
        unfold persistIncoming
        rw [hdraft]
        cases message with
        | response response => exact absurd rfl (hmessage response)
        | serverRequest request => rfl
        | event event => rfl
      have happroval := persistApproval_recordsOnly draws store connection message
      rw [hpersist]
      exact .inl ⟨⟨happroval.1, happroval.2.symm ▸ hsame⟩,
        fun hcompletes => absurd hcompletes (not_completesTurn_of_none hdraft _ _)⟩
  | some draft =>
      rw [persistIncoming_draft hmessage hdraft, ← normalizeEvent_takes_iff connection.toActiveCodex
        hdraft]
      by_cases hcompleted : draft.completed
      · by_cases hworks : connection.worksOn draft.threadId draft.turnId
        · rw [if_neg fun hboth => hboth.2 hworks]
          cases hstored : store.appendCodexEvent connection.session draft draws.now with
          | error error => exact .inl ⟨⟨.refl store, hsame⟩, fun _ => nofun⟩
          | ok stored =>
              rcases stored with ⟨stored, session⟩
              rcases appendCodexEvent_recordsOnly hstored with ⟨hrecords, hthread, htask⟩
              dsimp only
              rw [if_pos hcompleted]
              exact .inr ⟨⟨hcompleted, hworks⟩,
                persistCompletion_submitted hrecords hthread htask⟩
        · rw [if_pos ⟨hcompleted, hworks⟩]
          exact .inl ⟨⟨.refl store, hsame⟩, fun hboth => absurd hboth.2 hworks⟩
      · rw [if_neg fun hboth => hcompleted hboth.1]
        refine .inl ⟨?_, fun hboth => absurd hboth.1 hcompleted⟩
        cases hstored : store.appendCodexEvent connection.session draft draws.now with
        | error error => exact ⟨.refl store, hsame⟩
        | ok stored =>
            rcases stored with ⟨stored, session⟩
            rcases appendCodexEvent_recordsOnly hstored with ⟨hrecords, hthread, htask⟩
            have happroval := persistApproval_recordsOnly draws stored
              { connection with session } message
            dsimp only
            rw [if_neg hcompleted]
            exact ⟨hrecords.trans happroval.1, happroval.2.symm ▸ ⟨⟨hthread, htask, rfl⟩, rfl⟩⟩

theorem Protocol.ServerLine.completes_iff (hvalue : line.value = .ok raw)
    (threadId turnId : Option String) :
    line.Completes threadId turnId ↔ CompletesTurn raw threadId turnId := by
  constructor
  · rintro ⟨_, hagain, hcompletes⟩
    cases hvalue.symm.trans hagain
    exact hcompletes
  · exact fun hcompletes => ⟨raw, hvalue, hcompletes⟩

/-- A line that fails to be received is only dropped. -/
theorem read_of_receive_error {α : Type} {received : Connection} {error : CodexServiceError}
    (hreceived : connection.receive line = (received, .error error)) :
    Worked.Read ambient draws store connection.toActiveCodex line
      (⟨store, received, .error error⟩ : Worked α) := by
  have hactive := receive_active connection line
  rw [hreceived] at hactive
  refine .inl ⟨⟨.refl store, ?_⟩, fun _ => nofun⟩
  dsimp only at hactive ⊢
  rw [hactive]
  exact ⟨⟨rfl, rfl, rfl⟩, rfl⟩

theorem pumpLine_read (ambient : Ambient) (draws : Draws) (store : EventStore)
    (connection : Connection) (line : ServerLine) :
    (pumpLine ambient draws store connection line).Read ambient draws store
      connection.toActiveCodex line := by
  have hactive := receive_active connection line
  unfold pumpLine
  split
  next received error hreceived => exact read_of_receive_error hreceived
  next received raw message hreceived =>
    rw [hreceived] at hactive
    dsimp only at hactive
    rcases receive_eq_ok hreceived with ⟨hvalue, decoder, -, hdecode⟩
    rw [← hactive, Worked.Read, line.completes_iff hvalue]
    cases message with
    | response response =>
        refine .inl ⟨⟨.refl store, ⟨⟨rfl, rfl, rfl⟩, rfl⟩⟩, ?_⟩
        rintro ⟨params, hmethod, -⟩
        rw [decodeObject_response hdecode] at hmethod
        cases hmethod
    | serverRequest request => exact persistIncoming_cases fun _ => nofun
    | event event => exact persistIncoming_cases fun _ => nofun

theorem requestLine_read (ambient : Ambient) (draws : Draws) (store : EventStore)
    (connection : Connection) (id : RequestId) (line : ServerLine) :
    (requestLine ambient draws store connection id line).Read ambient draws store
        connection.toActiveCodex line ∧
      (∀ payload, (requestLine ambient draws store connection id line).outcome =
          .ok (some payload) →
        (requestLine ambient draws store connection id line).Recorded store
            connection.toActiveCodex ∧
          ¬ line.Completes connection.session.threadId connection.activeTurnId) := by
  have hactive := receive_active connection line
  unfold requestLine
  split
  next received error hreceived =>
    exact ⟨read_of_receive_error hreceived, nofun⟩
  next received raw response hreceived =>
    rw [hreceived] at hactive
    dsimp only at hactive
    rcases receive_eq_ok hreceived with ⟨hvalue, decoder, -, hdecode⟩
    have hnot : ¬ line.Completes connection.session.threadId connection.activeTurnId := by
      rw [line.completes_iff hvalue]
      rintro ⟨params, hmethod, -⟩
      rw [decodeObject_response hdecode] at hmethod
      cases hmethod
    have hrecorded : connection.SameTurn received.toActiveCodex := by
      rw [hactive]
      exact ⟨⟨rfl, rfl, rfl⟩, rfl⟩
    exact ⟨.inl ⟨⟨.refl store, hrecorded⟩, fun hcompletes => absurd hcompletes hnot⟩,
      fun _ _ => ⟨⟨.refl store, hrecorded⟩, hnot⟩⟩
  next received raw message hother hreceived =>
    rw [hreceived] at hactive
    dsimp only at hactive
    rcases receive_eq_ok hreceived with ⟨hvalue, decoder, -, hdecode⟩
    constructor
    · have hread : (persistIncoming ambient draws store received raw message).Read ambient draws
          store received.toActiveCodex line := by
        rw [Worked.Read, line.completes_iff hvalue]
        exact persistIncoming_cases hother
      rw [← hactive]
      exact hread.map _
    · intro payload hpayload
      dsimp only at hpayload
      rw [map_eq_ok] at hpayload
      rcases hpayload with ⟨_, -, hnone⟩
      cases hnone

end Lines

section Hearing

variable {ambient : Ambient} {draws : Draws} {state : Conversation} {line : ServerLine}
variable {worked : Worked ConversationPlace}

/-- The operation reads on, or goes on with what follows its response. -/
theorem answer_cases (ambient : Ambient) (draws : Draws) (state : Conversation) (id : RequestId)
    (line : ServerLine) (finish : EventStore → Connection → Json → Worked ConversationPlace) :
    ((state.answer ambient draws id line finish).Read ambient draws state.store
          state.connection.toActiveCodex line ∧
        ∀ place, (state.answer ambient draws id line finish).outcome = .ok place →
          place = state.place) ∨
      ∃ next connection payload, state.store.RecordsOnly next ∧
        state.connection.SameTurn connection.toActiveCodex ∧
        ¬ line.Completes state.connection.session.threadId state.connection.activeTurnId ∧
        state.answer ambient draws id line finish = finish next connection payload := by
  obtain ⟨hread, hresponse⟩ := requestLine_read ambient draws state.store state.connection id line
  unfold Conversation.answer
  generalize requestLine ambient draws state.store state.connection id line = requested at *
  dsimp only
  split
  next error herror =>
    have hplace : ∀ place, Except.error (α := ConversationPlace) error = .ok place →
        place = state.place := fun place hsame => by cases hsame
    rcases hread with ⟨hrecorded, -⟩ | ⟨hcompletes, hsubmitted⟩
    · exact .inl ⟨.inl ⟨⟨hrecorded.store, hrecorded.turn⟩, fun _ => nofun⟩, hplace⟩
    · refine .inl ⟨.inr ⟨hcompletes, hsubmitted.thread, hsubmitted.ended, ?_⟩, hplace⟩
      have hstore := hsubmitted.store
      rw [herror] at hstore
      exact hstore
  next hnone =>
    have hplace : ∀ place, Except.ok (ε := CodexServiceError) state.place = .ok place →
        place = state.place := fun place hsame => (Except.ok.inj hsame).symm
    rcases hread with ⟨hrecorded, hfails⟩ | ⟨hcompletes, hsubmitted⟩
    · refine .inl ⟨.inl ⟨⟨hrecorded.store, hrecorded.turn⟩, fun hcompletes => ?_⟩, hplace⟩
      rw [hnone] at hfails
      exact absurd rfl (hfails hcompletes)
    · refine .inl ⟨.inr ⟨hcompletes, hsubmitted.thread, hsubmitted.ended, ?_⟩, hplace⟩
      have hstore := hsubmitted.store
      rw [hnone] at hstore
      exact hstore
  next payload hpayload =>
    rcases hresponse payload hpayload with ⟨hrecorded, hnot⟩
    exact .inr ⟨_, _, payload, hrecorded.store, hrecorded.turn, hnot, rfl⟩

/-- What follows the response to `turn/start` makes a turn active, or fails. -/
theorem startTurnEnd_cases (draws : Draws) (store : EventStore) (connection : Connection)
    (threadId : String) (message : OperatorMessage) (payload : Json) :
    ((startTurnEnd draws store connection threadId message payload).Recorded store
          connection.toActiveCodex ∧
        ¬ (startTurnEnd draws store connection threadId message payload).outcome.isOk) ∨
      (store.RecordsOnly (startTurnEnd draws store connection threadId message payload).store ∧
        connection.SameThread
          (startTurnEnd draws store connection threadId message payload).connection.toActiveCodex ∧
        (startTurnEnd draws store connection threadId message
          payload).connection.activeTurnId.isSome) := by
  unfold startTurnEnd
  split
  next => exact .inl ⟨⟨.refl store, ⟨⟨rfl, rfl, rfl⟩, rfl⟩⟩, nofun⟩
  next turnId hturnId =>
    have happended := appendEvent_recordsOnly draws store
      { connection with
        activeTurnId := some turnId
        session := { connection.session with lastTurnId := some turnId } }
      (operatorDraft "userMessage" "Operator message sent" threadId turnId message)
    generalize appendEvent draws store _ _ = worked at happended ⊢
    obtain ⟨hrecords, hturn⟩ := happended
    refine .inr ⟨hrecords, ⟨hturn.threadId, hturn.taskId, hturn.executionJobId⟩, ?_⟩
    rw [hturn.activeTurnId]
    rfl

theorem steerTurnEnd_recorded (draws : Draws) (store : EventStore) (connection : Connection)
    (threadId turnId : String) (message : OperatorMessage) (payload : Json) :
    (steerTurnEnd draws store connection threadId turnId message payload).Recorded store
      connection.toActiveCodex := by
  have hsame : connection.SameTurn connection.toActiveCodex := ⟨⟨rfl, rfl, rfl⟩, rfl⟩
  unfold steerTurnEnd
  split
  next => exact ⟨.refl store, hsame⟩
  next answered hanswered =>
    split
    · exact ⟨.refl store, hsame⟩
    · obtain ⟨hrecords, hturn⟩ := appendEvent_recordsOnly draws store connection
        (operatorDraft "userSteer" "Operator steering message sent" threadId turnId message)
      exact ⟨hrecords, hturn⟩

/-- What was recorded after the same turn was recorded before it. -/
theorem Worked.Recorded.after {store next : EventStore} {active : ActiveCodex} {α : Type}
    {connection : Connection} {worked : Worked α}
    (hrecorded : worked.Recorded next connection.toActiveCodex) (hrecords : store.RecordsOnly next)
    (hturn : active.SameTurn connection.toActiveCodex) : worked.Recorded store active :=
  ⟨hrecords.trans hrecorded.store, hturn.trans hrecorded.turn⟩

/-- A line is read, or it is the response that makes a turn active. -/
theorem hear_cases (hheard : state.hear ambient draws line = some worked) :
    (worked.Read ambient draws state.store state.connection.toActiveCodex line ∧
        ∀ id threadId message, state.place = .starting id threadId message →
          ∀ place, worked.outcome = .ok place → place = state.place) ∨
      ((∃ id threadId message, state.place = .starting id threadId message) ∧
        state.store.RecordsOnly worked.store ∧
        state.connection.SameThread worked.connection.toActiveCodex ∧
        ¬ line.Completes state.connection.session.threadId state.connection.activeTurnId ∧
        worked.connection.activeTurnId.isSome) := by
  unfold Conversation.hear at hheard
  split at hheard
  next hplace =>
    rw [Option.some.injEq] at hheard
    rw [← hheard, hplace]
    exact .inl ⟨(pumpLine_read ambient draws state.store state.connection line).map _, nofun⟩
  next id threadId message hplace =>
    rw [Option.some.injEq] at hheard
    rcases answer_cases ambient draws state id line _ with
      ⟨hread, hstays⟩ | ⟨next, connection, payload, hrecords, hturn, hnot, hanswer⟩
    · rw [hheard] at hread hstays
      exact .inl ⟨hread, fun _ _ _ _ => hstays⟩
    · rw [hanswer] at hheard
      subst hheard
      rcases startTurnEnd_cases draws next connection threadId message payload with
        ⟨hrecorded, hfailed⟩ | ⟨hstore, hthread, hactive⟩
      · refine .inl ⟨.inl ⟨(hrecorded.after hrecords hturn).map _,
          fun hcompletes => absurd hcompletes hnot⟩, ?_⟩
        intro _ _ _ _ place hplace
        rw [← Worked.map_isOk _ fun _ => ConversationPlace.idle, hplace] at hfailed
        exact absurd rfl hfailed
      · exact .inr ⟨⟨id, threadId, message, hplace⟩, hrecords.trans hstore,
          hturn.toSameThread.trans hthread, hnot, hactive⟩
  next id threadId turnId message hplace =>
    rw [Option.some.injEq] at hheard
    rw [hplace]
    rcases answer_cases ambient draws state id line _ with
      ⟨hread, -⟩ | ⟨next, connection, payload, hrecords, hturn, hnot, hanswer⟩
    · exact .inl ⟨hheard ▸ hread, nofun⟩
    · rw [hanswer] at hheard
      subst hheard
      have hrecorded := steerTurnEnd_recorded draws next connection threadId turnId message payload
      exact .inl ⟨.inl ⟨(hrecorded.after hrecords hturn).map _,
        fun hcompletes => absurd hcompletes hnot⟩, nofun⟩
  next cancel id threadId turnId hplace =>
    rw [Option.some.injEq] at hheard
    rw [hplace]
    rcases answer_cases ambient draws state id line _ with
      ⟨hread, -⟩ | ⟨next, connection, payload, hrecords, hturn, hnot, hanswer⟩
    · exact .inl ⟨hheard ▸ hread, nofun⟩
    · rw [hanswer] at hheard
      subst hheard
      exact .inl ⟨.inl ⟨⟨hrecords, hturn⟩, fun hcompletes => absurd hcompletes hnot⟩, nofun⟩
  next => cases hheard

end Hearing
end Patchwright
