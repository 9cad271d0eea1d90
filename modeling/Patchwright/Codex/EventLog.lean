import Patchwright.Codex.Connection
import Patchwright.Library.NumberedLog
import Patchwright.Library.Runs

/-!
# The event log of a session

Events are appended for copies of a session that their callers hold, fresh or
stale, and read page by page.  The number of an event comes from the table and
not from the copy, so the events of a task are numbered from one on whatever
the callers hold, and a reader that goes on from the last number it saw reads
the log as it was committed.
-/

namespace Patchwright

open Checked Runs NumberedLog

def maxEventPage : Nat := 500

def CodexServiceError.invalidEventLimit : CodexServiceError := .service "event page limit is invalid"

namespace EventStore

/-- The events of a task, in the order of their commits. -/
def codexLog (store : EventStore) (taskId : TaskId) : List CodexEventRecord :=
  store.codexEvents.filter fun event => event.taskId = taskId

/-- The events of a task after a number. -/
def codexEventsAfter (store : EventStore) (taskId : TaskId) (after : Nat) :
    List CodexEventRecord :=
  (store.codexEvents.filter fun event => event.taskId = taskId ∧ after < event.sequence).mergeSort
    fun first second => first.sequence ≤ second.sequence

/-- A page of the events of a task. -/
def codexEventPage (store : EventStore) (taskId : TaskId) (after limit : Nat) :
    Except CodexServiceError (List CodexEventRecord) := do
  ensure (limit ≠ 0 ∧ limit ≤ maxEventPage) .invalidEventLimit
  return (store.codexEventsAfter taskId after).take limit

end EventStore

/-- A client that reads the events of one task. -/
structure EventReader where
  taskId : TaskId
  after : Nat
  received : List CodexEventRecord

/-- The store, the copies of sessions that callers hold, and the readers. -/
structure EventLog where
  store : EventStore
  sessions : Table Nat CodexSessionRecord
  readers : Table Nat EventReader

/-- Nothing is stored and nobody reads. -/
def EventLog.initial : EventLog := ⟨EventStore.empty, ∅, ∅⟩

inductive EventLogOp where
  | hold (caller : Nat) (session : CodexSessionRecord)
  | append (caller : Nat) (draft : CodexEventDraft) (now : DateTime)
  | attach (reader : Nat) (taskId : TaskId)
  | read (reader limit : Nat)
  | other (next : EventStore)

namespace EventLog

/-- One operation.  A caller may take any copy of a session at any time, and
everything else that the engine does leaves the events alone. -/
def step (log : EventLog) : EventLogOp → Option EventLog
  | .hold caller session => some { log with sessions := log.sessions.insert caller session }
  | .append caller draft now =>
      match log.sessions.lookup caller with
      | none => none
      | some session =>
          match log.store.appendCodexEvent session draft now with
          | .ok (store, session) =>
              some { log with store, sessions := log.sessions.insert caller session }
          | .error _ => some log
  | .attach reader taskId =>
      some { log with readers := log.readers.insert reader ⟨taskId, 0, []⟩ }
  | .read reader limit =>
      match log.readers.lookup reader with
      | none => none
      | some client =>
          match log.store.codexEventPage client.taskId client.after limit with
          | .ok page => some { log with
              readers := log.readers.insert reader { client with
                after := cursor CodexEventRecord.sequence client.after page
                received := client.received ++ page } }
          | .error _ => some log
  | .other next =>
      if next.codexEvents = log.store.codexEvents then some { log with store := next } else none

end EventLog

namespace EventStore

/-! ## One append -/

section Append

variable {store next : EventStore} {session copy : CodexSessionRecord} {draft : CodexEventDraft}
variable {now : DateTime}

theorem nextSequence_eq (store : EventStore) (taskId : TaskId) :
    store.nextSequence taskId = greatest CodexEventRecord.sequence (store.codexLog taskId) + 1 :=
  rfl

/-- What an append has written: one event behind the others of its task, and
the copy of the caller with the number of the event. -/
theorem appendCodexEvent_eq_ok
    (happend : store.appendCodexEvent session draft now = .ok (next, copy)) :
    copy.taskId = session.taskId ∧ copy.lastSequence = store.nextSequence session.taskId ∧
      next.codexSession session.taskId = some copy ∧
      ∃ event : CodexEventRecord, event.taskId = session.taskId ∧
        event.sequence = store.nextSequence session.taskId ∧
        next.codexEvents = store.codexEvents ++ [event] := by
  simp only [appendCodexEvent, bind_eq_ok, pure_eq_ok, Prod.mk.injEq] at happend
  obtain ⟨kind, -, summary, -, content, -, -, -, -, -, -, -, rfl, rfl⟩ := happend
  exact ⟨rfl, rfl, AList.lookup_insert _, _, rfl, rfl, rfl⟩

theorem codexLog_append {event : CodexEventRecord}
    (hevents : next.codexEvents = store.codexEvents ++ [event]) (taskId : TaskId) :
    next.codexLog taskId =
      if event.taskId = taskId then store.codexLog taskId ++ [event] else store.codexLog taskId := by
  rw [codexLog, hevents, List.filter_append, List.filter_cons, List.filter_nil]
  by_cases hsame : event.taskId = taskId
  · rw [if_pos hsame, if_pos (decide_eq_true hsame)]
    rfl
  · rw [if_neg hsame, if_neg (by simpa using hsame), List.append_nil]
    rfl

theorem codexEventsAfter_eq (store : EventStore) (taskId : TaskId) (after limit : Nat) :
    (store.codexEventsAfter taskId after).take limit =
      page CodexEventRecord.sequence (store.codexLog taskId) after limit := by
  rw [codexEventsAfter, page, codexLog, List.filter_filter]
  congr 3
  funext event
  rw [Bool.decide_and, Bool.and_comm]

end Append

end EventStore

namespace EventLog

variable {log next : EventLog} {op : EventLogOp}

/-! ## The log and its readers -/

/-- The events of every task are numbered, and every reader has read as many of
them as its position says. -/
structure Gapless (log : EventLog) : Prop where
  numbered : ∀ taskId, Numbered CodexEventRecord.sequence (log.store.codexLog taskId)
  read : ∀ reader client, log.readers.lookup reader = some client →
    client.after ≤ (log.store.codexLog client.taskId).length ∧
      client.received = (log.store.codexLog client.taskId).take client.after

theorem Gapless.initial : Gapless EventLog.initial where
  numbered _ := numbered_nil
  read _ _ hclient := nomatch hclient

/-- What an append does: one that fails changes nothing, and one that succeeds
stores one event, whose number is that of the events of the task. -/
def Appends (log : EventLog) (op : EventLogOp) (next : EventLog) : Prop :=
  ∀ caller draft now session, op = .append caller draft now →
    log.sessions.lookup caller = some session →
    (∀ error, log.store.appendCodexEvent session draft now = .error error → next = log) ∧
      ∀ store copy, log.store.appendCodexEvent session draft now = .ok (store, copy) →
        next.store = store ∧ next.sessions.lookup caller = some copy ∧
          store.codexSession session.taskId = some copy ∧
          copy.lastSequence = (store.codexLog session.taskId).length ∧
          (∃ event : CodexEventRecord, event.sequence = copy.lastSequence ∧
            store.codexLog session.taskId = log.store.codexLog session.taskId ++ [event]) ∧
          ∀ taskId, taskId ≠ session.taskId → store.codexLog taskId = log.store.codexLog taskId

/-- What a read within the limits does: the reader gets as many of the next
events as the limit allows. -/
def Reads (log : EventLog) (op : EventLogOp) (next : EventLog) : Prop :=
  ∀ reader limit client, op = .read reader limit → log.readers.lookup reader = some client →
    1 ≤ limit → limit ≤ maxEventPage →
    ∃ position, position = min (client.after + limit) (log.store.codexLog client.taskId).length ∧
      next.readers.lookup reader = some { client with
        after := position, received := (log.store.codexLog client.taskId).take position }

theorem Gapless.appends (hlog : log.Gapless) (hstep : log.step op = some next) :
    Appends log op next := by
  rintro caller draft now session rfl hsession
  rw [step, hsession] at hstep
  dsimp only at hstep
  constructor
  · intro error herror
    rw [herror] at hstep
    exact (Option.some.inj hstep).symm
  · intro store copy happend
    rw [happend] at hstep
    cases hstep
    obtain ⟨-, hlast, hstored, event, htask, hnumber, hevents⟩ :=
      EventStore.appendCodexEvent_eq_ok happend
    have hown : store.codexLog session.taskId = log.store.codexLog session.taskId ++ [event] := by
      rw [EventStore.codexLog_append hevents, if_pos htask]
    refine ⟨rfl, AList.lookup_insert _, hstored, ?_, ⟨event, hnumber.trans hlast.symm, hown⟩, ?_⟩
    · rw [hlast, hown, List.length_append, EventStore.nextSequence_eq,
        (hlog.numbered _).greatest_eq]
      rfl
    · intro taskId hother
      exact (EventStore.codexLog_append hevents taskId).trans
        (if_neg fun hsame => hother (hsame.symm.trans htask))

theorem codexEventPage_eq (store : EventStore) (taskId : TaskId) (after : Nat) {limit : Nat}
    (hlower : 1 ≤ limit) (hupper : limit ≤ maxEventPage) :
    store.codexEventPage taskId after limit =
      .ok (page CodexEventRecord.sequence (store.codexLog taskId) after limit) := by
  rw [EventStore.codexEventPage, ensure, if_pos ⟨by omega, hupper⟩,
    EventStore.codexEventsAfter_eq]
  rfl

theorem Gapless.reads (hlog : log.Gapless) (hstep : log.step op = some next) :
    Reads log op next := by
  rintro reader limit client rfl hclient hlower hupper
  obtain ⟨hafter, hreceived⟩ := hlog.read reader client hclient
  have hnumbered := hlog.numbered client.taskId
  rw [step, hclient] at hstep
  dsimp only at hstep
  rw [codexEventPage_eq log.store client.taskId client.after hlower hupper] at hstep
  cases hstep
  refine ⟨_, rfl, (AList.lookup_insert _).trans ?_⟩
  rw [hnumbered.cursor_eq hafter, ← hnumbered.take_append_page, hreceived]

/-- Where the events of the tasks stay or grow at the end, the readers are
still right. -/
theorem Gapless.of_grown (hlog : log.Gapless) {store : EventStore}
    (hnumbered : ∀ taskId, Numbered CodexEventRecord.sequence (store.codexLog taskId))
    (hgrown : ∀ taskId, log.store.codexLog taskId <+: store.codexLog taskId)
    (sessions : Table Nat CodexSessionRecord) : Gapless ⟨store, sessions, log.readers⟩ where
  numbered := hnumbered
  read reader client hclient := by
    obtain ⟨hafter, hreceived⟩ := hlog.read reader client hclient
    obtain ⟨more, hmore⟩ := hgrown client.taskId
    dsimp only
    rw [← hmore]
    constructor
    · rw [List.length_append]
      omega
    · rw [List.take_append_of_le_length hafter]
      exact hreceived

theorem Gapless.insertReader (hlog : log.Gapless) {reader : Nat} {client : EventReader}
    (hafter : client.after ≤ (log.store.codexLog client.taskId).length)
    (hreceived : client.received = (log.store.codexLog client.taskId).take client.after) :
    Gapless { log with readers := log.readers.insert reader client } where
  numbered := hlog.numbered
  read other found hfound := by
    change (log.readers.insert reader client).lookup other = some found at hfound
    rw [AList.lookup_insert_eq] at hfound
    split at hfound
    · cases hfound
      exact ⟨hafter, hreceived⟩
    · exact hlog.read other found hfound

theorem Gapless.step (hlog : log.Gapless) (hstep : log.step op = some next) : next.Gapless := by
  cases op with
  | hold caller session =>
      cases hstep
      exact hlog.of_grown hlog.numbered (fun _ => List.prefix_refl _) _
  | append caller draft now =>
      cases hsession : log.sessions.lookup caller with
      | none =>
          rw [EventLog.step, hsession] at hstep
          cases hstep
      | some session =>
          have happends := hlog.appends hstep caller draft now session rfl hsession
          cases happend : log.store.appendCodexEvent session draft now with
          | error error =>
              rw [happends.1 error happend]
              exact hlog
          | ok result =>
              obtain ⟨-, -, -, hlast, ⟨event, hnumber, hown⟩, hother⟩ :=
                happends.2 result.1 result.2 happend
              rw [EventLog.step, hsession] at hstep
              dsimp only at hstep
              rw [happend] at hstep
              cases hstep
              apply hlog.of_grown
              · intro taskId
                by_cases htask : taskId = session.taskId
                · subst htask
                  rw [hown]
                  apply (hlog.numbered _).append
                  rw [hnumber, hlast, hown, List.length_append]
                  rfl
                · rw [hother taskId htask]
                  exact hlog.numbered taskId
              · intro taskId
                by_cases htask : taskId = session.taskId
                · subst htask
                  exact ⟨[event], hown.symm⟩
                · rw [hother taskId htask]
  | attach reader taskId =>
      cases hstep
      exact hlog.insertReader (Nat.zero_le _) rfl
  | read reader limit =>
      cases hclient : log.readers.lookup reader with
      | none =>
          rw [EventLog.step, hclient] at hstep
          cases hstep
      | some client =>
          obtain ⟨hafter, hreceived⟩ := hlog.read reader client hclient
          have hnumbered := hlog.numbered client.taskId
          rw [EventLog.step, hclient] at hstep
          dsimp only at hstep
          by_cases hlimit : limit ≠ 0 ∧ limit ≤ maxEventPage
          · rw [codexEventPage_eq log.store client.taskId client.after
              (Nat.pos_of_ne_zero hlimit.1) hlimit.2] at hstep
            cases hstep
            apply hlog.insertReader
            · dsimp only
              rw [hnumbered.cursor_eq hafter]
              exact min_le_right _ _
            · dsimp only
              rw [hnumbered.cursor_eq hafter, ← hnumbered.take_append_page, hreceived]
          · rw [EventStore.codexEventPage, ensure, if_neg hlimit] at hstep
            cases hstep
            exact hlog
  | other store =>
      rw [EventLog.step] at hstep
      split at hstep
      · next hsame =>
          cases hstep
          have hlogs : ∀ taskId, store.codexLog taskId = log.store.codexLog taskId := by
            intro taskId
            rw [EventStore.codexLog, hsame]
            rfl
          apply hlog.of_grown
          · intro taskId
            rw [hlogs]
            exact hlog.numbered taskId
          · intro taskId
            rw [hlogs]
      · cases hstep

end EventLog

open EventLog

/-- Over every run the events of a task are numbered from one on in the order
of their commits, and a reader has received each of them once up to where it
stands. -/
theorem codex_log_gapless {ops : List EventLogOp} {final : EventLog}
    (hrun : run step EventLog.initial ops = some final) :
    (∀ taskId, (final.store.codexLog taskId).map CodexEventRecord.sequence =
        List.range' 1 (final.store.codexLog taskId).length) ∧
      (∀ reader client, final.readers.lookup reader = some client →
        client.after ≤ (final.store.codexLog client.taskId).length ∧
          client.received = (final.store.codexLog client.taskId).take client.after) ∧
      EveryStep step (fun log op => ∀ next, log.step op = some next →
        Appends log op next ∧ Reads log op next) EventLog.initial ops := by
  have hfinal : final.Gapless :=
    invariant_of_run (fun _ _ _ hlog hstep => hlog.step hstep) hrun .initial
  have hkept : ∀ (log : EventLog) op next, True → log.Gapless → log.step op = some next →
      next.Gapless ∧ Appends log op next ∧ Reads log op next := by
    intro log op next _ hlog hstep
    exact ⟨hlog.step hstep, hlog.appends hstep, hlog.reads hstep⟩
  refine ⟨hfinal.numbered, hfinal.read, everyStep_of_invariant Gapless hkept ?_ .initial⟩
  exact everyStep_of_forall (fun _ _ => trivial) _ ops

namespace Sample

/-- Two callers append for the same copy of a session, and a reader follows
them. -/
def eventLogOps : List EventLogOp := [.hold 0 session, .hold 1 session, .attach 0 taskId,
  .append 0 (.status "turnStarted" "Codex turn started") 1, .read 0 1,
  .append 1 (.status "turnCompleted" "Codex turn completed") 2,
  .append 0 (.status "" "Codex turn completed") 3, .read 0 500]

end Sample

open Sample

theorem codex_log_followed : ∃ final, run step EventLog.initial eventLogOps = some final ∧
    ((final.readers.lookup 0).map EventReader.after) = some 2 ∧
    ∀ reader client, final.readers.lookup reader = some client →
      client.received = (final.store.codexLog client.taskId).take client.after := by
  have hposition : ((run step EventLog.initial eventLogOps).bind fun final =>
      (final.readers.lookup 0).map EventReader.after) = some 2 := by decide +kernel
  obtain ⟨final, hrun, hafter⟩ := Option.bind_eq_some_iff.mp hposition
  exact ⟨final, hrun, hafter, fun reader client hclient =>
    ((codex_log_gapless hrun).2.1 reader client hclient).2⟩

end Patchwright
