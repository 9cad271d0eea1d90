import Patchwright.Codex.Content
import Patchwright.Codex.Process
import Patchwright.Library.Runs

/-!
# Approvals that a running turn asks for

The app-server asks for an approval in a request of its own, and the answer is
one line to its process.  The approval is stored as pending under a fresh
identifier; the line is written only while it is pending, and the decision is
stored right after it, so the stored approval tells whether a line was written.
-/

namespace Patchwright

open Checked Runs
open Protocol (ServerLine RequestId IncomingMessage)

namespace CodexServiceError

def processNotActive : CodexServiceError := .service "Codex process is not active for this task"

def approvalNotFound : CodexServiceError := .service "Codex runtime approval was not found"

def approvalInvalid : CodexServiceError :=
  .service "Codex runtime approval is expired or no longer bound to the active turn"

end CodexServiceError

def Protocol.RequestId.toJson : RequestId → Json
  | .number value => .int value
  | .string value => .str value

/-! ## Deciding an approval -/

section Deciding

/-- The clock as one call reads it: to check the approval, to name the reason
of a refusal, and to date the decision. -/
structure ResolveClock where
  checked : DateTime
  judged : DateTime
  decided : DateTime
  deriving DecidableEq, Repr

/-- The line that answers the request of an approval. -/
def decisionLine (approval : CodexRuntimeApproval) (approve : Bool) : Json :=
  .obj [("id", approval.requestId.toJson), ("jsonrpc", .str "2.0"),
    ("result", .obj [("decision", .str (if approve then "accept" else "decline"))])]

/-- Write a line to the process; the pipe may fail. -/
def writeLine (pipe : Except String Unit) (line : String) : Except CodexServiceError Unit := do
  ensure (¬ ('\n' ∈ line.toList ∨ line.utf8ByteSize > maxLineBytes))
    (.service "Codex protocol line is invalid")
  pipe.mapError .service

def resolvedDraft (approval : CodexRuntimeApproval) (approve : Bool) : CodexEventDraft where
  kind := "approvalResolved"
  summary :=
    if approve then "Codex runtime request approved once" else "Codex runtime request declined"
  threadId := some approval.threadId
  turnId := some approval.turnId
  itemId := some approval.itemId
  content := none

/-- The approval can still be decided: it belongs to the process and to its
active turn, and has not expired. -/
def CodexRuntimeApproval.IsLive (approval : CodexRuntimeApproval) (connection : Connection)
    (processGeneration : Uuid) (now : DateTime) : Prop :=
  approval.processGeneration = processGeneration ∧
    connection.session.processGeneration = processGeneration ∧
    connection.activeTurnId = some approval.turnId ∧ now < approval.expiresAt

instance (approval : CodexRuntimeApproval) (connection : Connection) (processGeneration : Uuid)
    (now : DateTime) : Decidable (approval.IsLive connection processGeneration now) :=
  inferInstanceAs (Decidable (_ ∧ _ ∧ _ ∧ _))

/-- An approval that was too late for its turn. -/
def CodexRuntimeApproval.dismissed (approval : CodexRuntimeApproval) (now : DateTime) :
    CodexRuntimeApproval :=
  { approval with state := if now ≥ approval.expiresAt then .expired else .invalidated }

def CodexRuntimeApproval.decided (approval : CodexRuntimeApproval) (approve : Bool)
    (now : DateTime) : CodexRuntimeApproval :=
  { approval with
    state := if approve then .approved else .declined
    decidedAt := some now }

/-- What deciding an approval has left behind, and the line it has written. -/
structure Resolved where
  store : EventStore
  connection : Connection
  written : Option Json
  outcome : Except CodexServiceError CodexRuntimeApproval

/-- Decide an approval for a running process. -/
def resolveApproval (draws : Draws) (clock : ResolveClock) (pipe : Except String Unit)
    (store : EventStore) (connection : Connection) (approvalId processGeneration : Uuid)
    (approve : Bool) : Resolved :=
  match store.codexRuntimeApprovals.lookup approvalId with
  | none => ⟨store, connection, none, .error .approvalNotFound⟩
  | some approval =>
      if approval.state ≠ .pending then ⟨store, connection, none, .ok approval⟩
      else if ¬ approval.IsLive connection processGeneration clock.checked then
        ⟨store.saveCodexRuntimeApproval (approval.dismissed clock.judged), connection, none,
          .error .approvalInvalid⟩
      else
        match writeLine pipe (decisionLine approval approve).compact with
        | .error error => ⟨store, connection, none, .error error⟩
        | .ok () =>
            let decided := approval.decided approve clock.decided
            let appended := appendEvent draws (store.saveCodexRuntimeApproval decided) connection
              (resolvedDraft approval approve)
            ⟨appended.store, appended.connection, some (decisionLine approval approve),
              (fun _ => decided) <$> appended.outcome⟩

end Deciding

/-! ## The service over a run -/

/-- A line that was written to the process of a task to decide an approval. -/
structure CodexDecision where
  approvalId : Uuid
  taskId : TaskId
  line : Json

/-- The store, the running processes, and the decisions written so far, the
latest first. -/
structure CodexRuntime where
  store : EventStore
  active : Table TaskId Connection
  decisions : List CodexDecision

/-- Nothing is stored and no process runs. -/
def CodexRuntime.initial : CodexRuntime := ⟨EventStore.empty, ∅, []⟩

inductive CodexRuntimeOp where
  | launch (connection : Connection)
  | stop (taskId : TaskId)
  | beginTurn (taskId : TaskId) (turnId : String)
  | pump (ambient : Ambient) (draws : Draws) (taskId : TaskId) (line : ServerLine)
  | answer (ambient : Ambient) (draws : Draws) (taskId : TaskId) (expectedId : RequestId)
      (line : ServerLine)
  | resolve (draws : Draws) (clock : ResolveClock) (pipe : Except String Unit) (taskId : TaskId)
      (approvalId processGeneration : Uuid) (approve : Bool)
  | other (next : EventStore)

namespace CodexRuntime

/-- Some work on a process is done, whether it has failed or not. -/
def worked {α : Type} (runtime : CodexRuntime) (taskId : TaskId) (worked : Worked α) :
    CodexRuntime :=
  { runtime with
    store := worked.store
    active := runtime.active.insert taskId worked.connection }

/-- One step of the service.  Every write to the store succeeds, the random
identifier of an approval is not taken, and everything else that the engine
does leaves the approvals alone. -/
def step (runtime : CodexRuntime) : CodexRuntimeOp → Option CodexRuntime
  | .launch connection =>
      some { runtime with active := runtime.active.insert connection.session.taskId connection }
  | .stop taskId => some { runtime with active := runtime.active.erase taskId }
  | .beginTurn taskId turnId =>
      some { runtime with
        active := runtime.active.modify taskId fun connection =>
          { connection with activeTurnId := some turnId } }
  | .pump ambient draws taskId line =>
      match runtime.active.lookup taskId with
      | none => none
      | some connection =>
          if runtime.store.codexRuntimeApprovals.lookup draws.approvalId = none then
            some (runtime.worked taskId (pumpLine ambient draws runtime.store connection line))
          else none
  | .answer ambient draws taskId expectedId line =>
      match runtime.active.lookup taskId with
      | none => none
      | some connection =>
          if runtime.store.codexRuntimeApprovals.lookup draws.approvalId = none then
            some (runtime.worked taskId
              (requestLine ambient draws runtime.store connection expectedId line))
          else none
  | .resolve draws clock pipe taskId approvalId processGeneration approve =>
      match runtime.active.lookup taskId with
      | none => some runtime
      | some connection =>
          let resolved := resolveApproval draws clock pipe runtime.store connection approvalId
            processGeneration approve
          some {
            store := resolved.store
            active := runtime.active.insert taskId resolved.connection
            decisions := (resolved.written.map fun line =>
              { approvalId, taskId, line }).toList ++ runtime.decisions }
  | .other next =>
      if next.codexRuntimeApprovals = runtime.store.codexRuntimeApprovals then
        some { runtime with store := next }
      else none

end CodexRuntime

/-! ## What the operations do to the approvals -/

section Approvals

variable {ambient : Ambient} {draws : Draws} {store : EventStore} {connection : Connection}

/-- The approvals stay, or a pending one is added under the drawn identifier. -/
def EventStore.AsksFor (store next : EventStore) (approvalId : Uuid) : Prop :=
  next.codexRuntimeApprovals = store.codexRuntimeApprovals ∨
    ∃ approval : CodexRuntimeApproval, approval.id = approvalId ∧ approval.state = .pending ∧
      next.codexRuntimeApprovals = store.codexRuntimeApprovals.insert approvalId approval

theorem appendCodexEvent_approvals {next : EventStore} {session copy : CodexSessionRecord}
    {draft : CodexEventDraft} {now : DateTime}
    (happend : store.appendCodexEvent session draft now = .ok (next, copy)) :
    next.codexRuntimeApprovals = store.codexRuntimeApprovals := by
  simp only [EventStore.appendCodexEvent, bind_eq_ok, pure_eq_ok, Prod.mk.injEq] at happend
  obtain ⟨kind, -, summary, -, content, -, -, -, -, -, -, -, rfl, rfl⟩ := happend
  rfl

theorem appendEvent_approvals (draws : Draws) (store : EventStore) (connection : Connection)
    (draft : CodexEventDraft) :
    (appendEvent draws store connection draft).store.codexRuntimeApprovals =
      store.codexRuntimeApprovals := by
  unfold appendEvent
  split
  · rfl
  · next happend => exact appendCodexEvent_approvals happend

theorem saveTaskWithCheckpoint_approvals {next : EventStore} {task : Task} {summary : String}
    {checkpoint : TaskCheckpoint}
    (hsave : store.saveTaskWithCheckpoint task summary checkpoint = .ok next) :
    next.codexRuntimeApprovals = store.codexRuntimeApprovals := by
  simp only [EventStore.saveTaskWithCheckpoint, bind_eq_ok, pure_eq_ok] at hsave
  obtain ⟨-, -, -, -, -, -, rfl⟩ := hsave
  rfl

theorem completeTurn_approvals {next : EventStore} {taskId : TaskId} {checkpointId : Uuid}
    (hcomplete : completeTurn ambient store taskId checkpointId = .ok next) :
    next.codexRuntimeApprovals = store.codexRuntimeApprovals := by
  simp only [completeTurn, bind_eq_ok] at hcomplete
  obtain ⟨task, -, hcomplete⟩ := hcomplete
  split at hcomplete
  · simp only [bind_eq_ok] at hcomplete
    obtain ⟨moved, -, checkpoint, -, hsave⟩ := hcomplete
    exact saveTaskWithCheckpoint_approvals hsave
  · cases hcomplete
    rfl

theorem normalizeApproval_eq_ok {request : Protocol.ServerRequestEnvelope}
    {approval : CodexRuntimeApproval}
    (hnormal : normalizeApproval draws connection request = .ok (some approval)) :
    approval.id = draws.approvalId ∧ approval.state = .pending ∧
      approval.requestId = request.id := by
  unfold normalizeApproval at hnormal
  dsimp only at hnormal
  split at hnormal
  · simp only [bind_eq_ok, pure_eq_ok, Option.some.injEq] at hnormal
    obtain ⟨-, -, -, -, -, -, rfl⟩ := hnormal
    exact ⟨rfl, rfl, rfl⟩
  · simp only [bind_eq_ok, pure_eq_ok, Option.some.injEq] at hnormal
    obtain ⟨-, -, -, -, -, -, rfl⟩ := hnormal
    exact ⟨rfl, rfl, rfl⟩
  · cases hnormal

theorem persistApproval_asksFor (draws : Draws) (store : EventStore) (connection : Connection)
    (message : IncomingMessage) :
    store.AsksFor (persistApproval draws store connection message).store draws.approvalId := by
  unfold persistApproval
  split
  · split
    · exact .inl rfl
    · exact .inl rfl
    · next approval hnormal =>
        obtain ⟨hid, hstate, -⟩ := normalizeApproval_eq_ok hnormal
        exact .inr ⟨approval, hid, hstate, by rw [EventStore.saveCodexRuntimeApproval, hid]⟩
  · exact .inl rfl

theorem EventStore.AsksFor.after {middle next : EventStore} {approvalId : Uuid}
    (hsame : middle.codexRuntimeApprovals = store.codexRuntimeApprovals)
    (hasks : middle.AsksFor next approvalId) : store.AsksFor next approvalId := by
  unfold EventStore.AsksFor at *
  rwa [hsame] at hasks

theorem persistCompletion_asksFor (ambient : Ambient) (draws : Draws) (store : EventStore)
    (connection : Connection) (message : IncomingMessage) :
    store.AsksFor (persistCompletion ambient draws store connection message).store
      draws.approvalId := by
  unfold persistCompletion
  dsimp only
  split
  · exact .inl rfl
  · next hcomplete =>
      exact (persistApproval_asksFor draws _ _ message).after (completeTurn_approvals hcomplete)

theorem persistIncoming_asksFor (ambient : Ambient) (draws : Draws) (store : EventStore)
    (connection : Connection) (raw : Json) (message : IncomingMessage) :
    store.AsksFor (persistIncoming ambient draws store connection raw message).store
      draws.approvalId := by
  unfold persistIncoming
  split
  · exact .inl rfl
  · exact persistApproval_asksFor draws store connection _
  · split
    · exact .inl rfl
    · split
      · exact .inl rfl
      · next happend =>
          have hsame := appendCodexEvent_approvals happend
          dsimp only
          split
          · exact (persistCompletion_asksFor ambient draws _ _ _).after hsame
          · exact (persistApproval_asksFor draws _ _ _).after hsame

theorem pumpLine_asksFor (ambient : Ambient) (draws : Draws) (store : EventStore)
    (connection : Connection) (line : ServerLine) :
    store.AsksFor (pumpLine ambient draws store connection line).store draws.approvalId := by
  unfold pumpLine
  split
  · exact .inl rfl
  · exact persistIncoming_asksFor ambient draws store _ _ _

theorem requestLine_asksFor (ambient : Ambient) (draws : Draws) (store : EventStore)
    (connection : Connection) (expectedId : RequestId) (line : ServerLine) :
    store.AsksFor (requestLine ambient draws store connection expectedId line).store
      draws.approvalId := by
  unfold requestLine
  split
  · exact .inl rfl
  · exact .inl rfl
  · exact persistIncoming_asksFor ambient draws store _ _ _

end Approvals

/-! ## Decisions and the stored approvals -/

/-- The approval was approved or declined. -/
def CodexApprovalState.IsDecided (state : CodexApprovalState) : Prop :=
  state = .approved ∨ state = .declined

instance (state : CodexApprovalState) : Decidable state.IsDecided :=
  inferInstanceAs (Decidable (_ ∨ _))

namespace EventStore

/-- A stored approval was decided. -/
def HasDecided (store : EventStore) (approvalId : Uuid) : Prop :=
  ∃ approval ∈ store.codexRuntimeApprovals.lookup approvalId, approval.state.IsDecided

/-- Every approval is stored under its own identifier. -/
def ApprovalsKeyed (store : EventStore) : Prop :=
  ∀ id approval, store.codexRuntimeApprovals.lookup id = some approval → approval.id = id

section Stored

variable {store next : EventStore} {id other : Uuid} {approval : CodexRuntimeApproval}

theorem hasDecided_congr (hsame : next.codexRuntimeApprovals = store.codexRuntimeApprovals)
    (id : Uuid) : next.HasDecided id ↔ store.HasDecided id := by
  rw [HasDecided, HasDecided, hsame]

theorem ApprovalsKeyed.congr (hkeyed : store.ApprovalsKeyed)
    (hsame : next.codexRuntimeApprovals = store.codexRuntimeApprovals) : next.ApprovalsKeyed := by
  unfold ApprovalsKeyed
  rw [hsame]
  exact hkeyed

theorem hasDecided_insert
    (hinsert : next.codexRuntimeApprovals = store.codexRuntimeApprovals.insert id approval) :
    next.HasDecided other ↔
      if other = id then approval.state.IsDecided else store.HasDecided other := by
  rw [HasDecided, hinsert, AList.lookup_insert_eq]
  split
  · simp
  · rfl

theorem ApprovalsKeyed.insert (hkeyed : store.ApprovalsKeyed)
    (hinsert : next.codexRuntimeApprovals = store.codexRuntimeApprovals.insert id approval)
    (hid : approval.id = id) : next.ApprovalsKeyed := by
  intro key found hfound
  rw [hinsert, AList.lookup_insert_eq] at hfound
  split at hfound
  · next hkey =>
      cases hfound
      exact hid.trans hkey.symm
  · exact hkeyed key found hfound

/-- An undecided approval in the place of an undecided one decides nothing. -/
theorem hasDecided_insert_undecided (hbefore : ¬ store.HasDecided id)
    (hstate : ¬ approval.state.IsDecided)
    (hinsert : next.codexRuntimeApprovals = store.codexRuntimeApprovals.insert id approval)
    (other : Uuid) : next.HasDecided other ↔ store.HasDecided other := by
  rw [hasDecided_insert hinsert]
  split
  · next hsame =>
      rw [hsame]
      exact iff_of_false hstate hbefore
  · rfl

theorem AsksFor.hasDecided (hasks : store.AsksFor next id)
    (hfresh : store.codexRuntimeApprovals.lookup id = none) (other : Uuid) :
    next.HasDecided other ↔ store.HasDecided other := by
  rcases hasks with hsame | ⟨approval, -, hstate, hinsert⟩
  · exact hasDecided_congr hsame other
  · refine hasDecided_insert_undecided ?_ ?_ hinsert other
    · rintro ⟨approval, happroval, -⟩
      rw [hfresh] at happroval
      exact absurd happroval (Option.not_mem_none _)
    · rw [hstate]
      decide

theorem AsksFor.keyed (hasks : store.AsksFor next id) (hkeyed : store.ApprovalsKeyed) :
    next.ApprovalsKeyed := by
  rcases hasks with hsame | ⟨approval, hid, -, hinsert⟩
  · exact hkeyed.congr hsame
  · exact hkeyed.insert hinsert hid

end Stored

end EventStore

/-- What one attempt to decide an approval has done: it has written nothing and
decided nothing, or it has written one line for a live approval that was
pending, and stored the decision. -/
inductive Resolved.Effect (store : EventStore) (connection : Connection) (clock : ResolveClock)
    (approvalId processGeneration : Uuid) (approve : Bool) (resolved : Resolved) : Prop
  | silent (hwritten : resolved.written = none)
      (hdecided : ∀ id, resolved.store.HasDecided id ↔ store.HasDecided id)
  | decided (approval : CodexRuntimeApproval)
      (hlookup : store.codexRuntimeApprovals.lookup approvalId = some approval)
      (hpending : approval.state = .pending)
      (hlive : approval.IsLive connection processGeneration clock.checked)
      (hwritten : resolved.written = some (decisionLine approval approve))
      (hstored : resolved.store.codexRuntimeApprovals = store.codexRuntimeApprovals.insert approvalId
        (approval.decided approve clock.decided))

theorem resolveApproval_effect {store : EventStore} (hkeyed : store.ApprovalsKeyed) (draws : Draws)
    (clock : ResolveClock) (pipe : Except String Unit) (connection : Connection)
    (approvalId processGeneration : Uuid) (approve : Bool) :
    let resolved := resolveApproval draws clock pipe store connection approvalId processGeneration
      approve
    resolved.Effect store connection clock approvalId processGeneration approve ∧
      resolved.store.ApprovalsKeyed := by
  intro resolved
  have hresolved : resolved = resolveApproval draws clock pipe store connection approvalId
    processGeneration approve := rfl
  unfold resolveApproval at hresolved
  split at hresolved
  · rw [hresolved]
    exact ⟨.silent rfl fun _ => Iff.rfl, hkeyed⟩
  · next approval hlookup =>
      have hid : approval.id = approvalId := hkeyed approvalId approval hlookup
      split at hresolved
      · rw [hresolved]
        exact ⟨.silent rfl fun _ => Iff.rfl, hkeyed⟩
      · next hpending =>
          rw [not_not] at hpending
          have hbefore : ¬ store.HasDecided approvalId := by
            rintro ⟨found, hfound, hdecided⟩
            cases hlookup.symm.trans hfound
            rw [hpending] at hdecided
            exact absurd hdecided (by decide)
          split at hresolved
          · have hinsert : resolved.store.codexRuntimeApprovals =
                store.codexRuntimeApprovals.insert approvalId (approval.dismissed clock.judged) := by
              rw [hresolved, EventStore.saveCodexRuntimeApproval]
              exact congrArg (fun key => store.codexRuntimeApprovals.insert key
                (approval.dismissed clock.judged)) hid
            have hstate : ¬ (approval.dismissed clock.judged).state.IsDecided := by
              change ¬ (if clock.judged ≥ approval.expiresAt then CodexApprovalState.expired
                else CodexApprovalState.invalidated).IsDecided
              split <;> decide
            refine ⟨.silent (by rw [hresolved]) ?_, hkeyed.insert hinsert hid⟩
            exact EventStore.hasDecided_insert_undecided hbefore hstate hinsert
          · next hlive =>
              rw [not_not] at hlive
              split at hresolved
              · rw [hresolved]
                exact ⟨.silent rfl fun _ => Iff.rfl, hkeyed⟩
              · have hinsert : resolved.store.codexRuntimeApprovals =
                    store.codexRuntimeApprovals.insert approvalId
                      (approval.decided approve clock.decided) := by
                  rw [hresolved]
                  dsimp only
                  rw [appendEvent_approvals, EventStore.saveCodexRuntimeApproval]
                  exact congrArg (fun key => store.codexRuntimeApprovals.insert key
                    (approval.decided approve clock.decided)) hid
                exact ⟨.decided approval hlookup hpending hlive (by rw [hresolved]) hinsert,
                  hkeyed.insert hinsert hid⟩

namespace CodexRuntime

variable {runtime next : CodexRuntime} {op : CodexRuntimeOp}

def decidedIds (runtime : CodexRuntime) : List Uuid :=
  runtime.decisions.map CodexDecision.approvalId

/-- Every approval was decided at most once, and the stored ones tell which. -/
structure DecidedOnce (runtime : CodexRuntime) : Prop where
  once : runtime.decidedIds.Nodup
  stored : ∀ id, id ∈ runtime.decidedIds ↔ runtime.store.HasDecided id
  keyed : runtime.store.ApprovalsKeyed

/-- What a step has written: nothing, and then it has decided nothing; or the
line for an approval that was pending, belongs to the running process and its
active turn, and has not expired. -/
def Decides (runtime : CodexRuntime) (op : CodexRuntimeOp) (next : CodexRuntime) : Prop :=
  (next.decisions = runtime.decisions ∧
      ∀ id, next.store.HasDecided id ↔ runtime.store.HasDecided id) ∨
    ∃ draws clock pipe taskId approvalId processGeneration approve connection approval,
      op = .resolve draws clock pipe taskId approvalId processGeneration approve ∧
      runtime.active.lookup taskId = some connection ∧
      runtime.store.codexRuntimeApprovals.lookup approvalId = some approval ∧
      approval.state = .pending ∧ approval.IsLive connection processGeneration clock.checked ∧
      next.decisions = ⟨approvalId, taskId, decisionLine approval approve⟩ :: runtime.decisions ∧
      next.store.codexRuntimeApprovals.lookup approvalId =
        some (approval.decided approve clock.decided)

theorem DecidedOnce.of_silent (hruntime : runtime.DecidedOnce) (hkeyed : next.store.ApprovalsKeyed)
    (hdecisions : next.decisions = runtime.decisions)
    (hdecided : ∀ id, next.store.HasDecided id ↔ runtime.store.HasDecided id) :
    next.DecidedOnce ∧ Decides runtime op next := by
  refine ⟨⟨?_, fun id => ?_, hkeyed⟩, .inl ⟨hdecisions, hdecided⟩⟩
  · rw [decidedIds, hdecisions]
    exact hruntime.once
  · rw [decidedIds, hdecisions, hdecided]
    exact hruntime.stored id

theorem DecidedOnce.step (hruntime : runtime.DecidedOnce) (hstep : runtime.step op = some next) :
    next.DecidedOnce ∧ Decides runtime op next := by
  cases op with
  | launch connection =>
      cases hstep
      exact hruntime.of_silent hruntime.keyed rfl fun _ => Iff.rfl
  | stop taskId =>
      cases hstep
      exact hruntime.of_silent hruntime.keyed rfl fun _ => Iff.rfl
  | beginTurn taskId turnId =>
      cases hstep
      exact hruntime.of_silent hruntime.keyed rfl fun _ => Iff.rfl
  | pump ambient draws taskId line =>
      rw [CodexRuntime.step] at hstep
      split at hstep
      · exact absurd hstep nofun
      · next connection _ =>
          split at hstep
          · next hfresh =>
              cases hstep
              have hasks := pumpLine_asksFor ambient draws runtime.store connection line
              exact hruntime.of_silent (hasks.keyed hruntime.keyed) rfl (hasks.hasDecided hfresh)
          · exact absurd hstep nofun
  | answer ambient draws taskId expectedId line =>
      rw [CodexRuntime.step] at hstep
      split at hstep
      · exact absurd hstep nofun
      · next connection _ =>
          split at hstep
          · next hfresh =>
              cases hstep
              have hasks := requestLine_asksFor ambient draws runtime.store connection expectedId line
              exact hruntime.of_silent (hasks.keyed hruntime.keyed) rfl (hasks.hasDecided hfresh)
          · exact absurd hstep nofun
  | resolve draws clock pipe taskId approvalId processGeneration approve =>
      rw [CodexRuntime.step] at hstep
      split at hstep
      · cases hstep
        exact hruntime.of_silent hruntime.keyed rfl fun _ => Iff.rfl
      · next connection hconnection =>
          have heffect := resolveApproval_effect hruntime.keyed draws clock pipe connection approvalId
            processGeneration approve
          dsimp only at heffect hstep
          generalize resolveApproval draws clock pipe runtime.store connection approvalId
            processGeneration approve = resolved at heffect hstep
          cases hstep
          obtain ⟨heffect, hkeyed⟩ := heffect
          cases heffect with
          | silent hwritten hdecided =>
              exact hruntime.of_silent hkeyed (by rw [hwritten]; rfl) hdecided
          | decided approval hlookup hpending hlive hwritten hstored =>
              have hdecisions : (resolved.written.map fun line =>
                  (⟨approvalId, taskId, line⟩ : CodexDecision)).toList ++ runtime.decisions =
                    ⟨approvalId, taskId, decisionLine approval approve⟩ :: runtime.decisions := by
                rw [hwritten]
                rfl
              have hbefore : approvalId ∉ runtime.decidedIds := by
                rw [hruntime.stored]
                rintro ⟨found, hfound, hdecided⟩
                cases hlookup.symm.trans hfound
                rw [hpending] at hdecided
                exact absurd hdecided (by decide)
              have hafter : (approval.decided approve clock.decided).state.IsDecided := by
                cases approve with
                | true => exact .inl rfl
                | false => exact .inr rfl
              refine ⟨⟨?_, fun id => ?_, hkeyed⟩, .inr ⟨draws, clock, pipe, taskId, approvalId,
                processGeneration, approve, connection, approval, rfl, hconnection, hlookup, hpending,
                hlive, hdecisions, ?_⟩⟩
              · rw [decidedIds]
                dsimp only
                rw [hdecisions]
                exact List.nodup_cons.mpr ⟨hbefore, hruntime.once⟩
              · rw [EventStore.hasDecided_insert hstored, decidedIds]
                dsimp only
                rw [hdecisions, List.map_cons, List.mem_cons]
                change id = approvalId ∨ id ∈ runtime.decidedIds ↔ _
                rw [hruntime.stored]
                split
                · next hsame => exact iff_of_true (.inl hsame) hafter
                · next hother => exact or_iff_right hother
              · dsimp only
                rw [hstored, AList.lookup_insert]
  | other store =>
      rw [CodexRuntime.step] at hstep
      split at hstep
      · next hsame =>
          cases hstep
          exact hruntime.of_silent (hruntime.keyed.congr hsame) rfl
            (EventStore.hasDecided_congr hsame)
      · exact absurd hstep nofun

end CodexRuntime

open CodexRuntime

/-- Over every run each approval is decided by at most one line, which answers
its request while it is pending and live, and a stored approval was approved or
declined exactly when its line was written. -/
theorem codex_approval_decided_once {ops : List CodexRuntimeOp} {final : CodexRuntime}
    (hrun : run step CodexRuntime.initial ops = some final) :
    final.decidedIds.Nodup ∧
      (∀ id, id ∈ final.decidedIds ↔ ∃ approval,
        final.store.codexRuntimeApprovals.lookup id = some approval ∧
          (approval.state = .approved ∨ approval.state = .declined)) ∧
      EveryStep step (fun runtime op => ∀ next, runtime.step op = some next →
        Decides runtime op next) CodexRuntime.initial ops := by
  have hstart : DecidedOnce CodexRuntime.initial := by
    refine ⟨List.nodup_nil, fun id => iff_of_false List.not_mem_nil ?_, ?_⟩
    · rintro ⟨approval, happroval, -⟩
      exact absurd happroval (Option.not_mem_none _)
    · intro id approval happroval
      exact absurd happroval nofun
  have hfinal : final.DecidedOnce :=
    invariant_of_run (fun _ _ _ hruntime hstep => (hruntime.step hstep).1) hrun hstart
  have hkept : ∀ (runtime : CodexRuntime) op next, True → runtime.DecidedOnce →
      runtime.step op = some next → next.DecidedOnce ∧ Decides runtime op next :=
    fun _ _ _ _ hruntime hstep => hruntime.step hstep
  refine ⟨hfinal.once, hfinal.stored, everyStep_of_invariant DecidedOnce hkept ?_ hstart⟩
  exact everyStep_of_forall (fun _ _ => trivial) _ ops

namespace Sample

/-- A request for the approval of a command in a turn. -/
def approvalLine : ServerLine :=
  ⟨128, .ok (.obj [("id", .int 9), ("method", .str "item/commandExecution/requestApproval"),
    ("params", .obj [("threadId", .str "thread-1"), ("turnId", .str "turn-1"),
      ("itemId", .str "item-1")])])⟩

/-- Approve a request some seconds after it came. -/
def approveAt (now : DateTime) : CodexRuntimeOp :=
  .resolve draws ⟨now, now, now⟩ (.ok ()) taskId ⟨15⟩ ⟨13⟩ true

def approvalOps : List CodexRuntimeOp := [.launch connection, .pump ambient draws taskId approvalLine,
  approveAt 1, approveAt 2]

end Sample

open Sample

theorem codex_approval_written : ∃ final, run step CodexRuntime.initial approvalOps = some final ∧
    final.decidedIds = [⟨15⟩] ∧ final.decidedIds.Nodup := by
  have hids : ((run step CodexRuntime.initial approvalOps).map fun final => final.decidedIds) =
      some [⟨15⟩] := by decide
  obtain ⟨final, hrun, hdecided⟩ := Option.map_eq_some_iff.mp hids
  exact ⟨final, hrun, hdecided, (codex_approval_decided_once hrun).1⟩

end Patchwright
