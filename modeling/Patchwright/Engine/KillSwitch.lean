import Patchwright.Codex.Connection
import Patchwright.Engine.Preparation
import Patchwright.Engine.Restarts

/-!
# The kill switch

Five requests lead to work outside the store: preparing a worktree, starting
Codex, sending a turn to it, running the commands of a verification, and writing
to GitHub.  Each is followed here to the point where its work begins.  What it
does after that, and all that other requests do, may take the store anywhere.

The policy holds the switch.  Preparations and deliveries consult it; a turn
needs a process, and a start and a verification go by the task alone.
-/

namespace Patchwright

open Checked Runs
open Protocol (RequestId)

section Switch

variable [Sha256]

/-- Work that has begun outside the store. -/
inductive AutomatedWork where
  | worktree (path branch : String)
  | process (taskId : TaskId)
  | turn (taskId : TaskId) (message : OperatorMessage)
  | commands (taskId : TaskId) (commands : List VerificationCommand)
  | mutation (action : GitHubActionPreview)

/-- The work is a process for the task. -/
def AutomatedWork.launches (taskId : TaskId) : AutomatedWork → Bool
  | .process launched => launched = taskId
  | _ => false

inductive AutomationError where
  | preparation (error : PreparationError)
  | delivery (error : DeliveryError)
  | codex (error : CodexServiceError)
  | request (message : String)
  deriving DecidableEq, Repr

/-- The engine, with the work it has begun. -/
structure AutomationEngine where
  store : EventStore
  connections : Table TaskId Connection
  work : List AutomatedWork

/-- An engine that has just been started on a store. -/
def AutomationEngine.opened (store : EventStore) : AutomationEngine := ⟨store, ∅, []⟩

inductive AutomationRequest where
  | prepare (preview : PreparationPreview) (approvalId : Uuid)
  | start (taskId : TaskId) (launched : Except String Uuid)
  | turn (taskId : TaskId) (steer : Bool) (message : OperatorMessage)
  | verify (taskId : TaskId) (before : Except String Inspection)
  | deliver (preview : DeliveryPreview) (approvalId : Uuid)

/-- What a request has come to: an error, or the work it begins, if any. -/
abbrev Admission : Type := Except AutomationError (Option AutomatedWork)

namespace AutomationEngine

variable (ambient : Ambient) (engine : AutomationEngine)

/-- `codex.start` up to the launch of the process. -/
def start (taskId : TaskId) (launched : Except String Uuid) : EventStore × Admission :=
  match engine.connections.lookup taskId with
  | some _ => (engine.store, .ok none)
  | none =>
      let (store, loaded) := startLoad ambient engine.store taskId
      let outcome : Except String (Option AutomatedWork) := do
        let _ ← loaded
        let _ ← launched
        return some (.process taskId)
      (store, outcome.mapError .request)

/-- `task.readyForDelivery` up to the first command. -/
def verify (taskId : TaskId) (before : Except String Inspection) : EventStore × Admission :=
  let (store, submitted) := verifyBegin ambient engine.store taskId
  let outcome : Except String (Option AutomatedWork) := do
    match ← submitted with
    | none => return none
    | some (_, contract) =>
        let found ← before
        ensure (¬ found.dirty) "task worktree is dirty"
        return some (.commands taskId contract.verificationCommands)
  (store, outcome.mapError .request)

/-- Ask for a turn, or steer the one under way. -/
def beginInput (steer : Bool) (connection : Connection) (message : OperatorMessage) :
    Connection × Except CodexServiceError RequestId :=
  if steer then
    let (connection, begun) := steerTurnBegin connection message
    (connection, begun.map Prod.fst)
  else
    let (connection, begun) := startTurnBegin connection message
    (connection, begun.map Prod.fst)

/-- `codex.turn.start` and `codex.turn.steer` up to the message that is sent. -/
def turn (taskId : TaskId) (steer : Bool) (message : OperatorMessage) :
    Table TaskId Connection × Admission :=
  match engine.connections.lookup taskId with
  | none =>
      let refused : Except CodexServiceError (Option AutomatedWork) := do
        validateOperatorInput message.id message.input
        throw (.service "Codex process is not active for this task")
      (engine.connections, refused.mapError .codex)
  | some connection =>
      let (connection, begun) := beginInput steer connection message
      (engine.connections.insert taskId connection,
        (begun.map fun _ => some (.turn taskId message)).mapError .codex)

/-- `task.prepare` up to the worktree. -/
def prepare (preview : PreparationPreview) (approvalId : Uuid) : EventStore × Admission :=
  match authorizePreparation ambient engine.store preview approvalId with
  | .error error => (engine.store, .error (.preparation error))
  | .ok store => (store, .ok (some (.worktree preview.worktreePath preview.branch)))

/-- `delivery.execute` up to the write. -/
def deliver (preview : DeliveryPreview) (approvalId : Uuid) : EventStore × Admission :=
  match authorizeExecution ambient engine.store preview approvalId with
  | .error error => (engine.store, .error (.delivery error))
  | .ok (store, _) => (store, .ok (some (.mutation preview.action)))

/-- Take the store and the outcome of a request over. -/
def take (engine : AutomationEngine) : EventStore × Admission →
    AutomationEngine × Except AutomationError Unit
  | (store, .error error) => ({ engine with store }, .error error)
  | (store, .ok work) => ({ engine with store, work := engine.work ++ work.toList }, .ok ())

def handle : AutomationRequest → AutomationEngine × Except AutomationError Unit
  | .prepare preview approvalId => engine.take (engine.prepare ambient preview approvalId)
  | .start taskId launched => engine.take (engine.start ambient taskId launched)
  | .turn taskId steer message =>
      let (connections, admission) := engine.turn taskId steer message
      { engine with connections }.take (engine.store, admission)
  | .verify taskId before => engine.take (engine.verify ambient taskId before)
  | .deliver preview approvalId => engine.take (engine.deliver ambient preview approvalId)

end AutomationEngine

inductive AutomationEvent where
  | request (ambient : Ambient) (request : AutomationRequest)
  | connected (connection : Connection)
  | elsewhere (store : EventStore)

/-- One step of an engine that runs under a policy.  A process gets a connection
once it has been launched. -/
def automationStep (policy : Policy) (engine : AutomationEngine) :
    AutomationEvent → Option AutomationEngine
  | .request ambient request =>
      if ambient.policy = policy then some (engine.handle ambient request).1 else none
  | .connected connection =>
      if engine.work.any (AutomatedWork.launches connection.session.taskId) then
        some { engine with
          connections := engine.connections.insert connection.session.taskId connection }
      else none
  | .elsewhere store => some { engine with store }

/-! ### What the policy stops -/

section Stopped

variable {ambient : Ambient}

omit [Sha256] in
theorem Policy.authorize_disabled {policy : Policy} (hswitch : policy.automationDisabled)
    {capability : Capability} (hmutates : capability ≠ .readRepository)
    (fingerprint : ActionFingerprint) (approval : Option Approval) (now : DateTime) :
    policy.authorize capability fingerprint approval now ≠ .allowed := by
  unfold Policy.authorize
  rw [if_pos (show policy.automationDisabled ∧ capability ≠ .readRepository from
    ⟨hswitch, hmutates⟩)]
  split_ifs <;> exact nofun

omit [Sha256] in
theorem GitHubAction.capability_ne_readRepository (action : GitHubAction) :
    action.capability ≠ .readRepository := by
  intro hread
  have hattended := action.capability_isUnattended
  rw [hread] at hattended
  exact absurd hattended (by decide)

theorem authorizePreparation_disabled (hswitch : ambient.policy.automationDisabled)
    (store : EventStore) (preview : PreparationPreview) (approvalId : Uuid) :
    ∃ error, authorizePreparation ambient store preview approvalId = .error error := by
  cases hauthorized : authorizePreparation ambient store preview approvalId with
  | error error => exact ⟨error, rfl⟩
  | ok next =>
      simp only [authorizePreparation, bind_eq_ok, okOr_eq_ok] at hauthorized
      obtain ⟨_, _, _, _, approval, _, _, hgate, _⟩ := hauthorized
      have hdenied := Policy.authorize_disabled hswitch
        (show Capability.prepareWorktree ≠ .readRepository by decide) preview.fingerprint
        (some approval) ambient.now
      unfold preparationGate at hgate
      split at hgate
      next hallowed => exact absurd hallowed hdenied
      next => cases hgate
      next => cases hgate

theorem authorizeExecution_disabled (hswitch : ambient.policy.automationDisabled)
    (store : EventStore) (preview : DeliveryPreview) (approvalId : Uuid) :
    ∃ error, authorizeExecution ambient store preview approvalId = .error error := by
  cases hauthorized : authorizeExecution ambient store preview approvalId with
  | error error => exact ⟨error, rfl⟩
  | ok claimed =>
      obtain ⟨next, key⟩ := claimed
      obtain ⟨-, ⟨approval, -, hallowed⟩, -, -⟩ := authorizeExecution_eq_ok.1 hauthorized
      exact absurd hallowed (Policy.authorize_disabled hswitch
        (GitHubAction.capability_ne_readRepository _) _ _ _)

end Stopped

/-! ### What the state of the task stops -/

section Withheld

variable {ambient : Ambient} {engine : AutomationEngine} {store : EventStore} {taskId : TaskId}
variable {task : Task}

/-- A start of the task ends before it resumes the task or launches a process. -/
def EventStore.WithholdsStart (store : EventStore) (taskId : TaskId)
    (launched : Except String Uuid) : Prop :=
  ∀ task, store.loadTask taskId = some task →
    (task.state = .paused → ∀ interruption ∈ task.interruption, interruption.state ≠ .paused) ∧
      (task.state = .preparing ∨ task.state = .implementing → ¬ launched.isOk)

/-- A verification of the task ends before it submits the task or runs a command. -/
def EventStore.WithholdsVerification (store : EventStore) (taskId : TaskId)
    (before : Except String Inspection) : Prop :=
  ∀ task, store.loadTask taskId = some task →
    (task.state ≠ .preparing ∧ task.state ≠ .implementing) ∧
      task.state ≠ .awaitingDeliveryApproval ∧
      (task.state = .verifying → store.HasCommands taskId →
        ∀ found, before = .ok found → found.dirty)

/-- A request that consults the policy, needs a process, or is turned away for
the state of its task. -/
def AutomationEngine.Withholds (engine : AutomationEngine) : AutomationRequest → Prop
  | .start taskId launched => engine.store.WithholdsStart taskId launched
  | .verify taskId before => engine.store.WithholdsVerification taskId before
  | _ => True

omit [Sha256] in
theorem EventStore.taskEvents_saveTaskEvents (store : EventStore) (events : List (Task × String)) :
    (store.saveTaskEvents events).taskEvents.length = store.taskEvents.length + events.length := by
  induction events generalizing store with
  | nil => rfl
  | cons event events ih =>
      change ((store.saveTask event.1 event.2).saveTaskEvents events).taskEvents.length = _
      rw [ih, EventStore.saveTask, List.length_append, List.length_singleton, List.length_cons]
      omega

omit [Sha256] in
theorem EventStore.saveTask_ne_self (task : Task) (summary : String) :
    store.saveTask task summary ≠ store := fun hsame =>
  List.cons_ne_nil _ _ (List.append_right_eq_self.mp (congrArg EventStore.taskEvents hsame))

omit [Sha256] in
theorem EventStore.saveTaskEvents_eq_self {events : List (Task × String)} :
    store.saveTaskEvents events = store ↔ events = [] := by
  constructor
  · intro hsame
    have hlength := store.taskEvents_saveTaskEvents events
    rw [hsame] at hlength
    exact List.length_eq_zero_iff.mp (by omega)
  · rintro rfl
    rfl

/-- A request is refused that ends in an error and leaves the store alone. -/
def Refused (store : EventStore) (held : EventStore × Admission) : Prop :=
  held.1 = store ∧ ∃ error, held.2 = .error error

theorem refused_mapError {outcome : Except String (Option AutomatedWork)} :
    Refused store (store, outcome.mapError .request) ↔ ¬ outcome.isOk := by
  cases outcome with
  | error error => exact iff_of_true ⟨rfl, _, rfl⟩ nofun
  | ok work => exact iff_of_false (fun ⟨_, _, herror⟩ => nomatch herror) (fun hnot => hnot rfl)

omit [Sha256] in
theorem Task.resume_paused_iff (hpaused : task.state = .paused) (now : DateTime) :
    (∃ resumed, task.resume now = .ok resumed) ↔
      ∃ interruption ∈ task.interruption, interruption.state = .paused := by
  simp only [Task.resume_eq_ok, hpaused, Option.mem_def]
  constructor
  · rintro ⟨_, interruption, hinterruption, ⟨-, hstate⟩, -⟩
    exact ⟨interruption, hinterruption, hstate⟩
  · rintro ⟨interruption, hinterruption, hstate⟩
    exact ⟨_, interruption, hinterruption, ⟨rfl, hstate⟩, rfl⟩

omit [Sha256] in
/-- A paused task is resumed as it is, or not at all. -/
theorem resumePaused_paused (ambient : Ambient) (store : EventStore)
    (hpaused : task.state = .paused) :
    (∃ error, resumePaused ambient store task = .error error ∧
        ∀ interruption ∈ task.interruption, interruption.state ≠ .paused) ∨
      (∃ resumed, resumePaused ambient store task =
          .ok (store.saveTask resumed "Codex task resumed", resumed) ∧
        ∃ interruption ∈ task.interruption, interruption.state = .paused) := by
  unfold resumePaused
  rw [if_pos hpaused]
  cases hresume : task.resume ambient.now with
  | error error =>
      refine .inl ⟨_, rfl, fun interruption hinterruption hstate => ?_⟩
      obtain ⟨resumed, hresumed⟩ := (Task.resume_paused_iff hpaused ambient.now).mpr
        ⟨interruption, hinterruption, hstate⟩
      exact absurd (hresume.symm.trans hresumed) nofun
  | ok resumed =>
      exact .inr ⟨resumed, rfl, (Task.resume_paused_iff hpaused ambient.now).mp ⟨_, hresume⟩⟩

theorem start_refused_iff (hidle : engine.connections.lookup taskId = none)
    (launched : Except String Uuid) :
    Refused engine.store (engine.start ambient taskId launched) ↔
      engine.store.WithholdsStart taskId launched := by
  unfold AutomationEngine.start startLoad EventStore.WithholdsStart
  rw [hidle]
  cases hrow : engine.store.loadTask taskId with
  | none => exact iff_of_true ⟨rfl, _, rfl⟩ fun _ hsome => by cases hsome
  | some task =>
      simp only [Option.some.injEq, forall_eq']
      by_cases hpaused : task.state = .paused
      · have hlater : ¬ (task.state = .preparing ∨ task.state = .implementing) := by
          rw [hpaused]
          decide
        obtain ⟨error, hresume, hnone⟩ | ⟨resumed, hresume, hsome⟩ :=
          resumePaused_paused ambient engine.store hpaused
        · rw [hresume]
          exact iff_of_true ⟨rfl, _, rfl⟩
            ⟨fun _ => hnone, fun hready => absurd hready hlater⟩
        · rw [hresume]
          refine iff_of_false ?_ (fun hwithheld => ?_)
          · rintro ⟨hsame, -⟩
            exact absurd (EventStore.saveTask_ne_self resumed _ hsame) id
          · obtain ⟨interruption, hinterruption, hstate⟩ := hsome
            exact hwithheld.1 hpaused interruption hinterruption hstate
      · have hresume : resumePaused ambient engine.store task = .ok (engine.store, task) := by
          rw [resumePaused, if_neg hpaused]
        rw [hresume]
        dsimp only
        rw [refused_mapError]
        by_cases hready : task.state = .preparing ∨ task.state = .implementing
        · simp only [ensure, hpaused, hready, false_implies, true_and, true_implies]
          cases launched with
          | error error => exact Iff.rfl
          | ok generation => exact Iff.rfl
        · simp only [ensure, if_neg hready]
          exact iff_of_true (by rintro ⟨⟩) ⟨fun hstate => absurd hstate hpaused,
            fun hstate => absurd hstate hready⟩

omit [Sha256] in
/-- Submitting a task moves it, or has nothing to do. -/
theorem submitEdges_cases (now : DateTime) (task : Task) :
    (task.state = .preparing ∨ task.state = .implementing) ∧
        (∃ events, advance now task (submitEdges task.state) = .ok events ∧ events ≠ []) ∨
      ¬ (task.state = .preparing ∨ task.state = .implementing) ∧
        advance now task (submitEdges task.state) = .ok [] := by
  by_cases hmoves : task.state = .preparing ∨ task.state = .implementing
  · have hsubmitted : task.state.isSubmitted :=
      TaskState.isSubmitted_iff.2 (hmoves.imp_right .inl)
    obtain ⟨events, hevents, -⟩ := advance_submitEdges now hsubmitted
    refine .inl ⟨hmoves, events, hevents, ?_⟩
    rintro rfl
    have hedges := (advance_eq_ok hevents).2.2
    rcases hmoves with hstate | hstate <;> rw [hstate] at hedges <;> exact absurd hedges nofun
  · have hedges : submitEdges task.state = [] := by
      unfold submitEdges
      split
      next hstate => exact absurd (.inl hstate) hmoves
      next hstate => exact absurd (.inr hstate) hmoves
      next => rfl
    exact .inr ⟨hmoves, by rw [hedges, advance]⟩

theorem verify_refused_iff (before : Except String Inspection) :
    Refused engine.store (engine.verify ambient taskId before) ↔
      engine.store.WithholdsVerification taskId before := by
  unfold AutomationEngine.verify verifyBegin EventStore.WithholdsVerification
  cases hrow : engine.store.loadTask taskId with
  | none => exact iff_of_true ⟨rfl, _, rfl⟩ fun _ hsome => by cases hsome
  | some task =>
      simp only [Option.some.injEq, forall_eq']
      by_cases hready : task.state = .awaitingDeliveryApproval
      · simp only [if_pos hready]
        refine iff_of_false ?_ fun hwithheld => hwithheld.2.1 hready
        rintro ⟨-, _, ⟨⟩⟩
      · simp only [if_neg hready]
        obtain ⟨hmoves, events, hevents, hsome⟩ | ⟨hstays, hevents⟩ :=
          submitEdges_cases ambient.now task
        · simp only [hevents]
          refine iff_of_false (fun hrefused => ?_) fun hwithheld => ?_
          · exact hsome (EventStore.saveTaskEvents_eq_self.1 hrefused.1)
          · exact hmoves.elim hwithheld.1.1 hwithheld.1.2
        · simp only [hevents]
          change Refused engine.store (engine.store, Except.mapError .request _) ↔ _
          rw [refused_mapError, isOk_iff]
          simp only [bind_eq_ok, ensure_eq_ok, okOr_eq_ok, pure_eq_ok, not_or.mp hstays, true_and,
            hready, ne_eq, not_false_eq_true, EventStore.HasCommands]
          constructor
          · rintro hnone hverifying ⟨contract, hcontract, hcommands⟩ found hfound
            by_contra hclean
            refine hnone ⟨some (.commands taskId contract.verificationCommands), _,
              ⟨(), hverifying, contract, hcontract, (), hcommands, rfl⟩, ?_⟩
            simp only [bind_eq_ok, ensure_eq_ok, pure_eq_ok]
            exact ⟨found, hfound, (), hclean, trivial⟩
          · rintro hdirty
              ⟨work, begun, ⟨_, hverifying, contract, hcontract, _, hcommands, rfl⟩, hrun⟩
            simp only [bind_eq_ok, ensure_eq_ok] at hrun
            obtain ⟨found, hfound, _, hclean, -⟩ := hrun
            exact hclean (hdirty hverifying ⟨contract, hcontract, hcommands⟩ found hfound)

/-- Nothing runs, and no work has begun. -/
def AutomationEngine.AtRest (engine : AutomationEngine) : Prop :=
  engine.connections = ∅ ∧ engine.work = []

theorem turn_refused (hidle : engine.connections.lookup taskId = none) (steer : Bool)
    (message : OperatorMessage) :
    ∃ error, engine.turn taskId steer message = (engine.connections, .error error) := by
  unfold AutomationEngine.turn
  rw [hidle]
  cases hvalid : validateOperatorInput message.id message.input with
  | error error => exact ⟨_, rfl⟩
  | ok _ => exact ⟨_, rfl⟩

theorem take_eq_error_iff {held : EventStore × Admission} :
    (∃ error, engine.take held = (engine, .error error)) ↔ Refused engine.store held := by
  obtain ⟨store, admission⟩ := held
  cases admission with
  | ok work =>
      exact iff_of_false (fun ⟨_, hsame⟩ => absurd (Prod.mk.inj hsame).2 nofun)
        fun ⟨_, _, herror⟩ => absurd herror nofun
  | error error =>
      constructor
      · rintro ⟨_, hsame⟩
        exact ⟨congrArg (fun held => held.1.store) hsame, error, rfl⟩
      · rintro ⟨hstore, -⟩
        obtain rfl : store = engine.store := hstore
        exact ⟨error, rfl⟩

/-- With the switch set an engine at rest refuses a request exactly when it
withholds it. -/
theorem handle_refused_iff (hswitch : ambient.policy.automationDisabled)
    (hrest : engine.connections = ∅) (request : AutomationRequest) :
    (∃ error, engine.handle ambient request = (engine, .error error)) ↔
      engine.Withholds request := by
  have hidle : ∀ id, engine.connections.lookup id = none := by
    intro id
    rw [hrest]
    exact AList.lookup_empty id
  cases request with
  | prepare preview approvalId =>
      refine iff_of_true (take_eq_error_iff.2 ?_) trivial
      obtain ⟨error, hrefused⟩ :=
        authorizePreparation_disabled hswitch engine.store preview approvalId
      rw [AutomationEngine.prepare, hrefused]
      exact ⟨rfl, _, rfl⟩
  | start id launched => exact take_eq_error_iff.trans (start_refused_iff (hidle id) launched)
  | turn id steer message =>
      refine iff_of_true ?_ trivial
      obtain ⟨error, hrefused⟩ := turn_refused (hidle id) steer message
      rw [AutomationEngine.handle, hrefused]
      exact ⟨error, rfl⟩
  | verify id before => exact take_eq_error_iff.trans (verify_refused_iff before)
  | deliver preview approvalId =>
      refine iff_of_true (take_eq_error_iff.2 ?_) trivial
      obtain ⟨error, hrefused⟩ :=
        authorizeExecution_disabled hswitch engine.store preview approvalId
      rw [AutomationEngine.deliver, hrefused]
      exact ⟨rfl, _, rfl⟩

end Withheld

/-! ### Runs -/

section Whole

variable {policy : Policy} {store : EventStore} {engine next : AutomationEngine}

/-- What a step has to meet: a request is one that the engine withholds. -/
def AutomationEngine.Meets (engine : AutomationEngine) : AutomationEvent → Prop
  | .request _ request => engine.Withholds request
  | _ => True

theorem automationStep_atRest (hswitch : policy.automationDisabled) {event : AutomationEvent}
    (hmeets : engine.Meets event) (hrest : engine.AtRest)
    (hstep : automationStep policy engine event = some next) : next.AtRest := by
  cases event with
  | request ambient request =>
      simp only [automationStep] at hstep
      split at hstep
      · next hpolicy =>
          obtain ⟨error, hrefused⟩ := (handle_refused_iff (hpolicy ▸ hswitch) hrest.1
            request).mpr hmeets
          rw [hrefused] at hstep
          cases hstep
          exact hrest
      · cases hstep
  | connected connection =>
      simp only [automationStep, hrest.2, List.any_nil] at hstep
      cases hstep
  | elsewhere store =>
      cases hstep
      exact hrest

/-- While the switch is set, and as long as no start and no verification gets
past the state of its task, no work begins at all; and in every state that such
a run reaches, a request ends in an error with nothing changed exactly when it
is again one of these. -/
theorem kill_switch_stops (hswitch : policy.automationDisabled) {events : List AutomationEvent}
    (hrun : run (automationStep policy) (.opened store) events = some engine)
    (hmeets : EveryStep (automationStep policy) AutomationEngine.Meets (.opened store) events) :
    engine.work = [] ∧ ∀ (ambient : Ambient) (request : AutomationRequest),
      ambient.policy = policy →
      ((∃ error, engine.handle ambient request = (engine, .error error)) ↔
        engine.Withholds request) := by
  have hrest : engine.AtRest := invariant_of_everyStep
    (fun _ _ _ hcond hinv hnext => automationStep_atRest hswitch hcond hinv hnext)
    hmeets hrun ⟨rfl, rfl⟩
  exact ⟨hrest.2, fun ambient request hpolicy =>
    handle_refused_iff (hpolicy ▸ hswitch) hrest.1 request⟩

end Whole

end Switch

namespace Sample

/-- The clock of an engine whose kill switch is set. -/
def switchedOff : Ambient := { ambient with policy := ⟨true⟩ }

def startRequest : AutomationEvent := .request switchedOff (.start taskId (.ok ⟨13⟩))

end Sample

open Sample

/-- With the switch set a task that is implementing still gets its process. -/
theorem kill_switch_passed :
    ∃ engine, run (automationStep ⟨true⟩) (.opened (Sample.store .implementing))
        [startRequest] = some engine ∧ engine.work.any (AutomatedWork.launches taskId) :=
  ⟨_, rfl, by decide⟩

theorem kill_switch_stops_merge :
    ∃ engine, run (automationStep ⟨true⟩) (.opened (Sample.store .awaitingMergeApproval))
        [.request switchedOff (.deliver mergePreview ⟨21⟩)] = some engine ∧
      engine.work = [] := by
  have hsome : (run (automationStep ⟨true⟩) (.opened (Sample.store .awaitingMergeApproval))
      [.request switchedOff (.deliver mergePreview ⟨21⟩)]).isSome := rfl
  obtain ⟨engine, hrun⟩ := Option.isSome_iff_exists.mp hsome
  exact ⟨engine, hrun, (kill_switch_stops rfl hrun ⟨trivial, fun _ _ => trivial⟩).1⟩

end Patchwright
