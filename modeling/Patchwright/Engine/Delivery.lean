import Patchwright.Engine.Store

/-!
# Approved delivery to GitHub

A client previews an action against the stored task, contract and binding,
approves the preview, and executes it with the approval.  Execution claims the
delivery before anything is sent; afterwards the result is recorded as
succeeded, failed or ambiguous, and an ambiguous merge is settled later against
a snapshot of the repository.  Each function is one hold of the store.
-/

namespace Patchwright

open Checked

/-- What a hold of the store reads besides the store: the clock, the policy of
the process, and the head commit of a checkout on disk. -/
structure Ambient where
  now : DateTime
  policy : Policy
  inspectHeadSha : String → Option String

inductive DeliveryError where
  | taskMissing
  | contractMissing
  | taskStateInvalid
  | capabilityNotDeclared
  | bindingMissing
  | bindingMismatch
  | remoteMismatch
  | actionTargetMismatch
  | branchMismatch
  | preconditionMismatch
  | sourceMismatch
  | remoteItemMissing
  | remoteNotCompleted
  | fingerprintInvalid
  | previewStale
  | approvalMissing
  | approvalInvalid
  | policyDenied
  | alreadyClaimed
  | persistence (message : String)
  deriving DecidableEq, Repr

def DeliveryError.message : DeliveryError → String
  | taskMissing => "delivery task is missing"
  | contractMissing => "delivery task contract is missing"
  | taskStateInvalid => "delivery task is not awaiting the required approval class"
  | capabilityNotDeclared => "delivery action capability is not declared by the task contract"
  | bindingMissing => "delivery repository binding is missing"
  | bindingMismatch => "delivery repository binding changed"
  | remoteMismatch => "delivery remote identity does not match the task binding"
  | actionTargetMismatch => "delivery action target does not match the task source"
  | branchMismatch => "delivery branch does not match the prepared task branch"
  | preconditionMismatch => "delivery source SHA precondition changed"
  | sourceMismatch => "GitHub reconciliation source does not match the task"
  | remoteItemMissing => "GitHub reconciliation item is missing from the fresh snapshot"
  | remoteNotCompleted => "GitHub has not completed the task outcome"
  | fingerprintInvalid => "delivery action fingerprint is invalid"
  | previewStale => "delivery preview changed and must be approved again"
  | approvalMissing => "delivery approval is missing"
  | approvalInvalid => "delivery approval is expired or does not match"
  | policyDenied => "delivery is denied by the automation policy"
  | alreadyClaimed => "delivery action was already claimed; reconcile status before retrying"
  | persistence message => "delivery persistence failed: " ++ message

/-- A failed operation of the store, as the delivery reports it. -/
def persisted {α : Type*} (outcome : Except String α) : Except DeliveryError α :=
  outcome.mapError .persistence

/-- A refused transition is reported as a persistence failure too. -/
def transitioned {α : Type*} (outcome : Except ValidationError α) : Except DeliveryError α :=
  outcome.mapError fun error => .persistence error.message

@[simp]
theorem persisted_eq_ok {α : Type*} {outcome : Except String α} {value : α} :
    persisted outcome = .ok value ↔ outcome = .ok value := mapError_eq_ok

@[simp]
theorem transitioned_eq_ok {α : Type*} {outcome : Except ValidationError α} {value : α} :
    transitioned outcome = .ok value ↔ outcome = .ok value := mapError_eq_ok

section Validation

/-- The branch the engine prepares for a task. -/
def preparedBranch (taskId : TaskId) : String := "patchwright/" ++ taskId.toString

/-- Which kinds of action may address which kind of source. -/
def targetSupported : GitHubAction → TaskSource → Bool
  | .closeIssue .., .gitHubIssue _ | .comment .., .gitHubIssue _ => true
  | .comment .., .gitHubPullRequest _ | .review .., .gitHubPullRequest _
  | .resolveReviewThread .., .gitHubPullRequest _
  | .updatePullRequestBranch .., .gitHubPullRequest _
  | .readyPullRequest .., .gitHubPullRequest _ | .closePullRequest .., .gitHubPullRequest _
  | .enqueuePullRequest .., .gitHubPullRequest _
  | .mergePullRequest .., .gitHubPullRequest _ => true
  | .comment .., _ | .review .., _ | .resolveReviewThread .., _
  | .updatePullRequestBranch .., _ | .readyPullRequest .., _ | .closePullRequest .., _
  | .closeIssue .., _ | .enqueuePullRequest .., _ | .mergePullRequest .., _ => false
  | .createBranch .., _ | .pushIntent .., _ | .checkRun .., _ | .draftPullRequest .., _ => true

def validateActionTarget (contract : TaskContract) (binding : RepositoryBinding)
    (taskId : TaskId) (action : GitHubAction) : Except DeliveryError Unit := do
  ensure (¬ (action.pullRequestNumber.isSome ∧
    action.pullRequestNumber ≠ contract.source.itemNumber)) .actionTargetMismatch
  ensure (targetSupported action contract.source) .actionTargetMismatch
  ensure (∀ branch ∈ action.branch, branch = preparedBranch taskId) .branchMismatch
  match action with
  | .draftPullRequest _ _ base .. => ensure (base = binding.defaultBranch) .branchMismatch
  | _ => .ok ()

/-- A commit the action names must be named by the precondition and, where the
contract fixes one, by the contract; one the action does not name must not. -/
def shaBound (expected precondition contract : Option String) : Prop :=
  match expected with
  | some sha => precondition = some sha ∧ ∀ fixed ∈ contract, fixed = sha
  | none => precondition = none

instance (expected precondition contract : Option String) :
    Decidable (shaBound expected precondition contract) :=
  match expected with
  | some _ => inferInstanceAs (Decidable (_ ∧ _))
  | none => inferInstanceAs (Decidable (_ = _))

def validateBoundPreconditions (action : GitHubAction) (precondition : RemotePrecondition)
    (contract : TaskContract) : Except DeliveryError Unit :=
  ensure (shaBound action.expectedHeadSha precondition.expectedHeadSha contract.headSha ∧
    shaBound action.expectedBaseSha precondition.expectedBaseSha contract.baseSha)
    .preconditionMismatch

def validateActionSha (inspectHeadSha : String → Option String) (task : Task)
    (contract : TaskContract) (action : GitHubAction) : Except DeliveryError Unit :=
  match action with
  | .createBranch _ fromSha => ensure (contract.baseSha = some fromSha) .preconditionMismatch
  | .checkRun _ headSha .. => do
      let expected ← match contract.headSha with
        | some sha => .ok sha
        | none => okOr .preconditionMismatch (inspectHeadSha task.repositoryPath)
      ensure (headSha = expected) .preconditionMismatch
  | _ => .ok ()

end Validation

section Authorization

variable [Sha256]

structure DeliveryPreview where
  taskId : TaskId
  action : GitHubActionPreview
  fingerprint : ActionFingerprint
  deriving DecidableEq

/-- The state in which an action of this kind may be approved and executed. -/
def expectedState (action : GitHubAction) : TaskState :=
  if action.isMerge then .awaitingMergeApproval else .awaitingDeliveryApproval

def policyDigest : String := sha256Hex "patchwright-policy-v1"

def instructionDigest (contract : TaskContract) : String :=
  sha256Hex
    (Json.arr (contract.instructionDigests.map InstructionDigest.toJson)).compact

/-- The fingerprint a preview is to carry. -/
def fingerprintDraft (taskId : TaskId) (contract : TaskContract)
    (action : GitHubActionPreview) : ActionFingerprintDraft where
  taskId := taskId
  githubRepositoryId := action.remote.repositoryId
  repositoryFullName := action.remote.repositoryFullName
  actionKind := action.action.actionKind
  pullRequestNumber := action.action.pullRequestNumber
  branch := action.action.branch
  headSha := action.precondition.expectedHeadSha
  baseSha := action.precondition.expectedBaseSha
  payloadSha256 := action.payloadSha256
  policySha256 := policyDigest
  instructionSha256 := instructionDigest contract
  invalidationGeneration := action.precondition.snapshotGeneration

/-- Check an action against the stored task, contract and binding. -/
def previewDelivery (ambient : Ambient) (store : EventStore) (taskId : TaskId)
    (action : GitHubActionPreview) : Except DeliveryError DeliveryPreview := do
  let task ← okOr .taskMissing (store.loadTask taskId)
  let contract ← okOr .contractMissing (store.taskContract taskId)
  let capability := action.action.capability
  ensure (task.state = expectedState action.action) .taskStateInvalid
  ensure (capability ∈ contract.requiredCapabilities) .capabilityNotDeclared
  let bindingId ← okOr .bindingMissing task.repositoryBindingId
  ensure (bindingId = contract.repositoryBindingId) .bindingMismatch
  let binding ← okOr .bindingMissing (store.repositoryBinding bindingId)
  ensure (action.remote.repositoryId = binding.githubRepositoryId ∧
    action.remote.installationId = binding.installationId ∧
    action.remote.repositoryFullName = binding.fullName) .remoteMismatch
  ensure ((∀ id ∈ contract.source.repositoryId, id = binding.githubRepositoryId) ∧
    ∀ name ∈ contract.source.repositoryFullName, name = binding.fullName) .sourceMismatch
  validateActionTarget contract binding taskId action.action
  validateBoundPreconditions action.action action.precondition contract
  validateActionSha ambient.inspectHeadSha task contract action.action
  let fingerprint ← (ActionFingerprint.tryFrom (fingerprintDraft taskId contract action)).mapError
    fun _ => .fingerprintInvalid
  return { taskId, action, fingerprint }

/-- Store an approval for a preview that is still current.  The identifier is
the random one the source draws. -/
def approveDelivery (ambient : Ambient) (store : EventStore) (preview : DeliveryPreview)
    (approvedBy : String) (id : Uuid) : Except DeliveryError (EventStore × Approval) := do
  let fresh ← previewDelivery ambient store preview.taskId preview.action
  ensure (fresh = preview) .previewStale
  let cls := if preview.action.action.isMerge then .merge else .gitHubDelivery
  let approval ← (Approval.new id cls preview.action.action.capability preview.fingerprint
    approvedBy ambient.now (ambient.now + minutes 10)).mapError fun _ => .approvalInvalid
  return (store.saveApproval approval, approval)

/-- The task change that is committed together with a claim. -/
def claimEvent (ambient : Ambient) (store : EventStore) (preview : DeliveryPreview) :
    Except DeliveryError (Option (Task × String)) :=
  if preview.action.action.isMerge then do
    let task ← okOr .taskMissing (store.loadTask preview.taskId)
    let task ← transitioned (task.transition .merging ambient.now)
    return some (task, "Approved merge execution started")
  else return none

/-- Only a decision that allows the action lets the execution go on. -/
def policyGate : PolicyDecision → Except DeliveryError Unit
  | .allowed => .ok ()
  | .approvalRequired _ => .error .approvalInvalid
  | .denied _ => .error .policyDenied

omit [Sha256] in
@[simp]
theorem policyGate_eq_ok {decision : PolicyDecision} {result : Unit} :
    policyGate decision = .ok result ↔ decision = .allowed := by
  cases decision <;> simp [policyGate]

/-- Check a preview and its approval once more and claim the delivery.  The
result is the key under which the write may now be sent. -/
def authorizeExecution (ambient : Ambient) (store : EventStore) (preview : DeliveryPreview)
    (approvalId : Uuid) : Except DeliveryError (EventStore × String) := do
  let fresh ← previewDelivery ambient store preview.taskId preview.action
  ensure (fresh = preview) .previewStale
  let approval ← okOr .approvalMissing (store.approval approvalId)
  policyGate (ambient.policy.authorize preview.action.action.capability preview.fingerprint
    (some approval) ambient.now)
  let key := preview.action.idempotencySha256
  let taskEvent ← claimEvent ambient store preview
  let store ← okOr .alreadyClaimed
    (store.claimDeliveryWithTaskEvent key taskEvent ambient.now)
  return (store, key)

theorem previewDelivery_eq_ok {ambient : Ambient} {store : EventStore} {taskId : TaskId}
    {action : GitHubActionPreview} {preview : DeliveryPreview}
    (hok : previewDelivery ambient store taskId action = .ok preview) :
    preview.taskId = taskId ∧ preview.action = action ∧
      ∃ task contract bindingId binding, store.loadTask taskId = some task ∧
        store.taskContract taskId = some contract ∧
        task.state = expectedState action.action ∧
        action.action.capability ∈ contract.requiredCapabilities ∧
        task.repositoryBindingId = some bindingId ∧
        bindingId = contract.repositoryBindingId ∧
        store.repositoryBinding bindingId = some binding ∧
        action.remote.repositoryId = binding.githubRepositoryId ∧
        action.remote.installationId = binding.installationId ∧
        action.remote.repositoryFullName = binding.fullName := by
  unfold previewDelivery at hok
  simp only [bind_eq_ok, okOr_eq_ok, ensure_eq_ok, mapError_eq_ok, pure_eq_ok] at hok
  obtain ⟨task, htask, contract, hcontract, -, hstate, -, hcapability, bindingId, hid, -,
    hmatch, binding, hbinding, -, hremote, -, -, -, -, -, -, -, -, -, -, rfl⟩ := hok
  exact ⟨rfl, rfl, task, contract, bindingId, binding, htask, hcontract, hstate, hcapability,
    hid, hmatch, hbinding, hremote⟩

theorem previewDelivery_fingerprint_taskId {ambient : Ambient} {store : EventStore}
    {taskId : TaskId} {action : GitHubActionPreview} {preview : DeliveryPreview}
    (hok : previewDelivery ambient store taskId action = .ok preview) :
    preview.fingerprint.taskId = taskId := by
  unfold previewDelivery ActionFingerprint.tryFrom at hok
  simp only [bind_eq_ok, okOr_eq_ok, ensure_eq_ok, mapError_eq_ok, pure_eq_ok] at hok
  obtain ⟨_, -, contract, -, -, -, -, -, _, -, -, -, _, -, -, -, -, -, -, -, -, -, -, -, _,
    ⟨-, -, -, -, _, -, -, -, _, -, -, -, -, -, -, -, -, -, -, -, rfl⟩, rfl⟩ := hok
  rfl

/-- An approval is stored exactly for a preview that is still current. -/
theorem approveDelivery_eq_ok {ambient : Ambient} {store next : EventStore}
    {preview : DeliveryPreview} {approvedBy : String} {id : Uuid} {approval : Approval}
    (hok : approveDelivery ambient store preview approvedBy id = .ok (next, approval)) :
    previewDelivery ambient store preview.taskId preview.action = .ok preview ∧
      approval.id = id ∧ approval.fingerprint = preview.fingerprint ∧
      store.saveApproval approval = next := by
  unfold approveDelivery Approval.new at hok
  simp only [bind_eq_ok, ensure_eq_ok, mapError_eq_ok, pure_eq_ok] at hok
  obtain ⟨fresh, hfresh, -, rfl, approval, ⟨_, -, -, -, -, -, -, -, rfl⟩, heq⟩ := hok
  cases heq
  exact ⟨hfresh, rfl, rfl, rfl⟩

/-- An execution is authorised when the preview is current, the policy allows
it on a stored approval, and the claim on its key succeeds. -/
theorem authorizeExecution_eq_ok {ambient : Ambient} {store next : EventStore}
    {preview : DeliveryPreview} {approvalId : Uuid} {key : String} :
    authorizeExecution ambient store preview approvalId = .ok (next, key) ↔
      previewDelivery ambient store preview.taskId preview.action = .ok preview ∧
        (∃ approval, store.approval approvalId = some approval ∧
          ambient.policy.authorize preview.action.action.capability preview.fingerprint
            (some approval) ambient.now = .allowed) ∧
        preview.action.idempotencySha256 = key ∧
        ∃ taskEvent, claimEvent ambient store preview = .ok taskEvent ∧
          store.claimDeliveryWithTaskEvent key taskEvent ambient.now = some next := by
  unfold authorizeExecution
  simp only [bind_eq_ok, okOr_eq_ok, ensure_eq_ok, policyGate_eq_ok, pure_eq_ok]
  constructor
  · rintro ⟨_, hfresh, -, rfl, approval, happroval, -, hallowed, taskEvent, hevent, _, hclaim,
      heq⟩
    cases heq
    exact ⟨hfresh, ⟨approval, happroval, hallowed⟩, rfl, taskEvent, hevent, hclaim⟩
  · rintro ⟨hfresh, ⟨approval, happroval, hallowed⟩, rfl, taskEvent, hevent, hclaim⟩
    exact ⟨preview, hfresh, (), rfl, approval, happroval, (), hallowed, taskEvent, hevent, next,
      hclaim, rfl⟩

end Authorization

section Completion

/-- Take a task along a list of edges; each step is an event of its own. -/
def advance (now : DateTime) : Task → List (TaskState × String) →
    Except ValidationError (List (Task × String))
  | _, [] => .ok []
  | task, (next, summary) :: rest => do
      let task ← task.transition next now
      let events ← advance now task rest
      return (task, summary) :: events

/-- The part of a lifecycle that is still ahead of a state, if it is on it. -/
def remaining (lifecycle : List (TaskState × TaskState × String)) (state : TaskState) :
    Option (List (TaskState × String)) :=
  match lifecycle.dropWhile (fun edge => edge.1 ≠ state) with
  | [] => none
  | edges => some (edges.map fun edge => (edge.2.1, edge.2.2))

def mergeLifecycle : List (TaskState × TaskState × String) :=
  [(.merging, .completed, "GitHub confirmed the approved merge completed")]

def closeLifecycle : List (TaskState × TaskState × String) := [
  (.awaitingDeliveryApproval, .delivering, "Approved terminal GitHub delivery started"),
  (.delivering, .monitoring,
    "GitHub accepted the terminal delivery; reconciling remote state"),
  (.monitoring, .completed, "GitHub confirmed the closed task outcome completed")]

def monitoringLifecycle : List (TaskState × TaskState × String) := [
  (.awaitingDeliveryApproval, .delivering, "Approved GitHub delivery started"),
  (.delivering, .monitoring,
    "GitHub accepted the delivery; fresh CI and review evidence is required")]

/-- The action ends the task once GitHub has accepted it. -/
def isTerminalDelivery (capability : Capability) (merged : Bool) : Bool :=
  capability = .closeIssue || capability = .closePullRequest ||
    (capability = .mergePullRequest && merged)

/-- The action takes the task to monitoring once GitHub has accepted it. -/
def entersMonitoring (capability : Capability) : Bool :=
  capability = .createPullRequest || capability = .postReview ||
    capability = .updatePullRequestBranch || capability = .readyPullRequest

def deliveryLifecycle (capability : Capability) : List (TaskState × TaskState × String) :=
  if capability = .mergePullRequest then mergeLifecycle
  else if entersMonitoring capability then monitoringLifecycle
  else closeLifecycle

variable [Sha256]

/-- Record a delivery that GitHub confirmed, and take the task along its
lifecycle.  A task that is neither completed nor on the lifecycle keeps its
state. -/
def completeSuccessfulDelivery (ambient : Ambient) (store : EventStore)
    (preview : DeliveryPreview) (key : String) (result : Json) (merged : Bool) :
    Except DeliveryError EventStore := do
  let capability := preview.action.action.capability
  if ¬ (isTerminalDelivery capability merged ∨ entersMonitoring capability) then
    persisted (store.completeDelivery key result ambient.now)
  else
    let task ← okOr .taskMissing (store.loadTask preview.taskId)
    if task.state = .completed then
      persisted (store.completeDeliveryWithTaskEvents key result [] ambient.now)
    else
      match remaining (deliveryLifecycle capability) task.state with
      | none => persisted (store.completeDelivery key result ambient.now)
      | some edges => do
          let events ← transitioned (advance ambient.now task edges)
          persisted (store.completeDeliveryWithTaskEvents key result events ambient.now)

/-- Record a delivery that failed.  A failed merge returns the task to the
merge gate and invalidates its approvals. -/
def completeFailedDelivery (ambient : Ambient) (store : EventStore)
    (preview : DeliveryPreview) (key : String) (result : Json) :
    Except DeliveryError EventStore :=
  if ¬ preview.action.action.isMerge then
    persisted (store.completeDelivery key result ambient.now)
  else do
    let task ← okOr .taskMissing (store.loadTask preview.taskId)
    if task.state ≠ .merging then
      persisted (store.completeDelivery key result ambient.now)
    else
      let task ← transitioned (task.transition .awaitingMergeApproval ambient.now)
      persisted (store.completeFailedMergeDelivery key result task
        "GitHub definitively rejected the merge; fresh merge approval is required" ambient.now)

theorem completeSuccessfulDelivery_eq_ok {ambient : Ambient} {store next : EventStore}
    {preview : DeliveryPreview} {key : String} {result : Json} {merged : Bool}
    (hok : completeSuccessfulDelivery ambient store preview key result merged = .ok next) :
    ∃ events, store.completeDeliveryWithTaskEvents key result events ambient.now = .ok next ∧
      (events = [] ∨ ∃ task edges, store.loadTask preview.taskId = some task ∧
        remaining (deliveryLifecycle preview.action.action.capability) task.state =
          some edges ∧ advance ambient.now task edges = .ok events) := by
  unfold completeSuccessfulDelivery at hok
  dsimp only at hok
  split at hok
  · rw [persisted_eq_ok, EventStore.completeDelivery_eq] at hok
    exact ⟨[], hok, .inl rfl⟩
  · rw [bind_eq_ok] at hok
    obtain ⟨task, htask, hok⟩ := hok
    split at hok
    · rw [persisted_eq_ok] at hok
      exact ⟨[], hok, .inl rfl⟩
    · split at hok
      · rw [persisted_eq_ok, EventStore.completeDelivery_eq] at hok
        exact ⟨[], hok, .inl rfl⟩
      · rename_i edges hedges
        simp only [bind_eq_ok, transitioned_eq_ok, persisted_eq_ok] at hok
        obtain ⟨events, hevents, hok⟩ := hok
        exact ⟨events, hok, .inr ⟨task, edges, okOr_eq_ok.1 htask, hedges, hevents⟩⟩

theorem completeFailedDelivery_eq_ok {ambient : Ambient} {store next : EventStore}
    {preview : DeliveryPreview} {key : String} {result : Json}
    (hok : completeFailedDelivery ambient store preview key result = .ok next) :
    store.completeDelivery key result ambient.now = .ok next ∨
      ∃ task summary, store.loadTask preview.taskId = some task ∧
        preview.action.action.isMerge ∧ task.state = .merging ∧
        store.completeFailedMergeDelivery key result
          { task with state := .awaitingMergeApproval, updatedAt := ambient.now }
          summary ambient.now = .ok next := by
  unfold completeFailedDelivery at hok
  split at hok
  · exact .inl (persisted_eq_ok.1 hok)
  · rename_i hmerge
    rw [bind_eq_ok] at hok
    obtain ⟨task, htask, hok⟩ := hok
    split at hok
    · exact .inl (persisted_eq_ok.1 hok)
    · rename_i hstate
      simp only [bind_eq_ok, transitioned_eq_ok, persisted_eq_ok, Task.transition_eq_ok] at hok
      obtain ⟨_, ⟨-, rfl⟩, hok⟩ := hok
      exact .inr ⟨task, _, okOr_eq_ok.1 htask, not_not.mp hmerge, not_not.mp hstate, hok⟩

omit [Sha256] in
def recordAmbiguousDelivery (store : EventStore) (key : String) (result : Json) :
    Except DeliveryError EventStore :=
  persisted (store.markDeliveryAmbiguous key result)

end Completion

section Reconciliation

def completionLifecycle : List (TaskState × TaskState × String) := [
  (.awaitingDeliveryApproval, .delivering,
    "GitHub completion reconciled into the durable task lifecycle"),
  (.delivering, .monitoring, "GitHub completion reconciled into the durable task lifecycle"),
  (.monitoring, .awaitingMergeApproval,
    "GitHub completion reconciled into the durable task lifecycle"),
  (.awaitingMergeApproval, .merging,
    "GitHub completion reconciled into the durable task lifecycle"),
  (.merging, .completed, "GitHub confirmed the task outcome is complete")]

/-- The events that take a task from where it is to completion. -/
def completionEvents (now : DateTime) (task : Task) :
    Except DeliveryError (List (Task × String)) :=
  match remaining completionLifecycle task.state with
  | none => .error (.persistence
      ("completed task cannot reconcile from " ++ task.state.display))
  | some edges => transitioned (advance now task edges)

/-- The snapshot item shows the outcome of the task. -/
def outcomeCompleted (task : Task) (item : GitHubWorkItem) : Except DeliveryError Bool :=
  match item.kind with
  | .pullRequest => do
      ensure (task.source.headSha = item.headSha) .preconditionMismatch
      return item.merged = some true
  | .issue => .ok (item.state = "closed" ∧ item.stateReason ≠ some "not_planned")

def reconciledFailure : Json := .obj [
  ("state", .str "failed"),
  ("error", .str
    "fresh GitHub reconciliation confirmed the approved merge did not complete")]

def reconciledSuccess (item : GitHubWorkItem) : Json := .obj [
  ("state", .str "succeeded"),
  ("result", .obj [
    ("merged", .bool true),
    ("sha", .ofOption .str item.mergeCommitSha)])]

/-- Commit the events that complete a task, with the ambiguous delivery they
settle, if there is one. -/
def commitCompletion (store : EventStore) (ambiguousKey : Option String) (result : Json)
    (events : List (Task × String)) (now : DateTime) : Except DeliveryError EventStore :=
  match ambiguousKey with
  | some key => persisted (store.completeDeliveryWithTaskEvents key result events now)
  | none => .ok (store.saveTaskEvents events)

/-- Settle a task against a snapshot of its repository.  An ambiguous merge is
recorded as succeeded or failed with it. -/
def reconcileCompletedTaskFromSnapshot (ambient : Ambient) (store : EventStore)
    (taskId : TaskId) (snapshot : GitHubRepositorySnapshot) :
    Except DeliveryError (EventStore × Task) := do
  let task ← okOr .taskMissing (store.loadTask taskId)
  let repositoryId ← okOr .sourceMismatch task.source.repositoryId
  let repositoryFullName ← okOr .sourceMismatch task.source.repositoryFullName
  let number ← okOr .sourceMismatch task.source.itemNumber
  ensure (snapshot.repository.id = repositoryId ∧
    snapshot.repository.fullName = repositoryFullName) .sourceMismatch
  let item ← okOr .remoteItemMissing (snapshot.item? number)
  let completed ← outcomeCompleted task item
  let ambiguousKey :=
    if task.state = .merging then store.ambiguousDeliveryForTask taskId else none
  if ¬ completed then
    match ambiguousKey with
    | none => throw .remoteNotCompleted
    | some key =>
        ensure (item.kind = .pullRequest) .remoteNotCompleted
        let retry ← transitioned (task.transition .awaitingMergeApproval ambient.now)
        let store ← persisted (store.completeFailedMergeDelivery key reconciledFailure retry
          "Fresh GitHub reconciliation found no merge; fresh merge approval is required"
          ambient.now)
        return (store, retry)
  else if task.state = .completed then
    return (store, task)
  else
    let events ← completionEvents ambient.now task
    let store ← commitCompletion store ambiguousKey (reconciledSuccess item) events ambient.now
    let (last, _) ← okOr .taskMissing events.getLast?
    return (store, last)

/-- What a reconciliation that succeeds has found and written. -/
theorem reconcileCompletedTaskFromSnapshot_eq_ok {ambient : Ambient} {store next : EventStore}
    {taskId : TaskId} {snapshot : GitHubRepositorySnapshot} {last : Task}
    (hok : reconcileCompletedTaskFromSnapshot ambient store taskId snapshot =
      .ok (next, last)) :
    ∃ task item completed, store.loadTask taskId = some task ∧
      outcomeCompleted task item = .ok completed ∧
      ((completed = true ∧ task.state = .completed ∧ next = store) ∨
        (completed = true ∧ ∃ events, completionEvents ambient.now task = .ok events ∧
          ((∃ key, task.state = .merging ∧ store.ambiguousDeliveryForTask taskId = some key ∧
              store.completeDeliveryWithTaskEvents key (reconciledSuccess item) events
                ambient.now = .ok next) ∨
            (task.state = .merging → store.ambiguousDeliveryForTask taskId = none) ∧
              next = store.saveTaskEvents events)) ∨
        (completed = false ∧ item.kind = .pullRequest ∧ task.state = .merging ∧
          ∃ key summary, store.ambiguousDeliveryForTask taskId = some key ∧
            store.completeFailedMergeDelivery key reconciledFailure
              { task with state := .awaitingMergeApproval, updatedAt := ambient.now }
              summary ambient.now = .ok next)) := by
  unfold reconcileCompletedTaskFromSnapshot at hok
  simp only [bind_eq_ok, okOr_eq_ok, ensure_eq_ok] at hok
  obtain ⟨task, htask, repositoryId, -, fullName, -, number, -, -, -, item, -, completed,
    hcompleted, hok⟩ := hok
  refine ⟨task, item, completed, htask, hcompleted, ?_⟩
  cases completed with
  | false =>
      right; right
      simp only [Bool.false_eq_true, not_false_eq_true, if_true] at hok
      split at hok
      · simp at hok
      · rename_i key hkey
        simp only [bind_eq_ok, ensure_eq_ok, transitioned_eq_ok, persisted_eq_ok, pure_eq_ok,
          Task.transition_eq_ok, Prod.mk.injEq] at hok
        obtain ⟨-, hkind, _, ⟨-, rfl⟩, _, hfailed, rfl, rfl⟩ := hok
        split at hkey
        · rename_i hstate
          exact ⟨rfl, hkind, hstate, key, _, hkey, hfailed⟩
        · simp at hkey
  | true =>
      simp only [not_true_eq_false, if_false] at hok
      split at hok
      · rename_i hstate
        rw [pure_eq_ok, Prod.mk.injEq] at hok
        exact .inl ⟨rfl, hstate, hok.1.symm⟩
      · right; left
        simp only [bind_eq_ok, okOr_eq_ok, pure_eq_ok, Prod.mk.injEq] at hok
        obtain ⟨events, hevents, settled, hsettled, _, -, rfl, -⟩ := hok
        refine ⟨rfl, events, hevents, ?_⟩
        unfold commitCompletion at hsettled
        split at hsettled
        · rename_i key hkey
          split at hkey
          · rename_i hstate
            exact .inl ⟨key, hstate, hkey, persisted_eq_ok.1 hsettled⟩
          · simp at hkey
        · rename_i hkey
          refine .inr ⟨fun hstate => ?_, ?_⟩
          · rwa [if_pos hstate] at hkey
          · simpa using hsettled.symm

end Reconciliation

/-! ### A pull request and its merge -/

namespace Sample

def taskId : TaskId := ⟨⟨1⟩⟩

def bindingId : RepositoryBindingId := ⟨⟨2⟩⟩

def headSha : String := "aaaaaaaaaaaaaaaaaaaaaaaaaaaaaaaaaaaaaaaa"

def baseSha : String := "bbbbbbbbbbbbbbbbbbbbbbbbbbbbbbbbbbbbbbbb"

def remote : RemoteIdentity := ⟨42, 9, "octo/demo"⟩

def mergeAction : GitHubAction := .mergePullRequest 7 headSha .squash

def mergePrecondition : RemotePrecondition := ⟨some headSha, none, 1⟩

/-- SHA-256 on the texts of the sample, told apart by their lengths. -/
def recordedDigests : List (Nat × BitVec 256) := [
  (21, 0x076891e23daf28903539f407ee3bafe1c3ac4da8ef8ae23580ab91872897325d),
  (2, 0x4f53cda18c2baa0c0354bb5f9a3ecbe5ed12ab4d8e11ba873c2f11161202b945),
  (18, 0xd03e737df37943745a52baa872fe7cea71a80d4c23322782a07f56892058d4ea),
  (128, 0x55d3237a065a68917ec84fe786d28e834bbf0879da09631701dabf6875236a76),
  (311, 0x6cda83455ea50ebab53c292c6b462a149d61d1163f0c73ec37d3a8a1bea5d0b5),
  (521, 0xd2665115c728415e315eb5717af2dcd3cdd2d1e7c524e7e9ae0bbe6d2aff35bd)]

scoped instance sha256 : Sha256 where
  digest text := (recordedDigests.lookup text.utf8ByteSize).getD 0

def source : TaskSource := .gitHubPullRequest {
  repositoryId := 42
  repositoryFullName := "octo/demo"
  number := 7
  htmlUrl := "https://github.com/octo/demo/pull/7"
  snapshotAt := 0
  baseRef := "main"
  baseSha := baseSha
  headRef := "feature"
  headSha := headSha }

def task (state : TaskState) : Task where
  id := taskId
  title := "Merge the parser fix"
  repositoryPath := "/work/demo"
  state := state
  createdAt := 0
  updatedAt := 0
  interruption := none
  source := source
  repositoryBindingId := some bindingId
  contractVersion := 2
  checkpointId := none

def contract : TaskContract where
  version := 2
  taskId := taskId
  source := source
  repositoryBindingId := bindingId
  goal := "Complete GitHub pull request #7 in octo/demo: Merge the parser fix"
  acceptanceCriteria := ["Review feedback and checks are assessed against the captured head."]
  baseSha := some baseSha
  headSha := some headSha
  sourceSha256 := String.ofList (List.replicate 64 'd')
  repositorySha256 := String.ofList (List.replicate 64 'e')
  instructionDigests := []
  verificationCommands := [⟨"cargo", ["test"]⟩]
  requiredCapabilities := [.mergePullRequest, .postComment]
  risk := .moderate
  sensitivePaths := []
  dependencies := []

def binding : RepositoryBinding where
  id := bindingId
  githubRepositoryId := 42
  fullName := "octo/demo"
  installationId := 9
  cloneUrl := "https://github.com/octo/demo.git"
  defaultBranch := "main"
  userCheckout := none
  managedClone := some "/work/clone"
  stateRoot := "/work/state"
  worktreeRoot := "/work/trees"

/-- A store that holds the task in a given state, its contract and its binding. -/
def store (state : TaskState) : EventStore :=
  { EventStore.empty with
    tasks := AList.singleton taskId (task state)
    taskEvents := [{ taskId := taskId, summary := "task imported", payload := task state }]
    taskContracts := AList.singleton taskId contract
    repositoryBindings := AList.singleton bindingId binding }

def ambient : Ambient where
  now := 0
  policy := ⟨false⟩
  inspectHeadSha _ := none

def mergePreview : DeliveryPreview where
  taskId := taskId
  action := .new remote mergeAction mergePrecondition
  fingerprint := fingerprintDraft taskId contract (.new remote mergeAction mergePrecondition)

def mergeKey : String := mergePreview.action.idempotencySha256

end Sample

end Patchwright
