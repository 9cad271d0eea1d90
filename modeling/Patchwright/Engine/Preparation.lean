import Patchwright.Engine.Delivery

/-!
# Preparing a worktree

A planned task is prepared on an approval of its own class.  The preview binds
the contract, the repository and the worktree to one fingerprint; the approval
is claimed once, and the claim is completed when the preparation has ended.
-/

namespace Patchwright

open Checked

inductive PreparationError where
  | taskMissing
  | taskStateInvalid
  | bindingMissing
  | contractMissing
  | bindingMismatch
  | sourceShaMissing
  | repositoryUnavailable
  | fingerprintInvalid
  | previewStale
  | approvalMissing
  | approvalInvalid
  | approvalAlreadyUsed
  | taskInProgress
  | policyDenied
  deriving DecidableEq, Repr

def PreparationError.message : PreparationError → String
  | taskMissing => "task is missing"
  | taskStateInvalid => "task is not awaiting preparation approval"
  | bindingMissing => "task repository binding is missing"
  | contractMissing => "task contract is missing"
  | bindingMismatch => "task repository binding does not match its contract"
  | sourceShaMissing => "task contract has no captured source SHA"
  | repositoryUnavailable => "task repository has no managed clone or checkout"
  | fingerprintInvalid => "preparation fingerprint is invalid"
  | previewStale => "preparation preview is stale"
  | approvalMissing => "preparation approval is missing"
  | approvalInvalid => "preparation approval is expired, invalid, or mismatched"
  | approvalAlreadyUsed => "preparation approval was already used"
  | taskInProgress => "another preparation is already active for this task"
  | policyDenied => "preparation policy denied the action"

structure PreparationPreview where
  taskId : TaskId
  repositoryBindingId : RepositoryBindingId
  repositoryFullName : String
  repositoryPath : String
  sourceSha : String
  worktreePath : String
  branch : String
  invalidationGeneration : Nat
  policySha256 : String
  instructionSha256 : String
  contract : TaskContract
  fingerprint : ActionFingerprint
  deriving DecidableEq

/-- A relative path below a root. -/
def joinPath (root path : String) : String :=
  match root.toList.getLast? with
  | none => path
  | some '/' => root ++ path
  | some _ => root ++ "/" ++ path

section Authorization

variable [Sha256]

def preparationPolicyDigest : String := sha256Hex "patchwright-preparation-policy-v1"

/-- The digest of everything a preparation depends on. -/
def preparationPayloadDigest (taskId : TaskId) (bindingId : RepositoryBindingId)
    (repositoryFullName repositoryPath sourceSha worktreePath branch : String)
    (generation : Nat) (contract : TaskContract) : String :=
  sha256Hex (Json.compact (.obj [
    ("taskId", .str taskId.toString),
    ("repositoryBindingId", .str bindingId.uuid.toString),
    ("repositoryFullName", .str repositoryFullName),
    ("repositoryPath", .str repositoryPath),
    ("sourceSha", .str sourceSha),
    ("worktreePath", .str worktreePath),
    ("branch", .str branch),
    ("invalidationGeneration", .int generation),
    ("contractSha256", .str (sha256Hex contract.toJson.compact))]))

/-- Check that a task may be prepared, and how.  The generation is the instant
of its last change, in microseconds. -/
def previewPreparation (store : EventStore) (taskId : TaskId) :
    Except PreparationError PreparationPreview := do
  let task ← okOr .taskMissing (store.loadTask taskId)
  ensure (task.state = .awaitingPreparationApproval) .taskStateInvalid
  let bindingId ← okOr .bindingMissing task.repositoryBindingId
  let binding ← okOr .bindingMissing (store.repositoryBinding bindingId)
  let contract ← okOr .contractMissing (store.taskContract taskId)
  ensure (contract.repositoryBindingId = bindingId ∧ contract.taskId = task.id) .bindingMismatch
  let sourceSha ← okOr .sourceShaMissing (contract.headSha.orElse fun _ => contract.baseSha)
  let repositoryPath ← okOr .repositoryUnavailable
    (binding.managedClone.orElse fun _ => binding.userCheckout)
  let worktreePath := joinPath binding.worktreeRoot task.id.toString
  let branch := preparedBranch task.id
  let generation := (task.updatedAt / 1000).natAbs
  let fingerprint ← (ActionFingerprint.tryFrom {
    taskId
    githubRepositoryId := binding.githubRepositoryId
    repositoryFullName := binding.fullName
    actionKind := Capability.prepareWorktree.actionKind
    pullRequestNumber := none
    branch := some branch
    headSha := some sourceSha
    baseSha := none
    payloadSha256 := preparationPayloadDigest taskId bindingId binding.fullName repositoryPath
      sourceSha worktreePath branch generation contract
    policySha256 := preparationPolicyDigest
    instructionSha256 := instructionDigest contract
    invalidationGeneration := generation }).mapError fun _ => .fingerprintInvalid
  return {
    taskId, repositoryBindingId := bindingId, repositoryFullName := binding.fullName
    repositoryPath, sourceSha, worktreePath, branch, invalidationGeneration := generation
    policySha256 := preparationPolicyDigest, instructionSha256 := instructionDigest contract
    contract, fingerprint }

/-- Store an approval for a preparation that is still current. -/
def approvePreparation (ambient : Ambient) (store : EventStore) (preview : PreparationPreview)
    (approvedBy : String) (id : Uuid) : Except PreparationError (EventStore × Approval) := do
  let fresh ← previewPreparation store preview.taskId
  ensure (fresh = preview) .previewStale
  let approval ← (Approval.new id .preparation .prepareWorktree preview.fingerprint approvedBy
    ambient.now (ambient.now + minutes 10)).mapError fun _ => .approvalInvalid
  return (store.saveApproval approval, approval)

def preparationGate : PolicyDecision → Except PreparationError Unit
  | .allowed => .ok ()
  | .approvalRequired _ => .error .approvalInvalid
  | .denied _ => .error .policyDenied

def claimGate : PreparationClaimOutcome → Except PreparationError Unit
  | .claimed => .ok ()
  | .approvalUnavailable => .error .approvalInvalid
  | .alreadyClaimed => .error .approvalAlreadyUsed
  | .taskInProgress => .error .taskInProgress

/-- Check a preparation and its approval once more and claim it. -/
def authorizePreparation (ambient : Ambient) (store : EventStore) (preview : PreparationPreview)
    (approvalId : Uuid) : Except PreparationError EventStore := do
  let fresh ← previewPreparation store preview.taskId
  ensure (fresh = preview) .previewStale
  let approval ← okOr .approvalMissing (store.approval approvalId)
  preparationGate (ambient.policy.authorize .prepareWorktree preview.fingerprint (some approval)
    ambient.now)
  let (store, outcome) := store.claimPreparation approvalId preview.taskId
    preview.fingerprint.digestSha256 ambient.now
  claimGate outcome
  return store

theorem previewPreparation_eq_ok {store : EventStore} {taskId : TaskId}
    {preview : PreparationPreview} (hok : previewPreparation store taskId = .ok preview) :
    preview.taskId = taskId ∧ ∃ task, store.loadTask taskId = some task ∧
      task.state = .awaitingPreparationApproval := by
  unfold previewPreparation at hok
  simp only [bind_eq_ok, okOr_eq_ok, ensure_eq_ok, mapError_eq_ok, pure_eq_ok] at hok
  obtain ⟨task, htask, -, hstate, -, -, -, -, -, -, -, -, -, -, -, -, -, -, rfl⟩ := hok
  exact ⟨rfl, task, htask, hstate⟩

omit [Sha256] in
/-- A preparation is claimed on an approval without a claim, for a task without
an active one. -/
theorem claimPreparation_eq_claimed {store next : EventStore} {approvalId : Uuid}
    {taskId : TaskId} {actionDigest : String} {now : DateTime}
    (hclaim : store.claimPreparation approvalId taskId actionDigest now = (next, .claimed)) :
    store.preparationClaims.lookup approvalId = none ∧ ¬ store.PreparationActive taskId ∧
      next = { store with
        preparationClaims := store.preparationClaims.insert approvalId {
          taskId, actionDigest, claimedAt := now, result := none, completedAt := none } } := by
  unfold EventStore.claimPreparation at hclaim
  dsimp only at hclaim
  split at hclaim
  · next hfresh =>
      exact ⟨not_not.mp hfresh.2.1, hfresh.2.2, (Prod.mk.inj hclaim).1.symm⟩
  · split at hclaim
    · exact absurd (Prod.mk.inj hclaim).2 nofun
    · split at hclaim
      · exact absurd (Prod.mk.inj hclaim).2 nofun
      · exact absurd (Prod.mk.inj hclaim).2 nofun

/-- What a preparation that is authorised has found and written. -/
theorem authorizePreparation_eq_ok {ambient : Ambient} {store next : EventStore}
    {preview : PreparationPreview} {approvalId : Uuid}
    (hok : authorizePreparation ambient store preview approvalId = .ok next) :
    previewPreparation store preview.taskId = .ok preview ∧
      store.preparationClaims.lookup approvalId = none ∧
      ¬ store.PreparationActive preview.taskId ∧
      next = { store with
        preparationClaims := store.preparationClaims.insert approvalId {
          taskId := preview.taskId, actionDigest := preview.fingerprint.digestSha256
          claimedAt := ambient.now, result := none, completedAt := none } } := by
  unfold authorizePreparation at hok
  simp only [bind_eq_ok, okOr_eq_ok, ensure_eq_ok] at hok
  obtain ⟨fresh, hfresh, -, rfl, -, -, -, -, hok⟩ := hok
  cases hclaim : store.claimPreparation approvalId fresh.taskId
      fresh.fingerprint.digestSha256 ambient.now with
  | mk claimed outcome =>
      rw [hclaim] at hok
      cases outcome with
      | claimed =>
          simp only [claimGate, pure_eq_ok] at hok
          obtain ⟨-, -, rfl⟩ := hok
          exact ⟨hfresh, claimPreparation_eq_claimed hclaim⟩
      | approvalUnavailable => obtain ⟨_, ⟨⟩, -⟩ := hok
      | alreadyClaimed => obtain ⟨_, ⟨⟩, -⟩ := hok
      | taskInProgress => obtain ⟨_, ⟨⟩, -⟩ := hok

end Authorization

end Patchwright
