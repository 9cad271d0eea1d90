import Patchwright.Library.Checked
import Patchwright.Core.Identity

/-!
# Capabilities, approvals and the policy

An action needs a capability, and a capability needs an approval of one class.
An approval carries the fingerprint of the one action it was given for and a
short time window.  The policy decides from these, and from the global kill
switch, whether an action may run.
-/

namespace Patchwright

open Checked

def maxApprovalDuration : Duration := minutes 30

inductive Capability where
  | readRepository
  | prepareWorktree
  | modifyWorktree
  | runKnownCommand
  | accessNetwork
  | installDependency
  | createBranch
  | pushBranch
  | createPullRequest
  | postComment
  | postReview
  | resolveThread
  | createCheckRun
  | updatePullRequestBranch
  | readyPullRequest
  | closePullRequest
  | closeIssue
  | modifyWorkflow
  | enqueuePullRequest
  | mergePullRequest
  | administratorBypass
  deriving DecidableEq, Repr

/-- The name of a capability in a fingerprint. -/
def Capability.actionKind : Capability → String
  | readRepository => "readRepository"
  | prepareWorktree => "prepareWorktree"
  | modifyWorktree => "modifyWorktree"
  | runKnownCommand => "runKnownCommand"
  | accessNetwork => "accessNetwork"
  | installDependency => "installDependency"
  | createBranch => "createBranch"
  | pushBranch => "pushBranch"
  | createPullRequest => "createPullRequest"
  | postComment => "postComment"
  | postReview => "postReview"
  | resolveThread => "resolveThread"
  | createCheckRun => "createCheckRun"
  | updatePullRequestBranch => "updatePullRequestBranch"
  | readyPullRequest => "readyPullRequest"
  | closePullRequest => "closePullRequest"
  | closeIssue => "closeIssue"
  | modifyWorkflow => "modifyWorkflow"
  | enqueuePullRequest => "enqueuePullRequest"
  | mergePullRequest => "mergePullRequest"
  | administratorBypass => "administratorBypass"

/-- The name of a capability in a message. -/
def Capability.debug (capability : Capability) : String :=
  match capability.actionKind.toList with
  | [] => ""
  | first :: rest => String.ofList (first.toUpper :: rest)

inductive ApprovalClass where
  | preparation
  | codexRuntime
  | localCapability
  | gitHubDelivery
  | merge
  deriving DecidableEq, Repr

def ApprovalClass.debug : ApprovalClass → String
  | preparation => "Preparation"
  | codexRuntime => "CodexRuntime"
  | localCapability => "LocalCapability"
  | gitHubDelivery => "GitHubDelivery"
  | merge => "Merge"

/-- The one approval class that can grant a capability. -/
def requiredClass : Capability → ApprovalClass
  | .prepareWorktree => .preparation
  | .mergePullRequest | .enqueuePullRequest => .merge
  | .accessNetwork | .installDependency | .modifyWorkflow => .localCapability
  | .readRepository | .modifyWorktree | .runKnownCommand => .codexRuntime
  | .createBranch | .pushBranch | .createPullRequest | .postComment | .postReview
  | .resolveThread | .createCheckRun | .updatePullRequestBranch | .readyPullRequest
  | .closePullRequest | .closeIssue => .gitHubDelivery
  | .administratorBypass => .localCapability

def classSupports : ApprovalClass → Capability → Bool
  | .preparation, .prepareWorktree => true
  | .codexRuntime, .modifyWorktree | .codexRuntime, .runKnownCommand => true
  | .localCapability, .accessNetwork | .localCapability, .installDependency
  | .localCapability, .modifyWorkflow => true
  | .gitHubDelivery, .createBranch | .gitHubDelivery, .pushBranch
  | .gitHubDelivery, .createPullRequest | .gitHubDelivery, .postComment
  | .gitHubDelivery, .postReview | .gitHubDelivery, .resolveThread
  | .gitHubDelivery, .createCheckRun | .gitHubDelivery, .updatePullRequestBranch
  | .gitHubDelivery, .readyPullRequest | .gitHubDelivery, .closePullRequest
  | .gitHubDelivery, .closeIssue => true
  | .merge, .enqueuePullRequest | .merge, .mergePullRequest => true
  | _, _ => false

inductive ApprovalError where
  | invalidField (field : String)
  | invalidExpiration
  | incompatibleClass (cls : ApprovalClass) (capability : Capability)
  deriving DecidableEq, Repr

def ApprovalError.message : ApprovalError → String
  | invalidField field => "invalid approval field: " ++ field
  | invalidExpiration => "approval expiration must be after approval and within 30 minutes"
  | incompatibleClass cls capability =>
      cls.debug ++ " approval cannot grant " ++ capability.debug

/-- The identity of one exact action: what it does, where, from which commits,
under which policy and instructions, and for which snapshot generation. -/
structure ActionFingerprint where
  taskId : TaskId
  githubRepositoryId : Nat
  repositoryFullName : String
  actionKind : String
  pullRequestNumber : Option Nat
  branch : Option String
  headSha : Option String
  baseSha : Option String
  payloadSha256 : String
  policySha256 : String
  instructionSha256 : String
  invalidationGeneration : Nat
  deriving DecidableEq, Repr

/-- A draft has the fields of a fingerprint, before they are checked. -/
abbrev ActionFingerprintDraft := ActionFingerprint

def validateRepositoryName (value : String) : Except ApprovalError Unit :=
  match splitOnce value '/' with
  | none => .error (.invalidField "repositoryFullName")
  | some (owner, name) =>
      ensure (¬ (trim owner = "" ∨ trim name = "" ∨ '/' ∈ name.toList ∨
        value.toList.any (fun char => isWhitespace char || isControl char)))
        (.invalidField "repositoryFullName")

def validatedText (value field : String) : Except ApprovalError String := do
  let value := trim value
  ensure (¬ (value = "" ∨ value.toList.any isControl)) (.invalidField field)
  return value

def validatedOptionalText (value : Option String) (field : String) :
    Except ApprovalError (Option String) :=
  match value with
  | none => .ok none
  | some value => do return some (← validatedText value field)

def validateOptionalGitSha (value : Option String) (field : String) :
    Except ApprovalError Unit :=
  ensure (∀ sha ∈ value, isGitSha sha) (.invalidField field)

def validateSha256 (value field : String) : Except ApprovalError Unit :=
  ensure (isSha256Hex value) (.invalidField field)

/-- A draft whose fields all pass becomes a fingerprint; the action kind and
the branch are trimmed. -/
def ActionFingerprint.tryFrom (draft : ActionFingerprintDraft) :
    Except ApprovalError ActionFingerprint := do
  ensure (draft.githubRepositoryId ≠ 0) (.invalidField "githubRepositoryId")
  validateRepositoryName draft.repositoryFullName
  let actionKind ← validatedText draft.actionKind "actionKind"
  ensure (draft.pullRequestNumber ≠ some 0) (.invalidField "pullRequestNumber")
  let branch ← validatedOptionalText draft.branch "branch"
  validateOptionalGitSha draft.headSha "headSha"
  validateOptionalGitSha draft.baseSha "baseSha"
  validateSha256 draft.payloadSha256 "payloadSha256"
  validateSha256 draft.policySha256 "policySha256"
  validateSha256 draft.instructionSha256 "instructionSha256"
  return { draft with actionKind, branch }

def ActionFingerprint.toJson (fingerprint : ActionFingerprint) : Json :=
  .obj [
    ("taskId", .str fingerprint.taskId.toString),
    ("githubRepositoryId", .int fingerprint.githubRepositoryId),
    ("repositoryFullName", .str fingerprint.repositoryFullName),
    ("actionKind", .str fingerprint.actionKind),
    ("pullRequestNumber", .ofOption (fun number => .int number) fingerprint.pullRequestNumber),
    ("branch", .ofOption .str fingerprint.branch),
    ("headSha", .ofOption .str fingerprint.headSha),
    ("baseSha", .ofOption .str fingerprint.baseSha),
    ("payloadSha256", .str fingerprint.payloadSha256),
    ("policySha256", .str fingerprint.policySha256),
    ("instructionSha256", .str fingerprint.instructionSha256),
    ("invalidationGeneration", .int fingerprint.invalidationGeneration)]

/-- The canonical digest under which an approval is stored. -/
def ActionFingerprint.digestSha256 [Sha256] (fingerprint : ActionFingerprint) : String :=
  sha256Hex fingerprint.toJson.compact

structure Approval where
  id : Uuid
  cls : ApprovalClass
  capability : Capability
  fingerprint : ActionFingerprint
  approvedBy : String
  approvedAt : DateTime
  expiresAt : DateTime
  deriving DecidableEq, Repr

/-- An approval for one fingerprint and a window of at most thirty minutes.
The identifier is the random one the source draws. -/
def Approval.new (id : Uuid) (cls : ApprovalClass) (capability : Capability)
    (fingerprint : ActionFingerprint) (approvedBy : String)
    (approvedAt expiresAt : DateTime) : Except ApprovalError Approval := do
  let approvedBy ← validatedText approvedBy "approvedBy"
  ensure (¬ (expiresAt ≤ approvedAt ∨ expiresAt - approvedAt > maxApprovalDuration))
    .invalidExpiration
  ensure (classSupports cls capability) (.incompatibleClass cls capability)
  ensure (fingerprint.actionKind = capability.actionKind) (.invalidField "actionKind")
  return { id, cls, capability, fingerprint, approvedBy, approvedAt, expiresAt }

/-- The approval is exactly the one needed, and the clock is inside its window. -/
def Approval.IsValidFor (approval : Approval) (cls : ApprovalClass)
    (capability : Capability) (fingerprint : ActionFingerprint) (now : DateTime) : Prop :=
  approval.cls = cls ∧ approval.capability = capability ∧
    approval.fingerprint = fingerprint ∧ approval.approvedAt ≤ now ∧ now < approval.expiresAt

instance (approval : Approval) (cls : ApprovalClass) (capability : Capability)
    (fingerprint : ActionFingerprint) (now : DateTime) :
    Decidable (approval.IsValidFor cls capability fingerprint now) :=
  inferInstanceAs (Decidable (_ ∧ _ ∧ _ ∧ _ ∧ _))

inductive PolicyDecision where
  | allowed
  | approvalRequired (message : String)
  | denied (message : String)
  deriving DecidableEq, Repr

structure Policy where
  automationDisabled : Bool
  deriving DecidableEq, Repr

/-- The capabilities that run without an approval. -/
def Capability.isUnattended : Capability → Bool
  | readRepository | modifyWorktree | runKnownCommand => true
  | _ => false

def Policy.authorize (policy : Policy) (capability : Capability)
    (fingerprint : ActionFingerprint) (approval : Option Approval) (now : DateTime) :
    PolicyDecision :=
  if capability = .administratorBypass then
    .denied "administrator bypass is prohibited"
  else if fingerprint.actionKind ≠ capability.actionKind then
    .denied "action fingerprint does not match capability"
  else if policy.automationDisabled ∧ capability ≠ .readRepository then
    .denied "automation kill switch is active"
  else if capability.isUnattended then
    .allowed
  else if ∃ value ∈ approval,
      value.IsValidFor (requiredClass capability) capability fingerprint now then
    .allowed
  else
    .approvalRequired (capability.debug ++ " requires an exact " ++
      (requiredClass capability).debug ++ " approval")

/-- Outside the unattended capabilities, the policy allows an action only on an
approval of the required class for its exact fingerprint inside the window. -/
theorem Policy.authorize_eq_allowed {policy : Policy} {capability : Capability}
    {fingerprint : ActionFingerprint} {approval : Approval} {now : DateTime}
    (hattended : capability.isUnattended = false)
    (hallowed : policy.authorize capability fingerprint (some approval) now = .allowed) :
    approval.IsValidFor (requiredClass capability) capability fingerprint now := by
  unfold Policy.authorize at hallowed
  split_ifs at hallowed with hbypass hkind hswitch hfree hvalid
  · rw [hattended] at hfree
    exact absurd hfree Bool.false_ne_true
  · obtain ⟨value, hvalue, hvalid⟩ := hvalid
    cases Option.mem_some_iff.mp hvalue
    exact hvalid

end Patchwright
