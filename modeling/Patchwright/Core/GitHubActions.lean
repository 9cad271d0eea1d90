import Patchwright.Core.Policy

/-!
# GitHub actions and their previews

The writes the engine can make on GitHub, the remote repository and the
precondition a write is bound to, and the preview that joins the three.  A
preview carries the digest of its action and the idempotency key of the whole;
both are fixed by a field of the structure, so a preview with a foreign digest
cannot be built.
-/

namespace Patchwright

inductive ReviewEvent where
  | approve
  | requestChanges
  | comment
  | pending
  deriving DecidableEq, Repr

def ReviewEvent.name : ReviewEvent → String
  | approve => "approve"
  | requestChanges => "requestChanges"
  | comment => "comment"
  | pending => "pending"

inductive MergeMethod where
  | merge
  | squash
  | rebase
  deriving DecidableEq, Repr

def MergeMethod.name : MergeMethod → String
  | merge => "merge"
  | squash => "squash"
  | rebase => "rebase"

structure InlineReviewComment where
  path : String
  line : Nat
  body : String
  deriving DecidableEq, Repr

def InlineReviewComment.toJson (comment : InlineReviewComment) : Json :=
  .obj [("path", .str comment.path), ("line", .int comment.line), ("body", .str comment.body)]

inductive GitHubAction where
  | createBranch (branch fromSha : String)
  | pushIntent (branch headSha : String)
  | comment (issueNumber : Nat) (body : String)
  | review (pullRequestNumber : Nat) (expectedHeadSha : String) (event : ReviewEvent)
      (body : String) (inlineComments : List InlineReviewComment)
  | resolveReviewThread (pullRequestNumber : Nat) (threadId expectedHeadSha : String)
  | checkRun (name headSha status : String) (conclusion : Option String)
  | draftPullRequest (title head base body expectedHeadSha expectedBaseSha : String)
  | updatePullRequestBranch (pullRequestNumber : Nat) (expectedHeadSha : String)
  | readyPullRequest (pullRequestNumber : Nat) (expectedHeadSha : String)
  | closePullRequest (pullRequestNumber : Nat) (expectedHeadSha : String)
  | closeIssue (issueNumber : Nat)
  | enqueuePullRequest (pullRequestNumber : Nat) (expectedHeadSha : String)
  | mergePullRequest (pullRequestNumber : Nat) (expectedHeadSha : String) (method : MergeMethod)
  deriving DecidableEq, Repr

namespace GitHubAction

def capability : GitHubAction → Capability
  | createBranch .. => .createBranch
  | pushIntent .. => .pushBranch
  | comment .. => .postComment
  | review .. => .postReview
  | resolveReviewThread .. => .resolveThread
  | checkRun .. => .createCheckRun
  | draftPullRequest .. => .createPullRequest
  | updatePullRequestBranch .. => .updatePullRequestBranch
  | readyPullRequest .. => .readyPullRequest
  | closePullRequest .. => .closePullRequest
  | closeIssue .. => .closeIssue
  | enqueuePullRequest .. => .enqueuePullRequest
  | mergePullRequest .. => .mergePullRequest

def actionKind (action : GitHubAction) : String := action.capability.actionKind

/-- The number the action addresses, an issue number included. -/
def pullRequestNumber : GitHubAction → Option Nat
  | review number .. | resolveReviewThread number .. | updatePullRequestBranch number ..
  | closePullRequest number .. | readyPullRequest number .. | enqueuePullRequest number ..
  | mergePullRequest number .. => some number
  | comment number .. | closeIssue number => some number
  | createBranch .. | pushIntent .. | checkRun .. | draftPullRequest .. => none

def branch : GitHubAction → Option String
  | createBranch branch _ | pushIntent branch _ => some branch
  | draftPullRequest _ head .. => some head
  | _ => none

def expectedHeadSha : GitHubAction → Option String
  | review _ sha .. | updatePullRequestBranch _ sha | resolveReviewThread _ _ sha
  | draftPullRequest _ _ _ _ sha _ | readyPullRequest _ sha | closePullRequest _ sha
  | enqueuePullRequest _ sha | mergePullRequest _ sha _ => some sha
  | _ => none

def expectedBaseSha : GitHubAction → Option String
  | createBranch _ fromSha => some fromSha
  | draftPullRequest _ _ _ _ _ sha => some sha
  | _ => none

/-- The serialized action, its kind first. -/
def toJson : GitHubAction → Json
  | createBranch branch fromSha =>
      .obj [("kind", .str "createBranch"), ("branch", .str branch), ("fromSha", .str fromSha)]
  | pushIntent branch headSha =>
      .obj [("kind", .str "pushIntent"), ("branch", .str branch), ("headSha", .str headSha)]
  | comment issueNumber body =>
      .obj [("kind", .str "comment"), ("issueNumber", .int issueNumber), ("body", .str body)]
  | review number sha event body inlineComments =>
      .obj [("kind", .str "review"), ("pullRequestNumber", .int number),
        ("expectedHeadSha", .str sha), ("event", .str event.name), ("body", .str body),
        ("inlineComments", .arr (inlineComments.map InlineReviewComment.toJson))]
  | resolveReviewThread number threadId sha =>
      .obj [("kind", .str "resolveReviewThread"), ("pullRequestNumber", .int number),
        ("threadId", .str threadId), ("expectedHeadSha", .str sha)]
  | checkRun name headSha status conclusion =>
      .obj [("kind", .str "checkRun"), ("name", .str name), ("headSha", .str headSha),
        ("status", .str status), ("conclusion", .ofOption .str conclusion)]
  | draftPullRequest title head base body headSha baseSha =>
      .obj [("kind", .str "draftPullRequest"), ("title", .str title), ("head", .str head),
        ("base", .str base), ("body", .str body), ("expectedHeadSha", .str headSha),
        ("expectedBaseSha", .str baseSha)]
  | updatePullRequestBranch number sha =>
      .obj [("kind", .str "updatePullRequestBranch"), ("pullRequestNumber", .int number),
        ("expectedHeadSha", .str sha)]
  | readyPullRequest number sha =>
      .obj [("kind", .str "readyPullRequest"), ("pullRequestNumber", .int number),
        ("expectedHeadSha", .str sha)]
  | closePullRequest number sha =>
      .obj [("kind", .str "closePullRequest"), ("pullRequestNumber", .int number),
        ("expectedHeadSha", .str sha)]
  | closeIssue issueNumber =>
      .obj [("kind", .str "closeIssue"), ("issueNumber", .int issueNumber)]
  | enqueuePullRequest number sha =>
      .obj [("kind", .str "enqueuePullRequest"), ("pullRequestNumber", .int number),
        ("expectedHeadSha", .str sha)]
  | mergePullRequest number sha method =>
      .obj [("kind", .str "mergePullRequest"), ("pullRequestNumber", .int number),
        ("expectedHeadSha", .str sha), ("method", .str method.name)]

/-- The token permissions an action asks for. -/
def permissionsFor : GitHubAction → List String
  | createBranch .. | pushIntent .. => ["contents:write", "metadata:read"]
  | comment .. | closeIssue .. => ["issues:write", "metadata:read"]
  | review .. | resolveReviewThread .. | draftPullRequest .. | updatePullRequestBranch ..
  | readyPullRequest .. | closePullRequest .. | enqueuePullRequest .. | mergePullRequest .. =>
      ["pull_requests:write", "metadata:read"]
  | checkRun .. => ["checks:write", "metadata:read"]

/-- No GitHub action runs without an approval. -/
@[simp]
theorem capability_isUnattended (action : GitHubAction) :
    action.capability.isUnattended = false := by
  cases action <;> rfl

/-- The two actions that merge a pull request, at once or through the queue. -/
def isMerge (action : GitHubAction) : Bool :=
  action.capability = .mergePullRequest || action.capability = .enqueuePullRequest

end GitHubAction

structure RemoteIdentity where
  repositoryId : Nat
  installationId : Nat
  repositoryFullName : String
  deriving DecidableEq, Repr

def RemoteIdentity.toJson (remote : RemoteIdentity) : Json :=
  .obj [
    ("repositoryId", .int remote.repositoryId),
    ("installationId", .int remote.installationId),
    ("repositoryFullName", .str remote.repositoryFullName)]

structure RemotePrecondition where
  expectedHeadSha : Option String
  expectedBaseSha : Option String
  snapshotGeneration : Nat
  deriving DecidableEq, Repr

def RemotePrecondition.toJson (precondition : RemotePrecondition) : Json :=
  .obj [
    ("expectedHeadSha", .ofOption .str precondition.expectedHeadSha),
    ("expectedBaseSha", .ofOption .str precondition.expectedBaseSha),
    ("snapshotGeneration", .int precondition.snapshotGeneration)]

section Preview

variable [Sha256]

def payloadDigest (action : GitHubAction) : String := sha256Hex action.toJson.compact

/-- The key under which a write is claimed: a digest of where it goes, what it
does and under which precondition. -/
def idempotencyDigest (remote : RemoteIdentity) (action : GitHubAction)
    (precondition : RemotePrecondition) : String :=
  sha256Hex (Json.arr [remote.toJson, action.toJson, precondition.toJson]).compact

structure GitHubActionPreview where
  remote : RemoteIdentity
  action : GitHubAction
  precondition : RemotePrecondition
  payloadSha256 : String
  idempotencySha256 : String
  requiredPermissions : List String
  digests_eq : payloadSha256 = payloadDigest action ∧
    idempotencySha256 = idempotencyDigest remote action precondition ∧
    requiredPermissions = action.permissionsFor
  deriving DecidableEq

def GitHubActionPreview.new (remote : RemoteIdentity) (action : GitHubAction)
    (precondition : RemotePrecondition) : GitHubActionPreview where
  remote := remote
  action := action
  precondition := precondition
  payloadSha256 := payloadDigest action
  idempotencySha256 := idempotencyDigest remote action precondition
  requiredPermissions := action.permissionsFor
  digests_eq := ⟨rfl, rfl, rfl⟩

/-- A preview is determined by its remote, its action and its precondition. -/
theorem GitHubActionPreview.eq_new (preview : GitHubActionPreview) :
    preview = .new preview.remote preview.action preview.precondition := by
  obtain ⟨remote, action, precondition, payload, key, permissions, rfl, rfl, rfl⟩ := preview
  rfl

end Preview

end Patchwright
