import Patchwright.Core.ActionIdentity
import Patchwright.Library.JsonRecord

/-!
# GitHub actions on the wire

The constructors of actions, their comments, remotes and preconditions, with
the checks and normalizations they make, and the readers of their serialized
forms.  A reader takes a value apart and hands its parts to the constructor.
-/

namespace Patchwright

open Checked

inductive GitHubActionError where
  | invalidField (field : String)
  | duplicateInlinePosition
  | serialization
  deriving DecidableEq, Repr

def GitHubActionError.message : GitHubActionError → String
  | invalidField field => "invalid GitHub action field: " ++ field
  | duplicateInlinePosition => "duplicate inline review position"
  | serialization => "GitHub action serialization failed"

/-! ### Checks -/

section Checks

def maxBodyBytes : Nat := 65536

def isAsciiAlphanumeric (char : Char) : Bool :=
  char.isDigit || ('a' ≤ char && char ≤ 'z') || ('A' ≤ char && char ≤ 'Z')

def validateNodeId (value : String) : Except GitHubActionError String := do
  ensure (value ≠ "" ∧ value.utf8ByteSize ≤ 256 ∧
    value.toList.all fun char => isAsciiAlphanumeric char || char = '_' || char = '-')
    (GitHubActionError.invalidField "threadId")
  return value

def validateNumber (value : Nat) : Except GitHubActionError Nat := do
  ensure (value ≠ 0) (GitHubActionError.invalidField "number")
  return value

def validateSha (value : String) : Except GitHubActionError String := do
  ensure (value.utf8ByteSize = 40 ∧ value.toList.all isAsciiHexdigit)
    (GitHubActionError.invalidField "sha")
  return String.ofList (toAsciiLowercase value.toList)

/-- A character that a reference must not have. -/
def forbiddenInRef (char : Char) : Bool :=
  char.toNat < 32 || char.toNat = 127 || char ∈ [' ', '~', '^', ':', '?', '*', '[', '\\']

def validateRef (value : String) : Except GitHubActionError String := do
  ensure (value ≠ "" ∧ value.utf8ByteSize ≤ 255 ∧
    (∀ char ∈ value.toList.head?, char ∉ ['-', '/', '.']) ∧
    (∀ char ∈ value.toList.getLast?, char ∉ ['/', '.']) ∧
    ¬ ['.', '.'] <:+: value.toList ∧ ¬ ['@', '\x7b'] <:+: value.toList ∧
    ¬ value.toList.any forbiddenInRef) (GitHubActionError.invalidField "ref")
  return value

def bodyMarkers : List String :=
  ["authorization: bearer ", "ghp_", "gho_", "github_pat_", "-----begin"]

def validateBody (value : String) : Except GitHubActionError String := do
  let value := trim value
  ensure (value ≠ "" ∧ value.utf8ByteSize ≤ maxBodyBytes ∧ '\x00' ∉ value.toList ∧
    ¬ containsMarker value bodyMarkers) (GitHubActionError.invalidField "body")
  return value

def validateText (value : String) (maximum : Nat) (field : String) :
    Except GitHubActionError String := do
  let value := trim value
  ensure (value ≠ "" ∧ value.utf8ByteSize ≤ maximum ∧ ¬ value.toList.any isControl)
    (GitHubActionError.invalidField field)
  return value

def validateRepositoryComponent (value : String) : Except GitHubActionError Unit :=
  ensure (value ≠ "" ∧ value.utf8ByteSize ≤ 100 ∧
    value.toList.all fun char =>
      isAsciiAlphanumeric char || char = '-' || char = '_' || char = '.')
    (GitHubActionError.invalidField "repositoryFullName")

end Checks

/-! ### Constructors -/

section Constructors

def InlineReviewComment.new (path : String) (line : Nat) (body : String) :
    Except GitHubActionError InlineReviewComment := do
  ensure (¬ (line = 0 ∨ path.toList.head? = some '/' ∨ ['.', '.'] <:+: path.toList))
    (GitHubActionError.invalidField "inlineComment")
  return {
    path := ← validateText path 1024 "path"
    line := line
    body := ← validateBody body }

namespace GitHubAction

def tryCreateBranch (branch fromSha : String) : Except GitHubActionError GitHubAction := do
  return .createBranch (← validateRef branch) (← validateSha fromSha)

def tryPushIntent (branch headSha : String) : Except GitHubActionError GitHubAction := do
  return .pushIntent (← validateRef branch) (← validateSha headSha)

def tryComment (issueNumber : Nat) (body : String) : Except GitHubActionError GitHubAction := do
  return .comment (← validateNumber issueNumber) (← validateBody body)

def tryReview (pullRequestNumber : Nat) (expectedHeadSha : String) (event : ReviewEvent)
    (body : String) (inlineComments : List InlineReviewComment) :
    Except GitHubActionError GitHubAction := do
  let pullRequestNumber ← validateNumber pullRequestNumber
  let body ← validateBody body
  ensure (inlineComments.map fun comment => (comment.path, comment.line)).Nodup
    GitHubActionError.duplicateInlinePosition
  return .review pullRequestNumber (← validateSha expectedHeadSha) event body inlineComments

def tryResolveReviewThread (pullRequestNumber : Nat) (threadId expectedHeadSha : String) :
    Except GitHubActionError GitHubAction := do
  return .resolveReviewThread (← validateNumber pullRequestNumber) (← validateNodeId threadId)
    (← validateSha expectedHeadSha)

def tryCheckRun (name headSha status : String) (conclusion : Option String) :
    Except GitHubActionError GitHubAction := do
  ensure (status ∈ ["queued", "in_progress", "completed"] ∧
    (conclusion.isSome ↔ status = "completed")) (GitHubActionError.invalidField "status")
  return .checkRun (← validateText name 100 "name") (← validateSha headSha) status
    (← conclusion.mapM fun value => validateText value 32 "conclusion")

def tryDraftPullRequest (title head base body expectedHeadSha expectedBaseSha : String) :
    Except GitHubActionError GitHubAction := do
  return .draftPullRequest (← validateText title 256 "title") (← validateRef head)
    (← validateRef base) (← validateBody body) (← validateSha expectedHeadSha)
    (← validateSha expectedBaseSha)

/-- The four constructors that name a pull request and its head. -/
def tryPullRequest (action : Nat → String → GitHubAction) (pullRequestNumber : Nat)
    (expectedHeadSha : String) : Except GitHubActionError GitHubAction := do
  return action (← validateNumber pullRequestNumber) (← validateSha expectedHeadSha)

def tryUpdatePullRequestBranch := tryPullRequest .updatePullRequestBranch

def tryReadyPullRequest := tryPullRequest .readyPullRequest

def tryClosePullRequest := tryPullRequest .closePullRequest

def tryEnqueuePullRequest := tryPullRequest .enqueuePullRequest

def tryMergePullRequest (pullRequestNumber : Nat) (expectedHeadSha : String)
    (method : MergeMethod) : Except GitHubActionError GitHubAction :=
  tryPullRequest (fun number sha => .mergePullRequest number sha method) pullRequestNumber
    expectedHeadSha

def tryCloseIssue (issueNumber : Nat) : Except GitHubActionError GitHubAction := do
  return .closeIssue (← validateNumber issueNumber)

/-- Hand the parts of an action to its constructor. -/
def construct : GitHubAction → Except GitHubActionError GitHubAction
  | createBranch branch fromSha => tryCreateBranch branch fromSha
  | pushIntent branch headSha => tryPushIntent branch headSha
  | comment issueNumber body => tryComment issueNumber body
  | review number sha event body comments => tryReview number sha event body comments
  | resolveReviewThread number threadId sha => tryResolveReviewThread number threadId sha
  | checkRun name headSha status conclusion => tryCheckRun name headSha status conclusion
  | draftPullRequest title head base body headSha baseSha =>
      tryDraftPullRequest title head base body headSha baseSha
  | updatePullRequestBranch number sha => tryUpdatePullRequestBranch number sha
  | readyPullRequest number sha => tryReadyPullRequest number sha
  | closePullRequest number sha => tryClosePullRequest number sha
  | closeIssue issueNumber => tryCloseIssue issueNumber
  | enqueuePullRequest number sha => tryEnqueuePullRequest number sha
  | mergePullRequest number sha method => tryMergePullRequest number sha method

end GitHubAction

def RemoteIdentity.new (repositoryId installationId : Nat) (repositoryFullName : String) :
    Except GitHubActionError RemoteIdentity := do
  ensure (¬ (repositoryId = 0 ∨ installationId = 0))
    (GitHubActionError.invalidField "remoteIdentity")
  let (owner, repository) ← okOr (GitHubActionError.invalidField "repositoryFullName")
    (splitOnce repositoryFullName '/')
  validateRepositoryComponent owner
  validateRepositoryComponent repository
  return { repositoryId, installationId, repositoryFullName }

def RemotePrecondition.new (expectedHeadSha expectedBaseSha : Option String)
    (snapshotGeneration : Nat) : Except GitHubActionError RemotePrecondition := do
  ensure (snapshotGeneration ≠ 0) (GitHubActionError.invalidField "snapshotGeneration")
  return {
    expectedHeadSha := ← expectedHeadSha.mapM validateSha
    expectedBaseSha := ← expectedBaseSha.mapM validateSha
    snapshotGeneration := snapshotGeneration }

end Constructors

/-! ### Readers -/

section Readers

open Json

def asU64 : Json → Option Nat := asBelow? (2 ^ 64)

def reviewEvents : List ReviewEvent := [.approve, .requestChanges, .comment, .pending]

def mergeMethods : List MergeMethod := [.merge, .squash, .rebase]

def ReviewEvent.read (value : Json) : Option ReviewEvent :=
  value.bufferedVariant?.bind fun name => reviewEvents.find? fun event => event.name = name

def MergeMethod.read (value : Json) : Option MergeMethod :=
  value.bufferedVariant?.bind fun name => mergeMethods.find? fun method => method.name = name

/-- The parts of a comment, not yet checked. -/
def InlineReviewComment.readWire (value : Json) : Option InlineReviewComment := do
  let [path, line, body] ← record? false [["path"], ["line"], ["body"]] value | none
  return {
    path := ← required asStr? path
    line := ← required asU64 line
    body := ← required asStr? body }

def InlineReviewComment.fromJson (value : Json) : Option InlineReviewComment := do
  let wire ← readWire value
  (InlineReviewComment.new wire.path wire.line wire.body).toOption

namespace GitHubAction

def fromShaNames : List String := ["fromSha", "from_sha"]

def headShaNames : List String := ["headSha", "head_sha"]

def issueNumberNames : List String := ["issueNumber", "issue_number"]

def numberNames : List String := ["pullRequestNumber", "pull_request_number"]

def expectedHeadNames : List String := ["expectedHeadSha", "expected_head_sha"]

def expectedBaseNames : List String := ["expectedBaseSha", "expected_base_sha"]

def readPullRequest (action : Nat → String → GitHubAction) (value : Json) :
    Option GitHubAction := do
  let [number, sha] ← record? true [numberNames, expectedHeadNames] value | none
  return action (← required asU64 number) (← required asStr? sha)

/-- The parts of an action of a kind, not yet checked but for its comments. -/
def readFields (readComment : Json → Option InlineReviewComment) (kind : String) (value : Json) :
    Option GitHubAction :=
  match kind with
  | "createBranch" => do
      let [branch, fromSha] ← record? true [["branch"], fromShaNames] value | none
      return .createBranch (← required asStr? branch) (← required asStr? fromSha)
  | "pushIntent" => do
      let [branch, headSha] ← record? true [["branch"], headShaNames] value | none
      return .pushIntent (← required asStr? branch) (← required asStr? headSha)
  | "comment" => do
      let [number, body] ← record? true [issueNumberNames, ["body"]] value | none
      return .comment (← required asU64 number) (← required asStr? body)
  | "review" => do
      let [number, sha, event, body, comments] ← record? true [numberNames, expectedHeadNames,
        ["event"], ["body"], ["inlineComments", "inline_comments"]] value | none
      return .review (← required asU64 number) (← required asStr? sha)
        (← required ReviewEvent.read event) (← required asStr? body)
        (← required (asList? readComment) comments)
  | "resolveReviewThread" => do
      let [number, threadId, sha] ← record? true [numberNames, ["threadId", "thread_id"],
        expectedHeadNames] value | none
      return .resolveReviewThread (← required asU64 number) (← required asStr? threadId)
        (← required asStr? sha)
  | "checkRun" => do
      let [name, headSha, status, conclusion] ← record? true [["name"], headShaNames, ["status"],
        ["conclusion"]] value | none
      return .checkRun (← required asStr? name) (← required asStr? headSha)
        (← required asStr? status) (← optional asStr? conclusion)
  | "draftPullRequest" => do
      let [title, head, base, body, headSha, baseSha] ← record? true [["title"], ["head"], ["base"],
        ["body"], expectedHeadNames, expectedBaseNames] value | none
      return .draftPullRequest (← required asStr? title) (← required asStr? head)
        (← required asStr? base) (← required asStr? body) (← required asStr? headSha)
        (← required asStr? baseSha)
  | "updatePullRequestBranch" => readPullRequest .updatePullRequestBranch value
  | "readyPullRequest" => readPullRequest .readyPullRequest value
  | "closePullRequest" => readPullRequest .closePullRequest value
  | "closeIssue" => do
      let [number] ← record? true [issueNumberNames] value | none
      return .closeIssue (← required asU64 number)
  | "enqueuePullRequest" => readPullRequest .enqueuePullRequest value
  | "mergePullRequest" => do
      let [number, sha, method] ← record? true [numberNames, expectedHeadNames, ["method"]] value
        | none
      return .mergePullRequest (← required asU64 number) (← required asStr? sha)
        (← required MergeMethod.read method)
  | _ => none

/-- The parts of an action, its comments read in a given way. -/
def readWire (readComment : Json → Option InlineReviewComment) (value : Json) :
    Option GitHubAction := do
  let (kind, fields) ← tagged? "kind" value
  readFields readComment kind fields

def fromJson (value : Json) : Option GitHubAction := do
  let wire ← readWire InlineReviewComment.fromJson value
  wire.construct.toOption

end GitHubAction

/-- The parts of a remote identity, not yet checked. -/
def RemoteIdentity.readWire (value : Json) : Option RemoteIdentity := do
  let [repositoryId, installationId, repositoryFullName] ← record? false
    [["repositoryId", "repository_id"], ["installationId", "installation_id"],
      ["repositoryFullName", "repository_full_name"]] value | none
  return {
    repositoryId := ← required asU64 repositoryId
    installationId := ← required asU64 installationId
    repositoryFullName := ← required asStr? repositoryFullName }

def RemoteIdentity.fromJson (value : Json) : Option RemoteIdentity := do
  let wire ← readWire value
  (RemoteIdentity.new wire.repositoryId wire.installationId wire.repositoryFullName).toOption

/-- The parts of a precondition, not yet checked. -/
def RemotePrecondition.readWire (value : Json) : Option RemotePrecondition := do
  let [expectedHeadSha, expectedBaseSha, snapshotGeneration] ← record? false
    [GitHubAction.expectedHeadNames, GitHubAction.expectedBaseNames,
      ["snapshotGeneration", "snapshot_generation"]] value | none
  return {
    expectedHeadSha := ← optional asStr? expectedHeadSha
    expectedBaseSha := ← optional asStr? expectedBaseSha
    snapshotGeneration := ← required asU64 snapshotGeneration }

def RemotePrecondition.fromJson (value : Json) : Option RemotePrecondition := do
  let wire ← readWire value
  (RemotePrecondition.new wire.expectedHeadSha wire.expectedBaseSha
    wire.snapshotGeneration).toOption

end Readers

/-! ### Previews -/

section Previews

open Json

variable [Sha256]

namespace GitHubActionPreview

def toJson (preview : GitHubActionPreview) : Json :=
  .obj [
    ("remote", preview.remote.toJson),
    ("action", preview.action.toJson),
    ("precondition", preview.precondition.toJson),
    ("payloadSha256", .str preview.payloadSha256),
    ("idempotencySha256", .str preview.idempotencySha256),
    ("requiredPermissions", .arr (preview.requiredPermissions.map .str))]

def fieldNames : List (List String) :=
  [["remote"], ["action"], ["precondition"], ["payloadSha256", "payload_sha256"],
    ["idempotencySha256", "idempotency_sha256"], ["requiredPermissions", "required_permissions"]]

/-- Read the parts of a preview, build it anew, and compare what is derived. -/
def fromJson (value : Json) : Option GitHubActionPreview := do
  let [remote, action, precondition, payloadSha256, idempotencySha256, requiredPermissions] ←
    record? false fieldNames value | none
  let remote ← required RemoteIdentity.fromJson remote
  let action ← required GitHubAction.fromJson action
  let precondition ← required RemotePrecondition.fromJson precondition
  let payloadSha256 ← required asStr? payloadSha256
  let idempotencySha256 ← required asStr? idempotencySha256
  let requiredPermissions ← required (asList? asStr?) requiredPermissions
  let preview := GitHubActionPreview.new remote action precondition
  if payloadSha256 = preview.payloadSha256 ∧ idempotencySha256 = preview.idempotencySha256 ∧
      requiredPermissions = preview.requiredPermissions then some preview
  else none

end GitHubActionPreview

end Previews

end Patchwright
