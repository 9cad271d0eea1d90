import Patchwright.Core.Policy

/-!
# Task contracts, their sources and repository bindings

The data a delivery is checked against: where a task came from, which
repository it is bound to, and what its contract declares.  The records keep
the fields that a modelled function reads or writes.
-/

namespace Patchwright

structure RepositoryBinding where
  id : RepositoryBindingId
  githubRepositoryId : Nat
  fullName : String
  installationId : Nat
  cloneUrl : String
  defaultBranch : String
  userCheckout : Option String
  managedClone : Option String
  stateRoot : String
  worktreeRoot : String
  deriving DecidableEq, Repr

structure GitHubIssueSource where
  repositoryId : Nat
  repositoryFullName : String
  number : Nat
  htmlUrl : String
  snapshotAt : DateTime
  deriving DecidableEq, Repr

structure GitHubPullRequestSource where
  repositoryId : Nat
  repositoryFullName : String
  number : Nat
  htmlUrl : String
  snapshotAt : DateTime
  baseRef : String
  baseSha : String
  headRef : String
  headSha : String
  deriving DecidableEq, Repr

inductive TaskSource where
  | localRequest
  | gitHubIssue (source : GitHubIssueSource)
  | gitHubPullRequest (source : GitHubPullRequestSource)
  deriving DecidableEq, Repr

namespace TaskSource

def repositoryId : TaskSource → Option Nat
  | localRequest => none
  | gitHubIssue source => some source.repositoryId
  | gitHubPullRequest source => some source.repositoryId

def itemNumber : TaskSource → Option Nat
  | localRequest => none
  | gitHubIssue source => some source.number
  | gitHubPullRequest source => some source.number

def repositoryFullName : TaskSource → Option String
  | localRequest => none
  | gitHubIssue source => some source.repositoryFullName
  | gitHubPullRequest source => some source.repositoryFullName

def headSha : TaskSource → Option String
  | gitHubPullRequest source => some source.headSha
  | localRequest | gitHubIssue _ => none

def baseSha : TaskSource → Option String
  | gitHubPullRequest source => some source.baseSha
  | localRequest | gitHubIssue _ => none

/-- A source under its tag.  A request without details has the tag alone. -/
def toJson : TaskSource → Json
  | localRequest => .obj [("kind", .str "localRequest")]
  | gitHubIssue source => .obj [
      ("kind", .str "githubIssue"),
      ("details", .obj [
        ("repositoryId", .int source.repositoryId),
        ("repositoryFullName", .str source.repositoryFullName),
        ("number", .int source.number),
        ("htmlUrl", .str source.htmlUrl),
        ("snapshotAt", .str (toRfc3339Z source.snapshotAt))])]
  | gitHubPullRequest source => .obj [
      ("kind", .str "githubPullRequest"),
      ("details", .obj [
        ("repositoryId", .int source.repositoryId),
        ("repositoryFullName", .str source.repositoryFullName),
        ("number", .int source.number),
        ("htmlUrl", .str source.htmlUrl),
        ("snapshotAt", .str (toRfc3339Z source.snapshotAt)),
        ("baseRef", .str source.baseRef),
        ("baseSha", .str source.baseSha),
        ("headRef", .str source.headRef),
        ("headSha", .str source.headSha)])]

end TaskSource

structure InstructionDigest where
  source : String
  sha256 : String
  precedence : Nat
  deriving DecidableEq, Repr

def InstructionDigest.toJson (digest : InstructionDigest) : Json :=
  .obj [
    ("source", .str digest.source),
    ("sha256", .str digest.sha256),
    ("precedence", .int digest.precedence)]

structure VerificationCommand where
  program : String
  args : List String
  deriving DecidableEq, Repr

def VerificationCommand.toJson (command : VerificationCommand) : Json :=
  .obj [("program", .str command.program), ("args", .arr (command.args.map .str))]

inductive RiskClass where
  | low
  | moderate
  | high
  | critical
  deriving DecidableEq, Repr

def RiskClass.name : RiskClass → String
  | low => "low"
  | moderate => "moderate"
  | high => "high"
  | critical => "critical"

structure SensitivePath where
  path : String
  reason : String
  deriving DecidableEq, Repr

def SensitivePath.toJson (sensitive : SensitivePath) : Json :=
  .obj [("path", .str sensitive.path), ("reason", .str sensitive.reason)]

structure TaskContract where
  version : Nat
  taskId : TaskId
  source : TaskSource
  repositoryBindingId : RepositoryBindingId
  goal : String
  acceptanceCriteria : List String
  baseSha : Option String
  headSha : Option String
  sourceSha256 : String
  repositorySha256 : String
  instructionDigests : List InstructionDigest
  verificationCommands : List VerificationCommand
  requiredCapabilities : List Capability
  risk : RiskClass
  sensitivePaths : List SensitivePath
  dependencies : List TaskId
  deriving DecidableEq, Repr

def TaskContract.toJson (contract : TaskContract) : Json :=
  .obj [
    ("version", .int contract.version),
    ("taskId", .str contract.taskId.toString),
    ("source", contract.source.toJson),
    ("repositoryBindingId", .str contract.repositoryBindingId.uuid.toString),
    ("goal", .str contract.goal),
    ("acceptanceCriteria", .arr (contract.acceptanceCriteria.map .str)),
    ("baseSha", .ofOption .str contract.baseSha),
    ("headSha", .ofOption .str contract.headSha),
    ("sourceSha256", .str contract.sourceSha256),
    ("repositorySha256", .str contract.repositorySha256),
    ("instructionDigests", .arr (contract.instructionDigests.map InstructionDigest.toJson)),
    ("verificationCommands",
      .arr (contract.verificationCommands.map VerificationCommand.toJson)),
    ("requiredCapabilities",
      .arr (contract.requiredCapabilities.map fun capability => .str capability.actionKind)),
    ("risk", .str contract.risk.name),
    ("sensitivePaths", .arr (contract.sensitivePaths.map SensitivePath.toJson)),
    ("dependencies", .arr (contract.dependencies.map fun id => .str id.toString))]

end Patchwright
