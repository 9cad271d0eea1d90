import Patchwright.Core.Contract
import Patchwright.Library.JsonRecord
import Patchwright.Library.Membership

/-!
# Task contracts on the wire

The checks that a task contract passes, its two wire formats and the snapshot
that holds a contract of either format.  The current format names the digests
of the source and of the repository; the legacy format does not, and a contract
in it can be read but not executed.
-/

namespace Patchwright

open Checked

inductive ContractError where
  | invalidField (field : String)
  deriving DecidableEq, Repr

def ContractError.message : ContractError → String
  | invalidField field => "invalid contract field: " ++ field

/-! ### Checks -/

namespace Contract

def nonzero (value : Nat) (field : String) : Except ContractError Unit :=
  ensure (value ≠ 0) (.invalidField field)

def nonempty (value field : String) : Except ContractError Unit :=
  ensure (trim value ≠ "") (.invalidField field)

def validateRepositoryName (value : String) : Except ContractError Unit :=
  match splitOnce value '/' with
  | none => .error (.invalidField "repositoryFullName")
  | some (owner, name) =>
      ensure (¬ (trim owner = "" ∨ trim name = "" ∨ '/' ∈ name.toList ∨
        value.toList.any (fun char => isWhitespace char || isControl char)))
        (.invalidField "repositoryFullName")

def validateRef (value field : String) : Except ContractError Unit := do
  nonempty value field
  ensure (¬ value.toList.any isControl) (.invalidField field)

def validateHttpsUrl (value field : String) : Except ContractError Unit :=
  let scheme := "https://".toList
  let remainder := value.toList.drop scheme.length
  ensure (scheme <+: value.toList ∧ remainder ≠ [] ∧ ¬ remainder.any isWhitespace)
    (.invalidField field)

def validateGitSha (value field : String) : Except ContractError Unit :=
  ensure (isGitSha value) (.invalidField field)

def validateOptionalGitSha (value : Option String) (field : String) : Except ContractError Unit :=
  match value with
  | none => .ok ()
  | some sha => validateGitSha sha field

def validateSha256 (value field : String) : Except ContractError Unit :=
  ensure (isSha256Hex value) (.invalidField field)

def validateGitHubItem (repositoryId : Nat) (repositoryFullName : String) (number : Nat)
    (htmlUrl : String) : Except ContractError Unit := do
  nonzero repositoryId "repositoryId"
  validateRepositoryName repositoryFullName
  nonzero number "itemNumber"
  validateHttpsUrl htmlUrl "htmlUrl"

/-- A contract for a pull request has the commits of the pull request. -/
def validateShaBinding (source : TaskSource) (baseSha headSha : Option String) :
    Except ContractError Unit :=
  match source with
  | .gitHubPullRequest source =>
      ensure (baseSha = some source.baseSha ∧ headSha = some source.headSha)
        (.invalidField "pullRequestShaBinding")
  | _ => .ok ()

def validateAcceptanceCriteria (criteria : List String) : Except ContractError Unit :=
  ensure (¬ (criteria = [] ∨ "" ∈ criteria)) (.invalidField "acceptanceCriteria")

def validateDependencies (taskId : TaskId) (dependencies : List TaskId) :
    Except ContractError Unit :=
  ensure (dependencies.Nodup ∧ taskId ∉ dependencies) (.invalidField "dependencies")

end Contract

open Contract

namespace TaskSource

/-- The input of a source has the fields of the source. -/
def githubIssue (input : GitHubIssueSource) : Except ContractError TaskSource := do
  validateGitHubItem input.repositoryId input.repositoryFullName input.number input.htmlUrl
  return .gitHubIssue input

def githubPullRequest (input : GitHubPullRequestSource) : Except ContractError TaskSource := do
  validateGitHubItem input.repositoryId input.repositoryFullName input.number input.htmlUrl
  Contract.validateRef input.baseRef "baseRef"
  Contract.validateRef input.headRef "headRef"
  validateGitSha input.baseSha "baseSha"
  validateGitSha input.headSha "headSha"
  return .gitHubPullRequest input

end TaskSource

def revalidateTaskSource : TaskSource → Except ContractError TaskSource
  | .localRequest => .ok .localRequest
  | .gitHubIssue source => TaskSource.githubIssue source
  | .gitHubPullRequest source => TaskSource.githubPullRequest source

def InstructionDigest.new (source sha256 : String) (precedence : Nat) :
    Except ContractError InstructionDigest := do
  nonempty source "instructionSource"
  Contract.validateSha256 sha256 "instructionSha256"
  return { source, sha256, precedence }

def VerificationCommand.new (program : String) (args : List String) :
    Except ContractError VerificationCommand := do
  nonempty program "verificationProgram"
  ensure (¬ program.toList.any isControl) (ContractError.invalidField "verificationProgram")
  ensure (¬ args.any fun argument => argument.toList.any isControl)
    (ContractError.invalidField "verificationArgument")
  return { program, args }

/-- The names along a path, between its slashes. -/
def pathNames (path : String) : List (List Char) := path.toList.splitOn '/'

def SensitivePath.new (path reason : String) : Except ContractError SensitivePath := do
  ensure (¬ (trim path = "" ∨ path.toList.head? = some '/' ∨ ['.', '.'] ∈ pathNames path))
    (ContractError.invalidField "sensitivePath")
  nonempty reason "sensitivePathReason"
  return { path, reason }

/-! ### Contracts -/

structure TaskContractDraft where
  taskId : TaskId
  source : TaskSource
  repositoryBindingId : RepositoryBindingId
  goal : String
  acceptanceCriteria : List String
  baseSha : Option String
  headSha : Option String
  sourceSha256 : String
  repositorySha256 : String
  instructionDigests : List InstructionDigest
  verificationCommands : List VerificationCommand
  requiredCapabilities : List Capability
  risk : RiskClass
  sensitivePaths : List SensitivePath
  dependencies : List TaskId
  deriving DecidableEq, Repr

def currentTaskContractVersion : Nat := 2

def TaskContract.tryFrom (draft : TaskContractDraft) : Except ContractError TaskContract := do
  let goal := trim draft.goal
  nonempty goal "goal"
  let source ← revalidateTaskSource draft.source
  let acceptanceCriteria := draft.acceptanceCriteria.map trim
  validateAcceptanceCriteria acceptanceCriteria
  Contract.validateOptionalGitSha draft.baseSha "baseSha"
  Contract.validateOptionalGitSha draft.headSha "headSha"
  Contract.validateSha256 draft.sourceSha256 "sourceSha256"
  Contract.validateSha256 draft.repositorySha256 "repositorySha256"
  ensure (draft.verificationCommands ≠ []) (ContractError.invalidField "verificationCommands")
  let instructionDigests ← draft.instructionDigests.mapM fun digest =>
    InstructionDigest.new digest.source digest.sha256 digest.precedence
  let verificationCommands ← draft.verificationCommands.mapM fun command =>
    VerificationCommand.new command.program command.args
  let sensitivePaths ← draft.sensitivePaths.mapM fun sensitive =>
    SensitivePath.new sensitive.path sensitive.reason
  validateShaBinding source draft.baseSha draft.headSha
  validateDependencies draft.taskId draft.dependencies
  return {
    version := currentTaskContractVersion
    taskId := draft.taskId
    source := source
    repositoryBindingId := draft.repositoryBindingId
    goal := goal
    acceptanceCriteria := acceptanceCriteria
    baseSha := draft.baseSha
    headSha := draft.headSha
    sourceSha256 := draft.sourceSha256
    repositorySha256 := draft.repositorySha256
    instructionDigests := instructionDigests
    verificationCommands := verificationCommands
    requiredCapabilities := draft.requiredCapabilities
    risk := draft.risk
    sensitivePaths := sensitivePaths
    dependencies := draft.dependencies }

/-- The fields of a contract as a draft. -/
def TaskContract.draft (contract : TaskContract) : TaskContractDraft where
  taskId := contract.taskId
  source := contract.source
  repositoryBindingId := contract.repositoryBindingId
  goal := contract.goal
  acceptanceCriteria := contract.acceptanceCriteria
  baseSha := contract.baseSha
  headSha := contract.headSha
  sourceSha256 := contract.sourceSha256
  repositorySha256 := contract.repositorySha256
  instructionDigests := contract.instructionDigests
  verificationCommands := contract.verificationCommands
  requiredCapabilities := contract.requiredCapabilities
  risk := contract.risk
  sensitivePaths := contract.sensitivePaths
  dependencies := contract.dependencies

structure LegacyTaskContract where
  version : Nat
  taskId : TaskId
  source : TaskSource
  repositoryBindingId : RepositoryBindingId
  goal : String
  acceptanceCriteria : List String
  baseSha : Option String
  headSha : Option String
  instructionDigests : List InstructionDigest
  verificationCommands : List VerificationCommand
  requiredCapabilities : List Capability
  risk : RiskClass
  sensitivePaths : List SensitivePath
  dependencies : List TaskId
  deriving DecidableEq, Repr

inductive TaskContractSnapshot where
  | executable (contract : TaskContract)
  | legacyReadOnly (contract : LegacyTaskContract)
  deriving DecidableEq, Repr

/-! ### Decoding what has been read -/

section Decode

inductive ContractDecodeError where
  | unsupportedVersion
  | unsupportedLegacyVersion
  | contract (error : ContractError)
  deriving DecidableEq, Repr

def ContractDecodeError.message : ContractDecodeError → String
  | unsupportedVersion => "unsupported task contract version"
  | unsupportedLegacyVersion => "unsupported legacy task contract version"
  | contract error => error.message

/-- A contract whose fields have been read, which keeps its version. -/
def TaskContract.decode (wire : TaskContract) : Except ContractDecodeError TaskContract := do
  ensure (wire.version = 1 ∨ wire.version = currentTaskContractVersion)
    ContractDecodeError.unsupportedVersion
  let contract ← (TaskContract.tryFrom wire.draft).mapError .contract
  return { contract with version := wire.version }

/-- The checks of a legacy contract, in an order of their own. -/
def LegacyTaskContract.validate (wire : LegacyTaskContract) :
    Except ContractError LegacyTaskContract := do
  let source ← revalidateTaskSource wire.source
  let goal := trim wire.goal
  nonempty goal "goal"
  let acceptanceCriteria := wire.acceptanceCriteria.map trim
  validateAcceptanceCriteria acceptanceCriteria
  Contract.validateOptionalGitSha wire.baseSha "baseSha"
  Contract.validateOptionalGitSha wire.headSha "headSha"
  validateShaBinding source wire.baseSha wire.headSha
  validateDependencies wire.taskId wire.dependencies
  let instructionDigests ← wire.instructionDigests.mapM fun digest =>
    InstructionDigest.new digest.source digest.sha256 digest.precedence
  let verificationCommands ← wire.verificationCommands.mapM fun command =>
    VerificationCommand.new command.program command.args
  let sensitivePaths ← wire.sensitivePaths.mapM fun sensitive =>
    SensitivePath.new sensitive.path sensitive.reason
  return { wire with
    source := source
    goal := goal
    acceptanceCriteria := acceptanceCriteria
    instructionDigests := instructionDigests
    verificationCommands := verificationCommands
    sensitivePaths := sensitivePaths }

def LegacyTaskContract.decode (wire : LegacyTaskContract) :
    Except ContractDecodeError LegacyTaskContract := do
  ensure (wire.version = 1) ContractDecodeError.unsupportedLegacyVersion
  wire.validate.mapError .contract

end Decode

/-! ### Writers -/

/-- How UUIDs are read, and instants written and read, by the libraries for
them. -/
class WireText where
  parseUuid : String → Option Uuid
  formatInstant : DateTime → String
  parseInstant : String → Option DateTime

section Writers

variable [WireText]

def GitHubIssueSource.encode (source : GitHubIssueSource) : Json :=
  .obj [
    ("repositoryId", .int source.repositoryId),
    ("repositoryFullName", .str source.repositoryFullName),
    ("number", .int source.number),
    ("htmlUrl", .str source.htmlUrl),
    ("snapshotAt", .str (WireText.formatInstant source.snapshotAt))]

def GitHubPullRequestSource.encode (source : GitHubPullRequestSource) : Json :=
  .obj [
    ("repositoryId", .int source.repositoryId),
    ("repositoryFullName", .str source.repositoryFullName),
    ("number", .int source.number),
    ("htmlUrl", .str source.htmlUrl),
    ("snapshotAt", .str (WireText.formatInstant source.snapshotAt)),
    ("baseRef", .str source.baseRef),
    ("baseSha", .str source.baseSha),
    ("headRef", .str source.headRef),
    ("headSha", .str source.headSha)]

def TaskSource.encode : TaskSource → Json
  | localRequest => .obj [("kind", .str "localRequest")]
  | gitHubIssue source => .obj [("kind", .str "githubIssue"), ("details", source.encode)]
  | gitHubPullRequest source =>
      .obj [("kind", .str "githubPullRequest"), ("details", source.encode)]

def TaskContract.encode (contract : TaskContract) : Json :=
  .obj [
    ("version", .int contract.version),
    ("taskId", .str contract.taskId.toString),
    ("source", contract.source.encode),
    ("repositoryBindingId", .str contract.repositoryBindingId.uuid.toString),
    ("goal", .str contract.goal),
    ("acceptanceCriteria", .arr (contract.acceptanceCriteria.map .str)),
    ("baseSha", .ofOption .str contract.baseSha),
    ("headSha", .ofOption .str contract.headSha),
    ("sourceSha256", .str contract.sourceSha256),
    ("repositorySha256", .str contract.repositorySha256),
    ("instructionDigests", .arr (contract.instructionDigests.map InstructionDigest.toJson)),
    ("verificationCommands",
      .arr (contract.verificationCommands.map VerificationCommand.toJson)),
    ("requiredCapabilities",
      .arr (contract.requiredCapabilities.map fun capability => .str capability.actionKind)),
    ("risk", .str contract.risk.name),
    ("sensitivePaths", .arr (contract.sensitivePaths.map SensitivePath.toJson)),
    ("dependencies", .arr (contract.dependencies.map fun id => .str id.toString))]

/-- What is hashed of a contract is its encoding, for instants of four-digit
years. -/
theorem TaskContract.encode_eq_toJson (hinstant : WireText.formatInstant = toRfc3339Z)
    (contract : TaskContract) : contract.encode = contract.toJson := by
  have hsource : contract.source.encode = contract.source.toJson := by
    cases contract.source with
    | localRequest => rfl
    | gitHubIssue source => rw [TaskSource.encode, GitHubIssueSource.encode, hinstant]; rfl
    | gitHubPullRequest source =>
        rw [TaskSource.encode, GitHubPullRequestSource.encode, hinstant]
        rfl
  rw [encode, hsource]
  rfl

def LegacyTaskContract.encode (contract : LegacyTaskContract) : Json :=
  .obj [
    ("version", .int contract.version),
    ("taskId", .str contract.taskId.toString),
    ("source", contract.source.encode),
    ("repositoryBindingId", .str contract.repositoryBindingId.uuid.toString),
    ("goal", .str contract.goal),
    ("acceptanceCriteria", .arr (contract.acceptanceCriteria.map .str)),
    ("baseSha", .ofOption .str contract.baseSha),
    ("headSha", .ofOption .str contract.headSha),
    ("instructionDigests", .arr (contract.instructionDigests.map InstructionDigest.toJson)),
    ("verificationCommands",
      .arr (contract.verificationCommands.map VerificationCommand.toJson)),
    ("requiredCapabilities",
      .arr (contract.requiredCapabilities.map fun capability => .str capability.actionKind)),
    ("risk", .str contract.risk.name),
    ("sensitivePaths", .arr (contract.sensitivePaths.map SensitivePath.toJson)),
    ("dependencies", .arr (contract.dependencies.map fun id => .str id.toString))]

/-- A snapshot is written without a tag. -/
def TaskContractSnapshot.encode : TaskContractSnapshot → Json
  | executable contract => contract.encode
  | legacyReadOnly contract => contract.encode

end Writers

/-! ### Readers -/

section Readers

open Json

variable [WireText]

def readUuid (value : Json) : Option Uuid := value.asStr?.bind WireText.parseUuid

def readTaskId (value : Json) : Option TaskId := (readUuid value).map TaskId.mk

def readInstant (value : Json) : Option DateTime := value.asStr?.bind WireText.parseInstant

def itemNames : List (List String) :=
  [["repositoryId"], ["repositoryFullName"], ["number"], ["htmlUrl"], ["snapshotAt"]]

def GitHubIssueSource.read (value : Json) : Option GitHubIssueSource := do
  let [repositoryId, repositoryFullName, number, htmlUrl, snapshotAt] ←
    record? false itemNames value | none
  return {
    repositoryId := ← required (asBelow? (2 ^ 64)) repositoryId
    repositoryFullName := ← required asStr? repositoryFullName
    number := ← required (asBelow? (2 ^ 64)) number
    htmlUrl := ← required asStr? htmlUrl
    snapshotAt := ← required readInstant snapshotAt }

def GitHubPullRequestSource.read (value : Json) : Option GitHubPullRequestSource := do
  let [repositoryId, repositoryFullName, number, htmlUrl, snapshotAt, baseRef, baseSha, headRef,
    headSha] ← record? false (itemNames ++ [["baseRef"], ["baseSha"], ["headRef"], ["headSha"]])
      value | none
  return {
    repositoryId := ← required (asBelow? (2 ^ 64)) repositoryId
    repositoryFullName := ← required asStr? repositoryFullName
    number := ← required (asBelow? (2 ^ 64)) number
    htmlUrl := ← required asStr? htmlUrl
    snapshotAt := ← required readInstant snapshotAt
    baseRef := ← required asStr? baseRef
    baseSha := ← required asStr? baseSha
    headRef := ← required asStr? headRef
    headSha := ← required asStr? headSha }

/-- A source under its tag, not yet checked.  A request may have null details. -/
def TaskSource.read (value : Json) : Option TaskSource := do
  let (kind, details) ← adjacent? "kind" "details" value
  match ← kind.variant? with
  | "localRequest" => do
      let _ ← optional (fun _ => (none : Option Unit)) details
      return .localRequest
  | "githubIssue" | "gitHubIssue" => do
      return .gitHubIssue (← required GitHubIssueSource.read details)
  | "githubPullRequest" | "gitHubPullRequest" => do
      return .gitHubPullRequest (← required GitHubPullRequestSource.read details)
  | _ => none

def InstructionDigest.read (value : Json) : Option InstructionDigest := do
  let [source, sha256, precedence] ← record? false [["source"], ["sha256"], ["precedence"]] value
    | none
  return {
    source := ← required asStr? source
    sha256 := ← required asStr? sha256
    precedence := ← required (asBelow? (2 ^ 16)) precedence }

/-- A command is checked when it is read. -/
def VerificationCommand.read (value : Json) : Option VerificationCommand := do
  let [program, args] ← record? true [["program"], ["args"]] value | none
  (VerificationCommand.new (← required asStr? program)
    (← required (asList? asStr?) args)).toOption

def SensitivePath.read (value : Json) : Option SensitivePath := do
  let [path, reason] ← record? false [["path"], ["reason"]] value | none
  return { path := ← required asStr? path, reason := ← required asStr? reason }

def capabilities : List Capability := [
  .readRepository, .prepareWorktree, .modifyWorktree, .runKnownCommand, .accessNetwork,
  .installDependency, .createBranch, .pushBranch, .createPullRequest, .postComment, .postReview,
  .resolveThread, .createCheckRun, .updatePullRequestBranch, .readyPullRequest,
  .closePullRequest, .closeIssue, .modifyWorkflow, .enqueuePullRequest, .mergePullRequest,
  .administratorBypass]

def Capability.read (value : Json) : Option Capability :=
  value.variant?.bind fun name => capabilities.find? fun capability => capability.actionKind = name

def riskClasses : List RiskClass := [.low, .moderate, .high, .critical]

def RiskClass.read (value : Json) : Option RiskClass :=
  value.variant?.bind fun name => riskClasses.find? fun risk => risk.name = name

/-- The fields that both formats have, in their order, with others between
them. -/
def contractNames (digests : List (List String)) : List (List String) :=
  [["version"], ["taskId"], ["source"], ["repositoryBindingId"], ["goal"],
    ["acceptanceCriteria"], ["baseSha"], ["headSha"]] ++ digests ++ [["instructionDigests"],
    ["verificationCommands"], ["requiredCapabilities"], ["risk"], ["sensitivePaths"],
    ["dependencies"]]

/-- The fields of a contract, not yet checked but for its commands. -/
def TaskContract.read (value : Json) : Option TaskContract := do
  let [version, taskId, source, repositoryBindingId, goal, acceptanceCriteria, baseSha, headSha,
    sourceSha256, repositorySha256, instructionDigests, verificationCommands,
    requiredCapabilities, risk, sensitivePaths, dependencies] ←
      record? true (contractNames [["sourceSha256"], ["repositorySha256"]]) value | none
  return {
    version := ← required (asBelow? (2 ^ 32)) version
    taskId := ← required readTaskId taskId
    source := ← required TaskSource.read source
    repositoryBindingId := ← required (fun value => (readUuid value).map .mk) repositoryBindingId
    goal := ← required asStr? goal
    acceptanceCriteria := ← required (asList? asStr?) acceptanceCriteria
    baseSha := ← optional asStr? baseSha
    headSha := ← optional asStr? headSha
    sourceSha256 := ← required asStr? sourceSha256
    repositorySha256 := ← required asStr? repositorySha256
    instructionDigests := ← required (asList? InstructionDigest.read) instructionDigests
    verificationCommands := ← required (asList? VerificationCommand.read) verificationCommands
    requiredCapabilities := ← required (asList? Capability.read) requiredCapabilities
    risk := ← required RiskClass.read risk
    sensitivePaths := ← required (asList? SensitivePath.read) sensitivePaths
    dependencies := ← required (asList? readTaskId) dependencies }

def TaskContract.fromJson (value : Json) : Option TaskContract := do
  let wire ← TaskContract.read value
  wire.decode.toOption

/-- The fields of a legacy contract, not yet checked but for its commands. -/
def LegacyTaskContract.read (value : Json) : Option LegacyTaskContract := do
  let [version, taskId, source, repositoryBindingId, goal, acceptanceCriteria, baseSha, headSha,
    instructionDigests, verificationCommands, requiredCapabilities, risk, sensitivePaths,
    dependencies] ← record? true (contractNames []) value | none
  return {
    version := ← required (asBelow? (2 ^ 32)) version
    taskId := ← required readTaskId taskId
    source := ← required TaskSource.read source
    repositoryBindingId := ← required (fun value => (readUuid value).map .mk) repositoryBindingId
    goal := ← required asStr? goal
    acceptanceCriteria := ← required (asList? asStr?) acceptanceCriteria
    baseSha := ← optional asStr? baseSha
    headSha := ← optional asStr? headSha
    instructionDigests := ← required (asList? InstructionDigest.read) instructionDigests
    verificationCommands := ← required (asList? VerificationCommand.read) verificationCommands
    requiredCapabilities := ← required (asList? Capability.read) requiredCapabilities
    risk := ← required RiskClass.read risk
    sensitivePaths := ← required (asList? SensitivePath.read) sensitivePaths
    dependencies := ← required (asList? readTaskId) dependencies }

def LegacyTaskContract.fromJson (value : Json) : Option LegacyTaskContract := do
  let wire ← LegacyTaskContract.read value
  wire.decode.toOption

/-- A snapshot is an executable contract where the value is one, and otherwise
a legacy one.  Its text is parsed to a value first, and of a name that is
repeated the last field remains. -/
def TaskContractSnapshot.fromJson (text : Json) : Option TaskContractSnapshot :=
  let value := text.lastFields
  match TaskContract.fromJson value with
  | some contract => some (.executable contract)
  | none => (LegacyTaskContract.fromJson value).map .legacyReadOnly

end Readers

end Patchwright
