import Patchwright.Core.ContractWire

/-!
# Fidelity of task contracts

What a contract guarantees however it was obtained, from a draft or from a value
of either format; that a contract passes the constructor again, and its snapshot
its own encoding; and that no value is a contract of both formats.
-/

namespace Patchwright

open Checked Json Contract

/-! ### What the checks establish -/

section Checks

variable {result : Unit} {value field : String} {number : Nat}

def IsRepositoryName (value : String) : Prop :=
  ∃ owner name, splitOnce value '/' = some (owner, name) ∧ trim owner ≠ "" ∧ trim name ≠ "" ∧
    '/' ∉ name.toList ∧ ∀ char ∈ value.toList, ¬ isWhitespace char ∧ ¬ isControl char

def IsHttpsUrl (value : String) : Prop :=
  ∃ remainder, value.toList = "https://".toList ++ remainder ∧ remainder ≠ [] ∧
    ∀ char ∈ remainder, ¬ isWhitespace char

def IsRef (value : String) : Prop := trim value ≠ "" ∧ ∀ char ∈ value.toList, ¬ isControl char

theorem validateRepositoryName_eq_ok :
    Contract.validateRepositoryName value = .ok result ↔ IsRepositoryName value := by
  rw [Contract.validateRepositoryName, IsRepositoryName]
  cases splitOnce value '/' with
  | none => exact iff_of_false nofun nofun
  | some parts =>
      obtain ⟨owner, name⟩ := parts
      simp only [ensure_eq_ok, not_or, Option.some.injEq, Prod.mk.injEq, List.any_eq_true,
        Bool.or_eq_true, not_exists, not_and]
      constructor
      · rintro ⟨howner, hname, hslash, hchars⟩
        exact ⟨owner, name, ⟨rfl, rfl⟩, howner, hname, hslash, hchars⟩
      · rintro ⟨_, _, ⟨rfl, rfl⟩, howner, hname, hslash, hchars⟩
        exact ⟨howner, hname, hslash, hchars⟩

theorem validateHttpsUrl_eq_ok : validateHttpsUrl value field = .ok result ↔ IsHttpsUrl value := by
  simp only [validateHttpsUrl, ensure_eq_ok, IsHttpsUrl, List.any_eq_true, not_exists, not_and]
  constructor
  · rintro ⟨⟨remainder, hvalue⟩, hrest, hchars⟩
    rw [← hvalue, List.drop_left] at hrest hchars
    exact ⟨remainder, hvalue.symm, hrest, hchars⟩
  · rintro ⟨remainder, hvalue, hrest, hchars⟩
    rw [hvalue, List.drop_left]
    exact ⟨List.prefix_append _ _, hrest, hchars⟩

theorem validateRef_eq_ok : Contract.validateRef value field = .ok result ↔ IsRef value := by
  simp only [Contract.validateRef, nonempty, bind_eq_ok, ensure_eq_ok, exists_const, IsRef,
    List.any_eq_true, not_exists, not_and]

/-- An item of a repository, with where it is shown. -/
structure IsGitHubItem (repositoryId : Nat) (repositoryFullName : String) (number : Nat)
    (htmlUrl : String) : Prop where
  repositoryId : repositoryId ≠ 0
  repositoryFullName : IsRepositoryName repositoryFullName
  number : number ≠ 0
  htmlUrl : IsHttpsUrl htmlUrl

theorem validateGitHubItem_eq_ok {repositoryId : Nat} {repositoryFullName htmlUrl : String} :
    validateGitHubItem repositoryId repositoryFullName number htmlUrl = .ok result ↔
      IsGitHubItem repositoryId repositoryFullName number htmlUrl := by
  simp only [validateGitHubItem, nonzero, bind_eq_ok, ensure_eq_ok, validateRepositoryName_eq_ok,
    validateHttpsUrl_eq_ok, exists_const]
  constructor
  · rintro ⟨hrepository, hname, hnumber, hurl⟩
    exact ⟨hrepository, hname, hnumber, hurl⟩
  · rintro ⟨hrepository, hname, hnumber, hurl⟩
    exact ⟨hrepository, hname, hnumber, hurl⟩

end Checks

/-! ### Valid parts -/

def TaskSource.Valid : TaskSource → Prop
  | localRequest => True
  | gitHubIssue source =>
      IsGitHubItem source.repositoryId source.repositoryFullName source.number source.htmlUrl
  | gitHubPullRequest source =>
      IsGitHubItem source.repositoryId source.repositoryFullName source.number source.htmlUrl ∧
        IsRef source.baseRef ∧ IsRef source.headRef ∧
        isGitSha source.baseSha = true ∧ isGitSha source.headSha = true

def InstructionDigest.Valid (digest : InstructionDigest) : Prop :=
  trim digest.source ≠ "" ∧ isSha256Hex digest.sha256 = true

def VerificationCommand.Valid (command : VerificationCommand) : Prop :=
  trim command.program ≠ "" ∧ (∀ char ∈ command.program.toList, ¬ isControl char) ∧
    ∀ argument ∈ command.args, ∀ char ∈ argument.toList, ¬ isControl char

/-- A path below its repository, and why it is sensitive. -/
def SensitivePath.Valid (sensitive : SensitivePath) : Prop :=
  (trim sensitive.path ≠ "" ∧ sensitive.path.toList.head? ≠ some '/' ∧
    ['.', '.'] ∉ pathNames sensitive.path) ∧ trim sensitive.reason ≠ ""

section Parts

theorem revalidateTaskSource_eq_ok {source stored : TaskSource} :
    revalidateTaskSource source = .ok stored ↔ source.Valid ∧ source = stored := by
  cases source with
  | localRequest => simp [revalidateTaskSource, TaskSource.Valid]
  | gitHubIssue source =>
      simp only [revalidateTaskSource, TaskSource.githubIssue, TaskSource.Valid, bind_eq_ok,
        pure_eq_ok, validateGitHubItem_eq_ok, exists_const]
  | gitHubPullRequest source =>
      simp only [revalidateTaskSource, TaskSource.githubPullRequest, TaskSource.Valid, bind_eq_ok,
        pure_eq_ok, validateGitHubItem_eq_ok, validateRef_eq_ok, validateGitSha, ensure_eq_ok,
        exists_const, and_assoc]

theorem InstructionDigest.new_eq_ok {digest stored : InstructionDigest} :
    InstructionDigest.new digest.source digest.sha256 digest.precedence = .ok stored ↔
      digest.Valid ∧ digest = stored := by
  simp only [InstructionDigest.new, nonempty, Contract.validateSha256, bind_eq_ok, ensure_eq_ok, pure_eq_ok,
    exists_const, Valid, and_assoc]

theorem VerificationCommand.new_eq_ok {command stored : VerificationCommand} :
    VerificationCommand.new command.program command.args = .ok stored ↔
      command.Valid ∧ command = stored := by
  simp only [VerificationCommand.new, nonempty, bind_eq_ok, ensure_eq_ok, pure_eq_ok, exists_const,
    Valid, and_assoc, List.any_eq_true, not_exists, not_and]

theorem SensitivePath.new_eq_ok {sensitive stored : SensitivePath} :
    SensitivePath.new sensitive.path sensitive.reason = .ok stored ↔
      sensitive.Valid ∧ sensitive = stored := by
  simp only [SensitivePath.new, nonempty, bind_eq_ok, ensure_eq_ok, pure_eq_ok, exists_const,
    Valid, and_assoc, not_or, ne_eq]

end Parts

/-! ### Valid contracts -/

/-- What contracts of both formats declare. -/
structure ContractTerms where
  taskId : TaskId
  source : TaskSource
  repositoryBindingId : RepositoryBindingId
  goal : String
  acceptanceCriteria : List String
  baseSha : Option String
  headSha : Option String
  instructionDigests : List InstructionDigest
  verificationCommands : List VerificationCommand
  sensitivePaths : List SensitivePath
  dependencies : List TaskId

/-- The invariant of both formats. -/
structure ContractTerms.Valid (terms : ContractTerms) : Prop where
  goal : trim terms.goal = terms.goal ∧ terms.goal ≠ ""
  source : terms.source.Valid
  acceptanceCriteria : terms.acceptanceCriteria ≠ [] ∧
    ∀ criterion ∈ terms.acceptanceCriteria, trim criterion = criterion ∧ criterion ≠ ""
  baseSha : ∀ sha ∈ terms.baseSha, isGitSha sha = true
  headSha : ∀ sha ∈ terms.headSha, isGitSha sha = true
  shaBinding : ∀ source, terms.source = .gitHubPullRequest source →
    terms.baseSha = some source.baseSha ∧ terms.headSha = some source.headSha
  dependencies : terms.dependencies.Nodup ∧ terms.taskId ∉ terms.dependencies
  instructionDigests : ∀ digest ∈ terms.instructionDigests, digest.Valid
  verificationCommands : ∀ command ∈ terms.verificationCommands, command.Valid
  sensitivePaths : ∀ sensitive ∈ terms.sensitivePaths, sensitive.Valid

def TaskContract.terms (contract : TaskContract) : ContractTerms where
  taskId := contract.taskId
  source := contract.source
  repositoryBindingId := contract.repositoryBindingId
  goal := contract.goal
  acceptanceCriteria := contract.acceptanceCriteria
  baseSha := contract.baseSha
  headSha := contract.headSha
  instructionDigests := contract.instructionDigests
  verificationCommands := contract.verificationCommands
  sensitivePaths := contract.sensitivePaths
  dependencies := contract.dependencies

def LegacyTaskContract.terms (contract : LegacyTaskContract) : ContractTerms where
  taskId := contract.taskId
  source := contract.source
  repositoryBindingId := contract.repositoryBindingId
  goal := contract.goal
  acceptanceCriteria := contract.acceptanceCriteria
  baseSha := contract.baseSha
  headSha := contract.headSha
  instructionDigests := contract.instructionDigests
  verificationCommands := contract.verificationCommands
  sensitivePaths := contract.sensitivePaths
  dependencies := contract.dependencies

/-- The invariant of a contract that can be executed. -/
structure TaskContract.Valid (contract : TaskContract) : Prop where
  terms : contract.terms.Valid
  sourceSha256 : isSha256Hex contract.sourceSha256 = true
  repositorySha256 : isSha256Hex contract.repositorySha256 = true
  executable : contract.verificationCommands ≠ []

section Valid

theorem validateOptionalGitSha_eq_ok {value : Option String} {field : String} {result : Unit} :
    Contract.validateOptionalGitSha value field = .ok result ↔
      ∀ sha ∈ value, isGitSha sha = true := by
  cases value with
  | none => exact iff_of_true rfl nofun
  | some sha =>
      rw [Contract.validateOptionalGitSha, validateGitSha, ensure_eq_ok]
      simp

theorem validateShaBinding_eq_ok {source : TaskSource} {baseSha headSha : Option String}
    {result : Unit} : validateShaBinding source baseSha headSha = .ok result ↔
      ∀ pull, source = .gitHubPullRequest pull →
        baseSha = some pull.baseSha ∧ headSha = some pull.headSha := by
  cases source with
  | localRequest => exact iff_of_true rfl nofun
  | gitHubIssue source => exact iff_of_true rfl nofun
  | gitHubPullRequest source =>
      rw [validateShaBinding, ensure_eq_ok]
      constructor
      · rintro hsame pull hpull
        rwa [← TaskSource.gitHubPullRequest.inj hpull]
      · exact fun hall => hall source rfl

theorem validateAcceptanceCriteria_eq_ok {criteria : List String} {result : Unit} :
    validateAcceptanceCriteria (criteria.map trim) = .ok result ↔
      criteria.map trim ≠ [] ∧
        ∀ criterion ∈ criteria.map trim, trim criterion = criterion ∧ criterion ≠ "" := by
  rw [validateAcceptanceCriteria, ensure_eq_ok, not_or]
  refine and_congr_right fun _ => ?_
  constructor
  · intro hempty criterion hcriterion
    obtain ⟨given, -, hgiven⟩ := List.mem_map.mp hcriterion
    refine ⟨?_, fun hnone => hempty (hnone ▸ hcriterion)⟩
    rw [← hgiven, trim_trim]
  · intro hall hempty
    exact (hall "" hempty).2 rfl

/-- A draft with its texts trimmed, as a contract. -/
def TaskContractDraft.settled (draft : TaskContractDraft) : TaskContract where
  version := currentTaskContractVersion
  taskId := draft.taskId
  source := draft.source
  repositoryBindingId := draft.repositoryBindingId
  goal := trim draft.goal
  acceptanceCriteria := draft.acceptanceCriteria.map trim
  baseSha := draft.baseSha
  headSha := draft.headSha
  sourceSha256 := draft.sourceSha256
  repositorySha256 := draft.repositorySha256
  instructionDigests := draft.instructionDigests
  verificationCommands := draft.verificationCommands
  requiredCapabilities := draft.requiredCapabilities
  risk := draft.risk
  sensitivePaths := draft.sensitivePaths
  dependencies := draft.dependencies

/-- The constructor trims, and checks that the result is valid. -/
theorem TaskContract.tryFrom_eq_ok {draft : TaskContractDraft} {contract : TaskContract} :
    TaskContract.tryFrom draft = .ok contract ↔
      draft.settled.Valid ∧ draft.settled = contract := by
  simp only [tryFrom, nonempty, Contract.validateSha256, validateDependencies, bind_eq_ok, ensure_eq_ok,
    pure_eq_ok, revalidateTaskSource_eq_ok, validateAcceptanceCriteria_eq_ok,
    validateOptionalGitSha_eq_ok, validateShaBinding_eq_ok, exists_const,
    mapM_check_eq_ok fun _ _ => InstructionDigest.new_eq_ok,
    mapM_check_eq_ok fun _ _ => VerificationCommand.new_eq_ok,
    mapM_check_eq_ok fun _ _ => SensitivePath.new_eq_ok]
  constructor
  · rintro ⟨hgoal, source, ⟨hsource, rfl⟩, hcriteria, hbase, hhead, hsourceSha, hrepositorySha,
      hcommands, digests, ⟨hdigests, rfl⟩, commands, ⟨hvalid, rfl⟩, paths, ⟨hpaths, rfl⟩,
      hbinding, hdependencies, rfl⟩
    refine ⟨⟨⟨⟨trim_trim _, ?_⟩, hsource, hcriteria, hbase, hhead, hbinding, hdependencies,
      hdigests, hvalid, hpaths⟩, hsourceSha, hrepositorySha, hcommands⟩, rfl⟩
    rwa [trim_trim] at hgoal
  · rintro ⟨⟨⟨hgoal, hsource, hcriteria, hbase, hhead, hbinding, hdependencies, hdigests, hvalid,
      hpaths⟩, hsourceSha, hrepositorySha, hcommands⟩, rfl⟩
    refine ⟨?_, _, ⟨hsource, rfl⟩, hcriteria, hbase, hhead, hsourceSha, hrepositorySha, hcommands,
      _, ⟨hdigests, rfl⟩, _, ⟨hvalid, rfl⟩, _, ⟨hpaths, rfl⟩, hbinding, hdependencies, rfl⟩
    rw [trim_trim]
    exact hgoal.2

/-- A valid contract is what its draft is settled to, in the current version. -/
theorem TaskContract.Valid.settled {contract : TaskContract} (hvalid : contract.Valid) :
    contract.draft.settled = { contract with version := currentTaskContractVersion } := by
  have hcriteria : contract.acceptanceCriteria.map trim = contract.acceptanceCriteria := by
    calc contract.acceptanceCriteria.map trim
        = contract.acceptanceCriteria.map id :=
          List.map_congr_left fun criterion hcriterion =>
            (hvalid.terms.acceptanceCriteria.2 criterion hcriterion).1
      _ = contract.acceptanceCriteria := List.map_id _
  have hgoal : trim contract.goal = contract.goal := hvalid.terms.goal.1
  simp only [draft, TaskContractDraft.settled, hcriteria, hgoal]

theorem TaskContract.Valid.withVersion {contract : TaskContract} (hvalid : contract.Valid)
    (version : Nat) : { contract with version := version }.Valid :=
  ⟨hvalid.terms, hvalid.sourceSha256, hvalid.repositorySha256, hvalid.executable⟩

/-- A valid contract passes the constructor again, and is equal to the result up
to its version. -/
theorem TaskContract.Valid.tryFrom {contract : TaskContract} (hvalid : contract.Valid) :
    TaskContract.tryFrom contract.draft =
      .ok { contract with version := currentTaskContractVersion } := by
  rw [tryFrom_eq_ok, hvalid.settled]
  exact ⟨hvalid.withVersion _, rfl⟩

/-- A legacy contract with its texts trimmed. -/
def LegacyTaskContract.settled (wire : LegacyTaskContract) : LegacyTaskContract :=
  { wire with
    goal := trim wire.goal
    acceptanceCriteria := wire.acceptanceCriteria.map trim }

theorem LegacyTaskContract.validate_eq_ok {wire contract : LegacyTaskContract} :
    wire.validate = .ok contract ↔ wire.settled.terms.Valid ∧ wire.settled = contract := by
  simp only [validate, nonempty, validateDependencies, bind_eq_ok, ensure_eq_ok, pure_eq_ok,
    revalidateTaskSource_eq_ok, validateAcceptanceCriteria_eq_ok, validateOptionalGitSha_eq_ok,
    validateShaBinding_eq_ok, exists_const,
    mapM_check_eq_ok fun _ _ => InstructionDigest.new_eq_ok,
    mapM_check_eq_ok fun _ _ => VerificationCommand.new_eq_ok,
    mapM_check_eq_ok fun _ _ => SensitivePath.new_eq_ok]
  constructor
  · rintro ⟨source, ⟨hsource, rfl⟩, hgoal, hcriteria, hbase, hhead, hbinding, hdependencies,
      digests, ⟨hdigests, rfl⟩, commands, ⟨hvalid, rfl⟩, paths, ⟨hpaths, rfl⟩, rfl⟩
    refine ⟨⟨⟨trim_trim _, ?_⟩, hsource, hcriteria, hbase, hhead, hbinding, hdependencies,
      hdigests, hvalid, hpaths⟩, rfl⟩
    rwa [trim_trim] at hgoal
  · rintro ⟨⟨hgoal, hsource, hcriteria, hbase, hhead, hbinding, hdependencies, hdigests, hvalid,
      hpaths⟩, rfl⟩
    refine ⟨_, ⟨hsource, rfl⟩, ?_, hcriteria, hbase, hhead, hbinding, hdependencies,
      _, ⟨hdigests, rfl⟩, _, ⟨hvalid, rfl⟩, _, ⟨hpaths, rfl⟩, rfl⟩
    rw [trim_trim]
    exact hgoal.2

theorem LegacyTaskContract.settled_of_valid {contract : LegacyTaskContract}
    (hvalid : contract.terms.Valid) : contract.settled = contract := by
  have hcriteria : contract.acceptanceCriteria.map trim = contract.acceptanceCriteria := by
    calc contract.acceptanceCriteria.map trim
        = contract.acceptanceCriteria.map id :=
          List.map_congr_left fun criterion hcriterion =>
            (hvalid.acceptanceCriteria.2 criterion hcriterion).1
      _ = contract.acceptanceCriteria := List.map_id _
  have hgoal : trim contract.goal = contract.goal := hvalid.goal.1
  rw [settled, hcriteria, hgoal]

end Valid

/-! ### Decoded contracts -/

section Decode

theorem TaskContract.decode_eq_ok {wire contract : TaskContract}
    (hdecode : wire.decode = .ok contract) :
    (contract.version = 1 ∨ contract.version = currentTaskContractVersion) ∧ contract.Valid ∧
      contract.version = wire.version ∧ contract.source = wire.source ∧
      contract.instructionDigests = wire.instructionDigests := by
  simp only [decode, bind_eq_ok, ensure_eq_ok, exists_const, mapError_eq_ok, pure_eq_ok,
    tryFrom_eq_ok] at hdecode
  obtain ⟨hversion, _, ⟨hvalid, rfl⟩, rfl⟩ := hdecode
  exact ⟨hversion, hvalid.withVersion _, rfl, rfl, rfl⟩

theorem TaskContract.Valid.decode {contract : TaskContract} (hvalid : contract.Valid)
    (hversion : contract.version = 1 ∨ contract.version = currentTaskContractVersion) :
    contract.decode = .ok contract := by
  simp only [TaskContract.decode, bind_eq_ok, ensure_eq_ok, exists_const, mapError_eq_ok,
    pure_eq_ok, hvalid.tryFrom, Except.ok.injEq, exists_eq_left', and_true]
  exact hversion

theorem LegacyTaskContract.decode_eq_ok {wire contract : LegacyTaskContract} :
    wire.decode = .ok contract ↔
      wire.version = 1 ∧ wire.settled.terms.Valid ∧ wire.settled = contract := by
  simp only [decode, bind_eq_ok, ensure_eq_ok, exists_const, mapError_eq_ok, validate_eq_ok]

end Decode

end Patchwright
