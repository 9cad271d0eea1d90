import Patchwright.Core.ContractFidelity

/-!
# Snapshots of task contracts

A snapshot is read back from its own encoding, as the contract and the format
that it was, and no value is read as a contract of both formats.
-/

namespace Patchwright

open Checked Json Contract

/-! ### What fits, and what can be read -/

section Fits

/-- The numbers of a source are unsigned 64-bit numbers. -/
def TaskSource.Fits (source : TaskSource) : Prop :=
  (∀ number ∈ source.repositoryId, number < 2 ^ 64) ∧ ∀ number ∈ source.itemNumber, number < 2 ^ 64

/-- The precedence of instructions is an unsigned 16-bit number. -/
def InstructionDigest.Fits (digest : InstructionDigest) : Prop := digest.precedence < 2 ^ 16

def ContractTerms.Fits (terms : ContractTerms) : Prop :=
  terms.source.Fits ∧ ∀ digest ∈ terms.instructionDigests, digest.Fits

def TaskContractDraft.Fits (draft : TaskContractDraft) : Prop := draft.settled.terms.Fits

def TaskSource.snapshotAt : TaskSource → Option DateTime
  | localRequest => none
  | gitHubIssue source => some source.snapshotAt
  | gitHubPullRequest source => some source.snapshotAt

def ContractTerms.uuids (terms : ContractTerms) : List Uuid :=
  terms.taskId.uuid :: terms.repositoryBindingId.uuid :: terms.dependencies.map TaskId.uuid

variable [WireText]

/-- The libraries read the UUIDs and the instant of a contract as they write
them. -/
structure ContractTerms.Legible (terms : ContractTerms) : Prop where
  uuids : ∀ id ∈ terms.uuids, WireText.parseUuid id.toString = some id
  snapshotAt : ∀ instant ∈ terms.source.snapshotAt,
    WireText.parseInstant (WireText.formatInstant instant) = some instant

end Fits

/-! ### Reading what has been written -/

section Parts

theorem asList?_strs (texts : List String) : asList? asStr? (.arr (texts.map .str)) = some texts :=
  asList?_map_iff.2 fun _ _ => rfl

theorem InstructionDigest.read_toJson {digest : InstructionDigest} (hfits : digest.Fits) :
    read digest.toJson = some digest := by
  rw [read, toJson, record?_obj (by simp [Fills]) (by decide)]
  simp only [List.map_cons, List.map_nil, Option.bind_eq_bind, Option.bind_some, required, asStr?,
    asBelow?_int hfits]
  rfl

theorem VerificationCommand.read_toJson {command : VerificationCommand} (hvalid : command.Valid) :
    read command.toJson = some command := by
  have hnew := VerificationCommand.new_eq_ok.2 ⟨hvalid, rfl⟩
  rw [read, toJson, record?_obj (by simp [Fills]) (by decide)]
  simp only [List.map_cons, List.map_nil, Option.bind_eq_bind, Option.bind_some, required, asStr?,
    asList?_strs, hnew]
  rfl

theorem SensitivePath.read_toJson (sensitive : SensitivePath) :
    read sensitive.toJson = some sensitive := by
  rw [read, toJson, record?_obj (by simp [Fills]) (by decide)]
  rfl

theorem Capability.read_name (capability : Capability) :
    Capability.read (.str capability.actionKind) = some capability := by
  cases capability <;> rfl

theorem RiskClass.read_name (risk : RiskClass) : RiskClass.read (.str risk.name) = some risk := by
  cases risk <;> rfl

theorem asList?_capabilities (required : List Capability) :
    asList? Capability.read (.arr (required.map fun capability => .str capability.actionKind)) =
      some required :=
  asList?_map_iff.2 fun capability _ => Capability.read_name capability

end Parts

section Written

variable [WireText]

theorem readUuid_str {id : Uuid} (hlegible : WireText.parseUuid id.toString = some id) :
    readUuid (.str id.toString) = some id :=
  hlegible

theorem readInstant_str {instant : DateTime}
    (hlegible : WireText.parseInstant (WireText.formatInstant instant) = some instant) :
    readInstant (.str (WireText.formatInstant instant)) = some instant :=
  hlegible

theorem TaskSource.read_encode {source : TaskSource} (hfits : source.Fits)
    (hlegible : ∀ instant ∈ source.snapshotAt,
      WireText.parseInstant (WireText.formatInstant instant) = some instant) :
    TaskSource.read source.encode = some source := by
  cases source with
  | localRequest =>
      rw [TaskSource.read, encode, adjacent?_tag (by decide)]
      rfl
  | gitHubIssue source =>
      have hrepository := asBelow?_int (hfits.1 _ rfl)
      have hnumber := asBelow?_int (hfits.2 _ rfl)
      have hinstant := readInstant_str (hlegible _ rfl)
      have hread : GitHubIssueSource.read source.encode = some source := by
        rw [GitHubIssueSource.read, GitHubIssueSource.encode,
          record?_obj (by simp [Fills, itemNames]) (by decide)]
        simp only [List.map_cons, List.map_nil, Option.bind_eq_bind, Option.bind_some, required,
          asStr?, hrepository, hnumber, hinstant]
        rfl
      rw [TaskSource.read, encode, adjacent?_obj (by decide)]
      simp only [Option.bind_eq_bind, Option.bind_some, variant?, required, hread]
      rfl
  | gitHubPullRequest source =>
      have hrepository := asBelow?_int (hfits.1 _ rfl)
      have hnumber := asBelow?_int (hfits.2 _ rfl)
      have hinstant := readInstant_str (hlegible _ rfl)
      have hread : GitHubPullRequestSource.read source.encode = some source := by
        rw [GitHubPullRequestSource.read, GitHubPullRequestSource.encode,
          record?_obj (by simp [Fills, itemNames]) (by decide)]
        simp only [List.map_cons, List.map_nil, Option.bind_eq_bind, Option.bind_some, required,
          asStr?, hrepository, hnumber, hinstant]
        rfl
      rw [TaskSource.read, encode, adjacent?_obj (by decide)]
      simp only [Option.bind_eq_bind, Option.bind_some, variant?, required, hread]
      rfl

theorem readTaskId_str {id : TaskId} (hlegible : WireText.parseUuid id.uuid.toString = some id.uuid) :
    readTaskId (.str id.toString) = some id := by
  have hread : readUuid (.str id.toString) = some id.uuid := readUuid_str hlegible
  rw [readTaskId, hread]
  rfl

/-- What the two formats have in common is read back. -/
structure ContractTerms.ReadBack (terms : ContractTerms) : Prop where
  taskId : readTaskId (.str terms.taskId.toString) = some terms.taskId
  source : TaskSource.read terms.source.encode = some terms.source
  repositoryBindingId : readUuid (.str terms.repositoryBindingId.uuid.toString) =
    some terms.repositoryBindingId.uuid
  instructionDigests : asList? InstructionDigest.read
    (.arr (terms.instructionDigests.map InstructionDigest.toJson)) = some terms.instructionDigests
  verificationCommands : asList? VerificationCommand.read
    (.arr (terms.verificationCommands.map VerificationCommand.toJson)) =
      some terms.verificationCommands
  sensitivePaths : asList? SensitivePath.read
    (.arr (terms.sensitivePaths.map SensitivePath.toJson)) = some terms.sensitivePaths
  dependencies : asList? readTaskId (.arr (terms.dependencies.map fun id => .str id.toString)) =
    some terms.dependencies

theorem ContractTerms.Valid.readBack {terms : ContractTerms} (hvalid : terms.Valid)
    (hfits : terms.Fits) (hlegible : terms.Legible) : terms.ReadBack where
  taskId := readTaskId_str (hlegible.uuids _ List.mem_cons_self)
  source := TaskSource.read_encode hfits.1 hlegible.snapshotAt
  repositoryBindingId :=
    readUuid_str (hlegible.uuids _ (List.mem_cons_of_mem _ List.mem_cons_self))
  instructionDigests := asList?_map_iff.2 fun digest hdigest =>
    InstructionDigest.read_toJson (hfits.2 digest hdigest)
  verificationCommands := asList?_map_iff.2 fun command hcommand =>
    VerificationCommand.read_toJson (hvalid.verificationCommands command hcommand)
  sensitivePaths := asList?_map_iff.2 fun sensitive _ => SensitivePath.read_toJson sensitive
  dependencies := asList?_map_iff.2 fun _ hid => readTaskId_str (hlegible.uuids _
    (List.mem_cons_of_mem _ (List.mem_cons_of_mem _ (List.mem_map_of_mem hid))))

theorem TaskContract.read_encode {contract : TaskContract} (hversion : contract.version < 2 ^ 32)
    (hread : contract.terms.ReadBack) : TaskContract.read contract.encode = some contract := by
  obtain ⟨htask, hsource, hbinding, hdigests, hcommands, hpaths, hdependencies⟩ := hread
  rw [read, encode, record?_obj (by simp [Fills, contractNames]) (by decide)]
  refine Option.bind_eq_some_iff.mpr ⟨_, rfl, ?_⟩
  refine Option.bind_eq_some_iff.mpr ⟨_, asBelow?_int hversion, ?_⟩
  refine Option.bind_eq_some_iff.mpr ⟨_, htask, ?_⟩
  refine Option.bind_eq_some_iff.mpr ⟨_, hsource, ?_⟩
  refine Option.bind_eq_some_iff.mpr ⟨_, Option.map_eq_some_iff.mpr ⟨_, hbinding, rfl⟩, ?_⟩
  refine Option.bind_eq_some_iff.mpr ⟨_, rfl, ?_⟩
  refine Option.bind_eq_some_iff.mpr ⟨_, asList?_strs _, ?_⟩
  refine Option.bind_eq_some_iff.mpr ⟨_, optional_ofOption_str _, ?_⟩
  refine Option.bind_eq_some_iff.mpr ⟨_, optional_ofOption_str _, ?_⟩
  refine Option.bind_eq_some_iff.mpr ⟨_, rfl, ?_⟩
  refine Option.bind_eq_some_iff.mpr ⟨_, rfl, ?_⟩
  refine Option.bind_eq_some_iff.mpr ⟨_, hdigests, ?_⟩
  refine Option.bind_eq_some_iff.mpr ⟨_, hcommands, ?_⟩
  refine Option.bind_eq_some_iff.mpr ⟨_, asList?_capabilities _, ?_⟩
  refine Option.bind_eq_some_iff.mpr ⟨_, RiskClass.read_name _, ?_⟩
  refine Option.bind_eq_some_iff.mpr ⟨_, hpaths, ?_⟩
  refine Option.bind_eq_some_iff.mpr ⟨_, hdependencies, ?_⟩
  rfl

theorem LegacyTaskContract.read_encode {contract : LegacyTaskContract}
    (hversion : contract.version < 2 ^ 32) (hread : contract.terms.ReadBack) :
    LegacyTaskContract.read contract.encode = some contract := by
  obtain ⟨htask, hsource, hbinding, hdigests, hcommands, hpaths, hdependencies⟩ := hread
  rw [read, encode, record?_obj (by simp [Fills, contractNames]) (by decide)]
  refine Option.bind_eq_some_iff.mpr ⟨_, rfl, ?_⟩
  refine Option.bind_eq_some_iff.mpr ⟨_, asBelow?_int hversion, ?_⟩
  refine Option.bind_eq_some_iff.mpr ⟨_, htask, ?_⟩
  refine Option.bind_eq_some_iff.mpr ⟨_, hsource, ?_⟩
  refine Option.bind_eq_some_iff.mpr ⟨_, Option.map_eq_some_iff.mpr ⟨_, hbinding, rfl⟩, ?_⟩
  refine Option.bind_eq_some_iff.mpr ⟨_, rfl, ?_⟩
  refine Option.bind_eq_some_iff.mpr ⟨_, asList?_strs _, ?_⟩
  refine Option.bind_eq_some_iff.mpr ⟨_, optional_ofOption_str _, ?_⟩
  refine Option.bind_eq_some_iff.mpr ⟨_, optional_ofOption_str _, ?_⟩
  refine Option.bind_eq_some_iff.mpr ⟨_, hdigests, ?_⟩
  refine Option.bind_eq_some_iff.mpr ⟨_, hcommands, ?_⟩
  refine Option.bind_eq_some_iff.mpr ⟨_, asList?_capabilities _, ?_⟩
  refine Option.bind_eq_some_iff.mpr ⟨_, RiskClass.read_name _, ?_⟩
  refine Option.bind_eq_some_iff.mpr ⟨_, hpaths, ?_⟩
  refine Option.bind_eq_some_iff.mpr ⟨_, hdependencies, ?_⟩
  rfl

end Written

/-! ### What has been read fits -/

section Read

theorem InstructionDigest.read_fits {value : Json} {digest : InstructionDigest}
    (hread : InstructionDigest.read value = some digest) : digest.Fits := by
  obtain ⟨fields, -, hread⟩ := Option.bind_eq_some_iff.mp hread
  split at hread
  · obtain ⟨source, -, hread⟩ := Option.bind_eq_some_iff.mp hread
    obtain ⟨sha256, -, hread⟩ := Option.bind_eq_some_iff.mp hread
    obtain ⟨precedence, hprecedence, hread⟩ := Option.bind_eq_some_iff.mp hread
    cases hread
    exact required_below hprecedence
  · cases hread

variable [WireText]

theorem GitHubIssueSource.read_fits {value : Json} {source : GitHubIssueSource}
    (hread : read value = some source) : (TaskSource.gitHubIssue source).Fits := by
  obtain ⟨fields, -, hread⟩ := Option.bind_eq_some_iff.mp hread
  split at hread
  · obtain ⟨repositoryId, hrepository, hread⟩ := Option.bind_eq_some_iff.mp hread
    obtain ⟨name, -, hread⟩ := Option.bind_eq_some_iff.mp hread
    obtain ⟨number, hnumber, hread⟩ := Option.bind_eq_some_iff.mp hread
    obtain ⟨url, -, hread⟩ := Option.bind_eq_some_iff.mp hread
    obtain ⟨instant, -, hread⟩ := Option.bind_eq_some_iff.mp hread
    cases hread
    constructor
    · rintro _ ⟨⟩
      exact required_below hrepository
    · rintro _ ⟨⟩
      exact required_below hnumber
  · cases hread

theorem GitHubPullRequestSource.read_fits {value : Json} {source : GitHubPullRequestSource}
    (hread : read value = some source) : (TaskSource.gitHubPullRequest source).Fits := by
  obtain ⟨fields, -, hread⟩ := Option.bind_eq_some_iff.mp hread
  split at hread
  · obtain ⟨repositoryId, hrepository, hread⟩ := Option.bind_eq_some_iff.mp hread
    obtain ⟨name, -, hread⟩ := Option.bind_eq_some_iff.mp hread
    obtain ⟨number, hnumber, hread⟩ := Option.bind_eq_some_iff.mp hread
    obtain ⟨url, -, hread⟩ := Option.bind_eq_some_iff.mp hread
    obtain ⟨instant, -, hread⟩ := Option.bind_eq_some_iff.mp hread
    obtain ⟨baseRef, -, hread⟩ := Option.bind_eq_some_iff.mp hread
    obtain ⟨baseSha, -, hread⟩ := Option.bind_eq_some_iff.mp hread
    obtain ⟨headRef, -, hread⟩ := Option.bind_eq_some_iff.mp hread
    obtain ⟨headSha, -, hread⟩ := Option.bind_eq_some_iff.mp hread
    cases hread
    constructor
    · rintro _ ⟨⟩
      exact required_below hrepository
    · rintro _ ⟨⟩
      exact required_below hnumber
  · cases hread

theorem TaskSource.read_fits {value : Json} {source : TaskSource}
    (hread : TaskSource.read value = some source) : source.Fits := by
  obtain ⟨⟨kind, details⟩, -, hread⟩ := Option.bind_eq_some_iff.mp hread
  obtain ⟨name, -, hread⟩ := Option.bind_eq_some_iff.mp hread
  split at hread
  · obtain ⟨nothing, -, hread⟩ := Option.bind_eq_some_iff.mp hread
    cases hread
    exact ⟨nofun, nofun⟩
  · obtain ⟨source, hsource, hread⟩ := Option.bind_eq_some_iff.mp hread
    obtain ⟨written, -, hsource⟩ := exists_of_required hsource
    cases hread
    exact GitHubIssueSource.read_fits hsource
  · obtain ⟨source, hsource, hread⟩ := Option.bind_eq_some_iff.mp hread
    obtain ⟨written, -, hsource⟩ := exists_of_required hsource
    cases hread
    exact GitHubIssueSource.read_fits hsource
  · obtain ⟨source, hsource, hread⟩ := Option.bind_eq_some_iff.mp hread
    obtain ⟨written, -, hsource⟩ := exists_of_required hsource
    cases hread
    exact GitHubPullRequestSource.read_fits hsource
  · obtain ⟨source, hsource, hread⟩ := Option.bind_eq_some_iff.mp hread
    obtain ⟨written, -, hsource⟩ := exists_of_required hsource
    cases hread
    exact GitHubPullRequestSource.read_fits hsource
  · cases hread

/-- What has been read of a source and of digests fits. -/
theorem terms_fit {sourceField digestsField : Option Json} {source : TaskSource}
    {digests : List InstructionDigest} (hsource : required TaskSource.read sourceField = some source)
    (hdigests : required (asList? InstructionDigest.read) digestsField = some digests) :
    source.Fits ∧ ∀ digest ∈ digests, digest.Fits := by
  obtain ⟨written, -, hsource⟩ := exists_of_required hsource
  obtain ⟨items, -, hdigests⟩ := exists_of_required hdigests
  refine ⟨TaskSource.read_fits hsource, fun digest hdigest => ?_⟩
  obtain ⟨item, hitem⟩ := exists_of_mem_asList hdigests digest hdigest
  exact InstructionDigest.read_fits hitem

/-- A contract that has been read had a digest of its source among its fields. -/
theorem TaskContract.read_eq_some {value : Json} {wire : TaskContract}
    (hread : TaskContract.read value = some wire) :
    wire.terms.Fits ∧ ∃ fields sha,
      record? true (contractNames [["sourceSha256"], ["repositorySha256"]]) value = some fields ∧
        fields[8]? = some (some sha) := by
  obtain ⟨fields, hfields, hread⟩ := Option.bind_eq_some_iff.mp hread
  split at hread
  · obtain ⟨version, -, hread⟩ := Option.bind_eq_some_iff.mp hread
    obtain ⟨taskId, -, hread⟩ := Option.bind_eq_some_iff.mp hread
    obtain ⟨source, hsource, hread⟩ := Option.bind_eq_some_iff.mp hread
    obtain ⟨binding, -, hread⟩ := Option.bind_eq_some_iff.mp hread
    obtain ⟨goal, -, hread⟩ := Option.bind_eq_some_iff.mp hread
    obtain ⟨criteria, -, hread⟩ := Option.bind_eq_some_iff.mp hread
    obtain ⟨baseSha, -, hread⟩ := Option.bind_eq_some_iff.mp hread
    obtain ⟨headSha, -, hread⟩ := Option.bind_eq_some_iff.mp hread
    obtain ⟨sourceSha, hsourceSha, hread⟩ := Option.bind_eq_some_iff.mp hread
    obtain ⟨repositorySha, -, hread⟩ := Option.bind_eq_some_iff.mp hread
    obtain ⟨digests, hdigests, hread⟩ := Option.bind_eq_some_iff.mp hread
    obtain ⟨commands, -, hread⟩ := Option.bind_eq_some_iff.mp hread
    obtain ⟨capabilities, -, hread⟩ := Option.bind_eq_some_iff.mp hread
    obtain ⟨risk, -, hread⟩ := Option.bind_eq_some_iff.mp hread
    obtain ⟨paths, -, hread⟩ := Option.bind_eq_some_iff.mp hread
    obtain ⟨dependencies, -, hread⟩ := Option.bind_eq_some_iff.mp hread
    cases hread
    obtain ⟨sha, hsha, -⟩ := exists_of_required hsourceSha
    exact ⟨terms_fit hsource hdigests, _, sha, hfields, congrArg some hsha⟩
  · cases hread

theorem LegacyTaskContract.read_eq_some {value : Json} {wire : LegacyTaskContract}
    (hread : LegacyTaskContract.read value = some wire) :
    wire.terms.Fits ∧ ∃ fields, record? true (contractNames []) value = some fields := by
  obtain ⟨fields, hfields, hread⟩ := Option.bind_eq_some_iff.mp hread
  split at hread
  · obtain ⟨version, -, hread⟩ := Option.bind_eq_some_iff.mp hread
    obtain ⟨taskId, -, hread⟩ := Option.bind_eq_some_iff.mp hread
    obtain ⟨source, hsource, hread⟩ := Option.bind_eq_some_iff.mp hread
    obtain ⟨binding, -, hread⟩ := Option.bind_eq_some_iff.mp hread
    obtain ⟨goal, -, hread⟩ := Option.bind_eq_some_iff.mp hread
    obtain ⟨criteria, -, hread⟩ := Option.bind_eq_some_iff.mp hread
    obtain ⟨baseSha, -, hread⟩ := Option.bind_eq_some_iff.mp hread
    obtain ⟨headSha, -, hread⟩ := Option.bind_eq_some_iff.mp hread
    obtain ⟨digests, hdigests, hread⟩ := Option.bind_eq_some_iff.mp hread
    obtain ⟨commands, -, hread⟩ := Option.bind_eq_some_iff.mp hread
    obtain ⟨capabilities, -, hread⟩ := Option.bind_eq_some_iff.mp hread
    obtain ⟨risk, -, hread⟩ := Option.bind_eq_some_iff.mp hread
    obtain ⟨paths, -, hread⟩ := Option.bind_eq_some_iff.mp hread
    obtain ⟨dependencies, -, hread⟩ := Option.bind_eq_some_iff.mp hread
    cases hread
    exact ⟨terms_fit hsource hdigests, _, hfields⟩
  · cases hread

/-- A value is read in one of the formats at most: a legacy contract knows no
digest of its source. -/
theorem not_both_formats {value : Json} {wire : TaskContract} {legacy : LegacyTaskContract}
    (hread : TaskContract.read value = some wire)
    (hlegacy : LegacyTaskContract.read value = some legacy) : False := by
  obtain ⟨-, fields, sha, hfields, hsha⟩ := TaskContract.read_eq_some hread
  obtain ⟨-, later, hlater⟩ := LegacyTaskContract.read_eq_some hlegacy
  exact not_both_records hfields hlater (by decide) rfl hsha (by decide)

end Read

/-! ### Encodings name each field once -/

section Encodings

theorem lastFields_strs {α : Type} (items : List α) (text : α → String) :
    (Json.arr (items.map fun item => .str (text item))).lastFields =
      .arr (items.map fun item => .str (text item)) :=
  lastFields_map fun item => lastFields_str (text item)

theorem InstructionDigest.lastFields_toJson (digest : InstructionDigest) :
    digest.toJson.lastFields = digest.toJson := by
  apply lastFields_obj
  · simp
  · simp

theorem VerificationCommand.lastFields_toJson (command : VerificationCommand) :
    command.toJson.lastFields = command.toJson := by
  apply lastFields_obj
  · simp
  · have hargs : (Json.arr (command.args.map .str)).lastFields = .arr (command.args.map .str) :=
      lastFields_map lastFields_str
    simp [hargs]

theorem SensitivePath.lastFields_toJson (sensitive : SensitivePath) :
    sensitive.toJson.lastFields = sensitive.toJson := by
  apply lastFields_obj
  · simp
  · simp

/-- The lists of a contract name each field once. -/
theorem ContractTerms.lastFields_lists (terms : ContractTerms) :
    (Json.arr (terms.acceptanceCriteria.map .str)).lastFields =
        .arr (terms.acceptanceCriteria.map .str) ∧
      (Json.arr (terms.instructionDigests.map InstructionDigest.toJson)).lastFields =
        .arr (terms.instructionDigests.map InstructionDigest.toJson) ∧
      (Json.arr (terms.verificationCommands.map VerificationCommand.toJson)).lastFields =
        .arr (terms.verificationCommands.map VerificationCommand.toJson) ∧
      (Json.arr (terms.sensitivePaths.map SensitivePath.toJson)).lastFields =
        .arr (terms.sensitivePaths.map SensitivePath.toJson) :=
  ⟨lastFields_map lastFields_str, lastFields_map InstructionDigest.lastFields_toJson,
    lastFields_map VerificationCommand.lastFields_toJson,
    lastFields_map SensitivePath.lastFields_toJson⟩

variable [WireText]

theorem TaskSource.lastFields_encode (source : TaskSource) :
    source.encode.lastFields = source.encode := by
  cases source with
  | localRequest =>
      apply lastFields_obj
      · simp
      · simp
  | gitHubIssue source =>
      have hdetails : source.encode.lastFields = source.encode := by
        apply lastFields_obj
        · simp
        · simp
      apply lastFields_obj
      · simp
      · simp [hdetails]
  | gitHubPullRequest source =>
      have hdetails : source.encode.lastFields = source.encode := by
        apply lastFields_obj
        · simp
        · simp
      apply lastFields_obj
      · simp
      · simp [hdetails]

theorem TaskContract.lastFields_encode (contract : TaskContract) :
    contract.encode.lastFields = contract.encode := by
  obtain ⟨hcriteria, hdigests, hcommands, hpaths⟩ := contract.terms.lastFields_lists
  simp only [terms] at hcriteria hdigests hcommands hpaths
  apply lastFields_obj
  · simp
  · simp only [List.forall_mem_cons, lastFields_int, lastFields_str, lastFields_ofOption,
      contract.source.lastFields_encode, lastFields_strs, hcriteria, hdigests, hcommands, hpaths]
    simp

theorem LegacyTaskContract.lastFields_encode (contract : LegacyTaskContract) :
    contract.encode.lastFields = contract.encode := by
  obtain ⟨hcriteria, hdigests, hcommands, hpaths⟩ := contract.terms.lastFields_lists
  simp only [terms] at hcriteria hdigests hcommands hpaths
  apply lastFields_obj
  · simp
  · simp only [List.forall_mem_cons, lastFields_int, lastFields_str, lastFields_ofOption,
      contract.source.lastFields_encode, lastFields_strs, hcriteria, hdigests, hcommands, hpaths]
    simp

end Encodings

/-! ### Contracts as they are obtained -/

section Obtained

variable [WireText]

/-- A contract is made from a draft or decoded from a value. -/
def TaskContract.Obtained (contract : TaskContract) : Prop :=
  (∃ draft, draft.Fits ∧ TaskContract.tryFrom draft = .ok contract) ∨
    ∃ value, TaskContract.fromJson value = some contract

/-- A legacy contract is decoded from a value. -/
def LegacyTaskContract.Obtained (contract : LegacyTaskContract) : Prop :=
  ∃ value, LegacyTaskContract.fromJson value = some contract

namespace TaskContractSnapshot

def Obtained : TaskContractSnapshot → Prop
  | executable contract => contract.Obtained
  | legacyReadOnly contract => contract.Obtained

def terms : TaskContractSnapshot → ContractTerms
  | executable contract => contract.terms
  | legacyReadOnly contract => contract.terms

end TaskContractSnapshot

theorem TaskContract.fromJson_eq_some {value : Json} {contract : TaskContract} :
    TaskContract.fromJson value = some contract ↔
      ∃ wire, TaskContract.read value = some wire ∧ wire.decode = .ok contract := by
  rw [fromJson, Option.bind_eq_bind, Option.bind_eq_some_iff]
  simp only [toOption_eq_some]

theorem LegacyTaskContract.fromJson_eq_some {value : Json} {contract : LegacyTaskContract} :
    LegacyTaskContract.fromJson value = some contract ↔
      ∃ wire, LegacyTaskContract.read value = some wire ∧ wire.decode = .ok contract := by
  rw [fromJson, Option.bind_eq_bind, Option.bind_eq_some_iff]
  simp only [toOption_eq_some]

theorem TaskContract.Obtained.valid {contract : TaskContract} (hobtained : contract.Obtained) :
    contract.Valid ∧ contract.terms.Fits ∧
      (contract.version = 1 ∨ contract.version = currentTaskContractVersion) := by
  cases hobtained with
  | inl hmade =>
      obtain ⟨draft, hfits, hmade⟩ := hmade
      obtain ⟨hvalid, rfl⟩ := tryFrom_eq_ok.1 hmade
      exact ⟨hvalid, hfits, Or.inr rfl⟩
  | inr hdecoded =>
      obtain ⟨value, hvalue⟩ := hdecoded
      obtain ⟨wire, hread, hdecode⟩ := fromJson_eq_some.1 hvalue
      obtain ⟨hversion, hvalid, -, hsource, hdigests⟩ := decode_eq_ok hdecode
      obtain ⟨hfits, -⟩ := read_eq_some hread
      refine ⟨hvalid, ?_, hversion⟩
      rw [ContractTerms.Fits, terms, hsource, hdigests]
      exact hfits

theorem LegacyTaskContract.Obtained.valid {contract : LegacyTaskContract}
    (hobtained : contract.Obtained) :
    contract.terms.Valid ∧ contract.terms.Fits ∧ contract.version = 1 := by
  obtain ⟨value, hvalue⟩ := hobtained
  obtain ⟨wire, hread, hdecode⟩ := fromJson_eq_some.1 hvalue
  obtain ⟨hversion, hvalid, rfl⟩ := decode_eq_ok.1 hdecode
  exact ⟨hvalid, (read_eq_some hread).1, hversion⟩

theorem TaskContract.Obtained.fromJson_encode {contract : TaskContract}
    (hobtained : contract.Obtained) (hlegible : contract.terms.Legible) :
    TaskContract.fromJson contract.encode = some contract := by
  obtain ⟨hvalid, hfits, hversion⟩ := hobtained.valid
  have hbound : contract.version < 2 ^ 32 := by
    cases hversion with
    | inl hone => rw [hone]; decide
    | inr hcurrent => rw [hcurrent]; decide
  have hread := TaskContract.read_encode hbound (hvalid.terms.readBack hfits hlegible)
  exact fromJson_eq_some.2 ⟨contract, hread, hvalid.decode hversion⟩

theorem LegacyTaskContract.Obtained.fromJson_encode {contract : LegacyTaskContract}
    (hobtained : contract.Obtained) (hlegible : contract.terms.Legible) :
    LegacyTaskContract.fromJson contract.encode = some contract := by
  obtain ⟨hvalid, hfits, hversion⟩ := hobtained.valid
  have hbound : contract.version < 2 ^ 32 := by
    rw [hversion]
    decide
  have hread := LegacyTaskContract.read_encode hbound (hvalid.readBack hfits hlegible)
  have hsettled := settled_of_valid hvalid
  refine fromJson_eq_some.2 ⟨contract, hread, decode_eq_ok.2 ⟨hversion, ?_, hsettled⟩⟩
  rw [hsettled]
  exact hvalid

theorem not_both_contracts {value : Json} {contract : TaskContract} {legacy : LegacyTaskContract}
    (hcontract : TaskContract.fromJson value = some contract)
    (hlegacy : LegacyTaskContract.fromJson value = some legacy) : False := by
  obtain ⟨wire, hread, -⟩ := TaskContract.fromJson_eq_some.1 hcontract
  obtain ⟨old, hold, -⟩ := LegacyTaskContract.fromJson_eq_some.1 hlegacy
  exact not_both_formats hread hold

namespace TaskContractSnapshot

theorem fromJson_obtained {text : Json} {snapshot : TaskContractSnapshot}
    (hread : TaskContractSnapshot.fromJson text = some snapshot) : snapshot.Obtained := by
  rw [fromJson] at hread
  split at hread
  next contract hcontract =>
    cases hread
    exact Or.inr ⟨_, hcontract⟩
  next =>
    obtain ⟨contract, hcontract, rfl⟩ := Option.map_eq_some_iff.mp hread
    exact ⟨_, hcontract⟩

/-- A snapshot is read back as the contract and the format that it was. -/
theorem fromJson_encode {snapshot : TaskContractSnapshot} (hobtained : snapshot.Obtained)
    (hlegible : snapshot.terms.Legible) :
    TaskContractSnapshot.fromJson snapshot.encode = some snapshot := by
  cases snapshot with
  | executable contract =>
      have hread := TaskContract.Obtained.fromJson_encode hobtained hlegible
      rw [fromJson, encode, contract.lastFields_encode]
      simp only [hread]
  | legacyReadOnly contract =>
      have hread := LegacyTaskContract.Obtained.fromJson_encode hobtained hlegible
      have hnone : TaskContract.fromJson contract.encode = none := by
        rw [Option.eq_none_iff_forall_ne_some]
        exact fun executable hexecutable => not_both_contracts hexecutable hread
      rw [fromJson, encode, contract.lastFields_encode]
      simp only [hnone, hread, Option.map_some]

end TaskContractSnapshot

/-- Contracts of both formats have their invariants however they were obtained,
a contract passes the constructor again, a snapshot is read back in its format,
and no value is a contract of both. -/
theorem contracts_faithful :
    (∀ contract : TaskContract, contract.Obtained → contract.Valid ∧
      TaskContract.tryFrom contract.draft =
        .ok { contract with version := currentTaskContractVersion }) ∧
      (∀ contract : LegacyTaskContract, contract.Obtained → contract.terms.Valid) ∧
      (∀ text snapshot, TaskContractSnapshot.fromJson text = some snapshot → snapshot.Obtained) ∧
      (∀ snapshot : TaskContractSnapshot, snapshot.Obtained → snapshot.terms.Legible →
        TaskContractSnapshot.fromJson snapshot.encode = some snapshot) ∧
      ∀ value, TaskContract.fromJson value = none ∨ LegacyTaskContract.fromJson value = none := by
  refine ⟨?_, ?_, ?_, ?_, ?_⟩
  · intro contract hobtained
    obtain ⟨hvalid, -⟩ := hobtained.valid
    exact ⟨hvalid, hvalid.tryFrom⟩
  · exact fun contract hobtained => hobtained.valid.1
  · exact fun text snapshot hread => TaskContractSnapshot.fromJson_obtained hread
  · exact fun snapshot hobtained hlegible =>
      TaskContractSnapshot.fromJson_encode hobtained hlegible
  · intro value
    cases hcontract : TaskContract.fromJson value with
    | none => exact Or.inl rfl
    | some contract =>
        right
        rw [Option.eq_none_iff_forall_ne_some]
        exact fun legacy hlegacy => not_both_contracts hcontract hlegacy

end Obtained

namespace ContractSample

def taskId : TaskId := ⟨⟨0x0d4c1b5a7e2f4c3d8a9b0c1d2e3f4a5b⟩⟩

def bindingId : RepositoryBindingId := ⟨⟨0x6f1e2d3c4b5a49788796a5b4c3d2e1f0⟩⟩

/-- The first of January 2024. -/
def snapshotAt : DateTime := seconds 1704067200

scoped instance sampleText : WireText where
  parseUuid text := [taskId.uuid, bindingId.uuid].find? fun id => id.toString = text
  formatInstant := toRfc3339Z
  parseInstant text := if text = "2024-01-01T00:00:00Z" then some snapshotAt else none

def source : TaskSource := .gitHubIssue {
  repositoryId := 42
  repositoryFullName := "octo/demo"
  number := 7
  htmlUrl := "https://github.com/octo/demo/issues/7"
  snapshotAt := snapshotAt }

def digest : String := "cccccccccccccccccccccccccccccccccccccccccccccccccccccccccccccccc"

/-- A draft whose texts are not yet trimmed. -/
def draft : TaskContractDraft where
  taskId := taskId
  source := source
  repositoryBindingId := bindingId
  goal := " Close the issue "
  acceptanceCriteria := ["The tests pass "]
  baseSha := none
  headSha := none
  sourceSha256 := digest
  repositorySha256 := digest
  instructionDigests := [⟨"AGENTS.md", digest, 1⟩]
  verificationCommands := [⟨"cargo", ["test"]⟩]
  requiredCapabilities := [.readRepository]
  risk := .low
  sensitivePaths := [⟨".github", "workflows"⟩]
  dependencies := []

/-- A legacy contract without commands. -/
def legacy : LegacyTaskContract where
  version := 1
  taskId := taskId
  source := source
  repositoryBindingId := bindingId
  goal := " Close the issue "
  acceptanceCriteria := ["The tests pass "]
  baseSha := none
  headSha := none
  instructionDigests := []
  verificationCommands := []
  requiredCapabilities := []
  risk := .low
  sensitivePaths := []
  dependencies := []

theorem source_fits : source.Fits := by
  constructor
  · rintro _ ⟨⟩
    decide
  · rintro _ ⟨⟩
    decide

/-- Contracts of the sample have two UUIDs and one instant, which are read. -/
theorem legible {terms : ContractTerms} (hsource : terms.source = source)
    (hids : terms.uuids = [taskId.uuid, bindingId.uuid]) : terms.Legible := by
  constructor
  · rw [hids, List.forall_mem_cons, List.forall_mem_cons]
    refine ⟨?_, ?_, nofun⟩
    · decide
    · decide
  · rw [hsource]
    rintro _ ⟨⟩
    decide

end ContractSample

open ContractSample in
/-- The contract of the draft and the legacy contract of the sample, read back
from what is written of them. -/
theorem contracts_faithful_sample : ∃ contract old,
    TaskContract.tryFrom draft = .ok contract ∧ contract.Valid ∧
      TaskContract.tryFrom contract.draft = .ok contract ∧
      TaskContractSnapshot.fromJson (TaskContractSnapshot.executable contract).encode =
        some (.executable contract) ∧
      LegacyTaskContract.fromJson legacy.encode = some old ∧ old.terms.Valid ∧
      TaskContractSnapshot.fromJson (TaskContractSnapshot.legacyReadOnly old).encode =
        some (.legacyReadOnly old) := by
  obtain ⟨hcontract, hlegacy, -, hsnapshot, -⟩ := contracts_faithful
  have hmade : TaskContract.tryFrom draft = .ok draft.settled := by
    have hsome : (TaskContract.tryFrom draft).toOption = some draft.settled := by decide
    exact toOption_eq_some.1 hsome
  have hread : LegacyTaskContract.fromJson legacy.encode = some legacy.settled := by
    decide
  have hfits : draft.Fits := by
    refine ⟨source_fits, ?_⟩
    intro digest hdigest
    rw [List.mem_singleton.mp hdigest]
    exact (by decide : 1 < 2 ^ 16)
  have hobtained : draft.settled.Obtained := Or.inl ⟨draft, hfits, hmade⟩
  have hold : legacy.settled.Obtained := ⟨_, hread⟩
  obtain ⟨hvalid, hagain⟩ := hcontract _ hobtained
  refine ⟨draft.settled, legacy.settled, hmade, hvalid, hagain, ?_, hread, hlegacy _ hold, ?_⟩
  · exact hsnapshot (.executable draft.settled) hobtained (legible rfl rfl)
  · exact hsnapshot (.legacyReadOnly legacy.settled) hold (legible rfl rfl)

end Patchwright
