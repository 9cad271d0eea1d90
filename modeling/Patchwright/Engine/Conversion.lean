import Patchwright.Core.ContractWire
import Patchwright.Engine.QueueRequests
import Patchwright.Engine.TaskRequests
import Patchwright.Library.Runs
import Patchwright.Library.Transaction

/-!
# Converting GitHub items to tasks

The service that makes a task of an issue or a pull request of a stored
snapshot.  The task is recorded under a key that names its source, in one
transaction over three tables, each of whose operations may fail.
-/

namespace Patchwright

open Checked Transaction

structure ConversionRequest where
  repositoryFullName : String
  itemNumber : Nat
  expectedUpdatedAt : String
  deriving DecidableEq, Repr

structure ConversionPreview where
  repositoryFullName : String
  repositoryId : Nat
  repositoryBindingId : RepositoryBindingId
  itemNumber : Nat
  sourceKind : WorkItemKind
  title : String
  goal : String
  acceptanceCriteria : List String
  repositoryPath : String
  baseSha : Option String
  headSha : Option String
  sourceUpdatedAt : DateTime
  snapshotAt : DateTime
  requiresConfirmation : Bool
  deriving DecidableEq, Repr

structure ConversionOutcome where
  preview : ConversionPreview
  task : Task
  created : Bool
  deriving DecidableEq, Repr

inductive ConversionError where
  | snapshotMissing
  | itemMissing
  | snapshotStale
  | repositoryBindingMissing
  | repositoryBindingMismatch
  | incompletePullRequest
  | incompleteRepository
  | forkInaccessible
  | invalidRequest (field : String)
  | invalidContract (reason : String)
  | persistence (reason : String)
  deriving DecidableEq, Repr

def ConversionError.message : ConversionError → String
  | snapshotMissing => "repository snapshot is missing"
  | itemMissing => "GitHub item is missing from the repository snapshot"
  | snapshotStale => "GitHub item changed after it was selected; refresh before converting"
  | repositoryBindingMissing => "repository binding is required before conversion"
  | repositoryBindingMismatch => "repository binding does not match the ingested repository"
  | incompletePullRequest => "pull request source identity is incomplete"
  | incompleteRepository => "repository default-branch source identity is incomplete"
  | forkInaccessible => "pull request head fork cannot be updated by this installation"
  | invalidRequest field => "conversion request is invalid: " ++ field
  | invalidContract reason => "conversion contract is invalid: " ++ reason
  | persistence reason => "conversion persistence failed: " ++ reason

/-! ## Previews -/

namespace Conversion

def parseTimestamp (value field : String) : Except ConversionError DateTime :=
  okOr (.invalidRequest field) ((Rfc3339.parse value).map Rfc3339.instant)

def validateRequest (request : ConversionRequest) : Except ConversionError Unit := do
  ensure (¬ (request.repositoryFullName = "" ∨ 200 < request.repositoryFullName.utf8ByteSize))
    (ConversionError.invalidRequest "repositoryFullName")
  ensure (request.itemNumber ≠ 0) (ConversionError.invalidRequest "itemNumber")
  ensure (Rfc3339.parse request.expectedUpdatedAt).isSome
    (ConversionError.invalidRequest "expectedUpdatedAt")

/-- A pull request is complete, and its head can be updated: it is no fork, or
the base repository itself, or its maintainers may modify it. -/
def validatePullRequestAccess (item : GitHubWorkItem) (baseRepository : String) :
    Except ConversionError Unit :=
  match item.kind with
  | .issue => .ok ()
  | .pullRequest => do
      ensure (item.baseRef.isSome ∧ item.baseSha.isSome ∧ item.headRef.isSome ∧
        item.headSha.isSome ∧ item.headRepositoryFullName.isSome)
        ConversionError.incompletePullRequest
      ensure (¬ (item.headRepositoryFork ∧ item.headRepositoryFullName ≠ some baseRepository ∧
        ¬ item.maintainerCanModify)) ConversionError.forkInaccessible

/-- The binding whose repository has a name. -/
def repositoryBindingByFullName (store : EventStore) (fullName : String) :
    Option RepositoryBinding :=
  (store.repositoryBindings.entries.map Sigma.snd).find? fun binding =>
    binding.fullName = fullName

def goal (item : GitHubWorkItem) (fullName : String) : String :=
  match item.kind with
  | .issue => s!"Resolve GitHub issue #{item.number} in {fullName}: {item.title}"
  | .pullRequest => s!"Complete GitHub pull request #{item.number} in {fullName}: {item.title}"

def acceptanceCriteria : WorkItemKind → List String
  | .issue =>
      ["The issue outcome is implemented and verified against the captured source snapshot."]
  | .pullRequest =>
      ["Requested changes, review feedback, checks, and conflicts are assessed against the " ++
        "captured pull request head."]

def baseSha (item : GitHubWorkItem) (repository : GitHubRepository) :
    Except ConversionError (Option String) :=
  match item.kind with
  | .issue => some <$> okOr .incompleteRepository repository.defaultBranchSha
  | .pullRequest => .ok item.baseSha

def preview (store : EventStore) (request : ConversionRequest) :
    Except ConversionError ConversionPreview := do
  validateRequest request
  let (snapshot, snapshotAt) ← okOr .snapshotMissing
    (store.githubRepositoryWithSnapshotAt request.repositoryFullName)
  let item ← okOr .itemMissing (snapshot.item? request.itemNumber)
  let expectedUpdatedAt ← parseTimestamp request.expectedUpdatedAt "expectedUpdatedAt"
  let sourceUpdatedAt ← parseTimestamp item.updatedAt "sourceUpdatedAt"
  ensure (sourceUpdatedAt = expectedUpdatedAt) ConversionError.snapshotStale
  let binding ← okOr .repositoryBindingMissing
    (repositoryBindingByFullName store request.repositoryFullName)
  ensure (binding.githubRepositoryId = snapshot.repository.id ∧
    binding.fullName = snapshot.repository.fullName) ConversionError.repositoryBindingMismatch
  validatePullRequestAccess item snapshot.repository.fullName
  let baseSha ← baseSha item snapshot.repository
  return {
    repositoryFullName := snapshot.repository.fullName
    repositoryId := snapshot.repository.id
    repositoryBindingId := binding.id
    itemNumber := item.number
    sourceKind := item.kind
    title := item.title
    goal := goal item snapshot.repository.fullName
    acceptanceCriteria := acceptanceCriteria item.kind
    repositoryPath := (binding.managedClone.or binding.userCheckout).getD binding.stateRoot
    baseSha
    headSha := item.headSha
    sourceUpdatedAt
    snapshotAt
    requiresConfirmation := true }

/-! ## Sources -/

/-- What the source of a task names: a repository and an issue or a pull request
of it. -/
structure SourceItem where
  repositoryId : Nat
  kind : WorkItemKind
  number : Nat
  deriving DecidableEq, Repr

def sourceKindKey : WorkItemKind → String
  | .issue => "issue"
  | .pullRequest => "pullRequest"

def sourceKey (item : SourceItem) : String :=
  s!"github:{item.repositoryId}:{sourceKindKey item.kind}:{item.number}"

def sourceItem? : TaskSource → Option SourceItem
  | .localRequest => none
  | .gitHubIssue source => some ⟨source.repositoryId, .issue, source.number⟩
  | .gitHubPullRequest source => some ⟨source.repositoryId, .pullRequest, source.number⟩

def previewItem (preview : ConversionPreview) : SourceItem :=
  ⟨preview.repositoryId, preview.sourceKind, preview.itemNumber⟩

def taskSource (item : GitHubWorkItem) (repositoryId : Nat) (snapshotAt : DateTime) :
    Except ConversionError TaskSource :=
  match item.kind with
  | .issue => (TaskSource.githubIssue {
      repositoryId
      repositoryFullName := item.repositoryFullName
      number := item.number
      htmlUrl := item.htmlUrl
      snapshotAt }).mapError fun error => .invalidContract error.message
  | .pullRequest => do
      let baseRef ← okOr .incompletePullRequest item.baseRef
      let baseSha ← okOr .incompletePullRequest item.baseSha
      let headRef ← okOr .incompletePullRequest item.headRef
      let headSha ← okOr .incompletePullRequest item.headSha
      (TaskSource.githubPullRequest {
        repositoryId
        repositoryFullName := item.repositoryFullName
        number := item.number
        htmlUrl := item.htmlUrl
        snapshotAt, baseRef, baseSha, headRef, headSha }).mapError fun error =>
          .invalidContract error.message

/-! ## The transaction -/

def insertTask (task : Task) (store : EventStore) : Except String EventStore := do
  ensure (store.loadTask task.id = none) "UNIQUE constraint failed: tasks.id"
  return { store with tasks := store.tasks.insert task.id task }

def insertTaskEvent (task : Task) (store : EventStore) : Except String EventStore :=
  .ok { store with
    taskEvents := store.taskEvents ++
      [⟨task.id, "task created from GitHub snapshot", task⟩] }

def insertTaskSource (key : String) (id : TaskId) (store : EventStore) :
    Except String EventStore := do
  ensure (store.taskSources.lookup key = none) "UNIQUE constraint failed: task_sources.source_key"
  ensure (∀ entry ∈ store.taskSources.entries, entry.2 ≠ id)
    "UNIQUE constraint failed: task_sources.task_id"
  return { store with taskSources := store.taskSources.insert key id }

/-- The task that is recorded under a key. -/
def convertedTask (faults : Faults) (store : EventStore) (key : String) :
    Except Stop (Option Task) := do
  perform faults 0 (.ok ())
  match ← perform faults 1 (.ok (store.taskSources.lookup key)) with
  | none => return none
  | some id =>
      let existing ← perform faults 2 (okOr "Query returned no rows" (store.loadTask id))
      perform faults 3 (.ok ())
      return some existing

/-- Record a converted task under its key, or find the task that is. -/
def createConvertedTask (faults : Faults) (store : EventStore) (task : Task) (key : String) :
    EventStore × Option (Except String (Task × Bool)) :=
  if key = "" then (store, some (.error "source key is required"))
  else match convertedTask faults store key with
    | .error stop => (store, stop.outcome.answer (task, true))
    | .ok (some existing) => (store, some (.ok (existing, false)))
    | .ok none =>
        let finished := finish faults store (performAll faults 2
          [insertTask task, insertTaskEvent task, insertTaskSource key task.id] store)
        (finished.2, finished.1.answer (task, true))

/-- The task a conversion makes, with a new identifier. -/
def conversionTask (store : EventStore) (request : ConversionRequest) (id : TaskId)
    (now : DateTime) : Except ConversionError (ConversionPreview × Task) := do
  let preview ← preview store request
  let (snapshot, _) ← okOr .snapshotMissing
    (store.githubRepositoryWithSnapshotAt request.repositoryFullName)
  let item ← okOr .itemMissing (snapshot.item? request.itemNumber)
  let source ← taskSource item preview.repositoryId preview.snapshotAt
  let task ← (Task.new id now preview.title preview.repositoryPath).mapError fun error =>
    .invalidContract error.message
  return (preview, { task with
    source, repositoryBindingId := some preview.repositoryBindingId })

/-- Make a task of a GitHub item. -/
def create (faults : Faults) (id : TaskId) (now : DateTime) (store : EventStore)
    (request : ConversionRequest) :
    EventStore × Option (Except ConversionError ConversionOutcome) :=
  match conversionTask store request id now with
  | .error error => (store, some (.error error))
  | .ok (preview, task) =>
      let recorded := createConvertedTask faults store task (sourceKey (previewItem preview))
      (recorded.1, recorded.2.map fun result =>
        (result.map fun (task, created) => { preview, task, created }).mapError .persistence)

/-! ## Keys -/

theorem sourceKey_toList (item : SourceItem) : (sourceKey item).toList =
    "github:".toList ++ ((Nat.toDigits 10 item.repositoryId) ++ ':' ::
      ((sourceKindKey item.kind).toList ++ ':' :: Nat.toDigits 10 item.number)) := by
  have hdigits : ∀ number : Nat, (toString number).toList = Nat.toDigits 10 number :=
    fun number => by rw [Nat.toString_eq_ofList_toDigits, String.toList_ofList]
  rw [← hdigits, ← hdigits]
  simp only [sourceKey, String.toList_append, List.append_assoc]
  rfl

theorem colon_notMem_digits (number : Nat) : ':' ∉ Nat.toDigits 10 number := fun hmem =>
  absurd (toDigits_isDigit number ':' hmem) (by decide)

theorem toDigits_injective : Function.Injective (Nat.toDigits 10) := by
  intro first second hdigits
  have hread : ∀ number, Nat.ofDigitChars 10 (Nat.toDigits 10 number) 0 = number :=
    fun _ => Nat.ofDigitChars_ten_toDigits
  rw [← hread first, hdigits, hread]

theorem colon_notMem_kind (kind : WorkItemKind) : ':' ∉ (sourceKindKey kind).toList := by
  cases kind <;> decide

theorem sourceKindKey_injective : Function.Injective sourceKindKey := by
  intro first second hkeys
  cases first <;> cases second <;> first | rfl | exact absurd hkeys (by decide)

/-- A text is cut at its first colon in one way. -/
theorem cut_unique {first second later last : List Char} (hfirst : ':' ∉ first)
    (hsecond : ':' ∉ second) (htexts : first ++ ':' :: later = second ++ ':' :: last) :
    first = second ∧ later = last := by
  have htake : ∀ {part rest : List Char}, ':' ∉ part →
      (part ++ ':' :: rest).takeWhile (· ≠ ':') = part := by
    intro part rest hpart
    have hkept : ∀ char ∈ part, decide (char ≠ ':') = true := fun char hmem =>
      decide_eq_true (ne_of_mem_of_not_mem hmem hpart)
    rw [List.takeWhile_append_of_pos hkept, List.takeWhile_cons_of_neg (by decide), List.append_nil]
  have hparts : first = second := by rw [← htake hfirst, htexts, htake hsecond]
  subst hparts
  exact ⟨rfl, (List.cons.inj (List.append_cancel_left htexts)).2⟩

/-- A key names one source. -/
theorem sourceKey_injective : Function.Injective sourceKey := by
  intro first second hkeys
  have htexts := congrArg String.toList hkeys
  rw [sourceKey_toList, sourceKey_toList, List.append_cancel_left_eq] at htexts
  obtain ⟨hrepository, hrest⟩ := cut_unique (colon_notMem_digits _) (colon_notMem_digits _) htexts
  obtain ⟨hkind, hnumber⟩ := cut_unique (colon_notMem_kind _) (colon_notMem_kind _) hrest
  cases first
  cases second
  rw [SourceItem.mk.injEq]
  exact ⟨toDigits_injective hrepository, sourceKindKey_injective (String.toList_injective hkind),
    toDigits_injective hnumber⟩

/-! ## What the transaction does -/

section Recording

variable {faults : Faults} {store after : EventStore} {task : Task} {key : String}

theorem convertedTask_eq_ok {found : Option Task}
    (hfound : convertedTask faults store key = .ok found) :
    (found = none ∧ store.taskSources.lookup key = none) ∨
      ∃ id existing, found = some existing ∧ store.taskSources.lookup key = some id ∧
        store.loadTask id = some existing := by
  rw [convertedTask, bind_eq_ok] at hfound
  obtain ⟨_, _, hfound⟩ := hfound
  rw [bind_eq_ok] at hfound
  obtain ⟨row, hrow, hfound⟩ := hfound
  have hlookup := Except.ok.inj (of_perform_eq_ok hrow)
  cases row with
  | none => exact .inl ⟨(pure_eq_ok.1 hfound).symm, hlookup⟩
  | some id =>
      dsimp only at hfound
      rw [bind_eq_ok] at hfound
      obtain ⟨existing, hexisting, hfound⟩ := hfound
      rw [bind_eq_ok] at hfound
      obtain ⟨_, _, hfound⟩ := hfound
      exact .inr ⟨id, existing, (pure_eq_ok.1 hfound).symm, hlookup,
        okOr_eq_ok.1 (of_perform_eq_ok hexisting)⟩

/-- The three insertions are one conversion of the store. -/
theorem inserted_eq_ok (hkey : key ≠ "") (hlookup : store.taskSources.lookup key = none)
    (hrun : runAll [insertTask task, insertTaskEvent task, insertTaskSource key task.id] store =
      .ok after) : store.createConvertedTask task key = .ok (after, task, true) := by
  rw [runAll_cons, bind_eq_ok] at hrun
  obtain ⟨first, hfirst, hrun⟩ := hrun
  rw [insertTask, bind_eq_ok] at hfirst
  obtain ⟨_, hfree, hfirst⟩ := hfirst
  rw [ensure_eq_ok] at hfree
  cases hfirst
  rw [runAll_cons, insertTaskEvent, ok_bind, runAll_cons, bind_eq_ok] at hrun
  obtain ⟨last, hlast, hrun⟩ := hrun
  cases hrun
  rw [insertTaskSource, bind_eq_ok] at hlast
  obtain ⟨_, _, hlast⟩ := hlast
  rw [bind_eq_ok] at hlast
  obtain ⟨_, hunique, hlast⟩ := hlast
  rw [ensure_eq_ok] at hunique
  cases hlast
  simp only [EventStore.createConvertedTask, hlookup, bind_eq_ok, ensure_eq_ok, pure_eq_ok]
  exact ⟨(), hkey, (), hfree, (), hunique, rfl⟩

/-- A conversion that answers with a task has done to the store what the store
says; one that answers with an error has done nothing. -/
theorem createConvertedTask_spec {answer : Except String (Task × Bool)}
    (hanswer : createConvertedTask faults store task key = (after, some answer)) :
    (∃ found created, answer = .ok (found, created) ∧
        store.createConvertedTask task key = .ok (after, found, created)) ∨
      (∃ reason, answer = .error reason) ∧ after = store := by
  rw [createConvertedTask] at hanswer
  split at hanswer
  case isTrue =>
    cases hanswer
    exact .inr ⟨⟨_, rfl⟩, rfl⟩
  case isFalse hkey =>
    split at hanswer
    case h_1 stop _ =>
      obtain ⟨rfl, hanswer⟩ := Prod.mk.inj hanswer
      cases stop with
      | failed reason =>
          cases hanswer
          exact .inr ⟨⟨_, rfl⟩, rfl⟩
      | crashed => cases hanswer
    case h_2 existing hfound =>
      obtain ⟨rfl, hanswer⟩ := Prod.mk.inj hanswer
      cases hanswer
      rcases convertedTask_eq_ok hfound with ⟨hnone, _⟩ | ⟨id, found, hsome, hlookup, hload⟩
      · cases hnone
      · cases hsome
        refine .inl ⟨existing, false, rfl, ?_⟩
        simp only [EventStore.createConvertedTask, hlookup, hload, okOr, ok_bind, bind_eq_ok,
          ensure_eq_ok, pure_eq_ok]
        exact ⟨(), hkey, trivial⟩
    case h_3 hfound =>
      obtain ⟨rfl, hheard⟩ := Prod.mk.inj hanswer
      have hlookup : store.taskSources.lookup key = none := by
        rcases convertedTask_eq_ok hfound with ⟨_, hlookup⟩ | ⟨_, _, hsome, _⟩
        · exact hlookup
        · cases hsome
      rcases finish_answer hheard with ⟨rfl, hcopy⟩ | hfailed
      · exact .inl ⟨task, true, rfl, inserted_eq_ok hkey hlookup (of_performAll_eq_ok hcopy)⟩
      · exact .inr hfailed

end Recording

/-! ## Runs of conversions -/

/-- The task of every source is the one its key names, and the other way round. -/
structure Sourced (store : EventStore) : Prop where
  keyed : store.TasksKeyed
  task : ∀ key id, store.taskSources.lookup key = some id →
    ∃ task, store.loadTask id = some task ∧ (sourceItem? task.source).map sourceKey = some key
  row : ∀ id task item, store.loadTask id = some task → sourceItem? task.source = some item →
    store.taskSources.lookup (sourceKey item) = some id

/-- What other requests may do to the store: tasks keep their identifiers and
their sources, new ones come from no source, and no source is recorded. -/
structure Keeps (before after : EventStore) : Prop where
  keyed : before.TasksKeyed → after.TasksKeyed
  sources : after.taskSources = before.taskSources
  tasks : ∀ id task, before.loadTask id = some task →
    ∃ next, after.loadTask id = some next ∧ next.source = task.source
  fresh : ∀ id task, before.loadTask id = none → after.loadTask id = some task →
    task.source = .localRequest

/-- A conversion request that was answered. -/
structure Call where
  request : ConversionRequest
  before : EventStore
  after : EventStore
  answer : Except ConversionError ConversionOutcome

/-- Conversion requests one after another, and other requests between them. -/
inductive Conversions (start : EventStore) : List Call → EventStore → Prop
  | start : Conversions start [] start
  | call {calls : List Call} {before after : EventStore} (hrun : Conversions start calls before)
      (request : ConversionRequest) (faults : Faults) (id : TaskId) (now : DateTime)
      {answer : Except ConversionError ConversionOutcome}
      (hcreate : create faults id now before request = (after, some answer)) :
      Conversions start (calls ++ [⟨request, before, after, answer⟩]) after
  | other {calls : List Call} {before after : EventStore} (hrun : Conversions start calls before)
      (hkeeps : Keeps before after) : Conversions start calls after

/-- The outcomes of the successful calls for an item. -/
def successes (calls : List Call) (item : SourceItem) : List ConversionOutcome :=
  (calls.filterMap fun call => call.answer.toOption).filter fun outcome =>
    previewItem outcome.preview = item

section Steps

variable {store after : EventStore} {request : ConversionRequest} {id : TaskId} {now : DateTime}

theorem taskSource_item {item : GitHubWorkItem} {repositoryId : Nat} {snapshotAt : DateTime}
    {source : TaskSource} (hsource : taskSource item repositoryId snapshotAt = .ok source) :
    sourceItem? source = some ⟨repositoryId, item.kind, item.number⟩ := by
  rw [taskSource] at hsource
  split at hsource
  case h_1 hkind =>
    rw [mapError_eq_ok, TaskSource.githubIssue, bind_eq_ok] at hsource
    obtain ⟨_, _, hsource⟩ := hsource
    cases hsource
    rw [sourceItem?, hkind]
  case h_2 hkind =>
    simp only [bind_eq_ok, mapError_eq_ok, TaskSource.githubPullRequest, pure_eq_ok] at hsource
    obtain ⟨_, _, _, _, _, _, _, _, _, _, _, _, _, _, _, _, _, _, rfl⟩ := hsource
    rw [sourceItem?, hkind]

theorem preview_item {preview : ConversionPreview}
    (hpreview : Conversion.preview store request = .ok preview) :
    ∃ snapshot snapshotAt item, store.githubRepositoryWithSnapshotAt request.repositoryFullName =
        some (snapshot, snapshotAt) ∧ snapshot.item? request.itemNumber = some item ∧
      preview.sourceKind = item.kind ∧ preview.itemNumber = item.number := by
  simp only [Conversion.preview, bind_eq_ok, okOr_eq_ok, pure_eq_ok] at hpreview
  obtain ⟨_, _, ⟨snapshot, snapshotAt⟩, hsnapshot, item, hitem, _, _, _, _, _, _, _, _, _, _, _, _,
    _, _, rfl⟩ := hpreview
  exact ⟨snapshot, snapshotAt, item, hsnapshot, hitem, rfl, rfl⟩

/-- The task that a conversion makes has its identifier and the source of its
preview. -/
theorem conversionTask_spec {preview : ConversionPreview} {task : Task}
    (htask : conversionTask store request id now = .ok (preview, task)) :
    task.id = id ∧ sourceItem? task.source = some (previewItem preview) := by
  simp only [conversionTask, bind_eq_ok, okOr_eq_ok, mapError_eq_ok, pure_eq_ok] at htask
  obtain ⟨shown, hshown, ⟨snapshot, snapshotAt⟩, hsnapshot, item, hitem, source, hsource, fresh,
    hfresh, htask⟩ := htask
  obtain ⟨rfl, rfl⟩ := Prod.mk.inj htask
  obtain ⟨_, _, _, hother, hsame, hkind, hnumber⟩ := preview_item hshown
  rw [hsnapshot] at hother
  cases hother
  rw [hitem] at hsame
  cases hsame
  have hid : fresh.id = id := by
    simp only [Task.new, bind_eq_ok, pure_eq_ok] at hfresh
    obtain ⟨_, _, _, _, rfl⟩ := hfresh
    rfl
  refine ⟨hid, ?_⟩
  rw [taskSource_item hsource, previewItem, hkind, hnumber]

/-- What an answered conversion has done. -/
theorem create_spec {faults : Faults} {answer : Except ConversionError ConversionOutcome}
    (hcreate : create faults id now store request = (after, some answer)) :
    (∃ outcome fresh, answer = .ok outcome ∧
        sourceItem? fresh.source = some (previewItem outcome.preview) ∧
        store.createConvertedTask fresh (sourceKey (previewItem outcome.preview)) =
          .ok (after, outcome.task, outcome.created)) ∨
      (∃ error, answer = .error error) ∧ after = store := by
  rw [create] at hcreate
  cases htask : conversionTask store request id now with
  | error error =>
      rw [htask] at hcreate
      cases hcreate
      exact .inr ⟨⟨error, rfl⟩, rfl⟩
  | ok made =>
      obtain ⟨preview, fresh⟩ := made
      rw [htask] at hcreate
      obtain ⟨hafter, hanswer⟩ := Prod.mk.inj hcreate
      obtain ⟨result, hresult, hshape⟩ := Option.map_eq_some_iff.mp hanswer
      rcases createConvertedTask_spec (Prod.ext hafter hresult) with
        ⟨found, created, rfl, hstore⟩ | ⟨⟨reason, rfl⟩, hsame⟩
      · exact .inl ⟨⟨preview, found, created⟩, fresh, hshape.symm, (conversionTask_spec htask).2,
          hstore⟩
      · exact .inr ⟨⟨_, hshape.symm⟩, hsame⟩

end Steps

section Invariant

variable {store after : EventStore}

/-- A conversion of the store finds the task of its key, or stores a new one. -/
theorem converted_cases {fresh found : Task} {created : Bool} {key : String}
    (hstore : store.createConvertedTask fresh key = .ok (after, found, created)) :
    (∃ id, store.taskSources.lookup key = some id ∧ store.loadTask id = some found ∧
        after = store ∧ created = false) ∨
      store.taskSources.lookup key = none ∧ store.loadTask fresh.id = none ∧ found = fresh ∧
        created = true ∧
        after = { store.saveTask fresh "task created from GitHub snapshot" with
          taskSources := store.taskSources.insert key fresh.id } := by
  rw [EventStore.createConvertedTask, bind_eq_ok] at hstore
  obtain ⟨_, _, hstore⟩ := hstore
  cases hlookup : store.taskSources.lookup key with
  | some id =>
      rw [hlookup] at hstore
      simp only [bind_eq_ok, okOr_eq_ok, pure_eq_ok, Prod.mk.injEq] at hstore
      obtain ⟨existing, hload, rfl, rfl, rfl⟩ := hstore
      exact .inl ⟨id, rfl, hload, rfl, rfl⟩
  | none =>
      rw [hlookup] at hstore
      simp only [bind_eq_ok, ensure_eq_ok, pure_eq_ok, Prod.mk.injEq] at hstore
      obtain ⟨_, hfree, _, _, rfl, rfl, rfl⟩ := hstore
      exact .inr ⟨rfl, hfree, rfl, rfl, rfl⟩

theorem Sourced.converted {fresh found : Task} {created : Bool} {item : SourceItem}
    (hsourced : Sourced store) (hitem : sourceItem? fresh.source = some item)
    (hstore : store.createConvertedTask fresh (sourceKey item) = .ok (after, found, created)) :
    Sourced after := by
  rcases converted_cases hstore with ⟨_, _, _, rfl, _⟩ | ⟨hlookup, hfree, _, _, rfl⟩
  · exact hsourced
  · have hload : ∀ id, EventStore.loadTask { store.saveTask fresh
        "task created from GitHub snapshot" with
          taskSources := store.taskSources.insert (sourceKey item) fresh.id } id =
        if id = fresh.id then some fresh else store.loadTask id := by
      intro id
      change (store.tasks.insert fresh.id fresh).lookup id = _
      rw [AList.lookup_insert_eq]
      rfl
    have hkeyed := hsourced.keyed.saveTask fresh "task created from GitHub snapshot"
    refine ⟨hkeyed, fun key id hkey => ?_, fun id task other htask hother => ?_⟩
    · rw [AList.lookup_insert_eq] at hkey
      split at hkey
      case isTrue hsame =>
        cases hkey
        refine ⟨fresh, (hload fresh.id).trans (if_pos rfl), ?_⟩
        rw [hitem, hsame]
        rfl
      case isFalse =>
        obtain ⟨task, htask, hsource⟩ := hsourced.task key id hkey
        have hid : id ≠ fresh.id := by
          rintro rfl
          rw [hfree] at htask
          cases htask
        exact ⟨task, (hload id).trans ((if_neg hid).trans htask), hsource⟩
    · rw [hload] at htask
      split at htask
      case isTrue hsame =>
        cases htask
        rw [hitem] at hother
        cases hother
        rw [AList.lookup_insert, hsame]
      case isFalse =>
        have hrow := hsourced.row id task other htask hother
        have hkey : sourceKey other ≠ sourceKey item := by
          intro hsame
          rw [hsame, hlookup] at hrow
          cases hrow
        rw [AList.lookup_insert_ne hkey]
        exact hrow

theorem Sourced.keeps (hsourced : Sourced store) (hkeeps : Keeps store after) : Sourced after where
  keyed := hkeeps.keyed hsourced.keyed
  task key id hkey := by
    rw [hkeeps.sources] at hkey
    obtain ⟨task, htask, hsource⟩ := hsourced.task key id hkey
    obtain ⟨next, hnext, hsame⟩ := hkeeps.tasks id task htask
    exact ⟨next, hnext, by rw [hsame, hsource]⟩
  row id task item htask hitem := by
    rw [hkeeps.sources]
    cases hbefore : store.loadTask id with
    | none =>
        rw [hkeeps.fresh id task hbefore htask] at hitem
        cases hitem
    | some old =>
        obtain ⟨next, hnext, hsame⟩ := hkeeps.tasks id old hbefore
        rw [htask] at hnext
        cases hnext
        exact hsourced.row id old item hbefore (hsame ▸ hitem)

/-- The identifier under a key is the one of the task found for it. -/
theorem Sourced.found_id {fresh found : Task} {created : Bool} {key : String}
    (hsourced : Sourced store)
    (hstore : store.createConvertedTask fresh key = .ok (after, found, created)) :
    after.taskSources.lookup key = some found.id := by
  rcases converted_cases hstore with ⟨id, hlookup, hload, rfl, _⟩ | ⟨_, _, rfl, _, rfl⟩
  · rw [hlookup, hsourced.keyed.id_eq hload]
  · exact AList.lookup_insert _

theorem converted_created {fresh found : Task} {created : Bool} {key : String}
    (hstore : store.createConvertedTask fresh key = .ok (after, found, created)) :
    created = true ↔ store.taskSources.lookup key = none := by
  rcases converted_cases hstore with ⟨id, hlookup, _, _, rfl⟩ | ⟨hlookup, _, _, rfl, _⟩
  · rw [hlookup]
    exact iff_of_false nofun nofun
  · exact iff_of_true rfl hlookup

theorem converted_lookup_ne {fresh found : Task} {created : Bool} {key other : String}
    (hstore : store.createConvertedTask fresh key = .ok (after, found, created))
    (hother : other ≠ key) : after.taskSources.lookup other = store.taskSources.lookup other := by
  rcases converted_cases hstore with ⟨_, _, _, rfl, _⟩ | ⟨_, _, _, _, rfl⟩
  · rfl
  · exact AList.lookup_insert_ne hother

end Invariant

/-! ## Idempotence -/

section Idempotence

variable {start final : EventStore} {calls : List Call}

theorem successes_append (calls : List Call) (call : Call) (item : SourceItem) :
    successes (calls ++ [call]) item = successes calls item ++ successes [call] item := by
  rw [successes, List.filterMap_append, List.filter_append]
  rfl

theorem successes_error {call : Call} {error : ConversionError}
    (herror : call.answer = .error error) (item : SourceItem) : successes [call] item = [] := by
  rw [successes, List.filterMap_cons, herror]
  rfl

theorem successes_ok {call : Call} {outcome : ConversionOutcome} (hok : call.answer = .ok outcome)
    (item : SourceItem) :
    successes [call] item = if previewItem outcome.preview = item then [outcome] else [] := by
  rw [successes, List.filterMap_cons, hok]
  change List.filter _ [outcome] = _
  rw [List.filter_cons, List.filter_nil]
  split <;> split <;> simp_all

/-- What a run of conversions has done for every item. -/
structure Settled (start : EventStore) (calls : List Call) (final : EventStore) : Prop where
  sourced : Sourced final
  /-- Every success was about the one task recorded for its item. -/
  found : ∀ item, ∀ outcome ∈ successes calls item,
    final.taskSources.lookup (sourceKey item) = some outcome.task.id
  absent : ∀ item, final.taskSources.lookup (sourceKey item) = none ↔
    start.taskSources.lookup (sourceKey item) = none ∧ successes calls item = []
  /-- A task was created by the first success, where there was none at the start. -/
  created : ∀ item before outcome after, successes calls item = before ++ outcome :: after →
    (outcome.created = true ↔ start.taskSources.lookup (sourceKey item) = none ∧ before = [])
  /-- A call that failed has changed nothing. -/
  unchanged : ∀ call ∈ calls, ∀ error, call.answer = .error error → call.after = call.before

/-- A failed call adds nothing to a settled run. -/
theorem Settled.failed (hsettled : Settled start calls final) {call : Call}
    {error : ConversionError} (herror : call.answer = .error error)
    (hsame : call.after = call.before) : Settled start (calls ++ [call]) final := by
  have hsuccesses : ∀ item, successes (calls ++ [call]) item = successes calls item := by
    intro item
    rw [successes_append, successes_error herror, List.append_nil]
  refine ⟨hsettled.sourced, fun item => ?_, fun item => ?_, fun item => ?_, ?_⟩
  · rw [hsuccesses]
    exact hsettled.found item
  · rw [hsuccesses]
    exact hsettled.absent item
  · rw [hsuccesses]
    exact hsettled.created item
  · intro other hother
    rcases List.mem_append.mp hother with hother | hother
    · exact hsettled.unchanged other hother
    · rw [List.mem_singleton.mp hother]
      exact fun _ _ => hsame

/-- A successful call settles its item and leaves the others. -/
theorem Settled.succeeded (hsettled : Settled start calls final) {after : EventStore} {call : Call}
    {outcome : ConversionOutcome} {fresh : Task} (hok : call.answer = .ok outcome)
    (hsource : sourceItem? fresh.source = some (previewItem outcome.preview))
    (hstore : final.createConvertedTask fresh (sourceKey (previewItem outcome.preview)) =
      .ok (after, outcome.task, outcome.created)) : Settled start (calls ++ [call]) after := by
  have hfound := hsettled.sourced.found_id hstore
  have hother : ∀ item, previewItem outcome.preview ≠ item →
      successes (calls ++ [call]) item = successes calls item ∧
        after.taskSources.lookup (sourceKey item) = final.taskSources.lookup (sourceKey item) := by
    intro item hne
    constructor
    · rw [successes_append, successes_ok hok, if_neg hne, List.append_nil]
    · exact converted_lookup_ne hstore fun hsame => hne (sourceKey_injective hsame).symm
  have hown : successes (calls ++ [call]) (previewItem outcome.preview) =
      successes calls (previewItem outcome.preview) ++ [outcome] := by
    rw [successes_append, successes_ok hok, if_pos rfl]
  refine ⟨hsettled.sourced.converted hsource hstore, fun item => ?_, fun item => ?_,
    fun item => ?_, ?_⟩
  · by_cases hitem : previewItem outcome.preview = item
    · subst hitem
      intro earlier hearlier
      rw [hown] at hearlier
      rcases List.mem_append.mp hearlier with hearlier | hearlier
      · have hbefore := hsettled.found _ earlier hearlier
        rcases converted_cases hstore with ⟨_, _, _, rfl, _⟩ | ⟨hnone, _⟩
        · exact hbefore
        · rw [hbefore] at hnone
          cases hnone
      · rw [List.mem_singleton.mp hearlier]
        exact hfound
    · rw [(hother item hitem).1, (hother item hitem).2]
      exact hsettled.found item
  · by_cases hitem : previewItem outcome.preview = item
    · subst hitem
      rw [hown, hfound]
      exact iff_of_false nofun fun hnone =>
        List.append_ne_nil_of_right_ne_nil _ (List.cons_ne_nil _ _) hnone.2
    · rw [(hother item hitem).1, (hother item hitem).2]
      exact hsettled.absent item
  · by_cases hitem : previewItem outcome.preview = item
    · subst hitem
      intro before earlier later hsplit
      rw [hown] at hsplit
      rcases List.eq_nil_or_concat later with rfl | ⟨init, last, rfl⟩
      · obtain ⟨hbefore, hlast⟩ := List.append_inj' hsplit rfl
        cases hlast
        rw [converted_created hstore, hsettled.absent, hbefore]
      · rw [List.concat_eq_append, ← List.cons_append, ← List.append_assoc] at hsplit
        exact hsettled.created _ before earlier init (List.append_inj' hsplit rfl).1
    · rw [(hother item hitem).1]
      exact hsettled.created item
  · intro earlier hearlier
    rcases List.mem_append.mp hearlier with hearlier | hearlier
    · exact hsettled.unchanged earlier hearlier
    · rw [List.mem_singleton.mp hearlier, hok]
      exact nofun

/-- A table has one row for a key. -/
theorem entry_unique {κ α : Type} [DecidableEq κ] {table : Table κ α} {first second : (_ : κ) × α}
    (hfirst : first ∈ table.entries) (hsecond : second ∈ table.entries)
    (hkeys : first.1 = second.1) : first = second := by
  obtain ⟨key, row⟩ := first
  obtain ⟨other, twin⟩ := second
  cases hkeys
  have hrow : table.lookup key = some row := AList.mem_lookup_iff.mpr hfirst
  rw [AList.mem_lookup_iff.mpr hsecond] at hrow
  cases hrow
  rfl

/-- Every run of conversions settles its items. -/
theorem settled_of_conversions (hstart : Sourced start) (hrun : Conversions start calls final) :
    Settled start calls final := by
  induction hrun with
  | start =>
      refine ⟨hstart, fun item outcome hmem => absurd hmem List.not_mem_nil, fun item => ?_,
        fun item before outcome after hsplit => ?_, fun call hmem => absurd hmem List.not_mem_nil⟩
      · exact ⟨fun hnone => ⟨hnone, rfl⟩, And.left⟩
      · have hne : before ++ outcome :: after ≠ [] :=
          List.append_ne_nil_of_right_ne_nil before (List.cons_ne_nil _ _)
        exact absurd hsplit.symm hne
  | call _ request faults id now hcreate ih =>
      rcases create_spec hcreate with ⟨outcome, fresh, rfl, hsource, hstore⟩ | ⟨⟨error, rfl⟩, rfl⟩
      · exact ih.succeeded rfl hsource hstore
      · exact ih.failed rfl rfl
  | other _ hkeeps ih =>
      have hsources := hkeeps.sources
      refine ⟨ih.sourced.keeps hkeeps, fun item => ?_, fun item => ?_, ih.created, ih.unchanged⟩
      · rw [hsources]
        exact ih.found item
      · rw [hsources]
        exact ih.absent item

/-- Conversion is idempotent. -/
structure Idempotent (start : EventStore) (calls : List Call) (final : EventStore) : Prop where
  /-- An item has one task. -/
  task_unique : ∀ item, ∀ first ∈ final.tasks.entries, ∀ second ∈ final.tasks.entries,
    sourceItem? (Task.source first.2) = some item →
    sourceItem? (Task.source second.2) = some item → first = second
  /-- An item is recorded once. -/
  source_unique : ∀ item, ∀ first ∈ final.taskSources.entries,
    ∀ second ∈ final.taskSources.entries,
    first.1 = sourceKey item → second.1 = sourceKey item → first = second
  /-- All successful calls for an item return one task. -/
  same_task : ∀ item, ∀ first ∈ successes calls item, ∀ second ∈ successes calls item,
    first.task.id = second.task.id
  /-- The first of them has created it, if there was none at the start. -/
  created_iff : ∀ item before outcome after,
    successes calls item = before ++ outcome :: after →
      (outcome.created = true ↔
        start.taskSources.lookup (sourceKey item) = none ∧ before = [])
  /-- A call that failed has changed nothing. -/
  unchanged : ∀ call ∈ calls, ∀ error, call.answer = .error error → call.after = call.before
  /-- Two items have two tasks. -/
  apart : ∀ item other, item ≠ other → ∀ first ∈ successes calls item,
    ∀ second ∈ successes calls other, first.task.id ≠ second.task.id

theorem conversions_idempotent (hstart : Sourced start) (hrun : Conversions start calls final) :
    Idempotent start calls final := by
  have hsettled := settled_of_conversions hstart hrun
  refine ⟨?_, ?_, ?_, hsettled.created, hsettled.unchanged, ?_⟩
  · intro item first hfirst second hsecond hitem hother
    have hkey := hsettled.sourced.row first.1 first.2 item (AList.mem_lookup_iff.mpr hfirst) hitem
    have hsame := hsettled.sourced.row second.1 second.2 item (AList.mem_lookup_iff.mpr hsecond)
      hother
    rw [hkey, Option.some_inj] at hsame
    exact entry_unique hfirst hsecond hsame
  · intro item first hfirst second hsecond hkey hother
    exact entry_unique hfirst hsecond (hkey.trans hother.symm)
  · intro item first hfirst second hsecond
    have hid := hsettled.found item first hfirst
    rw [hsettled.found item second hsecond, Option.some_inj] at hid
    exact hid.symm
  · intro item other hne first hfirst second hsecond hsame
    obtain ⟨task, htask, hkey⟩ := hsettled.sourced.task _ _ (hsettled.found item first hfirst)
    obtain ⟨twin, htwin, hotherKey⟩ :=
      hsettled.sourced.task _ _ (hsettled.found other second hsecond)
    rw [hsame, htwin] at htask
    cases htask
    rw [hkey, Option.some_inj] at hotherKey
    exact hne (sourceKey_injective hotherKey)

end Idempotence

/-! ## Other requests -/

section Others

variable {store after : EventStore}

/-- A request that leaves tasks and sources alone keeps them. -/
theorem Keeps.of_eq (htasks : after.tasks = store.tasks)
    (hsources : after.taskSources = store.taskSources) : Keeps store after where
  keyed hkeyed := by rwa [EventStore.TasksKeyed, htasks]
  sources := hsources
  tasks id task htask := ⟨task, by rwa [EventStore.loadTask, htasks], rfl⟩
  fresh id task hnone hsome := by
    rw [EventStore.loadTask, htasks] at hsome
    rw [EventStore.loadTask, hsome] at hnone
    cases hnone

theorem keeps_replaceGithubSnapshot (snapshot : GitHubRepositorySnapshot) (now : DateTime) :
    Keeps store (store.replaceGithubSnapshot snapshot now) := .of_eq rfl rfl

theorem keeps_saveRepositoryBinding {binding : RepositoryBinding}
    (hsave : store.saveRepositoryBinding binding = .ok after) : Keeps store after := by
  simp only [EventStore.saveRepositoryBinding, bind_eq_ok, pure_eq_ok] at hsave
  obtain ⟨_, _, rfl⟩ := hsave
  exact .of_eq rfl rfl

/-- Saving a task over its row, with its source, keeps the sources of all. -/
theorem keeps_saveTask {row task : Task} (hrow : store.loadTask task.id = some row)
    (hsource : task.source = row.source) (summary : String) :
    Keeps store (store.saveTask task summary) where
  keyed hkeyed := hkeyed.saveTask task summary
  sources := rfl
  tasks id old hold := by
    by_cases hid : id = task.id
    · subst hid
      rw [hrow] at hold
      cases hold
      exact ⟨task, EventStore.loadTask_saveTask_self store task summary, hsource⟩
    · exact ⟨old, (EventStore.loadTask_saveTask_ne store task summary hid).trans hold, rfl⟩
  fresh id other hnone hsome := by
    by_cases hid : id = task.id
    · subst hid
      rw [hrow] at hnone
      cases hnone
    · rw [EventStore.loadTask_saveTask_ne store task summary hid, hnone] at hsome
      cases hsome

theorem keeps_createTask {ambient : Ambient} {id : TaskId} {title repositoryPath : String}
    (hfree : store.loadTask id = none)
    (hcreate : createTask ambient store id title repositoryPath = .ok after) :
    Keeps store after := by
  simp only [createTask, bind_eq_ok, mapError_eq_ok, pure_eq_ok] at hcreate
  obtain ⟨task, hnew, rfl⟩ := hcreate
  have hmade : task.id = id ∧ task.source = .localRequest := by
    simp only [Task.new, bind_eq_ok, pure_eq_ok] at hnew
    obtain ⟨_, _, _, _, rfl⟩ := hnew
    exact ⟨rfl, rfl⟩
  refine ⟨fun hkeyed => hkeyed.saveTask task _, rfl, fun other old hold => ?_,
    fun other found hnone hsome => ?_⟩
  · have hother : other ≠ task.id := by
      rintro rfl
      rw [hmade.1, hfree] at hold
      cases hold
    exact ⟨old, (EventStore.loadTask_saveTask_ne store task _ hother).trans hold, rfl⟩
  · by_cases hother : other = task.id
    · subst hother
      rw [EventStore.loadTask_saveTask_self] at hsome
      cases hsome
      exact hmade.2
    · rw [EventStore.loadTask_saveTask_ne store task _ hother, hnone] at hsome
      cases hsome

end Others

/-! ## A run -/

namespace Sample

def issue : GitHubWorkItem where
  id := 1007
  repositoryFullName := "octo/demo"
  number := 7
  kind := .issue
  title := "Fix the parser"
  state := "open"
  stateReason := none
  htmlUrl := "https://github.com/octo/demo/issues/7"
  draft := false
  baseRef := none
  baseSha := none
  headRef := none
  headSha := none
  merged := none
  mergeCommitSha := none
  headCommittedAt := none
  latestReviewAt := none
  updatedAt := "2026-01-01T00:00:00Z"
  reviewDecision := none
  ciHealth := none
  mergeable := none
  hasConflicts := none
  headRepositoryFullName := none
  headRepositoryFork := false
  maintainerCanModify := false
  labels := []

def snapshot : GitHubRepositorySnapshot where
  repository := {
    id := 42
    fullName := "octo/demo"
    defaultBranch := "main"
    installationId := none
    defaultBranchSha := some "cccccccccccccccccccccccccccccccccccccccc"
    defaultBranchCommittedAt := none
    openPullRequestCount := 0
    failingCheckCount := 0 }
  workItems := [issue]
  discussions := []
  checks := []
  workflowRuns := []

def binding : RepositoryBinding where
  id := ⟨⟨5⟩⟩
  githubRepositoryId := 42
  fullName := "octo/demo"
  installationId := 84
  cloneUrl := "https://github.com/octo/demo.git"
  defaultBranch := "main"
  userCheckout := none
  managedClone := none
  stateRoot := "/state"
  worktreeRoot := "/worktrees"

/-- A store with one snapshot and the binding of its repository. -/
def store : EventStore :=
  let stored := EventStore.empty.replaceGithubSnapshot snapshot 0
  { stored with repositoryBindings := stored.repositoryBindings.insert binding.id binding }

def request : ConversionRequest := ⟨"octo/demo", 7, "2026-01-01T01:00:00+01:00"⟩

def call (before : EventStore) (id : TaskId) : Call where
  request := request
  before := before
  after := (create .none id 0 before request).1
  answer := (create .none id 0 before request).2.getD (.error .itemMissing)

theorem store_sourced : Sourced store where
  keyed := by decide
  task key id hkey := by cases hkey
  row id task item htask := by cases htask

/-- The item is converted twice. -/
def calls : List Call :=
  [call store ⟨⟨3⟩⟩, call (call store ⟨⟨3⟩⟩).after ⟨⟨4⟩⟩]

theorem call_answered {before : EventStore} {id : TaskId}
    (hanswered : (create .none id 0 before request).2.isSome) :
    create .none id 0 before request = ((call before id).after, some (call before id).answer) :=
  Prod.ext rfl (Runs.eq_some_getD hanswered _)

theorem conversions_calls : Conversions store calls (call (call store ⟨⟨3⟩⟩).after ⟨⟨4⟩⟩).after :=
  .call (.call .start request .none ⟨⟨3⟩⟩ 0 (call_answered (by decide)))
    request .none ⟨⟨4⟩⟩ 0 (call_answered (by decide))

theorem conversions_idempotent_calls :
    Idempotent store calls (call (call store ⟨⟨3⟩⟩).after ⟨⟨4⟩⟩).after :=
  conversions_idempotent store_sourced conversions_calls

/-- The first of two conversions creates the task that the second finds. -/
example : (successes calls ⟨42, .issue, 7⟩).map
    (fun outcome => (outcome.task.id, outcome.created)) = [(⟨⟨3⟩⟩, true), (⟨⟨3⟩⟩, false)] := by
  decide

end Sample

end Conversion

end Patchwright
