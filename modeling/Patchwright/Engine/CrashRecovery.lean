import Patchwright.Engine.DeliveryAuthority
import Patchwright.Engine.DeliveryOutcome

/-!
# Merges across a restart

The engine may stop at any point of an execution: before the claim of a merge
is committed, while the remote call is under way, or after its result was
recorded.  What is left is the committed store, opened again.  A reconciliation
recognises a merge only by an ambiguous result, so a merge that was claimed and
has no result is stranded: its task stays in merging, and nothing settles it.
-/

namespace Patchwright

open Checked Runs

section Settling

/-- A snapshot that shows the pull request of a task at the head the task was
made for. -/
structure Shows (snapshot : GitHubRepositorySnapshot) (task : Task) (item : GitHubWorkItem) :
    Prop where
  repository : task.source.repositoryId = some snapshot.repository.id
  fullName : task.source.repositoryFullName = some snapshot.repository.fullName
  found : ∃ number, task.source.itemNumber = some number ∧ snapshot.item? number = some item
  pullRequest : item.kind = .pullRequest
  head : task.source.headSha = item.headSha

/-- The task is completed and the delivery recorded as succeeded. -/
structure MergeCompleted (store : EventStore) (taskId : TaskId) (key : String) : Prop where
  state : (store.loadTask taskId).map Task.state = some .completed
  recorded : store.deliveryState key = some "succeeded"

/-- The task is back at the merge gate without a live approval, and the
delivery can be claimed again. -/
structure MergeReturned (store : EventStore) (taskId : TaskId) (key : String) : Prop where
  state : (store.loadTask taskId).map Task.state = some .awaitingMergeApproval
  retired : ∀ id row, store.approvals.lookup id = some row → row.taskId = taskId →
    row.invalidatedAt ≠ none
  claimable : ∀ taskEvent now, (store.claimDeliveryWithTaskEvent key taskEvent now).isSome

/-- Whatever a fresh snapshot shows of the pull request, a reconciliation
settles a task in merging together with its delivery. -/
def MergeSettles (store : EventStore) (taskId : TaskId) (key : String) : Prop :=
  ∀ task, store.loadTask taskId = some task → task.state = .merging →
    ∀ ambient snapshot item, Shows snapshot task item →
      ∃ next last, reconcileCompletedTaskFromSnapshot ambient store taskId snapshot =
          .ok (next, last) ∧
        (item.merged = some true → MergeCompleted next taskId key) ∧
        (item.merged ≠ some true → MergeReturned next taskId key)

/-- A task in merging that came from GitHub has this delivery as its ambiguous
one. -/
def Recognised (store : EventStore) (taskId : TaskId) (key : String) : Prop :=
  ∀ task, store.loadTask taskId = some task → task.state = .merging →
    task.source ≠ .localRequest → store.ambiguousDeliveryForTask taskId = some key

end Settling

/-- Opening the database touches neither tasks nor deliveries. -/
theorem recognised_reopen {store : EventStore} {taskId : TaskId} {key : String} (now : DateTime) :
    Recognised (store.reopen now) taskId key ↔ Recognised store taskId key := Iff.rfl

/-! ### What a reconciliation of a task in merging does -/

section Reconciling

variable {store : EventStore} {taskId : TaskId} {task : Task}
variable {snapshot : GitHubRepositorySnapshot} {item : GitHubWorkItem}

/-- The settlement of a task in merging against the item that shows it. -/
def settleMerging (ambient : Ambient) (store : EventStore) (task : Task) (item : GitHubWorkItem)
    (ambiguousKey : Option String) : Except DeliveryError (EventStore × Task) :=
  if item.merged = some true then do
    let done : Task := { task with state := .completed, updatedAt := ambient.now }
    let store ← commitCompletion store ambiguousKey (reconciledSuccess item)
      [(done, "GitHub confirmed the task outcome is complete")] ambient.now
    return (store, done)
  else
    match ambiguousKey with
    | none => .error .remoteNotCompleted
    | some key => do
        let retry : Task := { task with
          state := .awaitingMergeApproval, updatedAt := ambient.now }
        let store ← persisted (store.completeFailedMergeDelivery key reconciledFailure retry
          "Fresh GitHub reconciliation found no merge; fresh merge approval is required"
          ambient.now)
        return (store, retry)

theorem completionEvents_merging (now : DateTime) (hstate : task.state = .merging) :
    completionEvents now task = .ok
      [({ task with state := .completed, updatedAt := now },
        "GitHub confirmed the task outcome is complete")] := by
  have hremaining : remaining completionLifecycle TaskState.merging =
      some [(.completed, "GitHub confirmed the task outcome is complete")] := by decide
  have htransition : task.transition .completed now =
      .ok { task with state := .completed, updatedAt := now } := by
    rw [Task.transition_eq_ok, hstate]
    exact ⟨rfl, rfl⟩
  rw [completionEvents, hstate, hremaining]
  simp only [advance, htransition]
  rfl

theorem outcomeCompleted_eq_ok (hshows : Shows snapshot task item) :
    outcomeCompleted task item = .ok (item.merged = some true) := by
  rw [outcomeCompleted, hshows.pullRequest]
  simp only [ensure, hshows.head, if_true]
  rfl

theorem reconcile_merging (ambient : Ambient) (htask : store.loadTask taskId = some task)
    (hstate : task.state = .merging) (hshows : Shows snapshot task item) :
    reconcileCompletedTaskFromSnapshot ambient store taskId snapshot =
      settleMerging ambient store task item (store.ambiguousDeliveryForTask taskId) := by
  rcases hshows.found with ⟨number, hnumber, hitem⟩
  have hretry : task.transition .awaitingMergeApproval ambient.now =
      .ok { task with state := .awaitingMergeApproval, updatedAt := ambient.now } := by
    rw [Task.transition_eq_ok, hstate]
    exact ⟨rfl, rfl⟩
  have hevents := completionEvents_merging ambient.now hstate
  unfold reconcileCompletedTaskFromSnapshot settleMerging
  simp only [htask, hshows.repository, hshows.fullName, hnumber, hitem, okOr, ok_bind, ensure,
    and_self, if_true, outcomeCompleted_eq_ok hshows, decide_eq_true_eq]
  by_cases hmerged : item.merged = some true
  · have hopen : TaskState.merging ≠ .completed := by decide
    simp only [hmerged, hopen, hstate, hevents, not_true_eq_false, if_false, if_true, ok_bind,
      List.getLast?_singleton]
  · simp only [hmerged, hstate, not_false_eq_true, if_true, if_false]
    cases store.ambiguousDeliveryForTask taskId with
    | none => rfl
    | some key =>
        simp only [hshows.pullRequest, if_true, ok_bind, hretry, transitioned, Except.mapError]

theorem ambiguousDeliveryForTask_eq_some {key : String}
    (hkey : store.ambiguousDeliveryForTask taskId = some key) :
    ∃ delivery, store.deliveries.lookup key = some delivery ∧
      delivery.IsAmbiguousFor taskId := by
  rw [EventStore.ambiguousDeliveryForTask, Option.map_eq_some_iff] at hkey
  rcases hkey with ⟨⟨other, delivery⟩, hlatest, rfl⟩
  have hmem := (List.latestBy_eq_some hlatest).1
  rw [List.mem_filter, decide_eq_true_iff] at hmem
  exact ⟨delivery, AList.mem_lookup_iff.mpr hmem.1, hmem.2⟩

/-- An ambiguous merge that GitHub has merged is completed. -/
theorem settleMerging_merged (ambient : Ambient) {key : String} {delivery : Delivery}
    (hkeyed : task.id = taskId) (hrow : store.deliveries.lookup key = some delivery)
    (hmerged : item.merged = some true) :
    ∃ next last, settleMerging ambient store task item (some key) = .ok (next, last) ∧
      MergeCompleted next taskId key := by
  have hrecord := EventStore.recordResult_of_claimed (reconciledSuccess item)
    (some (ambient.now / nanosPerSecond)) hrow
  unfold settleMerging
  simp only [hmerged, if_true, commitCompletion, EventStore.completeDeliveryWithTaskEvents,
    EventStore.completeDelivery, hrecord, ok_bind, persisted]
  refine ⟨_, _, rfl, ?_, ?_⟩
  · rw [EventStore.saveTaskEvents_cons, EventStore.saveTaskEvents_nil, ← hkeyed]
    exact congrArg (Option.map Task.state) (EventStore.loadTask_saveTask_self _ _ _)
  · rw [EventStore.deliveryState, EventStore.saveTaskEvents_deliveries, AList.lookup_insert]
    rfl

/-- An ambiguous merge that GitHub has not merged returns to its gate. -/
theorem settleMerging_returned (ambient : Ambient) {key : String} {delivery : Delivery}
    (hkeyed : task.id = taskId) (hrow : store.deliveries.lookup key = some delivery)
    (hmerged : item.merged ≠ some true) :
    ∃ next last, settleMerging ambient store task item (some key) = .ok (next, last) ∧
      MergeReturned next taskId key := by
  have hrecord := EventStore.recordResult_of_claimed reconciledFailure
    (some (ambient.now / nanosPerSecond)) hrow
  unfold settleMerging
  simp only [hmerged, if_false, EventStore.completeFailedMergeDelivery,
    EventStore.completeDelivery, hrecord, ok_bind, persisted]
  refine ⟨_, _, rfl, ?_, ?_, ?_⟩
  · rw [← hkeyed]
    exact congrArg (Option.map Task.state) (EventStore.loadTask_saveTask_self _ _ _)
  · intro id row hstored htask
    simp only [EventStore.saveTask_approvals, EventStore.invalidateTaskApprovals,
      AList.lookup_mapRows, Option.map_eq_some_iff] at hstored
    rcases hstored with ⟨before, -, hrow⟩
    rw [← hrow] at htask ⊢
    split
    · simp
    · rename_i hother
      rw [if_neg hother] at htask
      intro hlive
      exact hother ⟨htask.trans hkeyed.symm, hlive⟩
  · intro taskEvent now
    rw [EventStore.claimDeliveryWithTaskEvent_isSome]
    right
    rw [EventStore.deliveryState, EventStore.saveTask_deliveries,
      EventStore.invalidateTaskApprovals_deliveries, AList.lookup_insert]
    rfl

/-- Where a delivery is the ambiguous one of its task, it is settled. -/
theorem mergeSettles_of_recognised {key : String} (hkeyed : store.TasksKeyed)
    (hrecognised : Recognised store taskId key) : MergeSettles store taskId key := by
  intro task htask hstate ambient snapshot item hshows
  have hsource : task.source ≠ .localRequest := by
    intro hlocal
    have hrepository := hshows.repository
    rw [hlocal] at hrepository
    exact absurd hrepository nofun
  have hkey := hrecognised task htask hstate hsource
  rcases ambiguousDeliveryForTask_eq_some hkey with ⟨delivery, hrow, -⟩
  rw [reconcile_merging ambient htask hstate hshows, hkey]
  by_cases hmerged : item.merged = some true
  · rcases settleMerging_merged ambient (hkeyed.id_eq htask) hrow hmerged with
      ⟨next, last, hsettled, hcompleted⟩
    exact ⟨next, last, hsettled, fun _ => hcompleted, fun hopen => absurd hmerged hopen⟩
  · rcases settleMerging_returned ambient (hkeyed.id_eq htask) hrow hmerged with
      ⟨next, last, hsettled, hreturned⟩
    exact ⟨next, last, hsettled, fun hdone => absurd hdone hmerged, fun _ => hreturned⟩

/-- A settlement writes no delivery but the ambiguous one. -/
theorem settleMerging_lookup_ne {ambient : Ambient} {ambiguousKey : Option String}
    {next : EventStore} {last : Task} {key : String}
    (hsettled : settleMerging ambient store task item ambiguousKey = .ok (next, last))
    (hother : ambiguousKey ≠ some key) :
    next.deliveries.lookup key = store.deliveries.lookup key := by
  unfold settleMerging at hsettled
  cases ambiguousKey with
  | none =>
      split at hsettled
      · simp only [commitCompletion, ok_bind, pure_eq_ok, Prod.mk.injEq] at hsettled
        rw [← hsettled.1, EventStore.saveTaskEvents_deliveries]
      · cases hsettled
  | some other =>
      have hkey : key ≠ other := fun hsame => hother (hsame ▸ rfl)
      split at hsettled
      · simp only [commitCompletion, bind_eq_ok, persisted_eq_ok, pure_eq_ok, Prod.mk.injEq,
          EventStore.completeDeliveryWithTaskEvents, EventStore.completeDelivery,
          EventStore.recordResult_eq_ok] at hsettled
        rcases hsettled with ⟨_, ⟨_, ⟨delivery, -, rfl⟩, rfl⟩, rfl, -⟩
        rw [EventStore.saveTaskEvents_deliveries, AList.lookup_insert_ne hkey]
      · simp only [bind_eq_ok, persisted_eq_ok, pure_eq_ok, Prod.mk.injEq,
          EventStore.completeFailedMergeDelivery, EventStore.completeDelivery,
          EventStore.recordResult_eq_ok] at hsettled
        rcases hsettled with ⟨_, ⟨_, ⟨delivery, -, rfl⟩, rfl⟩, rfl, -⟩
        rw [EventStore.saveTask_deliveries, EventStore.invalidateTaskApprovals_deliveries,
          AList.lookup_insert_ne hkey]

/-- The pull request of a task at the head the task was made for. -/
def pullRequestOf (task : Task) (merged : Bool) : GitHubWorkItem where
  id := 1
  repositoryFullName := task.source.repositoryFullName.getD ""
  number := task.source.itemNumber.getD 0
  kind := .pullRequest
  title := task.title
  state := if merged then "closed" else "open"
  stateReason := none
  htmlUrl := ""
  draft := false
  baseRef := none
  baseSha := none
  headRef := none
  headSha := task.source.headSha
  merged := some merged
  mergeCommitSha := none
  headCommittedAt := none
  latestReviewAt := none
  updatedAt := "2026-01-01T00:00:00Z"
  reviewDecision := none
  ciHealth := none
  mergeable := none
  hasConflicts := none
  headRepositoryFullName := none
  headRepositoryFork := false
  maintainerCanModify := false
  labels := []

def snapshotOf (task : Task) (merged : Bool) : GitHubRepositorySnapshot where
  repository := {
    id := task.source.repositoryId.getD 0
    fullName := task.source.repositoryFullName.getD ""
    defaultBranch := "main"
    installationId := none
    defaultBranchSha := none
    defaultBranchCommittedAt := none
    openPullRequestCount := 1
    failingCheckCount := 0 }
  workItems := [pullRequestOf task merged]
  discussions := []
  checks := []
  workflowRuns := []

theorem shows_snapshotOf (hsource : task.source ≠ .localRequest) (merged : Bool) :
    Shows (snapshotOf task merged) task (pullRequestOf task merged) := by
  have hnumber : ∃ number, task.source.itemNumber = some number := by
    cases hkind : task.source with
    | localRequest => exact absurd hkind hsource
    | gitHubIssue source => exact ⟨source.number, rfl⟩
    | gitHubPullRequest source => exact ⟨source.number, rfl⟩
  rcases hnumber with ⟨number, hnumber⟩
  refine ⟨?_, ?_, ⟨number, hnumber, ?_⟩, rfl, rfl⟩
  · cases hkind : task.source with
    | localRequest => exact absurd hkind hsource
    | gitHubIssue source => simp [snapshotOf, hkind, TaskSource.repositoryId]
    | gitHubPullRequest source => simp [snapshotOf, hkind, TaskSource.repositoryId]
  · cases hkind : task.source with
    | localRequest => exact absurd hkind hsource
    | gitHubIssue source => simp [snapshotOf, hkind, TaskSource.repositoryFullName]
    | gitHubPullRequest source => simp [snapshotOf, hkind, TaskSource.repositoryFullName]
  · simp [snapshotOf, GitHubRepositorySnapshot.item?, pullRequestOf, hnumber]

/-- A delivery that is not the ambiguous one of its task is left as it is by
every settlement, and no row is both succeeded and claimable. -/
theorem recognised_of_mergeSettles {key : String} (hsettles : MergeSettles store taskId key) :
    Recognised store taskId key := by
  intro task htask hstate hsource
  by_contra hother
  have hmerged := hsettles task htask hstate
    ⟨0, ⟨false⟩, fun _ => none⟩ _ _ (shows_snapshotOf hsource true)
  have hopen := hsettles task htask hstate
    ⟨0, ⟨false⟩, fun _ => none⟩ _ _ (shows_snapshotOf hsource false)
  rcases hmerged with ⟨completed, last, hcompleted, hdone, -⟩
  rcases hopen with ⟨returned, retry, hreturned, -, hagain⟩
  rw [reconcile_merging _ htask hstate (shows_snapshotOf hsource _)] at hcompleted hreturned
  have hsucceeded := (hdone rfl).recorded
  have hclaimable := (hagain (by rintro ⟨⟩)).claimable none 0
  rw [EventStore.claimDeliveryWithTaskEvent_isSome] at hclaimable
  rw [EventStore.deliveryState, settleMerging_lookup_ne hcompleted hother] at hsucceeded
  rw [EventStore.deliveryState, settleMerging_lookup_ne hreturned hother, hsucceeded]
    at hclaimable
  rcases hclaimable with hnew | hfailed
  · rw [hnew] at hsucceeded
    cases hsucceeded
  · exact absurd hfailed (by decide)

end Reconciling

/-! ### Executions that are cut off -/

section Stopping

variable [Sha256]

/-- How much of an execution was committed when the engine stopped.  Other
requests are served between the claim and the result. -/
inductive Progress where
  | authorizing
  | sent (meanwhile : List DeliveryOp)
  | recorded (meanwhile : List DeliveryOp) (ambient : Ambient)
      (result : Except MutationError MutationResult)

/-- What an execution that claims its delivery leaves in the database. -/
def committed (start claimed : EventStore) (preview : DeliveryPreview) (key : String) :
    Progress → Option EventStore
  | .authorizing => some start
  | .sent meanwhile => run deliveryStep claimed meanwhile
  | .recorded meanwhile ambient result => do
      let store ← run deliveryStep claimed meanwhile
      (recordOutcome ambient store preview key result).toOption

/-- Recording a result is one of the operations of the protocol. -/
theorem recordOutcome_advances {ambient : Ambient} {store recorded : EventStore}
    {preview : DeliveryPreview} {key : String} {result : Except MutationError MutationResult}
    (hrecord : recordOutcome ambient store preview key result = .ok recorded) :
    Advances store recorded := by
  have hop : ∃ op, deliveryStep store op =
      some (settled store id (recordOutcome ambient store preview key result)) := by
    cases result with
    | ok result => exact ⟨.completeSuccessful ambient preview key _ _, rfl⟩
    | error error =>
        cases error with
        | ambiguousTransport => exact ⟨.recordAmbiguous key _, rfl⟩
        | _ => exact ⟨.completeFailed ambient preview key _, rfl⟩
  rcases hop with ⟨op, hstep⟩
  rw [hrecord] at hstep
  exact deliveryStep_advances hstep

theorem committed_keyed {start claimed stopped : EventStore} {ambient : Ambient}
    {preview : DeliveryPreview} {approvalId : Uuid} {key : String} {progress : Progress}
    (hkeyed : start.TasksKeyed)
    (hclaim : authorizeExecution ambient start preview approvalId = .ok (claimed, key))
    (hstopped : committed start claimed preview key progress = some stopped) :
    stopped.TasksKeyed := by
  have hclaimed : claimed.TasksKeyed := by
    obtain ⟨-, -, -, taskEvent, -, hclaim⟩ := authorizeExecution_eq_ok.1 hclaim
    exact (putClaim_advances hclaim).keyed hkeyed
  cases progress with
  | authorizing =>
      rw [committed, Option.some.injEq] at hstopped
      exact hstopped ▸ hkeyed
  | sent meanwhile => exact (run_advances hstopped).keyed hclaimed
  | recorded meanwhile later result =>
      rw [committed, Option.bind_eq_bind, Option.bind_eq_some_iff] at hstopped
      rcases hstopped with ⟨store, hrun, hrecord⟩
      rw [toOption_eq_some] at hrecord
      have hstore := (run_advances hrun).keyed hclaimed
      exact (recordOutcome_advances hrecord).keyed hstore

/-- Right after its claim a merge is in merging without a result. -/
theorem not_recognised_of_claim {start claimed : EventStore} {ambient : Ambient}
    {preview : DeliveryPreview} {approvalId : Uuid} {key : String} {task : Task}
    (hkeyed : start.TasksKeyed) (hmerge : preview.action.action.isMerge)
    (htask : start.loadTask preview.taskId = some task) (hsource : task.source ≠ .localRequest)
    (hclaim : authorizeExecution ambient start preview approvalId = .ok (claimed, key)) :
    ¬ Recognised claimed preview.taskId key := by
  intro hrecognised
  have hunresolved := (authorizeExecution_claims hclaim).2
  obtain ⟨-, -, -, taskEvent, hevent, hclaim⟩ := authorizeExecution_eq_ok.1 hclaim
  obtain ⟨delivery, rfl, -⟩ := EventStore.claimDeliveryWithTaskEvent_eq_some.1 hclaim
  simp only [claimEvent, hmerge, if_true, bind_eq_ok, okOr_eq_ok, htask, Option.some.injEq,
    exists_eq_left', transitioned_eq_ok, Task.transition_eq_ok, pure_eq_ok] at hevent
  rcases hevent with ⟨_, ⟨-, rfl⟩, rfl⟩
  have hid := hkeyed.id_eq htask
  have hmerging : (start.putClaim key delivery (some ({ task with
      state := .merging, updatedAt := ambient.now }, "Approved merge execution started"))).loadTask
      preview.taskId = some { task with state := .merging, updatedAt := ambient.now } := by
    rw [← hid]
    exact EventStore.loadTask_saveTask_self _ _ _
  have hkey := hrecognised _ hmerging rfl hsource
  rcases ambiguousDeliveryForTask_eq_some hkey with ⟨row, hrow, -, -, hambiguous⟩
  rw [EventStore.deliveryState, hrow, Option.bind_some, hambiguous] at hunresolved
  cases hunresolved

/-- A merge whose execution was cut off is settled after the restart exactly
when its task is not in merging any more or the merge was recorded as ambiguous
and is the one its task is reconciled by.  Cut off between its claim and its
result, it is stranded. -/
theorem mergeSettles_reopen_iff {start claimed : EventStore} {ambient : Ambient}
    {preview : DeliveryPreview} {approvalId : Uuid} {key : String}
    (hkeyed : start.TasksKeyed) (hmerge : preview.action.action.isMerge)
    (hclaim : authorizeExecution ambient start preview approvalId = .ok (claimed, key))
    (now : DateTime) :
    (∀ progress stopped, committed start claimed preview key progress = some stopped →
      (MergeSettles (stopped.reopen now) preview.taskId key ↔
        Recognised stopped preview.taskId key)) ∧
    (∀ task, start.loadTask preview.taskId = some task → task.source ≠ .localRequest →
      ¬ MergeSettles (claimed.reopen now) preview.taskId key) := by
  constructor
  · intro progress stopped hstopped
    have hkept := committed_keyed hkeyed hclaim hstopped
    have hopened : (stopped.reopen now).TasksKeyed := hkept
    rw [← recognised_reopen now]
    exact ⟨recognised_of_mergeSettles, mergeSettles_of_recognised hopened⟩
  · intro task htask hsource hsettles
    have hrecognised := (recognised_reopen now).mp (recognised_of_mergeSettles hsettles)
    exact not_recognised_of_claim hkeyed hmerge htask hsource hclaim hrecognised

end Stopping

namespace Sample

def ambiguousStore : EventStore :=
  (committed approvedStore claimedStore mergePreview mergeKey
    (.recorded [] ambient (.error .ambiguousTransport))).getD .empty

theorem merge_ambiguous :
    (committed approvedStore claimedStore mergePreview mergeKey
        (.recorded [] ambient (.error .ambiguousTransport))).isSome ∧
      ambiguousStore.ambiguousDeliveryForTask mergePreview.taskId = some mergeKey ∧
      (approvedStore.loadTask mergePreview.taskId).map Task.source = some source ∧
      approvedStore.TasksKeyed := by
  decide +kernel

end Sample

open Sample

/-- The engine stops after the claim: nothing settles the merge. -/
theorem mergeSettles_reopen_claimed :
    authorizeExecution ambient approvedStore mergePreview ⟨3⟩ = .ok (claimedStore, mergeKey) ∧
      ¬ MergeSettles (claimedStore.reopen 0) mergePreview.taskId mergeKey := by
  have hclaim := eq_ok_settled approvedStore merge_retried.2.1
  obtain ⟨task, htask, hsource⟩ := Option.map_eq_some_iff.mp merge_ambiguous.2.2.1
  have hremote : task.source ≠ .localRequest := by
    rw [hsource]
    exact nofun
  refine ⟨hclaim, fun hsettles => ?_⟩
  have hrecognised := (recognised_reopen 0).mp (recognised_of_mergeSettles hsettles)
  exact not_recognised_of_claim merge_ambiguous.2.2.2 rfl htask hremote hclaim hrecognised

/-- The engine stops after the result was recorded as ambiguous: the merge is
settled. -/
theorem mergeSettles_reopen_ambiguous :
    MergeSettles (ambiguousStore.reopen 0) mergePreview.taskId mergeKey := by
  have hclaim := eq_ok_settled approvedStore merge_retried.2.1
  have hstopped := eq_some_getD merge_ambiguous.1 .empty
  have hiff := (mergeSettles_reopen_iff merge_ambiguous.2.2.2 rfl hclaim 0).1 _ _ hstopped
  exact hiff.mpr fun _ _ _ _ => merge_ambiguous.2.1

end Patchwright
