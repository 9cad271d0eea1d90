import Patchwright.Library.Runs
import Patchwright.Engine.Delivery

/-!
# Authority to execute a delivery

A run mixes the operations of the delivery protocol on any tasks with any other
change of the store that leaves approvals and deliveries alone.  Over every run
an execution is authorised only on a live approval for exactly that action, a
key is authorised again only after a failure was recorded for it, and a failed
merge retires every approval that was stored before.

The last two need an invariant.  `Advances` says once what any step may do to
the two tables: rows stay, payloads stay, an invalidation is never taken back,
and a new approval is filed under the task it was given for.
-/

namespace Patchwright

open Checked Runs

/-- What holds at the moment an execution is authorised. -/
structure Authorised [Sha256] (ambient : Ambient) (store : EventStore)
    (preview : DeliveryPreview) (approvalId : Uuid) : Prop where
  approval : ∃ row, store.approvals.lookup approvalId = some row ∧
    row.invalidatedAt = none ∧
    row.payload.cls = requiredClass preview.action.action.capability ∧
    row.payload.fingerprint = preview.fingerprint ∧
    row.payload.approvedAt ≤ ambient.now ∧ ambient.now < row.payload.expiresAt
  declared : ∃ contract, store.taskContract preview.taskId = some contract ∧
    preview.action.action.capability ∈ contract.requiredCapabilities
  bound : ∃ task bindingId binding, store.loadTask preview.taskId = some task ∧
    task.state =
      (if preview.action.action.isMerge then .awaitingMergeApproval
        else .awaitingDeliveryApproval) ∧
    task.repositoryBindingId = some bindingId ∧
    store.repositoryBinding bindingId = some binding ∧
    preview.action.remote.repositoryId = binding.githubRepositoryId ∧
    preview.action.remote.installationId = binding.installationId ∧
    preview.action.remote.repositoryFullName = binding.fullName

theorem EventStore.approval_eq_some {store : EventStore} {id : Uuid} {approval : Approval}
    (happroval : store.approval id = some approval) :
    ∃ row, store.approvals.lookup id = some row ∧ row.invalidatedAt = none ∧
      row.payload = approval := by
  unfold EventStore.approval at happroval
  split at happroval
  · rename_i row hrow
    split at happroval
    · rename_i hlive
      exact ⟨row, hrow, hlive, Option.some.inj happroval⟩
    · exact absurd happroval (by simp)
  · exact absurd happroval (by simp)

theorem authorised_of_authorizeExecution [Sha256] {ambient : Ambient}
    {store next : EventStore} {preview : DeliveryPreview} {approvalId : Uuid} {key : String}
    (hok : authorizeExecution ambient store preview approvalId = .ok (next, key)) :
    Authorised ambient store preview approvalId := by
  obtain ⟨hfresh, ⟨approval, happroval, hallowed⟩, -, -⟩ := authorizeExecution_eq_ok.1 hok
  obtain ⟨-, -, task, contract, bindingId, binding, htask, hcontract, hstate, hcapability, hid,
    -, hbinding, hremote⟩ := previewDelivery_eq_ok hfresh
  obtain ⟨row, hrow, hlive, rfl⟩ := EventStore.approval_eq_some happroval
  obtain ⟨hclass, -, hfingerprint, hfrom, huntil⟩ :=
    Policy.authorize_eq_allowed (GitHubAction.capability_isUnattended _) hallowed
  exact {
    approval := ⟨row, hrow, hlive, hclass, hfingerprint, hfrom, huntil⟩
    declared := ⟨contract, hcontract, hcapability⟩
    bound := ⟨task, bindingId, binding, htask, hstate, hid, hbinding, hremote⟩ }

section Advances

/-- What a step may do to the approvals and the deliveries. -/
structure Advances (old new : EventStore) : Prop where
  kept : ∀ id row, old.approvals.lookup id = some row →
    ∃ later, new.approvals.lookup id = some later ∧ later.taskId = row.taskId ∧
      later.payload = row.payload ∧ (row.invalidatedAt ≠ none → later.invalidatedAt ≠ none)
  filed : ∀ id row, old.approvals.lookup id = none → new.approvals.lookup id = some row →
    row.taskId = row.payload.fingerprint.taskId
  claimed : ∀ key, old.deliveries.lookup key ≠ none → new.deliveries.lookup key ≠ none
  keyed : old.TasksKeyed → new.TasksKeyed

namespace Advances

theorem of_approvals_eq {old new : EventStore} (happrovals : new.approvals = old.approvals)
    (hclaimed : ∀ key, old.deliveries.lookup key ≠ none → new.deliveries.lookup key ≠ none)
    (hkeyed : old.TasksKeyed → new.TasksKeyed) : Advances old new where
  kept := fun id row hrow => ⟨row, happrovals ▸ hrow, rfl, rfl, fun hinvalid => hinvalid⟩
  filed := fun id row hold hnew => by
    rw [happrovals, hold] at hnew
    exact absurd hnew (by simp)
  claimed := hclaimed
  keyed := hkeyed

theorem of_eq {old new : EventStore} (happrovals : new.approvals = old.approvals)
    (hdeliveries : new.deliveries = old.deliveries)
    (hkeyed : old.TasksKeyed → new.TasksKeyed) : Advances old new :=
  of_approvals_eq happrovals (fun _ hkey => hdeliveries ▸ hkey) hkeyed

theorem refl (store : EventStore) : Advances store store := of_eq rfl rfl fun hkeyed => hkeyed

theorem trans {first second third : EventStore} (hfirst : Advances first second)
    (hsecond : Advances second third) : Advances first third where
  kept := fun id row hrow => by
    obtain ⟨middle, hmiddle, htask, hpayload, hinvalid⟩ := hfirst.kept id row hrow
    obtain ⟨later, hlater, htask', hpayload', hinvalid'⟩ := hsecond.kept id middle hmiddle
    exact ⟨later, hlater, htask'.trans htask, hpayload'.trans hpayload,
      fun h => hinvalid' (hinvalid h)⟩
  filed := fun id row hold hnew => by
    cases hmiddle : second.approvals.lookup id with
    | none => exact hsecond.filed id row hmiddle hnew
    | some middle =>
        obtain ⟨later, hlater, htask, hpayload, -⟩ := hsecond.kept id middle hmiddle
        cases hlater.symm.trans hnew
        rw [htask, hpayload]
        exact hfirst.filed id middle hold hmiddle
  claimed := fun key hkey => hsecond.claimed key (hfirst.claimed key hkey)
  keyed := fun hkeyed => hsecond.keyed (hfirst.keyed hkeyed)

theorem insert_delivery {old new : EventStore} {key : String} {delivery : Delivery}
    (happrovals : new.approvals = old.approvals)
    (hdeliveries : new.deliveries = old.deliveries.insert key delivery)
    (hkeyed : old.TasksKeyed → new.TasksKeyed) : Advances old new := by
  refine of_approvals_eq happrovals (fun other hother => ?_) hkeyed
  rw [hdeliveries, AList.lookup_insert_eq]
  split
  · simp
  · exact hother

theorem invalidateTaskApprovals (store : EventStore) (taskId : TaskId) (now : DateTime) :
    Advances store (store.invalidateTaskApprovals taskId now) where
  kept := fun id row hrow => by
    refine ⟨_, by simp [EventStore.invalidateTaskApprovals, hrow]; rfl, ?_, ?_, ?_⟩
    all_goals split <;> simp
  filed := fun id row hold hnew => by
    simp [EventStore.invalidateTaskApprovals, hold] at hnew
  claimed := fun _ hkey => hkey
  keyed := fun hkeyed => hkeyed

theorem saveApproval [Sha256] (store : EventStore) (approval : Approval)
    (hfresh : store.approvals.lookup approval.id = none) :
    Advances store (store.saveApproval approval) where
  kept := fun id row hrow => by
    have hid : id ≠ approval.id := by
      rintro rfl
      rw [hfresh] at hrow
      exact absurd hrow (by simp)
    refine ⟨row, ?_, rfl, rfl, fun hinvalid => hinvalid⟩
    simpa [EventStore.saveApproval, AList.lookup_insert_ne hid] using hrow
  filed := fun id row hold hnew => by
    by_cases hid : id = approval.id
    · subst hid
      simp only [EventStore.saveApproval, hfresh, AList.lookup_insert, Option.some.injEq] at hnew
      rw [← hnew]
    · simp only [EventStore.saveApproval, AList.lookup_insert_ne hid, hold] at hnew
      exact absurd hnew (by simp)
  claimed := fun _ hkey => hkey
  keyed := fun hkeyed => hkeyed

theorem recordResult {old new : EventStore} {key : String} {result : Json}
    {completedAt : Option Int} (hok : old.recordResult key result completedAt = .ok new) :
    Advances old new := by
  obtain ⟨delivery, -, rfl⟩ := EventStore.recordResult_eq_ok.1 hok
  exact insert_delivery rfl rfl fun hkeyed => hkeyed

theorem saveTaskEvents (store : EventStore) (events : List (Task × String)) :
    Advances store (store.saveTaskEvents events) :=
  of_eq (store.saveTaskEvents_approvals events) (store.saveTaskEvents_deliveries events)
    fun hkeyed => hkeyed.saveTaskEvents events

theorem completeDeliveryWithTaskEvents {old new : EventStore} {key : String} {result : Json}
    {events : List (Task × String)} {now : DateTime}
    (hok : old.completeDeliveryWithTaskEvents key result events now = .ok new) :
    Advances old new := by
  simp only [EventStore.completeDeliveryWithTaskEvents, bind_eq_ok, pure_eq_ok] at hok
  obtain ⟨middle, hrecord, rfl⟩ := hok
  exact (recordResult hrecord).trans (saveTaskEvents middle events)

theorem completeFailedMergeDelivery {old new : EventStore} {key : String} {result : Json}
    {task : Task} {summary : String} {now : DateTime}
    (hok : old.completeFailedMergeDelivery key result task summary now = .ok new) :
    Advances old new := by
  simp only [EventStore.completeFailedMergeDelivery, bind_eq_ok, pure_eq_ok] at hok
  obtain ⟨middle, hrecord, rfl⟩ := hok
  exact ((recordResult hrecord).trans (invalidateTaskApprovals middle task.id now)).trans
    (of_eq rfl rfl fun hkeyed => EventStore.TasksKeyed.saveTask hkeyed task summary)

end Advances

end Advances

section Protocol

variable [Sha256]

/-- The operations of the delivery protocol.  `elsewhere` stands for any other
part of the engine: it may change tasks, their history, contracts, bindings and
the remaining tables at will, storing each task under its own identifier, but
neither approvals nor deliveries; and
`saveApproval` stands for the approvals of other classes. -/
inductive DeliveryOp where
  | preview (ambient : Ambient) (taskId : TaskId) (action : GitHubActionPreview)
  | approve (ambient : Ambient) (preview : DeliveryPreview) (approvedBy : String) (id : Uuid)
  | saveApproval (approval : Approval)
  | invalidate (taskId : TaskId) (now : DateTime)
  | execute (ambient : Ambient) (preview : DeliveryPreview) (approvalId : Uuid)
  | completeSuccessful (ambient : Ambient) (preview : DeliveryPreview) (key : String)
      (result : Json) (merged : Bool)
  | completeFailed (ambient : Ambient) (preview : DeliveryPreview) (key : String)
      (result : Json)
  | recordAmbiguous (key : String) (result : Json)
  | reconcile (ambient : Ambient) (taskId : TaskId) (snapshot : GitHubRepositorySnapshot)
  | elsewhere (content : EventStore)

/-- The store after an operation, which is the store before it where the
operation fails. -/
def settled {ε α : Type*} (store : EventStore) (next : α → EventStore) :
    Except ε α → EventStore
  | .ok value => next value
  | .error _ => store

/-- One operation on the store.  It is refused only where an approval would be
given an identifier that is in use, which a random identifier is not, and where
a task would be stored under a foreign identifier. -/
def deliveryStep (store : EventStore) : DeliveryOp → Option EventStore
  | .preview .. => some store
  | .approve ambient preview approvedBy id =>
      if store.approvals.lookup id = none then
        some (settled store Prod.fst (approveDelivery ambient store preview approvedBy id))
      else none
  | .saveApproval approval =>
      if store.approvals.lookup approval.id = none then some (store.saveApproval approval)
      else none
  | .invalidate taskId now => some (store.invalidateTaskApprovals taskId now)
  | .execute ambient preview approvalId =>
      some (settled store Prod.fst (authorizeExecution ambient store preview approvalId))
  | .completeSuccessful ambient preview key result merged =>
      some (settled store id
        (completeSuccessfulDelivery ambient store preview key result merged))
  | .completeFailed ambient preview key result =>
      some (settled store id (completeFailedDelivery ambient store preview key result))
  | .recordAmbiguous key result =>
      some (settled store id (recordAmbiguousDelivery store key result))
  | .reconcile ambient taskId snapshot =>
      some (settled store Prod.fst
        (reconcileCompletedTaskFromSnapshot ambient store taskId snapshot))
  | .elsewhere content =>
      if content.TasksKeyed then
        some { content with approvals := store.approvals, deliveries := store.deliveries }
      else none

omit [Sha256] in
theorem eq_ok_settled {ε α : Type*} (store : EventStore)
    {outcome : Except ε (EventStore × α)} {value : α} (hok : outcome.map Prod.snd = .ok value) :
    outcome = .ok (settled store Prod.fst outcome, value) := by
  cases outcome with
  | error error => simp [Except.map] at hok
  | ok result =>
      simp only [Except.map, Except.ok.injEq] at hok
      rw [← hok]
      rfl

omit [Sha256] in
theorem eq_ok_settled_id {ε : Type*} {store : EventStore} {outcome : Except ε EventStore}
    (hok : outcome.isOk) : outcome = .ok (settled store id outcome) := by
  cases outcome with
  | error error => simp [Except.isOk, Except.toBool] at hok
  | ok next => rfl

omit [Sha256] in
theorem settled_advances {ε α : Type*} {store : EventStore} {next : α → EventStore}
    {outcome : Except ε α} (hok : ∀ value, outcome = .ok value → Advances store (next value)) :
    Advances store (settled store next outcome) := by
  cases outcome with
  | error error => exact Advances.refl store
  | ok value => exact hok value rfl

omit [Sha256] in
theorem putClaim_advances {store next : EventStore} {key : String}
    {taskEvent : Option (Task × String)} {now : DateTime}
    (hclaim : store.claimDeliveryWithTaskEvent key taskEvent now = some next) :
    Advances store next := by
  obtain ⟨delivery, rfl, -⟩ := EventStore.claimDeliveryWithTaskEvent_eq_some.1 hclaim
  exact Advances.insert_delivery (store.putClaim_approvals key delivery taskEvent)
    (store.putClaim_deliveries key delivery taskEvent)
    fun hkeyed => hkeyed.putClaim key delivery taskEvent

/-- The step lemma: whatever an operation does, it advances the two tables. -/
theorem deliveryStep_advances {store next : EventStore} {op : DeliveryOp}
    (hstep : deliveryStep store op = some next) : Advances store next := by
  cases op with
  | preview ambient taskId action =>
      cases hstep
      exact Advances.refl store
  | approve ambient preview approvedBy id =>
      simp only [deliveryStep, Option.ite_none_right_eq_some, Option.some.injEq] at hstep
      obtain ⟨hfresh, rfl⟩ := hstep
      refine settled_advances fun ⟨saved, approval⟩ hok => ?_
      obtain ⟨-, hid, -, rfl⟩ := approveDelivery_eq_ok hok
      exact Advances.saveApproval store approval (hid ▸ hfresh)
  | saveApproval approval =>
      simp only [deliveryStep, Option.ite_none_right_eq_some, Option.some.injEq] at hstep
      obtain ⟨hfresh, rfl⟩ := hstep
      exact Advances.saveApproval store approval hfresh
  | invalidate taskId now =>
      cases hstep
      exact Advances.invalidateTaskApprovals store taskId now
  | execute ambient preview approvalId =>
      cases hstep
      refine settled_advances fun ⟨claimed, key⟩ hok => ?_
      obtain ⟨-, -, -, taskEvent, -, hclaim⟩ := authorizeExecution_eq_ok.1 hok
      exact putClaim_advances hclaim
  | completeSuccessful ambient preview key result merged =>
      cases hstep
      refine settled_advances fun completed hok => ?_
      obtain ⟨events, hcomplete, -⟩ := completeSuccessfulDelivery_eq_ok hok
      exact Advances.completeDeliveryWithTaskEvents hcomplete
  | completeFailed ambient preview key result =>
      cases hstep
      refine settled_advances fun completed hok => ?_
      rcases completeFailedDelivery_eq_ok hok with hcomplete | ⟨task, summary, -, -, -, hfailed⟩
      · exact Advances.recordResult hcomplete
      · exact Advances.completeFailedMergeDelivery hfailed
  | recordAmbiguous key result =>
      cases hstep
      exact settled_advances fun marked hok => Advances.recordResult (persisted_eq_ok.1 hok)
  | reconcile ambient taskId snapshot =>
      cases hstep
      refine settled_advances fun ⟨reconciled, last⟩ hok => ?_
      obtain ⟨task, item, completed, -, -, hcases⟩ :=
        reconcileCompletedTaskFromSnapshot_eq_ok hok
      rcases hcases with ⟨-, -, rfl⟩ | ⟨-, events, -, hcompleted⟩ |
        ⟨-, -, -, key, summary, -, hfailed⟩
      · exact Advances.refl _
      · rcases hcompleted with ⟨key, -, -, hcomplete⟩ | ⟨-, rfl⟩
        · exact Advances.completeDeliveryWithTaskEvents hcomplete
        · exact Advances.saveTaskEvents store events
      · exact Advances.completeFailedMergeDelivery hfailed
  | elsewhere content =>
      simp only [deliveryStep, Option.ite_none_right_eq_some, Option.some.injEq] at hstep
      obtain ⟨hkeyed, rfl⟩ := hstep
      exact Advances.of_eq rfl rfl fun _ => hkeyed

theorem run_advances {store later : EventStore} {ops : List DeliveryOp}
    (hrun : run deliveryStep store ops = some later) : Advances store later :=
  rel_of_run Advances.refl Advances.trans (fun _ _ _ => deliveryStep_advances) hrun

/-- An authorised key is claimed, and no result is recorded for it yet. -/
theorem authorizeExecution_claims {ambient : Ambient} {store next : EventStore}
    {preview : DeliveryPreview} {approvalId : Uuid} {key : String}
    (hok : authorizeExecution ambient store preview approvalId = .ok (next, key)) :
    next.deliveries.lookup key ≠ none ∧ next.deliveryState key = none := by
  obtain ⟨-, -, -, taskEvent, -, hclaim⟩ := authorizeExecution_eq_ok.1 hok
  obtain ⟨delivery, rfl, hresult, -⟩ := EventStore.claimDeliveryWithTaskEvent_eq_some.1 hclaim
  simp [EventStore.deliveryState, Delivery.resultState, hresult]

/-- A key that is claimed already is authorised only after a failure. -/
theorem deliveryState_of_authorizeExecution {ambient : Ambient} {store next : EventStore}
    {preview : DeliveryPreview} {approvalId : Uuid} {key : String}
    (hok : authorizeExecution ambient store preview approvalId = .ok (next, key))
    (hclaimed : store.deliveries.lookup key ≠ none) :
    store.deliveryState key = some "failed" := by
  obtain ⟨-, -, -, taskEvent, -, hclaim⟩ := authorizeExecution_eq_ok.1 hok
  obtain ⟨delivery, -, -, -, -, hrow⟩ := EventStore.claimDeliveryWithTaskEvent_eq_some.1 hclaim
  rcases hrow with ⟨hnone, -⟩ | ⟨old, hold, hfailed, -⟩
  · exact absurd hnone hclaimed
  · simpa [EventStore.deliveryState, hold] using hfailed

/-- The approvals of a task that were stored by some moment no longer count. -/
def Retired (store : EventStore) (taskId : TaskId) (ids : Uuid → Prop) : Prop :=
  ∀ id, ids id → ∃ row, store.approvals.lookup id = some row ∧
    (row.payload.fingerprint.taskId = taskId → row.invalidatedAt ≠ none)

omit [Sha256] in
theorem Retired.advance {store later : EventStore} {taskId : TaskId} {ids : Uuid → Prop}
    (hretired : Retired store taskId ids) (hadvances : Advances store later) :
    Retired later taskId ids := by
  intro id hid
  obtain ⟨row, hrow, hinvalid⟩ := hretired id hid
  obtain ⟨kept, hkept, -, hpayload, hstays⟩ := hadvances.kept id row hrow
  exact ⟨kept, hkept, fun htask => hstays (hinvalid (hpayload ▸ htask))⟩

/-- A retired approval authorises nothing for its task. -/
theorem Retired.not_authorised {store : EventStore} {taskId : TaskId} {ids : Uuid → Prop}
    (hretired : Retired store taskId ids) {id : Uuid} (hid : ids id) {ambient : Ambient}
    {preview : DeliveryPreview} (htask : preview.taskId = taskId)
    {outcome : EventStore × String} :
    authorizeExecution ambient store preview id ≠ .ok outcome := by
  intro hok
  obtain ⟨hfresh, -⟩ := authorizeExecution_eq_ok.1 hok
  obtain ⟨row, hrow, hlive, -, hfingerprint, -⟩ :=
    (authorised_of_authorizeExecution hok).approval
  obtain ⟨retired, hretired, hinvalid⟩ := hretired id hid
  cases hrow.symm.trans hretired
  refine hinvalid ?_ hlive
  rw [hfingerprint, previewDelivery_fingerprint_taskId hfresh, htask]

/-- Returning a failed merge to its gate retires the approvals of the task. -/
theorem retired_of_completeFailedDelivery {ambient : Ambient} {store next : EventStore}
    {preview : DeliveryPreview} {key : String} {result : Json} {task : Task}
    (hfiled : ∀ id row, store.approvals.lookup id = some row →
      row.taskId = row.payload.fingerprint.taskId)
    (htask : store.loadTask preview.taskId = some task) (hid : task.id = preview.taskId)
    (hmerge : preview.action.action.isMerge) (hstate : task.state = .merging)
    (hok : completeFailedDelivery ambient store preview key result = .ok next) :
    Retired next preview.taskId fun id => next.approvals.lookup id ≠ none := by
  simp only [completeFailedDelivery, hmerge, not_true_eq_false, if_false, htask, hstate, bind_eq_ok,
    okOr_eq_ok, Option.some.injEq, exists_eq_left', ne_eq, transitioned_eq_ok, persisted_eq_ok,
    Task.transition_eq_ok, EventStore.completeFailedMergeDelivery, pure_eq_ok] at hok
  obtain ⟨_, ⟨-, rfl⟩, middle, hrecord, rfl⟩ := hok
  obtain ⟨delivery, -, rfl⟩ := EventStore.recordResult_eq_ok.1 hrecord
  intro id hstored
  simp only [EventStore.saveTask_approvals, EventStore.invalidateTaskApprovals,
    AList.lookup_mapRows, hid] at hstored ⊢
  cases hrow : store.approvals.lookup id with
  | none => simp [hrow] at hstored
  | some row =>
      refine ⟨_, rfl, ?_⟩
      have hcolumn := hfiled id row hrow
      dsimp only
      split
      · simp
      · rename_i hother
        intro htask
        exact fun hlive => hother ⟨hcolumn.trans htask, hlive⟩

end Protocol

/-! ### A merge that is rejected and retried -/

namespace Sample

def rejected : Json :=
  .obj [("state", .str "failed"), ("error", .str "GitHub rejected the merge")]

def approvedStore : EventStore :=
  (run deliveryStep (store .awaitingMergeApproval)
    [.approve ambient mergePreview "operator" ⟨3⟩]).getD .empty

def claimedStore : EventStore :=
  settled approvedStore Prod.fst (authorizeExecution ambient approvedStore mergePreview ⟨3⟩)

def rejectedStore : EventStore :=
  settled claimedStore id (completeFailedDelivery ambient claimedStore mergePreview mergeKey
    rejected)

def retriedStore : EventStore :=
  (run deliveryStep claimedStore
    [.completeFailed ambient mergePreview mergeKey rejected,
      .approve ambient mergePreview "operator" ⟨4⟩]).getD .empty

/-- A merge is approved, claimed, rejected by GitHub, approved again and
claimed again. -/
theorem merge_retried :
    (run deliveryStep (store .awaitingMergeApproval)
        [.approve ambient mergePreview "operator" ⟨3⟩]).isSome ∧
      (authorizeExecution ambient approvedStore mergePreview ⟨3⟩).map Prod.snd = .ok mergeKey ∧
      (run deliveryStep claimedStore
        [.completeFailed ambient mergePreview mergeKey rejected,
          .approve ambient mergePreview "operator" ⟨4⟩]).isSome ∧
      (authorizeExecution ambient retriedStore mergePreview ⟨4⟩).map Prod.snd = .ok mergeKey ∧
      (completeFailedDelivery ambient claimedStore mergePreview mergeKey rejected).isOk ∧
      (rejectedStore.approvals.lookup ⟨3⟩).isSome ∧
      (claimedStore.loadTask taskId).map Task.state = some .merging := by
  decide +kernel

end Sample

section Soundness

variable [Sha256]

/-- In every run from a store without approvals: an execution is authorised
only on a live approval for exactly that action in the right task state; between
two authorisations of one key a step records a failure for it; and after a
failed merge has returned its task to the merge gate, no approval stored by then
authorises anything for the task again. -/
theorem authorizeExecution_sound {start store : EventStore} {history : List DeliveryOp}
    (hstart : start.approvals = ∅) (hkeyed : start.TasksKeyed)
    (hreach : run deliveryStep start history = some store) :
    (∀ ambient preview approvalId next key,
      authorizeExecution ambient store preview approvalId = .ok (next, key) →
        Authorised ambient store preview approvalId) ∧
    (∀ ambient preview approvalId next key ops later ambient' preview' approvalId' next',
      authorizeExecution ambient store preview approvalId = .ok (next, key) →
      run deliveryStep next ops = some later →
      authorizeExecution ambient' later preview' approvalId' = .ok (next', key) →
        ∃ before op after here there, ops = before ++ op :: after ∧
          run deliveryStep next before = some here ∧ deliveryStep here op = some there ∧
          here.deliveryState key ≠ some "failed" ∧ there.deliveryState key = some "failed") ∧
    (∀ ambient preview key result task next ops later ambient' preview' approvalId outcome,
      store.loadTask preview.taskId = some task → task.state = .merging →
      preview.action.action.isMerge →
      completeFailedDelivery ambient store preview key result = .ok next →
      run deliveryStep next ops = some later →
      next.approvals.lookup approvalId ≠ none → preview'.taskId = preview.taskId →
        authorizeExecution ambient' later preview' approvalId ≠ .ok outcome) := by
  have hadvances := run_advances hreach
  refine ⟨?_, ?_, ?_⟩
  · intro ambient preview approvalId next key hok
    exact authorised_of_authorizeExecution hok
  · intro ambient preview approvalId next key ops later ambient' preview' approvalId' next'
      hfirst hrun hsecond
    obtain ⟨hclaimed, hunresolved⟩ := authorizeExecution_claims hfirst
    have hstill : later.deliveries.lookup key ≠ none := (run_advances hrun).claimed key hclaimed
    have hfailed := deliveryState_of_authorizeExecution hsecond hstill
    obtain ⟨before, op, after, here, there, hops, hbefore, hstep, -, hnot, hnow⟩ :=
      exists_crossing (fun store => store.deliveryState key = some "failed") hrun
        (by simp [hunresolved]) hfailed
    exact ⟨before, op, after, here, there, hops, hbefore, hstep, hnot, hnow⟩
  · intro ambient preview key result task next ops later ambient' preview' approvalId outcome
      htask hstate hmerge hok hrun hstored hsame
    have hfiled : ∀ id row, store.approvals.lookup id = some row →
        row.taskId = row.payload.fingerprint.taskId := by
      intro id row hrow
      exact hadvances.filed id row (by simp [hstart]) hrow
    have hid := (hadvances.keyed hkeyed).id_eq htask
    have hretired := retired_of_completeFailedDelivery hfiled htask hid hmerge hstate hok
    exact (hretired.advance (run_advances hrun)).not_authorised hstored hsame

end Soundness

open Sample in
theorem authorizeExecution_sound_retried :
    Authorised ambient approvedStore mergePreview ⟨3⟩ ∧
      (∃ before op after here there,
        [.completeFailed ambient mergePreview mergeKey rejected,
            .approve ambient mergePreview "operator" ⟨4⟩] = before ++ op :: after ∧
          run deliveryStep claimedStore before = some here ∧
          deliveryStep here op = some there ∧
          here.deliveryState mergeKey ≠ some "failed" ∧
          there.deliveryState mergeKey = some "failed") ∧
      ∀ outcome, authorizeExecution ambient rejectedStore mergePreview ⟨3⟩ ≠ .ok outcome := by
  obtain ⟨happroved, hclaimed, hretried, hreclaimed, hrejected, hstored, hmerging⟩ := merge_retried
  have hkeyed : (store .awaitingMergeApproval).TasksKeyed := by decide
  have hreach := eq_some_getD happroved .empty
  have hclaim := eq_ok_settled approvedStore hclaimed
  have hsound := authorizeExecution_sound rfl hkeyed hreach
  refine ⟨hsound.1 _ _ _ _ _ hclaim, ?_, fun outcome => ?_⟩
  · exact hsound.2.1 _ _ _ _ _ _ _ _ _ _ _ hclaim (eq_some_getD hretried .empty)
      (eq_ok_settled retriedStore hreclaimed)
  · have hexecute : run deliveryStep (store .awaitingMergeApproval)
        [.approve ambient mergePreview "operator" ⟨3⟩, .execute ambient mergePreview ⟨3⟩] =
          some claimedStore := by
      exact run_append_eq_some.2 ⟨approvedStore, hreach, rfl⟩
    obtain ⟨task, htask, hstate⟩ := Option.map_eq_some_iff.mp hmerging
    have hsound := authorizeExecution_sound rfl hkeyed hexecute
    refine hsound.2.2 ambient mergePreview mergeKey rejected task rejectedStore [] rejectedStore
      ambient mergePreview ⟨3⟩ outcome htask hstate rfl ?_ rfl ?_ rfl
    · exact eq_ok_settled_id hrejected
    · exact Option.ne_none_iff_isSome.mpr hstored

end Patchwright
