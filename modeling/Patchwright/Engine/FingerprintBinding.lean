import Patchwright.Core.ActionIdentity
import Patchwright.Engine.DeliveryAuthority

/-!
# What a fingerprint binds

An approval is for a fingerprint, and the write is made for a preview.  Most
fields of a preview reach its fingerprint as they are, the action through its
digest and the installation through the binding of the task, so one fingerprint
is that of one preview only.
-/

namespace Patchwright

open Checked Runs EventStore

section Binding

variable [Sha256]

variable {ambient second : Ambient} {store earlier later next : EventStore} {taskId : TaskId}
variable {action other : GitHubActionPreview} {preview executed : DeliveryPreview}
variable {previews : Set GitHubActionPreview}

/-- An approval that is stored under a new identifier is found under it. -/
theorem EventStore.approval_saveApproval (store : EventStore) (approval : Approval)
    (hnew : store.approvals.lookup approval.id = none) :
    (store.saveApproval approval).approval approval.id = some approval := by
  rw [EventStore.approval, EventStore.saveApproval, hnew, AList.lookup_insert]
  rfl

theorem EventStore.taskContract_saveApproval (store : EventStore) (approval : Approval)
    (taskId : TaskId) : (store.saveApproval approval).taskContract taskId = store.taskContract taskId :=
  rfl

theorem EventStore.repositoryBinding_saveApproval (store : EventStore) (approval : Approval)
    (id : RepositoryBindingId) :
    (store.saveApproval approval).repositoryBinding id = store.repositoryBinding id :=
  rfl

/-- The fields of a preview in the fingerprint of an accepted one. -/
theorem previewDelivery_fingerprint (hok : previewDelivery ambient store taskId action = .ok preview) :
    preview.fingerprint.payloadSha256 = action.payloadSha256 ∧
      preview.fingerprint.headSha = action.precondition.expectedHeadSha ∧
      preview.fingerprint.baseSha = action.precondition.expectedBaseSha ∧
      preview.fingerprint.invalidationGeneration = action.precondition.snapshotGeneration := by
  unfold previewDelivery ActionFingerprint.tryFrom at hok
  simp only [bind_eq_ok, okOr_eq_ok, ensure_eq_ok, mapError_eq_ok, pure_eq_ok] at hok
  obtain ⟨_, -, contract, -, -, -, -, -, _, -, -, -, _, -, -, -, -, -, -, -, -, -, -, -, _,
    ⟨-, -, -, -, _, -, -, -, _, -, -, -, -, -, -, -, -, -, -, -, rfl⟩, rfl⟩ := hok
  exact ⟨rfl, rfl, rfl, rfl⟩

/-- Previews that are accepted for a task whose contract and bindings have not
changed are for the same remote. -/
theorem previewDelivery_remote
    (hcontract : later.taskContract taskId = earlier.taskContract taskId)
    (hbindings : ∀ id, later.repositoryBinding id = earlier.repositoryBinding id)
    (hfirst : previewDelivery ambient earlier taskId action = .ok preview)
    (hsecond : previewDelivery second later taskId other = .ok executed) :
    action.remote = other.remote := by
  obtain ⟨-, -, _, contract, _, binding, -, hload, -, -, -, rfl, hbinding, hid, hinstall, hname⟩ :=
    previewDelivery_eq_ok hfirst
  obtain ⟨-, -, _, same, _, bound, -, hagain, -, -, -, rfl, hbound, hsame, hinstalled, hnamed⟩ :=
    previewDelivery_eq_ok hsecond
  rw [hcontract, hload, Option.some.injEq] at hagain
  rw [← hagain, hbindings, hbinding, Option.some.injEq] at hbound
  subst hbound
  calc action.remote
      = ⟨action.remote.repositoryId, action.remote.installationId,
          action.remote.repositoryFullName⟩ := rfl
    _ = ⟨other.remote.repositoryId, other.remote.installationId,
          other.remote.repositoryFullName⟩ := by
        rw [hid, hinstall, hname, hsame, hinstalled, hnamed]
    _ = other.remote := rfl

/-- One fingerprint, one preview. -/
theorem preview_eq_of_fingerprint (hfree : CollisionFree previews) (haction : action ∈ previews)
    (hother : other ∈ previews)
    (hcontract : later.taskContract taskId = earlier.taskContract taskId)
    (hbindings : ∀ id, later.repositoryBinding id = earlier.repositoryBinding id)
    (hfirst : previewDelivery ambient earlier taskId action = .ok preview)
    (hsecond : previewDelivery second later taskId other = .ok executed)
    (hsame : preview.fingerprint = executed.fingerprint) : action = other := by
  obtain ⟨hpayload, hhead, hbase, hgeneration⟩ := previewDelivery_fingerprint hfirst
  obtain ⟨hdigest, hexpected, hfrom, hsnapshot⟩ := previewDelivery_fingerprint hsecond
  have hactions : action.action = other.action := by
    apply hfree.action_eq haction hother
    rw [← hpayload, hsame, hdigest]
  have hprecondition : action.precondition = other.precondition :=
    calc action.precondition
        = ⟨preview.fingerprint.headSha, preview.fingerprint.baseSha,
            preview.fingerprint.invalidationGeneration⟩ := by rw [hhead, hbase, hgeneration]
      _ = ⟨executed.fingerprint.headSha, executed.fingerprint.baseSha,
            executed.fingerprint.invalidationGeneration⟩ := by rw [hsame]
      _ = other.precondition := by rw [hexpected, hfrom, hsnapshot]
  exact GitHubActionPreview.ext_parts
    (previewDelivery_remote hcontract hbindings hfirst hsecond) hactions hprecondition

/-- An execution that is authorised on an approval is of the preview that the
approval was given for. -/
theorem authorizeExecution_preview {id : Uuid} {approvedBy : String} {approval : Approval}
    {outcome : EventStore × String} (hfree : CollisionFree previews)
    (haction : preview.action ∈ previews) (hother : executed.action ∈ previews)
    (hcontract : later.taskContract preview.taskId = earlier.taskContract preview.taskId)
    (hbindings : ∀ id, later.repositoryBinding id = earlier.repositoryBinding id)
    (happroved : approveDelivery ambient earlier preview approvedBy id = .ok (next, approval))
    (hstored : later.approval id = some approval)
    (hexecuted : authorizeExecution second later executed id = .ok outcome) : executed = preview := by
  obtain ⟨hfirst, -, hfingerprint, -⟩ := approveDelivery_eq_ok happroved
  obtain ⟨hsecond, ⟨same, hsame, hallowed⟩, -⟩ := authorizeExecution_eq_ok.1 hexecuted
  rw [hstored, Option.some.injEq] at hsame
  subst hsame
  have hvalid := Policy.authorize_eq_allowed
    (GitHubAction.capability_isUnattended executed.action.action) hallowed
  have hprints : preview.fingerprint = executed.fingerprint := hfingerprint.symm.trans hvalid.2.2.1
  have htask : preview.taskId = executed.taskId := by
    rw [← previewDelivery_fingerprint_taskId hfirst, hprints,
      previewDelivery_fingerprint_taskId hsecond]
  have hactions : preview.action = executed.action := by
    rw [← htask] at hsecond
    exact preview_eq_of_fingerprint hfree haction hother hcontract hbindings hfirst hsecond hprints
  calc executed
      = ⟨executed.taskId, executed.action, executed.fingerprint⟩ := rfl
    _ = ⟨preview.taskId, preview.action, preview.fingerprint⟩ := by rw [htask, hactions, hprints]
    _ = preview := rfl

/-- Where the digest function does not collide on the hashed texts: accepted
previews of a task with one fingerprint are equal, keys are equal exactly for
one action on one remote under one precondition, and no approval authorises
another preview than the one it was given for, as long as the contract of the
task and the bindings stay. -/
theorem fingerprint_binds (hfree : CollisionFree previews) :
    (∀ (ambient second : Ambient) (store : EventStore) (taskId : TaskId),
      ∀ action ∈ previews, ∀ other ∈ previews, ∀ preview executed,
        previewDelivery ambient store taskId action = .ok preview →
        previewDelivery second store taskId other = .ok executed →
        preview.fingerprint = executed.fingerprint → action = other) ∧
      (∀ action ∈ previews, ∀ other ∈ previews,
        action.idempotencySha256 = other.idempotencySha256 ↔
          action.remote = other.remote ∧ action.action = other.action ∧
            action.precondition = other.precondition) ∧
      ∀ (ambient second : Ambient) (earlier later next : EventStore) (approvedBy : String)
        (id : Uuid) (approval : Approval) (outcome : EventStore × String)
        (preview executed : DeliveryPreview),
        preview.action ∈ previews → executed.action ∈ previews →
        later.taskContract preview.taskId = earlier.taskContract preview.taskId →
        (∀ id, later.repositoryBinding id = earlier.repositoryBinding id) →
        approveDelivery ambient earlier preview approvedBy id = .ok (next, approval) →
        later.approval id = some approval →
        authorizeExecution second later executed id = .ok outcome → executed = preview := by
  refine ⟨?_, ?_, ?_⟩
  · intro ambient second store taskId action haction other hother preview executed hfirst hsecond
    exact preview_eq_of_fingerprint hfree haction hother rfl (fun _ => rfl) hfirst hsecond
  · intro action haction other hother
    exact hfree.key_eq_iff haction hother
  · intro ambient second earlier later next approvedBy id approval outcome preview executed haction
      hother hcontract hbindings
    exact authorizeExecution_preview hfree haction hother hcontract hbindings

end Binding

open Sample in
/-- The merge of the sample, approved and then executed. -/
theorem fingerprint_binds_merge : ∃ next approval executed outcome,
    CollisionFree {mergePreview.action} ∧
      approveDelivery ambient (store .awaitingMergeApproval) mergePreview "operator" ⟨3⟩ =
        .ok (next, approval) ∧
      authorizeExecution ambient next executed ⟨3⟩ = .ok outcome ∧ executed = mergePreview := by
  have hfree : CollisionFree {mergePreview.action} := by
    have hdistinct : ∀ text ∈ mergePreview.action.hashedTexts,
        ∀ other ∈ mergePreview.action.hashedTexts,
          Sha256.digest text = Sha256.digest other → text = other := by
      decide +kernel
    rintro text ⟨_, rfl, htext⟩ other ⟨_, rfl, hother⟩ hdigests
    exact hdistinct text htext other hother hdigests
  have hrun : (approveDelivery ambient (store .awaitingMergeApproval) mergePreview "operator" ⟨3⟩ >>=
      fun saved => authorizeExecution ambient saved.1 mergePreview ⟨3⟩).isOk := by
    decide +kernel
  obtain ⟨outcome, houtcome⟩ := isOk_iff.1 hrun
  obtain ⟨⟨next, approval⟩, happroved, hexecuted⟩ := bind_eq_ok.1 houtcome
  obtain ⟨-, hid, -, rfl⟩ := approveDelivery_eq_ok happroved
  have hstored := (store .awaitingMergeApproval).approval_saveApproval approval rfl
  rw [hid] at hstored
  have hsame := (fingerprint_binds hfree).2.2 ambient ambient
    (store .awaitingMergeApproval) _ _ "operator" ⟨3⟩ approval outcome mergePreview
    mergePreview (Set.mem_singleton _) (Set.mem_singleton _)
    (taskContract_saveApproval _ approval _) (repositoryBinding_saveApproval _ approval)
    happroved hstored hexecuted
  exact ⟨_, approval, mergePreview, outcome, hfree, happroved, hexecuted, hsame⟩

end Patchwright
