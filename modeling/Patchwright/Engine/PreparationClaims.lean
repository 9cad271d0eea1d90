import Patchwright.Engine.Preparation
import Patchwright.Library.Runs

/-!
# Claims of preparations

A claim is one insertion that two constraints can ignore: an approval has one
row, and a task has one row without a completion.  The row of an approval stays
when it is completed, and a restart completes what was open, so the rows count
the claims that were ever made.
-/

namespace Patchwright

open Checked Runs

/-- A call of `claim_preparation` and its answer. -/
structure PreparationAnswer where
  approvalId : Uuid
  taskId : TaskId
  actionDigest : String
  now : DateTime
  outcome : PreparationClaimOutcome
  deriving DecidableEq, Repr

/-- The store, and the answers to all the claims so far. -/
structure PreparationLedger where
  store : EventStore
  answers : List PreparationAnswer

inductive PreparationOp where
  | claim (approvalId : Uuid) (taskId : TaskId) (actionDigest : String) (now : DateTime)
  | complete (approvalId : Uuid) (result : String) (now : DateTime)
  | approve (approval : Approval)
  | invalidate (taskId : TaskId) (now : DateTime)
  | reopen (now : DateTime)
  | other (next : EventStore)

namespace PreparationLedger

/-- The approvals that were claimed, latest first. -/
def claimedIds (ledger : PreparationLedger) : List Uuid :=
  (ledger.answers.filter fun answer => answer.outcome = .claimed).map PreparationAnswer.approvalId

/-- One operation.  A completion that fails leaves the store as it is, and
everything else the engine does leaves the claims alone. -/
def step [Sha256] (ledger : PreparationLedger) : PreparationOp → Option PreparationLedger
  | .claim approvalId taskId actionDigest now =>
      let (store, outcome) := ledger.store.claimPreparation approvalId taskId actionDigest now
      some ⟨store, { approvalId, taskId, actionDigest, now, outcome } :: ledger.answers⟩
  | .complete approvalId result now =>
      match ledger.store.completePreparationClaim approvalId result now with
      | .ok store => some { ledger with store }
      | .error _ => some ledger
  | .approve approval => some { ledger with store := ledger.store.saveApproval approval }
  | .invalidate taskId now =>
      some { ledger with store := ledger.store.invalidateTaskApprovals taskId now }
  | .reopen now => some { ledger with store := ledger.store.reopen now }
  | .other next =>
      if next.preparationClaims = ledger.store.preparationClaims then
        some { ledger with store := next }
      else none

end PreparationLedger

theorem julianMillis_eq_some {instant : DateTime} {millis : Int}
    (hmillis : millis ∈ julianMillis instant) : millis = (instant + 500000) / 1000000 := by
  unfold julianMillis at hmillis
  dsimp only at hmillis
  split at hmillis
  · exact (Option.some.inj hmillis).symm
  · exact absurd hmillis nofun

theorem JulianBefore.lt {first second : DateTime} (hbefore : JulianBefore first second) :
    first < second := by
  obtain ⟨earlier, hearlier, later, hlater, hlt⟩ := hbefore
  rw [julianMillis_eq_some hearlier, julianMillis_eq_some hlater] at hlt
  by_contra hge
  have hsum : second + 500000 ≤ first + 500000 := Int.add_le_add_right (not_lt.mp hge) 500000
  exact absurd (Int.ediv_le_ediv (by decide) hsum) (not_le.mpr hlt)

namespace EventStore

/-- A stored approval for exactly this preparation, before its expiry. -/
def ValidPreparation (store : EventStore) (approvalId : Uuid) (taskId : TaskId)
    (actionDigest : String) (now : DateTime) : Prop :=
  ∃ row ∈ store.approvals.lookup approvalId, row.taskId = taskId ∧
    row.capability = .prepareWorktree ∧ row.actionDigest = actionDigest ∧
    row.invalidatedAt = none ∧ now < row.expiresAt

/-- No two claims of one task are open. -/
def OneOpenClaim (store : EventStore) : Prop :=
  ∀ first second claim other, store.preparationClaims.lookup first = some claim →
    store.preparationClaims.lookup second = some other → claim.taskId = other.taskId →
    claim.completedAt = none → other.completedAt = none → first = second

theorem preparationActive_iff {store : EventStore} {taskId : TaskId} :
    store.PreparationActive taskId ↔ ∃ id claim, store.preparationClaims.lookup id = some claim ∧
      claim.taskId = taskId ∧ claim.completedAt = none := by
  constructor
  · rintro ⟨⟨id, claim⟩, hentry, htask, hopen⟩
    exact ⟨id, claim, AList.mem_lookup_iff.mpr hentry, htask, hopen⟩
  · rintro ⟨id, claim, hlookup, htask, hopen⟩
    exact ⟨⟨id, claim⟩, AList.mem_lookup_iff.mp hlookup, htask, hopen⟩

/-- What the database takes for unexpired is unexpired. -/
theorem AdmitsPreparation.valid {store : EventStore} {approvalId : Uuid} {taskId : TaskId}
    {actionDigest : String} {now : DateTime}
    (hadmits : store.AdmitsPreparation approvalId taskId actionDigest now) :
    store.ValidPreparation approvalId taskId actionDigest now := by
  obtain ⟨row, hrow, htask, hcapability, hdigest, hinvalidated, hexpires⟩ := hadmits
  exact ⟨row, hrow, htask, hcapability, hdigest, hinvalidated, hexpires.lt⟩

/-! ## The four answers -/

section Answers

variable (store : EventStore) (approvalId : Uuid) (taskId : TaskId) (actionDigest : String)
variable (now : DateTime)

/-- The answer tells whether the approval was claimed, whether the database
takes it for valid, and whether the task has an open claim, in this order. -/
theorem claimPreparation_outcome :
    (store.claimPreparation approvalId taskId actionDigest now).2 =
      if store.preparationClaims.lookup approvalId ≠ none then .alreadyClaimed
      else if ¬ store.AdmitsPreparation approvalId taskId actionDigest now then
        .approvalUnavailable
      else if store.PreparationActive taskId then .taskInProgress
      else .claimed := by
  unfold claimPreparation
  dsimp only
  split_ifs <;> first | rfl | tauto

/-- Only a claim that succeeds writes. -/
theorem claimPreparation_store
    (houtcome : (store.claimPreparation approvalId taskId actionDigest now).2 ≠ .claimed) :
    (store.claimPreparation approvalId taskId actionDigest now).1 = store := by
  unfold claimPreparation at houtcome ⊢
  dsimp only at houtcome ⊢
  split_ifs at houtcome ⊢ <;> first | rfl | exact absurd rfl houtcome

end Answers

/-! ## What the operations do to the claims -/

section Claims

variable {store next : EventStore} {approvalId : Uuid} {result : String} {now : DateTime}

theorem completePreparationClaim_eq_ok
    (hcomplete : store.completePreparationClaim approvalId result now = .ok next) :
    ∃ claim, store.preparationClaims.lookup approvalId = some claim ∧
      next.preparationClaims = store.preparationClaims.insert approvalId
        { claim with result := some result, completedAt := some now } := by
  unfold completePreparationClaim at hcomplete
  simp only [bind_eq_ok, okOr_eq_ok, ensure_eq_ok, pure_eq_ok] at hcomplete
  obtain ⟨-, -, claim, hclaim, -, -, rfl⟩ := hcomplete
  exact ⟨claim, hclaim, rfl⟩

/-- After a restart no claim is open. -/
theorem reopen_completed {id : Uuid} {claim : PreparationClaim}
    (hclaim : (store.reopen now).preparationClaims.lookup id = some claim) :
    claim.completedAt ≠ none := by
  change (store.preparationClaims.mapRows _).lookup id = some claim at hclaim
  rw [AList.lookup_mapRows, Option.map_eq_some_iff] at hclaim
  obtain ⟨row, -, rfl⟩ := hclaim
  by_cases hopen : row.completedAt = none
  · rw [if_pos hopen]
    exact nofun
  · rwa [if_neg hopen]

theorem reopen_claimed (id : Uuid) :
    (store.reopen now).preparationClaims.lookup id = none ↔
      store.preparationClaims.lookup id = none := by
  change (store.preparationClaims.mapRows _).lookup id = none ↔ _
  rw [AList.lookup_mapRows, Option.map_eq_none_iff]

/-- The claims of a store are the same or completed in another. -/
theorem OneOpenClaim.of_completed (hone : store.OneOpenClaim)
    (hsame : ∀ id claim, next.preparationClaims.lookup id = some claim →
      claim.completedAt = none → store.preparationClaims.lookup id = some claim) :
    next.OneOpenClaim := by
  intro first second claim other hclaim hother htask hopen hotherOpen
  exact hone first second claim other (hsame first claim hclaim hopen)
    (hsame second other hother hotherOpen) htask hopen hotherOpen

/-- A task without an open claim may get one. -/
theorem OneOpenClaim.insert {taskId : TaskId} {claim : PreparationClaim}
    (hone : store.OneOpenClaim) (hidle : ¬ store.PreparationActive taskId)
    (htask : claim.taskId = taskId)
    (hnext : next.preparationClaims = store.preparationClaims.insert approvalId claim) :
    next.OneOpenClaim := by
  have hold : ∀ id row, id ≠ approvalId → next.preparationClaims.lookup id = some row →
      row.completedAt = none →
      store.preparationClaims.lookup id = some row ∧ row.taskId ≠ taskId := by
    intro id row hid hrow hopen
    rw [hnext, AList.lookup_insert_ne hid] at hrow
    refine ⟨hrow, fun hsame => hidle ?_⟩
    exact preparationActive_iff.2 ⟨id, row, hrow, hsame, hopen⟩
  have hnew : ∀ row, next.preparationClaims.lookup approvalId = some row → row = claim := by
    intro row hrow
    rw [hnext, AList.lookup_insert] at hrow
    exact (Option.some.inj hrow).symm
  intro first second row other hrow hother hsame hopen hotherOpen
  by_cases hfirst : first = approvalId
  · by_cases hsecond : second = approvalId
    · exact hfirst.trans hsecond.symm
    · subst hfirst
      rw [hnew row hrow, htask] at hsame
      exact absurd hsame.symm (hold second other hsecond hother hotherOpen).2
  · by_cases hsecond : second = approvalId
    · subst hsecond
      rw [hnew other hother, htask] at hsame
      exact absurd hsame (hold first row hfirst hrow hopen).2
    · exact hone first second row other (hold first row hfirst hrow hopen).1
        (hold second other hsecond hother hotherOpen).1 hsame hopen hotherOpen

end Claims

end EventStore

namespace PreparationLedger

open EventStore

/-- The rows are the claims that succeeded, each approval was claimed once, and
no task has two open claims. -/
structure Exclusive (ledger : PreparationLedger) : Prop where
  rows : ∀ id, id ∈ ledger.claimedIds ↔ ledger.store.preparationClaims.lookup id ≠ none
  once : ledger.claimedIds.Nodup
  active : ledger.store.OneOpenClaim

/-- An answer says what the ledger before it holds. -/
structure Answers (ledger : PreparationLedger) (answer : PreparationAnswer) : Prop where
  claimed : answer.outcome = .claimed → ledger.store.ValidPreparation answer.approvalId
    answer.taskId answer.actionDigest answer.now
  alreadyClaimed : answer.outcome = .alreadyClaimed ↔ answer.approvalId ∈ ledger.claimedIds
  approvalUnavailable : answer.outcome = .approvalUnavailable ↔
    answer.approvalId ∉ ledger.claimedIds ∧ ¬ ledger.store.AdmitsPreparation answer.approvalId
      answer.taskId answer.actionDigest answer.now
  taskInProgress : answer.outcome = .taskInProgress ↔
    answer.approvalId ∉ ledger.claimedIds ∧ ledger.store.AdmitsPreparation answer.approvalId
      answer.taskId answer.actionDigest answer.now ∧
    ∃ other claim, other ≠ answer.approvalId ∧
      ledger.store.preparationClaims.lookup other = some claim ∧
      claim.taskId = answer.taskId ∧ claim.completedAt = none

/-- The answer of the store to a claim. -/
def answer (ledger : PreparationLedger) (approvalId : Uuid) (taskId : TaskId)
    (actionDigest : String) (now : DateTime) : PreparationAnswer where
  approvalId := approvalId
  taskId := taskId
  actionDigest := actionDigest
  now := now
  outcome := (ledger.store.claimPreparation approvalId taskId actionDigest now).2

section Steps

variable {ledger next : PreparationLedger}

theorem claimedIds_answer (store : EventStore) (approvalId : Uuid) (taskId : TaskId)
    (actionDigest : String) (now : DateTime) :
    claimedIds ⟨store, ledger.answer approvalId taskId actionDigest now :: ledger.answers⟩ =
      if (ledger.answer approvalId taskId actionDigest now).outcome = .claimed then
        approvalId :: ledger.claimedIds
      else ledger.claimedIds := by
  unfold claimedIds
  rw [List.filter_cons]
  by_cases hclaimed : (ledger.answer approvalId taskId actionDigest now).outcome = .claimed
  · rw [if_pos hclaimed, if_pos (decide_eq_true hclaimed)]
    rfl
  · rw [if_neg hclaimed, if_neg (by simpa using hclaimed)]

/-- Where no claim was made and no completed one was opened again, the ledger
stays exclusive. -/
theorem Exclusive.of_completed {store : EventStore} (hledger : ledger.Exclusive)
    (hrows : ∀ id, store.preparationClaims.lookup id = none ↔
      ledger.store.preparationClaims.lookup id = none)
    (hopen : ∀ id claim, store.preparationClaims.lookup id = some claim →
      claim.completedAt = none → ledger.store.preparationClaims.lookup id = some claim) :
    Exclusive { ledger with store } where
  rows id := (hledger.rows id).trans (not_congr (hrows id)).symm
  once := hledger.once
  active := hledger.active.of_completed hopen

/-- A claim that succeeds is the first of its approval. -/
theorem Exclusive.claim (hledger : ledger.Exclusive) (approvalId : Uuid) (taskId : TaskId)
    (actionDigest : String) (now : DateTime) :
    Exclusive ⟨(ledger.store.claimPreparation approvalId taskId actionDigest now).1,
      ledger.answer approvalId taskId actionDigest now :: ledger.answers⟩ := by
  by_cases hclaimed : (ledger.answer approvalId taskId actionDigest now).outcome = .claimed
  · obtain ⟨hfresh, hidle, hnext⟩ := claimPreparation_eq_claimed
      (Prod.ext rfl hclaimed : ledger.store.claimPreparation approvalId taskId actionDigest now =
        ((ledger.store.claimPreparation approvalId taskId actionDigest now).1, .claimed))
    have hclaims : (ledger.store.claimPreparation approvalId taskId actionDigest now).1.preparationClaims
        = ledger.store.preparationClaims.insert approvalId {
          taskId, actionDigest, claimedAt := now, result := none, completedAt := none } := by
      rw [hnext]
    have hnew : approvalId ∉ ledger.claimedIds := by
      rw [hledger.rows]
      exact not_not.mpr hfresh
    refine ⟨fun id => ?_, ?_, hledger.active.insert hidle rfl hclaims⟩
    · rw [claimedIds_answer, if_pos hclaimed, List.mem_cons, hclaims, Ne,
        AList.lookup_insert_eq_none, hledger.rows]
      tauto
    · rw [claimedIds_answer, if_pos hclaimed, List.nodup_cons]
      exact ⟨hnew, hledger.once⟩
  · rw [claimPreparation_store _ _ _ _ _ hclaimed]
    refine ⟨fun id => ?_, ?_, hledger.active⟩
    · rw [claimedIds_answer, if_neg hclaimed]
      exact hledger.rows id
    · rw [claimedIds_answer, if_neg hclaimed]
      exact hledger.once

theorem Exclusive.complete (hledger : ledger.Exclusive) {store : EventStore} {approvalId : Uuid}
    {result : String} {now : DateTime}
    (hcomplete : ledger.store.completePreparationClaim approvalId result now = .ok store) :
    Exclusive { ledger with store } := by
  obtain ⟨claim, hclaim, hclaims⟩ := completePreparationClaim_eq_ok hcomplete
  apply hledger.of_completed
  · intro id
    rw [hclaims, AList.lookup_insert_eq_none]
    constructor
    · exact And.right
    · intro hnone
      refine ⟨?_, hnone⟩
      rintro rfl
      exact absurd (hclaim.symm.trans hnone) nofun
  · intro id row hrow hopen
    rw [hclaims, AList.lookup_insert_eq] at hrow
    split at hrow
    · cases hrow
      exact absurd hopen nofun
    · exact hrow

theorem Exclusive.step [Sha256] (hledger : ledger.Exclusive) {op : PreparationOp}
    (hstep : ledger.step op = some next) : next.Exclusive := by
  cases op with
  | claim approvalId taskId actionDigest now =>
      cases hstep
      exact hledger.claim approvalId taskId actionDigest now
  | complete approvalId result now =>
      rw [PreparationLedger.step] at hstep
      split at hstep
      · next hcomplete =>
          cases hstep
          exact hledger.complete hcomplete
      · cases hstep
        exact hledger
  | approve approval =>
      cases hstep
      exact hledger.of_completed (fun _ => Iff.rfl) fun _ _ hrow _ => hrow
  | invalidate taskId now =>
      cases hstep
      exact hledger.of_completed (fun _ => Iff.rfl) fun _ _ hrow _ => hrow
  | reopen now =>
      cases hstep
      apply hledger.of_completed
      · exact reopen_claimed
      · intro id claim hclaim hopen
        exact absurd hopen (reopen_completed hclaim)
  | other store =>
      rw [PreparationLedger.step] at hstep
      split at hstep
      · next hsame =>
          cases hstep
          apply hledger.of_completed
          · intro id
            rw [hsame]
          · intro id claim hclaim _
            rwa [hsame] at hclaim
      · exact absurd hstep nofun

/-- Every answer to a claim is the one that the ledger calls for. -/
theorem Exclusive.answers (hledger : ledger.Exclusive) (approvalId : Uuid) (taskId : TaskId)
    (actionDigest : String) (now : DateTime) :
    ledger.Answers (ledger.answer approvalId taskId actionDigest now) := by
  have houtcome := claimPreparation_outcome ledger.store approvalId taskId actionDigest now
  have hactive : ledger.store.preparationClaims.lookup approvalId = none →
      (ledger.store.PreparationActive taskId ↔ ∃ other claim, other ≠ approvalId ∧
        ledger.store.preparationClaims.lookup other = some claim ∧
        claim.taskId = taskId ∧ claim.completedAt = none) := by
    intro hfresh
    rw [preparationActive_iff]
    constructor
    · rintro ⟨other, claim, hclaim, htask, hopen⟩
      refine ⟨other, claim, ?_, hclaim, htask, hopen⟩
      rintro rfl
      exact absurd (hfresh.symm.trans hclaim) nofun
    · rintro ⟨other, claim, -, hclaim, htask, hopen⟩
      exact ⟨other, claim, hclaim, htask, hopen⟩
  have hrows := hledger.rows approvalId
  constructor
  all_goals
    simp only [answer]
    rw [houtcome]
  · intro hclaimed
    split_ifs at hclaimed with hrow hadmits hidle
    exact hadmits.valid
  · rw [hrows]
    split_ifs with hrow hadmits hidle
    · exact iff_of_true rfl hrow
    all_goals exact iff_of_false nofun hrow
  · rw [hrows]
    split_ifs with hrow hadmits hidle
    · exact iff_of_false nofun fun hfresh => hfresh.1 hrow
    · exact iff_of_false nofun fun hfresh => hfresh.2 hadmits
    · exact iff_of_false nofun fun hfresh => hfresh.2 hadmits
    · exact iff_of_true rfl ⟨hrow, hadmits⟩
  · rw [hrows]
    split_ifs with hrow hadmits hidle
    · exact iff_of_false nofun fun hfresh => hfresh.1 hrow
    · exact iff_of_true rfl ⟨hrow, hadmits, (hactive (not_not.mp hrow)).mp hidle⟩
    · exact iff_of_false nofun fun hbusy =>
        hidle ((hactive (not_not.mp hrow)).mpr hbusy.2.2)
    · exact iff_of_false nofun fun hfresh => hadmits hfresh.2.1

end Steps

end PreparationLedger

open PreparationLedger

namespace Sample.Preparation

def preparationFingerprint : ActionFingerprint where
  taskId := taskId
  githubRepositoryId := 42
  repositoryFullName := "octo/demo"
  actionKind := "prepareWorktree"
  pullRequestNumber := none
  branch := some (preparedBranch taskId)
  headSha := some headSha
  baseSha := none
  payloadSha256 := String.ofList (List.replicate 64 'f')
  policySha256 := "d2d6bc6619b62f934225512cbff1ba4ace2069a846955f2f1ed0f82b651d5b7e"
  instructionSha256 := "4f53cda18c2baa0c0354bb5f9a3ecbe5ed12ab4d8e11ba873c2f11161202b945"
  invalidationGeneration := 1

/-- SHA-256 on the fingerprint of the sample. -/
scoped instance fingerprintSha256 : Sha256 where
  digest text :=
    if text.utf8ByteSize = 569 then
      0x5e7d4b8b35e19b45d8893282122cb9360ef5610f54be1f84f20c03351d356ffc
    else 0

def approval (id : Uuid) : Approval where
  id := id
  cls := .preparation
  capability := .prepareWorktree
  fingerprint := preparationFingerprint
  approvedBy := "operator"
  approvedAt := 0
  expiresAt := minutes 10

def claim (id : Uuid) (now : DateTime) : PreparationOp :=
  .claim id taskId preparationFingerprint.digestSha256 now

/-- Two approvals of one preparation, of which one waits for the other. -/
def ops : List PreparationOp := [.approve (approval ⟨31⟩), .approve (approval ⟨32⟩),
  claim ⟨31⟩ 1, claim ⟨31⟩ 2, claim ⟨32⟩ 3, .complete ⟨31⟩ "succeeded" 4, claim ⟨32⟩ 5, .reopen 6,
  claim ⟨32⟩ 7]

end Sample.Preparation

open Sample.Preparation

end Patchwright
