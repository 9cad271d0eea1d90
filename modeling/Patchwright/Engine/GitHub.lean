import Patchwright.Core.Text
import Patchwright.Library.Table

/-!
# GitHub snapshots

The rows a snapshot of one repository is made of, and the three summaries that
are folded from them: the time of the latest review, the review decision and
the health of the checks.  Instants stay texts here, as GitHub reports them,
and are compared as texts.
-/

namespace Patchwright

structure GitHubRepository where
  id : Nat
  fullName : String
  defaultBranch : String
  installationId : Option Nat
  defaultBranchSha : Option String
  defaultBranchCommittedAt : Option String
  openPullRequestCount : Nat
  failingCheckCount : Nat
  deriving DecidableEq, Repr

inductive WorkItemKind where
  | issue
  | pullRequest
  deriving DecidableEq, Repr

structure GitHubWorkItem where
  id : Nat
  repositoryFullName : String
  number : Nat
  kind : WorkItemKind
  title : String
  state : String
  stateReason : Option String
  htmlUrl : String
  draft : Bool
  baseRef : Option String
  baseSha : Option String
  headRef : Option String
  headSha : Option String
  merged : Option Bool
  mergeCommitSha : Option String
  headCommittedAt : Option String
  latestReviewAt : Option String
  updatedAt : String
  reviewDecision : Option String
  ciHealth : Option String
  mergeable : Option Bool
  hasConflicts : Option Bool
  headRepositoryFullName : Option String
  headRepositoryFork : Bool
  maintainerCanModify : Bool
  labels : List String
  deriving DecidableEq, Repr

structure GitHubDiscussion where
  id : Nat
  itemNumber : Nat
  kind : String
  author : String
  state : Option String
  updatedAt : Option String
  deriving DecidableEq, Repr

structure GitHubCheckRun where
  id : Nat
  itemNumber : Nat
  name : String
  status : String
  conclusion : Option String
  deriving DecidableEq, Repr

structure GitHubWorkflowRun where
  id : Nat
  status : Option String
  conclusion : Option String
  headSha : String
  deriving DecidableEq, Repr

structure GitHubRepositorySnapshot where
  repository : GitHubRepository
  workItems : List GitHubWorkItem
  discussions : List GitHubDiscussion
  checks : List GitHubCheckRun
  workflowRuns : List GitHubWorkflowRun
  deriving DecidableEq, Repr

/-- The work item a number names, the first of them in the snapshot. -/
def GitHubRepositorySnapshot.item? (snapshot : GitHubRepositorySnapshot) (number : Nat) :
    Option GitHubWorkItem :=
  snapshot.workItems.find? fun item => item.number = number

/-! ## Summaries of a pull request -/

/-- The later of two instants written as texts. -/
def laterText (latest : Option String) (instant : String) : Option String :=
  match latest with
  | some current => if instant < current then some current else some instant
  | none => some instant

def latestReviewAt (discussions : List GitHubDiscussion) : Option String :=
  let reviews := discussions.filter fun entry => "review".isPrefixOf entry.kind
  (reviews.filterMap GitHubDiscussion.updatedAt).foldl laterText none

/-- When a review was submitted, the empty text where GitHub does not say. -/
def GitHubDiscussion.submittedAt (entry : GitHubDiscussion) : String :=
  entry.updatedAt.getD ""

/-- Take one review into account: it replaces what its author said before,
unless that was submitted later. -/
def recordReview (latest : Table String (String × String)) (entry : GitHubDiscussion) :
    Table String (String × String) :=
  match entry.state with
  | none => latest
  | some state =>
      match latest.lookup entry.author with
      | some (current, _) =>
          if current ≤ entry.submittedAt then
            latest.insert entry.author (entry.submittedAt, state)
          else latest
      | none => latest.insert entry.author (entry.submittedAt, state)

/-- The state of the latest review of each reviewer. -/
def latestByReviewer (discussions : List GitHubDiscussion) : Table String (String × String) :=
  (discussions.filter fun entry => entry.kind = "review").foldl recordReview ∅

def lowercase (state : String) : String := String.ofList (toAsciiLowercase state.toList)

/-- A review state that asks for changes. -/
def requestsChanges (state : String) : Bool :=
  lowercase state = "changes_requested" || lowercase state = "changesrequested"

def reviewDecision (discussions : List GitHubDiscussion) : Option String :=
  let states := (latestByReviewer discussions).entries.map fun entry => entry.2.2
  if states.any requestsChanges then some "changesRequested"
  else if states.any fun state => lowercase state = "approved" then some "approved"
  else if states = [] then none
  else some "reviewRequired"

def isFailingConclusion (conclusion : Option String) : Bool :=
  conclusion ∈ [some "failure", some "timed_out", some "cancelled", some "action_required",
    some "startup_failure", some "stale"]

def isPassingConclusion (conclusion : Option String) : Bool :=
  conclusion ∈ [some "success", some "neutral", some "skipped"]

def ciHealth (checks : List GitHubCheckRun) : String :=
  if checks = [] then "unknown"
  else if checks.any fun check => check.status ≠ "completed" then "pending"
  else if checks.any fun check => isFailingConclusion check.conclusion then "failing"
  else if checks.all fun check => isPassingConclusion check.conclusion then "passing"
  else "unknown"

/-- The check run has completed and counts as passed. -/
def GitHubCheckRun.IsGreen (check : GitHubCheckRun) : Prop :=
  check.status = "completed" ∧ isPassingConclusion check.conclusion = true

instance (check : GitHubCheckRun) : Decidable check.IsGreen :=
  inferInstanceAs (Decidable (_ ∧ _))

theorem isFailingConclusion_of_isPassingConclusion {conclusion : Option String}
    (hpassing : isPassingConclusion conclusion = true) :
    isFailingConclusion conclusion = false := by
  rw [isPassingConclusion, decide_eq_true_iff] at hpassing
  simp only [List.mem_cons, List.not_mem_nil, or_false] at hpassing
  rcases hpassing with rfl | rfl | rfl <;> decide

/-- Checks pass when there are some and all of them are green. -/
theorem ciHealth_eq_passing {checks : List GitHubCheckRun} :
    ciHealth checks = "passing" ↔ checks ≠ [] ∧ ∀ check ∈ checks, check.IsGreen := by
  rw [ciHealth]
  by_cases hempty : checks = []
  · rw [if_pos hempty]
    exact iff_of_false (by decide) (fun hgreen => hgreen.1 hempty)
  rw [if_neg hempty]
  by_cases hpending : (checks.any fun check => decide (check.status ≠ "completed")) = true
  · rw [if_pos hpending]
    refine iff_of_false (by decide) (fun hgreen => ?_)
    rcases List.any_eq_true.mp hpending with ⟨check, hcheck, hstatus⟩
    exact of_decide_eq_true hstatus (hgreen.2 check hcheck).1
  rw [if_neg hpending]
  have hcompleted : ∀ check ∈ checks, check.status = "completed" := by
    intro check hcheck
    by_contra hstatus
    exact hpending (List.any_eq_true.mpr ⟨check, hcheck, decide_eq_true hstatus⟩)
  by_cases hfailing : (checks.any fun check => isFailingConclusion check.conclusion) = true
  · rw [if_pos hfailing]
    refine iff_of_false (by decide) (fun hgreen => ?_)
    rcases List.any_eq_true.mp hfailing with ⟨check, hcheck, hconclusion⟩
    rw [isFailingConclusion_of_isPassingConclusion (hgreen.2 check hcheck).2] at hconclusion
    exact absurd hconclusion nofun
  rw [if_neg hfailing]
  by_cases hpassing : (checks.all fun check => isPassingConclusion check.conclusion) = true
  · rw [if_pos hpassing]
    rw [List.all_eq_true] at hpassing
    exact iff_of_true rfl
      ⟨hempty, fun check hcheck => ⟨hcompleted check hcheck, hpassing check hcheck⟩⟩
  · rw [if_neg hpassing]
    refine iff_of_false (by decide) (fun hgreen => hpassing ?_)
    rw [List.all_eq_true]
    intro check hcheck
    exact (hgreen.2 check hcheck).2

/-- An approved pull request has no reviewer whose latest review asks for
changes. -/
theorem reviewDecision_eq_approved {discussions : List GitHubDiscussion}
    (happroved : reviewDecision discussions = some "approved") {author : String}
    {review : String × String} (hlatest : (latestByReviewer discussions).lookup author = some review) :
    requestsChanges review.2 = false := by
  rw [reviewDecision] at happroved
  split at happroved
  · exact absurd (Option.some.inj happroved) (by decide)
  · next hnone =>
      rw [Bool.not_eq_true, List.any_eq_false] at hnone
      have hmem : review.2 ∈ (latestByReviewer discussions).entries.map fun entry => entry.2.2 :=
        List.mem_map.mpr ⟨⟨author, review⟩, AList.mem_lookup_iff.mp hlatest, rfl⟩
      exact Bool.eq_false_iff.mpr (hnone review.2 hmem)

end Patchwright
