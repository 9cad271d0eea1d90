import Patchwright.Engine.GitHub
import Patchwright.Relay.Mutations

/-!
# Reading a repository from GitHub

A snapshot of one repository: its issues and pull requests, what was said on
them, the check runs of the pull request heads and the workflow runs.  Every
list comes in pages and is read up to a limit.  The lists of the single pull
requests share one budget, so each of them is read up to the share of a pull
request.
-/

namespace Patchwright

open Checked

def maxSnapshotResources : Nat := 100

/-- The limit of a top-level list, and the share of each pull request. -/
def boundedSnapshotLimits (requested pullCount : Nat) : Nat × Nat :=
  let global := min (max requested 1) maxSnapshotResources
  let perPull := max ((global + max pullCount 1 - 1) / max pullCount 1) 1
  (global, perPull)

example : boundedSnapshotLimits 1000 100 = (100, 1) ∧ boundedSnapshotLimits 100 4 = (100, 25) ∧
    boundedSnapshotLimits 10 3 = (10, 4) ∧ boundedSnapshotLimits 0 0 = (1, 1) := by decide

/-! ## Pages -/

/-- A page of a list, in the order in which the `next` links of the API origin
lead from one to the next. -/
structure Page (α : Type) where
  status : Nat
  body : Except String (List α)

/-- A page whose list is one field of an object. -/
structure FieldPage (α : Type) where
  status : Nat
  body : Except String (List (String × Except String (List α)))

def readPage {α : Type} (page : Page α) : Except String (List α) := do
  ensure (200 ≤ page.status ∧ page.status < 300)
    s!"GitHub API returned {page.status} {canonicalReason page.status}"
  page.body

/-- Read pages until there are no more or the limit is reached. -/
def paginatedFrom {α : Type} (limit : Nat) : List α → List (Page α) → Except String (List α)
  | values, [] => .ok values
  | values, page :: pages => do
      let new ← readPage page
      if (values ++ new).length ≥ limit then return (values ++ new).take limit
      paginatedFrom limit (values ++ new) pages

def paginated {α : Type} (limit : Nat) (pages : List (Page α)) : Except String (List α) :=
  paginatedFrom limit [] pages

def FieldPage.page {α : Type} (field : String) (page : FieldPage α) : Page α where
  status := page.status
  body := do
    let object ← page.body
    let values ← okOr s!"GitHub response omitted {field}" (object.lookup field)
    values

def paginatedField {α : Type} (field : String) (limit : Nat) (pages : List (FieldPage α)) :
    Except String (List α) :=
  paginated limit (pages.map (FieldPage.page field))

/-- What the pages hold altogether. -/
def contents {α : Type} (pages : List (Page α)) : List α :=
  pages.flatMap fun page => (readPage page).toOption.getD []

/-! ## Records of the API -/

structure WireItem where
  id : Nat
  number : Nat
  title : String
  state : String
  stateReason : Option String
  htmlUrl : String
  draft : Bool
  updatedAt : String
  isPullRequest : Bool
  labels : List String
  deriving DecidableEq, Repr

structure WireRepository where
  fullName : String
  fork : Bool
  deriving DecidableEq, Repr

structure WirePull where
  id : Nat
  number : Nat
  title : String
  state : String
  stateReason : Option String
  htmlUrl : String
  draft : Bool
  updatedAt : String
  labels : List String
  headRef : String
  headSha : String
  headRepository : Option WireRepository
  baseRef : String
  baseSha : String
  maintainerCanModify : Bool
  merged : Option Bool
  mergeCommitSha : Option String
  mergeable : Option Bool
  mergeableState : Option String
  deriving DecidableEq, Repr

structure WireCommit where
  sha : String
  committerDate : String
  deriving DecidableEq, Repr

structure WireComment where
  id : Nat
  user : String
  issueUrl : String
  updatedAt : Option String
  deriving DecidableEq, Repr

structure WireReviewComment where
  id : Nat
  user : String
  pullRequestUrl : String
  updatedAt : Option String
  deriving DecidableEq, Repr

structure WireReview where
  id : Nat
  user : String
  state : String
  submittedAt : Option String
  deriving DecidableEq, Repr

structure WireCheckRun where
  id : Nat
  name : String
  status : String
  conclusion : Option String
  deriving DecidableEq, Repr

structure WireThreadComment where
  databaseId : Option Nat
  author : Option String
  updatedAt : Option String
  deriving DecidableEq, Repr

/-- A review thread with its first comment. -/
structure WireThread where
  isResolved : Option Bool
  firstComment : Option WireThreadComment
  deriving DecidableEq, Repr

/-- A reply to the query for review threads. -/
structure ThreadPage where
  errors : Bool
  nodes : Except String (List WireThread)
  hasNextPage : Option Bool
  endCursor : Option String

structure EnrichedPull where
  pull : WirePull
  headCommittedAt : Option String
  deriving DecidableEq, Repr

/-- The number at the end of a resource URL. -/
def trailingNumber (url : String) : Option Nat := do
  let digits := (url.toList.reverse.takeWhile (· ≠ '/')).reverse
  let digits := if digits.head? = some '+' then digits.tail else digits
  if digits ≠ [] ∧ digits.all Char.isDigit then
    let number := digits.foldl (fun number digit => 10 * number + (digit.toNat - 48)) 0
    if number < 2 ^ 64 then some number else none
  else none

def WireItem.intoItem (item : WireItem) (repository : String) (kind : WorkItemKind) :
    GitHubWorkItem where
  id := item.id
  repositoryFullName := repository
  number := item.number
  kind := kind
  title := item.title
  state := item.state
  stateReason := item.stateReason
  htmlUrl := item.htmlUrl
  draft := item.draft
  baseRef := none
  baseSha := none
  headRef := none
  headSha := none
  merged := none
  mergeCommitSha := none
  headCommittedAt := none
  latestReviewAt := none
  updatedAt := item.updatedAt
  reviewDecision := none
  ciHealth := none
  mergeable := none
  hasConflicts := none
  headRepositoryFullName := none
  headRepositoryFork := false
  maintainerCanModify := false
  labels := item.labels

def EnrichedPull.intoItem (enriched : EnrichedPull) (repository : String)
    (latestReviewAt reviewDecision : Option String) (ciHealth : String) : GitHubWorkItem where
  id := enriched.pull.id
  repositoryFullName := repository
  number := enriched.pull.number
  kind := .pullRequest
  title := enriched.pull.title
  state := enriched.pull.state
  stateReason := enriched.pull.stateReason
  htmlUrl := enriched.pull.htmlUrl
  draft := enriched.pull.draft
  baseRef := some enriched.pull.baseRef
  baseSha := some enriched.pull.baseSha
  headRef := some enriched.pull.headRef
  headSha := some enriched.pull.headSha
  merged := enriched.pull.merged
  mergeCommitSha := enriched.pull.mergeCommitSha
  headCommittedAt := enriched.headCommittedAt
  latestReviewAt := latestReviewAt
  updatedAt := enriched.pull.updatedAt
  reviewDecision := reviewDecision
  ciHealth := some ciHealth
  mergeable := enriched.pull.mergeable
  hasConflicts := enriched.pull.mergeable.map fun mergeable =>
    !mergeable && enriched.pull.mergeableState = some "dirty"
  headRepositoryFullName := enriched.pull.headRepository.map WireRepository.fullName
  headRepositoryFork := enriched.pull.headRepository.any WireRepository.fork
  maintainerCanModify := enriched.pull.maintainerCanModify
  labels := enriched.pull.labels

def WireComment.intoDiscussion (kind : String) (comment : WireComment) :
    Option GitHubDiscussion := do
  let itemNumber ← trailingNumber comment.issueUrl
  return ⟨comment.id, itemNumber, kind, comment.user, none, comment.updatedAt⟩

def WireReviewComment.intoDiscussion (comment : WireReviewComment) :
    Option GitHubDiscussion := do
  let itemNumber ← trailingNumber comment.pullRequestUrl
  return ⟨comment.id, itemNumber, "reviewComment", comment.user, none, comment.updatedAt⟩

def WireReview.intoDiscussion (number : Nat) (review : WireReview) : GitHubDiscussion :=
  ⟨review.id, number, "review", review.user, some review.state, review.submittedAt⟩

def WireCheckRun.intoCheckRun (number : Nat) (run : WireCheckRun) : GitHubCheckRun :=
  ⟨run.id, number, run.name, run.status, run.conclusion⟩

def WireThread.intoDiscussion (number : Nat) (thread : WireThread) : Option GitHubDiscussion := do
  let comment ← thread.firstComment
  let id ← comment.databaseId
  let state := if thread.isResolved = some true then "resolved" else "unresolved"
  return ⟨id, number, "reviewThread", comment.author.getD "ghost", some state, comment.updatedAt⟩

/-! ## The server -/

/-- The answers of the API to the reads of one repository. -/
structure GitHubAnswers where
  issues : List (Page WireItem)
  pulls : List (Page WirePull)
  commit : String → Except String WireCommit
  pull : Nat → Except String WirePull
  issueComments : List (Page WireComment)
  reviewComments : List (Page WireReviewComment)
  reviews : Nat → List (Page WireReview)
  reviewThreads : Nat → List ThreadPage
  checkRuns : String → List (FieldPage WireCheckRun)
  workflowRuns : List (FieldPage GitHubWorkflowRun)

/-- A repository as the API serves it while nothing changes.  A pull request is
served under its own number, and no two of the list share one. -/
structure GitHubServer extends GitHubAnswers where
  pull_number : ∀ number detail, pull number = .ok detail → detail.number = number
  pulls_nodup : ((contents pulls).map WirePull.number).Nodup

instance : Coe GitHubServer GitHubAnswers where
  coe := GitHubServer.toGitHubAnswers

/-- The orders in which the concurrent reads of the single pull requests
finish. -/
structure Completion where
  reviews : List EnrichedPull → List EnrichedPull
  threads : List EnrichedPull → List EnrichedPull
  checks : List EnrichedPull → List EnrichedPull
  reviews_perm : ∀ pulls, (reviews pulls).Perm pulls
  threads_perm : ∀ pulls, (threads pulls).Perm pulls
  checks_perm : ∀ pulls, (checks pulls).Perm pulls

/-! ## The snapshot -/

section Snapshot

variable (server : GitHubAnswers) (completion : Completion)

def enrichPull (row : WirePull) : Except String EnrichedPull := do
  let detail ← server.pull row.number
  let commit ← server.commit detail.headSha
  return ⟨detail, some commit.committerDate⟩

/-- The pull requests in detail, by number whatever order they arrive in. -/
def enrichPulls (rows : List WirePull) : Except String (List EnrichedPull) := do
  let enriched ← rows.mapM (enrichPull server)
  return enriched.mergeSort fun first second => first.pull.number ≤ second.pull.number

/-- The threads of a page on top of those found before; `true` where the limit
was reached. -/
def pushThreads (number limit : Nat) :
    List WireThread → List GitHubDiscussion → List GitHubDiscussion × Bool
  | [], found => (found, false)
  | thread :: threads, found =>
      match thread.intoDiscussion number with
      | none => pushThreads number limit threads found
      | some discussion =>
          if found.length + 1 ≥ limit then (found ++ [discussion], true)
          else pushThreads number limit threads (found ++ [discussion])

def reviewThreadsForPull (number limit : Nat) :
    List ThreadPage → List GitHubDiscussion → Except String (List GitHubDiscussion)
  | [], _ => .error "GitHub GraphQL request failed"
  | page :: pages, found => do
      ensure (¬ page.errors) "GitHub GraphQL review thread query failed"
      let nodes ← page.nodes
      let pushed := pushThreads number limit nodes found
      if pushed.2 then return pushed.1
      if page.hasNextPage ≠ some true then return pushed.1
      ensure page.endCursor.isSome "GitHub review thread pagination cursor was missing"
      reviewThreadsForPull number limit pages pushed.1

def reviewThreads (pulls : List EnrichedPull) (limit : Nat) :
    Except String (List GitHubDiscussion) := do
  let openPulls := pulls.filter fun enriched => enriched.pull.state = "open"
  let threads ← (completion.threads openPulls).mapM fun enriched =>
    reviewThreadsForPull enriched.pull.number limit
      (server.reviewThreads enriched.pull.number) []
  return threads.flatten

/-- The reviews of one pull request, up to its share. -/
def reviewsOf (limit : Nat) (enriched : EnrichedPull) : Except String (List GitHubDiscussion) := do
  let reviews ← paginated limit (server.reviews enriched.pull.number)
  return reviews.map (WireReview.intoDiscussion enriched.pull.number)

def discussions (pulls : List EnrichedPull) (resourceLimit perPullLimit : Nat) :
    Except String (List GitHubDiscussion) := do
  let issueComments ← paginated resourceLimit server.issueComments
  let reviewComments ← paginated resourceLimit server.reviewComments
  let reviews ← (completion.reviews pulls).mapM (reviewsOf server perPullLimit)
  let threads ← reviewThreads server completion pulls perPullLimit
  return issueComments.filterMap (WireComment.intoDiscussion "issueComment") ++
    reviewComments.filterMap WireReviewComment.intoDiscussion ++ reviews.flatten ++ threads

/-- The check runs of the head of one pull request, up to its share. -/
def checkRunsOf (limit : Nat) (enriched : EnrichedPull) : Except String (List GitHubCheckRun) := do
  let runs ← paginatedField "check_runs" limit (server.checkRuns enriched.pull.headSha)
  return runs.map (WireCheckRun.intoCheckRun enriched.pull.number)

def checks (pulls : List EnrichedPull) (limit : Nat) : Except String (List GitHubCheckRun) := do
  let runs ← (completion.checks pulls).mapM (checkRunsOf server limit)
  return runs.flatten

/-- The row of a pull request with what is folded from its reviews and checks. -/
def pullItem (repository : String) (discussions : List GitHubDiscussion)
    (checks : List GitHubCheckRun) (enriched : EnrichedPull) : GitHubWorkItem :=
  let itemDiscussions := discussions.filter fun entry => entry.itemNumber = enriched.pull.number
  let itemChecks := checks.filter fun entry => entry.itemNumber = enriched.pull.number
  enriched.intoItem repository (latestReviewAt itemDiscussions) (reviewDecision itemDiscussions)
    (ciHealth itemChecks)

def repositorySnapshot (repository : GitHubRepository) (requested : Nat) :
    Except String GitHubRepositorySnapshot := do
  let resourceLimit := (boundedSnapshotLimits requested 0).1
  ensure (splitOnce repository.fullName '/').isSome "repository full name lacks owner"
  let issueRows ← paginated resourceLimit server.issues
  let pullRows ← paginated resourceLimit server.pulls
  let defaultBranchCommit ← server.commit repository.defaultBranch
  let pulls ← enrichPulls server pullRows
  let perPullLimit := (boundedSnapshotLimits resourceLimit pulls.length).2
  let discussions ← discussions server completion pulls resourceLimit perPullLimit
  let checks ← checks server completion pulls perPullLimit
  let issues := (issueRows.filter fun item => !item.isPullRequest).map fun item =>
    item.intoItem repository.fullName .issue
  let workflowRuns ← paginatedField "workflow_runs" resourceLimit server.workflowRuns
  let openPulls := pulls.filter fun enriched => enriched.pull.state = "open"
  let openNumbers := openPulls.map fun enriched => enriched.pull.number
  return {
    repository := { repository with
      defaultBranchSha := some defaultBranchCommit.sha
      defaultBranchCommittedAt := some defaultBranchCommit.committerDate
      openPullRequestCount := openPulls.length
      failingCheckCount := (checks.filter fun check =>
        check.itemNumber ∈ openNumbers ∧ isFailingConclusion check.conclusion).length }
    workItems := issues ++ pulls.map (pullItem repository.fullName discussions checks)
    discussions, checks, workflowRuns }

end Snapshot

end Patchwright
