import Mathlib
import Patchwright.Core.Identity
import Patchwright.Library.Sorting

/-!
# Sorting repositories and pull requests

Records are sorted by a chosen key in a chosen direction.  Those without a value
for the key come last in both directions, and ties are broken upwards by name or
number and by identifier.
-/

namespace Patchwright.Sorting

inductive SortDirection where
  | ascending
  | descending
  deriving DecidableEq, Repr

def applyDirection (ordering : Ordering) : SortDirection → Ordering
  | .ascending => ordering
  | .descending => ordering.swap

def compareValue {α : Type} [Ord α] (left right : α) (direction : SortDirection) : Ordering :=
  applyDirection (compare left right) direction

def compareOptional {α : Type} [Ord α] (left right : Option α) (direction : SortDirection) :
    Ordering :=
  match left, right with
  | some left, some right => applyDirection (compare left right) direction
  | some _, none => .lt
  | none, some _ => .gt
  | none, none => .eq

/-- An addition that stops at the largest value. -/
def saturatingAdd (left right : UInt64) : UInt64 :=
  if left.toNat + right.toNat < UInt64.size then left + right else UInt64.ofNat (UInt64.size - 1)

/-! ### The comparisons are total -/

section Comparisons

variable {α : Type} [Ord α] [Std.TransOrd α]

theorem compareValue_transCmp (direction : SortDirection) :
    Std.TransCmp fun left right : α => compareValue left right direction := by
  cases direction with
  | ascending => exact inferInstanceAs (Std.TransCmp (compare : α → α → Ordering))
  | descending =>
      have hopposite : (fun left right : α => compareValue left right .descending) =
          fun left right => compare right left := by
        funext left right
        exact Std.OrientedCmp.eq_swap.symm
      rw [hopposite]
      infer_instance

theorem compareOptional_transCmp (direction : SortDirection) :
    Std.TransCmp fun left right : Option α => compareOptional left right direction := by
  have hvalue : Std.TransCmp fun left right : α => compareValue left right direction :=
    compareValue_transCmp direction
  exact {
    eq_swap := by
      intro left right
      cases left <;> cases right
      case some.some left right => exact hvalue.eq_swap
      all_goals rfl
    isLE_trans := by
      intro first second third hfirst hsecond
      cases first <;> cases second <;> cases third
      case some.some.some first second third => exact hvalue.isLE_trans hfirst hsecond
      all_goals first | rfl | exact Bool.noConfusion hfirst | exact Bool.noConfusion hsecond }

end Comparisons

/-! ## Repositories -/

inductive RepositorySortKey where
  | queuePriority
  | recentlyUpdated
  | recentlyPushed
  | latestDefaultBranchCommit
  | openPullRequestCount
  | failingCheckCount
  | name
  deriving DecidableEq, Repr

structure RepositorySort where
  key : RepositorySortKey
  direction : SortDirection
  deriving DecidableEq, Repr

structure RepositoryQueueRecord where
  id : UInt64
  fullName : String
  queuePriority : Option Int64
  updatedAt : DateTime
  pushedAt : Option DateTime
  defaultBranchCommittedAt : Option DateTime
  openPullRequestCount : UInt64
  failingCheckCount : UInt64
  deriving DecidableEq

def repositoryPrimaryOrder (left right : RepositoryQueueRecord) (sort : RepositorySort) :
    Ordering :=
  match sort.key with
  | .queuePriority => compareOptional left.queuePriority right.queuePriority sort.direction
  | .recentlyUpdated => compareValue left.updatedAt right.updatedAt sort.direction
  | .recentlyPushed => compareOptional left.pushedAt right.pushedAt sort.direction
  | .latestDefaultBranchCommit =>
      compareOptional left.defaultBranchCommittedAt right.defaultBranchCommittedAt sort.direction
  | .openPullRequestCount =>
      compareValue left.openPullRequestCount right.openPullRequestCount sort.direction
  | .failingCheckCount =>
      compareValue left.failingCheckCount right.failingCheckCount sort.direction
  | .name => compareValue left.fullName right.fullName sort.direction

def repositoryOrder (sort : RepositorySort) (left right : RepositoryQueueRecord) : Ordering :=
  (repositoryPrimaryOrder left right sort).then <|
    (compare left.fullName right.fullName).then (compare left.id right.id)

def sortRepositories (records : List RepositoryQueueRecord) (sort : RepositorySort) :
    List RepositoryQueueRecord :=
  Sorting.sortBy (repositoryOrder sort) records

/-- The record has no value for the key. -/
def RepositoryQueueRecord.Missing (key : RepositorySortKey) (record : RepositoryQueueRecord) :
    Prop :=
  match key with
  | .queuePriority => record.queuePriority = none
  | .recentlyPushed => record.pushedAt = none
  | .latestDefaultBranchCommit => record.defaultBranchCommittedAt = none
  | _ => False

section Orders

/-- Records with a key are compared by it. -/
theorem compareValue_key {α β : Type} [Ord α] [Std.TransOrd α] (key : β → α)
    (direction : SortDirection) :
    Std.TransCmp fun left right => compareValue (key left) (key right) direction :=
  Sorting.transCmp_comap (compareValue_transCmp direction) key

theorem compareOptional_key {α β : Type} [Ord α] [Std.TransOrd α] (key : β → Option α)
    (direction : SortDirection) :
    Std.TransCmp fun left right => compareOptional (key left) (key right) direction :=
  Sorting.transCmp_comap (compareOptional_transCmp direction) key

theorem compareOptional_last {α : Type} [Ord α] {left right : Option α}
    (hleft : left = none) (hright : right ≠ none) (direction : SortDirection) :
    compareOptional left right direction = .gt := by
  obtain ⟨value, rfl⟩ := Option.ne_none_iff_exists'.mp hright
  rw [hleft, compareOptional]

end Orders

theorem repositoryPrimaryOrder_transCmp (sort : RepositorySort) :
    Std.TransCmp fun left right => repositoryPrimaryOrder left right sort := by
  obtain ⟨key, direction⟩ := sort
  cases key with
  | queuePriority => exact compareOptional_key RepositoryQueueRecord.queuePriority direction
  | recentlyUpdated => exact compareValue_key RepositoryQueueRecord.updatedAt direction
  | recentlyPushed => exact compareOptional_key RepositoryQueueRecord.pushedAt direction
  | latestDefaultBranchCommit =>
      exact compareOptional_key RepositoryQueueRecord.defaultBranchCommittedAt direction
  | openPullRequestCount =>
      exact compareValue_key RepositoryQueueRecord.openPullRequestCount direction
  | failingCheckCount =>
      exact compareValue_key RepositoryQueueRecord.failingCheckCount direction
  | name => exact compareValue_key RepositoryQueueRecord.fullName direction

instance (sort : RepositorySort) : Std.TransCmp (repositoryOrder sort) :=
  Sorting.transCmp_then (repositoryPrimaryOrder_transCmp sort) <|
    Sorting.transCmp_then
      (inferInstanceAs (Std.TransCmp (compareOn RepositoryQueueRecord.fullName)))
      (inferInstanceAs (Std.TransCmp (compareOn RepositoryQueueRecord.id)))

theorem id_eq_of_repositoryOrder {sort : RepositorySort} {left right : RepositoryQueueRecord}
    (horder : repositoryOrder sort left right = .eq) : left.id = right.id := by
  simp only [repositoryOrder, Ordering.then_eq_eq, Std.compare_eq_iff_eq] at horder
  exact horder.2.2

/-- A record without a value comes after one with a value, in both directions. -/
theorem repositoryOrder_missing {sort : RepositorySort} {left right : RepositoryQueueRecord}
    (hleft : left.Missing sort.key) (hright : ¬ right.Missing sort.key) :
    repositoryOrder sort left right = .gt := by
  have hprimary : repositoryPrimaryOrder left right sort = .gt := by
    obtain ⟨key, direction⟩ := sort
    cases key
    case queuePriority => exact compareOptional_last hleft hright direction
    case recentlyPushed => exact compareOptional_last hleft hright direction
    case latestDefaultBranchCommit => exact compareOptional_last hleft hright direction
    all_goals exact hleft.elim
  rw [repositoryOrder, hprimary]
  rfl

/-! ## Pull requests -/

inductive CiHealth where
  | failing
  | pending
  | passing
  | unknown
  deriving DecidableEq, Repr

def CiHealth.sortRank : CiHealth → Option Nat
  | failing => some 1
  | pending => some 2
  | passing => some 3
  | unknown => none

inductive ReviewState where
  | changesRequested
  | reviewRequired
  | dismissed
  | approved
  | unknown
  deriving DecidableEq, Repr

def ReviewState.sortRank : ReviewState → Option Nat
  | changesRequested => some 1
  | reviewRequired => some 2
  | dismissed => some 3
  | approved => some 4
  | unknown => none

inductive PullRequestSortKey where
  | queuePriority
  | recentlyUpdated
  | latestHeadCommit
  | latestReviewActivity
  | ciHealth
  | reviewState
  | createdNewest
  | createdOldest
  | changeSize
  | number
  deriving DecidableEq, Repr

structure PullRequestSort where
  key : PullRequestSortKey
  direction : SortDirection
  deriving DecidableEq, Repr

structure PullRequestQueueRecord where
  id : UInt64
  number : UInt64
  queuePriority : Option Int64
  updatedAt : DateTime
  headCommittedAt : Option DateTime
  latestReviewAt : Option DateTime
  ciHealth : Option CiHealth
  reviewState : Option ReviewState
  createdAt : DateTime
  additions : UInt64
  deletions : UInt64
  deriving DecidableEq

def pullRequestPrimaryOrder (left right : PullRequestQueueRecord) (sort : PullRequestSort) :
    Ordering :=
  match sort.key with
  | .queuePriority => compareOptional left.queuePriority right.queuePriority sort.direction
  | .recentlyUpdated => compareValue left.updatedAt right.updatedAt sort.direction
  | .latestHeadCommit =>
      compareOptional left.headCommittedAt right.headCommittedAt sort.direction
  | .latestReviewActivity =>
      compareOptional left.latestReviewAt right.latestReviewAt sort.direction
  | .ciHealth =>
      compareOptional (left.ciHealth.bind CiHealth.sortRank)
        (right.ciHealth.bind CiHealth.sortRank) sort.direction
  | .reviewState =>
      compareOptional (left.reviewState.bind ReviewState.sortRank)
        (right.reviewState.bind ReviewState.sortRank) sort.direction
  | .createdNewest => compareValue left.createdAt right.createdAt sort.direction
  | .createdOldest => compareValue right.createdAt left.createdAt sort.direction
  | .changeSize =>
      compareValue (saturatingAdd left.additions left.deletions)
        (saturatingAdd right.additions right.deletions) sort.direction
  | .number => compareValue left.number right.number sort.direction

def pullRequestOrder (sort : PullRequestSort) (left right : PullRequestQueueRecord) : Ordering :=
  (pullRequestPrimaryOrder left right sort).then <|
    (compare left.number right.number).then (compare left.id right.id)

def sortPullRequests (records : List PullRequestQueueRecord) (sort : PullRequestSort) :
    List PullRequestQueueRecord :=
  Sorting.sortBy (pullRequestOrder sort) records

/-- The record has no value for the key; an unknown state counts as none. -/
def PullRequestQueueRecord.Missing (key : PullRequestSortKey) (record : PullRequestQueueRecord) :
    Prop :=
  match key with
  | .queuePriority => record.queuePriority = none
  | .latestHeadCommit => record.headCommittedAt = none
  | .latestReviewActivity => record.latestReviewAt = none
  | .ciHealth => record.ciHealth = none ∨ record.ciHealth = some .unknown
  | .reviewState => record.reviewState = none ∨ record.reviewState = some .unknown
  | _ => False

theorem pullRequestPrimaryOrder_transCmp (sort : PullRequestSort) :
    Std.TransCmp fun left right => pullRequestPrimaryOrder left right sort := by
  obtain ⟨key, direction⟩ := sort
  cases key with
  | queuePriority => exact compareOptional_key PullRequestQueueRecord.queuePriority direction
  | recentlyUpdated => exact compareValue_key PullRequestQueueRecord.updatedAt direction
  | latestHeadCommit =>
      exact compareOptional_key PullRequestQueueRecord.headCommittedAt direction
  | latestReviewActivity =>
      exact compareOptional_key PullRequestQueueRecord.latestReviewAt direction
  | ciHealth =>
      exact compareOptional_key
        (fun record : PullRequestQueueRecord => record.ciHealth.bind CiHealth.sortRank) direction
  | reviewState =>
      exact compareOptional_key
        (fun record : PullRequestQueueRecord => record.reviewState.bind ReviewState.sortRank)
        direction
  | createdNewest => exact compareValue_key PullRequestQueueRecord.createdAt direction
  | createdOldest =>
      have hnewest := compareValue_key PullRequestQueueRecord.createdAt direction
      exact inferInstanceAs (Std.TransCmp fun left right : PullRequestQueueRecord =>
        compareValue right.createdAt left.createdAt direction)
  | changeSize =>
      exact compareValue_key (fun record : PullRequestQueueRecord =>
        saturatingAdd record.additions record.deletions) direction
  | number => exact compareValue_key PullRequestQueueRecord.number direction

instance (sort : PullRequestSort) : Std.TransCmp (pullRequestOrder sort) :=
  Sorting.transCmp_then (pullRequestPrimaryOrder_transCmp sort) <|
    Sorting.transCmp_then
      (inferInstanceAs (Std.TransCmp (compareOn PullRequestQueueRecord.number)))
      (inferInstanceAs (Std.TransCmp (compareOn PullRequestQueueRecord.id)))

theorem id_eq_of_pullRequestOrder {sort : PullRequestSort} {left right : PullRequestQueueRecord}
    (horder : pullRequestOrder sort left right = .eq) : left.id = right.id := by
  simp only [pullRequestOrder, Ordering.then_eq_eq, Std.compare_eq_iff_eq] at horder
  exact horder.2.2

theorem CiHealth.bind_sortRank {health : Option CiHealth} :
    health.bind sortRank = none ↔ health = none ∨ health = some .unknown := by
  rcases health with _ | health
  · simp
  · cases health <;> simp [sortRank]

theorem ReviewState.bind_sortRank {state : Option ReviewState} :
    state.bind sortRank = none ↔ state = none ∨ state = some .unknown := by
  rcases state with _ | state
  · simp
  · cases state <;> simp [sortRank]

/-- A record without a value comes after one with a value, in both directions. -/
theorem pullRequestOrder_missing {sort : PullRequestSort} {left right : PullRequestQueueRecord}
    (hleft : left.Missing sort.key) (hright : ¬ right.Missing sort.key) :
    pullRequestOrder sort left right = .gt := by
  have hprimary : pullRequestPrimaryOrder left right sort = .gt := by
    obtain ⟨key, direction⟩ := sort
    cases key
    case queuePriority => exact compareOptional_last hleft hright direction
    case latestHeadCommit => exact compareOptional_last hleft hright direction
    case latestReviewActivity => exact compareOptional_last hleft hright direction
    case ciHealth =>
      exact compareOptional_last (CiHealth.bind_sortRank.2 hleft)
        (mt CiHealth.bind_sortRank.1 hright) direction
    case reviewState =>
      exact compareOptional_last (ReviewState.bind_sortRank.2 hleft)
        (mt ReviewState.bind_sortRank.1 hright) direction
    all_goals exact hleft.elim
  rw [pullRequestOrder, hprimary]
  rfl

end Patchwright.Sorting
