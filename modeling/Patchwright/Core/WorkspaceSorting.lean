import Mathlib
import Patchwright.Core.Sorting

/-!
# Sorting in the workspace application

The application sorts the same records again, with comparators written in
Swift.  They give the order of the core crate: the comparison results
correspond, names compare alike as far as they are ASCII, and the sorted lists
are equal.
-/

namespace Patchwright

/-- Unicode normalization, as the standard library applies it to two strings
before it compares them: it leaves ASCII text as it is. -/
class UnicodeNormalization where
  nfc : String → String
  nfc_ascii : ∀ text, (∀ char ∈ text.toList, char.toNat < 128) → nfc text = text

namespace WorkspaceSorting

open Patchwright.Sorting (SortDirection RepositorySort RepositoryQueueRecord PullRequestSort
  PullRequestQueueRecord compareValue applyDirection saturatingAdd
  repositoryPrimaryOrder repositoryOrder pullRequestPrimaryOrder pullRequestOrder
  id_eq_of_repositoryOrder id_eq_of_pullRequestOrder repositoryOrder_missing
  pullRequestOrder_missing)

/-- A string with the order of the standard library. -/
structure SwiftString where
  text : String

instance [UnicodeNormalization] : LT SwiftString where
  lt left right := UnicodeNormalization.nfc left.text < UnicodeNormalization.nfc right.text

instance [UnicodeNormalization] : DecidableLT SwiftString := fun left right =>
  inferInstanceAs (Decidable
    (UnicodeNormalization.nfc left.text < UnicodeNormalization.nfc right.text))

inductive ComparisonResult where
  | orderedAscending
  | orderedSame
  | orderedDescending
  deriving DecidableEq, Repr

def ComparisonResult.reversed : ComparisonResult → ComparisonResult
  | orderedAscending => orderedDescending
  | orderedDescending => orderedAscending
  | orderedSame => orderedSame

def compare {Value : Type} [LT Value] [DecidableLT Value] (left right : Value)
    (direction : SortDirection) : ComparisonResult :=
  let result : ComparisonResult :=
    if left < right then .orderedAscending
    else if left > right then .orderedDescending
    else .orderedSame
  if direction = .ascending then result else result.reversed

def compareOptional {Value : Type} [LT Value] [DecidableLT Value] (left right : Option Value)
    (direction : SortDirection) : ComparisonResult :=
  match left, right with
  | some left, some right => compare left right direction
  | some _, none => .orderedAscending
  | none, some _ => .orderedDescending
  | none, none => .orderedSame

/-- The sum and whether it overflowed. -/
def addingReportingOverflow (left right : UInt64) : UInt64 × Bool :=
  (left + right, UInt64.size ≤ left.toNat + right.toNat)

def saturatingSum (left right : UInt64) : UInt64 :=
  let (partialValue, overflow) := addingReportingOverflow left right
  if overflow then UInt64.ofNat (UInt64.size - 1) else partialValue

def orderedBefore (primary fallback final : ComparisonResult) : Bool :=
  if primary ≠ .orderedSame then primary = .orderedAscending
  else if fallback ≠ .orderedSame then fallback = .orderedAscending
  else final = .orderedAscending

def ciSortRank : Sorting.CiHealth → Option Int
  | .failing => some 1
  | .pending => some 2
  | .passing => some 3
  | .unknown => none

def reviewSortRank : Sorting.ReviewState → Option Int
  | .changesRequested => some 1
  | .reviewRequired => some 2
  | .dismissed => some 3
  | .approved => some 4
  | .unknown => none

section Sorts

variable [UnicodeNormalization]

def repositoryPrimary (left right : RepositoryQueueRecord) (sort : RepositorySort) :
    ComparisonResult :=
  match sort.key with
  | .queuePriority => compareOptional left.queuePriority right.queuePriority sort.direction
  | .recentlyUpdated => compare left.updatedAt right.updatedAt sort.direction
  | .recentlyPushed => compareOptional left.pushedAt right.pushedAt sort.direction
  | .latestDefaultBranchCommit =>
      compareOptional left.defaultBranchCommittedAt right.defaultBranchCommittedAt
        sort.direction
  | .openPullRequestCount =>
      compare left.openPullRequestCount right.openPullRequestCount sort.direction
  | .failingCheckCount =>
      compare left.failingCheckCount right.failingCheckCount sort.direction
  | .name => compare (SwiftString.mk left.fullName) ⟨right.fullName⟩ sort.direction

def sortRepositories (records : List RepositoryQueueRecord) (sort : RepositorySort) :
    List RepositoryQueueRecord :=
  Sorting.sorted (fun left right =>
    orderedBefore (repositoryPrimary left right sort)
      (compare (SwiftString.mk left.fullName) ⟨right.fullName⟩ .ascending)
      (compare left.id right.id .ascending)) records

def pullRequestPrimary (left right : PullRequestQueueRecord) (sort : PullRequestSort) :
    ComparisonResult :=
  match sort.key with
  | .queuePriority => compareOptional left.queuePriority right.queuePriority sort.direction
  | .recentlyUpdated => compare left.updatedAt right.updatedAt sort.direction
  | .latestHeadCommit =>
      compareOptional left.headCommittedAt right.headCommittedAt sort.direction
  | .latestReviewActivity =>
      compareOptional left.latestReviewAt right.latestReviewAt sort.direction
  | .ciHealth =>
      compareOptional (left.ciHealth.bind ciSortRank) (right.ciHealth.bind ciSortRank)
        sort.direction
  | .reviewState =>
      compareOptional (left.reviewState.bind reviewSortRank)
        (right.reviewState.bind reviewSortRank) sort.direction
  | .createdNewest => compare left.createdAt right.createdAt sort.direction
  | .createdOldest => compare right.createdAt left.createdAt sort.direction
  | .changeSize =>
      compare (saturatingSum left.additions left.deletions)
        (saturatingSum right.additions right.deletions) sort.direction
  | .number => compare left.number right.number sort.direction

def sortPullRequests (records : List PullRequestQueueRecord) (sort : PullRequestSort) :
    List PullRequestQueueRecord :=
  Sorting.sorted (fun left right =>
    orderedBefore (pullRequestPrimary left right sort)
      (compare left.number right.number .ascending)
      (compare left.id right.id .ascending)) records

end Sorts

/-! ## The comparison results correspond -/

def ComparisonResult.toOrdering : ComparisonResult → Ordering
  | orderedAscending => .lt
  | orderedSame => .eq
  | orderedDescending => .gt

theorem orderedBefore_eq (primary fallback final : ComparisonResult) :
    orderedBefore primary fallback final =
      (primary.toOrdering.then (fallback.toOrdering.then final.toOrdering)).isLT := by
  cases primary <;> cases fallback <;> cases final <;> rfl

section Values

variable {Value α : Type} [LT Value] [DecidableLT Value] [Ord α] [Std.OrientedOrd α]

/-- Values that stand in the order of their keys compare as these do. -/
theorem toOrdering_compare {key : Value → α}
    (hkey : ∀ left right : Value, left < right ↔ Ord.compare (key left) (key right) = .lt)
    (left right : Value) (direction : SortDirection) :
    (compare left right direction).toOrdering =
      compareValue (key left) (key right) direction := by
  have hforward := hkey left right
  have hback := hkey right left
  rw [Std.OrientedOrd.eq_swap (a := key right)] at hback
  cases direction with
  | ascending =>
      rw [compareValue, applyDirection]
      cases horder : Ord.compare (key left) (key right)
      all_goals simp_all [compare, ComparisonResult.toOrdering]
  | descending =>
      rw [compareValue, applyDirection]
      cases horder : Ord.compare (key left) (key right)
      all_goals simp_all [compare, ComparisonResult.toOrdering, ComparisonResult.reversed]

theorem toOrdering_compareOptional {key : Value → α}
    (hkey : ∀ left right : Value, left < right ↔ Ord.compare (key left) (key right) = .lt)
    (left right : Option Value) (direction : SortDirection) :
    (compareOptional left right direction).toOrdering =
      Patchwright.Sorting.compareOptional (left.map key) (right.map key) direction := by
  cases left <;> cases right
  case some.some left right => exact toOrdering_compare hkey left right direction
  all_goals rfl

end Values

section Agreement

variable {Value : Type} [LT Value] [DecidableLT Value] [LE Value] [Ord Value]
  [Std.LawfulOrderOrd Value] [Std.LawfulOrderLT Value] [Std.OrientedOrd Value]

theorem toOrdering_compare_self (left right : Value) (direction : SortDirection) :
    (compare left right direction).toOrdering = compareValue left right direction :=
  toOrdering_compare (fun _ _ => Std.compare_eq_lt.symm) left right direction

theorem toOrdering_compareOptional_self (left right : Option Value)
    (direction : SortDirection) :
    (compareOptional left right direction).toOrdering =
      Patchwright.Sorting.compareOptional left right direction := by
  have hkey := toOrdering_compareOptional
    (fun _ _ : Value => (Std.compare_eq_lt (α := Value)).symm) left right direction
  simpa using hkey

theorem toOrdering_compare_text [UnicodeNormalization] (left right : String)
    (direction : SortDirection) :
    (compare (SwiftString.mk left) ⟨right⟩ direction).toOrdering =
      compareValue (UnicodeNormalization.nfc left) (UnicodeNormalization.nfc right)
        direction := by
  have hkey : ∀ first second : SwiftString, first < second ↔
      Ord.compare (UnicodeNormalization.nfc first.text) (UnicodeNormalization.nfc second.text) =
        .lt := by
    intro first second
    have hnames : Ord.compare (UnicodeNormalization.nfc first.text)
          (UnicodeNormalization.nfc second.text) = .lt ↔
        UnicodeNormalization.nfc first.text < UnicodeNormalization.nfc second.text :=
      compareOfLessAndEq_eq_lt
    exact hnames.symm
  exact toOrdering_compare hkey ⟨left⟩ ⟨right⟩ direction

theorem saturatingSum_eq (left right : UInt64) :
    saturatingSum left right = saturatingAdd left right := by
  rw [saturatingSum, addingReportingOverflow, saturatingAdd]
  by_cases hfits : left.toNat + right.toNat < UInt64.size
  · simp [hfits, Nat.not_le.mpr hfits]
  · simp [hfits, Nat.not_lt.mp hfits]

/-- The signed ranks of the application stand in the order of the ranks. -/
theorem toOrdering_compareOptional_rank (left right : Option Nat)
    (direction : SortDirection) :
    (compareOptional (left.map Int.ofNat) (right.map Int.ofNat) direction).toOrdering =
      Patchwright.Sorting.compareOptional left right direction := by
  rw [toOrdering_compareOptional_self]
  cases left <;> cases right
  case some.some left right =>
    have hrank : Ord.compare (Int.ofNat left) (Int.ofNat right) = Ord.compare left right := by
      simp only [Ord.compare, compareOfLessAndEq, Int.ofNat_eq_natCast, Int.ofNat_lt,
        Int.natCast_inj]
    exact congrArg (applyDirection · direction) hrank
  all_goals rfl

theorem bind_ciSortRank (health : Option Sorting.CiHealth) :
    health.bind ciSortRank = (health.bind Sorting.CiHealth.sortRank).map Int.ofNat := by
  rcases health with _ | health
  · rfl
  · cases health <;> rfl

theorem bind_reviewSortRank (state : Option Sorting.ReviewState) :
    state.bind reviewSortRank = (state.bind Sorting.ReviewState.sortRank).map Int.ofNat := by
  rcases state with _ | state
  · rfl
  · cases state <;> rfl

end Agreement

/-! ## The sorts agree -/

/-- The record under the name that its comparisons see. -/
def normalized [UnicodeNormalization] (record : RepositoryQueueRecord) :
    RepositoryQueueRecord :=
  { record with fullName := UnicodeNormalization.nfc record.fullName }

theorem toOrdering_repositoryPrimary [UnicodeNormalization]
    (left right : RepositoryQueueRecord) (sort : RepositorySort) :
    (repositoryPrimary left right sort).toOrdering =
      repositoryPrimaryOrder (normalized left) (normalized right) sort := by
  obtain ⟨key, direction⟩ := sort
  cases key with
  | queuePriority => exact toOrdering_compareOptional_self _ _ _
  | recentlyUpdated => exact toOrdering_compare_self _ _ _
  | recentlyPushed => exact toOrdering_compareOptional_self _ _ _
  | latestDefaultBranchCommit => exact toOrdering_compareOptional_self _ _ _
  | openPullRequestCount => exact toOrdering_compare_self _ _ _
  | failingCheckCount => exact toOrdering_compare_self _ _ _
  | name => exact toOrdering_compare_text _ _ _

theorem toOrdering_pullRequestPrimary (left right : PullRequestQueueRecord)
    (sort : PullRequestSort) :
    (pullRequestPrimary left right sort).toOrdering =
      pullRequestPrimaryOrder left right sort := by
  obtain ⟨key, direction⟩ := sort
  cases key with
  | queuePriority => exact toOrdering_compareOptional_self _ _ _
  | recentlyUpdated => exact toOrdering_compare_self _ _ _
  | latestHeadCommit => exact toOrdering_compareOptional_self _ _ _
  | latestReviewActivity => exact toOrdering_compareOptional_self _ _ _
  | ciHealth =>
      rw [pullRequestPrimary, pullRequestPrimaryOrder]
      simp only [bind_ciSortRank, toOrdering_compareOptional_rank]
  | reviewState =>
      rw [pullRequestPrimary, pullRequestPrimaryOrder]
      simp only [bind_reviewSortRank, toOrdering_compareOptional_rank]
  | createdNewest => exact toOrdering_compare_self _ _ _
  | createdOldest => exact toOrdering_compare_self _ _ _
  | changeSize =>
      rw [pullRequestPrimary, pullRequestPrimaryOrder]
      simp only [saturatingSum_eq, toOrdering_compare_self]
  | number => exact toOrdering_compare_self _ _ _

theorem sortRepositories_eq_sortBy [UnicodeNormalization]
    (records : List RepositoryQueueRecord) (sort : RepositorySort) :
    sortRepositories records sort =
      Sorting.sortBy (fun left right =>
        repositoryOrder sort (normalized left) (normalized right)) records := by
  have htotal : Std.TransCmp fun left right =>
      repositoryOrder sort (normalized left) (normalized right) :=
    Sorting.transCmp_comap inferInstance normalized
  rw [← Sorting.sorted_eq_sortBy]
  · rfl
  · intro left right
    rw [orderedBefore_eq, toOrdering_repositoryPrimary, toOrdering_compare_text,
      toOrdering_compare_self]
    rfl

theorem sortPullRequests_eq_sortBy (records : List PullRequestQueueRecord)
    (sort : PullRequestSort) :
    sortPullRequests records sort = Sorting.sortBy (pullRequestOrder sort) records := by
  rw [← Sorting.sorted_eq_sortBy]
  · rfl
  · intro left right
    rw [orderedBefore_eq, toOrdering_pullRequestPrimary, toOrdering_compare_self,
      toOrdering_compare_self]
    rfl

/-! ## One order for both applications -/

/-- Two sorts of a list of records agree, and what they give is the list in a
total order of the records that does not depend on the order they came in, with
the records that miss a value at the end. -/
structure AgreedOrder {Record : Type} (core application : List Record → List Record)
    (order : Record → Record → Ordering) (missing : Record → Prop) (records : List Record) :
    Prop where
  agree : application records = core records
  complete : (core records).Perm records
  total : Std.TransCmp order
  distinguished : Sorting.Distinguishes order records
  increasing : (core records).Pairwise fun left right => order left right = .lt
  inputOrder : ∀ shuffled, shuffled.Perm records →
    core shuffled = core records ∧ application shuffled = application records
  missingLast : ∃ present absent, core records = present ++ absent ∧
    (∀ record ∈ present, ¬ missing record) ∧ ∀ record ∈ absent, missing record

theorem agreedOrder_of_sortBy {Record : Type} {order other : Record → Record → Ordering}
    [Std.TransCmp order] (hother : Std.TransCmp other) {missing : Record → Prop}
    {records : List Record} (hnodup : records.Nodup)
    (hdistinct : Sorting.Distinguishes order records)
    (hagree : ∀ left ∈ records, ∀ right ∈ records, order left right = other left right)
    (hmissing : ∀ left right, missing left → ¬ missing right → order left right = .gt) :
    AgreedOrder (Sorting.sortBy order) (Sorting.sortBy other) order missing records where
  agree := (Sorting.sortBy_congr hdistinct hagree).symm
  complete := Sorting.sortBy_perm order records
  total := inferInstance
  distinguished := hdistinct
  increasing := Sorting.sortBy_strict hnodup hdistinct
  inputOrder := by
    intro shuffled hperm
    have hothers : Sorting.Distinguishes other records := fun left hleft right hright horder =>
      hdistinct left hleft right hright ((hagree left hleft right hright).trans horder)
    exact ⟨Sorting.sortBy_eq_of_perm hdistinct hperm, Sorting.sortBy_eq_of_perm hothers hperm⟩
  missingLast := Sorting.sortBy_last hmissing

/-- Records with distinct identifiers are distinguished by an order that ends
with the identifiers. -/
theorem distinguishes_of_ids {Record : Type} {order : Record → Record → Ordering}
    {id : Record → UInt64} {records : List Record} (hids : (records.map id).Nodup)
    (horder : ∀ left right, order left right = .eq → id left = id right) :
    Sorting.Distinguishes order records :=
  fun left hleft right hright heq =>
    List.inj_on_of_nodup_map hids hleft hright (horder left right heq)

theorem normalized_of_ascii [UnicodeNormalization] {record : RepositoryQueueRecord}
    (hascii : ∀ char ∈ record.fullName.toList, char.toNat < 128) : normalized record = record := by
  rw [normalized, UnicodeNormalization.nfc_ascii _ hascii]

/-- The two implementations sort repositories with ASCII names and pull
requests alike, for every key and direction. -/
theorem workspace_sorts_agree [UnicodeNormalization]
    (repositories : List RepositoryQueueRecord) (pulls : List PullRequestQueueRecord)
    (repositorySort : RepositorySort) (pullRequestSort : PullRequestSort)
    (hrepositories : (repositories.map (·.id)).Nodup)
    (hnames : ∀ record ∈ repositories, ∀ char ∈ record.fullName.toList, char.toNat < 128)
    (hpulls : (pulls.map (·.id)).Nodup) :
    AgreedOrder (Patchwright.Sorting.sortRepositories · repositorySort)
        (sortRepositories · repositorySort) (repositoryOrder repositorySort)
        (RepositoryQueueRecord.Missing repositorySort.key) repositories ∧
      AgreedOrder (Patchwright.Sorting.sortPullRequests · pullRequestSort)
        (sortPullRequests · pullRequestSort) (pullRequestOrder pullRequestSort)
        (PullRequestQueueRecord.Missing pullRequestSort.key) pulls := by
  constructor
  · have happlication : (sortRepositories · repositorySort) =
        Sorting.sortBy fun left right =>
          repositoryOrder repositorySort (normalized left) (normalized right) := by
      funext records
      exact sortRepositories_eq_sortBy records repositorySort
    rw [happlication]
    apply agreedOrder_of_sortBy (Sorting.transCmp_comap inferInstance normalized)
    · exact List.Nodup.of_map _ hrepositories
    · exact distinguishes_of_ids hrepositories fun _ _ => id_eq_of_repositoryOrder
    · intro left hleft right hright
      rw [normalized_of_ascii (hnames left hleft), normalized_of_ascii (hnames right hright)]
    · exact fun _ _ => repositoryOrder_missing
  · have happlication : (sortPullRequests · pullRequestSort) =
        Sorting.sortBy (pullRequestOrder pullRequestSort) := by
      funext records
      exact sortPullRequests_eq_sortBy records pullRequestSort
    rw [happlication]
    apply agreedOrder_of_sortBy inferInstance
    · exact List.Nodup.of_map _ hpulls
    · exact distinguishes_of_ids hpulls fun _ _ => id_eq_of_pullRequestOrder
    · exact fun _ _ _ _ => rfl
    · exact fun _ _ => pullRequestOrder_missing

namespace SortSample

/-- The names of the sample are ASCII, so they are normalized as they are. -/
scoped instance asciiNames : UnicodeNormalization where
  nfc text := text
  nfc_ascii _ _ := rfl

def repositories : List RepositoryQueueRecord :=
  [⟨7, "octo/beta", none, 20, some 5, none, 3, 0⟩, ⟨9, "octo/alpha", some 1, 10, none, none, 3, 1⟩]

def pullRequests : List PullRequestQueueRecord :=
  [⟨1, 4, none, 20, none, none, some .unknown, none, 5, 1, 2⟩,
    ⟨2, 3, some 1, 10, none, none, some .failing, some .approved, 6, 2, 2⟩]

theorem ascii_names : ∀ record ∈ repositories, ∀ char ∈ record.fullName.toList,
    char.toNat < 128 := by
  have hnames : (repositories.all fun record =>
      record.fullName.toList.all fun char => char.toNat < 128) = true := by decide
  simpa using hnames

end SortSample

open SortSample in
theorem workspace_sorts_agree_sample :
    AgreedOrder (Patchwright.Sorting.sortRepositories · ⟨.queuePriority, .descending⟩)
        (sortRepositories · ⟨.queuePriority, .descending⟩)
        (repositoryOrder ⟨.queuePriority, .descending⟩)
        (RepositoryQueueRecord.Missing .queuePriority) repositories ∧
      AgreedOrder (Patchwright.Sorting.sortPullRequests · ⟨.ciHealth, .descending⟩)
        (sortPullRequests · ⟨.ciHealth, .descending⟩) (pullRequestOrder ⟨.ciHealth, .descending⟩)
        (PullRequestQueueRecord.Missing .ciHealth) pullRequests :=
  workspace_sorts_agree repositories pullRequests ⟨.queuePriority, .descending⟩
    ⟨.ciHealth, .descending⟩ (by decide) ascii_names (by decide)

end WorkspaceSorting

end Patchwright
