import Mathlib
import Patchwright.Core.QueueOrder
import Patchwright.Engine.Store

/-!
# Queue requests

The handler that assesses the pull requests of all stored snapshots as one
queue: an item becomes a candidate with the dependencies its labels name, an
item whose time cannot be read is left out, and the decisions replace the ones
stored before.
-/

namespace Patchwright

open Checked

/-! ## Candidates -/

/-- A 64-bit number as it is parsed: digits, and a plus sign at most before
them. -/
def parseU64 (text : List Char) : Option Nat :=
  let digits := if text.head? = some '+' then text.tail else text
  if digits ≠ [] ∧ digits.all Char.isDigit then
    let number := Nat.ofDigitChars 10 digits 0
    if number < 2 ^ 64 then some number else none
  else none

def dependencyPrefix : String := "depends-on:#"

/-- The number a label names as a dependency. -/
def dependencyLabel (label : String) : Option Nat :=
  if dependencyPrefix.toList <+: label.toList then
    parseU64 (label.toList.drop dependencyPrefix.toList.length)
  else none

def dependencyLabels (labels : List String) : List Nat := labels.filterMap dependencyLabel

/-- The days from the epoch to a day of the calendar. -/
def daysFromCivil (year : Int) (month day : Nat) : Int :=
  let year := if month ≤ 2 then year - 1 else year
  let shifted : Int := if month ≤ 2 then month + 9 else month - 3
  let yearOfEra := year % 400
  let dayOfYear := (153 * shifted + 2) / 5 + day - 1
  let dayOfEra := yearOfEra * 365 + yearOfEra / 4 - yearOfEra / 100 + dayOfYear
  year / 400 * 146097 + dayOfEra - 719468

/-- The instant that a text stands for. -/
def Rfc3339.instant (reading : Rfc3339) : DateTime :=
  let minutes := (daysFromCivil reading.year reading.month reading.day * 24 + reading.hour) * 60 +
    reading.minute - reading.offsetMinutes
  (minutes * 60 + reading.second) * nanosPerSecond + reading.nanosecond

example : (Rfc3339.parse "2024-03-01T01:30:00.5+02:00").map Rfc3339.instant =
    some (1709249400 * nanosPerSecond + 500000000) := by decide

/-- An item of a snapshot as a candidate. -/
def GitHubWorkItem.candidate? (item : GitHubWorkItem) : Option QueueCandidate :=
  (Rfc3339.parse item.updatedAt).map fun reading => {
    repositoryFullName := item.repositoryFullName
    number := item.number
    title := item.title
    draft := item.draft
    ciHealth := item.ciHealth
    reviewDecision := item.reviewDecision
    hasConflicts := item.hasConflicts
    updatedAt := reading.instant
    labels := item.labels
    dependencyNumbers := dependencyLabels item.labels
    changedPaths := []
    manualPriority := none
    pinned := false }

def queueCandidates (items : List GitHubWorkItem) : List QueueCandidate :=
  (items.filter fun item => item.kind = .pullRequest ∧ item.state = "open").filterMap
    GitHubWorkItem.candidate?

/-! ## The store -/

def GitHubWorkItem.order (left right : GitHubWorkItem) : Ordering :=
  (compare left.repositoryFullName right.repositoryFullName).then <|
    (compare left.number right.number).then (compare left.id right.id)

namespace EventStore

/-- The snapshots by the names of their repositories, letter case aside. -/
def snapshots (store : EventStore) : List GitHubRepositorySnapshot :=
  let rows := Sorting.sortBy (fun left right => compare (lowercase left.1) (lowercase right.1))
    store.githubSnapshots.entries
  rows.map fun row => row.2.payload

def githubWorkItems (store : EventStore) : List GitHubWorkItem :=
  Sorting.sortBy GitHubWorkItem.order (store.snapshots.flatMap GitHubRepositorySnapshot.workItems)

end EventStore

/-- Store a decision behind the others.  A number beyond the integers of the
database is no parameter. -/
def insertDecision (rows : List QueueDecision) (decision : QueueDecision) :
    Except String (List QueueDecision) := do
  ensure (decision.number < 2 ^ 63) "out of range integral type conversion attempted"
  ensure (∀ row ∈ rows, (row.repositoryFullName, row.number) ≠
      (decision.repositoryFullName, decision.number))
    ("UNIQUE constraint failed: queue_decisions.repository_full_name, " ++
      "queue_decisions.pull_request_number")
  return rows ++ [decision]

/-- The rows of the decisions after they are replaced. -/
def replaceQueueDecisions (decisions : List QueueDecision) : Except String (List QueueDecision) :=
  decisions.foldlM insertDecision []

/-! ## The request -/

structure QueueFailure where
  code : Int
  message : String
  data : String
  deriving DecidableEq, Repr

def QueueError.message : QueueError → String
  | invalidCandidate => "invalid or duplicate pull request queue candidate"

def WorkflowPreset.all : List WorkflowPreset :=
  [quickWins, ciRescue, reviewClosure, conflictRecovery, dependencyChain, securityFirst,
    releaseTrain, stalePullRequestTriage, draftCompletion, postMergeWatch, reviewLoadBalancing,
    duplicateOverlapDetection]

def WorkflowPreset.ofWire? (name : String) : Option WorkflowPreset :=
  all.find? fun preset => preset.wireName = name

/-- Assess the queue; the decisions are the answer and what is stored. -/
def githubQueueAssess [Sha256] (store : EventStore) (params : Json) (now : DateTime) :
    Except QueueFailure (List QueueDecision) := do
  let presetValue := ((params.get? "preset").bind Json.asStr?).getD "quickWins"
  let preset ← okOr (QueueFailure.mk (-32602) "invalid parameters"
    "preset is not a supported workflow") (WorkflowPreset.ofWire? presetValue)
  let candidates := queueCandidates store.githubWorkItems
  let decisions ← (assessQueue candidates preset now).mapError fun error =>
    QueueFailure.mk (-32030) "queue assessment failed" error.message
  (replaceQueueDecisions decisions).mapError (QueueFailure.mk (-32000) "persistence failure")

/-! ## When a request succeeds -/

def QueueDecision.identity (decision : QueueDecision) : String × Nat :=
  (decision.repositoryFullName, decision.number)

/-- What the assessment and the store ask of the candidates together. -/
structure Assessable (candidates : List QueueCandidate) : Prop where
  admissible : ∀ candidate ∈ candidates, candidate.Admissible
  storable : ∀ candidate ∈ candidates, candidate.number < 2 ^ 63
  distinct : (candidates.map QueueCandidate.identity).Nodup

theorem Assessable.of_perm {candidates shuffled : List QueueCandidate}
    (hperm : shuffled.Perm candidates) (hassessable : Assessable candidates) :
    Assessable shuffled where
  admissible candidate hmem := hassessable.admissible candidate (hperm.mem_iff.mp hmem)
  storable candidate hmem := hassessable.storable candidate (hperm.mem_iff.mp hmem)
  distinct := (hperm.map QueueCandidate.identity).nodup_iff.mpr hassessable.distinct

theorem ofWire?_wireName (preset : WorkflowPreset) :
    WorkflowPreset.ofWire? preset.wireName = some preset := by
  cases preset <;> decide

theorem insertDecision_eq_ok {rows result : List QueueDecision} {decision : QueueDecision} :
    insertDecision rows decision = .ok result ↔
      decision.number < 2 ^ 63 ∧ (∀ row ∈ rows, row.identity ≠ decision.identity) ∧
        rows ++ [decision] = result := by
  simp only [insertDecision, bind_eq_ok, ensure_eq_ok, pure_eq_ok, exists_const]
  rfl

/-- Decisions are stored in their order if their numbers fit and they are about
different pull requests. -/
theorem foldlM_insertDecision {rows decisions result : List QueueDecision} :
    decisions.foldlM insertDecision rows = .ok result ↔
      (∀ decision ∈ decisions, decision.number < 2 ^ 63) ∧
        (decisions.map QueueDecision.identity).Nodup ∧
        (∀ decision ∈ decisions, ∀ row ∈ rows, row.identity ≠ decision.identity) ∧
        rows ++ decisions = result := by
  induction decisions generalizing rows with
  | nil => simp
  | cons decision decisions ih =>
      rw [List.foldlM_cons, bind_eq_ok, List.map_cons, List.nodup_cons, List.forall_mem_cons,
        List.forall_mem_cons]
      constructor
      · rintro ⟨next, hnext, hrest⟩
        obtain ⟨hnumber, hfresh, rfl⟩ := insertDecision_eq_ok.1 hnext
        obtain ⟨hnumbers, hnodup, hothers, hresult⟩ := ih.mp hrest
        refine ⟨⟨hnumber, hnumbers⟩, ⟨?_, hnodup⟩, ⟨hfresh, ?_⟩, ?_⟩
        · intro hmem
          obtain ⟨other, hother, hsame⟩ := List.mem_map.mp hmem
          exact hothers other hother decision (List.mem_append_right _ List.mem_cons_self)
            hsame.symm
        · exact fun other hother row hrow =>
            hothers other hother row (List.mem_append_left _ hrow)
        · rw [← hresult, List.append_assoc]
          rfl
      · rintro ⟨⟨hnumber, hnumbers⟩, ⟨hnew, hnodup⟩, ⟨hfresh, hothers⟩, rfl⟩
        refine ⟨_, insertDecision_eq_ok.2 ⟨hnumber, hfresh, rfl⟩, ?_⟩
        refine ih.mpr ⟨hnumbers, hnodup, fun other hother row hrow => ?_, ?_⟩
        · rcases List.mem_append.mp hrow with hrow | hrow
          · exact hothers other hother row hrow
          · rw [List.mem_singleton.mp hrow]
            exact fun hsame => hnew (hsame ▸ List.mem_map_of_mem hother)
        · rw [List.append_assoc]
          rfl

section Assess

variable [Sha256] {candidates : List QueueCandidate} {decisions : List QueueDecision}
  {preset : WorkflowPreset} {now : DateTime}

theorem identity_assessCandidate (candidate : QueueCandidate)
    (identities : List (String × Nat)) :
    (assessCandidate candidate preset now identities candidates).identity = candidate.identity :=
  rfl

/-- The decisions are about the pull requests of the candidates. -/
theorem identities_of_assessQueue (hdecisions : assessQueue candidates preset now = .ok decisions) :
    (decisions.map QueueDecision.identity).Perm (candidates.map QueueCandidate.identity) := by
  obtain ⟨_, rfl⟩ := assessQueue_eq_ok.1 hdecisions
  have hsorted := (Sorting.sortBy_perm QueueDecision.order (candidates.map fun candidate =>
    assessCandidate candidate preset now (candidates.map QueueCandidate.identity)
      candidates)).map QueueDecision.identity
  rw [List.map_map] at hsorted
  exact hsorted

theorem replaceQueueDecisions_of_assessable (hassessable : Assessable candidates)
    (hdecisions : assessQueue candidates preset now = .ok decisions) :
    replaceQueueDecisions decisions = .ok decisions := by
  have hperm := identities_of_assessQueue hdecisions
  refine foldlM_insertDecision.2 ⟨fun decision hmem => ?_, ?_, fun _ _ _ => nofun, rfl⟩
  · obtain ⟨candidate, hcandidate, hsame⟩ :=
      List.mem_map.mp (hperm.mem_iff.mp (List.mem_map_of_mem hmem))
    have hnumber : candidate.number = decision.number := congrArg Prod.snd hsame
    exact hnumber ▸ hassessable.storable candidate hcandidate
  · exact hperm.nodup_iff.mpr hassessable.distinct

/-- A request succeeds under a preset exactly when the candidates are
assessable. -/
theorem githubQueueAssess_isOk_iff (store : EventStore) (preset : WorkflowPreset)
    (now : DateTime) :
    (∃ decisions, githubQueueAssess store (.obj [("preset", .str preset.wireName)]) now =
        .ok decisions) ↔
      Assessable (queueCandidates store.githubWorkItems) := by
  have hpreset : (((Json.obj [("preset", .str preset.wireName)]).get? "preset").bind
      Json.asStr?).getD "quickWins" = preset.wireName := rfl
  rw [githubQueueAssess, hpreset, ofWire?_wireName]
  simp only [okOr, ok_bind, bind_eq_ok, mapError_eq_ok]
  constructor
  · rintro ⟨result, decisions, hdecisions, hstored⟩
    obtain ⟨hvalid, _⟩ := assessQueue_eq_ok.1 hdecisions
    obtain ⟨hadmissible, hdistinct⟩ := validateCandidates_eq_ok.1 hvalid
    obtain ⟨hnumbers, _⟩ := foldlM_insertDecision.1 hstored
    refine ⟨hadmissible, fun candidate hmem => ?_, hdistinct⟩
    have hperm := identities_of_assessQueue hdecisions
    obtain ⟨decision, hdecision, hsame⟩ :=
      List.mem_map.mp (hperm.mem_iff.mpr (List.mem_map_of_mem hmem))
    have hnumber : decision.number = candidate.number := congrArg Prod.snd hsame
    exact hnumber ▸ hnumbers decision hdecision
  · intro hassessable
    have hvalid : validateCandidates (queueCandidates store.githubWorkItems) = .ok () :=
      validateCandidates_eq_ok.2 ⟨hassessable.admissible, hassessable.distinct⟩
    obtain ⟨decisions, hdecisions⟩ : ∃ decisions,
        assessQueue (queueCandidates store.githubWorkItems) preset now = .ok decisions :=
      ⟨_, assessQueue_eq_ok.2 ⟨hvalid, rfl⟩⟩
    exact ⟨decisions, decisions, hdecisions,
      replaceQueueDecisions_of_assessable hassessable hdecisions⟩

end Assess

end Patchwright
