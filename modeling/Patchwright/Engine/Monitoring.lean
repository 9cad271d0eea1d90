import Patchwright.Core.Domain

/-!
# Pull-request monitors

A monitor is bound to one pull request and one pair of commits.  Each
observation either schedules another look, blocks the monitor, asks for a
repair, or ends it in success, which needs both passing checks and an approved
review.
-/

namespace Patchwright

open Checked

inductive CIState where
  | pending
  | success
  | failure
  deriving DecidableEq, Repr

inductive ReviewState where
  | pending
  | approved
  | changesRequested
  | approvalDismissed
  deriving DecidableEq, Repr

inductive Mergeability where
  | unknown
  | mergeable
  | conflicting
  | inaccessibleFork
  deriving DecidableEq, Repr

inductive MonitorState where
  | pending
  | repairNeeded
  | succeeded
  | blocked
  | cancelled
  deriving DecidableEq, Repr

def MonitorState.isFinal : MonitorState → Bool
  | succeeded | blocked | cancelled => true
  | pending | repairNeeded => false

structure RemoteObservation where
  observedAt : DateTime
  headSha : String
  baseSha : String
  ci : CIState
  review : ReviewState
  mergeability : Mergeability
  repositoryAccessible : Bool
  networkAvailable : Bool
  rateLimitedUntil : Option DateTime
  deriving DecidableEq, Repr

structure MonitorOutcome where
  state : MonitorState
  summary : String
  invalidateApprovals : Bool
  deriving DecidableEq, Repr

structure MonitorRecord where
  id : Uuid
  taskId : TaskId
  repositoryFullName : String
  pullRequestNumber : Nat
  expectedHeadSha : String
  expectedBaseSha : String
  state : MonitorState
  attemptCount : Nat
  repairIteration : Nat
  repairBudget : Nat
  nextAttemptAt : Option DateTime
  latestObservation : Option RemoteObservation
  summary : String
  createdAt : DateTime
  updatedAt : DateTime
  deriving DecidableEq, Repr

inductive MonitoringError where
  | invalidRepository
  | invalidPullRequest
  | invalidSha
  | invalidRepairBudget
  | terminal
  deriving DecidableEq, Repr

def MonitoringError.message : MonitoringError → String
  | invalidRepository => "monitor repository name is invalid"
  | invalidPullRequest => "monitor pull request number is invalid"
  | invalidSha => "monitor SHA is invalid"
  | invalidRepairBudget => "monitor repair budget must be positive"
  | terminal => "monitor is already terminal"

def initialBackoffSeconds : Int := 30

def maxBackoffSeconds : Int := 15 * 60

/-- The monitors accept object names in the length of SHA-1 only. -/
def validateMonitorSha (value : String) : Except MonitoringError Unit :=
  ensure (value.utf8ByteSize = 40 ∧ value.toList.all isAsciiHexdigit) .invalidSha

namespace MonitorRecord

/-- A pending monitor.  The identifier is the random one the source draws. -/
def new (id : Uuid) (taskId : TaskId) (repositoryFullName : String) (pullRequestNumber : Nat)
    (expectedHeadSha expectedBaseSha : String) (now : DateTime) (repairBudget : Nat) :
    Except MonitoringError MonitorRecord := do
  ensure ((splitOnce repositoryFullName '/').isSome ∧
    ¬ repositoryFullName.toList.any isWhitespace) .invalidRepository
  ensure (pullRequestNumber ≠ 0) .invalidPullRequest
  validateMonitorSha expectedHeadSha
  validateMonitorSha expectedBaseSha
  ensure (repairBudget ≠ 0) .invalidRepairBudget
  return {
    id, taskId, repositoryFullName, pullRequestNumber, expectedHeadSha, expectedBaseSha
    state := .pending, attemptCount := 0, repairIteration := 0, repairBudget
    nextAttemptAt := some now, latestObservation := none
    summary := "waiting for first remote observation", createdAt := now, updatedAt := now }

def outcome (monitor : MonitorRecord) (invalidateApprovals : Bool) :
    MonitorRecord × MonitorOutcome :=
  (monitor, { state := monitor.state, summary := monitor.summary, invalidateApprovals })

/-- Wait with exponential backoff and a jitter taken from the identifier. -/
def schedule (monitor : MonitorRecord) (now : DateTime) (summary : String) :
    MonitorRecord × MonitorOutcome :=
  let exponent := min (monitor.attemptCount - 1) 5
  let backoff := min (initialBackoffSeconds * 2 ^ exponent) maxBackoffSeconds
  let jitter : Int := ((monitor.id.value.toNat ^^^ monitor.attemptCount) % 11 : Nat)
  outcome { monitor with
    state := .pending
    nextAttemptAt := some (now + seconds (backoff + jitter))
    summary } false

def block (monitor : MonitorRecord) (summary : String) (invalidateApprovals : Bool) :
    MonitorRecord × MonitorOutcome :=
  outcome { monitor with state := .blocked, nextAttemptAt := none, summary }
    invalidateApprovals

/-- Why an observation asks for a repair. -/
def repairReason : CIState → ReviewState → Option String
  | .failure, _ => some "CI failed"
  | _, .changesRequested => some "review requested changes"
  | _, .approvalDismissed => some "a prior review approval was dismissed"
  | _, _ => none

/-- The part of an observation that is decided once the monitored pull request
is known to be reachable, unchanged and mergeable. -/
def judge (monitor : MonitorRecord) (observation : RemoteObservation) (now : DateTime) :
    MonitorRecord × MonitorOutcome :=
  match repairReason observation.ci observation.review with
  | some reason =>
      if monitor.repairIteration ≥ monitor.repairBudget then
        monitor.block ("repair budget exhausted after " ++ reason) true
      else
        let iteration := monitor.repairIteration + 1
        outcome { monitor with
          repairIteration := iteration
          state := .repairNeeded
          nextAttemptAt := none
          summary := reason ++ "; repair iteration " ++ toString iteration ++ " of " ++
            toString monitor.repairBudget ++ " requires a new plan" } true
  | none =>
      if observation.ci = .success ∧ observation.review = .approved then
        outcome { monitor with
          state := .succeeded
          nextAttemptAt := none
          summary := "CI passed and review is approved" } false
      else
        monitor.schedule now "CI or review is still pending"

/-- The monitor with one more attempt and its observation. -/
def noted (monitor : MonitorRecord) (observation : RemoteObservation) (now : DateTime) :
    MonitorRecord :=
  { monitor with
    attemptCount := min (monitor.attemptCount + 1) (2 ^ 32 - 1)
    latestObservation := some observation
    updatedAt := now }

/-- How a monitor answers an observation it has noted: the first thing that
stands against the pull request decides. -/
def respond (monitor : MonitorRecord) (observation : RemoteObservation) (now : DateTime) :
    MonitorRecord × MonitorOutcome :=
  if ¬ observation.networkAvailable then
    monitor.schedule now "network unavailable; monitoring will retry"
  else
    match observation.rateLimitedUntil.filter (fun limit => decide (limit > now)) with
    | some limit =>
        outcome { monitor with
          state := .pending
          nextAttemptAt := some limit
          summary := "GitHub rate limit active until " ++ toRfc3339 limit } false
    | none =>
        if ¬ observation.repositoryAccessible then
          monitor.block "repository or installation is no longer accessible" true
        else if observation.headSha ≠ monitor.expectedHeadSha then
          monitor.block "pull request head SHA changed" true
        else if observation.baseSha ≠ monitor.expectedBaseSha then
          monitor.block "pull request base SHA changed" true
        else
          match observation.mergeability with
          | .conflicting => monitor.block "pull request now has merge conflicts" true
          | .inaccessibleFork => monitor.block "pull request fork is inaccessible" true
          | .unknown => monitor.schedule now "mergeability is unknown; monitoring will retry"
          | .mergeable => monitor.judge observation now

/-- Apply one remote observation. -/
def observe (monitor : MonitorRecord) (observation : RemoteObservation) (now : DateTime) :
    Except MonitoringError (MonitorRecord × MonitorOutcome) := do
  ensure (¬ monitor.state.isFinal) .terminal
  validateMonitorSha observation.headSha
  validateMonitorSha observation.baseSha
  return (monitor.noted observation now).respond observation now

/-- A judgement is a success when the checks pass and the review is approved. -/
theorem judge_succeeded_iff {monitor : MonitorRecord} {observation : RemoteObservation}
    {now : DateTime} :
    (monitor.judge observation now).2.state = .succeeded ↔
      observation.ci = .success ∧ observation.review = .approved := by
  rw [judge]
  cases hreason : repairReason observation.ci observation.review with
  | some reason =>
      dsimp only
      have hstate : (if monitor.repairIteration ≥ monitor.repairBudget then
          MonitorState.blocked else .repairNeeded) ≠ .succeeded := by
        split <;> nofun
      refine iff_of_false (fun hsucceeded => hstate ?_) ?_
      · rw [← hsucceeded]
        split <;> rfl
      · rintro ⟨hci, hreview⟩
        rw [hci, hreview] at hreason
        exact absurd hreason nofun
  | none =>
      dsimp only
      by_cases hgood : observation.ci = .success ∧ observation.review = .approved
      · rw [if_pos hgood]
        exact iff_of_true rfl hgood
      · rw [if_neg hgood]
        exact iff_of_false nofun hgood

/-- A reachable pull request leads to success exactly when the monitor expects
its commits, it can be merged, its checks pass and its review is approved. -/
theorem respond_succeeded_iff {monitor : MonitorRecord} {observation : RemoteObservation}
    {now : DateTime} (hnetwork : observation.networkAvailable = true)
    (haccess : observation.repositoryAccessible = true)
    (hrate : observation.rateLimitedUntil = none) :
    (monitor.respond observation now).2.state = .succeeded ↔
      observation.headSha = monitor.expectedHeadSha ∧
        observation.baseSha = monitor.expectedBaseSha ∧
        observation.mergeability = .mergeable ∧ observation.ci = .success ∧
        observation.review = .approved := by
  rw [respond, hnetwork, haccess, hrate, if_neg (not_not.mpr rfl)]
  dsimp only [Option.filter_none]
  rw [if_neg (not_not.mpr rfl)]
  by_cases hhead : observation.headSha = monitor.expectedHeadSha
  swap
  · rw [if_pos hhead]
    exact iff_of_false nofun (fun hgood => hhead hgood.1)
  rw [if_neg (not_not.mpr hhead)]
  by_cases hbase : observation.baseSha = monitor.expectedBaseSha
  swap
  · rw [if_pos hbase]
    exact iff_of_false nofun (fun hgood => hbase hgood.2.1)
  rw [if_neg (not_not.mpr hbase)]
  cases hmerge : observation.mergeability with
  | mergeable =>
      dsimp only
      rw [judge_succeeded_iff]
      exact ⟨fun hgood => ⟨hhead, hbase, rfl, hgood⟩, fun hgood => hgood.2.2.2⟩
  | unknown => exact iff_of_false nofun (fun hgood => absurd hgood.2.2.1 nofun)
  | conflicting => exact iff_of_false nofun (fun hgood => absurd hgood.2.2.1 nofun)
  | inaccessibleFork => exact iff_of_false nofun (fun hgood => absurd hgood.2.2.1 nofun)

/-- A webhook asks for an immediate look; `false` where it changes nothing. -/
def wake (monitor : MonitorRecord) (now : DateTime) : MonitorRecord × Bool :=
  if monitor.state ≠ .pending then (monitor, false)
  else ({ monitor with
    nextAttemptAt := some now
    updatedAt := now
    summary := "webhook requested an immediate refresh" }, true)

def cancel (monitor : MonitorRecord) (now : DateTime) : MonitorRecord × Bool :=
  if monitor.state.isFinal then (monitor, false)
  else ({ monitor with
    state := .cancelled
    nextAttemptAt := none
    updatedAt := now
    summary := "monitoring cancelled by the operator" }, true)

end MonitorRecord

end Patchwright
