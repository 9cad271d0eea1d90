import Patchwright.Engine.Monitoring
import Patchwright.Library.Runs

/-!
# A monitor over a run of calls

A monitor lives on observations, on wakes by webhooks and the operator, and on
a cancellation.  An accepted observation has one of four answers: another look
is scheduled, the monitor is blocked, a repair is asked for, or the pull
request is approved.  What holds of a monitor after any run of calls follows
from these four.
-/

namespace Patchwright

open Checked Runs

namespace MonitorRecord

/-! ## What an observation may lead to -/

/-- The pull request that the monitor waits for: reachable, unchanged,
mergeable, with passing checks and an approving review. -/
structure Approves (monitor : MonitorRecord) (observation : RemoteObservation) (now : DateTime) :
    Prop where
  network : observation.networkAvailable = true
  access : observation.repositoryAccessible = true
  rate : ∀ limit ∈ observation.rateLimitedUntil, limit ≤ now
  head : observation.headSha = monitor.expectedHeadSha
  base : observation.baseSha = monitor.expectedBaseSha
  mergeable : observation.mergeability = .mergeable
  ci : observation.ci = .success
  review : observation.review = .approved

/-- When the next look is due: at the end of a rate limit, or after a backoff. -/
def Due (observation : RemoteObservation) (now next : DateTime) : Prop :=
  (observation.rateLimitedUntil = some next ∧ now < next) ∨
    (now + seconds 30 ≤ next ∧ next ≤ now + seconds 910)

theorem Due.le {observation : RemoteObservation} {now due : DateTime}
    (hdue : Due observation now due) : now ≤ due := by
  cases hdue with
  | inl hlimit => exact hlimit.2.le
  | inr hbackoff =>
      have hwait : (0 : Int) ≤ seconds 30 := by decide
      exact (Int.le_add_of_nonneg_right hwait).trans hbackoff.1

/-- The answers to an observation that the monitor has noted. -/
inductive Answer (monitor : MonitorRecord) (observation : RemoteObservation) (now : DateTime) :
    MonitorRecord × MonitorOutcome → Prop
  | scheduled (next : DateTime) (summary : String) (hdue : Due observation now next) :
      Answer monitor observation now (outcome { monitor with
        state := .pending, nextAttemptAt := some next, summary } false)
  | blocked (summary : String) : Answer monitor observation now (outcome { monitor with
      state := .blocked, nextAttemptAt := none, summary } true)
  | repair (summary : String) (hbudget : monitor.repairIteration < monitor.repairBudget) :
      Answer monitor observation now (outcome { monitor with
        repairIteration := monitor.repairIteration + 1, state := .repairNeeded
        nextAttemptAt := none, summary } true)
  | succeeded (summary : String) (happroves : monitor.Approves observation now) :
      Answer monitor observation now (outcome { monitor with
        state := .succeeded, nextAttemptAt := none, summary } false)

theorem seconds_mono {first second : Int} (hle : first ≤ second) :
    seconds first ≤ seconds second :=
  Int.mul_le_mul_of_nonneg_right hle (by decide)

/-- The backoff and its jitter lie between half a minute and a little more than
a quarter of an hour. -/
theorem schedule_answer (monitor : MonitorRecord) (observation : RemoteObservation)
    (now : DateTime) (summary : String) :
    Answer monitor observation now (monitor.schedule now summary) := by
  have hpower : (0 : Int) < 2 ^ min (monitor.attemptCount - 1) 5 := Int.pow_pos (by decide)
  have hjitter := Nat.mod_lt (monitor.id.value.toNat ^^^ monitor.attemptCount) (by decide : 0 < 11)
  have hwait : (30 : Int) ≤ min (initialBackoffSeconds * 2 ^ min (monitor.attemptCount - 1) 5)
        maxBackoffSeconds + ((monitor.id.value.toNat ^^^ monitor.attemptCount) % 11 : Nat) ∧
      min (initialBackoffSeconds * 2 ^ min (monitor.attemptCount - 1) 5) maxBackoffSeconds +
        ((monitor.id.value.toNat ^^^ monitor.attemptCount) % 11 : Nat) ≤ (910 : Int) := by
    simp only [initialBackoffSeconds, maxBackoffSeconds]
    omega
  apply Answer.scheduled
  exact .inr ⟨Int.add_le_add_left (seconds_mono hwait.1) now,
    Int.add_le_add_left (seconds_mono hwait.2) now⟩

theorem judge_answer {monitor : MonitorRecord} {observation : RemoteObservation} {now : DateTime}
    (happroves : observation.ci = .success → observation.review = .approved →
      monitor.Approves observation now) :
    Answer monitor observation now (monitor.judge observation now) := by
  rw [judge]
  cases repairReason observation.ci observation.review with
  | some reason =>
      dsimp only
      by_cases hbudget : monitor.repairIteration ≥ monitor.repairBudget
      · rw [if_pos hbudget]
        exact .blocked _
      · rw [if_neg hbudget]
        exact .repair _ (not_le.mp hbudget)
  | none =>
      dsimp only
      by_cases hgood : observation.ci = .success ∧ observation.review = .approved
      · rw [if_pos hgood]
        exact .succeeded _ (happroves hgood.1 hgood.2)
      · rw [if_neg hgood]
        exact schedule_answer monitor observation now _

/-- Every noted observation has one of the answers. -/
theorem respond_answer (monitor : MonitorRecord) (observation : RemoteObservation)
    (now : DateTime) : Answer monitor observation now (monitor.respond observation now) := by
  rw [respond]
  by_cases hnetwork : observation.networkAvailable
  swap
  · rw [if_pos hnetwork]
    exact schedule_answer monitor observation now _
  rw [if_neg (not_not.mpr hnetwork)]
  cases hrate : observation.rateLimitedUntil.filter (fun limit => decide (limit > now)) with
  | some limit =>
      obtain ⟨hlimit, hactive⟩ := Option.filter_eq_some_iff.mp hrate
      exact .scheduled limit _ (.inl ⟨hlimit, of_decide_eq_true hactive⟩)
  | none =>
      dsimp only
      by_cases haccess : observation.repositoryAccessible
      swap
      · rw [if_pos haccess]
        exact .blocked _
      rw [if_neg (not_not.mpr haccess)]
      by_cases hhead : observation.headSha = monitor.expectedHeadSha
      swap
      · rw [if_pos hhead]
        exact .blocked _
      rw [if_neg (not_not.mpr hhead)]
      by_cases hbase : observation.baseSha = monitor.expectedBaseSha
      swap
      · rw [if_pos hbase]
        exact .blocked _
      rw [if_neg (not_not.mpr hbase)]
      cases hmerge : observation.mergeability with
      | conflicting => exact .blocked _
      | inaccessibleFork => exact .blocked _
      | unknown => exact schedule_answer monitor observation now _
      | mergeable =>
          apply judge_answer
          intro hci hreview
          refine ⟨hnetwork, haccess, ?_, hhead, hbase, hmerge, hci, hreview⟩
          intro limit hlimit
          rw [Option.filter_eq_none_iff] at hrate
          exact not_lt.mp fun hlater => hrate limit hlimit (decide_eq_true hlater)

/-- An observation is accepted by a monitor that has not ended, if its commits
are named in full. -/
theorem observe_eq_ok {monitor : MonitorRecord} {observation : RemoteObservation} {now : DateTime}
    {result : MonitorRecord × MonitorOutcome} :
    monitor.observe observation now = .ok result ↔ ¬ monitor.state.isFinal ∧
      (∃ valid, validateMonitorSha observation.headSha = .ok valid) ∧
      (∃ valid, validateMonitorSha observation.baseSha = .ok valid) ∧
      (monitor.noted observation now).respond observation now = result := by
  rw [observe]
  simp only [bind_eq_ok, ensure_eq_ok, pure_eq_ok, exists_const, exists_and_right]

theorem observe_answer {monitor : MonitorRecord} {observation : RemoteObservation}
    {now : DateTime} {result : MonitorRecord × MonitorOutcome}
    (hok : monitor.observe observation now = .ok result) :
    Answer (monitor.noted observation now) observation now result := by
  obtain ⟨-, -, -, rfl⟩ := observe_eq_ok.1 hok
  exact respond_answer (monitor.noted observation now) observation now

end MonitorRecord

/-! ## Runs of calls -/

inductive MonitorCall where
  | observe (observation : RemoteObservation) (now : DateTime)
  | wake (now : DateTime)
  | cancel (now : DateTime)

/-- A monitor with the observations it has accepted, each with the time at
which it was, the latest one first. -/
structure Watch where
  monitor : MonitorRecord
  accepted : List (RemoteObservation × DateTime)

def Watch.step (watch : Watch) : MonitorCall → Option Watch
  | .observe observation now =>
      match watch.monitor.observe observation now with
      | .ok (monitor, _) => some ⟨monitor, (observation, now) :: watch.accepted⟩
      | .error _ => some watch
  | .wake now => some { watch with monitor := (watch.monitor.wake now).1 }
  | .cancel now => some { watch with monitor := (watch.monitor.cancel now).1 }

namespace Watch

/-- What holds of a monitor and the observations it has accepted. -/
structure Consistent (first : MonitorRecord) (watch : Watch) : Prop where
  sameHead : watch.monitor.expectedHeadSha = first.expectedHeadSha
  sameBase : watch.monitor.expectedBaseSha = first.expectedBaseSha
  sameBudget : watch.monitor.repairBudget = first.repairBudget
  budget : watch.monitor.repairIteration ≤ watch.monitor.repairBudget
  next : watch.monitor.nextAttemptAt.isSome ↔ watch.monitor.state = .pending
  attempts : watch.monitor.attemptCount = min watch.accepted.length (2 ^ 32 - 1)
  success : watch.monitor.state = .succeeded → ∃ observation now earlier,
    watch.accepted = (observation, now) :: earlier ∧ first.Approves observation now

/-- What one call does to a monitor.  A monitor that has ended stays as it is,
and so does one that rejects an observation; an accepted observation under
which it stays pending sets the next look, and one that blocks it or asks for a
repair invalidates its approvals. -/
structure Answers (watch : Watch) (call : MonitorCall) (next : Watch) : Prop where
  ended : watch.monitor.state.isFinal → next = watch
  rejected : ∀ observation now error, call = .observe observation now →
    watch.monitor.observe observation now = .error error → next = watch
  scheduled : ∀ observation now outcome, call = .observe observation now →
    watch.monitor.observe observation now = .ok (next.monitor, outcome) →
    next.monitor.state = .pending → ∃ due, next.monitor.nextAttemptAt = some due ∧
      MonitorRecord.Due observation now due ∧ now ≤ due
  invalidated : ∀ observation now outcome, call = .observe observation now →
    watch.monitor.observe observation now = .ok (next.monitor, outcome) →
    next.monitor.state = .blocked ∨ next.monitor.state = .repairNeeded →
    outcome.invalidateApprovals = true

variable {first : MonitorRecord} {watch next : Watch} {call : MonitorCall}

/-- A new monitor has accepted nothing. -/
theorem consistent_new {id : Uuid} {taskId : TaskId} {repositoryFullName : String}
    {pullRequestNumber repairBudget : Nat} {expectedHeadSha expectedBaseSha : String}
    {now : DateTime} (hnew : MonitorRecord.new id taskId repositoryFullName pullRequestNumber
      expectedHeadSha expectedBaseSha now repairBudget = .ok first) :
    Consistent first ⟨first, []⟩ := by
  simp only [MonitorRecord.new, bind_eq_ok, pure_eq_ok] at hnew
  obtain ⟨-, -, -, -, -, -, -, -, -, -, rfl⟩ := hnew
  exact {
    sameHead := rfl, sameBase := rfl, sameBudget := rfl, budget := Nat.zero_le _
    next := iff_of_true rfl rfl, attempts := rfl, success := fun hstate => by cases hstate }

/-- An accepted observation keeps what holds of a monitor that has not ended. -/
theorem Consistent.accept {observation : RemoteObservation} {now : DateTime}
    {monitor : MonitorRecord} {outcome : MonitorOutcome} (hwatch : Consistent first watch)
    (hok : watch.monitor.observe observation now = .ok (monitor, outcome)) :
    Consistent first ⟨monitor, (observation, now) :: watch.accepted⟩ := by
  have hattempts : (watch.monitor.noted observation now).attemptCount =
      min (watch.accepted.length + 1) (2 ^ 32 - 1) := by
    rw [MonitorRecord.noted, hwatch.attempts]
    dsimp only
    omega
  have hbudget := hwatch.budget
  have hanswer := MonitorRecord.observe_answer hok
  generalize hresult : (monitor, outcome) = result at hanswer
  cases hanswer with
  | scheduled due summary hdue =>
      cases hresult
      exact {
        hwatch with
        next := iff_of_true rfl rfl, attempts := hattempts, success := fun hstate => nomatch hstate }
  | blocked summary =>
      cases hresult
      exact {
        hwatch with
        next := iff_of_false nofun nofun, attempts := hattempts
        success := fun hstate => nomatch hstate }
  | repair summary hroom =>
      cases hresult
      exact {
        hwatch with
        budget := hroom, next := iff_of_false nofun nofun, attempts := hattempts
        success := fun hstate => nomatch hstate }
  | succeeded summary happroves =>
      cases hresult
      have hfirst : first.Approves observation now := {
        happroves with
        head := happroves.head.trans hwatch.sameHead
        base := happroves.base.trans hwatch.sameBase }
      exact {
        hwatch with
        next := iff_of_false nofun nofun, attempts := hattempts
        success := fun _ => ⟨observation, now, watch.accepted, rfl, hfirst⟩ }

theorem Consistent.wake (hwatch : Consistent first watch) (now : DateTime) :
    Consistent first { watch with monitor := (watch.monitor.wake now).1 } := by
  rw [MonitorRecord.wake]
  split
  · exact hwatch
  · rename_i hpending
    rw [not_not] at hpending
    exact { hwatch with next := iff_of_true rfl hpending }

theorem Consistent.cancel (hwatch : Consistent first watch) (now : DateTime) :
    Consistent first { watch with monitor := (watch.monitor.cancel now).1 } := by
  rw [MonitorRecord.cancel]
  split
  · exact hwatch
  · exact { hwatch with
      next := iff_of_false nofun nofun, success := fun hstate => nomatch hstate }

theorem Consistent.step (hwatch : Consistent first watch) (hstep : watch.step call = some next) :
    Consistent first next := by
  cases call with
  | observe observation now =>
      rw [Watch.step] at hstep
      cases hok : watch.monitor.observe observation now with
      | error error =>
          rw [hok] at hstep
          cases hstep
          exact hwatch
      | ok result =>
          rw [hok] at hstep
          cases hstep
          exact hwatch.accept hok
  | wake now =>
      cases hstep
      exact hwatch.wake now
  | cancel now =>
      cases hstep
      exact hwatch.cancel now

/-- A monitor that has ended is left as it is by every call. -/
theorem step_of_isFinal (hfinal : watch.monitor.state.isFinal) (hstep : watch.step call = some next) :
    next = watch := by
  cases call with
  | observe observation now =>
      have herror : watch.monitor.observe observation now = .error .terminal := by
        rw [MonitorRecord.observe, ensure, if_neg (not_not.mpr hfinal)]
        rfl
      rw [Watch.step, herror] at hstep
      exact (Option.some.inj hstep).symm
  | wake now =>
      have hpending : watch.monitor.state ≠ .pending := by
        intro hpending
        rw [hpending] at hfinal
        cases hfinal
      rw [Watch.step, MonitorRecord.wake, if_pos hpending] at hstep
      exact (Option.some.inj hstep).symm
  | cancel now =>
      rw [Watch.step, MonitorRecord.cancel, if_pos hfinal] at hstep
      exact (Option.some.inj hstep).symm

/-- What each call answers. -/
theorem step_answers (hstep : watch.step call = some next) : Answers watch call next := by
  refine ⟨fun hfinal => step_of_isFinal hfinal hstep, ?_, ?_, ?_⟩
  · rintro observation now error rfl hrejected
    rw [Watch.step, hrejected] at hstep
    exact (Option.some.inj hstep).symm
  · intro observation now outcome _ hok hpending
    have hanswer := MonitorRecord.observe_answer hok
    generalize hresult : (next.monitor, outcome) = result at hanswer
    obtain ⟨monitor, accepted⟩ := next
    cases hanswer with
    | scheduled due summary hdue =>
        cases hresult
        exact ⟨due, rfl, hdue, hdue.le⟩
    | blocked summary =>
        cases hresult
        exact absurd hpending nofun
    | repair summary hroom =>
        cases hresult
        exact absurd hpending nofun
    | succeeded summary happroves =>
        cases hresult
        exact absurd hpending nofun
  · intro observation now outcome _ hok hstate
    have hanswer := MonitorRecord.observe_answer hok
    generalize hresult : (next.monitor, outcome) = result at hanswer
    obtain ⟨monitor, accepted⟩ := next
    cases hanswer with
    | scheduled due summary hdue =>
        cases hresult
        exact absurd hstate nofun
    | blocked summary =>
        cases hresult
        rfl
    | repair summary hroom =>
        cases hresult
        rfl
    | succeeded summary happroves =>
        cases hresult
        exact absurd hstate nofun

/-- After the end of a monitor no run of calls changes anything. -/
theorem run_of_isFinal {calls : List MonitorCall} (hrun : run step watch calls = some next)
    (hfinal : watch.monitor.state.isFinal) : next = watch := by
  have hkeep : ∀ reached call after, reached = watch → reached.step call = some after →
      after = watch := by
    rintro _ call after rfl hstep
    exact step_of_isFinal hfinal hstep
  exact invariant_of_run hkeep hrun rfl

end Watch

/-- A new monitor keeps its invariants over every run of calls. -/
theorem monitor_run_consistent {id : Uuid} {taskId : TaskId} {repositoryFullName : String}
    {pullRequestNumber repairBudget : Nat} {expectedHeadSha expectedBaseSha : String}
    {created : DateTime} {first : MonitorRecord}
    (hnew : MonitorRecord.new id taskId repositoryFullName pullRequestNumber expectedHeadSha
      expectedBaseSha created repairBudget = .ok first)
    {calls : List MonitorCall} {final : Watch}
    (hrun : run Watch.step ⟨first, []⟩ calls = some final) :
    final.Consistent first ∧
      EveryStep Watch.step (fun watch call => ∀ next, watch.step call = some next →
        watch.Answers call next) ⟨first, []⟩ calls ∧
      ∀ before after ended, calls = before ++ after →
        run Watch.step ⟨first, []⟩ before = some ended → ended.monitor.state.isFinal →
        final = ended := by
  refine ⟨?_, ?_, ?_⟩
  · exact invariant_of_run (fun _ _ _ hwatch hstep => hwatch.step hstep) hrun
      (Watch.consistent_new hnew)
  · exact everyStep_of_forall (fun _ _ _ hstep => Watch.step_answers hstep) _ _
  · rintro before after ended rfl hbefore hended
    obtain ⟨middle, hmiddle, hafter⟩ := run_append_eq_some.1 hrun
    cases hbefore.symm.trans hmiddle
    exact Watch.run_of_isFinal hafter hended

namespace Sample

def monitoredHead : String := String.ofList (List.replicate 40 'a')

def monitoredBase : String := String.ofList (List.replicate 40 'b')

def observation (ci : CIState) (review : ReviewState) : RemoteObservation where
  observedAt := 0
  headSha := monitoredHead
  baseSha := monitoredBase
  ci := ci
  review := review
  mergeability := .mergeable
  repositoryAccessible := true
  networkAvailable := true
  rateLimitedUntil := none

def newMonitor : MonitorRecord where
  id := ⟨7⟩
  taskId := ⟨⟨1⟩⟩
  repositoryFullName := "octo/demo"
  pullRequestNumber := 7
  expectedHeadSha := monitoredHead
  expectedBaseSha := monitoredBase
  state := .pending
  attemptCount := 0
  repairIteration := 0
  repairBudget := 3
  nextAttemptAt := some 0
  latestObservation := none
  summary := "waiting for first remote observation"
  createdAt := 0
  updatedAt := 0

/-- A failing check asks for a repair, then the pull request is approved, and
the cancellation comes too late. -/
def calls : List MonitorCall := [.wake 1, .observe (observation .failure .pending) 2,
  .observe (observation .success .approved) 3, .cancel 4]

end Sample

open Sample

theorem monitor_run_approved : ∃ final, run Watch.step ⟨newMonitor, []⟩ calls = some final ∧
    final.monitor.state = .succeeded ∧ final.Consistent newMonitor := by
  have hnew : MonitorRecord.new ⟨7⟩ ⟨⟨1⟩⟩ "octo/demo" 7 monitoredHead monitoredBase 0 3 =
      .ok newMonitor := by decide
  refine ⟨⟨{ newMonitor with
    state := .succeeded, attemptCount := 2, repairIteration := 1, nextAttemptAt := none
    latestObservation := some (observation .success .approved)
    summary := "CI passed and review is approved", updatedAt := 3 },
    [(observation .success .approved, 3), (observation .failure .pending, 2)]⟩, ?_, rfl, ?_⟩
  · rfl
  · have hrun : run Watch.step ⟨newMonitor, []⟩ calls = some _ := rfl
    exact (monitor_run_consistent hnew hrun).1

end Patchwright
