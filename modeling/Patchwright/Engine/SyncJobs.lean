import Patchwright.Library.Runs
import Patchwright.Engine.Store

/-!
# Synchronization jobs

A synchronization runs beside the requests, in a task of its own that this
module calls the worker.  Worker and cancellations meet in three places: the row
of the job, the entry of the job among the active synchronizations, and the
signal that a cancellation sends through that entry.  Each step is one hold of
the store or of the active synchronizations, or one look at the signal.

A cancellation and the worker both read the state of the job in one hold and
move it, from the state they have read, in a later one.
-/

namespace Patchwright

open Checked Runs

/-- The counts of a synchronization that the summary of its job names. -/
structure GitHubSyncSummary where
  repositoriesSynced : UInt64
  workItems : UInt64
  deriving DecidableEq

/-- How a synchronization ends: with its counts and whether it saw the signal,
or with an error. -/
abbrev SyncResult : Type := Except Unit (GitHubSyncSummary × Bool)

def SyncResult.sawSignal : SyncResult → Bool
  | .ok (_, saw) => saw
  | .error _ => false

/-- A move of a job as it is passed to the store. -/
structure JobMove where
  expected : JobState
  next : JobState
  cancellation : CancellationState
  summary : String
  deriving DecidableEq, Repr

def JobMove.apply (move : JobMove) (store : EventStore) (id : JobId) (now : DateTime) :
    Except String (EventStore × Bool) :=
  store.transitionJob id move.expected move.next move.cancellation move.summary none now

/-- The move of a cancellation that has read the job in this state. -/
def cancelMove : JobState → Option JobMove
  | .queued => some ⟨.queued, .cancelled, .acknowledged, "GitHub sync cancelled before start"⟩
  | .running => some ⟨.running, .cancelling, .requested, "GitHub sync cancellation requested"⟩
  | _ => none

def startMove : JobMove :=
  ⟨.queued, .running, .notRequested, "GitHub sync running via gh read-only fallback"⟩

/-- The last move of the worker, from the state it has read. -/
def finishMove (current : JobState) (result : SyncResult) (signalled : Bool) : JobMove :=
  if signalled || result.sawSignal then
    ⟨current, .cancelled, .acknowledged,
      match result with
      | .ok (summary, _) => "GitHub sync cancelled after " ++
          (toString summary.repositoriesSynced.toNat ++ " repositories")
      | .error _ => "GitHub sync cancelled"⟩
  else
    match result with
    | .ok (summary, _) =>
        ⟨current, .succeeded, .notRequested, "GitHub sync completed: " ++
          (toString summary.repositoriesSynced.toNat ++ (" repositories, " ++
            (toString summary.workItems.toNat ++ " work items")))⟩
    | .error _ => ⟨current, .failed, .notRequested, "GitHub sync failed; inspect engine logs"⟩

inductive SyncWorker where
  | spawned
  | running
  | loaded (current : JobState) (result : SyncResult)
  | decided (move : JobMove)
  | leaving
  | ended
  deriving DecidableEq

inductive SyncCancel where
  | loaded (current : JobState)
  | moved
  | signalled
  deriving DecidableEq

/-- A synchronization with the cancellations that are under way. -/
structure SyncJob where
  store : EventStore
  worker : SyncWorker
  registered : Bool
  signal : Bool
  cancels : Table Nat SyncCancel

/-- The start of a synchronization, where no other one is active. -/
def githubSyncStart (now : DateTime) (store : EventStore) (id : JobId) :
    Except String SyncJob := do
  let job ← (Job.new id now .gitHubSync none "GitHub sync queued").mapError JobError.message
  let store ← store.createJob job
  return { store, worker := .spawned, registered := true, signal := false, cancels := ∅ }

/-- The holds of the worker, the holds of a cancellation, and what the rest of
the engine does to the store. -/
inductive SyncEvent where
  | start (now : DateTime)
  | load (result : SyncResult)
  | decide
  | finish (now : DateTime)
  | leave
  | cancelLoad (call : Nat)
  | cancelMove (call : Nat) (now : DateTime)
  | cancelSignal (call : Nat)
  | cancelAnswer (call : Nat)
  | elsewhere (store : EventStore)

namespace SyncJob

def putCancel (sync : SyncJob) (call : Nat) (place : SyncCancel) : SyncJob :=
  { sync with cancels := sync.cancels.insert call place }

def endCancel (sync : SyncJob) (call : Nat) : SyncJob :=
  { sync with cancels := sync.cancels.erase call }

/-- Nothing of the synchronization is under way any more. -/
def Ended (sync : SyncJob) : Prop := sync.worker = .ended ∧ sync.cancels.entries = []

instance (sync : SyncJob) : Decidable sync.Ended :=
  inferInstanceAs (Decidable (_ ∧ _))

end SyncJob

/-- One step of a synchronization.  The rest of the engine leaves the row of the
job alone, and a synchronization sees only a signal that was sent. -/
def syncStep (id : JobId) (sync : SyncJob) : SyncEvent → Option SyncJob
  | .start now =>
      match sync.worker with
      | .spawned =>
          match startMove.apply sync.store id now with
          | .ok (store, true) => some { sync with store, worker := .running }
          | _ => some { sync with worker := .leaving }
      | _ => none
  | .load result =>
      match sync.worker with
      | .running =>
          if result.sawSignal → sync.signal then
            match sync.store.job id with
            | some job => some { sync with worker := .loaded job.state result }
            | none => some { sync with worker := .leaving }
          else none
      | _ => none
  | .decide =>
      match sync.worker with
      | .loaded current result =>
          some { sync with worker := .decided (finishMove current result sync.signal) }
      | _ => none
  | .finish now =>
      match sync.worker with
      | .decided move =>
          match move.apply sync.store id now with
          | .ok (store, _) => some { sync with store, worker := .leaving }
          | .error _ => some { sync with worker := .leaving }
      | _ => none
  | .leave =>
      match sync.worker with
      | .leaving => some { sync with worker := .ended, registered := false }
      | _ => none
  | .cancelLoad call =>
      if sync.cancels.lookup call = none then
        match sync.store.job id with
        | some job =>
            if job.kind = .gitHubSync then some (sync.putCancel call (.loaded job.state))
            else some sync
        | none => some sync
      else none
  | .cancelMove call now =>
      match sync.cancels.lookup call with
      | some (.loaded current) =>
          match Patchwright.cancelMove current with
          | some move =>
              match move.apply sync.store id now with
              | .ok (store, _) => some ({ sync with store }.putCancel call .moved)
              | .error _ => some (sync.endCancel call)
          | none => some (sync.putCancel call .moved)
      | _ => none
  | .cancelSignal call =>
      match sync.cancels.lookup call with
      | some .moved =>
          some ({ sync with signal := sync.signal || sync.registered }.putCancel call .signalled)
      | _ => none
  | .cancelAnswer call =>
      match sync.cancels.lookup call with
      | some .signalled => some (sync.endCancel call)
      | _ => none
  | .elsewhere store =>
      if store.job id = sync.store.job id then some { sync with store } else none

/-! ### What a move does to the row -/

/-- The job is stored as a synchronization in this state. -/
def EventStore.SyncRow (store : EventStore) (id : JobId) (state : JobState) : Prop :=
  ∃ job, store.job id = some job ∧ job.kind = .gitHubSync ∧ job.state = state

section Moves

variable {store : EventStore} {id : JobId} {state other : JobState} {move : JobMove}

theorem EventStore.SyncRow.unique (hrow : store.SyncRow id state) (hother : store.SyncRow id other) :
    state = other := by
  rcases hrow with ⟨job, hjob, -, rfl⟩
  rcases hother with ⟨again, hagain, -, rfl⟩
  rw [hjob, Option.some.injEq] at hagain
  rw [hagain]

theorem EventStore.SyncRow.terminated_iff (hrow : store.SyncRow id state) :
    store.JobTerminated id ↔ state.isTerminal := by
  rcases hrow with ⟨job, hjob, -, rfl⟩
  constructor
  · rintro ⟨again, hagain, hterminal⟩
    rw [hjob, Option.some.injEq] at hagain
    rwa [hagain]
  · exact fun hterminal => ⟨job, hjob, hterminal⟩

theorem EventStore.SyncRow.congr {next : EventStore} (hrow : store.SyncRow id state)
    (hjob : next.job id = store.job id) : next.SyncRow id state := by
  rcases hrow with ⟨job, hfound, hrest⟩
  exact ⟨job, hjob.trans hfound, hrest⟩

/-- The store accepts the text of the move. -/
def JobMove.IsValid (move : JobMove) : Prop := ∃ text, validateSummary move.summary = .ok text

/-- A permitted move takes place when the row is in the state it expects. -/
theorem JobMove.apply_hit (hvalid : move.IsValid) (hpermits : move.expected.permits move.next)
    (hrow : store.SyncRow id move.expected) (now : DateTime) :
    ∃ next, move.apply store id now = .ok (next, true) ∧ next.SyncRow id move.next := by
  rcases hvalid with ⟨text, htext⟩
  rcases hrow with ⟨job, hjob, hkind, hstate⟩
  rcases EventStore.transitionJob_of_eq move.cancellation none now hpermits htext hjob
    hstate with ⟨next, hmoved, hrow⟩
  exact ⟨next, hmoved, _, hrow, hkind, rfl⟩

/-- A move that is not permitted, or expects another state, changes nothing. -/
theorem JobMove.apply_miss (hrow : store.SyncRow id state)
    (hmiss : state = move.expected → ¬ move.expected.permits move.next) (now : DateTime) :
    move.apply store id now = .ok (store, false) ∨
      ∃ error, move.apply store id now = .error error := by
  rcases hrow with ⟨job, hjob, -, rfl⟩
  unfold JobMove.apply
  by_cases hpermits : move.expected.permits move.next
  · cases htext : validateSummary move.summary with
    | error error =>
        rw [EventStore.transitionJob, ensure, if_pos hpermits, htext]
        exact .inr ⟨_, rfl⟩
    | ok text =>
        have hstate : job.state ≠ move.expected := fun hsame => hmiss hsame hpermits
        exact .inl (EventStore.transitionJob_of_ne hpermits htext hjob hstate)
  · exact .inr ⟨_, EventStore.transitionJob_of_not_permits hpermits⟩

/-- A move with a valid text takes place or changes nothing. -/
theorem JobMove.apply_row (hvalid : move.IsValid) (hrow : store.SyncRow id state)
    (now : DateTime) :
    (state = move.expected ∧ move.expected.permits move.next ∧
      ∃ next, move.apply store id now = .ok (next, true) ∧ next.SyncRow id move.next) ∨
    ((state = move.expected → ¬ move.expected.permits move.next) ∧
      (move.apply store id now = .ok (store, false) ∨
        ∃ error, move.apply store id now = .error error)) := by
  by_cases hhit : state = move.expected ∧ move.expected.permits move.next
  · rcases hhit with ⟨rfl, hpermits⟩
    exact .inl ⟨rfl, hpermits, move.apply_hit hvalid hpermits hrow now⟩
  · have hmiss : state = move.expected → ¬ move.expected.permits move.next :=
      fun hstate hpermits => hhit ⟨hstate, hpermits⟩
    exact .inr ⟨hmiss, move.apply_miss hrow hmiss now⟩

end Moves

/-! ### The texts of the moves -/

section Texts

theorem cancelMove_eq_some {state : JobState} {move : JobMove} (hmove : cancelMove state = some move) :
    move.IsValid ∧ move.expected = state ∧ ((state = .queued ∧ move.next = .cancelled) ∨
      (state = .running ∧ move.next = .cancelling)) := by
  unfold cancelMove at hmove
  split at hmove
  · cases hmove
    refine ⟨⟨"GitHub sync cancelled before start", ?_⟩, rfl, .inl ⟨rfl, rfl⟩⟩
    decide
  · cases hmove
    refine ⟨⟨"GitHub sync cancellation requested", ?_⟩, rfl, .inr ⟨rfl, rfl⟩⟩
    decide
  · exact absurd hmove nofun

theorem startMove_isValid : startMove.IsValid := by
  refine ⟨"GitHub sync running via gh read-only fallback", ?_⟩
  decide

theorem isPlain_cancelled (count : UInt64) : IsPlain 256 ("GitHub sync cancelled after " ++
    (toString count.toNat ++ " repositories")) := by
  have hleft : IsPlain 28 "GitHub sync cancelled after " := by
    constructor <;> decide
  have hright : IsPlain 13 " repositories" := by
    constructor <;> decide
  exact (hleft.decimal hright count).mono (by decide)

theorem isPlain_completed (repositories items : UInt64) : IsPlain 256 ("GitHub sync completed: " ++
    (toString repositories.toNat ++ (" repositories, " ++
      (toString items.toNat ++ " work items")))) := by
  have hleft : IsPlain 23 "GitHub sync completed: " := by
    constructor <;> decide
  have hmiddle : IsPlain 15 " repositories, " := by
    constructor <;> decide
  have hright : IsPlain 11 " work items" := by
    constructor <;> decide
  exact (hleft.decimal (hmiddle.decimal hright items) repositories).mono (by decide)

theorem finishMove_isValid (current : JobState) (result : SyncResult) (signalled : Bool) :
    (finishMove current result signalled).IsValid := by
  unfold finishMove
  split
  · cases result with
    | ok counts =>
        refine ⟨_, validateSummary_of_isPlain (isPlain_cancelled _) ?_ ?_⟩
        · exact fun hempty => absurd (congrArg String.toList hempty) (by simp)
        · exact trim_append 'G' 's' rfl (getLast?_append rfl) (by decide)
    | error error =>
        refine ⟨"GitHub sync cancelled", ?_⟩
        change validateSummary "GitHub sync cancelled" = _
        decide
  · cases result with
    | ok counts =>
        refine ⟨_, validateSummary_of_isPlain (isPlain_completed _ _) ?_ ?_⟩
        · exact fun hempty => absurd (congrArg String.toList hempty) (by simp)
        · exact trim_append 'G' 's' rfl
            (getLast?_append (getLast?_append (getLast?_append rfl))) (by decide)
    | error error =>
        refine ⟨"GitHub sync failed; inspect engine logs", ?_⟩
        change validateSummary "GitHub sync failed; inspect engine logs" = _
        decide

@[simp]
theorem finishMove_expected (current : JobState) (result : SyncResult) (signalled : Bool) :
    (finishMove current result signalled).expected = current := by
  unfold finishMove
  split
  · rfl
  · cases result <;> rfl

/-- The worker wants to end the job; only a running job with a signal stands in
its way. -/
theorem finishMove_next {current : JobState} {result : SyncResult} {signalled : Bool}
    (hcurrent : current = .running ∨ current = .cancelling)
    (hsaw : result.sawSignal → signalled) :
    (finishMove current result signalled).next.isTerminal ∧
      (¬ (signalled ∧ current = .running) → current.permits (finishMove current result signalled).next) ∧
      (signalled → (finishMove current result signalled).next = .cancelled) := by
  cases signalled with
  | true => rcases hcurrent with rfl | rfl <;> simp [finishMove, JobState.isTerminal, JobState.permits]
  | false =>
      have hunseen : result.sawSignal = false := Bool.eq_false_iff.mpr fun hseen => nomatch hsaw hseen
      unfold finishMove
      rw [hunseen]
      cases result <;> rcases hcurrent with rfl | rfl <;> simp [JobState.isTerminal, JobState.permits]

end Texts

/-! ### On course and stuck -/

/-- How far the worker is, as long as the job can still end. -/
def SyncWorker.OnCourse (signal : Bool) (state : JobState) : SyncWorker → Prop
  | .spawned => state = .queued ∨ state = .cancelled
  | .running => state = .running ∨ state = .cancelling
  | .loaded current result =>
      (state = .running ∨ state = .cancelling) ∧ state = current ∧ (result.sawSignal → signal)
  | .decided move =>
      (state = .running ∨ state = .cancelling) ∧ state = move.expected ∧
        move.expected.permits move.next ∧ move.next.isTerminal ∧ move.IsValid
  | .leaving | .ended => state.isTerminal

/-- The last move of the worker will fail, or has failed. -/
def SyncWorker.Stuck (state : JobState) : SyncWorker → Prop
  | .spawned | .running => False
  | .loaded current _ => current = .running ∧ state = .cancelling
  | .decided move => move.expected = .running ∧ (state = .cancelling ∨ move.next = .cancelled)
  | .leaving | .ended => True

/-- The worker has read the job and not yet moved it. -/
def SyncWorker.isBetween : SyncWorker → Bool
  | .loaded .. | .decided _ => true
  | _ => false

namespace SyncJob

def OnCourse (id : JobId) (sync : SyncJob) : Prop :=
  ∃ state, sync.store.SyncRow id state ∧ sync.worker.OnCourse sync.signal state

def Stuck (id : JobId) (sync : SyncJob) : Prop :=
  ∃ state, sync.store.SyncRow id state ∧ (state = .running ∨ state = .cancelling) ∧
    sync.worker.Stuck state

/-- No cancellation moves a running job while the worker is between reading and
moving it, and the signal has not been sent when the worker has read the job as
running. -/
def Heeds (id : JobId) (sync : SyncJob) : SyncEvent → Prop
  | .cancelMove call _ => ¬ (sync.worker.isBetween ∧ sync.store.SyncRow id .running ∧
      sync.cancels.lookup call = some (.loaded .running))
  | .decide => ¬ (sync.signal ∧ ∃ result, sync.worker = .loaded .running result)
  | _ => True

end SyncJob

/-! ### What each step does to the course -/

section Steps

variable {id : JobId} {sync next : SyncJob}

/-- The worker starts a queued job and leaves any other one. -/
theorem start_row {now : DateTime} {state : JobState}
    (hstep : syncStep id sync (.start now) = some next) (hrow : sync.store.SyncRow id state) :
    sync.worker = .spawned ∧ next.signal = sync.signal ∧
      ((state = .queued ∧ next.worker = .running ∧ next.store.SyncRow id .running) ∨
        (state ≠ .queued ∧ next.worker = .leaving ∧ next.store.SyncRow id state)) := by
  simp only [syncStep] at hstep
  split at hstep
  · next hworker =>
      rcases startMove.apply_row startMove_isValid hrow now with
        ⟨hstate, -, moved, happly, hmoved⟩ | ⟨hmiss, happly⟩
      · rw [happly] at hstep
        cases hstep
        exact ⟨hworker, rfl, .inl ⟨hstate, rfl, hmoved⟩⟩
      · have hstate : state ≠ .queued := fun hqueued => hmiss hqueued rfl
        rcases happly with happly | ⟨error, happly⟩ <;> rw [happly] at hstep <;> cases hstep <;>
          exact ⟨hworker, rfl, .inr ⟨hstate, rfl, hrow⟩⟩
  · cases hstep

theorem load_row {result : SyncResult} {state : JobState}
    (hstep : syncStep id sync (.load result) = some next) (hrow : sync.store.SyncRow id state) :
    sync.worker = .running ∧ (result.sawSignal → sync.signal) ∧
      next = { sync with worker := .loaded state result } := by
  rcases hrow with ⟨job, hjob, -, rfl⟩
  simp only [syncStep] at hstep
  split at hstep
  · next hworker =>
      split at hstep
      · next hsaw =>
          rw [hjob] at hstep
          cases hstep
          exact ⟨hworker, hsaw, rfl⟩
      · cases hstep
  · cases hstep

theorem decide_eq_some (hstep : syncStep id sync .decide = some next) :
    ∃ current result, sync.worker = .loaded current result ∧
      next = { sync with worker := .decided (finishMove current result sync.signal) } := by
  simp only [syncStep] at hstep
  split at hstep
  · next current result hworker =>
      cases hstep
      exact ⟨current, result, hworker, rfl⟩
  · cases hstep

/-- The last move of the worker takes place or changes nothing. -/
theorem finish_row {now : DateTime} {state : JobState}
    (hstep : syncStep id sync (.finish now) = some next) (hrow : sync.store.SyncRow id state) :
    ∃ move, sync.worker = .decided move ∧ next.worker = .leaving ∧
      (move.IsValid → state = move.expected → move.expected.permits move.next →
        next.store.SyncRow id move.next) ∧
      ((state = move.expected → ¬ move.expected.permits move.next) →
        next.store.SyncRow id state) := by
  simp only [syncStep] at hstep
  split at hstep
  · next move hworker =>
      refine ⟨move, hworker, ?_, ?_, ?_⟩
      · split at hstep <;> cases hstep <;> rfl
      · rintro hvalid rfl hpermits
        rcases move.apply_hit hvalid hpermits hrow now with ⟨moved, happly, hmoved⟩
        rw [happly] at hstep
        cases hstep
        exact hmoved
      · intro hmiss
        rcases move.apply_miss hrow hmiss now with happly | ⟨error, happly⟩ <;>
          rw [happly] at hstep <;> cases hstep <;> exact hrow
  · cases hstep

/-- A cancellation moves the row from the state it has read, or leaves it. -/
theorem cancelMove_row {call : Nat} {now : DateTime} {state : JobState}
    (hstep : syncStep id sync (.cancelMove call now) = some next)
    (hrow : sync.store.SyncRow id state) :
    next.worker = sync.worker ∧ next.signal = sync.signal ∧
      ((state = .queued ∧ next.store.SyncRow id .cancelled) ∨
        (sync.cancels.lookup call = some (.loaded .running) ∧ state = .running ∧
          next.store.SyncRow id .cancelling) ∨
        (¬ (sync.cancels.lookup call = some (.loaded .running) ∧ state = .running) ∧
          next.store.SyncRow id state)) := by
  simp only [syncStep] at hstep
  split at hstep
  · next current hcall =>
      split at hstep
      · next move hmove =>
          rcases cancelMove_eq_some hmove with ⟨hvalid, hexpected, hkinds⟩
          rcases move.apply_row hvalid hrow now with
            ⟨hstate, -, moved, happly, hmoved⟩ | ⟨hmiss, happly⟩
          · rw [happly] at hstep
            cases hstep
            rw [hexpected] at hstate
            refine ⟨rfl, rfl, ?_⟩
            rcases hkinds with ⟨hqueued, hnext⟩ | ⟨hrunning, hnext⟩
            · rw [hnext] at hmoved
              exact .inl ⟨hstate.trans hqueued, hmoved⟩
            · rw [hnext] at hmoved
              exact .inr (.inl ⟨hrunning ▸ hcall, hstate.trans hrunning, hmoved⟩)
          · have hstays : ¬ (sync.cancels.lookup call = some (.loaded .running) ∧
                state = .running) := by
              rintro ⟨hrunning, hstate⟩
              rw [hcall, Option.some.injEq, SyncCancel.loaded.injEq] at hrunning
              rw [hexpected, hrunning] at hmiss
              rcases hkinds with ⟨hqueued, -⟩ | ⟨-, hnext⟩
              · exact absurd (hrunning.symm.trans hqueued) (by decide)
              · exact hmiss hstate (hnext ▸ rfl)
            rcases happly with happly | ⟨error, happly⟩ <;> rw [happly] at hstep <;> cases hstep <;>
              exact ⟨rfl, rfl, .inr (.inr ⟨hstays, hrow⟩)⟩
      · next hnone =>
          cases hstep
          refine ⟨rfl, rfl, .inr (.inr ⟨?_, hrow⟩)⟩
          rintro ⟨hrunning, -⟩
          rw [hcall, Option.some.injEq, SyncCancel.loaded.injEq] at hrunning
          rw [hrunning] at hnone
          exact absurd hnone nofun
  · cases hstep

/-- The other steps leave the row and the worker alone. -/
theorem quiet_row {event : SyncEvent} {state : JobState}
    (hstep : syncStep id sync event = some next) (hrow : sync.store.SyncRow id state)
    (hquiet : match event with
      | .cancelLoad _ | .cancelSignal _ | .cancelAnswer _ | .elsewhere _ => True
      | _ => False) :
    next.worker = sync.worker ∧ (sync.signal → next.signal) ∧ next.store.SyncRow id state := by
  cases event with
  | cancelLoad call =>
      simp only [syncStep] at hstep
      split at hstep
      · split at hstep
        · split at hstep <;> cases hstep <;> exact ⟨rfl, fun hsignal => hsignal, hrow⟩
        · cases hstep
          exact ⟨rfl, fun hsignal => hsignal, hrow⟩
      · cases hstep
  | cancelSignal call =>
      simp only [syncStep] at hstep
      split at hstep <;> cases hstep
      exact ⟨rfl, fun hsignal => Bool.or_eq_true_iff.mpr (.inl hsignal), hrow⟩
  | cancelAnswer call =>
      simp only [syncStep] at hstep
      split at hstep <;> cases hstep
      exact ⟨rfl, fun hsignal => hsignal, hrow⟩
  | elsewhere store =>
      simp only [syncStep] at hstep
      split at hstep
      · next hjob =>
          cases hstep
          exact ⟨rfl, fun hsignal => hsignal, hrow.congr hjob⟩
      · cases hstep
  | _ => exact hquiet.elim

theorem SyncWorker.OnCourse.mono {signal later : Bool} {state : JobState} {worker : SyncWorker}
    (hcourse : worker.OnCourse signal state) (hsignal : signal → later) :
    worker.OnCourse later state := by
  cases worker with
  | loaded current result => exact ⟨hcourse.1, hcourse.2.1, fun hsaw => hsignal (hcourse.2.2 hsaw)⟩
  | _ => exact hcourse

theorem leave_eq_some (hstep : syncStep id sync .leave = some next) :
    sync.worker = .leaving ∧ next = { sync with worker := .ended, registered := false } := by
  simp only [syncStep] at hstep
  split at hstep
  · next hworker =>
      cases hstep
      exact ⟨hworker, rfl⟩
  · cases hstep

/-- A step that heeds the condition keeps the job on course. -/
theorem syncStep_onCourse {event : SyncEvent} (hheeds : sync.Heeds id event)
    (hcourse : sync.OnCourse id) (hstep : syncStep id sync event = some next) :
    next.OnCourse id := by
  rcases hcourse with ⟨state, hrow, hcourse⟩
  cases event with
  | start now =>
      rcases start_row hstep hrow with ⟨hworker, -, ⟨-, hnext, hmoved⟩ | ⟨hstate, hnext, hkept⟩⟩
      · exact ⟨.running, hmoved, hnext ▸ .inl rfl⟩
      · rw [hworker] at hcourse
        refine ⟨state, hkept, ?_⟩
        rw [hnext, hcourse.resolve_left hstate]
        rfl
  | load result =>
      rcases load_row hstep hrow with ⟨hworker, hsaw, rfl⟩
      rw [hworker] at hcourse
      exact ⟨state, hrow, hcourse, rfl, hsaw⟩
  | decide =>
      rcases decide_eq_some hstep with ⟨current, result, hworker, rfl⟩
      rw [hworker] at hcourse
      rcases hcourse with ⟨hbusy, rfl, hsaw⟩
      rcases finishMove_next hbusy hsaw with ⟨hterminal, hpermits, -⟩
      have hfree : ¬ (sync.signal ∧ state = .running) := by
        rintro ⟨hsignal, rfl⟩
        exact hheeds ⟨hsignal, result, hworker⟩
      refine ⟨state, hrow, hbusy, ?_, ?_, hterminal, finishMove_isValid _ _ _⟩
      · rw [finishMove_expected]
      · rw [finishMove_expected]
        exact hpermits hfree
  | finish now =>
      rcases finish_row hstep hrow with ⟨move, hworker, hnext, hhit, -⟩
      rw [hworker] at hcourse
      rcases hcourse with ⟨-, hstate, hpermits, hterminal, hvalid⟩
      refine ⟨move.next, hhit hvalid hstate hpermits, ?_⟩
      rw [hnext]
      exact hterminal
  | leave =>
      rcases leave_eq_some hstep with ⟨hworker, rfl⟩
      rw [hworker] at hcourse
      exact ⟨state, hrow, hcourse⟩
  | cancelMove call now =>
      rcases cancelMove_row hstep hrow with ⟨hworker, hsignal, hrest⟩
      rw [SyncJob.OnCourse, hworker, hsignal]
      rcases hrest with ⟨rfl, hmoved⟩ | ⟨hcall, rfl, hmoved⟩ | ⟨-, hkept⟩
      · refine ⟨.cancelled, hmoved, ?_⟩
        generalize sync.worker = worker at hcourse
        cases worker <;> simp_all [SyncWorker.OnCourse, JobState.isTerminal]
      · refine ⟨.cancelling, hmoved, ?_⟩
        have hidle : ¬ sync.worker.isBetween := fun hbetween => hheeds ⟨hbetween, hrow, hcall⟩
        generalize sync.worker = worker at hcourse hidle
        cases worker <;> simp_all [SyncWorker.OnCourse, SyncWorker.isBetween, JobState.isTerminal]
      · exact ⟨state, hkept, hcourse⟩
  | _ =>
      rcases quiet_row hstep hrow trivial with ⟨hworker, hsignal, hkept⟩
      exact ⟨state, hkept, hworker ▸ hcourse.mono hsignal⟩

/-- A step that does not heed the condition leaves the job stuck. -/
theorem syncStep_astray {event : SyncEvent} (hheeds : ¬ sync.Heeds id event)
    (hcourse : sync.OnCourse id) (hstep : syncStep id sync event = some next) :
    next.Stuck id := by
  rcases hcourse with ⟨state, hrow, hcourse⟩
  cases event with
  | decide =>
      rcases not_not.mp hheeds with ⟨hsignal, result, hworker⟩
      rcases decide_eq_some hstep with ⟨current, seen, hloaded, rfl⟩
      rw [hworker, SyncWorker.loaded.injEq] at hloaded
      rcases hloaded with ⟨rfl, rfl⟩
      rw [hworker] at hcourse
      rcases hcourse with ⟨hbusy, hstate, hsaw⟩
      rcases finishMove_next (.inl rfl) hsaw with ⟨-, -, hcancelled⟩
      exact ⟨state, hrow, hbusy, finishMove_expected _ _ _, .inr (hcancelled hsignal)⟩
  | cancelMove call now =>
      rcases not_not.mp hheeds with ⟨hbetween, hrunning, hcall⟩
      have hstate : state = .running := hrow.unique hrunning
      rcases cancelMove_row hstep hrow with ⟨hworker, -, ⟨hqueued, -⟩ | ⟨-, -, hmoved⟩ | ⟨hstays, -⟩⟩
      · exact absurd (hstate.symm.trans hqueued) (by decide)
      · refine ⟨.cancelling, hmoved, .inr rfl, ?_⟩
        rw [hworker]
        generalize sync.worker = worker at hcourse hbetween
        cases worker <;> simp_all [SyncWorker.OnCourse, SyncWorker.isBetween, SyncWorker.Stuck]
      · exact absurd ⟨hcall, hstate⟩ hstays
  | _ => exact absurd trivial hheeds

/-- A stuck job stays stuck. -/
theorem syncStep_stuck {event : SyncEvent} (hstuck : sync.Stuck id)
    (hstep : syncStep id sync event = some next) : next.Stuck id := by
  rcases hstuck with ⟨state, hrow, hbusy, hstuck⟩
  cases event with
  | start now =>
      rcases start_row hstep hrow with ⟨hworker, -⟩
      rw [hworker] at hstuck
      exact hstuck.elim
  | load result =>
      rcases load_row hstep hrow with ⟨hworker, -⟩
      rw [hworker] at hstuck
      exact hstuck.elim
  | decide =>
      rcases decide_eq_some hstep with ⟨current, result, hworker, rfl⟩
      rw [hworker] at hstuck
      refine ⟨state, hrow, hbusy, ?_, .inl hstuck.2⟩
      rw [finishMove_expected]
      exact hstuck.1
  | finish now =>
      rcases finish_row hstep hrow with ⟨move, hworker, hnext, -, hmiss⟩
      rw [hworker] at hstuck
      refine ⟨state, hmiss ?_, hbusy, ?_⟩
      · intro hstate hpermits
        rw [hstuck.1] at hstate hpermits
        rcases hstuck.2 with hcancelling | hcancelled
        · exact absurd (hstate.symm.trans hcancelling) (by decide)
        · rw [hcancelled] at hpermits
          exact absurd hpermits (by decide)
      · rw [hnext]
        trivial
  | leave =>
      rcases leave_eq_some hstep with ⟨hworker, rfl⟩
      exact ⟨state, hrow, hbusy, trivial⟩
  | cancelMove call now =>
      rcases cancelMove_row hstep hrow with ⟨hworker, -, hrest⟩
      rw [SyncJob.Stuck, hworker]
      rcases hrest with ⟨rfl, -⟩ | ⟨-, rfl, hmoved⟩ | ⟨-, hkept⟩
      · exact absurd hbusy (by decide)
      · refine ⟨.cancelling, hmoved, .inr rfl, ?_⟩
        generalize sync.worker = worker at hstuck
        cases worker <;> simp_all [SyncWorker.Stuck]
      · exact ⟨state, hkept, hbusy, hstuck⟩
  | _ =>
      rcases quiet_row hstep hrow trivial with ⟨hworker, -, hkept⟩
      exact ⟨state, hkept, hbusy, hworker ▸ hstuck⟩

end Steps

/-! ### Whole runs -/

section SyncRuns

variable {id : JobId} {now : DateTime} {store : EventStore} {started final : SyncJob}
variable {events : List SyncEvent}

theorem githubSyncStart_onCourse (hstart : githubSyncStart now store id = .ok started) :
    started.OnCourse id := by
  simp only [githubSyncStart, EventStore.createJob, Job.new, bind_eq_ok, mapError_eq_ok,
    ensure_eq_ok, pure_eq_ok] at hstart
  rcases hstart with ⟨job, ⟨text, -, rfl⟩, created, ⟨-, -, rfl⟩, rfl⟩
  exact ⟨.queued, ⟨_, AList.lookup_insert _, rfl, rfl⟩, .inl rfl⟩

/-- Once a synchronization and its cancellations are over, the job has ended
exactly when every step heeded the condition.  A job that has not ended then is
never ended by them. -/
theorem syncJob_terminates_iff (hstart : githubSyncStart now store id = .ok started)
    (hrun : run (syncStep id) started events = some final) (hended : final.Ended) :
    final.store.JobTerminated id ↔ EveryStep (syncStep id) (SyncJob.Heeds id) started events := by
  have hcourse := githubSyncStart_onCourse hstart
  have hdichotomy := everyStep_dichotomy (SyncJob.Heeds id) (SyncJob.OnCourse id) (SyncJob.Stuck id)
    (fun _ _ _ => syncStep_onCourse) (fun _ _ _ => syncStep_astray)
    (fun _ _ _ => syncStep_stuck) hrun hcourse
  rcases hdichotomy with ⟨hevery, state, hrow, hfinal⟩ | ⟨hmissed, state, hrow, hbusy, -⟩
  · rw [hended.1] at hfinal
    exact iff_of_true (hrow.terminated_iff.2 hfinal) hevery
  · refine iff_of_false (fun hterminated => ?_) hmissed
    have hterminal := hrow.terminated_iff.1 hterminated
    rcases hbusy with rfl | rfl <;> exact absurd hterminal (by decide)

end SyncRuns

namespace Sample

def syncId : JobId := ⟨⟨11⟩⟩

def startedSync : SyncJob :=
  (githubSyncStart 0 .empty syncId).toOption.getD ⟨.empty, .ended, false, false, ∅⟩

/-- The worker reads a running job that is being cancelled before it is moved. -/
def overtakenSync : List SyncEvent :=
  [.start 0, .cancelLoad 0, .load (.ok (⟨3, 8⟩, false)), .cancelMove 0 0, .decide, .finish 0,
    .leave, .cancelSignal 0, .cancelAnswer 0]

/-- The cancellation reads a queued job that is running when it is moved. -/
def refusedSync : List SyncEvent :=
  [.cancelLoad 0, .start 0, .cancelMove 0 0, .cancelSignal 0, .load (.ok (⟨1, 2⟩, true)), .decide,
    .finish 0, .leave, .cancelAnswer 0]

def cancelledSync : List SyncEvent :=
  [.start 0, .cancelLoad 0, .cancelMove 0 0, .cancelSignal 0, .load (.ok (⟨1, 2⟩, true)), .decide,
    .finish 0, .leave, .cancelAnswer 0]

def endedSync (events : List SyncEvent) : SyncJob :=
  (run (syncStep syncId) startedSync events).getD startedSync

def syncState (sync : SyncJob) : Option JobState := (sync.store.job syncId).map Job.state

/-- A run of the sample ends with the job in this state. -/
def EndsIn (events : List SyncEvent) (state : JobState) : Prop :=
  (run (syncStep syncId) startedSync events).isSome ∧ (endedSync events).Ended ∧
    syncState (endedSync events) = some state

instance (events : List SyncEvent) (state : JobState) : Decidable (EndsIn events state) :=
  inferInstanceAs (Decidable (_ ∧ _ ∧ _))

theorem sync_samples :
    (githubSyncStart 0 .empty syncId).isOk ∧ EndsIn overtakenSync .cancelling ∧
      EndsIn refusedSync .running ∧ EndsIn cancelledSync .cancelled := by
  decide

theorem startedSync_eq : githubSyncStart 0 .empty syncId = .ok startedSync :=
  eq_ok_getD sync_samples.1 _

theorem EndsIn.terminated_iff {events : List SyncEvent} {state : JobState}
    (hends : EndsIn events state) :
    (endedSync events).store.JobTerminated syncId ↔ state.isTerminal := by
  rcases Option.map_eq_some_iff.mp hends.2.2 with ⟨job, hjob, rfl⟩
  constructor
  · rintro ⟨again, hagain, hterminal⟩
    rw [hjob, Option.some.injEq] at hagain
    rwa [hagain]
  · exact fun hterminal => ⟨job, hjob, hterminal⟩

end Sample

open Sample

/-- Two orders in which a cancelled job is left for good: cancelling, and
running. -/
theorem syncJob_left_behind :
    githubSyncStart 0 .empty syncId = .ok startedSync ∧
      ∀ events ∈ [overtakenSync, refusedSync],
        run (syncStep syncId) startedSync events = some (endedSync events) ∧
          (endedSync events).Ended ∧ ¬ (endedSync events).store.JobTerminated syncId := by
  refine ⟨startedSync_eq, ?_⟩
  have hsamples := sync_samples.2
  have hleft : ∀ events state, EndsIn events state → state.isTerminal = false →
      run (syncStep syncId) startedSync events = some (endedSync events) ∧
        (endedSync events).Ended ∧ ¬ (endedSync events).store.JobTerminated syncId := by
    intro events state hends hopen
    refine ⟨eq_some_getD hends.1 _, hends.2.1, fun hterminated => ?_⟩
    have hterminal := hends.terminated_iff.1 hterminated
    exact absurd hterminal (Bool.eq_false_iff.mp hopen)
  simp only [List.forall_mem_cons]
  exact ⟨hleft _ _ hsamples.1 rfl, hleft _ _ hsamples.2.1 rfl, fun _ hnone => absurd hnone nofun⟩

/-- A cancellation that the worker sees in time. -/
theorem syncJob_cancelled :
    EveryStep (syncStep syncId) (SyncJob.Heeds syncId) startedSync cancelledSync := by
  have hends := sync_samples.2.2.2
  have hrun := eq_some_getD hends.1 startedSync
  exact (syncJob_terminates_iff startedSync_eq hrun hends.2.1).mp (hends.terminated_iff.2 rfl)

end Patchwright
