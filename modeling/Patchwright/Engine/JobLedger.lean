import Patchwright.Engine.Store
import Patchwright.Library.Journal
import Patchwright.Library.Runs

/-!
# The ledger of jobs

A job has a row that changes in place and events that are only appended.  Jobs
are created, moved by callers that may hold a stale state, and interrupted by a
restart; each of these writes the row and one event in one transaction, so the
row of a job is the last of its events at all times.
-/

namespace Patchwright

open Checked Runs

/-- One event may follow another: the lifecycle of jobs permits it, and a
checkpoint is not lost. -/
def JobEvent.Follows (earlier later : JobEvent) : Prop :=
  earlier.state.permits later.state ∧ (earlier.checkpoint.isSome → later.checkpoint.isSome)

/-- The event that would record a row. -/
def Job.event (id : JobId) (job : Job) : JobEvent where
  jobId := id
  state := job.state
  summary := job.summary
  checkpoint := job.checkpoint

namespace EventStore

def jobHistory (store : EventStore) (id : JobId) : List JobEvent :=
  store.jobEvents.filter fun event => event.jobId = id

/-- The rows of the jobs beside their events. -/
def jobJournal (store : EventStore) : Journal JobId JobEvent where
  row id := (store.job id).map (Job.event id)
  history := store.jobHistory

/-- The events of every job are a path to its row, and its generation counts
them. -/
structure JobsConsistent (store : EventStore) : Prop where
  path : store.jobJournal.IsPath JobEvent.Follows
  counted : ∀ id job, store.job id = some job → job.generation + 1 = (store.jobHistory id).length

/-! ## What the writers write -/

section Writers

variable {store next : EventStore} {id : JobId} {expected target : JobState}
variable {cancellation : CancellationState} {summary : String} {checkpoint : Option JobCheckpoint}
variable {now : DateTime} {job : Job}

theorem createJob_eq_ok : store.createJob job = .ok next ↔ store.job job.id = none ∧
    { store with
      jobs := store.jobs.insert job.id job
      jobEvents := store.jobEvents ++ [job.event job.id] } = next := by
  rw [createJob]
  simp only [bind_eq_ok, ensure_eq_ok, pure_eq_ok, exists_const]
  rfl

/-- A transition that is made was permitted, found the job in the expected
state, and records what it writes to the row. -/
theorem transitionJob_eq_ok {moved : Bool} (hok : store.transitionJob id expected target cancellation
      summary checkpoint now = .ok (next, moved)) :
    moved = false ∧ next = store ∨
    moved = true ∧ expected.permits target ∧ ∃ current text, store.job id = some current ∧
      current.state = expected ∧
      { store with
        jobs := store.jobs.insert id { current with
          state := target, cancellation, summary := text
          checkpoint := checkpoint.orElse fun _ => current.checkpoint
          updatedAt := now, generation := current.generation + 1 }
        jobEvents := store.jobEvents ++ [{
          jobId := id, state := target, summary := text
          checkpoint := checkpoint.orElse fun _ => current.checkpoint }] } = next := by
  rw [transitionJob] at hok
  simp only [bind_eq_ok, ensure_eq_ok, mapError_eq_ok] at hok
  obtain ⟨-, hpermits, text, -, hok⟩ := hok
  cases hjob : store.job id with
  | none =>
      rw [hjob] at hok
      cases hok
      exact .inl ⟨rfl, rfl⟩
  | some current =>
      rw [hjob] at hok
      dsimp only at hok
      by_cases hstate : current.state = expected
      · rw [if_neg (not_not.mpr hstate)] at hok
        cases hok
        exact .inr ⟨rfl, hpermits, current, text, rfl, hstate, rfl⟩
      · rw [if_pos hstate] at hok
        cases hok
        exact .inl ⟨rfl, rfl⟩

end Writers

/-! ## What the writers leave in the journal -/

section Journal

variable {store : EventStore}

/-- A row with its event is one entry in the journal. -/
theorem jobJournal_insert (store : EventStore) (id : JobId) (job : Job) :
    Journal.WroteAll store.jobJournal
      ({ store with
        jobs := store.jobs.insert id job
        jobEvents := store.jobEvents ++ [job.event id] } : EventStore).jobJournal
      fun other => if other = id then [job.event id] else [] where
  row other := by
    change ((store.jobs.insert id job).lookup other).map (Job.event other) = _
    rw [AList.lookup_insert_eq]
    by_cases hother : other = id
    · subst hother
      rw [if_pos rfl, if_pos rfl]
      rfl
    · rw [if_neg hother, if_neg hother]
      rfl
  history other := by
    change (store.jobEvents ++ [job.event id]).filter (fun event => event.jobId = other) = _
    rw [List.filter_append]
    apply congrArg (store.jobHistory other ++ ·)
    by_cases hother : other = id
    · subst hother
      rw [if_pos rfl]
      exact List.filter_cons_of_pos (decide_eq_true rfl)
    · rw [if_neg hother]
      exact List.filter_cons_of_neg (fun heq => hother (of_decide_eq_true heq).symm)

/-- The entries of a restart: one for each job that was running. -/
def interruptions (store : EventStore) (id : JobId) : List JobEvent :=
  ((store.job id).filter isRecoverable).toList.map (interruptedEvent id)

theorem filter_interruptedEvents (store : EventStore) (id : JobId) :
    (((store.jobs.entries.filter fun entry => isRecoverable entry.2).mergeSort
        fun left right => left.1.uuid.value ≤ right.1.uuid.value).map fun entry =>
          interruptedEvent entry.1 entry.2).filter (fun event => event.jobId = id) =
      store.interruptions id := by
  have hentries : (store.jobs.entries.filter fun entry => isRecoverable entry.2).filter
      (fun entry => entry.1 = id) =
        ((store.job id).filter isRecoverable).toList.map fun job => ⟨id, job⟩ := by
    rw [List.filter_comm, AList.filter_entries_eq]
    change (((store.job id).map fun job => (⟨id, job⟩ : Sigma fun _ : JobId => Job)).toList).filter
      (fun entry => isRecoverable entry.2) = _
    cases store.job id with
    | none => rfl
    | some job => cases hjob : isRecoverable job <;> simp [hjob, Option.filter]
  have hperm := (List.mergeSort_perm (store.jobs.entries.filter fun entry => isRecoverable entry.2)
    fun left right => left.1.uuid.value ≤ right.1.uuid.value).filter fun entry => entry.1 = id
  rw [hentries] at hperm
  have hsorted : (((store.jobs.entries.filter fun entry => isRecoverable entry.2).mergeSort
      fun left right => left.1.uuid.value ≤ right.1.uuid.value).filter fun entry => entry.1 = id) =
        ((store.job id).filter isRecoverable).toList.map fun job => ⟨id, job⟩ := by
    generalize (store.job id).filter isRecoverable = running at hperm ⊢
    cases running with
    | none => exact List.perm_nil.mp hperm
    | some job => exact List.perm_singleton.mp hperm
  rw [List.filter_map, interruptions]
  change List.map _ (List.filter (fun entry : Sigma fun _ : JobId => Job => entry.1 = id) _) = _
  rw [hsorted, List.map_map]
  rfl

theorem jobJournal_reopen (store : EventStore) (now : DateTime) :
    Journal.WroteAll store.jobJournal (store.reopen now).jobJournal store.interruptions where
  row id := by
    change ((store.reopen now).jobs.lookup id).map (Job.event id) = _
    rw [reopen, recoverInterruptedJobs]
    dsimp only
    rw [AList.lookup_mapRows, interruptions]
    change Option.map (Job.event id) (Option.map _ (store.job id)) =
      Option.or _ ((store.job id).map (Job.event id))
    cases store.job id with
    | none => rfl
    | some job => cases hjob : isRecoverable job <;> simp [hjob, Option.filter, Job.event,
        interruptedEvent]
  history id := by
    change (store.reopen now).jobEvents.filter (fun event => event.jobId = id) = _
    rw [reopen, recoverInterruptedJobs]
    dsimp only
    rw [List.filter_append]
    exact congrArg (store.jobHistory id ++ ·) (filter_interruptedEvents _ id)

theorem isChain_row (row : Option JobEvent) : (row.toList ++ []).IsChain JobEvent.Follows := by
  cases row with
  | none => exact .nil
  | some event => exact .singleton event

/-- A row written with its event keeps the ledger consistent, where the event
follows the row before and the generation goes up by one. -/
theorem JobsConsistent.insert (hstore : store.JobsConsistent) (id : JobId) (job : Job)
    (hfollow : (((store.job id).map (Job.event id)).toList ++ [job.event id]).IsChain
      JobEvent.Follows)
    (hcount : job.generation = (store.jobHistory id).length) :
    ({ store with
      jobs := store.jobs.insert id job
      jobEvents := store.jobEvents ++ [job.event id] } : EventStore).JobsConsistent where
  path := by
    apply hstore.path.wroteAll (jobJournal_insert store id job)
    intro other
    by_cases hother : other = id
    · subst hother
      rw [if_pos rfl]
      exact hfollow
    · rw [if_neg hother]
      exact isChain_row _
  counted := by
    intro other row hrow
    have hhistory := (jobJournal_insert store id job).history other
    change EventStore.jobHistory _ other = store.jobHistory other ++ _ at hhistory
    rw [hhistory]
    change (store.jobs.insert id job).lookup other = some row at hrow
    rw [AList.lookup_insert_eq] at hrow
    by_cases hother : other = id
    · subst hother
      rw [if_pos rfl] at hrow ⊢
      cases hrow
      rw [List.length_append, hcount]
      rfl
    · rw [if_neg hother] at hrow ⊢
      rw [List.append_nil]
      exact hstore.counted other row hrow

theorem JobsConsistent.reopen (hstore : store.JobsConsistent) (now : DateTime) :
    (store.reopen now).JobsConsistent where
  path := by
    apply hstore.path.wroteAll (jobJournal_reopen store now)
    intro id
    change (((store.job id).map (Job.event id)).toList ++ store.interruptions id).IsChain _
    rw [interruptions]
    cases store.job id with
    | none => exact .nil
    | some job =>
        cases hjob : isRecoverable job with
        | false =>
            rw [Option.filter_some, hjob]
            exact .singleton _
        | true =>
            rw [Option.filter_some, hjob]
            refine .cons_cons ⟨?_, fun hcheckpoint => hcheckpoint⟩ (.singleton _)
            rw [isRecoverable, Bool.or_eq_true, decide_eq_true_iff, decide_eq_true_iff] at hjob
            cases hjob with
            | inl hrunning =>
                change job.state.permits .interrupted = true
                rw [hrunning]
                rfl
            | inr hcancelling =>
                change job.state.permits .interrupted = true
                rw [hcancelling]
                rfl
  counted := by
    intro id row hrow
    have hhistory := (jobJournal_reopen store now).history id
    change EventStore.jobHistory _ id = store.jobHistory id ++ _ at hhistory
    rw [hhistory, List.length_append, interruptions]
    change (AList.mapRows _ store.jobs).lookup id = some row at hrow
    rw [AList.lookup_mapRows, Option.map_eq_some_iff] at hrow
    obtain ⟨job, hjob, hrow⟩ := hrow
    have hcount := hstore.counted id job hjob
    change store.job id = some job at hjob
    rw [hjob, Option.filter_some]
    by_cases hrunning : isRecoverable job
    · rw [if_pos hrunning] at hrow ⊢
      cases hrow
      exact congrArg (· + 1) hcount
    · rw [if_neg hrunning] at hrow ⊢
      cases hrow
      exact hcount

end Journal

end EventStore

/-! ## Runs -/

inductive LedgerOp where
  | create (id : JobId) (kind : JobKind) (taskId : Option TaskId) (summary : String)
      (now : DateTime)
  | transition (id : JobId) (expected next : JobState) (cancellation : CancellationState)
      (summary : String) (checkpoint : Option JobCheckpoint) (now : DateTime)
  | reopen (now : DateTime)

/-- One operation on the store; one that fails is rolled back. -/
def ledgerStep (store : EventStore) : LedgerOp → Option EventStore
  | .create id kind taskId summary now =>
      match Job.new id now kind taskId summary with
      | .ok job => some ((store.createJob job).toOption.getD store)
      | .error _ => some store
  | .transition id expected next cancellation summary checkpoint now =>
      match store.transitionJob id expected next cancellation summary checkpoint now with
      | .ok (moved, _) => some moved
      | .error _ => some store
  | .reopen now => some (store.reopen now)

namespace EventStore

variable {store next : EventStore} {op : LedgerOp}

theorem JobsConsistent.empty : EventStore.empty.JobsConsistent where
  path := fun _ => ⟨.nil, rfl⟩
  counted := fun _ _ hjob => nomatch hjob

theorem JobsConsistent.create (hstore : store.JobsConsistent) {id : JobId} {kind : JobKind}
    {taskId : Option TaskId} {summary : String} {now : DateTime} {job : Job}
    (hnew : Job.new id now kind taskId summary = .ok job)
    (hok : store.createJob job = .ok next) : next.JobsConsistent := by
  obtain ⟨hfree, rfl⟩ := createJob_eq_ok.1 hok
  simp only [Job.new, bind_eq_ok, pure_eq_ok] at hnew
  obtain ⟨text, -, rfl⟩ := hnew
  have hempty : store.jobHistory id = [] := by
    have hlast := (hstore.path id).2
    change (store.jobHistory id).getLast? = (store.job id).map (Job.event id) at hlast
    rw [hfree] at hlast
    exact List.getLast?_eq_none_iff.mp hlast
  apply hstore.insert
  · rw [hfree]
    exact .singleton _
  · rw [hempty]
    rfl

theorem JobsConsistent.transition (hstore : store.JobsConsistent) {id : JobId}
    {expected target : JobState} {cancellation : CancellationState} {summary : String}
    {checkpoint : Option JobCheckpoint} {now : DateTime} {moved : Bool}
    (hok : store.transitionJob id expected target cancellation summary checkpoint now =
      .ok (next, moved)) : next.JobsConsistent := by
  cases transitionJob_eq_ok hok with
  | inl hstale => exact hstale.2 ▸ hstore
  | inr hmoved =>
      obtain ⟨-, hpermits, current, text, hcurrent, rfl, rfl⟩ := hmoved
      refine hstore.insert id { current with
        state := target, cancellation, summary := text
        checkpoint := checkpoint.orElse fun _ => current.checkpoint
        updatedAt := now, generation := current.generation + 1 } ?_ ?_
      · rw [hcurrent]
        refine .cons_cons ⟨hpermits, ?_⟩ (.singleton _)
        intro hsome
        cases checkpoint with
        | none => exact hsome
        | some checkpoint => rfl
      · exact hstore.counted id current hcurrent

theorem JobsConsistent.step (hstore : store.JobsConsistent) (hstep : ledgerStep store op = some next) :
    next.JobsConsistent := by
  cases op with
  | create id kind taskId summary now =>
      rw [ledgerStep] at hstep
      cases hnew : Job.new id now kind taskId summary with
      | error error =>
          rw [hnew] at hstep
          cases hstep
          exact hstore
      | ok job =>
          rw [hnew] at hstep
          dsimp only at hstep
          cases hcreate : store.createJob job with
          | error error =>
              rw [hcreate] at hstep
              cases hstep
              exact hstore
          | ok created =>
              rw [hcreate] at hstep
              cases hstep
              exact hstore.create hnew hcreate
  | transition id expected target cancellation summary checkpoint now =>
      rw [ledgerStep] at hstep
      cases hmove : store.transitionJob id expected target cancellation summary checkpoint now with
      | error error =>
          rw [hmove] at hstep
          cases hstep
          exact hstore
      | ok result =>
          rw [hmove] at hstep
          cases hstep
          exact hstore.transition hmove
  | reopen now =>
      cases hstep
      exact hstore.reopen now

/-- The ledger of one job: its generation counts its events, the last of them
is its row, their states are a path of the lifecycle, and a checkpoint once
recorded stays with every later event and with the row. -/
structure LedgerOf (store : EventStore) (id : JobId) : Prop where
  generation : ∀ job, store.job id = some job →
    job.generation + 1 = (store.jobHistory id).length
  last : ∀ job, store.job id = some job → ∃ event, (store.jobHistory id).getLast? = some event ∧
    event.state = job.state ∧ event.summary = job.summary ∧ event.checkpoint = job.checkpoint
  path : ((store.jobHistory id).map JobEvent.state).IsChain fun earlier later =>
    earlier.permits later
  checkpoints : (store.jobHistory id).Pairwise fun earlier later =>
    earlier.checkpoint.isSome → later.checkpoint.isSome
  rowCheckpoint : ∀ job, store.job id = some job → ∀ event ∈ store.jobHistory id,
    event.checkpoint.isSome → job.checkpoint.isSome

theorem JobsConsistent.ledgerOf (hstore : store.JobsConsistent) (id : JobId) :
    store.LedgerOf id := by
  obtain ⟨hchain, hlast⟩ := hstore.path id
  change (store.jobHistory id).IsChain JobEvent.Follows at hchain
  change (store.jobHistory id).getLast? = (store.job id).map (Job.event id) at hlast
  have hpairwise : (store.jobHistory id).Pairwise fun earlier later =>
      earlier.checkpoint.isSome → later.checkpoint.isSome := by
    have htrans : ∀ {first second third : JobEvent},
        (first.checkpoint.isSome → second.checkpoint.isSome) →
        (second.checkpoint.isSome → third.checkpoint.isSome) →
        first.checkpoint.isSome → third.checkpoint.isSome :=
      fun hfirst hsecond hsome => hsecond (hfirst hsome)
    have : IsTrans JobEvent fun earlier later =>
        earlier.checkpoint.isSome → later.checkpoint.isSome := ⟨fun _ _ _ => htrans⟩
    exact (hchain.imp fun _ _ hfollows => hfollows.2).pairwise
  refine ⟨hstore.counted id, ?_, ?_, hpairwise, ?_⟩
  · intro job hjob
    rw [hjob] at hlast
    exact ⟨job.event id, hlast, rfl, rfl, rfl⟩
  · exact (List.isChain_map _).mpr (hchain.imp fun _ _ hfollows => hfollows.1)
  · intro job hjob event hevent hsome
    rw [hjob] at hlast
    obtain ⟨before, hbefore⟩ := List.getLast?_eq_some_iff.mp hlast
    rw [hbefore] at hevent hpairwise
    cases List.mem_append.mp hevent with
    | inl hearlier =>
        exact (List.pairwise_append.mp hpairwise).2.2 event hearlier _ List.mem_cons_self hsome
    | inr hlatest =>
        rw [List.mem_singleton.mp hlatest] at hsome
        exact hsome

end EventStore

/-- A transition that fails, or that finds its job in another state, leaves the
store as it is. -/
def RefusalChangesNothing (store : EventStore) (op : LedgerOp) : Prop :=
  ∀ id expected next cancellation summary checkpoint now,
    op = .transition id expected next cancellation summary checkpoint now →
    (∀ error, store.transitionJob id expected next cancellation summary checkpoint now =
      .error error → ledgerStep store op = some store) ∧
    ∀ after, store.transitionJob id expected next cancellation summary checkpoint now =
      .ok (after, false) → ledgerStep store op = some store

theorem refusalChangesNothing (store : EventStore) (op : LedgerOp) :
    RefusalChangesNothing store op := by
  rintro id expected next cancellation summary checkpoint now rfl
  constructor
  · intro error herror
    rw [ledgerStep, herror]
  · intro after hfalse
    rw [ledgerStep, hfalse]
    cases EventStore.transitionJob_eq_ok hfalse with
    | inl hstale => rw [hstale.2]
    | inr hmoved => exact absurd hmoved.1 nofun

/-- The ledger of every job is consistent over every run. -/
theorem job_ledger_consistent {ops : List LedgerOp} {final : EventStore}
    (hrun : run ledgerStep EventStore.empty ops = some final) :
    (∀ id, final.LedgerOf id) ∧ EveryStep ledgerStep RefusalChangesNothing EventStore.empty ops := by
  have hfinal : final.JobsConsistent := invariant_of_run
    (fun _ _ _ hstore hstep => EventStore.JobsConsistent.step hstore hstep) hrun .empty
  exact ⟨hfinal.ledgerOf, everyStep_of_forall refusalChangesNothing _ _⟩

namespace Sample

/-- A job that a restart interrupts, and a stale transition after it. -/
def ledgerOps : List LedgerOp := [.create ⟨⟨21⟩⟩ .gitHubSync none "sync repositories" 0,
  .transition ⟨⟨21⟩⟩ .queued .running .notRequested "syncing" (some ⟨1, "page", "one page", 1⟩) 1,
  .reopen 2, .transition ⟨⟨21⟩⟩ .running .succeeded .notRequested "done" none 3]

end Sample

open Sample

theorem job_ledger_interrupted : ∃ final job, run ledgerStep EventStore.empty ledgerOps = some final ∧
    final.job ⟨⟨21⟩⟩ = some job ∧ job.state = .interrupted ∧ final.LedgerOf ⟨⟨21⟩⟩ :=
  ⟨_, _, rfl, rfl, rfl, (@job_ledger_consistent ledgerOps _ rfl).1 _⟩

end Patchwright
