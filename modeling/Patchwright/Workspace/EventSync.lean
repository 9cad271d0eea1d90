import Patchwright.Codex.EventLog

/-!
# Following the event log

The workspace keeps the events of each task that it has received.  A refresh
reads the number of the last of them, asks the engine for a page behind it, and
joins the page to what is there by then.  Refreshes of one task may overlap, and
one that fails leaves the events as they are.
-/

namespace Patchwright

open Checked Runs NumberedLog

/-- The limit that the workspace asks with. -/
def eventPageLimit : Nat := 100

/-- Where a refresh is. -/
inductive RefreshPlace where
  | asked (taskId : TaskId) (cursor : Nat)
  | answered (taskId : TaskId) (page : List CodexEventRecord)

/-- The engine and a workspace that follows it. -/
structure EventSync where
  log : EventLog
  events : Table TaskId (List CodexEventRecord)
  refreshes : Table Nat RefreshPlace

inductive RefreshEvent where
  | engine (op : EventLogOp)
  | ask (refresh : Nat) (taskId : TaskId)
  | answer (refresh : Nat)
  | join (refresh : Nat)
  | fail (refresh : Nat)
  | relaunch

namespace EventSync

def initial : EventSync := ⟨EventLog.initial, ∅, ∅⟩

/-- The events of a task that the workspace has. -/
def eventsOf (state : EventSync) (taskId : TaskId) : List CodexEventRecord :=
  (state.events.lookup taskId).getD []

/-- The number that a refresh asks behind. -/
def cursorOf (state : EventSync) (taskId : TaskId) : Nat :=
  cursor CodexEventRecord.sequence 0 (state.eventsOf taskId)

/-- Join a page to the events of a task.  An empty page changes nothing. -/
def joinPage (state : EventSync) (taskId : TaskId) (page : List CodexEventRecord) : EventSync :=
  if page = [] then state
  else { state with
    events := state.events.insert taskId
      (merge CodexEventRecord.sequence (state.eventsOf taskId) page) }

def endRefresh (state : EventSync) (refresh : Nat) : EventSync :=
  { state with refreshes := state.refreshes.erase refresh }

/-- One step of the engine, of a refresh, or of the application as a whole. -/
def step (state : EventSync) : RefreshEvent → Option EventSync
  | .engine op => (state.log.step op).map fun log => { state with log }
  | .ask refresh taskId =>
      match state.refreshes.lookup refresh with
      | some _ => none
      | none => some { state with
          refreshes := state.refreshes.insert refresh (.asked taskId (state.cursorOf taskId)) }
  | .answer refresh =>
      match state.refreshes.lookup refresh with
      | some (.asked taskId cursor) =>
          match state.log.store.codexEventPage taskId cursor eventPageLimit with
          | .ok page => some { state with
              refreshes := state.refreshes.insert refresh (.answered taskId page) }
          | .error _ => some (state.endRefresh refresh)
      | _ => none
  | .join refresh =>
      match state.refreshes.lookup refresh with
      | some (.answered taskId page) => some ((state.joinPage taskId page).endRefresh refresh)
      | _ => none
  | .fail refresh => some (state.endRefresh refresh)
  | .relaunch => some { state with events := ∅, refreshes := ∅ }

/-- What is known of a refresh under way: it has asked behind events that the
workspace has, and its page is the segment of the log from there on. -/
def Segment (state : EventSync) : RefreshPlace → Prop
  | .asked taskId cursor => cursor ≤ (state.eventsOf taskId).length
  | .answered taskId page => ∃ after upto, after ≤ (state.eventsOf taskId).length ∧
      upto ≤ (state.log.store.codexLog taskId).length ∧
      page = ((state.log.store.codexLog taskId).take upto).drop after

/-- The workspace has an initial part of the log of every task. -/
structure Synced (state : EventSync) : Prop where
  gapless : state.log.Gapless
  held : ∀ taskId, state.eventsOf taskId <+: state.log.store.codexLog taskId
  pending : ∀ refresh place, state.refreshes.lookup refresh = some place → state.Segment place

/-! ### Growth of the log -/

/-- No operation of the engine takes anything back from the log of a task. -/
theorem log_grows {log next : EventLog} {op : EventLogOp} (hlog : log.Gapless)
    (hstep : log.step op = some next) (taskId : TaskId) :
    log.store.codexLog taskId <+: next.store.codexLog taskId := by
  cases op with
  | hold caller session =>
      cases hstep
      exact List.prefix_refl _
  | append caller draft now =>
      cases hsession : log.sessions.lookup caller with
      | none =>
          rw [EventLog.step, hsession] at hstep
          cases hstep
      | some session =>
          have happends := hlog.appends hstep caller draft now session rfl hsession
          cases happend : log.store.appendCodexEvent session draft now with
          | error error =>
              rw [happends.1 error happend]
          | ok result =>
              obtain ⟨hstore, -, -, -, ⟨event, -, hown⟩, hother⟩ :=
                happends.2 result.1 result.2 happend
              rw [hstore]
              by_cases htask : taskId = session.taskId
              · rw [htask, hown]
                exact List.prefix_append _ _
              · rw [hother taskId htask]
  | attach reader id =>
      cases hstep
      exact List.prefix_refl _
  | read reader limit =>
      rw [EventLog.step] at hstep
      split at hstep
      · cases hstep
      · split at hstep
        · cases hstep
          exact List.prefix_refl _
        · cases hstep
          exact List.prefix_refl _
  | other store =>
      rw [EventLog.step] at hstep
      split at hstep
      next hsame =>
        cases hstep
        rw [EventStore.codexLog, EventStore.codexLog, hsame]
      next => cases hstep

theorem joinPage_log (state : EventSync) (taskId : TaskId) (page : List CodexEventRecord) :
    (state.joinPage taskId page).log = state.log := by
  unfold joinPage
  split <;> rfl

theorem joinPage_refreshes (state : EventSync) (taskId : TaskId) (page : List CodexEventRecord) :
    (state.joinPage taskId page).refreshes = state.refreshes := by
  unfold joinPage
  split <;> rfl

section Invariant

variable {state next : EventSync} {event : RefreshEvent} {taskId : TaskId} {refresh : Nat}

theorem Synced.eventsOf_eq (hsynced : state.Synced) (taskId : TaskId) :
    state.eventsOf taskId =
      (state.log.store.codexLog taskId).take (state.eventsOf taskId).length :=
  List.prefix_iff_eq_take.mp (hsynced.held taskId)

/-- The workspace asks behind as many events as it has. -/
theorem Synced.cursorOf_eq (hsynced : state.Synced) (taskId : TaskId) :
    state.cursorOf taskId = (state.eventsOf taskId).length := by
  have hnumbered := hsynced.gapless.numbered taskId
  have hlength := (hsynced.held taskId).length_le
  have hpage : state.eventsOf taskId = page CodexEventRecord.sequence
      (state.log.store.codexLog taskId) 0 (state.eventsOf taskId).length := by
    rw [hnumbered.page_eq, List.drop_zero]
    exact hsynced.eventsOf_eq taskId
  rw [cursorOf, hpage, hnumbered.cursor_eq (Nat.zero_le _), ← hpage]
  omega

/-- A refresh stays what it is while the log and the events grow. -/
theorem Segment.mono {place : RefreshPlace} (hsegment : state.Segment place)
    (hevents : ∀ id, (state.eventsOf id).length ≤ (next.eventsOf id).length)
    (hlog : ∀ id, state.log.store.codexLog id <+: next.log.store.codexLog id) :
    next.Segment place := by
  cases place with
  | asked id cursor => exact Nat.le_trans hsegment (hevents id)
  | answered id page =>
      obtain ⟨after, upto, hafter, hupto, rfl⟩ := hsegment
      obtain ⟨more, hmore⟩ := hlog id
      refine ⟨after, upto, Nat.le_trans hafter (hevents id), ?_, ?_⟩
      · exact Nat.le_trans hupto (hlog id).length_le
      · rw [← hmore, List.take_append_of_le_length hupto]

/-- Joining a segment leaves an initial part of the log, that reaches as far as
the segment does. -/
theorem Synced.eventsOf_joinPage (hsynced : state.Synced) {after upto : Nat}
    (hafter : after ≤ (state.eventsOf taskId).length) (id : TaskId) :
    (state.joinPage taskId
        (((state.log.store.codexLog taskId).take upto).drop after)).eventsOf id =
      if id = taskId then
        (state.log.store.codexLog taskId).take (max (state.eventsOf taskId).length upto)
      else state.eventsOf id := by
  have hheld := hsynced.eventsOf_eq taskId
  have hnumbered := hsynced.gapless.numbered taskId
  have hmerge := hnumbered.merge_segment hafter upto
  rw [← hheld] at hmerge
  unfold joinPage
  split
  next hnone =>
    have hlength := congrArg List.length hnone
    rw [List.length_drop, List.length_take, List.length_nil] at hlength
    split
    next hsame =>
      subst hsame
      refine hheld.trans (List.take_eq_take_iff.mpr ?_)
      omega
    next => rfl
  next =>
    unfold eventsOf
    dsimp only
    rw [AList.lookup_insert_eq]
    split
    next hsame => exact hmerge
    next => rfl

theorem eventsOf_endRefresh (state : EventSync) (refresh : Nat) :
    (state.endRefresh refresh).eventsOf = state.eventsOf := rfl

/-- Ending a refresh keeps what is known of the others. -/
theorem Synced.endRefresh (hsynced : state.Synced) (refresh : Nat) :
    (state.endRefresh refresh).Synced where
  gapless := hsynced.gapless
  held := hsynced.held
  pending other place hplace := by
    by_cases hsame : other = refresh
    · subst hsame
      rw [EventSync.endRefresh, AList.lookup_erase] at hplace
      cases hplace
    · rw [EventSync.endRefresh, AList.lookup_erase_ne hsame] at hplace
      exact hsynced.pending other place hplace

theorem Synced.insertRefresh (hsynced : state.Synced) (refresh : Nat) {place : RefreshPlace}
    (hsegment : state.Segment place) :
    Synced { state with refreshes := state.refreshes.insert refresh place } where
  gapless := hsynced.gapless
  held := hsynced.held
  pending other found hfound := by
    change (state.refreshes.insert refresh place).lookup other = some found at hfound
    rw [AList.lookup_insert_eq] at hfound
    split at hfound
    · cases hfound
      exact hsegment
    · exact hsynced.pending other found hfound

/-- The events of no task get fewer by joining a page. -/
theorem Synced.length_joinPage (hsynced : state.Synced) {page : List CodexEventRecord}
    (hsegment : state.Segment (.answered taskId page)) (id : TaskId) :
    (state.eventsOf id).length ≤ ((state.joinPage taskId page).eventsOf id).length := by
  obtain ⟨after, upto, hafter, hupto, rfl⟩ := hsegment
  have hlength := (hsynced.held taskId).length_le
  rw [hsynced.eventsOf_joinPage hafter]
  split
  next hsame =>
    rw [hsame, List.length_take]
    omega
  next => exact Nat.le_refl _

theorem Synced.joinPage (hsynced : state.Synced) {page : List CodexEventRecord}
    (hsegment : state.Segment (.answered taskId page)) :
    (state.joinPage taskId page).Synced := by
  have hlog := state.joinPage_log taskId page
  refine ⟨hlog ▸ hsynced.gapless, fun id => ?_, fun other place hplace => ?_⟩
  · obtain ⟨after, upto, hafter, hupto, rfl⟩ := hsegment
    rw [hsynced.eventsOf_joinPage hafter, hlog]
    split
    next hsame =>
      rw [hsame]
      exact List.take_prefix _ _
    next => exact hsynced.held id
  · rw [joinPage_refreshes] at hplace
    exact (hsynced.pending other place hplace).mono (hsynced.length_joinPage hsegment)
      fun id => hlog ▸ List.prefix_refl _

/-- Whatever happens next, the workspace has initial parts of the logs. -/
theorem Synced.step (hsynced : state.Synced) (hstep : state.step event = some next) :
    next.Synced := by
  cases event with
  | engine op =>
      obtain ⟨log, hlog, rfl⟩ := Option.map_eq_some_iff.mp hstep
      have hgrows := log_grows hsynced.gapless hlog
      exact ⟨hsynced.gapless.step hlog, fun id => (hsynced.held id).trans (hgrows id),
        fun other place hplace => (hsynced.pending other place hplace).mono
          (fun _ => Nat.le_refl _) hgrows⟩
  | ask refresh taskId =>
      simp only [EventSync.step] at hstep
      split at hstep
      · cases hstep
      · cases hstep
        apply hsynced.insertRefresh
        exact Nat.le_of_eq (hsynced.cursorOf_eq taskId)
  | answer refresh =>
      simp only [EventSync.step] at hstep
      split at hstep
      next taskId cursor hplace =>
        rw [EventLog.codexEventPage_eq _ _ _ (show 1 ≤ eventPageLimit by decide)
          (show eventPageLimit ≤ maxEventPage by decide)] at hstep
        cases hstep
        apply hsynced.insertRefresh
        refine ⟨cursor, min (cursor + eventPageLimit) (state.log.store.codexLog taskId).length,
          hsynced.pending refresh _ hplace, Nat.min_le_right _ _, ?_⟩
        rw [(hsynced.gapless.numbered taskId).page_eq_segment, List.take_eq_take_min]
      next => cases hstep
  | join refresh =>
      simp only [EventSync.step] at hstep
      split at hstep
      next taskId page hplace =>
        cases hstep
        exact (hsynced.joinPage (hsynced.pending refresh _ hplace)).endRefresh refresh
      next => cases hstep
  | fail refresh =>
      cases hstep
      exact hsynced.endRefresh refresh
  | relaunch =>
      cases hstep
      exact ⟨hsynced.gapless, fun _ => List.nil_prefix, fun _ _ hplace => nomatch hplace⟩

end Invariant

theorem Synced.initial : EventSync.initial.Synced :=
  ⟨.initial, fun _ => List.nil_prefix, fun _ _ hplace => nomatch hplace⟩

/-! ### Progress -/

end EventSync

/-- The event is not about a refresh, and does not end the application. -/
def RefreshEvent.Leaves (refresh : Nat) : RefreshEvent → Prop
  | .engine _ => True
  | .ask other _ | .answer other | .join other | .fail other => other ≠ refresh
  | .relaunch => False

/-- One refresh of a task that does not fail, with what happens meanwhile. -/
inductive CompleteRefresh (taskId : TaskId) : List RefreshEvent → Prop
  | mk {refresh : Nat} {before after : List RefreshEvent}
      (hbefore : ∀ event ∈ before, event.Leaves refresh)
      (hafter : ∀ event ∈ after, event.Leaves refresh) :
      CompleteRefresh taskId
        (.ask refresh taskId :: (before ++ .answer refresh :: (after ++ [.join refresh])))

namespace EventSync

/-- What a refresh that waits finds changed: more events, and longer logs. -/
structure Waits (refresh : Nat) (state next : EventSync) : Prop where
  place : next.refreshes.lookup refresh = state.refreshes.lookup refresh
  events : ∀ id, (state.eventsOf id).length ≤ (next.eventsOf id).length
  log : ∀ id, state.log.store.codexLog id <+: next.log.store.codexLog id

section Progress

variable {state next final : EventSync} {event : RefreshEvent} {taskId : TaskId} {refresh : Nat}

theorem Waits.refl (refresh : Nat) (state : EventSync) : Waits refresh state state :=
  ⟨rfl, fun _ => Nat.le_refl _, fun _ => List.prefix_refl _⟩

theorem Waits.trans (hfirst : Waits refresh state next) (hsecond : Waits refresh next final) :
    Waits refresh state final where
  place := hsecond.place.trans hfirst.place
  events id := Nat.le_trans (hfirst.events id) (hsecond.events id)
  log id := (hfirst.log id).trans (hsecond.log id)

theorem Synced.step_waits (hsynced : state.Synced) (hleaves : event.Leaves refresh)
    (hstep : state.step event = some next) : Waits refresh state next := by
  cases event with
  | engine op =>
      obtain ⟨log, hlog, rfl⟩ := Option.map_eq_some_iff.mp hstep
      exact ⟨rfl, fun _ => Nat.le_refl _, log_grows hsynced.gapless hlog⟩
  | ask other id =>
      simp only [EventSync.step] at hstep
      split at hstep
      · cases hstep
      · cases hstep
        exact ⟨AList.lookup_insert_ne hleaves.symm, fun _ => Nat.le_refl _,
          fun _ => List.prefix_refl _⟩
  | answer other =>
      simp only [EventSync.step] at hstep
      split at hstep
      · split at hstep
        · cases hstep
          exact ⟨AList.lookup_insert_ne hleaves.symm, fun _ => Nat.le_refl _,
            fun _ => List.prefix_refl _⟩
        · cases hstep
          exact ⟨AList.lookup_erase_ne hleaves.symm, fun _ => Nat.le_refl _,
            fun _ => List.prefix_refl _⟩
      · cases hstep
  | join other =>
      simp only [EventSync.step] at hstep
      split at hstep
      next id page hplace =>
        cases hstep
        have hsegment := hsynced.pending other _ hplace
        refine ⟨?_, hsynced.length_joinPage hsegment, fun _ => ?_⟩
        · rw [EventSync.endRefresh, AList.lookup_erase_ne hleaves.symm, joinPage_refreshes]
        · rw [EventSync.endRefresh, joinPage_log]
      next => cases hstep
  | fail other =>
      cases hstep
      exact ⟨AList.lookup_erase_ne hleaves.symm, fun _ => Nat.le_refl _,
        fun _ => List.prefix_refl _⟩
  | relaunch => exact hleaves.elim

theorem Synced.run_waits (hsynced : state.Synced) {events : List RefreshEvent}
    (hleaves : ∀ event ∈ events, event.Leaves refresh)
    (hrun : run EventSync.step state events = some final) :
    Waits refresh state final ∧ final.Synced := by
  induction events generalizing state with
  | nil =>
      rw [run_nil, Option.some.injEq] at hrun
      exact hrun ▸ ⟨.refl refresh state, hsynced⟩
  | cons event events ih =>
      obtain ⟨next, hnext, hrest⟩ := run_cons_eq_some.1 hrun
      obtain ⟨hlater, hfinal⟩ := ih (hsynced.step hnext)
        (fun later hmem => hleaves later (List.mem_cons_of_mem _ hmem)) hrest
      have hhere := hsynced.step_waits (hleaves event List.mem_cons_self) hnext
      exact ⟨hhere.trans hlater, hfinal⟩

/-- An event that does not end the application leaves most refreshes as they are. -/
theorem RefreshEvent.exists_leaves (hstays : event ≠ .relaunch) : ∃ refresh, event.Leaves refresh := by
  cases event with
  | engine op => exact ⟨0, trivial⟩
  | ask refresh taskId => exact ⟨refresh + 1, Nat.ne_of_lt (Nat.lt_succ_self refresh)⟩
  | answer refresh => exact ⟨refresh + 1, Nat.ne_of_lt (Nat.lt_succ_self refresh)⟩
  | join refresh => exact ⟨refresh + 1, Nat.ne_of_lt (Nat.lt_succ_self refresh)⟩
  | fail refresh => exact ⟨refresh + 1, Nat.ne_of_lt (Nat.lt_succ_self refresh)⟩
  | relaunch => exact absurd rfl hstays

/-- While the application runs the workspace gives no event up. -/
theorem Synced.step_grows (hsynced : state.Synced) (hstays : event ≠ .relaunch)
    (hstep : state.step event = some next) (id : TaskId) :
    state.eventsOf id <+: next.eventsOf id := by
  obtain ⟨refresh, hleaves⟩ := RefreshEvent.exists_leaves hstays
  have hwaits := hsynced.step_waits hleaves hstep
  have hlater := (hsynced.step hstep).held id
  have hearlier := (hsynced.held id).trans (hwaits.log id)
  exact List.prefix_of_prefix_length_le hearlier hlater (hwaits.events id)

theorem Synced.run_grows (hsynced : state.Synced) {events : List RefreshEvent}
    (hstays : ∀ event ∈ events, event ≠ .relaunch)
    (hrun : run EventSync.step state events = some final) :
    final.Synced ∧ ∀ id, state.eventsOf id <+: final.eventsOf id := by
  induction events generalizing state with
  | nil =>
      rw [run_nil, Option.some.injEq] at hrun
      exact hrun ▸ ⟨hsynced, fun _ => List.prefix_refl _⟩
  | cons event events ih =>
      obtain ⟨next, hnext, hrest⟩ := run_cons_eq_some.1 hrun
      obtain ⟨hfinal, hlater⟩ := ih (hsynced.step hnext)
        (fun later hmem => hstays later (List.mem_cons_of_mem _ hmem)) hrest
      have hhere := hsynced.step_grows (hstays event List.mem_cons_self) hnext
      exact ⟨hfinal, fun id => (hhere id).trans (hlater id)⟩

theorem ask_lookup (hask : state.step (.ask refresh taskId) = some next) :
    next.refreshes.lookup refresh = some (.asked taskId (state.cursorOf taskId)) := by
  simp only [EventSync.step] at hask
  split at hask
  · cases hask
  · cases hask
    exact AList.lookup_insert _

/-- The engine answers with the page behind the events that were asked behind. -/
theorem Synced.answer_lookup (hsynced : state.Synced) {after : Nat}
    (hplace : state.refreshes.lookup refresh = some (.asked taskId after))
    (hanswer : state.step (.answer refresh) = some next) :
    next.refreshes.lookup refresh = some (.answered taskId
      (((state.log.store.codexLog taskId).take (after + eventPageLimit)).drop after)) := by
  simp only [EventSync.step, hplace] at hanswer
  rw [EventLog.codexEventPage_eq _ _ _ (show 1 ≤ eventPageLimit by decide)
    (show eventPageLimit ≤ maxEventPage by decide)] at hanswer
  cases hanswer
  rw [← (hsynced.gapless.numbered taskId).page_eq_segment]
  exact AList.lookup_insert _

/-- After a page has been joined the workspace has all of it. -/
theorem Synced.join_reaches (hsynced : state.Synced) {after upto : Nat}
    (hafter : after ≤ (state.eventsOf taskId).length)
    (hupto : upto ≤ (state.log.store.codexLog taskId).length)
    (hplace : state.refreshes.lookup refresh = some (.answered taskId
      (((state.log.store.codexLog taskId).take upto).drop after)))
    (hjoin : state.step (.join refresh) = some next) :
    upto ≤ (next.eventsOf taskId).length ∧ next.log = state.log := by
  simp only [EventSync.step, hplace] at hjoin
  cases hjoin
  rw [eventsOf_endRefresh, hsynced.eventsOf_joinPage hafter, if_pos rfl, List.length_take]
  exact ⟨by omega, joinPage_log _ _ _⟩

/-- A refresh that does not fail brings a page of what the log had when it began. -/
theorem Synced.refresh_advances (hsynced : state.Synced) {events : List RefreshEvent}
    (hcomplete : CompleteRefresh taskId events)
    (hrun : run EventSync.step state events = some final) :
    final.Synced ∧
      min ((state.eventsOf taskId).length + eventPageLimit)
          (state.log.store.codexLog taskId).length ≤ (final.eventsOf taskId).length ∧
      state.log.store.codexLog taskId <+: final.log.store.codexLog taskId := by
  obtain @⟨refresh, before, after, hbefore, hafter⟩ := hcomplete
  obtain ⟨asked, hask, hrun⟩ := run_cons_eq_some.1 hrun
  obtain ⟨served, hwait, hrun⟩ := run_append_eq_some.1 hrun
  obtain ⟨answered, hanswer, hrun⟩ := run_cons_eq_some.1 hrun
  obtain ⟨joining, hidle, hrun⟩ := run_append_eq_some.1 hrun
  obtain ⟨last, hjoin, hlast⟩ := run_cons_eq_some.1 hrun
  cases hlast
  have hasked := hsynced.step hask
  obtain ⟨hserved, hsyncedServed⟩ := hasked.run_waits hbefore hwait
  have hanswered := hsyncedServed.step hanswer
  obtain ⟨hjoining, hsyncedJoining⟩ := hanswered.run_waits hafter hidle
  have hother : refresh ≠ refresh + 1 := Nat.ne_of_lt (Nat.lt_succ_self refresh)
  have hask' := hsynced.step_waits
    (show (RefreshEvent.ask refresh taskId).Leaves (refresh + 1) from hother) hask
  have hanswer' := hsyncedServed.step_waits
    (show (RefreshEvent.answer refresh).Leaves (refresh + 1) from hother) hanswer
  have hplace : served.refreshes.lookup refresh =
      some (.asked taskId (state.eventsOf taskId).length) := by
    rw [hserved.place, ask_lookup hask, hsynced.cursorOf_eq]
  have hpage := hsyncedServed.answer_lookup hplace hanswer
  rw [← hjoining.place] at hpage
  have hlogServed := (hask'.log taskId).trans (hserved.log taskId)
  have hlogJoining := (hanswer'.log taskId).trans (hjoining.log taskId)
  have hafter : (state.eventsOf taskId).length ≤ (joining.eventsOf taskId).length :=
    Nat.le_trans (hask'.events taskId) (Nat.le_trans (hserved.events taskId)
      (Nat.le_trans (hanswer'.events taskId) (hjoining.events taskId)))
  have hsegment : (served.log.store.codexLog taskId).take
      ((state.eventsOf taskId).length + eventPageLimit) =
        (joining.log.store.codexLog taskId).take
          (min ((state.eventsOf taskId).length + eventPageLimit)
            (served.log.store.codexLog taskId).length) := by
    obtain ⟨more, hmore⟩ := hlogJoining
    rw [← hmore, List.take_append_of_le_length (Nat.min_le_right _ _), ← List.take_eq_take_min]
  rw [hsegment] at hpage
  obtain ⟨hreached, hlog⟩ := hsyncedJoining.join_reaches hafter
    (Nat.le_trans (Nat.min_le_right _ _) hlogJoining.length_le) hpage hjoin
  refine ⟨hsyncedJoining.step hjoin, ?_, hlog ▸ hlogServed.trans hlogJoining⟩
  have hlength := hlogServed.length_le
  omega

/-- Refreshes one after the other catch up with what the log had. -/
theorem Synced.refreshes_advance (hsynced : state.Synced) {rounds : List (List RefreshEvent)}
    (hrounds : ∀ round ∈ rounds, CompleteRefresh taskId round)
    (hrun : run EventSync.step state rounds.flatten = some final) :
    final.Synced ∧
      min ((state.eventsOf taskId).length + eventPageLimit * rounds.length)
          (state.log.store.codexLog taskId).length ≤ (final.eventsOf taskId).length := by
  induction rounds generalizing state with
  | nil =>
      rw [List.flatten_nil, run_nil, Option.some.injEq] at hrun
      subst hrun
      exact ⟨hsynced, Nat.min_le_left _ _⟩
  | cons round rounds ih =>
      rw [List.flatten_cons] at hrun
      obtain ⟨next, hround, hrest⟩ := run_append_eq_some.1 hrun
      obtain ⟨hsyncedNext, hadvance, hgrown⟩ :=
        hsynced.refresh_advances (hrounds round List.mem_cons_self) hround
      obtain ⟨hfinal, hlater⟩ := ih hsyncedNext
        (fun later hmem => hrounds later (List.mem_cons_of_mem _ hmem)) hrest
      refine ⟨hfinal, ?_⟩
      have hlength := hgrown.length_le
      rw [List.length_cons, Nat.mul_succ]
      omega

end Progress

end EventSync

open EventSync

/-- However refreshes of the workspace, failures and launches of it interleave
with the engine, the workspace has an initial part of the log of every task:
each event once and in order, with none left out. -/
theorem workspace_follows_log {events : List RefreshEvent} {state : EventSync}
    (hrun : run EventSync.step EventSync.initial events = some state) (taskId : TaskId) :
    state.eventsOf taskId <+: state.log.store.codexLog taskId ∧
      (state.eventsOf taskId).map CodexEventRecord.sequence =
        List.range' 1 (state.eventsOf taskId).length := by
  have hsynced : state.Synced :=
    invariant_of_run (fun _ _ _ hinv hstep => hinv.step hstep) hrun .initial
  refine ⟨hsynced.held taskId, ?_⟩
  have hnumbered := (hsynced.gapless.numbered taskId).take (state.eventsOf taskId).length
  rwa [← hsynced.eventsOf_eq] at hnumbered

/-- From any state that is reached, refreshes that do not fail bring what the
log had, a hundred events each; once they have brought all that the log has the
workspace shows it as it is. -/
theorem workspace_catches_up {events : List RefreshEvent} {state final : EventSync}
    (hrun : run EventSync.step EventSync.initial events = some state) {taskId : TaskId}
    {rounds : List (List RefreshEvent)} (hrounds : ∀ round ∈ rounds, CompleteRefresh taskId round)
    (hrefreshed : run EventSync.step state rounds.flatten = some final) :
    min ((state.eventsOf taskId).length + eventPageLimit * rounds.length)
        (state.log.store.codexLog taskId).length ≤ (final.eventsOf taskId).length ∧
      ((final.log.store.codexLog taskId).length ≤
          min ((state.eventsOf taskId).length + eventPageLimit * rounds.length)
            (state.log.store.codexLog taskId).length →
        final.eventsOf taskId = final.log.store.codexLog taskId) := by
  have hsynced : state.Synced :=
    invariant_of_run (fun _ _ _ hinv hstep => hinv.step hstep) hrun .initial
  obtain ⟨hfinal, hadvance⟩ := hsynced.refreshes_advance hrounds hrefreshed
  exact ⟨hadvance, fun hquiet =>
    (hfinal.held taskId).eq_of_length_le (Nat.le_trans hquiet hadvance)⟩

namespace Sample

/-- An event is stored, and two refreshes that overlap bring it. -/
def syncEvents : List RefreshEvent := [.engine (.hold 0 session),
  .engine (.append 0 (.status "turnStarted" "Codex turn started") 1),
  .ask 0 taskId, .ask 1 taskId, .answer 1, .answer 0, .join 0]

def lastRefresh : List RefreshEvent := [.ask 2 taskId, .join 1, .answer 2, .join 2]

end Sample

open Sample

theorem workspace_has_event : ∃ state,
    run EventSync.step EventSync.initial syncEvents = some state ∧ (state.eventsOf taskId).length = 1 ∧
    state.eventsOf taskId <+: state.log.store.codexLog taskId := by
  have hlength : ((run EventSync.step EventSync.initial syncEvents).map fun state =>
      (state.eventsOf taskId).length) = some 1 := by decide +kernel
  obtain ⟨state, hrun, hone⟩ := Option.map_eq_some_iff.mp hlength
  exact ⟨state, hrun, hone, (workspace_follows_log hrun taskId).1⟩

theorem workspace_shows_event : ∃ state final,
    run EventSync.step EventSync.initial syncEvents = some state ∧
    run EventSync.step state lastRefresh = some final ∧
    min (1 + eventPageLimit) 1 ≤ (final.eventsOf taskId).length := by
  have hlengths : ((run EventSync.step EventSync.initial syncEvents).map fun state =>
      ((state.eventsOf taskId).length, (state.log.store.codexLog taskId).length,
        (run EventSync.step state lastRefresh).isSome)) = some (1, 1, true) := by decide +kernel
  obtain ⟨state, hrun, hvalues⟩ := Option.map_eq_some_iff.mp hlengths
  obtain ⟨hseen, hlog, hsome⟩ := Prod.ext_iff.mp hvalues |>.imp_right Prod.ext_iff.mp
  obtain ⟨final, hfinal⟩ := Option.isSome_iff_exists.mp hsome
  have hround : CompleteRefresh taskId lastRefresh :=
    @CompleteRefresh.mk taskId 2 [.join 1] [] (by simp [RefreshEvent.Leaves]) (by simp)
  have hrounds : ∀ round ∈ [lastRefresh], CompleteRefresh taskId round :=
    List.forall_mem_singleton.mpr hround
  have hrefreshed : run EventSync.step state [lastRefresh].flatten = some final := hfinal
  have hcaught := (workspace_catches_up hrun hrounds hrefreshed).1
  dsimp only at hseen hlog
  rw [hseen, hlog] at hcaught
  exact ⟨state, final, hrun, hfinal, hcaught⟩

end Patchwright
