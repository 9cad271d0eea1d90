import Patchwright.Engine.WebhookAgreement
import Patchwright.Engine.WebhookWakes
import Patchwright.Library.Outbox
import Patchwright.Relay.InboxRuns

/-!
# Webhooks between the relay and the engine

The relay answers a webhook with 202 once it is in its inbox, and a forwarder
hands the pending rows to the engine over a connection that can fail at every
point: a request may be lost, an answer may be lost after the engine has
committed, and either process may stop and start again.  The engine may read a
request after the relay has given it up, so a delivery can reach it many times.
-/

namespace Patchwright.Webhook

open Checked Runs Outbox

/-- Where the forwarder stands in its batch.  With nothing left to send it is at
rest. -/
inductive ForwarderPlace where
  | sending (batch : List ForwardedWebhook)
  | awaiting (call : Nat) (delivery : ForwardedWebhook) (rest : List ForwardedWebhook)
  | marking (delivery : ForwardedWebhook) (rest : List ForwardedWebhook)
  | deferring (delivery : ForwardedWebhook) (rest : List ForwardedWebhook)
  | stopped

/-- The deliveries of the batch that are not done. -/
def ForwarderPlace.deliveries : ForwarderPlace → List ForwardedWebhook
  | .sending batch => batch
  | .awaiting _ delivery rest => delivery :: rest
  | .marking delivery rest => delivery :: rest
  | .deferring delivery rest => delivery :: rest
  | .stopped => []

/-- Both databases, the forwarder, the requests that the engine may still read
under their numbers, and the numbers that it has answered with a result.  What
was answered with 202 and what the engine has stored is noted, latest first. -/
structure Pipeline where
  inbox : Inbox
  forwarder : ForwarderPlace
  calls : List (Nat × ForwardedWebhook)
  acknowledged : List Nat
  nextCall : Nat
  store : EventStore
  accepted : List ForwardedWebhook
  ingested : List String

inductive PipelineEvent where
  | receive (request : Request) (now : DateTime)
  | poll (now : DateTime)
  | send
  | unsent
  | ingest (call : Nat) (ingestedAt now : DateTime)
  | lose (call : Nat)
  | acknowledge
  | giveUp
  | mark (now : DateTime)
  | defer (now : DateTime)
  | restartRelay (now : DateTime)
  | restartEngine (now : DateTime)
  | other (next : EventStore)

namespace Pipeline

def initial : Pipeline where
  inbox := .empty
  forwarder := .sending []
  calls := []
  acknowledged := []
  nextCall := 0
  store := .empty
  accepted := []
  ingested := []

/-- The route of the relay. -/
def receive [Secret] [Sha256] (limits : InboxLimits) (state : Pipeline) (request : Request)
    (now : DateTime) : Pipeline :=
  match githubWebhook request with
  | .error _ => state
  | .ok delivery =>
      let recorded := state.inbox.record limits delivery now
      { state with
        inbox := recorded.1
        accepted :=
          if recorded.2 = .accepted then (delivery.forwarded? now).toList ++ state.accepted
          else state.accepted }

/-- The engine reads a request and answers it. -/
def ingest (state : Pipeline) (call : Nat) (delivery : ForwardedWebhook)
    (ingestedAt now : DateTime) : Pipeline :=
  let calls := state.calls.filter fun entry => entry.1 ≠ call
  match state.store.ingestGithubWebhook delivery ingestedAt now with
  | .error _ => { state with calls }
  | .ok (store, outcome) =>
      { state with
        calls
        acknowledged := call :: state.acknowledged
        store
        ingested :=
          if outcome.inserted then delivery.deliveryId :: state.ingested else state.ingested }

/-- The forwarder goes on after a write to the inbox, and stops if it failed. -/
def written (state : Pipeline) (rest : List ForwardedWebhook) :
    Except String Inbox → Pipeline
  | .ok inbox => { state with inbox, forwarder := .sending rest }
  | .error _ => { state with forwarder := .stopped }

/-- One step.  The relay gives a request up when it cannot be sent, when its
answer is an error, or when none comes in time; the rest of the engine leaves
the stored deliveries alone. -/
def step [Secret] [Sha256] (limits : InboxLimits) (state : Pipeline) :
    PipelineEvent → Option Pipeline
  | .receive request now => some (state.receive limits request now)
  | .poll now =>
      match state.forwarder with
      | .sending [] =>
          match state.inbox.dueDeliveries now with
          | .ok batch => some { state with forwarder := .sending batch }
          | .error _ => some { state with forwarder := .stopped }
      | _ => none
  | .send =>
      match state.forwarder with
      | .sending (delivery :: rest) =>
          some { state with
            forwarder := .awaiting state.nextCall delivery rest
            calls := (state.nextCall, delivery) :: state.calls
            nextCall := state.nextCall + 1 }
      | _ => none
  | .unsent =>
      match state.forwarder with
      | .sending (delivery :: rest) => some { state with forwarder := .deferring delivery rest }
      | _ => none
  | .ingest call ingestedAt now =>
      match state.calls.lookup call with
      | some delivery => some (state.ingest call delivery ingestedAt now)
      | none => none
  | .lose call => some { state with calls := state.calls.filter fun entry => entry.1 ≠ call }
  | .acknowledge =>
      match state.forwarder with
      | .awaiting call delivery rest =>
          if call ∈ state.acknowledged then some { state with forwarder := .marking delivery rest }
          else none
      | _ => none
  | .giveUp =>
      match state.forwarder with
      | .awaiting _ delivery rest => some { state with forwarder := .deferring delivery rest }
      | _ => none
  | .mark now =>
      match state.forwarder with
      | .marking delivery rest =>
          some (state.written rest (state.inbox.markForwarded limits delivery.deliveryId now))
      | _ => none
  | .defer now =>
      match state.forwarder with
      | .deferring delivery rest =>
          some (state.written rest (state.inbox.deferDelivery delivery.deliveryId now))
      | _ => none
  | .restartRelay now =>
      some { state with
        inbox := state.inbox.pruneForwardedDeliveries limits now
        forwarder := .sending [] }
  | .restartEngine now => some { state with store := state.store.reopen now, calls := [] }
  | .other next =>
      if next.githubWebhookDeliveries = state.store.githubWebhookDeliveries ∧
          next.MonitorsKeyed then
        some { state with store := next }
      else none

/-- The relay promises what it answers with 202, and the engine takes what it
stores. -/
def ledger (state : Pipeline) : Ledger String :=
  ⟨state.accepted.map ForwardedWebhook.deliveryId, state.ingested⟩

end Pipeline

/-! ## What the transactions do to the rows -/

namespace Inbox

section Rows

variable {limits : InboxLimits} {inbox next : Inbox} {deliveryId : String} {now : DateTime}
variable {change : InboxRow → InboxRow}

def pendingIds (inbox : Inbox) : List String := inbox.pending.map InboxRow.deliveryId

theorem toForwarded_deliveryId {row : InboxRow} {delivery : ForwardedWebhook}
    (hread : InboxRow.toForwarded row = .ok delivery) : delivery.deliveryId = row.deliveryId := by
  simp only [InboxRow.toForwarded, bind_eq_ok, pure_eq_ok] at hread
  obtain ⟨-, -, rfl⟩ := hread
  rfl

theorem pendingIds_prune : (inbox.pruneForwardedDeliveries limits now).pendingIds =
    inbox.pendingIds := by
  rw [pendingIds, prune_pending, pendingIds]

theorem pendingIds_sublist : inbox.pendingIds.Sublist inbox.ids :=
  (List.filter_sublist).map _

theorem findPending_isSome : (inbox.findPending deliveryId).isSome ↔
    deliveryId ∈ inbox.pendingIds := by
  rw [findPending, List.find?_isSome, pendingIds, List.mem_map]
  simp only [decide_eq_true_eq]

/-- An update leaves a row alone, or rewrites a pending one. -/
theorem mem_updatePending_rows {row : InboxRow}
    (hrow : row ∈ (inbox.updatePending deliveryId change).rows) :
    row ∈ inbox.rows ∨ ∃ old ∈ inbox.pending, old.deliveryId = deliveryId ∧
      row = { change old with deliveryId := old.deliveryId } := by
  obtain ⟨old, hold, rfl⟩ := List.mem_map.mp hrow
  by_cases hchanged : old.deliveryId = deliveryId ∧ ¬ old.isForwarded
  · rw [if_pos hchanged]
    refine .inr ⟨old, List.mem_filter.mpr ⟨hold, ?_⟩, hchanged.1, rfl⟩
    exact Bool.not_eq_true' _ ▸ Bool.eq_false_iff.mpr hchanged.2
  · rw [if_neg hchanged]
    exact .inl hold

/-- Marking a delivery takes it out of the pending rows. -/
theorem mark_pending_eq : (inbox.mark deliveryId now).pending =
    inbox.pending.filter fun row => row.deliveryId ≠ deliveryId := by
  rw [pending, mark, updatePending, pending, List.filter_filter, List.filter_map]
  have hkept : ∀ row ∈ inbox.rows, ((fun row : InboxRow => !row.isForwarded) ∘ fun row =>
      if row.deliveryId = deliveryId ∧ ¬ row.isForwarded then
        { ({ row with forwardedAt := some now, lastError := none } : InboxRow) with
          deliveryId := row.deliveryId }
      else row) row = (decide (row.deliveryId ≠ deliveryId) && !row.isForwarded) := by
    intro row _
    dsimp only [Function.comp_apply]
    by_cases hchanged : row.deliveryId = deliveryId ∧ ¬ row.isForwarded
    · rw [if_pos hchanged, decide_eq_false (not_not.mpr hchanged.1)]
      rfl
    · rw [if_neg hchanged]
      by_cases hid : row.deliveryId = deliveryId
      · rw [not_and, not_not] at hchanged
        rw [hchanged hid, Bool.not_true, Bool.and_false]
      · rw [decide_eq_true hid, Bool.true_and]
  rw [List.filter_congr hkept]
  refine (List.map_congr_left fun row hrow => ?_).trans (List.map_id _)
  have hid : row.deliveryId ≠ deliveryId := by
    have hcond := (List.mem_filter.mp hrow).2
    rw [Bool.and_eq_true, decide_eq_true_iff] at hcond
    exact hcond.1
  exact if_neg fun hsame => hid hsame.1

theorem pendingIds_mark : (inbox.mark deliveryId now).pendingIds =
    inbox.pendingIds.filter fun id => id ≠ deliveryId := by
  rw [pendingIds, mark_pending_eq, pendingIds, List.filter_map]
  rfl

/-- An update that leaves the column alone keeps the pending deliveries. -/
theorem pendingIds_updatePending (hchange : ∀ row, (change row).isForwarded = row.isForwarded) :
    (inbox.updatePending deliveryId change).pendingIds = inbox.pendingIds := by
  have hsame : ∀ row : InboxRow, InboxRow.isForwarded
      (if row.deliveryId = deliveryId ∧ ¬ row.isForwarded then
        { change row with deliveryId := row.deliveryId } else row) = row.isForwarded := by
    intro row
    split
    · exact hchange row
    · rfl
  rw [pendingIds, pending, updatePending, List.filter_map, List.map_map, pendingIds, pending]
  have hfilter : inbox.rows.filter ((fun row : InboxRow => !row.isForwarded) ∘ fun row =>
      if row.deliveryId = deliveryId ∧ ¬ row.isForwarded then
        { change row with deliveryId := row.deliveryId } else row) =
      inbox.rows.filter fun row => !row.isForwarded :=
    List.filter_congr fun row _ => congrArg not (hsame row)
  rw [hfilter]
  refine List.map_congr_left fun row _ => ?_
  dsimp only [Function.comp_apply]
  split <;> rfl

/-- A row is there before and after, as far as the engine is told of it. -/
def SameDelivery (first second : InboxRow) : Prop :=
  first.deliveryId = second.deliveryId ∧ InboxRow.toForwarded first = InboxRow.toForwarded second

theorem mem_mark_rows {row : InboxRow} (hrow : row ∈ (inbox.mark deliveryId now).rows) :
    (∃ old ∈ inbox.rows, SameDelivery old row) ∧
      (row.isForwarded = true → row ∈ inbox.forwarded ∨ row.deliveryId = deliveryId) := by
  rcases mem_updatePending_rows hrow with hold | ⟨old, hold, hid, rfl⟩
  · exact ⟨⟨row, hold, rfl, rfl⟩, fun hforwarded => .inl (List.mem_filter.mpr ⟨hold, hforwarded⟩)⟩
  · exact ⟨⟨old, (List.mem_filter.mp hold).1, rfl, rfl⟩, fun _ => .inr hid⟩

/-- A deferral keeps the pending deliveries and forwards none. -/
theorem deferDelivery_rows (hdefer : inbox.deferDelivery deliveryId now = .ok next) :
    next.pendingIds = inbox.pendingIds ∧ (∀ row ∈ next.forwarded, row ∈ inbox.forwarded) ∧
      ∀ row ∈ next.rows, ∃ old ∈ inbox.rows, SameDelivery old row := by
  obtain ⟨attempts, due, rfl⟩ := deferDelivery_eq_ok hdefer
  refine ⟨pendingIds_updatePending fun _ => rfl, ?_, ?_⟩
  · intro row hrow
    obtain ⟨hmem, hforwarded⟩ := List.mem_filter.mp hrow
    rcases mem_updatePending_rows hmem with hold | ⟨old, hold, -, rfl⟩
    · exact List.mem_filter.mpr ⟨hold, hforwarded⟩
    · have hpending := (List.mem_filter.mp hold).2
      rw [Bool.not_eq_true'] at hpending
      exact absurd (hpending.symm.trans hforwarded) Bool.false_ne_true
  · intro row hrow
    rcases mem_updatePending_rows hrow with hold | ⟨old, hold, -, rfl⟩
    · exact ⟨row, hold, rfl, rfl⟩
    · exact ⟨old, (List.mem_filter.mp hold).1, rfl, rfl⟩

end Rows

end Inbox

/-! ## What holds between the two sides -/

namespace Pipeline

/-- The inbox and the engine hold what was accepted, and the forwarder marks
only what the engine has stored. -/
structure Consistent (state : Pipeline) : Prop where
  stored : ∀ id, id ∈ state.store.githubWebhookDeliveries ↔ id ∈ state.ingested
  origin : ∀ id row, state.store.githubWebhookDeliveries.lookup id = some row →
    ∃ delivery ∈ state.accepted, delivery.deliveryId = id ∧ row = delivery.row row.ingestedAt
  keyed : state.store.MonitorsKeyed
  forwarded : ∀ row ∈ state.inbox.forwarded, row.deliveryId ∈ state.ingested
  rows : ∀ row ∈ state.inbox.rows, ∃ delivery ∈ state.accepted,
    Inbox.InboxRow.toForwarded row = .ok delivery
  kept : ∀ delivery ∈ state.accepted,
    delivery.deliveryId ∈ state.inbox.pendingIds ∨ delivery.deliveryId ∈ state.ingested
  calls : ∀ entry ∈ state.calls, entry.2 ∈ state.accepted ∧ entry.1 < state.nextCall
  acknowledged : ∀ call ∈ state.acknowledged, call < state.nextCall
  held : ∀ delivery ∈ state.forwarder.deliveries,
    delivery ∈ state.accepted ∧ delivery.deliveryId ∈ state.inbox.pendingIds
  distinct : (state.forwarder.deliveries.map ForwardedWebhook.deliveryId).Nodup
  awaited : ∀ call delivery rest, state.forwarder = .awaiting call delivery rest →
    (∀ other, (call, other) ∈ state.calls → other = delivery) ∧
      (call ∈ state.acknowledged → delivery.deliveryId ∈ state.ingested) ∧ call < state.nextCall
  marking : ∀ delivery rest, state.forwarder = .marking delivery rest →
    delivery.deliveryId ∈ state.ingested
  stopped : state.forwarder = .stopped → ∃ row ∈ state.inbox.pending, 2 ^ 32 ≤ row.attemptCount

theorem consistent_initial : initial.Consistent where
  stored _ := iff_of_false (AList.notMem_empty _) List.not_mem_nil
  origin _ _ hlookup := absurd hlookup (by rw [initial, EventStore.empty]; rintro ⟨⟩)
  keyed _ hentry := absurd hentry List.not_mem_nil
  forwarded _ hrow := absurd hrow List.not_mem_nil
  rows _ hrow := absurd hrow List.not_mem_nil
  kept _ hdelivery := absurd hdelivery List.not_mem_nil
  calls _ hentry := absurd hentry List.not_mem_nil
  acknowledged _ hcall := absurd hcall List.not_mem_nil
  held _ hdelivery := absurd hdelivery List.not_mem_nil
  distinct := List.nodup_nil
  awaited := by rintro _ _ _ ⟨⟩
  marking := by rintro _ _ ⟨⟩
  stopped := by rintro ⟨⟩

section Steps

variable {state : Pipeline} {limits : InboxLimits} {now : DateTime}

/-- The forwarder drops deliveries, or takes one that the engine has stored to
the mark. -/
theorem Consistent.place (hstate : state.Consistent) {place : ForwarderPlace}
    (hdeliveries : place.deliveries.Sublist state.forwarder.deliveries)
    (hawaiting : ∀ call delivery rest, place ≠ .awaiting call delivery rest)
    (hmarking : ∀ delivery rest, place = .marking delivery rest →
      delivery.deliveryId ∈ state.ingested)
    (hstopped : place = .stopped → ∃ row ∈ state.inbox.pending, 2 ^ 32 ≤ row.attemptCount) :
    { state with forwarder := place }.Consistent :=
  { hstate with
    held := fun delivery hdelivery => hstate.held delivery (hdeliveries.subset hdelivery)
    distinct := hstate.distinct.sublist (hdeliveries.map _)
    awaited := fun call delivery rest hplace => absurd hplace (hawaiting call delivery rest)
    marking := hmarking
    stopped := hstopped }

theorem Consistent.deferring (hstate : state.Consistent) {delivery : ForwardedWebhook}
    {rest : List ForwardedWebhook}
    (hdeliveries : (delivery :: rest).Sublist state.forwarder.deliveries) :
    { state with forwarder := .deferring delivery rest }.Consistent :=
  hstate.place hdeliveries (by rintro _ _ _ ⟨⟩) (by rintro _ _ ⟨⟩) (by rintro ⟨⟩)

theorem Consistent.sending_nil (hstate : state.Consistent) :
    { state with forwarder := .sending [] }.Consistent :=
  hstate.place (List.nil_sublist _) (by rintro _ _ _ ⟨⟩) (by rintro _ _ ⟨⟩) (by rintro ⟨⟩)

theorem Consistent.prune (hstate : state.Consistent) (now : DateTime) :
    { state with inbox := state.inbox.pruneForwardedDeliveries limits now }.Consistent :=
  { hstate with
    forwarded := by
      intro row hrow
      obtain ⟨hmem, hforwarded⟩ := List.mem_filter.mp hrow
      exact hstate.forwarded row (List.mem_filter.mpr ⟨(Inbox.mem_prune.1 hmem).1, hforwarded⟩)
    rows := fun row hrow => hstate.rows row (Inbox.mem_prune.1 hrow).1
    kept := by
      rw [Inbox.pendingIds_prune]
      exact hstate.kept
    held := by
      rw [Inbox.pendingIds_prune]
      exact hstate.held
    stopped := by
      rw [Inbox.prune_pending]
      exact hstate.stopped }

/-- A new row of an accepted delivery. -/
theorem Consistent.accept (hstate : state.Consistent) {row : InboxRow}
    {delivery : ForwardedWebhook} (hread : Inbox.InboxRow.toForwarded row = .ok delivery)
    (hpending : row.isForwarded = false) (hfresh : row.deliveryId ∉ state.inbox.ids) :
    { state with
      inbox := state.inbox.insertOrIgnore row
      accepted := delivery :: state.accepted }.Consistent := by
  have hrows := Inbox.insertOrIgnore_fresh hfresh
  have hpendings : (state.inbox.insertOrIgnore row).pending = state.inbox.pending ++ [row] := by
    rw [Inbox.pending, hrows, List.filter_append, Inbox.pending, List.filter_singleton, hpending]
    rfl
  have hids : (state.inbox.insertOrIgnore row).pendingIds =
      state.inbox.pendingIds ++ [row.deliveryId] := by
    rw [Inbox.pendingIds, hpendings, List.map_append]
    rfl
  have hforwardeds : (state.inbox.insertOrIgnore row).forwarded = state.inbox.forwarded := by
    rw [Inbox.forwarded, hrows, List.filter_append, Inbox.forwarded, List.filter_singleton,
      hpending]
    exact List.append_nil _
  exact
    { hstate with
      origin := by
        intro id stored hlookup
        obtain ⟨other, hother, hsame⟩ := hstate.origin id stored hlookup
        exact ⟨other, List.mem_cons_of_mem _ hother, hsame⟩
      forwarded := by
        rw [hforwardeds]
        exact hstate.forwarded
      rows := by
        intro other hother
        rw [hrows, List.mem_append, List.mem_singleton] at hother
        rcases hother with hold | rfl
        · obtain ⟨old, hmem, hsame⟩ := hstate.rows other hold
          exact ⟨old, List.mem_cons_of_mem _ hmem, hsame⟩
        · exact ⟨delivery, List.mem_cons_self, hread⟩
      kept := by
        rw [hids, List.forall_mem_cons]
        constructor
        · rw [Inbox.toForwarded_deliveryId hread]
          exact .inl (List.mem_append_right _ List.mem_cons_self)
        · intro other hother
          exact (hstate.kept other hother).imp (List.mem_append_left _) id
      calls := fun entry hentry =>
        ⟨List.mem_cons_of_mem _ (hstate.calls entry hentry).1, (hstate.calls entry hentry).2⟩
      held := by
        intro other hother
        rw [hids]
        exact ⟨List.mem_cons_of_mem _ (hstate.held other hother).1,
          List.mem_append_left _ (hstate.held other hother).2⟩
      stopped := by
        rw [hpendings]
        intro hplace
        obtain ⟨old, hold, hmany⟩ := hstate.stopped hplace
        exact ⟨old, List.mem_append_left _ hold, hmany⟩ }

end Steps

end Pipeline

namespace Inbox

theorem exists_dueDeliveries {inbox : Inbox} (now : DateTime)
    (hread : ∀ row ∈ inbox.pending, ∃ delivery, InboxRow.toForwarded row = .ok delivery) :
    ∃ batch, inbox.dueDeliveries now = .ok batch := by
  refine exists_mapM_eq_ok fun row hrow => hread row ?_
  have hdue := (List.mergeSort_perm _ _).mem_iff.mp (List.mem_of_mem_take hrow)
  exact (List.mem_filter.mp hdue).1

/-- The next batch: the rows that are due, the earliest received first. -/
theorem dueDeliveries_eq_ok {inbox : Inbox} {now : DateTime} {batch : List ForwardedWebhook}
    (hbatch : inbox.dueDeliveries now = .ok batch) :
    ∃ rows, List.Forall₂ (fun row delivery => InboxRow.toForwarded row = .ok delivery) rows batch ∧
      rows ⊆ inbox.pending ∧ batch.map ForwardedWebhook.deliveryId = rows.map InboxRow.deliveryId ∧
      (rows.map InboxRow.deliveryId).Nodup ∧
      rows.length = min forwardBatchSize
        (inbox.pending.filter fun row => IsDue row now).length := by
  rw [dueDeliveries, mapM_eq_ok] at hbatch
  let order : InboxRow → InboxRow → Bool := fun first second =>
    first.receivedAt < second.receivedAt ||
      (first.receivedAt = second.receivedAt && first.deliveryId ≤ second.deliveryId)
  have hperm := List.mergeSort_perm (inbox.pending.filter fun row => IsDue row now) order
  refine ⟨_, hbatch, ?_, ?_, ?_, ?_⟩
  · intro row hrow
    have hmem := hperm.mem_iff.mp (List.mem_of_mem_take hrow)
    exact (List.mem_filter.mp hmem).1
  · exact List.map_eq_map_of_forall₂ hbatch fun _ _ hread => toForwarded_deliveryId hread
  · have hnodup : ((inbox.pending.filter fun row => IsDue row now).map InboxRow.deliveryId).Nodup :=
      (inbox.nodup.sublist pendingIds_sublist).sublist ((List.filter_sublist).map _)
    exact ((hperm.map _).nodup_iff.mpr hnodup).sublist ((List.take_sublist _ _).map _)
  · rw [List.length_take, hperm.length_eq]

end Inbox

namespace Pipeline

section Transactions

variable {state : Pipeline} {limits : InboxLimits} {now : DateTime}
variable {delivery : ForwardedWebhook} {rest : List ForwardedWebhook}

/-- A request leaves the inbox alone, prunes it, or adds a row that is
accepted. -/
theorem receive_cases [Secret] [Sha256] (limits : InboxLimits) (state : Pipeline)
    (request : Request) (now : DateTime) :
    state.receive limits request now = state ∨
    state.receive limits request now =
      { state with inbox := state.inbox.pruneForwardedDeliveries limits now } ∨
    ∃ row delivery, Inbox.InboxRow.toForwarded row = .ok delivery ∧ row.isForwarded = false ∧
      row.deliveryId ∉ (state.inbox.pruneForwardedDeliveries limits now).ids ∧
      state.receive limits request now =
        { state with
          inbox := (state.inbox.pruneForwardedDeliveries limits now).insertOrIgnore row
          accepted := delivery :: state.accepted } := by
  unfold receive
  cases hwebhook : githubWebhook request with
  | error reply => exact .inl rfl
  | ok delivery =>
      right
      dsimp only
      have hrecorded := Inbox.record_recorded limits state.inbox delivery now
      generalize state.inbox.record limits delivery now = recorded at hrecorded
      cases hrecorded with
      | duplicate => exact .inl rfl
      | full => exact .inl rfl
      | accepted hfresh =>
          obtain ⟨-, id, event, action, value, -, -, -, -, hsame⟩ := githubWebhook_eq_ok.1 hwebhook
          right
          refine ⟨Inbox.newRow delivery now, ⟨id, sanitizedEnvelope event action value,
            sha256Hex request.body, rfc3339 now⟩, ?_, rfl, hfresh, ?_⟩
          · rw [Inbox.InboxRow.toForwarded, Inbox.newRow, hsame,
              SanitizedWebhookEnvelope.ofJson?_sanitized]
            rfl
          · rw [if_pos rfl, hsame, WebhookDelivery.forwarded?_sanitized]
            rfl

/-- Every pending row can be read, so there is a batch. -/
theorem Consistent.due (hstate : state.Consistent) (now : DateTime) :
    ∃ batch, state.inbox.dueDeliveries now = .ok batch ∧
      (∀ delivery ∈ batch, delivery ∈ state.accepted ∧
        delivery.deliveryId ∈ state.inbox.pendingIds) ∧
      (batch.map ForwardedWebhook.deliveryId).Nodup := by
  have hread : ∀ row ∈ state.inbox.pending, ∃ delivery ∈ state.accepted,
      Inbox.InboxRow.toForwarded row = .ok delivery :=
    fun row hrow => hstate.rows row (List.mem_filter.mp hrow).1
  obtain ⟨batch, hbatch⟩ := Inbox.exists_dueDeliveries now fun row hrow =>
    (hread row hrow).imp fun _ hdelivery => hdelivery.2
  obtain ⟨rows, hrows, hsubset, hids, hnodup, -⟩ := Inbox.dueDeliveries_eq_ok hbatch
  refine ⟨batch, hbatch, fun delivery hdelivery => ?_, hids ▸ hnodup⟩
  obtain ⟨row, hrow, hsource⟩ := List.exists_source_of_forall₂ hrows hdelivery
  obtain ⟨accepted, haccepted, hsame⟩ := hread row (hsubset hrow)
  rw [hsource, Except.ok.injEq] at hsame
  refine ⟨hsame ▸ haccepted, ?_⟩
  rw [Inbox.toForwarded_deliveryId hsource]
  exact List.mem_map_of_mem (hsubset hrow)

/-- The delivery in hand is pending, so it can be marked, and the engine has it. -/
theorem Consistent.mark (hstate : state.Consistent)
    (hplace : state.forwarder = .marking delivery rest) :
    ∃ inbox, state.inbox.markForwarded limits delivery.deliveryId now = .ok inbox ∧
      inbox.pendingIds = (state.inbox.pendingIds.filter fun id => id ≠ delivery.deliveryId) ∧
      { state with inbox, forwarder := .sending rest }.Consistent := by
  have hingested := hstate.marking delivery rest hplace
  have hheld := hstate.held
  have hdistinct := hstate.distinct
  rw [hplace] at hheld hdistinct
  obtain ⟨hfirst, hdistinct⟩ := List.nodup_cons.mp hdistinct
  have hmark : state.inbox.markForwarded limits delivery.deliveryId now =
      .ok ((state.inbox.mark delivery.deliveryId now).pruneForwardedDeliveries limits now) := by
    have hfound := Inbox.findPending_isSome.2 (hheld delivery List.mem_cons_self).2
    rw [Inbox.markForwarded, ensure, if_pos hfound]
    rfl
  refine ⟨_, hmark, by rw [Inbox.pendingIds_prune, Inbox.pendingIds_mark], ?_⟩
  have hmarked : { state with
      inbox := state.inbox.mark delivery.deliveryId now
      forwarder := .sending rest }.Consistent :=
    { hstate with
      forwarded := by
        intro row hrow
        obtain ⟨hmem, hforwarded⟩ := List.mem_filter.mp hrow
        rcases (Inbox.mem_mark_rows hmem).2 hforwarded with hold | hid
        · exact hstate.forwarded row hold
        · exact hid ▸ hingested
      rows := by
        intro row hrow
        obtain ⟨old, hold, -, hsame⟩ := (Inbox.mem_mark_rows hrow).1
        obtain ⟨accepted, haccepted, hread⟩ := hstate.rows old hold
        exact ⟨accepted, haccepted, hsame ▸ hread⟩
      kept := by
        intro other hother
        rw [Inbox.pendingIds_mark]
        by_cases hsame : other.deliveryId = delivery.deliveryId
        · exact .inr (hsame ▸ hingested)
        · refine (hstate.kept other hother).imp (fun hpending => ?_) id
          exact List.mem_filter.mpr ⟨hpending, decide_eq_true hsame⟩
      held := by
        intro other hother
        obtain ⟨haccepted, hpending⟩ := hheld other (List.mem_cons_of_mem _ hother)
        rw [Inbox.pendingIds_mark]
        refine ⟨haccepted, List.mem_filter.mpr ⟨hpending, decide_eq_true ?_⟩⟩
        intro hsame
        exact hfirst (hsame ▸ List.mem_map_of_mem hother)
      distinct := hdistinct
      awaited := by rintro _ _ _ ⟨⟩
      marking := by rintro _ _ ⟨⟩
      stopped := by rintro ⟨⟩ }
  exact hmarked.prune now

/-- A delivery in hand is deferred, unless its attempts do not fit their column. -/
theorem Consistent.defer (hstate : state.Consistent)
    (hplace : state.forwarder = .deferring delivery rest) :
    (state.written rest
      (state.inbox.deferDelivery delivery.deliveryId now)).Consistent ∧
    (state.written rest
      (state.inbox.deferDelivery delivery.deliveryId now)).inbox.pendingIds =
      state.inbox.pendingIds := by
  have hheld := hstate.held
  have hdistinct := hstate.distinct
  rw [hplace] at hheld hdistinct
  cases hdefer : state.inbox.deferDelivery delivery.deliveryId now with
  | ok inbox =>
      obtain ⟨hpending, hforwarded, hrows⟩ := Inbox.deferDelivery_rows hdefer
      refine ⟨?_, hpending⟩
      exact
        { hstate with
          forwarded := fun row hrow => hstate.forwarded row (hforwarded row hrow)
          rows := by
            intro row hrow
            obtain ⟨old, hold, -, hsame⟩ := hrows row hrow
            obtain ⟨accepted, haccepted, hread⟩ := hstate.rows old hold
            exact ⟨accepted, haccepted, hsame ▸ hread⟩
          kept := fun other hother => by
            rw [written, hpending]
            exact hstate.kept other hother
          held := fun other hother => by
            rw [written, hpending]
            exact hheld other (List.mem_cons_of_mem _ hother)
          distinct := (List.nodup_cons.mp hdistinct).2
          awaited := by rintro _ _ _ ⟨⟩
          marking := by rintro _ _ ⟨⟩
          stopped := by rintro ⟨⟩ }
  | error error =>
      refine ⟨hstate.place (List.nil_sublist _) (by rintro _ _ _ ⟨⟩) (by rintro _ _ ⟨⟩)
        fun _ => ?_, rfl⟩
      have hfound := Inbox.findPending_isSome.2 (hheld delivery List.mem_cons_self).2
      obtain ⟨row, hrow⟩ := Option.isSome_iff_exists.mp hfound
      refine ⟨row, (Inbox.findPending_eq_some hrow).1, ?_⟩
      rw [Inbox.deferDelivery, hrow] at hdefer
      by_contra hfew
      have hok : ensure (row.attemptCount < 2 ^ 32) "attempt count out of range" = .ok () :=
        ensure_eq_ok.2 (not_le.mp hfew)
      rw [okOr, ok_bind, hok] at hdefer
      cases hdefer

end Transactions

end Pipeline

namespace Pipeline

section Calls

variable {state : Pipeline} {call : Nat} {delivery : ForwardedWebhook} {ingestedAt now : DateTime}

theorem mem_calls (hcall : state.calls.lookup call = some delivery) :
    (call, delivery) ∈ state.calls := by
  obtain ⟨before, after, hcalls, -⟩ := List.lookup_eq_some_iff.mp hcall
  rw [hcalls]
  exact List.mem_append_right _ List.mem_cons_self

/-- Requests that are out of the way. -/
theorem Consistent.dropCalls (hstate : state.Consistent) {calls : List (Nat × ForwardedWebhook)}
    (hcalls : calls ⊆ state.calls) : { state with calls }.Consistent :=
  { hstate with
    calls := fun entry hentry => hstate.calls entry (hcalls hentry)
    awaited := fun number awaited rest hplace =>
      ⟨fun other hother => (hstate.awaited number awaited rest hplace).1 other (hcalls hother),
        (hstate.awaited number awaited rest hplace).2⟩ }

/-- The engine answers a request about a delivery that it has stored. -/
theorem Consistent.answer (hstate : state.Consistent) (hcall : (call, delivery) ∈ state.calls)
    (hingested : delivery.deliveryId ∈ state.ingested) :
    { state with acknowledged := call :: state.acknowledged }.Consistent :=
  { hstate with
    acknowledged := List.forall_mem_cons.mpr
      ⟨(hstate.calls _ hcall).2, hstate.acknowledged⟩
    awaited := by
      intro number awaited rest hplace
      obtain ⟨hown, hdone, hnumber⟩ := hstate.awaited number awaited rest hplace
      refine ⟨hown, fun hanswered => ?_, hnumber⟩
      rcases List.mem_cons.mp hanswered with rfl | hearlier
      · exact hown delivery hcall ▸ hingested
      · exact hdone hearlier }

/-- The engine stores a delivery that it did not have. -/
theorem Consistent.take (hstate : state.Consistent) {next : EventStore}
    (haccepted : delivery ∈ state.accepted)
    (hnext : next.githubWebhookDeliveries = state.store.githubWebhookDeliveries.insert
      delivery.deliveryId (delivery.row ingestedAt))
    (hwoken : EventStore.WokenBy delivery.envelope now state.store next) :
    { state with
      store := next
      ingested := delivery.deliveryId :: state.ingested }.Consistent :=
  { hstate with
    stored := by
      intro id
      rw [hnext, AList.mem_insert, List.mem_cons, hstate.stored]
    origin := by
      intro id row hlookup
      rw [hnext, AList.lookup_insert_eq] at hlookup
      by_cases hid : id = delivery.deliveryId
      · rw [if_pos hid, Option.some.injEq] at hlookup
        refine ⟨delivery, haccepted, hid.symm, ?_⟩
        rw [← hlookup]
        rfl
      · rw [if_neg hid] at hlookup
        exact hstate.origin id row hlookup
    keyed := hstate.keyed.wokenBy hwoken
    forwarded := fun row hrow => List.mem_cons_of_mem _ (hstate.forwarded row hrow)
    kept := fun other hother => (hstate.kept other hother).imp_right (List.mem_cons_of_mem _)
    awaited := fun number awaited rest hplace =>
      ⟨(hstate.awaited number awaited rest hplace).1,
        fun hanswered => List.mem_cons_of_mem _
          ((hstate.awaited number awaited rest hplace).2.1 hanswered),
        (hstate.awaited number awaited rest hplace).2.2⟩
    marking := fun awaited rest hplace =>
      List.mem_cons_of_mem _ (hstate.marking awaited rest hplace) }

/-- What the engine does with a request it reads: nothing, if it refuses the
delivery or has it already, and otherwise it takes the delivery. -/
def Takes (state next : Pipeline) (delivery : ForwardedWebhook) (now : DateTime) : Prop :=
  (next.ingested = state.ingested ∧ next.store = state.store) ∨
    (delivery.deliveryId ∉ state.ingested ∧
      next.ingested = delivery.deliveryId :: state.ingested ∧
      EventStore.WokenBy delivery.envelope now state.store next.store)

theorem Consistent.ingest (hstate : state.Consistent)
    (hcall : state.calls.lookup call = some delivery) :
    (state.ingest call delivery ingestedAt now).Consistent ∧
      Takes state (state.ingest call delivery ingestedAt now) delivery now := by
  have hmem : (call, delivery) ∈ state.calls := mem_calls hcall
  have hfewer : (state.calls.filter fun entry => entry.1 ≠ call) ⊆ state.calls :=
    List.filter_sublist.subset
  unfold Pipeline.ingest
  cases hingest : state.store.ingestGithubWebhook delivery ingestedAt now with
  | error error => exact ⟨hstate.dropCalls hfewer, .inl ⟨rfl, rfl⟩⟩
  | ok result =>
      obtain ⟨store, outcome⟩ := result
      dsimp only
      rcases EventStore.ingestGithubWebhook_eq_ok hstate.keyed hingest with
        ⟨hstored, rfl, hinserted⟩ | ⟨hfresh, hinserted, hnext, hwoken⟩
      · rw [if_neg (hinserted ▸ Bool.false_ne_true)]
        have hingested := (hstate.stored delivery.deliveryId).mp hstored
        exact ⟨(hstate.answer hmem hingested).dropCalls hfewer, .inl ⟨rfl, rfl⟩⟩
      · rw [if_pos hinserted]
        have htaken := hstate.take (hstate.calls _ hmem).1 hnext hwoken
        exact ⟨(htaken.answer hmem List.mem_cons_self).dropCalls hfewer,
          .inr ⟨fun hingested => hfresh ((hstate.stored _).mpr hingested), rfl, hwoken⟩⟩

/-- The forwarder sends the first delivery of its batch under a new number. -/
theorem Consistent.send (hstate : state.Consistent) {rest : List ForwardedWebhook}
    (hplace : state.forwarder = .sending (delivery :: rest)) :
    { state with
      forwarder := .awaiting state.nextCall delivery rest
      calls := (state.nextCall, delivery) :: state.calls
      nextCall := state.nextCall + 1 }.Consistent := by
  have hheld := hstate.held
  have hdistinct := hstate.distinct
  rw [hplace] at hheld hdistinct
  exact
    { hstate with
      calls := by
        refine List.forall_mem_cons.mpr ⟨⟨(hheld delivery List.mem_cons_self).1,
          Nat.lt_succ_self _⟩, fun entry hentry => ?_⟩
        exact ⟨(hstate.calls entry hentry).1, Nat.lt_succ_of_lt (hstate.calls entry hentry).2⟩
      acknowledged := fun call hcall => Nat.lt_succ_of_lt (hstate.acknowledged call hcall)
      held := hheld
      distinct := hdistinct
      awaited := by
        rintro _ _ _ ⟨⟩
        refine ⟨fun other hother => ?_, fun hanswered => ?_, Nat.lt_succ_self _⟩
        · rcases List.mem_cons.mp hother with hsame | hold
          · exact (Prod.ext_iff.mp hsame).2
          · exact absurd (hstate.calls _ hold).2 (Nat.lt_irrefl _)
        · exact absurd (hstate.acknowledged _ hanswered) (Nat.lt_irrefl _)
      marking := by rintro _ _ ⟨⟩
      stopped := by rintro ⟨⟩ }

end Calls

/-! ## One step -/

section Steps

variable [Secret] [Sha256] {limits : InboxLimits} {state next : Pipeline} {event : PipelineEvent}

/-- What a step does to the engine, and to a pending delivery. -/
structure Effect (state : Pipeline) (event : PipelineEvent) (next : Pipeline) : Prop where
  pending : ∀ id ∈ state.inbox.pendingIds, id ∈ next.inbox.pendingIds ∨
    (∃ now, event = .mark now) ∧ id ∈ state.ingested
  ingest : ∀ call ingestedAt now, event = .ingest call ingestedAt now →
    ∃ delivery, state.calls.lookup call = some delivery ∧ Takes state next delivery now
  quiet : (∀ call ingestedAt now, event ≠ .ingest call ingestedAt now) →
    next.ingested = state.ingested ∧
      ((∀ other, event ≠ .other other) → next.store.monitors = state.store.monitors)

omit [Secret] [Sha256] in
/-- A step that leaves the pending deliveries and the engine alone. -/
theorem effect_of_same (hpending : ∀ id ∈ state.inbox.pendingIds, id ∈ next.inbox.pendingIds)
    (hevent : ∀ call ingestedAt now, event ≠ .ingest call ingestedAt now)
    (hingested : next.ingested = state.ingested)
    (hmonitors : (∀ other, event ≠ .other other) →
      next.store.monitors = state.store.monitors) : Effect state event next where
  pending id hid := .inl (hpending id hid)
  ingest call ingestedAt now hingest := absurd hingest (hevent call ingestedAt now)
  quiet _ := ⟨hingested, hmonitors⟩

theorem Consistent.step (hstate : state.Consistent) (hstep : state.step limits event = some next) :
    next.Consistent ∧ AtMostOneMove state.ledger next.ledger ∧ Effect state event next := by
  cases event with
  | receive request now =>
      rw [Pipeline.step, Option.some.injEq] at hstep
      rcases receive_cases limits state request now with hsame | hpruned | hnew
      · rw [← hstep, hsame]
        exact ⟨hstate, .inl rfl,
          effect_of_same (fun _ => id) (by rintro _ _ _ ⟨⟩) rfl fun _ => rfl⟩
      · rw [← hstep, hpruned]
        refine ⟨hstate.prune now, .inl rfl,
          effect_of_same (fun id hid => ?_) (by rintro _ _ _ ⟨⟩) rfl fun _ => rfl⟩
        rwa [Inbox.pendingIds_prune]
      · obtain ⟨row, delivery, hread, hpending, hfresh, hsame⟩ := hnew
        rw [← hstep, hsame]
        refine ⟨(hstate.prune now).accept hread hpending hfresh,
          .inr ⟨.promise delivery.deliveryId, rfl⟩,
          effect_of_same (fun id hid => ?_) (by rintro _ _ _ ⟨⟩) rfl fun _ => rfl⟩
        rw [Inbox.pendingIds, Inbox.pending, Inbox.insertOrIgnore_fresh hfresh, List.filter_append,
          List.map_append]
        apply List.mem_append_left
        rwa [← Inbox.pendingIds_prune] at hid
  | poll now =>
      rw [Pipeline.step] at hstep
      split at hstep
      · next hplace =>
          obtain ⟨batch, hbatch, hheld, hdistinct⟩ := hstate.due now
          rw [hbatch] at hstep
          cases hstep
          refine ⟨?_, .inl rfl,
            effect_of_same (fun _ => id) (by rintro _ _ _ ⟨⟩) rfl fun _ => rfl⟩
          exact
            { hstate with
              held := hheld
              distinct := hdistinct
              awaited := by rintro _ _ _ ⟨⟩
              marking := by rintro _ _ ⟨⟩
              stopped := by rintro ⟨⟩ }
      · cases hstep
  | send =>
      rw [Pipeline.step] at hstep
      split at hstep
      · next hplace =>
          cases hstep
          exact ⟨hstate.send hplace, .inl rfl,
            effect_of_same (fun _ => id) (by rintro _ _ _ ⟨⟩) rfl fun _ => rfl⟩
      · cases hstep
  | unsent =>
      rw [Pipeline.step] at hstep
      split at hstep
      · next hplace =>
          cases hstep
          refine ⟨hstate.deferring ?_, .inl rfl,
            effect_of_same (fun _ => id) (by rintro _ _ _ ⟨⟩) rfl fun _ => rfl⟩
          rw [hplace]
          exact List.Sublist.refl _
      · cases hstep
  | ingest call ingestedAt now =>
      rw [Pipeline.step] at hstep
      split at hstep
      · next delivery hcall =>
          cases hstep
          obtain ⟨hnext, htakes⟩ := @Consistent.ingest _ _ _ ingestedAt now hstate hcall
          have hinbox : (state.ingest call delivery ingestedAt now).inbox = state.inbox ∧
              (state.ingest call delivery ingestedAt now).accepted = state.accepted := by
            rw [Pipeline.ingest]
            split <;> exact ⟨rfl, rfl⟩
          refine ⟨hnext, ?_, ?_, ?_, ?_⟩
          · rw [ledger, ledger, hinbox.2]
            rcases htakes with ⟨hsame, -⟩ | ⟨hfresh, hnew, -⟩
            · exact .inl (by rw [hsame])
            · refine .inr ⟨.take delivery.deliveryId, ?_⟩
              have hpromised : delivery ∈ state.accepted :=
                (hstate.calls _ (mem_calls hcall)).1
              rw [Ledger.step_take ⟨List.mem_map_of_mem hpromised, hfresh⟩, hnew]
          · intro id hid
            rw [hinbox.1]
            exact .inl hid
          · rintro _ _ _ ⟨⟩
            exact ⟨delivery, hcall, htakes⟩
          · exact fun hother => absurd rfl (hother call ingestedAt now)
      · cases hstep
  | lose call =>
      cases hstep
      exact ⟨hstate.dropCalls List.filter_sublist.subset, .inl rfl,
        effect_of_same (fun _ => id) (by rintro _ _ _ ⟨⟩) rfl fun _ => rfl⟩
  | acknowledge =>
      rw [Pipeline.step] at hstep
      split at hstep
      · next call delivery rest hplace =>
          rw [Option.ite_none_right_eq_some, Option.some.injEq] at hstep
          obtain ⟨hanswered, rfl⟩ := hstep
          refine ⟨hstate.place ?_ (by rintro _ _ _ ⟨⟩) ?_ (by rintro ⟨⟩), .inl rfl,
            effect_of_same (fun _ => id) (by rintro _ _ _ ⟨⟩) rfl fun _ => rfl⟩
          · rw [hplace]
            exact List.Sublist.refl _
          · rintro _ _ ⟨⟩
            exact (hstate.awaited call delivery rest hplace).2.1 hanswered
      · cases hstep
  | giveUp =>
      rw [Pipeline.step] at hstep
      split at hstep
      · next hplace =>
          cases hstep
          refine ⟨hstate.deferring ?_, .inl rfl,
            effect_of_same (fun _ => id) (by rintro _ _ _ ⟨⟩) rfl fun _ => rfl⟩
          rw [hplace]
          exact List.Sublist.refl _
      · cases hstep
  | mark now =>
      rw [Pipeline.step] at hstep
      split at hstep
      · next delivery rest hplace =>
          cases hstep
          obtain ⟨inbox, hmark, hpending, hnext⟩ := @Consistent.mark _ limits now _ _ hstate hplace
          rw [hmark]
          refine ⟨hnext, .inl rfl, ?_, by rintro _ _ _ ⟨⟩,
            fun _ => ⟨rfl, fun _ => rfl⟩⟩
          intro id hid
          by_cases hsame : id = delivery.deliveryId
          · exact .inr ⟨⟨now, rfl⟩, hsame ▸ hstate.marking delivery rest hplace⟩
          · left
            rw [written, hpending]
            exact List.mem_filter.mpr ⟨hid, decide_eq_true hsame⟩
      · cases hstep
  | defer now =>
      rw [Pipeline.step] at hstep
      split at hstep
      · next delivery rest hplace =>
          cases hstep
          obtain ⟨hnext, hpending⟩ := @Consistent.defer _ now _ _ hstate hplace
          have hrest : ∀ result, (state.written rest result).ledger = state.ledger ∧
              (state.written rest result).ingested = state.ingested ∧
              (state.written rest result).store = state.store := by
            intro result
            cases result <;> exact ⟨rfl, rfl, rfl⟩
          refine ⟨hnext, .inl (hrest _).1, effect_of_same (fun id hid => ?_) (by rintro _ _ _ ⟨⟩)
            (hrest _).2.1 fun _ => by rw [(hrest _).2.2]⟩
          rwa [hpending]
      · cases hstep
  | restartRelay now =>
      cases hstep
      refine ⟨(hstate.prune now).sending_nil, .inl rfl,
        effect_of_same (fun id hid => ?_) (by rintro _ _ _ ⟨⟩) rfl fun _ => rfl⟩
      rwa [Inbox.pendingIds_prune]
  | restartEngine now =>
      cases hstep
      refine ⟨?_, .inl rfl, effect_of_same (fun _ => id) (by rintro _ _ _ ⟨⟩) rfl fun _ => rfl⟩
      exact
        { hstate with
          calls := fun _ hentry => absurd hentry List.not_mem_nil
          awaited := fun number awaited rest hplace =>
            ⟨fun _ hother => absurd hother List.not_mem_nil,
              (hstate.awaited number awaited rest hplace).2⟩ }
  | other store =>
      rw [Pipeline.step, Option.ite_none_right_eq_some, Option.some.injEq] at hstep
      obtain ⟨⟨hdeliveries, hkeyed⟩, rfl⟩ := hstep
      refine ⟨?_, .inl rfl, effect_of_same (fun _ => id) (by rintro _ _ _ ⟨⟩) rfl
        fun hother => absurd rfl (hother store)⟩
      exact
        { hstate with
          stored := fun id => by
            rw [hdeliveries]
            exact hstate.stored id
          origin := by
            rw [hdeliveries]
            exact hstate.origin
          keyed := hkeyed }

end Steps

end Pipeline

open Pipeline

/-- The relay and the engine together keep a ledger. -/
theorem pipeline_refines [Secret] [Sha256] (limits : InboxLimits) :
    Refines (step limits) ledger Consistent :=
  fun _ _ _ hstate hstep => ⟨(hstate.step hstep).1, (hstate.step hstep).2.1⟩

/-- Whatever is lost, repeated or restarted, what the relay answers with 202
stays pending until the engine has it, the engine takes each delivery once, and
with it wakes the monitors that it concerns. -/
theorem webhooks_taken_once [Secret] [Sha256] {limits : InboxLimits} {events : List PipelineEvent}
    {final : Pipeline} (hrun : run (step limits) .initial events = some final) :
    (∃ moves, run Ledger.step .empty moves = some final.ledger) ∧ final.ingested.Nodup ∧
      (∀ delivery ∈ final.accepted, delivery.deliveryId ∈ final.inbox.pendingIds ∨
        delivery.deliveryId ∈ final.ingested) ∧
      (∀ row ∈ final.inbox.forwarded, row.deliveryId ∈ final.ingested) ∧
      (∀ id, id ∈ final.store.githubWebhookDeliveries ↔ id ∈ final.ingested) ∧
      (∀ id row, final.store.githubWebhookDeliveries.lookup id = some row →
        ∃ delivery ∈ final.accepted, delivery.deliveryId = id ∧
          row = delivery.row row.ingestedAt) ∧
      (final.forwarder = .stopped → ∃ row ∈ final.inbox.pending, 2 ^ 32 ≤ row.attemptCount) ∧
      EveryStep (step limits) (fun state event => ∀ next, state.step limits event = some next →
        Effect state event next) .initial events := by
  have hrefines := pipeline_refines limits
  have hfinal := hrefines.invariant consistent_initial hrun
  have hsound := hrefines.sound consistent_initial Ledger.Sound.empty hrun
  refine ⟨hrefines.run_ledger consistent_initial hrun, hsound.once, hfinal.kept, hfinal.forwarded,
    hfinal.stored, hfinal.origin, hfinal.stopped, ?_⟩
  have hstep : ∀ (state : Pipeline) event next, True → state.Consistent →
      state.step limits event = some next → next.Consistent ∧ Effect state event next :=
    fun _ _ _ _ hstate hnext => ⟨(hstate.step hnext).1, (hstate.step hnext).2.2⟩
  exact everyStep_of_invariant Consistent hstep (everyStep_of_forall (fun _ _ => trivial) _ _)
    consistent_initial

namespace Sample

/-- A delivery, a restart of the relay, and the same delivery again. -/
def pipelineEvents : List PipelineEvent :=
  [.receive synchronizeRequest 1, .restartRelay 2, .receive synchronizeRequest 3]

end Sample

open Webhook.Sample

theorem webhook_kept_over_restart : ∃ final,
    run (step .default) .initial pipelineEvents = some final ∧
    final.accepted.map ForwardedWebhook.deliveryId = ["delivery-1"] ∧
    final.inbox.pendingIds = ["delivery-1"] ∧ final.ingested.Nodup := by
  have hrun : (run (step .default) .initial pipelineEvents).map (fun final =>
      (final.accepted.map ForwardedWebhook.deliveryId, final.inbox.pendingIds)) =
      some (["delivery-1"], ["delivery-1"]) := by
    decide +kernel
  obtain ⟨final, hfinal, hends⟩ := Option.map_eq_some_iff.1 hrun
  rw [Prod.mk.injEq] at hends
  exact ⟨final, hfinal, hends.1, hends.2, (webhooks_taken_once hfinal).2.1⟩

end Patchwright.Webhook
