import Patchwright.Core.InstantOrder
import Patchwright.Relay.Inbox

/-!
# The inbox over a run

Deliveries are recorded, forwarded and deferred in any order and at any
instants.  The pending rows stay within the capacity of the queue and the
forwarded ones within their cap; a row that disappears was forwarded, and a
pruning took it away for its age or as one of the earliest received.
-/

namespace Patchwright.Webhook

open Checked Runs

inductive InboxOp where
  | record (delivery : WebhookDelivery) (now : DateTime)
  | markForwarded (deliveryId : String) (now : DateTime)
  | defer (deliveryId : String) (now : DateTime)
  | prune (now : DateTime)

namespace Inbox

/-- One transaction.  One that fails leaves the inbox as it is. -/
def step (limits : InboxLimits) (inbox : Inbox) : InboxOp → Option Inbox
  | .record delivery now => some (inbox.record limits delivery now).1
  | .markForwarded deliveryId now =>
      match inbox.markForwarded limits deliveryId now with
      | .ok next => some next
      | .error _ => some inbox
  | .defer deliveryId now =>
      match inbox.deferDelivery deliveryId now with
      | .ok next => some next
      | .error _ => some inbox
  | .prune now => some (inbox.pruneForwardedDeliveries limits now)

/-- The rows that an operation prunes, and when. -/
def pruned? (inbox : Inbox) : InboxOp → Option (Inbox × DateTime)
  | .record _ now => some (inbox, now)
  | .markForwarded deliveryId now => some (inbox.mark deliveryId now, now)
  | .defer _ _ => none
  | .prune now => some (inbox, now)

/-! ## Updates of one row -/

section Updates

variable {limits : InboxLimits} {inbox next : Inbox} {deliveryId : String} {now : DateTime}
variable {change : InboxRow → InboxRow}

theorem updatePending_ids : (inbox.updatePending deliveryId change).ids = inbox.ids := by
  rw [ids, updatePending, List.map_map, ids]
  congr 1
  funext row
  dsimp only [Function.comp_apply]
  split <;> rfl

/-- Rows outside a class that the change does not enter stay outside. -/
theorem length_filter_updatePending {cond : InboxRow → Bool}
    (hchange : ∀ row, ¬ row.isForwarded →
      cond { change row with deliveryId := row.deliveryId } = true → cond row = true) :
    ((inbox.updatePending deliveryId change).rows.filter cond).length ≤
      (inbox.rows.filter cond).length := by
  rw [updatePending, List.filter_map, List.length_map]
  apply List.Sublist.length_le
  apply List.monotone_filter_right
  intro row hrow
  dsimp only [Function.comp_apply] at hrow
  split at hrow
  · next hpending => exact hchange row hpending.2 hrow
  · exact hrow

theorem mark_pending : (inbox.mark deliveryId now).pending.length ≤ inbox.pending.length := by
  apply length_filter_updatePending
  intro row _ hrow
  exact absurd hrow nofun

theorem findPending_eq_some {row : InboxRow} (hfind : inbox.findPending deliveryId = some row) :
    row ∈ inbox.pending ∧ row.deliveryId = deliveryId := by
  refine ⟨List.mem_of_find?_eq_some hfind, ?_⟩
  have hsome := List.find?_some hfind
  exact of_decide_eq_true hsome

theorem deferDelivery_eq_ok (hdefer : inbox.deferDelivery deliveryId now = .ok next) :
    ∃ (attempts : InboxRow → Nat) (due : Option DateTime), next = inbox.updatePending deliveryId fun row =>
      { row with
        attemptCount := attempts row, nextAttemptAt := due
        lastError := some "engine unavailable" } := by
  unfold deferDelivery at hdefer
  simp only [bind_eq_ok, okOr_eq_ok, ensure_eq_ok, pure_eq_ok] at hdefer
  obtain ⟨-, -, -, -, rfl⟩ := hdefer
  exact ⟨fun row => row.attemptCount + 1, _, rfl⟩

theorem markForwarded_eq_ok (hmark : inbox.markForwarded limits deliveryId now = .ok next) :
    (inbox.findPending deliveryId).isSome ∧
      next = (inbox.mark deliveryId now).pruneForwardedDeliveries limits now := by
  unfold markForwarded at hmark
  simp only [bind_eq_ok, ensure_eq_ok, pure_eq_ok] at hmark
  obtain ⟨-, hfind, rfl⟩ := hmark
  exact ⟨hfind, rfl⟩

end Updates

/-! ## The bounds -/

section Bounds

variable {limits : InboxLimits} {inbox next : Inbox}

/-- The inbox keeps its bounds. -/
structure Bounded (limits : InboxLimits) (inbox : Inbox) : Prop where
  pending : inbox.pending.length ≤ limits.queueCapacity
  forwarded : inbox.forwarded.length ≤ limits.forwardedRetentionCapacity

theorem Bounded.prune (hinbox : Bounded limits inbox) (now : DateTime) :
    Bounded limits (inbox.pruneForwardedDeliveries limits now) where
  pending := by
    rw [prune_pending]
    exact hinbox.pending
  forwarded := prune_forwarded limits inbox now

theorem insertOrIgnore_fresh {row : InboxRow} (hfresh : row.deliveryId ∉ inbox.ids) :
    (inbox.insertOrIgnore row).rows = inbox.rows ++ [row] := by
  rw [insertOrIgnore, dif_neg hfresh]

theorem Bounded.insert (hinbox : Bounded limits inbox) {delivery : WebhookDelivery} {now : DateTime}
    (hfresh : delivery.deliveryId ∉ inbox.ids)
    (hroom : inbox.pending.length < limits.queueCapacity) :
    Bounded limits (inbox.insertOrIgnore (newRow delivery now)) := by
  have hrows := @insertOrIgnore_fresh inbox (newRow delivery now) hfresh
  constructor
  · rw [Inbox.pending, hrows, List.filter_append, List.length_append]
    exact hroom
  · rw [Inbox.forwarded, hrows, List.filter_append]
    change (inbox.forwarded ++ []).length ≤ _
    rw [List.append_nil]
    exact hinbox.forwarded

/-- What a record has done. -/
inductive Recorded (limits : InboxLimits) (inbox : Inbox) (delivery : WebhookDelivery)
    (now : DateTime) : Inbox × RecordOutcome → Prop
  | duplicate (hseen : delivery.deliveryId ∈ (inbox.pruneForwardedDeliveries limits now).ids) :
      Recorded limits inbox delivery now (inbox.pruneForwardedDeliveries limits now, .duplicate)
  | full (hfresh : delivery.deliveryId ∉ (inbox.pruneForwardedDeliveries limits now).ids)
      (hfull : limits.queueCapacity ≤ inbox.pending.length) :
      Recorded limits inbox delivery now (inbox.pruneForwardedDeliveries limits now, .full)
  | accepted (hfresh : delivery.deliveryId ∉ (inbox.pruneForwardedDeliveries limits now).ids)
      (hroom : inbox.pending.length < limits.queueCapacity) :
      Recorded limits inbox delivery now ((inbox.pruneForwardedDeliveries limits now).insertOrIgnore
        (newRow delivery now), .accepted)

theorem record_recorded (limits : InboxLimits) (inbox : Inbox) (delivery : WebhookDelivery)
    (now : DateTime) : Recorded limits inbox delivery now (inbox.record limits delivery now) := by
  rw [record]
  by_cases hseen : delivery.deliveryId ∈ (inbox.pruneForwardedDeliveries limits now).ids
  · rw [if_pos hseen]
    exact .duplicate hseen
  · rw [if_neg hseen, prune_pending]
    by_cases hfull : inbox.pending.length ≥ limits.queueCapacity
    · rw [if_pos hfull]
      exact .full hseen hfull
    · rw [if_neg hfull]
      exact .accepted hseen (not_le.mp hfull)

theorem Bounded.step (hinbox : Bounded limits inbox) {op : InboxOp}
    (hstep : inbox.step limits op = some next) : Bounded limits next := by
  cases op with
  | record delivery now =>
      rw [Inbox.step, Option.some.injEq] at hstep
      rw [← hstep]
      have hrecorded := record_recorded limits inbox delivery now
      generalize inbox.record limits delivery now = result at hrecorded
      cases hrecorded with
      | duplicate => exact hinbox.prune now
      | full => exact hinbox.prune now
      | accepted hfresh hroom =>
          apply (hinbox.prune now).insert hfresh
          rwa [prune_pending]
  | markForwarded deliveryId now =>
      rw [Inbox.step] at hstep
      split at hstep
      · next hmark =>
          cases hstep
          rw [(markForwarded_eq_ok hmark).2]
          refine ⟨?_, prune_forwarded limits _ now⟩
          rw [prune_pending]
          exact mark_pending.trans hinbox.pending
      · cases hstep
        exact hinbox
  | defer deliveryId now =>
      rw [Inbox.step] at hstep
      split at hstep
      · next hdefer =>
          cases hstep
          obtain ⟨attempts, due, rfl⟩ := deferDelivery_eq_ok hdefer
          constructor
          · refine le_trans (length_filter_updatePending ?_) hinbox.pending
            exact fun _ _ hrow => hrow
          · refine le_trans (length_filter_updatePending ?_) hinbox.forwarded
            exact fun _ _ hrow => hrow
      · cases hstep
        exact hinbox
  | prune now =>
      cases hstep
      exact hinbox.prune now

end Bounds

/-! ## What disappears -/

section Forgetting

variable {limits : InboxLimits} {inbox next : Inbox} {deliveryId : String}

/-- An operation forgets a delivery. -/
def ForgetsAt (limits : InboxLimits) (inbox : Inbox) (op : InboxOp) (deliveryId : String) : Prop :=
  ∃ table now row, inbox.pruned? op = some (table, now) ∧ row.deliveryId = deliveryId ∧
    table.Forgets limits now row

theorem forgets_of_prune {now : DateTime} (hmem : deliveryId ∈ inbox.ids)
    (hgone : deliveryId ∉ (inbox.pruneForwardedDeliveries limits now).ids) :
    ∃ row, row.deliveryId = deliveryId ∧ inbox.Forgets limits now row := by
  obtain ⟨row, hrow, rfl⟩ := List.mem_map.mp hmem
  refine ⟨row, rfl, ?_⟩
  by_contra hkept
  exact hgone (List.mem_map_of_mem (mem_prune.2 ⟨hrow, hkept⟩))

theorem subset_insertOrIgnore {row : InboxRow} : inbox.ids ⊆ (inbox.insertOrIgnore row).ids := by
  rw [insertOrIgnore]
  split
  · exact List.Subset.refl _
  · rw [ids, ids, List.map_append]
    exact List.subset_append_left _ _

/-- A delivery disappears only by a pruning that forgets it. -/
theorem forgetsAt_of_step {op : InboxOp} (hstep : inbox.step limits op = some next)
    (hmem : deliveryId ∈ inbox.ids) (hgone : deliveryId ∉ next.ids) :
    ForgetsAt limits inbox op deliveryId := by
  have hprune : ∀ table now, inbox.pruned? op = some (table, now) → deliveryId ∈ table.ids →
      deliveryId ∉ (table.pruneForwardedDeliveries limits now).ids →
      ForgetsAt limits inbox op deliveryId := by
    intro table now htable hseen hpruned
    obtain ⟨row, hrow, hforgets⟩ := forgets_of_prune hseen hpruned
    exact ⟨table, now, row, htable, hrow, hforgets⟩
  cases op with
  | record delivery now =>
      rw [Inbox.step, Option.some.injEq] at hstep
      rw [← hstep] at hgone
      apply hprune inbox now rfl hmem
      have hrecorded := record_recorded limits inbox delivery now
      generalize inbox.record limits delivery now = result at hrecorded hgone
      cases hrecorded with
      | duplicate => exact hgone
      | full => exact hgone
      | accepted => exact fun hkept => hgone (subset_insertOrIgnore hkept)
  | markForwarded id now =>
      rw [Inbox.step] at hstep
      split at hstep
      · next hmark =>
          cases hstep
          rw [(markForwarded_eq_ok hmark).2] at hgone
          exact hprune (inbox.mark id now) now rfl (updatePending_ids.symm ▸ hmem) hgone
      · cases hstep
        exact absurd hmem hgone
  | defer id now =>
      rw [Inbox.step] at hstep
      split at hstep
      · next hdefer =>
          cases hstep
          obtain ⟨attempts, due, rfl⟩ := deferDelivery_eq_ok hdefer
          rw [updatePending_ids] at hgone
          exact absurd hmem hgone
      · cases hstep
        exact absurd hmem hgone
  | prune now =>
      cases hstep
      exact hprune inbox now rfl hmem hgone

end Forgetting

/-! ## Runs -/

section Runs

variable {limits : InboxLimits} {inbox next final : Inbox} {deliveryId : String}

/-- Some operation forgets a delivery. -/
def ForgottenIn (limits : InboxLimits) (start : Inbox) (ops : List InboxOp) (deliveryId : String) :
    Prop :=
  ∃ earlier op later here, ops = earlier ++ op :: later ∧
    run (step limits) start earlier = some here ∧ ForgetsAt limits here op deliveryId

/-- A delivery of the inbox is recognised later, unless it was forgotten. -/
theorem record_again {ops : List InboxOp} (hrun : run (step limits) inbox ops = some final)
    {again : WebhookDelivery} (hmem : again.deliveryId ∈ inbox.ids) (now : DateTime) :
    final.record limits again now = (final.pruneForwardedDeliveries limits now, .duplicate) ∨
      ForgottenIn limits inbox (ops ++ [.record again now]) again.deliveryId := by
  by_cases hkept : again.deliveryId ∈ (final.pruneForwardedDeliveries limits now).ids
  · left
    rw [record, if_pos hkept]
  right
  by_cases hfinal : again.deliveryId ∈ final.ids
  · obtain ⟨row, hrow, hforgets⟩ := forgets_of_prune hfinal hkept
    exact ⟨ops, .record again now, [], final, rfl, hrun, final, now, row, rfl, hrow, hforgets⟩
  · obtain ⟨earlier, op, later, here, next, rfl, hearlier, hstep, -, hhere, hgone⟩ :=
      exists_crossing (fun inbox => again.deliveryId ∉ inbox.ids) hrun (not_not.mpr hmem) hfinal
    refine ⟨earlier, op, later ++ [.record again now], here, ?_, hearlier,
      forgetsAt_of_step hstep (not_not.mp hhere) hgone⟩
    rw [List.append_assoc, List.cons_append]

/-- A pending row stays pending, unless its delivery is marked as forwarded. -/
def KeepsPending (limits : InboxLimits) (inbox : Inbox) (op : InboxOp) : Prop :=
  ∀ next, inbox.step limits op = some next → ∀ row ∈ inbox.pending,
    (∃ kept ∈ next.pending, kept.deliveryId = row.deliveryId) ∨
      ∃ now, op = .markForwarded row.deliveryId now

theorem mem_updatePending {change : InboxRow → InboxRow} {row : InboxRow}
    (hrow : row ∈ inbox.pending) :
    { change row with deliveryId := row.deliveryId } ∈
        (inbox.updatePending row.deliveryId change).rows ∧
      ∀ other, row.deliveryId ≠ other → row ∈ (inbox.updatePending other change).pending := by
  obtain ⟨hmem, hpending⟩ := List.mem_filter.mp hrow
  constructor
  · rw [Bool.not_eq_true'] at hpending
    exact List.mem_map.mpr ⟨row, hmem, if_pos ⟨rfl, Bool.not_eq_true _ ▸ hpending⟩⟩
  · intro other hother
    exact List.mem_filter.mpr ⟨List.mem_map.mpr ⟨row, hmem, if_neg fun hsame => hother hsame.1⟩,
      hpending⟩

theorem keepsPending (limits : InboxLimits) (inbox : Inbox) (op : InboxOp) :
    KeepsPending limits inbox op := by
  intro next hstep row hrow
  cases op with
  | record delivery now =>
      left
      rw [Inbox.step, Option.some.injEq] at hstep
      rw [← hstep]
      have hkept : row ∈ (inbox.pruneForwardedDeliveries limits now).pending := by
        rwa [prune_pending]
      have hrecorded := record_recorded limits inbox delivery now
      generalize inbox.record limits delivery now = result at hrecorded
      cases hrecorded with
      | duplicate => exact ⟨row, hkept, rfl⟩
      | full => exact ⟨row, hkept, rfl⟩
      | accepted hfresh =>
          refine ⟨row, ?_, rfl⟩
          rw [Inbox.pending, insertOrIgnore_fresh hfresh, List.filter_append]
          exact List.mem_append_left _ hkept
  | markForwarded deliveryId now =>
      rw [Inbox.step] at hstep
      split at hstep
      · next hmark =>
          cases hstep
          rw [(markForwarded_eq_ok hmark).2]
          by_cases hsame : row.deliveryId = deliveryId
          · right
            exact ⟨now, by rw [hsame]⟩
          · left
            rw [prune_pending]
            exact ⟨row, (mem_updatePending hrow).2 deliveryId hsame, rfl⟩
      · cases hstep
        exact .inl ⟨row, hrow, rfl⟩
  | defer deliveryId now =>
      left
      rw [Inbox.step] at hstep
      split at hstep
      · next hdefer =>
          cases hstep
          obtain ⟨attempts, due, rfl⟩ := deferDelivery_eq_ok hdefer
          by_cases hsame : row.deliveryId = deliveryId
          · subst hsame
            exact ⟨_, List.mem_filter.mpr ⟨(mem_updatePending hrow).1,
              (List.mem_filter.mp hrow).2⟩, rfl⟩
          · exact ⟨row, (mem_updatePending hrow).2 deliveryId hsame, rfl⟩
      · cases hstep
        exact ⟨row, hrow, rfl⟩
  | prune now =>
      left
      cases hstep
      rw [prune_pending]
      exact ⟨row, hrow, rfl⟩

/-! ### When a row was received -/

/-- The row was received by one of the operations. -/
def ReceivedIn (ops : List InboxOp) (row : InboxRow) : Prop :=
  ∃ delivery received, .record delivery received ∈ ops ∧
    delivery.deliveryId = row.deliveryId ∧ row.receivedAt = rfc3339 received

theorem mem_updatePending_origin {change : InboxRow → InboxRow}
    (hchange : ∀ row, (change row).receivedAt = row.receivedAt) {row : InboxRow}
    (hrow : row ∈ (inbox.updatePending deliveryId change).rows) :
    ∃ old ∈ inbox.rows, old.deliveryId = row.deliveryId ∧ old.receivedAt = row.receivedAt := by
  obtain ⟨old, hold, rfl⟩ := List.mem_map.mp hrow
  refine ⟨old, hold, ?_⟩
  split
  · exact ⟨rfl, (hchange old).symm⟩
  · exact ⟨rfl, rfl⟩

/-- Every row of a step was there before, with its text, or has just been
received. -/
theorem step_origin {op : InboxOp} (hstep : inbox.step limits op = some next) {row : InboxRow}
    (hrow : row ∈ next.rows) :
    (∃ old ∈ inbox.rows, old.deliveryId = row.deliveryId ∧ old.receivedAt = row.receivedAt) ∨
      ReceivedIn [op] row := by
  have hprune : ∀ {table : Inbox} {now : DateTime},
      row ∈ (table.pruneForwardedDeliveries limits now).rows → row ∈ table.rows :=
    fun hmem => (mem_prune.1 hmem).1
  cases op with
  | record delivery now =>
      rw [Inbox.step, Option.some.injEq] at hstep
      rw [← hstep] at hrow
      have hrecorded := record_recorded limits inbox delivery now
      generalize inbox.record limits delivery now = result at hrecorded hrow
      cases hrecorded with
      | duplicate => exact .inl ⟨row, hprune hrow, rfl, rfl⟩
      | full => exact .inl ⟨row, hprune hrow, rfl, rfl⟩
      | accepted hfresh =>
          rw [insertOrIgnore_fresh hfresh] at hrow
          cases List.mem_append.mp hrow with
          | inl hold => exact .inl ⟨row, hprune hold, rfl, rfl⟩
          | inr hnew =>
              cases List.mem_singleton.mp hnew
              exact .inr ⟨delivery, now, List.mem_cons_self, rfl, rfl⟩
  | markForwarded deliveryId now =>
      left
      rw [Inbox.step] at hstep
      split at hstep
      · next hmark =>
          cases hstep
          rw [(markForwarded_eq_ok hmark).2] at hrow
          refine mem_updatePending_origin ?_ (hprune hrow)
          exact fun _ => rfl
      · cases hstep
        exact ⟨row, hrow, rfl, rfl⟩
  | defer deliveryId now =>
      left
      rw [Inbox.step] at hstep
      split at hstep
      · next hdefer =>
          cases hstep
          obtain ⟨attempts, due, rfl⟩ := deferDelivery_eq_ok hdefer
          refine mem_updatePending_origin ?_ hrow
          exact fun _ => rfl
      · cases hstep
        exact ⟨row, hrow, rfl, rfl⟩
  | prune now =>
      cases hstep
      exact .inl ⟨row, hprune hrow, rfl, rfl⟩

theorem run_received {ops : List InboxOp} (hrun : run (step limits) empty ops = some final)
    {row : InboxRow} (hrow : row ∈ final.rows) : ReceivedIn ops row := by
  induction ops using List.reverseRecOn generalizing final row with
  | nil =>
      rw [run_nil, Option.some.injEq] at hrun
      rw [← hrun] at hrow
      exact absurd hrow List.not_mem_nil
  | append_singleton ops op ih =>
      obtain ⟨middle, hmiddle, hlast⟩ := run_append_eq_some.1 hrun
      obtain ⟨last, hstep, hnil⟩ := run_cons_eq_some.1 hlast
      rw [run_nil, Option.some.injEq] at hnil
      rw [hnil] at hstep
      rcases step_origin hstep hrow with ⟨old, hold, hid, htext⟩ | ⟨delivery, received, hmem, hnew⟩
      · obtain ⟨delivery, received, hmem, hsame, hreceived⟩ := ih hmiddle hold
        exact ⟨delivery, received, List.mem_append_left _ hmem, hsame.trans hid,
          htext.symm.trans hreceived⟩
      · exact ⟨delivery, received, List.mem_append_right _ hmem, hnew⟩

end Runs

end Inbox

open Inbox

/-- The inbox keeps its bounds over every run, every pruning spares the pending
rows, and an accepted delivery is recognised again unless a pruning forgot it. -/
theorem inbox_remembers {limits : InboxLimits} {ops : List InboxOp} {final : Inbox}
    (hrun : run (step limits) empty ops = some final) :
    final.pending.length ≤ limits.queueCapacity ∧
      final.forwarded.length ≤ limits.forwardedRetentionCapacity ∧
      EveryStep (step limits) (KeepsPending limits) empty ops ∧
      (∀ now, (final.pruneForwardedDeliveries limits now).pending = final.pending) ∧
      (∀ row ∈ final.rows, ∃ delivery received, .record delivery received ∈ ops ∧
        delivery.deliveryId = row.deliveryId ∧ row.receivedAt = rfc3339 received ∧
        ∀ now, ShortYear received → ShortYear (now - forwardedRetention) →
          (row.isExpired now = true ↔ received < now - forwardedRetention)) ∧
      ∀ before delivery received after here, ops = before ++ .record delivery received :: after →
        run (step limits) empty before = some here →
        (here.record limits delivery received).2 = .accepted →
        ∀ again now, again.deliveryId = delivery.deliveryId →
          final.record limits again now =
              (final.pruneForwardedDeliveries limits now, .duplicate) ∨
            ForgottenIn limits (here.record limits delivery received).1
              (after ++ [.record again now]) again.deliveryId := by
  have hbounded : Bounded limits final :=
    invariant_of_run (fun _ _ _ hinbox hstep => hinbox.step hstep) hrun
      ⟨Nat.zero_le _, Nat.zero_le _⟩
  refine ⟨hbounded.pending, hbounded.forwarded, everyStep_of_forall (keepsPending limits) _ _,
    prune_pending limits final, ?_, ?_⟩
  · intro row hrow
    obtain ⟨delivery, received, hmem, hid, htext⟩ := run_received hrun hrow
    refine ⟨delivery, received, hmem, hid, htext, fun now hshort hcutoff => ?_⟩
    rw [InboxRow.isExpired, decide_eq_true_iff, htext, rfc3339_lt_iff hshort hcutoff]
  · rintro before delivery received after here rfl hhere haccepted again now hsame
    obtain ⟨middle, hmiddle, hafter⟩ := run_append_eq_some.1 hrun
    rw [hhere, Option.some.injEq] at hmiddle
    obtain ⟨next, hnext, hrest⟩ := run_cons_eq_some.1 hafter
    rw [← hmiddle, Inbox.step, Option.some.injEq] at hnext
    rw [← hnext] at hrest
    apply record_again hrest
    have hrecorded := record_recorded limits here delivery received
    generalize here.record limits delivery received = result at hrecorded haccepted
    cases hrecorded with
    | duplicate => exact absurd haccepted nofun
    | full => exact absurd haccepted nofun
    | accepted hfresh =>
        rw [hsame, ids, insertOrIgnore_fresh hfresh, List.map_append]
        exact List.mem_append_right _ List.mem_cons_self

namespace Sample

/-- The delivery of a ping, under one of several identifiers. -/
def pingDelivery (deliveryId : String) : WebhookDelivery where
  deliveryId := deliveryId
  event := "ping"
  action := "ping"
  payload := SanitizedWebhookEnvelope.toJson {
    schemaVersion := 1, event := "ping", action := "ping", repositoryId := none
    repositoryFullName := none, entityNumber := none, entityId := some 1 }
  payloadSha256 := "5fa0bd3314882bbbc01e85b65e04d656ba701bc4d843d7840ffc8115f32592f1"

/-- One delivery was forwarded, and a second one waits. -/
def inboxOps : List InboxOp := [.record (pingDelivery "first") 0, .markForwarded "first" 1,
  .record (pingDelivery "second") 2]

/-- The first instant whose year has five digits. -/
def longYear : DateTime := seconds 253402300800

def longYearOps : List InboxOp := [.record (pingDelivery "first") longYear,
  .markForwarded "first" (longYear + seconds 1)]

end Sample

open Webhook.Sample

theorem inbox_remembers_second : ∃ final, run (step .default) empty inboxOps = some final ∧
    final.pending.length ≤ 10000 ∧
    (final.record .default (pingDelivery "second") 3 =
        (final.pruneForwardedDeliveries .default 3, .duplicate) ∨
      ForgottenIn .default (((run (step .default) empty (inboxOps.take 2)).getD empty).record
        .default (pingDelivery "second") 2).1 [.record (pingDelivery "second") 3] "second") := by
  obtain ⟨final, hrun⟩ : ∃ final, run (step .default) empty inboxOps = some final := ⟨_, rfl⟩
  have hall := inbox_remembers hrun
  refine ⟨final, hrun, hall.1, ?_⟩
  exact hall.2.2.2.2.2 (inboxOps.take 2) (pingDelivery "second") 2 [] _ rfl rfl (by decide)
    (pingDelivery "second") 3 rfl

/-- A redelivery that is recognised prunes an older row, and one in the year
10000 is not recognised two seconds after it was received. -/
theorem redelivery_prunes :
    (∃ final, run (step .default) empty inboxOps = some final ∧ final.rows.length = 2 ∧
      (final.record .default (pingDelivery "second") (days 3 + 1)).2 = .duplicate ∧
      (final.record .default (pingDelivery "second") (days 3 + 1)).1.rows.length = 1) ∧
    ∃ final, run (step .default) empty longYearOps = some final ∧
      (final.record .default (pingDelivery "first") (longYear + seconds 2)).2 = .accepted := by
  refine ⟨⟨_, rfl, ?_⟩, _, rfl, ?_⟩
  · decide
  · decide

end Patchwright.Webhook
