import Patchwright.Library.Retention
import Patchwright.Library.Runs
import Patchwright.Relay.Webhooks

/-!
# The inbox of the relay

A delivery that the route accepts becomes a row, and stays pending until the
engine has taken it over.  Forwarded rows are kept to recognise a redelivery,
for three days and up to a cap; every transaction that adds or forwards a row
prunes them.  A column holds an instant as its RFC 3339 text, and the age and
the order of the rows are those of the texts.
-/

namespace Patchwright.Webhook

open Checked Runs

structure InboxRow where
  deliveryId : String
  event : String
  action : String
  payload : Json
  payloadSha256 : String
  receivedAt : String
  attemptCount : Nat
  nextAttemptAt : Option DateTime
  lastError : Option String
  forwardedAt : Option DateTime

/-- The rows in the order of their row numbers, one for each delivery. -/
structure Inbox where
  rows : List InboxRow
  nodup : (rows.map InboxRow.deliveryId).Nodup

inductive RecordOutcome where
  | accepted
  | duplicate
  | full
  deriving DecidableEq, Repr

structure InboxLimits where
  queueCapacity : Nat
  forwardedRetentionCapacity : Nat
  deriving DecidableEq, Repr

/-- The limits of an opened relay. -/
def InboxLimits.default : InboxLimits := ⟨10000, 10000⟩

def forwardedRetention : Duration := days 3

def forwardBatchSize : Nat := 32

def initialRetryMillis : Int := 200

def maxRetryMillis : Int := 60000

def InboxRow.isForwarded (row : InboxRow) : Bool := row.forwardedAt.isSome

/-- The row was received before the retention period, by the order of texts. -/
def InboxRow.isExpired (row : InboxRow) (now : DateTime) : Bool :=
  row.receivedAt < rfc3339 (now - forwardedRetention)

/-- One row was received no later than another. -/
def InboxRow.notLater (first second : InboxRow) : Bool := first.receivedAt ≤ second.receivedAt

namespace Inbox

def empty : Inbox := ⟨[], List.nodup_nil⟩

def ids (inbox : Inbox) : List String := inbox.rows.map InboxRow.deliveryId

def pending (inbox : Inbox) : List InboxRow := inbox.rows.filter fun row => !row.isForwarded

def forwarded (inbox : Inbox) : List InboxRow := inbox.rows.filter InboxRow.isForwarded

/-- The rows without the expired ones among the forwarded. -/
def unexpired (inbox : Inbox) (now : DateTime) : List InboxRow :=
  inbox.rows.filter fun row => !(row.isForwarded && row.isExpired now)

theorem unexpired_sublist (inbox : Inbox) (now : DateTime) :
    (inbox.unexpired now).Sublist inbox.rows :=
  List.filter_sublist

def pruneForwardedDeliveries (limits : InboxLimits) (inbox : Inbox) (now : DateTime) : Inbox where
  rows := Retention.evict limits.forwardedRetentionCapacity InboxRow.deliveryId InboxRow.notLater
    InboxRow.isForwarded (inbox.unexpired now)
  nodup := inbox.nodup.sublist
    ((Retention.evict_sublist.trans (inbox.unexpired_sublist now)).map _)

/-- Insert a row, unless its delivery has one. -/
def insertOrIgnore (inbox : Inbox) (row : InboxRow) : Inbox :=
  if hfresh : row.deliveryId ∈ inbox.ids then inbox
  else
    { rows := inbox.rows ++ [row]
      nodup := by
        rw [List.map_append, List.map_singleton]
        exact List.nodup_append.mpr ⟨inbox.nodup, List.nodup_singleton _,
          fun id hid other hother hsame =>
            hfresh (hsame.trans (List.mem_singleton.mp hother) ▸ hid)⟩ }

/-- Rewrite the row of a pending delivery. -/
def updatePending (inbox : Inbox) (deliveryId : String) (change : InboxRow → InboxRow) : Inbox where
  rows := inbox.rows.map fun row =>
    if row.deliveryId = deliveryId ∧ ¬ row.isForwarded then
      { change row with deliveryId := row.deliveryId }
    else row
  nodup := by
    rw [List.map_map]
    convert inbox.nodup using 2
    funext row
    dsimp only [Function.comp_apply]
    split <;> rfl

def findPending (inbox : Inbox) (deliveryId : String) : Option InboxRow :=
  inbox.pending.find? fun row => row.deliveryId = deliveryId

/-- The row of a delivery that has just come in. -/
def newRow (delivery : WebhookDelivery) (now : DateTime) : InboxRow where
  deliveryId := delivery.deliveryId
  event := delivery.event
  action := delivery.action
  payload := delivery.payload
  payloadSha256 := delivery.payloadSha256
  receivedAt := rfc3339 now
  attemptCount := 0
  nextAttemptAt := none
  lastError := none
  forwardedAt := none

def record (limits : InboxLimits) (inbox : Inbox) (delivery : WebhookDelivery) (now : DateTime) :
    Inbox × RecordOutcome :=
  let inbox := inbox.pruneForwardedDeliveries limits now
  if delivery.deliveryId ∈ inbox.ids then (inbox, .duplicate)
  else if inbox.pending.length ≥ limits.queueCapacity then (inbox, .full)
  else (inbox.insertOrIgnore (newRow delivery now), .accepted)

/-- The row can be tried now. -/
def IsDue (row : InboxRow) (now : DateTime) : Prop :=
  ∀ next ∈ row.nextAttemptAt,
    ∃ attempt ∈ julianMillis next, ∃ present ∈ julianMillis now, attempt ≤ present

instance (row : InboxRow) (now : DateTime) : Decidable (IsDue row now) :=
  inferInstanceAs (Decidable (∀ next ∈ row.nextAttemptAt,
    ∃ attempt ∈ julianMillis next, ∃ present ∈ julianMillis now, attempt ≤ present))

def InboxRow.toForwarded (row : InboxRow) : Except String ForwardedWebhook := do
  let envelope ← okOr "invalid payload" (SanitizedWebhookEnvelope.ofJson? row.payload)
  return {
    deliveryId := row.deliveryId, envelope, payloadSha256 := row.payloadSha256
    receivedAt := row.receivedAt }

/-- The next batch of the forwarder, the earliest received first. -/
def dueDeliveries (inbox : Inbox) (now : DateTime) : Except String (List ForwardedWebhook) :=
  let due := inbox.pending.filter fun row => IsDue row now
  let ordered := due.mergeSort fun first second =>
    first.receivedAt < second.receivedAt ||
      (first.receivedAt = second.receivedAt && first.deliveryId ≤ second.deliveryId)
  (ordered.take forwardBatchSize).mapM InboxRow.toForwarded

def mark (inbox : Inbox) (deliveryId : String) (now : DateTime) : Inbox :=
  inbox.updatePending deliveryId fun row => { row with forwardedAt := some now, lastError := none }

def markForwarded (limits : InboxLimits) (inbox : Inbox) (deliveryId : String) (now : DateTime) :
    Except String Inbox := do
  ensure (inbox.findPending deliveryId).isSome "pending relay delivery disappeared"
  return (inbox.mark deliveryId now).pruneForwardedDeliveries limits now

def deferDelivery (inbox : Inbox) (deliveryId : String) (now : DateTime) : Except String Inbox := do
  let row ← okOr "pending relay delivery disappeared" (inbox.findPending deliveryId)
  ensure (row.attemptCount < 2 ^ 32) "attempt count out of range"
  let backoff := min (initialRetryMillis * 2 ^ min row.attemptCount 8) maxRetryMillis
  return inbox.updatePending deliveryId fun row =>
    { row with
      attemptCount := row.attemptCount + 1
      nextAttemptAt := some (now + milliseconds backoff)
      lastError := some "engine unavailable" }

/-! ## Pruning -/

section Pruning

variable {limits : InboxLimits} {inbox : Inbox} {row : InboxRow} {now : DateTime}

/-- The rows that a pruning takes away for being too many. -/
def evicted (limits : InboxLimits) (inbox : Inbox) (now : DateTime) : List InboxRow :=
  Retention.excess limits.forwardedRetentionCapacity InboxRow.notLater
    ((inbox.unexpired now).filter InboxRow.isForwarded)

/-- A forwarded row that a pruning takes away: it is too old, or too many
others were received no earlier. -/
structure Forgets (limits : InboxLimits) (inbox : Inbox) (now : DateTime) (row : InboxRow) :
    Prop where
  mem : row ∈ inbox.rows
  forwarded : row.isForwarded = true
  reason : row.isExpired now = true ∨ row ∈ inbox.evicted limits now

theorem mem_unexpired : row ∈ inbox.unexpired now ↔
    row ∈ inbox.rows ∧ ¬ (row.isForwarded = true ∧ row.isExpired now = true) := by
  rw [unexpired, List.mem_filter, Bool.not_eq_true', Bool.and_eq_false_iff, not_and_or,
    Bool.not_eq_true, Bool.not_eq_true]

theorem mem_evicted (hrow : row ∈ inbox.evicted limits now) :
    row ∈ inbox.unexpired now ∧ row.isForwarded = true :=
  List.mem_filter.mp (Retention.excess_subset hrow)

/-- A pruning takes away the rows it forgets, and no other. -/
theorem mem_prune : row ∈ (inbox.pruneForwardedDeliveries limits now).rows ↔
    row ∈ inbox.rows ∧ ¬ inbox.Forgets limits now row := by
  have hnodup : ((inbox.unexpired now).map InboxRow.deliveryId).Nodup :=
    inbox.nodup.sublist ((inbox.unexpired_sublist now).map _)
  change row ∈ Retention.evict _ _ _ _ _ ↔ _
  rw [Retention.mem_evict hnodup, mem_unexpired]
  constructor
  · rintro ⟨⟨hmem, hfresh⟩, hkept⟩
    refine ⟨hmem, fun hforgets => ?_⟩
    cases hforgets.reason with
    | inl hexpired => exact hfresh ⟨hforgets.forwarded, hexpired⟩
    | inr hevicted => exact hkept hevicted
  · rintro ⟨hmem, hkept⟩
    refine ⟨⟨hmem, ?_⟩, ?_⟩
    · rintro ⟨hforwarded, hexpired⟩
      exact hkept ⟨hmem, hforwarded, .inl hexpired⟩
    · intro hevicted
      exact hkept ⟨hmem, (mem_evicted hevicted).2, .inr hevicted⟩

/-- Pruning leaves every pending row where it is. -/
theorem prune_pending (limits : InboxLimits) (inbox : Inbox) (now : DateTime) :
    (inbox.pruneForwardedDeliveries limits now).pending = inbox.pending := by
  have hnodup : ((inbox.unexpired now).map InboxRow.deliveryId).Nodup :=
    inbox.nodup.sublist ((inbox.unexpired_sublist now).map _)
  have hevict := @Retention.filter_not_evict _ _ _ limits.forwardedRetentionCapacity _
    InboxRow.notLater InboxRow.isForwarded _ hnodup
  change (Retention.evict _ _ _ _ _).filter _ = _
  rw [hevict, unexpired, List.filter_filter, pending]
  apply List.filter_congr
  intro row _
  cases row.isForwarded <;> rfl

theorem prune_forwarded (limits : InboxLimits) (inbox : Inbox) (now : DateTime) :
    (inbox.pruneForwardedDeliveries limits now).forwarded.length ≤
      limits.forwardedRetentionCapacity :=
  Retention.length_filter_evict

theorem notLater_trans (first second third : InboxRow) (hfirst : first.notLater second = true)
    (hsecond : second.notLater third = true) : first.notLater third = true := by
  simp only [InboxRow.notLater, decide_eq_true_eq] at hfirst hsecond ⊢
  exact hfirst.trans hsecond

theorem notLater_total (first second : InboxRow) :
    (first.notLater second || second.notLater first) = true := by
  simp only [InboxRow.notLater, Bool.or_eq_true, decide_eq_true_eq]
  exact le_total _ _

/-- The evicted rows are the earliest received of the forwarded ones, and there
were more of these than the cap. -/
theorem evicted_oldest (hrow : row ∈ inbox.evicted limits now) :
    limits.forwardedRetentionCapacity < inbox.forwarded.length ∧
      ∀ kept ∈ (inbox.pruneForwardedDeliveries limits now).forwarded,
        row.receivedAt ≤ kept.receivedAt := by
  constructor
  · have hlength : ((inbox.unexpired now).filter InboxRow.isForwarded).length ≤
        inbox.forwarded.length :=
      ((inbox.unexpired_sublist now).filter _).length_le
    by_contra hfew
    rw [evicted, Retention.excess, Nat.sub_eq_zero_of_le (hlength.trans (not_lt.mp hfew)),
      List.take_zero] at hrow
    exact absurd hrow List.not_mem_nil
  · intro kept hkept
    obtain ⟨hmem, hforwarded⟩ := List.mem_filter.mp hkept
    obtain ⟨hkeptMem, hkeptStays⟩ := mem_prune.1 hmem
    have hunexpired : kept ∈ inbox.unexpired now :=
      mem_unexpired.2 ⟨hkeptMem, fun hold => hkeptStays ⟨hkeptMem, hforwarded, .inl hold.2⟩⟩
    have hle := Retention.excess_le notLater_trans notLater_total hrow
      (List.mem_filter.mpr ⟨hunexpired, hforwarded⟩)
      (fun hevicted => hkeptStays ⟨hkeptMem, hforwarded, .inr hevicted⟩)
    exact of_decide_eq_true hle

end Pruning

end Inbox

end Patchwright.Webhook
