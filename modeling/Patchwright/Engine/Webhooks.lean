import Patchwright.Engine.Store
import Patchwright.Relay.Webhooks

/-!
# Webhooks at the engine

The engine checks a forwarded webhook again, stores it once under the
identifier of its delivery, and wakes the pending monitors it is about.  All of
this is one transaction, and a delivery that is stored already changes nothing.
-/

namespace Patchwright

open Checked Webhook

structure WebhookIngestOutcome where
  inserted : Bool
  monitorsWoken : Nat
  deriving DecidableEq, Repr

/-- A word of a bounded length, without control characters. -/
def isPlainWord (limit : Nat) (value : String) : Bool :=
  value ≠ "" ∧ value.utf8ByteSize ≤ limit ∧ ¬ value.toList.any isControl

/-- Check the name of a repository, where there is one. -/
def validateWebhookRepository : Option String → Except String Unit
  | some repository => do
      let (owner, name) ← okOr "invalid webhook repository identity" (splitOnce repository '/')
      ensure (owner ≠ "" ∧ name ≠ "" ∧ '/' ∉ name.toList ∧ repository.utf8ByteSize ≤ 255 ∧
        ¬ repository.toList.any isWhitespace) "invalid webhook repository identity"
  | none => .ok ()

def validateForwardedWebhook (delivery : ForwardedWebhook) : Except String Unit := do
  let envelope := delivery.envelope
  ensure (isPlainWord 128 delivery.deliveryId) "invalid GitHub webhook delivery ID"
  ensure (envelope.schemaVersion = 1) "unsupported webhook schema"
  ensure (isPlainWord 64 envelope.event) "invalid webhook event"
  ensure (isPlainWord 64 envelope.action) "invalid webhook action"
  ensure (envelope.event ≠ "ping" →
    envelope.repositoryId.isSome ∧ envelope.repositoryFullName.isSome)
    "webhook repository identity is missing"
  validateWebhookRepository envelope.repositoryFullName
  ensure ((∀ number ∈ envelope.entityNumber, 0 < number) ∧ ∀ id ∈ envelope.entityId, 0 < id)
    "invalid webhook entity identity"
  ensure (delivery.payloadSha256.utf8ByteSize = 64 ∧
    delivery.payloadSha256.toList.all isAsciiHexdigit) "invalid webhook payload digest"
  ensure (Rfc3339.parse delivery.receivedAt).isSome "invalid webhook receive time"

/-- A number as a signed integer of the database. -/
def sqlInteger (number : Nat) : Except String Nat := do
  ensure (number < 2 ^ 63) "out of range integral type conversion attempted"
  return number

namespace EventStore

/-- A monitor that a webhook about the repository, and about the pull request
if it carries a number, is to wake. -/
def Awaits (repository : String) (number : Option Nat) (monitor : MonitorRecord) : Prop :=
  monitor.state = .pending ∧ monitor.repositoryFullName = repository ∧
    ∀ wanted ∈ number, monitor.pullRequestNumber = wanted

instance (repository : String) (number : Option Nat) (monitor : MonitorRecord) :
    Decidable (Awaits repository number monitor) :=
  inferInstanceAs (Decidable (_ ∧ _ ∧ _))

/-- The monitors to wake, in the order of their identifiers. -/
def webhookMonitors (store : EventStore) (envelope : SanitizedWebhookEnvelope) :
    List MonitorRecord :=
  match envelope.repositoryFullName with
  | none => []
  | some repository =>
      ((store.monitors.entries.map Sigma.snd).filter fun monitor =>
        Awaits repository envelope.entityNumber monitor).mergeSort
          fun left right => left.id.value ≤ right.id.value

/-- Wake the monitors one after another, and count them.  The row is written
only while it is pending. -/
def wakeMonitors (now : DateTime) :
    List MonitorRecord → Table Uuid MonitorRecord → Table Uuid MonitorRecord × Nat
  | [], rows => (rows, 0)
  | monitor :: monitors, rows =>
      let (woken, changed) := monitor.wake now
      if changed then
        let rows := rows.modify monitor.id fun row => if row.state = .pending then woken else row
        let (rows, count) := wakeMonitors now monitors rows
        (rows, count + 1)
      else wakeMonitors now monitors rows

def ingestGithubWebhook (store : EventStore) (delivery : ForwardedWebhook)
    (ingestedAt now : DateTime) : Except String (EventStore × WebhookIngestOutcome) := do
  validateForwardedWebhook delivery
  let entityNumber ← delivery.envelope.entityNumber.mapM sqlInteger
  if store.githubWebhookDeliveries.lookup delivery.deliveryId ≠ none then
    return (store, ⟨false, 0⟩)
  else
    let row : GitHubWebhookDelivery := {
      event := delivery.envelope.event, action := delivery.envelope.action
      repositoryFullName := delivery.envelope.repositoryFullName, entityNumber
      payloadSha256 := delivery.payloadSha256, receivedAt := delivery.receivedAt, ingestedAt }
    let (monitors, monitorsWoken) :=
      wakeMonitors now (store.webhookMonitors delivery.envelope) store.monitors
    return ({ store with
      githubWebhookDeliveries := store.githubWebhookDeliveries.insert delivery.deliveryId row
      monitors }, ⟨true, monitorsWoken⟩)

end EventStore

end Patchwright
