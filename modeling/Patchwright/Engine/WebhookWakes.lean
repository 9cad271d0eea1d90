import Patchwright.Engine.Webhooks
import Patchwright.Library.Checked

/-!
# What a webhook does to the engine

A delivery is stored once.  When it is, it wakes the pending monitors of its
repository, or of its pull request if it names one, and no other; after that it
changes nothing.
-/

namespace Patchwright

open Checked Webhook

/-- The row that the engine stores of a delivery. -/
def Webhook.ForwardedWebhook.row (delivery : ForwardedWebhook) (ingestedAt : DateTime) :
    GitHubWebhookDelivery where
  event := delivery.envelope.event
  action := delivery.envelope.action
  repositoryFullName := delivery.envelope.repositoryFullName
  entityNumber := delivery.envelope.entityNumber
  payloadSha256 := delivery.payloadSha256
  receivedAt := delivery.receivedAt
  ingestedAt := ingestedAt

namespace EventStore

/-- Every monitor is stored under its own identifier. -/
def MonitorsKeyed (store : EventStore) : Prop :=
  ∀ entry ∈ store.monitors.entries, MonitorRecord.id entry.2 = entry.1

instance (store : EventStore) : Decidable store.MonitorsKeyed :=
  inferInstanceAs (Decidable (∀ entry ∈ store.monitors.entries, _))

/-- The monitor waits for news about what the envelope names. -/
def Concerns (envelope : SanitizedWebhookEnvelope) (monitor : MonitorRecord) : Prop :=
  ∃ repository ∈ envelope.repositoryFullName, Awaits repository envelope.entityNumber monitor

instance (envelope : SanitizedWebhookEnvelope) (monitor : MonitorRecord) :
    Decidable (Concerns envelope monitor) :=
  inferInstanceAs (Decidable (∃ repository ∈ envelope.repositoryFullName, _))

/-- Exactly the monitors that a delivery concerns are woken. -/
def WokenBy (envelope : SanitizedWebhookEnvelope) (now : DateTime) (store next : EventStore) :
    Prop :=
  ∀ id, next.monitors.lookup id = (store.monitors.lookup id).map fun monitor =>
    if Concerns envelope monitor then (monitor.wake now).1 else monitor

/-! ## The monitors to wake -/

section Wakes

variable {store : EventStore} {envelope : SanitizedWebhookEnvelope} {now : DateTime}
variable {monitors : List MonitorRecord} {rows : Table Uuid MonitorRecord}

theorem mem_webhookMonitors {monitor : MonitorRecord} :
    monitor ∈ store.webhookMonitors envelope ↔
      (∃ id, store.monitors.lookup id = some monitor) ∧ Concerns envelope monitor := by
  have hstored : (∃ id, store.monitors.lookup id = some monitor) ↔
      monitor ∈ store.monitors.entries.map Sigma.snd := by
    rw [List.mem_map]
    constructor
    · rintro ⟨id, hlookup⟩
      exact ⟨⟨id, monitor⟩, AList.mem_lookup_iff.mp hlookup, rfl⟩
    · rintro ⟨⟨id, _⟩, hentry, rfl⟩
      exact ⟨id, AList.mem_lookup_iff.mpr hentry⟩
  rw [hstored, webhookMonitors, Concerns]
  cases envelope.repositoryFullName with
  | none => exact iff_of_false List.not_mem_nil (by rintro ⟨-, _, ⟨⟩, -⟩)
  | some repository =>
      rw [List.mem_mergeSort, List.mem_filter, decide_eq_true_iff]
      refine and_congr_right fun _ => ?_
      exact ⟨fun hawaits => ⟨repository, rfl, hawaits⟩, by rintro ⟨_, ⟨⟩, hawaits⟩; exact hawaits⟩

theorem webhookMonitors_nodup (hkeyed : store.MonitorsKeyed) :
    ((store.webhookMonitors envelope).map MonitorRecord.id).Nodup := by
  have hall : ((store.monitors.entries.map Sigma.snd).map MonitorRecord.id).Nodup := by
    have hkeys : (store.monitors.entries.map Sigma.snd).map MonitorRecord.id =
        store.monitors.keys := by
      rw [List.map_map]
      exact List.map_congr_left hkeyed
    rw [hkeys]
    exact store.monitors.keys_nodup
  rw [webhookMonitors]
  cases envelope.repositoryFullName with
  | none => exact List.nodup_nil
  | some repository =>
      refine (((List.mergeSort_perm _ _).map _).nodup_iff).mpr ?_
      exact hall.sublist ((List.filter_sublist).map _)

theorem wake_of_pending {monitor : MonitorRecord} (hpending : monitor.state = .pending) :
    monitor.wake now = ((monitor.wake now).1, true) := by
  rw [MonitorRecord.wake, if_neg (not_not.mpr hpending)]

/-- Waking monitors one after another wakes each of them once. -/
theorem lookup_wakeMonitors (hnodup : (monitors.map MonitorRecord.id).Nodup)
    (hrows : ∀ monitor ∈ monitors, monitor.state = .pending ∧
      rows.lookup monitor.id = some monitor) (id : Uuid) :
    (wakeMonitors now monitors rows).1.lookup id =
      if id ∈ monitors.map MonitorRecord.id then
        (rows.lookup id).map fun monitor => (monitor.wake now).1
      else rows.lookup id := by
  induction monitors generalizing rows with
  | nil => rfl
  | cons monitor monitors ih =>
      obtain ⟨hpending, hlookup⟩ := hrows monitor List.mem_cons_self
      rw [List.map_cons, List.nodup_cons] at hnodup
      let change : MonitorRecord → MonitorRecord := fun row =>
        if row.state = .pending then (monitor.wake now).1 else row
      have hstep : (wakeMonitors now (monitor :: monitors) rows).1 =
          (wakeMonitors now monitors (rows.modify monitor.id change)).1 := by
        rw [wakeMonitors, wake_of_pending hpending]
        rfl
      have hlater : ∀ other ∈ monitors, other.state = .pending ∧
          (rows.modify monitor.id change).lookup other.id = some other := by
        intro other hother
        have hne : other.id ≠ monitor.id := by
          intro hsame
          exact hnodup.1 (hsame ▸ List.mem_map_of_mem hother)
        rw [AList.lookup_modify_ne rows change hne]
        exact hrows other (List.mem_cons_of_mem _ hother)
      rw [hstep, ih hnodup.2 hlater]
      by_cases hid : id = monitor.id
      · subst hid
        rw [if_neg hnodup.1, if_pos (List.mem_map_of_mem List.mem_cons_self),
          AList.lookup_modify_self, hlookup, Option.map_some, Option.map_some]
        exact congrArg some (if_pos hpending)
      · rw [AList.lookup_modify_ne rows change hid, List.map_cons]
        refine if_congr ?_ rfl rfl
        exact (List.mem_cons.trans (or_iff_right hid)).symm

theorem wokenBy_wakeMonitors (hkeyed : store.MonitorsKeyed) :
    WokenBy envelope now store
      { store with
        monitors := (wakeMonitors now (store.webhookMonitors envelope) store.monitors).1 } := by
  have hown : ∀ id monitor, store.monitors.lookup id = some monitor → monitor.id = id :=
    fun id monitor hlookup => hkeyed ⟨id, monitor⟩ (AList.mem_lookup_iff.mp hlookup)
  have hrows : ∀ monitor ∈ store.webhookMonitors envelope, monitor.state = .pending ∧
      store.monitors.lookup monitor.id = some monitor := by
    intro monitor hmonitor
    obtain ⟨⟨id, hlookup⟩, _, _, hawaits⟩ := mem_webhookMonitors.1 hmonitor
    refine ⟨hawaits.1, ?_⟩
    rwa [hown id monitor hlookup]
  intro id
  change (wakeMonitors now (store.webhookMonitors envelope) store.monitors).1.lookup id = _
  rw [lookup_wakeMonitors (webhookMonitors_nodup hkeyed) hrows]
  cases hlookup : store.monitors.lookup id with
  | none => exact ite_self _
  | some monitor =>
      have hmem : id ∈ (store.webhookMonitors envelope).map MonitorRecord.id ↔
          Concerns envelope monitor := by
        rw [List.mem_map]
        constructor
        · rintro ⟨other, hother, rfl⟩
          rw [(hrows other hother).2, Option.some.injEq] at hlookup
          exact hlookup ▸ (mem_webhookMonitors.1 hother).2
        · intro hconcerns
          exact ⟨monitor, mem_webhookMonitors.2 ⟨⟨id, hlookup⟩, hconcerns⟩, hown id monitor hlookup⟩
      by_cases hconcerns : Concerns envelope monitor
      · rw [if_pos (hmem.mpr hconcerns), Option.map_some, Option.map_some, if_pos hconcerns]
      · rw [if_neg fun hid => hconcerns (hmem.mp hid), Option.map_some, if_neg hconcerns]

theorem MonitorsKeyed.wokenBy {next : EventStore} (hkeyed : store.MonitorsKeyed)
    (hwoken : WokenBy envelope now store next) : next.MonitorsKeyed := by
  rintro ⟨id, monitor⟩ hentry
  have hlookup := hwoken id
  rw [AList.mem_lookup_iff.mpr hentry] at hlookup
  obtain ⟨old, hold, hsame⟩ := Option.map_eq_some_iff.mp hlookup.symm
  have hid := hkeyed ⟨id, old⟩ (AList.mem_lookup_iff.mp hold)
  change monitor.id = id
  rw [← hsame]
  split
  · rw [MonitorRecord.wake]
    split <;> exact hid
  · exact hid

end Wakes

/-! ## One ingestion -/

section Ingestion

variable {store next : EventStore} {delivery : ForwardedWebhook} {ingestedAt now : DateTime}
variable {outcome : WebhookIngestOutcome}

/-- A delivery that is stored already changes nothing, and a new one is stored
and wakes the monitors it concerns. -/
theorem ingestGithubWebhook_eq_ok (hkeyed : store.MonitorsKeyed)
    (hingest : store.ingestGithubWebhook delivery ingestedAt now = .ok (next, outcome)) :
    (delivery.deliveryId ∈ store.githubWebhookDeliveries ∧ next = store ∧
      outcome.inserted = false) ∨
    (delivery.deliveryId ∉ store.githubWebhookDeliveries ∧ outcome.inserted = true ∧
      next.githubWebhookDeliveries =
        store.githubWebhookDeliveries.insert delivery.deliveryId (delivery.row ingestedAt) ∧
      WokenBy delivery.envelope now store next) := by
  have hmem : store.githubWebhookDeliveries.lookup delivery.deliveryId ≠ none ↔
      delivery.deliveryId ∈ store.githubWebhookDeliveries := by
    rw [← AList.lookup_isSome, Option.isSome_iff_ne_none]
  unfold ingestGithubWebhook at hingest
  obtain ⟨-, -, hingest⟩ := bind_eq_ok.1 hingest
  obtain ⟨number, hnumber, hingest⟩ := bind_eq_ok.1 hingest
  have hsame : number = delivery.envelope.entityNumber := by
    cases hentity : delivery.envelope.entityNumber with
    | none =>
        rw [hentity] at hnumber
        exact (pure_eq_ok.1 hnumber).symm
    | some value =>
        rw [hentity] at hnumber
        obtain ⟨_, hvalue, rfl⟩ := map_eq_ok.1 hnumber
        rw [sqlInteger, bind_eq_ok] at hvalue
        obtain ⟨-, -, hvalue⟩ := hvalue
        rw [pure_eq_ok.1 hvalue]
  by_cases hseen : store.githubWebhookDeliveries.lookup delivery.deliveryId ≠ none
  · rw [if_pos hseen] at hingest
    cases hingest
    exact .inl ⟨hmem.mp hseen, rfl, rfl⟩
  · rw [if_neg hseen] at hingest
    cases hingest
    rw [hsame]
    refine .inr ⟨fun hstored => hseen (hmem.mpr hstored), rfl, rfl, ?_⟩
    exact wokenBy_wakeMonitors hkeyed

end Ingestion

end EventStore

end Patchwright
