import Patchwright.Relay.Forwarding

/-!
# Passes of the forwarder

A pass takes up to 32 of the rows that are due and hands them over one after
another.  While the engine answers, a pass leaves pending only what the engine
refuses, which does not hold up what comes after it, and passes in a row drain
the inbox.
-/

namespace Patchwright.Webhook

open Checked Runs Outbox

/-- The engine takes the delivery when it reads it. -/
def ForwardedWebhook.IsTaken (delivery : ForwardedWebhook) : Prop :=
  validateForwardedWebhook delivery = .ok () ∧
    ∀ number ∈ delivery.envelope.entityNumber, number < 2 ^ 63

instance (delivery : ForwardedWebhook) : Decidable delivery.IsTaken :=
  inferInstanceAs (Decidable (_ ∧ _))

namespace Pipeline

/-- A delivery is handed to an engine that answers.  One that it refuses is
deferred. -/
def serve (now : DateTime) (call : Nat) (delivery : ForwardedWebhook) : List PipelineEvent :=
  [.send, .ingest call now now] ++
    if delivery.IsTaken then [.acknowledge, .mark now] else [.giveUp, .defer now]

def serveBatch (now : DateTime) : Nat → List ForwardedWebhook → List PipelineEvent
  | _, [] => []
  | call, delivery :: rest => serve now call delivery ++ serveBatch now (call + 1) rest

/-- One pass while the engine answers. -/
def forwardPendingOnce [Secret] [Sha256] (limits : InboxLimits) (now : DateTime)
    (state : Pipeline) : Option Pipeline :=
  match state.inbox.dueDeliveries now with
  | .ok batch => run (step limits) state (.poll now :: serveBatch now state.nextCall batch)
  | .error _ => none

def passes [Secret] [Sha256] (limits : InboxLimits) (now : DateTime) :
    Nat → Pipeline → Option Pipeline
  | 0, state => some state
  | count + 1, state => (forwardPendingOnce limits now state).bind (passes limits now count)

/-- What serving a batch comes to: what the engine takes is not pending any
more, and the rest of the inbox is as it was. -/
structure Served (state : Pipeline) (batch rest : List ForwardedWebhook) (final : Pipeline) :
    Prop where
  consistent : final.Consistent
  forwarder : final.forwarder = .sending rest
  nextCall : final.nextCall = state.nextCall + batch.length
  pendingIds : final.inbox.pendingIds = state.inbox.pendingIds.filter fun id =>
    id ∉ (batch.filter fun delivery => delivery.IsTaken).map ForwardedWebhook.deliveryId
  pending : ∀ row ∈ final.inbox.pending, row ∈ state.inbox.pending ∨
    ∃ delivery ∈ batch, ¬ delivery.IsTaken ∧ delivery.deliveryId = row.deliveryId
  grows : state.ingested ⊆ final.ingested
  ingested : ∀ delivery ∈ batch, delivery.IsTaken → delivery.deliveryId ∈ final.ingested

section Serving

variable {state middle final : Pipeline} {now : DateTime} {delivery : ForwardedWebhook}
variable {rest later batch : List ForwardedWebhook}

/-- The delivery in hand is in a request that is under way. -/
def sent (state : Pipeline) (delivery : ForwardedWebhook) (rest : List ForwardedWebhook) :
    Pipeline :=
  { state with
    forwarder := .awaiting state.nextCall delivery rest
    calls := (state.nextCall, delivery) :: state.calls
    nextCall := state.nextCall + 1 }

/-- The forwarder does not see the engine read a request. -/
theorem ingest_relay (state : Pipeline) (call : Nat) (delivery : ForwardedWebhook)
    (ingestedAt now : DateTime) :
    (state.ingest call delivery ingestedAt now).inbox = state.inbox ∧
      (state.ingest call delivery ingestedAt now).forwarder = state.forwarder ∧
      (state.ingest call delivery ingestedAt now).nextCall = state.nextCall := by
  rw [Pipeline.ingest]
  split <;> exact ⟨rfl, rfl, rfl⟩

theorem ingest_acknowledged (htaken : delivery.IsTaken) (state : Pipeline) (call : Nat)
    (ingestedAt now : DateTime) :
    call ∈ (state.ingest call delivery ingestedAt now).acknowledged := by
  obtain ⟨result, hingest⟩ := isOk_iff.1
    ((@ingestGithubWebhook_isOk state.store delivery ingestedAt now).2 htaken)
  rw [Pipeline.ingest, hingest]
  exact List.mem_cons_self

theorem ingest_grows (state : Pipeline) (call : Nat) (delivery : ForwardedWebhook)
    (ingestedAt now : DateTime) :
    state.ingested ⊆ (state.ingest call delivery ingestedAt now).ingested := by
  rw [Pipeline.ingest]
  split
  · exact List.Subset.refl _
  · dsimp only
    split
    · exact List.subset_cons_self _ _
    · exact List.Subset.refl _

variable [Secret] [Sha256] {limits : InboxLimits}

theorem run_send_ingest (hplace : state.forwarder = .sending (delivery :: rest)) :
    run (step limits) state [.send, .ingest state.nextCall now now] =
      some ((state.sent delivery rest).ingest state.nextCall delivery now now) := by
  refine run_cons_eq_some.2 ⟨state.sent delivery rest, ?_, run_cons_eq_some.2 ⟨_, ?_, rfl⟩⟩
  · rw [step, hplace]
    rfl
  · rw [step, sent, List.lookup_cons_self]

/-- The engine reads the request of the delivery in hand, and answers it if it
takes the delivery. -/
theorem exists_read (hstate : state.Consistent)
    (hplace : state.forwarder = .sending (delivery :: rest)) :
    ∃ middle, run (step limits) state [.send, .ingest state.nextCall now now] = some middle ∧
      middle.Consistent ∧ middle.inbox = state.inbox ∧
      middle.forwarder = .awaiting state.nextCall delivery rest ∧
      middle.nextCall = state.nextCall + 1 ∧ state.ingested ⊆ middle.ingested ∧
      (delivery.IsTaken → state.nextCall ∈ middle.acknowledged) := by
  have hread := @run_send_ingest _ now _ _ _ _ limits hplace
  obtain ⟨hinbox, hawaiting, hnumber⟩ :=
    ingest_relay (state.sent delivery rest) state.nextCall delivery now now
  exact ⟨_, hread, (pipeline_refines limits).invariant hstate hread, hinbox, hawaiting, hnumber,
    ingest_grows (state.sent delivery rest) state.nextCall delivery now now,
    fun htaken => ingest_acknowledged htaken (state.sent delivery rest) state.nextCall now now⟩

/-- A delivery that the engine takes is forwarded. -/
theorem serve_taken (hstate : state.Consistent)
    (hplace : state.forwarder = .sending (delivery :: rest)) (htaken : delivery.IsTaken) :
    ∃ final, run (step limits) state (serve now state.nextCall delivery) = some final ∧
      Served state [delivery] rest final := by
  obtain ⟨middle, hread, hingested, hinbox, hawaiting, hnumber, hgrows, hanswered⟩ :=
    @exists_read _ now _ _ _ _ limits hstate hplace
  have hacknowledge : middle.step limits .acknowledge =
      some { middle with forwarder := .marking delivery rest } := by
    rw [step, hawaiting]
    exact if_pos (hanswered htaken)
  have hmarking := (hingested.step hacknowledge).1
  obtain ⟨inbox, hmark, hpending, hfinal⟩ := @Consistent.mark _ limits now _ _ hmarking rfl
  refine ⟨_, ?_, hfinal, rfl, hnumber, ?_, ?_, hgrows, ?_⟩
  · rw [serve, if_pos htaken]
    refine run_append_eq_some.2 ⟨middle, hread, run_cons_eq_some.2 ⟨_, hacknowledge,
      run_cons_eq_some.2 ⟨_, ?_, rfl⟩⟩⟩
    exact congrArg (fun result => some (written _ rest result)) hmark
  · have htakens : [delivery].filter (fun delivery => delivery.IsTaken) = [delivery] := by
      simp only [List.filter_cons, decide_eq_true htaken, if_true, List.filter_nil]
    rw [hpending, hinbox, htakens]
    exact List.filter_congr fun id _ => by simp only [List.map_cons, List.map_nil,
      List.mem_singleton, ne_eq]
  · intro row hrow
    rw [(Inbox.markForwarded_eq_ok hmark).2, Inbox.prune_pending, Inbox.mark_pending_eq] at hrow
    exact .inl (hinbox ▸ (List.mem_filter.mp hrow).1)
  · intro other hother _
    rw [List.mem_singleton.mp hother]
    exact hmarking.marking delivery rest rfl

/-- A delivery that the engine refuses is deferred and stays pending. -/
theorem serve_refused (hstate : state.Consistent)
    (hplace : state.forwarder = .sending (delivery :: rest)) (hrefused : ¬ delivery.IsTaken)
    (hfew : ∀ row ∈ state.inbox.pending, row.deliveryId = delivery.deliveryId →
      row.attemptCount < 2 ^ 32) :
    ∃ final, run (step limits) state (serve now state.nextCall delivery) = some final ∧
      Served state [delivery] rest final := by
  obtain ⟨middle, hread, hingested, hinbox, hawaiting, hnumber, hgrows, -⟩ :=
    @exists_read _ now _ _ _ _ limits hstate hplace
  have hgiveUp : middle.step limits .giveUp =
      some { middle with forwarder := .deferring delivery rest } := by
    rw [step, hawaiting]
  have hdeferring := (hingested.step hgiveUp).1
  have hheld := (hdeferring.held delivery List.mem_cons_self).2
  obtain ⟨row, hrow⟩ := Option.isSome_iff_exists.mp (Inbox.findPending_isSome.2 hheld)
  obtain ⟨hmem, hid⟩ := Inbox.findPending_eq_some hrow
  have hsmall : row.attemptCount < 2 ^ 32 := hfew row (hinbox ▸ hmem) hid
  obtain ⟨inbox, hdefer⟩ : ∃ inbox,
      middle.inbox.deferDelivery delivery.deliveryId now = .ok inbox := by
    rw [Inbox.deferDelivery, hrow, okOr, ok_bind, ensure, if_pos hsmall]
    exact ⟨_, rfl⟩
  have hstep : ({ middle with forwarder := .deferring delivery rest } : Pipeline).step limits
      (.defer now) = some { middle with inbox, forwarder := .sending rest } :=
    congrArg (fun result => some (written _ rest result)) hdefer
  obtain ⟨hpendingIds, -, -⟩ := Inbox.deferDelivery_rows hdefer
  have htakens : [delivery].filter (fun delivery => delivery.IsTaken) = [] := by
    simp only [List.filter_cons, decide_eq_false hrefused, Bool.false_eq_true, if_false,
      List.filter_nil]
  refine ⟨_, ?_, (hdeferring.step hstep).1, rfl, hnumber, ?_, ?_, hgrows, ?_⟩
  · rw [serve, if_neg hrefused]
    exact run_append_eq_some.2 ⟨middle, hread, run_cons_eq_some.2 ⟨_, hgiveUp,
      run_cons_eq_some.2 ⟨_, hstep, rfl⟩⟩⟩
  · rw [hpendingIds, hinbox, htakens]
    exact (List.filter_eq_self.mpr fun id _ => by simp only [List.map_nil, List.not_mem_nil,
      not_false_eq_true, decide_true]).symm
  · intro kept hkept
    obtain ⟨attempts, due, hnext⟩ := Inbox.deferDelivery_eq_ok hdefer
    rw [hnext] at hkept
    obtain ⟨hrows, hpending⟩ := List.mem_filter.mp hkept
    rcases Inbox.mem_updatePending_rows hrows with hold | ⟨old, -, hsame, rfl⟩
    · exact .inl (hinbox ▸ List.mem_filter.mpr ⟨hold, hpending⟩)
    · exact .inr ⟨delivery, List.mem_cons_self, hrefused, hsame.symm⟩
  · intro other hother htaken
    rw [List.mem_singleton.mp hother] at htaken
    exact absurd htaken hrefused

omit [Secret] [Sha256] in
/-- Served deliveries make up a served batch. -/
theorem Served.append (hfirst : Served state [delivery] later middle)
    (hsecond : Served middle batch rest final) : Served state (delivery :: batch) rest final where
  consistent := hsecond.consistent
  forwarder := hsecond.forwarder
  nextCall := by
    rw [hsecond.nextCall, hfirst.nextCall, List.length_singleton, List.length_cons, Nat.add_assoc,
      Nat.add_comm 1]
  pendingIds := by
    rw [hsecond.pendingIds, hfirst.pendingIds, List.filter_filter]
    refine List.filter_congr fun id _ => ?_
    have hmem : id ∈ ((delivery :: batch).filter fun delivery => delivery.IsTaken).map
        ForwardedWebhook.deliveryId ↔
        id ∈ ([delivery].filter fun delivery => delivery.IsTaken).map
          ForwardedWebhook.deliveryId ∨
        id ∈ (batch.filter fun delivery => delivery.IsTaken).map ForwardedWebhook.deliveryId := by
      rw [← List.mem_append, ← List.map_append, ← List.filter_append]
      rfl
    rw [← Bool.decide_and]
    exact decide_eq_decide.mpr (by rw [hmem, not_or, and_comm])
  pending := by
    intro row hrow
    rcases hsecond.pending row hrow with hmiddle | ⟨other, hother, hrefused⟩
    · rcases hfirst.pending row hmiddle with hold | ⟨other, hother, hrefused⟩
      · exact .inl hold
      · exact .inr ⟨other, List.mem_cons.mpr (.inl (List.mem_singleton.mp hother)), hrefused⟩
    · exact .inr ⟨other, List.mem_cons_of_mem _ hother, hrefused⟩
  grows := List.Subset.trans hfirst.grows hsecond.grows
  ingested := by
    refine List.forall_mem_cons.mpr ⟨fun htaken => ?_, hsecond.ingested⟩
    exact hsecond.grows (hfirst.ingested delivery List.mem_cons_self htaken)

theorem serveBatch_served (hstate : state.Consistent) (hplace : state.forwarder = .sending batch)
    (hfew : ∀ delivery ∈ batch, ¬ delivery.IsTaken → ∀ row ∈ state.inbox.pending,
      row.deliveryId = delivery.deliveryId → row.attemptCount < 2 ^ 32) :
    ∃ final, run (step limits) state (serveBatch now state.nextCall batch) = some final ∧
      Served state batch [] final := by
  induction batch generalizing state with
  | nil =>
      refine ⟨state, rfl, hstate, hplace, rfl, ?_, fun _ => .inl, List.Subset.refl _, fun _ hnone =>
        absurd hnone List.not_mem_nil⟩
      exact (List.filter_eq_self.mpr fun id _ => by simp only [List.filter_nil, List.map_nil,
        List.not_mem_nil, not_false_eq_true, decide_true]).symm
  | cons delivery batch ih =>
      have hdistinct := hstate.distinct
      rw [hplace] at hdistinct
      have hfresh := (List.nodup_cons.mp hdistinct).1
      obtain ⟨middle, hrun, hserved⟩ : ∃ middle,
          run (step limits) state (serve now state.nextCall delivery) = some middle ∧
            Served state [delivery] batch middle := by
        by_cases htaken : delivery.IsTaken
        · exact serve_taken hstate hplace htaken
        · exact serve_refused hstate hplace htaken (hfew delivery List.mem_cons_self htaken)
      have hlater : ∀ other ∈ batch, ¬ other.IsTaken → ∀ row ∈ middle.inbox.pending,
          row.deliveryId = other.deliveryId → row.attemptCount < 2 ^ 32 := by
        intro other hother hrefused row hrow hid
        rcases hserved.pending row hrow with hold | ⟨served, hmem, -, hsame⟩
        · exact hfew other (List.mem_cons_of_mem _ hother) hrefused row hold hid
        · rw [List.mem_singleton.mp hmem, hid] at hsame
          exact absurd (hsame ▸ List.mem_map_of_mem hother) hfresh
      obtain ⟨final, hrest, hfinal⟩ := ih hserved.consistent hserved.forwarder hlater
      refine ⟨final, ?_, hserved.append hfinal⟩
      rw [serveBatch]
      refine run_append_eq_some.2 ⟨middle, hrun, ?_⟩
      rw [hserved.nextCall] at hrest
      exact hrest

/-- What the engine refuses has attempts left. -/
def AttemptsLeft (state : Pipeline) : Prop :=
  ∀ row ∈ state.inbox.pending, ∀ delivery, Inbox.InboxRow.toForwarded row = .ok delivery →
    ¬ delivery.IsTaken → row.attemptCount < 2 ^ 32

/-- One pass of a forwarder at rest serves the batch that is due. -/
theorem pass_served (hstate : state.Consistent) (hrest : state.forwarder = .sending [])
    (hleft : state.AttemptsLeft) :
    ∃ batch final, state.inbox.dueDeliveries now = .ok batch ∧
      forwardPendingOnce limits now state = some final ∧ Served state batch [] final := by
  obtain ⟨batch, hbatch, -⟩ := hstate.due now
  have hpoll : state.step limits (.poll now) =
      some { state with forwarder := .sending batch } := by
    rw [step, hrest]
    dsimp only
    rw [hbatch]
  have hfew : ∀ delivery ∈ batch, ¬ delivery.IsTaken → ∀ row ∈ state.inbox.pending,
      row.deliveryId = delivery.deliveryId → row.attemptCount < 2 ^ 32 := by
    intro delivery hdelivery hrefused row hrow hid
    obtain ⟨rows, hrows, hsubset, -⟩ := Inbox.dueDeliveries_eq_ok hbatch
    obtain ⟨source, hsource, hread⟩ := List.exists_source_of_forall₂ hrows hdelivery
    have hsame : source = row := by
      refine List.inj_on_of_nodup_map (state.inbox.nodup.sublist Inbox.pendingIds_sublist)
        (hsubset hsource) hrow ?_
      rw [hid, Inbox.toForwarded_deliveryId hread]
    exact hleft row hrow delivery (hsame ▸ hread) hrefused
  obtain ⟨final, hrun, hserved⟩ := @serveBatch_served _ now batch _ _ limits
    (hstate.step hpoll).1 rfl hfew
  refine ⟨batch, final, hbatch, ?_, hserved.consistent, hserved.forwarder, hserved.nextCall,
    hserved.pendingIds, hserved.pending, hserved.grows, hserved.ingested⟩
  rw [forwardPendingOnce, hbatch]
  exact run_cons_eq_some.2 ⟨_, hpoll, hrun⟩

omit [Secret] [Sha256] in
/-- What a batch takes out of the inbox the engine has. -/
theorem Served.kept (hserved : Served state batch rest final) :
    ∀ id ∈ state.inbox.pendingIds, id ∈ final.inbox.pendingIds ∨ id ∈ final.ingested := by
  intro id hid
  rw [hserved.pendingIds, List.mem_filter, decide_eq_true_iff]
  by_cases htaken : id ∈ (batch.filter fun delivery => delivery.IsTaken).map
      ForwardedWebhook.deliveryId
  · obtain ⟨delivery, hdelivery, rfl⟩ := List.mem_map.mp htaken
    obtain ⟨hmem, hisTaken⟩ := List.mem_filter.mp hdelivery
    exact .inr (hserved.ingested delivery hmem (of_decide_eq_true hisTaken))
  · exact .inl ⟨hid, htaken⟩

/-- When the engine takes everything, a pass takes a whole batch out of the
inbox. -/
theorem pass_taken (hstate : state.Consistent) (hrest : state.forwarder = .sending [])
    (hdue : ∀ row ∈ state.inbox.pending, Inbox.IsDue row now)
    (htaken : ∀ row ∈ state.inbox.pending, ∀ delivery,
      Inbox.InboxRow.toForwarded row = .ok delivery → delivery.IsTaken) :
    ∃ final, forwardPendingOnce limits now state = some final ∧ final.Consistent ∧
      final.forwarder = .sending [] ∧ final.inbox.pending ⊆ state.inbox.pending ∧
      final.inbox.pending.length = state.inbox.pending.length - forwardBatchSize ∧
      state.ingested ⊆ final.ingested ∧
      ∀ id ∈ state.inbox.pendingIds, id ∈ final.inbox.pendingIds ∨ id ∈ final.ingested := by
  obtain ⟨batch, final, hbatch, hpass, hserved⟩ := @pass_served _ now _ _ limits hstate hrest
    fun row hrow delivery hread hrefused => absurd (htaken row hrow delivery hread) hrefused
  obtain ⟨rows, hrows, hsubset, hids, hnodup, hlength⟩ := Inbox.dueDeliveries_eq_ok hbatch
  have hall : ∀ delivery ∈ batch, delivery.IsTaken := by
    intro delivery hdelivery
    obtain ⟨row, hrow, hread⟩ := List.exists_source_of_forall₂ hrows hdelivery
    exact htaken row (hsubset hrow) delivery hread
  have hfilter : (batch.filter fun delivery => delivery.IsTaken) = batch :=
    List.filter_eq_self.mpr fun delivery hdelivery => decide_eq_true (hall delivery hdelivery)
  refine ⟨final, hpass, hserved.consistent, hserved.forwarder, ?_, ?_, hserved.grows,
    hserved.kept⟩
  · intro row hrow
    rcases hserved.pending row hrow with hold | ⟨delivery, hdelivery, hrefused, -⟩
    · exact hold
    · exact absurd (hall delivery hdelivery) hrefused
  · have hpending := hserved.pendingIds
    rw [hfilter, hids] at hpending
    have hcount := congrArg List.length hpending
    rw [List.length_filter_notMem (state.inbox.nodup.sublist Inbox.pendingIds_sublist) hnodup
      (List.map_subset _ hsubset), Inbox.pendingIds, List.length_map, Inbox.pendingIds,
      List.length_map, List.length_map, hlength,
      List.filter_eq_self.mpr fun row hrow => decide_eq_true (hdue row hrow)] at hcount
    omega

end Serving

end Pipeline

open Pipeline

section Results

variable [Secret] [Sha256] {limits : InboxLimits} {state : Pipeline}
variable {events : List PipelineEvent}

/-- While the engine answers, a pass takes the due rows out of the inbox except
those that the engine refuses, and never stops the forwarder. -/
theorem forward_pending_once (hrun : run (step limits) .initial events = some state)
    (hrest : state.forwarder = .sending []) (hleft : state.AttemptsLeft) (now : DateTime) :
    ∃ batch final, state.inbox.dueDeliveries now = .ok batch ∧
      batch.length = min forwardBatchSize
        (state.inbox.pending.filter fun row => Inbox.IsDue row now).length ∧
      forwardPendingOnce limits now state = some final ∧ final.forwarder = .sending [] ∧
      (∀ id, id ∈ final.inbox.pendingIds ↔ id ∈ state.inbox.pendingIds ∧
        ∀ delivery ∈ batch, delivery.deliveryId = id → ¬ delivery.IsTaken) ∧
      ∀ delivery ∈ batch, delivery.IsTaken → delivery.deliveryId ∈ final.ingested := by
  have hstate := (pipeline_refines limits).invariant consistent_initial hrun
  obtain ⟨batch, final, hbatch, hpass, hserved⟩ := @pass_served _ now _ _ limits hstate hrest hleft
  obtain ⟨rows, hrows, -, -, -, hlength⟩ := Inbox.dueDeliveries_eq_ok hbatch
  refine ⟨batch, final, hbatch, hrows.length_eq ▸ hlength, hpass, hserved.forwarder, fun id => ?_,
    hserved.ingested⟩
  rw [hserved.pendingIds, List.mem_filter, decide_eq_true_iff]
  refine and_congr_right fun _ => ?_
  constructor
  · intro hkept delivery hdelivery hid htaken
    exact hkept (hid ▸ List.mem_map_of_mem (List.mem_filter.mpr ⟨hdelivery, decide_eq_true htaken⟩))
  · intro hrefused htaken
    obtain ⟨delivery, hdelivery, hid⟩ := List.mem_map.mp htaken
    obtain ⟨hmem, hisTaken⟩ := List.mem_filter.mp hdelivery
    exact hrefused delivery hmem hid (of_decide_eq_true hisTaken)

/-- Passes in a row drain an inbox whose rows are due and which the engine
takes: each but the last takes 32 rows, and what is gone the engine has. -/
theorem inbox_drains (hrun : run (step limits) .initial events = some state)
    (hrest : state.forwarder = .sending []) {now : DateTime}
    (hdue : ∀ row ∈ state.inbox.pending, Inbox.IsDue row now)
    (htaken : ∀ row ∈ state.inbox.pending, ∀ delivery,
      Inbox.InboxRow.toForwarded row = .ok delivery → delivery.IsTaken) (count : Nat) :
    ∃ final, passes limits now count state = some final ∧ final.forwarder = .sending [] ∧
      final.inbox.pending.length = state.inbox.pending.length - forwardBatchSize * count ∧
      state.ingested ⊆ final.ingested ∧
      ∀ id ∈ state.inbox.pendingIds, id ∈ final.inbox.pendingIds ∨ id ∈ final.ingested := by
  have hstate := (pipeline_refines limits).invariant consistent_initial hrun
  clear hrun
  induction count generalizing state with
  | zero => exact ⟨state, rfl, hrest, rfl, List.Subset.refl _, fun _ => .inl⟩
  | succ count ih =>
      obtain ⟨middle, hpass, hmiddle, hplace, hsubset, hlength, hgrows, htakes⟩ :=
        @pass_taken _ now _ _ limits hstate hrest hdue htaken
      obtain ⟨final, hpasses, hfinal, hcount, hlater, hkept⟩ := ih hplace
        (fun row hrow => hdue row (hsubset hrow)) (fun row hrow => htaken row (hsubset hrow))
        hmiddle
      refine ⟨final, ?_, hfinal, ?_, List.Subset.trans hgrows hlater, fun id hid => ?_⟩
      · rw [passes, hpass]
        exact hpasses
      · rw [hcount, hlength, Nat.sub_sub, Nat.mul_succ, Nat.add_comm]
      · rcases htakes id hid with hpending | hingested
        · exact hkept id hpending
        · exact .inr (hlater hingested)

end Results

namespace Sample

/-- The relay with one delivery, and the row of it. -/
def received : Pipeline := Pipeline.initial.receive .default synchronizeRequest 1

def receivedRow : InboxRow := Inbox.newRow synchronizeDelivery 1

theorem run_received :
    run (step .default) .initial [.receive synchronizeRequest 1] = some received := rfl

theorem received_rests : received.forwarder = .sending [] := by
  rw [received, receive, synchronize_accepted]
  rfl

theorem received_pending : received.inbox.pending = [receivedRow] := by
  rw [received, receive, synchronize_accepted]
  rfl

theorem receivedRow_taken : ∀ row ∈ received.inbox.pending, ∀ delivery,
    Inbox.InboxRow.toForwarded row = .ok delivery → delivery.IsTaken := by
  rw [received_pending]
  intro row hrow delivery hread
  rw [List.mem_singleton.mp hrow] at hread
  cases hread
  decide +kernel

end Sample

open Webhook.Sample

theorem webhook_handed_over : ∃ (batch : List ForwardedWebhook) (final : Pipeline),
    batch.length = 1 ∧
    forwardPendingOnce .default 2 received = some final ∧
    ∀ delivery ∈ batch, delivery.IsTaken → delivery.deliveryId ∈ final.ingested := by
  have hleft : received.AttemptsLeft := by
    intro row hrow delivery hread hrefused
    exact absurd (receivedRow_taken row hrow delivery hread) hrefused
  obtain ⟨batch, final, -, hlength, hpass, -, -, hingested⟩ :=
    forward_pending_once run_received received_rests hleft 2
  refine ⟨batch, final, hlength.trans ?_, hpass, hingested⟩
  rw [received_pending]
  rfl

theorem webhook_drained : ∃ final, passes .default 2 1 received = some final ∧
    final.inbox.pending = [] ∧ "delivery-1" ∈ final.ingested := by
  have hdue : ∀ row ∈ received.inbox.pending, Inbox.IsDue row 2 := by
    rw [received_pending]
    intro row hrow
    rw [List.mem_singleton.mp hrow]
    rintro _ ⟨⟩
  obtain ⟨final, hpasses, -, hlength, -, hkept⟩ :=
    inbox_drains run_received received_rests hdue receivedRow_taken 1
  rw [received_pending] at hlength
  have hnone : final.inbox.pending = [] := List.length_eq_zero_iff.mp hlength
  refine ⟨final, hpasses, hnone, ?_⟩
  have hid : "delivery-1" ∈ received.inbox.pendingIds := by
    rw [Inbox.pendingIds, received_pending]
    exact List.mem_cons_self
  rcases hkept _ hid with hpending | hingested
  · rw [Inbox.pendingIds, hnone] at hpending
    exact absurd hpending List.not_mem_nil
  · exact hingested

end Patchwright.Webhook
