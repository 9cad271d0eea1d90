import Patchwright.Codex.Connection

/-!
# Content of the server

A line goes through three filters: the decoder, the normalizer and the store.
Where the first two let a line through, the third can still refuse its event,
and then the caller who pumps the connection takes the process for crashed.
-/

namespace Patchwright

open Checked
open Protocol (ServerLine IncomingMessage)

/-- The store accepts the event of the message, by the fields of the message. -/
def IsStorableMessage (raw : Json) : Prop :=
  ∃ method params, stringField raw "method" = some method ∧ raw.get? "params" = some params ∧
    IsStorable method params

/-- The event ends a turn that is not the active one. -/
def ActiveCodex.Ignores (active : ActiveCodex) (draft : CodexEventDraft) : Prop :=
  draft.completed ∧ ¬ active.worksOn draft.threadId draft.turnId

section Refusals

variable {ambient : Ambient} {draws : Draws} {store : EventStore}
variable {connection received : Connection} {line : ServerLine} {raw : Json}
variable {message : IncomingMessage} {draft : CodexEventDraft}

theorem appendCodexEvent_message_iff (hdraft : normalizeEvent raw = some draft) (store : EventStore)
    (session : CodexSessionRecord) (now : DateTime) :
    (∃ stored, store.appendCodexEvent session draft now = .ok stored) ↔
      IsStorableMessage raw := by
  obtain ⟨method, hmethod, hrest⟩ := Option.bind_eq_some_iff.mp hdraft
  obtain ⟨params, hparams, -⟩ := Option.bind_eq_some_iff.mp hrest
  rw [appendCodexEvent_normalized_iff hmethod hparams hdraft]
  constructor
  · exact fun hstorable => ⟨method, params, hmethod, hparams, hstorable⟩
  · rintro ⟨again, same, hagain, hsame, hstorable⟩
    cases hmethod.symm.trans hagain
    cases hparams.symm.trans hsame
    exact hstorable

theorem persistApproval_not_persistence (error : String) :
    (persistApproval draws store connection message).outcome ≠ .error (.persistence error) := by
  unfold persistApproval
  split
  next request =>
    split
    next failure hfailure =>
      intro houtcome
      rw [Except.error.injEq] at houtcome
      subst houtcome
      revert hfailure
      unfold normalizeApproval
      split <;> simp [bind_eq_error]
    next => rintro ⟨⟩
    next => rintro ⟨⟩
  next => rintro ⟨⟩

theorem persistCompletion_not_persistence (error : String) :
    (persistCompletion ambient draws store connection message).outcome ≠
      .error (.persistence error) := by
  unfold persistCompletion
  dsimp only
  split
  next => exact nofun
  next => exact persistApproval_not_persistence error

/-- The store refuses a line that is kept exactly when it refuses its event. -/
theorem pumpLine_persistence_iff
    (hreceived : connection.receive line = (received, .ok (raw, message)))
    (hdraft : normalizeEvent raw = some draft) :
    (∃ error, (pumpLine ambient draws store connection line).outcome =
        .error (.persistence error)) ↔
      ¬ connection.Ignores draft ∧
        ¬ ∃ stored, store.appendCodexEvent connection.session draft draws.now = .ok stored := by
  have hactive : received.toActiveCodex = connection.toActiveCodex := by
    have hsame := receive_active connection line
    rwa [hreceived] at hsame
  rw [pumpLine, hreceived]
  dsimp only
  rw [persistIncoming_draft (receive_not_response hreceived hdraft) hdraft, hactive]
  unfold ActiveCodex.Ignores
  by_cases hignores : draft.completed ∧ ¬ connection.worksOn draft.threadId draft.turnId
  · rw [if_pos hignores]
    exact iff_of_false (fun ⟨_, herror⟩ => nomatch herror) fun hboth => hboth.1 hignores
  · rw [if_neg hignores]
    cases happend : store.appendCodexEvent connection.session draft draws.now with
    | error error =>
        exact iff_of_true ⟨error, rfl⟩ ⟨hignores, fun ⟨_, hstored⟩ => nomatch hstored⟩
    | ok stored =>
        refine iff_of_false ?_ fun hboth => hboth.2 ⟨stored, rfl⟩
        rintro ⟨error, herror⟩
        dsimp only at herror
        split at herror
        · exact persistCompletion_not_persistence error herror
        · exact persistApproval_not_persistence error herror

end Refusals

/-- The store accepts the event of a line that the decoder accepts and the
normalizer keeps exactly when its identities are short texts without control
characters and its text is replaced or has no NUL in the part that is kept; and
a refusal by the store is what makes such a line fail, unless it ends a turn
that is not the active one. -/
theorem serverContent_accepted_iff {connection received : Connection} {line : ServerLine}
    {raw : Json} {message : IncomingMessage} {draft : CodexEventDraft}
    (hreceived : connection.receive line = (received, .ok (raw, message)))
    (hdraft : normalizeEvent raw = some draft) (ambient : Ambient) (draws : Draws)
    (store : EventStore) :
    ((∃ stored, store.appendCodexEvent connection.session draft draws.now = .ok stored) ↔
        IsStorableMessage raw) ∧
      ((∃ error, (pumpLine ambient draws store connection line).outcome =
          .error (.persistence error)) ↔
        ¬ connection.Ignores draft ∧ ¬ IsStorableMessage raw) := by
  have hstored := appendCodexEvent_message_iff hdraft store connection.session draws.now
  refine ⟨hstored, ?_⟩
  rw [pumpLine_persistence_iff hreceived hdraft, hstored]

namespace Sample

def connection : Connection where
  session := session
  activeTurnId := some "turn-1"
  executionJobId := executionJobId
  decoder := .new
  nextRequestId := 5
  clientMessageIds := {"message-1"}
  interruptSent := false

def deltaMessage (text : String) : Json :=
  .obj [("method", .str "item/agentMessage/delta"), ("params", .obj [("delta", .str text)])]

/-- A piece of a response, with a NUL or without. -/
def deltaLine (length : Nat) (text : String) : ServerLine := ⟨length, .ok (deltaMessage text)⟩

def deltaEvent : IncomingMessage := .event (.unsupported "item/agentMessage/delta")

def deltaDraft (text : String) : CodexEventDraft :=
  ⟨"textDelta", "Codex response streamed", none, none, none, some text⟩

end Sample

open Sample

/-- A piece of a response with a NUL in it is decoded and kept, and then fails. -/
theorem nulDelta_refused :
    connection.receive (deltaLine 64 "\x00") = (connection, .ok (deltaMessage "\x00", deltaEvent)) ∧
      normalizeEvent (deltaMessage "\x00") = some (deltaDraft "\x00") ∧
      (store .implementing).appendCodexEvent session (deltaDraft "\x00") 0 =
        .error "invalid Codex event content" ∧
      (pumpLine ambient draws (store .implementing) connection (deltaLine 64 "\x00")).outcome =
        .error (.persistence "invalid Codex event content") := by
  refine ⟨rfl, rfl, rfl, ?_⟩
  decide

/-- Without the NUL it is stored, and its message is the storable one. -/
theorem doneDelta_stored :
    IsStorableMessage (deltaMessage "done") ∧
      ∃ stored, (store .implementing).appendCodexEvent session (deltaDraft "done") 0 =
        .ok stored := by
  have hreceived : connection.receive (deltaLine 62 "done") =
      (connection, .ok (deltaMessage "done", deltaEvent)) := rfl
  have hstored : ∃ stored, (store .implementing).appendCodexEvent session (deltaDraft "done") 0 =
      .ok stored := ⟨_, rfl⟩
  exact ⟨(serverContent_accepted_iff hreceived rfl ambient draws (store .implementing)).1.mp hstored,
    hstored⟩

end Patchwright
