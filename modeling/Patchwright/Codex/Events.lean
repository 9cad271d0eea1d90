import Patchwright.Engine.Store

/-!
# Events of the app-server

What the service keeps of a message: a kind, a fixed summary, the identities
the message names and, for some kinds, a text of the server.  The text is cut
to a length and replaced where it looks like a credential.  The store checks
the result once more before it records it.
-/

namespace Patchwright

open Checked

def stringField (value : Json) (field : String) : Option String :=
  (value.get? field).bind Json.asStr?

section Content

def sensitiveMarkers : List String :=
  ["authorization: bearer ", "bearer ", "gho_", "ghp_", "ghs_", "github_pat_", "sk-", "xoxb-",
    "xoxp-", "token=", "secret=", "password=", "-----begin private key-----",
    "-----begin rsa private key-----", "-----begin openssh private key-----"]

def containsSensitiveContent (value : String) : Bool := containsMarker value sensitiveMarkers

def maxInputBytes : Nat := 64 * 1024

/-- The text, without what does not fit.  A character is kept whole or not at all. -/
def boundedContent (value : String) : String :=
  if containsSensitiveContent value then "[REDACTED]"
  else if value.utf8ByteSize ≤ maxInputBytes then value
  else String.ofList (takeBytes maxInputBytes value.toList)

/-- The text of an item that has ended, by the type of the item. -/
def completedItemContent (item : Json) : Option String :=
  match stringField item "type" with
  | none => none
  | some "agentMessage" => stringField item "text"
  | some "plan" => stringField item "text"
  | some "reasoning" => ((item.get? "summary").bind Json.asArr?).map fun parts =>
      "\n".intercalate (parts.filterMap Json.asStr?)
  | some "commandExecution" =>
      (stringField item "aggregatedOutput").or (stringField item "command")
  | some "fileChange" => (item.get? "changes").map Json.compact
  | some itemType => some itemType

/-- Kind, summary and text of a message, if messages of its method are kept. -/
def eventContent (method : String) (params : Json) : Option (String × String × Option String) :=
  match method with
  | "item/agentMessage/delta" =>
      some ("textDelta", "Codex response streamed", stringField params "delta")
  | "item/reasoning/summaryTextDelta" =>
      some ("reasoningDelta", "Codex reasoning streamed", stringField params "delta")
  | "item/reasoning/textDelta" =>
      some ("reasoningDelta", "Codex reasoning streamed", stringField params "delta")
  | "item/commandExecution/outputDelta" =>
      some ("commandOutputDelta", "Command output streamed", stringField params "delta")
  | "item/fileChange/outputDelta" =>
      some ("fileChangeDelta", "File change streamed", stringField params "delta")
  | "item/started" => (params.get? "item").map fun item =>
      ("itemStarted", "Codex item started", some ((stringField item "type").getD "unknown"))
  | "item/completed" => (params.get? "item").map fun item =>
      ("itemCompleted", "Codex item completed", completedItemContent item)
  | "turn/completed" =>
      some ("turnCompleted", "Codex turn completed",
        (params.get? "turn").bind fun turn => stringField turn "status")
  | "error" =>
      some ("error", "Codex turn failed",
        (params.get? "error").bind fun error => stringField error "message")
  | _ => none

end Content

section Normalize

/-- A text in the field itself, or else in a field of an inner object. -/
def fieldOrInner (params : Json) (field outer inner : String) : Option String :=
  (stringField params field).or ((params.get? outer).bind fun value => stringField value inner)

def messageThreadId (params : Json) : Option String := stringField params "threadId"

def messageTurnId (params : Json) : Option String := fieldOrInner params "turnId" "turn" "id"

def messageItemId (params : Json) : Option String := fieldOrInner params "itemId" "item" "id"

/-- The event of a message, whether the message is a notification or a request. -/
def normalizeEvent (raw : Json) : Option CodexEventDraft := do
  let method ← stringField raw "method"
  let params ← raw.get? "params"
  let (kind, summary, content) ← eventContent method params
  return {
    kind, summary, threadId := messageThreadId params, turnId := messageTurnId params
    itemId := messageItemId params, content := content.map boundedContent }

end Normalize

/-! ### What the store accepts -/

section Stored

/-- The condition on an identity that the store accepts. -/
def IsCodexIdentity (value : String) : Prop :=
  value ≠ "" ∧ value.utf8ByteSize ≤ 256 ∧ ¬ value.toList.any isControl

/-- The condition on a text of the server: it is replaced, or has no NUL in the
part of it that is kept. -/
def IsStorableText (text : String) : Prop :=
  containsSensitiveContent text ∨ ¬ NulWithin maxInputBytes text.toList

theorem validateOptional_eq_ok {value : Option String} {field : String} :
    validateOptional value field = .ok () ↔ ∀ id ∈ value, IsCodexIdentity id := by
  cases value with
  | none => exact iff_of_true rfl fun _ hnone => absurd hnone (Option.not_mem_none _)
  | some id =>
      rw [validateOptional, validateCodexIdentity, ensure_eq_ok]
      constructor
      · rintro hid _ ⟨⟩
        exact hid
      · exact fun hall => hall id rfl

theorem validateCodexEventContent_eq_ok {text stored : String} :
    validateCodexEventContent text = .ok stored ↔
      (text.utf8ByteSize ≤ 64 * 1024 ∧ '\x00' ∉ text.toList) ∧ text = stored := by
  simp only [validateCodexEventContent, bind_eq_ok, ensure_eq_ok, pure_eq_ok, exists_const]

theorem boundedContent_valid_iff (text : String) :
    (∃ stored, validateCodexEventContent (boundedContent text) = .ok stored) ↔
      IsStorableText text := by
  simp only [validateCodexEventContent_eq_ok, exists_and_left, exists_eq', and_true]
  rw [boundedContent, IsStorableText]
  by_cases hsensitive : containsSensitiveContent text
  · rw [if_pos hsensitive]
    exact iff_of_true (by decide) (.inl hsensitive)
  · rw [if_neg hsensitive, or_iff_right hsensitive]
    split
    · rename_i hshort
      have hlen : String.utf8Len text.toList ≤ maxInputBytes := by
        rwa [← String.utf8ByteSize_ofList, String.ofList_toList]
      rw [nul_mem_iff_of_le hlen]
      exact and_iff_right hshort
    · rw [String.toList_ofList, String.utf8ByteSize_ofList, nul_mem_takeBytes]
      exact and_iff_right (utf8Len_takeBytes_le maxInputBytes text.toList)

/-- What the store accepts of an event. -/
theorem appendCodexEvent_accepts_iff (store : EventStore) (session : CodexSessionRecord)
    (draft : CodexEventDraft) (now : DateTime) :
    (∃ stored, store.appendCodexEvent session draft now = .ok stored) ↔
      (∃ kind, validateCodexEventKind draft.kind = .ok kind) ∧
      (∃ summary, validateSummary draft.summary = .ok summary) ∧
      (∃ content, draft.content.mapM validateCodexEventContent = .ok content) ∧
      (∀ id ∈ draft.threadId, IsCodexIdentity id) ∧
      (∀ id ∈ draft.turnId, IsCodexIdentity id) ∧
      ∀ id ∈ draft.itemId, IsCodexIdentity id := by
  simp only [EventStore.appendCodexEvent, bind_eq_ok, mapError_eq_ok, pure_eq_ok]
  constructor
  · rintro ⟨stored, kind, hkind, summary, hsummary, content, hcontent, _, hthread, _, hturn, _, hitem,
      -⟩
    exact ⟨⟨kind, hkind⟩, ⟨summary, hsummary⟩, ⟨content, hcontent⟩,
      validateOptional_eq_ok.1 hthread, validateOptional_eq_ok.1 hturn,
      validateOptional_eq_ok.1 hitem⟩
  · rintro ⟨⟨kind, hkind⟩, ⟨summary, hsummary⟩, ⟨content, hcontent⟩, hthread, hturn, hitem⟩
    exact ⟨_, kind, hkind, summary, hsummary, content, hcontent,
      (), validateOptional_eq_ok.2 hthread, (), validateOptional_eq_ok.2 hturn,
      (), validateOptional_eq_ok.2 hitem, rfl⟩

/-- The kinds and summaries of messages that are kept. -/
def eventLabels : List (String × String) :=
  [("textDelta", "Codex response streamed"), ("reasoningDelta", "Codex reasoning streamed"),
    ("commandOutputDelta", "Command output streamed"), ("fileChangeDelta", "File change streamed"),
    ("itemStarted", "Codex item started"), ("itemCompleted", "Codex item completed"),
    ("turnCompleted", "Codex turn completed"), ("error", "Codex turn failed")]

theorem eventContent_label {method : String} {params : Json} {kind summary : String}
    {content : Option String} (hcontent : eventContent method params = some (kind, summary, content)) :
    (kind, summary) ∈ eventLabels := by
  unfold eventContent at hcontent
  split at hcontent
  all_goals
    simp only [Option.map_eq_some_iff, Option.some.injEq, Prod.mk.injEq, reduceCtorEq] at hcontent
  case h_6 =>
    rcases hcontent with ⟨item, -, rfl, rfl, -⟩
    decide
  case h_7 =>
    rcases hcontent with ⟨item, -, rfl, rfl, -⟩
    decide
  all_goals
    rcases hcontent with ⟨rfl, rfl, -⟩
    decide

theorem eventLabels_valid : ∀ label ∈ eventLabels,
    validateCodexEventKind label.1 = .ok label.1 ∧ validateSummary label.2 = .ok label.2 := by
  decide

theorem bounded_mapM_eq_ok (content : Option String) :
    (∃ stored, (content.map boundedContent).mapM validateCodexEventContent = .ok stored) ↔
      ∀ text ∈ content, IsStorableText text := by
  cases content with
  | none => exact iff_of_true ⟨none, rfl⟩ fun _ hnone => absurd hnone (Option.not_mem_none _)
  | some text =>
      have hmapM : (Option.map boundedContent (some text)).mapM validateCodexEventContent =
          some <$> validateCodexEventContent (boundedContent text) := rfl
      simp only [hmapM, map_eq_ok]
      constructor
      · rintro ⟨_, stored, hstored, rfl⟩ _ ⟨⟩
        exact (boundedContent_valid_iff text).mp ⟨stored, hstored⟩
      · intro hall
        rcases (boundedContent_valid_iff text).mpr (hall text rfl) with ⟨stored, hstored⟩
        exact ⟨some stored, stored, hstored, rfl⟩

/-- What the identities and the text of a message have to be like for the store
to accept its event. -/
structure IsStorable (method : String) (params : Json) : Prop where
  thread : ∀ id ∈ messageThreadId params, IsCodexIdentity id
  turn : ∀ id ∈ messageTurnId params, IsCodexIdentity id
  item : ∀ id ∈ messageItemId params, IsCodexIdentity id
  content : ∀ label ∈ eventContent method params, ∀ text ∈ label.2.2, IsStorableText text

/-- The store accepts the event of a message exactly when it is storable. -/
theorem appendCodexEvent_normalized_iff {raw params : Json} {method : String}
    {draft : CodexEventDraft} (hmethod : stringField raw "method" = some method)
    (hparams : raw.get? "params" = some params) (hdraft : normalizeEvent raw = some draft)
    (store : EventStore) (session : CodexSessionRecord) (now : DateTime) :
    (∃ stored, store.appendCodexEvent session draft now = .ok stored) ↔
      IsStorable method params := by
  simp only [normalizeEvent, hmethod, hparams, Option.bind_eq_bind, Option.bind_some,
    Option.bind_eq_some_iff] at hdraft
  rcases hdraft with ⟨⟨kind, summary, content⟩, hcontent, hdraft⟩
  cases hdraft
  have hlabel := eventLabels_valid _ (eventContent_label hcontent)
  rw [appendCodexEvent_accepts_iff]
  constructor
  · rintro ⟨-, -, htext, hthread, hturn, hitem⟩
    refine ⟨hthread, hturn, hitem, ?_⟩
    rintro label hmem
    cases hcontent.symm.trans hmem
    exact (bounded_mapM_eq_ok content).mp htext
  · intro hstorable
    exact ⟨⟨_, hlabel.1⟩, ⟨_, hlabel.2⟩,
      (bounded_mapM_eq_ok content).mpr (hstorable.content _ hcontent),
      hstorable.thread, hstorable.turn, hstorable.item⟩

end Stored

end Patchwright
