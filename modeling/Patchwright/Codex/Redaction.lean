import Patchwright.Codex.Content
import Patchwright.Codex.EventLog
import Patchwright.Library.Blocks

/-!
# Redaction of streamed text

An item streams its text in pieces, and each piece is an event of its own that
is searched for credentials on its own.  No stored event shows one.  The pieces
together show one exactly when consecutive pieces that are all harmless spell
it.
-/

namespace Patchwright

open Checked Blocks NumberedLog
open Protocol (IncomingMessage)

/-! ### One text -/

section Texts

/-- The letters of a text that are kept, in lower case. -/
def keptLetters (text : String) : List Char :=
  toAsciiLowercase (takeBytes maxInputBytes text.toList)

/-- A marker is spelled by consecutive texts, none of which has a marker of its
own. -/
def SpelledAcross (texts : List String) : Prop :=
  ∃ marker ∈ sensitiveMarkers, ∃ run, run <:+: texts ∧
    (∀ text ∈ run, ¬ containsSensitiveContent text) ∧
    Spans marker.toList (run.map keptLetters)

theorem takeBytes_isPrefix (limit : Nat) (chars : List Char) : takeBytes limit chars <+: chars := by
  induction chars generalizing limit with
  | nil => exact List.nil_prefix
  | cons char chars ih =>
      rw [takeBytes]
      split
      · exact (List.cons_prefix_cons).mpr ⟨rfl, ih _⟩
      · exact List.nil_prefix

theorem takeBytes_of_le {limit : Nat} {chars : List Char} (hlen : String.utf8Len chars ≤ limit) :
    takeBytes limit chars = chars := by
  induction chars generalizing limit with
  | nil => rfl
  | cons char chars ih =>
      rw [String.utf8Len_cons] at hlen
      rw [takeBytes, if_pos (by omega), ih (by omega)]

theorem containsSensitiveContent_iff (text : String) :
    containsSensitiveContent text ↔
      ∃ marker ∈ sensitiveMarkers, marker.toList <:+: toAsciiLowercase text.toList := by
  rw [containsSensitiveContent, containsMarker, List.any_eq_true]
  simp only [decide_eq_true_iff]

theorem sensitiveMarkers_ne_nil : ∀ marker ∈ sensitiveMarkers, marker.toList ≠ [] := by
  decide

theorem sensitiveMarkers_brackets :
    ∀ marker ∈ sensitiveMarkers, '[' ∉ marker.toList ∧ ']' ∉ marker.toList := by
  decide

/-- The text that takes the place of a credential is in no run that spells a
marker. -/
theorem redacted_notMem {marker : String} {run : List (List Char)}
    (hmarker : marker ∈ sensitiveMarkers) (hspans : Spans marker.toList run) :
    toAsciiLowercase "[REDACTED]".toList ∉ run := by
  have hfirst : (toAsciiLowercase "[REDACTED]".toList).head? = some '[' := by decide
  have hlast : (toAsciiLowercase "[REDACTED]".toList).getLast? = some ']' := by decide
  apply hspans.notMem
  · decide
  · rw [hfirst]
    rintro letter ⟨⟩
    exact (sensitiveMarkers_brackets marker hmarker).1
  · rw [hlast]
    rintro letter ⟨⟩
    exact (sensitiveMarkers_brackets marker hmarker).2

theorem boundedContent_of_harmless {text : String} (hharmless : ¬ containsSensitiveContent text) :
    toAsciiLowercase (boundedContent text).toList = keptLetters text := by
  rw [boundedContent, if_neg hharmless, keptLetters]
  split
  · rename_i hshort
    rw [takeBytes_of_le]
    rwa [← String.utf8ByteSize_ofList, String.ofList_toList]
  · rw [String.toList_ofList]

/-- What is stored of one text shows no marker. -/
theorem boundedContent_clean (text : String) : ¬ containsSensitiveContent (boundedContent text) := by
  by_cases hsensitive : containsSensitiveContent text
  · rw [boundedContent, if_pos hsensitive]
    decide
  · rw [containsSensitiveContent_iff, boundedContent_of_harmless hsensitive]
    rintro ⟨marker, hmarker, hin⟩
    have hkept : keptLetters text <+: toAsciiLowercase text.toList :=
      (takeBytes_isPrefix maxInputBytes text.toList).map _
    exact hsensitive ((containsSensitiveContent_iff text).mpr
      ⟨marker, hmarker, hin.trans hkept.isInfix⟩)

/-- What is stored of some texts, one after another, shows a marker exactly when
consecutive texts spell it. -/
theorem join_boundedContent_iff (texts : List String) :
    containsSensitiveContent (String.join (texts.map boundedContent)) ↔ SpelledAcross texts := by
  have hjoin : toAsciiLowercase (String.join (texts.map boundedContent)).toList =
      (texts.map fun text => toAsciiLowercase (boundedContent text).toList).flatten := by
    rw [String.toList_join, List.flatMap_map, toAsciiLowercase, List.map_flatMap]
    rfl
  rw [containsSensitiveContent_iff, hjoin]
  refine exists_congr fun marker => and_congr_right fun hmarker => ?_
  rw [infix_flatten_iff (sensitiveMarkers_ne_nil marker hmarker), or_iff_right]
  · constructor
    · rintro ⟨_, hrun, hspans⟩
      obtain ⟨run, htexts, rfl⟩ := List.infix_map_iff.mp hrun
      have hharmless : ∀ text ∈ run, ¬ containsSensitiveContent text := by
        intro text htext hsensitive
        apply redacted_notMem hmarker hspans
        refine List.mem_map.mpr ⟨text, htext, ?_⟩
        rw [boundedContent, if_pos hsensitive]
      refine ⟨run, htexts, hharmless, ?_⟩
      rwa [List.map_congr_left fun text htext => boundedContent_of_harmless (hharmless text htext)]
        at hspans
    · rintro ⟨run, htexts, hharmless, hspans⟩
      refine ⟨_, htexts.map _, ?_⟩
      rwa [List.map_congr_left fun text htext => boundedContent_of_harmless (hharmless text htext)]
  · rintro ⟨block, hblock, hin⟩
    obtain ⟨text, -, rfl⟩ := List.mem_map.mp hblock
    exact boundedContent_clean text
      ((containsSensitiveContent_iff _).mpr ⟨marker, hmarker, hin⟩)

end Texts

/-! ### Appended events -/

namespace EventStore

/-- The second store has some more events than the first, all of one task and
numbered behind the others of the task. -/
structure Extends (first next : EventStore) (taskId : TaskId) (events : List CodexEventRecord) :
    Prop where
  codexEvents : next.codexEvents = first.codexEvents ++ events
  task : ∀ event ∈ events, event.taskId = taskId
  numbers : events.map CodexEventRecord.sequence =
    List.range' (first.nextSequence taskId) events.length

section Extending

variable {first next last : EventStore} {taskId : TaskId} {events more : List CodexEventRecord}

theorem Extends.nil (hsame : next.codexEvents = first.codexEvents) : Extends first next taskId [] where
  codexEvents := by rw [hsame, List.append_nil]
  task _ hevent := absurd hevent List.not_mem_nil
  numbers := rfl

theorem Extends.codexLog (hextends : Extends first next taskId events) :
    next.codexLog taskId = first.codexLog taskId ++ events := by
  rw [EventStore.codexLog, hextends.codexEvents, List.filter_append, EventStore.codexLog,
    List.filter_eq_self.mpr fun event hevent => decide_eq_true (hextends.task event hevent)]

theorem Extends.nextSequence (hextends : Extends first next taskId events) :
    next.nextSequence taskId = first.nextSequence taskId + events.length := by
  have hgreatest : greatest CodexEventRecord.sequence events =
      if events.length = 0 then 0 else first.nextSequence taskId - 1 + events.length := by
    rw [greatest, hextends.numbers, nextSequence_eq, foldr_max_range', Nat.add_sub_cancel]
  rw [nextSequence_eq, hextends.codexLog, greatest_append, hgreatest]
  rw [nextSequence_eq, Nat.add_sub_cancel]
  split
  · omega
  · omega

theorem Extends.trans (hextends : Extends first next taskId events)
    (hmore : Extends next last taskId more) : Extends first last taskId (events ++ more) where
  codexEvents := by rw [hmore.codexEvents, hextends.codexEvents, List.append_assoc]
  task event hevent := (List.mem_append.mp hevent).elim (hextends.task event) (hmore.task event)
  numbers := by
    rw [List.map_append, hextends.numbers, hmore.numbers, hextends.nextSequence,
      List.length_append, List.range'_append_1]

/-- The events of the task after those of the first store. -/
theorem Extends.codexEventsAfter (hextends : Extends first next taskId events) :
    next.codexEventsAfter taskId (first.nextSequence taskId - 1) = events := by
  have hearlier : (first.codexEvents.filter fun event => event.taskId = taskId ∧
      first.nextSequence taskId - 1 < event.sequence) = [] := by
    rw [List.filter_eq_nil_iff]
    intro event hevent hlater
    rw [decide_eq_true_iff] at hlater
    have hle : event.sequence ≤ greatest CodexEventRecord.sequence (first.codexLog taskId) :=
      le_greatest (List.mem_filter.mpr ⟨hevent, decide_eq_true hlater.1⟩)
    rw [nextSequence_eq] at hlater
    omega
  have hlater : (events.filter fun event => event.taskId = taskId ∧
      first.nextSequence taskId - 1 < event.sequence) = events := by
    rw [List.filter_eq_self]
    intro event hevent
    have hnumber : event.sequence ∈ events.map CodexEventRecord.sequence :=
      List.mem_map_of_mem hevent
    rw [hextends.numbers, List.mem_range'_1, nextSequence_eq] at hnumber
    rw [nextSequence_eq]
    exact decide_eq_true ⟨hextends.task event hevent, by omega⟩
  have hsorted : (events.map CodexEventRecord.sequence).Pairwise (· ≤ ·) := by
    rw [hextends.numbers]
    exact List.pairwise_le_range' _
  rw [EventStore.codexEventsAfter, hextends.codexEvents, List.filter_append, hearlier, hlater,
    List.nil_append, List.mergeSort_of_pairwise]
  exact (List.pairwise_map.mp hsorted).imp fun hle => decide_eq_true hle

end Extending

end EventStore

/-! ### Messages of the server -/

def deltaMethods : List String :=
  ["item/agentMessage/delta", "item/reasoning/summaryTextDelta", "item/reasoning/textDelta",
    "item/commandExecution/outputDelta", "item/fileChange/outputDelta"]

def deltaKinds : List String :=
  ["textDelta", "reasoningDelta", "commandOutputDelta", "fileChangeDelta"]

instance (limit : Nat) (chars : List Char) : Decidable (NulWithin limit chars) :=
  decidable_of_iff _ nul_mem_takeBytes

instance (value : String) : Decidable (IsCodexIdentity value) :=
  inferInstanceAs (Decidable (_ ∧ _ ∧ _))

instance (text : String) : Decidable (IsStorableText text) :=
  inferInstanceAs (Decidable (_ ∨ _))

instance (method : String) (params : Json) : Decidable (IsStorable method params) :=
  decidable_of_iff (_ ∧ _ ∧ _ ∧ _)
    ⟨fun ⟨hthread, hturn, hitem, hcontent⟩ => ⟨hthread, hturn, hitem, hcontent⟩,
      fun hstorable => ⟨hstorable.thread, hstorable.turn, hstorable.item, hstorable.content⟩⟩

/-- A message that has come in, and what the service draws while it handles it. -/
structure Received where
  draws : Draws
  raw : Json
  message : IncomingMessage

/-- The text of a delta of the item, if the message is one that the store
accepts. -/
def Received.storedDelta (itemId : String) (received : Received) : Option String :=
  match received.message with
  | .response _ => none
  | _ => do
      let method ← stringField received.raw "method"
      let params ← received.raw.get? "params"
      if method ∈ deltaMethods ∧ messageItemId params = some itemId ∧ IsStorable method params then
        stringField params "delta"
      else none

/-- Handle the messages one after another, also past one that fails. -/
def persistAll (ambient : Ambient) (store : EventStore) (connection : Connection) :
    List Received → EventStore × Connection
  | [] => (store, connection)
  | received :: rest =>
      let worked :=
        persistIncoming ambient received.draws store connection received.raw received.message
      persistAll ambient worked.store worked.connection rest

namespace CodexEventRecord

def isDeltaOf (itemId : String) (event : CodexEventRecord) : Bool :=
  event.kind ∈ deltaKinds ∧ event.itemId = some itemId

def isCompletionOf (itemId : String) (event : CodexEventRecord) : Bool :=
  event.kind = "itemCompleted" ∧ event.itemId = some itemId

end CodexEventRecord

/-- The texts of the deltas of the item, in the order of the events. -/
def deltaContents (itemId : String) (events : List CodexEventRecord) : List String :=
  (events.filter (·.isDeltaOf itemId)).filterMap CodexEventRecord.content

/-- Neither the deltas of the item together nor the event of its end show a
credential. -/
def IsRedacted (itemId : String) (events : List CodexEventRecord) : Prop :=
  ¬ containsSensitiveContent (String.join (deltaContents itemId events)) ∧
    ∀ event ∈ events, event.isCompletionOf itemId →
      ∀ content ∈ event.content, ¬ containsSensitiveContent content

/-! ### One message -/

section Messages

variable {ambient : Ambient} {draws : Draws} {store next : EventStore} {connection : Connection}
variable {raw params : Json} {message : IncomingMessage} {draft : CodexEventDraft}
variable {method kind summary itemId : String} {content : Option String}

theorem normalizeEvent_eq_some : normalizeEvent raw = some draft ↔
    ∃ method params kind summary content, stringField raw "method" = some method ∧
      raw.get? "params" = some params ∧
      eventContent method params = some (kind, summary, content) ∧
      draft = ⟨kind, summary, messageThreadId params, messageTurnId params, messageItemId params,
        content.map boundedContent⟩ := by
  simp only [normalizeEvent, Option.bind_eq_bind, Option.bind_eq_some_iff, Option.pure_def,
    Option.some.injEq]
  constructor
  · rintro ⟨method, hmethod, params, hparams, ⟨kind, summary, content⟩, hcontent, rfl⟩
    exact ⟨method, params, kind, summary, content, hmethod, hparams, hcontent, rfl⟩
  · rintro ⟨method, params, kind, summary, content, hmethod, hparams, hcontent, rfl⟩
    exact ⟨method, hmethod, params, hparams, (kind, summary, content), hcontent, rfl⟩

/-- The deltas among the messages that are kept are those of the delta kinds. -/
theorem eventContent_delta (hcontent : eventContent method params = some (kind, summary, content)) :
    (kind ∈ deltaKinds ↔ method ∈ deltaMethods) ∧
      (method ∈ deltaMethods → content = stringField params "delta") := by
  unfold eventContent at hcontent
  split at hcontent
  all_goals
    simp only [Option.map_eq_some_iff, Option.some.injEq, Prod.mk.injEq, reduceCtorEq] at hcontent
  case h_6 =>
    obtain ⟨item, -, rfl, rfl, -⟩ := hcontent
    exact ⟨by decide, fun hdelta => absurd hdelta (by decide)⟩
  case h_7 =>
    obtain ⟨item, -, rfl, rfl, -⟩ := hcontent
    exact ⟨by decide, fun hdelta => absurd hdelta (by decide)⟩
  case h_8 =>
    obtain ⟨rfl, rfl, -⟩ := hcontent
    exact ⟨by decide, fun hdelta => absurd hdelta (by decide)⟩
  case h_9 =>
    obtain ⟨rfl, rfl, -⟩ := hcontent
    exact ⟨by decide, fun hdelta => absurd hdelta (by decide)⟩
  all_goals
    obtain ⟨rfl, rfl, rfl⟩ := hcontent
    exact ⟨by decide, fun _ => rfl⟩

theorem eventContent_of_delta (hdelta : method ∈ deltaMethods) (params : Json) :
    ∃ kind summary, eventContent method params = some (kind, summary, stringField params "delta") := by
  simp only [deltaMethods, List.mem_cons, List.not_mem_nil, or_false] at hdelta
  rcases hdelta with rfl | rfl | rfl | rfl | rfl
  all_goals exact ⟨_, _, rfl⟩

theorem completeTurn_codexEvents {taskId : TaskId} {checkpointId : Uuid}
    (hcomplete : completeTurn ambient store taskId checkpointId = .ok next) :
    next.codexEvents = store.codexEvents := by
  simp only [completeTurn, bind_eq_ok] at hcomplete
  obtain ⟨task, -, hcomplete⟩ := hcomplete
  split at hcomplete
  · simp only [bind_eq_ok, EventStore.saveTaskWithCheckpoint, pure_eq_ok] at hcomplete
    obtain ⟨moved, -, checkpoint, -, -, -, -, -, -, -, rfl⟩ := hcomplete
    rfl
  · cases hcomplete
    rfl

theorem persistApproval_codexEvents (draws : Draws) (store : EventStore) (connection : Connection)
    (message : IncomingMessage) :
    (persistApproval draws store connection message).store.codexEvents = store.codexEvents ∧
      (persistApproval draws store connection message).connection.session = connection.session := by
  unfold persistApproval
  split
  · split
    · exact ⟨rfl, rfl⟩
    · exact ⟨rfl, rfl⟩
    · exact ⟨rfl, rfl⟩
  · exact ⟨rfl, rfl⟩

theorem persistCompletion_codexEvents (ambient : Ambient) (draws : Draws) (store : EventStore)
    (connection : Connection) (message : IncomingMessage) :
    (persistCompletion ambient draws store connection message).store.codexEvents =
        store.codexEvents ∧
      (persistCompletion ambient draws store connection message).connection.session =
        connection.session := by
  unfold persistCompletion
  dsimp only
  split
  · exact ⟨rfl, rfl⟩
  next submitted hsubmitted =>
    have hkept := persistApproval_codexEvents draws submitted
      { connection with activeTurnId := none } message
    exact ⟨hkept.1.trans (completeTurn_codexEvents hsubmitted), hkept.2⟩

/-- The event of a message that the store has accepted. -/
theorem appendCodexEvent_normalized {session copy : CodexSessionRecord} {now : DateTime}
    (hdraft : normalizeEvent raw = some draft)
    (happend : store.appendCodexEvent session draft now = .ok (next, copy)) :
    copy.taskId = session.taskId ∧ ∃ event : CodexEventRecord,
      store.Extends next session.taskId [event] ∧ event.kind = draft.kind ∧
      event.itemId = draft.itemId ∧ event.content = draft.content := by
  obtain ⟨method, params, kind, summary, content, -, -, hcontent, rfl⟩ :=
    normalizeEvent_eq_some.1 hdraft
  have hlabel := eventLabels_valid _ (eventContent_label hcontent)
  simp only [EventStore.appendCodexEvent, bind_eq_ok, pure_eq_ok, Prod.mk.injEq] at happend
  obtain ⟨kept, hkind, title, -, stored, hstored, -, -, -, -, -, -, rfl, rfl⟩ := happend
  cases hlabel.1.symm.trans hkind
  have hsame : stored = content.map boundedContent := by
    cases content with
    | none => exact (Except.ok.inj hstored).symm
    | some text =>
        have hmapM : (Option.map boundedContent (some text)).mapM validateCodexEventContent =
          some <$> validateCodexEventContent (boundedContent text) := rfl
        rw [hmapM, map_eq_ok] at hstored
        obtain ⟨same, hsame, rfl⟩ := hstored
        rw [← (validateCodexEventContent_eq_ok.1 hsame).2, Option.map_some]
  refine ⟨rfl, _, ⟨rfl, ?_, ?_⟩, rfl, rfl, hsame⟩
  · intro event hevent
    rw [List.mem_singleton.mp hevent]
  · rfl

/-- What messages have left of the item: some events with the texts of the
deltas, none of which shows a marker. -/
structure Streams (itemId : String) (first next : EventStore) (taskId : TaskId)
    (events : List CodexEventRecord) (texts : List String) : Prop
    extends EventStore.Extends first next taskId events where
  contents : deltaContents itemId events = texts.map boundedContent
  clean : ∀ event ∈ events, ∀ content ∈ event.content, ¬ containsSensitiveContent content

section Streaming

variable {first last : EventStore} {taskId : TaskId} {events more : List CodexEventRecord}
variable {texts further : List String}

theorem Streams.nil (hsame : next.codexEvents = first.codexEvents) :
    Streams itemId first next taskId [] [] where
  toExtends := .nil hsame
  contents := rfl
  clean _ hevent := absurd hevent List.not_mem_nil

theorem Streams.trans (hstreams : Streams itemId first next taskId events texts)
    (hmore : Streams itemId next last taskId more further) :
    Streams itemId first last taskId (events ++ more) (texts ++ further) where
  toExtends := hstreams.toExtends.trans hmore.toExtends
  contents := by
    have happend : deltaContents itemId (events ++ more) =
        deltaContents itemId events ++ deltaContents itemId more := by
      rw [deltaContents, List.filter_append, List.filterMap_append]
      rfl
    rw [happend, hstreams.contents, hmore.contents, List.map_append]
  clean event hevent :=
    (List.mem_append.mp hevent).elim (hstreams.clean event) (hmore.clean event)

theorem Streams.congr (hstreams : Streams itemId first next taskId events texts)
    (hsame : last.codexEvents = next.codexEvents) :
    Streams itemId first last taskId events texts where
  codexEvents := hsame.trans hstreams.codexEvents
  task := hstreams.task
  numbers := hstreams.numbers
  contents := hstreams.contents
  clean := hstreams.clean

end Streaming

section Stored

variable {received : Received}

theorem storedDelta_eq (hmessage : ∀ response, received.message ≠ .response response)
    (hmethod : stringField received.raw "method" = some method)
    (hparams : received.raw.get? "params" = some params) :
    received.storedDelta itemId =
      if method ∈ deltaMethods ∧ messageItemId params = some itemId ∧ IsStorable method params then
        stringField params "delta"
      else none := by
  unfold Received.storedDelta
  split
  next response hresponse => exact absurd hresponse (hmessage response)
  next => rw [hmethod, hparams, Option.bind_eq_bind, Option.bind_some, Option.bind_eq_bind,
      Option.bind_some]

theorem storedDelta_response {response : Protocol.ResponseEnvelope}
    (hmessage : received.message = .response response) : received.storedDelta itemId = none := by
  rw [Received.storedDelta, hmessage]

theorem storedDelta_ignored (hnone : normalizeEvent received.raw = none) :
    received.storedDelta itemId = none := by
  by_contra hdelta
  obtain ⟨text, htext⟩ := Option.ne_none_iff_exists'.mp hdelta
  unfold Received.storedDelta at htext
  split at htext
  next => cases htext
  next =>
    simp only [Option.bind_eq_bind, Option.bind_eq_some_iff] at htext
    obtain ⟨method, hmethod, params, hparams, htext⟩ := htext
    split at htext
    next hstored =>
      obtain ⟨kind, summary, hcontent⟩ := eventContent_of_delta hstored.1 params
      have hsome := normalizeEvent_eq_some.2
        ⟨method, params, kind, summary, _, hmethod, hparams, hcontent, rfl⟩
      rw [hnone] at hsome
      cases hsome
    next => cases htext

theorem storedDelta_completed (hmessage : ∀ response, received.message ≠ .response response)
    (hdraft : normalizeEvent received.raw = some draft) (hcompleted : draft.completed) :
    received.storedDelta itemId = none := by
  obtain ⟨method, params, kind, summary, content, hmethod, hparams, hcontent, rfl⟩ :=
    normalizeEvent_eq_some.1 hdraft
  have hkind : kind = "turnCompleted" := of_decide_eq_true hcompleted
  have hother : method ∉ deltaMethods := by
    rw [← (eventContent_delta hcontent).1, hkind]
    decide
  rw [storedDelta_eq hmessage hmethod hparams, if_neg fun hstored => hother hstored.1]

theorem storedDelta_refused {session : CodexSessionRecord} {now : DateTime} {error : String}
    (hmessage : ∀ response, received.message ≠ .response response)
    (hdraft : normalizeEvent received.raw = some draft)
    (happend : store.appendCodexEvent session draft now = .error error) :
    received.storedDelta itemId = none := by
  obtain ⟨method, params, kind, summary, content, hmethod, hparams, -, rfl⟩ :=
    normalizeEvent_eq_some.1 hdraft
  have hrefused : ¬ IsStorable method params := by
    rw [← appendCodexEvent_normalized_iff hmethod hparams hdraft store session now, happend]
    exact fun ⟨_, hstored⟩ => nomatch hstored
  rw [storedDelta_eq hmessage hmethod hparams, if_neg fun hstored => hrefused hstored.2.2]

/-- An accepted event of a message has the text of the message, if it is a
delta of the item. -/
theorem storedDelta_accepted {session copy : CodexSessionRecord} {now : DateTime}
    (hmessage : ∀ response, received.message ≠ .response response)
    (hdraft : normalizeEvent received.raw = some draft)
    (happend : store.appendCodexEvent session draft now = .ok (next, copy)) :
    (received.storedDelta itemId).map boundedContent =
      if draft.kind ∈ deltaKinds ∧ draft.itemId = some itemId then draft.content else none := by
  obtain ⟨method, params, kind, summary, content, hmethod, hparams, hcontent, rfl⟩ :=
    normalizeEvent_eq_some.1 hdraft
  have hstorable : IsStorable method params :=
    (appendCodexEvent_normalized_iff hmethod hparams hdraft store session now).mp ⟨_, happend⟩
  have hdelta := eventContent_delta hcontent
  rw [storedDelta_eq hmessage hmethod hparams]
  by_cases hitem : method ∈ deltaMethods ∧ messageItemId params = some itemId
  · rw [if_pos ⟨hitem.1, hitem.2, hstorable⟩, if_pos ⟨hdelta.1.mpr hitem.1, hitem.2⟩,
      hdelta.2 hitem.1]
  · rw [if_neg fun hstored => hitem ⟨hstored.1, hstored.2.1⟩,
      if_neg fun hkept => hitem ⟨hdelta.1.mp hkept.1, hkept.2⟩, Option.map_none]

/-- The event of an accepted message. -/
theorem appendCodexEvent_streams {session copy : CodexSessionRecord} {now : DateTime}
    (hmessage : ∀ response, received.message ≠ .response response)
    (hdraft : normalizeEvent received.raw = some draft)
    (happend : store.appendCodexEvent session draft now = .ok (next, copy)) (itemId : String) :
    copy.taskId = session.taskId ∧ ∃ events,
      Streams itemId store next session.taskId events (received.storedDelta itemId).toList := by
  obtain ⟨htask, event, hextends, hkind, hitem, hcontent⟩ :=
    appendCodexEvent_normalized hdraft happend
  refine ⟨htask, [event], ⟨hextends, ?_, ?_⟩⟩
  · have htoList : (received.storedDelta itemId).toList.map boundedContent =
        ((received.storedDelta itemId).map boundedContent).toList := by
      cases received.storedDelta itemId with
      | none => rfl
      | some text => rfl
    rw [htoList, storedDelta_accepted hmessage hdraft happend, deltaContents,
      ← hkind, ← hitem, ← hcontent, List.filter_cons, List.filter_nil]
    by_cases hdelta : event.kind ∈ deltaKinds ∧ event.itemId = some itemId
    · have hkept : event.isDeltaOf itemId := decide_eq_true hdelta
      rw [if_pos hdelta, if_pos hkept, List.filterMap_cons, List.filterMap_nil]
      cases event.content with
      | none => rfl
      | some text => rfl
    · have hdropped : ¬ event.isDeltaOf itemId := fun hkept => hdelta (of_decide_eq_true hkept)
      rw [if_neg hdelta, if_neg hdropped]
      rfl
  · intro same hsame text htext
    rw [List.mem_singleton.mp hsame, hcontent] at htext
    obtain ⟨_, _, _, _, content, -, -, -, rfl⟩ := normalizeEvent_eq_some.1 hdraft
    obtain ⟨_, -, rfl⟩ := Option.mem_map.mp htext
    exact boundedContent_clean _

end Stored

/-- What handling one message does to the events. -/
theorem persistIncoming_streams (ambient : Ambient) (store : EventStore) (connection : Connection)
    (received : Received) (itemId : String) :
    (persistIncoming ambient received.draws store connection received.raw
        received.message).connection.session.taskId = connection.session.taskId ∧
      ∃ events, Streams itemId store
        (persistIncoming ambient received.draws store connection received.raw
          received.message).store
        connection.session.taskId events (received.storedDelta itemId).toList := by
  by_cases hresponse : ∃ response, received.message = .response response
  · obtain ⟨response, hresponse⟩ := hresponse
    rw [storedDelta_response hresponse, hresponse]
    exact ⟨rfl, [], .nil rfl⟩
  have hmessage : ∀ response, received.message ≠ .response response := not_exists.mp hresponse
  cases hdraft : normalizeEvent received.raw with
  | none =>
      have hpersist : persistIncoming ambient received.draws store connection received.raw
          received.message = persistApproval received.draws store connection received.message := by
        unfold persistIncoming
        rw [hdraft]
        generalize received.message = message at hmessage ⊢
        cases message with
        | response response => exact absurd rfl (hmessage response)
        | serverRequest request => rfl
        | event event => rfl
      have hkept := persistApproval_codexEvents received.draws store connection received.message
      rw [hpersist, storedDelta_ignored hdraft, hkept.2]
      exact ⟨rfl, [], .nil hkept.1⟩
  | some draft =>
      rw [persistIncoming_draft hmessage hdraft]
      split
      next hignored =>
        rw [storedDelta_completed hmessage hdraft hignored.1]
        exact ⟨rfl, [], .nil rfl⟩
      next =>
        split
        next error happend =>
          rw [storedDelta_refused hmessage hdraft happend]
          exact ⟨rfl, [], .nil rfl⟩
        next recorded session happend =>
          obtain ⟨htask, events, hstreams⟩ :=
            appendCodexEvent_streams hmessage hdraft happend itemId
          dsimp only
          split
          next =>
            have hkept := persistCompletion_codexEvents ambient received.draws recorded
              { connection with session } received.message
            rw [hkept.2]
            exact ⟨htask, events, hstreams.congr hkept.1⟩
          next =>
            have hkept := persistApproval_codexEvents received.draws recorded
              { connection with session } received.message
            rw [hkept.2]
            exact ⟨htask, events, hstreams.congr hkept.1⟩

/-- What handling the messages does to the events. -/
theorem persistAll_streams (ambient : Ambient) (store : EventStore) (connection : Connection)
    (messages : List Received) (itemId : String) :
    ∃ events, Streams itemId store (persistAll ambient store connection messages).1
      connection.session.taskId events (messages.filterMap (Received.storedDelta itemId)) := by
  induction messages generalizing store connection with
  | nil => exact ⟨[], .nil rfl⟩
  | cons received messages ih =>
      obtain ⟨htask, events, hfirst⟩ :=
        persistIncoming_streams ambient store connection received itemId
      obtain ⟨more, hrest⟩ := ih
        (persistIncoming ambient received.draws store connection received.raw
          received.message).store
        (persistIncoming ambient received.draws store connection received.raw
          received.message).connection
      rw [htask] at hrest
      have hboth := hfirst.trans hrest
      refine ⟨events ++ more, ?_⟩
      have htexts : (received :: messages).filterMap (Received.storedDelta itemId) =
          (received.storedDelta itemId).toList ++
            messages.filterMap (Received.storedDelta itemId) := by
        rw [List.filterMap_cons]
        cases received.storedDelta itemId with
        | none => rfl
        | some text => rfl
      rw [htexts]
      exact hboth

end Messages

/-- The events that handling the messages has added, in the order of their
numbers, show a credential of an item exactly when consecutive deltas of the
item, each of which is harmless, spell a marker: the credential is redacted
where one delta holds it and stored where the deltas share it. -/
theorem stream_redacted_iff (ambient : Ambient) (store : EventStore) (connection : Connection)
    (messages : List Received) (itemId : String) :
    IsRedacted itemId ((persistAll ambient store connection messages).1.codexEventsAfter
        connection.session.taskId (store.nextSequence connection.session.taskId - 1)) ↔
      ¬ SpelledAcross (messages.filterMap (Received.storedDelta itemId)) := by
  obtain ⟨events, hstreams⟩ := persistAll_streams ambient store connection messages itemId
  rw [hstreams.codexEventsAfter, IsRedacted, hstreams.contents, join_boundedContent_iff]
  exact and_iff_left fun event hevent _ => hstreams.clean event hevent

namespace Sample

def itemDelta (text : String) : Json :=
  .obj [("method", .str "item/agentMessage/delta"),
    ("params", .obj [("itemId", .str "item-1"), ("delta", .str text)])]

/-- A delta of a response, as it comes in. -/
def streamed (text : String) : Received := ⟨draws, itemDelta text, deltaEvent⟩

end Sample

open Sample

/-- Two deltas that are harmless on their own are received and stored, and
together they begin a token. -/
theorem stream_shows_token :
    connection.receive ⟨112, .ok (itemDelta "gh")⟩ =
        (connection, .ok (itemDelta "gh", deltaEvent)) ∧
      connection.receive ⟨113, .ok (itemDelta "p_x")⟩ =
        (connection, .ok (itemDelta "p_x", deltaEvent)) ∧
      deltaContents "item-1" ((persistAll ambient (store .implementing) connection
        [streamed "gh", streamed "p_x"]).1.codexEventsAfter taskId 0) = ["gh", "p_x"] ∧
      ¬ IsRedacted "item-1" ((persistAll ambient (store .implementing) connection
        [streamed "gh", streamed "p_x"]).1.codexEventsAfter taskId 0) := by
  have hcontents : deltaContents "item-1" ((persistAll ambient (store .implementing) connection
      [streamed "gh", streamed "p_x"]).1.codexEventsAfter taskId 0) = ["gh", "p_x"] := by
    obtain ⟨events, hstreams⟩ := persistAll_streams ambient (store .implementing) connection
      [streamed "gh", streamed "p_x"] "item-1"
    have hevents : (persistAll ambient (store .implementing) connection
        [streamed "gh", streamed "p_x"]).1.codexEventsAfter taskId 0 = events :=
      hstreams.codexEventsAfter
    rw [hevents, hstreams.contents]
    decide
  refine ⟨rfl, rfl, hcontents, fun hredacted => hredacted.1 ?_⟩
  rw [hcontents]
  decide

end Patchwright
