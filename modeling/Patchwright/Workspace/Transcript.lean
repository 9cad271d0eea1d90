import Patchwright.Core.WorkspaceSorting
import Patchwright.Library.Coalescing
import Patchwright.Workspace.EventSync

/-!
# The transcript of a task

The workspace shows the events of a task as a transcript.  Events of some kinds
are not shown; the deltas of one item of the app-server are shown as one text.
The transcript is built anew from the events that are there each time, so that
what it shows depends on how the events have come to be there.
-/

open Sorting

namespace Patchwright.Workspace

open Coalescing Runs

/-! ### Kinds -/

inductive CodexTranscriptItemKind where
  | operatorMessage
  | agentMessage
  | reasoning
  | command
  | fileChange
  | status
  | unknown (value : String)
  deriving DecidableEq, Repr

inductive CodexEventKind where
  | processStarted
  | initialized
  | accountRead
  | threadReady
  | threadStale
  | userMessage
  | userSteer
  | itemStarted
  | itemCompleted
  | textDelta
  | reasoningDelta
  | commandOutputDelta
  | fileChangeDelta
  | turnCompleted
  | error
  | unknown (value : String)
  deriving DecidableEq, Repr

namespace CodexEventKind

def init (rawValue : String) : CodexEventKind :=
  match rawValue with
  | "processStarted" => processStarted
  | "initialized" => initialized
  | "accountRead" => accountRead
  | "threadReady" => threadReady
  | "threadStale" => threadStale
  | "userMessage" => userMessage
  | "userSteer" => userSteer
  | "itemStarted" => itemStarted
  | "itemCompleted" => itemCompleted
  | "textDelta" => textDelta
  | "reasoningDelta" => reasoningDelta
  | "commandOutputDelta" => commandOutputDelta
  | "fileChangeDelta" => fileChangeDelta
  | "turnCompleted" => turnCompleted
  | "error" => error
  | _ => unknown rawValue

def rawValue : CodexEventKind → String
  | processStarted => "processStarted"
  | initialized => "initialized"
  | accountRead => "accountRead"
  | threadReady => "threadReady"
  | threadStale => "threadStale"
  | userMessage => "userMessage"
  | userSteer => "userSteer"
  | itemStarted => "itemStarted"
  | itemCompleted => "itemCompleted"
  | textDelta => "textDelta"
  | reasoningDelta => "reasoningDelta"
  | commandOutputDelta => "commandOutputDelta"
  | fileChangeDelta => "fileChangeDelta"
  | turnCompleted => "turnCompleted"
  | error => "error"
  | unknown value => value

/-- A kind is told by its raw value, also one that the application does not know. -/
theorem rawValue_init (value : String) : (init value).rawValue = value := by
  unfold init
  split <;> rfl

def presentationKind : CodexEventKind → Option CodexTranscriptItemKind
  | userMessage | userSteer => some .operatorMessage
  | textDelta => some .agentMessage
  | reasoningDelta => some .reasoning
  | commandOutputDelta => some .command
  | fileChangeDelta => some .fileChange
  | turnCompleted | error | threadStale => some .status
  | unknown value => some (.unknown value)
  | processStarted | initialized | accountRead | threadReady | itemStarted | itemCompleted => none

def isStreaming : CodexEventKind → Bool
  | textDelta | reasoningDelta | commandOutputDelta | fileChangeDelta => true
  | _ => false

end CodexEventKind

/-! ### The transcript -/

/-- An event as the application decodes it. -/
structure CodexEvent where
  taskId : TaskId
  processGeneration : Uuid
  sequence : Nat
  kind : CodexEventKind
  summary : String
  threadId : Option String
  turnId : Option String
  itemId : Option String
  content : Option String
  occurredAt : DateTime

def CodexEvent.init (record : CodexEventRecord) : CodexEvent :=
  { record with kind := .init record.kind }

structure CodexTranscriptItem where
  id : Nat
  kind : CodexTranscriptItemKind
  itemId : Option String
  threadId : Option String
  turnId : Option String
  occurredAt : DateTime
  content : String

def CodexTranscriptItem.append (item : CodexTranscriptItem) (delta : String) :
    CodexTranscriptItem :=
  { item with content := item.content ++ delta }

structure StreamingKey where
  kind : CodexTranscriptItemKind
  itemId : String
  deriving DecidableEq

structure CodexTranscript where
  items : List CodexTranscriptItem
  cursor : Nat

namespace CodexEvent

def text (event : CodexEvent) : String := event.content.getD event.summary

/-- The key of a shown event.  Two keys are one when their strings are
canonically equivalent. -/
def streamingKey [UnicodeNormalization] (shown : CodexTranscriptItemKind × CodexEvent) :
    Option StreamingKey :=
  if shown.2.kind.isStreaming then
    shown.2.itemId.map fun itemId => ⟨shown.1, UnicodeNormalization.nfc itemId⟩
  else none

def transcriptItem (shown : CodexTranscriptItemKind × CodexEvent) : CodexTranscriptItem where
  id := shown.2.sequence
  kind := shown.1
  itemId := shown.2.itemId
  threadId := shown.2.threadId
  turnId := shown.2.turnId
  occurredAt := shown.2.occurredAt
  content := shown.2.text

/-- The event with the kind of its item, if it is shown. -/
def shown (event : CodexEvent) : Option (CodexTranscriptItemKind × CodexEvent) :=
  event.kind.presentationKind.map fun kind => (kind, event)

end CodexEvent

section Transcript

variable [UnicodeNormalization]

def CodexTranscriptItem.extend (item : CodexTranscriptItem)
    (next : CodexTranscriptItemKind × CodexEvent) : CodexTranscriptItem :=
  item.append next.2.text

/-- The loop's body: an event that is not shown is skipped. -/
def CodexTranscript.step (groups : Groups StreamingKey CodexTranscriptItem) (event : CodexEvent) :
    Groups StreamingKey CodexTranscriptItem :=
  match event.kind.presentationKind with
  | none => groups
  | some kind => groups.collect CodexEvent.streamingKey CodexEvent.transcriptItem
      CodexTranscriptItem.extend (kind, event)

def CodexEvent.ordered (events : List CodexEvent) : List CodexEvent :=
  sorted (fun first second => first.sequence < second.sequence) events

def CodexTranscript.init (events : List CodexEvent) : CodexTranscript :=
  let ordered := CodexEvent.ordered events
  ⟨(ordered.foldl CodexTranscript.step .empty).items, (ordered.getLast?.map (·.sequence)).getD 0⟩

/-- The item shows the event: they are of one streamed text, or the event has
made the item by itself. -/
def CodexEvent.ShownIn (event : CodexEvent) (item : CodexTranscriptItem) : Prop :=
  event.kind.presentationKind = some item.kind ∧
    if event.kind.isStreaming ∧ event.itemId.isSome then
      item.itemId.map UnicodeNormalization.nfc = event.itemId.map UnicodeNormalization.nfc
    else item.id = event.sequence

instance (event : CodexEvent) (item : CodexTranscriptItem) : Decidable (event.ShownIn item) :=
  inferInstanceAs (Decidable (_ ∧ _))

end Transcript

section Order

variable {events : List CodexEvent}

theorem transCmp_sequence : Std.TransCmp fun first second : CodexEvent =>
    compare first.sequence second.sequence := transCmp_comap inferInstance CodexEvent.sequence

theorem ordered_eq_sortBy : CodexEvent.ordered =
    sortBy fun first second : CodexEvent => compare first.sequence second.sequence := by
  have htrans := transCmp_sequence
  apply sorted_eq_sortBy
  intro first second
  rw [Nat.compare_eq_ite_lt]
  split
  next hlt => simp [hlt, Ordering.isLT]
  next hge => split <;> simp [hge, Ordering.isLT]

theorem mem_ordered {event : CodexEvent} : event ∈ CodexEvent.ordered events ↔ event ∈ events :=
  List.mem_mergeSort

/-- Events of different numbers are told apart by them. -/
theorem eq_of_sequence_eq (hdistinct : (events.map CodexEvent.sequence).Nodup)
    {first second : CodexEvent} (hfirst : first ∈ events) (hsecond : second ∈ events)
    (hsame : first.sequence = second.sequence) : first = second :=
  List.inj_on_of_nodup_map hdistinct hfirst hsecond hsame

theorem distinguishes_sequence (hdistinct : (events.map CodexEvent.sequence).Nodup) :
    Distinguishes (fun first second : CodexEvent => compare first.sequence second.sequence)
      events := by
  intro first hfirst second hsecond hsame
  exact eq_of_sequence_eq hdistinct hfirst hsecond (Nat.compare_eq_eq.mp hsame)

theorem ordered_strict (hdistinct : (events.map CodexEvent.sequence).Nodup) :
    (CodexEvent.ordered events).Pairwise fun first second => first.sequence < second.sequence := by
  have htrans := transCmp_sequence
  rw [ordered_eq_sortBy]
  apply (sortBy_strict (hdistinct.of_map _) (distinguishes_sequence hdistinct)).imp
  intro first second hlt
  exact Nat.compare_eq_lt.mp hlt

/-- In what order the events are given does not matter. -/
theorem ordered_eq_of_perm {others : List CodexEvent}
    (hdistinct : (events.map CodexEvent.sequence).Nodup) (hperm : others.Perm events) :
    CodexEvent.ordered others = CodexEvent.ordered events := by
  have htrans := transCmp_sequence
  rw [ordered_eq_sortBy]
  exact sortBy_eq_of_perm (distinguishes_sequence hdistinct) hperm

theorem ordered_eq_self
    (hsorted : events.Pairwise fun first second => first.sequence < second.sequence) :
    CodexEvent.ordered events = events := by
  rw [CodexEvent.ordered, sorted, List.mergeSort_of_pairwise]
  apply hsorted.imp
  intro first second hlt
  simp only [Bool.not_eq_true', decide_eq_false_iff_not]
  omega

end Order

/-! ### Items -/

/-- An item extended by events has their texts behind its own. -/
theorem foldl_extend (entries : List (CodexTranscriptItemKind × CodexEvent))
    (item : CodexTranscriptItem) : entries.foldl CodexTranscriptItem.extend item =
      item.append (String.join (entries.map fun entry => entry.2.text)) := by
  induction entries generalizing item with
  | nil => simp [CodexTranscriptItem.append]
  | cons entry entries ih =>
      rw [List.foldl_cons, ih, List.map_cons, String.join_cons]
      simp [CodexTranscriptItem.append, CodexTranscriptItem.extend, String.append_assoc]

/-- The kinds of the items that streamed texts make. -/
def CodexTranscriptItemKind.isStreamed : CodexTranscriptItemKind → Bool
  | .agentMessage | .reasoning | .command | .fileChange => true
  | .operatorMessage | .status | .unknown _ => false

theorem isStreaming_eq {kind : CodexEventKind} {presented : CodexTranscriptItemKind}
    (hpresented : kind.presentationKind = some presented) :
    kind.isStreaming = presented.isStreamed := by
  cases kind <;> cases hpresented <;> rfl

section Items

variable [UnicodeNormalization]

theorem foldl_step (events : List CodexEvent) (groups : Groups StreamingKey CodexTranscriptItem) :
    events.foldl CodexTranscript.step groups =
      (events.filterMap CodexEvent.shown).foldl (Groups.collect CodexEvent.streamingKey
        CodexEvent.transcriptItem CodexTranscriptItem.extend) groups := by
  rw [List.foldl_filterMap]
  congr 1
  funext groups event
  rw [CodexTranscript.step, CodexEvent.shown]
  cases event.kind.presentationKind <;> rfl

/-- The item of a shown event that is the first of its text. -/
def CodexEvent.itemOf (entries : List (CodexTranscriptItemKind × CodexEvent)) :
    CodexTranscriptItemKind × CodexEvent → CodexTranscriptItem :=
  Coalescing.itemOf streamingKey transcriptItem CodexTranscriptItem.extend entries

theorem init_items (events : List CodexEvent) : (CodexTranscript.init events).items =
    (leaders CodexEvent.streamingKey ((CodexEvent.ordered events).filterMap CodexEvent.shown)).map
      (CodexEvent.itemOf ((CodexEvent.ordered events).filterMap CodexEvent.shown)) := by
  rw [CodexTranscript.init, foldl_step]
  exact coalesce_eq _

omit [UnicodeNormalization] in
theorem shown_eq_some {event : CodexEvent} {entry : CodexTranscriptItemKind × CodexEvent} :
    event.shown = some entry ↔ entry.2 = event ∧ event.kind.presentationKind = some entry.1 := by
  rw [CodexEvent.shown, Option.map_eq_some_iff]
  constructor
  · rintro ⟨kind, hkind, rfl⟩
    exact ⟨rfl, hkind⟩
  · rintro ⟨rfl, hkind⟩
    exact ⟨entry.1, hkind, rfl⟩

omit [UnicodeNormalization] in
theorem mem_shown {entry : CodexTranscriptItemKind × CodexEvent} {events : List CodexEvent} :
    entry ∈ events.filterMap CodexEvent.shown ↔
      entry.2 ∈ events ∧ entry.2.kind.presentationKind = some entry.1 := by
  simp only [List.mem_filterMap, shown_eq_some]
  constructor
  · rintro ⟨event, hmem, rfl, hkind⟩
    exact ⟨hmem, hkind⟩
  · rintro ⟨hmem, hkind⟩
    exact ⟨entry.2, hmem, rfl, hkind⟩

theorem streamingKey_eq_some {entry : CodexTranscriptItemKind × CodexEvent} {own : StreamingKey} :
    CodexEvent.streamingKey entry = some own ↔ entry.2.kind.isStreaming ∧
      entry.1 = own.kind ∧ entry.2.itemId.map UnicodeNormalization.nfc = some own.itemId := by
  rw [CodexEvent.streamingKey]
  split
  next hstreaming =>
    simp only [hstreaming, true_and, Option.map_eq_some_iff]
    constructor
    · rintro ⟨itemId, hitem, rfl⟩
      exact ⟨rfl, itemId, hitem, rfl⟩
    · rintro ⟨hkind, itemId, hitem, hsame⟩
      exact ⟨itemId, hitem, by rw [hkind, hsame]⟩
  next hsingle => simp [hsingle]

theorem streamingKey_eq_none {entry : CodexTranscriptItemKind × CodexEvent} :
    CodexEvent.streamingKey entry = none ↔
      ¬ (entry.2.kind.isStreaming ∧ entry.2.itemId.isSome) := by
  rw [CodexEvent.streamingKey]
  split
  next hstreaming => simp [hstreaming]
  next hsingle => simp [hsingle]

/-- The entry is collected by the leader. -/
def CodexEvent.BelongsTo (leader entry : CodexTranscriptItemKind × CodexEvent) : Prop :=
  match streamingKey leader with
  | none => entry.2.sequence = leader.2.sequence
  | some own => streamingKey entry = some own

/-- An item is what its leader makes, with more text. -/
theorem itemOf_eq (entries : List (CodexTranscriptItemKind × CodexEvent))
    (leader : CodexTranscriptItemKind × CodexEvent) :
    ∃ more, CodexEvent.itemOf entries leader =
      (CodexEvent.transcriptItem leader).append more := by
  rw [CodexEvent.itemOf, Coalescing.itemOf]
  split
  · exact ⟨"", by simp [CodexTranscriptItem.append]⟩
  · exact ⟨_, foldl_extend _ _⟩

section Shown

variable {events : List CodexEvent} {entry leader : CodexTranscriptItemKind × CodexEvent}

/-- An item shows the events that belong to its leader. -/
theorem shownIn_itemOf (hdistinct : (events.map CodexEvent.sequence).Nodup)
    (hentry : entry ∈ events.filterMap CodexEvent.shown)
    (hleader : leader ∈ events.filterMap CodexEvent.shown)
    (entries : List (CodexTranscriptItemKind × CodexEvent)) :
    entry.2.ShownIn (CodexEvent.itemOf entries leader) ↔ CodexEvent.BelongsTo leader entry := by
  obtain ⟨more, hitem⟩ := itemOf_eq entries leader
  obtain ⟨hentryMem, hentryKind⟩ := mem_shown.1 hentry
  obtain ⟨hleaderMem, hleaderKind⟩ := mem_shown.1 hleader
  have hsame : entry.2.sequence = leader.2.sequence → entry = leader := by
    intro hsequence
    have hevent := eq_of_sequence_eq hdistinct hentryMem hleaderMem hsequence
    rw [hevent, hleaderKind] at hentryKind
    exact Prod.ext (Option.some.inj hentryKind).symm hevent
  rw [hitem, CodexEvent.ShownIn, CodexEvent.BelongsTo, hentryKind, Option.some.injEq]
  change entry.1 = leader.1 ∧ (if _ then Option.map _ leader.2.itemId = _ else _) ↔ _
  cases hkey : CodexEvent.streamingKey leader with
  | none =>
      have hsingle := streamingKey_eq_none.1 hkey
      constructor
      · rintro ⟨hkind, hshows⟩
        split at hshows
        next hkeyed =>
          have hstreaming : leader.2.kind.isStreaming := by
            rw [isStreaming_eq hleaderKind, ← hkind, ← isStreaming_eq hentryKind]
            exact hkeyed.1
          have hsome := congrArg Option.isSome hshows
          rw [Option.isSome_map, Option.isSome_map, hkeyed.2] at hsome
          exact absurd ⟨hstreaming, hsome⟩ hsingle
        next => exact hshows.symm
      · intro hsequence
        obtain rfl := hsame hsequence
        refine ⟨rfl, ?_⟩
        rw [if_neg hsingle]
        rfl
  | some own =>
      obtain ⟨hstreaming, hkind, hitemId⟩ := streamingKey_eq_some.1 hkey
      dsimp only
      rw [hitemId, streamingKey_eq_some, hkind]
      constructor
      · rintro ⟨hown, hshows⟩
        split at hshows
        next hkeyed => exact ⟨hkeyed.1, hown, hshows.symm⟩
        next hsingle =>
          obtain rfl := hsame hshows.symm
          exact ⟨hstreaming, hkind, hitemId⟩
      · rintro ⟨hentryStreaming, hown, hid⟩
        have hsome := congrArg Option.isSome hid
        rw [Option.isSome_map, Option.isSome_some] at hsome
        refine ⟨hown, ?_⟩
        rw [if_pos ⟨hentryStreaming, hsome⟩, hid]

omit [UnicodeNormalization] in
theorem filter_eq_map_filter {shows : CodexEvent → Prop} [DecidablePred shows]
    {belongs : CodexTranscriptItemKind × CodexEvent → Prop} [DecidablePred belongs]
    (hshown : ∀ event, shows event → event.kind.presentationKind.isSome)
    (hbelongs : ∀ entry ∈ events.filterMap CodexEvent.shown, shows entry.2 ↔ belongs entry) :
    events.filter shows =
      ((events.filterMap CodexEvent.shown).filter belongs).map Prod.snd := by
  induction events with
  | nil => rfl
  | cons event events ih =>
      cases hevent : event.shown with
      | none =>
          have hhidden : ¬ shows event := by
            intro hshows
            obtain ⟨kind, hkind⟩ := Option.isSome_iff_exists.mp (hshown event hshows)
            rw [CodexEvent.shown, hkind] at hevent
            cases hevent
          rw [List.filterMap_cons_none hevent] at hbelongs ⊢
          rw [List.filter_cons_of_neg (by simpa using hhidden), ih hbelongs]
      | some entry =>
          rw [List.filterMap_cons_some hevent] at hbelongs ⊢
          have hfirst := hbelongs entry List.mem_cons_self
          have hlater := ih fun later hmem => hbelongs later (List.mem_cons_of_mem _ hmem)
          obtain ⟨rfl, -⟩ := shown_eq_some.1 hevent
          by_cases hshows : shows entry.2
          · rw [List.filter_cons_of_pos (by simpa using hshows),
              List.filter_cons_of_pos (by simpa using hfirst.mp hshows), List.map_cons, hlater]
          · rw [List.filter_cons_of_neg (by simpa using hshows),
              List.filter_cons_of_neg (by simpa using mt hfirst.mpr hshows), hlater]

omit [UnicodeNormalization] in
/-- The shown events are numbered as they are among all. -/
theorem shown_pairwise {rel : Nat → Nat → Prop}
    (hevents : events.Pairwise fun first second => rel first.sequence second.sequence) :
    (events.filterMap CodexEvent.shown).Pairwise fun first second =>
      rel first.2.sequence second.2.sequence := by
  rw [List.pairwise_filterMap]
  apply hevents.imp
  intro first second hrel entry hentry other hother
  rw [(shown_eq_some.1 hentry).1, (shown_eq_some.1 hother).1]
  exact hrel

omit [UnicodeNormalization] in
/-- A number selects one shown event. -/
theorem filter_sequence (hdistinct : (events.map CodexEvent.sequence).Nodup)
    (hleader : leader ∈ events.filterMap CodexEvent.shown) :
    (events.filterMap CodexEvent.shown).filter
      (fun entry => entry.2.sequence = leader.2.sequence) = [leader] := by
  have hnumbers : ((events.filterMap CodexEvent.shown).map fun entry => entry.2.sequence).Nodup := by
    exact List.pairwise_map.mpr (shown_pairwise (List.pairwise_map.mp hdistinct))
  apply List.perm_singleton.mp
  rw [List.perm_ext_iff_of_nodup (hnumbers.of_map _ |>.filter _) (List.nodup_singleton _)]
  intro entry
  rw [List.mem_filter, List.mem_singleton, decide_eq_true_iff]
  constructor
  · rintro ⟨hentry, hsequence⟩
    exact List.inj_on_of_nodup_map hnumbers hentry hleader hsequence
  · rintro rfl
    exact ⟨hleader, rfl⟩

/-- The events that an item shows, in their order, begin with the one that has
made it, and the item has their texts. -/
theorem itemOf_texts (hdistinct : (events.map CodexEvent.sequence).Nodup)
    (hleader : leader ∈ leaders CodexEvent.streamingKey (events.filterMap CodexEvent.shown)) :
    ∃ later, events.filter
        (·.ShownIn (CodexEvent.itemOf (events.filterMap CodexEvent.shown) leader)) =
          leader.2 :: later ∧
      CodexEvent.itemOf (events.filterMap CodexEvent.shown) leader =
        { CodexEvent.transcriptItem leader with
          content := String.join ((leader.2 :: later).map CodexEvent.text) } := by
  have hmem := (leaders_sublist _).subset hleader
  have hshown (event : CodexEvent) :
      event.ShownIn (CodexEvent.itemOf (events.filterMap CodexEvent.shown) leader) →
        event.kind.presentationKind.isSome := fun hshows => Option.isSome_iff_exists.mpr ⟨_, hshows.1⟩
  have hbelongs (entry) (hentry : entry ∈ events.filterMap CodexEvent.shown) :=
    shownIn_itemOf hdistinct hentry hmem (events.filterMap CodexEvent.shown)
  unfold CodexEvent.BelongsTo at hbelongs
  cases hkey : CodexEvent.streamingKey leader with
  | none =>
      rw [hkey] at hbelongs
      refine ⟨[], ?_, ?_⟩
      · rw [filter_eq_map_filter hshown hbelongs, filter_sequence hdistinct hmem]
        rfl
      · rw [CodexEvent.itemOf, Coalescing.itemOf, hkey, List.map_singleton, String.join_cons,
          String.join_nil, String.append_empty]
        rfl
  | some own =>
      rw [hkey] at hbelongs
      obtain ⟨later, hlater⟩ := ofKey_eq_cons hleader hkey
      refine ⟨later.map Prod.snd, ?_, ?_⟩
      · rw [filter_eq_map_filter hshown hbelongs, ← ofKey, hlater, List.map_cons]
      · rw [CodexEvent.itemOf, Coalescing.itemOf, hkey]
        dsimp only
        rw [hlater, List.tail_cons, foldl_extend, List.map_cons, String.join_cons, List.map_map]
        rfl

/-- A shown event belongs to one leader. -/
theorem exists_unique_leader (hdistinct : (events.map CodexEvent.sequence).Nodup)
    (hentry : entry ∈ events.filterMap CodexEvent.shown) :
    ∃ leader ∈ leaders CodexEvent.streamingKey (events.filterMap CodexEvent.shown),
      CodexEvent.BelongsTo leader entry ∧
      ∀ other ∈ leaders CodexEvent.streamingKey (events.filterMap CodexEvent.shown),
        CodexEvent.BelongsTo other entry → other = leader := by
  have hsame (other) (hother : other ∈ leaders CodexEvent.streamingKey
      (events.filterMap CodexEvent.shown)) (hsequence : entry.2.sequence = other.2.sequence) :
      other = entry := by
    have hmem := (leaders_sublist _).subset hother
    have hselected := filter_sequence hdistinct hentry
    have hin : other ∈ [entry] := by
      rw [← hselected, List.mem_filter]
      exact ⟨hmem, decide_eq_true hsequence.symm⟩
    exact List.mem_singleton.mp hin
  cases hkey : CodexEvent.streamingKey entry with
  | none =>
      refine ⟨entry, mem_leaders_of_key_eq_none hentry hkey, ?_, fun other hother hbelongs => ?_⟩
      · rw [CodexEvent.BelongsTo, hkey]
      · rw [CodexEvent.BelongsTo] at hbelongs
        split at hbelongs
        · exact hsame other hother hbelongs
        · exact nomatch hkey.symm.trans hbelongs
  | some own =>
      obtain ⟨leader, hleader, hown⟩ := exists_leader hentry hkey
      refine ⟨leader, hleader, ?_, fun other hother hbelongs => ?_⟩
      · rw [CodexEvent.BelongsTo, hown]
        exact hkey
      · rw [CodexEvent.BelongsTo] at hbelongs
        split at hbelongs
        next hnone =>
          rw [hsame other hother hbelongs] at hnone
          exact nomatch hkey.symm.trans hnone
        next found hfound =>
          obtain rfl := Option.some.inj (hkey.symm.trans hbelongs)
          exact leader_unique hother hleader hfound hown

end Shown

end Items

section Continuation

variable [UnicodeNormalization]

/-- The later transcript has the items of the earlier one in their places, as
they were or with more text, and items of later events behind them. -/
def CodexTranscript.Continues (earlier later : CodexTranscript) : Prop :=
  earlier.cursor ≤ later.cursor ∧ ∃ kept added, later.items = kept ++ added ∧
    List.Forall₂ (fun item next => ∃ more, next = CodexTranscriptItem.append item more)
      earlier.items kept ∧
    ∀ item ∈ added, earlier.cursor < item.id

variable {earlier events : List CodexEvent}

/-- An item that is there gets the texts of later events of its key. -/
theorem itemOf_grows {entries later : List (CodexTranscriptItemKind × CodexEvent)}
    {leader : CodexTranscriptItemKind × CodexEvent} (hleader : leader ∈ entries) :
    ∃ more, CodexEvent.itemOf (entries ++ later) leader =
      (CodexEvent.itemOf entries leader).append more := by
  rw [CodexEvent.itemOf, itemOf_append hleader]
  cases CodexEvent.streamingKey leader with
  | none => exact ⟨"", by simp [CodexTranscriptItem.append, CodexEvent.itemOf]⟩
  | some own => exact ⟨_, foldl_extend _ _⟩

theorem init_cursor
    (hsorted : events.Pairwise fun first second => first.sequence < second.sequence) :
    (CodexTranscript.init events).cursor = (events.getLast?.map (·.sequence)).getD 0 := by
  rw [CodexTranscript.init]
  dsimp only
  rw [ordered_eq_self hsorted]

theorem init_cursor_lt {event : CodexEvent} {later : List CodexEvent}
    (hsorted : (earlier ++ later).Pairwise fun first second => first.sequence < second.sequence)
    (hevent : event ∈ later) (hpositive : 0 < event.sequence) :
    (CodexTranscript.init earlier).cursor < event.sequence := by
  obtain ⟨hearlier, -, hacross⟩ := List.pairwise_append.mp hsorted
  rw [init_cursor hearlier]
  cases hlast : earlier.getLast? with
  | none => exact hpositive
  | some last => exact hacross last (List.mem_of_getLast? hlast) event hevent

/-- A transcript of more events continues the one of the events before. -/
theorem init_continues
    (hsorted : events.Pairwise fun first second => first.sequence < second.sequence)
    (hpositive : ∀ event ∈ events, 0 < event.sequence) (hbegins : earlier <+: events) :
    (CodexTranscript.init earlier).Continues (CodexTranscript.init events) := by
  obtain ⟨later, rfl⟩ := hbegins
  have hearlier := (List.pairwise_append.mp hsorted).1
  refine ⟨?_, ?_⟩
  · rcases List.eq_nil_or_concat' later with rfl | ⟨rest, last, rfl⟩
    · rw [List.append_nil]
    · have hlast : last ∈ rest ++ [last] := List.mem_append_right _ List.mem_cons_self
      have hlt := init_cursor_lt hsorted hlast (hpositive _ (List.mem_append_right _ hlast))
      rw [init_cursor hsorted, ← List.append_assoc, List.getLast?_concat]
      exact hlt.le
  · rw [init_items, init_items, ordered_eq_self hsorted, ordered_eq_self hearlier,
      List.filterMap_append, leaders_append, List.map_append]
    refine ⟨_, _, rfl, ?_, ?_⟩
    · rw [List.forall₂_map_left_iff, List.forall₂_map_right_iff, List.forall₂_same]
      intro leader hleader
      exact itemOf_grows ((leaders_sublist _).subset hleader)
    · intro item hitem
      obtain ⟨leader, hleader, rfl⟩ := List.mem_map.mp hitem
      obtain ⟨hmem, -⟩ := mem_shown.1 ((leadersBehind_sublist _ _).subset hleader)
      obtain ⟨more, hmore⟩ := itemOf_eq (List.filterMap CodexEvent.shown earlier ++
        List.filterMap CodexEvent.shown later) leader
      rw [hmore]
      exact init_cursor_lt hsorted hmem (hpositive _ (List.mem_append_right _ hmem))

end Continuation

/-! ### Results -/

section Results

variable [UnicodeNormalization]

/-- What a transcript shows of events with different numbers: its items are in
the order of the events that have made them, every event of a kind that is shown
is in exactly one of them, and the text of an item is the texts of its events in
their order; in what order the events are given does not matter. -/
theorem transcript_shows {events : List CodexEvent}
    (hdistinct : (events.map CodexEvent.sequence).Nodup) :
    ((CodexTranscript.init events).items.Pairwise fun first second => first.id < second.id) ∧
    (∀ event ∈ events, event.kind.presentationKind.isSome →
      ∃ item ∈ (CodexTranscript.init events).items, event.ShownIn item ∧
        ∀ other ∈ (CodexTranscript.init events).items, event.ShownIn other → other = item) ∧
    (∀ item ∈ (CodexTranscript.init events).items, ∃ first later,
      (CodexEvent.ordered events).filter (·.ShownIn item) = first :: later ∧
        item = { CodexEvent.transcriptItem (item.kind, first) with
          content := String.join ((first :: later).map CodexEvent.text) }) ∧
    ∀ others, others.Perm events → CodexTranscript.init others = CodexTranscript.init events := by
  have hnumbers : ((CodexEvent.ordered events).map CodexEvent.sequence).Nodup :=
    (((List.mergeSort_perm _ _).map _).nodup_iff).mpr hdistinct
  refine ⟨?_, ?_, ?_, ?_⟩
  · rw [init_items, List.pairwise_map]
    apply ((shown_pairwise (ordered_strict hdistinct)).sublist (leaders_sublist _)).imp
    intro first second hlt
    obtain ⟨firstMore, hfirst⟩ := itemOf_eq
      ((CodexEvent.ordered events).filterMap CodexEvent.shown) first
    obtain ⟨secondMore, hsecond⟩ := itemOf_eq
      ((CodexEvent.ordered events).filterMap CodexEvent.shown) second
    rw [hfirst, hsecond]
    exact hlt
  · intro event hevent hkind
    obtain ⟨kind, hkind⟩ := Option.isSome_iff_exists.mp hkind
    have hentry : (kind, event) ∈ (CodexEvent.ordered events).filterMap CodexEvent.shown :=
      mem_shown.2 ⟨mem_ordered.2 hevent, hkind⟩
    obtain ⟨leader, hleader, hbelongs, hunique⟩ := exists_unique_leader hnumbers hentry
    have hshown {other} (hother : other ∈ leaders CodexEvent.streamingKey
        ((CodexEvent.ordered events).filterMap CodexEvent.shown)) :=
      shownIn_itemOf hnumbers hentry ((leaders_sublist _).subset hother)
        ((CodexEvent.ordered events).filterMap CodexEvent.shown)
    rw [init_items]
    refine ⟨_, List.mem_map_of_mem hleader, (hshown hleader).mpr hbelongs, ?_⟩
    intro item hitem hshows
    obtain ⟨other, hother, rfl⟩ := List.mem_map.mp hitem
    rw [hunique other hother ((hshown hother).mp hshows)]
  · intro item hitem
    rw [init_items] at hitem
    obtain ⟨leader, hleader, rfl⟩ := List.mem_map.mp hitem
    obtain ⟨later, hfilter, htexts⟩ := itemOf_texts hnumbers hleader
    refine ⟨leader.2, later, hfilter, ?_⟩
    rw [htexts]
    rfl
  · intro others hperm
    rw [CodexTranscript.init, CodexTranscript.init, ordered_eq_of_perm hdistinct hperm]

/-- The transcript of what the workspace has of a task. -/
def EventSync.transcript (state : EventSync) (taskId : TaskId) : CodexTranscript :=
  .init ((state.eventsOf taskId).map CodexEvent.init)

/-- The transcript of the whole log of a task. -/
def EventLog.transcript (log : EventLog) (taskId : TaskId) : CodexTranscript :=
  .init ((log.store.codexLog taskId).map CodexEvent.init)

/-- Initial parts of a numbered log have transcripts that continue one another. -/
theorem continues_of_grown {log earlier later : List CodexEventRecord}
    (hlog : NumberedLog.Numbered CodexEventRecord.sequence log) (hearlier : earlier <+: later)
    (hlater : later <+: log) : (CodexTranscript.init (earlier.map CodexEvent.init)).Continues
      (CodexTranscript.init (later.map CodexEvent.init)) := by
  have hnumbers : (log.map CodexEventRecord.sequence).Pairwise (· < ·) := by
    rw [hlog]
    exact List.pairwise_lt_range'
  have hsorted := (List.pairwise_map.mp hnumbers).sublist hlater.sublist
  apply init_continues
  · exact List.pairwise_map.mpr hsorted
  · intro event hevent
    obtain ⟨record, hrecord, rfl⟩ := List.mem_map.mp hevent
    have hmem : record.sequence ∈ log.map CodexEventRecord.sequence :=
      List.mem_map_of_mem (hlater.subset hrecord)
    rw [hlog, List.mem_range'_1] at hmem
    exact hmem.1
  · exact hearlier.map CodexEvent.init

/-- Until the application is launched again, what the transcript of a task has
shown stays: later transcripts have more text and further items.  At any time
the transcript is the beginning of the one of the engine's log. -/
theorem transcript_follows_log {events more : List RefreshEvent} {state final : EventSync}
    (hrun : run EventSync.step EventSync.initial events = some state)
    (hmore : run EventSync.step state more = some final)
    (hstays : ∀ event ∈ more, event ≠ .relaunch) (taskId : TaskId) :
    (EventSync.transcript state taskId).Continues (EventSync.transcript final taskId) ∧
      (EventSync.transcript final taskId).Continues (EventLog.transcript final.log taskId) := by
  have hstate : state.Synced :=
    invariant_of_run (fun _ _ _ hinv hstep => hinv.step hstep) hrun .initial
  obtain ⟨hfinal, hgrows⟩ := hstate.run_grows hstays hmore
  have hlog := hfinal.gapless.numbered taskId
  exact ⟨continues_of_grown hlog (hgrows taskId) (hfinal.held taskId),
    continues_of_grown hlog (hfinal.held taskId) (List.prefix_refl _)⟩

end Results

namespace TranscriptSample

open Patchwright.Sample

def codexEvent (sequence : Nat) (kind : CodexEventKind) (itemId content : String) : CodexEvent where
  taskId := taskId
  processGeneration := session.processGeneration
  sequence := sequence
  kind := kind
  summary := "stream"
  threadId := some "thread-1"
  turnId := some "turn-1"
  itemId := some itemId
  content := some content
  occurredAt := 0

def codexEvents : List CodexEvent := [codexEvent 3 .textDelta "agent-1" "world",
  codexEvent 1 .userMessage "message-1" "Please implement.",
  codexEvent 2 .textDelta "agent-1" "Hello "]

end TranscriptSample

open TranscriptSample

open scoped WorkspaceSorting.SortSample in
theorem transcript_shows_message : ∃ item ∈ (CodexTranscript.init codexEvents).items,
    (codexEvent 1 .userMessage "message-1" "Please implement.").ShownIn item := by
  have hdistinct : (codexEvents.map CodexEvent.sequence).Nodup := by decide
  obtain ⟨item, hitem, hshown, -⟩ := (transcript_shows hdistinct).2.1 _
    (List.mem_cons_of_mem _ List.mem_cons_self) rfl
  exact ⟨item, hitem, hshown⟩

open scoped WorkspaceSorting.SortSample in
theorem transcript_follows_sample : ∃ state final,
    run EventSync.step EventSync.initial Patchwright.Sample.syncEvents = some state ∧
    run EventSync.step state Patchwright.Sample.lastRefresh = some final ∧
    (EventSync.transcript state Patchwright.Sample.taskId).Continues
      (EventSync.transcript final Patchwright.Sample.taskId) := by
  have hsome : ((run EventSync.step EventSync.initial Patchwright.Sample.syncEvents).bind
      (run EventSync.step · Patchwright.Sample.lastRefresh)).isSome := by decide +kernel
  obtain ⟨final, hfinal⟩ := Option.isSome_iff_exists.mp hsome
  obtain ⟨state, hrun, hmore⟩ := Option.bind_eq_some_iff.mp hfinal
  exact ⟨state, final, hrun, hmore, (transcript_follows_log hrun hmore
    (by simp [Patchwright.Sample.lastRefresh]) _).1⟩

end Patchwright.Workspace
