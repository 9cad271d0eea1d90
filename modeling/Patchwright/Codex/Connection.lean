import Patchwright.Codex.Events
import Patchwright.Codex.Service

/-!
# A connection to an app-server process

What the service does with the lines of a running process.  A line is decoded
and, unless it answers a request, recorded; a completion of the active turn
also submits the task for verification.  The same handler serves the pump of a
caller who asks for events and the loop of a request that waits for its
response, and in both a line can fail part of the way, with what it has stored
so far left in place.
-/

namespace Patchwright

open Checked
open Protocol (ServerLine RequestId IncomingMessage ProtocolDecoder ProtocolError)

structure Connection extends ActiveCodex where
  decoder : ProtocolDecoder
  nextRequestId : Int
  clientMessageIds : Finset String
  interruptSent : Bool

inductive CodexServiceError where
  | protocol (error : ProtocolError)
  | persistence (message : String)
  | json (message : String)
  | service (message : String)
  | missingResponseField (field : String)
  deriving DecidableEq, Repr

namespace CodexServiceError

def taskNotFound : CodexServiceError := .service "task was not found"

def sessionNotReady : CodexServiceError := .service "Codex session is not ready"

def noActiveTurn : CodexServiceError := .service "a turn is not active"

def duplicateClientMessageId : CodexServiceError := .service "client message id was already used"

def invalidInput : CodexServiceError := .service "operator input is invalid"

def turnMismatch : CodexServiceError := .service "Codex returned a different active turn"

def requestRejected : CodexServiceError := .service "Codex rejected the request"

def responseMismatch : CodexServiceError :=
  .service "Codex returned a response for a different request"

end CodexServiceError

/-- Where some work has left the store and the connection, and how it ended. -/
structure Worked (α : Type) where
  store : EventStore
  connection : Connection
  outcome : Except CodexServiceError α

/-- The clock and the random identifiers that one line meets. -/
structure Draws where
  now : DateTime
  checkpointId : Uuid
  approvalId : Uuid
  deriving DecidableEq, Repr

/-! ### One line -/

section Lines

/-- The permission that a request of the server asks for, where it asks for one. -/
def normalizeApproval (draws : Draws) (connection : Connection)
    (request : Protocol.ServerRequestEnvelope) :
    Except CodexServiceError (Option CodexRuntimeApproval) :=
  let approval (kind : CodexApprovalKind) : Except CodexServiceError (Option CodexRuntimeApproval) := do
    let params := request.params
    let threadId ← okOr (.missingResponseField "approval identity") (stringField params "threadId")
    let turnId ← okOr (.missingResponseField "approval identity") (stringField params "turnId")
    let itemId ← okOr (.missingResponseField "approval identity") (stringField params "itemId")
    return some {
      id := draws.approvalId, taskId := connection.session.taskId, cls := .codexRuntime
      requestId := request.id, processGeneration := connection.session.processGeneration
      threadId, turnId, itemId, kind
      reason := (stringField params "reason").map boundedContent
      command := (stringField params "command").map boundedContent
      cwd := (stringField params "cwd").map boundedContent
      grantRoot := (stringField params "grantRoot").map boundedContent
      state := .pending, createdAt := draws.now, expiresAt := draws.now + minutes 10
      decidedAt := none }
  match request.kind with
  | .commandApproval => approval .command
  | .fileChangeApproval => approval .fileChange
  | _ => .ok none

def persistApproval (draws : Draws) (store : EventStore) (connection : Connection)
    (message : IncomingMessage) : Worked Unit :=
  match message with
  | .serverRequest request =>
      match normalizeApproval draws connection request with
      | .error error => ⟨store, connection, .error error⟩
      | .ok none => ⟨store, connection, .ok ()⟩
      | .ok (some approval) => ⟨store.saveCodexRuntimeApproval approval, connection, .ok ()⟩
  | _ => ⟨store, connection, .ok ()⟩

/-- The event is the end of a turn. -/
def CodexEventDraft.completed (draft : CodexEventDraft) : Bool := draft.kind = "turnCompleted"

/-- Forget the active turn, and submit its task. -/
def persistCompletion (ambient : Ambient) (draws : Draws) (store : EventStore)
    (connection : Connection) (message : IncomingMessage) : Worked Unit :=
  let connection := { connection with activeTurnId := none }
  match completeTurn ambient store connection.session.taskId draws.checkpointId with
  | .error error => ⟨store, connection, .error (.service error)⟩
  | .ok store => persistApproval draws store connection message

/-- Record a message.  The completion of a turn that is not the active one
leaves no trace. -/
def persistIncoming (ambient : Ambient) (draws : Draws) (store : EventStore)
    (connection : Connection) (raw : Json) (message : IncomingMessage) : Worked Unit :=
  match message, normalizeEvent raw with
  | .response _, _ => ⟨store, connection, .ok ()⟩
  | message, none => persistApproval draws store connection message
  | message, some draft =>
      if draft.completed ∧ ¬ connection.worksOn draft.threadId draft.turnId then
        ⟨store, connection, .ok ()⟩
      else
        match store.appendCodexEvent connection.session draft draws.now with
        | .error error => ⟨store, connection, .error (.persistence error)⟩
        | .ok (store, session) =>
            let connection := { connection with session }
            if draft.completed then persistCompletion ambient draws store connection message
            else persistApproval draws store connection message

/-- Read a line as JSON and as a message. -/
def Connection.receive (connection : Connection) (line : ServerLine) :
    Connection × Except CodexServiceError (Json × IncomingMessage) :=
  match line.value with
  | .error error => (connection, .error (.json error))
  | .ok raw =>
      let (decoder, message) := connection.decoder.decodeLine line
      ({ connection with decoder }, match message with
        | .error error => .error (.protocol error)
        | .ok message => .ok (raw, message))

/-- One line of `pump_available`. -/
def pumpLine (ambient : Ambient) (draws : Draws) (store : EventStore) (connection : Connection)
    (line : ServerLine) : Worked Unit :=
  match connection.receive line with
  | (connection, .error error) => ⟨store, connection, .error error⟩
  | (connection, .ok (raw, message)) => persistIncoming ambient draws store connection raw message

/-- One line of the loop in `request`: the payload of the response, or nothing
yet. -/
def requestLine (ambient : Ambient) (draws : Draws) (store : EventStore) (connection : Connection)
    (expectedId : RequestId) (line : ServerLine) : Worked (Option Json) :=
  match connection.receive line with
  | (connection, .error error) => ⟨store, connection, .error error⟩
  | (connection, .ok (_, .response response)) =>
      ⟨store, connection,
        if response.id ≠ expectedId then .error .responseMismatch
        else if response.isError then .error .requestRejected
        else .ok (some response.payload)⟩
  | (connection, .ok (raw, message)) =>
      let worked := persistIncoming ambient draws store connection raw message
      ⟨worked.store, worked.connection, (fun _ => none) <$> worked.outcome⟩

end Lines

/-! ### Requests -/

section Requests

/-- Number a request and wait for its response. -/
def Connection.beginRequest (connection : Connection) :
    Connection × Except CodexServiceError RequestId :=
  let id : RequestId := .number connection.nextRequestId
  let connection := { connection with nextRequestId := connection.nextRequestId + 1 }
  match connection.decoder.registerRequest id with
  | .error error => (connection, .error (.protocol error))
  | .ok decoder => ({ connection with decoder }, .ok id)

/-- A request that has failed is not waited for any more. -/
def Connection.cancelRequest (connection : Connection) (id : RequestId) : Connection :=
  { connection with decoder := connection.decoder.cancelRequest id }

def maxClientMessageIdBytes : Nat := 128

def validateOperatorInput (clientMessageId input : String) : Except CodexServiceError Unit :=
  ensure (¬ (clientMessageId = "" ∨ clientMessageId.utf8ByteSize > maxClientMessageIdBytes ∨
      clientMessageId.toList.any isControl ∨ trim input = "" ∨
      input.utf8ByteSize > maxInputBytes ∨ '\x00' ∈ input.toList))
    .invalidInput

/-- A message of the operator, by its identifier and its text. -/
structure OperatorMessage where
  id : String
  input : String
  deriving DecidableEq, Repr

/-- Claim the identifier of a message of the operator.  The claim stays also
when the message is refused later. -/
def Connection.claimMessage (connection : Connection) (message : OperatorMessage) :
    Except CodexServiceError Connection := do
  ensure (message.id ∉ connection.clientMessageIds) CodexServiceError.duplicateClientMessageId
  return { connection with clientMessageIds := insert message.id connection.clientMessageIds }

/-- The part of `start_turn` before its request waits. -/
def startTurnBegin (connection : Connection) (message : OperatorMessage) :
    Connection × Except CodexServiceError (RequestId × String) :=
  match (do
      validateOperatorInput message.id message.input
      ensure (connection.session.status = CodexSessionStatus.ready) CodexServiceError.sessionNotReady
      connection.claimMessage message) with
  | .error error => (connection, .error error)
  | .ok connection =>
      match connection.session.threadId with
      | none => (connection, .error .sessionNotReady)
      | some threadId =>
          let (connection, begun) := connection.beginRequest
          (connection, (fun id => (id, threadId)) <$> begun)

def operatorDraft (kind summary threadId turnId : String) (message : OperatorMessage) :
    CodexEventDraft where
  kind := kind
  summary := summary
  threadId := some threadId
  turnId := some turnId
  itemId := some message.id
  content := some (boundedContent message.input)

def appendEvent (draws : Draws) (store : EventStore) (connection : Connection)
    (draft : CodexEventDraft) : Worked Unit :=
  match store.appendCodexEvent connection.session draft draws.now with
  | .error error => ⟨store, connection, .error (.persistence error)⟩
  | .ok (store, session) => ⟨store, { connection with session }, .ok ()⟩

/-- The part of `start_turn` after the response: only now the turn is active. -/
def startTurnEnd (draws : Draws) (store : EventStore) (connection : Connection) (threadId : String)
    (message : OperatorMessage) (payload : Json) : Worked Unit :=
  match (payload.get? "turn").bind fun turn => stringField turn "id" with
  | none => ⟨store, connection, .error (.missingResponseField "turn.id")⟩
  | some turnId =>
      appendEvent draws store
        { connection with
          activeTurnId := some turnId
          session := { connection.session with lastTurnId := some turnId } }
        (operatorDraft "userMessage" "Operator message sent" threadId turnId message)

def steerTurnBegin (connection : Connection) (message : OperatorMessage) :
    Connection × Except CodexServiceError (RequestId × String × String) :=
  match (do
      validateOperatorInput message.id message.input
      connection.claimMessage message) with
  | .error error => (connection, .error error)
  | .ok connection =>
      match connection.session.threadId, connection.activeTurnId with
      | none, _ => (connection, .error .sessionNotReady)
      | some _, none => (connection, .error .noActiveTurn)
      | some threadId, some turnId =>
          let (connection, begun) := connection.beginRequest
          (connection, (fun id => (id, threadId, turnId)) <$> begun)

def steerTurnEnd (draws : Draws) (store : EventStore) (connection : Connection)
    (threadId turnId : String) (message : OperatorMessage) (payload : Json) : Worked Unit :=
  match stringField payload "turnId" with
  | none => ⟨store, connection, .error (.missingResponseField "turnId")⟩
  | some answered =>
      if answered ≠ turnId then ⟨store, connection, .error .turnMismatch⟩
      else
        appendEvent draws store connection
          (operatorDraft "userSteer" "Operator steering message sent" threadId turnId message)

/-- The part of `request_interrupt_if_active` before its request waits: the turn
to interrupt, or nothing where none is active or it was asked for before. -/
def askInterrupt (connection : Connection) :
    Connection × Option (RequestId × String × String) :=
  match connection.session.threadId, connection.activeTurnId with
  | some threadId, some turnId =>
      if connection.interruptSent then (connection, none)
      else
        let (connection, begun) := { connection with interruptSent := true }.beginRequest
        (connection, (begun.toOption).map fun id => (id, threadId, turnId))
  | _, _ => (connection, none)

end Requests

/-! ### Reading a line -/

section Receive

variable {connection received : Connection} {line : ServerLine} {raw : Json}
variable {message : IncomingMessage} {draft : CodexEventDraft}

theorem decodeNotification_not_response {decoder next : ProtocolDecoder} {method : String}
    {params : Option Json} {response : Protocol.ResponseEnvelope} :
    decoder.decodeNotification method params ≠ (next, .ok (.response response)) := by
  intro hdecode
  unfold ProtocolDecoder.decodeNotification at hdecode
  split at hdecode
  all_goals
    have hevent := congrArg Prod.snd hdecode
    simp only [map_eq_ok, reduceCtorEq, and_false, exists_false, Except.ok.injEq] at hevent

/-- Only a message without a method is a response. -/
theorem decodeObject_response {decoder next : ProtocolDecoder} {object : Json}
    {response : Protocol.ResponseEnvelope}
    (hdecode : decoder.decodeObject object = (next, .ok (.response response))) :
    stringField object "method" = none := by
  rw [stringField]
  unfold ProtocolDecoder.decodeObject at hdecode
  split at hdecode
  next id method _ hmethod =>
    have hrequest := congrArg Prod.snd hdecode
    simp only [Protocol.decodeServerRequest, bind_eq_ok, pure_eq_ok, reduceCtorEq, and_false,
      exists_false] at hrequest
  next id _ hmethod => exact hmethod
  next method _ hmethod => exact absurd hdecode decodeNotification_not_response
  next _ hmethod => exact hmethod

theorem decodeLine_object {decoder next : ProtocolDecoder}
    (hdecode : decoder.decodeLine line = (next, .ok message)) (hvalue : line.value = .ok raw) :
    decoder.decodeObject raw = (next, .ok message) := by
  unfold ProtocolDecoder.decodeLine at hdecode
  rw [hvalue] at hdecode
  split at hdecode
  · cases congrArg Prod.snd hdecode
  · split at hdecode
    next error herror => cases herror
    next fields hfields =>
      cases hfields
      split at hdecode
      · exact hdecode
      · cases congrArg Prod.snd hdecode
    next => cases congrArg Prod.snd hdecode

theorem receive_eq_ok (hreceived : connection.receive line = (received, .ok (raw, message))) :
    line.value = .ok raw ∧ ∃ decoder, received = { connection with decoder } ∧
      connection.decoder.decodeObject raw = (decoder, .ok message) := by
  unfold Connection.receive at hreceived
  cases hvalue : line.value with
  | error error =>
      rw [hvalue] at hreceived
      cases congrArg Prod.snd hreceived
  | ok value =>
      rw [hvalue] at hreceived
      cases hdecode : connection.decoder.decodeLine line with
      | mk decoder decoded =>
          simp only [hdecode, Prod.mk.injEq] at hreceived
          rcases hreceived with ⟨rfl, hmessage⟩
          cases decoded with
          | error error => cases hmessage
          | ok decoded =>
              cases hmessage
              exact ⟨rfl, decoder, rfl, decodeLine_object hdecode hvalue⟩

/-- A message that is kept is no response. -/
theorem receive_not_response (hreceived : connection.receive line = (received, .ok (raw, message)))
    (hdraft : normalizeEvent raw = some draft) (response : Protocol.ResponseEnvelope) :
    message ≠ .response response := by
  rintro rfl
  obtain ⟨-, decoder, -, hdecode⟩ := receive_eq_ok hreceived
  rw [normalizeEvent, decodeObject_response hdecode] at hdraft
  cases hdraft

/-- Receiving a line changes the decoder alone. -/
theorem receive_active (connection : Connection) (line : ServerLine) :
    (connection.receive line).1.toActiveCodex = connection.toActiveCodex := by
  unfold Connection.receive
  split <;> rfl

end Receive

section Persist

variable {ambient : Ambient} {draws : Draws} {store : EventStore} {connection : Connection}
variable {raw : Json} {message : IncomingMessage} {draft : CodexEventDraft}

/-- What is done with a message that is kept. -/
theorem persistIncoming_draft (hmessage : ∀ response, message ≠ .response response)
    (hdraft : normalizeEvent raw = some draft) :
    persistIncoming ambient draws store connection raw message =
      if draft.completed ∧ ¬ connection.worksOn draft.threadId draft.turnId then
        ⟨store, connection, .ok ()⟩
      else
        match store.appendCodexEvent connection.session draft draws.now with
        | .error error => ⟨store, connection, .error (.persistence error)⟩
        | .ok (store, session) =>
            let connection := { connection with session }
            if draft.completed then persistCompletion ambient draws store connection message
            else persistApproval draws store connection message := by
  unfold persistIncoming
  rw [hdraft]
  cases message with
  | response response => exact absurd rfl (hmessage response)
  | serverRequest request => rfl
  | event event => rfl

end Persist

namespace Sample

def draws : Draws := ⟨0, ⟨14⟩, ⟨15⟩⟩

end Sample

end Patchwright
