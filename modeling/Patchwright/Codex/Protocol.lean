import Mathlib
import Patchwright.Library.Json
import Patchwright.Library.Checked

/-!
# The protocol of the Codex app-server

The app-server writes one JSON-RPC message a line.  A message with an
identifier and a method is a request of the server, one with an identifier
alone a response, one with a method alone a notification.  The decoder keeps
the requests that wait for a response and the turns whose completion it has
seen; it refuses a response nobody waits for and a second completion of a turn.
-/

namespace Patchwright.Protocol

open Checked

def maxLineBytes : Nat := 4 * 1024 * 1024

/-- A line of the server: its length, and the value or the error its text has
as JSON. -/
structure ServerLine where
  length : Nat
  value : Except String Json

inductive RequestId where
  | number (value : Int)
  | string (value : String)
  deriving DecidableEq, Repr

structure ResponseEnvelope where
  id : RequestId
  payload : Json
  isError : Bool

inductive ServerRequestKind where
  | commandApproval
  | fileChangeApproval
  | permissionApproval
  | unsupported (method : String)
  deriving DecidableEq, Repr

structure ServerRequestEnvelope where
  id : RequestId
  kind : ServerRequestKind
  params : Json

inductive TurnStatus where
  | completed
  | interrupted
  | failed
  | inProgress
  deriving DecidableEq, Repr

def TurnStatus.ofName? : String → Option TurnStatus
  | "completed" => some .completed
  | "interrupted" => some .interrupted
  | "failed" => some .failed
  | "inProgress" => some .inProgress
  | _ => none

inductive CodexEvent where
  | initialized
  | itemStarted (threadId turnId itemId : String)
  | itemCompleted (threadId turnId itemId : String)
  | turnCompleted (threadId turnId : String) (status : TurnStatus)
  | error (threadId turnId : String) (willRetry : Bool)
  | unsupported (method : String)
  deriving DecidableEq, Repr

inductive IncomingMessage where
  | response (response : ResponseEnvelope)
  | serverRequest (request : ServerRequestEnvelope)
  | event (event : CodexEvent)

inductive ProtocolError where
  | lineTooLarge (actual maximum : Nat)
  | malformedJson (error : String)
  | notAnObject
  | missingField (field : String)
  | unsupportedJsonRpcVersion
  | invalidRequestId
  | duplicateRequestId (id : RequestId)
  | unexpectedResponseId (id : RequestId)
  | duplicateCompletion (threadId turnId : String)
  | unknownTurnStatus (status : String)
  deriving DecidableEq, Repr

structure ProtocolDecoder where
  pendingRequests : Finset RequestId
  completedTurns : Finset (String × String)

def ProtocolDecoder.new : ProtocolDecoder := ⟨∅, ∅⟩

/-! ### Reading fields -/

def requiredObject : Option Json → Except ProtocolError Json
  | some (.obj fields) => .ok (.obj fields)
  | _ => .error (.missingField "params")

def requiredString (value : Option Json) (field : String) : Except ProtocolError String :=
  match value.bind Json.asStr? with
  | some text => if text = "" then .error (.missingField field) else .ok text
  | none => .error (.missingField field)

/-- The object in a field. -/
def requiredInner (params : Json) (field : String) : Except ProtocolError Json :=
  match params.get? field with
  | some (.obj fields) => .ok (.obj fields)
  | _ => .error (.missingField field)

def validateRequestId : RequestId → Except ProtocolError Unit
  | .string value => if value = "" then .error .invalidRequestId else .ok ()
  | .number _ => .ok ()

/-- A number that fits in 64 bits, or a text. -/
def decodeRequestId (value : Json) : Except ProtocolError RequestId := do
  let id ← match value with
    | .int value =>
        if -2 ^ 63 ≤ value ∧ value < 2 ^ 63 then .ok (.number value)
        else .error ProtocolError.invalidRequestId
    | .str value => .ok (.string value)
    | _ => .error .invalidRequestId
  validateRequestId id
  return id

/-! ### Decoding a line -/

def decodeItem (params : Option Json) (started : Bool) : Except ProtocolError CodexEvent := do
  let params ← requiredObject params
  let threadId ← requiredString (params.get? "threadId") "threadId"
  let turnId ← requiredString (params.get? "turnId") "turnId"
  let item ← requiredInner params "item"
  let itemId ← requiredString (item.get? "id") "item.id"
  return if started then .itemStarted threadId turnId itemId
    else .itemCompleted threadId turnId itemId

def decodeError (params : Option Json) : Except ProtocolError CodexEvent := do
  let params ← requiredObject params
  let threadId ← requiredString (params.get? "threadId") "threadId"
  let turnId ← requiredString (params.get? "turnId") "turnId"
  let willRetry ← okOr (.missingField "willRetry") ((params.get? "willRetry").bind Json.asBool?)
  return .error threadId turnId willRetry

/-- The turn a completion names, with its status. -/
def readCompletion (params : Option Json) : Except ProtocolError (String × String × TurnStatus) := do
  let params ← requiredObject params
  let threadId ← requiredString (params.get? "threadId") "threadId"
  let turn ← requiredInner params "turn"
  let turnId ← requiredString (turn.get? "id") "turn.id"
  let statusValue ← requiredString (turn.get? "status") "turn.status"
  let status ← okOr (.unknownTurnStatus statusValue) (TurnStatus.ofName? statusValue)
  return (threadId, turnId, status)

def decodeServerRequest (id : Json) (method : String) (params : Option Json) :
    Except ProtocolError IncomingMessage := do
  let params ← requiredObject params
  let id ← decodeRequestId id
  let kind := match method with
    | "item/commandExecution/requestApproval" => ServerRequestKind.commandApproval
    | "item/fileChange/requestApproval" => .fileChangeApproval
    | "item/permissions/requestApproval" => .permissionApproval
    | other => .unsupported other
  return .serverRequest ⟨id, kind, params⟩

/-- The payload of a response, an error where it has one. -/
def responsePayload (object : Json) : Except ProtocolError (Json × Bool) :=
  match object.get? "error" with
  | some error => .ok (error, true)
  | none => do
      let result ← okOr (.missingField "result") (object.get? "result")
      return (result, false)

namespace ProtocolDecoder

def registerRequest (decoder : ProtocolDecoder) (id : RequestId) :
    Except ProtocolError ProtocolDecoder := do
  validateRequestId id
  ensure (id ∉ decoder.pendingRequests) (ProtocolError.duplicateRequestId id)
  return { decoder with pendingRequests := insert id decoder.pendingRequests }

def cancelRequest (decoder : ProtocolDecoder) (id : RequestId) : ProtocolDecoder :=
  { decoder with pendingRequests := decoder.pendingRequests.erase id }

/-- A response ends the wait for it, also where it turns out to have no result. -/
def decodeResponse (decoder : ProtocolDecoder) (id object : Json) :
    ProtocolDecoder × Except ProtocolError IncomingMessage :=
  match decodeRequestId id with
  | .error error => (decoder, .error error)
  | .ok id =>
      if id ∈ decoder.pendingRequests then
        (decoder.cancelRequest id, do
          let (payload, isError) ← responsePayload object
          return .response ⟨id, payload, isError⟩)
      else (decoder, .error (.unexpectedResponseId id))

def decodeCompletion (decoder : ProtocolDecoder) (params : Option Json) :
    ProtocolDecoder × Except ProtocolError CodexEvent :=
  match readCompletion params with
  | .error error => (decoder, .error error)
  | .ok (threadId, turnId, status) =>
      if (threadId, turnId) ∈ decoder.completedTurns then
        (decoder, .error (.duplicateCompletion threadId turnId))
      else
        ({ decoder with completedTurns := insert (threadId, turnId) decoder.completedTurns },
          .ok (.turnCompleted threadId turnId status))

def decodeNotification (decoder : ProtocolDecoder) (method : String) (params : Option Json) :
    ProtocolDecoder × Except ProtocolError IncomingMessage :=
  match method with
  | "initialized" => (decoder, .ok (.event .initialized))
  | "item/started" => (decoder, .event <$> decodeItem params true)
  | "item/completed" => (decoder, .event <$> decodeItem params false)
  | "turn/completed" =>
      let (decoder, event) := decoder.decodeCompletion params
      (decoder, .event <$> event)
  | "error" => (decoder, .event <$> decodeError params)
  | other => (decoder, .ok (.event (.unsupported other)))

/-- Without a version a message is taken as version 2.0. -/
def hasVersion (object : Json) : Bool :=
  match object.get? "jsonrpc" with
  | none => true
  | some version => version.asStr? = some "2.0"

def decodeObject (decoder : ProtocolDecoder) (object : Json) :
    ProtocolDecoder × Except ProtocolError IncomingMessage :=
  match object.get? "id", (object.get? "method").bind Json.asStr? with
  | some id, some method => (decoder, decodeServerRequest id method (object.get? "params"))
  | some id, none => decoder.decodeResponse id object
  | none, some method => decoder.decodeNotification method (object.get? "params")
  | none, none => (decoder, .error (.missingField "method or id"))

def decodeLine (decoder : ProtocolDecoder) (line : ServerLine) :
    ProtocolDecoder × Except ProtocolError IncomingMessage :=
  if line.length > maxLineBytes then
    (decoder, .error (.lineTooLarge line.length maxLineBytes))
  else
    match line.value with
    | .error error => (decoder, .error (.malformedJson error))
    | .ok (.obj fields) =>
        if hasVersion (.obj fields) then decoder.decodeObject (.obj fields)
        else (decoder, .error .unsupportedJsonRpcVersion)
    | .ok _ => (decoder, .error .notAnObject)

end ProtocolDecoder

end Patchwright.Protocol
