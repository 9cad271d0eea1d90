import Patchwright.Core.Policy
import Patchwright.Codex.Protocol

/-!
# Sessions with the app-server

The record of the session a task holds with the app-server.  It names the
generation of the process and the thread, and says how far the connection has
come.  Beside it stand the events that are recorded for a session, and the
permissions the app-server has asked for.
-/

namespace Patchwright

inductive CodexAccountState where
  | signedIn
  | signedOut
  | unavailable
  deriving DecidableEq, Repr

inductive CodexSessionStatus where
  | starting
  | initialized
  | ready
  | staleThreadNeedsConfirmation
  | failed
  deriving DecidableEq, Repr

structure CodexSessionRecord where
  taskId : TaskId
  processGeneration : Uuid
  protocolVersion : String
  executableVersion : String
  accountState : CodexAccountState
  threadId : Option String
  lastTurnId : Option String
  lastSequence : Nat
  status : CodexSessionStatus
  updatedAt : DateTime
  deriving DecidableEq, Repr

structure CodexEventRecord where
  taskId : TaskId
  processGeneration : Uuid
  sequence : Nat
  kind : String
  summary : String
  threadId : Option String
  turnId : Option String
  itemId : Option String
  content : Option String
  occurredAt : DateTime
  deriving DecidableEq, Repr

/-- An event before it has a place in the sequence of its task. -/
structure CodexEventDraft where
  kind : String
  summary : String
  threadId : Option String
  turnId : Option String
  itemId : Option String
  content : Option String
  deriving DecidableEq, Repr

def CodexEventDraft.status (kind summary : String) : CodexEventDraft :=
  ⟨kind, summary, none, none, none, none⟩

inductive CodexApprovalKind where
  | command
  | fileChange
  deriving DecidableEq, Repr

inductive CodexApprovalState where
  | pending
  | approved
  | declined
  | expired
  | invalidated
  deriving DecidableEq, Repr

structure CodexRuntimeApproval where
  id : Uuid
  taskId : TaskId
  cls : ApprovalClass
  requestId : Protocol.RequestId
  processGeneration : Uuid
  threadId : String
  turnId : String
  itemId : String
  kind : CodexApprovalKind
  reason : Option String
  command : Option String
  cwd : Option String
  grantRoot : Option String
  state : CodexApprovalState
  createdAt : DateTime
  expiresAt : DateTime
  decidedAt : Option DateTime
  deriving DecidableEq, Repr

end Patchwright
