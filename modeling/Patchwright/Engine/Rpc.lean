import Mathlib
import Patchwright.Library.Framing
import Patchwright.Library.Runs

/-!
# Connections to the engine

The engine serves a bounded number of connections at once, and each of them one
request after the other.  A request is a line of JSON; what is no request is
answered with an error, and a line that is too long ends the connection.  The
handlers are not described here: a handler makes some outcome of its request, and
the response carries the identity of the request.
-/

namespace Patchwright.Rpc

open Framing Runs

def newline : UInt8 := 10

def maxRpcFrameBytes : Nat := 1024 * 1024

def maxRpcConnections : Nat := 32

structure Request where
  id : Json
  method : String
  params : Json

/-- The reader of requests. -/
class RequestReader where
  read : List UInt8 → Except String Request

def rpcResult (id result : Json) : Json :=
  .obj [("id", id), ("jsonrpc", .str "2.0"), ("result", result)]

def rpcError (id : Json) (code : Int) (message : String) (detail : Option String) : Json :=
  .obj [("error", .obj [("code", .int code), ("data", .ofOption .str detail),
    ("message", .str message)]), ("id", id), ("jsonrpc", .str "2.0")]

def requestTooLarge : Json := rpcError .null (-32600) "request frame is too large" none

def parseError (detail : String) : Json := rpcError .null (-32700) "parse error" (some detail)

/-- What a handler makes of a request. -/
inductive Outcome where
  | result (value : Json)
  | error (code : Int) (message : String) (detail : Option String)

def Outcome.response (id : Json) : Outcome → Json
  | result value => rpcResult id value
  | error code message detail => rpcError id code message detail

def methodNotFound : Outcome := .error (-32601) "method not found" none

/-- The methods that have a handler. -/
def methods : List String :=
  ["system.health", "task.create", "task.list", "task.timeline", "task.worktree", "task.plan",
    "task.contract", "task.preparation.preview", "task.preparation.approve", "task.prepare",
    "task.readyForDelivery", "task.previewFromGitHub", "task.createFromGitHub",
    "task.reconcileGitHub", "repository.bind", "github.status", "github.repositories",
    "github.queue", "github.queue.assess", "github.queue.decisions", "github.repository",
    "github.sync", "github.sync.repository", "github.sync.start", "github.sync.status",
    "github.sync.cancel", "github.webhook.ingest", "delivery.preview", "delivery.approve",
    "delivery.execute", "delivery.status", "monitor.start", "monitor.status", "monitor.observe",
    "monitor.wake", "monitor.cancel", "codex.status", "codex.start", "codex.events",
    "codex.turn.start", "codex.turn.steer", "codex.approvals", "codex.approval.resolve",
    "codex.pause", "codex.cancel"]

/-- The outcomes that a request may have. -/
def Request.Permits (request : Request) (outcome : Outcome) : Prop :=
  request.method ∉ methods → outcome = methodNotFound

/-! ## One connection -/

inductive Place where
  | reading
  | dispatching (request : Request)
  | finished
  | refused
  | lost

/-- A connection, with all that its peer sends until it closes. -/
structure RpcConnection where
  stream : List UInt8
  unread : List UInt8
  place : Place
  written : List Json

namespace RpcConnection

def new (stream : List UInt8) : RpcConnection := ⟨stream, stream, .reading, []⟩

def isOpen (connection : RpcConnection) : Bool :=
  match connection.place with
  | .reading | .dispatching _ => true
  | .finished | .refused | .lost => false

/-- Read a frame, and answer it at once unless it is a request. -/
def read [RequestReader] (connection : RpcConnection) : Option RpcConnection :=
  match connection.place with
  | .reading =>
      match nextFrame newline maxRpcFrameBytes connection.unread with
      | .ended => some { connection with place := .finished }
      | .refused => some { connection with
          place := .refused
          written := connection.written ++ [requestTooLarge] }
      | .line content rest =>
          match RequestReader.read content with
          | .ok request => some { connection with unread := rest, place := .dispatching request }
          | .error detail => some { connection with
              unread := rest
              written := connection.written ++ [parseError detail] }
  | _ => none

/-- The handler has returned. -/
def answer (connection : RpcConnection) (outcome : Outcome) : Option RpcConnection :=
  match connection.place with
  | .dispatching request =>
      if request.method ∈ methods then some { connection with
        place := .reading
        written := connection.written ++ [outcome.response request.id] }
      else some { connection with
        place := .reading
        written := connection.written ++ [methodNotFound.response request.id] }
  | _ => none

/-- Reading or writing has failed, or the engine shuts down. -/
def lose (connection : RpcConnection) : Option RpcConnection :=
  if connection.isOpen then some { connection with place := .lost } else none

end RpcConnection

/-- The response answers what the line holds. -/
def Answers [RequestReader] (content : List UInt8) (response : Json) : Prop :=
  match RequestReader.read content with
  | .ok request => ∃ outcome, request.Permits outcome ∧ response = outcome.response request.id
  | .error detail => response = parseError detail

namespace RpcConnection

/-- What has been written on a connection: an answer to each line, in order. -/
def Served [RequestReader] (connection : RpcConnection) : Prop :=
  ∃ contents answers, (∀ content ∈ contents, Fits newline maxRpcFrameBytes content) ∧
    List.Forall₂ Answers contents answers ∧
    match connection.place with
    | .reading =>
        connection.stream = framed newline contents ++ connection.unread ∧
          connection.written = answers
    | .dispatching request => ∃ content, Fits newline maxRpcFrameBytes content ∧
        RequestReader.read content = .ok request ∧
        connection.stream = framed newline (contents ++ [content]) ++ connection.unread ∧
          connection.written = answers
    | .finished => connection.stream = framed newline contents ∧ connection.written = answers
    | .refused => ∃ rest, connection.stream = framed newline contents ++ rest ∧ rest ≠ [] ∧
        newline ∉ rest.take maxRpcFrameBytes ∧ connection.written = answers ++ [requestTooLarge]
    | .lost => framed newline contents <+: connection.stream ∧ connection.written = answers

section Steps

variable [RequestReader] {connection next : RpcConnection} {outcome : Outcome}

theorem served_new (stream : List UInt8) : (new stream).Served :=
  ⟨[], [], fun _ hmem => absurd hmem List.not_mem_nil, .nil, rfl, rfl⟩

theorem Served.read (hserved : connection.Served) (hread : connection.read = some next) :
    next.Served := by
  obtain ⟨contents, answers, hfits, hanswers, hplace⟩ := hserved
  unfold RpcConnection.read at hread
  split at hread
  next hreading =>
    rw [hreading] at hplace
    obtain ⟨hstream, hwritten⟩ := hplace
    split at hread
    next hframe =>
      cases hread
      refine ⟨contents, answers, hfits, hanswers, ?_, hwritten⟩
      rw [hstream, nextFrame_eq_ended hframe, List.append_nil]
    next hframe =>
      cases hread
      obtain ⟨hne, hsep⟩ := nextFrame_eq_refused hframe
      exact ⟨contents, answers, hfits, hanswers, connection.unread, hstream, hne, hsep,
        by rw [hwritten]⟩
    next content rest hframe =>
      obtain ⟨hcontent, hunread⟩ := nextFrame_eq_line hframe
      have hsplit : connection.stream = framed newline (contents ++ [content]) ++ rest := by
        rw [hstream, hunread, framed_append, framed_singleton, List.append_assoc, List.append_assoc,
          List.singleton_append]
      split at hread
      next request hrequest =>
        cases hread
        exact ⟨contents, answers, hfits, hanswers, content, hcontent, hrequest, hsplit, hwritten⟩
      next detail hdetail =>
        cases hread
        have hanswer : Answers content (parseError detail) := by rw [Answers, hdetail]
        refine ⟨contents ++ [content], answers ++ [parseError detail], ?_,
          List.rel_append hanswers (.cons hanswer .nil), ?_⟩
        · exact List.forall_mem_append.mpr ⟨hfits, List.forall_mem_singleton.mpr hcontent⟩
        · dsimp only
          rw [hreading]
          exact ⟨hsplit, by rw [hwritten]⟩
  next => cases hread

theorem Served.answer (hserved : connection.Served)
    (hanswer : connection.answer outcome = some next) : next.Served := by
  obtain ⟨contents, answers, hfits, hanswers, hplace⟩ := hserved
  unfold RpcConnection.answer at hanswer
  split at hanswer
  next request hdispatching =>
    rw [hdispatching] at hplace
    obtain ⟨content, hcontent, hrequest, hstream, hwritten⟩ := hplace
    have hmore := List.forall_mem_append.mpr ⟨hfits, List.forall_mem_singleton.mpr hcontent⟩
    have hserved {found : Outcome} (hpermits : request.Permits found) :
        Served { connection with
          place := .reading
          written := connection.written ++ [found.response request.id] } := by
      have hlast : Answers content (found.response request.id) := by
        rw [Answers, hrequest]
        exact ⟨found, hpermits, rfl⟩
      exact ⟨contents ++ [content], answers ++ [found.response request.id], hmore,
        List.rel_append hanswers (.cons hlast .nil), hstream, by rw [hwritten]⟩
    split at hanswer
    next hmethod =>
      cases hanswer
      exact hserved fun hnone => absurd hmethod hnone
    next hnone =>
      cases hanswer
      exact hserved fun _ => rfl
  next => cases hanswer

theorem Served.lose (hserved : connection.Served) (hlose : connection.lose = some next) :
    next.Served := by
  obtain ⟨contents, answers, hfits, hanswers, hplace⟩ := hserved
  unfold RpcConnection.lose at hlose
  split at hlose
  next hopen =>
    cases hlose
    refine ⟨contents, answers, hfits, hanswers, ?_⟩
    unfold isOpen at hopen
    split at hopen
    next hreading =>
      rw [hreading] at hplace
      exact ⟨hplace.1 ▸ List.prefix_append _ _, hplace.2⟩
    next request hdispatching =>
      rw [hdispatching] at hplace
      obtain ⟨content, -, -, hstream, hwritten⟩ := hplace
      refine ⟨?_, hwritten⟩
      dsimp only
      rw [hstream, framed_append, List.append_assoc]
      exact List.prefix_append _ _
    all_goals cases hopen
  next => cases hlose

end Steps

end RpcConnection

/-! ## The server -/

/-- The permits that are free, whether the server waits for a peer with one, and
the connections it has had. -/
structure Server where
  permits : Nat
  waiting : Bool
  connections : List RpcConnection

inductive ServerEvent where
  | acquire
  | accept (authorized : Bool) (stream : List UInt8)
  | read (index : Nat)
  | answer (index : Nat) (outcome : Outcome)
  | lose (index : Nat)

namespace Server

def initial : Server := ⟨maxRpcConnections, false, []⟩

/-- A connection goes on.  It gives its permit back when it ends. -/
def settle (server : Server) (index : Nat) (connection : RpcConnection) : Server :=
  { server with
    connections := server.connections.set index connection
    permits := if connection.isOpen then server.permits else server.permits + 1 }

def step [RequestReader] (server : Server) : ServerEvent → Option Server
  | .acquire =>
      if server.waiting = false ∧ 0 < server.permits then
        some { server with permits := server.permits - 1, waiting := true }
      else none
  | .accept authorized stream =>
      if server.waiting then
        if authorized then some { server with
          waiting := false
          connections := server.connections ++ [.new stream] }
        else some { server with waiting := false, permits := server.permits + 1 }
      else none
  | .read index => do
      let connection ← server.connections[index]?
      return server.settle index (← connection.read)
  | .answer index outcome => do
      let connection ← server.connections[index]?
      return server.settle index (← connection.answer outcome)
  | .lose index => do
      let connection ← server.connections[index]?
      return server.settle index (← connection.lose)

/-- The connections that are served now. -/
def openCount (server : Server) : Nat := server.connections.countP (·.isOpen)

/-- Each permit is free, waits for a peer, or belongs to an open connection, and
every connection has got its answers. -/
structure Kept [RequestReader] (server : Server) : Prop where
  permits : server.permits + server.waiting.toNat + server.openCount = maxRpcConnections
  served : ∀ connection ∈ server.connections, connection.Served

section Invariant

variable [RequestReader] {server next : Server} {event : ServerEvent}
variable {connection changed : RpcConnection} {index : Nat}

theorem Kept.initial : Server.initial.Kept where
  permits := rfl
  served _ hmem := absurd hmem List.not_mem_nil

/-- A connection that was open goes on, or gives its permit back. -/
theorem Kept.settle (hkept : server.Kept) (hindex : server.connections[index]? = some connection)
    (hopen : connection.isOpen) (hserved : changed.Served) :
    (server.settle index changed).Kept := by
  obtain ⟨hlength, hconnection⟩ := List.getElem?_eq_some_iff.mp hindex
  refine ⟨?_, fun other hother => ?_⟩
  · have hpermits := hkept.permits
    have hcount : 0 < server.openCount :=
      List.countP_pos_iff.mpr ⟨connection, List.mem_of_getElem? hindex, hopen⟩
    unfold Server.openCount at hpermits hcount ⊢
    unfold Server.settle
    dsimp only
    rw [List.countP_set hlength, hconnection, if_pos hopen]
    by_cases hgoes : changed.isOpen
    · rw [if_pos hgoes, if_pos hgoes]
      omega
    · rw [if_neg hgoes, if_neg hgoes]
      omega
  · rcases List.mem_or_eq_of_mem_set hother with hmem | rfl
    · exact hkept.served other hmem
    · exact hserved

theorem isOpen_of_read (hread : connection.read = some changed) : connection.isOpen := by
  unfold RpcConnection.read at hread
  split at hread
  next hplace => rw [RpcConnection.isOpen, hplace]
  next => cases hread

omit [RequestReader] in
theorem isOpen_of_answer {outcome : Outcome} (hanswer : connection.answer outcome = some changed) :
    connection.isOpen := by
  unfold RpcConnection.answer at hanswer
  split at hanswer
  next hplace => rw [RpcConnection.isOpen, hplace]
  next => cases hanswer

omit [RequestReader] in
theorem isOpen_of_lose (hlose : connection.lose = some changed) : connection.isOpen := by
  unfold RpcConnection.lose at hlose
  split at hlose
  next hopen => exact hopen
  next => cases hlose

theorem Kept.step (hkept : server.Kept) (hstep : server.step event = some next) : next.Kept := by
  have hpermits := hkept.permits
  cases event with
  | acquire =>
      simp only [Server.step] at hstep
      split at hstep
      next hfree =>
        cases hstep
        refine ⟨?_, hkept.served⟩
        rw [hfree.1] at hpermits
        change server.permits - 1 + 1 + server.openCount = _
        change server.permits + 0 + server.openCount = _ at hpermits
        omega
      next => cases hstep
  | accept authorized stream =>
      simp only [Server.step] at hstep
      split at hstep
      next hwaiting =>
        rw [hwaiting] at hpermits
        change server.permits + 1 + server.openCount = _ at hpermits
        split at hstep
        · cases hstep
          refine ⟨?_, ?_⟩
          · change server.permits + 0 + (server.connections ++ [RpcConnection.new stream]).countP _ = _
            have hnew : (RpcConnection.new stream).isOpen := rfl
            rw [List.countP_append, List.countP_singleton, if_pos hnew]
            rw [Server.openCount] at hpermits
            omega
          · exact List.forall_mem_append.mpr
              ⟨hkept.served, List.forall_mem_singleton.mpr (RpcConnection.served_new stream)⟩
        · cases hstep
          refine ⟨?_, hkept.served⟩
          change server.permits + 1 + 0 + server.openCount = _
          omega
      next => cases hstep
  | read index =>
      obtain ⟨connection, hindex, hrest⟩ := Option.bind_eq_some_iff.mp hstep
      obtain ⟨changed, hread, hnext⟩ := Option.bind_eq_some_iff.mp hrest
      cases hnext
      exact hkept.settle hindex (isOpen_of_read hread)
        ((hkept.served connection (List.mem_of_getElem? hindex)).read hread)
  | answer index outcome =>
      obtain ⟨connection, hindex, hrest⟩ := Option.bind_eq_some_iff.mp hstep
      obtain ⟨changed, hanswer, hnext⟩ := Option.bind_eq_some_iff.mp hrest
      cases hnext
      exact hkept.settle hindex (isOpen_of_answer hanswer)
        ((hkept.served connection (List.mem_of_getElem? hindex)).answer hanswer)
  | lose index =>
      obtain ⟨connection, hindex, hrest⟩ := Option.bind_eq_some_iff.mp hstep
      obtain ⟨changed, hlose, hnext⟩ := Option.bind_eq_some_iff.mp hrest
      cases hnext
      exact hkept.settle hindex (isOpen_of_lose hlose)
        ((hkept.served connection (List.mem_of_getElem? hindex)).lose hlose)

theorem Kept.run {events : List ServerEvent} (hrun : run Server.step .initial events = some server) :
    server.Kept :=
  invariant_of_run (fun _ _ _ hinv hstep => hinv.step hstep) hrun .initial

end Invariant

end Server

section Results

variable [RequestReader] {events : List ServerEvent} {server : Server}

/-- However the connections interleave, what a connection has been written is an
answer to each line that it has sent, in the order of the lines and with their
identities; only a line that is too long adds an error behind them, and nothing
is read after it. -/
theorem responses_answer_requests (hrun : run Server.step .initial events = some server)
    {connection : RpcConnection} (hconnection : connection ∈ server.connections) :
    connection.Served :=
  (Server.Kept.run hrun).served connection hconnection

/-- No permit is lost or made: whatever has become of the connections, as many
are free as the open ones and the one that waits leave. -/
theorem permits_balance (hrun : run Server.step .initial events = some server) :
    server.permits + server.waiting.toNat + server.openCount = maxRpcConnections ∧
      server.openCount ≤ maxRpcConnections := by
  have hpermits := (Server.Kept.run hrun).permits
  exact ⟨hpermits, by omega⟩

end Results

namespace RpcSample

/-- A reader that knows one request. -/
scoped instance healthReader : RequestReader where
  read content :=
    if content = [123, 125] then .ok ⟨.str "1", "system.health", .null⟩
    else .error "expected value"

/-- A peer sends a request, a line that is none, and half a line; another is not
authorized. -/
def rpcEvents : List ServerEvent :=
  [.acquire, .accept true [123, 125, 10, 91, 10, 123], .acquire, .read 0, .accept false [],
    .answer 0 (.result .null), .read 0, .read 0]

end RpcSample

open RpcSample

theorem request_is_answered : ∃ server connection, run Server.step .initial rpcEvents = some server ∧
    connection ∈ server.connections ∧ connection.written.length = 3 ∧ connection.Served := by
  have hwritten : ((run Server.step .initial rpcEvents).bind fun server =>
      server.connections[0]?.map fun connection => connection.written.length) = some 3 := by
    decide
  obtain ⟨server, hrun, hserver⟩ := Option.bind_eq_some_iff.mp hwritten
  obtain ⟨connection, hconnection, hlength⟩ := Option.map_eq_some_iff.mp hserver
  have hmem := List.mem_of_getElem? hconnection
  exact ⟨server, connection, hrun, hmem, hlength, responses_answer_requests hrun hmem⟩

theorem permits_are_free : ∃ server, run Server.step .initial rpcEvents = some server ∧
    server.permits + server.waiting.toNat + server.openCount = maxRpcConnections := by
  have hsome : (run Server.step .initial rpcEvents).isSome := by decide
  obtain ⟨server, hrun⟩ := Option.isSome_iff_exists.mp hsome
  exact ⟨server, hrun, (permits_balance hrun).1⟩

end Patchwright.Rpc
