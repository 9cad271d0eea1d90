import Mathlib
import Patchwright.Engine.Rpc

/-!
# Requests of the workspace

The workspace opens a connection for each request, sends it as one line and
collects the response until a line is complete.  What the engine has made of the
request is what the call returns, however the bytes of the response arrive.  An
exchange may end in several ways at once; the first of them counts.
-/

namespace Patchwright.Workspace

open Framing Runs Rpc

inductive EngineError where
  | connectionFailed (message : String)
  | invalidResponse
  | timedOut
  | remote (code : Int) (message : String)
  | cancelled
  deriving DecidableEq

/-! ## Receiving a response -/

structure JSONLineFramer where
  buffer : List UInt8
  maximumBytes : Nat

/-- The framer with one more chunk, and the line if it is complete. -/
def JSONLineFramer.append (framer : JSONLineFramer) (chunk : List UInt8) :
    Except EngineError (JSONLineFramer × Option (List UInt8)) :=
  if chunk.length ≤ framer.maximumBytes ∧
      framer.buffer.length ≤ framer.maximumBytes - chunk.length then
    let buffer := framer.buffer ++ chunk
    .ok ({ framer with buffer },
      if newline ∈ buffer then some (buffer.takeWhile (· ≠ newline)) else none)
  else .error .invalidResponse

/-- What one receive operation of a connection yields. -/
structure Reception where
  data : Option (List UInt8)
  isComplete : Bool
  error : Option String

/-- The result of the receive operations so far, if there is one. -/
def receiveJSONLine (framer : JSONLineFramer) :
    List Reception → Option (Except EngineError (List UInt8))
  | [] => none
  | reception :: receptions =>
      match reception.error with
      | some message => some (.error (.connectionFailed message))
      | none =>
          match reception.data with
          | none =>
              if reception.isComplete then some (.error .invalidResponse)
              else receiveJSONLine framer receptions
          | some data =>
              match framer.append data with
              | .error error => some (.error error)
              | .ok (_, some line) => some (.ok line)
              | .ok (next, none) =>
                  if reception.isComplete then some (.error .invalidResponse)
                  else receiveJSONLine next receptions

/-- An optional field of a response: a value that is null counts as none. -/
def optionalField {α : Type} (decode : Json → Option α) (field : String) (response : Json) :
    Option (Option α) :=
  match response.get? field with
  | none | some .null => some none
  | some value => (decode value).map some

def readFailure (failure : Json) : Option (Int × String) :=
  match failure.get? "code", failure.get? "message" with
  | some (.int code), some (.str message) => some (code, message)
  | _, _ => none

def interpret {α : Type} (decode : Json → Option α) (response : Json) : Except EngineError α :=
  match optionalField decode "result" response, optionalField readFailure "error" response with
  | some (some result), some _ => .ok result
  | some none, some (some (code, message)) => .error (.remote code message)
  | _, _ => .error .invalidResponse

/-- What a call returns, once its receive operations have a result. -/
def call {α : Type} (read : List UInt8 → Option Json) (decode : Json → Option α)
    (maximumResponseBytes : Nat) (receptions : List Reception) : Option (Except EngineError α) :=
  (receiveJSONLine ⟨[], maximumResponseBytes⟩ receptions).map fun received => do
    let line ← received
    match read line with
    | some response => interpret decode response
    | none => .error .invalidResponse

/-- What the workspace makes of an outcome in the engine. -/
def received {α : Type} (decode : Json → Option α) : Outcome → Except EngineError α
  | .result .null => .error .invalidResponse
  | .result value =>
      match decode value with
      | some result => .ok result
      | none => .error .invalidResponse
  | .error code message _ => .error (.remote code message)

/-! ### Lines -/

theorem append_eq (framer : JSONLineFramer) (chunk : List UInt8) : framer.append chunk =
    match takeChunk newline framer.maximumBytes framer.buffer chunk with
    | .overflow => .error .invalidResponse
    | .line content => .ok ({ framer with buffer := framer.buffer ++ chunk }, some content)
    | .waiting buffer => .ok ({ framer with buffer }, none) := by
  rw [JSONLineFramer.append, takeChunk]
  by_cases hlimit : framer.maximumBytes < framer.buffer.length + chunk.length
  · rw [if_neg (by omega), if_pos hlimit]
  · rw [if_pos (by omega), if_neg hlimit]
    dsimp only
    split <;> rfl

/-- Receive operations without an error, of which only the last may say that the
stream has ended. -/
structure Uninterrupted (receptions : List Reception) : Prop where
  error : ∀ reception ∈ receptions, reception.error = none
  isComplete : ∀ reception ∈ receptions.dropLast, reception.isComplete = false

theorem Uninterrupted.tail {reception : Reception} {receptions : List Reception}
    (hclean : Uninterrupted (reception :: receptions)) :
    Uninterrupted receptions ∧ reception.error = none ∧
      (receptions ≠ [] → reception.isComplete = false) := by
  refine ⟨⟨fun other hother => hclean.error other (List.mem_cons_of_mem _ hother), ?_⟩,
    hclean.error reception List.mem_cons_self, ?_⟩
  · intro other hother
    cases receptions with
    | nil => cases hother
    | cons next rest =>
        apply hclean.isComplete
        rw [List.dropLast_cons_cons]
        exact List.mem_cons_of_mem _ hother
  · intro hne
    obtain ⟨next, rest, rfl⟩ := List.exists_cons_of_ne_nil hne
    apply hclean.isComplete
    rw [List.dropLast_cons_cons]
    exact List.mem_cons_self

/-- What has been received is received of the chunks as they are cut. -/
theorem receiveJSONLine_eq {receptions : List Reception} (hclean : Uninterrupted receptions)
    (framer : JSONLineFramer) :
    match takeChunks newline framer.maximumBytes framer.buffer
        (receptions.filterMap Reception.data) with
    | .line content => receiveJSONLine framer receptions = some (.ok content)
    | .overflow => receiveJSONLine framer receptions = some (.error .invalidResponse)
    | .waiting _ => True := by
  induction receptions generalizing framer with
  | nil => trivial
  | cons reception receptions ih =>
      obtain ⟨htail, herror, hcomplete⟩ := hclean.tail
      rw [receiveJSONLine, herror]
      -- what follows when this operation has not completed a line
      have hrest (next : JSONLineFramer) :
          match takeChunks newline next.maximumBytes next.buffer
              (receptions.filterMap Reception.data) with
          | .line content => (if reception.isComplete then some (.error .invalidResponse)
              else receiveJSONLine next receptions) = some (.ok content)
          | .overflow => (if reception.isComplete then some (.error .invalidResponse)
              else receiveJSONLine next receptions) = some (.error .invalidResponse)
          | .waiting _ => True := by
        by_cases hnil : receptions = []
        · subst hnil
          trivial
        · rw [hcomplete hnil]
          exact ih htail next
      cases hdata : reception.data with
      | none =>
          rw [List.filterMap_cons_none hdata]
          exact hrest framer
      | some data =>
          rw [List.filterMap_cons_some hdata, takeChunks]
          dsimp only
          rw [append_eq]
          cases hchunk : takeChunk newline framer.maximumBytes framer.buffer data with
          | waiting buffer => exact hrest { framer with buffer }
          | line content => rfl
          | overflow => rfl

/-- However the one line of a response is cut, it is received, or found too long. -/
theorem receiveJSONLine_line {receptions : List Reception} (hclean : Uninterrupted receptions)
    {line : List UInt8} (hline : newline ∉ line) (maximumBytes : Nat)
    (hdata : (receptions.filterMap Reception.data).flatten = line ++ [newline]) :
    receiveJSONLine ⟨[], maximumBytes⟩ receptions =
      some (if line.length < maximumBytes then .ok line else .error .invalidResponse) := by
  have hreceived := receiveJSONLine_eq hclean ⟨[], maximumBytes⟩
  have hsplit : [] ++ (receptions.filterMap Reception.data).flatten = line ++ [newline] := hdata
  dsimp only at hreceived
  split
  next hshort =>
    rw [takeChunks_line hline List.not_mem_nil hsplit] at hreceived
    · exact hreceived
    · rw [List.length_append, List.length_singleton]
      exact hshort
  next hlong =>
    rw [takeChunks_overflow hline List.not_mem_nil hsplit (Nat.le_of_not_lt hlong)] at hreceived
    exact hreceived

/-! ### Outcomes -/

theorem interpret_response {α : Type} (decode : Json → Option α) (outcome : Outcome) (id : Json) :
    interpret decode (outcome.response id) = received decode outcome := by
  cases outcome with
  | error code message detail => rfl
  | result value =>
      have hfield (hvalue : value ≠ .null) :
          optionalField decode "result" ((Outcome.result value).response id) =
            (decode value).map some := by
        cases value with
        | null => exact absurd rfl hvalue
        | bool _ | int _ | float _ | str _ | arr _ | obj _ => rfl
      have herror : optionalField readFailure "error" ((Outcome.result value).response id) =
          some none := rfl
      cases value with
      | null => rfl
      | bool _ | int _ | float _ | str _ | arr _ | obj _ =>
          rw [interpret, hfield (by rintro ⟨⟩), herror]
          dsimp only [received]
          cases decode _ <;> rfl

/-- A connection that has sent one line has been written one answer at most. -/
theorem written_of_line [RequestReader] {connection : RpcConnection} {payload : List UInt8}
    (hserved : connection.Served) (hfits : Fits newline maxRpcFrameBytes payload)
    (hstream : connection.stream = payload ++ [newline]) (hne : connection.written ≠ []) :
    ∃ response, connection.written = [response] ∧ Answers payload response := by
  obtain ⟨contents, answers, -, hanswers, hplace⟩ := hserved
  have hone (hbegins : framed newline contents <+: payload ++ [newline])
      (hwritten : connection.written = answers) :
      ∃ response, connection.written = [response] ∧ Answers payload response := by
    rcases framed_prefix_line hfits.1 hbegins with rfl | rfl
    · rw [List.forall₂_nil_left_iff.mp hanswers] at hwritten
      exact absurd hwritten hne
    · obtain ⟨response, rest, hanswer, hrest, rfl⟩ := List.forall₂_cons_left_iff.mp hanswers
      rw [List.forall₂_nil_left_iff.mp hrest] at hwritten
      exact ⟨response, hwritten, hanswer⟩
  cases hconnection : connection.place with
  | reading =>
      rw [hconnection] at hplace
      exact hone ⟨connection.unread, hplace.1.symm.trans hstream⟩ hplace.2
  | dispatching request =>
      rw [hconnection] at hplace
      obtain ⟨content, hcontent, -, hunread, hwritten⟩ := hplace
      have hbegins : framed newline (contents ++ [content]) <+: payload ++ [newline] :=
        ⟨connection.unread, hunread.symm.trans hstream⟩
      rw [framed_append] at hbegins
      exact hone ((List.prefix_append _ _).trans hbegins) hwritten
  | finished =>
      rw [hconnection] at hplace
      exact hone (hplace.1.symm.trans hstream ▸ List.prefix_refl _) hplace.2
  | lost =>
      rw [hconnection] at hplace
      exact hone (hstream ▸ hplace.1) hplace.2
  | refused =>
      rw [hconnection] at hplace
      obtain ⟨rest, hrefused, hrest, hlong, -⟩ := hplace
      rw [hstream] at hrefused
      exfalso
      rcases framed_prefix_line hfits.1 ⟨rest, hrefused.symm⟩ with rfl | rfl
      · apply hlong
        change payload ++ [newline] = [] ++ rest at hrefused
        rw [← List.nil_append rest, ← hrefused, List.take_of_length_le]
        · exact List.mem_append_right _ List.mem_cons_self
        · rw [List.length_append, List.length_singleton]
          exact hfits.2
      · rw [framed_singleton] at hrefused
        exact hrest (List.append_right_eq_self.mp hrefused.symm)

/-! ## Calls -/

/-- A call returns what the engine has made of its request, whatever else the
engine does meanwhile and however the response arrives, unless the response is
longer than the workspace takes. -/
theorem call_returns_outcome [RequestReader] {events : List ServerEvent} {server : Server}
    (hrun : run Server.step .initial events = some server) {connection : RpcConnection}
    (hconnection : connection ∈ server.connections) {payload : List UInt8} {request : Rpc.Request}
    (hfits : Fits newline maxRpcFrameBytes payload)
    (hrequest : RequestReader.read payload = .ok request)
    (hstream : connection.stream = payload ++ [newline]) (hanswered : connection.written ≠ []) :
    ∃ outcome, request.Permits outcome ∧
      connection.written = [outcome.response request.id] ∧
      ∀ {α : Type} (read : List UInt8 → Option Json) (decode : Json → Option α)
        (maximumResponseBytes : Nat) (receptions : List Reception),
        (outcome.response request.id).OnLine →
        read (outcome.response request.id).render = some (outcome.response request.id) →
        Uninterrupted receptions →
        (receptions.filterMap Reception.data).flatten =
          framed newline (connection.written.map Json.render) →
        call read decode maximumResponseBytes receptions =
          some (if (outcome.response request.id).render.length < maximumResponseBytes
            then received decode outcome else .error .invalidResponse) := by
  obtain ⟨response, hwritten, hanswer⟩ :=
    written_of_line (responses_answer_requests hrun hconnection) hfits hstream hanswered
  rw [Answers, hrequest] at hanswer
  obtain ⟨outcome, hpermits, rfl⟩ := hanswer
  refine ⟨outcome, hpermits, hwritten, ?_⟩
  intro α read decode maximumResponseBytes receptions hline hread hclean hdata
  rw [hwritten, List.map_singleton, framed_singleton] at hdata
  rw [call, receiveJSONLine_line hclean (Json.newline_notMem_render hline) _ hdata, Option.map_some]
  congr 1
  split
  · change (match read _ with | some response => interpret decode response | none => _) = _
    rw [hread]
    exact interpret_response decode outcome request.id
  · rfl

namespace CallSample

open scoped RpcSample

def callEvents : List ServerEvent :=
  [.acquire, .accept true [123, 125, 10], .read 0, .answer 0 (.result (.bool true))]

def healthResponse : Json := rpcResult (.str "1") (.bool true)

def readHealth (line : List UInt8) : Option Json :=
  if line = healthResponse.render then some healthResponse else none

/-- The response in two pieces. -/
def receptions : List Reception :=
  [⟨some (healthResponse.render.take 7), false, none⟩,
    ⟨some (healthResponse.render.drop 7 ++ [newline]), true, none⟩]

end CallSample

open CallSample

open scoped RpcSample in
theorem call_returns_health : call readHealth Json.asBool? 1024 receptions = some (.ok true) := by
  have hwritten : ((run Server.step .initial callEvents).bind fun server =>
      server.connections[0]?.map fun connection =>
        (connection.stream, connection.written)) =
          some ([123, 125, 10], [healthResponse]) := rfl
  obtain ⟨server, hrun, hserver⟩ := Option.bind_eq_some_iff.mp hwritten
  obtain ⟨connection, hconnection, hvalues⟩ := Option.map_eq_some_iff.mp hserver
  obtain ⟨hstream, hresponses⟩ := Prod.mk.inj hvalues
  have hne : connection.written ≠ [] := by
    rw [hresponses]
    exact List.cons_ne_nil _ _
  have hfits : Fits newline maxRpcFrameBytes [123, 125] := ⟨by decide, by decide⟩
  obtain ⟨outcome, -, hanswered, hcall⟩ := call_returns_outcome hrun
    (List.mem_of_getElem? hconnection) hfits rfl hstream hne
  rw [hresponses, List.singleton_inj] at hanswered
  have houtcome : outcome = .result (.bool true) := by
    cases outcome with
    | result value =>
        simp only [healthResponse, Outcome.response, rpcResult, Json.obj.injEq, List.cons.injEq,
          Prod.mk.injEq, true_and, and_true] at hanswered
        rw [← hanswered]
    | error code message detail =>
        simp [healthResponse, Outcome.response, rpcResult, rpcError] at hanswered
  subst houtcome
  have hclean : Uninterrupted receptions := ⟨by simp [receptions], by simp [receptions]⟩
  have hdata : (receptions.filterMap Reception.data).flatten =
      framed newline (connection.written.map Json.render) := by
    rw [hresponses, List.map_singleton, framed_singleton]
    change _ ++ (_ ++ [newline] ++ []) = _
    rw [List.append_nil, ← List.append_assoc, List.take_append_drop]
  have hline : healthResponse.OnLine := by
    simp [healthResponse, rpcResult, Json.OnLine, Json.FieldsOnLine]
  have hread : readHealth healthResponse.render = some healthResponse := if_pos rfl
  have hshort : healthResponse.render.length < 1024 := by decide
  have hresult := hcall readHealth Json.asBool? 1024 receptions hline hread hclean hdata
  rwa [← hanswered, if_pos hshort] at hresult

/-! ## One result of an exchange -/

/-- The parts of an exchange, and what has become of them: the results that the
caller was resumed with, and the connections and timeouts that were cancelled. -/
structure EngineExchangeOperation (Result : Type) where
  continuation : Bool
  connection : Option Nat
  timeoutTask : Option Nat
  pendingResult : Option Result
  finished : Bool
  resumed : List Result
  cancelledConnections : List Nat
  cancelledTasks : List Nat

/-- What the caller, the connection, the timeout and a cancellation do. -/
inductive ExchangeEvent (Result : Type) where
  | install
  | attach (connection : Nat)
  | attachTimeoutTask (task : Nat)
  | finish (result : Result)

namespace EngineExchangeOperation

variable {Result : Type}

def initial : EngineExchangeOperation Result := ⟨false, none, none, none, false, [], [], []⟩

def step (operation : EngineExchangeOperation Result) :
    ExchangeEvent Result → EngineExchangeOperation Result
  | .install =>
      match operation.pendingResult with
      | some result => { operation with resumed := operation.resumed ++ [result] }
      | none => { operation with continuation := true }
  | .attach connection =>
      if operation.finished then { operation with
        cancelledConnections := operation.cancelledConnections ++ [connection] }
      else { operation with connection := some connection }
  | .attachTimeoutTask task =>
      if operation.finished then { operation with
        cancelledTasks := operation.cancelledTasks ++ [task] }
      else { operation with timeoutTask := some task }
  | .finish result =>
      if operation.finished then operation
      else { operation with
        finished := true
        continuation := false
        connection := none
        timeoutTask := none
        pendingResult := if operation.continuation then operation.pendingResult else some result
        resumed := if operation.continuation then operation.resumed ++ [result]
          else operation.resumed
        cancelledConnections := operation.cancelledConnections ++ operation.connection.toList
        cancelledTasks := operation.cancelledTasks ++ operation.timeoutTask.toList }

end EngineExchangeOperation

@[simp]
def ExchangeEvent.result? {Result : Type} : ExchangeEvent Result → Option Result
  | .finish result => some result
  | _ => none

@[simp]
def ExchangeEvent.isInstall {Result : Type} : ExchangeEvent Result → Bool
  | .install => true
  | _ => false

@[simp]
def ExchangeEvent.connection? {Result : Type} : ExchangeEvent Result → Option Nat
  | .attach connection => some connection
  | _ => none

@[simp]
def ExchangeEvent.task? {Result : Type} : ExchangeEvent Result → Option Nat
  | .attachTimeoutTask task => some task
  | _ => none

section Completion

variable {Result : Type}

def firstResult (events : List (ExchangeEvent Result)) : Option Result :=
  events.findSome? ExchangeEvent.result?

def connections (events : List (ExchangeEvent Result)) : List Nat :=
  events.filterMap ExchangeEvent.connection?

def timeoutTasks (events : List (ExchangeEvent Result)) : List Nat :=
  events.filterMap ExchangeEvent.task?

/-- An exchange has one caller, one connection and one timeout at most. -/
structure SingleUse (events : List (ExchangeEvent Result)) : Prop where
  caller : events.countP ExchangeEvent.isInstall ≤ 1
  connection : (connections events).length ≤ 1
  timeoutTask : (timeoutTasks events).length ≤ 1

/-- What was attached is there until the exchange has finished, and cancelled then. -/
def Released (finished : Bool) (attached : Option Nat) (cancelled all : List Nat) : Prop :=
  if finished then cancelled = all else cancelled = [] ∧ attached.toList = all

/-- What there is of an exchange after some events. -/
structure After (events : List (ExchangeEvent Result))
    (operation : EngineExchangeOperation Result) : Prop where
  finished : operation.finished = (firstResult events).isSome
  waiting : events.countP ExchangeEvent.isInstall = 0 →
    operation.continuation = false ∧ operation.pendingResult = firstResult events ∧
      operation.resumed = []
  installed : events.countP ExchangeEvent.isInstall = 1 →
    operation.continuation = !operation.finished ∧
      operation.resumed = (firstResult events).toList
  connection : Released operation.finished operation.connection operation.cancelledConnections
    (connections events)
  timeoutTask : Released operation.finished operation.timeoutTask operation.cancelledTasks
    (timeoutTasks events)

variable {events : List (ExchangeEvent Result)} {operation : EngineExchangeOperation Result}

@[simp]
theorem firstResult_concat (event : ExchangeEvent Result) :
    firstResult (events ++ [event]) = (firstResult events).or event.result? := by
  rw [firstResult, List.findSome?_append, List.findSome?_singleton, firstResult]

@[simp]
theorem connections_concat (event : ExchangeEvent Result) :
    connections (events ++ [event]) = connections events ++ event.connection?.toList := by
  rw [connections, List.filterMap_append, connections]
  cases event <;> rfl

@[simp]
theorem timeoutTasks_concat (event : ExchangeEvent Result) :
    timeoutTasks (events ++ [event]) = timeoutTasks events ++ event.task?.toList := by
  rw [timeoutTasks, List.filterMap_append, timeoutTasks]
  cases event <;> rfl

@[simp]
theorem installs_concat (event : ExchangeEvent Result) :
    (events ++ [event]).countP ExchangeEvent.isInstall =
      events.countP ExchangeEvent.isInstall + if event.isInstall then 1 else 0 := by
  rw [List.countP_append, List.countP_singleton]

theorem SingleUse.of_concat {event : ExchangeEvent Result} (hsingle : SingleUse (events ++ [event])) :
    SingleUse events := by
  obtain ⟨hcaller, hconnection, htimeoutTask⟩ := hsingle
  rw [installs_concat] at hcaller
  rw [connections_concat, List.length_append] at hconnection
  rw [timeoutTasks_concat, List.length_append] at htimeoutTask
  exact ⟨by omega, by omega, by omega⟩

/-- Attaching to what has finished cancels at once. -/
theorem Released.attach {finished : Bool} {attached : Option Nat} {cancelled all : List Nat}
    {added : Nat} (hone : (all ++ [added]).length ≤ 1)
    (hreleased : Released finished attached cancelled all) :
    Released finished (if finished then attached else some added)
      (if finished then cancelled ++ [added] else cancelled) (all ++ [added]) := by
  have hnil : all = [] := by
    rw [List.length_append, List.length_singleton] at hone
    exact List.length_eq_zero_iff.mp (by omega)
  subst hnil
  cases finished with
  | true => exact congrArg (· ++ [added]) hreleased
  | false => exact ⟨hreleased.1, rfl⟩

theorem Released.finish {attached : Option Nat} {cancelled all : List Nat}
    (hreleased : Released false attached cancelled all) :
    Released true none (cancelled ++ attached.toList) all := by
  rw [hreleased.1, hreleased.2]
  rfl

theorem After.initial :
    After [] (EngineExchangeOperation.initial : EngineExchangeOperation Result) where
  finished := rfl
  waiting _ := ⟨rfl, rfl, rfl⟩
  installed hone := absurd hone.symm Nat.one_ne_zero
  connection := ⟨rfl, rfl⟩
  timeoutTask := ⟨rfl, rfl⟩

/-- The caller installs its continuation, and is resumed if there is a result. -/
theorem After.install (hafter : After events operation)
    (hnone : events.countP ExchangeEvent.isInstall = 0) :
    After (events ++ [.install]) (operation.step .install) := by
  obtain ⟨hfinished, hwaiting, -, hconnection, htimeoutTask⟩ := hafter
  obtain ⟨hcontinuation, hpending, hresumed⟩ := hwaiting hnone
  cases hresult : firstResult events with
  | none =>
      constructor <;> simp_all [EngineExchangeOperation.step]
  | some result =>
      constructor <;> simp_all [EngineExchangeOperation.step]

/-- The first result ends the exchange, and later ones change nothing. -/
theorem After.finish (hafter : After events operation) (result : Result)
    (hsingle : events.countP ExchangeEvent.isInstall ≤ 1) :
    After (events ++ [.finish result]) (operation.step (.finish result)) := by
  obtain ⟨hfinished, hwaiting, hinstalled, hconnection, htimeoutTask⟩ := hafter
  cases hresult : firstResult events with
  | none =>
      rw [hresult] at hfinished
      rw [hfinished] at hconnection htimeoutTask
      have hreleased := hconnection.finish
      have hstopped := htimeoutTask.finish
      rcases Nat.le_one_iff_eq_zero_or_eq_one.mp hsingle with hnone | hone
      · have hother : events.countP ExchangeEvent.isInstall ≠ 1 := by omega
        constructor <;> simp_all [EngineExchangeOperation.step, -List.countP_eq_zero]
      · constructor <;> simp_all [EngineExchangeOperation.step]
  | some earlier =>
      constructor <;> simp_all [EngineExchangeOperation.step]

theorem After.step {event : ExchangeEvent Result} (hsingle : SingleUse (events ++ [event]))
    (hafter : After events operation) : After (events ++ [event]) (operation.step event) := by
  obtain ⟨hcaller, hconnections, htasks⟩ := hsingle
  rw [installs_concat] at hcaller
  rw [connections_concat] at hconnections
  rw [timeoutTasks_concat] at htasks
  cases event with
  | install =>
      apply hafter.install
      rw [ExchangeEvent.isInstall, if_pos rfl] at hcaller
      omega
  | attach connection =>
      obtain ⟨hfinished, hwaiting, hinstalled, hconnection, htimeoutTask⟩ := hafter
      have hattached := hconnection.attach hconnections
      cases hended : operation.finished <;> constructor <;>
        simp_all [EngineExchangeOperation.step]
  | attachTimeoutTask task =>
      obtain ⟨hfinished, hwaiting, hinstalled, hconnection, htimeoutTask⟩ := hafter
      have hattached := htimeoutTask.attach htasks
      cases hended : operation.finished <;> constructor <;>
        simp_all [EngineExchangeOperation.step]
  | finish result => exact hafter.finish result (Nat.le_trans (Nat.le_add_right _ _) hcaller)

theorem after_foldl (hsingle : SingleUse events) :
    After events (events.foldl EngineExchangeOperation.step .initial) := by
  induction events using List.reverseRecOn with
  | nil => exact .initial
  | append_singleton events event ih =>
      rw [List.foldl_append, List.foldl_cons, List.foldl_nil]
      exact (ih hsingle.of_concat).step hsingle

/-- In whatever order the parts of an exchange come, the caller is resumed once,
with the first of the results, when both are there; and the connection and the
timeout are cancelled when there is a result, and not before. -/
theorem exchange_ends_once (hsingle : SingleUse events) :
    (events.foldl EngineExchangeOperation.step .initial).resumed =
        (if events.any ExchangeEvent.isInstall then (firstResult events).toList else []) ∧
      (events.foldl EngineExchangeOperation.step .initial).cancelledConnections =
        (if (firstResult events).isSome then connections events else []) ∧
      (events.foldl EngineExchangeOperation.step .initial).cancelledTasks =
        (if (firstResult events).isSome then timeoutTasks events else []) := by
  obtain ⟨hfinished, hwaiting, hinstalled, hconnection, htimeoutTask⟩ := after_foldl hsingle
  rw [← hfinished]
  refine ⟨?_, ?_, ?_⟩
  · by_cases hany : events.any ExchangeEvent.isInstall
    · have hpositive : 0 < events.countP ExchangeEvent.isInstall :=
        List.countP_pos_iff.mpr (List.any_eq_true.mp hany)
      rw [if_pos hany]
      exact (hinstalled (Nat.le_antisymm hsingle.caller hpositive)).2
    · have hzero : events.countP ExchangeEvent.isInstall = 0 := by
        rw [List.countP_eq_zero]
        intro event hevent hinstall
        exact hany (List.any_eq_true.mpr ⟨event, hevent, hinstall⟩)
      rw [if_neg hany]
      exact (hwaiting hzero).2.2
  · rw [Released] at hconnection
    split at hconnection
    next hended => rw [if_pos hended, hconnection]
    next hrunning => rw [if_neg hrunning, hconnection.1]
  · rw [Released] at htimeoutTask
    split at htimeoutTask
    next hended => rw [if_pos hended, htimeoutTask]
    next hrunning => rw [if_neg hrunning, htimeoutTask.1]

end Completion

namespace CallSample

/-- The call is cancelled before it waits, and the response comes after that. -/
def exchangeEvents : List (ExchangeEvent (Except EngineError Nat)) :=
  [.finish (.error .cancelled), .install, .attach 4, .finish (.ok 1)]

end CallSample

theorem exchange_is_cancelled :
    (exchangeEvents.foldl EngineExchangeOperation.step .initial).resumed =
      (if exchangeEvents.any ExchangeEvent.isInstall
        then (firstResult exchangeEvents).toList else []) :=
  (exchange_ends_once ⟨by decide, by decide, by decide⟩).1

end Patchwright.Workspace
