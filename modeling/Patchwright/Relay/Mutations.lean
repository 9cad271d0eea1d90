import Patchwright.Core.GitHubActions
import Patchwright.Library.Dialogue

/-!
# The GitHub mutation client

The writes of the engine as HTTP requests.  A call of the client may read
first, to check what the write is bound to, and then sends at most one request
that changes state.  The client sees a status and a body; whether the server
has made the change is kept beside them for the statements, and no definition
of the client reads it.
-/

namespace Patchwright

inductive Method where
  | get
  | post
  | put
  | patch
  deriving DecidableEq, Repr

inductive RequestEffect where
  | read
  | mutation
  deriving DecidableEq, Repr

structure Request where
  method : Method
  url : String
  body : Option Json
  effect : RequestEffect

/-- A response that arrived.  There is no body where it cannot be read as JSON,
be it malformed, too large or cut off. -/
structure Response where
  status : Nat
  retryAfter : Option Nat
  requestId : Option String
  body : Option Json

def Response.isSuccess (response : Response) : Bool :=
  200 ≤ response.status && response.status < 300

/-- What became of a request: whether the server has made the change, and the
response, unless the connection ended without one. -/
structure Answer where
  applied : Bool
  response : Option Response

abbrev Call := Exchange Request Answer

/-- The server, and how the URL library joins a path to its base. -/
structure Remote where
  join : String → Option String
  peer : Peer Request Answer

inductive MutationError where
  | invalidTarget
  | missingToken
  | gitTransportRequired
  | gitTransportFailed
  | defaultBranchPushProhibited
  | mergeQueueRequired
  | reviewThreadMismatch
  | remoteCommitChanged
  | reviewThreadNotResolvable
  | graphQlRejected
  | ambiguousTransport
  | rejected (status : Nat) (retryAfter : Option Nat) (requestId : Option String)
  | invalidResponse
  | client
  deriving DecidableEq, Repr

/-- The reason phrase the HTTP library prints after a status. -/
def canonicalReason (status : Nat) : String :=
  let reasons := [(100, "Continue"), (101, "Switching Protocols"), (102, "Processing"),
    (300, "Multiple Choices"), (301, "Moved Permanently"), (302, "Found"), (303, "See Other"),
    (304, "Not Modified"), (305, "Use Proxy"), (307, "Temporary Redirect"),
    (308, "Permanent Redirect"), (400, "Bad Request"), (401, "Unauthorized"),
    (402, "Payment Required"), (403, "Forbidden"), (404, "Not Found"),
    (405, "Method Not Allowed"), (406, "Not Acceptable"),
    (407, "Proxy Authentication Required"), (408, "Request Timeout"), (409, "Conflict"),
    (410, "Gone"), (411, "Length Required"), (412, "Precondition Failed"),
    (413, "Payload Too Large"), (414, "URI Too Long"), (415, "Unsupported Media Type"),
    (416, "Range Not Satisfiable"), (417, "Expectation Failed"), (418, "I'm a teapot"),
    (421, "Misdirected Request"), (422, "Unprocessable Entity"), (423, "Locked"),
    (424, "Failed Dependency"), (425, "Too Early"), (426, "Upgrade Required"),
    (428, "Precondition Required"), (429, "Too Many Requests"),
    (431, "Request Header Fields Too Large"), (451, "Unavailable For Legal Reasons"),
    (500, "Internal Server Error"), (501, "Not Implemented"), (502, "Bad Gateway"),
    (503, "Service Unavailable"), (504, "Gateway Timeout"), (505, "HTTP Version Not Supported"),
    (506, "Variant Also Negotiates"), (507, "Insufficient Storage"), (508, "Loop Detected"),
    (510, "Not Extended"), (511, "Network Authentication Required")]
  (reasons.lookup status).getD "<unknown status code>"

def MutationError.message : MutationError → String
  | invalidTarget => "invalid GitHub mutation target"
  | missingToken => "GitHub installation token is missing"
  | gitTransportRequired => "Git push requires the ephemeral credential-helper transport"
  | gitTransportFailed => "ephemeral Git transport failed"
  | defaultBranchPushProhibited => "direct pushes to the default branch are prohibited"
  | mergeQueueRequired => "repository requires native merge-queue handoff"
  | reviewThreadMismatch => "review thread identity does not match the approved pull request"
  | remoteCommitChanged => "remote commit identity changed after approval"
  | reviewThreadNotResolvable => "GitHub App is not allowed to resolve this review thread"
  | graphQlRejected => "GitHub GraphQL mutation was rejected"
  | ambiguousTransport =>
      "GitHub mutation transport ended ambiguously; reconcile before retrying"
  | rejected status .. =>
      s!"GitHub rejected mutation with status {status} {canonicalReason status}"
  | invalidResponse => "GitHub mutation response was invalid"
  | client => "GitHub mutation client setup failed"

structure MutationResult where
  id : Option Nat
  number : Option Nat
  htmlUrl : Option String
  sha : Option String
  merged : Option Bool
  nodeId : Option String
  resolved : Option Bool
  deriving DecidableEq, Repr

def MutationResult.default : MutationResult := ⟨none, none, none, none, none, none, none⟩

def MutationResult.toJson (result : MutationResult) : Json :=
  .obj [
    ("id", .ofOption (fun id => .int id) result.id),
    ("number", .ofOption (fun number => .int number) result.number),
    ("htmlUrl", .ofOption .str result.htmlUrl),
    ("sha", .ofOption .str result.sha),
    ("merged", .ofOption .bool result.merged),
    ("nodeId", .ofOption .str result.nodeId),
    ("resolved", .ofOption .bool result.resolved)]

namespace MutationClient

abbrev Session (α : Type) := Dialogue Request Answer MutationError α

open Dialogue

/-! ## Reading responses -/

def stringAt (value : Json) (path : List String) : Option String :=
  (value.pointer? path).bind Json.asStr?

def numberAt (value : Json) (path : List String) : Option Nat :=
  (value.pointer? path).bind Json.asU64?

def boolAt (value : Json) (path : List String) : Option Bool :=
  (value.pointer? path).bind Json.asBool?

def decodeValue (value : Json) : MutationResult where
  id := numberAt value ["id"]
  number := numberAt value ["number"]
  htmlUrl := stringAt value ["html_url"]
  sha := stringAt value ["sha"]
  merged := boolAt value ["merged"]
  nodeId := stringAt value ["node_id"]
  resolved := boolAt value ["isResolved"]

/-- A text that is not blank. -/
def nonemptyString (text : Option String) : Option String :=
  text.filter fun text => trim text ≠ ""

def validSha (value : String) : Bool :=
  value.utf8ByteSize == 40 && value.toList.all isAsciiHexdigit

def requireSha (actual : Option String) (expected : String) : Except MutationError Unit :=
  match actual with
  | some actual =>
      if actual = expected then .ok ()
      else if validSha actual then .error .remoteCommitChanged
      else .error .invalidResponse
  | none => .error .invalidResponse

def validateComponent (value : String) : Except MutationError Unit :=
  if value.utf8ByteSize = 0 ∨ 100 < value.utf8ByteSize ∨
      ¬ value.toList.all (fun char =>
        char.isAlphanum || char == '-' || char == '_' || char == '.') then
    .error .invalidTarget
  else .ok ()

/-- What the response to a write has to show. -/
inductive MutationExpectation where
  | createdRef (reference sha : String)
  | resource
  | pullRequest
  | updateBranch
  | closed (number : Nat)
  | merged
  deriving DecidableEq, Repr

def positive (number : Option Nat) : Bool := number.any (0 < ·)

def nonempty (text : Option String) : Bool := text.any (· ≠ "")

def MutationExpectation.decode (expectation : MutationExpectation) (value : Json) :
    Option MutationResult :=
  let decoded := decodeValue value
  match expectation with
  | createdRef reference sha =>
      if stringAt value ["ref"] ≠ some reference ∨ stringAt value ["object", "sha"] ≠ some sha then
        none
      else some { decoded with sha := some sha }
  | resource => if positive decoded.id && nonempty decoded.htmlUrl then some decoded else none
  | pullRequest =>
      if positive decoded.number && nonempty decoded.htmlUrl then some decoded else none
  | updateBranch =>
      if (nonemptyString (stringAt value ["message"])).isSome ∧
          (nonemptyString (stringAt value ["url"])).isSome then some decoded
      else none
  | closed number =>
      if decoded.number = some number ∧ stringAt value ["state"] = some "closed" ∧
          nonempty decoded.htmlUrl then some decoded
      else none
  | merged =>
      if decoded.merged = some true ∧ decoded.sha.any validSha then some decoded else none

/-! ## Requests -/

/-- Read the response of a request whose transport may end without one. -/
def readResponse (effect : RequestEffect) : Option Response → Except MutationError Json
  | none =>
      match effect with
      | .read => .error .client
      | .mutation => .error .ambiguousTransport
  | some response =>
      if ¬ response.isSuccess then
        .error (.rejected response.status response.retryAfter response.requestId)
      else
        match response.body with
        | some value => .ok value
        | none =>
            match effect with
            | .read => .error .invalidResponse
            | .mutation => .error .ambiguousTransport

def requestValue (remote : Remote) (method : Method) (path : String) (body : Option Json)
    (effect : RequestEffect) : Session Json := do
  let url ← ofExcept (Checked.okOr .invalidTarget (remote.join path))
  let answer ← ask remote.peer { method, url, body, effect }
  ofExcept (readResponse effect answer.response)

def request (remote : Remote) (method : Method) (path : String) (body : Json)
    (expectation : MutationExpectation) : Session MutationResult := do
  let value ← requestValue remote method path (some body) .mutation
  ofExcept (Checked.okOr .ambiguousTransport (expectation.decode value))

def requireRefSha (remote : Remote) (base reference expectedSha : String) : Session Unit := do
  let value ← requestValue remote .get s!"{base}/git/ref/heads/{reference}" none .read
  ofExcept (requireSha (stringAt value ["object", "sha"]) expectedSha)

/-! ## The actions -/

def threadQuery : String :=
  "query ReviewThreadIdentity($threadId: ID!) \x7b node(id: $threadId) \x7b ... on " ++
  "PullRequestReviewThread \x7b id isResolved viewerCanResolve pullRequest \x7b number " ++
  "headRefOid repository \x7b nameWithOwner \x7d \x7d \x7d \x7d \x7d"

def resolveThreadMutation : String :=
  "mutation ResolveReviewThread($threadId: ID!) \x7b resolveReviewThread(input: " ++
  "\x7bthreadId: $threadId\x7d) \x7b thread \x7b id isResolved \x7d \x7d \x7d"

def markReadyMutation : String :=
  "mutation MarkReady($pullRequestId: ID!) \x7b markPullRequestReadyForReview(input: " ++
  "\x7bpullRequestId: $pullRequestId\x7d) \x7b pullRequest \x7b databaseId number url " ++
  "isDraft \x7d \x7d \x7d"

def graphQl (query name id : String) : Json :=
  .obj [("query", .str query), ("variables", .obj [(name, .str id)])]

def reviewEvent : ReviewEvent → String
  | .approve => "APPROVE"
  | .requestChanges => "REQUEST_CHANGES"
  | .comment => "COMMENT"
  | .pending => ""

def mergeMethod : MergeMethod → String
  | .merge => "merge"
  | .squash => "squash"
  | .rebase => "rebase"

def reviewPayload (sha : String) (event : ReviewEvent) (body : String)
    (inlineComments : List InlineReviewComment) : Json :=
  let comments := inlineComments.map fun comment => Json.obj [
    ("path", .str comment.path), ("line", .int comment.line), ("side", .str "RIGHT"),
    ("body", .str comment.body)]
  .obj ([("body", .str body), ("comments", .arr comments), ("commit_id", .str sha)] ++
    if event = .pending then [] else [("event", .str (reviewEvent event))])

def resolvedThread (threadId : String) : MutationResult :=
  { MutationResult.default with nodeId := some threadId, resolved := some true }

/-- The review thread is the approved one; the result tells whether it is
resolved already. -/
def checkReviewThread (owner repository : String) (pullRequestNumber : Nat)
    (threadId expectedHeadSha : String) (identity : Json) : Except MutationError Bool := do
  Checked.ensure ((identity.get? "errors").isNone) .graphQlRejected
  let thread ← Checked.okOr .invalidResponse (identity.pointer? ["data", "node"])
  Checked.ensure (stringAt thread ["id"] = some threadId ∧
    numberAt thread ["pullRequest", "number"] = some pullRequestNumber ∧
    stringAt thread ["pullRequest", "repository", "nameWithOwner"] =
      some s!"{owner}/{repository}") .reviewThreadMismatch
  requireSha (stringAt thread ["pullRequest", "headRefOid"]) expectedHeadSha
  if boolAt thread ["isResolved"] = some true then return true
  Checked.ensure (boolAt thread ["viewerCanResolve"] = some true) .reviewThreadNotResolvable
  return false

def decodeResolvedThread (threadId : String) (response : Json) :
    Except MutationError MutationResult := do
  Checked.ensure ((response.get? "errors").isNone) .graphQlRejected
  let resolved ← Checked.okOr .ambiguousTransport
    (response.pointer? ["data", "resolveReviewThread", "thread"])
  Checked.ensure (stringAt resolved ["id"] = some threadId ∧
    boolAt resolved ["isResolved"] = some true) .ambiguousTransport
  return resolvedThread threadId

/-- The pull request is at the approved head; the result is its node, or
nothing where it is no draft any more. -/
def checkDraft (expectedHeadSha : String) (pull : Json) :
    Except MutationError (Option String) := do
  requireSha (stringAt pull ["head", "sha"]) expectedHeadSha
  if boolAt pull ["draft"] = some false then return none
  let pullRequestId ← Checked.okOr .invalidResponse (stringAt pull ["node_id"])
  return some pullRequestId

def decodeMarkedReady (pullRequestNumber : Nat) (response : Json) :
    Except MutationError MutationResult := do
  Checked.ensure ((response.get? "errors").isNone) .graphQlRejected
  let ready ← Checked.okOr .ambiguousTransport
    (response.pointer? ["data", "markPullRequestReadyForReview", "pullRequest"])
  Checked.ensure (numberAt ready ["databaseId"] ≠ some 0 ∧
    (numberAt ready ["databaseId"]).isSome ∧
    numberAt ready ["number"] = some pullRequestNumber ∧
    (nonemptyString (stringAt ready ["url"])).isSome ∧
    boolAt ready ["isDraft"] = some false) .ambiguousTransport
  return { MutationResult.default with
    id := numberAt ready ["databaseId"]
    number := numberAt ready ["number"]
    htmlUrl := stringAt ready ["url"] }

/-- One call of the client. -/
def execute (remote : Remote) (owner repository : String) (action : GitHubAction) :
    Session MutationResult := do
  ofExcept (validateComponent owner)
  ofExcept (validateComponent repository)
  let base := s!"repos/{owner}/{repository}"
  match action with
  | .createBranch branch fromSha =>
      let reference := s!"refs/heads/{branch}"
      request remote .post s!"{base}/git/refs"
        (.obj [("ref", .str reference), ("sha", .str fromSha)])
        (.createdRef reference fromSha)
  | .pushIntent .. => fail .gitTransportRequired
  | .comment issueNumber body =>
      request remote .post s!"{base}/issues/{issueNumber}/comments"
        (.obj [("body", .str body)]) .resource
  | .review number sha event body inlineComments =>
      request remote .post s!"{base}/pulls/{number}/reviews"
        (reviewPayload sha event body inlineComments) .resource
  | .resolveReviewThread number threadId sha => do
      let identity ← requestValue remote .post "graphql"
        (some (graphQl threadQuery "threadId" threadId)) .read
      let resolved ← ofExcept (checkReviewThread owner repository number threadId sha identity)
      if resolved then return resolvedThread threadId
      let response ← requestValue remote .post "graphql"
        (some (graphQl resolveThreadMutation "threadId" threadId)) .mutation
      ofExcept (decodeResolvedThread threadId response)
  | .checkRun name headSha status conclusion =>
      request remote .post s!"{base}/check-runs"
        (.obj [("name", .str name), ("head_sha", .str headSha), ("status", .str status),
          ("conclusion", .ofOption .str conclusion)]) .resource
  | .draftPullRequest title head target body headSha baseSha => do
      requireRefSha remote base head headSha
      requireRefSha remote base target baseSha
      request remote .post s!"{base}/pulls"
        (.obj [("title", .str title), ("head", .str head), ("base", .str target),
          ("body", .str body), ("draft", .bool true)]) .pullRequest
  | .updatePullRequestBranch number sha =>
      request remote .put s!"{base}/pulls/{number}/update-branch"
        (.obj [("expected_head_sha", .str sha)]) .updateBranch
  | .readyPullRequest number sha => do
      let pull ← requestValue remote .get s!"{base}/pulls/{number}" none .read
      let draft ← ofExcept (checkDraft sha pull)
      let some pullRequestId := draft | return decodeValue pull
      let response ← requestValue remote .post "graphql"
        (some (graphQl markReadyMutation "pullRequestId" pullRequestId)) .mutation
      ofExcept (decodeMarkedReady number response)
  | .closePullRequest number sha => do
      let pull ← requestValue remote .get s!"{base}/pulls/{number}" none .read
      ofExcept (requireSha (stringAt pull ["head", "sha"]) sha)
      request remote .patch s!"{base}/pulls/{number}" (.obj [("state", .str "closed")])
        (.closed number)
  | .closeIssue issueNumber =>
      request remote .patch s!"{base}/issues/{issueNumber}"
        (.obj [("state", .str "closed"), ("state_reason", .str "completed")])
        (.closed issueNumber)
  | .enqueuePullRequest .. => fail .mergeQueueRequired
  | .mergePullRequest number sha method =>
      request remote .put s!"{base}/pulls/{number}/merge"
        (.obj [("sha", .str sha), ("merge_method", .str (mergeMethod method))]) .merged

/-! ## Reads first, then at most one write -/

/-- How the response to a write is read. -/
inductive WriteReply where
  | rest (expectation : MutationExpectation)
  | resolvedThread (threadId : String)
  | markedReady (pullRequestNumber : Nat)
  deriving DecidableEq, Repr

def WriteReply.decode : WriteReply → Json → Except MutationError MutationResult
  | rest expectation, value => Checked.okOr .ambiguousTransport (expectation.decode value)
  | resolvedThread threadId, value => decodeResolvedThread threadId value
  | markedReady number, value => decodeMarkedReady number value

def WriteReply.isGraphQl : WriteReply → Bool
  | rest _ => false
  | resolvedThread _ => true
  | markedReady _ => true

/-- The request of an action that changes state. -/
structure Write where
  method : Method
  path : String
  body : Json
  reply : WriteReply

def Write.request (write : Write) (url : String) : Request :=
  ⟨write.method, url, some write.body, .mutation⟩

/-- What the reads and checks of a call lead to. -/
inductive Plan where
  | done (result : MutationResult)
  | write (write : Write)

/-- The part of a call before its write. -/
def plan (remote : Remote) (owner repository : String) (action : GitHubAction) :
    Session Plan := do
  ofExcept (validateComponent owner)
  ofExcept (validateComponent repository)
  let base := s!"repos/{owner}/{repository}"
  match action with
  | .createBranch branch fromSha =>
      let reference := s!"refs/heads/{branch}"
      return .write ⟨.post, s!"{base}/git/refs",
        .obj [("ref", .str reference), ("sha", .str fromSha)],
        .rest (.createdRef reference fromSha)⟩
  | .pushIntent .. => fail .gitTransportRequired
  | .comment issueNumber body =>
      return .write ⟨.post, s!"{base}/issues/{issueNumber}/comments", .obj [("body", .str body)],
        .rest .resource⟩
  | .review number sha event body inlineComments =>
      return .write ⟨.post, s!"{base}/pulls/{number}/reviews",
        reviewPayload sha event body inlineComments, .rest .resource⟩
  | .resolveReviewThread number threadId sha => do
      let identity ← requestValue remote .post "graphql"
        (some (graphQl threadQuery "threadId" threadId)) .read
      let resolved ← ofExcept (checkReviewThread owner repository number threadId sha identity)
      if resolved then return .done (resolvedThread threadId)
      return .write ⟨.post, "graphql", graphQl resolveThreadMutation "threadId" threadId,
        .resolvedThread threadId⟩
  | .checkRun name headSha status conclusion =>
      return .write ⟨.post, s!"{base}/check-runs",
        .obj [("name", .str name), ("head_sha", .str headSha), ("status", .str status),
          ("conclusion", .ofOption .str conclusion)], .rest .resource⟩
  | .draftPullRequest title head target body headSha baseSha => do
      requireRefSha remote base head headSha
      requireRefSha remote base target baseSha
      return .write ⟨.post, s!"{base}/pulls",
        .obj [("title", .str title), ("head", .str head), ("base", .str target),
          ("body", .str body), ("draft", .bool true)], .rest .pullRequest⟩
  | .updatePullRequestBranch number sha =>
      return .write ⟨.put, s!"{base}/pulls/{number}/update-branch",
        .obj [("expected_head_sha", .str sha)], .rest .updateBranch⟩
  | .readyPullRequest number sha => do
      let pull ← requestValue remote .get s!"{base}/pulls/{number}" none .read
      let draft ← ofExcept (checkDraft sha pull)
      let some pullRequestId := draft | return .done (decodeValue pull)
      return .write ⟨.post, "graphql", graphQl markReadyMutation "pullRequestId" pullRequestId,
        .markedReady number⟩
  | .closePullRequest number sha => do
      let pull ← requestValue remote .get s!"{base}/pulls/{number}" none .read
      ofExcept (requireSha (stringAt pull ["head", "sha"]) sha)
      return .write ⟨.patch, s!"{base}/pulls/{number}", .obj [("state", .str "closed")],
        .rest (.closed number)⟩
  | .closeIssue issueNumber =>
      return .write ⟨.patch, s!"{base}/issues/{issueNumber}",
        .obj [("state", .str "closed"), ("state_reason", .str "completed")],
        .rest (.closed issueNumber)⟩
  | .enqueuePullRequest .. => fail .mergeQueueRequired
  | .mergePullRequest number sha method =>
      return .write ⟨.put, s!"{base}/pulls/{number}/merge",
        .obj [("sha", .str sha), ("merge_method", .str (mergeMethod method))], .rest .merged⟩

/-- Send a write and read its response. -/
def send (remote : Remote) (write : Write) : Session MutationResult := do
  let value ← requestValue remote write.method write.path (some write.body) .mutation
  ofExcept (write.reply.decode value)

def finish (remote : Remote) : Plan → Session MutationResult
  | .done result => pure result
  | .write write => send remote write

/-- A call is its plan and the write the plan leads to. -/
theorem execute_eq (remote : Remote) (owner repository : String) (action : GitHubAction) :
    execute remote owner repository action =
      plan remote owner repository action >>= finish remote := by
  unfold execute plan
  rw [bind_assoc]
  congr 1
  funext _
  rw [bind_assoc]
  congr 1
  funext _
  cases action with
  | createBranch | comment | review | checkRun | updatePullRequestBranch | closeIssue
  | mergePullRequest => rfl
  | pushIntent | enqueuePullRequest => rfl
  | resolveReviewThread =>
      dsimp only
      rw [bind_assoc]
      congr 1
      funext identity
      rw [bind_assoc]
      congr 1
      funext resolved
      cases resolved <;> rfl
  | draftPullRequest =>
      dsimp only
      rw [bind_assoc]
      congr 1
      funext _
      rw [bind_assoc]
      rfl
  | readyPullRequest =>
      dsimp only
      rw [bind_assoc]
      congr 1
      funext pull
      rw [bind_assoc]
      congr 1
      funext draft
      cases draft <;> rfl
  | closePullRequest =>
      dsimp only
      rw [bind_assoc]
      congr 1
      funext pull
      rw [bind_assoc]
      rfl

/-- The call is a read. -/
def IsRead (call : Call) : Prop := call.request.effect = .read

section Before

variable {remote : Remote} {property : Call → Prop}

theorem requestValue_adds {method : Method} {path : String} {body : Option Json}
    {effect : RequestEffect}
    (hrequest : ∀ url answer, remote.join path = some url →
      property ⟨⟨method, url, body, effect⟩, answer⟩) :
    Adds property (requestValue remote method path body effect) := by
  rw [requestValue]
  cases hurl : remote.join path with
  | none => exact adds_fail _
  | some url =>
      rw [Checked.okOr, ofExcept_bind_ok]
      apply (adds_ask fun answer => hrequest url answer hurl).bind
      intro answer
      exact adds_ofExcept _

theorem requireRefSha_adds {base reference expectedSha : String}
    (hget : ∀ url answer, property ⟨⟨.get, url, none, .read⟩, answer⟩) :
    Adds property (requireRefSha remote base reference expectedSha) := by
  rw [requireRefSha]
  apply (requestValue_adds fun url answer _ => hget url answer).bind
  intro value
  exact adds_ofExcept _

/-- Before its write a call only gets resources and asks for threads. -/
theorem plan_adds (owner repository : String) (action : GitHubAction)
    (hget : ∀ url answer, property ⟨⟨.get, url, none, .read⟩, answer⟩)
    (hquery : ∀ url threadId answer, remote.join "graphql" = some url →
      property ⟨⟨.post, url, some (graphQl threadQuery "threadId" threadId), .read⟩, answer⟩) :
    Adds property (plan remote owner repository action) := by
  rw [plan]
  apply (adds_ofExcept _).bind
  intro _
  apply (adds_ofExcept _).bind
  intro _
  cases action with
  | createBranch | comment | review | checkRun | updatePullRequestBranch | closeIssue
  | mergePullRequest => exact adds_pure _
  | pushIntent | enqueuePullRequest => exact adds_fail _
  | resolveReviewThread number threadId =>
      apply (requestValue_adds fun url answer hurl => hquery url threadId answer hurl).bind
      intro identity
      apply (adds_ofExcept _).bind
      intro resolved
      cases resolved <;> exact adds_pure _
  | draftPullRequest =>
      apply (requireRefSha_adds hget).bind
      intro _
      apply (requireRefSha_adds hget).bind
      intro _
      exact adds_pure _
  | readyPullRequest =>
      apply (requestValue_adds fun url answer _ => hget url answer).bind
      intro pull
      apply (adds_ofExcept _).bind
      intro draft
      cases draft <;> exact adds_pure _
  | closePullRequest =>
      apply (requestValue_adds fun url answer _ => hget url answer).bind
      intro pull
      apply (adds_ofExcept _).bind
      intro _
      exact adds_pure _

end Before

/-- Nothing before the write changes state. -/
theorem plan_adds_reads (remote : Remote) (owner repository : String) (action : GitHubAction) :
    Adds IsRead (plan remote owner repository action) :=
  plan_adds owner repository action (fun _ _ => rfl) fun _ _ _ _ => rfl

/-- The remote says that it did not make the change: a status that is no
success, or an `errors` member in the reply to a GraphQL mutation. -/
def WriteReply.refuses (reply : WriteReply) : Option Response → Bool
  | none => false
  | some response =>
      !response.isSuccess ||
        (reply.isGraphQl && response.body.any fun value => (value.get? "errors").isSome)

/-- A body that does not confirm the write leaves its outcome open, unless it
is a refusal. -/
theorem decode_eq_error {reply : WriteReply} {value : Json} {error : MutationError}
    (hdecode : reply.decode value = .error error) :
    if reply.isGraphQl && (value.get? "errors").isSome then error = .graphQlRejected
    else error = .ambiguousTransport := by
  cases reply with
  | rest expectation =>
      rw [WriteReply.decode, Checked.okOr_eq_error] at hdecode
      exact hdecode.2.symm
  | resolvedThread threadId =>
      rw [WriteReply.decode, decodeResolvedThread] at hdecode
      rw [WriteReply.isGraphQl, Bool.true_and]
      cases hvalue : value.get? "errors" <;> simp [hvalue] at hdecode ⊢
      · rcases hdecode with ⟨-, herror⟩ | ⟨resolved, -, -, herror⟩
        · exact herror.symm
        · exact herror.symm
      · exact hdecode.symm
  | markedReady number =>
      rw [WriteReply.decode, decodeMarkedReady] at hdecode
      rw [WriteReply.isGraphQl, Bool.true_and]
      cases hvalue : value.get? "errors" <;> simp [hvalue] at hdecode ⊢
      · rcases hdecode with ⟨-, herror⟩ | ⟨ready, -, -, herror⟩
        · exact herror.symm
        · exact herror.symm
      · exact hdecode.symm

theorem decode_eq_ok {reply : WriteReply} {value : Json} {result : MutationResult}
    (hdecode : reply.decode value = .ok result) :
    (reply.isGraphQl && (value.get? "errors").isSome) = false := by
  cases reply with
  | rest expectation => rfl
  | resolvedThread threadId =>
      rw [WriteReply.decode, decodeResolvedThread, Checked.bind_eq_ok] at hdecode
      rcases hdecode with ⟨_, hnone, -⟩
      rw [Checked.ensure_eq_ok, Option.isNone_iff_eq_none] at hnone
      rw [hnone]
      rfl
  | markedReady number =>
      rw [WriteReply.decode, decodeMarkedReady, Checked.bind_eq_ok] at hdecode
      rcases hdecode with ⟨_, hnone, -⟩
      rw [Checked.ensure_eq_ok, Option.isNone_iff_eq_none] at hnone
      rw [hnone]
      rfl

/-- How the client judges a write it has sent. -/
def judge (reply : WriteReply) (response : Option Response) :
    Except MutationError MutationResult := do
  let value ← readResponse .mutation response
  reply.decode value

/-- A judgement is a confirmation, or leaves the outcome open, or takes the
write for refused. -/
theorem judge_eq_error {reply : WriteReply} {response : Option Response}
    {error : MutationError} (hjudge : judge reply response = .error error) :
    error = .ambiguousTransport ↔ reply.refuses response = false := by
  cases response with
  | none =>
      have herror : error = .ambiguousTransport := by
        cases hjudge
        rfl
      exact iff_of_true herror rfl
  | some response =>
      rw [judge, readResponse] at hjudge
      rw [WriteReply.refuses]
      cases hsuccess : response.isSuccess with
      | false =>
          rw [hsuccess] at hjudge
          cases hjudge
          exact iff_of_false nofun nofun
      | true =>
          rw [hsuccess] at hjudge
          cases hbody : response.body with
          | none =>
              rw [hbody] at hjudge
              cases hjudge
              rw [Option.any_none, Bool.and_false]
              exact iff_of_true rfl rfl
          | some value =>
              rw [hbody] at hjudge
              have hdecode := decode_eq_error hjudge
              rw [Option.any_some, Bool.not_true, Bool.false_or]
              split at hdecode
              · next hgraphQl =>
                  rw [hdecode, hgraphQl]
                  exact iff_of_false nofun nofun
              · next hgraphQl =>
                  exact iff_of_true hdecode (Bool.eq_false_iff.mpr hgraphQl)

/-- A confirmation is no refusal. -/
theorem judge_eq_ok {reply : WriteReply} {response : Option Response} {result : MutationResult}
    (hjudge : judge reply response = .ok result) : reply.refuses response = false := by
  rw [judge, Checked.bind_eq_ok] at hjudge
  rcases hjudge with ⟨value, hread, hdecode⟩
  cases response with
  | none => exact absurd hread nofun
  | some response =>
      rw [readResponse] at hread
      rw [WriteReply.refuses]
      cases hsuccess : response.isSuccess with
      | false =>
          rw [hsuccess] at hread
          exact absurd hread nofun
      | true =>
          rw [hsuccess] at hread
          cases hbody : response.body with
          | none =>
              rw [hbody] at hread
              exact absurd hread nofun
          | some body =>
              rw [hbody] at hread
              cases hread
              rw [Option.any_some, decode_eq_ok hdecode]
              rfl

theorem run_send (remote : Remote) (write : Write) (log : List Call) :
    send remote write log =
      match remote.join write.path with
      | none => (.error .invalidTarget, log)
      | some url =>
          (judge write.reply (remote.peer log (write.request url)).response,
            log ++ [⟨write.request url, remote.peer log (write.request url)⟩]) := by
  rw [send, requestValue]
  cases remote.join write.path with
  | none => rfl
  | some url =>
      rw [bind_assoc, Checked.okOr, ofExcept_bind_ok, bind_assoc, run_bind, run_ask]
      dsimp only
      rw [run_bind, run_ofExcept, judge]
      rw [Write.request]
      cases readResponse .mutation
        (remote.peer log ⟨write.method, url, some write.body, .mutation⟩).response <;> rfl

end MutationClient

end Patchwright
