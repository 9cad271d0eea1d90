import Patchwright.Core.Rfc3339
import Patchwright.Library.Checked

/-!
# The webhook route of the relay

A request is checked for its signature, its headers and its event, and leaves
behind a delivery with a sanitized payload: the event, the action, and the
identity of the repository and of one entity.  The typed readers of the events
accept a record also as an array of its fields; the sanitizer follows field
names only.
-/

namespace Patchwright.Webhook

open Checked

structure HttpReply where
  status : Nat
  text : String
  deriving DecidableEq, Repr

/-- The check of a signature under the secret of the relay, as the HMAC library
answers it. -/
class Secret where
  verifySignature : String → String → Bool

/-- A request: its headers as bytes, and its body with the value or the error
the body has as JSON. -/
structure Request where
  headers : List (String × List UInt8)
  body : String
  json : Except String Json

/-- A header as a text, where all of its bytes are visible ASCII or tabs. -/
def Request.header? (request : Request) (name : String) : Option String :=
  (request.headers.lookup name).bind fun bytes =>
    if bytes.all fun byte => (32 ≤ byte && byte < 127) || byte = 9 then
      some (String.ofList (bytes.map fun byte => Char.ofNat byte.toNat))
    else none

inductive EventValidationError where
  | invalidJson
  | unsupportedOrIncomplete
  deriving DecidableEq, Repr

def EventValidationError.reply : EventValidationError → HttpReply
  | invalidJson => ⟨400, "invalid json"⟩
  | unsupportedOrIncomplete => ⟨422, "unsupported or incomplete event"⟩

/-! ## Events -/

structure RepositoryObject where
  id : Nat
  fullName : String
  deriving DecidableEq, Repr

def RepositoryObject.read (value : Json) : Option RepositoryObject := do
  let names := ["id", "full_name"]
  let id ← (value.recordField? names "id").bind Json.asU64?
  let fullName ← (value.recordField? names "full_name").bind Json.asStr?
  return { id, fullName }

/-- The number in an object that is read for one field. -/
def readNumber (field : String) (value : Json) : Option Nat :=
  (value.recordField? [field] field).bind Json.asU64?

/-- The events about a repository: the object that gives a number, the object
that gives an identifier, and the supported actions. -/
structure EventShape where
  numbered : Option String
  identified : Option String
  actions : List String

structure EventPayload where
  action : String
  number : Option Nat
  identifier : Option Nat
  repository : RepositoryObject
  deriving DecidableEq, Repr

namespace EventShape

def names (shape : EventShape) : List String :=
  "action" :: (shape.numbered.toList ++ shape.identified.toList ++ ["repository"])

/-- The number in an object of the event, where its record has the object. -/
def readEntity (shape : EventShape) (object : Option String) (field : String) (value : Json) :
    Option (Option Nat) :=
  match object with
  | none => some none
  | some name => ((value.recordField? shape.names name).bind (readNumber field)).map some

def read (shape : EventShape) (value : Json) : Option EventPayload := do
  let action ← (value.recordField? shape.names "action").bind Json.asStr?
  let number ← shape.readEntity shape.numbered "number" value
  let identifier ← shape.readEntity shape.identified "id" value
  let repository ← (value.recordField? shape.names "repository").bind RepositoryObject.read
  return { action, number, identifier, repository }

end EventShape

def pullRequestEvent : EventShape where
  numbered := some "pull_request"
  identified := none
  actions := ["assigned", "unassigned", "labeled", "unlabeled", "opened", "edited", "closed",
    "reopened", "synchronize", "converted_to_draft", "locked", "unlocked", "enqueued", "dequeued",
    "milestoned", "demilestoned", "ready_for_review", "review_requested",
    "review_request_removed", "auto_merge_enabled", "auto_merge_disabled"]

def issueCommentEvent : EventShape where
  numbered := some "issue"
  identified := some "comment"
  actions := ["created", "edited", "deleted"]

def pullRequestReviewEvent : EventShape where
  numbered := some "pull_request"
  identified := some "review"
  actions := ["submitted", "edited", "dismissed"]

def pullRequestReviewCommentEvent : EventShape where
  numbered := some "pull_request"
  identified := some "comment"
  actions := ["created", "edited", "deleted"]

def checkRunEvent : EventShape where
  numbered := none
  identified := some "check_run"
  actions := ["created", "rerequested", "completed", "requested_action"]

def checkSuiteEvent : EventShape where
  numbered := none
  identified := some "check_suite"
  actions := ["completed", "requested", "rerequested"]

def workflowRunEvent : EventShape where
  numbered := none
  identified := some "workflow_run"
  actions := ["completed", "requested", "in_progress"]

def typedEvent {α : Type} : Option α → Except EventValidationError α :=
  okOr .unsupportedOrIncomplete

def requireAction (action : String) (supported : List String) :
    Except EventValidationError String := do
  ensure (action ∈ supported) EventValidationError.unsupportedOrIncomplete
  return action

def requireIdentifier (identifier : Nat) : Except EventValidationError Unit :=
  ensure (0 < identifier) .unsupportedOrIncomplete

/-- An owner and a name around a single slash. -/
def requireRepository (repository : RepositoryObject) : Except EventValidationError Unit := do
  requireIdentifier repository.id
  let (owner, name) ← okOr .unsupportedOrIncomplete (splitOnce repository.fullName '/')
  ensure (¬ (owner = "" ∨ name = "" ∨ '/' ∈ name.toList ∨ repository.fullName.utf8ByteSize > 255 ∨
    repository.fullName.toList.any isWhitespace)) .unsupportedOrIncomplete

/-- Check an entity, where the event has one. -/
def requireEntity (entity : Option Nat) : Except EventValidationError Unit :=
  match entity with
  | some number => requireIdentifier number
  | none => .ok ()

def EventShape.validate (shape : EventShape) (value : Json) :
    Except EventValidationError String := do
  let payload ← typedEvent (shape.read value)
  requireEntity payload.number
  requireEntity payload.identifier
  requireRepository payload.repository
  requireAction payload.action shape.actions

structure PingEvent where
  hookId : Nat
  zen : String
  deriving DecidableEq, Repr

def PingEvent.read (value : Json) : Option PingEvent := do
  let names := ["hook_id", "zen"]
  let hookId ← (value.recordField? names "hook_id").bind Json.asU64?
  let zen ← (value.recordField? names "zen").bind Json.asStr?
  return { hookId, zen }

/-- A ping is checked for its hook, not for a repository. -/
def validatePing (value : Json) : Except EventValidationError String := do
  let payload ← typedEvent (PingEvent.read value)
  requireIdentifier payload.hookId
  ensure (trim payload.zen ≠ "") EventValidationError.unsupportedOrIncomplete
  return "ping"

/-- The events about a repository. -/
def eventShape? : String → Option EventShape
  | "pull_request" => some pullRequestEvent
  | "issue_comment" => some issueCommentEvent
  | "pull_request_review" => some pullRequestReviewEvent
  | "pull_request_review_comment" => some pullRequestReviewCommentEvent
  | "check_run" => some checkRunEvent
  | "check_suite" => some checkSuiteEvent
  | "workflow_run" => some workflowRunEvent
  | _ => none

def validateEvent (event : String) (body : Except String Json) :
    Except EventValidationError String := do
  let value ← body.mapError fun _ => .invalidJson
  match eventShape? event with
  | some shape => shape.validate value
  | none => if event = "ping" then validatePing value else .error .unsupportedOrIncomplete

/-! ## The sanitized payload -/

structure SanitizedWebhookEnvelope where
  schemaVersion : Nat
  event : String
  action : String
  repositoryId : Option Nat
  repositoryFullName : Option String
  entityNumber : Option Nat
  entityId : Option Nat
  deriving DecidableEq, Repr

namespace SanitizedWebhookEnvelope

def names : List String :=
  ["schemaVersion", "event", "action", "repositoryId", "repositoryFullName", "entityNumber",
    "entityId"]

def toJson (envelope : SanitizedWebhookEnvelope) : Json :=
  .obj [("schemaVersion", .int envelope.schemaVersion), ("event", .str envelope.event),
    ("action", .str envelope.action),
    ("repositoryId", Json.ofOption (fun id : Nat => .int id) envelope.repositoryId),
    ("repositoryFullName", Json.ofOption .str envelope.repositoryFullName),
    ("entityNumber", Json.ofOption (fun number : Nat => .int number) envelope.entityNumber),
    ("entityId", Json.ofOption (fun id : Nat => .int id) envelope.entityId)]

/-- An optional field: it may be missing, and null stands for nothing. -/
def optional {α : Type} (read : Json → Option α) : Option Json → Option (Option α)
  | none | some .null => some none
  | some value => (read value).map some

def hasOnly (names : List String) : Json → Bool
  | .obj fields => fields.all fun field => field.1 ∈ names
  | _ => true

def asU32? (value : Json) : Option Nat := value.asU64?.filter fun number => number < 2 ^ 32

/-- Read an envelope; fields it does not know are refused. -/
def ofJson? (value : Json) : Option SanitizedWebhookEnvelope := do
  guard (hasOnly names value)
  let schemaVersion ← (value.recordField? names "schemaVersion").bind asU32?
  let event ← (value.recordField? names "event").bind Json.asStr?
  let action ← (value.recordField? names "action").bind Json.asStr?
  let repositoryId ← optional Json.asU64? (value.recordField? names "repositoryId")
  let repositoryFullName ← optional Json.asStr? (value.recordField? names "repositoryFullName")
  let entityNumber ← optional Json.asU64? (value.recordField? names "entityNumber")
  let entityId ← optional Json.asU64? (value.recordField? names "entityId")
  return { schemaVersion, event, action, repositoryId, repositoryFullName, entityNumber, entityId }

end SanitizedWebhookEnvelope

structure ForwardedWebhook where
  deliveryId : String
  envelope : SanitizedWebhookEnvelope
  payloadSha256 : String
  receivedAt : String
  deriving DecidableEq, Repr

/-- What the route hands to the inbox; the payload stands for its JSON text. -/
structure WebhookDelivery where
  deliveryId : String
  event : String
  action : String
  payload : Json
  payloadSha256 : String

/-- Where the number and the identifier of an event stand in its body.  A
comment has a number only if it is on a pull request. -/
def entityPointers (event : String) (value : Json) : Option Json × Option Json :=
  match event with
  | "pull_request" => (value.pointer? ["pull_request", "number"], none)
  | "issue_comment" =>
      ((value.pointer? ["issue", "pull_request"]).bind fun _ =>
        value.pointer? ["issue", "number"], value.pointer? ["comment", "id"])
  | "pull_request_review" =>
      (value.pointer? ["pull_request", "number"], value.pointer? ["review", "id"])
  | "pull_request_review_comment" =>
      (value.pointer? ["pull_request", "number"], value.pointer? ["comment", "id"])
  | "check_run" => (none, value.pointer? ["check_run", "id"])
  | "check_suite" => (none, value.pointer? ["check_suite", "id"])
  | "workflow_run" => (none, value.pointer? ["workflow_run", "id"])
  | "ping" => (none, value.get? "hook_id")
  | _ => (none, none)

def sanitizedEnvelope (event action : String) (value : Json) : SanitizedWebhookEnvelope :=
  let repository := value.get? "repository"
  let (entityNumber, entityId) := entityPointers event value
  { schemaVersion := 1, event, action
    repositoryId := (repository.bind (Json.get? "id")).bind Json.asU64?
    repositoryFullName := (repository.bind (Json.get? "full_name")).bind Json.asStr?
    entityNumber := entityNumber.bind Json.asU64?
    entityId := entityId.bind Json.asU64? }

def sanitizedPayload (event action : String) (body : Except String Json) : Except String Json := do
  let value ← body
  return (sanitizedEnvelope event action value).toJson

/-! ## The route -/

def deliveryId? (request : Request) : Option String :=
  (request.header? "x-github-delivery").filter fun value =>
    value ≠ "" ∧ value.utf8ByteSize ≤ 128 ∧ ¬ value.toList.any isControl

def eventName? (request : Request) : Option String :=
  (request.header? "x-github-event").filter fun value => value ≠ "" ∧ value.utf8ByteSize ≤ 64

/-- The delivery of a request, up to its record in the inbox. -/
def githubWebhook [Secret] [Sha256] (request : Request) : Except HttpReply WebhookDelivery := do
  ensure (∃ signature ∈ request.header? "x-hub-signature-256",
    Secret.verifySignature request.body signature) ⟨401, "invalid signature"⟩
  let deliveryId ← okOr ⟨400, "missing delivery id"⟩ (deliveryId? request)
  let event ← okOr ⟨400, "missing event name"⟩ (eventName? request)
  let action ← (validateEvent event request.json).mapError EventValidationError.reply
  let payload ← (sanitizedPayload event action request.json).mapError
    fun _ => ⟨500, "webhook inbox unavailable"⟩
  return { deliveryId, event, action, payload, payloadSha256 := sha256Hex request.body }

/-- The delivery as the forwarder reads it from the inbox. -/
def WebhookDelivery.forwarded? (delivery : WebhookDelivery) (receivedAt : DateTime) :
    Option ForwardedWebhook := do
  let envelope ← SanitizedWebhookEnvelope.ofJson? delivery.payload
  return {
    deliveryId := delivery.deliveryId, envelope, payloadSha256 := delivery.payloadSha256
    receivedAt := rfc3339 receivedAt }

/-! ## What a checked event establishes -/

section Checks

variable {value : Json} {action event : String}

theorem requireIdentifier_eq_ok {identifier : Nat} {result : Unit} :
    requireIdentifier identifier = .ok result ↔ 0 < identifier :=
  ensure_eq_ok

theorem requireEntity_eq_ok {entity : Option Nat} {result : Unit} :
    requireEntity entity = .ok result ↔ ∀ number ∈ entity, 0 < number := by
  cases entity with
  | none => exact iff_of_true rfl nofun
  | some number => 
      rw [requireEntity, requireIdentifier_eq_ok]
      constructor
      · rintro hpos other ⟨⟩
        exact hpos
      · intro hall
        exact hall number rfl

/-- An owner and a name around a single slash, without whitespace and of a
bounded length. -/
def IsRepositoryName (fullName : String) : Prop :=
  ∃ owner name, splitOnce fullName '/' = some (owner, name) ∧ owner ≠ "" ∧ name ≠ "" ∧
    '/' ∉ name.toList ∧ fullName.utf8ByteSize ≤ 255 ∧ ¬ fullName.toList.any isWhitespace

theorem requireRepository_eq_ok {repository : RepositoryObject} {result : Unit} :
    requireRepository repository = .ok result ↔
      0 < repository.id ∧ IsRepositoryName repository.fullName := by
  rw [requireRepository]
  simp only [bind_eq_ok, requireIdentifier_eq_ok, okOr_eq_ok, ensure_eq_ok, IsRepositoryName,
    Prod.exists, not_or, not_lt, gt_iff_lt]
  constructor
  · rintro ⟨-, hid, owner, name, hsplit, hname⟩
    exact ⟨hid, owner, name, hsplit, hname⟩
  · rintro ⟨hid, owner, name, hsplit, hname⟩
    exact ⟨(), hid, owner, name, hsplit, hname⟩

theorem EventShape.validate_eq_ok {shape : EventShape} :
    shape.validate value = .ok action ↔ ∃ payload, shape.read value = some payload ∧
      (∀ number ∈ payload.number, 0 < number) ∧ (∀ id ∈ payload.identifier, 0 < id) ∧
      0 < payload.repository.id ∧ IsRepositoryName payload.repository.fullName ∧
      payload.action ∈ shape.actions ∧ payload.action = action := by
  rw [EventShape.validate]
  simp only [bind_eq_ok, typedEvent, okOr_eq_ok, requireEntity_eq_ok, requireRepository_eq_ok,
    requireAction, ensure_eq_ok, pure_eq_ok, exists_const, and_assoc]

theorem validatePing_eq_ok : validatePing value = .ok action ↔
    ∃ payload, PingEvent.read value = some payload ∧ 0 < payload.hookId ∧
      trim payload.zen ≠ "" ∧ "ping" = action := by
  rw [validatePing]
  simp only [bind_eq_ok, typedEvent, okOr_eq_ok, requireIdentifier_eq_ok, ensure_eq_ok, pure_eq_ok,
    exists_const]

/-- A number that stands under its name is the one the typed reader has read. -/
theorem EventShape.readEntity_pointer {shape : EventShape} {name field : String}
    {found : Option Nat} {inner : Json}
    (hread : shape.readEntity (some name) field value = some found)
    (hpointer : value.pointer? [name, field] = some inner) : inner.asU64? = found := by
  cases value with
  | obj fields =>
      rw [Json.pointer?, Json.get?] at hpointer
      rw [EventShape.readEntity, Json.recordField?] at hread
      cases hobject : fields.lookup name with
      | none =>
          rw [hobject] at hpointer
          exact absurd hpointer nofun
      | some object =>
          rw [hobject] at hpointer hread
          dsimp only [Option.bind_some] at hread
          cases object with
          | obj members =>
              rw [readNumber, Json.recordField?] at hread
              dsimp only [Json.pointer?, Json.get?] at hpointer
              cases hnumber : members.lookup field with
              | none =>
                  rw [hnumber] at hpointer
                  exact absurd hpointer nofun
              | some number =>
                  rw [hnumber] at hpointer hread
                  rw [Option.map_eq_some_iff] at hread
                  obtain ⟨count, hcount, rfl⟩ := hread
                  cases hpointer
                  exact hcount
          | _ => exact absurd hpointer nofun
  | _ => exact absurd hpointer nofun

variable (value) in
/-- The numbers and identifiers of an envelope stand in the objects that the
event is checked for. -/
theorem eventShape_pointers {shape : EventShape} (hshape : eventShape? event = some shape) :
    (∀ inner ∈ (entityPointers event value).1, ∃ name, shape.numbered = some name ∧
      value.pointer? [name, "number"] = some inner) ∧
    ∀ inner ∈ (entityPointers event value).2, ∃ name, shape.identified = some name ∧
      value.pointer? [name, "id"] = some inner := by
  rw [eventShape?.eq_def] at hshape
  split at hshape <;> cases hshape
  all_goals
    refine ⟨fun inner hinner => ?_, fun inner hinner => ?_⟩
    all_goals simp only [entityPointers, Option.mem_def, reduceCtorEq] at hinner
    -- the number of a comment stands behind the test for a pull request
    all_goals first
      | exact ⟨_, rfl, hinner⟩
      | exact ⟨_, rfl, (Option.bind_eq_some_iff.mp hinner).choose_spec.2⟩

/-- Every supported event and every action of one is a short plain word. -/
theorem eventShape_words {shape : EventShape} (hshape : eventShape? event = some shape) :
    ∀ word ∈ event :: shape.actions,
      word ≠ "" ∧ word.utf8ByteSize ≤ 64 ∧ ¬ word.toList.any isControl := by
  rw [eventShape?.eq_def] at hshape
  split at hshape <;> cases hshape
  all_goals decide

variable (event action) in
/-- The repository of an envelope is the one the event is checked for, where it
stands under its names. -/
theorem EventShape.read_repository {shape : EventShape} {payload : EventPayload}
    {fields members : List (String × Json)} (hread : shape.read (.obj fields) = some payload)
    (hobject : fields.lookup "repository" = some (.obj members)) :
    (sanitizedEnvelope event action (.obj fields)).repositoryId = some payload.repository.id ∧
      (sanitizedEnvelope event action (.obj fields)).repositoryFullName =
        some payload.repository.fullName := by
  simp only [EventShape.read, RepositoryObject.read, Json.recordField?, Option.bind_eq_bind,
    Option.bind_eq_some_iff, hobject, Option.some.injEq, Option.pure_def] at hread
  obtain ⟨-, -, -, -, -, -, -, ⟨-, rfl, id, ⟨first, hfirst, hid⟩, fullName,
    ⟨second, hsecond, hname⟩, rfl⟩, rfl⟩ := hread
  simp only [sanitizedEnvelope, Json.get?, hobject, Option.bind_some, hfirst, hsecond]
  exact ⟨hid, hname⟩

theorem sanitizedEnvelope_repositoryId_isSome
    (hsome : (sanitizedEnvelope event action value).repositoryId.isSome) :
    ∃ fields members, value = .obj fields ∧ fields.lookup "repository" = some (.obj members) := by
  obtain ⟨id, hid⟩ := Option.isSome_iff_exists.mp hsome
  simp only [sanitizedEnvelope, Option.bind_eq_some_iff] at hid
  obtain ⟨number, ⟨repository, hrepository, hnumber⟩, -⟩ := hid
  cases value with
  | obj fields =>
      cases repository with
      | obj members => exact ⟨fields, members, rfl, hrepository⟩
      | _ => exact absurd hnumber nofun
  | _ => exact absurd hrepository nofun

end Checks

/-! ### Reading an envelope back -/

section RoundTrip

theorem asU64?_eq_some {value : Json} {number : Nat} :
    value.asU64? = some number ↔ value = .int number ∧ number < 2 ^ 64 := by
  cases value with
  | int value =>
      rw [Json.asU64?, Json.int.injEq]
      split
      · rw [Option.some.injEq]
        omega
      · refine iff_of_false nofun ?_
        rintro ⟨rfl, hlarge⟩
        omega
  | _ => exact iff_of_false nofun fun hnot => nomatch hnot.1

namespace SanitizedWebhookEnvelope

theorem optional_ofOption {α : Type} {read : Json → Option α} {encode : α → Json}
    {value : Option α} (hread : ∀ item ∈ value, read (encode item) = some item)
    (hnull : ∀ item, encode item ≠ .null) :
    optional read (some (Json.ofOption encode value)) = some value := by
  cases value with
  | none => rfl
  | some item =>
      rw [Json.ofOption, optional.eq_def]
      split
      · rename_i hnone
        exact absurd hnone nofun
      · rename_i hnone
        exact absurd (Option.some.inj hnone) (hnull item)
      · rename_i found _ hfound
        cases hfound
        rw [hread item rfl, Option.map_some]

theorem ofJson?_toJson {envelope : SanitizedWebhookEnvelope}
    (hschema : envelope.schemaVersion < 2 ^ 32)
    (hrepository : ∀ id ∈ envelope.repositoryId, id < 2 ^ 64)
    (hnumber : ∀ number ∈ envelope.entityNumber, number < 2 ^ 64)
    (hid : ∀ id ∈ envelope.entityId, id < 2 ^ 64) :
    ofJson? envelope.toJson = some envelope := by
  have hu64 : ∀ number < 2 ^ 64, (Json.int (number : Nat)).asU64? = some number :=
    fun number hlt => asU64?_eq_some.2 ⟨rfl, hlt⟩
  have hversion : (envelope.toJson.recordField? names "schemaVersion").bind asU32? =
      some envelope.schemaVersion := by
    have hfield : envelope.toJson.recordField? names "schemaVersion" =
        some (.int envelope.schemaVersion) := rfl
    rw [hfield, Option.bind_some, asU32?, hu64 _ (hschema.trans (by omega)), Option.filter_some, if_pos]
    exact decide_eq_true hschema
  have hevent : (envelope.toJson.recordField? names "event").bind Json.asStr? =
      some envelope.event := rfl
  have haction : (envelope.toJson.recordField? names "action").bind Json.asStr? =
      some envelope.action := rfl
  have hrepositoryId : optional Json.asU64? (envelope.toJson.recordField? names "repositoryId") =
      some envelope.repositoryId :=
    optional_ofOption (fun id hmem => hu64 id (hrepository id hmem)) nofun
  have hfullName : optional Json.asStr? (envelope.toJson.recordField? names "repositoryFullName") =
      some envelope.repositoryFullName :=
    optional_ofOption (fun _ _ => rfl) nofun
  have hentityNumber : optional Json.asU64? (envelope.toJson.recordField? names "entityNumber") =
      some envelope.entityNumber :=
    optional_ofOption (fun number hmem => hu64 number (hnumber number hmem)) nofun
  have hentityId : optional Json.asU64? (envelope.toJson.recordField? names "entityId") =
      some envelope.entityId :=
    optional_ofOption (fun id hmem => hu64 id (hid id hmem)) nofun
  have honly : hasOnly names envelope.toJson = true := rfl
  rw [ofJson?, hversion, hevent, haction, hrepositoryId, hfullName, hentityNumber, hentityId,
    honly]
  rfl

theorem ofJson?_sanitized (event action : String) (value : Json) :
    ofJson? (sanitizedEnvelope event action value).toJson =
      some (sanitizedEnvelope event action value) := by
  have hread : ∀ {pointer : Option Json}, ∀ number ∈ pointer.bind Json.asU64?, number < 2 ^ 64 := by
    intro pointer number hnumber
    obtain ⟨inner, -, hinner⟩ := Option.bind_eq_some_iff.mp hnumber
    exact (asU64?_eq_some.1 hinner).2
  exact ofJson?_toJson (Nat.one_lt_two_pow (by omega)) hread hread hread

end SanitizedWebhookEnvelope

theorem WebhookDelivery.forwarded?_sanitized (id event action digest : String) (value : Json)
    (receivedAt : DateTime) :
    (⟨id, event, action, (sanitizedEnvelope event action value).toJson, digest⟩ :
        WebhookDelivery).forwarded? receivedAt =
      some ⟨id, sanitizedEnvelope event action value, digest, rfc3339 receivedAt⟩ := by
  rw [WebhookDelivery.forwarded?, SanitizedWebhookEnvelope.ofJson?_sanitized]
  rfl

end RoundTrip

/-! ## Accepted requests -/

section Accepted

variable [Secret] [Sha256] {request : Request} {delivery : WebhookDelivery}

/-- What the route has checked when it hands a delivery to the inbox. -/
theorem githubWebhook_eq_ok : githubWebhook request = .ok delivery ↔
    (∃ signature ∈ request.header? "x-hub-signature-256",
      Secret.verifySignature request.body signature) ∧
    ∃ id event action value, deliveryId? request = some id ∧ eventName? request = some event ∧
      request.json = .ok value ∧ validateEvent event (.ok value) = .ok action ∧
      delivery = {
        deliveryId := id, event, action, payload := (sanitizedEnvelope event action value).toJson
        payloadSha256 := sha256Hex request.body } := by
  rw [githubWebhook]
  simp only [bind_eq_ok, ensure_eq_ok, okOr_eq_ok, mapError_eq_ok, pure_eq_ok, exists_const]
  refine and_congr_right fun _ => ?_
  constructor
  · rintro ⟨id, hid, event, hevent, action, haction, payload, hpayload, rfl⟩
    obtain ⟨value, hvalue, hsanitized⟩ := bind_eq_ok.1 hpayload
    rw [hvalue] at haction
    exact ⟨id, event, action, value, hid, hevent, hvalue, haction, by
      rw [pure_eq_ok.1 hsanitized]⟩
  · rintro ⟨id, event, action, value, hid, hevent, hvalue, haction, rfl⟩
    refine ⟨id, hid, event, hevent, action, by rw [hvalue]; exact haction, _, ?_, rfl⟩
    rw [hvalue]
    rfl

end Accepted

end Patchwright.Webhook
