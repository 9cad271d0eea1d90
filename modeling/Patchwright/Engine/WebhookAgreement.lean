import Patchwright.Engine.Webhooks

/-!
# Webhooks that the relay accepts and the engine refuses

The relay and the engine check a webhook each on its own.  The engine takes
over what the relay has accepted unless one of four things stands against it:
an event whose record or repository is an array, which the sanitizer does not
look into; a ping with a repository, which the relay does not check; a number
that does not fit in a signed integer of the database; and a clock beyond the
years of four digits.
-/

namespace Patchwright

open Checked

namespace Webhook

theorem isPlainWord_iff {limit : Nat} {value : String} : isPlainWord limit value = true ↔
    value ≠ "" ∧ value.utf8ByteSize ≤ limit ∧ ¬ value.toList.any isControl :=
  decide_eq_true_iff

theorem validateWebhookRepository_eq_ok {name : Option String} {result : Unit} :
    validateWebhookRepository name = .ok result ↔
      ∀ repository ∈ name, IsRepositoryName repository := by
  cases name with
  | none => exact iff_of_true rfl nofun
  | some repository =>
      simp only [validateWebhookRepository, bind_eq_ok, okOr_eq_ok, ensure_eq_ok, Prod.exists]
      constructor
      · rintro hname other ⟨⟩
        exact hname
      · intro hall
        exact hall repository rfl

/-- What the engine checks of a forwarded webhook. -/
theorem validateForwardedWebhook_eq_ok {delivery : ForwardedWebhook} {result : Unit} :
    validateForwardedWebhook delivery = .ok result ↔
      isPlainWord 128 delivery.deliveryId ∧ delivery.envelope.schemaVersion = 1 ∧
      isPlainWord 64 delivery.envelope.event ∧ isPlainWord 64 delivery.envelope.action ∧
      (delivery.envelope.event ≠ "ping" → delivery.envelope.repositoryId.isSome ∧
        delivery.envelope.repositoryFullName.isSome) ∧
      (∀ name ∈ delivery.envelope.repositoryFullName, IsRepositoryName name) ∧
      ((∀ number ∈ delivery.envelope.entityNumber, 0 < number) ∧
        ∀ id ∈ delivery.envelope.entityId, 0 < id) ∧
      (delivery.payloadSha256.utf8ByteSize = 64 ∧
        delivery.payloadSha256.toList.all isAsciiHexdigit) ∧
      (Rfc3339.parse delivery.receivedAt).isSome := by
  rw [validateForwardedWebhook]
  simp only [bind_eq_ok, ensure_eq_ok, exists_const, validateWebhookRepository_eq_ok]

theorem mapM_sqlInteger_isOk {number : Option Nat} :
    (number.mapM sqlInteger).isOk ↔ ∀ value ∈ number, value < 2 ^ 63 := by
  cases number with
  | none => exact iff_of_true rfl (by rintro _ ⟨⟩)
  | some value =>
      by_cases hfits : value < 2 ^ 63
      · have hsql : sqlInteger value = .ok value := by
          rw [sqlInteger, ensure, if_pos hfits]
          rfl
        refine iff_of_true ?_ ?_
        · rw [Option.mapM_some, hsql]
          rfl
        · rintro other ⟨⟩
          exact hfits
      · have hsql : sqlInteger value = .error "out of range integral type conversion attempted" := by
          rw [sqlInteger, ensure, if_neg hfits]
          rfl
        refine iff_of_false ?_ fun hall => hfits (hall value rfl)
        rw [Option.mapM_some, hsql]
        rintro ⟨⟩

/-- A webhook is stored, or found stored, once it is checked and its number
fits. -/
theorem ingestGithubWebhook_isOk {store : EventStore} {delivery : ForwardedWebhook}
    {ingestedAt now : DateTime} : (store.ingestGithubWebhook delivery ingestedAt now).isOk ↔
      validateForwardedWebhook delivery = .ok () ∧
        ∀ number ∈ delivery.envelope.entityNumber, number < 2 ^ 63 := by
  rw [← mapM_sqlInteger_isOk, EventStore.ingestGithubWebhook]
  cases hvalid : validateForwardedWebhook delivery with
  | error error => exact iff_of_false nofun fun hgood => nomatch hgood.1
  | ok =>
      cases hnumber : delivery.envelope.entityNumber.mapM sqlInteger with
      | error error => exact iff_of_false nofun fun hgood => nomatch hgood.2
      | ok number =>
          refine iff_of_true ?_ ⟨rfl, rfl⟩
          rw [ok_bind, ok_bind]
          split <;> rfl

/-! ## The number of an envelope -/

section Entities

variable {event action : String} {value : Json} {shape : EventShape} {payload : EventPayload}

theorem EventShape.read_entities (hread : shape.read value = some payload) :
    shape.readEntity shape.numbered "number" value = some payload.number ∧
      shape.readEntity shape.identified "id" value = some payload.identifier := by
  simp only [EventShape.read, Option.bind_eq_bind, Option.bind_eq_some_iff, Option.pure_def,
    Option.some.injEq] at hread
  obtain ⟨action, -, number, hnumber, identifier, hidentifier, repository, -, rfl⟩ := hread
  exact ⟨hnumber, hidentifier⟩

/-- What the envelope names is what the event was checked for. -/
theorem sanitizedEnvelope_entities (hshape : eventShape? event = some shape)
    (hread : shape.read value = some payload) :
    (∀ inner ∈ (entityPointers event value).1, inner.asU64? = payload.number ∧
      payload.number.isSome) ∧
    ∀ inner ∈ (entityPointers event value).2, inner.asU64? = payload.identifier := by
  obtain ⟨hnumber, hidentifier⟩ := EventShape.read_entities hread
  obtain ⟨hfirst, hsecond⟩ := eventShape_pointers value hshape
  refine ⟨fun inner hinner => ?_, fun inner hinner => ?_⟩
  · obtain ⟨name, hname, hpointer⟩ := hfirst inner hinner
    rw [hname] at hnumber
    refine ⟨EventShape.readEntity_pointer hnumber hpointer, ?_⟩
    obtain ⟨number, -, hsome⟩ := Option.map_eq_some_iff.mp hnumber
    rw [← hsome]
    rfl
  · obtain ⟨name, hname, hpointer⟩ := hsecond inner hinner
    rw [hname] at hidentifier
    exact EventShape.readEntity_pointer hidentifier hpointer

theorem sanitizedEnvelope_pos (hshape : eventShape? event = some shape)
    (hread : shape.read value = some payload) (hnumber : ∀ number ∈ payload.number, 0 < number)
    (hidentifier : ∀ id ∈ payload.identifier, 0 < id) :
    (∀ number ∈ (sanitizedEnvelope event action value).entityNumber, 0 < number) ∧
      ∀ id ∈ (sanitizedEnvelope event action value).entityId, 0 < id := by
  obtain ⟨hfirst, hsecond⟩ := sanitizedEnvelope_entities hshape hread
  refine ⟨fun number hmem => ?_, fun id hmem => ?_⟩
  · obtain ⟨inner, hinner, hread⟩ := Option.bind_eq_some_iff.mp hmem
    exact hnumber number ((hfirst inner hinner).1 ▸ hread)
  · obtain ⟨inner, hinner, hread⟩ := Option.bind_eq_some_iff.mp hmem
    exact hidentifier id (hsecond inner hinner ▸ hread)

end Entities

/-- A body of an event that the engine takes over: its record and the
repository are read by name, the repository of a ping has a name, and the
number that the envelope carries fits in a signed integer. -/
structure Ingestible (event : String) (value : Json) : Prop where
  byName : event ≠ "ping" → ∃ fields members, value = .obj fields ∧
    fields.lookup "repository" = some (.obj members)
  pingRepository : event = "ping" →
    ∀ name, value.pointer? ["repository", "full_name"] = some (.str name) → IsRepositoryName name
  pullRequestFits : event ∈ ["pull_request", "pull_request_review", "pull_request_review_comment"] →
    ∀ number, value.pointer? ["pull_request", "number"] = some (.int number) → number < 2 ^ 63
  commentFits : event = "issue_comment" → (value.pointer? ["issue", "pull_request"]).isSome →
    ∀ number, value.pointer? ["issue", "number"] = some (.int number) → number < 2 ^ 63

theorem entityNumber_fits {event : String} {value : Json} :
    (∀ number : Int, (entityPointers event value).1 = some (.int number) → number < 2 ^ 63) ↔
      (event ∈ ["pull_request", "pull_request_review", "pull_request_review_comment"] →
        ∀ number, value.pointer? ["pull_request", "number"] = some (.int number) →
          number < 2 ^ 63) ∧
      (event = "issue_comment" → (value.pointer? ["issue", "pull_request"]).isSome →
        ∀ number, value.pointer? ["issue", "number"] = some (.int number) → number < 2 ^ 63) := by
  rw [entityPointers.eq_def]
  split
  case h_2 =>
    cases hpull : value.pointer? ["issue", "pull_request"] with
    | none => simp
    | some found => simp
  all_goals simp_all

/-! ## Which requests are taken over -/

section Agreement

variable {event action id digest : String} {value : Json} {receivedAt : DateTime}

theorem asStr?_eq_some {text : String} : value.asStr? = some text ↔ value = .str text := by
  cases value <;> simp [Json.asStr?]

theorem sanitizedEnvelope_fullName : (sanitizedEnvelope event action value).repositoryFullName =
    (value.pointer? ["repository", "full_name"]).bind Json.asStr? := by
  rw [sanitizedEnvelope, Json.pointer?]
  dsimp only
  cases value.get? "repository" with
  | none => rfl
  | some repository =>
      dsimp only [Option.bind_some]
      rw [Json.pointer?]
      cases repository.get? "full_name" with
      | none => rfl
      | some name => rfl

/-- The hook of a ping that is read by name is the one it was checked for. -/
theorem ping_hookId {payload : PingEvent} {inner : Json} (hread : PingEvent.read value = some payload)
    (hinner : value.get? "hook_id" = some inner) : inner.asU64? = some payload.hookId := by
  cases value with
  | obj fields =>
      simp only [PingEvent.read, Option.bind_eq_bind, Option.bind_eq_some_iff, Option.pure_def,
        Option.some.injEq, Json.recordField?] at hread
      obtain ⟨hookId, ⟨hook, hfound, hnumber⟩, zen, -, rfl⟩ := hread
      rw [Json.get?, hfound] at hinner
      cases hinner
      exact hnumber
  | _ => cases hinner

/-- A ping that passed its check is taken over when its repository has a name. -/
theorem validate_ping (hvalid : validatePing value = .ok action)
    (hid : isPlainWord 128 id) (hdigest : isSha256Hex digest) :
    validateForwardedWebhook ⟨id, sanitizedEnvelope "ping" action value, digest,
        rfc3339 receivedAt⟩ = .ok () ↔
      (∀ name, value.pointer? ["repository", "full_name"] = some (.str name) →
        IsRepositoryName name) ∧ 0 ≤ civilYear receivedAt ∧ civilYear receivedAt ≤ 9999 := by
  obtain ⟨payload, hread, hhook, -, rfl⟩ := validatePing_eq_ok.1 hvalid
  have hsha : digest.utf8ByteSize = 64 ∧ digest.toList.all isAsciiHexdigit := by
    rw [isSha256Hex, Bool.and_eq_true, beq_iff_eq] at hdigest
    exact hdigest
  have hentity : ∀ id ∈ (sanitizedEnvelope "ping" "ping" value).entityId, 0 < id := by
    intro id hmem
    obtain ⟨inner, hinner, hid⟩ := Option.bind_eq_some_iff.mp hmem
    rw [ping_hookId hread hinner, Option.some.injEq] at hid
    exact hid ▸ hhook
  have hword : isPlainWord 64 "ping" := by decide
  rw [validateForwardedWebhook_eq_ok, Rfc3339.parse_rfc3339_isSome]
  have hrepository : (∀ name ∈ (sanitizedEnvelope "ping" "ping" value).repositoryFullName,
      IsRepositoryName name) ↔
      ∀ name, value.pointer? ["repository", "full_name"] = some (.str name) →
        IsRepositoryName name := by
    simp only [sanitizedEnvelope_fullName, Option.mem_def, Option.bind_eq_some_iff,
      asStr?_eq_some]
    constructor
    · intro hall name hpointer
      exact hall name ⟨_, hpointer, rfl⟩
    · rintro hall name ⟨inner, hinner, rfl⟩
      exact hall name hinner
  constructor
  · rintro ⟨-, -, -, -, -, hname, -, -, hdate⟩
    exact ⟨hrepository.mp hname, hdate⟩
  · rintro ⟨hname, hdate⟩
    exact ⟨hid, rfl, hword, hword, fun hping => absurd rfl hping, hrepository.mpr hname,
      ⟨(by rintro _ ⟨⟩), hentity⟩, hsha, hdate⟩

/-- Any other event that passed its check is taken over when its record and the
repository are read by name. -/
theorem validate_event {shape : EventShape} (hshape : eventShape? event = some shape)
    (hvalid : shape.validate value = .ok action) (hid : isPlainWord 128 id)
    (hdigest : isSha256Hex digest) :
    validateForwardedWebhook ⟨id, sanitizedEnvelope event action value, digest,
        rfc3339 receivedAt⟩ = .ok () ↔
      (∃ fields members, value = .obj fields ∧
        fields.lookup "repository" = some (.obj members)) ∧
      0 ≤ civilYear receivedAt ∧ civilYear receivedAt ≤ 9999 := by
  obtain ⟨payload, hread, hnumber, hidentifier, -, hname, haction, rfl⟩ :=
    EventShape.validate_eq_ok.1 hvalid
  have hwords := eventShape_words hshape
  have hping : event ≠ "ping" := by
    rintro rfl
    exact absurd hshape nofun
  have hsha : digest.utf8ByteSize = 64 ∧ digest.toList.all isAsciiHexdigit := by
    rw [isSha256Hex, Bool.and_eq_true, beq_iff_eq] at hdigest
    exact hdigest
  rw [validateForwardedWebhook_eq_ok, Rfc3339.parse_rfc3339_isSome]
  constructor
  · rintro ⟨-, -, -, -, hidentity, -, -, -, hdate⟩
    exact ⟨sanitizedEnvelope_repositoryId_isSome (hidentity hping).1, hdate⟩
  · rintro ⟨⟨fields, members, rfl, hobject⟩, hdate⟩
    obtain ⟨hrepositoryId, hfullName⟩ :=
      EventShape.read_repository payload.action event hread hobject
    refine ⟨hid, rfl, isPlainWord_iff.2 (hwords event List.mem_cons_self),
      isPlainWord_iff.2 (hwords payload.action (List.mem_cons_of_mem event haction)),
      fun _ => ?_, ?_, sanitizedEnvelope_pos hshape hread hnumber hidentifier, hsha, hdate⟩
    · rw [hrepositoryId, hfullName]
      exact ⟨rfl, rfl⟩
    · rw [hfullName]
      rintro name ⟨⟩
      exact hname

end Agreement

/-! ## Requests that the relay accepts -/

section Bodies

variable {event action : String} {value : Json} {shape : EventShape}

theorem sanitized_fits (hshape : eventShape? event = some shape)
    (hvalid : shape.validate value = .ok action) :
    (∀ number ∈ (sanitizedEnvelope event action value).entityNumber, number < 2 ^ 63) ↔
      ∀ number : Int, (entityPointers event value).1 = some (.int number) → number < 2 ^ 63 := by
  obtain ⟨payload, hread, -⟩ := EventShape.validate_eq_ok.1 hvalid
  have hentities := (sanitizedEnvelope_entities hshape hread).1
  constructor
  · intro hfits number hpointer
    obtain ⟨hnumber, hsome⟩ := hentities _ hpointer
    obtain ⟨count, hcount⟩ := Option.isSome_iff_exists.mp hsome
    rw [hcount] at hnumber
    obtain ⟨hint, -⟩ := asU64?_eq_some.1 hnumber
    cases hint
    have hlt := hfits count (Option.bind_eq_some_iff.mpr ⟨_, hpointer, hnumber⟩)
    omega
  · intro hfits number hmem
    obtain ⟨inner, hinner, hread⟩ := Option.bind_eq_some_iff.mp hmem
    obtain ⟨rfl, -⟩ := asU64?_eq_some.1 hread
    have hlt := hfits number hinner
    omega

theorem ingestible_event (hshape : eventShape? event = some shape) :
    Ingestible event value ↔
      (∃ fields members, value = .obj fields ∧
        fields.lookup "repository" = some (.obj members)) ∧
      (event ∈ ["pull_request", "pull_request_review", "pull_request_review_comment"] →
        ∀ number, value.pointer? ["pull_request", "number"] = some (.int number) →
          number < 2 ^ 63) ∧
      (event = "issue_comment" → (value.pointer? ["issue", "pull_request"]).isSome →
        ∀ number, value.pointer? ["issue", "number"] = some (.int number) → number < 2 ^ 63) := by
  have hping : event ≠ "ping" := by
    rintro rfl
    exact absurd hshape nofun
  constructor
  · intro hbody
    exact ⟨hbody.byName hping, hbody.pullRequestFits, hbody.commentFits⟩
  · rintro ⟨hname, hpull, hcomment⟩
    exact ⟨fun _ => hname, fun heq => absurd heq hping, hpull, hcomment⟩

theorem ingestible_ping : Ingestible "ping" value ↔
    ∀ name, value.pointer? ["repository", "full_name"] = some (.str name) →
      IsRepositoryName name := by
  constructor
  · intro hbody
    exact hbody.pingRepository rfl
  · intro hname
    exact ⟨fun hping => absurd rfl hping, fun _ => hname,
      fun hpull => absurd hpull (by decide), fun hcomment => absurd hcomment (by decide)⟩

end Bodies

section Requests

variable [Secret] [Sha256] {request : Request} {delivery : WebhookDelivery}

/-- The engine takes over what the relay accepts exactly when the body is one
that it can ingest, and the clock of the relay reads a year of four digits. -/
theorem acceptedWebhook_ingested_iff (haccepted : githubWebhook request = .ok delivery)
    {value : Json} (hjson : request.json = .ok value) (store : EventStore)
    (receivedAt ingestedAt now : DateTime) :
    (∃ forwarded, delivery.forwarded? receivedAt = some forwarded ∧
      validateForwardedWebhook forwarded = .ok () ∧
      (store.ingestGithubWebhook forwarded ingestedAt now).isOk) ↔
    Ingestible delivery.event value ∧ 0 ≤ civilYear receivedAt ∧ civilYear receivedAt ≤ 9999 := by
  obtain ⟨-, id, event, action, body, hid, -, hbody, hvalid, rfl⟩ :=
    githubWebhook_eq_ok.1 haccepted
  cases hjson.symm.trans hbody
  have hplain : isPlainWord 128 id := by
    have hfilter := Option.filter_eq_some_iff.mp hid
    exact isPlainWord_iff.2 (of_decide_eq_true hfilter.2)
  simp only [WebhookDelivery.forwarded?_sanitized, Option.some.injEq, exists_eq_left', ingestGithubWebhook_isOk,
    and_self_left]
  cases hshape : eventShape? event with
  | some shape =>
      have hchecked : shape.validate value = .ok action := by
        rw [← hvalid, validateEvent, hshape]
        rfl
      rw [validate_event hshape hchecked hplain (isSha256Hex_sha256Hex _),
        sanitized_fits hshape hchecked, entityNumber_fits, ingestible_event hshape]
      exact and_right_comm
  | none =>
      have hping : event = "ping" ∧ validatePing value = .ok action := by
        rw [validateEvent, hshape] at hvalid
        by_cases hname : event = "ping"
        · exact ⟨hname, (if_pos hname).symm.trans hvalid⟩
        · exact absurd ((if_neg hname).symm.trans hvalid) nofun
      obtain ⟨rfl, hchecked⟩ := hping
      rw [validate_ping hchecked hplain (isSha256Hex_sha256Hex _), ingestible_ping]
      exact and_iff_left nofun

end Requests

/-! ### A pull request with a large number -/

namespace Sample

/-- SHA-256 on the two bodies of the sample, told apart by their lengths. -/
scoped instance bodyDigest : Sha256 where
  digest text := ([
    (129, 0xa71cb56ab6e16553791d9658e30c129cd260854b5be103b6af5b431dde247ab0),
    (122, 0x0f270b739ee821f8eb7b34c63986bc9026e94bf5779aa63ca8249f10bd9b1a41)
    ].lookup text.utf8ByteSize).getD 0

/-- The HMAC of the two bodies under one secret. -/
scoped instance secret : Secret where
  verifySignature body signature := ([
    (129, "sha256=1ccf3f67bdee014746b2fa2cdcbbd9091429248cc774cb6c09510073d8d3c49c"),
    (122, "sha256=3542780bd89488a3ffdc4e761712feec93eb4d7e956ef97a6acb6a244ad9ff1d")
    ].lookup body.utf8ByteSize) = some signature

def headerBytes (value : String) : List UInt8 := value.toList.map fun char => char.toNat.toUInt8

def pullRequestRequest (signature : String) (members : List (String × Json)) : Request :=
  let value : Json := .obj [("action", .str "synchronize"), ("pull_request", .obj members),
    ("repository", .obj [("id", .int 1), ("full_name", .str "octocat/example")])]
  { headers := [("x-github-event", headerBytes "pull_request"),
      ("x-github-delivery", headerBytes "delivery-1"),
      ("x-hub-signature-256", headerBytes ("sha256=" ++ signature))]
    body := value.compact
    json := .ok value }

def synchronizeRequest : Request :=
  pullRequestRequest "1ccf3f67bdee014746b2fa2cdcbbd9091429248cc774cb6c09510073d8d3c49c"
    [("number", .int 42), ("title", .str "private title")]

/-- The number is the least that a signed integer does not hold. -/
def largeNumberRequest : Request :=
  pullRequestRequest "3542780bd89488a3ffdc4e761712feec93eb4d7e956ef97a6acb6a244ad9ff1d"
    [("number", .int (2 ^ 63))]

def synchronizeDelivery : WebhookDelivery where
  deliveryId := "delivery-1"
  event := "pull_request"
  action := "synchronize"
  payload := SanitizedWebhookEnvelope.toJson {
    schemaVersion := 1, event := "pull_request", action := "synchronize", repositoryId := some 1
    repositoryFullName := some "octocat/example", entityNumber := some 42, entityId := none }
  payloadSha256 := "a71cb56ab6e16553791d9658e30c129cd260854b5be103b6af5b431dde247ab0"

end Sample

open Webhook.Sample

theorem synchronize_accepted : githubWebhook synchronizeRequest = .ok synchronizeDelivery := by
  have hdigest : sha256Hex synchronizeRequest.body =
      "a71cb56ab6e16553791d9658e30c129cd260854b5be103b6af5b431dde247ab0" := by decide +kernel
  refine githubWebhook_eq_ok.2 ⟨by decide +kernel, "delivery-1", "pull_request", "synchronize", _,
    by decide, by decide, rfl, rfl, ?_⟩
  rw [hdigest]
  rfl

theorem synchronize_ingested : ∃ forwarded, synchronizeDelivery.forwarded? 0 = some forwarded ∧
    validateForwardedWebhook forwarded = .ok () ∧
    (EventStore.empty.ingestGithubWebhook forwarded 0 0).isOk := by
  refine (acceptedWebhook_ingested_iff synchronize_accepted rfl EventStore.empty 0 0 0).mpr
    ⟨⟨fun _ => ⟨_, _, rfl, rfl⟩, fun hping => absurd hping (by decide), fun _ number hpointer => ?_,
      fun hcomment => absurd hcomment (by decide)⟩, by decide⟩
  cases hpointer
  decide

/-- A pull request whose number is 2 ^ 63 is accepted, and never stored. -/
theorem largeNumber_refused : ∃ delivery forwarded,
    githubWebhook largeNumberRequest = .ok delivery ∧ delivery.forwarded? 0 = some forwarded ∧
    ¬ (EventStore.empty.ingestGithubWebhook forwarded 0 0).isOk := by
  refine ⟨_, _, githubWebhook_eq_ok.2 ⟨by decide +kernel, "delivery-1", "pull_request",
    "synchronize", _, by decide, by decide, rfl, rfl, rfl⟩,
    WebhookDelivery.forwarded?_sanitized .., fun hok => ?_⟩
  exact absurd ((ingestGithubWebhook_isOk.1 hok).2 (2 ^ 63) rfl) (lt_irrefl _)

end Webhook

end Patchwright
