import Patchwright.Relay.Mutations

/-!
# What a call of the mutation client sends

A request changes state unless it gets a resource or runs a query, whatever the
client says about its effect.  A call sends at most one such request, behind
the reads that its commits are checked in or with the commit in its body, and
it reports success only for an effect that the server has shown.
-/

namespace Patchwright

namespace MutationClient

open Dialogue

/-! ### Requests that change state -/

/-- The body runs a GraphQL query. -/
def isQuery (body : Option Json) : Bool :=
  (body.bind fun value => stringAt value ["query"]).any fun text =>
    "query ".toList.isPrefixOf text.toList

/-- A request changes state unless it gets a resource or runs a query. -/
def changesState (remote : Remote) (request : Request) : Bool :=
  request.method ≠ .get && !(remote.join "graphql" == some request.url && isQuery request.body)

/-- The body of an answer that reports success. -/
def Answer.value? (answer : Answer) : Option Json :=
  (answer.response.filter Response.isSuccess).bind Response.body

/-- The call reads the path and changes nothing, and the server answers with
the value. -/
structure Shows (remote : Remote) (path : String) (call : Call) (value : Json) : Prop where
  silent : changesState remote call.request = false
  path : remote.join path = some call.request.url
  value : Answer.value? call.answer = some value

/-! ### Guards -/

/-- Where the commit that a write depends on is checked: in what the client has
read, or by the server in what it is sent. -/
inductive Guard where
  | read (path : String) (field : List String)
  | body (field : List String)

def Guard.Holds (remote : Remote) (calls : List Call) (body : Option Json) (sha : String) :
    Guard → Prop
  | .read path field =>
      ∃ call ∈ calls, ∃ value, Shows remote path call value ∧ stringAt value field = some sha
  | .body field => ∃ value, body = some value ∧ stringAt value field = some sha

/-- The commits an action expects. -/
def expectedShas : GitHubAction → List String
  | .createBranch _ fromSha => [fromSha]
  | .pushIntent _ headSha => [headSha]
  | .comment .. | .closeIssue .. => []
  | .review _ sha .. => [sha]
  | .resolveReviewThread _ _ sha => [sha]
  | .checkRun _ headSha .. => [headSha]
  | .draftPullRequest _ _ _ _ headSha baseSha => [headSha, baseSha]
  | .updatePullRequestBranch _ sha => [sha]
  | .readyPullRequest _ sha => [sha]
  | .closePullRequest _ sha => [sha]
  | .enqueuePullRequest _ sha => [sha]
  | .mergePullRequest _ sha _ => [sha]

/-- The guard of each commit, where an action is sent at all. -/
def guards (owner repository : String) : GitHubAction → List (String × Guard)
  | .createBranch _ fromSha => [(fromSha, .body ["sha"])]
  | .review _ sha .. => [(sha, .body ["commit_id"])]
  | .resolveReviewThread _ _ sha =>
      [(sha, .read "graphql" ["data", "node", "pullRequest", "headRefOid"])]
  | .checkRun _ headSha .. => [(headSha, .body ["head_sha"])]
  | .draftPullRequest _ head base _ headSha baseSha =>
      [(headSha, .read s!"repos/{owner}/{repository}/git/ref/heads/{head}" ["object", "sha"]),
        (baseSha, .read s!"repos/{owner}/{repository}/git/ref/heads/{base}" ["object", "sha"])]
  | .updatePullRequestBranch _ sha => [(sha, .body ["expected_head_sha"])]
  | .readyPullRequest number sha | .closePullRequest number sha =>
      [(sha, .read s!"repos/{owner}/{repository}/pulls/{number}" ["head", "sha"])]
  | .mergePullRequest _ sha _ => [(sha, .body ["sha"])]
  | _ => []

/-- Every commit the action expects has been checked, or is sent along. -/
structure IsGuarded (remote : Remote) (owner repository : String) (action : GitHubAction)
    (calls : List Call) (body : Option Json) : Prop where
  complete : expectedShas action = (guards owner repository action).map Prod.fst
  holds : ∀ guard ∈ guards owner repository action, guard.2.Holds remote calls body guard.1

/-! ### Effects -/

/-- What a response shows of a created or changed resource. -/
def HasUrl (value : Json) : Prop := ∃ url, stringAt value ["html_url"] = some url ∧ url ≠ ""

/-- The response to a write shows the effect the action is after. -/
def Confirms (value : Json) : GitHubAction → Prop
  | .createBranch branch fromSha =>
      stringAt value ["ref"] = some s!"refs/heads/{branch}" ∧
        stringAt value ["object", "sha"] = some fromSha
  | .comment .. | .review .. | .checkRun .. =>
      (∃ id, numberAt value ["id"] = some id ∧ 0 < id) ∧ HasUrl value
  | .draftPullRequest .. =>
      (∃ number, numberAt value ["number"] = some number ∧ 0 < number) ∧ HasUrl value
  | .updatePullRequestBranch .. =>
      ∀ field ∈ ["message", "url"], ∃ text, stringAt value [field] = some text ∧ trim text ≠ ""
  | .closePullRequest number _ | .closeIssue number =>
      numberAt value ["number"] = some number ∧ stringAt value ["state"] = some "closed" ∧
        HasUrl value
  | .mergePullRequest .. =>
      boolAt value ["merged"] = some true ∧
        ∃ sha, stringAt value ["sha"] = some sha ∧ validSha sha = true
  | .resolveReviewThread _ threadId _ =>
      value.get? "errors" = none ∧
        stringAt value ["data", "resolveReviewThread", "thread", "id"] = some threadId ∧
        boolAt value ["data", "resolveReviewThread", "thread", "isResolved"] = some true
  | .readyPullRequest number _ =>
      value.get? "errors" = none ∧
        numberAt value ["data", "markPullRequestReadyForReview", "pullRequest", "number"] =
          some number ∧
        boolAt value ["data", "markPullRequestReadyForReview", "pullRequest", "isDraft"] =
          some false
  | .pushIntent .. | .enqueuePullRequest .. => False

/-- A read of the call shows that there is nothing left to do. -/
def AlreadyHolds (remote : Remote) (owner repository : String) (calls : List Call) :
    GitHubAction → Prop
  | .resolveReviewThread number threadId sha =>
      ∃ call ∈ calls, ∃ value, Shows remote "graphql" call value ∧ value.get? "errors" = none ∧
        stringAt value ["data", "node", "id"] = some threadId ∧
        numberAt value ["data", "node", "pullRequest", "number"] = some number ∧
        stringAt value ["data", "node", "pullRequest", "headRefOid"] = some sha ∧
        boolAt value ["data", "node", "isResolved"] = some true
  | .readyPullRequest number sha =>
      ∃ call ∈ calls, ∃ value,
        Shows remote s!"repos/{owner}/{repository}/pulls/{number}" call value ∧
        stringAt value ["head", "sha"] = some sha ∧ boolAt value ["draft"] = some false
  | _ => False

/-! ### What the parts of a call establish -/

section Reads

variable {remote : Remote} {value inner : Json} {path : List String}

theorem pointer?_append (path more : List String) (value : Json) :
    value.pointer? (path ++ more) = (value.pointer? path).bind (Json.pointer? more) := by
  induction path generalizing value with
  | nil => rfl
  | cons name path ih =>
      rw [List.cons_append, Json.pointer?, Json.pointer?]
      cases value.get? name with
      | none => rfl
      | some inner => exact ih inner

theorem stringAt_below (hinner : value.pointer? path = some inner) (more : List String) :
    stringAt value (path ++ more) = stringAt inner more := by
  rw [stringAt, pointer?_append, hinner, Option.bind_some, stringAt]

theorem numberAt_below (hinner : value.pointer? path = some inner) (more : List String) :
    numberAt value (path ++ more) = numberAt inner more := by
  rw [numberAt, pointer?_append, hinner, Option.bind_some, numberAt]

theorem boolAt_below (hinner : value.pointer? path = some inner) (more : List String) :
    boolAt value (path ++ more) = boolAt inner more := by
  rw [boolAt, pointer?_append, hinner, Option.bind_some, boolAt]

theorem changesState_get (url : String) (effect : RequestEffect) (body : Option Json) :
    changesState remote ⟨.get, url, body, effect⟩ = false := rfl

theorem isQuery_threadQuery (threadId : String) :
    isQuery (some (graphQl threadQuery "threadId" threadId)) = true := by
  have hleading : "query ".toList.isPrefixOf threadQuery.toList = true := by
    decide +kernel
  have hread : stringAt (graphQl threadQuery "threadId" threadId) ["query"] = some threadQuery :=
    rfl
  rw [isQuery, Option.bind_some, hread, Option.any_some, hleading]

theorem changesState_query {url : String} (hurl : remote.join "graphql" = some url)
    (threadId : String) (effect : RequestEffect) :
    changesState remote ⟨.post, url, some (graphQl threadQuery "threadId" threadId), effect⟩ =
      false := by
  rw [changesState, hurl, isQuery_threadQuery, beq_self_eq_true]
  rfl

theorem readResponse_eq_ok {effect : RequestEffect} {response : Option Response} {value : Json}
    (hread : readResponse effect response = .ok value) :
    (response.filter Response.isSuccess).bind Response.body = some value := by
  cases response with
  | none => cases effect <;> cases hread
  | some response =>
      cases hsuccess : response.isSuccess with
      | false => cases effect <;> simp [readResponse, hsuccess] at hread
      | true =>
          rw [Option.filter_some_pos hsuccess, Option.bind_some]
          cases hbody : response.body with
          | none => cases effect <;> simp [readResponse, hsuccess, hbody] at hread
          | some body => cases effect <;> simpa [readResponse, hsuccess, hbody] using hread

theorem requireSha_eq_ok {actual : Option String} {expected : String} {result : Unit}
    (hsha : requireSha actual expected = .ok result) : actual = some expected := by
  cases actual with
  | none => cases hsha
  | some actual =>
      rw [requireSha] at hsha
      split at hsha
      case isTrue heq => rw [heq]
      case isFalse => split at hsha <;> cases hsha

/-- A request that succeeds has read its value. -/
theorem requestValue_yields {method : Method} {path : String} {body : Option Json}
    {effect : RequestEffect}
    (hsilent : ∀ url, remote.join path = some url →
      changesState remote ⟨method, url, body, effect⟩ = false) :
    Yields (fun value calls => ∃ call ∈ calls, Shows remote path call value)
      (requestValue remote method path body effect) := by
  rw [requestValue]
  cases hurl : remote.join path with
  | none => exact yields_fail _
  | some url =>
      rw [Checked.okOr, ofExcept_bind_ok]
      have hasked : Yields (fun answer calls => calls = [⟨⟨method, url, body, effect⟩, answer⟩])
          (ask remote.peer ⟨method, url, body, effect⟩ : Session Answer) := yields_ask fun _ => rfl
      apply hasked.bind
      rintro answer _ rfl
      apply yields_ofExcept
      intro value hread
      exact ⟨_, List.mem_append_left _ List.mem_cons_self, hsilent url hurl, hurl,
        readResponse_eq_ok hread⟩

theorem requireRefSha_yields (base reference expectedSha : String) :
    Yields (fun _ calls => ∃ call ∈ calls, ∃ value,
        Shows remote s!"{base}/git/ref/heads/{reference}" call value ∧
          stringAt value ["object", "sha"] = some expectedSha)
      (requireRefSha remote base reference expectedSha) := by
  rw [requireRefSha]
  apply (requestValue_yields fun url _ => changesState_get url _ _).bind
  rintro value calls ⟨call, hcall, hshows⟩
  apply yields_ofExcept
  intro _ hsha
  exact ⟨call, List.mem_append_left _ hcall, value, hshows, requireSha_eq_ok hsha⟩

end Reads

section Replies

variable {value : Json} {result : MutationResult} {number : Nat} {name : String}

theorem rest_decode {expectation : MutationExpectation}
    (hdecode : (WriteReply.rest expectation).decode value = .ok result) :
    expectation.decode value = some result := by
  rwa [WriteReply.decode, Checked.okOr_eq_ok] at hdecode

theorem positive_spec {number : Option Nat} (hpositive : positive number = true) :
    ∃ n, number = some n ∧ 0 < n := by
  obtain ⟨n, hn, hpos⟩ := (Option.any_eq_true _ _).mp hpositive
  exact ⟨n, hn, of_decide_eq_true hpos⟩

theorem nonempty_spec (hnonempty : nonempty (decodeValue value).htmlUrl = true) : HasUrl value := by
  obtain ⟨url, hurl, hne⟩ := (Option.any_eq_true _ _).mp hnonempty
  exact ⟨url, hurl, of_decide_eq_true hne⟩

theorem createdRef_shown {reference sha : String}
    (hdecode : (MutationExpectation.createdRef reference sha).decode value = some result) :
    stringAt value ["ref"] = some reference ∧ stringAt value ["object", "sha"] = some sha := by
  simp only [MutationExpectation.decode, ne_eq, Option.ite_none_left_eq_some, not_or,
    not_not] at hdecode
  exact hdecode.1

theorem resource_shown (hdecode : MutationExpectation.resource.decode value = some result) :
    (∃ id, numberAt value ["id"] = some id ∧ 0 < id) ∧ HasUrl value := by
  simp only [MutationExpectation.decode, Option.ite_none_right_eq_some, Bool.and_eq_true]
    at hdecode
  exact ⟨positive_spec hdecode.1.1, nonempty_spec hdecode.1.2⟩

theorem pullRequest_shown (hdecode : MutationExpectation.pullRequest.decode value = some result) :
    (∃ number, numberAt value ["number"] = some number ∧ 0 < number) ∧ HasUrl value := by
  simp only [MutationExpectation.decode, Option.ite_none_right_eq_some, Bool.and_eq_true]
    at hdecode
  exact ⟨positive_spec hdecode.1.1, nonempty_spec hdecode.1.2⟩

theorem nonemptyString_spec {text : Option String} (hsome : (nonemptyString text).isSome = true) :
    ∃ shown, text = some shown ∧ trim shown ≠ "" := by
  obtain ⟨shown, hshown⟩ := Option.isSome_iff_exists.mp hsome
  obtain ⟨htext, hne⟩ := Option.filter_eq_some_iff.mp hshown
  exact ⟨shown, htext, of_decide_eq_true hne⟩

theorem updateBranch_shown (hdecode : MutationExpectation.updateBranch.decode value = some result) :
    ∀ field ∈ ["message", "url"], ∃ text, stringAt value [field] = some text ∧ trim text ≠ "" := by
  simp only [MutationExpectation.decode, Option.ite_none_right_eq_some] at hdecode
  exact List.forall_mem_cons.mpr ⟨nonemptyString_spec hdecode.1.1,
    List.forall_mem_singleton.mpr (nonemptyString_spec hdecode.1.2)⟩

theorem closed_shown (hdecode : (MutationExpectation.closed number).decode value = some result) :
    numberAt value ["number"] = some number ∧ stringAt value ["state"] = some "closed" ∧
      HasUrl value := by
  simp only [MutationExpectation.decode, Option.ite_none_right_eq_some] at hdecode
  obtain ⟨⟨hnumber, hstate, hurl⟩, _⟩ := hdecode
  exact ⟨hnumber, hstate, nonempty_spec hurl⟩

theorem merged_shown (hdecode : MutationExpectation.merged.decode value = some result) :
    boolAt value ["merged"] = some true ∧
      ∃ sha, stringAt value ["sha"] = some sha ∧ validSha sha = true := by
  simp only [MutationExpectation.decode, Option.ite_none_right_eq_some] at hdecode
  exact ⟨hdecode.1.1, (Option.any_eq_true _ _).mp hdecode.1.2⟩

theorem resolvedThread_shown {threadId : String}
    (hdecode : decodeResolvedThread threadId value = .ok result) :
    value.get? "errors" = none ∧
      stringAt value ["data", "resolveReviewThread", "thread", "id"] = some threadId ∧
      boolAt value ["data", "resolveReviewThread", "thread", "isResolved"] = some true := by
  simp only [decodeResolvedThread, Checked.bind_eq_ok, Checked.ensure_eq_ok, Checked.okOr_eq_ok,
    Option.isNone_iff_eq_none] at hdecode
  obtain ⟨_, herrors, thread, hthread, _, ⟨hid, hresolved⟩, _⟩ := hdecode
  exact ⟨herrors, (stringAt_below hthread _).trans hid, (boolAt_below hthread _).trans hresolved⟩

theorem markedReady_shown (hdecode : decodeMarkedReady number value = .ok result) :
    value.get? "errors" = none ∧
      numberAt value ["data", "markPullRequestReadyForReview", "pullRequest", "number"] =
        some number ∧
      boolAt value ["data", "markPullRequestReadyForReview", "pullRequest", "isDraft"] =
        some false := by
  simp only [decodeMarkedReady, Checked.bind_eq_ok, Checked.ensure_eq_ok, Checked.okOr_eq_ok,
    Option.isNone_iff_eq_none] at hdecode
  obtain ⟨_, herrors, ready, hready, _, ⟨_, _, hnumber, _, hdraft⟩, _⟩ := hdecode
  exact ⟨herrors, (numberAt_below hready _).trans hnumber, (boolAt_below hready _).trans hdraft⟩

end Replies

/-! ### A call -/

/-- What the reads of a call must have established for what they lead to. -/
def Justified (remote : Remote) (owner repository : String) (action : GitHubAction)
    (calls : List Call) : Plan → Prop
  | .done _ => AlreadyHolds remote owner repository calls action
  | .write write =>
      write.method ≠ .get ∧ isQuery (some write.body) = false ∧
        IsGuarded remote owner repository action calls (some write.body) ∧
        ∀ value result, write.reply.decode value = .ok result → Confirms value action

section Plan

variable {remote : Remote} {owner repository : String}

theorem isQuery_graphQl_mutation {query name id : String}
    (hmutation : "query ".toList.isPrefixOf query.toList = false) :
    isQuery (some (graphQl query name id)) = false := by
  have hread : stringAt (graphQl query name id) ["query"] = some query := rfl
  rw [isQuery, Option.bind_some, hread, Option.any_some, hmutation]

theorem isQuery_reviewPayload (sha : String) (event : ReviewEvent) (body : String)
    (inlineComments : List InlineReviewComment) :
    isQuery (some (reviewPayload sha event body inlineComments)) = false := by
  cases event <;> rfl

theorem checkReviewThread_shown {number : Nat} {threadId sha : String} {identity : Json}
    {resolved : Bool}
    (hcheck : checkReviewThread owner repository number threadId sha identity = .ok resolved) :
    identity.get? "errors" = none ∧
      stringAt identity ["data", "node", "id"] = some threadId ∧
      numberAt identity ["data", "node", "pullRequest", "number"] = some number ∧
      stringAt identity ["data", "node", "pullRequest", "headRefOid"] = some sha ∧
      (resolved = true → boolAt identity ["data", "node", "isResolved"] = some true) := by
  simp only [checkReviewThread, Checked.bind_eq_ok, Checked.ensure_eq_ok, Checked.okOr_eq_ok,
    Option.isNone_iff_eq_none] at hcheck
  obtain ⟨_, herrors, thread, hthread, _, ⟨hid, hnumber, _⟩, _, hsha, hrest⟩ := hcheck
  refine ⟨herrors, (stringAt_below hthread _).trans hid, (numberAt_below hthread _).trans hnumber,
    (stringAt_below hthread _).trans (requireSha_eq_ok hsha), fun hresolved => ?_⟩
  refine (boolAt_below hthread ["isResolved"]).trans ?_
  by_contra hopen
  rw [if_neg hopen] at hrest
  simp only [Checked.bind_eq_ok, Checked.pure_eq_ok] at hrest
  obtain ⟨_, _, hfalse⟩ := hrest
  rw [← hfalse] at hresolved
  cases hresolved

theorem checkDraft_shown {sha : String} {pull : Json} {draft : Option String}
    (hcheck : checkDraft sha pull = .ok draft) :
    stringAt pull ["head", "sha"] = some sha ∧
      (draft = none → boolAt pull ["draft"] = some false) := by
  simp only [checkDraft, Checked.bind_eq_ok] at hcheck
  obtain ⟨_, hsha, hrest⟩ := hcheck
  refine ⟨requireSha_eq_ok hsha, fun hnone => ?_⟩
  by_contra hopen
  rw [if_neg hopen] at hrest
  simp only [Checked.bind_eq_ok, Checked.pure_eq_ok] at hrest
  obtain ⟨id, _, hsome⟩ := hrest
  rw [hnone] at hsome
  cases hsome

/-- The guard of an action that sends its only commit along. -/
theorem isGuarded_body {action : GitHubAction} {sha : String} {field : List String}
    (hguards : guards owner repository action = [(sha, .body field)])
    (hexpected : expectedShas action = [sha]) {body : Json}
    (hbody : stringAt body field = some sha) (calls : List Call) :
    IsGuarded remote owner repository action calls (some body) where
  complete := by rw [hexpected, hguards, List.map_singleton]
  holds := by
    rw [hguards]
    exact List.forall_mem_singleton.mpr ⟨body, rfl, hbody⟩

theorem isGuarded_none {action : GitHubAction} (hguards : guards owner repository action = [])
    (hexpected : expectedShas action = []) (calls : List Call) (body : Option Json) :
    IsGuarded remote owner repository action calls body where
  complete := by rw [hexpected, hguards, List.map_nil]
  holds := by
    rw [hguards]
    exact nofun

/-- The reads of a call justify what they lead to. -/
theorem plan_yields (remote : Remote) (owner repository : String) (action : GitHubAction) :
    Yields (fun plan calls => Justified remote owner repository action calls plan)
      (plan remote owner repository action) := by
  rw [plan]
  apply yields_ofExcept_bind
  intro _ _
  apply yields_ofExcept_bind
  intro _ _
  cases action with
  | createBranch branch fromSha =>
      refine yields_pure ⟨by rintro ⟨⟩, rfl, isGuarded_body rfl rfl rfl _,
        fun value result hdecode => ?_⟩
      exact createdRef_shown (rest_decode hdecode)
  | pushIntent | enqueuePullRequest => exact yields_fail _
  | comment =>
      refine yields_pure ⟨by rintro ⟨⟩, rfl, isGuarded_none rfl rfl _ _,
        fun value result hdecode => ?_⟩
      exact resource_shown (rest_decode hdecode)
  | review =>
      refine yields_pure ⟨by rintro ⟨⟩, isQuery_reviewPayload _ _ _ _, isGuarded_body rfl rfl rfl _,
        fun value result hdecode => ?_⟩
      exact resource_shown (rest_decode hdecode)
  | checkRun =>
      refine yields_pure ⟨by rintro ⟨⟩, rfl, isGuarded_body rfl rfl rfl _,
        fun value result hdecode => ?_⟩
      exact resource_shown (rest_decode hdecode)
  | updatePullRequestBranch =>
      refine yields_pure ⟨by rintro ⟨⟩, rfl, isGuarded_body rfl rfl rfl _,
        fun value result hdecode => ?_⟩
      exact updateBranch_shown (rest_decode hdecode)
  | closeIssue =>
      refine yields_pure ⟨by rintro ⟨⟩, rfl, isGuarded_none rfl rfl _ _,
        fun value result hdecode => ?_⟩
      exact closed_shown (rest_decode hdecode)
  | mergePullRequest =>
      refine yields_pure ⟨by rintro ⟨⟩, rfl, isGuarded_body rfl rfl rfl _,
        fun value result hdecode => ?_⟩
      exact merged_shown (rest_decode hdecode)
  | resolveReviewThread number threadId sha =>
      apply (requestValue_yields fun url hurl => changesState_query hurl _ _).bind
      rintro identity calls ⟨call, hcall, hshows⟩
      apply yields_ofExcept_bind
      intro resolved hcheck
      obtain ⟨herrors, hid, hnumber, hsha, hresolved⟩ := checkReviewThread_shown hcheck
      cases resolved with
      | true =>
          exact yields_pure ⟨call, List.mem_append_left _ hcall, identity, hshows, herrors, hid,
            hnumber, hsha, hresolved rfl⟩
      | false =>
          refine yields_pure ⟨by rintro ⟨⟩, isQuery_graphQl_mutation (by decide +kernel), ⟨rfl, ?_⟩,
            fun value result hdecode => resolvedThread_shown hdecode⟩
          exact List.forall_mem_singleton.mpr
            ⟨call, List.mem_append_left _ hcall, identity, hshows, hsha⟩
  | draftPullRequest title head base body headSha baseSha =>
      apply (requireRefSha_yields _ _ _).bind
      rintro _ heads ⟨first, hfirst, headValue, hhead, hheadSha⟩
      apply (requireRefSha_yields _ _ _).bind
      rintro _ bases ⟨second, hsecond, baseValue, hbase, hbaseSha⟩
      refine yields_pure ⟨by rintro ⟨⟩, rfl, ⟨rfl, ?_⟩, fun value result hdecode => ?_⟩
      · rw [List.append_nil]
        exact List.forall_mem_cons.mpr
          ⟨⟨first, List.mem_append_left _ hfirst, headValue, hhead, hheadSha⟩,
            List.forall_mem_singleton.mpr
              ⟨second, List.mem_append_right _ hsecond, baseValue, hbase, hbaseSha⟩⟩
      · exact pullRequest_shown (rest_decode hdecode)
  | readyPullRequest number sha =>
      apply (requestValue_yields fun url _ => changesState_get url _ _).bind
      rintro pull calls ⟨call, hcall, hshows⟩
      apply yields_ofExcept_bind
      intro draft hcheck
      obtain ⟨hsha, hready⟩ := checkDraft_shown hcheck
      cases draft with
      | none =>
          exact yields_pure ⟨call, List.mem_append_left _ hcall, pull, hshows, hsha, hready rfl⟩
      | some pullRequestId =>
          refine yields_pure ⟨by rintro ⟨⟩, isQuery_graphQl_mutation (by decide +kernel), ⟨rfl, ?_⟩,
            fun value result hdecode => markedReady_shown hdecode⟩
          exact List.forall_mem_singleton.mpr
            ⟨call, List.mem_append_left _ hcall, pull, hshows, hsha⟩
  | closePullRequest number sha =>
      apply (requestValue_yields fun url _ => changesState_get url _ _).bind
      rintro pull calls ⟨call, hcall, hshows⟩
      apply yields_ofExcept_bind
      intro _ hsha
      refine yields_pure ⟨by rintro ⟨⟩, rfl, ⟨rfl, ?_⟩, fun value result hdecode => ?_⟩
      · exact List.forall_mem_singleton.mpr
          ⟨call, List.mem_append_left _ hcall, pull, hshows, requireSha_eq_ok hsha⟩
      · exact closed_shown (rest_decode hdecode)

end Plan

section Call

variable {remote : Remote} {owner repository : String} {action : GitHubAction}

/-- The calls of one execution: what they send, what it depends on and what a
success rests on. -/
structure IsGuardedRun (remote : Remote) (owner repository : String) (action : GitHubAction)
    (outcome : Except MutationError MutationResult) (calls : List Call) : Prop where
  single : (calls.filter fun call => changesState remote call.request).length ≤ 1
  guarded : ∀ before write after, calls = before ++ write :: after →
    changesState remote write.request = true →
      IsGuarded remote owner repository action before write.request.body
  shown : ∀ result, outcome = .ok result →
    AlreadyHolds remote owner repository calls action ∨
      ∃ call ∈ calls, changesState remote call.request = true ∧
        ∃ value, Answer.value? call.answer = some value ∧ Confirms value action

theorem filter_silent {reads : List Call}
    (hreads : ∀ call ∈ reads, changesState remote call.request = false) :
    reads.filter (fun call => changesState remote call.request) = [] :=
  List.filter_eq_nil_iff.mpr fun call hcall => Bool.eq_false_iff.mp (hreads call hcall)

/-- A call without a write. -/
theorem isGuardedRun_reads {outcome : Except MutationError MutationResult} {reads : List Call}
    (hreads : ∀ call ∈ reads, changesState remote call.request = false)
    (hshown : ∀ result, outcome = .ok result → AlreadyHolds remote owner repository reads action) :
    IsGuardedRun remote owner repository action outcome reads where
  single := by
    rw [filter_silent hreads]
    exact Nat.zero_le 1
  guarded before write after hsplit hchanges := by
    have hmem : write ∈ reads := hsplit ▸ List.mem_append_right _ List.mem_cons_self
    exact absurd hchanges (Bool.eq_false_iff.mp (hreads write hmem))
  shown result hok := .inl (hshown result hok)

theorem last_of_changes {reads before after : List Call} {last write : Call}
    (hreads : ∀ call ∈ reads, changesState remote call.request = false)
    (hsplit : reads ++ [last] = before ++ write :: after)
    (hchanges : changesState remote write.request = true) : before = reads ∧ write = last := by
  rcases List.eq_nil_or_concat after with rfl | ⟨more, other, rfl⟩
  · obtain ⟨hbefore, hwrite⟩ := List.append_inj' hsplit rfl
    exact ⟨hbefore.symm, (List.singleton_inj.mp hwrite).symm⟩
  · have hshorter : reads = before ++ write :: more := by
      rw [List.concat_eq_append, ← List.cons_append, ← List.append_assoc] at hsplit
      exact (List.append_inj' hsplit rfl).1
    have hmem : write ∈ reads := hshorter ▸ List.mem_append_right _ List.mem_cons_self
    exact absurd hchanges (Bool.eq_false_iff.mp (hreads write hmem))

/-- A call whose last request is its write. -/
theorem isGuardedRun_write {reads : List Call} {write : Write} {url : String} {answer : Answer}
    (hreads : ∀ call ∈ reads, changesState remote call.request = false)
    (hjustified : Justified remote owner repository action reads (.write write)) :
    IsGuardedRun remote owner repository action (judge write.reply answer.response)
      (reads ++ [⟨write.request url, answer⟩]) where
  single := by
    rw [List.filter_append, filter_silent hreads, List.nil_append]
    exact List.length_filter_le _ _
  guarded before call after hsplit hchanges := by
    obtain ⟨rfl, rfl⟩ := last_of_changes hreads hsplit hchanges
    exact hjustified.2.2.1
  shown result hok := by
    obtain ⟨hmethod, hquery, _, hconfirms⟩ := hjustified
    rw [judge, Checked.bind_eq_ok] at hok
    obtain ⟨value, hread, hdecode⟩ := hok
    have hchanges : changesState remote (write.request url) = true := by
      rw [changesState, Write.request, hquery, Bool.and_false, Bool.not_false, Bool.and_true]
      exact decide_eq_true hmethod
    exact .inr ⟨_, List.mem_append_right _ List.mem_cons_self, hchanges, value,
      readResponse_eq_ok hread, hconfirms value result hdecode⟩

/-- Whatever the server answers, one call of the client sends at most one
request that changes state; each commit the action expects has been read in the
call before this request or is sent with it; and the call succeeds only where a
read has shown the effect or the response to the request confirms it. -/
theorem execute_guarded (remote : Remote) (owner repository : String) (action : GitHubAction)
    (log : List Call) :
    ∃ calls, (execute remote owner repository action log).2 = log ++ calls ∧
      IsGuardedRun remote owner repository action
        (execute remote owner repository action log).1 calls := by
  have hsilent : Adds (fun call => changesState remote call.request = false)
      (plan remote owner repository action) :=
    plan_adds owner repository action (fun url _ => changesState_get url .read none)
      fun _ threadId _ hurl => changesState_query hurl threadId .read
  obtain ⟨reads, hlater, hreads⟩ := hsilent log
  have hjustified := plan_yields remote owner repository action log
  rw [execute_eq, run_bind]
  cases hplan : plan remote owner repository action log with
  | mk outcome later =>
      rw [hplan] at hlater
      cases hlater
      cases outcome with
      | error error => exact ⟨reads, rfl, isGuardedRun_reads hreads nofun⟩
      | ok plan =>
          obtain ⟨added, hadded, hjustified⟩ := hjustified plan _ hplan
          cases List.append_cancel_left hadded
          cases plan with
          | done result =>
              exact ⟨reads, rfl, isGuardedRun_reads hreads fun _ _ => hjustified⟩
          | write write =>
              dsimp only
              rw [finish, run_send]
              cases remote.join write.path with
              | none => exact ⟨reads, rfl, isGuardedRun_reads hreads nofun⟩
              | some url =>
                  refine ⟨_, List.append_assoc _ _ _, ?_⟩
                  exact isGuardedRun_write hreads hjustified

end Call

end MutationClient

end Patchwright
