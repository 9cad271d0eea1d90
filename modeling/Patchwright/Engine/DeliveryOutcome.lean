import Patchwright.Relay.Mutations
import Patchwright.Engine.Delivery

/-!
# From a remote write to its recorded outcome

An authorised delivery is sent to GitHub through the mutation client, or with
`git push` where it publishes a branch, and its outcome is recorded as
succeeded, ambiguous or failed.  A failed delivery can be claimed again, so
the question is what a recorded failure says about the remote: the code takes
every refusal for one, and a remote may refuse what it has done.
-/

namespace Patchwright

open Checked

/-! ## The remote side of a delivery -/

structure Inspection where
  dirty : Bool
  headSha : String
  deriving DecidableEq, Repr

/-- What `git push` leaves: whether the remote branch has moved, and what the
command reports. -/
structure PushOutput where
  moved : Bool
  success : Bool
  stderr : String
  deriving DecidableEq, Repr

/-- The worktree and the `git` program.  A push that cannot be started has no
output. -/
structure Git where
  inspect : String → Except String Inspection
  originUrl : String → Except String String
  prepareAskpass : String → Except String Unit
  push : String → String → Option PushOutput

structure InstallationToken where
  installationId : Nat
  token : String

/-- What a delivery finds outside the store: the configuration of the GitHub
App, the tokens its broker issues, the server and the worktree. -/
structure Outside where
  configured : Bool
  baseScheme : Option String
  clientBuilds : Bool
  tokenForRepository : String → String → Nat → Option InstallationToken
  remote : Remote
  git : Git

/-- The checks of a push before the command runs. -/
def pushChecks (git : Git) (repository branch expectedHeadSha expectedOriginUrl
    stateRoot : String) : Except String Unit := do
  ensure (trim branch ≠ "" ∧ branch.toList.head? ≠ some '-' ∧
    ¬ branch.toList.any isWhitespace) "invalid push branch name"
  ensure (MutationClient.validSha expectedHeadSha) "invalid expected push head"
  let inspection ← git.inspect repository
  ensure (¬ inspection.dirty) "task worktree has uncommitted changes"
  ensure (inspection.headSha = expectedHeadSha) "task worktree head changed before push"
  let origin ← git.originUrl repository
  ensure (trim origin = expectedOriginUrl)
    "task worktree origin does not match the approved repository"
  git.prepareAskpass stateRoot

/-- The command, and whether the remote branch has moved. -/
def runPush (git : Git) (repository branch : String) : Except String Unit × Bool :=
  match git.push repository branch with
  | none => (.error "push task branch", false)
  | some output =>
      (if output.success then .ok () else .error ("git push failed: " ++ trim output.stderr),
        output.moved)

/-- `GitHubMutationClient::new` with the token of the installation. -/
def newClient (outside : Outside) (token : String) : Except MutationError Unit := do
  let scheme ← okOr .invalidTarget outside.baseScheme
  ensure (scheme = "https") .invalidTarget
  ensure (trim token ≠ "") .missingToken
  ensure outside.clientBuilds .client

section Execution

variable [Sha256]

/-- Owner, repository and token for the remote of a delivery. -/
def installationFor (outside : Outside) (preview : DeliveryPreview) :
    Except MutationError (String × String × InstallationToken) := do
  ensure outside.configured .missingToken
  let remote := preview.action.remote
  let (owner, repository) ← okOr .invalidTarget (splitOnce remote.repositoryFullName '/')
  let token ← okOr .missingToken
    (outside.tokenForRepository owner repository remote.repositoryId)
  ensure (token.installationId = remote.installationId) .invalidTarget
  return (owner, repository, token)

/-- Where a branch is pushed from, once every check before the push passes. -/
def pushTarget (outside : Outside) (store : EventStore) (preview : DeliveryPreview)
    (branch headSha : String) : Except MutationError String := do
  let task ← okOr .invalidTarget (store.loadTask preview.taskId)
  let bindingId ← okOr .invalidTarget task.repositoryBindingId
  let binding ← okOr .invalidTarget (store.repositoryBinding bindingId)
  ensure (branch ≠ binding.defaultBranch) .defaultBranchPushProhibited
  (pushChecks outside.git task.repositoryPath branch headSha binding.cloneUrl
    binding.stateRoot).mapError fun _ => .gitTransportFailed
  return task.repositoryPath

/-- The server was sent a request that changes state and made the change. -/
def appliesWrite (calls : List Call) : Bool :=
  calls.any fun call => call.request.effect = .mutation && call.answer.applied

/-- Send a delivery to GitHub.  The second component tells whether the remote
has made the change; the engine does not see it. -/
def executeGithubAction (outside : Outside) (store : EventStore) (preview : DeliveryPreview) :
    Except MutationError MutationResult × Bool :=
  match installationFor outside preview with
  | .error error => (.error error, false)
  | .ok (owner, repository, token) =>
      match preview.action.action with
      | .pushIntent branch headSha =>
          match pushTarget outside store preview branch headSha with
          | .error error => (.error error, false)
          | .ok path =>
              let run := runPush outside.git path branch
              ((run.1.map fun _ => { MutationResult.default with sha := some headSha }).mapError
                fun _ => .gitTransportFailed, run.2)
      | action =>
          match newClient outside token.token with
          | .error error => (.error error, false)
          | .ok _ =>
              let run := MutationClient.execute outside.remote owner repository action []
              (run.1, appliesWrite run.2)

def succeededResult (result : MutationResult) : Json :=
  .obj [("state", .str "succeeded"), ("result", result.toJson)]

def unsuccessfulResult (state : String) (error : MutationError) : Json :=
  .obj [("state", .str state), ("error", .str error.message)]

/-- The end of `delivery_execute`: record what the remote call returned. -/
def recordOutcome (ambient : Ambient) (store : EventStore) (preview : DeliveryPreview)
    (key : String) : Except MutationError MutationResult → Except DeliveryError EventStore
  | .ok result =>
      completeSuccessfulDelivery ambient store preview key (succeededResult result)
        (result.merged = some true)
  | .error .ambiguousTransport =>
      recordAmbiguousDelivery store key (unsuccessfulResult "ambiguous" .ambiguousTransport)
  | .error error =>
      completeFailedDelivery ambient store preview key (unsuccessfulResult "failed" error)

/-! ## What a recorded state says -/

/-- The request that changes state, as the remote treats it. -/
structure Attempt where
  applied : Bool
  refused : Bool
  deriving DecidableEq, Repr

/-- The attempt of a plan that was run. -/
def attemptOf (remote : Remote) :
    Except MutationError MutationClient.Plan × List Call → Option Attempt
  | (.ok (.write write), reads) =>
      (remote.join write.path).map fun url =>
        ⟨(remote.peer reads (write.request url)).applied,
          write.reply.refuses (remote.peer reads (write.request url)).response⟩
  | _ => none

/-- The attempt that the reads and checks of a delivery lead to, if any. -/
def attempted (outside : Outside) (store : EventStore) (preview : DeliveryPreview) :
    Option Attempt :=
  match installationFor outside preview with
  | .error _ => none
  | .ok (owner, repository, token) =>
      match preview.action.action with
      | .pushIntent branch headSha =>
          match pushTarget outside store preview branch headSha with
          | .error _ => none
          | .ok path =>
              (outside.git.push path branch).map fun output => ⟨output.moved, !output.success⟩
      | action =>
          match newClient outside token.token with
          | .error _ => none
          | .ok _ =>
              attemptOf outside.remote
                (MutationClient.plan outside.remote owner repository action [])

/-- A failure that `delivery_execute` takes for definite. -/
def IsDefinite (result : Except MutationError MutationResult) : Prop :=
  ∃ error, result = .error error ∧ error ≠ .ambiguousTransport

omit [Sha256] in
theorem appliesWrite_of_reads {reads : List Call}
    (hreads : ∀ call ∈ reads, MutationClient.IsRead call) : appliesWrite reads = false := by
  rw [appliesWrite, List.any_eq_false]
  intro read hread
  have heffect : read.request.effect = .read := hreads read hread
  rw [heffect]
  exact nofun

omit [Sha256] in
theorem appliesWrite_append {reads : List Call}
    (hreads : ∀ call ∈ reads, MutationClient.IsRead call) (write : MutationClient.Write)
    (url : String) (answer : Answer) :
    appliesWrite (reads ++ [⟨write.request url, answer⟩]) = answer.applied := by
  have hnone := appliesWrite_of_reads hreads
  rw [appliesWrite] at hnone ⊢
  rw [List.any_append, hnone, Bool.false_or, List.any_cons, List.any_nil, Bool.or_false]
  rfl

omit [Sha256] in
theorem isDefinite_judge (reply : MutationClient.WriteReply) (response : Option Response) :
    IsDefinite (MutationClient.judge reply response) ↔ reply.refuses response = true := by
  cases hjudge : MutationClient.judge reply response with
  | ok result =>
      rw [MutationClient.judge_eq_ok hjudge]
      exact iff_of_false nofun nofun
  | error error =>
      have hopen := MutationClient.judge_eq_error hjudge
      constructor
      · rintro ⟨_, herror, hdefinite⟩
        cases herror
        exact Bool.eq_true_of_not_eq_false (mt hopen.mpr hdefinite)
      · intro hrefused
        refine ⟨error, rfl, fun hambiguous => ?_⟩
        rw [hopen.mp hambiguous] at hrefused
        exact absurd hrefused nofun

/-- What an attempt makes of the result and of the remote. -/
def Attempt.Settles (attempt : Option Attempt)
    (outcome : Except MutationError MutationResult × Bool) : Prop :=
  match attempt with
  | none => outcome.2 = false
  | some attempt => outcome.2 = attempt.applied ∧ (IsDefinite outcome.1 ↔ attempt.refused = true)

omit [Sha256] in
/-- A call of the client changes state through its planned write only, and its
failure is definite where that write was refused. -/
theorem execute_settles (remote : Remote) (owner repository : String) (action : GitHubAction) :
    Attempt.Settles (attemptOf remote (MutationClient.plan remote owner repository action []))
      ((MutationClient.execute remote owner repository action []).1,
        appliesWrite (MutationClient.execute remote owner repository action []).2) := by
  rcases MutationClient.plan_adds_reads remote owner repository action [] with
    ⟨reads, hlog, hreads⟩
  rw [MutationClient.execute_eq, Dialogue.run_bind]
  rw [List.nil_append] at hlog
  rcases hplan : MutationClient.plan remote owner repository action [] with ⟨result, log⟩
  rw [hplan] at hlog
  have hlog : log = reads := hlog
  rw [hlog]
  cases result with
  | error error => exact appliesWrite_of_reads hreads
  | ok plan =>
      cases plan with
      | done result => exact appliesWrite_of_reads hreads
      | write write =>
          dsimp only
          rw [MutationClient.finish, MutationClient.run_send, attemptOf]
          cases remote.join write.path with
          | none => exact appliesWrite_of_reads hreads
          | some url =>
              exact ⟨appliesWrite_append hreads write url _, isDefinite_judge _ _⟩

/-- Without an attempt nothing changes; with one the failure is definite
exactly where the remote refused. -/
theorem executeGithubAction_settles (outside : Outside) (store : EventStore)
    (preview : DeliveryPreview) :
    Attempt.Settles (attempted outside store preview)
      (executeGithubAction outside store preview) := by
  rw [attempted, executeGithubAction]
  cases installationFor outside preview with
  | error error => rfl
  | ok installation =>
      rcases installation with ⟨owner, repository, token⟩
      dsimp only
      split
      · next branch headSha _ =>
          cases pushTarget outside store preview branch headSha with
          | error error => rfl
          | ok path =>
              dsimp only
              rw [runPush]
              cases outside.git.push path branch with
              | none => rfl
              | some output =>
                  rcases output with ⟨moved, success, stderr⟩
                  cases success with
                  | true => exact ⟨rfl, iff_of_false nofun nofun⟩
                  | false => exact ⟨rfl, iff_of_true ⟨.gitTransportFailed, rfl, nofun⟩ rfl⟩
      · cases newClient outside token.token with
        | error error => rfl
        | ok _ => exact execute_settles outside.remote owner repository _

/-- The state in the recorded result. -/
def recordedState : Except MutationError MutationResult → String
  | .ok _ => "succeeded"
  | .error .ambiguousTransport => "ambiguous"
  | .error _ => "failed"

theorem recordOutcome_deliveryState {ambient : Ambient} {store recorded : EventStore}
    {preview : DeliveryPreview} {key : String} {result : Except MutationError MutationResult}
    (hrecord : recordOutcome ambient store preview key result = .ok recorded) :
    recorded.deliveryState key = some (recordedState result) := by
  have hwritten : ∀ {state : String} {rest : List (String × Json)} {completedAt : Option Int}
      {next : EventStore},
      store.recordResult key (.obj (("state", .str state) :: rest)) completedAt = .ok next →
        next.deliveryState key = some state := by
    intro state rest completedAt next hnext
    rw [EventStore.recordResult_eq_ok] at hnext
    rcases hnext with ⟨delivery, -, rfl⟩
    rw [EventStore.deliveryState, AList.lookup_insert]
    rfl
  cases result with
  | ok result =>
      rcases completeSuccessfulDelivery_eq_ok hrecord with ⟨events, hevents, -⟩
      rw [EventStore.completeDeliveryWithTaskEvents, bind_eq_ok] at hevents
      rcases hevents with ⟨middle, hmiddle, hnext⟩
      rw [pure_eq_ok] at hnext
      rw [← hnext, EventStore.deliveryState, EventStore.saveTaskEvents_deliveries]
      exact hwritten hmiddle
  | error error =>
      by_cases hambiguous : error = .ambiguousTransport
      · rw [hambiguous] at hrecord ⊢
        exact hwritten (persisted_eq_ok.1 hrecord)
      · have hfailed : completeFailedDelivery ambient store preview key
            (unsuccessfulResult "failed" error) = .ok recorded := by
          cases error <;> first | exact hrecord | exact absurd rfl hambiguous
        have hstate : recordedState (.error error) = "failed" := by
          cases error <;> first | rfl | exact absurd rfl hambiguous
        rw [hstate]
        rcases completeFailedDelivery_eq_ok hfailed with hplain | ⟨task, _, -, -, -, hmerge⟩
        · exact hwritten hplain
        · rw [EventStore.completeFailedMergeDelivery, bind_eq_ok] at hmerge
          rcases hmerge with ⟨middle, hmiddle, hnext⟩
          rw [pure_eq_ok] at hnext
          have hstored := hwritten hmiddle
          rw [← hnext]
          exact hstored

omit [Sha256] in
theorem recordedState_eq_failed (result : Except MutationError MutationResult) :
    recordedState result = "failed" ↔ IsDefinite result := by
  cases result with
  | ok result =>
      have hstate : ("succeeded" : String) ≠ "failed" := by decide
      exact iff_of_false hstate nofun
  | error error =>
      by_cases hambiguous : error = .ambiguousTransport
      · rw [hambiguous]
        refine iff_of_false (by decide) ?_
        rintro ⟨_, herror, hdefinite⟩
        cases herror
        exact hdefinite rfl
      · have hstate : recordedState (.error error) = "failed" := by
          cases error <;> first | rfl | exact absurd rfl hambiguous
        exact iff_of_true hstate ⟨error, rfl, hambiguous⟩

/-- A delivery is recorded as failed only where the remote has made no change,
and every change without a verified success is recorded as ambiguous. -/
def FailsHonestly (outcome : Except MutationError MutationResult × Bool) (recorded : EventStore)
    (key : String) : Prop :=
  (recorded.deliveryState key = some "failed" → outcome.2 = false) ∧
    (outcome.2 = true → (∃ error, outcome.1 = .error error) →
      recorded.deliveryState key = some "ambiguous")

/-- The recorded failure of a delivery is honest exactly when the remote does
not refuse a change it has made. -/
theorem recordOutcome_failsHonestly_iff {outside : Outside} {ambient : Ambient}
    {pushed store recorded : EventStore} {preview : DeliveryPreview} {key : String}
    (hrecord : recordOutcome ambient store preview key
      (executeGithubAction outside pushed preview).1 = .ok recorded) :
    FailsHonestly (executeGithubAction outside pushed preview) recorded key ↔
      ∀ attempt, attempted outside pushed preview = some attempt →
        attempt.applied = true → attempt.refused = false := by
  have hsettles := executeGithubAction_settles outside pushed preview
  have hstate := recordOutcome_deliveryState hrecord
  generalize executeGithubAction outside pushed preview = outcome at hsettles hstate
  rw [FailsHonestly, hstate, Option.some.injEq, recordedState_eq_failed]
  cases hattempted : attempted outside pushed preview with
  | none =>
      rw [hattempted] at hsettles
      have hnothing : outcome.2 = false := hsettles
      rw [hnothing]
      exact iff_of_true ⟨fun _ => rfl, nofun⟩ nofun
  | some attempt =>
      rw [hattempted] at hsettles
      rcases hsettles with ⟨happlied, hdefinite⟩
      rw [happlied, hdefinite]
      constructor
      · rintro ⟨hfailed, -⟩ other hother hmade
        cases hother
        by_contra hrefused
        rw [hfailed (Bool.eq_true_of_not_eq_false hrefused)] at hmade
        exact absurd hmade nofun
      · intro hhonest
        constructor
        · intro hrefused
          by_contra hmade
          rw [hhonest attempt rfl (Bool.eq_true_of_not_eq_false hmade)] at hrefused
          exact absurd hrefused nofun
        · rintro hmade ⟨error, herror⟩
          have hopen : ¬ IsDefinite outcome.1 := by
            rw [hdefinite, hhonest attempt rfl hmade]
            exact nofun
          rw [herror] at hopen ⊢
          have hambiguous : error = .ambiguousTransport := by
            by_contra hdifferent
            exact hopen ⟨error, rfl, hdifferent⟩
          rw [hambiguous]
          rfl

end Execution

/-! ### A merge behind a gateway -/

namespace Sample

/-- A server that gives every request the same answer. -/
def gateway (applied : Bool) (status : Nat) : Outside where
  configured := true
  baseScheme := some "https"
  clientBuilds := true
  tokenForRepository _ _ _ := some ⟨9, "ghs_sample"⟩
  remote := {
    join := fun path => some ("https://api.github.com/" ++ path)
    peer := fun _ _ => ⟨applied, some ⟨status, none, none, none⟩⟩ }
  git := {
    inspect := fun _ => .error "no worktree"
    originUrl := fun _ => .error "no worktree"
    prepareAskpass := fun _ => .error "no worktree"
    push := fun _ _ => none }

/-- The merge of the sample is claimed, and its task merging. -/
def merging : EventStore :=
  { store .merging with
    deliveries := AList.singleton "merge" {
      result := none, claimedAt := 0, completedAt := none, taskId := some taskId } }

/-- The recorded state of the merge and whether the server has merged. -/
def mergeOutcome (outside : Outside) : Option (Option String) × Bool :=
  let outcome := executeGithubAction outside merging mergePreview
  ((recordOutcome ambient merging mergePreview "merge" outcome.1).toOption.map
    (·.deliveryState "merge"), outcome.2)

theorem mergeOutcome_gateway :
    mergeOutcome (gateway true 502) = (some (some "failed"), true) ∧
      mergeOutcome (gateway false 409) = (some (some "failed"), false) ∧
      attempted (gateway false 409) merging mergePreview = some ⟨false, true⟩ := by
  decide

end Sample

open Sample

/-- The server merges and its gateway answers 502: the merge is recorded as
failed. -/
theorem recordOutcome_badGateway :
    ∃ recorded, recordOutcome ambient merging mergePreview "merge"
        (executeGithubAction (gateway true 502) merging mergePreview).1 = .ok recorded ∧
      ¬ FailsHonestly (executeGithubAction (gateway true 502) merging mergePreview) recorded
        "merge" := by
  rcases Prod.mk.inj mergeOutcome_gateway.1 with ⟨hstate, hmerged⟩
  rw [Option.map_eq_some_iff] at hstate
  rcases hstate with ⟨recorded, hrecord, hfailed⟩
  rw [toOption_eq_some] at hrecord
  refine ⟨recorded, hrecord, fun hhonest => ?_⟩
  have hnothing := hhonest.1 hfailed
  rw [hmerged] at hnothing
  exact absurd hnothing nofun

/-- A server that merges nothing and answers 409 is recorded as it is. -/
theorem recordOutcome_conflict :
    ∃ recorded, recordOutcome ambient merging mergePreview "merge"
        (executeGithubAction (gateway false 409) merging mergePreview).1 = .ok recorded ∧
      FailsHonestly (executeGithubAction (gateway false 409) merging mergePreview) recorded
        "merge" := by
  rcases Prod.mk.inj mergeOutcome_gateway.2.1 with ⟨hstate, -⟩
  rw [Option.map_eq_some_iff] at hstate
  rcases hstate with ⟨recorded, hrecord, -⟩
  rw [toOption_eq_some] at hrecord
  refine ⟨recorded, hrecord, (recordOutcome_failsHonestly_iff hrecord).mpr ?_⟩
  intro attempt hattempt happlied
  rw [mergeOutcome_gateway.2.2, Option.some.injEq] at hattempt
  rw [← hattempt] at happlied
  exact absurd happlied nofun

end Patchwright
