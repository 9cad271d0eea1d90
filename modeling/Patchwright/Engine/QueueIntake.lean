import Mathlib
import Patchwright.Engine.GitHubSource
import Patchwright.Engine.QueueRequests

/-!
# The queue over ingested repositories

Snapshots are built from the answers of a server and replace each other in the
store.  The queue that is assessed then holds the open pull requests that were
served for the last snapshot of each repository, so one of them that no list of
candidates may hold makes every assessment fail.
-/

namespace Patchwright

open Checked

/-- A snapshot the engine has built from the answers of a server. -/
structure Intake where
  answers : GitHubAnswers
  completion : Completion
  repository : GitHubRepository
  requested : Nat
  snapshot : GitHubRepositorySnapshot
  syncedAt : DateTime
  built : repositorySnapshot answers completion repository requested = .ok snapshot

/-- The pull request is open and has a time that can be read. -/
def isQueued (pull : WirePull) : Bool :=
  pull.state = "open" ∧ (Rfc3339.parse pull.updatedAt).isSome

namespace Intake

/-- The list of pull requests as far as it is read. -/
def rows (intake : Intake) : List WirePull :=
  (paginated (boundedSnapshotLimits intake.requested 0).1 intake.answers.pulls).toOption.getD []

/-- The pull requests of the list as the server serves each of them. -/
def details (intake : Intake) : List WirePull :=
  intake.rows.filterMap fun row => (intake.answers.pull row.number).toOption

/-- The pull requests the queue takes in. -/
def queued (intake : Intake) : List WirePull := intake.details.filter isQueued

end Intake

/-- Store the snapshots one after another. -/
def ingest (intakes : List Intake) : EventStore :=
  intakes.foldl (fun store intake => store.replaceGithubSnapshot intake.snapshot intake.syncedAt)
    EventStore.empty

/-- The intake is the last one of its repository. -/
def IsStanding (intakes : List Intake) (intake : Intake) : Prop :=
  ∃ before later, intakes = before ++ intake :: later ∧
    ∀ other ∈ later, other.repository.fullName ≠ intake.repository.fullName

/-- The pull request can stand in a queue. -/
structure Queueable (pull : WirePull) : Prop where
  number : 0 < pull.number ∧ pull.number < 2 ^ 63
  titled : trim pull.title ≠ ""
  independent : pull.number ∉ dependencyLabels pull.labels

/-- The pull requests of a repository can stand in a queue together. -/
def QueueableTogether (pulls : List WirePull) : Prop :=
  (∀ pull ∈ pulls, Queueable pull) ∧ (pulls.map WirePull.number).Nodup

/-! ### What a snapshot holds -/

section Snapshot

variable {intake : Intake}

theorem enrichPulls_details {answers : GitHubAnswers} {rows : List WirePull}
    {pulls : List EnrichedPull} (hpulls : enrichPulls answers rows = .ok pulls) :
    (pulls.map EnrichedPull.pull).Perm
      (rows.filterMap fun row => (answers.pull row.number).toOption) := by
  rw [enrichPulls, bind_eq_ok] at hpulls
  obtain ⟨enriched, henriched, hsorted⟩ := hpulls
  rw [pure_eq_ok] at hsorted
  rw [mapM_eq_ok] at henriched
  have hdetails : enriched.map EnrichedPull.pull =
      rows.filterMap fun row => (answers.pull row.number).toOption := by
    clear hsorted
    induction henriched with
    | nil => rfl
    | cons hrow _ ih =>
        rw [enrichPull, bind_eq_ok] at hrow
        obtain ⟨detail, hdetail, hrow⟩ := hrow
        rw [bind_eq_ok] at hrow
        obtain ⟨commit, _, hrow⟩ := hrow
        rw [pure_eq_ok] at hrow
        rw [List.map_cons, ih, ← hrow, List.filterMap_cons, hdetail]
        rfl
  rw [← hdetails, ← hsorted]
  exact (List.mergeSort_perm _ _).map _

/-- The rows of a snapshot are issues and the pull requests as they were
served. -/
theorem snapshot_workItems (intake : Intake) :
    (splitOnce intake.repository.fullName '/').isSome ∧
      intake.snapshot.repository.fullName = intake.repository.fullName ∧
      ∃ (issues : List GitHubWorkItem) (pulls : List EnrichedPull),
        intake.snapshot.workItems = issues ++ pulls.map (pullItem intake.repository.fullName
          intake.snapshot.discussions intake.snapshot.checks) ∧
        (∀ item ∈ issues, item.kind = .issue) ∧
        (pulls.map EnrichedPull.pull).Perm intake.details := by
  have hbuilt := intake.built
  rw [repositorySnapshot] at hbuilt
  simp only [bind_eq_ok, pure_eq_ok, ensure_eq_ok] at hbuilt
  obtain ⟨_, hname, issueRows, _, pullRows, hrows, commit, _, pulls, hpulls, entries, _, runs, _,
    workflowRuns, _, hsnapshot⟩ := hbuilt
  have hread : intake.rows = pullRows := by
    rw [Intake.rows, hrows]
    rfl
  rw [Intake.details, hread, ← hsnapshot]
  refine ⟨hname, rfl, _, pulls, rfl, ?_, enrichPulls_details hpulls⟩
  intro item hitem
  obtain ⟨row, _, rfl⟩ := List.mem_map.mp hitem
  rfl

end Snapshot

/-! ### The candidates of a snapshot -/

section Candidates

theorem queueCandidates_append (first second : List GitHubWorkItem) :
    queueCandidates (first ++ second) = queueCandidates first ++ queueCandidates second := by
  rw [queueCandidates, List.filter_append, List.filterMap_append]
  rfl

theorem queueCandidates_perm {first second : List GitHubWorkItem} (hperm : first.Perm second) :
    (queueCandidates first).Perm (queueCandidates second) :=
  (hperm.filter _).filterMap _

theorem queueCandidates_issues {issues : List GitHubWorkItem}
    (hissues : ∀ item ∈ issues, item.kind = .issue) : queueCandidates issues = [] := by
  have hnone : issues.filter (fun item => item.kind = .pullRequest ∧ item.state = "open") = [] := by
    rw [List.filter_eq_nil_iff]
    intro item hitem hkept
    have hkind := (of_decide_eq_true hkept).1
    rw [hissues item hitem] at hkind
    cases hkind
  rw [queueCandidates, hnone]
  rfl

theorem queueCandidates_flatMap {α : Type} (items : α → List GitHubWorkItem) (list : List α) :
    queueCandidates (list.flatMap items) =
      list.flatMap fun value => queueCandidates (items value) := by
  induction list with
  | nil => rfl
  | cons value list ih => rw [List.flatMap_cons, queueCandidates_append, ih, List.flatMap_cons]

/-- The candidate is about the pull request. -/
structure StandsFor (name : String) (pull : WirePull) (candidate : QueueCandidate) : Prop where
  repository : candidate.repositoryFullName = name
  number : candidate.number = pull.number
  title : candidate.title = pull.title
  dependencies : candidate.dependencyNumbers = dependencyLabels pull.labels
  paths : candidate.changedPaths = []

/-- Each of the queued pull requests has one candidate. -/
theorem queueCandidates_pulls (name : String) (entries : List GitHubDiscussion)
    (runs : List GitHubCheckRun) (pulls : List EnrichedPull) :
    List.Forall₂ (StandsFor name) ((pulls.map EnrichedPull.pull).filter isQueued)
      (queueCandidates (pulls.map (pullItem name entries runs))) := by
  induction pulls with
  | nil => exact .nil
  | cons enriched pulls ih =>
      have hone : queueCandidates ((enriched :: pulls).map (pullItem name entries runs)) =
          queueCandidates [pullItem name entries runs enriched] ++
            queueCandidates (pulls.map (pullItem name entries runs)) :=
        queueCandidates_append [_] _
      rw [hone, List.map_cons, List.filter_cons]
      have hkind : (pullItem name entries runs enriched).kind = .pullRequest := rfl
      have hitem : (pullItem name entries runs enriched).state = enriched.pull.state := rfl
      have htime : (pullItem name entries runs enriched).updatedAt = enriched.pull.updatedAt := rfl
      rw [queueCandidates, List.filter_cons, List.filter_nil, hkind, hitem, isQueued]
      by_cases hopen : enriched.pull.state = "open"
      · cases hparse : Rfc3339.parse enriched.pull.updatedAt with
        | none =>
            have hnone : (pullItem name entries runs enriched).candidate? = none := by
              rw [GitHubWorkItem.candidate?, htime, hparse, Option.map_none]
            simp only [hopen, and_self, decide_true, if_true, List.filterMap_cons, hnone,
              List.filterMap_nil, Option.isSome_none, Bool.false_eq_true, and_false, decide_false,
              if_false, List.nil_append]
            exact ih
        | some reading =>
            obtain ⟨candidate, hsome, hstands⟩ : ∃ candidate,
                (pullItem name entries runs enriched).candidate? = some candidate ∧
                  StandsFor name enriched.pull candidate :=
              ⟨_, by rw [GitHubWorkItem.candidate?, htime, hparse, Option.map_some],
                ⟨rfl, rfl, rfl, rfl, rfl⟩⟩
            simp only [hopen, and_self, decide_true, if_true, List.filterMap_cons, hsome,
              List.filterMap_nil, Option.isSome_some]
            exact .cons hstands ih
      · simp only [hopen, and_false, decide_false, Bool.false_eq_true, if_false, false_and,
          List.filterMap_nil, List.nil_append]
        exact ih

end Candidates

/-! ### One repository -/

section Repository

theorem QueueableTogether.of_perm {pulls shuffled : List WirePull} (hperm : shuffled.Perm pulls)
    (htogether : QueueableTogether pulls) : QueueableTogether shuffled :=
  ⟨fun pull hpull => htogether.1 pull (hperm.mem_iff.mp hpull),
    (hperm.map WirePull.number).nodup_iff.mpr htogether.2⟩

theorem queueable_iff {name : String} {pull : WirePull} {candidate : QueueCandidate}
    (hname : (splitOnce name '/').isSome) (hstands : StandsFor name pull candidate) :
    Queueable pull ↔ candidate.Admissible ∧ candidate.number < 2 ^ 63 := by
  rw [hstands.number]
  constructor
  · intro hqueueable
    refine ⟨⟨?_, ?_, ?_, ?_, ?_⟩, hqueueable.number.2⟩
    · rw [hstands.number]
      exact hqueueable.number.1.ne'
    · rw [hstands.repository]
      exact hname
    · rw [hstands.title]
      exact hqueueable.titled
    · rw [hstands.number, hstands.dependencies]
      exact hqueueable.independent
    · rw [hstands.paths]
      exact nofun
  · intro ⟨hadmissible, hstorable⟩
    refine ⟨⟨Nat.pos_of_ne_zero ?_, hstorable⟩, ?_, ?_⟩
    · exact hstands.number ▸ hadmissible.number_ne_zero
    · exact hstands.title ▸ hadmissible.titled
    · exact hstands.number ▸ hstands.dependencies ▸ hadmissible.independent

theorem exists_candidate {name : String} {pulls : List WirePull} {candidates : List QueueCandidate}
    (hstands : List.Forall₂ (StandsFor name) pulls candidates) {pull : WirePull}
    (hpull : pull ∈ pulls) : ∃ candidate ∈ candidates, StandsFor name pull candidate :=
  List.exists_source_of_forall₂ hstands.flip hpull

/-- The candidates of one repository are assessable when its pull requests can
stand in a queue together. -/
theorem assessable_iff {name : String} {pulls : List WirePull} {candidates : List QueueCandidate}
    (hname : (splitOnce name '/').isSome)
    (hstands : List.Forall₂ (StandsFor name) pulls candidates) :
    Assessable candidates ↔ QueueableTogether pulls := by
  have hidentities : candidates.map QueueCandidate.identity =
      (pulls.map WirePull.number).map (Prod.mk name) := by
    rw [List.map_map]
    exact List.map_eq_map_of_forall₂ hstands fun pull candidate h =>
      Prod.ext h.repository h.number
  have hdistinct : (candidates.map QueueCandidate.identity).Nodup ↔
      (pulls.map WirePull.number).Nodup := by
    rw [hidentities]
    exact List.nodup_map_iff (Prod.mk_right_injective name)
  constructor
  · intro hassessable
    refine ⟨fun pull hpull => ?_, hdistinct.mp hassessable.distinct⟩
    obtain ⟨candidate, hcandidate, h⟩ := exists_candidate hstands hpull
    exact (queueable_iff hname h).mpr ⟨hassessable.admissible candidate hcandidate,
      hassessable.storable candidate hcandidate⟩
  · intro htogether
    have hall : ∀ candidate ∈ candidates, candidate.Admissible ∧ candidate.number < 2 ^ 63 := by
      intro candidate hcandidate
      obtain ⟨pull, hpull, h⟩ := List.exists_source_of_forall₂ hstands hcandidate
      exact (queueable_iff hname h).mp (htogether.1 pull hpull)
    exact ⟨fun candidate h => (hall candidate h).1, fun candidate h => (hall candidate h).2,
      hdistinct.mpr htogether.2⟩

/-- What an intake contributes to the queue. -/
theorem intake_assessable_iff (intake : Intake) :
    (Assessable (queueCandidates intake.snapshot.workItems) ↔ QueueableTogether intake.queued) ∧
      ∀ candidate ∈ queueCandidates intake.snapshot.workItems,
        candidate.repositoryFullName = intake.repository.fullName := by
  obtain ⟨hname, _, issues, pulls, hitems, hissues, hperm⟩ := snapshot_workItems intake
  have hstands := queueCandidates_pulls intake.repository.fullName intake.snapshot.discussions
    intake.snapshot.checks pulls
  have hcandidates : queueCandidates intake.snapshot.workItems = queueCandidates (pulls.map
      (pullItem intake.repository.fullName intake.snapshot.discussions
        intake.snapshot.checks)) := by
    rw [hitems, queueCandidates_append, queueCandidates_issues hissues, List.nil_append]
  have hqueued : ((pulls.map EnrichedPull.pull).filter isQueued).Perm intake.queued :=
    hperm.filter _
  rw [hcandidates]
  constructor
  · rw [assessable_iff hname hstands]
    exact ⟨.of_perm hqueued.symm, .of_perm hqueued⟩
  · intro candidate hcandidate
    obtain ⟨_, _, h⟩ := List.exists_source_of_forall₂ hstands hcandidate
    exact h.repository

end Repository

/-! ### All repositories -/

section Store

variable {intakes : List Intake} {intake : Intake}

theorem isStanding_append {last : Intake} :
    IsStanding (intakes ++ [last]) intake ↔
      intake = last ∨
        IsStanding intakes intake ∧ last.repository.fullName ≠ intake.repository.fullName := by
  constructor
  · rintro ⟨before, later, hsplit, hlater⟩
    rcases List.eq_nil_or_concat later with rfl | ⟨more, other, rfl⟩
    · obtain ⟨_, hlast⟩ := List.append_inj' hsplit rfl
      exact .inl (List.singleton_inj.mp hlast).symm
    · rw [List.concat_eq_append, ← List.cons_append, ← List.append_assoc] at hsplit
      obtain ⟨hinit, hlast⟩ := List.append_inj' hsplit rfl
      rw [List.concat_eq_append] at hlater
      refine .inr ⟨⟨before, more, hinit, fun other hother => ?_⟩, ?_⟩
      · exact hlater other (List.mem_append_left _ hother)
      · rw [List.singleton_inj.mp hlast]
        exact hlater other (List.mem_append_right _ List.mem_cons_self)
  · rintro (rfl | ⟨⟨before, later, rfl, hlater⟩, hlast⟩)
    · exact ⟨intakes, [], rfl, nofun⟩
    · refine ⟨before, later ++ [last], by rw [List.append_assoc, List.cons_append], ?_⟩
      intro other hother
      rcases List.mem_append.mp hother with hother | hother
      · exact hlater other hother
      · rw [List.mem_singleton.mp hother]
        exact hlast

def Intake.row (intake : Intake) : GitHubSnapshotRow := ⟨intake.snapshot, intake.syncedAt⟩

/-- The store holds the snapshots of the standing intakes. -/
theorem lookup_ingest (name : String) (row : GitHubSnapshotRow) :
    (ingest intakes).githubSnapshots.lookup name = some row ↔
      ∃ intake, IsStanding intakes intake ∧ intake.repository.fullName = name ∧
        intake.row = row := by
  induction intakes using List.reverseRecOn generalizing row with
  | nil =>
      constructor
      · intro hlookup
        cases hlookup
      · rintro ⟨_, ⟨before, later, hsplit, _⟩, _⟩
        exact absurd hsplit.symm (List.append_ne_nil_of_right_ne_nil _ (List.cons_ne_nil _ _))
  | append_singleton init last ih =>
      have hstore : (ingest (init ++ [last])).githubSnapshots =
          (ingest init).githubSnapshots.insert last.repository.fullName last.row := by
        rw [ingest, List.foldl_append, ← (snapshot_workItems last).2.1]
        rfl
      rw [hstore, AList.lookup_insert_eq]
      split
      case isTrue heq =>
        subst heq
        constructor
        · intro hrow
          exact ⟨last, isStanding_append.2 (.inl rfl), rfl, Option.some_inj.mp hrow⟩
        · rintro ⟨intake, hstanding, hname, rfl⟩
          rcases isStanding_append.1 hstanding with rfl | ⟨_, hother⟩
          · rfl
          · exact absurd hname.symm hother
      case isFalse hne =>
        rw [ih]
        constructor
        · rintro ⟨intake, hstanding, rfl, hrow⟩
          exact ⟨intake, isStanding_append.2 (.inr ⟨hstanding, Ne.symm hne⟩), rfl, hrow⟩
        · rintro ⟨intake, hstanding, rfl, hrow⟩
          rcases isStanding_append.1 hstanding with rfl | ⟨hstanding, _⟩
          · exact absurd rfl hne
          · exact ⟨intake, hstanding, rfl, hrow⟩

/-- Candidates of different repositories do not get in each other's way. -/
theorem assessable_flatMap_iff {α : Type} {rows : List α} {name : α → String}
    {candidates : α → List QueueCandidate} (hrows : (rows.map name).Nodup)
    (hnames : ∀ row ∈ rows, ∀ candidate ∈ candidates row,
      candidate.repositoryFullName = name row) :
    Assessable (rows.flatMap candidates) ↔ ∀ row ∈ rows, Assessable (candidates row) := by
  have hdisjoint : rows.Pairwise (Function.onFun List.Disjoint fun row =>
      (candidates row).map QueueCandidate.identity) := by
    apply (List.pairwise_map.mp hrows).imp_of_mem
    intro first second hfirst hsecond hne identity hmem hother
    obtain ⟨left, hleft, rfl⟩ := List.mem_map.mp hmem
    obtain ⟨right, hright, hsame⟩ := List.mem_map.mp hother
    have hrepository : right.repositoryFullName = left.repositoryFullName :=
      congrArg Prod.fst hsame
    rw [hnames second hsecond right hright, hnames first hfirst left hleft] at hrepository
    exact hne hrepository.symm
  have hdistinct : ((rows.flatMap candidates).map QueueCandidate.identity).Nodup ↔
      ∀ row ∈ rows, ((candidates row).map QueueCandidate.identity).Nodup := by
    rw [List.map_flatMap, List.nodup_flatMap]
    exact and_iff_left hdisjoint
  constructor
  · intro hassessable row hrow
    exact ⟨fun candidate hmem =>
        hassessable.admissible candidate (List.mem_flatMap.mpr ⟨row, hrow, hmem⟩),
      fun candidate hmem =>
        hassessable.storable candidate (List.mem_flatMap.mpr ⟨row, hrow, hmem⟩),
      hdistinct.mp hassessable.distinct row hrow⟩
  · intro hall
    refine ⟨fun candidate hmem => ?_, fun candidate hmem => ?_,
      hdistinct.mpr fun row hrow => (hall row hrow).distinct⟩
    · obtain ⟨row, hrow, hmem⟩ := List.mem_flatMap.mp hmem
      exact (hall row hrow).admissible candidate hmem
    · obtain ⟨row, hrow, hmem⟩ := List.mem_flatMap.mp hmem
      exact (hall row hrow).storable candidate hmem

/-- The queue of a store is that of its rows, whatever their order. -/
theorem queueCandidates_githubWorkItems (store : EventStore) :
    (queueCandidates store.githubWorkItems).Perm (store.githubSnapshots.entries.flatMap
      fun row => queueCandidates row.2.payload.workItems) := by
  rw [EventStore.githubWorkItems, EventStore.snapshots, List.flatMap_map]
  refine (queueCandidates_perm (Sorting.sortBy_perm _ _)).trans ?_
  rw [queueCandidates_flatMap]
  exact (Sorting.sortBy_perm _ _).flatMap_right _

variable [Sha256]

/-- Under every preset, an assessment of the ingested repositories succeeds
exactly when the queued pull requests of each last intake have numbers that the
database takes, differ in them, have titles and name no dependency on
themselves. -/
theorem githubQueueAssess_ingest_iff (intakes : List Intake) (preset : WorkflowPreset)
    (now : DateTime) :
    (∃ decisions, githubQueueAssess (ingest intakes)
        (.obj [("preset", .str preset.wireName)]) now = .ok decisions) ↔
      ∀ intake, IsStanding intakes intake → QueueableTogether intake.queued := by
  rw [githubQueueAssess_isOk_iff]
  have hperm := queueCandidates_githubWorkItems (ingest intakes)
  have hrow : ∀ row ∈ (ingest intakes).githubSnapshots.entries, ∃ intake,
      IsStanding intakes intake ∧ intake.repository.fullName = row.1 ∧ intake.row = row.2 :=
    fun row hmem => (lookup_ingest row.1 row.2).mp (AList.mem_lookup_iff.mpr hmem)
  have hassessable : Assessable (queueCandidates (ingest intakes).githubWorkItems) ↔
      ∀ row ∈ (ingest intakes).githubSnapshots.entries,
        Assessable (queueCandidates row.2.payload.workItems) := by
    rw [← assessable_flatMap_iff (ingest intakes).githubSnapshots.nodupKeys]
    · exact ⟨.of_perm hperm.symm, .of_perm hperm⟩
    · intro row hmem candidate hcandidate
      obtain ⟨intake, _, hname, hpayload⟩ := hrow row hmem
      rw [← hpayload] at hcandidate
      exact ((intake_assessable_iff intake).2 candidate hcandidate).trans hname
  rw [hassessable]
  constructor
  · intro hall intake hstanding
    have hmem : (⟨intake.repository.fullName, intake.row⟩ : Sigma fun _ : String => _) ∈
        (ingest intakes).githubSnapshots.entries :=
      AList.mem_lookup_iff.mp ((lookup_ingest _ _).mpr ⟨intake, hstanding, rfl, rfl⟩)
    exact (intake_assessable_iff intake).1.mp (hall _ hmem)
  · intro hall row hmem
    obtain ⟨intake, hstanding, _, hpayload⟩ := hrow row hmem
    rw [← hpayload]
    exact (intake_assessable_iff intake).1.mpr (hall intake hstanding)

end Store

namespace IntakeSample

def served (labels : List String) : WirePull where
  id := 1007
  number := 7
  title := "Fix the parser"
  state := "open"
  stateReason := none
  htmlUrl := "https://github.com/octo/demo/pull/7"
  draft := false
  updatedAt := "2026-01-01T00:00:00Z"
  labels
  headRef := "feature"
  headSha := "cccccccccccccccccccccccccccccccccccccccc"
  headRepository := some ⟨"octo/demo", false⟩
  baseRef := "main"
  baseSha := "dddddddddddddddddddddddddddddddddddddddd"
  maintainerCanModify := false
  merged := some false
  mergeCommitSha := none
  mergeable := some true
  mergeableState := some "clean"

/-- A repository with one pull request that has the labels. -/
def answers (labels : List String) : GitHubAnswers where
  issues := []
  pulls := [⟨200, .ok [served labels]⟩]
  commit sha := .ok ⟨sha, "2026-01-01T00:00:00Z"⟩
  pull _ := .ok (served labels)
  issueComments := []
  reviewComments := []
  reviews _ := []
  reviewThreads _ := [⟨false, .ok [], some false, none⟩]
  checkRuns _ := []
  workflowRuns := []

def arrival : Completion where
  reviews pulls := pulls
  threads pulls := pulls
  checks pulls := pulls
  reviews_perm := List.Perm.refl
  threads_perm := List.Perm.refl
  checks_perm := List.Perm.refl

def repository (fullName : String) : GitHubRepository where
  id := 42
  fullName
  defaultBranch := "main"
  installationId := none
  defaultBranchSha := some "main"
  defaultBranchCommittedAt := some "2026-01-01T00:00:00Z"
  openPullRequestCount := 1
  failingCheckCount := 0

def snapshot (fullName : String) (labels : List String) : GitHubRepositorySnapshot where
  repository := repository fullName
  workItems := [pullItem fullName [] [] ⟨served labels, some "2026-01-01T00:00:00Z"⟩]
  discussions := []
  checks := []
  workflowRuns := []

def plain : Intake where
  answers := answers ["bug"]
  completion := arrival
  repository := repository "octo/plain"
  requested := 100
  snapshot := snapshot "octo/plain" ["bug"]
  syncedAt := 0
  built := by decide +kernel

/-- A pull request labelled as its own dependency. -/
def circular : Intake where
  answers := answers ["depends-on:#7"]
  completion := arrival
  repository := repository "octo/demo"
  requested := 100
  snapshot := snapshot "octo/demo" ["depends-on:#7"]
  syncedAt := 0
  built := by decide +kernel

end IntakeSample

open IntakeSample QueueSample in
/-- One label of one pull request stops the assessment of all repositories. -/
theorem own_dependency_stops_queue :
    (∃ decisions, githubQueueAssess (ingest [plain]) (.obj [("preset", .str "quickWins")]) 0 =
        .ok decisions) ∧
      ¬ ∃ decisions, githubQueueAssess (ingest [plain, circular])
        (.obj [("preset", .str "quickWins")]) 0 = .ok decisions := by
  constructor
  · have hsome : (githubQueueAssess (ingest [plain]) (.obj [("preset", .str "quickWins")])
        0).toOption.isSome = true := by decide +kernel
    cases hrun : githubQueueAssess (ingest [plain]) (.obj [("preset", .str "quickWins")]) 0 with
    | ok decisions => exact ⟨decisions, rfl⟩
    | error failure =>
        rw [hrun] at hsome
        cases hsome
  · intro hsucceeds
    have hassessable := (githubQueueAssess_isOk_iff _ .quickWins 0).mp hsucceeds
    have hstored : (ingest [plain, circular]).githubSnapshots.lookup "octo/demo" =
        some circular.row := rfl
    have hcircular : (queueCandidates circular.snapshot.workItems).any
        (fun candidate => candidate.number ∈ candidate.dependencyNumbers) = true := by
      decide
    obtain ⟨candidate, hcandidate, hown⟩ := List.any_eq_true.mp hcircular
    have hmem : candidate ∈ queueCandidates (ingest [plain, circular]).githubWorkItems :=
      (queueCandidates_githubWorkItems _).mem_iff.mpr
        (List.mem_flatMap.mpr ⟨_, AList.mem_lookup_iff.mp hstored, hcandidate⟩)
    exact (hassessable.admissible candidate hmem).independent (of_decide_eq_true hown)

end Patchwright
