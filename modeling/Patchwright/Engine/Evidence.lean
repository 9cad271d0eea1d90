import Patchwright.Engine.GitHubSource
import Patchwright.Engine.Monitoring

/-!
# The evidence behind a monitor that succeeds

A monitor reads the state of its pull request from a snapshot, and a snapshot
holds of the reviews and check runs of a pull request no more than its share of
the budget.  This module compares what a success rests on with what the server
has: the two agree exactly where the part beyond the share is as good as the
part within it.
-/

namespace Patchwright

open Checked

/-! ## From a snapshot to an observation -/

def ciState : Option String → Except String CIState
  | some "passing" => .ok .success
  | some "failing" => .ok .failure
  | some "pending" | some "unknown" | none => .ok .pending
  | some _ => .error "pull request CI state is unsupported"

def reviewState : Option String → Except String ReviewState
  | some "approved" => .ok .approved
  | some "changesRequested" => .ok .changesRequested
  | some "approvalDismissed" => .ok .approvalDismissed
  | some "reviewRequired" | none => .ok .pending
  | some _ => .error "pull request review state is unsupported"

def itemMergeability (item : GitHubWorkItem) : Mergeability :=
  if item.hasConflicts = some true then .conflicting
  else
    match item.mergeable with
    | some true => .mergeable
    | some false => .conflicting
    | none => .unknown

def observationFromGithubItem (item : GitHubWorkItem) (observedAt : DateTime) :
    Except String RemoteObservation := do
  let headSha ← okOr "pull request head SHA is missing" item.headSha
  let baseSha ← okOr "pull request base SHA is missing" item.baseSha
  let ci ← ciState item.ciHealth
  let review ← reviewState item.reviewDecision
  return {
    observedAt, headSha, baseSha, ci, review
    mergeability := itemMergeability item
    repositoryAccessible := true
    networkAvailable := true
    rateLimitedUntil := none }

/-- The row a monitor looks at. -/
def monitoredItem (monitor : MonitorRecord) (snapshot : GitHubRepositorySnapshot) :
    Option GitHubWorkItem :=
  snapshot.workItems.find? fun item =>
    item.kind = .pullRequest ∧ item.repositoryFullName = monitor.repositoryFullName ∧
      item.number = monitor.pullRequestNumber

/-- The part of `monitor_observe` between the snapshot and the stored monitor. -/
def observeSnapshot (monitor : MonitorRecord) (snapshot : GitHubRepositorySnapshot)
    (snapshotAt now : DateTime) : Except String (MonitorRecord × MonitorOutcome) := do
  let item ← okOr "pull request is missing from the fresh GitHub snapshot"
    (monitoredItem monitor snapshot)
  let observation ← observationFromGithubItem item snapshotAt
  (monitor.observe observation now).mapError MonitoringError.message

theorem ciState_eq_success {health : Option String} :
    ciState health = .ok .success ↔ health = some "passing" := by
  unfold ciState
  split <;> simp_all

theorem reviewState_eq_approved {decision : Option String} :
    reviewState decision = .ok .approved ↔ decision = some "approved" := by
  unfold reviewState
  split <;> simp_all

theorem itemMergeability_eq_mergeable {item : GitHubWorkItem} :
    itemMergeability item = .mergeable ↔ item.hasConflicts ≠ some true ∧ item.mergeable = some true := by
  rw [itemMergeability]
  by_cases hconflicts : item.hasConflicts = some true
  · rw [if_pos hconflicts]
    exact iff_of_false nofun (fun hmergeable => hmergeable.1 hconflicts)
  · rw [if_neg hconflicts]
    rcases item.mergeable with _ | _ | _ <;> simp [hconflicts]

/-! ## What success takes -/

/-- The monitor waits for this pull request, and the commits have the form the
monitor accepts. -/
structure Awaits (monitor : MonitorRecord) (headSha baseSha : String) : Prop where
  running : ¬ monitor.state.isFinal
  head_valid : validateMonitorSha headSha = .ok ()
  base_valid : validateMonitorSha baseSha = .ok ()
  head_eq : headSha = monitor.expectedHeadSha
  base_eq : baseSha = monitor.expectedBaseSha

/-- A reachable pull request ends its monitor in success exactly when the
monitor awaits its commits, it can be merged, its checks pass and its review is
approved. -/
theorem MonitorRecord.observe_succeeded_iff {monitor : MonitorRecord}
    {observation : RemoteObservation} {now : DateTime}
    (hnetwork : observation.networkAvailable = true)
    (haccess : observation.repositoryAccessible = true)
    (hrate : observation.rateLimitedUntil = none) :
    (∃ next outcome, monitor.observe observation now = .ok (next, outcome) ∧
        outcome.state = .succeeded) ↔
      Awaits monitor observation.headSha observation.baseSha ∧
        observation.mergeability = .mergeable ∧ observation.ci = .success ∧
        observation.review = .approved := by
  have hresponds := @respond_succeeded_iff (monitor.noted observation now) observation now
    hnetwork haccess hrate
  constructor
  · rintro ⟨next, outcome, hobserve, hsucceeded⟩
    rw [MonitorRecord.observe] at hobserve
    simp only [bind_eq_ok, ensure_eq_ok, pure_eq_ok] at hobserve
    rcases hobserve with ⟨_, hrunning, _, hhead, _, hbase, hrest⟩
    rw [hrest] at hresponds
    rcases hresponds.mp hsucceeded with ⟨hheadEq, hbaseEq, hgood⟩
    exact ⟨⟨hrunning, hhead, hbase, hheadEq, hbaseEq⟩, hgood⟩
  · rintro ⟨hawaits, hgood⟩
    have hstate := hresponds.mpr ⟨hawaits.head_eq, hawaits.base_eq, hgood⟩
    refine ⟨((monitor.noted observation now).respond observation now).1, _, ?_, hstate⟩
    rw [MonitorRecord.observe]
    simp only [bind_eq_ok, ensure_eq_ok, pure_eq_ok]
    exact ⟨(), hawaits.running, (), hawaits.head_valid, (), hawaits.base_valid, trivial⟩

/-! ## What a snapshot keeps -/

theorem paginatedFrom_eq_ok {α : Type} {limit : Nat} {values result : List α}
    {pages : List (Page α)} (hlength : values.length ≤ limit)
    (hok : paginatedFrom limit values pages = .ok result) :
    result = (values ++ contents pages).take limit := by
  induction pages generalizing values with
  | nil =>
      rw [paginatedFrom, Except.ok.injEq] at hok
      rw [← hok, contents, List.flatMap_nil, List.append_nil, List.take_of_length_le hlength]
  | cons page pages ih =>
      rw [paginatedFrom, bind_eq_ok] at hok
      rcases hok with ⟨new, hnew, hrest⟩
      have hcontents : contents (page :: pages) = new ++ contents pages := by
        rw [contents, List.flatMap_cons, hnew]
        rfl
      rw [hcontents, ← List.append_assoc]
      split at hrest
      · next hfull =>
          rw [pure_eq_ok] at hrest
          rw [← hrest, List.take_append_of_le_length hfull]
      · next hmore => exact ih (Nat.le_of_not_le hmore) hrest

/-- A list read in pages is what the pages hold, up to the limit. -/
theorem paginated_eq_ok {α : Type} {limit : Nat} {result : List α} {pages : List (Page α)}
    (hok : paginated limit pages = .ok result) : result = (contents pages).take limit :=
  paginatedFrom_eq_ok (Nat.zero_le limit) hok

section Snapshot

variable {server : GitHubServer} {completion : Completion}

/-- The reviews of a pull request, in the order the server lists them. -/
def GitHubServer.allReviews (server : GitHubServer) (number : Nat) : List WireReview :=
  contents (server.reviews number)

/-- The check runs of a commit. -/
def GitHubServer.allCheckRuns (server : GitHubServer) (sha : String) : List WireCheckRun :=
  contents ((server.checkRuns sha).map (FieldPage.page "check_runs"))

/-- The pull requests a snapshot takes in. -/
def GitHubServer.ingested (server : GitHubServer) (requested : Nat) : List WirePull :=
  (contents server.pulls).take (boundedSnapshotLimits requested 0).1

/-- How many reviews and check runs of a pull request a snapshot takes in. -/
def GitHubServer.share (server : GitHubServer) (requested : Nat) : Nat :=
  (boundedSnapshotLimits (boundedSnapshotLimits requested 0).1
    (server.ingested requested).length).2

/-- The pull requests in detail are those of the rows, each as it is served
under its number. -/
theorem enrichPulls_eq_ok {rows : List WirePull} {pulls : List EnrichedPull}
    (hok : enrichPulls server rows = .ok pulls) :
    (pulls.map fun enriched => enriched.pull.number).Perm (rows.map WirePull.number) ∧
      ∀ enriched ∈ pulls, server.pull enriched.pull.number = .ok enriched.pull := by
  rw [enrichPulls, bind_eq_ok] at hok
  rcases hok with ⟨enriched, henriched, hsorted⟩
  rw [pure_eq_ok] at hsorted
  rw [mapM_eq_ok] at henriched
  have hperm : pulls.Perm enriched := hsorted ▸ List.mergeSort_perm _ _
  have hdetail : ∀ row detail, enrichPull server row = .ok detail →
      server.pull row.number = .ok detail.pull ∧ detail.pull.number = row.number := by
    intro row detail hrow
    rw [enrichPull, bind_eq_ok] at hrow
    rcases hrow with ⟨pull, hpull, hrow⟩
    rw [bind_eq_ok] at hrow
    rcases hrow with ⟨commit, -, hdetail⟩
    rw [pure_eq_ok] at hdetail
    rw [← hdetail]
    exact ⟨hpull, server.pull_number row.number pull hpull⟩
  constructor
  · have hnumbers : enriched.map (fun detail => detail.pull.number) =
        rows.map WirePull.number :=
      List.map_eq_map_of_forall₂ henriched fun row detail hrow => (hdetail row detail hrow).2
    rw [← hnumbers]
    exact hperm.map _
  · intro detail hmem
    rcases List.exists_source_of_forall₂ henriched (hperm.mem_iff.mp hmem) with
      ⟨row, -, hrow⟩
    rcases hdetail row detail hrow with ⟨hpull, hnumber⟩
    rw [hnumber]
    exact hpull

/-- A snapshot keeps of each pull request its share of the check runs. -/
theorem checks_eq_ok {pulls : List EnrichedPull} {limit : Nat} {runs : List GitHubCheckRun}
    (hok : checks server completion pulls limit = .ok runs)
    (hnodup : (pulls.map fun enriched => enriched.pull.number).Nodup) {enriched : EnrichedPull}
    (hmem : enriched ∈ pulls) :
    runs.filter (fun entry => entry.itemNumber = enriched.pull.number) =
      ((server.allCheckRuns enriched.pull.headSha).take limit).map
        (WireCheckRun.intoCheckRun enriched.pull.number) := by
  rw [checks, bind_eq_ok] at hok
  rcases hok with ⟨lists, hlists, hruns⟩
  rw [pure_eq_ok] at hruns
  rw [mapM_eq_ok] at hlists
  have hkept : ∀ source list, checkRunsOf server limit source = .ok list →
      list = ((server.allCheckRuns source.pull.headSha).take limit).map
        (WireCheckRun.intoCheckRun source.pull.number) := by
    intro source list hlist
    rw [checkRunsOf, bind_eq_ok] at hlist
    rcases hlist with ⟨wire, hwire, hlist⟩
    rw [pure_eq_ok] at hlist
    rw [← hlist, paginated_eq_ok hwire, GitHubServer.allCheckRuns]
  have hlabel : ∀ source list, checkRunsOf server limit source = .ok list →
      ∀ run ∈ list, run.itemNumber = source.pull.number := by
    intro source list hlist run hrun
    rw [hkept source list hlist] at hrun
    rcases List.mem_map.mp hrun with ⟨wire, -, rfl⟩
    rfl
  have hperm := completion.checks_perm pulls
  rw [← hruns]
  exact hkept enriched _ (List.filter_flatten_of_forall₂ hlists hlabel
    ((hperm.map _).nodup_iff.mpr hnodup) (hperm.mem_iff.mpr hmem))

theorem pushThreads_kind {number limit : Nat} {threads : List WireThread}
    {found : List GitHubDiscussion} (hfound : ∀ entry ∈ found, entry.kind = "reviewThread") :
    ∀ entry ∈ (pushThreads number limit threads found).1, entry.kind = "reviewThread" := by
  induction threads generalizing found with
  | nil => exact hfound
  | cons thread threads ih =>
      rw [pushThreads]
      cases hthread : thread.intoDiscussion number with
      | none => exact ih hfound
      | some discussion =>
          have hkind : discussion.kind = "reviewThread" := by
            rw [WireThread.intoDiscussion] at hthread
            simp only [Option.bind_eq_bind, Option.bind_eq_some_iff] at hthread
            rcases hthread with ⟨comment, -, id, -, hdiscussion⟩
            cases hdiscussion
            rfl
          have hpushed : ∀ entry ∈ found ++ [discussion], entry.kind = "reviewThread" := by
            intro entry hentry
            rcases List.mem_append.mp hentry with hmem | hmem
            · exact hfound entry hmem
            · rw [List.mem_singleton.mp hmem]
              exact hkind
          dsimp only
          split
          · exact hpushed
          · exact ih hpushed

theorem reviewThreadsForPull_kind {number limit : Nat} {pages : List ThreadPage}
    {found result : List GitHubDiscussion}
    (hok : reviewThreadsForPull number limit pages found = .ok result)
    (hfound : ∀ entry ∈ found, entry.kind = "reviewThread") :
    ∀ entry ∈ result, entry.kind = "reviewThread" := by
  induction pages generalizing found with
  | nil => exact absurd hok nofun
  | cons page pages ih =>
      rw [reviewThreadsForPull] at hok
      simp only [bind_eq_ok] at hok
      rcases hok with ⟨_, -, nodes, -, hok⟩
      have hpushed := @pushThreads_kind number limit nodes found hfound
      split at hok
      · rw [pure_eq_ok] at hok
        rwa [hok] at hpushed
      · split at hok
        · rw [pure_eq_ok] at hok
          rwa [hok] at hpushed
        · rw [bind_eq_ok] at hok
          rcases hok with ⟨_, -, hrest⟩
          exact ih hrest hpushed

theorem reviewThreads_kind {pulls : List EnrichedPull} {limit : Nat}
    {threads : List GitHubDiscussion}
    (hok : reviewThreads server completion pulls limit = .ok threads) :
    ∀ entry ∈ threads, entry.kind = "reviewThread" := by
  rw [reviewThreads, bind_eq_ok] at hok
  rcases hok with ⟨lists, hlists, hthreads⟩
  rw [pure_eq_ok] at hthreads
  rw [mapM_eq_ok] at hlists
  intro entry hentry
  rw [← hthreads] at hentry
  rcases List.mem_flatten.mp hentry with ⟨list, hlist, hmem⟩
  rcases List.exists_source_of_forall₂ hlists hlist with ⟨source, -, hsource⟩
  exact reviewThreadsForPull_kind hsource (fun _ hnone => absurd hnone List.not_mem_nil) entry hmem

/-- A snapshot keeps of each pull request its share of the reviews. -/
theorem discussions_eq_ok {pulls : List EnrichedPull} {resourceLimit limit : Nat}
    {entries : List GitHubDiscussion}
    (hok : discussions server completion pulls resourceLimit limit = .ok entries)
    (hnodup : (pulls.map fun enriched => enriched.pull.number).Nodup) {enriched : EnrichedPull}
    (hmem : enriched ∈ pulls) :
    (entries.filter (fun entry => entry.itemNumber = enriched.pull.number)).filter
        (fun entry => entry.kind = "review") =
      ((server.allReviews enriched.pull.number).take limit).map
        (WireReview.intoDiscussion enriched.pull.number) := by
  rw [discussions] at hok
  simp only [bind_eq_ok, pure_eq_ok] at hok
  rcases hok with ⟨issueComments, -, reviewComments, -, lists, hlists, threads, hthreads, hentries⟩
  rw [mapM_eq_ok] at hlists
  have hkept : ∀ source list, reviewsOf server limit source = .ok list →
      list = ((server.allReviews source.pull.number).take limit).map
        (WireReview.intoDiscussion source.pull.number) := by
    intro source list hlist
    rw [reviewsOf, bind_eq_ok] at hlist
    rcases hlist with ⟨wire, hwire, hlist⟩
    rw [pure_eq_ok] at hlist
    rw [← hlist, paginated_eq_ok hwire, GitHubServer.allReviews]
  have hlabel : ∀ source list, reviewsOf server limit source = .ok list →
      ∀ entry ∈ list, entry.itemNumber = source.pull.number := by
    intro source list hlist entry hentry
    rw [hkept source list hlist] at hentry
    rcases List.mem_map.mp hentry with ⟨wire, -, rfl⟩
    rfl
  have hperm := completion.reviews_perm pulls
  have hreviews := hkept enriched _ (List.filter_flatten_of_forall₂ hlists hlabel
    ((hperm.map _).nodup_iff.mpr hnodup) (hperm.mem_iff.mpr hmem))
  have hother : ∀ {others : List GitHubDiscussion} {kind : String}, kind ≠ "review" →
      (∀ entry ∈ others, entry.kind = kind) →
      (others.filter (fun entry => entry.itemNumber = enriched.pull.number)).filter
        (fun entry => entry.kind = "review") = [] := by
    intro others kind hkind hothers
    rw [List.filter_eq_nil_iff]
    intro entry hentry hreview
    rw [decide_eq_true_iff, hothers entry (List.mem_filter.mp hentry).1] at hreview
    exact hkind hreview
  have hissue : ∀ entry ∈ issueComments.filterMap (WireComment.intoDiscussion "issueComment"),
      entry.kind = "issueComment" := by
    intro entry hentry
    rcases List.mem_filterMap.mp hentry with ⟨comment, -, hcomment⟩
    rw [WireComment.intoDiscussion] at hcomment
    simp only [Option.bind_eq_bind, Option.bind_eq_some_iff] at hcomment
    rcases hcomment with ⟨number, -, hentry⟩
    cases hentry
    rfl
  have hcomment : ∀ entry ∈ reviewComments.filterMap WireReviewComment.intoDiscussion,
      entry.kind = "reviewComment" := by
    intro entry hentry
    rcases List.mem_filterMap.mp hentry with ⟨comment, -, hcomment⟩
    rw [WireReviewComment.intoDiscussion] at hcomment
    simp only [Option.bind_eq_bind, Option.bind_eq_some_iff] at hcomment
    rcases hcomment with ⟨number, -, hentry⟩
    cases hentry
    rfl
  have hthread : ∀ entry ∈ threads, entry.kind = "reviewThread" := reviewThreads_kind hthreads
  rw [← hentries, List.filter_append, List.filter_append, List.filter_append, List.filter_append,
    List.filter_append, List.filter_append, hother (by decide) hissue,
    hother (by decide) hcomment, hother (by decide) hthread, hreviews, List.nil_append,
    List.nil_append, List.append_nil, List.filter_eq_self]
  intro entry hentry
  rcases List.mem_map.mp hentry with ⟨review, -, rfl⟩
  rfl

/-- The reviews of a pull request that a snapshot takes in, and its check runs. -/
def keptReviews (server : GitHubServer) (requested number : Nat) : List GitHubDiscussion :=
  ((server.allReviews number).take (server.share requested)).map (WireReview.intoDiscussion number)

def keptCheckRuns (server : GitHubServer) (requested : Nat) (pull : WirePull) :
    List GitHubCheckRun :=
  ((server.allCheckRuns pull.headSha).take (server.share requested)).map
    (WireCheckRun.intoCheckRun pull.number)

/-- The row of a pull request in a snapshot of the server. -/
structure RowOf (server : GitHubServer) (requested : Nat) (pull : WirePull)
    (item : GitHubWorkItem) : Prop where
  headSha : item.headSha = some pull.headSha
  baseSha : item.baseSha = some pull.baseSha
  mergeable : item.mergeable = pull.mergeable
  hasConflicts : item.hasConflicts = pull.mergeable.map fun mergeable =>
    !mergeable && pull.mergeableState = some "dirty"
  reviewDecision : item.reviewDecision =
    Patchwright.reviewDecision (keptReviews server requested pull.number)
  ciHealth : item.ciHealth = some (Patchwright.ciHealth (keptCheckRuns server requested pull))

theorem reviewDecision_eq_of_filter {entries : List GitHubDiscussion} {number : Nat}
    {reviews : List WireReview}
    (hfilter : entries.filter (fun entry => entry.kind = "review") =
      reviews.map (WireReview.intoDiscussion number)) :
    reviewDecision entries = reviewDecision (reviews.map (WireReview.intoDiscussion number)) := by
  have hself : (reviews.map (WireReview.intoDiscussion number)).filter
      (fun entry => entry.kind = "review") = reviews.map (WireReview.intoDiscussion number) := by
    rw [List.filter_eq_self]
    intro entry hentry
    rcases List.mem_map.mp hentry with ⟨review, -, rfl⟩
    rfl
  rw [reviewDecision, reviewDecision, latestByReviewer, latestByReviewer, hfilter, hself]

/-- What a snapshot says of the pull requests it has taken in. -/
theorem repositorySnapshot_eq_ok {repository : GitHubRepository} {requested : Nat}
    {snapshot : GitHubRepositorySnapshot}
    (hok : repositorySnapshot server completion repository requested = .ok snapshot) :
    ∃ (issues : List GitHubWorkItem) (pulls : List EnrichedPull), snapshot.workItems = issues ++
        pulls.map (pullItem repository.fullName snapshot.discussions snapshot.checks) ∧
      (∀ item ∈ issues, item.kind = .issue) ∧
      (pulls.map fun enriched => enriched.pull.number).Perm
        ((server.ingested requested).map WirePull.number) ∧
      ∀ enriched ∈ pulls, server.pull enriched.pull.number = .ok enriched.pull ∧
        RowOf server requested enriched.pull
          (pullItem repository.fullName snapshot.discussions snapshot.checks enriched) := by
  rw [repositorySnapshot] at hok
  simp only [bind_eq_ok, pure_eq_ok] at hok
  rcases hok with ⟨_, -, issueRows, -, pullRows, hrows, commit, -, pulls, hpulls, entries, hentries,
    runs, hruns, workflowRuns, -, hsnapshot⟩
  rcases enrichPulls_eq_ok hpulls with ⟨hperm, hdetails⟩
  have hingested : pullRows = server.ingested requested := paginated_eq_ok hrows
  rw [hingested] at hperm
  have hnodup : (pulls.map fun enriched => enriched.pull.number).Nodup := by
    rw [hperm.nodup_iff]
    exact server.pulls_nodup.sublist ((List.take_sublist _ _).map _)
  have hshare : (boundedSnapshotLimits (boundedSnapshotLimits requested 0).1 pulls.length).2 =
      server.share requested := by
    have hlength := hperm.length_eq
    rw [List.length_map, List.length_map] at hlength
    rw [GitHubServer.share, hlength]
  rw [hshare] at hentries hruns
  rw [← hsnapshot]
  refine ⟨_, pulls, rfl, ?_, hperm, ?_⟩
  · intro item hitem
    rcases List.mem_map.mp hitem with ⟨row, -, rfl⟩
    rfl
  · intro enriched hmem
    refine ⟨hdetails enriched hmem, ⟨rfl, rfl, rfl, rfl, ?_, ?_⟩⟩
    · exact reviewDecision_eq_of_filter (discussions_eq_ok hentries hnodup hmem)
    · have hkept := checks_eq_ok hruns hnodup hmem
      rw [pullItem, EnrichedPull.intoItem]
      dsimp only
      rw [hkept, keptCheckRuns]

end Snapshot

/-! ## What the server has -/

def WireCheckRun.IsGreen (run : WireCheckRun) : Prop :=
  run.status = "completed" ∧ isPassingConclusion run.conclusion = true

instance (run : WireCheckRun) : Decidable run.IsGreen :=
  inferInstanceAs (Decidable (_ ∧ _))

/-- The instant of a review as a text, empty before its submission. -/
def WireReview.submitted (review : WireReview) : String := review.submittedAt.getD ""

/-- The reviews are listed in the order of their submission.  A pending review
has not been submitted. -/
def InSubmissionOrder (reviews : List WireReview) : Prop :=
  reviews.Pairwise fun earlier later =>
    later.state ≠ "PENDING" → earlier.submitted ≤ later.submitted

def lastReviewBy (reviews : List WireReview) (author : String) : Option WireReview :=
  (reviews.filter fun review => review.user = author).getLast?

/-- No reviewer has asked for changes in the last review. -/
def NoOpenChangeRequest (reviews : List WireReview) : Prop :=
  ∀ author review, lastReviewBy reviews author = some review →
    requestsChanges review.state = false

theorem lastReviewBy_append (first second : List WireReview) (author : String) :
    lastReviewBy (first ++ second) author =
      (lastReviewBy second author).or (lastReviewBy first author) := by
  rw [lastReviewBy, List.filter_append, List.getLast?_append]
  rfl

/-- Where the first reviews leave no request open, only the later ones can. -/
theorem noOpenChangeRequest_append {first second : List WireReview}
    (hfirst : NoOpenChangeRequest first) :
    NoOpenChangeRequest (first ++ second) ↔ NoOpenChangeRequest second := by
  constructor
  · intro hall author review hlast
    apply hall author review
    rw [lastReviewBy_append, hlast]
    rfl
  · intro hsecond author review hlast
    rw [lastReviewBy_append] at hlast
    cases hlater : lastReviewBy second author with
    | none =>
        rw [hlater, Option.none_or] at hlast
        exact hfirst author review hlast
    | some later =>
        rw [hlater, Option.some_or, Option.some.injEq] at hlast
        exact hsecond author review (hlast ▸ hlater)

/-- The reviews that the reviewers of a pull request are remembered by. -/
def remembered (number : Nat) (reviews : List WireReview) : Table String (String × String) :=
  (reviews.map (WireReview.intoDiscussion number)).foldl recordReview ∅

theorem remembered_append (number : Nat) (reviews : List WireReview) (review : WireReview) :
    remembered number (reviews ++ [review]) =
      recordReview (remembered number reviews) (review.intoDiscussion number) := by
  rw [remembered, List.map_append, List.foldl_append]
  rfl

theorem latestByReviewer_eq (number : Nat) (reviews : List WireReview) :
    latestByReviewer (reviews.map (WireReview.intoDiscussion number)) =
      remembered number reviews := by
  rw [latestByReviewer, remembered, List.filter_eq_self.mpr]
  intro entry hentry
  rcases List.mem_map.mp hentry with ⟨review, -, rfl⟩
  rfl

theorem recordReview_intoDiscussion (number : Nat) (latest : Table String (String × String))
    (review : WireReview) :
    recordReview latest (review.intoDiscussion number) =
      match latest.lookup review.user with
      | some (current, _) =>
          if current ≤ review.submitted then
            latest.insert review.user (review.submitted, review.state)
          else latest
      | none => latest.insert review.user (review.submitted, review.state) := rfl

theorem recordReview_lookup_ne {number : Nat} {latest : Table String (String × String)}
    {review : WireReview} {author : String} (hauthor : author ≠ review.user) :
    (recordReview latest (review.intoDiscussion number)).lookup author = latest.lookup author := by
  rw [recordReview_intoDiscussion]
  split
  · split
    · exact AList.lookup_insert_ne hauthor
    · rfl
  · exact AList.lookup_insert_ne hauthor

/-- A review is recorded over whatever its author is remembered by, unless that
was submitted later. -/
theorem recordReview_lookup_self {number : Nat} {latest : Table String (String × String)}
    {review : WireReview} :
    (recordReview latest (review.intoDiscussion number)).lookup review.user =
        some (review.submitted, review.state) ∨
      ∃ current, latest.lookup review.user = some current ∧ ¬ current.1 ≤ review.submitted ∧
        (recordReview latest (review.intoDiscussion number)).lookup review.user =
          some current := by
  rw [recordReview_intoDiscussion]
  split
  · next current state hcurrent =>
      split
      · exact Or.inl (AList.lookup_insert latest)
      · next hlater => exact Or.inr ⟨(current, state), hcurrent, hlater, hcurrent⟩
  · exact Or.inl (AList.lookup_insert latest)

/-- A reviewer is remembered by one of the reviews. -/
theorem exists_review_of_remembered {number : Nat} {reviews : List WireReview} {author : String}
    {found : String × String} (hfound : (remembered number reviews).lookup author = some found) :
    ∃ review ∈ reviews, review.user = author ∧ found = (review.submitted, review.state) := by
  induction reviews using List.reverseRecOn generalizing found with
  | nil => exact absurd hfound nofun
  | append_singleton reviews last ih =>
      have hearlier : (remembered number reviews).lookup author = some found →
          ∃ review ∈ reviews ++ [last], review.user = author ∧
            found = (review.submitted, review.state) := by
        intro hfound
        rcases ih hfound with ⟨review, hreview, hauthor, heq⟩
        exact ⟨review, List.mem_append_left _ hreview, hauthor, heq⟩
      rw [remembered_append] at hfound
      by_cases hauthor : author = last.user
      · rw [hauthor] at hfound
        rcases @recordReview_lookup_self number (remembered number reviews) last with
          hself | ⟨current, hcurrent, -, hsame⟩
        · rw [hself, Option.some.injEq] at hfound
          exact ⟨last, List.mem_append_right _ (List.mem_singleton_self last), hauthor.symm,
            hfound.symm⟩
        · rw [hsame] at hfound
          rw [hfound, ← hauthor] at hcurrent
          exact hearlier hcurrent
      · rw [recordReview_lookup_ne hauthor] at hfound
        exact hearlier hfound

theorem requestsChanges_pending : requestsChanges "PENDING" = false := by decide

/-- A last review that asks for changes is the one its author is remembered by. -/
theorem remembered_of_requestsChanges {number : Nat} {reviews : List WireReview}
    (horder : InSubmissionOrder reviews) {author : String} {review : WireReview}
    (hlast : lastReviewBy reviews author = some review)
    (hchanges : requestsChanges review.state = true) :
    (remembered number reviews).lookup author = some (review.submitted, review.state) := by
  induction reviews using List.reverseRecOn with
  | nil => exact absurd hlast nofun
  | append_singleton reviews last ih =>
      rw [InSubmissionOrder, List.pairwise_append] at horder
      rw [lastReviewBy_append] at hlast
      rw [remembered_append]
      by_cases hauthor : author = last.user
      · have hself : lastReviewBy [last] author = some last := by
          rw [lastReviewBy, List.filter_singleton, hauthor, decide_eq_true rfl]
          rfl
        rw [hself, Option.some_or, Option.some.injEq] at hlast
        rw [hauthor, ← hlast]
        rcases @recordReview_lookup_self number (remembered number reviews) last with
          hrecorded | ⟨current, hcurrent, hlater, -⟩
        · exact hrecorded
        · exfalso
          rcases exists_review_of_remembered hcurrent with ⟨earlier, hearlier, -, hfound⟩
          have hsubmitted : last.state ≠ "PENDING" := by
            intro hpending
            rw [← hlast, hpending, requestsChanges_pending] at hchanges
            exact absurd hchanges nofun
          have hle := horder.2.2 earlier hearlier last (List.mem_singleton_self last) hsubmitted
          rw [hfound] at hlater
          exact hlater hle
      · have hother : lastReviewBy [last] author = none := by
          rw [lastReviewBy, List.filter_singleton, decide_eq_false (Ne.symm hauthor)]
          rfl
        rw [hother, Option.none_or] at hlast
        rw [recordReview_lookup_ne hauthor]
        exact ih horder.1 hlast

/-- An approved pull request has no open request among the reviews it was
judged by. -/
theorem noOpenChangeRequest_of_approved {number : Nat} {reviews : List WireReview}
    (horder : InSubmissionOrder reviews)
    (happroved : reviewDecision (reviews.map (WireReview.intoDiscussion number)) =
      some "approved") : NoOpenChangeRequest reviews := by
  intro author review hlast
  by_contra hchanges
  rw [Bool.not_eq_false] at hchanges
  have hremembered : (remembered number reviews).lookup author =
      some (review.submitted, review.state) :=
    remembered_of_requestsChanges horder hlast hchanges
  rw [← latestByReviewer_eq] at hremembered
  have hnone := reviewDecision_eq_approved happroved hremembered
  rw [hchanges] at hnone
  exact absurd hnone nofun

/-! ## What a success says about the server -/

/-- The pull request leads its monitor to success as far as the snapshot shows. -/
structure LooksGood (server : GitHubServer) (repository : GitHubRepository) (requested : Nat)
    (monitor : MonitorRecord) (pull : WirePull) : Prop where
  repository_eq : monitor.repositoryFullName = repository.fullName
  ingested : monitor.pullRequestNumber ∈ (server.ingested requested).map WirePull.number
  awaits : Awaits monitor pull.headSha pull.baseSha
  mergeable : pull.mergeable = some true
  checks : ciHealth (keptCheckRuns server requested pull) = "passing"
  reviews : reviewDecision (keptReviews server requested pull.number) = some "approved"

/-- The check runs and reviews the server has leave nothing against the pull
request. -/
def HasGoodEvidence (runs : List WireCheckRun) (reviews : List WireReview) : Prop :=
  (∀ run ∈ runs, run.IsGreen) ∧ NoOpenChangeRequest reviews

theorem observationFromGithubItem_eq_ok {server : GitHubServer} {requested : Nat}
    {pull : WirePull} {item : GitHubWorkItem} (hrow : RowOf server requested pull item)
    {observedAt : DateTime} {observation : RemoteObservation} :
    observationFromGithubItem item observedAt = .ok observation ↔
      ∃ ci review, ciState item.ciHealth = .ok ci ∧ reviewState item.reviewDecision = .ok review ∧
        observation = {
          observedAt, headSha := pull.headSha, baseSha := pull.baseSha, ci, review
          mergeability := itemMergeability item
          repositoryAccessible := true
          networkAvailable := true
          rateLimitedUntil := none } := by
  rw [observationFromGithubItem, hrow.headSha, hrow.baseSha]
  simp only [bind_eq_ok, okOr_eq_ok, Option.some.injEq, pure_eq_ok, exists_eq_left']
  constructor
  · rintro ⟨ci, hci, review, hreview, rfl⟩
    exact ⟨ci, review, hci, hreview, rfl⟩
  · rintro ⟨ci, review, hci, hreview, rfl⟩
    exact ⟨ci, hci, review, hreview, rfl⟩

theorem RowOf.itemMergeability_eq {server : GitHubServer} {requested : Nat} {pull : WirePull}
    {item : GitHubWorkItem} (hrow : RowOf server requested pull item) :
    itemMergeability item = .mergeable ↔ pull.mergeable = some true := by
  rw [itemMergeability_eq_mergeable, hrow.mergeable, hrow.hasConflicts]
  constructor
  · exact fun hboth => hboth.2
  · intro hmergeable
    rw [hmergeable]
    exact ⟨nofun, rfl⟩

/-- A row leads its monitor to success exactly when the pull request looks good. -/
theorem observe_row_succeeded_iff {server : GitHubServer} {requested : Nat} {pull : WirePull}
    {item : GitHubWorkItem} (hrow : RowOf server requested pull item) {monitor : MonitorRecord}
    {snapshotAt now : DateTime} :
    (∃ observation next outcome, observationFromGithubItem item snapshotAt = .ok observation ∧
        monitor.observe observation now = .ok (next, outcome) ∧ outcome.state = .succeeded) ↔
      Awaits monitor pull.headSha pull.baseSha ∧ pull.mergeable = some true ∧
        ciHealth (keptCheckRuns server requested pull) = "passing" ∧
        reviewDecision (keptReviews server requested pull.number) = some "approved" := by
  have hchecks := @ciState_eq_success item.ciHealth
  have hreviews := @reviewState_eq_approved item.reviewDecision
  rw [hrow.ciHealth, Option.some.injEq] at hchecks
  rw [hrow.reviewDecision] at hreviews
  constructor
  · rintro ⟨observation, next, outcome, hobservation, hobserve, hsucceeded⟩
    rw [observationFromGithubItem_eq_ok hrow] at hobservation
    rcases hobservation with ⟨ci, review, hci, hreview, rfl⟩
    have hgood := (MonitorRecord.observe_succeeded_iff rfl rfl rfl).mp
      ⟨next, outcome, hobserve, hsucceeded⟩
    rcases hgood with ⟨hawaits, hmergeable, hsuccess, happroved⟩
    have hsuccess : ci = .success := hsuccess
    have happroved : review = .approved := happroved
    rw [hsuccess, hrow.ciHealth] at hci
    rw [happroved, hrow.reviewDecision] at hreview
    exact ⟨hawaits, hrow.itemMergeability_eq.1 hmergeable, hchecks.mp hci, hreviews.mp hreview⟩
  · rintro ⟨hawaits, hmergeable, hpassing, happroved⟩
    let observation : RemoteObservation := {
      observedAt := snapshotAt, headSha := pull.headSha, baseSha := pull.baseSha
      ci := .success, review := .approved, mergeability := itemMergeability item
      repositoryAccessible := true, networkAvailable := true, rateLimitedUntil := none }
    have hobservation : observationFromGithubItem item snapshotAt = .ok observation := by
      rw [observationFromGithubItem_eq_ok hrow]
      refine ⟨.success, .approved, ?_, ?_, rfl⟩
      · rw [hrow.ciHealth]
        exact hchecks.mpr hpassing
      · rw [hrow.reviewDecision]
        exact hreviews.mpr happroved
    have hobserve := (@MonitorRecord.observe_succeeded_iff monitor observation now rfl rfl rfl).mpr
      ⟨hawaits, hrow.itemMergeability_eq.2 hmergeable, rfl, rfl⟩
    rcases hobserve with ⟨next, outcome, hobserve, hsucceeded⟩
    exact ⟨observation, next, outcome, hobservation, hobserve, hsucceeded⟩

section Monitored

variable {server : GitHubServer} {completion : Completion} {repository : GitHubRepository}
variable {requested : Nat} {snapshot : GitHubRepositorySnapshot}
variable {monitor : MonitorRecord} {pull : WirePull}

/-- It is the row of the pull request that is served under the number. -/
theorem monitoredItem_eq_some
    (hfetch : repositorySnapshot server completion repository requested = .ok snapshot)
    (hpull : server.pull monitor.pullRequestNumber = .ok pull) {item : GitHubWorkItem}
    (hitem : monitoredItem monitor snapshot = some item) :
    monitor.repositoryFullName = repository.fullName ∧
      monitor.pullRequestNumber ∈ (server.ingested requested).map WirePull.number ∧
      RowOf server requested pull item := by
  rcases repositorySnapshot_eq_ok hfetch with ⟨issues, pulls, hitems, hissues, hperm, hrows⟩
  rw [monitoredItem] at hitem
  have hmatches := List.find?_some hitem
  rw [decide_eq_true_iff] at hmatches
  have hmem := List.mem_of_find?_eq_some hitem
  rw [hitems] at hmem
  rcases List.mem_append.mp hmem with hissue | hrow
  · have hkind := hmatches.1
    rw [hissues item hissue] at hkind
    exact absurd hkind nofun
  · rcases List.mem_map.mp hrow with ⟨enriched, henriched, rfl⟩
    have hnumber : enriched.pull.number = monitor.pullRequestNumber := hmatches.2.2
    rcases hrows enriched henriched with ⟨hserved, hrow⟩
    rw [hnumber, hpull, Except.ok.injEq] at hserved
    have hingested : enriched.pull.number ∈ (server.ingested requested).map WirePull.number :=
      hperm.mem_iff.mp (List.mem_map.mpr ⟨enriched, henriched, rfl⟩)
    rw [hnumber] at hingested
    rw [← hserved] at hrow
    exact ⟨hmatches.2.1.symm, hingested, hrow⟩

theorem monitoredItem_isSome
    (hfetch : repositorySnapshot server completion repository requested = .ok snapshot)
    (hrepository : monitor.repositoryFullName = repository.fullName)
    (hingested : monitor.pullRequestNumber ∈ (server.ingested requested).map WirePull.number) :
    ∃ item, monitoredItem monitor snapshot = some item := by
  rcases repositorySnapshot_eq_ok hfetch with ⟨issues, pulls, hitems, -, hperm, -⟩
  rcases List.mem_map.mp (hperm.mem_iff.mpr hingested) with ⟨enriched, henriched, hnumber⟩
  rw [← Option.isSome_iff_exists, monitoredItem, List.find?_isSome, hitems]
  refine ⟨_, List.mem_append_right _ (List.mem_map.mpr ⟨enriched, henriched, rfl⟩), ?_⟩
  exact decide_eq_true ⟨rfl, hrepository.symm, hnumber⟩

/-- A snapshot leads its monitor to success exactly when the pull request looks
good. -/
theorem observeSnapshot_succeeded_iff
    (hfetch : repositorySnapshot server completion repository requested = .ok snapshot)
    (hpull : server.pull monitor.pullRequestNumber = .ok pull) {snapshotAt now : DateTime} :
    (∃ next outcome, observeSnapshot monitor snapshot snapshotAt now = .ok (next, outcome) ∧
        outcome.state = .succeeded) ↔
      LooksGood server repository requested monitor pull := by
  constructor
  · rintro ⟨next, outcome, hobserve, hsucceeded⟩
    rw [observeSnapshot] at hobserve
    simp only [bind_eq_ok, okOr_eq_ok, mapError_eq_ok] at hobserve
    rcases hobserve with ⟨item, hitem, observation, hobservation, hobserve⟩
    rcases monitoredItem_eq_some hfetch hpull hitem with ⟨hrepository, hingested, hrow⟩
    rcases (observe_row_succeeded_iff hrow).mp
      ⟨observation, next, outcome, hobservation, hobserve, hsucceeded⟩ with
      ⟨hawaits, hmergeable, hpassing, happroved⟩
    exact ⟨hrepository, hingested, hawaits, hmergeable, hpassing, happroved⟩
  · intro hgood
    rcases monitoredItem_isSome hfetch hgood.repository_eq hgood.ingested with ⟨item, hitem⟩
    rcases monitoredItem_eq_some hfetch hpull hitem with ⟨-, -, hrow⟩
    rcases (@observe_row_succeeded_iff server requested pull item hrow monitor snapshotAt now).mpr
      ⟨hgood.awaits, hgood.mergeable, hgood.checks, hgood.reviews⟩ with
      ⟨observation, next, outcome, hobservation, hobserve, hsucceeded⟩
    refine ⟨next, outcome, ?_, hsucceeded⟩
    rw [observeSnapshot]
    simp only [bind_eq_ok, okOr_eq_ok, mapError_eq_ok]
    exact ⟨item, hitem, observation, hobservation, hobserve⟩

/-- What looks good is good within its share, so only the rest can speak
against it. -/
theorem LooksGood.hasGoodEvidence_iff (hgood : LooksGood server repository requested monitor pull)
    (horder : InSubmissionOrder (server.allReviews pull.number)) :
    HasGoodEvidence (server.allCheckRuns pull.headSha) (server.allReviews pull.number) ↔
      HasGoodEvidence ((server.allCheckRuns pull.headSha).drop (server.share requested))
        ((server.allReviews pull.number).drop (server.share requested)) := by
  have hruns : ∀ run ∈ (server.allCheckRuns pull.headSha).take (server.share requested),
      run.IsGreen := by
    intro run hrun
    have hgreen := (ciHealth_eq_passing.1 hgood.checks).2
    exact hgreen (run.intoCheckRun pull.number) (List.mem_map.mpr ⟨run, hrun, rfl⟩)
  have hreviews : NoOpenChangeRequest
      ((server.allReviews pull.number).take (server.share requested)) :=
    noOpenChangeRequest_of_approved (horder.sublist (List.take_sublist _ _)) hgood.reviews
  have hall : (∀ run ∈ server.allCheckRuns pull.headSha, run.IsGreen) ↔
      ∀ run ∈ (server.allCheckRuns pull.headSha).drop (server.share requested),
        run.IsGreen := by
    constructor
    · intro hgreen run hrun
      exact hgreen run (List.mem_of_mem_drop hrun)
    · intro hgreen run hrun
      rw [← List.take_append_drop (server.share requested) (server.allCheckRuns _)] at hrun
      rcases List.mem_append.mp hrun with hkept | hrest
      · exact hruns run hkept
      · exact hgreen run hrest
  have hopen : NoOpenChangeRequest (server.allReviews pull.number) ↔
      NoOpenChangeRequest ((server.allReviews pull.number).drop (server.share requested)) := by
    have happend := @noOpenChangeRequest_append _
      ((server.allReviews pull.number).drop (server.share requested)) hreviews
    rwa [List.take_append_drop] at happend
  rw [HasGoodEvidence, HasGoodEvidence, hall, hopen]

/-- A monitor that succeeds has the evidence of the server behind it exactly
when a pull request that looks good has nothing against it beyond its share. -/
theorem observeSnapshot_sound_iff
    (hfetch : repositorySnapshot server completion repository requested = .ok snapshot)
    (hpull : server.pull monitor.pullRequestNumber = .ok pull)
    (horder : InSubmissionOrder (server.allReviews pull.number)) {snapshotAt now : DateTime} :
    (∀ next outcome, observeSnapshot monitor snapshot snapshotAt now = .ok (next, outcome) →
        outcome.state = .succeeded →
        HasGoodEvidence (server.allCheckRuns pull.headSha) (server.allReviews pull.number)) ↔
      (LooksGood server repository requested monitor pull →
        HasGoodEvidence ((server.allCheckRuns pull.headSha).drop (server.share requested))
          ((server.allReviews pull.number).drop (server.share requested))) := by
  have hsucceeds := @observeSnapshot_succeeded_iff server completion repository requested snapshot
    monitor pull hfetch hpull snapshotAt now
  constructor
  · intro hsound hgood
    rcases hsucceeds.mpr hgood with ⟨next, outcome, hobserve, hsucceeded⟩
    exact (hgood.hasGoodEvidence_iff horder).mp (hsound next outcome hobserve hsucceeded)
  · intro hbeyond next outcome hobserve hsucceeded
    have hgood := hsucceeds.mp ⟨next, outcome, hobserve, hsucceeded⟩
    exact (hgood.hasGoodEvidence_iff horder).mpr (hbeyond hgood)

end Monitored

/-! ### A failing check beyond the share -/

namespace Sample

def commitSha : String := "cccccccccccccccccccccccccccccccccccccccc"

def targetSha : String := "dddddddddddddddddddddddddddddddddddddddd"

def pullRequest : WirePull where
  id := 1007
  number := 7
  title := "Fix the parser"
  state := "open"
  stateReason := none
  htmlUrl := "https://github.com/octo/demo/pull/7"
  draft := false
  updatedAt := "2026-01-01T00:00:00Z"
  labels := []
  headRef := "feature"
  headSha := commitSha
  headRepository := some ⟨"octo/demo", false⟩
  baseRef := "main"
  baseSha := targetSha
  maintainerCanModify := false
  merged := some false
  mergeCommitSha := none
  mergeable := some true
  mergeableState := some "clean"

/-- A repository with one pull request, approved, and the given check runs. -/
def serving (runs : List WireCheckRun) : GitHubServer where
  issues := []
  pulls := [⟨200, .ok [pullRequest]⟩]
  commit sha := .ok ⟨sha, "2026-01-01T00:00:00Z"⟩
  pull number := if number = 7 then .ok pullRequest else .error "GitHub API returned 404"
  issueComments := []
  reviewComments := []
  reviews _ := [⟨200, .ok [⟨1, "alice", "APPROVED", some "2026-01-01T00:00:00Z"⟩]⟩]
  reviewThreads _ := [⟨false, .ok [], some false, none⟩]
  checkRuns _ := [⟨200, .ok [("check_runs", .ok runs)]⟩]
  workflowRuns := []
  pull_number := by
    intro number detail hdetail
    split at hdetail
    · next hnumber =>
        cases hdetail
        exact hnumber.symm
    · exact absurd hdetail nofun
  pulls_nodup := by decide

def buildRun : WireCheckRun := ⟨1, "build", "completed", some "success"⟩

def testRun : WireCheckRun := ⟨2, "test", "completed", some "failure"⟩

def inOrder : Completion where
  reviews pulls := pulls
  threads pulls := pulls
  checks pulls := pulls
  reviews_perm := List.Perm.refl
  threads_perm := List.Perm.refl
  checks_perm := List.Perm.refl

def demo : GitHubRepository where
  id := 42
  fullName := "octo/demo"
  defaultBranch := "main"
  installationId := none
  defaultBranchSha := none
  defaultBranchCommittedAt := none
  openPullRequestCount := 0
  failingCheckCount := 0

def waiting : MonitorRecord where
  id := ⟨0⟩
  taskId := ⟨⟨1⟩⟩
  repositoryFullName := "octo/demo"
  pullRequestNumber := 7
  expectedHeadSha := commitSha
  expectedBaseSha := targetSha
  state := .pending
  attemptCount := 0
  repairIteration := 0
  repairBudget := 1
  nextAttemptAt := some 0
  latestObservation := none
  summary := "waiting for first remote observation"
  createdAt := 0
  updatedAt := 0

/-- The state the monitor reaches on a snapshot of the server. -/
def reached (server : GitHubServer) (requested : Nat) : Except String MonitorState := do
  let snapshot ← repositorySnapshot server inOrder demo requested
  let observed ← observeSnapshot waiting snapshot 0 0
  return observed.2.state

theorem reached_serving :
    reached (serving [buildRun, testRun]) 1 = .ok .succeeded ∧
      reached (serving [buildRun]) 1 = .ok .succeeded := by
  decide +kernel

theorem reached_eq_ok {server : GitHubServer} {requested : Nat} {state : MonitorState}
    (hreached : reached server requested = .ok state) :
    ∃ snapshot next outcome, repositorySnapshot server inOrder demo requested = .ok snapshot ∧
      observeSnapshot waiting snapshot 0 0 = .ok (next, outcome) ∧ outcome.state = state := by
  rw [reached, bind_eq_ok] at hreached
  rcases hreached with ⟨snapshot, hsnapshot, hreached⟩
  rw [bind_eq_ok] at hreached
  rcases hreached with ⟨⟨next, outcome⟩, hobserve, hstate⟩
  rw [pure_eq_ok] at hstate
  exact ⟨snapshot, next, outcome, hsnapshot, hobserve, hstate⟩

end Sample

open Sample

/-- With a budget of one the failing check of the only pull request is not
read, and its monitor succeeds. -/
theorem observeSnapshot_failing_check :
    InSubmissionOrder ((serving [buildRun, testRun]).allReviews 7) ∧
      ∃ snapshot next outcome,
        repositorySnapshot (serving [buildRun, testRun]) inOrder demo 1 = .ok snapshot ∧
        observeSnapshot waiting snapshot 0 0 = .ok (next, outcome) ∧
        outcome.state = .succeeded ∧
        ¬ HasGoodEvidence ((serving [buildRun, testRun]).allCheckRuns commitSha)
          ((serving [buildRun, testRun]).allReviews 7) := by
  refine ⟨List.pairwise_singleton _ _, ?_⟩
  rcases reached_eq_ok reached_serving.1 with ⟨snapshot, next, outcome, hfetch, hobserve, hstate⟩
  refine ⟨snapshot, next, outcome, hfetch, hobserve, hstate, fun hgood => ?_⟩
  have hmem : testRun ∈ (serving [buildRun, testRun]).allCheckRuns commitSha := by
    decide
  have hpassing : testRun.IsGreen := hgood.1 testRun hmem
  exact absurd hpassing (by decide)

/-- With one check run and one review a budget of one reads all there is. -/
theorem observeSnapshot_whole_evidence :
    ∃ snapshot next outcome,
      repositorySnapshot (serving [buildRun]) inOrder demo 1 = .ok snapshot ∧
      observeSnapshot waiting snapshot 0 0 = .ok (next, outcome) ∧ outcome.state = .succeeded ∧
      HasGoodEvidence ((serving [buildRun]).allCheckRuns commitSha)
        ((serving [buildRun]).allReviews 7) := by
  rcases reached_eq_ok reached_serving.2 with ⟨snapshot, next, outcome, hfetch, hobserve, hstate⟩
  have hbeyond : HasGoodEvidence [] [] :=
    ⟨fun run hrun => absurd hrun List.not_mem_nil, fun author review hlast => absurd hlast nofun⟩
  have hsound := (observeSnapshot_sound_iff hfetch rfl (List.pairwise_singleton _ _)).mpr
    (fun _ => hbeyond) next outcome hobserve hstate
  exact ⟨snapshot, next, outcome, hfetch, hobserve, hstate, hsound⟩

end Patchwright
