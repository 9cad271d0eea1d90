import Patchwright.Engine.GitHub

/-!
# Standing verdicts of the reviewers

What a reviewer's standing verdict is: the last review in which the reviewer
approved, asked for changes or was dismissed, whatever was commented since.  The
review decision is folded from the last review of any kind, so it reflects the
standing verdicts as long as comments have not taken the place of all of them.
-/

namespace Patchwright

def approves (state : String) : Bool := lowercase state = "approved"

def dismisses (state : String) : Bool := lowercase state = "dismissed"

/-- A review state that gives a verdict or takes one back. -/
def isDecisive (state : String) : Bool :=
  approves state || requestsChanges state || dismisses state

/-- The reviews with a state. -/
def statedReviews (discussions : List GitHubDiscussion) : List GitHubDiscussion :=
  discussions.filter fun entry => entry.kind = "review" && entry.state.isSome

/-- The reviews are listed in the order they were submitted in. -/
def SubmissionOrder (discussions : List GitHubDiscussion) : Prop :=
  (statedReviews discussions).Pairwise fun earlier later =>
    earlier.submittedAt ≤ later.submittedAt

instance (discussions : List GitHubDiscussion) : Decidable (SubmissionOrder discussions) :=
  inferInstanceAs (Decidable (List.Pairwise _ _))

/-- The reviews of one reviewer, the first to the last. -/
def reviewsBy (author : String) (discussions : List GitHubDiscussion) : List GitHubDiscussion :=
  (statedReviews discussions).filter fun entry => entry.author = author

/-- The states a reviewer submitted, the first to the last. -/
def statesBy (author : String) (discussions : List GitHubDiscussion) : List String :=
  (reviewsBy author discussions).map fun entry => entry.state.getD ""

/-- The state of a reviewer's last review of any kind. -/
def latestState (author : String) (discussions : List GitHubDiscussion) : Option String :=
  (statesBy author discussions).getLast?

/-- The state of a reviewer's last decisive review. -/
def standingState (author : String) (discussions : List GitHubDiscussion) : Option String :=
  ((statesBy author discussions).filter isDecisive).getLast?

/-- Some reviewer's standing verdict is of a kind. -/
def Stands (verdict : String → Bool) (discussions : List GitHubDiscussion) : Prop :=
  ∃ author, ∃ state ∈ standingState author discussions, verdict state = true

/-- Some reviewer's standing verdict is of a kind, and the reviewer has said
nothing since. -/
def StandsLast (verdict : String → Bool) (discussions : List GitHubDiscussion) : Prop :=
  ∃ author, ∃ state ∈ standingState author discussions, verdict state = true ∧
    latestState author discussions = some state

/-- The decision that the standing verdicts make. -/
structure ReflectsVerdicts (decision : Option String) (discussions : List GitHubDiscussion) :
    Prop where
  changesRequested : decision = some "changesRequested" ↔ Stands requestsChanges discussions
  approved : decision = some "approved" ↔
    ¬ Stands requestsChanges discussions ∧ Stands approves discussions

/-- Comments have not taken the place of every verdict that decides: of the
requests for changes if there are some, of the approvals otherwise. -/
structure VerdictsShow (discussions : List GitHubDiscussion) : Prop where
  changesRequested : Stands requestsChanges discussions → StandsLast requestsChanges discussions
  approved : ¬ Stands requestsChanges discussions → Stands approves discussions →
    StandsLast approves discussions

/-! ### What the fold keeps -/

section Fold

variable {discussions : List GitHubDiscussion} {author : String}

theorem recordReview_of_stateless {latest : Table String (String × String)}
    {entry : GitHubDiscussion} (hstate : entry.state.isSome = false) :
    recordReview latest entry = latest := by
  rw [recordReview, Option.isSome_eq_false_iff.mp hstate |> Option.isNone_iff_eq_none.mp]

/-- Reviews without a state leave no trace in the fold. -/
theorem latestByReviewer_eq_stated (discussions : List GitHubDiscussion) :
    latestByReviewer discussions = (statedReviews discussions).foldl recordReview ∅ := by
  have hfold : ∀ (entries : List GitHubDiscussion) (latest : Table String (String × String)),
      entries.foldl recordReview latest =
        (entries.filter fun entry => entry.state.isSome).foldl recordReview latest := by
    intro entries
    induction entries with
    | nil => exact fun _ => rfl
    | cons entry entries ih =>
        intro latest
        cases hstate : entry.state.isSome with
        | true => rw [List.filter_cons, if_pos hstate, List.foldl_cons, List.foldl_cons, ih]
        | false =>
            rw [List.filter_cons, if_neg (Bool.eq_false_iff.mp hstate), List.foldl_cons,
              recordReview_of_stateless hstate, ih]
  rw [latestByReviewer, hfold, List.filter_filter, statedReviews]
  simp only [Bool.and_comm]

/-- What is kept of a review. -/
def GitHubDiscussion.verdict (entry : GitHubDiscussion) : String × String :=
  (entry.submittedAt, entry.state.getD "")

/-- In submission order, the last review of each reviewer is kept. -/
theorem lookup_foldl_recordReview {reviews : List GitHubDiscussion}
    (hstated : ∀ review ∈ reviews, review.state.isSome)
    (hordered : reviews.Pairwise fun earlier later => earlier.submittedAt ≤ later.submittedAt)
    (author : String) :
    (reviews.foldl recordReview ∅).lookup author =
      (reviews.filter fun review => review.author = author).getLast?.map
        GitHubDiscussion.verdict := by
  induction reviews using List.reverseRecOn generalizing author with
  | nil => rfl
  | append_singleton reviews review ih =>
      have hpast : ∀ earlier ∈ reviews, earlier.submittedAt ≤ review.submittedAt :=
        fun earlier hearlier =>
          (List.pairwise_append.mp hordered).2.2 earlier hearlier review List.mem_cons_self
      have hreviews := ih (fun earlier hearlier => hstated earlier (List.mem_append_left _ hearlier))
        (List.pairwise_append.mp hordered).1
      obtain ⟨state, hstate⟩ :=
        Option.isSome_iff_exists.mp (hstated review (List.mem_append_right _ List.mem_cons_self))
      have hinsert : recordReview (reviews.foldl recordReview ∅) review =
          (reviews.foldl recordReview ∅).insert review.author review.verdict := by
        rw [recordReview, hstate, hreviews review.author, GitHubDiscussion.verdict, hstate]
        cases hlast : (reviews.filter fun other => other.author = review.author).getLast? with
        | none => rfl
        | some last =>
            have hmem := List.mem_of_mem_filter (List.mem_of_getLast? hlast)
            simp only [Option.map_some, GitHubDiscussion.verdict]
            rw [if_pos (hpast last hmem)]
            rfl
      rw [List.foldl_append, List.foldl_cons, List.foldl_nil, hinsert, List.filter_append]
      by_cases hauthor : review.author = author
      · subst hauthor
        rw [AList.lookup_insert]
        simp
      · rw [AList.lookup_insert_ne (Ne.symm hauthor), hreviews author]
        simp [hauthor]

/-- In submission order, the state kept of a reviewer is that of the last
review. -/
theorem lookup_latestByReviewer (hordered : SubmissionOrder discussions) (author : String) :
    ((latestByReviewer discussions).lookup author).map Prod.snd =
      latestState author discussions := by
  have hstated : ∀ review ∈ statedReviews discussions, review.state.isSome := by
    intro review hreview
    exact (Bool.and_eq_true_iff.mp (List.mem_filter.mp hreview).2).2
  rw [latestByReviewer_eq_stated, lookup_foldl_recordReview hstated hordered author, latestState,
    statesBy, List.getLast?_map, Option.map_map]
  rfl

/-- The states that the decision is made from. -/
def keptStates (discussions : List GitHubDiscussion) : List String :=
  (latestByReviewer discussions).entries.map fun entry => entry.2.2

/-- The states that the decision is made from are the last ones. -/
theorem any_keptStates (hordered : SubmissionOrder discussions) (verdict : String → Bool) :
    (keptStates discussions).any verdict = true ↔
      ∃ author, ∃ state ∈ latestState author discussions, verdict state = true := by
  rw [List.any_eq_true]
  constructor
  · intro ⟨state, hmem, hverdict⟩
    obtain ⟨⟨author, review⟩, hentry, rfl⟩ := List.mem_map.mp hmem
    refine ⟨author, review.2, ?_, hverdict⟩
    rw [← lookup_latestByReviewer hordered, AList.mem_lookup_iff.mpr hentry]
    rfl
  · intro ⟨author, state, hstate, hverdict⟩
    rw [← lookup_latestByReviewer hordered] at hstate
    obtain ⟨review, hreview, rfl⟩ := Option.map_eq_some_iff.mp hstate
    exact ⟨review.2, List.mem_map.mpr ⟨⟨author, review⟩, AList.mem_lookup_iff.mp hreview, rfl⟩,
      hverdict⟩

/-- A decisive last state is the standing one. -/
theorem standingState_of_latest {state : String}
    (hlatest : latestState author discussions = some state) (hdecisive : isDecisive state) :
    standingState author discussions = some state := by
  rw [latestState, List.getLast?_eq_some_iff] at hlatest
  obtain ⟨earlier, hsplit⟩ := hlatest
  rw [standingState, hsplit, List.filter_append, List.filter_cons, if_pos hdecisive]
  exact List.getLast?_concat

/-- Among the last states, a kind of verdict is found where it stands last. -/
theorem any_latest_iff {verdict : String → Bool}
    (hdecisive : ∀ state, verdict state = true → isDecisive state = true) :
    (∃ author, ∃ state ∈ latestState author discussions, verdict state = true) ↔
      StandsLast verdict discussions := by
  constructor
  · intro ⟨author, state, hlatest, hverdict⟩
    exact ⟨author, state, standingState_of_latest hlatest (hdecisive state hverdict), hverdict,
      hlatest⟩
  · intro ⟨author, state, _, hverdict, hlatest⟩
    exact ⟨author, state, hlatest, hverdict⟩

theorem StandsLast.stands {verdict : String → Bool} (hlast : StandsLast verdict discussions) :
    Stands verdict discussions := by
  obtain ⟨author, state, hstanding, hverdict, _⟩ := hlast
  exact ⟨author, state, hstanding, hverdict⟩

theorem requestsChanges_decisive (state : String) (hverdict : requestsChanges state = true) :
    isDecisive state = true := by
  rw [isDecisive, hverdict, Bool.or_true, Bool.true_or]

theorem approves_decisive (state : String) (hverdict : approves state = true) :
    isDecisive state = true := by
  rw [isDecisive, hverdict, Bool.true_or, Bool.true_or]

/-! ### The decision -/

theorem reviewDecision_eq (discussions : List GitHubDiscussion) :
    reviewDecision discussions =
      if (keptStates discussions).any requestsChanges then some "changesRequested"
      else if (keptStates discussions).any approves then some "approved"
      else if keptStates discussions = [] then none
      else some "reviewRequired" :=
  rfl

/-- What the decision is made of: the verdicts that stand last. -/
theorem reviewDecision_eq_changesRequested (hordered : SubmissionOrder discussions) :
    reviewDecision discussions = some "changesRequested" ↔
      StandsLast requestsChanges discussions := by
  rw [← any_latest_iff requestsChanges_decisive, ← any_keptStates hordered, reviewDecision_eq]
  constructor
  · intro hdecision
    by_contra hnone
    rw [if_neg hnone] at hdecision
    split at hdecision
    · exact absurd (Option.some.inj hdecision) (by decide)
    · split at hdecision
      · cases hdecision
      · exact absurd (Option.some.inj hdecision) (by decide)
  · intro hany
    rw [if_pos hany]

theorem reviewDecision_eq_approved_iff (hordered : SubmissionOrder discussions) :
    reviewDecision discussions = some "approved" ↔
      ¬ StandsLast requestsChanges discussions ∧ StandsLast approves discussions := by
  rw [← any_latest_iff requestsChanges_decisive, ← any_latest_iff approves_decisive,
    ← any_keptStates hordered, ← any_keptStates hordered, reviewDecision_eq]
  constructor
  · intro hdecision
    split at hdecision
    case isTrue => exact absurd (Option.some.inj hdecision) (by decide)
    case isFalse hchanges =>
      refine ⟨hchanges, ?_⟩
      by_contra hnone
      rw [if_neg hnone] at hdecision
      split at hdecision
      · cases hdecision
      · exact absurd (Option.some.inj hdecision) (by decide)
  · intro ⟨hchanges, happroved⟩
    rw [if_neg hchanges, if_pos happroved]

/-- For reviews in submission order, the decision reflects the standing verdicts
exactly when comments have not taken the place of every verdict that decides. -/
theorem reviewDecision_reflects_iff (hordered : SubmissionOrder discussions) :
    ReflectsVerdicts (reviewDecision discussions) discussions ↔ VerdictsShow discussions := by
  constructor
  · intro ⟨hchanges, happroved⟩
    rw [reviewDecision_eq_changesRequested hordered] at hchanges
    rw [reviewDecision_eq_approved_iff hordered] at happroved
    exact ⟨hchanges.mpr, fun hnone hstands => (happroved.mpr ⟨hnone, hstands⟩).2⟩
  · intro ⟨hchanges, happroved⟩
    have hsame : StandsLast requestsChanges discussions ↔ Stands requestsChanges discussions :=
      ⟨StandsLast.stands, hchanges⟩
    constructor
    · rw [reviewDecision_eq_changesRequested hordered, hsame]
    · rw [reviewDecision_eq_approved_iff hordered, hsame]
      exact and_congr_right fun hnone => ⟨StandsLast.stands, happroved hnone⟩

end Fold

namespace VerdictSample

def review (author state submittedAt : String) : GitHubDiscussion where
  id := 1
  itemNumber := 7
  kind := "review"
  author
  state := some state
  updatedAt := some submittedAt

/-- A reviewer asks for changes and later comments. -/
def commented : List GitHubDiscussion :=
  [review "alice" "CHANGES_REQUESTED" "2026-07-13T09:00:00Z",
    review "alice" "COMMENTED" "2026-07-13T10:00:00Z"]

end VerdictSample

open VerdictSample in
/-- The comment clears the request for changes. -/
theorem comment_clears_changes_requested :
    SubmissionOrder commented ∧ standingState "alice" commented = some "CHANGES_REQUESTED" ∧
      ¬ ReflectsVerdicts (reviewDecision commented) commented := by
  have hstanding : standingState "alice" commented = some "CHANGES_REQUESTED" := by decide
  refine ⟨by decide, hstanding, fun hreflects => ?_⟩
  have hdecision := hreflects.changesRequested.mpr ⟨"alice", _, hstanding, by decide⟩
  exact absurd hdecision (by decide)

open VerdictSample in
theorem reviewDecision_reflects_iff_commented :
    ReflectsVerdicts (reviewDecision commented) commented ↔ VerdictsShow commented :=
  reviewDecision_reflects_iff (by decide)

end Patchwright
