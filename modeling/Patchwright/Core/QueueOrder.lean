import Mathlib
import Patchwright.Core.Queue

/-!
# Queue order

Which lists of candidates are assessed alike in every order.  The decisions are
sorted by a total order and an assessment takes the other candidates as a set,
except in one place: the path named in the overlap reason is the first one that
a search through the list finds.
-/

namespace Patchwright

open Checked

namespace QueueDecision

instance : Std.TransCmp order :=
  inferInstanceAs (Std.TransCmp (compareLex (compareOn fun decision => decision.tier.rank)
    (compareLex (fun left right => compareOn QueueDecision.score right left)
      (compareLex (compareOn QueueDecision.repositoryFullName)
        (compareOn QueueDecision.number)))))

/-- Decisions with the same place in the order are about one pull request. -/
theorem identity_eq_of_order {left right : QueueDecision} (horder : left.order right = .eq) :
    left.repositoryFullName = right.repositoryFullName ∧ left.number = right.number := by
  simp only [order, Ordering.then_eq_eq, Std.compare_eq_iff_eq] at horder
  exact horder.2.2

end QueueDecision

/-- The first path of another pull request of the repository that the candidate
changes too. -/
def sharedPath (candidate other : QueueCandidate) : Option String :=
  if other.number ≠ candidate.number ∧
      other.repositoryFullName = candidate.repositoryFullName then
    other.changedPaths.find? fun path => path ∈ candidate.changedPaths
  else none

theorem overlappingPath_eq (candidate : QueueCandidate) (candidates : List QueueCandidate) :
    overlappingPath candidate candidates = candidates.findSome? (sharedPath candidate) := by
  rw [overlappingPath, List.find?_flatMap]
  induction candidates with
  | nil => rfl
  | cons other candidates ih =>
      rw [List.findSome?_cons, ← ih, sharedPath]
      by_cases hother : other.number ≠ candidate.number ∧
          other.repositoryFullName = candidate.repositoryFullName
      · rw [List.filter_cons_of_pos (by simpa using hother), List.findSome?_cons,
          if_pos hother]
      · rw [List.filter_cons_of_neg (by simpa using hother), if_neg hother]

/-- All the pull requests that overlap a candidate share the same first path
with it. -/
def SharedPathsAgree (candidates : List QueueCandidate) : Prop :=
  ∀ candidate ∈ candidates, ∀ first ∈ candidates, ∀ second ∈ candidates,
    ∀ path ∈ sharedPath candidate first, ∀ other ∈ sharedPath candidate second, path = other

section Reordering

variable {candidates shuffled : List QueueCandidate}

theorem validateCandidates_of_perm (hperm : shuffled.Perm candidates)
    (hvalid : validateCandidates candidates = .ok ()) :
    validateCandidates shuffled = .ok () := by
  rw [validateCandidates_eq_ok] at hvalid ⊢
  refine ⟨fun candidate hmem => hvalid.1 candidate (hperm.mem_iff.mp hmem), ?_⟩
  exact (hperm.map QueueCandidate.identity).nodup_iff.mpr hvalid.2

theorem assessAlone_of_perm (hperm : shuffled.Perm candidates) (candidate : QueueCandidate)
    (preset : WorkflowPreset) (now : DateTime) :
    assessAlone candidate preset now (shuffled.map QueueCandidate.identity) =
      assessAlone candidate preset now (candidates.map QueueCandidate.identity) := by
  have hdepend : Assessment.dependOn (shuffled.map QueueCandidate.identity) =
      Assessment.dependOn (candidates.map QueueCandidate.identity) := by
    funext repository assessment dependency
    simp only [Assessment.dependOn, (hperm.map QueueCandidate.identity).mem_iff]
  rw [assessAlone, assessAlone, hdepend]

theorem overlappingPath_of_perm (hagree : SharedPathsAgree candidates)
    (hperm : shuffled.Perm candidates) {candidate : QueueCandidate}
    (hmem : candidate ∈ candidates) :
    overlappingPath candidate shuffled = overlappingPath candidate candidates := by
  rw [overlappingPath_eq, overlappingPath_eq]
  exact Sorting.findSome?_eq_of_perm (hagree candidate hmem) hperm

variable [Sha256] {preset : WorkflowPreset} {now : DateTime} {decisions : List QueueDecision}

theorem assessQueue_eq_ok :
    assessQueue candidates preset now = .ok decisions ↔
      validateCandidates candidates = .ok () ∧
        Sorting.sortBy QueueDecision.order (candidates.map fun candidate =>
          assessCandidate candidate preset now (candidates.map QueueCandidate.identity)
            candidates) = decisions := by
  simp only [assessQueue, bind_eq_ok, pure_eq_ok]
  constructor
  · rintro ⟨_, hdecisions⟩
    exact hdecisions
  · intro hdecisions
    exact ⟨(), hdecisions⟩

/-- One decision is made about each pull request of an accepted list. -/
theorem eq_of_mem_decisions (hdecisions : assessQueue candidates preset now = .ok decisions)
    {candidate : QueueCandidate} (hmem : candidate ∈ candidates) {decision : QueueDecision}
    (hdecision : decision ∈ decisions)
    (hidentity : (decision.repositoryFullName, decision.number) = candidate.identity) :
    decision = assessCandidate candidate preset now
      (candidates.map QueueCandidate.identity) candidates := by
  obtain ⟨hvalid, hsorted⟩ := assessQueue_eq_ok.1 hdecisions
  have hnodup := (validateCandidates_eq_ok.1 hvalid).2
  rw [← hsorted, Sorting.mem_sortBy] at hdecision
  obtain ⟨other, hother, rfl⟩ := List.mem_map.mp hdecision
  rw [List.inj_on_of_nodup_map hnodup hother hmem hidentity]

theorem decisions_distinguished (hnodup : (candidates.map QueueCandidate.identity).Nodup) :
    Sorting.Distinguishes QueueDecision.order (candidates.map fun candidate =>
      assessCandidate candidate preset now (candidates.map QueueCandidate.identity)
        candidates) := by
  intro left hleft right hright horder
  obtain ⟨first, hfirst, rfl⟩ := List.mem_map.mp hleft
  obtain ⟨second, hsecond, rfl⟩ := List.mem_map.mp hright
  have hidentity : first.identity = second.identity := by
    obtain ⟨hname, hnumber⟩ := QueueDecision.identity_eq_of_order horder
    exact Prod.ext hname hnumber
  rw [List.inj_on_of_nodup_map hnodup hfirst hsecond hidentity]

/-- Where the shared paths agree, every order of the list is assessed alike. -/
theorem assessQueue_of_perm (hagree : SharedPathsAgree candidates)
    (hdecisions : assessQueue candidates preset now = .ok decisions)
    (hperm : shuffled.Perm candidates) : assessQueue shuffled preset now = .ok decisions := by
  obtain ⟨hvalid, hsorted⟩ := assessQueue_eq_ok.1 hdecisions
  apply assessQueue_eq_ok.2
  refine ⟨validateCandidates_of_perm hperm hvalid, ?_⟩
  have hsame : (shuffled.map fun candidate => assessCandidate candidate preset now
        (shuffled.map QueueCandidate.identity) shuffled) =
      shuffled.map fun candidate => assessCandidate candidate preset now
        (candidates.map QueueCandidate.identity) candidates := by
    apply List.map_congr_left
    intro candidate hmem
    rw [assessCandidate, assessCandidate, assessAlone_of_perm hperm,
      overlappingPath_of_perm hagree hperm (hperm.mem_iff.mp hmem)]
  rw [hsame, ← hsorted]
  apply Sorting.sortBy_eq_of_perm
  · exact decisions_distinguished (validateCandidates_eq_ok.1 hvalid).2
  · exact hperm.map _

/-- A pull request that comes first is named in the reason of every candidate it
shares a path with. -/
theorem reasons_of_first {candidate other : QueueCandidate} {path : String}
    (hpath : path ∈ sharedPath candidate other) (rest : List QueueCandidate)
    (identities : List (String × Nat)) :
    (assessCandidate candidate preset now identities (other :: rest)).reasons =
      (assessAlone candidate preset now identities).reasons ++
        ["Overlaps another open PR at " ++ path] := by
  have hfirst : overlappingPath candidate (other :: rest) = some path := by
    rw [overlappingPath_eq, List.findSome?_cons, hpath]
  rw [assessCandidate, hfirst]
  rfl

/-- The reason written for a candidate when another pull request comes first. -/
theorem reasons_moved (hstable : ∀ shuffled, shuffled.Perm candidates →
      assessQueue shuffled preset now = .ok decisions)
    {candidate other : QueueCandidate} (hcandidate : candidate ∈ candidates)
    (hother : other ∈ candidates) {path : String} (hpath : path ∈ sharedPath candidate other)
    {decision : QueueDecision} (hdecision : decision ∈ decisions)
    (hidentity : (decision.repositoryFullName, decision.number) = candidate.identity) :
    decision.reasons =
      (assessAlone candidate preset now (candidates.map QueueCandidate.identity)).reasons ++
        ["Overlaps another open PR at " ++ path] := by
  have hperm : (other :: candidates.erase other).Perm candidates :=
    (List.perm_cons_erase hother).symm
  rw [eq_of_mem_decisions (hstable _ hperm) (hperm.mem_iff.mpr hcandidate) hdecision hidentity,
    reasons_of_first hpath, assessAlone_of_perm hperm]

/-- A list that is assessed alike in every order has shared paths that agree. -/
theorem sharedPathsAgree_of_stable (hstable : ∀ shuffled, shuffled.Perm candidates →
      assessQueue shuffled preset now = .ok decisions) : SharedPathsAgree candidates := by
  intro candidate hcandidate first hfirst second hsecond path hpath other hother
  obtain ⟨_, hsorted⟩ := assessQueue_eq_ok.1 (hstable candidates (List.Perm.refl _))
  have hdecision : assessCandidate candidate preset now
      (candidates.map QueueCandidate.identity) candidates ∈ decisions := by
    rw [← hsorted, Sorting.mem_sortBy]
    exact List.mem_map_of_mem hcandidate
  have hreasons :
      (assessAlone candidate preset now (candidates.map QueueCandidate.identity)).reasons ++
          ["Overlaps another open PR at " ++ path] =
        (assessAlone candidate preset now (candidates.map QueueCandidate.identity)).reasons ++
          ["Overlaps another open PR at " ++ other] := by
    rw [← reasons_moved hstable hcandidate hfirst hpath hdecision rfl,
      ← reasons_moved hstable hcandidate hsecond hother hdecision rfl]
  have htext := List.cons.inj (List.append_cancel_left hreasons)
  exact String.append_right_inj _ |>.mp htext.1

/-- The assessment of an accepted list is the same in every order exactly when
the pull requests that overlap a candidate share the same first path with it. -/
theorem assessQueue_stable_iff
    (hdecisions : assessQueue candidates preset now = .ok decisions) :
    (∀ shuffled, shuffled.Perm candidates →
      assessQueue shuffled preset now = .ok decisions) ↔ SharedPathsAgree candidates :=
  ⟨sharedPathsAgree_of_stable, fun hagree _ hperm =>
    assessQueue_of_perm hagree hdecisions hperm⟩

end Reordering

namespace QueueSample

scoped instance queueSha256 : Sha256 where
  digest _ := 0

/-- An approved pull request that changes some paths. -/
def pullRequest (number : Nat) (changedPaths : List String) : QueueCandidate where
  repositoryFullName := "octo/fixture"
  number
  title := "PR"
  draft := false
  ciHealth := some "passing"
  reviewDecision := some "approved"
  hasConflicts := some false
  updatedAt := 0
  labels := []
  dependencyNumbers := []
  changedPaths
  manualPriority := none
  pinned := false

/-- One pull request that overlaps two others on different paths. -/
def contested : List QueueCandidate :=
  [pullRequest 1 ["a.rs", "b.rs"], pullRequest 2 ["a.rs"], pullRequest 3 ["b.rs"]]

def reordered : List QueueCandidate :=
  [pullRequest 1 ["a.rs", "b.rs"], pullRequest 3 ["b.rs"], pullRequest 2 ["a.rs"]]

theorem validate_contested : validateCandidates contested = .ok () := rfl

theorem contested_disagrees : ¬ SharedPathsAgree contested := by
  intro hagree
  have hpaths := hagree (pullRequest 1 ["a.rs", "b.rs"]) (by decide)
    (pullRequest 2 ["a.rs"]) (by decide) (pullRequest 3 ["b.rs"]) (by decide)
    "a.rs" rfl "b.rs" rfl
  exact absurd hpaths (by decide)

end QueueSample

open QueueSample in
/-- The pull requests 2 and 3 in the other order change the reason written for
pull request 1. -/
theorem overlap_reason_reordered :
    reordered.Perm contested ∧
      ∃ decisions, assessQueue contested .quickWins 0 = .ok decisions ∧
        assessQueue reordered .quickWins 0 ≠ .ok decisions := by
  have hperm : reordered.Perm contested := .cons _ (.swap _ _ _)
  refine ⟨hperm, _, assessQueue_eq_ok.2 ⟨validate_contested, rfl⟩, fun hsame => ?_⟩
  have hmem : pullRequest 1 ["a.rs", "b.rs"] ∈ contested := List.mem_cons_self
  have hdecision := eq_of_mem_decisions hsame (hperm.mem_iff.mpr hmem)
    (Sorting.mem_sortBy.2 (List.mem_map_of_mem hmem)) rfl
  exact absurd (congrArg QueueDecision.reasons hdecision) (by decide)

open QueueSample in
theorem assessQueue_stable_iff_contested :
    ∃ decisions, assessQueue contested .quickWins 0 = .ok decisions ∧
      ((∀ shuffled, shuffled.Perm contested →
        assessQueue shuffled .quickWins 0 = .ok decisions) ↔ SharedPathsAgree contested) := by
  have hdecisions : assessQueue contested .quickWins 0 = .ok _ :=
    assessQueue_eq_ok.2 ⟨validate_contested, rfl⟩
  exact ⟨_, hdecisions, assessQueue_stable_iff hdecisions⟩

end Patchwright
