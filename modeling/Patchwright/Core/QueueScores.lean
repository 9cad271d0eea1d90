import Patchwright.Core.Queue
import Patchwright.Library.Accumulation

/-!
# The range of queue scores

An assessment starts from the manual priority and adds to it: the gains of the
candidate and its preset, then a penalty for every open dependency, then the
gain of an overlap.  The score is a machine integer, and the values it takes on
the way fit into one for the priorities that leave room for these changes.
-/

namespace Patchwright

open Accumulation

namespace QueueScore

def pinChanges (candidate : QueueCandidate) : List Int :=
  if candidate.pinned then [2000] else []

/-- What the first tier that applies adds. -/
def tierChanges (candidate : QueueCandidate) (signals : Signals) : List Int :=
  if signals.security then [1000]
  else if signals.unknown then []
  else if signals.conflicts then [820]
  else if signals.failing then [800]
  else if signals.changesRequested then [700]
  else if candidate.draft then [400]
  else if signals.approved && signals.passing then [900]
  else [600]

/-- The preset is about the candidate. -/
def presetMatches (preset : WorkflowPreset) (candidate : QueueCandidate) (signals : Signals) :
    Bool :=
  match preset with
  | .quickWins => !candidate.draft && !signals.failing && !signals.conflicts
  | .ciRescue => signals.failing
  | .reviewClosure | .reviewLoadBalancing => signals.changesRequested
  | .conflictRecovery => signals.conflicts
  | .dependencyChain => !candidate.dependencyNumbers.isEmpty
  | .securityFirst => signals.security
  | .releaseTrain => candidate.labels.any (· = "release")
  | .stalePullRequestTriage => signals.stale
  | .draftCompletion => candidate.draft
  | .postMergeWatch => candidate.labels.any (· = "post-merge")
  | .duplicateOverlapDetection => !candidate.changedPaths.isEmpty

def presetChanges (preset : WorkflowPreset) (candidate : QueueCandidate) (signals : Signals) :
    List Int :=
  if presetMatches preset candidate signals then [250] else []

/-- The dependencies that are open, as often as they are listed. -/
def blockers (candidate : QueueCandidate) (identities : List (String × Nat)) : List Nat :=
  candidate.dependencyNumbers.filter fun dependency =>
    (candidate.repositoryFullName, dependency) ∈ identities

def overlapChanges (preset : WorkflowPreset) (path : Option String) : List Int :=
  match path with
  | some _ => if preset = .duplicateOverlapDetection then [300] else []
  | none => []

/-- One change of the score. -/
def add (score : Int64) (change : Int) : Int64 := score + Int64.ofInt change

section Assessment

variable (candidate : QueueCandidate) (preset : WorkflowPreset) (now : DateTime)
  (candidates : List QueueCandidate)

def gains : List Int :=
  pinChanges candidate ++ tierChanges candidate (candidate.signals now) ++
    presetChanges preset candidate (candidate.signals now)

def penalties : List Int :=
  (blockers candidate (candidates.map QueueCandidate.identity)).map fun _ => -500

/-- The changes an assessment makes to the score, in their order. -/
def changes : List Int :=
  gains candidate preset now ++ penalties candidate candidates ++
    overlapChanges preset (overlappingPath candidate candidates)

def start : Int64 := candidate.manualPriority.getD 0

/-- The values the score takes while the candidate is assessed. -/
def scores : List Int := values (changes candidate preset now candidates) (start candidate).toInt

theorem priority_score :
    candidate.priority.1 = (pinChanges candidate).foldl add (start candidate) := by
  rw [QueueCandidate.priority, pinChanges]
  split <;> rfl

theorem tiered_score (signals : Signals) : (candidate.tiered signals).score =
    (tierChanges candidate signals).foldl add candidate.priority.1 := by
  rw [QueueCandidate.tiered, tierChanges]
  split_ifs <;> rfl

theorem markStale_score (assessment : Assessment) (stale : Bool) :
    (assessment.markStale stale).score = assessment.score := by
  rw [Assessment.markStale]
  split <;> rfl

theorem applyPreset_score (signals : Signals) (assessment : Assessment) :
    (applyPreset preset candidate signals assessment).score =
      (presetChanges preset candidate signals).foldl add assessment.score := by
  change (if presetMatches preset candidate signals then _ else _ : Assessment).score = _
  rw [presetChanges]
  split <;> rfl

theorem dependOn_score (identities : List (String × Nat)) (assessment : Assessment) :
    (candidate.dependencyNumbers.foldl
      (Assessment.dependOn identities candidate.repositoryFullName) assessment).score =
      ((blockers candidate identities).map fun _ => (-500 : Int)).foldl add assessment.score := by
  rw [blockers]
  induction candidate.dependencyNumbers generalizing assessment with
  | nil => rfl
  | cons dependency dependencies ih =>
      rw [List.foldl_cons, ih, List.filter_cons, Assessment.dependOn]
      by_cases hopen : (candidate.repositoryFullName, dependency) ∈ identities
      · rw [if_pos hopen, if_pos (decide_eq_true hopen), List.map_cons, List.foldl_cons, add,
          Int64.sub_eq_add_neg]
        rfl
      · rw [if_neg hopen, if_neg (by rw [decide_eq_true_eq]; exact hopen)]

theorem overlap_score (path : Option String) (assessment : Assessment) :
    (assessment.overlap preset path).score =
      (overlapChanges preset path).foldl add assessment.score := by
  cases path with
  | none => rfl
  | some path =>
      rw [Assessment.overlap, overlapChanges]
      dsimp only
      split <;> rfl

/-- The score of the assessment is its start with the changes added to it. -/
theorem assessCandidate_score [Sha256] :
    (assessCandidate candidate preset now (candidates.map QueueCandidate.identity)
      candidates).score =
      (changes candidate preset now candidates).foldl add (start candidate) := by
  change ((assessAlone candidate preset now (candidates.map QueueCandidate.identity)).overlap
    preset (overlappingPath candidate candidates)).score = _
  rw [overlap_score, assessAlone, dependOn_score, applyPreset_score, markStale_score, tiered_score,
    priority_score, changes, gains, penalties, List.foldl_append, List.foldl_append,
    List.foldl_append, List.foldl_append]

end Assessment

/-! ## Scores that fit -/

/-- The value is one of a 64-bit integer. -/
def Fits (value : Int) : Prop := -2 ^ 63 ≤ value ∧ value ≤ 2 ^ 63 - 1

theorem fits_toInt (score : Int64) : Fits score.toInt := by
  have hlow := score.le_toInt
  have hhigh := score.toInt_lt
  rw [Fits]
  omega

/-- Where every value fits, the machine computes the sum. -/
theorem toInt_foldl_add {changes : List Int} {score : Int64}
    (hfits : ∀ value ∈ values changes score.toInt, Fits value) :
    (changes.foldl add score).toInt = score.toInt + changes.sum := by
  induction changes generalizing score with
  | nil => rw [List.foldl_nil, List.sum_nil, add_zero]
  | cons change changes ih =>
      rw [values_cons, List.forall_mem_cons] at hfits
      obtain ⟨_, hrest⟩ := hfits
      have hnext := hrest _ (start_mem_values changes _)
      have hadd : (add score change).toInt = score.toInt + change := by
        have hsize : (Int64.size : Int) = 2 ^ 64 := rfl
        rw [Fits] at hnext
        rw [add, Int64.toInt_add, Int64.toInt_ofInt, Int.add_bmod_bmod, Int.bmod_eq_of_le]
        · omega
        · omega
      rw [List.foldl_cons, ih (by rwa [hadd]), hadd, List.sum_cons, add_assoc]

section Range

variable (candidate : QueueCandidate) (preset : WorkflowPreset) (now : DateTime)
  (candidates : List QueueCandidate)

/-- The manual priority leaves room for the gains of the candidate above it, for
its penalties below, and for the gain of an overlap after them. -/
structure Roomy : Prop where
  gains : (start candidate).toInt + (gains candidate preset now).sum ≤ 2 ^ 63 - 1
  penalties : -2 ^ 63 ≤ (start candidate).toInt + (QueueScore.gains candidate preset now).sum -
    500 * (blockers candidate (candidates.map QueueCandidate.identity)).length
  overlap : (start candidate).toInt + (QueueScore.gains candidate preset now).sum -
    500 * (blockers candidate (candidates.map QueueCandidate.identity)).length +
      (overlapChanges preset (overlappingPath candidate candidates)).sum ≤ 2 ^ 63 - 1

theorem gains_nonneg : ∀ change ∈ gains candidate preset now, 0 ≤ change := by
  have hpin : ∀ change ∈ pinChanges candidate, 0 ≤ change := by
    rw [pinChanges]
    split <;> decide
  have htier : ∀ change ∈ tierChanges candidate (candidate.signals now), 0 ≤ change := by
    rw [tierChanges]
    split_ifs <;> decide
  have hpreset : ∀ change ∈ presetChanges preset candidate (candidate.signals now),
      0 ≤ change := by
    rw [presetChanges]
    split <;> decide
  exact List.forall_mem_append.mpr ⟨List.forall_mem_append.mpr ⟨hpin, htier⟩, hpreset⟩

theorem penalties_nonpos : ∀ change ∈ penalties candidate candidates, change ≤ 0 := by
  intro change hmem
  obtain ⟨_, _, rfl⟩ := List.mem_map.mp hmem
  decide

theorem penalties_sum : (penalties candidate candidates).sum =
    -(500 * (blockers candidate (candidates.map QueueCandidate.identity)).length) := by
  rw [penalties, List.map_const', List.sum_replicate, nsmul_eq_mul]
  omega

theorem overlapChanges_nonneg (path : Option String) :
    ∀ change ∈ overlapChanges preset path, 0 ≤ change := by
  cases path with
  | none => exact fun _ hmem => absurd hmem List.not_mem_nil
  | some path =>
      rw [overlapChanges]
      split <;> decide

/-- The score fits at every step exactly when the priority leaves room. -/
theorem scores_fit_iff : (∀ value ∈ scores candidate preset now candidates, Fits value) ↔
    Roomy candidate preset now candidates := by
  have hstart := fits_toInt (start candidate)
  have hsum := penalties_sum candidate candidates
  have hraise := gains_nonneg candidate preset now
  have hlower := penalties_nonpos candidate candidates
  have hend := overlapChanges_nonneg preset (overlappingPath candidate candidates)
  simp only [scores, changes, Fits, forall_values_append, List.sum_append]
  constructor
  · rintro ⟨⟨hgains, hpenalties⟩, hoverlap⟩
    have hhigh := (values_le_iff hraise hstart.1).mp hgains
    have hlow := (le_values_iff hlower hhigh).mp hpenalties
    rw [← add_assoc] at hoverlap
    have hlast := (values_le_iff hend hlow).mp hoverlap
    exact ⟨hhigh, by omega, by omega⟩
  · rintro ⟨hhigh, hpenalties, hoverlap⟩
    have hlow : -2 ^ 63 ≤ (start candidate).toInt + (gains candidate preset now).sum +
        (penalties candidate candidates).sum := by omega
    refine ⟨⟨(values_le_iff hraise hstart.1).mpr hhigh, (le_values_iff hlower hhigh).mpr hlow⟩, ?_⟩
    rw [← add_assoc]
    exact (values_le_iff hend hlow).mpr (by omega)

/-- A priority with room is assessed to the sum of the changes. -/
theorem assessCandidate_toInt [Sha256] (hroomy : Roomy candidate preset now candidates) :
    (assessCandidate candidate preset now (candidates.map QueueCandidate.identity)
      candidates).score.toInt =
      (start candidate).toInt + (changes candidate preset now candidates).sum := by
  rw [assessCandidate_score]
  exact toInt_foldl_add ((scores_fit_iff candidate preset now candidates).mpr hroomy)

end Range

/-- No score of an assessed list overflows exactly when every priority leaves
room. -/
theorem scores_fit_all_iff (candidates : List QueueCandidate) (preset : WorkflowPreset)
    (now : DateTime) :
    (∀ candidate ∈ candidates, ∀ value ∈ scores candidate preset now candidates, Fits value) ↔
      ∀ candidate ∈ candidates, Roomy candidate preset now candidates :=
  forall₂_congr fun candidate _ => scores_fit_iff candidate preset now candidates

/-- A pinned candidate with the greatest priority. -/
def pinnedSample : QueueCandidate where
  repositoryFullName := "octo/demo"
  number := 7
  title := "Fix the parser"
  draft := false
  ciHealth := none
  reviewDecision := none
  hasConflicts := none
  updatedAt := 0
  labels := []
  dependencyNumbers := []
  changedPaths := []
  manualPriority := some (Int64.ofInt (2 ^ 63 - 1))
  pinned := true

theorem pinnedSample_overflows : validateCandidates [pinnedSample] = .ok () ∧
    ∃ value ∈ scores pinnedSample .quickWins 0 [pinnedSample], ¬ Fits value := by
  refine ⟨by decide, 2 ^ 63 - 1 + 2000, ?_, ?_⟩
  · decide
  · rw [Fits]
    omega

end QueueScore

end Patchwright
