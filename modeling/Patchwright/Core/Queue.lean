import Mathlib
import Patchwright.Core.Rfc3339
import Patchwright.Library.Checked
import Patchwright.Library.Membership
import Patchwright.Library.Sorting

/-!
# The pull request queue

Queue candidates are validated as one list, each is assessed under a workflow
preset, and the decisions are sorted by tier, score, repository and number.  An
assessment looks at the other candidates for two things: the dependencies that
are still open, and another pull request of the repository that changes a path
of this one.
-/

namespace Patchwright

inductive WorkflowPreset where
  | quickWins
  | ciRescue
  | reviewClosure
  | conflictRecovery
  | dependencyChain
  | securityFirst
  | releaseTrain
  | stalePullRequestTriage
  | draftCompletion
  | postMergeWatch
  | reviewLoadBalancing
  | duplicateOverlapDetection
  deriving DecidableEq, Repr

namespace WorkflowPreset

/-- The preset in a serialized value. -/
def wireName : WorkflowPreset → String
  | quickWins => "quickWins"
  | ciRescue => "ciRescue"
  | reviewClosure => "reviewClosure"
  | conflictRecovery => "conflictRecovery"
  | dependencyChain => "dependencyChain"
  | securityFirst => "securityFirst"
  | releaseTrain => "releaseTrain"
  | stalePullRequestTriage => "stalePullRequestTriage"
  | draftCompletion => "draftCompletion"
  | postMergeWatch => "postMergeWatch"
  | reviewLoadBalancing => "reviewLoadBalancing"
  | duplicateOverlapDetection => "duplicateOverlapDetection"

def presetName : WorkflowPreset → String
  | quickWins => "Quick Wins"
  | ciRescue => "CI Rescue"
  | reviewClosure => "Review Closure"
  | conflictRecovery => "Conflict Recovery"
  | dependencyChain => "Dependency Chain"
  | securityFirst => "Security First"
  | releaseTrain => "Release Train"
  | stalePullRequestTriage => "Stale PR Triage"
  | draftCompletion => "Draft Completion"
  | postMergeWatch => "Post-Merge Watch"
  | reviewLoadBalancing => "Review Load Balancing"
  | duplicateOverlapDetection => "Duplicate/Overlap Detection"

end WorkflowPreset

inductive QueueTier where
  | critical
  | ready
  | repair
  | review
  | draft
  | stale
  | blocked
  deriving DecidableEq, Repr

/-- The place of a tier in the declared order. -/
def QueueTier.rank : QueueTier → Nat
  | critical => 0
  | ready => 1
  | repair => 2
  | review => 3
  | draft => 4
  | stale => 5
  | blocked => 6

structure QueueCandidate where
  repositoryFullName : String
  number : Nat
  title : String
  draft : Bool
  ciHealth : Option String
  reviewDecision : Option String
  hasConflicts : Option Bool
  updatedAt : DateTime
  labels : List String
  dependencyNumbers : List Nat
  changedPaths : List String
  manualPriority : Option Int64
  pinned : Bool
  deriving DecidableEq

structure QueueDecision where
  repositoryFullName : String
  number : Nat
  tier : QueueTier
  score : Int64
  reasons : List String
  decisionInputSha256 : String
  deriving DecidableEq

inductive QueueError where
  | invalidCandidate
  deriving DecidableEq, Repr

namespace QueueCandidate

/-- What tells one candidate from another. -/
def identity (candidate : QueueCandidate) : String × Nat :=
  (candidate.repositoryFullName, candidate.number)

/-- An instant as a serializer writes it, of any year. -/
def serializedInstant (instant : DateTime) : String :=
  let year := civilYear instant
  if year < 0 then
    "-" ++ padLeft 4 (-year).toNat ++ String.ofList ((toRfc3339Z instant).toList.drop 4)
  else if year ≤ 9999 then toRfc3339Z instant
  else "+" ++ toRfc3339Z instant

def toJson (candidate : QueueCandidate) : Json :=
  .obj [("repositoryFullName", .str candidate.repositoryFullName),
    ("number", .int candidate.number),
    ("title", .str candidate.title),
    ("draft", .bool candidate.draft),
    ("ciHealth", .ofOption .str candidate.ciHealth),
    ("reviewDecision", .ofOption .str candidate.reviewDecision),
    ("hasConflicts", .ofOption .bool candidate.hasConflicts),
    ("updatedAt", .str (serializedInstant candidate.updatedAt)),
    ("labels", .arr (candidate.labels.map .str)),
    ("dependencyNumbers", .arr (candidate.dependencyNumbers.map fun number => .int number)),
    ("changedPaths", .arr (candidate.changedPaths.map .str)),
    ("manualPriority", .ofOption (fun priority => .int priority.toInt) candidate.manualPriority),
    ("pinned", .bool candidate.pinned)]

end QueueCandidate

/-! ## Validation -/

/-- A changed path that no repository has. -/
def invalidPath (path : String) : Bool :=
  path.isEmpty || path.toList.head? = some '/' || ['.', '.'] <:+: path.toList ||
    '\x00' ∈ path.toList

/-- The checks on the candidates that are left, with the identities seen. -/
def validateFrom (identities : List (String × Nat)) :
    List QueueCandidate → Except QueueError Unit
  | [] => .ok ()
  | candidate :: candidates =>
      if candidate.number = 0 ∨ (splitOnce candidate.repositoryFullName '/').isNone ∨
          trim candidate.title = "" ∨ candidate.identity ∈ identities ∨
          candidate.number ∈ candidate.dependencyNumbers ∨
          candidate.changedPaths.any invalidPath then
        .error .invalidCandidate
      else validateFrom (candidate.identity :: identities) candidates

def validateCandidates (candidates : List QueueCandidate) : Except QueueError Unit :=
  validateFrom [] candidates

/-- What the validation asks of a candidate by itself. -/
structure QueueCandidate.Admissible (candidate : QueueCandidate) : Prop where
  number_ne_zero : candidate.number ≠ 0
  qualified : (splitOnce candidate.repositoryFullName '/').isSome
  titled : trim candidate.title ≠ ""
  independent : candidate.number ∉ candidate.dependencyNumbers
  paths : ∀ path ∈ candidate.changedPaths, invalidPath path = false

theorem validateFrom_eq_ok {identities : List (String × Nat)}
    {candidates : List QueueCandidate} {result : Unit} :
    validateFrom identities candidates = .ok result ↔
      (∀ candidate ∈ candidates, candidate.Admissible) ∧
        (candidates.map QueueCandidate.identity).Nodup ∧
        ∀ candidate ∈ candidates, candidate.identity ∉ identities := by
  induction candidates generalizing identities with
  | nil => simp [validateFrom]
  | cons candidate candidates ih =>
      rw [validateFrom]
      split
      case isTrue hinvalid =>
        constructor
        · intro h
          cases h
        · intro ⟨hadmissible, _, hfresh⟩
          have hown := hadmissible candidate List.mem_cons_self
          have hseen := hfresh candidate List.mem_cons_self
          rcases hinvalid with h | h | h | h | h | h
          · exact absurd h hown.number_ne_zero
          · exact absurd hown.qualified (by rw [Option.isSome_iff_ne_none, Option.isNone_iff_eq_none.mp h]; simp)
          · exact absurd h hown.titled
          · exact absurd h hseen
          · exact absurd h hown.independent
          · obtain ⟨path, hpath, hbad⟩ := List.any_eq_true.mp h
            rw [hown.paths path hpath] at hbad
            cases hbad
      case isFalse hvalid =>
        simp only [not_or] at hvalid
        obtain ⟨hnumber, hname, htitle, hseen, hdependency, hpaths⟩ := hvalid
        have hown : candidate.Admissible :=
          { number_ne_zero := hnumber
            qualified := by simpa [Option.isSome_iff_ne_none] using hname
            titled := htitle
            independent := hdependency
            paths := by simpa using hpaths }
        rw [ih, List.map_cons, List.nodup_cons, List.forall_mem_cons, List.forall_mem_cons]
        constructor
        · intro ⟨hadmissible, hnodup, hfresh⟩
          refine ⟨⟨hown, hadmissible⟩, ⟨?_, hnodup⟩, hseen, ?_⟩
          · intro hmem
            obtain ⟨other, hother, hsame⟩ := List.mem_map.mp hmem
            exact hfresh other hother (hsame ▸ List.mem_cons_self)
          · exact fun other hother hmem => hfresh other hother (List.mem_cons_of_mem _ hmem)
        · intro ⟨⟨_, hadmissible⟩, ⟨hnew, hnodup⟩, _, hfresh⟩
          refine ⟨hadmissible, hnodup, fun other hother hmem => ?_⟩
          rcases List.mem_cons.mp hmem with hsame | hmem
          · exact hnew (hsame ▸ List.mem_map_of_mem hother)
          · exact hfresh other hother hmem

/-- A list is accepted when each candidate is admissible and none is repeated. -/
theorem validateCandidates_eq_ok {candidates : List QueueCandidate} {result : Unit} :
    validateCandidates candidates = .ok result ↔
      (∀ candidate ∈ candidates, candidate.Admissible) ∧
        (candidates.map QueueCandidate.identity).Nodup := by
  rw [validateCandidates, validateFrom_eq_ok]
  simp

/-! ## Assessment -/

/-- The tier, score and reasons as an assessment builds them up. -/
structure Assessment where
  tier : QueueTier
  score : Int64
  reasons : List String

/-- What the assessment reads off the candidate itself and the clock. -/
structure Signals where
  security : Bool
  unknown : Bool
  stale : Bool
  failing : Bool
  changesRequested : Bool
  conflicts : Bool
  approved : Bool
  passing : Bool

namespace QueueCandidate

def signals (candidate : QueueCandidate) (now : DateTime) : Signals where
  security := candidate.labels.any fun label =>
    String.ofList (toAsciiLowercase label.toList) ∈ ["security", "vulnerability", "cve"]
  unknown := candidate.ciHealth.isNone || candidate.reviewDecision.isNone ||
    candidate.hasConflicts.isNone
  stale := now - candidate.updatedAt ≥ days 30
  failing := candidate.ciHealth = some "failing" || candidate.ciHealth = some "failure"
  changesRequested := candidate.reviewDecision = some "changesRequested" ||
    candidate.reviewDecision = some "changes_requested"
  conflicts := candidate.hasConflicts = some true
  approved := candidate.reviewDecision = some "approved"
  passing := candidate.ciHealth = some "passing" || candidate.ciHealth = some "success"

/-- The score and the reasons before a tier is chosen. -/
def priority (candidate : QueueCandidate) : Int64 × List String :=
  let score := candidate.manualPriority.getD 0
  if candidate.pinned then (score + 2000, ["Manually pinned"]) else (score, [])

/-- The first tier that applies. -/
def tiered (candidate : QueueCandidate) (signals : Signals) : Assessment :=
  let (score, reasons) := candidate.priority
  if signals.security then
    ⟨.critical, score + 1000, reasons ++ ["Security-sensitive change"]⟩
  else if signals.unknown then
    ⟨.blocked, score, reasons ++ ["Unknown CI, review, or mergeability state"]⟩
  else if signals.conflicts then
    ⟨.repair, score + 820, reasons ++ ["Conflict recovery required"]⟩
  else if signals.failing then
    ⟨.repair, score + 800, reasons ++ ["CI is failing"]⟩
  else if signals.changesRequested then
    ⟨.review, score + 700, reasons ++ ["Requested review changes remain"]⟩
  else if candidate.draft then
    ⟨.draft, score + 400, reasons ++ ["Draft completion required"]⟩
  else if signals.approved && signals.passing then
    ⟨.ready, score + 900, reasons ++ ["Approved with passing CI"]⟩
  else
    ⟨.review, score + 600, reasons ++ ["Awaiting review closure"]⟩

end QueueCandidate

def Assessment.markStale (assessment : Assessment) (stale : Bool) : Assessment :=
  if stale then
    { assessment with
      tier := if assessment.tier ≠ .blocked then .stale else assessment.tier
      reasons := assessment.reasons ++ ["Stale for at least 30 days"] }
  else assessment

/-- A preset adds to the score of the candidates it is about. -/
def applyPreset (preset : WorkflowPreset) (candidate : QueueCandidate) (signals : Signals)
    (assessment : Assessment) : Assessment :=
  let matched := match preset with
    | .quickWins => !candidate.draft && !signals.failing && !signals.conflicts
    | .ciRescue => signals.failing
    | .reviewClosure | .reviewLoadBalancing => signals.changesRequested
    | .conflictRecovery => signals.conflicts
    | .dependencyChain => !candidate.dependencyNumbers.isEmpty
    | .securityFirst => signals.security
    | .releaseTrain => candidate.labels.any (· = "release")
    | .stalePullRequestTriage => signals.stale
    | .draftCompletion => candidate.draft
    | .postMergeWatch => candidate.labels.any (· = "post-merge")
    | .duplicateOverlapDetection => !candidate.changedPaths.isEmpty
  if matched then
    { assessment with
      score := assessment.score + 250
      reasons := assessment.reasons ++ ["Matches " ++ preset.presetName ++ " workflow"] }
  else assessment

/-- An open dependency blocks the candidate. -/
def Assessment.dependOn (identities : List (String × Nat)) (repository : String)
    (assessment : Assessment) (dependency : Nat) : Assessment :=
  if (repository, dependency) ∈ identities then
    { tier := .blocked
      score := assessment.score - 500
      reasons := assessment.reasons ++ ["Blocked by #" ++ toString dependency] }
  else assessment

/-- The first path of another candidate of the repository that this one changes
too. -/
def overlappingPath (candidate : QueueCandidate) (candidates : List QueueCandidate) :
    Option String :=
  ((candidates.filter fun other =>
      other.number ≠ candidate.number &&
        other.repositoryFullName = candidate.repositoryFullName).flatMap
    fun other => other.changedPaths).find? fun path => path ∈ candidate.changedPaths

def Assessment.overlap (preset : WorkflowPreset) (path : Option String)
    (assessment : Assessment) : Assessment :=
  match path with
  | some path =>
      { assessment with
        score :=
          if preset = .duplicateOverlapDetection then assessment.score + 300
          else assessment.score
        reasons := assessment.reasons ++ ["Overlaps another open PR at " ++ path] }
  | none => assessment

/-- The assessment up to the search for an overlap. -/
def assessAlone (candidate : QueueCandidate) (preset : WorkflowPreset) (now : DateTime)
    (identities : List (String × Nat)) : Assessment :=
  let signals := candidate.signals now
  let assessment := (candidate.tiered signals).markStale signals.stale
  let assessment := applyPreset preset candidate signals assessment
  candidate.dependencyNumbers.foldl
    (Assessment.dependOn identities candidate.repositoryFullName) assessment

def assessCandidate [Sha256] (candidate : QueueCandidate) (preset : WorkflowPreset)
    (now : DateTime) (identities : List (String × Nat)) (candidates : List QueueCandidate) :
    QueueDecision :=
  let assessment := (assessAlone candidate preset now identities).overlap preset
    (overlappingPath candidate candidates)
  let input := (Json.arr [candidate.toJson, .str preset.wireName]).compact
  { repositoryFullName := candidate.repositoryFullName
    number := candidate.number
    tier := assessment.tier
    score := assessment.score
    reasons := assessment.reasons
    decisionInputSha256 := sha256Hex input }

/-- Tier first, then the higher score, the repository and the number. -/
def QueueDecision.order (left right : QueueDecision) : Ordering :=
  (compare left.tier.rank right.tier.rank).then <|
    (compare right.score left.score).then <|
      (compare left.repositoryFullName right.repositoryFullName).then <|
        compare left.number right.number

def assessQueue [Sha256] (candidates : List QueueCandidate) (preset : WorkflowPreset)
    (now : DateTime) : Except QueueError (List QueueDecision) := do
  validateCandidates candidates
  let identities := candidates.map QueueCandidate.identity
  let decisions := candidates.map fun candidate =>
    assessCandidate candidate preset now identities candidates
  return Sorting.sortBy QueueDecision.order decisions

end Patchwright
