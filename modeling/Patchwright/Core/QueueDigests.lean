import Patchwright.Core.ActionIdentity
import Patchwright.Core.QueueOrder
import Patchwright.Core.QueueScores

/-!
# What a decision digest identifies

The digest of a decision is that of the candidate and the preset.  The decision
depends on three things besides: whether the candidate is stale by the clock,
which of its dependencies are among the candidates, and the first path that
another candidate changes too.  Two decisions with one digest are equal exactly
when these are.
-/

namespace Patchwright

open QueueScore

namespace QueueDigest

/-! ## The parts of an assessment -/

/-- The signals of a candidate that is stale or not. -/
def signalsWith (candidate : QueueCandidate) (stale : Bool) : Signals :=
  { candidate.signals 0 with stale }

def isStale (candidate : QueueCandidate) (now : DateTime) : Bool :=
  now - candidate.updatedAt ≥ days 30

/-- An open dependency, whichever it is, blocks the candidate. -/
def blockOn (assessment : Assessment) (dependency : Nat) : Assessment where
  tier := .blocked
  score := assessment.score - 500
  reasons := assessment.reasons ++ ["Blocked by #" ++ toString dependency]

/-- The assessment of a candidate by what it depends on. -/
def outcome (candidate : QueueCandidate) (preset : WorkflowPreset) (stale : Bool)
    (blockers : List Nat) (path : Option String) : Assessment :=
  let signals := signalsWith candidate stale
  (blockers.foldl blockOn
    (applyPreset preset candidate signals ((candidate.tiered signals).markStale stale))).overlap
      preset path

section Outcome

variable (candidate : QueueCandidate) (preset : WorkflowPreset) (now : DateTime)
  (identities : List (String × Nat)) (candidates : List QueueCandidate)

theorem foldl_dependOn (assessment : Assessment) :
    candidate.dependencyNumbers.foldl
      (Assessment.dependOn identities candidate.repositoryFullName) assessment =
      (blockers candidate identities).foldl blockOn assessment := by
  rw [blockers]
  induction candidate.dependencyNumbers generalizing assessment with
  | nil => rfl
  | cons dependency dependencies ih =>
      rw [List.foldl_cons, ih, List.filter_cons, Assessment.dependOn]
      by_cases hopen : (candidate.repositoryFullName, dependency) ∈ identities
      · rw [if_pos hopen, if_pos (decide_eq_true hopen), List.foldl_cons, blockOn]
      · rw [if_neg hopen, if_neg (by rw [decide_eq_true_eq]; exact hopen)]

theorem assessAlone_overlap :
    (assessAlone candidate preset now identities).overlap preset
      (overlappingPath candidate candidates) =
      outcome candidate preset (isStale candidate now) (blockers candidate identities)
        (overlappingPath candidate candidates) := by
  rw [assessAlone, foldl_dependOn]
  rfl

/-- The time of the last update shows in the staleness only. -/
theorem outcome_updatedAt (updatedAt : DateTime) (stale : Bool) (blockers : List Nat)
    (path : Option String) : outcome { candidate with updatedAt } preset stale blockers path =
      outcome candidate preset stale blockers path := rfl

end Outcome

/-! ## Reasons -/

/-- The reasons that come after those of the tier. -/
def laterReasons (candidate : QueueCandidate) (preset : WorkflowPreset) (stale : Bool)
    (blockers : List Nat) (path : Option String) : List String :=
  (if stale then ["Stale for at least 30 days"] else []) ++
    (if presetMatches preset candidate (signalsWith candidate stale) then
      ["Matches " ++ preset.presetName ++ " workflow"] else []) ++
    blockers.map (fun dependency => "Blocked by #" ++ toString dependency) ++
    path.toList.map fun path => "Overlaps another open PR at " ++ path

theorem foldl_blockOn_reasons (blockers : List Nat) (assessment : Assessment) :
    (blockers.foldl blockOn assessment).reasons = assessment.reasons ++
      blockers.map fun dependency => "Blocked by #" ++ toString dependency := by
  induction blockers generalizing assessment with
  | nil => rw [List.foldl_nil, List.map_nil, List.append_nil]
  | cons dependency blockers ih =>
      rw [List.foldl_cons, ih, blockOn, List.map_cons, List.append_assoc, List.singleton_append]

theorem overlap_reasons (preset : WorkflowPreset) (path : Option String)
    (assessment : Assessment) : (assessment.overlap preset path).reasons = assessment.reasons ++
      path.toList.map fun path => "Overlaps another open PR at " ++ path := by
  cases path with
  | none => rw [Assessment.overlap, Option.toList_none, List.map_nil, List.append_nil]
  | some path => rfl

theorem applyPreset_reasons (candidate : QueueCandidate) (preset : WorkflowPreset)
    (signals : Signals) (assessment : Assessment) :
    (applyPreset preset candidate signals assessment).reasons = assessment.reasons ++
      if presetMatches preset candidate signals then
        ["Matches " ++ preset.presetName ++ " workflow"] else [] := by
  change (if presetMatches preset candidate signals then _ else _ : Assessment).reasons = _
  split
  · rfl
  · rw [List.append_nil]

theorem markStale_reasons (assessment : Assessment) (stale : Bool) :
    (assessment.markStale stale).reasons =
      assessment.reasons ++ if stale then ["Stale for at least 30 days"] else [] := by
  rw [Assessment.markStale]
  split
  · rfl
  · rw [List.append_nil]

theorem outcome_reasons (candidate : QueueCandidate) (preset : WorkflowPreset) (stale : Bool)
    (blockers : List Nat) (path : Option String) :
    (outcome candidate preset stale blockers path).reasons =
      (candidate.tiered (signalsWith candidate false)).reasons ++
        laterReasons candidate preset stale blockers path := by
  have htier : (candidate.tiered (signalsWith candidate stale)).reasons =
      (candidate.tiered (signalsWith candidate false)).reasons := rfl
  rw [outcome, overlap_reasons, foldl_blockOn_reasons, applyPreset_reasons, markStale_reasons,
    htier, laterReasons]
  simp only [List.append_assoc]

/-- The reasons that begin with a letter. -/
def beginning (letter : Char) (reasons : List String) : List String :=
  reasons.filter fun reason => reason.toList.head? = some letter

theorem beginning_append (letter : Char) (first second : List String) :
    beginning letter (first ++ second) = beginning letter first ++ beginning letter second :=
  List.filter_append first second

theorem beginning_self {letter : Char} {reasons : List String}
    (hall : ∀ reason ∈ reasons, reason.toList.head? = some letter) :
    beginning letter reasons = reasons :=
  List.filter_eq_self.mpr fun reason hmem => decide_eq_true (hall reason hmem)

theorem beginning_other {letter other : Char} (hne : other ≠ letter) {reasons : List String}
    (hall : ∀ reason ∈ reasons, reason.toList.head? = some other) :
    beginning letter reasons = [] := by
  apply List.filter_eq_nil_iff.mpr
  intro reason hmem
  rw [decide_eq_true_eq, hall reason hmem, Option.some_inj]
  exact hne

section Letters

variable (candidate : QueueCandidate) (preset : WorkflowPreset) (stale : Bool)
  (blockers : List Nat) (path : Option String)

theorem stale_letter : ∀ reason ∈ (if stale then ["Stale for at least 30 days"] else []),
    reason.toList.head? = some 'S' := by
  cases stale <;> decide

theorem preset_letter (matched : Bool) :
    ∀ reason ∈ (if matched then ["Matches " ++ preset.presetName ++ " workflow"] else []),
      reason.toList.head? = some 'M' := by
  intro reason hmem
  split at hmem
  · rw [List.mem_singleton.mp hmem, String.toList_append, String.toList_append]
    rfl
  · cases hmem

theorem blocked_letter :
    ∀ reason ∈ blockers.map (fun dependency => "Blocked by #" ++ toString dependency),
      reason.toList.head? = some 'B' := by
  intro reason hmem
  obtain ⟨dependency, _, rfl⟩ := List.mem_map.mp hmem
  rw [String.toList_append]
  rfl

theorem overlap_letter :
    ∀ reason ∈ path.toList.map (fun path => "Overlaps another open PR at " ++ path),
      reason.toList.head? = some 'O' := by
  intro reason hmem
  obtain ⟨path, _, rfl⟩ := List.mem_map.mp hmem
  rw [String.toList_append]
  rfl

theorem beginning_S : beginning 'S' (laterReasons candidate preset stale blockers path) =
    if stale then ["Stale for at least 30 days"] else [] := by
  rw [laterReasons, beginning_append, beginning_append, beginning_append,
    beginning_self (stale_letter stale), beginning_other (by decide) (preset_letter preset _),
    beginning_other (by decide) (blocked_letter blockers),
    beginning_other (by decide) (overlap_letter path), List.append_nil, List.append_nil,
    List.append_nil]

theorem beginning_B : beginning 'B' (laterReasons candidate preset stale blockers path) =
    blockers.map fun dependency => "Blocked by #" ++ toString dependency := by
  rw [laterReasons, beginning_append, beginning_append, beginning_append,
    beginning_other (by decide) (stale_letter stale),
    beginning_other (by decide) (preset_letter preset _), beginning_self (blocked_letter blockers),
    beginning_other (by decide) (overlap_letter path), List.nil_append, List.nil_append,
    List.append_nil]

theorem beginning_O : beginning 'O' (laterReasons candidate preset stale blockers path) =
    path.toList.map fun path => "Overlaps another open PR at " ++ path := by
  rw [laterReasons, beginning_append, beginning_append, beginning_append,
    beginning_other (by decide) (stale_letter stale),
    beginning_other (by decide) (preset_letter preset _),
    beginning_other (by decide) (blocked_letter blockers), beginning_self (overlap_letter path),
    List.nil_append, List.nil_append, List.nil_append]

end Letters

theorem toString_injective : Function.Injective fun number : Nat => toString number := by
  intro first second htexts
  have hdigits := congrArg String.toList htexts
  dsimp only at hdigits
  rw [Nat.toString_eq_ofList_toDigits, Nat.toString_eq_ofList_toDigits, String.toList_ofList,
    String.toList_ofList] at hdigits
  have hvalues := congrArg (fun digits => Nat.ofDigitChars 10 digits 0) hdigits
  simpa only [Nat.ofDigitChars_ten_toDigits] using hvalues

theorem append_injective (head : String) : Function.Injective fun text => head ++ text := by
  intro first second htexts
  have hlists := congrArg String.toList htexts
  simp only [String.toList_append, List.append_cancel_left_eq] at hlists
  exact String.toList_injective hlists

/-- The later reasons tell what they come from. -/
theorem laterReasons_inj {candidate : QueueCandidate} {preset : WorkflowPreset}
    {stale other : Bool} {blockers others : List Nat} {path otherPath : Option String}
    (hreasons : laterReasons candidate preset stale blockers path =
      laterReasons candidate preset other others otherPath) :
    stale = other ∧ blockers = others ∧ path = otherPath := by
  have hstale := congrArg (beginning 'S') hreasons
  have hblockers := congrArg (beginning 'B') hreasons
  have hpaths := congrArg (beginning 'O') hreasons
  rw [beginning_S, beginning_S] at hstale
  rw [beginning_B, beginning_B] at hblockers
  rw [beginning_O, beginning_O] at hpaths
  have hblocked : Function.Injective fun dependency : Nat =>
      "Blocked by #" ++ toString dependency := fun first second htexts =>
    toString_injective (append_injective _ htexts)
  refine ⟨?_, List.map_injective_iff.mpr hblocked hblockers, ?_⟩
  · cases stale <;> cases other <;> first | rfl | cases hstale
  · have hlists := List.map_injective_iff.mpr (append_injective _) hpaths
    cases path <;> cases otherPath <;> simp_all

/-! ## The text that is hashed -/

section Hashed

variable (candidate : QueueCandidate) (preset : WorkflowPreset)

/-- The text that the digest of a decision is taken of. -/
def hashedInput : String := (Json.arr [candidate.toJson, .str preset.wireName]).compact

/-- Two optional values written alike are equal. -/
theorem ofOption_injective {α : Type} {write : α → Json} (hwrite : Function.Injective write)
    (hvalue : ∀ value, write value ≠ .null) : Function.Injective (Json.ofOption write) := by
  intro first second hvalues
  cases first with
  | none =>
      cases second with
      | none => rfl
      | some value => exact absurd hvalues.symm (hvalue value)
  | some value =>
      cases second with
      | none => exact absurd hvalues (hvalue value)
      | some other => exact congrArg some (hwrite hvalues)

theorem ofOption_isPlain {α : Type} {write : α → Json} (hwrite : ∀ value, (write value).IsPlain)
    (value : Option α) : (Json.ofOption write value).IsPlain := by
  cases value with
  | none => trivial
  | some value => exact hwrite value

theorem map_isPlain {α : Type} {write : α → Json} (hwrite : ∀ value, (write value).IsPlain)
    (values : List α) : (Json.arr (values.map write)).IsPlain := by
  rw [Json.isPlain_arr]
  intro item hitem
  obtain ⟨value, _, rfl⟩ := List.mem_map.mp hitem
  exact hwrite value

theorem toJson_isPlain : candidate.toJson.IsPlain := by
  refine ⟨trivial, trivial, trivial, trivial, ofOption_isPlain ?_ _, ofOption_isPlain ?_ _,
    ofOption_isPlain ?_ _, trivial, map_isPlain ?_ _, map_isPlain ?_ _, map_isPlain ?_ _,
    ofOption_isPlain ?_ _, trivial, trivial⟩
  all_goals exact fun _ => trivial

/-- Candidates that are written alike differ in how the time of their last
update is held at most. -/
theorem eq_of_toJson {candidate other : QueueCandidate}
    (hvalues : candidate.toJson = other.toJson) :
    other = { candidate with updatedAt := other.updatedAt } := by
  have hstr : Function.Injective Json.str := fun _ _ => Json.str.inj
  have hbool : Function.Injective Json.bool := fun _ _ => Json.bool.inj
  have hint : Function.Injective Json.int := fun _ _ => Json.int.inj
  have hcast : Function.Injective fun number : Nat => (number : Int) := fun _ _ => Int.ofNat.inj
  have hpriority : Function.Injective fun priority : Int64 => Json.int priority.toInt :=
    fun _ _ hpriorities => Int64.toInt_inj.mp (Json.int.inj hpriorities)
  obtain ⟨name, number, title, draft, ciHealth, reviewDecision, hasConflicts, updatedAt, labels,
    dependencyNumbers, changedPaths, manualPriority, pinned⟩ := candidate
  obtain ⟨otherName, otherNumber, otherTitle, otherDraft, otherHealth, otherReview,
    otherConflicts, otherUpdatedAt, otherLabels, otherDependencies, otherPaths, otherPriority,
    otherPinned⟩ := other
  simp only [QueueCandidate.toJson, Json.obj.injEq, List.cons.injEq, Prod.mk.injEq, Json.str.injEq,
    Json.int.injEq, Json.bool.injEq, Json.arr.injEq, Int.natCast_inj, true_and, and_true,
    List.bind_eq_flatMap, List.pure_def, ← List.map_eq_flatMap,
    (List.map_injective_iff.mpr hstr).eq_iff, (List.map_injective_iff.mpr hint).eq_iff,
    (List.map_injective_iff.mpr hcast).eq_iff,
    (ofOption_injective hstr nofun).eq_iff, (ofOption_injective hbool nofun).eq_iff,
    (ofOption_injective hpriority nofun).eq_iff] at hvalues
  obtain ⟨rfl, rfl, rfl, rfl, rfl, rfl, rfl, _, rfl, rfl, rfl, rfl, rfl⟩ := hvalues
  rfl

theorem wireName_injective : Function.Injective WorkflowPreset.wireName := by
  intro first second
  cases first <;> cases second <;> decide

/-- What is hashed tells the preset and all of the candidate but how the time of
its last update is held. -/
theorem hashedInput_inj {candidate other : QueueCandidate} {preset otherPreset : WorkflowPreset}
    (htexts : hashedInput candidate preset = hashedInput other otherPreset) :
    otherPreset = preset ∧ other = { candidate with updatedAt := other.updatedAt } := by
  have hplain : ∀ (candidate : QueueCandidate) (preset : WorkflowPreset),
      (Json.arr [candidate.toJson, .str preset.wireName]).IsPlain := fun candidate _ =>
    ⟨toJson_isPlain candidate, trivial, trivial⟩
  have hvalues := Json.arr.inj ((Json.compact_inj (hplain _ _) (hplain _ _)).mp htexts)
  simp only [List.cons.injEq, Json.str.injEq, and_true] at hvalues
  exact ⟨wireName_injective hvalues.2.symm, eq_of_toJson hvalues.1⟩

end Hashed

/-! ## Decisions with one digest -/

/-- The two calls look at the candidates alike where these do not show it. -/
structure SameView (candidate other : QueueCandidate) (candidates others : List QueueCandidate)
    (now later : DateTime) : Prop where
  stale : isStale candidate now = isStale other later
  blockers : blockers candidate (candidates.map QueueCandidate.identity) =
    QueueScore.blockers other (others.map QueueCandidate.identity)
  path : overlappingPath candidate candidates = overlappingPath other others

/-- What a decision says besides its digest. -/
structure SameVerdict (decision other : QueueDecision) : Prop where
  tier : decision.tier = other.tier
  score : decision.score = other.score
  reasons : decision.reasons = other.reasons

section Calls

variable [Sha256] {candidates others : List QueueCandidate} {preset otherPreset : WorkflowPreset}
  {now later : DateTime} {decisions otherDecisions : List QueueDecision}

/-- The digest function does not collide on what two calls hash. -/
def CollisionFree (candidates others : List QueueCandidate)
    (preset otherPreset : WorkflowPreset) : Prop :=
  Set.InjOn Sha256.digest
    { text | (∃ candidate ∈ candidates, hashedInput candidate preset = text) ∨
      ∃ other ∈ others, hashedInput other otherPreset = text }

theorem mem_decisions (hdecisions : assessQueue candidates preset now = .ok decisions)
    {decision : QueueDecision} : decision ∈ decisions ↔ ∃ candidate ∈ candidates,
      assessCandidate candidate preset now (candidates.map QueueCandidate.identity) candidates =
        decision := by
  rw [← (assessQueue_eq_ok.1 hdecisions).2, Sorting.mem_sortBy, List.mem_map]

theorem digest_eq_iff (hfree : CollisionFree candidates others preset otherPreset)
    {candidate other : QueueCandidate} (hcandidate : candidate ∈ candidates)
    (hother : other ∈ others) :
    (assessCandidate candidate preset now (candidates.map QueueCandidate.identity)
          candidates).decisionInputSha256 =
        (assessCandidate other otherPreset later (others.map QueueCandidate.identity)
          others).decisionInputSha256 ↔
      hashedInput candidate preset = hashedInput other otherPreset := by
  change sha256Hex (hashedInput candidate preset) = sha256Hex (hashedInput other otherPreset) ↔ _
  constructor
  · intro hdigests
    exact hfree (.inl ⟨candidate, hcandidate, rfl⟩) (.inr ⟨other, hother, rfl⟩)
      (sha256Hex_inj hdigests)
  · exact congrArg sha256Hex

/-- Of one hashed text the same decision is made exactly when the calls look at
the candidate alike. -/
theorem sameVerdict_iff {candidate other : QueueCandidate}
    (htexts : hashedInput candidate preset = hashedInput other otherPreset) :
    SameVerdict
        (assessCandidate candidate preset now (candidates.map QueueCandidate.identity) candidates)
        (assessCandidate other otherPreset later (others.map QueueCandidate.identity) others) ↔
      SameView candidate other candidates others now later := by
  obtain ⟨rfl, hsame⟩ := hashedInput_inj htexts
  have hfirst := assessAlone_overlap candidate otherPreset now
    (candidates.map QueueCandidate.identity) candidates
  have hsecond := assessAlone_overlap other otherPreset later
    (others.map QueueCandidate.identity) others
  have hupdated : ∀ stale blockers path, outcome other otherPreset stale blockers path =
      outcome candidate otherPreset stale blockers path := by
    intro stale blockers path
    rw [hsame, outcome_updatedAt]
  rw [hupdated] at hsecond
  constructor
  · intro hverdict
    have hreasons : (outcome candidate otherPreset _ _ _).reasons =
        (outcome candidate otherPreset _ _ _).reasons :=
      (congrArg Assessment.reasons hfirst).symm.trans
        (hverdict.reasons.trans (congrArg Assessment.reasons hsecond))
    rw [outcome_reasons, outcome_reasons, List.append_cancel_left_eq] at hreasons
    obtain ⟨hstale, hblockers, hpath⟩ := laterReasons_inj hreasons
    exact ⟨hstale, hblockers, hpath⟩
  · intro hview
    have houtcomes : outcome candidate otherPreset (isStale candidate now)
          (blockers candidate (candidates.map QueueCandidate.identity))
          (overlappingPath candidate candidates) =
        outcome candidate otherPreset (isStale other later)
          (blockers other (others.map QueueCandidate.identity))
          (overlappingPath other others) := by
      rw [hview.stale, hview.blockers, hview.path]
    have hassessments := hfirst.trans (houtcomes.trans hsecond.symm)
    exact ⟨congrArg Assessment.tier hassessments, congrArg Assessment.score hassessments,
      congrArg Assessment.reasons hassessments⟩

/-- A digest identifies the decision exactly when the two calls look alike at
every candidate they both hash. -/
theorem digests_identify_iff (hfirst : assessQueue candidates preset now = .ok decisions)
    (hsecond : assessQueue others otherPreset later = .ok otherDecisions)
    (hfree : CollisionFree candidates others preset otherPreset) :
    (∀ decision ∈ decisions, ∀ other ∈ otherDecisions,
        decision.decisionInputSha256 = other.decisionInputSha256 → SameVerdict decision other) ↔
      ∀ candidate ∈ candidates, ∀ other ∈ others,
        hashedInput candidate preset = hashedInput other otherPreset →
          SameView candidate other candidates others now later := by
  constructor
  · intro hidentify candidate hcandidate other hother htexts
    rw [← sameVerdict_iff htexts]
    apply hidentify
    · exact (mem_decisions hfirst).mpr ⟨candidate, hcandidate, rfl⟩
    · exact (mem_decisions hsecond).mpr ⟨other, hother, rfl⟩
    · exact (digest_eq_iff hfree hcandidate hother).mpr htexts
  · intro hviews decision hdecision other hother hdigests
    obtain ⟨candidate, hcandidate, rfl⟩ := (mem_decisions hfirst).mp hdecision
    obtain ⟨second, hsecond, rfl⟩ := (mem_decisions hsecond).mp hother
    have htexts := (digest_eq_iff hfree hcandidate hsecond).mp hdigests
    exact (sameVerdict_iff htexts).mpr (hviews candidate hcandidate second hsecond htexts)

end Calls

end QueueDigest

open QueueSample in
/-- The sample pull request a month later is hashed as before and is stale. -/
theorem digest_kept_when_stale :
    ∃ decisions, assessQueue [pullRequest 1 []] .quickWins 0 = .ok decisions ∧
      ∃ stale, assessQueue [pullRequest 1 []] .quickWins (days 30) = .ok stale ∧
        QueueDigest.CollisionFree [pullRequest 1 []] [pullRequest 1 []] .quickWins .quickWins ∧
        ∃ decision ∈ decisions, ∃ other ∈ stale,
          decision.decisionInputSha256 = other.decisionInputSha256 ∧
            ¬ QueueDigest.SameVerdict decision other := by
  have hvalid : validateCandidates [pullRequest 1 []] = .ok () := rfl
  refine ⟨_, assessQueue_eq_ok.2 ⟨hvalid, rfl⟩, _, assessQueue_eq_ok.2 ⟨hvalid, rfl⟩, ?_, ?_⟩
  · rintro _ (⟨candidate, hcandidate, rfl⟩ | ⟨candidate, hcandidate, rfl⟩) _
        (⟨other, hother, rfl⟩ | ⟨other, hother, rfl⟩) _ <;>
      rw [List.mem_singleton.mp hcandidate, List.mem_singleton.mp hother]
  · refine ⟨_, Sorting.mem_sortBy.2 (List.mem_map_of_mem List.mem_cons_self), _,
      Sorting.mem_sortBy.2 (List.mem_map_of_mem List.mem_cons_self), rfl, fun hverdict => ?_⟩
    exact absurd hverdict.tier (by decide)

open QueueSample in
theorem digests_identify_iff_pullRequest :
    ∃ decisions, assessQueue [pullRequest 1 []] .quickWins 0 = .ok decisions ∧
      ((∀ decision ∈ decisions, ∀ other ∈ decisions,
          decision.decisionInputSha256 = other.decisionInputSha256 →
            QueueDigest.SameVerdict decision other) ↔
        ∀ candidate ∈ [pullRequest 1 []], ∀ other ∈ [pullRequest 1 []],
          QueueDigest.hashedInput candidate .quickWins = QueueDigest.hashedInput other .quickWins →
            QueueDigest.SameView candidate other [pullRequest 1 []] [pullRequest 1 []] 0 0) := by
  have hdecisions : assessQueue [pullRequest 1 []] .quickWins 0 = .ok _ :=
    assessQueue_eq_ok.2 ⟨rfl, rfl⟩
  refine ⟨_, hdecisions, QueueDigest.digests_identify_iff hdecisions hdecisions ?_⟩
  rintro _ (⟨candidate, hcandidate, rfl⟩ | ⟨candidate, hcandidate, rfl⟩) _
      (⟨other, hother, rfl⟩ | ⟨other, hother, rfl⟩) _ <;>
    rw [List.mem_singleton.mp hcandidate, List.mem_singleton.mp hother]

end Patchwright
