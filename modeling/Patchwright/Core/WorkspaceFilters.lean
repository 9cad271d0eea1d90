import Patchwright.Core.WorkspaceSorting

/-!
# Filtering the workspace

The core crate and the application apply the same filter to a pull request's
record.  The core crate compares texts as they are, the application up to
canonical equivalence.  A greatest age is a date subtraction in both; the core
crate's stops the program where the result leaves the instants that its time
library represents.
-/

namespace Patchwright

namespace Sorting

inductive PullRequestQueueState where
  | inbox
  | assessed
  | ready
  | needsWork
  | blocked
  | active
  | awaitingWriteApproval
  | monitoring
  | mergeReady
  | awaitingMergeApproval
  | merged
  | failed
  deriving DecidableEq, Repr

/-- A pull request's record with the fields that only filters read. -/
structure FilterRecord extends PullRequestQueueRecord where
  isOpen : Bool
  draft : Bool
  author : String
  assignees : List String
  labels : List String
  hasConflicts : Option Bool
  queueState : Option PullRequestQueueState
  activeCodexWork : Bool
  deriving DecidableEq

structure WorkspaceFilter where
  isOpen : Option Bool
  draft : Option Bool
  authors : List String
  assignees : List String
  labels : List String
  reviewStates : List ReviewState
  ciResults : List CiHealth
  hasConflicts : Option Bool
  maximumAgeDays : Option UInt32
  queueStates : List PullRequestQueueState
  activeCodexWork : Option Bool
  deriving DecidableEq

/-- The first and the last instant that the time library represents. -/
class InstantRange where
  minUtc : DateTime
  maxUtc : DateTime

def Representable [InstantRange] (instant : DateTime) : Prop :=
  InstantRange.minUtc ≤ instant ∧ instant ≤ InstantRange.maxUtc

instance [InstantRange] (instant : DateTime) : Decidable (Representable instant) :=
  inferInstanceAs (Decidable (_ ∧ _))

/-- An instant less a duration, where the result is represented; otherwise the
program stops. -/
def subtract [InstantRange] (instant : DateTime) (duration : Duration) : Option DateTime :=
  if Representable (instant - duration) then some (instant - duration) else none

namespace WorkspaceFilter

/-- The conditions that come before the one on the age. -/
def matchesBeforeAge (filter : WorkspaceFilter) (record : FilterRecord) : Bool :=
  filter.isOpen.all (record.isOpen == ·)
    && filter.draft.all (record.draft == ·)
    && (filter.authors.isEmpty || filter.authors.contains record.author)
    && (filter.assignees.isEmpty || record.assignees.any (filter.assignees.contains ·))
    && (filter.labels.isEmpty || record.labels.any (filter.labels.contains ·))
    && (filter.reviewStates.isEmpty || record.reviewState.any (filter.reviewStates.contains ·))
    && (filter.ciResults.isEmpty || record.ciHealth.any (filter.ciResults.contains ·))
    && filter.hasConflicts.all fun expected => record.hasConflicts == some expected

def matchesAge [InstantRange] (filter : WorkspaceFilter) (record : FilterRecord) (now : DateTime) :
    Option Bool :=
  match filter.maximumAgeDays with
  | none => some true
  | some age => (subtract now (days age.toNat)).map fun cutoff => cutoff ≤ record.updatedAt

def matchesAfterAge (filter : WorkspaceFilter) (record : FilterRecord) : Bool :=
  (filter.queueStates.isEmpty || record.queueState.any (filter.queueStates.contains ·))
    && filter.activeCodexWork.all (record.activeCodexWork == ·)

end WorkspaceFilter

/-- Whether the record passes; nothing where the program stops.  A condition
that fails keeps the later ones from being evaluated. -/
def WorkspaceFilter.matches [InstantRange] (filter : WorkspaceFilter) (record : FilterRecord)
    (now : DateTime) : Option Bool :=
  if filter.matchesBeforeAge record then
    (filter.matchesAge record now).map (· && filter.matchesAfterAge record)
  else some false

end Sorting

namespace WorkspaceSorting

open Patchwright.Sorting (FilterRecord WorkspaceFilter InstantRange Representable subtract)

/-- Two strings are equal for the standard library. -/
def SwiftString.same [UnicodeNormalization] (left right : String) : Bool :=
  UnicodeNormalization.nfc left == UnicodeNormalization.nfc right

def containsText [UnicodeNormalization] (texts : List String) (text : String) : Bool :=
  texts.any (SwiftString.same · text)

def isDisjoint [UnicodeNormalization] (texts other : List String) : Bool :=
  !other.any (containsText texts ·)

/-- An instant and an interval in seconds, as exact numbers. -/
def addingTimeInterval (instant : DateTime) (interval : Int) : DateTime :=
  instant + seconds interval

def WorkspaceFilter.matches [UnicodeNormalization] (filter : WorkspaceFilter)
    (record : FilterRecord) (now : DateTime) : Bool :=
  (filter.isOpen == none || some record.isOpen == filter.isOpen)
    && (filter.draft == none || some record.draft == filter.draft)
    && (filter.authors.isEmpty || containsText filter.authors record.author)
    && (filter.assignees.isEmpty || !isDisjoint filter.assignees record.assignees)
    && (filter.labels.isEmpty || !isDisjoint filter.labels record.labels)
    && (filter.reviewStates.isEmpty ||
      record.reviewState.map (filter.reviewStates.contains ·) == some true)
    && (filter.ciResults.isEmpty || record.ciHealth.map (filter.ciResults.contains ·) == some true)
    && (filter.hasConflicts == none || record.hasConflicts == filter.hasConflicts)
    && (filter.maximumAgeDays.map fun age =>
      decide (addingTimeInterval now (-(age.toNat : Int) * 86400) ≤ record.updatedAt)) != some false
    && (filter.queueStates.isEmpty ||
      record.queueState.map (filter.queueStates.contains ·) == some true)
    && (filter.activeCodexWork == none || some record.activeCodexWork == filter.activeCodexWork)

/-! ## The conditions of both -/

/-- The conditions on texts, by a test whether a set has a text. -/
def textConditions (has : List String → String → Bool) (filter : WorkspaceFilter)
    (record : FilterRecord) : Bool :=
  (filter.authors.isEmpty || has filter.authors record.author)
    && (filter.assignees.isEmpty || record.assignees.any (has filter.assignees ·))
    && (filter.labels.isEmpty || record.labels.any (has filter.labels ·))

/-- The other conditions before the one on the age. -/
def plainConditions (filter : WorkspaceFilter) (record : FilterRecord) : Bool :=
  filter.isOpen.all (record.isOpen == ·)
    && filter.draft.all (record.draft == ·)
    && (filter.reviewStates.isEmpty || record.reviewState.any (filter.reviewStates.contains ·))
    && (filter.ciResults.isEmpty || record.ciHealth.any (filter.ciResults.contains ·))
    && filter.hasConflicts.all fun expected => record.hasConflicts == some expected

/-- The record is young enough, by exact arithmetic. -/
def isRecent (filter : WorkspaceFilter) (record : FilterRecord) (now : DateTime) : Bool :=
  filter.maximumAgeDays.all fun age => decide (now - days age.toNat ≤ record.updatedAt)

theorem option_all_eq {Value : Type} [BEq Value] [LawfulBEq Value] (expected : Option Value)
    (value : Value) :
    expected.all (value == ·) = (expected == none || some value == expected) := by
  cases expected <;> rfl

theorem option_all_some_eq (expected actual : Option Bool) :
    (expected.all fun value => actual == some value) =
      (expected == none || actual == expected) := by
  cases expected <;> rfl

theorem option_any_eq {Value : Type} (value : Option Value) (test : Value → Bool) :
    value.any test = (value.map test == some true) := by
  cases value with
  | none => rfl
  | some value => cases h : test value <;> simp [h]

theorem matchesBeforeAge_eq (filter : WorkspaceFilter) (record : FilterRecord) :
    filter.matchesBeforeAge record =
      (textConditions List.contains filter record && plainConditions filter record) := by
  rw [WorkspaceFilter.matchesBeforeAge, textConditions, plainConditions]
  ac_rfl

theorem isRecent_eq (filter : WorkspaceFilter) (record : FilterRecord) (now : DateTime) :
    isRecent filter record now = ((filter.maximumAgeDays.map fun age =>
      decide (addingTimeInterval now (-(age.toNat : Int) * 86400) ≤ record.updatedAt)) !=
        some false) := by
  rw [isRecent]
  cases filter.maximumAgeDays with
  | none => rfl
  | some age =>
      have hcutoff : addingTimeInterval now (-(age.toNat : Int) * 86400) =
          now - days age.toNat := by
        rw [addingTimeInterval, days, seconds, seconds, Int.neg_mul, Int.neg_mul,
          Int.sub_eq_add_neg]
      rw [Option.all_some, Option.map_some, hcutoff]
      cases decide (now - days age.toNat ≤ record.updatedAt) <;> rfl

/-- The answer of the application. -/
theorem matches_eq [UnicodeNormalization] (filter : WorkspaceFilter) (record : FilterRecord)
    (now : DateTime) :
    WorkspaceFilter.matches filter record now =
      (textConditions containsText filter record && plainConditions filter record &&
        isRecent filter record now && filter.matchesAfterAge record) := by
  have hjoint : ∀ texts other : List String,
      (!isDisjoint texts other) = other.any (containsText texts ·) := fun texts other =>
    Bool.not_not _
  rw [WorkspaceFilter.matches, textConditions, plainConditions, isRecent_eq,
    WorkspaceFilter.matchesAfterAge, hjoint, hjoint]
  simp only [option_all_eq, option_all_some_eq, option_any_eq]
  ac_rfl

/-! ## Where the filters agree -/

/-- A condition on texts holds up to canonical equivalence only. -/
def Lookalike [UnicodeNormalization] (filter : WorkspaceFilter) (record : FilterRecord) : Prop :=
  textConditions containsText filter record = true ∧
    textConditions List.contains filter record = false

section Agreement

variable {filter : WorkspaceFilter} {record : FilterRecord}

theorem containsText_of_contains [UnicodeNormalization] {texts : List String} {text : String}
    (hcontains : texts.contains text = true) : containsText texts text = true := by
  rw [List.contains_iff_mem] at hcontains
  exact List.any_eq_true.mpr ⟨text, hcontains, beq_self_eq_true _⟩

theorem textConditions_mono {has other : List String → String → Bool}
    (himp : ∀ texts text, has texts text = true → other texts text = true)
    (hhas : textConditions has filter record = true) :
    textConditions other filter record = true := by
  have hany : ∀ {texts values : List String}, values.any (has texts ·) = true →
      values.any (other texts ·) = true := by
    intro texts values hvalues
    obtain ⟨value, hvalue, htrue⟩ := List.any_eq_true.mp hvalues
    exact List.any_eq_true.mpr ⟨value, hvalue, himp texts value htrue⟩
  simp only [textConditions, Bool.and_eq_true, Bool.or_eq_true] at hhas ⊢
  obtain ⟨⟨hauthor, hassignees⟩, hlabels⟩ := hhas
  exact ⟨⟨hauthor.imp_right (himp _ _), hassignees.imp_right hany⟩, hlabels.imp_right hany⟩

/-- ASCII texts are equivalent where they are equal only. -/
theorem containsText_of_ascii [UnicodeNormalization] {texts : List String} {text : String}
    (htexts : ∀ value ∈ texts, ∀ char ∈ value.toList, char.toNat < 128)
    (htext : ∀ char ∈ text.toList, char.toNat < 128) :
    containsText texts text = texts.contains text := by
  rw [Bool.eq_iff_iff, containsText, List.any_eq_true, List.contains_iff_mem]
  constructor
  · rintro ⟨value, hvalue, hsame⟩
    rw [SwiftString.same, beq_iff_eq, UnicodeNormalization.nfc_ascii _ (htexts value hvalue),
      UnicodeNormalization.nfc_ascii _ htext] at hsame
    exact hsame ▸ hvalue
  · exact fun hmem => ⟨text, hmem, beq_self_eq_true _⟩

theorem matchesAge_eq [InstantRange] {now : DateTime}
    (hcutoff : ∀ age ∈ filter.maximumAgeDays, Representable (now - days age.toNat)) :
    filter.matchesAge record now = some (isRecent filter record now) := by
  rw [WorkspaceFilter.matchesAge, isRecent]
  rcases hage : filter.maximumAgeDays with _ | age
  · rfl
  · dsimp only
    rw [subtract, if_pos (hcutoff age hage)]
    rfl

theorem matchesAge_eq_none [InstantRange] {now : DateTime}
    (hcutoff : ¬ ∀ age ∈ filter.maximumAgeDays, Representable (now - days age.toNat)) :
    filter.matchesAge record now = none := by
  rw [WorkspaceFilter.matchesAge]
  rcases hage : filter.maximumAgeDays with _ | age
  · exact absurd (fun age hmem => by rw [hage] at hmem; cases hmem) hcutoff
  · have hrange : ¬ Representable (now - days age.toNat) := by
      refine fun hrange => hcutoff fun other hother => ?_
      rw [hage] at hother
      cases hother
      exact hrange
    dsimp only
    rw [subtract, if_neg hrange]
    rfl

/-- The core crate answers as the application does exactly where the age is
not asked or the instant it leads back to is represented, and no record passes
on account of canonically equivalent texts only. -/
theorem matches_agree_iff [UnicodeNormalization] [InstantRange] (filter : WorkspaceFilter)
    (record : FilterRecord) (now : DateTime) :
    Sorting.WorkspaceFilter.matches filter record now =
        some (WorkspaceFilter.matches filter record now) ↔
      (filter.matchesBeforeAge record = true →
        ∀ age ∈ filter.maximumAgeDays, Representable (now - days age.toNat)) ∧
      ¬ (Lookalike filter record ∧ plainConditions filter record = true ∧
        isRecent filter record now = true ∧ filter.matchesAfterAge record = true) := by
  rw [Sorting.WorkspaceFilter.matches, matches_eq]
  by_cases hbefore : filter.matchesBeforeAge record = true
  · have hconditions := hbefore
    rw [matchesBeforeAge_eq, Bool.and_eq_true] at hconditions
    have htexts : textConditions containsText filter record = true :=
      textConditions_mono (fun _ _ => containsText_of_contains) hconditions.1
    have hlookalike : ¬ Lookalike filter record := fun hlookalike =>
      Bool.noConfusion (hconditions.1.symm.trans hlookalike.2)
    rw [if_pos hbefore, htexts, hconditions.2]
    by_cases hcutoff : ∀ age ∈ filter.maximumAgeDays, Representable (now - days age.toNat)
    · rw [matchesAge_eq hcutoff]
      exact iff_of_true rfl ⟨fun _ => hcutoff, fun h => hlookalike h.1⟩
    · rw [matchesAge_eq_none hcutoff]
      exact iff_of_false nofun fun h => hcutoff (h.1 hbefore)
  · have hfails : Lookalike filter record ∧ plainConditions filter record = true ↔
        (textConditions containsText filter record && plainConditions filter record) = true := by
      rw [matchesBeforeAge_eq, Bool.and_eq_true, not_and, Bool.not_eq_true] at hbefore
      rw [Bool.and_eq_true]
      constructor
      · exact fun h => ⟨h.1.1, h.2⟩
      · rintro ⟨htexts, hplain⟩
        refine ⟨⟨htexts, ?_⟩, hplain⟩
        rw [← Bool.not_eq_true]
        exact fun hexact => Bool.noConfusion (hplain.symm.trans (hbefore hexact))
    rw [if_neg hbefore, ← and_assoc, hfails, Option.some_inj, eq_comm, ← Bool.not_eq_true,
      Bool.and_eq_true, Bool.and_eq_true, and_assoc]
    exact (and_iff_right fun h => absurd h hbefore).symm

/-- The texts of the filter and of the record are ASCII. -/
def AsciiTexts (filter : WorkspaceFilter) (record : FilterRecord) : Prop :=
  ∀ text ∈ filter.authors ++ filter.assignees ++ filter.labels ++ record.author ::
    (record.assignees ++ record.labels), ∀ char ∈ text.toList, char.toNat < 128

theorem not_lookalike_of_ascii [UnicodeNormalization] (hascii : AsciiTexts filter record) :
    ¬ Lookalike filter record := by
  simp only [AsciiTexts, List.mem_append, List.mem_cons, or_imp, forall_and, forall_eq] at hascii
  obtain ⟨⟨⟨hauthors, hassignees⟩, hlabels⟩, hauthor, hrecordAssignees, hrecordLabels⟩ := hascii
  have hany : ∀ {texts values : List String},
      (∀ text ∈ texts, ∀ char ∈ text.toList, char.toNat < 128) →
      (∀ text ∈ values, ∀ char ∈ text.toList, char.toNat < 128) →
      values.any (containsText texts ·) = values.any (texts.contains ·) := by
    intro texts values htexts hvalues
    rw [Bool.eq_iff_iff, List.any_eq_true, List.any_eq_true]
    exact exists_congr fun value => and_congr_right fun hvalue => by
      rw [containsText_of_ascii htexts (hvalues value hvalue)]
  rintro ⟨htexts, hexact⟩
  rw [textConditions, containsText_of_ascii hauthors hauthor, hany hassignees hrecordAssignees,
    hany hlabels hrecordLabels] at htexts
  exact Bool.noConfusion (htexts.symm.trans hexact)

/-- With ASCII texts only the age decides. -/
theorem matches_agree_iff_of_ascii [UnicodeNormalization] [InstantRange] {now : DateTime}
    (hascii : AsciiTexts filter record) :
    Sorting.WorkspaceFilter.matches filter record now =
        some (WorkspaceFilter.matches filter record now) ↔
      (filter.matchesBeforeAge record = true →
        ∀ age ∈ filter.maximumAgeDays, Representable (now - days age.toNat)) :=
  (matches_agree_iff filter record now).trans
    (and_iff_left fun h => not_lookalike_of_ascii hascii h.1)

end Agreement

namespace FilterSample

/-- The years from -262143 to 262142. -/
scoped instance utcRange : InstantRange where
  minUtc := seconds (-8334601228800)
  maxUtc := seconds 8210266876799 + 999999999

/-- A filter that only asks for an age, the greatest that its type has. -/
def oldest : WorkspaceFilter where
  isOpen := none
  draft := none
  authors := []
  assignees := []
  labels := []
  reviewStates := []
  ciResults := []
  hasConflicts := none
  maximumAgeDays := some 4294967295
  queueStates := []
  activeCodexWork := none

def record : FilterRecord where
  id := 1
  number := 1
  queuePriority := none
  updatedAt := seconds 1782864000
  headCommittedAt := none
  latestReviewAt := none
  ciHealth := none
  reviewState := none
  createdAt := seconds 1782864000
  additions := 0
  deletions := 0
  isOpen := true
  draft := false
  author := "octocat"
  assignees := []
  labels := []
  hasConflicts := none
  queueState := none
  activeCodexWork := false

end FilterSample

open FilterSample SortSample in
/-- On 1 July 2026 the greatest age leads back beyond the represented instants. -/
theorem matches_stops :
    ¬ ∀ (filter : WorkspaceFilter) (record : FilterRecord) (now : DateTime), Representable now →
      AsciiTexts filter record → Sorting.WorkspaceFilter.matches filter record now =
        some (WorkspaceFilter.matches filter record now) := by
  intro hall
  have hnow : Representable (seconds 1782864000) := by decide
  have hascii : AsciiTexts oldest record := by
    intro text htext
    have htexts : (oldest.authors ++ oldest.assignees ++ oldest.labels ++ record.author ::
        (record.assignees ++ record.labels)).all (fun text =>
          text.toList.all fun char => char.toNat < 128) = true := by decide
    simpa using List.all_eq_true.mp htexts text htext
  have hstops : Sorting.WorkspaceFilter.matches oldest record (seconds 1782864000) = none := by
    decide
  exact absurd (hstops.symm.trans (hall oldest record _ hnow hascii)) nofun

end WorkspaceSorting

end Patchwright
