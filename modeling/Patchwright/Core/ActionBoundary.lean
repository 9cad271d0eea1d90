import Patchwright.Core.ActionFidelity

/-!
# The boundary of GitHub actions

What the constructors build and what the readers accept, for actions, their
comments, their remotes, their preconditions and their previews.  A value that
has been built is faithful when it is read back as it was written, is built
again from its own parts, and has comments at relative paths.
-/

namespace Patchwright

open Checked Json

/-! ### What a reader has read -/

section Read

theorem InlineReviewComment.readWire_fits {value : Json} {raw : InlineReviewComment}
    (hread : readWire value = some raw) : raw.Fits := by
  obtain ⟨fields, -, hread⟩ := Option.bind_eq_some_iff.mp hread
  split at hread
  · obtain ⟨path, -, hread⟩ := Option.bind_eq_some_iff.mp hread
    obtain ⟨line, hline, hread⟩ := Option.bind_eq_some_iff.mp hread
    obtain ⟨body, -, hread⟩ := Option.bind_eq_some_iff.mp hread
    cases hread
    exact required_below hline
  · cases hread

theorem RemoteIdentity.readWire_fits {value : Json} {raw : RemoteIdentity}
    (hread : readWire value = some raw) : raw.Fits := by
  obtain ⟨fields, -, hread⟩ := Option.bind_eq_some_iff.mp hread
  split at hread
  · obtain ⟨repositoryId, hrepository, hread⟩ := Option.bind_eq_some_iff.mp hread
    obtain ⟨installationId, hinstallation, hread⟩ := Option.bind_eq_some_iff.mp hread
    obtain ⟨name, -, hread⟩ := Option.bind_eq_some_iff.mp hread
    cases hread
    exact ⟨required_below hrepository, required_below hinstallation⟩
  · cases hread

theorem RemotePrecondition.readWire_fits {value : Json} {raw : RemotePrecondition}
    (hread : readWire value = some raw) : raw.Fits := by
  obtain ⟨fields, -, hread⟩ := Option.bind_eq_some_iff.mp hread
  split at hread
  · obtain ⟨head, -, hread⟩ := Option.bind_eq_some_iff.mp hread
    obtain ⟨base, -, hread⟩ := Option.bind_eq_some_iff.mp hread
    obtain ⟨generation, hgeneration, hread⟩ := Option.bind_eq_some_iff.mp hread
    cases hread
    exact required_below hgeneration
  · cases hread

end Read

/-! ### What the reader of an action has read -/

namespace GitHubAction

section Read

variable {readComment : Json → Option InlineReviewComment} {kind : String} {value : Json}
variable {action : GitHubAction}

theorem readPullRequest_fits {make : Nat → String → GitHubAction}
    (hread : readPullRequest make value = some action) :
    ∃ number sha, number < 2 ^ 64 ∧ make number sha = action := by
  obtain ⟨fields, -, hread⟩ := Option.bind_eq_some_iff.mp hread
  split at hread
  · obtain ⟨number, hnumber, hread⟩ := Option.bind_eq_some_iff.mp hread
    obtain ⟨sha, -, hread⟩ := Option.bind_eq_some_iff.mp hread
    exact ⟨number, sha, required_below hnumber, Option.some.inj hread⟩
  · cases hread

/-- A review is read from its own fields and from its comments, and the fields
are the same however the comments are read. -/
theorem readReview_comments (hread : readFields readComment "review" value = some action) :
    ∃ number sha event body comments written, number < 2 ^ 64 ∧
      action = .review number sha event body comments ∧
      asList? readComment written = some comments ∧
      ∀ other kept, asList? other written = some kept →
        readFields other "review" value = some (.review number sha event body kept) := by
  obtain ⟨fields, hfields, hread⟩ := Option.bind_eq_some_iff.mp hread
  split at hread
  next numberField shaField eventField bodyField commentsField =>
    obtain ⟨number, hnumber, hread⟩ := Option.bind_eq_some_iff.mp hread
    obtain ⟨sha, hsha, hread⟩ := Option.bind_eq_some_iff.mp hread
    obtain ⟨event, hevent, hread⟩ := Option.bind_eq_some_iff.mp hread
    obtain ⟨body, hbody, hread⟩ := Option.bind_eq_some_iff.mp hread
    obtain ⟨comments, hcomments, hread⟩ := Option.bind_eq_some_iff.mp hread
    cases hread
    cases commentsField with
    | none => cases hcomments
    | some written =>
        refine ⟨number, sha, event, body, comments, written, required_below hnumber, rfl,
          hcomments, ?_⟩
        intro other kept hkept
        have hrequired : required (asList? other) (some written) = some kept := hkept
        simp only [readFields, hfields, hnumber, hsha, hevent, hbody, hrequired,
          Option.bind_eq_bind, Option.bind_some, Option.pure_def]
  next => cases hread

/-- What is not a review has numbers of 64 bits, and no comments. -/
theorem readFields_fits (hkind : kind ≠ "review")
    (hread : readFields readComment kind value = some action) :
    (∀ number ∈ action.pullRequestNumber, number < 2 ^ 64) ∧ action.inlineComments = [] := by
  have hone : ∀ number, number < 2 ^ 64 → ∀ other ∈ some number, other < 2 ^ 64 :=
    fun number hbound other hother => Option.some.inj hother ▸ hbound
  unfold readFields at hread
  split at hread
  · obtain ⟨fields, -, hread⟩ := Option.bind_eq_some_iff.mp hread
    split at hread
    · obtain ⟨branch, -, hread⟩ := Option.bind_eq_some_iff.mp hread
      obtain ⟨sha, -, hread⟩ := Option.bind_eq_some_iff.mp hread
      cases hread
      exact ⟨nofun, rfl⟩
    · cases hread
  · obtain ⟨fields, -, hread⟩ := Option.bind_eq_some_iff.mp hread
    split at hread
    · obtain ⟨branch, -, hread⟩ := Option.bind_eq_some_iff.mp hread
      obtain ⟨sha, -, hread⟩ := Option.bind_eq_some_iff.mp hread
      cases hread
      exact ⟨nofun, rfl⟩
    · cases hread
  · obtain ⟨fields, -, hread⟩ := Option.bind_eq_some_iff.mp hread
    split at hread
    · obtain ⟨number, hnumber, hread⟩ := Option.bind_eq_some_iff.mp hread
      obtain ⟨body, -, hread⟩ := Option.bind_eq_some_iff.mp hread
      cases hread
      exact ⟨hone number (required_below hnumber), rfl⟩
    · cases hread
  · exact absurd rfl hkind
  · obtain ⟨fields, -, hread⟩ := Option.bind_eq_some_iff.mp hread
    split at hread
    · obtain ⟨number, hnumber, hread⟩ := Option.bind_eq_some_iff.mp hread
      obtain ⟨threadId, -, hread⟩ := Option.bind_eq_some_iff.mp hread
      obtain ⟨sha, -, hread⟩ := Option.bind_eq_some_iff.mp hread
      cases hread
      exact ⟨hone number (required_below hnumber), rfl⟩
    · cases hread
  · obtain ⟨fields, -, hread⟩ := Option.bind_eq_some_iff.mp hread
    split at hread
    · obtain ⟨name, -, hread⟩ := Option.bind_eq_some_iff.mp hread
      obtain ⟨sha, -, hread⟩ := Option.bind_eq_some_iff.mp hread
      obtain ⟨status, -, hread⟩ := Option.bind_eq_some_iff.mp hread
      obtain ⟨conclusion, -, hread⟩ := Option.bind_eq_some_iff.mp hread
      cases hread
      exact ⟨nofun, rfl⟩
    · cases hread
  · obtain ⟨fields, -, hread⟩ := Option.bind_eq_some_iff.mp hread
    split at hread
    · obtain ⟨title, -, hread⟩ := Option.bind_eq_some_iff.mp hread
      obtain ⟨head, -, hread⟩ := Option.bind_eq_some_iff.mp hread
      obtain ⟨base, -, hread⟩ := Option.bind_eq_some_iff.mp hread
      obtain ⟨body, -, hread⟩ := Option.bind_eq_some_iff.mp hread
      obtain ⟨headSha, -, hread⟩ := Option.bind_eq_some_iff.mp hread
      obtain ⟨baseSha, -, hread⟩ := Option.bind_eq_some_iff.mp hread
      cases hread
      exact ⟨nofun, rfl⟩
    · cases hread
  · obtain ⟨number, sha, hbound, rfl⟩ := readPullRequest_fits hread
    exact ⟨hone number hbound, rfl⟩
  · obtain ⟨number, sha, hbound, rfl⟩ := readPullRequest_fits hread
    exact ⟨hone number hbound, rfl⟩
  · obtain ⟨number, sha, hbound, rfl⟩ := readPullRequest_fits hread
    exact ⟨hone number hbound, rfl⟩
  · obtain ⟨fields, -, hread⟩ := Option.bind_eq_some_iff.mp hread
    split at hread
    · obtain ⟨number, hnumber, hread⟩ := Option.bind_eq_some_iff.mp hread
      cases hread
      exact ⟨hone number (required_below hnumber), rfl⟩
    · cases hread
  · obtain ⟨number, sha, hbound, rfl⟩ := readPullRequest_fits hread
    exact ⟨hone number hbound, rfl⟩
  · obtain ⟨fields, -, hread⟩ := Option.bind_eq_some_iff.mp hread
    split at hread
    · obtain ⟨number, hnumber, hread⟩ := Option.bind_eq_some_iff.mp hread
      obtain ⟨sha, -, hread⟩ := Option.bind_eq_some_iff.mp hread
      obtain ⟨method, -, hread⟩ := Option.bind_eq_some_iff.mp hread
      cases hread
      exact ⟨hone number (required_below hnumber), rfl⟩
    · cases hread
  · cases hread

theorem readFields_other (hkind : kind ≠ "review") (other : Json → Option InlineReviewComment) :
    readFields readComment kind value = readFields other kind value := by
  unfold readFields
  split
  case h_4 => exact absurd rfl hkind
  all_goals rfl

end Read

end GitHubAction

/-! ### Building from raw parts -/

section Build

def InlineReviewComment.build (raw : InlineReviewComment) :
    Except GitHubActionError InlineReviewComment :=
  InlineReviewComment.new raw.path raw.line raw.body

namespace GitHubAction

def withComments (comments : List InlineReviewComment) : GitHubAction → GitHubAction
  | review number sha event body _ => review number sha event body comments
  | action => action

/-- Build the comments of an action, and then the action. -/
def build (raw : GitHubAction) : Except GitHubActionError GitHubAction := do
  let comments ← raw.inlineComments.mapM InlineReviewComment.build
  (raw.withComments comments).construct

end GitHubAction

def RemoteIdentity.build (raw : RemoteIdentity) : Except GitHubActionError RemoteIdentity :=
  RemoteIdentity.new raw.repositoryId raw.installationId raw.repositoryFullName

def RemotePrecondition.build (raw : RemotePrecondition) :
    Except GitHubActionError RemotePrecondition :=
  RemotePrecondition.new raw.expectedHeadSha raw.expectedBaseSha raw.snapshotGeneration

end Build

/-! ### Readers build what they read -/

section Readers

theorem InlineReviewComment.fromJson_iff {value : Json} {comment : InlineReviewComment} :
    fromJson value = some comment ↔
      ∃ raw, readWire value = some raw ∧ build raw = .ok comment := by
  rw [fromJson, Option.bind_eq_bind, Option.bind_eq_some_iff]
  simp only [toOption_eq_some, build]

theorem RemoteIdentity.fromJson_iff {value : Json} {remote : RemoteIdentity} :
    fromJson value = some remote ↔
      ∃ raw, readWire value = some raw ∧ build raw = .ok remote := by
  rw [fromJson, Option.bind_eq_bind, Option.bind_eq_some_iff]
  simp only [toOption_eq_some, build]

theorem RemotePrecondition.fromJson_iff {value : Json} {precondition : RemotePrecondition} :
    fromJson value = some precondition ↔
      ∃ raw, readWire value = some raw ∧ build raw = .ok precondition := by
  rw [fromJson, Option.bind_eq_bind, Option.bind_eq_some_iff]
  simp only [toOption_eq_some, build]

theorem InlineReviewComment.mapM_fromJson_iff {items : List Json}
    {comments : List InlineReviewComment} :
    items.mapM fromJson = some comments ↔
      ∃ raws, items.mapM readWire = some raws ∧ raws.mapM build = .ok comments := by
  induction items generalizing comments with
  | nil =>
      constructor
      · intro hnone
        cases hnone
        exact ⟨[], rfl, rfl⟩
      · rintro ⟨raws, hraws, hbuilt⟩
        cases hraws
        cases hbuilt
        rfl
  | cons item items ih =>
      simp only [List.mapM_cons, Option.bind_eq_bind, Option.bind_eq_some_iff, Option.pure_def,
        Option.some.injEq, ih, fromJson_iff]
      constructor
      · rintro ⟨comment, ⟨raw, hraw, hbuilt⟩, later, ⟨raws, hraws, hlater⟩, rfl⟩
        refine ⟨raw :: raws, ⟨raw, hraw, raws, hraws, rfl⟩, ?_⟩
        exact mapM_eq_ok.2 (.cons hbuilt (mapM_eq_ok.1 hlater))
      · rintro ⟨_, ⟨raw, hraw, raws, hraws, rfl⟩, hall⟩
        cases mapM_eq_ok.1 hall with
        | cons hbuilt hlater =>
            exact ⟨_, ⟨raw, hraw, hbuilt⟩, _, ⟨raws, hraws, mapM_eq_ok.2 hlater⟩, rfl⟩

theorem InlineReviewComment.asList_fromJson_iff {written : Json}
    {comments : List InlineReviewComment} :
    asList? fromJson written = some comments ↔
      ∃ raws, asList? readWire written = some raws ∧ raws.mapM build = .ok comments := by
  cases hitems : written.asArr? with
  | none => simp [asList?, hitems]
  | some items => simpa [asList?, hitems] using mapM_fromJson_iff

theorem InlineReviewComment.asList_readWire_fits {written : Json}
    {raws : List InlineReviewComment} (hread : asList? readWire written = some raws) :
    ∀ raw ∈ raws, raw.Fits := by
  intro raw hraw
  obtain ⟨item, hitem⟩ := exists_of_mem_asList hread raw hraw
  exact readWire_fits hitem

namespace GitHubAction

variable {value : Json} {action raw : GitHubAction}

theorem withComments_inlineComments (action : GitHubAction) :
    action.withComments action.inlineComments = action := by
  cases action <;> rfl

theorem build_of_none (hnone : raw.inlineComments = []) : raw.build = raw.construct := by
  have hsame : raw.withComments [] = raw := by
    rw [← hnone]
    exact withComments_inlineComments raw
  rw [build, hnone, List.mapM_nil, pure_bind, hsame]

theorem fromJson_iff : fromJson value = some action ↔
    ∃ raw, readWire InlineReviewComment.readWire value = some raw ∧ raw.build = .ok action := by
  simp only [fromJson, readWire, Option.bind_eq_bind, Option.bind_eq_some_iff, toOption_eq_some]
  constructor
  · rintro ⟨wire, ⟨⟨kind, fields⟩, hkind, hwire⟩, hbuilt⟩
    by_cases hreview : kind = "review"
    · subst hreview
      obtain ⟨number, sha, event, body, comments, written, -, rfl, hcomments, hother⟩ :=
        readReview_comments hwire
      obtain ⟨raws, hraws, hall⟩ := InlineReviewComment.asList_fromJson_iff.1 hcomments
      refine ⟨_, ⟨_, hkind, hother _ raws hraws⟩, ?_⟩
      rw [build, inlineComments, hall]
      exact hbuilt
    · refine ⟨wire, ⟨_, hkind, ?_⟩, ?_⟩
      · rw [← hwire]
        exact readFields_other hreview _
      · rw [build_of_none (readFields_fits hreview hwire).2]
        exact hbuilt
  · rintro ⟨raw, ⟨⟨kind, fields⟩, hkind, hraw⟩, hbuilt⟩
    by_cases hreview : kind = "review"
    · subst hreview
      obtain ⟨number, sha, event, body, raws, written, -, rfl, hraws, hother⟩ :=
        readReview_comments hraw
      obtain ⟨comments, hall, hconstruct⟩ := bind_eq_ok.1 hbuilt
      have hcomments := InlineReviewComment.asList_fromJson_iff.2 ⟨raws, hraws, hall⟩
      exact ⟨_, ⟨_, hkind, hother _ comments hcomments⟩, hconstruct⟩
    · refine ⟨raw, ⟨_, hkind, ?_⟩, ?_⟩
      · rw [← hraw]
        exact readFields_other hreview _
      · rw [← build_of_none (readFields_fits hreview hraw).2]
        exact hbuilt

theorem readWire_fits (hread : readWire InlineReviewComment.readWire value = some raw) :
    raw.Fits := by
  obtain ⟨⟨kind, fields⟩, -, hread⟩ := Option.bind_eq_some_iff.mp hread
  by_cases hreview : kind = "review"
  · subst hreview
    obtain ⟨number, sha, event, body, raws, written, hnumber, rfl, hraws, -⟩ :=
      readReview_comments hread
    constructor
    · intro other hother
      rwa [← Option.some.inj hother]
    · exact InlineReviewComment.asList_readWire_fits hraws
  · obtain ⟨hnumbers, hnone⟩ := readFields_fits hreview hread
    refine ⟨hnumbers, ?_⟩
    rw [hnone]
    exact fun comment hcomment => absurd hcomment List.not_mem_nil

end GitHubAction

end Readers

/-! ### Faithful values -/

/-- The letters of a path that is not absolute and stays below its root. -/
def IsRelative (path : String) : Prop :=
  path.toList.head? ≠ some '/' ∧ ¬ ['.', '.'] <:+: path.toList

/-- A type with its constructor, its writer and its readers.  The first reader
takes a value apart, the second one builds it as well. -/
structure Boundary (ρ α : Type) where
  Fits : ρ → Prop
  comments : ρ → List InlineReviewComment
  build : ρ → Except GitHubActionError α
  parts : α → ρ
  toJson : α → Json
  readWire : Json → Option ρ
  fromJson : Json → Option α

namespace Boundary

variable {ρ α : Type} (boundary : Boundary ρ α)

/-- A value that crosses the boundary and stays what it is. -/
structure Faithful (value : α) : Prop where
  read_back : boundary.fromJson (boundary.toJson value) = some value
  rebuilt : boundary.build (boundary.parts value) = .ok value
  relative : ∀ comment ∈ boundary.comments (boundary.parts value), IsRelative comment.path

/-- No comment of the parts has a rooted path. -/
def Unrooted (raw : ρ) : Prop := ∀ comment ∈ boundary.comments raw, ¬ IsRooted comment.path

/-- What is built from parts is faithful exactly when they are unrooted, and
what is read has been built from the parts that were read. -/
structure FaithfulUnlessRooted : Prop where
  built : ∀ raw value, boundary.Fits raw → boundary.build raw = .ok value →
    (boundary.Faithful value ↔ boundary.Unrooted raw)
  accepted : ∀ json value, boundary.fromJson json = some value →
    ∃ raw, boundary.readWire json = some raw ∧ boundary.Fits raw ∧ boundary.build raw = .ok value

end Boundary

def InlineReviewComment.boundary : Boundary InlineReviewComment InlineReviewComment where
  Fits := Fits
  comments comment := [comment]
  build := build
  parts := id
  toJson := toJson
  readWire := readWire
  fromJson := fromJson

def GitHubAction.boundary : Boundary GitHubAction GitHubAction where
  Fits := Fits
  comments := inlineComments
  build := build
  parts := id
  toJson := toJson
  readWire := readWire InlineReviewComment.readWire
  fromJson := fromJson

def RemoteIdentity.boundary : Boundary RemoteIdentity RemoteIdentity where
  Fits := Fits
  comments _ := []
  build := build
  parts := id
  toJson := toJson
  readWire := readWire
  fromJson := fromJson

def RemotePrecondition.boundary : Boundary RemotePrecondition RemotePrecondition where
  Fits := Fits
  comments _ := []
  build := build
  parts := id
  toJson := toJson
  readWire := readWire
  fromJson := fromJson

section Faithful

theorem InlineReviewComment.fits_of_build {raw comment : InlineReviewComment}
    (hbuilt : raw.build = .ok comment) : comment.Fits ↔ raw.Fits := by
  rw [Fits, Fits, (new_eq_ok.1 hbuilt).2.2.1]

theorem InlineReviewComment.faithful_of_rebuilt {comment : InlineReviewComment}
    (hfits : comment.Fits) (hagain : comment.build = .ok comment) :
    boundary.Faithful comment := by
  constructor
  · exact fromJson_iff.2 ⟨comment, readWire_toJson hfits, hagain⟩
  · exact hagain
  · intro other hother
    rw [List.mem_singleton.mp hother]
    exact (new_eq_ok.1 hagain).1.2

theorem InlineReviewComment.faithful : boundary.FaithfulUnlessRooted := by
  constructor
  · intro raw comment hfits hbuilt
    have hunrooted : boundary.Unrooted raw ↔ comment.build = .ok comment := by
      rw [build, new_stored hbuilt]
      simp [Boundary.Unrooted, boundary]
    rw [hunrooted]
    constructor
    · exact fun hfaithful => hfaithful.rebuilt
    · exact faithful_of_rebuilt ((fits_of_build hbuilt).mpr hfits)
  · intro json comment hread
    obtain ⟨raw, hraw, hbuilt⟩ := fromJson_iff.1 hread
    exact ⟨raw, hraw, readWire_fits hraw, hbuilt⟩

theorem RemoteIdentity.faithful : boundary.FaithfulUnlessRooted := by
  constructor
  · intro raw remote hfits hbuilt
    have hnone : ∀ comment ∈ boundary.comments raw, ¬ IsRooted comment.path :=
      fun comment hcomment => absurd hcomment List.not_mem_nil
    obtain ⟨hsame, hagain⟩ := new_stored hbuilt
    have hfits : remote.Fits := hsame ▸ hfits
    refine iff_of_true ⟨?_, hagain, ?_⟩ hnone
    · exact fromJson_iff.2 ⟨remote, readWire_toJson hfits, hagain⟩
    · exact fun comment hcomment => absurd hcomment List.not_mem_nil
  · intro json remote hread
    obtain ⟨raw, hraw, hbuilt⟩ := fromJson_iff.1 hread
    exact ⟨raw, hraw, readWire_fits hraw, hbuilt⟩

theorem RemotePrecondition.faithful : boundary.FaithfulUnlessRooted := by
  constructor
  · intro raw precondition hfits hbuilt
    have hnone : ∀ comment ∈ boundary.comments raw, ¬ IsRooted comment.path :=
      fun comment hcomment => absurd hcomment List.not_mem_nil
    obtain ⟨hsame, hagain⟩ := new_stored hbuilt
    have hfits : precondition.Fits := by
      rw [Fits, hsame]
      exact hfits
    refine iff_of_true ⟨?_, hagain, ?_⟩ hnone
    · exact fromJson_iff.2 ⟨precondition, readWire_toJson hfits, hagain⟩
    · exact fun comment hcomment => absurd hcomment List.not_mem_nil
  · intro json precondition hread
    obtain ⟨raw, hraw, hbuilt⟩ := fromJson_iff.1 hread
    exact ⟨raw, hraw, readWire_fits hraw, hbuilt⟩

namespace GitHubAction

variable {raw action : GitHubAction} {comments : List InlineReviewComment}

theorem inlineComments_withComments
    (hall : raw.inlineComments.mapM InlineReviewComment.build = .ok comments) :
    (raw.withComments comments).inlineComments = comments := by
  cases raw
  case review => rfl
  all_goals
    cases hall
    rfl

theorem pullRequestNumber_withComments :
    (raw.withComments comments).pullRequestNumber = raw.pullRequestNumber := by
  cases raw <;> rfl

/-- An action that has been built has the comments that have been built, and
passes its constructor with them. -/
theorem build_stored (hbuilt : raw.build = .ok action) :
    raw.inlineComments.mapM InlineReviewComment.build = .ok action.inlineComments ∧
      action.pullRequestNumber = raw.pullRequestNumber ∧ action.construct = .ok action := by
  obtain ⟨comments, hall, hconstruct⟩ := bind_eq_ok.1 hbuilt
  obtain ⟨hagain, hnumber, hcomments⟩ := construct_stored hconstruct
  rw [inlineComments_withComments hall] at hcomments
  rw [pullRequestNumber_withComments] at hnumber
  rw [hcomments]
  exact ⟨hall, hnumber, hagain⟩

/-- An action that passes its constructor is built again exactly when its
comments are. -/
theorem rebuilt_iff (hagain : action.construct = .ok action) : action.build = .ok action ↔
    ∀ comment ∈ action.inlineComments, comment.build = .ok comment := by
  have hsame : action.inlineComments.mapM InlineReviewComment.build = .ok action.inlineComments ↔
      ∀ comment ∈ action.inlineComments, comment.build = .ok comment := by
    rw [mapM_eq_ok, List.forall₂_same]
  rw [← hsame]
  constructor
  · exact fun hbuilt => (build_stored hbuilt).1
  · intro hall
    rw [build, hall, ok_bind, withComments_inlineComments]
    exact hagain

end GitHubAction

theorem GitHubAction.unrooted_iff {raw action : GitHubAction} (hbuilt : raw.build = .ok action) :
    boundary.Unrooted raw ↔ action.build = .ok action := by
  obtain ⟨hall, -, hagain⟩ := build_stored hbuilt
  rw [rebuilt_iff hagain]
  exact (forall_results_iff hall fun _ _ => InlineReviewComment.new_stored).symm

theorem GitHubAction.faithful : boundary.FaithfulUnlessRooted := by
  constructor
  · intro raw action hfits hbuilt
    obtain ⟨hall, hnumber, hagain⟩ := build_stored hbuilt
    have hnumbers : ∀ number ∈ action.pullRequestNumber, number < 2 ^ 64 := by
      rw [hnumber]
      exact hfits.1
    have hcomments : ∀ comment ∈ action.inlineComments, comment.Fits :=
      (forall_results_iff hall fun _ _ => InlineReviewComment.fits_of_build).mpr hfits.2
    rw [unrooted_iff hbuilt]
    constructor
    · exact fun hfaithful => hfaithful.rebuilt
    · intro hrebuilt
      have heach : ∀ comment ∈ action.inlineComments,
          InlineReviewComment.boundary.Faithful comment := by
        intro comment hcomment
        exact InlineReviewComment.faithful_of_rebuilt (hcomments comment hcomment)
          ((rebuilt_iff hagain).mp hrebuilt comment hcomment)
      have hwritten : readWire InlineReviewComment.fromJson action.toJson = some action :=
        (readWire_toJson_iff action hnumbers).mpr fun comment hcomment =>
          (heach comment hcomment).read_back
      constructor
      · change fromJson action.toJson = some action
        rw [fromJson, hwritten, Option.bind_eq_bind, Option.bind_some, hagain]
        rfl
      · exact hrebuilt
      · intro comment hcomment
        exact (heach comment hcomment).relative comment (List.mem_singleton_self comment)
  · intro json action hread
    obtain ⟨raw, hraw, hbuilt⟩ := fromJson_iff.1 hread
    exact ⟨raw, hraw, readWire_fits hraw, hbuilt⟩

end Faithful

/-! ### Faithful previews -/

section Previews

variable [Sha256]

namespace GitHubActionPreview

/-- The parts that a preview is built from. -/
structure Raw where
  remote : RemoteIdentity
  action : GitHubAction
  precondition : RemotePrecondition

def build (raw : Raw) : Except GitHubActionError GitHubActionPreview := do
  return GitHubActionPreview.new (← raw.remote.build) (← raw.action.build)
    (← raw.precondition.build)

/-- The parts of a preview, not yet checked. -/
def readWire (value : Json) : Option Raw := do
  let [remote, action, precondition, _, _, _] ← record? false fieldNames value | none
  return {
    remote := ← required RemoteIdentity.readWire remote
    action := ← required (GitHubAction.readWire InlineReviewComment.readWire) action
    precondition := ← required RemotePrecondition.readWire precondition }

def boundary : Boundary Raw GitHubActionPreview where
  Fits raw := raw.remote.Fits ∧ raw.action.Fits ∧ raw.precondition.Fits
  comments raw := raw.action.inlineComments
  build := build
  parts preview := ⟨preview.remote, preview.action, preview.precondition⟩
  toJson := toJson
  readWire := readWire
  fromJson := fromJson

theorem build_eq_ok {raw : Raw} {preview : GitHubActionPreview} : build raw = .ok preview ↔
    raw.remote.build = .ok preview.remote ∧ raw.action.build = .ok preview.action ∧
      raw.precondition.build = .ok preview.precondition := by
  simp only [build, bind_eq_ok, pure_eq_ok]
  constructor
  · rintro ⟨remote, hremote, action, haction, precondition, hprecondition, rfl⟩
    exact ⟨hremote, haction, hprecondition⟩
  · rintro ⟨hremote, haction, hprecondition⟩
    exact ⟨_, hremote, _, haction, _, hprecondition, preview.eq_new.symm⟩

theorem fromJson_toJson {preview : GitHubActionPreview}
    (hremote : RemoteIdentity.fromJson preview.remote.toJson = some preview.remote)
    (haction : GitHubAction.fromJson preview.action.toJson = some preview.action)
    (hprecondition : RemotePrecondition.fromJson preview.precondition.toJson =
      some preview.precondition) : fromJson preview.toJson = some preview := by
  have hpermissions : asList? asStr? (.arr (preview.requiredPermissions.map .str)) =
      some preview.requiredPermissions := asList?_map_iff.2 fun _ _ => rfl
  rw [fromJson, toJson, record?_obj (by simp [Fills, fieldNames]) (by decide)]
  simp only [List.map_cons, List.map_nil, Option.bind_eq_bind, Option.bind_some, required, asStr?,
    hremote, haction, hprecondition, hpermissions, ← preview.eq_new, and_self, if_true]

/-- A reader of a preview has read its parts. -/
theorem exists_of_fromJson {value : Json} {preview : GitHubActionPreview}
    (hread : fromJson value = some preview) : ∃ raw, readWire value = some raw ∧
      boundary.Fits raw ∧ build raw = .ok preview := by
  obtain ⟨fields, hfields, hread⟩ := Option.bind_eq_some_iff.mp hread
  split at hread
  next remoteField actionField preconditionField payloadField keyField permissionsField =>
    obtain ⟨remote, hremote, hread⟩ := Option.bind_eq_some_iff.mp hread
    obtain ⟨action, haction, hread⟩ := Option.bind_eq_some_iff.mp hread
    obtain ⟨precondition, hprecondition, hread⟩ := Option.bind_eq_some_iff.mp hread
    obtain ⟨payload, -, hread⟩ := Option.bind_eq_some_iff.mp hread
    obtain ⟨key, -, hread⟩ := Option.bind_eq_some_iff.mp hread
    obtain ⟨permissions, -, hread⟩ := Option.bind_eq_some_iff.mp hread
    have hnew : GitHubActionPreview.new remote action precondition = preview := by
      dsimp only at hread
      split at hread
      · exact Option.some.inj hread
      · cases hread
    cases remoteField with
    | none => cases hremote
    | some remoteWritten =>
        cases actionField with
        | none => cases haction
        | some actionWritten =>
            cases preconditionField with
            | none => cases hprecondition
            | some preconditionWritten =>
                obtain ⟨rawRemote, hrawRemote, hbuiltRemote⟩ :=
                  RemoteIdentity.fromJson_iff.1 hremote
                obtain ⟨rawAction, hrawAction, hbuiltAction⟩ := GitHubAction.fromJson_iff.1 haction
                obtain ⟨rawPrecondition, hrawPrecondition, hbuiltPrecondition⟩ :=
                  RemotePrecondition.fromJson_iff.1 hprecondition
                refine ⟨⟨rawRemote, rawAction, rawPrecondition⟩, ?_, ?_, ?_⟩
                · simp only [readWire, hfields, Option.bind_eq_bind, Option.bind_some, required,
                    hrawRemote, hrawAction, hrawPrecondition, Option.pure_def]
                · exact ⟨RemoteIdentity.readWire_fits hrawRemote,
                    GitHubAction.readWire_fits hrawAction,
                    RemotePrecondition.readWire_fits hrawPrecondition⟩
                · rw [build_eq_ok, ← hnew]
                  exact ⟨hbuiltRemote, hbuiltAction, hbuiltPrecondition⟩
  next => cases hread

theorem faithful : boundary.FaithfulUnlessRooted := by
  constructor
  · intro raw preview hfits hbuilt
    obtain ⟨hremote, haction, hprecondition⟩ := build_eq_ok.1 hbuilt
    have hnone : ∀ comment ∈ ([] : List InlineReviewComment), ¬ IsRooted comment.path :=
      fun comment hcomment => absurd hcomment List.not_mem_nil
    have hsafeRemote := (RemoteIdentity.faithful.built _ _ hfits.1 hremote).mpr hnone
    have hsafePrecondition :=
      (RemotePrecondition.faithful.built _ _ hfits.2.2 hprecondition).mpr hnone
    constructor
    · intro hfaithful
      exact (GitHubAction.unrooted_iff haction).mpr (build_eq_ok.1 hfaithful.rebuilt).2.1
    · intro hunrooted
      have hsafe := (GitHubAction.faithful.built _ _ hfits.2.1 haction).mpr hunrooted
      constructor
      · exact fromJson_toJson hsafeRemote.read_back hsafe.read_back hsafePrecondition.read_back
      · exact build_eq_ok.2 ⟨hsafeRemote.rebuilt, hsafe.rebuilt, hsafePrecondition.rebuilt⟩
      · exact hsafe.relative
  · exact fun json preview hread => exists_of_fromJson hread

end GitHubActionPreview

/-- What the constructors build and the readers accept is faithful exactly when
no comment was given a rooted path. -/
theorem wire_faithful_iff :
    InlineReviewComment.boundary.FaithfulUnlessRooted ∧
      GitHubAction.boundary.FaithfulUnlessRooted ∧
      RemoteIdentity.boundary.FaithfulUnlessRooted ∧
      RemotePrecondition.boundary.FaithfulUnlessRooted ∧
      GitHubActionPreview.boundary.FaithfulUnlessRooted :=
  ⟨InlineReviewComment.faithful, GitHubAction.faithful, RemoteIdentity.faithful,
    RemotePrecondition.faithful, GitHubActionPreview.faithful⟩

end Previews

namespace ReviewSample

def reviewHead : String := "aaaaaaaaaaaaaaaaaaaaaaaaaaaaaaaaaaaaaaaa"

/-- A review with one comment, its texts not yet trimmed. -/
def rawReview : GitHubActionPreview.Raw where
  remote := ⟨42, 84, "octo/demo"⟩
  action := .review 7 reviewHead .comment " Reviewed" [⟨"src/lib.rs ", 12, "Look "⟩]
  precondition := ⟨some reviewHead, none, 3⟩

/-- SHA-256 on the two texts of the review, told apart by their lengths. -/
scoped instance reviewSha256 : Sha256 where
  digest text := ([
    (201, 0x2e89e6ae1737ce9cab6715b61d654e15f3b8e3ee61c53531b9b6bf1783b866a7),
    (385, 0x28564f37ace7c022e8ea71b7ab42bbc3496a6f6a4a7e337e83e2a553a43aec92)
    ].lookup text.utf8ByteSize).getD 0

end ReviewSample

open ReviewSample in
/-- The review of the sample is built and stays what it is. -/
theorem wire_faithful_review : ∃ preview,
    GitHubActionPreview.build rawReview = .ok preview ∧
      GitHubActionPreview.boundary.Faithful preview ∧
      preview.action.inlineComments = [⟨"src/lib.rs", 12, "Look"⟩] := by
  have hbuilt : GitHubActionPreview.build rawReview = .ok (GitHubActionPreview.new
      ⟨42, 84, "octo/demo"⟩
      (.review 7 reviewHead .comment "Reviewed" [⟨"src/lib.rs", 12, "Look"⟩])
      ⟨some reviewHead, none, 3⟩) := by
    rw [GitHubActionPreview.build_eq_ok]
    refine ⟨?_, ?_, ?_⟩
    · rfl
    · rfl
    · rfl
  have hfits : GitHubActionPreview.boundary.Fits rawReview := by
    have hnumber : ∀ number ∈ rawReview.action.pullRequestNumber, number < 2 ^ 64 := by
      intro number hnumber
      rw [← Option.some.inj hnumber]
      decide
    have hcomments : ∀ comment ∈ rawReview.action.inlineComments, comment.Fits := by
      intro comment hcomment
      rw [List.mem_singleton.mp hcomment]
      exact (by decide : 12 < 2 ^ 64)
    exact ⟨⟨by decide, by decide⟩, ⟨hnumber, hcomments⟩, (by decide : 3 < 2 ^ 64)⟩
  refine ⟨_, hbuilt, ?_, rfl⟩
  refine (wire_faithful_iff.2.2.2.2.built _ _ hfits hbuilt).mpr ?_
  intro comment hcomment
  rw [List.mem_singleton.mp hcomment]
  decide

/-- A comment at an absolute path behind a blank is built, and is accepted from
its serialized form, but what is stored is not read back. -/
theorem rooted_comment_stored : ∃ comment : InlineReviewComment,
    InlineReviewComment.new " /etc/passwd" 1 "Look" = .ok comment ∧
      InlineReviewComment.fromJson (.obj [("path", .str " /etc/passwd"), ("line", .int 1),
        ("body", .str "Look")]) = some comment ∧
      comment.path = "/etc/passwd" ∧ ¬ IsRelative comment.path ∧
      InlineReviewComment.fromJson comment.toJson = none := by
  refine ⟨⟨"/etc/passwd", 1, "Look"⟩, rfl, ?_, rfl, ?_, ?_⟩
  · decide
  · exact fun hrelative => hrelative.1 rfl
  · decide

end Patchwright
