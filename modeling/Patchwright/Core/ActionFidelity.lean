import Patchwright.Core.ActionWire

/-!
# Fidelity of the wire format

A constructor checks what it stores, so a stored value passes the constructor
once more, and its serialized form is read back.  The one exception is the path
of a comment, which is checked before it is trimmed: a path whose first letter
behind some whitespace is a slash is accepted, and is stored as a path that is
not.
-/

namespace Patchwright

open Checked Json

/-! ### Checks of stored values -/

section Stored

variable {value stored field : String} {maximum number : Nat}

theorem validateNumber_eq_ok {result : Nat} :
    validateNumber number = .ok result ↔ number ≠ 0 ∧ number = result := by
  simp only [validateNumber, bind_eq_ok, ensure_eq_ok, pure_eq_ok, exists_const]

theorem validateNodeId_stored (hok : validateNodeId value = .ok stored) :
    validateNodeId stored = .ok stored := by
  have hsame : value = stored := by
    simp only [validateNodeId, bind_eq_ok, pure_eq_ok] at hok
    obtain ⟨-, -, hsame⟩ := hok
    exact hsame
  rwa [hsame] at hok

theorem validateRef_stored (hok : validateRef value = .ok stored) :
    validateRef stored = .ok stored := by
  have hsame : value = stored := by
    simp only [validateRef, bind_eq_ok, pure_eq_ok] at hok
    obtain ⟨-, -, hsame⟩ := hok
    exact hsame
  rwa [hsame] at hok

theorem validateText_stored (hok : validateText value maximum field = .ok stored) :
    stored = trim value ∧ validateText stored maximum field = .ok stored := by
  simp only [validateText, bind_eq_ok, ensure_eq_ok, pure_eq_ok, exists_const] at hok ⊢
  obtain ⟨hchecked, rfl⟩ := hok
  rw [trim_trim]
  exact ⟨rfl, hchecked, rfl⟩

theorem validateBody_stored (hok : validateBody value = .ok stored) :
    validateBody stored = .ok stored := by
  simp only [validateBody, bind_eq_ok, ensure_eq_ok, pure_eq_ok, exists_const] at hok ⊢
  obtain ⟨hchecked, rfl⟩ := hok
  rw [trim_trim]
  exact ⟨hchecked, rfl⟩

/-- One character in lower case. -/
def lowered (char : Char) : Char :=
  if 'A' ≤ char ∧ char ≤ 'Z' then Char.ofNat (char.toNat + 32) else char

theorem code_of_hexdigit {char : Char} (hdigit : isAsciiHexdigit char = true) :
    char.toNat < 103 := by
  have hcode : ∀ last : Char, char ≤ last → char.toNat ≤ last.toNat :=
    fun _ hle => UInt32.le_iff_toNat_le.mp hle
  simp only [isAsciiHexdigit, Bool.or_eq_true, Bool.and_eq_true, decide_eq_true_iff] at hdigit
  rcases hdigit with (⟨-, hle⟩ | ⟨-, hle⟩) | ⟨-, hle⟩
  · exact (hcode '9' hle).trans_lt (by decide)
  · exact (hcode 'f' hle).trans_lt (by decide)
  · exact (hcode 'F' hle).trans_lt (by decide)

/-- A hexadecimal digit in lower case is one, of one byte, and stays as it is. -/
theorem lowered_hexdigit {char : Char} (hdigit : isAsciiHexdigit char = true) :
    isAsciiHexdigit (lowered char) = true ∧ (lowered char).utf8Size = char.utf8Size ∧
      lowered (lowered char) = lowered char := by
  have hall : ∀ code < 103, isAsciiHexdigit (Char.ofNat code) = true →
      isAsciiHexdigit (lowered (Char.ofNat code)) = true ∧
        (lowered (Char.ofNat code)).utf8Size = (Char.ofNat code).utf8Size ∧
        lowered (lowered (Char.ofNat code)) = lowered (Char.ofNat code) := by
    decide
  have hchar := hall char.toNat (code_of_hexdigit hdigit)
  rw [Char.ofNat_toNat] at hchar
  exact hchar hdigit

theorem toAsciiLowercase_eq (chars : List Char) : toAsciiLowercase chars = chars.map lowered := rfl

theorem utf8Len_lowered {chars : List Char} (hdigits : ∀ char ∈ chars, isAsciiHexdigit char = true) :
    String.utf8Len (chars.map lowered) = String.utf8Len chars := by
  induction chars with
  | nil => rfl
  | cons char chars ih =>
      rw [List.forall_mem_cons] at hdigits
      rw [List.map_cons, String.utf8Len_cons, String.utf8Len_cons, ih hdigits.2,
        (lowered_hexdigit hdigits.1).2.1]

theorem validateSha_stored (hok : validateSha value = .ok stored) :
    validateSha stored = .ok stored := by
  simp only [validateSha, bind_eq_ok, ensure_eq_ok, pure_eq_ok, exists_const,
    toAsciiLowercase_eq] at hok ⊢
  obtain ⟨⟨hlength, hdigits⟩, rfl⟩ := hok
  rw [List.all_eq_true] at hdigits
  rw [String.toList_ofList, String.utf8ByteSize_ofList, utf8Len_lowered hdigits,
    ← String.utf8ByteSize_ofList, String.ofList_toList, List.map_map, List.all_map]
  refine ⟨⟨hlength, ?_⟩, ?_⟩
  · exact List.all_eq_true.mpr fun char hchar => (lowered_hexdigit (hdigits char hchar)).1
  · congr 1
    exact List.map_congr_left fun char hchar => (lowered_hexdigit (hdigits char hchar)).2.2

theorem mapM_stored {α : Type} {check : α → Except GitHubActionError α}
    (hstored : ∀ value stored, check value = .ok stored → check stored = .ok stored)
    {value stored : Option α} (hok : value.mapM check = .ok stored) :
    stored.mapM check = .ok stored := by
  cases value with
  | none =>
      cases hok
      rfl
  | some value =>
      have hmap : (some value).mapM check = some <$> check value := rfl
      rw [hmap, map_eq_ok] at hok
      obtain ⟨result, hresult, rfl⟩ := hok
      have hagain : (some result).mapM check = some <$> check result := rfl
      rw [hagain, hstored value result hresult]
      rfl

end Stored

/-! ### Stored comments -/

section Comments

variable {path body : String} {line : Nat} {comment : InlineReviewComment}

/-- The first letter of the path behind any whitespace is a slash. -/
def IsRooted (path : String) : Prop := (trim path).toList.head? = some '/'

instance (path : String) : Decidable (IsRooted path) := inferInstanceAs (Decidable (_ = _))

theorem InlineReviewComment.new_eq_ok : InlineReviewComment.new path line body = .ok comment ↔
    (line ≠ 0 ∧ path.toList.head? ≠ some '/' ∧ ¬ ['.', '.'] <:+: path.toList) ∧
      validateText path 1024 "path" = .ok comment.path ∧ line = comment.line ∧
      validateBody body = .ok comment.body := by
  obtain ⟨storedPath, storedLine, storedBody⟩ := comment
  simp only [InlineReviewComment.new, bind_eq_ok, ensure_eq_ok, pure_eq_ok, exists_const, not_or,
    InlineReviewComment.mk.injEq]
  constructor
  · rintro ⟨hchecked, kept, hpath, shown, hbody, rfl, rfl, rfl⟩
    exact ⟨hchecked, hpath, rfl, hbody⟩
  · rintro ⟨hchecked, hpath, rfl, hbody⟩
    exact ⟨hchecked, storedPath, hpath, storedBody, hbody, rfl, rfl, rfl⟩

/-- A stored comment passes its constructor exactly when its path was not
rooted. -/
theorem InlineReviewComment.new_stored (hok : InlineReviewComment.new path line body = .ok comment) :
    InlineReviewComment.new comment.path comment.line comment.body = .ok comment ↔
      ¬ IsRooted path := by
  obtain ⟨⟨hline, -, hparent⟩, hpath, rfl, hbody⟩ := InlineReviewComment.new_eq_ok.1 hok
  obtain ⟨htrim, hstored⟩ := validateText_stored hpath
  have hfree : ¬ ['.', '.'] <:+: comment.path.toList := by
    rw [htrim]
    exact fun hin => hparent (hin.trans (trim_within path))
  rw [InlineReviewComment.new_eq_ok, IsRooted, ← htrim]
  constructor
  · exact fun hagain => hagain.1.2.1
  · exact fun hrooted => ⟨⟨hline, hrooted, hfree⟩, hstored, rfl, validateBody_stored hbody⟩

end Comments

/-! ### Stored actions -/

namespace GitHubAction

def inlineComments : GitHubAction → List InlineReviewComment
  | review _ _ _ _ comments => comments
  | _ => []

theorem tryPullRequest_eq_ok {make : Nat → String → GitHubAction} {number : Nat} {sha : String}
    {action : GitHubAction} : tryPullRequest make number sha = .ok action ↔
      number ≠ 0 ∧ ∃ stored, validateSha sha = .ok stored ∧ make number stored = action := by
  simp only [tryPullRequest, bind_eq_ok, validateNumber_eq_ok, pure_eq_ok]
  constructor
  · rintro ⟨_, ⟨hnumber, rfl⟩, stored, hsha, hmake⟩
    exact ⟨hnumber, stored, hsha, hmake⟩
  · rintro ⟨hnumber, stored, hsha, hmake⟩
    exact ⟨number, ⟨hnumber, rfl⟩, stored, hsha, hmake⟩

theorem tryPullRequest_stored {make : Nat → String → GitHubAction} {number : Nat} {sha : String}
    {action : GitHubAction} (hok : tryPullRequest make number sha = .ok action) :
    ∃ stored, make number stored = action ∧ tryPullRequest make number stored = .ok action := by
  obtain ⟨hnumber, stored, hsha, hmake⟩ := tryPullRequest_eq_ok.1 hok
  exact ⟨stored, hmake, tryPullRequest_eq_ok.2 ⟨hnumber, stored, validateSha_stored hsha, hmake⟩⟩

/-- A stored action passes its constructor, and has the numbers and the comments
that the constructor was given. -/
theorem construct_stored {wire action : GitHubAction} (hok : wire.construct = .ok action) :
    action.construct = .ok action ∧ action.pullRequestNumber = wire.pullRequestNumber ∧
      action.inlineComments = wire.inlineComments := by
  cases wire with
  | createBranch branch fromSha =>
      simp only [construct, tryCreateBranch, bind_eq_ok, pure_eq_ok] at hok
      obtain ⟨ref, href, sha, hsha, rfl⟩ := hok
      refine ⟨?_, rfl, rfl⟩
      simp only [construct, tryCreateBranch, validateRef_stored href, validateSha_stored hsha, ok_bind]
      rfl
  | pushIntent branch headSha =>
      simp only [construct, tryPushIntent, bind_eq_ok, pure_eq_ok] at hok
      obtain ⟨ref, href, sha, hsha, rfl⟩ := hok
      refine ⟨?_, rfl, rfl⟩
      simp only [construct, tryPushIntent, validateRef_stored href, validateSha_stored hsha, ok_bind]
      rfl
  | comment issueNumber body =>
      simp only [construct, tryComment, bind_eq_ok, pure_eq_ok] at hok
      obtain ⟨number, hnumber, text, htext, rfl⟩ := hok
      obtain ⟨-, rfl⟩ := validateNumber_eq_ok.1 hnumber
      refine ⟨?_, rfl, rfl⟩
      simp only [construct, tryComment, hnumber, validateBody_stored htext, ok_bind]
      rfl
  | review pullRequestNumber headSha event body comments =>
      simp only [construct, tryReview, bind_eq_ok, ensure_eq_ok, pure_eq_ok] at hok
      obtain ⟨number, hnumber, text, htext, -, hnodup, sha, hsha, rfl⟩ := hok
      obtain ⟨-, rfl⟩ := validateNumber_eq_ok.1 hnumber
      refine ⟨?_, rfl, rfl⟩
      simp only [construct, tryReview, hnumber, validateBody_stored htext, validateSha_stored hsha,
        ensure, if_pos hnodup, ok_bind]
      rfl
  | resolveReviewThread pullRequestNumber threadId headSha =>
      simp only [construct, tryResolveReviewThread, bind_eq_ok, pure_eq_ok] at hok
      obtain ⟨number, hnumber, node, hnode, sha, hsha, rfl⟩ := hok
      obtain ⟨-, rfl⟩ := validateNumber_eq_ok.1 hnumber
      refine ⟨?_, rfl, rfl⟩
      simp only [construct, tryResolveReviewThread, hnumber, validateNodeId_stored hnode,
        validateSha_stored hsha, ok_bind]
      rfl
  | checkRun name headSha status conclusion =>
      simp only [construct, tryCheckRun, bind_eq_ok, ensure_eq_ok, pure_eq_ok] at hok
      obtain ⟨-, ⟨hstatus, hconclusion⟩, title, htitle, sha, hsha, outcome, houtcome, rfl⟩ := hok
      have hsome : outcome.isSome = conclusion.isSome := by
        cases conclusion with
        | none =>
            cases houtcome
            rfl
        | some text =>
            have hmap : (some text).mapM (fun value => validateText value 32 "conclusion") =
                some <$> validateText text 32 "conclusion" := rfl
            rw [hmap, map_eq_ok] at houtcome
            obtain ⟨kept, -, rfl⟩ := houtcome
            rfl
      have hagain := mapM_stored (fun _ _ hkept => (validateText_stored hkept).2) houtcome
      refine ⟨?_, rfl, rfl⟩
      simp only [construct, tryCheckRun, (validateText_stored htitle).2, validateSha_stored hsha,
        ensure, hagain, hsome, if_pos (And.intro hstatus hconclusion), ok_bind]
      rfl
  | draftPullRequest title head base body headSha baseSha =>
      simp only [construct, tryDraftPullRequest, bind_eq_ok, pure_eq_ok] at hok
      obtain ⟨name, hname, source, hsource, target, htarget, text, htext, sha, hsha, other, hother,
        rfl⟩ := hok
      refine ⟨?_, rfl, rfl⟩
      simp only [construct, tryDraftPullRequest, (validateText_stored hname).2,
        validateRef_stored hsource, validateRef_stored htarget, validateBody_stored htext,
        validateSha_stored hsha, validateSha_stored hother, ok_bind]
      rfl
  | updatePullRequestBranch number sha =>
      obtain ⟨stored, rfl, hstored⟩ := tryPullRequest_stored hok
      exact ⟨hstored, rfl, rfl⟩
  | readyPullRequest number sha =>
      obtain ⟨stored, rfl, hstored⟩ := tryPullRequest_stored hok
      exact ⟨hstored, rfl, rfl⟩
  | closePullRequest number sha =>
      obtain ⟨stored, rfl, hstored⟩ := tryPullRequest_stored hok
      exact ⟨hstored, rfl, rfl⟩
  | closeIssue issueNumber =>
      simp only [construct, tryCloseIssue, bind_eq_ok, pure_eq_ok] at hok
      obtain ⟨number, hnumber, rfl⟩ := hok
      obtain ⟨-, rfl⟩ := validateNumber_eq_ok.1 hnumber
      refine ⟨?_, rfl, rfl⟩
      simp only [construct, tryCloseIssue, hnumber, ok_bind]
      rfl
  | enqueuePullRequest number sha =>
      obtain ⟨stored, rfl, hstored⟩ := tryPullRequest_stored hok
      exact ⟨hstored, rfl, rfl⟩
  | mergePullRequest number sha method =>
      obtain ⟨stored, rfl, hstored⟩ := tryPullRequest_stored hok
      exact ⟨hstored, rfl, rfl⟩

end GitHubAction

/-! ### Stored remotes and preconditions -/

theorem RemoteIdentity.new_stored {repositoryId installationId : Nat} {name : String}
    {remote : RemoteIdentity} (hok : RemoteIdentity.new repositoryId installationId name = .ok remote) :
    remote = ⟨repositoryId, installationId, name⟩ ∧
      RemoteIdentity.new remote.repositoryId remote.installationId remote.repositoryFullName =
        .ok remote := by
  have hsame : remote = ⟨repositoryId, installationId, name⟩ := by
    simp only [RemoteIdentity.new, bind_eq_ok, pure_eq_ok] at hok
    obtain ⟨-, -, ⟨owner, repository⟩, -, -, -, -, -, rfl⟩ := hok
    rfl
  refine ⟨hsame, ?_⟩
  rw [hsame] at hok ⊢
  exact hok

theorem RemotePrecondition.new_stored {headSha baseSha : Option String} {generation : Nat}
    {precondition : RemotePrecondition}
    (hok : RemotePrecondition.new headSha baseSha generation = .ok precondition) :
    precondition.snapshotGeneration = generation ∧
      RemotePrecondition.new precondition.expectedHeadSha precondition.expectedBaseSha
        precondition.snapshotGeneration = .ok precondition := by
  simp only [RemotePrecondition.new, bind_eq_ok, ensure_eq_ok, pure_eq_ok] at hok ⊢
  obtain ⟨-, hgeneration, head, hhead, base, hbase, rfl⟩ := hok
  have hstored : ∀ value stored, validateSha value = .ok stored → validateSha stored = .ok stored :=
    fun _ _ hkept => validateSha_stored hkept
  exact ⟨rfl, (), hgeneration, head, mapM_stored hstored hhead, base, mapM_stored hstored hbase, rfl⟩

/-! ### Written values -/

/-- The line of a comment is an unsigned 64-bit number. -/
def InlineReviewComment.Fits (comment : InlineReviewComment) : Prop := comment.line < 2 ^ 64

/-- The numbers of an action are unsigned 64-bit numbers. -/
def GitHubAction.Fits (action : GitHubAction) : Prop :=
  (∀ number ∈ action.pullRequestNumber, number < 2 ^ 64) ∧
    ∀ comment ∈ action.inlineComments, comment.Fits

def RemoteIdentity.Fits (remote : RemoteIdentity) : Prop :=
  remote.repositoryId < 2 ^ 64 ∧ remote.installationId < 2 ^ 64

def RemotePrecondition.Fits (precondition : RemotePrecondition) : Prop :=
  precondition.snapshotGeneration < 2 ^ 64

theorem asU64_int {number : Nat} (hbound : number < 2 ^ 64) : asU64 (.int number) = some number :=
  asBelow?_int hbound

theorem InlineReviewComment.readWire_toJson {comment : InlineReviewComment} (hfits : comment.Fits) :
    readWire comment.toJson = some comment := by
  rw [readWire, toJson, record?_obj (by simp [Fills]) (by decide)]
  simp only [List.map_cons, List.map_nil, Option.bind_eq_bind, Option.bind_some, required, asStr?,
    asU64_int hfits]
  rfl

theorem RemoteIdentity.readWire_toJson {remote : RemoteIdentity} (hfits : remote.Fits) :
    readWire remote.toJson = some remote := by
  rw [readWire, toJson, record?_obj (by simp [Fills]) (by decide)]
  simp only [List.map_cons, List.map_nil, Option.bind_eq_bind, Option.bind_some, required, asStr?,
    asU64_int hfits.1, asU64_int hfits.2]
  rfl

theorem RemotePrecondition.readWire_toJson {precondition : RemotePrecondition}
    (hfits : precondition.Fits) : readWire precondition.toJson = some precondition := by
  rw [readWire, toJson, record?_obj
    (by simp [Fills, GitHubAction.expectedHeadNames, GitHubAction.expectedBaseNames]) (by decide)]
  simp only [List.map_cons, List.map_nil, Option.bind_eq_bind, Option.bind_some, required,
    optional_ofOption_str, asU64_int hfits]
  rfl

theorem ReviewEvent.read_name (event : ReviewEvent) :
    ReviewEvent.read (.str event.name) = some event := by
  cases event <;> rfl

theorem MergeMethod.read_name (method : MergeMethod) :
    MergeMethod.read (.str method.name) = some method := by
  cases method <;> rfl

namespace GitHubAction

variable {readComment : Json → Option InlineReviewComment}

theorem readPullRequest_written {make : Nat → String → GitHubAction} {number : Nat} {sha : String}
    (hnumber : number < 2 ^ 64) :
    readPullRequest make (.obj [("pullRequestNumber", .int number), ("expectedHeadSha", .str sha)]) =
      some (make number sha) := by
  rw [readPullRequest, record?_obj (by simp [Fills, numberNames, expectedHeadNames]) (by decide)]
  simp only [List.map_cons, List.map_nil, Option.bind_eq_bind, Option.bind_some, required, asStr?,
    asU64_int hnumber]
  rfl

theorem readReview_written {number : Nat} {sha body : String} {event : ReviewEvent}
    {comments : List InlineReviewComment} (hnumber : number < 2 ^ 64) :
    readFields readComment "review" (.obj [("pullRequestNumber", .int number),
        ("expectedHeadSha", .str sha), ("event", .str event.name), ("body", .str body),
        ("inlineComments", .arr (comments.map InlineReviewComment.toJson))]) =
      (asList? readComment (.arr (comments.map InlineReviewComment.toJson))).map fun kept =>
        .review number sha event body kept := by
  rw [readFields, record?_obj (by simp [Fills, numberNames, expectedHeadNames]) (by decide)]
  simp only [List.map_cons, List.map_nil, Option.bind_eq_bind, Option.bind_some, required, asStr?,
    asU64_int hnumber, ReviewEvent.read_name]
  cases asList? readComment (.arr (comments.map InlineReviewComment.toJson)) with
  | none => rfl
  | some kept => rfl

/-- A written action is read back exactly when its comments are. -/
theorem readWire_toJson_iff (action : GitHubAction)
    (hnumber : ∀ number ∈ action.pullRequestNumber, number < 2 ^ 64) :
    readWire readComment action.toJson = some action ↔
      ∀ comment ∈ action.inlineComments, readComment comment.toJson = some comment := by
  have hnone : ∀ comment ∈ ([] : List InlineReviewComment),
      readComment comment.toJson = some comment := fun _ hcomment => absurd hcomment List.not_mem_nil
  cases action with
  | createBranch branch fromSha =>
      refine iff_of_true ?_ hnone
      rw [readWire, toJson, tagged?_obj (by simp)]
      simp only [Option.bind_eq_bind, Option.bind_some]
      rw [readFields, record?_obj (by simp [Fills, fromShaNames]) (by decide)]
      rfl
  | pushIntent branch headSha =>
      refine iff_of_true ?_ hnone
      rw [readWire, toJson, tagged?_obj (by simp)]
      simp only [Option.bind_eq_bind, Option.bind_some]
      rw [readFields, record?_obj (by simp [Fills, headShaNames]) (by decide)]
      rfl
  | comment issueNumber body =>
      refine iff_of_true ?_ hnone
      rw [readWire, toJson, tagged?_obj (by simp)]
      simp only [Option.bind_eq_bind, Option.bind_some]
      rw [readFields, record?_obj (by simp [Fills, issueNumberNames]) (by decide)]
      simp only [List.map_cons, List.map_nil, Option.bind_some, required, asStr?, Option.bind_eq_bind,
        asU64_int (hnumber issueNumber rfl)]
      rfl
  | review number sha event body comments =>
      rw [readWire, toJson, tagged?_obj (by simp)]
      simp only [Option.bind_eq_bind, Option.bind_some]
      rw [readReview_written (hnumber number rfl), Option.map_eq_some_iff]
      have hcomments : asList? readComment (.arr (comments.map InlineReviewComment.toJson)) =
          some comments ↔ ∀ comment ∈ comments, readComment comment.toJson = some comment :=
        asList?_map_iff
      rw [inlineComments, ← hcomments]
      constructor
      · rintro ⟨kept, hkept, hsame⟩
        rw [hkept, (review.inj hsame).2.2.2.2]
      · intro hkept
        exact ⟨comments, hkept, rfl⟩
  | resolveReviewThread number threadId sha =>
      refine iff_of_true ?_ hnone
      rw [readWire, toJson, tagged?_obj (by simp)]
      simp only [Option.bind_eq_bind, Option.bind_some]
      rw [readFields, record?_obj (by simp [Fills, numberNames, expectedHeadNames]) (by decide)]
      simp only [List.map_cons, List.map_nil, Option.bind_some, required, asStr?, Option.bind_eq_bind,
        asU64_int (hnumber number rfl)]
      rfl
  | checkRun name headSha status conclusion =>
      refine iff_of_true ?_ hnone
      rw [readWire, toJson, tagged?_obj (by simp)]
      simp only [Option.bind_eq_bind, Option.bind_some]
      rw [readFields, record?_obj (by simp [Fills, headShaNames]) (by decide)]
      simp only [List.map_cons, List.map_nil, Option.bind_some, required, asStr?, Option.bind_eq_bind,
        optional_ofOption_str]
      rfl
  | draftPullRequest title head base body headSha baseSha =>
      refine iff_of_true ?_ hnone
      rw [readWire, toJson, tagged?_obj (by simp)]
      simp only [Option.bind_eq_bind, Option.bind_some]
      rw [readFields, record?_obj (by simp [Fills, expectedHeadNames, expectedBaseNames]) (by decide)]
      rfl
  | updatePullRequestBranch number sha =>
      refine iff_of_true ?_ hnone
      rw [readWire, toJson, tagged?_obj (by simp)]
      exact readPullRequest_written (hnumber number rfl)
  | readyPullRequest number sha =>
      refine iff_of_true ?_ hnone
      rw [readWire, toJson, tagged?_obj (by simp)]
      exact readPullRequest_written (hnumber number rfl)
  | closePullRequest number sha =>
      refine iff_of_true ?_ hnone
      rw [readWire, toJson, tagged?_obj (by simp)]
      exact readPullRequest_written (hnumber number rfl)
  | closeIssue issueNumber =>
      refine iff_of_true ?_ hnone
      rw [readWire, toJson, tagged?_obj (by simp)]
      simp only [Option.bind_eq_bind, Option.bind_some]
      rw [readFields, record?_obj (by simp [Fills, issueNumberNames]) (by decide)]
      simp only [List.map_cons, List.map_nil, Option.bind_some, required, Option.bind_eq_bind,
        asU64_int (hnumber issueNumber rfl)]
      rfl
  | enqueuePullRequest number sha =>
      refine iff_of_true ?_ hnone
      rw [readWire, toJson, tagged?_obj (by simp)]
      exact readPullRequest_written (hnumber number rfl)
  | mergePullRequest number sha method =>
      refine iff_of_true ?_ hnone
      rw [readWire, toJson, tagged?_obj (by simp)]
      simp only [Option.bind_eq_bind, Option.bind_some]
      rw [readFields, record?_obj (by simp [Fills, numberNames, expectedHeadNames]) (by decide)]
      simp only [List.map_cons, List.map_nil, Option.bind_some, required, asStr?, Option.bind_eq_bind,
        asU64_int (hnumber number rfl), MergeMethod.read_name]
      rfl

end GitHubAction

end Patchwright
