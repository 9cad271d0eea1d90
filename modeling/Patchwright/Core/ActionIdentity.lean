import Patchwright.Core.GitHubActions
import Patchwright.Library.JsonText

/-!
# What a digest identifies

A digest is written in hexadecimal and computed of a serialized value.  Both
are injective, and so are the serialized forms of an action, of the remote
identity and of the precondition of a preview: where the digest function does
not collide, equal digests are digests of equal values.
-/

namespace Patchwright

/-! ### Digests in hexadecimal -/

section Hexadecimal

theorem hexDigit_inj {first second : Nat} (hfirst : first < 16) (hsecond : second < 16)
    (hdigits : Json.hexDigit first = Json.hexDigit second) : first = second := by
  have hvalues := congrArg Json.hexValue hdigits
  rwa [Json.hexValue_hexDigit first hfirst, Json.hexValue_hexDigit second hsecond] at hvalues

/-- The digits of a number give its nibbles, and these its bits. -/
theorem nibble_eq {width first second : Nat} (hdigits : hexDigits width first = hexDigits width second)
    {place : Nat} (hplace : place < width) :
    first >>> (4 * place) % 16 = second >>> (4 * place) % 16 := by
  have hindex : width - 1 - place < width := by omega
  have hback : width - 1 - (width - 1 - place) = place := by omega
  have hat := congrArg (fun digits => digits[width - 1 - place]?) hdigits
  rw [hexDigits, hexDigits, List.getElem?_map, List.getElem?_map, List.getElem?_range hindex,
    Option.map_some, Option.map_some, Option.some.injEq, hback] at hat
  exact hexDigit_inj (Nat.mod_lt _ (by decide)) (Nat.mod_lt _ (by decide)) hat

theorem hexDigits_inj {width first second : Nat} (hfirst : first < 2 ^ (4 * width))
    (hsecond : second < 2 ^ (4 * width)) (hdigits : hexDigits width first = hexDigits width second) :
    first = second := by
  apply Nat.eq_of_testBit_eq
  intro index
  by_cases hindex : index < 4 * width
  · have hplace : index / 4 < width := by omega
    have hnibble := nibble_eq hdigits hplace
    have hbit : ∀ number : Nat,
        (number >>> (4 * (index / 4)) % 2 ^ 4).testBit (index % 4) = number.testBit index := by
      intro number
      have hlow : index % 4 < 4 := Nat.mod_lt index (by decide)
      rw [Nat.testBit_mod_two_pow, Nat.testBit_shiftRight, decide_eq_true hlow, Bool.true_and,
        Nat.div_add_mod]
    calc first.testBit index
        = (first >>> (4 * (index / 4)) % 2 ^ 4).testBit (index % 4) := (hbit first).symm
      _ = (second >>> (4 * (index / 4)) % 2 ^ 4).testBit (index % 4) :=
          congrArg (fun nibble => nibble.testBit (index % 4)) hnibble
      _ = second.testBit index := hbit second
  · have hpow : 2 ^ (4 * width) ≤ 2 ^ index := Nat.pow_le_pow_right (by decide) (by omega)
    rw [Nat.testBit_lt_two_pow (hfirst.trans_le hpow), Nat.testBit_lt_two_pow (hsecond.trans_le hpow)]

theorem sha256Hex_inj [Sha256] {first second : String}
    (hdigests : sha256Hex first = sha256Hex second) :
    Sha256.digest first = Sha256.digest second := by
  have hdigits := String.ofList_injective hdigests
  exact BitVec.eq_of_toNat_eq (hexDigits_inj (BitVec.isLt _) (BitVec.isLt _) hdigits)

end Hexadecimal

/-! ### Serialized values -/

section Serialized

theorem ofOption_str_inj {first second : Option String} :
    Json.ofOption .str first = Json.ofOption .str second ↔ first = second := by
  cases first with
  | none =>
      cases second with
      | none => exact iff_of_true rfl rfl
      | some other => exact iff_of_false nofun nofun
  | some value =>
      cases second with
      | none => exact iff_of_false nofun nofun
      | some other =>
          rw [Json.ofOption, Json.ofOption, Json.str.injEq, Option.some.injEq]

theorem ofOption_str_isPlain (value : Option String) : (Json.ofOption .str value).IsPlain := by
  cases value with
  | none => trivial
  | some value => trivial

theorem ReviewEvent.name_injective : Function.Injective ReviewEvent.name := by
  intro first second
  cases first <;> cases second <;> decide

theorem MergeMethod.name_injective : Function.Injective MergeMethod.name := by
  intro first second
  cases first <;> cases second <;> decide

theorem InlineReviewComment.toJson_injective : Function.Injective InlineReviewComment.toJson := by
  rintro ⟨path, line, body⟩ ⟨otherPath, otherLine, otherBody⟩ hvalues
  simp only [toJson, Json.obj.injEq, List.cons.injEq, Prod.mk.injEq, Json.str.injEq, Json.int.injEq,
    Int.natCast_inj, true_and, and_true] at hvalues
  obtain ⟨rfl, rfl, rfl⟩ := hvalues
  rfl

theorem InlineReviewComment.toJson_isPlain (comment : InlineReviewComment) :
    comment.toJson.IsPlain :=
  ⟨trivial, trivial, trivial, trivial⟩

namespace GitHubAction

/-- The name of an action in its serialized form. -/
def kind : GitHubAction → String
  | createBranch .. => "createBranch"
  | pushIntent .. => "pushIntent"
  | comment .. => "comment"
  | review .. => "review"
  | resolveReviewThread .. => "resolveReviewThread"
  | checkRun .. => "checkRun"
  | draftPullRequest .. => "draftPullRequest"
  | updatePullRequestBranch .. => "updatePullRequestBranch"
  | readyPullRequest .. => "readyPullRequest"
  | closePullRequest .. => "closePullRequest"
  | closeIssue .. => "closeIssue"
  | enqueuePullRequest .. => "enqueuePullRequest"
  | mergePullRequest .. => "mergePullRequest"

def kindCapabilities : List (String × Capability) := [
  ("createBranch", .createBranch), ("pushIntent", .pushBranch), ("comment", .postComment),
  ("review", .postReview), ("resolveReviewThread", .resolveThread), ("checkRun", .createCheckRun),
  ("draftPullRequest", .createPullRequest), ("updatePullRequestBranch", .updatePullRequestBranch),
  ("readyPullRequest", .readyPullRequest), ("closePullRequest", .closePullRequest),
  ("closeIssue", .closeIssue), ("enqueuePullRequest", .enqueuePullRequest),
  ("mergePullRequest", .mergePullRequest)]

theorem toJson_kind (action : GitHubAction) :
    action.toJson.get? "kind" = some (.str action.kind) := by
  cases action <;> rfl

theorem kindCapabilities_kind (action : GitHubAction) :
    kindCapabilities.lookup action.kind = some action.capability := by
  cases action <;> rfl

theorem capability_eq_of_toJson {first second : GitHubAction}
    (hvalues : first.toJson = second.toJson) : first.capability = second.capability := by
  have hkind := congrArg (Json.get? "kind") hvalues
  rw [toJson_kind, toJson_kind, Option.some.injEq, Json.str.injEq] at hkind
  have hlookup := congrArg (fun kind => kindCapabilities.lookup kind) hkind
  rw [kindCapabilities_kind, kindCapabilities_kind] at hlookup
  exact Option.some.inj hlookup

theorem toJson_injective : Function.Injective toJson := by
  intro first second hvalues
  have hcapability := capability_eq_of_toJson hvalues
  have hcomments := List.map_injective_iff.mpr InlineReviewComment.toJson_injective
  cases first <;> cases second
  all_goals first
    | (cases hcapability; done)
    | simpa only [toJson, Json.obj.injEq, List.cons.injEq, Prod.mk.injEq, Json.str.injEq,
        Json.int.injEq, Json.arr.injEq, Int.natCast_inj, ofOption_str_inj, hcomments.eq_iff,
        ReviewEvent.name_injective.eq_iff, MergeMethod.name_injective.eq_iff, true_and, and_true,
        createBranch.injEq, pushIntent.injEq, comment.injEq, review.injEq,
        resolveReviewThread.injEq, checkRun.injEq, draftPullRequest.injEq,
        updatePullRequestBranch.injEq, readyPullRequest.injEq, closePullRequest.injEq,
        closeIssue.injEq, enqueuePullRequest.injEq, mergePullRequest.injEq] using hvalues

theorem toJson_isPlain (action : GitHubAction) : action.toJson.IsPlain := by
  cases action
  case review number sha event body comments =>
    have hcomments : (Json.arr (comments.map InlineReviewComment.toJson)).IsPlain := by
      rw [Json.isPlain_arr]
      intro item hitem
      obtain ⟨comment, -, rfl⟩ := List.mem_map.mp hitem
      exact InlineReviewComment.toJson_isPlain comment
    exact ⟨trivial, trivial, trivial, trivial, trivial, hcomments, trivial⟩
  case checkRun name sha status conclusion =>
    exact ⟨trivial, trivial, trivial, trivial, ofOption_str_isPlain conclusion, trivial⟩
  all_goals simp only [toJson, Json.IsPlain, Json.FieldsPlain, and_self]

end GitHubAction

theorem RemoteIdentity.toJson_injective : Function.Injective RemoteIdentity.toJson := by
  rintro ⟨repository, installation, name⟩ ⟨otherRepository, otherInstallation, otherName⟩ hvalues
  simpa only [toJson, Json.obj.injEq, List.cons.injEq, Prod.mk.injEq, Json.str.injEq,
    Json.int.injEq, Int.natCast_inj, true_and, and_true, RemoteIdentity.mk.injEq] using hvalues

theorem RemoteIdentity.toJson_isPlain (remote : RemoteIdentity) : remote.toJson.IsPlain :=
  ⟨trivial, trivial, trivial, trivial⟩

theorem RemotePrecondition.toJson_injective : Function.Injective RemotePrecondition.toJson := by
  rintro ⟨head, base, generation⟩ ⟨otherHead, otherBase, otherGeneration⟩ hvalues
  simpa only [toJson, Json.obj.injEq, List.cons.injEq, Prod.mk.injEq, ofOption_str_inj,
    Json.int.injEq, Int.natCast_inj, true_and, and_true, RemotePrecondition.mk.injEq] using hvalues

theorem RemotePrecondition.toJson_isPlain (precondition : RemotePrecondition) :
    precondition.toJson.IsPlain :=
  ⟨ofOption_str_isPlain _, ofOption_str_isPlain _, trivial, trivial⟩

end Serialized

/-! ### Previews -/

section Previews

variable [Sha256]

/-- The texts that are hashed for a preview. -/
def GitHubActionPreview.hashedTexts (preview : GitHubActionPreview) : List String := [
  preview.action.toJson.compact,
  (Json.arr [preview.remote.toJson, preview.action.toJson, preview.precondition.toJson]).compact]

/-- The digest function does not collide on the texts that are hashed for some
previews. -/
def CollisionFree (previews : Set GitHubActionPreview) : Prop :=
  Set.InjOn Sha256.digest { text | ∃ preview ∈ previews, text ∈ preview.hashedTexts }

variable {previews : Set GitHubActionPreview} {first second : GitHubActionPreview}

theorem CollisionFree.text_eq (hfree : CollisionFree previews) (hfirst : first ∈ previews)
    (hsecond : second ∈ previews) {text other : String} (htext : text ∈ first.hashedTexts)
    (hother : other ∈ second.hashedTexts) (hdigests : sha256Hex text = sha256Hex other) :
    text = other :=
  hfree ⟨first, hfirst, htext⟩ ⟨second, hsecond, hother⟩ (sha256Hex_inj hdigests)

/-- Equal payload digests are digests of one action. -/
theorem CollisionFree.action_eq (hfree : CollisionFree previews) (hfirst : first ∈ previews)
    (hsecond : second ∈ previews) (hdigests : first.payloadSha256 = second.payloadSha256) :
    first.action = second.action := by
  rw [first.digests_eq.1, second.digests_eq.1] at hdigests
  have htexts := hfree.text_eq hfirst hsecond List.mem_cons_self List.mem_cons_self hdigests
  exact GitHubAction.toJson_injective ((Json.compact_inj first.action.toJson_isPlain
    second.action.toJson_isPlain).mp htexts)

/-- The idempotency key is that of one write to one remote under one
precondition. -/
theorem CollisionFree.key_eq_iff (hfree : CollisionFree previews) (hfirst : first ∈ previews)
    (hsecond : second ∈ previews) :
    first.idempotencySha256 = second.idempotencySha256 ↔
      first.remote = second.remote ∧ first.action = second.action ∧
        first.precondition = second.precondition := by
  have hplain : ∀ preview : GitHubActionPreview, (Json.arr [preview.remote.toJson,
      preview.action.toJson, preview.precondition.toJson]).IsPlain := fun preview =>
    ⟨preview.remote.toJson_isPlain, preview.action.toJson_isPlain,
      preview.precondition.toJson_isPlain, trivial⟩
  rw [first.digests_eq.2.1, second.digests_eq.2.1]
  constructor
  · intro hdigests
    have htexts := hfree.text_eq hfirst hsecond (List.mem_cons_of_mem _ List.mem_cons_self)
      (List.mem_cons_of_mem _ List.mem_cons_self) hdigests
    have hvalues := Json.arr.inj ((Json.compact_inj (hplain first) (hplain second)).mp htexts)
    simp only [List.cons.injEq, and_true] at hvalues
    exact ⟨RemoteIdentity.toJson_injective hvalues.1, GitHubAction.toJson_injective hvalues.2.1,
      RemotePrecondition.toJson_injective hvalues.2.2⟩
  · rintro ⟨hremote, haction, hprecondition⟩
    rw [hremote, haction, hprecondition]

/-- Two previews of one write to one remote under one precondition are equal. -/
theorem GitHubActionPreview.ext_parts (hremote : first.remote = second.remote)
    (haction : first.action = second.action) (hprecondition : first.precondition = second.precondition) :
    first = second := by
  rw [first.eq_new, second.eq_new, hremote, haction, hprecondition]

end Previews

end Patchwright
