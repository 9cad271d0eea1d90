import Patchwright.Core.ActionWire
import Patchwright.Library.Url
import Patchwright.Relay.Mutations

/-!
# The paths of the requests

Which resource each request of the mutation client is meant for, and when the
URL it is sent to names this resource.  The names are checked before a call and
the references before an action is built, but neither check is about the rules
of a URL, by which dot segments, fragment marks and escapes change the path.
-/

namespace Patchwright

namespace MutationClient

open Dialogue Url

theorem toList_joined (base : String) (segments : List String) :
    (segments.foldl (fun path segment => path ++ "/" ++ segment) base).toList =
      base.toList ++ segments.flatMap fun segment => '/' :: segment.toList := by
  induction segments generalizing base with
  | nil => rw [List.foldl_nil, List.flatMap_nil, List.append_nil]
  | cons segment segments ih =>
      rw [List.foldl_cons, ih, String.toList_append, String.toList_append, List.flatMap_cons,
        List.append_assoc, List.append_assoc]
      rfl

/-- A path the client joins to its base, and the resource it is meant for. -/
structure Target where
  path : String
  resource : List (List Char)
  relative : IsRelativeReference path.toList

/-- A resource of the repository with fixed segments. -/
def Target.below (owner repository : String) (segments : List String) : Target where
  path := segments.foldl (fun path segment => path ++ "/" ++ segment)
    s!"repos/{owner}/{repository}"
  resource := (["repos", owner, repository] ++ segments).map String.toList
  relative := by
    refine ⟨"repos".toList, '/' :: (s!"{owner}/{repository}".toList ++
      segments.flatMap fun segment => '/' :: segment.toList), ?_, by decide, by decide, ?_⟩
    · rw [toList_joined]
      simp only [String.toList_append, List.append_assoc]
      rfl
    · simp

/-- The head of a branch, whose name is cut at the slashes. -/
def Target.branch (owner repository reference : String) : Target where
  path := s!"repos/{owner}/{repository}/git/ref/heads/{reference}"
  resource := ["repos", owner, repository, "git", "ref", "heads"].map String.toList ++
    reference.toList.splitOn '/'
  relative := by
    refine ⟨"repos".toList, '/' :: s!"{owner}/{repository}/git/ref/heads/{reference}".toList,
      ?_, by decide, by decide, ?_⟩
    · simp only [String.toList_append, List.append_assoc]
      rfl
    · simp

def Target.graphQl : Target where
  path := "graphql"
  resource := ["graphql".toList]
  relative := ⟨"graphql".toList, [], rfl, by decide, by decide, nofun⟩

/-- What the requests of an action are for, one after another. -/
def targets (owner repository : String) : GitHubAction → List Target
  | .createBranch .. => [.below owner repository ["git", "refs"]]
  | .pushIntent .. => []
  | .comment issueNumber _ => [.below owner repository ["issues", toString issueNumber, "comments"]]
  | .review number .. => [.below owner repository ["pulls", toString number, "reviews"]]
  | .resolveReviewThread .. => [.graphQl, .graphQl]
  | .checkRun .. => [.below owner repository ["check-runs"]]
  | .draftPullRequest _ head base .. =>
      [.branch owner repository head, .branch owner repository base,
        .below owner repository ["pulls"]]
  | .updatePullRequestBranch number _ =>
      [.below owner repository ["pulls", toString number, "update-branch"]]
  | .readyPullRequest number _ =>
      [.below owner repository ["pulls", toString number], .graphQl]
  | .closePullRequest number _ =>
      [.below owner repository ["pulls", toString number],
        .below owner repository ["pulls", toString number]]
  | .closeIssue issueNumber => [.below owner repository ["issues", toString issueNumber]]
  | .enqueuePullRequest .. => []
  | .mergePullRequest number .. =>
      [.below owner repository ["pulls", toString number, "merge"]]

/-- The URL names the resource below the base, read segment by segment, with no
query and no fragment. -/
def Names (directory resource : List (List Char)) (url : Url) : Prop :=
  url.literal = directory.map percentDecode ++ resource.map utf8 ∧ url.query = none ∧
    url.fragment = none

/-- Whatever the server answers, the requests of an action go to the resources
they are meant for, in this order. -/
def Unsteered (library : Library) (owner repository : String) (action : GitHubAction) : Prop :=
  ∀ peer : Peer Request Answer, ∃ taken, taken <+: targets owner repository action ∧
    List.Forall₂ (fun target call =>
        Names library.directory target.resource (library.parse call.request.url))
      taken (execute ⟨library.join, peer⟩ owner repository action []).2

/-! ### The requests follow the targets -/

section Requests

variable {remote : Remote} {owner repository : String}

/-- The exchange is with the URL that the path of a target joins to. -/
def JoinedAt (remote : Remote) (target : Target) (call : Call) : Prop :=
  remote.join target.path = some call.request.url

theorem requestValue_asks (hjoin : ∀ target : Target, (remote.join target.path).isSome)
    {target : Target} {path : String} (hpath : path = target.path) (method : Method)
    (body : Option Json) (effect : RequestEffect) :
    Asks (JoinedAt remote) [target] (requestValue remote method path body effect) := by
  subst hpath
  obtain ⟨url, hurl⟩ := Option.isSome_iff_exists.mp (hjoin target)
  rw [requestValue, hurl, Checked.okOr, ofExcept_bind_ok]
  exact (asks_ask fun _ => hurl).bind_silent fun _ _ => rfl

theorem request_asks (hjoin : ∀ target : Target, (remote.join target.path).isSome)
    {target : Target} {path : String} (hpath : path = target.path) (method : Method) (body : Json)
    (expectation : MutationExpectation) :
    Asks (JoinedAt remote) [target] (request remote method path body expectation) := by
  rw [request]
  exact (requestValue_asks hjoin hpath _ _ _).bind_silent fun _ _ => rfl

theorem requireRefSha_asks (hjoin : ∀ target : Target, (remote.join target.path).isSome)
    (owner repository reference expectedSha : String) :
    Asks (JoinedAt remote) [.branch owner repository reference]
      (requireRefSha remote s!"repos/{owner}/{repository}" reference expectedSha) := by
  rw [requireRefSha]
  exact (requestValue_asks hjoin rfl _ _ _).bind_silent fun _ _ => rfl

/-- The path that an action writes is the one of its target. -/
theorem below_path {path : String} {segments : List String} {text : List Char}
    (htext : path.toList = (s!"repos/{owner}/{repository}").toList ++ text)
    (hsegments : text = segments.flatMap fun segment => '/' :: segment.toList) :
    path = (Target.below owner repository segments).path := by
  rw [← String.toList_inj, htext, hsegments]
  exact (toList_joined _ _).symm

theorem numbered_path {front : String} {number : Nat} {segments : List String}
    (hsegments : front.toList ++ (toString number).toList =
      segments.flatMap fun segment => '/' :: segment.toList) :
    s!"repos/{owner}/{repository}" ++ front ++ toString number =
      (Target.below owner repository segments).path :=
  below_path (by rw [String.toList_append, String.toList_append, List.append_assoc]) hsegments

theorem numbered_path_below {front back : String} {number : Nat} {segments : List String}
    (hsegments : front.toList ++ ((toString number).toList ++ back.toList) =
      segments.flatMap fun segment => '/' :: segment.toList) :
    s!"repos/{owner}/{repository}" ++ front ++ toString number ++ back =
      (Target.below owner repository segments).path :=
  below_path (by
    rw [String.toList_append, String.toList_append, String.toList_append, List.append_assoc,
      List.append_assoc]) hsegments

/-- The calls of an action with accepted names are for its targets, one after
another, and at least the first of them is made. -/
theorem execute_within (hjoin : ∀ target : Target, (remote.join target.path).isSome)
    (howner : validateComponent owner = .ok ())
    (hrepository : validateComponent repository = .ok ()) (action : GitHubAction) :
    Within (JoinedAt remote) ((targets owner repository action).take 1)
      (targets owner repository action) (execute remote owner repository action) := by
  rw [execute, howner, ofExcept_bind_ok, hrepository, ofExcept_bind_ok]
  cases action with
  | createBranch =>
      exact (request_asks hjoin (below_path String.toList_append (by decide)) _ _ _).within
  | pushIntent => exact within_fail _
  | comment => exact (request_asks hjoin (numbered_path_below (by simp; rfl)) _ _ _).within
  | review => exact (request_asks hjoin (numbered_path_below (by simp; rfl)) _ _ _).within
  | resolveReviewThread =>
      apply (requestValue_asks hjoin (Eq.refl Target.graphQl.path) _ _ _).bind_within
      intro identity
      apply (asks_ofExcept _).bind_within
      intro resolved
      cases resolved with
      | true => exact within_pure _
      | false =>
          have hwrite := requestValue_asks hjoin (Eq.refl Target.graphQl.path)
          exact ((hwrite _ _ _).bind_silent fun _ _ => rfl).may
  | checkRun =>
      exact (request_asks hjoin (below_path String.toList_append (by decide)) _ _ _).within
  | draftPullRequest =>
      apply (requireRefSha_asks hjoin _ _ _ _).bind_within
      intro _
      apply ((requireRefSha_asks hjoin _ _ _ _).bind_within _).may
      intro _
      exact (request_asks hjoin (below_path String.toList_append (by decide)) _ _ _).may
  | updatePullRequestBranch =>
      exact (request_asks hjoin (numbered_path_below (by simp; rfl)) _ _ _).within
  | readyPullRequest =>
      apply (requestValue_asks hjoin (numbered_path (by simp; rfl)) _ _ _).bind_within
      intro pull
      apply (asks_ofExcept _).bind_within
      intro draft
      cases draft with
      | none => exact within_pure _
      | some pullRequestId =>
          have hwrite := requestValue_asks hjoin (Eq.refl Target.graphQl.path)
          exact ((hwrite _ _ _).bind_silent fun _ _ => rfl).may
  | closePullRequest =>
      apply (requestValue_asks hjoin (numbered_path (by simp; rfl)) _ _ _).bind_within
      intro pull
      apply (asks_ofExcept _).bind_within
      intro _
      exact (request_asks hjoin (numbered_path (by simp; rfl)) _ _ _).may
  | closeIssue => exact (request_asks hjoin (numbered_path (by simp; rfl)) _ _ _).within
  | enqueuePullRequest => exact within_fail _
  | mergePullRequest =>
      exact (request_asks hjoin (numbered_path_below (by simp; rfl)) _ _ _).within

end Requests

/-! ### Targets as they are written -/

section Written

variable {owner repository name reference : String} {segments : List String} {target : Target}

/-- A character of an accepted name. -/
def isNameChar (char : Char) : Bool :=
  char.isAlphanum || char == '-' || char == '_' || char == '.'

/-- The path is cut into the resource, and nothing in it is ignored or begins a
query. -/
structure Target.IsWritten (target : Target) : Prop where
  parts : target.path.toList.splitOnP isSeparator = target.resource
  printed : ∀ char ∈ target.path.toList, char ≠ '?' ∧ 0x20 < char.toNat

/-- Nothing in the path is taken for a mark, a dot segment or an escape. -/
def Target.Safe (target : Target) : Prop :=
  '#' ∉ target.path.toList ∧ ∀ part ∈ target.resource, IsLiteral part

/-- A name that is no dot segment. -/
def PlainName (name : String) : Prop := name ≠ "." ∧ name ≠ ".."

/-- A reference without fragment marks, dot segments and escapes. -/
def PlainRef (reference : String) : Prop :=
  '#' ∉ reference.toList ∧ ∀ part ∈ reference.toList.splitOn '/', IsLiteral part

theorem names_iff {library : Library} (hwritten : target.IsWritten) {url : String}
    (hjoin : library.join target.path = some url) :
    Names library.directory target.resource (library.parse url) ↔ target.Safe := by
  have hresolved := library.join_resolves target.path target.relative
  rw [hjoin, Option.map_some, Option.some_inj] at hresolved
  rw [hresolved, Names, Target.Safe, ← hwritten.parts]
  exact resolve_literal_iff hwritten.printed

theorem isNameChar_spec {char : Char} (hname : isNameChar char = true) :
    isSeparator char = false ∧ char ≠ '?' ∧ char ≠ '#' ∧ char ≠ '%' ∧ 0x20 < char.toNat := by
  have hother : ∀ other : Char, isNameChar other = false → char ≠ other := fun other hnone heq =>
    Bool.false_ne_true (hnone.symm.trans (heq ▸ hname))
  refine ⟨?_, hother _ (by decide), hother _ (by decide), hother _ (by decide), ?_⟩
  · rw [isSeparator, decide_eq_false (hother _ (by decide)),
      decide_eq_false (hother _ (by decide)), Bool.or_false]
  · simp only [isNameChar, Char.isAlphanum, Char.isAlpha, Char.isUpper, Char.isLower,
      Char.isDigit, Bool.or_eq_true, Bool.and_eq_true, decide_eq_true_eq, beq_iff_eq, ge_iff_le,
      UInt32.le_iff_toNat_le] at hname
    rcases hname with ((halnum | rfl) | rfl) | rfl
    · change (((65 ≤ char.toNat ∧ char.toNat ≤ 90) ∨ (97 ≤ char.toNat ∧ char.toNat ≤ 122)) ∨
        (48 ≤ char.toNat ∧ char.toNat ≤ 57)) at halnum
      omega
    · decide
    · decide
    · decide

theorem isNameChar_of_validateComponent (hname : validateComponent name = .ok ()) :
    ∀ char ∈ name.toList, isNameChar char = true := by
  rw [validateComponent] at hname
  split at hname
  case isTrue => cases hname
  case isFalse haccepted =>
    have hall := not_not.mp (not_or.mp (not_or.mp haccepted).2).2
    exact List.all_eq_true.mp hall

/-- A name is read as it is written unless it is a dot segment. -/
theorem isLiteral_name_iff (hname : ∀ char ∈ name.toList, isNameChar char = true) :
    IsLiteral name.toList ↔ PlainName name := by
  have htext : ∀ text : String, name.toList ≠ text.toList ↔ name ≠ text := fun text =>
    String.toList_inj.not
  rw [isLiteral_iff_of_notMem fun hpercent => (isNameChar_spec (hname _ hpercent)).2.2.2.1 rfl]
  exact and_congr (htext ".") (htext "..")

theorem splitOnP_name (hname : ∀ char ∈ name.toList, isNameChar char = true) :
    name.toList.splitOnP isSeparator = [name.toList] :=
  List.splitOnP_eq_singleton fun char hchar => (isNameChar_spec (hname char hchar)).1

/-- A path whose parts are joined with slashes. -/
theorem isWritten_of_joined {front : String} {parts : List String}
    (hpath : target.path.toList =
      front.toList ++ (parts.map String.toList).flatMap fun part => '/' :: part)
    (hfront : ∀ char ∈ front.toList, isNameChar char = true)
    (hresource : target.resource = front.toList ::
      (parts.map String.toList).flatMap fun part => part.splitOnP isSeparator)
    (hprinted : ∀ part ∈ parts, ∀ char ∈ part.toList, char ≠ '?' ∧ 0x20 < char.toNat) :
    target.IsWritten where
  parts := by
    rw [hpath, splitOnP_joined, splitOnP_name hfront, hresource]
    rfl
  printed := by
    intro char hchar
    rw [hpath, List.mem_append, List.mem_flatMap] at hchar
    rcases hchar with hchar | ⟨text, htext, hchar⟩
    · obtain ⟨_, hquery, _, _, hprinted⟩ := isNameChar_spec (hfront char hchar)
      exact ⟨hquery, hprinted⟩
    · obtain ⟨part, hpart, rfl⟩ := List.mem_map.mp htext
      rcases List.mem_cons.mp hchar with rfl | hchar
      · decide
      · exact hprinted part hpart char hchar

theorem notMem_joined_iff {front : String} {parts : List String}
    (hfront : ∀ char ∈ front.toList, isNameChar char = true) :
    '#' ∉ front.toList ++ (parts.map String.toList).flatMap (fun part => '/' :: part) ↔
      ∀ part ∈ parts, '#' ∉ part.toList := by
  rw [List.mem_append, not_or, List.mem_flatMap]
  constructor
  · intro ⟨_, hnone⟩ part hpart hmem
    exact hnone ⟨part.toList, List.mem_map_of_mem hpart, List.mem_cons_of_mem _ hmem⟩
  · intro hnone
    refine ⟨fun hmem => (isNameChar_spec (hfront _ hmem)).2.2.1 rfl, ?_⟩
    rintro ⟨text, htext, hmem⟩
    obtain ⟨part, hpart, rfl⟩ := List.mem_map.mp htext
    rcases List.mem_cons.mp hmem with heq | hmem
    · cases heq
    · exact hnone part hpart hmem

/-- The path of a resource of the repository with its parts joined. -/
theorem below_toList :
    (Target.below owner repository segments).path.toList = "repos".toList ++
      ((owner :: repository :: segments).map String.toList).flatMap fun part => '/' :: part := by
  rw [Target.below, toList_joined, List.flatMap_map]
  simp only [String.toList_append, List.append_assoc, List.flatMap_cons]
  rfl

theorem branch_toList :
    (Target.branch owner repository reference).path.toList = "repos".toList ++
      ([owner, repository, "git", "ref", "heads", reference].map String.toList).flatMap
        fun part => '/' :: part := by
  rw [Target.branch]
  simp only [String.toList_append, List.append_assoc, List.map_cons, List.map_nil,
    List.flatMap_cons, List.flatMap_nil, List.append_nil]
  rfl

theorem flatMap_splitOnP_names {parts : List String}
    (hparts : ∀ part ∈ parts, ∀ char ∈ part.toList, isNameChar char = true) :
    ((parts.map String.toList).flatMap fun part => part.splitOnP isSeparator) =
      parts.map String.toList := by
  induction parts with
  | nil => rfl
  | cons part parts ih =>
      rw [List.map_cons, List.flatMap_cons, splitOnP_name (hparts part List.mem_cons_self),
        ih fun other hother => hparts other (List.mem_cons_of_mem _ hother)]
      rfl

/-- A segment the client writes itself. -/
def IsFixed (segment : String) : Prop :=
  (∀ char ∈ segment.toList, isNameChar char = true) ∧ PlainName segment

theorem isFixed_toString (number : Nat) : IsFixed (toString number) := by
  have hdigits : ∀ char ∈ (toString number).toList, char.isDigit = true := by
    rw [Nat.toString_eq_ofList_toDigits, String.toList_ofList]
    exact toDigits_isDigit number
  have hdot : '.' ∉ (toString number).toList := fun hmem => absurd (hdigits _ hmem) (by decide)
  refine ⟨fun char hchar => ?_, ?_, ?_⟩
  · rw [isNameChar, Char.isAlphanum, hdigits char hchar, Bool.or_true]
    rfl
  · intro heq
    exact hdot (heq ▸ by decide)
  · intro heq
    exact hdot (heq ▸ by decide)

/-- What the check of a reference keeps out of it. -/
theorem ref_spec (href : validateRef reference = .ok reference) :
    ∀ char ∈ reference.toList, char ≠ '\\' ∧ char ≠ '?' ∧ 0x20 < char.toNat := by
  simp only [validateRef, Checked.bind_eq_ok, Checked.ensure_eq_ok] at href
  obtain ⟨_, ⟨_, _, _, _, _, _, hallowed⟩, _⟩ := href
  intro char hchar
  have hkept : forbiddenInRef char = false :=
    Bool.eq_false_iff.mpr fun hbad => hallowed (List.any_eq_true.mpr ⟨char, hchar, hbad⟩)
  have hother : ∀ other : Char, forbiddenInRef other = true → char ≠ other :=
    fun other hbad heq => Bool.false_ne_true (hkept.symm.trans (heq ▸ hbad))
  refine ⟨hother _ (by decide), hother _ (by decide), ?_⟩
  have hspace : char.toNat ≠ 0x20 := fun heq =>
    hother ' ' (by decide) (Char.toNat_inj.mp (heq.trans (by decide)))
  simp only [forbiddenInRef, Bool.or_eq_false_iff, decide_eq_false_iff_not] at hkept
  omega

theorem splitOnP_ref (href : validateRef reference = .ok reference) :
    reference.toList.splitOnP isSeparator = reference.toList.splitOn '/' := by
  have hsame : ∀ char ∈ reference.toList, isSeparator char = (char == '/') := by
    intro char hchar
    rw [isSeparator, decide_eq_false (ref_spec href char hchar).1, Bool.or_false]
    rfl
  rw [List.splitOn_eq_splitOnP, splitOnP_congr hsame]

variable (howner : ∀ char ∈ owner.toList, isNameChar char = true)
  (hrepository : ∀ char ∈ repository.toList, isNameChar char = true)

include howner hrepository

theorem below_isWritten (hsegments : ∀ segment ∈ segments, IsFixed segment) :
    (Target.below owner repository segments).IsWritten := by
  have hparts : ∀ part ∈ owner :: repository :: segments, ∀ char ∈ part.toList,
      isNameChar char = true :=
    List.forall_mem_cons.mpr ⟨howner, List.forall_mem_cons.mpr
      ⟨hrepository, fun segment hsegment => (hsegments segment hsegment).1⟩⟩
  refine isWritten_of_joined below_toList (by decide) ?_ ?_
  · rw [flatMap_splitOnP_names hparts]
    rfl
  · intro part hpart char hchar
    obtain ⟨_, hquery, _, _, hprinted⟩ := isNameChar_spec (hparts part hpart char hchar)
    exact ⟨hquery, hprinted⟩

/-- Below the repository, its two names decide. -/
theorem below_safe_iff (hsegments : ∀ segment ∈ segments, IsFixed segment) :
    (Target.below owner repository segments).Safe ↔ PlainName owner ∧ PlainName repository := by
  have hmarks : '#' ∉ (Target.below owner repository segments).path.toList := by
    rw [below_toList, notMem_joined_iff (by decide)]
    have hnone : ∀ name : String, (∀ char ∈ name.toList, isNameChar char = true) →
        '#' ∉ name.toList := fun name hname hmem => (isNameChar_spec (hname _ hmem)).2.2.1 rfl
    exact List.forall_mem_cons.mpr ⟨hnone _ howner, List.forall_mem_cons.mpr
      ⟨hnone _ hrepository, fun segment hsegment => hnone _ (hsegments segment hsegment).1⟩⟩
  have hrepos : IsLiteral "repos".toList := by decide
  have hliteral : ∀ part ∈ segments.map String.toList, IsLiteral part := by
    intro part hpart
    obtain ⟨segment, hsegment, rfl⟩ := List.mem_map.mp hpart
    exact (isLiteral_name_iff (hsegments segment hsegment).1).mpr (hsegments segment hsegment).2
  have hresource : (Target.below owner repository segments).resource =
      "repos".toList :: owner.toList :: repository.toList :: segments.map String.toList := rfl
  rw [Target.Safe, hresource, List.forall_mem_cons, List.forall_mem_cons, List.forall_mem_cons,
    isLiteral_name_iff howner, isLiteral_name_iff hrepository]
  exact ⟨fun ⟨_, _, hfirst, hsecond, _⟩ => ⟨hfirst, hsecond⟩,
    fun ⟨hfirst, hsecond⟩ => ⟨hmarks, hrepos, hfirst, hsecond, hliteral⟩⟩

theorem branch_isWritten (href : validateRef reference = .ok reference) :
    (Target.branch owner repository reference).IsWritten := by
  have hfixed : ∀ part ∈ ["git", "ref", "heads"], ∀ char ∈ part.toList,
      isNameChar char = true := by decide
  have hparts : ∀ part ∈ [owner, repository, "git", "ref", "heads"], ∀ char ∈ part.toList,
      isNameChar char = true :=
    List.forall_mem_cons.mpr ⟨howner, List.forall_mem_cons.mpr ⟨hrepository, hfixed⟩⟩
  refine isWritten_of_joined branch_toList (by decide) ?_ ?_
  · have hsplit : [owner, repository, "git", "ref", "heads", reference] =
        [owner, repository, "git", "ref", "heads"] ++ [reference] := rfl
    rw [hsplit, List.map_append, List.flatMap_append, flatMap_splitOnP_names hparts,
      List.map_singleton, List.flatMap_singleton, splitOnP_ref href]
    rfl
  · intro part hpart char hchar
    rcases List.mem_append.mp (show part ∈ [owner, repository, "git", "ref", "heads"] ++
      [reference] from hpart) with hpart | hpart
    · obtain ⟨_, hquery, _, _, hprinted⟩ := isNameChar_spec (hparts part hpart char hchar)
      exact ⟨hquery, hprinted⟩
    · rw [List.mem_singleton.mp hpart] at hchar
      exact (ref_spec href char hchar).2

/-- The head of a branch is also decided by its name. -/
theorem branch_safe_iff :
    (Target.branch owner repository reference).Safe ↔
      PlainName owner ∧ PlainName repository ∧ PlainRef reference := by
  have hnone : ∀ name : String, (∀ char ∈ name.toList, isNameChar char = true) →
      '#' ∉ name.toList := fun name hname hmem => (isNameChar_spec (hname _ hmem)).2.2.1 rfl
  have hmarks : '#' ∉ (Target.branch owner repository reference).path.toList ↔
      '#' ∉ reference.toList := by
    rw [branch_toList, notMem_joined_iff (by decide)]
    simp only [List.forall_mem_cons, List.not_mem_nil, false_imp_iff, implies_true, and_true]
    exact ⟨fun h => h.2.2.2.2.2, fun h => ⟨hnone _ howner, hnone _ hrepository, by decide,
      by decide, by decide, h⟩⟩
  have hfixed : ∀ part ∈ ["git", "ref", "heads"].map String.toList, IsLiteral part := by decide
  have hrepos : IsLiteral "repos".toList := by decide
  have hresource : (Target.branch owner repository reference).resource =
      "repos".toList :: owner.toList :: repository.toList ::
        (["git", "ref", "heads"].map String.toList ++ reference.toList.splitOn '/') := rfl
  rw [Target.Safe, hmarks, hresource, List.forall_mem_cons, List.forall_mem_cons,
    List.forall_mem_cons, isLiteral_name_iff howner, isLiteral_name_iff hrepository, PlainRef]
  constructor
  · intro ⟨hmark, _, hfirst, hsecond, hrest⟩
    exact ⟨hfirst, hsecond, hmark, fun part hpart => hrest part (List.mem_append_right _ hpart)⟩
  · intro ⟨hfirst, hsecond, hmark, hparts⟩
    refine ⟨hmark, hrepos, hfirst, hsecond, fun part hpart => ?_⟩
    exact (List.mem_append.mp hpart).elim (hfixed part) (hparts part)

end Written

/-! ### Where the requests go -/

/-- The references an action puts into a path. -/
def pathRefs : GitHubAction → List String
  | .draftPullRequest _ head base .. => [head, base]
  | _ => []

/-- The names that an action puts into a path are not taken for anything else. -/
def StaysOnTarget (owner repository : String) : GitHubAction → Prop
  | .pushIntent .. | .resolveReviewThread .. | .enqueuePullRequest .. => True
  | .draftPullRequest _ head base .. =>
      (PlainName owner ∧ PlainName repository) ∧ PlainRef head ∧ PlainRef base
  | _ => PlainName owner ∧ PlainName repository

section Calls

variable {library : Library} {owner repository : String} {action : GitHubAction}

instance (name : String) : Decidable (PlainName name) := inferInstanceAs (Decidable (_ ∧ _))

instance (reference : String) : Decidable (PlainRef reference) :=
  inferInstanceAs (Decidable (_ ∧ _))

instance (segment : String) : Decidable (IsFixed segment) := inferInstanceAs (Decidable (_ ∧ _))

theorem isFixed_numbered {front : String} {back : List String} (number : Nat)
    (hfront : IsFixed front) (hback : ∀ segment ∈ back, IsFixed segment) :
    ∀ segment ∈ front :: toString number :: back, IsFixed segment :=
  List.forall_mem_cons.mpr ⟨hfront, List.forall_mem_cons.mpr ⟨isFixed_toString number, hback⟩⟩

theorem below_ne_graphQl {segments : List String} :
    Target.below owner repository segments ≠ .graphQl := by
  intro heq
  have hfirst : some "repos".toList = some "graphql".toList :=
    congrArg (fun target => target.resource.head?) heq
  exact absurd hfirst (by decide)

theorem branch_ne_graphQl {reference : String} :
    Target.branch owner repository reference ≠ .graphQl := by
  intro heq
  have hfirst : some "repos".toList = some "graphql".toList :=
    congrArg (fun target => target.resource.head?) heq
  exact absurd hfirst (by decide)

theorem graphQl_isWritten : Target.graphQl.IsWritten := ⟨by decide, by decide⟩

theorem graphQl_safe : Target.graphQl.Safe := ⟨by decide, by decide⟩

/-- A target is the GraphQL endpoint, or lies below the repository, or is a
branch that the action names. -/
theorem targets_spec : ∀ target ∈ targets owner repository action,
    target = .graphQl ∨
      (∃ segments, (∀ segment ∈ segments, IsFixed segment) ∧
        target = .below owner repository segments) ∨
      ∃ reference ∈ pathRefs action, target = .branch owner repository reference := by
  have hbelow : ∀ {segments}, (∀ segment ∈ segments, IsFixed segment) →
      ∃ fixed, (∀ segment ∈ fixed, IsFixed segment) ∧
        Target.below owner repository segments = .below owner repository fixed :=
    fun hsegments => ⟨_, hsegments, rfl⟩
  cases action with
  | pushIntent | enqueuePullRequest => exact nofun
  | resolveReviewThread =>
      exact List.forall_mem_cons.mpr ⟨.inl rfl, List.forall_mem_singleton.mpr (.inl rfl)⟩
  | createBranch | checkRun =>
      exact List.forall_mem_singleton.mpr (.inr (.inl (hbelow (by decide))))
  | comment | review | updatePullRequestBranch | closeIssue | mergePullRequest =>
      exact List.forall_mem_singleton.mpr
        (.inr (.inl (hbelow (isFixed_numbered _ (by decide) (by decide)))))
  | readyPullRequest =>
      exact List.forall_mem_cons.mpr
        ⟨.inr (.inl (hbelow (isFixed_numbered _ (by decide) (by decide)))),
          List.forall_mem_singleton.mpr (.inl rfl)⟩
  | closePullRequest =>
      exact List.forall_mem_cons.mpr
        ⟨.inr (.inl (hbelow (isFixed_numbered _ (by decide) (by decide)))),
          List.forall_mem_singleton.mpr
            (.inr (.inl (hbelow (isFixed_numbered _ (by decide) (by decide)))))⟩
  | draftPullRequest =>
      refine List.forall_mem_cons.mpr ⟨.inr (.inr ⟨_, List.mem_cons_self, rfl⟩), ?_⟩
      refine List.forall_mem_cons.mpr
        ⟨.inr (.inr ⟨_, List.mem_cons_of_mem _ List.mem_cons_self, rfl⟩), ?_⟩
      exact List.forall_mem_singleton.mpr (.inr (.inl (hbelow (by decide))))

/-- A server whose branches are all at the commit. -/
def agreeingPeer (sha : String) : Peer Request Answer := fun _ _ =>
  ⟨false, some ⟨200, none, none, some (.obj [("object", .obj [("sha", .str sha)])])⟩⟩

theorem requireRefSha_agreeing {join : String → Option String} {base reference sha : String}
    (hjoin : (join s!"{base}/git/ref/heads/{reference}").isSome) (log : List Call) :
    (requireRefSha ⟨join, agreeingPeer sha⟩ base reference sha log).1 = .ok () := by
  obtain ⟨url, hurl⟩ := Option.isSome_iff_exists.mp hjoin
  have hsame : requireSha (some sha) sha = .ok () := if_pos rfl
  rw [requireRefSha, requestValue]
  dsimp only
  rw [hurl, Checked.okOr, ofExcept_bind_ok, run_bind, run_bind, run_ask]
  exact hsame

section Accepted

variable (howner : validateComponent owner = .ok ())
  (hrepository : validateComponent repository = .ok ())

include howner hrepository

theorem targets_isWritten
    (hrefs : ∀ reference ∈ pathRefs action, validateRef reference = .ok reference) :
    ∀ target ∈ targets owner repository action, target.IsWritten := by
  have hownerChars := isNameChar_of_validateComponent howner
  have hrepositoryChars := isNameChar_of_validateComponent hrepository
  intro target htarget
  rcases targets_spec target htarget with rfl | ⟨segments, hfixed, rfl⟩ | ⟨reference, href, rfl⟩
  · exact graphQl_isWritten
  · exact below_isWritten hownerChars hrepositoryChars hfixed
  · exact branch_isWritten hownerChars hrepositoryChars (hrefs reference href)

/-- Where the names are harmless, every target is. -/
theorem targets_safe (hstays : StaysOnTarget owner repository action) :
    ∀ target ∈ targets owner repository action, target.Safe := by
  have hownerChars := isNameChar_of_validateComponent howner
  have hrepositoryChars := isNameChar_of_validateComponent hrepository
  intro target htarget
  have hnames : target ≠ .graphQl → PlainName owner ∧ PlainName repository := by
    intro hother
    cases action with
    | pushIntent | enqueuePullRequest => cases htarget
    | resolveReviewThread =>
        rcases List.mem_cons.mp htarget with heq | hmem
        · exact absurd heq hother
        · exact absurd (List.mem_singleton.mp hmem) hother
    | draftPullRequest => exact hstays.1
    | _ => exact hstays
  rcases targets_spec target htarget with rfl | ⟨segments, hfixed, rfl⟩ | ⟨reference, href, rfl⟩
  · exact graphQl_safe
  · exact (below_safe_iff hownerChars hrepositoryChars hfixed).mpr (hnames below_ne_graphQl)
  · obtain ⟨hfirst, hsecond⟩ := hnames branch_ne_graphQl
    have hplain : PlainRef reference := by
      cases action with
      | draftPullRequest =>
          have hboth : ∀ reference ∈ [_, _], PlainRef reference :=
            List.forall_mem_cons.mpr ⟨hstays.2.1, List.forall_mem_singleton.mpr hstays.2.2⟩
          exact hboth reference href
      | _ => cases href
    exact (branch_safe_iff hownerChars hrepositoryChars).mpr ⟨hfirst, hsecond, hplain⟩

/-- The calls that a peer sees name their targets, so each of the targets it
sees is harmless. -/
theorem safe_of_unsteered
    (hrefs : ∀ reference ∈ pathRefs action, validateRef reference = .ok reference)
    (hunsteered : Unsteered library owner repository action) {peer : Peer Request Answer}
    {taken : List Target} (htaken : taken <+: targets owner repository action)
    (hcalls : List.Forall₂ (JoinedAt ⟨library.join, peer⟩) taken
      (execute ⟨library.join, peer⟩ owner repository action []).2) :
    ∀ target ∈ taken, target.Safe := by
  have hwritten := targets_isWritten howner hrepository hrefs
  obtain ⟨named, hnamed, hnames⟩ := hunsteered peer
  have hsame : named = taken := by
    have hlength : named.length = taken.length := hnames.length_eq.trans hcalls.length_eq.symm
    exact (List.prefix_of_prefix_length_le hnamed htaken hlength.le).eq_of_length hlength
  subst hsame
  intro target htarget
  obtain ⟨index, hindex, rfl⟩ := List.getElem_of_mem htarget
  have hcall := hnames.length_eq ▸ hindex
  exact (names_iff (hwritten _ (hnamed.subset htarget)) (hcalls.get hindex hcall)).mp
    (hnames.get hindex hcall)

/-- The second branch of a draft is read once the first is where it was. -/
theorem draft_reads (hjoin : ∀ target : Target, (library.join target.path).isSome)
    (title head base body headSha baseSha : String) :
    ∃ taken, [.branch owner repository head, .branch owner repository base] <+: taken ∧
      taken <+: targets owner repository (.draftPullRequest title head base body headSha baseSha) ∧
      List.Forall₂ (JoinedAt ⟨library.join, agreeingPeer headSha⟩) taken
        (execute ⟨library.join, agreeingPeer headSha⟩ owner repository
          (.draftPullRequest title head base body headSha baseSha) []).2 := by
  let remote : Remote := ⟨library.join, agreeingPeer headSha⟩
  have hjoined : ∀ target : Target, (remote.join target.path).isSome := hjoin
  obtain ⟨calls, hcalls, hfirst⟩ :=
    requireRefSha_asks hjoined owner repository head headSha []
  have hrun : requireRefSha remote s!"repos/{owner}/{repository}" head headSha [] =
      (.ok (), calls) :=
    Prod.ext (requireRefSha_agreeing (hjoin (.branch owner repository head)) []) hcalls
  have hpulls : s!"repos/{owner}/{repository}" ++ "/pulls" =
      (Target.below owner repository ["pulls"]).path :=
    below_path String.toList_append (by decide)
  have hbase := requireRefSha_asks hjoined owner repository base baseSha
  have hwrite := request_asks hjoined hpulls .post (.obj [("title", .str title),
    ("head", .str head), ("base", .str base), ("body", .str body), ("draft", .bool true)])
    .pullRequest
  obtain ⟨added, onward, hadded, hleast, honward, hnext⟩ :=
    hbase.bind_within (fun _ => hwrite.may) calls
  refine ⟨.branch owner repository head :: onward, ?_, ?_, ?_⟩
  · exact (List.prefix_cons_inj _).mpr hleast
  · exact (List.prefix_cons_inj _).mpr honward
  · rw [execute, howner, ofExcept_bind_ok, hrepository, ofExcept_bind_ok]
    dsimp only
    rw [run_bind, hrun]
    exact hadded ▸ List.rel_append hfirst hnext

/-- Requests to harmless targets are not steered. -/
theorem unsteered_of_safe (hjoin : ∀ target : Target, (library.join target.path).isSome)
    (hrefs : ∀ reference ∈ pathRefs action, validateRef reference = .ok reference)
    (hsafe : ∀ target ∈ targets owner repository action, target.Safe) :
    Unsteered library owner repository action := by
  have hwritten := targets_isWritten howner hrepository hrefs
  intro peer
  let remote : Remote := ⟨library.join, peer⟩
  have hjoined : ∀ target : Target, (remote.join target.path).isSome := hjoin
  obtain ⟨calls, taken, hcalls, _, htaken, hproperty⟩ :=
    execute_within hjoined howner hrepository action []
  refine ⟨taken, htaken, hcalls ▸ ?_⟩
  have hharmless : ∀ target ∈ taken, target.IsWritten ∧ target.Safe := fun target htarget =>
    ⟨hwritten target (htaken.subset htarget), hsafe target (htaken.subset htarget)⟩
  exact ((List.forall₂_and_left _ _).mpr ⟨hharmless, hproperty⟩).imp
    fun target call hcall => (names_iff hcall.1.1 hcall.2).mpr hcall.1.2

/-- The first target of an action is always asked for. -/
theorem first_safe (hjoin : ∀ target : Target, (library.join target.path).isSome)
    (hrefs : ∀ reference ∈ pathRefs action, validateRef reference = .ok reference)
    (hunsteered : Unsteered library owner repository action) :
    ∀ target ∈ (targets owner repository action).take 1, target.Safe := by
  let remote : Remote := ⟨library.join, fun _ _ => ⟨false, none⟩⟩
  have hjoined : ∀ target : Target, (remote.join target.path).isSome := hjoin
  obtain ⟨calls, taken, hcalls, hleast, htaken, hproperty⟩ :=
    execute_within hjoined howner hrepository action []
  have hcalled : List.Forall₂ (JoinedAt remote) taken
      (execute remote owner repository action []).2 := hcalls ▸ hproperty
  exact fun target htarget => safe_of_unsteered howner hrepository hrefs hunsteered htaken hcalled
    target (hleast.subset htarget)

end Accepted

/-- The joins of the targets succeed. -/
theorem join_isSome (library : Library) (target : Target) :
    (library.join target.path).isSome := by
  have hresolved := library.join_resolves target.path target.relative
  rw [Option.map_eq_some_iff] at hresolved
  obtain ⟨url, hurl, _⟩ := hresolved
  exact hurl ▸ rfl

/-- For names and references that the validators accept, the requests of an
action stay with their resources, whatever the server answers, exactly when no
name or reference is a dot segment or has a mark or an escape in it. -/
theorem unsteered_iff_staysOnTarget (library : Library) (owner repository : String)
    (action : GitHubAction) (howner : validateComponent owner = .ok ())
    (hrepository : validateComponent repository = .ok ())
    (hrefs : ∀ reference ∈ pathRefs action, validateRef reference = .ok reference) :
    Unsteered library owner repository action ↔ StaysOnTarget owner repository action := by
  constructor
  · intro hunsteered
    have hjoin := join_isSome library
    have hownerChars := isNameChar_of_validateComponent howner
    have hrepositoryChars := isNameChar_of_validateComponent hrepository
    have hfirst := first_safe howner hrepository hjoin hrefs hunsteered
    have hbelow : ∀ segments, (∀ segment ∈ segments, IsFixed segment) →
        Target.below owner repository segments ∈ (targets owner repository action).take 1 →
        PlainName owner ∧ PlainName repository := fun segments hfixed hmem =>
      (below_safe_iff hownerChars hrepositoryChars hfixed).mp (hfirst _ hmem)
    cases action with
    | pushIntent | resolveReviewThread | enqueuePullRequest => trivial
    | createBranch | checkRun => exact hbelow _ (by decide) List.mem_cons_self
    | comment | review | updatePullRequestBranch | closeIssue | mergePullRequest
    | readyPullRequest | closePullRequest =>
        refine hbelow _ ?_ List.mem_cons_self
        exact isFixed_numbered _ (by decide) (by decide)
    | draftPullRequest title head base body headSha baseSha =>
        obtain ⟨taken, hreads, htaken, hcalls⟩ :=
          draft_reads howner hrepository hjoin title head base body headSha baseSha
        have hsafe := safe_of_unsteered howner hrepository hrefs hunsteered htaken hcalls
        have hhead := hsafe _ (hreads.subset List.mem_cons_self)
        have hbase := hsafe _ (hreads.subset (List.mem_cons_of_mem _ List.mem_cons_self))
        rw [branch_safe_iff hownerChars hrepositoryChars] at hhead hbase
        exact ⟨⟨hhead.1, hhead.2.1⟩, hhead.2.2, hbase.2.2⟩
  · exact fun hstays => unsteered_of_safe howner hrepository (join_isSome library) hrefs
      (targets_safe howner hrepository hstays)

/-- The API of the hosted server as a base. -/
def hostedApi : Library where
  directory := []
  join path := some ("https://api.github.com/" ++ path)
  parse url := resolve [] (url.toList.drop 23)
  join_resolves := by
    intro reference _
    have hfront : "https://api.github.com/".toList.length = 23 := by decide
    rw [Option.map_some, String.toList_append, List.drop_left' hfront]

def sampleDraft (head : String) : GitHubAction :=
  .draftPullRequest "Title" head "main" "Body" "0123456789abcdef0123456789abcdef01234567"
    "76543210fedcba9876543210fedcba9876543210"

theorem validateRef_eq_ok {reference : String} : validateRef reference = .ok reference ↔
    reference ≠ "" ∧ reference.utf8ByteSize ≤ 255 ∧
      (reference.toList.head?.all fun char => char ∉ ['-', '/', '.']) ∧
      (reference.toList.getLast?.all fun char => char ∉ ['/', '.']) ∧
      ¬ ['.', '.'] <:+: reference.toList ∧ ¬ ['@', '\x7b'] <:+: reference.toList ∧
      ¬ reference.toList.any forbiddenInRef := by
  simp only [validateRef, Checked.bind_eq_ok, Checked.ensure_eq_ok, Checked.pure_eq_ok,
    exists_const, and_true, Option.all_eq_true, decide_eq_true_eq, Option.mem_def]

theorem sampleDraft_refs {head : String} (hhead : validateRef head = .ok head) :
    ∀ reference ∈ pathRefs (sampleDraft head), validateRef reference = .ok reference :=
  List.forall_mem_cons.mpr ⟨hhead, List.forall_mem_singleton.mpr
    (validateRef_eq_ok.2 (by decide))⟩

theorem unsteered_iff_staysOnTarget_sample :
    Unsteered hostedApi "octo" "demo" (sampleDraft "feature/1") ↔
      StaysOnTarget "octo" "demo" (sampleDraft "feature/1") :=
  unsteered_iff_staysOnTarget hostedApi "octo" "demo" (sampleDraft "feature/1") (by decide)
    (by decide) (sampleDraft_refs (validateRef_eq_ok.2 (by decide)))

/-- A draft of the branch `feature#1` is checked against the head of `feature`. -/
theorem draft_reads_other_branch :
    validateComponent "octo" = .ok () ∧ validateComponent "demo" = .ok () ∧
      (∀ reference ∈ pathRefs (sampleDraft "feature#1"), validateRef reference = .ok reference) ∧
      (hostedApi.join (Target.branch "octo" "demo" "feature#1").path).map hostedApi.parse =
        some ⟨["repos", "octo", "demo", "git", "ref", "heads", "feature"].map String.toList, none,
          some ['1']⟩ ∧
      ¬ Unsteered hostedApi "octo" "demo" (sampleDraft "feature#1") := by
  have howner : validateComponent "octo" = .ok () := by decide
  have hrepository : validateComponent "demo" = .ok () := by decide
  have hrefs : ∀ reference ∈ pathRefs (sampleDraft "feature#1"),
      validateRef reference = .ok reference := sampleDraft_refs (validateRef_eq_ok.2 (by decide))
  refine ⟨howner, hrepository, hrefs, by decide, fun hunsteered => ?_⟩
  have hsafe := first_safe howner hrepository (join_isSome hostedApi) hrefs hunsteered
  exact (hsafe _ List.mem_cons_self).1 (by decide)

end Calls

end MutationClient

end Patchwright
