import Patchwright.Engine.GitHubSource
import Patchwright.Engine.Links
import Patchwright.Library.Loops

/-!
# Pagination

The lists of the API are read page by page, on the link of each page's header
or on the cursor of a reply.  Only the items count toward the limit, so a server
that names a next page on every page and puts few items on them keeps a list
from ending.
-/

namespace Patchwright

open Checked

/-! ## The loops -/

/-- The base of the API as the URL library sees it: references joined to it and
the test for its origin. -/
structure ApiBase (Url : Type) where
  join : String → Option Url
  sameOrigin : Url → Bool

def ApiBase.sameOriginUrl {Url : Type} (base : ApiBase Url) (value : String) : Option Url :=
  (base.join value).filter base.sameOrigin

/-- A page with the link header it came with, if that is text. -/
structure Linked (Body : Type) where
  page : Body
  link : Option String

namespace Pagination

variable {Url α : Type} (base : ApiBase Url)

def nextUrl {Body : Type} (response : Linked Body) : Option Url :=
  (response.link.bind nextLink).bind base.sameOriginUrl

/-- The loop over a list whose pages are read in one way; an answer is an error
where the request failed. -/
def linkedLoop {Body : Type} (read : Body → Except String (List α)) (limit : Nat) :
    Loop (Url × List α) Url (Except String (Linked Body)) String (List α) where
  request := Prod.fst
  step := fun (_, values) answer => do
    let response ← answer
    let new ← read response.page
    let values := values ++ new
    if values.length ≥ limit then return .inr (values.take limit)
    match nextUrl base response with
    | some url => return .inl (url, values)
    | none => return .inr values

def paginated (limit : Nat) :
    Loop (Url × List α) Url (Except String (Linked (Page α))) String (List α) :=
  linkedLoop base readPage limit

/-- The loop over a list that is one field of an object. -/
def paginatedField (field : String) (limit : Nat) :
    Loop (Url × List α) Url (Except String (Linked (FieldPage α))) String (List α) :=
  linkedLoop base (fun page => readPage (page.page field)) limit

/-- The loop over the review threads of a pull request. -/
def reviewThreadsForPull (number limit : Nat) :
    Loop (Option String × List GitHubDiscussion) (Option String) (Except String ThreadPage) String
      (List GitHubDiscussion) where
  request := Prod.fst
  step := fun (_, found) answer => do
    let page ← answer
    ensure (¬ page.errors) "GitHub GraphQL review thread query failed"
    let nodes ← page.nodes
    let pushed := pushThreads number limit nodes found
    if pushed.2 then return .inr pushed.1
    if page.hasNextPage ≠ some true then return .inr pushed.1
    match page.endCursor with
    | some cursor => return .inl (some cursor, pushed.1)
    | none => .error "GitHub review thread pagination cursor was missing"

/-! ## The pages they read -/

def linkedPages {Body : Type} (read : Body → Except String (List α)) :
    Pager Url (Except String (Linked Body)) String α where
  items answer := answer.bind fun response => read response.page
  next answer := answer.map fun response => nextUrl base response

/-- The pages of review threads: those without an identified first comment are
passed over. -/
def threadPages (number : Nat) :
    Pager (Option String) (Except String ThreadPage) String GitHubDiscussion where
  items answer := do
    let page ← answer
    ensure (¬ page.errors) "GitHub GraphQL review thread query failed"
    let nodes ← page.nodes
    return nodes.filterMap fun thread => thread.intoDiscussion number
  next answer := do
    let page ← answer
    if page.hasNextPage ≠ some true then return none
    match page.endCursor with
    | some cursor => return some (some cursor)
    | none => .error "GitHub review thread pagination cursor was missing"

theorem linkedLoop_eq {Body : Type} (read : Body → Except String (List α)) (limit : Nat) :
    linkedLoop base read limit = (linkedPages base read).loop limit := by
  rw [linkedLoop, Pager.loop]
  congr 1
  funext state answer
  cases answer with
  | error error => rfl
  | ok response =>
      rw [Pager.step, linkedPages]
      change (read response.page >>= _) = (read response.page >>= _)
      cases read response.page with
      | error error => rfl
      | ok new =>
          change (if _ then _ else _) = (if _ then _ else _)
          split
          next => rfl
          next => cases hnext : nextUrl base response <;> simp only [hnext, Except.map] <;> rfl

/-- At least one thread is needed, even where the limit is zero. -/
def threadQuota (limit : Nat) : Nat := max limit 1

theorem pushThreads_eq {number limit : Nat} (threads : List WireThread)
    {found : List GitHubDiscussion} (hfound : found.length < threadQuota limit) :
    pushThreads number limit threads found =
      let all := found ++ threads.filterMap fun thread => thread.intoDiscussion number
      if threadQuota limit ≤ all.length then (all.take (threadQuota limit), true)
      else (all, false) := by
  have hquota : threadQuota limit = max limit 1 := rfl
  induction threads generalizing found with
  | nil =>
      dsimp only
      rw [pushThreads, List.filterMap_nil, List.append_nil, if_neg (not_le.mpr hfound)]
  | cons thread threads ih =>
      rw [pushThreads, List.filterMap_cons]
      cases thread.intoDiscussion number with
      | none => exact ih hfound
      | some discussion =>
          dsimp only
          split
          next hlimit =>
            have hall : threadQuota limit = found.length + 1 := by omega
            rw [if_pos (by rw [List.length_append, List.length_cons]; omega), hall,
              List.take_append, List.take_of_length_le (by omega)]
            simp
          next hlimit =>
            rw [ih (by rw [List.length_append, List.length_singleton]; omega)]
            simp only [List.append_assoc, List.singleton_append]

/-- Within the quota the loop over threads is that of their pages. -/
theorem threadStep_eq {number limit : Nat} (state : Option String × List GitHubDiscussion)
    (answer : Except String ThreadPage) (hstate : state.2.length < threadQuota limit) :
    (reviewThreadsForPull number limit).step state answer =
      (threadPages number).step (threadQuota limit) state.2 answer := by
  cases answer with
  | error error => rfl
  | ok page =>
      obtain ⟨errors, nodes, hasNextPage, endCursor⟩ := page
      cases errors with
      | true => rfl
      | false =>
          cases nodes with
          | error error => rfl
          | ok nodes =>
              rw [reviewThreadsForPull, Pager.step, threadPages]
              change (if (pushThreads number limit nodes state.2).2 = true then _ else _) =
                (if _ then _ else _)
              rw [pushThreads_eq nodes hstate]
              dsimp only
              by_cases hquota : threadQuota limit ≤ (state.2 ++ nodes.filterMap fun thread =>
                  thread.intoDiscussion number).length
              · rw [if_pos hquota, if_pos rfl, if_pos hquota]
              · rw [if_neg hquota, if_neg Bool.false_ne_true, if_neg hquota]
                change (if hasNextPage ≠ some true then _ else _) =
                  ((if hasNextPage ≠ some true then _ else _) >>= _)
                by_cases hmore : hasNextPage ≠ some true
                · rw [if_pos hmore, if_pos hmore]
                  rfl
                · rw [if_neg hmore, if_neg hmore]
                  cases endCursor <;> rfl

theorem threadLoop_endsWithin {number limit : Nat}
    {peer : Peer (Option String) (Except String ThreadPage)} {count : Nat} :
    (reviewThreadsForPull number limit).EndsWithin peer count (none, []) ↔
      ((threadPages number).loop (threadQuota limit)).EndsWithin peer count (none, []) := by
  have hrounds : (reviewThreadsForPull number limit).rounds peer count (none, []) [] =
      ((threadPages number).loop (threadQuota limit)).rounds peer count (none, []) [] := by
    apply Loop.rounds_congr (fun state => state.2.length < threadQuota limit)
    · rfl
    · exact fun state answer hstate => threadStep_eq state answer hstate
    · exact fun state answer next _ hnext => Pager.length_of_step hnext
    · exact Nat.lt_of_lt_of_le Nat.zero_lt_one (le_max_right _ _)
  rw [Loop.EndsWithin, Loop.EndsWithin, hrounds]

/-! ## How many requests they send -/

/-- So many pages from a request on are each read and name a next one, and hold
fewer items than the quota together. -/
def Starves {ρ A β : Type} (pager : Pager ρ A String β) (peer : Peer ρ A) (count : Nat) (start : ρ)
    (quota : Nat) : Prop :=
  ∃ items, pager.chain peer count start [] = some items ∧ items.length < quota

theorem not_starves_iff {ρ A β : Type} {pager : Pager ρ A String β} {peer : Peer ρ A} {count : Nat}
    {start : ρ} {quota : Nat} : ¬ Starves pager peer count start quota ↔
      ∀ items, pager.chain peer count start [] = some items → quota ≤ items.length := by
  simp only [Starves, not_exists, not_and, not_lt]

/-- Each of the three loops returns within one request more than its limit
unless the server lets it starve for as many pages. -/
theorem pagination_ends_iff (limit : Nat) :
    (∀ (peer : Peer Url (Except String (Linked (Page α)))) (start : Url),
      (paginated base limit).EndsWithin peer (limit + 1) (start, []) ↔
        ¬ Starves (linkedPages base readPage) peer (limit + 1) start limit) ∧
    (∀ (field : String) (peer : Peer Url (Except String (Linked (FieldPage α)))) (start : Url),
      (paginatedField base field limit).EndsWithin peer (limit + 1) (start, []) ↔
        ¬ Starves (linkedPages base fun page => readPage (page.page field)) peer (limit + 1) start
          limit) ∧
    ∀ (number : Nat) (peer : Peer (Option String) (Except String ThreadPage)),
      (reviewThreadsForPull number limit).EndsWithin peer (limit + 1) (none, []) ↔
        ¬ Starves (threadPages number) peer (limit + 1) none (threadQuota limit) := by
  refine ⟨fun peer start => ?_, fun field peer start => ?_, fun number peer => ?_⟩
  · rw [paginated, linkedLoop_eq, not_starves_iff, Pager.endsWithin_iff]
  · rw [paginatedField, linkedLoop_eq, not_starves_iff, Pager.endsWithin_iff]
  · rw [threadLoop_endsWithin, not_starves_iff, Pager.endsWithin_iff]

namespace Sample

/-- URLs as texts, all of one origin. -/
def textBase : ApiBase String where
  join := some
  sameOrigin := fun _ => true

/-- A server that answers every request with an empty page and a link to it. -/
def emptyPages : Peer String (Except String (Linked (Page Nat))) := fun _ _ =>
  .ok ⟨⟨200, .ok []⟩, some "</user/repos?page=2>; rel=\"next\""⟩

end Sample

/-- Against a server of empty pages that each name a next one the loop goes on
however many requests it has sent. -/
theorem paginated_never_ends : ¬ ∃ count, (paginated Sample.textBase 1).EndsWithin
    Sample.emptyPages count ("/user/repos", []) := by
  have hnext : nextUrl Sample.textBase (⟨⟨200, .ok []⟩,
      some "</user/repos?page=2>; rel=\"next\""⟩ : Linked (Page Nat)) =
        some "/user/repos?page=2" := by decide
  have hchain : ∀ count start log, (linkedPages Sample.textBase readPage).chain Sample.emptyPages
      count start log = some [] := by
    intro count
    induction count with
    | zero => exact fun _ _ => rfl
    | succ count ih =>
        intro start log
        have hitems : (linkedPages Sample.textBase readPage).items
            (Sample.emptyPages log start) = .ok [] := rfl
        have hlink : (linkedPages Sample.textBase readPage).next
            (Sample.emptyPages log start) = .ok (some "/user/repos?page=2") :=
          congrArg Except.ok hnext
        rw [Pager.chain]
        simp only [hitems, hlink, ih, Option.map_some, List.append_nil]
  rintro ⟨count, hends⟩
  cases count with
  | zero => exact hends _ rfl
  | succ count =>
      rw [paginated, linkedLoop_eq, Pager.endsWithin_iff] at hends
      exact absurd (hends [] (hchain _ _ _)) (by decide)

end Pagination

end Patchwright
