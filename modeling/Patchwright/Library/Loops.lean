import Patchwright.Library.Dialogue

/-!
# Loops that ask a peer

Each round of a loop sends one request, and its answer makes the loop go on or
end, with a result or an error.  The peer decides how long a loop goes on, so a
loop ends after some number of rounds or never.  A pager is a loop that collects
the items of page after page up to a quota: it ends within a number of rounds
unless as many pages each name a next one and hold too few items together.
-/

universe u

variable {σ ρ α ε β : Type u}

structure Loop (σ ρ α ε β : Type u) where
  request : σ → ρ
  step : σ → α → Except ε (σ ⊕ β)

namespace Loop

/-- So many rounds at most: the state in which the loop goes on or its result,
and the record of the exchanges. -/
def rounds (loop : Loop σ ρ α ε β) (peer : Peer ρ α) :
    Nat → σ → List (Exchange ρ α) → Except ε (σ ⊕ β) × List (Exchange ρ α)
  | 0, state, log => (.ok (.inl state), log)
  | count + 1, state, log =>
      let answer := peer log (loop.request state)
      let log := log ++ [⟨loop.request state, answer⟩]
      match loop.step state answer with
      | .ok (.inl next) => rounds loop peer count next log
      | .ok (.inr result) => (.ok (.inr result), log)
      | .error error => (.error error, log)

/-- The loop has returned after so many rounds, each of which is one request. -/
def EndsWithin (loop : Loop σ ρ α ε β) (peer : Peer ρ α) (count : Nat) (state : σ) : Prop :=
  ∀ next, (loop.rounds peer count state []).1 ≠ .ok (.inl next)

variable {loop other : Loop σ ρ α ε β} {peer : Peer ρ α}

theorem rounds_of_continue {count : Nat} {state next : σ} {log : List (Exchange ρ α)}
    (hstep : loop.step state (peer log (loop.request state)) = .ok (.inl next)) :
    loop.rounds peer (count + 1) state log = loop.rounds peer count next
      (log ++ [⟨loop.request state, peer log (loop.request state)⟩]) := by
  rw [rounds]
  simp only [hstep]

theorem rounds_of_end {count : Nat} {state : σ} {log : List (Exchange ρ α)}
    (hstep : ∀ next, loop.step state (peer log (loop.request state)) ≠ .ok (.inl next)) (next : σ) :
    (loop.rounds peer (count + 1) state log).1 ≠ .ok (.inl next) := by
  rw [rounds]
  split
  next hnext => exact absurd hnext (hstep _)
  all_goals nofun

/-- Loops that agree on the states of an invariant run alike from there. -/
theorem rounds_congr (inv : σ → Prop) (hrequest : loop.request = other.request)
    (hstep : ∀ state answer, inv state → loop.step state answer = other.step state answer)
    (hkeeps : ∀ state answer next, inv state → other.step state answer = .ok (.inl next) → inv next)
    (count : Nat) {state : σ} (hstate : inv state) (log : List (Exchange ρ α)) :
    loop.rounds peer count state log = other.rounds peer count state log := by
  induction count generalizing state log with
  | zero => rfl
  | succ count ih =>
      rw [rounds, rounds, hrequest, hstep state _ hstate]
      split
      next hnext => exact ih (hkeeps _ _ _ hstate hnext) _
      all_goals rfl

end Loop

/-- How the answer of a page is read: its items, and the request for the next
page if it names one. -/
structure Pager (ρ α ε β : Type u) where
  items : α → Except ε (List β)
  next : α → Except ε (Option ρ)

namespace Pager

def step (pager : Pager ρ α ε β) (quota : Nat) (found : List β) (answer : α) :
    Except ε ((ρ × List β) ⊕ List β) := do
  let items ← pager.items answer
  if quota ≤ (found ++ items).length then return .inr ((found ++ items).take quota)
  match ← pager.next answer with
  | some request => return .inl (request, found ++ items)
  | none => return .inr (found ++ items)

/-- Ask page after page until the quota is reached or there is no next page. -/
def loop (pager : Pager ρ α ε β) (quota : Nat) : Loop (ρ × List β) ρ α ε (List β) where
  request := Prod.fst
  step := fun state => pager.step quota state.2

/-- The items of so many pages from a request on, where each page is read and
names a next one. -/
def chain (pager : Pager ρ α ε β) (peer : Peer ρ α) :
    Nat → ρ → List (Exchange ρ α) → Option (List β)
  | 0, _, _ => some []
  | count + 1, request, log =>
      let answer := peer log request
      match pager.items answer, pager.next answer with
      | .ok items, .ok (some next) =>
          (chain pager peer count next (log ++ [⟨request, answer⟩])).map (items ++ ·)
      | _, _ => none

variable {pager : Pager ρ α ε β} {peer : Peer ρ α} {quota : Nat}

theorem step_of_error {found : List β} {answer : α} {error : ε}
    (hitems : pager.items answer = .error error) :
    pager.step quota found answer = .error error := by
  rw [step, hitems]
  rfl

theorem step_of_quota {found items : List β} {answer : α} (hitems : pager.items answer = .ok items)
    (hquota : quota ≤ (found ++ items).length) :
    pager.step quota found answer = .ok (.inr ((found ++ items).take quota)) := by
  rw [step, hitems]
  exact if_pos hquota

theorem step_of_next {found items : List β} {answer : α} (hitems : pager.items answer = .ok items)
    (hquota : ¬ quota ≤ (found ++ items).length) :
    pager.step quota found answer = (pager.next answer).map fun next =>
      match next with
      | some request => .inl (request, found ++ items)
      | none => .inr (found ++ items) := by
  rw [step, hitems]
  refine (if_neg hquota).trans ?_
  rcases pager.next answer with error | _ | request <;> rfl

/-- A loop that goes on is short of its quota. -/
theorem length_of_step {found : List β} {answer : α} {state : ρ × List β}
    (hstep : pager.step quota found answer = .ok (.inl state)) : state.2.length < quota := by
  rcases hitems : pager.items answer with error | items
  · rw [step_of_error hitems] at hstep
    cases hstep
  by_cases hquota : quota ≤ (found ++ items).length
  · rw [step_of_quota hitems hquota] at hstep
    cases hstep
  · rw [step_of_next hitems hquota] at hstep
    rcases hnext : pager.next answer with error | _ | next
    · rw [hnext] at hstep
      cases hstep
    · rw [hnext] at hstep
      cases hstep
    · rw [hnext] at hstep
      cases hstep
      exact not_le.mp hquota

theorem rounds_iff (count : Nat) {found : List β} (hfound : found.length < quota) (request : ρ)
    (log : List (Exchange ρ α)) :
    (∀ next, ((pager.loop quota).rounds peer count (request, found) log).1 ≠ .ok (.inl next)) ↔
      ∀ items, pager.chain peer count request log = some items →
        quota ≤ found.length + items.length := by
  induction count generalizing found request log with
  | zero =>
      refine iff_of_false (fun hends => hends _ rfl) fun hall => ?_
      exact absurd (hall [] rfl) (not_le.mpr hfound)
  | succ count ih =>
      have hstep : (pager.loop quota).step (request, found)
          (peer log ((pager.loop quota).request (request, found))) =
            pager.step quota found (peer log request) := rfl
      rw [chain]
      rcases hitems : pager.items (peer log request) with error | items
      · refine iff_of_true (Loop.rounds_of_end fun next => ?_) nofun
        rw [hstep, step_of_error hitems]
        nofun
      by_cases hquota : quota ≤ (found ++ items).length
      · refine iff_of_true (Loop.rounds_of_end fun next => ?_) fun all hall => ?_
        · rw [hstep, step_of_quota hitems hquota]
          nofun
        · rw [List.length_append] at hquota
          refine hquota.trans (Nat.add_le_add_left ?_ _)
          rcases hnext : pager.next (peer log request) with error | _ | next
          · rw [hnext] at hall
            cases hall
          · rw [hnext] at hall
            cases hall
          · rw [hnext] at hall
            obtain ⟨rest, -, rfl⟩ := Option.map_eq_some_iff.mp hall
            rw [List.length_append]
            exact Nat.le_add_right _ _
      · have hnextStep := step_of_next hitems hquota
        rw [not_le] at hquota
        rcases hnext : pager.next (peer log request) with error | _ | next
        · refine iff_of_true (Loop.rounds_of_end fun next => ?_) nofun
          rw [hstep, hnextStep, hnext]
          nofun
        · refine iff_of_true (Loop.rounds_of_end fun next => ?_) nofun
          rw [hstep, hnextStep, hnext]
          nofun
        · rw [hnext] at hnextStep
          rw [Loop.rounds_of_continue (hstep.trans hnextStep), ih hquota]
          simp only [Option.map_eq_some_iff, forall_exists_index, and_imp, List.length_append,
            Nat.add_assoc, forall_apply_eq_imp_iff₂]
          rfl

/-- The loop has returned after so many pages unless each of them is read and
names a next one and all of them together hold fewer items than the quota. -/
theorem endsWithin_iff (count : Nat) (request : ρ) :
    (pager.loop quota).EndsWithin peer (count + 1) (request, []) ↔
      ∀ items, pager.chain peer (count + 1) request [] = some items → quota ≤ items.length := by
  rcases Nat.eq_zero_or_pos quota with rfl | hquota
  · refine iff_of_true (Loop.rounds_of_end fun next => ?_) fun _ _ => Nat.zero_le _
    change pager.step 0 [] (peer [] request) ≠ _
    rcases hitems : pager.items (peer [] request) with error | items
    · rw [step_of_error hitems]
      nofun
    · rw [step_of_quota hitems (Nat.zero_le _)]
      nofun
  · have hends : (∀ next, ((pager.loop quota).rounds peer (count + 1) (request, []) []).1 ≠
        .ok (.inl next)) ↔ ∀ items, pager.chain peer (count + 1) request [] = some items →
          quota ≤ ([] : List β).length + items.length := rounds_iff (count + 1) hquota request []
    simp only [List.length_nil, Nat.zero_add] at hends
    exact hends

end Pager
