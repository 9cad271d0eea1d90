import Patchwright.Library.Checked

/-!
# Transactions

A transaction works on a copy of a store.  Each of its operations may be hit by
a fault, a failure that it sees or a crash of its process; the store has the
copy only when the commit has happened, and is as it was in every other case.
A crash in the middle of a commit comes before or after the point from which
the commit is durable.
-/

namespace Transaction

open Checked

inductive Fault where
  | failure (reason : String)
  | crash
  deriving DecidableEq, Repr

inductive CommitFault where
  | failure (reason : String)
  | crash (durable : Bool)
  deriving DecidableEq, Repr

/-- The faults that hit the operations of a transaction, by their number, and
its commit. -/
structure Faults where
  operation : Nat → Option Fault
  commit : Option CommitFault

def Faults.none : Faults where
  operation _ := .none
  commit := .none

/-- How a transaction ends. -/
inductive Outcome where
  | committed
  | failed (reason : String)
  | crashed
  deriving DecidableEq, Repr

/-- Why a transaction stops before its commit. -/
inductive Stop where
  | failed (reason : String)
  | crashed
  deriving DecidableEq, Repr

def Fault.stop : Fault → Stop
  | .failure reason => .failed reason
  | .crash => .crashed

def Stop.outcome : Stop → Outcome
  | .failed reason => .failed reason
  | .crashed => .crashed

/-- What the caller of a transaction hears: nothing, when its process crashed. -/
def Outcome.answer {α : Type} (value : α) : Outcome → Option (Except String α)
  | .committed => some (.ok value)
  | .failed reason => some (.error reason)
  | .crashed => none

section Operations

variable {σ α : Type} {faults : Faults}

/-- One operation, with its number. -/
def perform (faults : Faults) (number : Nat) (result : Except String α) : Except Stop α :=
  match faults.operation number with
  | some fault => .error fault.stop
  | none => result.mapError .failed

/-- Operations one after another, on the copy. -/
def runAll (operations : List (σ → Except String σ)) (work : σ) : Except String σ :=
  operations.foldlM (fun work operation => operation work) work

/-- Operations one after another, from a number on. -/
def performAll (faults : Faults) : Nat → List (σ → Except String σ) → σ → Except Stop σ
  | _, [], work => .ok work
  | number, operation :: operations, work => do
      let work ← perform faults number (operation work)
      performAll faults (number + 1) operations work

/-- Commit the copy that the operations have left, or roll back. -/
def finish (faults : Faults) (store : σ) (copy : Except Stop σ) : Outcome × σ :=
  match copy with
  | .error stop => (stop.outcome, store)
  | .ok work =>
      match faults.commit with
      | none => (.committed, work)
      | some (.failure reason) => (.failed reason, store)
      | some (.crash durable) => (.crashed, if durable then work else store)

theorem of_perform_eq_ok {number : Nat} {result : Except String α} {value : α}
    (hperform : perform faults number result = .ok value) : result = .ok value := by
  rw [perform] at hperform
  split at hperform
  · cases hperform
  · exact mapError_eq_ok.1 hperform

theorem perform_none (number : Nat) (result : Except String α) :
    perform .none number result = result.mapError .failed := rfl

theorem runAll_cons (operation : σ → Except String σ) (operations : List (σ → Except String σ))
    (work : σ) : runAll (operation :: operations) work = operation work >>= runAll operations := rfl

theorem runAll_append (first second : List (σ → Except String σ)) (work : σ) :
    runAll (first ++ second) work = runAll first work >>= runAll second := by
  rw [runAll, List.foldlM_append]
  rfl

/-- Operations that get through have done what they do without faults. -/
theorem of_performAll_eq_ok {number : Nat} {operations : List (σ → Except String σ)}
    {work after : σ} (hperform : performAll faults number operations work = .ok after) :
    runAll operations work = .ok after := by
  induction operations generalizing number work with
  | nil =>
      cases hperform
      rfl
  | cons operation operations ih =>
      rw [performAll, bind_eq_ok] at hperform
      obtain ⟨next, hfirst, hrest⟩ := hperform
      rw [runAll_cons, of_perform_eq_ok hfirst]
      exact ih hrest

theorem performAll_none {number : Nat} {operations : List (σ → Except String σ)}
    {work after : σ} (hrun : runAll operations work = .ok after) :
    performAll .none number operations work = .ok after := by
  induction operations generalizing number work with
  | nil =>
      cases hrun
      rfl
  | cons operation operations ih =>
      rw [runAll_cons, bind_eq_ok] at hrun
      obtain ⟨next, hfirst, hrest⟩ := hrun
      rw [performAll, perform_none, hfirst]
      exact ih hrest

/-- The store afterwards is the copy that got through, or it is as it was and
the transaction has not committed. -/
theorem finish_cases (faults : Faults) (store : σ) (copy : Except Stop σ) :
    (copy = .ok (finish faults store copy).2 ∧
        ∀ reason, (finish faults store copy).1 ≠ .failed reason) ∨
      (finish faults store copy).1 ≠ .committed ∧ (finish faults store copy).2 = store := by
  cases copy with
  | error stop =>
      refine .inr ⟨?_, rfl⟩
      cases stop with
      | failed reason => exact nofun
      | crashed => exact nofun
  | ok work =>
      rw [finish]
      cases faults.commit with
      | none => exact .inl ⟨rfl, nofun⟩
      | some fault =>
          cases fault with
          | failure reason => exact .inr ⟨nofun, rfl⟩
          | crash durable =>
              cases durable with
              | true => exact .inl ⟨rfl, nofun⟩
              | false => exact .inr ⟨nofun, rfl⟩

/-- A copy that is the store leaves it as it was. -/
theorem finish_same {store : σ} {copy : Except Stop σ}
    (hsame : ∀ work, copy = .ok work → work = store) : (finish faults store copy).2 = store := by
  rcases finish_cases faults store copy with ⟨hcopy, _⟩ | ⟨_, hstore⟩
  · exact hsame _ hcopy
  · exact hstore

/-- The caller of a transaction hears of success when it has committed, and of a
failure only when the store is as it was. -/
theorem finish_answer {α : Type} {value : α} {store : σ} {copy : Except Stop σ}
    {answer : Except String α}
    (hanswer : (finish faults store copy).1.answer value = some answer) :
    (answer = .ok value ∧ copy = .ok (finish faults store copy).2) ∨
      (∃ reason, answer = .error reason) ∧ (finish faults store copy).2 = store := by
  have hcases := finish_cases faults store copy
  cases houtcome : (finish faults store copy).1 with
  | committed =>
      rw [houtcome] at hanswer hcases
      rcases hcases with ⟨hcopy, _⟩ | ⟨hne, _⟩
      · exact .inl ⟨(Option.some_inj.mp hanswer).symm, hcopy⟩
      · exact absurd rfl hne
  | failed reason =>
      rw [houtcome] at hanswer hcases
      rcases hcases with ⟨_, hne⟩ | ⟨_, hsame⟩
      · exact absurd rfl (hne reason)
      · exact .inr ⟨⟨reason, (Option.some_inj.mp hanswer).symm⟩, hsame⟩
  | crashed =>
      rw [houtcome] at hanswer
      cases hanswer

end Operations

end Transaction
