import Mathlib
import Patchwright.Library.Runs

/-!
# Messages that are owed and taken

A sender promises messages and a receiver takes each of them once.  A system
with losses, repetitions and restarts between the two does the same if each of
its steps is a promise, the taking of a message that is owed, or nothing that
either side can tell.
-/

namespace Outbox

open Runs

universe u v w

/-- The messages that were promised and those that were taken, latest first. -/
structure Ledger (κ : Type u) where
  promised : List κ
  taken : List κ

inductive Move (κ : Type u) where
  | promise (key : κ)
  | take (key : κ)

namespace Ledger

variable {κ : Type u}

def empty : Ledger κ := ⟨[], []⟩

/-- The message was promised, and is still to be taken. -/
def Owes (ledger : Ledger κ) (key : κ) : Prop := key ∈ ledger.promised ∧ key ∉ ledger.taken

/-- Only promised messages are taken, and each once. -/
structure Sound (ledger : Ledger κ) : Prop where
  once : ledger.taken.Nodup
  promised : ∀ key ∈ ledger.taken, key ∈ ledger.promised

theorem Sound.empty : (empty : Ledger κ).Sound :=
  ⟨List.nodup_nil, fun _ hkey => absurd hkey List.not_mem_nil⟩

variable [DecidableEq κ]

instance (ledger : Ledger κ) (key : κ) : Decidable (ledger.Owes key) :=
  inferInstanceAs (Decidable (_ ∧ _))

def step (ledger : Ledger κ) : Move κ → Option (Ledger κ)
  | .promise key => some { ledger with promised := key :: ledger.promised }
  | .take key =>
      if ledger.Owes key then some { ledger with taken := key :: ledger.taken } else none

theorem step_take {ledger : Ledger κ} {key : κ} (howes : ledger.Owes key) :
    ledger.step (.take key) = some { ledger with taken := key :: ledger.taken } :=
  if_pos howes

theorem Sound.step {ledger next : Ledger κ} {move : Move κ} (hledger : ledger.Sound)
    (hstep : ledger.step move = some next) : next.Sound := by
  cases move with
  | promise key =>
      cases hstep
      exact ⟨hledger.once, fun key hkey => List.mem_cons_of_mem _ (hledger.promised key hkey)⟩
  | take key =>
      rw [Ledger.step, Option.ite_none_right_eq_some, Option.some.injEq] at hstep
      obtain ⟨howes, rfl⟩ := hstep
      refine ⟨List.nodup_cons.mpr ⟨howes.2, hledger.once⟩, ?_⟩
      exact List.forall_mem_cons.mpr ⟨howes.1, hledger.promised⟩

end Ledger

/-! ## Systems between a sender and a receiver -/

section Systems

variable {κ : Type u} [DecidableEq κ] {σ : Type v} {ε : Type w}
variable {step : σ → ε → Option σ} {view : σ → Ledger κ} {inv : σ → Prop}

/-- A step of the system is at most one move of its ledger. -/
def AtMostOneMove (first second : Ledger κ) : Prop :=
  second = first ∨ ∃ move, first.step move = some second

/-- Under an invariant, every step is at most one move of the ledger. -/
def Refines (step : σ → ε → Option σ) (view : σ → Ledger κ) (inv : σ → Prop) : Prop :=
  ∀ state event next, inv state → step state event = some next →
    inv next ∧ AtMostOneMove (view state) (view next)

theorem Refines.invariant (hrefines : Refines step view inv) {start final : σ} {events : List ε}
    (hstart : inv start) (hrun : run step start events = some final) : inv final :=
  invariant_of_run (fun state event next hinv hstep => (hrefines state event next hinv hstep).1)
    hrun hstart

/-- A run of the system is a run of its ledger. -/
theorem Refines.run_ledger (hrefines : Refines step view inv) {start final : σ} {events : List ε}
    (hstart : inv start) (hrun : run step start events = some final) :
    ∃ moves, run Ledger.step (view start) moves = some (view final) := by
  induction events generalizing start with
  | nil =>
      rw [run_nil, Option.some.injEq] at hrun
      exact ⟨[], by rw [hrun, run_nil]⟩
  | cons event events ih =>
      obtain ⟨next, hstep, hrest⟩ := run_cons_eq_some.mp hrun
      obtain ⟨hnext, hmove⟩ := hrefines start event next hstart hstep
      obtain ⟨moves, hmoves⟩ := ih hnext hrest
      rcases hmove with hsame | ⟨move, hmove⟩
      · exact ⟨moves, hsame ▸ hmoves⟩
      · exact ⟨move :: moves, run_cons_eq_some.mpr ⟨_, hmove, hmoves⟩⟩

theorem sound_of_run {start final : Ledger κ} {moves : List (Move κ)} (hstart : start.Sound)
    (hrun : run Ledger.step start moves = some final) : final.Sound :=
  invariant_of_run (fun _ _ _ hledger hstep => hledger.step hstep) hrun hstart

/-- Whatever happens between the two sides, only promised messages are taken,
and each once. -/
theorem Refines.sound (hrefines : Refines step view inv) {start final : σ} {events : List ε}
    (hstart : inv start) (hsound : (view start).Sound) (hrun : run step start events = some final) :
    (view final).Sound := by
  obtain ⟨moves, hmoves⟩ := hrefines.run_ledger hstart hrun
  exact sound_of_run hsound hmoves

end Systems

end Outbox
