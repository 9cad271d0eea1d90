import Mathlib
import Patchwright.Library.Checked

/-!
# Computations that talk to a peer

A dialogue sends requests to a peer, may fail, and keeps the record of what was
asked and answered whether it fails or not.  The peer is any function of the
past exchanges and the request, so nothing is assumed of its answers.  The rules
split a run at a bind and follow a property of the exchanges a dialogue adds
through its parts.
-/

universe u

variable {ρ α ε β γ : Type u}

/-- A request and what came of it. -/
structure Exchange (ρ α : Type u) where
  request : ρ
  answer : α

/-- Any behaviour, also one that depends on what was asked before. -/
abbrev Peer (ρ α : Type u) := List (Exchange ρ α) → ρ → α

def Dialogue (ρ α ε β : Type u) := List (Exchange ρ α) → Except ε β × List (Exchange ρ α)

namespace Dialogue

instance : Monad (Dialogue ρ α ε) where
  pure value := fun log => (.ok value, log)
  bind first rest := fun log =>
    match first log with
    | (.ok value, log) => rest value log
    | (.error error, log) => (.error error, log)

def fail (error : ε) : Dialogue ρ α ε β := fun log => (.error error, log)

def ofExcept (result : Except ε β) : Dialogue ρ α ε β := fun log => (result, log)

/-- Send one request and read its answer. -/
def ask (peer : Peer ρ α) (request : ρ) : Dialogue ρ α ε α := fun log =>
  let answer := peer log request
  (.ok answer, log ++ [⟨request, answer⟩])

@[simp]
theorem run_pure (value : β) (log : List (Exchange ρ α)) :
    (pure value : Dialogue ρ α ε β) log = (.ok value, log) := rfl

@[simp]
theorem run_fail (error : ε) (log : List (Exchange ρ α)) :
    (fail error : Dialogue ρ α ε β) log = (.error error, log) := rfl

@[simp]
theorem run_ofExcept (result : Except ε β) (log : List (Exchange ρ α)) :
    (ofExcept result : Dialogue ρ α ε β) log = (result, log) := rfl

theorem run_ask (peer : Peer ρ α) (request : ρ) (log : List (Exchange ρ α)) :
    (ask peer request : Dialogue ρ α ε α) log =
      (.ok (peer log request), log ++ [⟨request, peer log request⟩]) := rfl

theorem run_bind (first : Dialogue ρ α ε β) (rest : β → Dialogue ρ α ε γ)
    (log : List (Exchange ρ α)) :
    (first >>= rest) log =
      match first log with
      | (.ok value, log) => rest value log
      | (.error error, log) => (.error error, log) := rfl

theorem ofExcept_bind_ok (value : β) (rest : β → Dialogue ρ α ε γ) :
    (ofExcept (.ok value) >>= rest) = rest value := rfl

theorem bind_run_pure (first : Dialogue ρ α ε β) : (first >>= pure) = first := by
  funext log
  rw [run_bind]
  rcases first log with ⟨_ | _, _⟩ <;> rfl

theorem bind_bind (first : Dialogue ρ α ε β) {δ : Type u} (middle : β → Dialogue ρ α ε γ)
    (last : γ → Dialogue ρ α ε δ) :
    (first >>= middle) >>= last = first >>= fun value => middle value >>= last := by
  funext log
  rw [run_bind, run_bind, run_bind]
  rcases first log with ⟨_ | _, _⟩ <;> rfl

instance : LawfulMonad (Dialogue ρ α ε) :=
  LawfulMonad.mk' (Dialogue ρ α ε) (fun first => bind_run_pure first) (fun _ _ => rfl)
    (fun first middle last => bind_bind first middle last)

/-- Every exchange the dialogue adds has the property. -/
def Adds (property : Exchange ρ α → Prop) (dialogue : Dialogue ρ α ε β) : Prop :=
  ∀ log, ∃ added, (dialogue log).2 = log ++ added ∧ ∀ exchange ∈ added, property exchange

section Adds

variable {property : Exchange ρ α → Prop}

theorem adds_pure (value : β) : Adds property (pure value : Dialogue ρ α ε β) :=
  fun log => ⟨[], (List.append_nil log).symm, by simp⟩

theorem adds_fail (error : ε) : Adds property (fail error : Dialogue ρ α ε β) :=
  fun log => ⟨[], (List.append_nil log).symm, by simp⟩

theorem adds_ofExcept (result : Except ε β) :
    Adds property (ofExcept result : Dialogue ρ α ε β) :=
  fun log => ⟨[], (List.append_nil log).symm, by simp⟩

theorem adds_ask {peer : Peer ρ α} {request : ρ} (hrequest : ∀ answer, property ⟨request, answer⟩) :
    Adds property (ask peer request : Dialogue ρ α ε α) := by
  intro log
  refine ⟨[⟨request, peer log request⟩], rfl, ?_⟩
  intro exchange hexchange
  rw [List.mem_singleton] at hexchange
  rw [hexchange]
  exact hrequest _

theorem Adds.bind {first : Dialogue ρ α ε β} {rest : β → Dialogue ρ α ε γ}
    (hfirst : Adds property first) (hrest : ∀ value, Adds property (rest value)) :
    Adds property (first >>= rest) := by
  intro log
  rcases hfirst log with ⟨added, hadded, hproperty⟩
  rw [run_bind]
  cases hrun : first log with
  | mk result middle =>
      rw [hrun] at hadded
      cases result with
      | error error => exact ⟨added, hadded, hproperty⟩
      | ok value =>
          rcases hrest value middle with ⟨more, hmore, hmoreProperty⟩
          refine ⟨added ++ more, ?_, ?_⟩
          · have hmiddle : middle = log ++ added := hadded
            rw [hmore, hmiddle, List.append_assoc]
          · intro exchange hexchange
            rcases List.mem_append.mp hexchange with hmem | hmem
            · exact hproperty exchange hmem
            · exact hmoreProperty exchange hmem

end Adds

section Steps

variable {σ : Type u} {property : σ → Exchange ρ α → Prop} {steps more : List σ}

/-- The dialogue asks what the steps say, whatever becomes of it. -/
def Asks (property : σ → Exchange ρ α → Prop) (steps : List σ) (dialogue : Dialogue ρ α ε β) :
    Prop :=
  ∀ log, ∃ added, (dialogue log).2 = log ++ added ∧ List.Forall₂ property steps added

/-- The dialogue asks what the steps say, one after another, and may stop once
it has asked the least of them. -/
def Within (property : σ → Exchange ρ α → Prop) (least steps : List σ)
    (dialogue : Dialogue ρ α ε β) : Prop :=
  ∀ log, ∃ added taken, (dialogue log).2 = log ++ added ∧ least <+: taken ∧ taken <+: steps ∧
    List.Forall₂ property taken added

theorem asks_ofExcept (result : Except ε β) :
    Asks property [] (ofExcept result : Dialogue ρ α ε β) :=
  fun log => ⟨[], (List.append_nil log).symm, .nil⟩

theorem asks_ask {peer : Peer ρ α} {request : ρ} {step : σ}
    (hstep : ∀ answer, property step ⟨request, answer⟩) :
    Asks property [step] (ask peer request : Dialogue ρ α ε α) :=
  fun _ => ⟨[_], rfl, .cons (hstep _) .nil⟩

/-- What follows and asks nothing changes nothing. -/
theorem Asks.bind_silent {first : Dialogue ρ α ε β} {rest : β → Dialogue ρ α ε γ}
    (hfirst : Asks property steps first) (hrest : ∀ value log, (rest value log).2 = log) :
    Asks property steps (first >>= rest) := by
  intro log
  obtain ⟨added, hadded, hproperty⟩ := hfirst log
  rw [run_bind]
  cases hrun : first log with
  | mk result middle =>
      rw [hrun] at hadded
      cases result with
      | error error => exact ⟨added, hadded, hproperty⟩
      | ok value => exact ⟨added, (hrest value middle).trans hadded, hproperty⟩

theorem Asks.within {dialogue : Dialogue ρ α ε β} (hasks : Asks property steps dialogue) :
    Within property steps steps dialogue := by
  intro log
  obtain ⟨added, hadded, hproperty⟩ := hasks log
  exact ⟨added, steps, hadded, List.prefix_refl _, List.prefix_refl _, hproperty⟩

/-- Asking all the steps is asking at least none of them. -/
theorem Asks.may {dialogue : Dialogue ρ α ε β} (hasks : Asks property steps dialogue) :
    Within property [] steps dialogue := by
  intro log
  obtain ⟨added, hadded, hproperty⟩ := hasks log
  exact ⟨added, steps, hadded, List.nil_prefix, List.prefix_refl _, hproperty⟩

theorem Within.may {dialogue : Dialogue ρ α ε β} {least : List σ}
    (hwithin : Within property least steps dialogue) : Within property [] steps dialogue := by
  intro log
  obtain ⟨added, taken, hadded, _, htaken, hproperty⟩ := hwithin log
  exact ⟨added, taken, hadded, List.nil_prefix, htaken, hproperty⟩

theorem within_pure (value : β) : Within property [] steps (pure value : Dialogue ρ α ε β) :=
  fun log => ⟨[], [], (List.append_nil log).symm, List.nil_prefix, List.nil_prefix, .nil⟩

theorem within_fail (error : ε) : Within property [] steps (fail error : Dialogue ρ α ε β) :=
  fun log => ⟨[], [], (List.append_nil log).symm, List.nil_prefix, List.nil_prefix, .nil⟩

/-- The steps of a sequence are those of its first part and then those of the
rest. -/
theorem Asks.bind_within {first : Dialogue ρ α ε β} {rest : β → Dialogue ρ α ε γ}
    (hfirst : Asks property steps first) (hrest : ∀ value, Within property [] more (rest value)) :
    Within property steps (steps ++ more) (first >>= rest) := by
  intro log
  obtain ⟨added, hadded, hproperty⟩ := hfirst log
  rw [run_bind]
  cases hrun : first log with
  | mk result middle =>
      rw [hrun] at hadded
      cases result with
      | error error =>
          exact ⟨added, steps, hadded, List.prefix_refl _, List.prefix_append _ _, hproperty⟩
      | ok value =>
          obtain ⟨later, onward, hlater, _, honward, hnext⟩ := hrest value middle
          have hmiddle : middle = log ++ added := hadded
          refine ⟨added ++ later, steps ++ onward, ?_, ?_, ?_, ?_⟩
          · rw [hlater, hmiddle, List.append_assoc]
          · exact List.prefix_append _ _
          · exact (List.prefix_append_right_inj steps).mpr honward
          · exact List.rel_append hproperty hnext

end Steps

section Yields

variable {post : β → List (Exchange ρ α) → Prop}

/-- What a dialogue that ends well returns, and what it has added. -/
def Yields (post : β → List (Exchange ρ α) → Prop) (dialogue : Dialogue ρ α ε β) : Prop :=
  ∀ log value later, dialogue log = (.ok value, later) →
    ∃ added, later = log ++ added ∧ post value added

theorem yields_pure {value : β} (hpost : post value []) :
    Yields post (pure value : Dialogue ρ α ε β) := by
  intro log _ _ hrun
  cases hrun
  exact ⟨[], (List.append_nil log).symm, hpost⟩

theorem yields_fail (error : ε) : Yields post (fail error : Dialogue ρ α ε β) := by
  intro log _ _ hrun
  cases hrun

theorem yields_ofExcept {result : Except ε β} (hpost : ∀ value, result = .ok value → post value []) :
    Yields post (ofExcept result : Dialogue ρ α ε β) := by
  intro log value _ hrun
  obtain ⟨hresult, hlater⟩ := Prod.mk.inj hrun
  exact ⟨[], by rw [List.append_nil, ← hlater], hpost value hresult⟩

theorem yields_ofExcept_bind {post : γ → List (Exchange ρ α) → Prop} {result : Except ε β}
    {rest : β → Dialogue ρ α ε γ} (hrest : ∀ value, result = .ok value → Yields post (rest value)) :
    Yields post (ofExcept result >>= rest) := by
  cases result with
  | error error => exact yields_fail error
  | ok value => exact hrest value rfl

theorem yields_ask {peer : Peer ρ α} {request : ρ} {post : α → List (Exchange ρ α) → Prop}
    (hpost : ∀ answer, post answer [⟨request, answer⟩]) :
    Yields post (ask peer request : Dialogue ρ α ε α) := by
  intro log _ _ hrun
  cases hrun
  exact ⟨[_], rfl, hpost _⟩

theorem Yields.bind {middle : β → List (Exchange ρ α) → Prop}
    {post : γ → List (Exchange ρ α) → Prop} {first : Dialogue ρ α ε β}
    {rest : β → Dialogue ρ α ε γ} (hfirst : Yields middle first)
    (hrest : ∀ value added, middle value added →
      Yields (fun result more => post result (added ++ more)) (rest value)) :
    Yields post (first >>= rest) := by
  intro log result later hrun
  rw [run_bind] at hrun
  cases hfirstRun : first log with
  | mk outcome between =>
      rw [hfirstRun] at hrun
      cases outcome with
      | error error => cases hrun
      | ok value =>
          obtain ⟨added, rfl, hmiddle⟩ := hfirst log value between hfirstRun
          obtain ⟨more, hmore, hpost⟩ := hrest value added hmiddle _ result later hrun
          exact ⟨added ++ more, by rw [hmore, List.append_assoc], hpost⟩

end Yields

end Dialogue
