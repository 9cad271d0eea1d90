import Mathlib

/-!
# Requests and answers

A history says which requests were opened, answered and withdrawn.  It is
orderly when every answer is one to a request that is open at that point.  An
orderly history answers no request twice without opening it again in between.
-/

namespace Exchange

universe u

inductive Event (α : Type u) where
  | opened (request : α)
  | answered (request : α)
  | withdrawn (request : α)
  deriving DecidableEq

open Event

variable {α : Type u} {history : List (Event α)} {event : Event α} {request : α}

/-- The request was opened, and has been neither answered nor withdrawn since. -/
def IsOpen (request : α) (history : List (Event α)) : Prop :=
  ∃ earlier later, history = earlier ++ opened request :: later ∧
    answered request ∉ later ∧ withdrawn request ∉ later

/-- Every answer is one to an open request. -/
def Orderly (history : List (Event α)) : Prop :=
  ∀ earlier request later, history = earlier ++ answered request :: later →
    IsOpen request earlier

theorem isOpen_opened : IsOpen request (history ++ [opened request]) :=
  ⟨history, [], rfl, List.not_mem_nil, List.not_mem_nil⟩

/-- A request stays open until it is answered or withdrawn. -/
theorem IsOpen.concat (hopen : IsOpen request history) (hanswered : event ≠ answered request)
    (hwithdrawn : event ≠ withdrawn request) : IsOpen request (history ++ [event]) := by
  obtain ⟨earlier, later, rfl, hanswers, hwithdrawals⟩ := hopen
  refine ⟨earlier, later ++ [event], by rw [List.append_assoc, List.cons_append], ?_, ?_⟩
  · rw [List.mem_append, List.mem_singleton]
    exact fun hmem => hmem.elim hanswers fun hsame => hanswered hsame.symm
  · rw [List.mem_append, List.mem_singleton]
    exact fun hmem => hmem.elim hwithdrawals fun hsame => hwithdrawn hsame.symm

theorem orderly_nil : Orderly ([] : List (Event α)) := by
  intro earlier request later hhistory
  exact absurd hhistory.symm (List.append_ne_nil_of_right_ne_nil _ (List.cons_ne_nil _ _))

/-- A history stays orderly where the next event, if it is an answer, is one to
an open request. -/
theorem Orderly.concat (horderly : Orderly history)
    (hanswer : ∀ request, event = answered request → IsOpen request history) :
    Orderly (history ++ [event]) := by
  intro earlier request later hhistory
  rcases List.eq_nil_or_concat later with rfl | ⟨rest, last, rfl⟩
  · obtain ⟨rfl, hlast⟩ := List.append_inj' hhistory rfl
    exact hanswer request (List.singleton_inj.mp hlast)
  · rw [List.concat_eq_append, ← List.cons_append, ← List.append_assoc] at hhistory
    exact horderly earlier request rest (List.append_inj' hhistory rfl).1

/-- Between two answers the request is opened again. -/
theorem Orderly.opened_between {earlier middle later : List (Event α)}
    (horderly : Orderly (earlier ++ answered request :: (middle ++ answered request :: later))) :
    opened request ∈ middle := by
  obtain ⟨before, after, hsplit, hanswered, _⟩ := horderly (earlier ++ answered request :: middle)
    request later (by rw [List.append_assoc, List.cons_append])
  rcases List.append_eq_append_iff.mp hsplit with ⟨rest, hbefore, hrest⟩ | ⟨rest, hbefore, hrest⟩
  · cases rest with
    | nil => cases hrest
    | cons event rest =>
        rw [List.cons_append, List.cons.injEq] at hrest
        rw [hrest.2]
        exact List.mem_append_right _ List.mem_cons_self
  · cases rest with
    | nil => cases hrest
    | cons event rest =>
        rw [List.cons_append, List.cons.injEq] at hrest
        rw [hrest.2] at hanswered
        exact absurd (List.mem_append_right _ List.mem_cons_self) hanswered

end Exchange
