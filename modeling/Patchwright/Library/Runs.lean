import Mathlib

/-!
# Runs of guarded transition systems

A system is given by an executable step function that refuses an event by
returning `none`.  A run folds a list of events through it.  The rules below
are the ones a safety argument needs: runs compose and split, a predicate kept
by every accepted step holds after every run, the same holds when only the
steps that meet a condition keep it, and a property that is false before a run
and true after it becomes true at one definite step.
-/

namespace Runs

universe u v

variable {σ : Type u} {ε : Type v} (step : σ → ε → Option σ)

/-- The state after a list of events, or `none` once an event is refused. -/
def run : σ → List ε → Option σ
  | state, [] => some state
  | state, event :: events =>
      match step state event with
      | some next => run next events
      | none => none

@[simp]
theorem run_nil (state : σ) : run step state [] = some state := rfl

variable {step}

theorem run_cons_eq_some {state final : σ} {event : ε} {events : List ε} :
    run step state (event :: events) = some final ↔
      ∃ next, step state event = some next ∧ run step next events = some final := by
  rw [run]
  cases hstep : step state event with
  | none => simp
  | some next => simp

theorem run_append_eq_some {state final : σ} {first second : List ε} :
    run step state (first ++ second) = some final ↔
      ∃ middle, run step state first = some middle ∧
        run step middle second = some final := by
  induction first generalizing state with
  | nil => simp
  | cons event events ih =>
      rw [List.cons_append, run_cons_eq_some]
      constructor
      · rintro ⟨next, hstep, hrest⟩
        obtain ⟨middle, hfirst, hsecond⟩ := ih.mp hrest
        exact ⟨middle, run_cons_eq_some.2 ⟨next, hstep, hfirst⟩, hsecond⟩
      · rintro ⟨middle, hfirst, hsecond⟩
        obtain ⟨next, hstep, hrest⟩ := run_cons_eq_some.1 hfirst
        exact ⟨next, hstep, ih.mpr ⟨middle, hrest, hsecond⟩⟩

/-- A predicate kept by every accepted step holds after every run. -/
theorem invariant_of_run {inv : σ → Prop}
    (hstep : ∀ state event next, inv state → step state event = some next → inv next)
    {state final : σ} {events : List ε}
    (hrun : run step state events = some final) (hstart : inv state) :
    inv final := by
  induction events generalizing state with
  | nil =>
      rw [run_nil, Option.some.injEq] at hrun
      exact hrun ▸ hstart
  | cons event events ih =>
      obtain ⟨next, hnext, hrest⟩ := run_cons_eq_some.1 hrun
      exact ih hrest (hstep state event next hstart hnext)

/-- A reflexive and transitive relation kept by every accepted step relates the
ends of every run. -/
theorem rel_of_run {rel : σ → σ → Prop} (hrefl : ∀ state, rel state state)
    (htrans : ∀ {first second third}, rel first second → rel second third → rel first third)
    (hstep : ∀ state event next, step state event = some next → rel state next)
    {state final : σ} {events : List ε} (hrun : run step state events = some final) :
    rel state final := by
  induction events generalizing state with
  | nil =>
      rw [run_nil, Option.some.injEq] at hrun
      exact hrun ▸ hrefl state
  | cons event events ih =>
      obtain ⟨next, hnext, hrest⟩ := run_cons_eq_some.1 hrun
      exact htrans (hstep state event next hnext) (ih hrest)

variable (step) in
/-- Every step of the run, as far as it is accepted, starts in a state that
meets the condition for the event it takes. -/
def EveryStep (cond : σ → ε → Prop) : σ → List ε → Prop
  | _, [] => True
  | state, event :: events =>
      cond state event ∧ ∀ next, step state event = some next → EveryStep cond next events

/-- What holds of every step holds of every step of a run. -/
theorem everyStep_of_forall {cond : σ → ε → Prop} (hcond : ∀ state event, cond state event)
    (state : σ) (events : List ε) : EveryStep step cond state events := by
  induction events generalizing state with
  | nil => exact trivial
  | cons event events ih => exact ⟨hcond state event, fun next _ => ih next⟩

/-- A step lemma about an invariant, on every step of a run. -/
theorem everyStep_of_invariant (inv : σ → Prop) {cond : σ → ε → Prop} {good : σ → ε → σ → Prop}
    (hstep : ∀ state event next, cond state event → inv state →
      step state event = some next → inv next ∧ good state event next)
    {state : σ} {events : List ε} (hevery : EveryStep step cond state events)
    (hstart : inv state) :
    EveryStep step (fun state event => ∀ next, step state event = some next →
      good state event next) state events := by
  induction events generalizing state with
  | nil => exact trivial
  | cons event events ih =>
      refine ⟨fun next hnext => (hstep state event next hevery.1 hstart hnext).2, ?_⟩
      intro next hnext
      exact ih (hevery.2 next hnext) (hstep state event next hevery.1 hstart hnext).1

/-- A condition on every step can be tested by running the steps. -/
def decidableEveryStep (step : σ → ε → Option σ) (cond : σ → ε → Prop)
    [hdecidable : ∀ state event, Decidable (cond state event)] :
    ∀ state events, Decidable (EveryStep step cond state events)
  | _, [] => .isTrue trivial
  | state, event :: events =>
      match hdecidable state event, hstep : step state event with
      | .isFalse hcond, _ => .isFalse fun hevery => hcond hevery.1
      | .isTrue hcond, none => .isTrue ⟨hcond, fun _ hnext => nomatch hstep.symm.trans hnext⟩
      | .isTrue hcond, some next =>
          match decidableEveryStep step cond next events with
          | .isTrue hrest => .isTrue ⟨hcond, fun _ hnext =>
              Option.some.inj (hstep.symm.trans hnext) ▸ hrest⟩
          | .isFalse hrest => .isFalse fun hevery => hrest (hevery.2 next hstep)

/-- The invariant rule for runs whose steps all meet a condition. -/
theorem invariant_of_everyStep {cond : σ → ε → Prop} {inv : σ → Prop}
    (hstep : ∀ state event next, cond state event → inv state →
      step state event = some next → inv next)
    {state final : σ} {events : List ε}
    (hevery : EveryStep step cond state events)
    (hrun : run step state events = some final) (hstart : inv state) :
    inv final := by
  induction events generalizing state with
  | nil =>
      rw [run_nil, Option.some.injEq] at hrun
      exact hrun ▸ hstart
  | cons event events ih =>
      obtain ⟨next, hnext, hrest⟩ := run_cons_eq_some.1 hrun
      exact ih (hevery.2 next hnext) hrest
        (hstep state event next hevery.1 hstart hnext)

/-- Where a step that misses the condition does lasting damage, a run ends well
when all its steps meet the condition, and badly when one of them does not. -/
theorem everyStep_dichotomy (cond : σ → ε → Prop) (good bad : σ → Prop)
    (hgood : ∀ state event next, cond state event → good state →
      step state event = some next → good next)
    (hbad : ∀ state event next, ¬ cond state event → good state →
      step state event = some next → bad next)
    (hkeep : ∀ state event next, bad state → step state event = some next → bad next)
    {state final : σ} {events : List ε}
    (hrun : run step state events = some final) (hstart : good state) :
    (EveryStep step cond state events ∧ good final) ∨
      (¬ EveryStep step cond state events ∧ bad final) := by
  induction events generalizing state with
  | nil =>
      rw [run_nil, Option.some.injEq] at hrun
      exact .inl ⟨trivial, hrun ▸ hstart⟩
  | cons event events ih =>
      obtain ⟨next, hnext, hrest⟩ := run_cons_eq_some.1 hrun
      by_cases hcond : cond state event
      · rcases ih hrest (hgood state event next hcond hstart hnext) with
          ⟨hevery, hfinal⟩ | ⟨hmissed, hfinal⟩
        · refine .inl ⟨⟨hcond, fun other hother => ?_⟩, hfinal⟩
          cases hnext.symm.trans hother
          exact hevery
        · exact .inr ⟨fun hevery => hmissed (hevery.2 next hnext), hfinal⟩
      · have hdamaged := hbad state event next hcond hstart hnext
        exact .inr ⟨fun hevery => hcond hevery.1, invariant_of_run hkeep hrest hdamaged⟩

theorem everyStep_append {cond : σ → ε → Prop} {state middle : σ}
    {first second : List ε} (hevery : EveryStep step cond state (first ++ second))
    (hrun : run step state first = some middle) :
    EveryStep step cond state first ∧ EveryStep step cond middle second := by
  induction first generalizing state with
  | nil =>
      rw [run_nil, Option.some.injEq] at hrun
      exact ⟨trivial, hrun ▸ hevery⟩
  | cons event events ih =>
      obtain ⟨next, hnext, hrest⟩ := run_cons_eq_some.1 hrun
      obtain ⟨hhere, hlater⟩ := hevery
      refine ⟨⟨hhere, fun other hother => ?_⟩, (ih (hlater next hnext) hrest).2⟩
      cases hnext.symm.trans hother
      exact (ih (hlater next hnext) hrest).1

/-- A property that a run makes true becomes true at one of its steps. -/
theorem exists_crossing (prop : σ → Prop) {state final : σ} {events : List ε}
    (hrun : run step state events = some final)
    (hbefore : ¬ prop state) (hafter : prop final) :
    ∃ before event after here next, events = before ++ event :: after ∧
      run step state before = some here ∧ step here event = some next ∧
      run step next after = some final ∧ ¬ prop here ∧ prop next := by
  induction events generalizing state with
  | nil =>
      rw [run_nil, Option.some.injEq] at hrun
      exact absurd (hrun ▸ hafter) hbefore
  | cons event events ih =>
      obtain ⟨next, hnext, hrest⟩ := run_cons_eq_some.1 hrun
      by_cases hprop : prop next
      · exact ⟨[], event, events, state, next, rfl, rfl, hnext, hrest, hbefore, hprop⟩
      · obtain ⟨before, crossing, after, here, there, rfl, hpre, hcross, hpost, hnot, hyes⟩ :=
          ih hrest hprop
        exact ⟨event :: before, crossing, after, here, there, rfl,
          run_cons_eq_some.2 ⟨next, hnext, hpre⟩, hcross, hpost, hnot, hyes⟩

/-- A run that is not refused ends in the state it computes. -/
theorem eq_some_getD {α : Type u} {result : Option α} (hsome : result.isSome) (default : α) :
    result = some (result.getD default) := by
  obtain ⟨value, rfl⟩ := Option.isSome_iff_exists.mp hsome
  rfl

end Runs
