import Mathlib

/-!
# Effects of failing actions

An action works on a state, and where it fails the state is what it was at the
failure.  It is clean when a failure leaves a view of the state as it was.  An
action that begins quietly is clean when what follows is; one that begins with a
change that nothing takes back is clean exactly when what follows succeeds.
-/

namespace Effects

universe u

variable {ε σ α β : Type u} {γ : Type*}

/-- The state in which a run ends, well or badly. -/
def final : EStateM.Result ε σ α → σ
  | .ok _ state => state
  | .error _ state => state

variable (view : σ → γ) (size : σ → ℕ)

/-- The action never changes the view. -/
def Quiet (action : EStateM ε σ α) : Prop := ∀ state, view (final (action.run state)) = view state

/-- The action never makes the state smaller. -/
def Grows (action : EStateM ε σ α) : Prop := ∀ state, size state ≤ size (final (action.run state))

/-- A failure leaves the view as it was at some earlier state. -/
def CleanFrom (earlier : σ) (action : EStateM ε σ α) (state : σ) : Prop :=
  ∀ error failed, action.run state = .error error failed → view failed = view earlier

/-- A failure leaves the view as it was. -/
def Clean (action : EStateM ε σ α) (state : σ) : Prop := CleanFrom view state action state

def Succeeds (action : EStateM ε σ α) (state : σ) : Prop :=
  ∃ value after, action.run state = .ok value after

section Bind

variable {view size} {action : EStateM ε σ α} {next : α → EStateM ε σ β} {state : σ}

theorem run_bind_ok {value : α} {after : σ} (hrun : action.run state = .ok value after) :
    (action >>= next).run state = (next value).run after := by
  rw [EStateM.run_bind, hrun]

theorem run_bind_error {error : ε} {failed : σ} (hrun : action.run state = .error error failed) :
    (action >>= next).run state = .error error failed := by
  rw [EStateM.run_bind, hrun]

theorem run_bind_eq_ok {result : β} {last : σ} : (action >>= next).run state = .ok result last ↔
    ∃ value after, action.run state = .ok value after ∧
      (next value).run after = .ok result last := by
  cases haction : action.run state with
  | ok value after =>
      rw [run_bind_ok haction]
      constructor
      · exact fun hnext => ⟨value, after, rfl, hnext⟩
      · rintro ⟨_, _, ⟨⟩, hnext⟩
        exact hnext
  | error error failed =>
      rw [run_bind_error haction]
      exact iff_of_false nofun nofun

theorem succeeds_bind_iff : Succeeds (action >>= next) state ↔
    ∃ value after, action.run state = .ok value after ∧ Succeeds (next value) after := by
  constructor
  · intro ⟨result, last, hrun⟩
    obtain ⟨value, after, haction, hnext⟩ := run_bind_eq_ok.1 hrun
    exact ⟨value, after, haction, result, last, hnext⟩
  · intro ⟨value, after, haction, result, last, hnext⟩
    exact ⟨result, last, run_bind_eq_ok.2 ⟨value, after, haction, hnext⟩⟩

theorem Quiet.bind (haction : Quiet view action) (hnext : ∀ value, Quiet view (next value)) :
    Quiet view (action >>= next) := by
  intro state
  have hsame := haction state
  cases hrun : action.run state with
  | ok value after =>
      rw [hrun] at hsame
      rw [run_bind_ok hrun]
      exact (hnext value after).trans hsame
  | error error failed =>
      rw [hrun] at hsame
      rw [run_bind_error hrun]
      exact hsame

theorem Grows.bind (haction : Grows size action) (hnext : ∀ value, Grows size (next value)) :
    Grows size (action >>= next) := by
  intro state
  have hgrown := haction state
  cases hrun : action.run state with
  | ok value after =>
      rw [hrun] at hgrown
      rw [run_bind_ok hrun]
      exact Nat.le_trans hgrown (hnext value after)
  | error error failed =>
      rw [hrun] at hgrown
      rw [run_bind_error hrun]
      exact hgrown

/-- A quiet beginning leaves it to the rest. -/
theorem cleanFrom_bind_of_quiet (hquiet : Quiet view action) {earlier : σ}
    (hview : view state = view earlier) :
    CleanFrom view earlier (action >>= next) state ↔
      ∀ value after, action.run state = .ok value after →
        CleanFrom view earlier (next value) after := by
  have hsame := hquiet state
  cases hrun : action.run state with
  | ok value after =>
      rw [CleanFrom, run_bind_ok hrun]
      constructor
      · rintro hclean _ _ ⟨⟩
        exact hclean
      · exact fun hclean => hclean value after rfl
  | error error failed =>
      rw [hrun] at hsame
      refine iff_of_true ?_ nofun
      rintro _ _ hfailed
      rw [run_bind_error hrun] at hfailed
      cases hfailed
      exact hsame.trans hview

theorem Succeeds.cleanFrom (hsucceeds : Succeeds action state) (earlier : σ) :
    CleanFrom view earlier action state := by
  obtain ⟨value, after, hrun⟩ := hsucceeds
  intro error failed hfailed
  cases hrun.symm.trans hfailed

/-- After a change that nothing takes back, a clean action is one that succeeds. -/
theorem cleanFrom_iff_succeeds {earlier : σ}
    (hchanged : ∀ error failed, action.run state = .error error failed →
      view failed ≠ view earlier) :
    CleanFrom view earlier action state ↔ Succeeds action state := by
  constructor
  · intro hclean
    cases hrun : action.run state with
    | ok value after => exact ⟨value, after, hrun⟩
    | error error failed => exact absurd (hclean error failed hrun) (hchanged error failed hrun)
  · exact fun hsucceeds => hsucceeds.cleanFrom earlier

theorem cleanFrom_bind_ok {earlier : σ} {value : α} {after : σ}
    (hrun : action.run state = .ok value after) :
    CleanFrom view earlier (action >>= next) state ↔ CleanFrom view earlier (next value) after := by
  rw [CleanFrom, run_bind_ok hrun, CleanFrom]

/-- An action that fails without a change is clean, whatever would follow. -/
theorem cleanFrom_bind_of_fails {earlier : σ} (hview : view state = view earlier)
    (hfails : ¬ Succeeds action state)
    (hkept : ∀ error failed, action.run state = .error error failed → failed = state) :
    CleanFrom view earlier (action >>= next) state := by
  intro error failed hfailed
  cases hrun : action.run state with
  | ok value after => exact absurd ⟨value, after, hrun⟩ hfails
  | error other stopped =>
      rw [run_bind_error hrun] at hfailed
      cases hfailed
      rw [hkept _ _ hrun]
      exact hview

theorem cleanFrom_bind_pure {earlier : σ} (result : α → β) :
    CleanFrom view earlier (action >>= fun value => pure (result value)) state ↔
      CleanFrom view earlier action state := by
  cases hrun : action.run state with
  | ok value after =>
      rw [cleanFrom_bind_ok hrun, CleanFrom, CleanFrom, hrun]
      exact iff_of_true nofun nofun
  | error error failed =>
      rw [CleanFrom, CleanFrom, run_bind_error hrun, hrun]
      constructor
      · rintro hclean _ _ ⟨⟩
        exact hclean error failed rfl
      · rintro hclean _ _ ⟨⟩
        exact hclean error failed rfl

theorem Quiet.cleanFrom (hquiet : Quiet view action) {earlier : σ}
    (hview : view state = view earlier) : CleanFrom view earlier action state := by
  intro error failed hrun
  have hsame := hquiet state
  rw [hrun] at hsame
  exact hsame.trans hview

/-- What a quiet action does not change it does not make smaller. -/
theorem Quiet.grows (hquiet : Quiet view action) (measure : γ → ℕ) :
    Grows (fun state => measure (view state)) action :=
  fun state => Nat.le_of_eq (congrArg measure (hquiet state).symm)

end Bind

end Effects
