import Mathlib

/-!
# Computations that stop at their first failed check

Rules for reading what a successful run of a chain of checks has established:
a sequence succeeds when its parts do, a check succeeds when its condition
holds, and a required value succeeds when it is present.
-/

namespace Checked

universe u v w

variable {ε : Type u} {ε' : Type w} {α β : Type v}

/-- Stop with an error unless a condition holds. -/
def ensure (condition : Prop) [Decidable condition] (error : ε) : Except ε Unit :=
  if condition then .ok () else .error error

/-- Stop with an error unless a value is present. -/
def okOr (error : ε) : Option α → Except ε α
  | some value => .ok value
  | none => .error error

theorem ok_bind (value : α) (rest : α → Except ε β) : (Except.ok value >>= rest) = rest value :=
  rfl

@[simp]
theorem bind_eq_ok {first : Except ε α} {rest : α → Except ε β} {result : β} :
    (first >>= rest) = .ok result ↔
      ∃ value, first = .ok value ∧ rest value = .ok result := by
  cases first with
  | error error => simp [bind, Except.bind]
  | ok value => simp [bind, Except.bind]

@[simp]
theorem map_eq_ok {change : α → β} {first : Except ε α} {result : β} :
    change <$> first = .ok result ↔ ∃ value, first = .ok value ∧ change value = result := by
  cases first with
  | error error => simp [Functor.map, Except.map]
  | ok value => simp [Functor.map, Except.map]

@[simp]
theorem pure_eq_ok {value result : α} :
    (pure value : Except ε α) = .ok result ↔ value = result := by
  simp [pure, Except.pure]

@[simp]
theorem throw_ne_ok {error : ε} {result : α} :
    ¬ (throw error : Except ε α) = .ok result := by
  simp [throw, throwThe, MonadExceptOf.throw]

@[simp]
theorem ensure_eq_ok {condition : Prop} [Decidable condition] {error : ε} {result : Unit} :
    ensure condition error = .ok result ↔ condition := by
  by_cases hcondition : condition <;> simp [ensure, hcondition]

@[simp]
theorem okOr_eq_ok {error : ε} {value : Option α} {result : α} :
    okOr error value = .ok result ↔ value = some result := by
  cases value <;> simp [okOr]

/-- A sequence fails in one of its parts. -/
@[simp]
theorem bind_eq_error {first : Except ε α} {rest : α → Except ε β} {error : ε} :
    (first >>= rest) = .error error ↔
      first = .error error ∨ ∃ value, first = .ok value ∧ rest value = .error error := by
  cases first with
  | error error => simp [bind, Except.bind]
  | ok value => simp [bind, Except.bind]

@[simp]
theorem map_eq_error {change : α → β} {first : Except ε α} {error : ε} :
    change <$> first = .error error ↔ first = .error error := by
  cases first with
  | error error => simp [Functor.map, Except.map]
  | ok value => simp [Functor.map, Except.map]

@[simp]
theorem pure_ne_error {value : α} {error : ε} : ¬ (pure value : Except ε α) = .error error := by
  simp [pure, Except.pure]

@[simp]
theorem ensure_eq_error {condition : Prop} [Decidable condition] {error failure : ε} :
    ensure condition error = .error failure ↔ ¬ condition ∧ error = failure := by
  by_cases hcondition : condition <;> simp [ensure, hcondition]

@[simp]
theorem okOr_eq_error {error failure : ε} {value : Option α} :
    okOr error value = .error failure ↔ value = none ∧ error = failure := by
  cases value <;> simp [okOr]

@[simp]
theorem mapError_eq_ok {first : Except ε α} {change : ε → ε'} {result : α} :
    first.mapError change = .ok result ↔ first = .ok result := by
  cases first <;> simp [Except.mapError]

/-- A computation over a list succeeds when it succeeds on every element. -/
theorem mapM_eq_ok {f : α → Except ε β} {values : List α} {results : List β} :
    values.mapM f = .ok results ↔ List.Forall₂ (fun value result => f value = .ok result)
      values results := by
  induction values generalizing results with
  | nil =>
      rw [List.mapM_nil, pure_eq_ok, List.forall₂_nil_left_iff]
      exact eq_comm
  | cons value values ih =>
      rw [List.mapM_cons, bind_eq_ok]
      constructor
      · rintro ⟨result, hresult, hrest⟩
        rw [bind_eq_ok] at hrest
        rcases hrest with ⟨later, hlater, hresults⟩
        rw [pure_eq_ok] at hresults
        rw [← hresults]
        exact .cons hresult (ih.mp hlater)
      · intro hall
        cases hall with
        | cons hresult hlater =>
            refine ⟨_, hresult, ?_⟩
            rw [bind_eq_ok]
            exact ⟨_, ih.mpr hlater, rfl⟩

theorem exists_mapM_eq_ok {f : α → Except ε β} {values : List α}
    (hok : ∀ value ∈ values, ∃ result, f value = .ok result) :
    ∃ results, values.mapM f = .ok results := by
  induction values with
  | nil => exact ⟨[], rfl⟩
  | cons value values ih =>
      obtain ⟨result, hresult⟩ := hok value List.mem_cons_self
      obtain ⟨results, hresults⟩ := ih fun other hother => hok other (List.mem_cons_of_mem _ hother)
      exact ⟨result :: results, mapM_eq_ok.2 (.cons hresult (mapM_eq_ok.1 hresults))⟩

/-- What all results have, when it is what all values have. -/
theorem forall_results_iff {f : α → Except ε β} {values : List α} {results : List β}
    {p : α → Prop} {q : β → Prop} (hall : values.mapM f = .ok results)
    (hiff : ∀ value result, f value = .ok result → (q result ↔ p value)) :
    (∀ result ∈ results, q result) ↔ ∀ value ∈ values, p value := by
  rw [mapM_eq_ok] at hall
  induction hall with
  | nil => exact iff_of_true nofun nofun
  | cons hresult _ ih => rw [List.forall_mem_cons, List.forall_mem_cons, hiff _ _ hresult, ih]

/-- Checks that return what they are given, over a list. -/
theorem mapM_check_eq_ok {check : α → Except ε α} {p : α → Prop} {values results : List α}
    (hcheck : ∀ value result, check value = .ok result ↔ p value ∧ value = result) :
    values.mapM check = .ok results ↔ (∀ value ∈ values, p value) ∧ values = results := by
  rw [mapM_eq_ok]
  constructor
  · intro hall
    induction hall with
    | nil => exact ⟨nofun, rfl⟩
    | cons hresult _ ih =>
        obtain ⟨hvalue, rfl⟩ := (hcheck _ _).mp hresult
        exact ⟨List.forall_mem_cons.mpr ⟨hvalue, ih.1⟩, congrArg _ ih.2⟩
  · rintro ⟨hall, rfl⟩
    exact List.forall₂_same.mpr fun value hvalue => (hcheck _ _).mpr ⟨hall value hvalue, rfl⟩

theorem toOption_eq_some {first : Except ε α} {result : α} :
    first.toOption = some result ↔ first = .ok result := by
  cases first <;> simp [Except.toOption]

theorem isOk_iff {first : Except ε α} : first.isOk ↔ ∃ value, first = .ok value := by
  cases first with
  | error error =>
      refine iff_of_false nofun ?_
      rintro ⟨_, ⟨⟩⟩
  | ok value => exact iff_of_true rfl ⟨value, rfl⟩

/-- A computation that succeeds ends in the value it computes. -/
theorem eq_ok_getD {first : Except ε α} (hok : first.isOk) (default : α) :
    first = .ok (first.toOption.getD default) := by
  cases first with
  | error error => exact absurd hok nofun
  | ok value => rfl

end Checked
