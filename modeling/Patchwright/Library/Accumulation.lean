import Mathlib

/-!
# Sums that are accumulated step by step

The values a sum takes while a list of changes is added to it, one change after
another, and when all of them lie within a range: changes that raise the sum
are watched at its upper end and changes that lower it at its lower end.
-/

universe u

namespace Accumulation

variable {α : Type u}

/-- The values of a sum, from its start to its end. -/
def values [Add α] (changes : List α) (start : α) : List α :=
  changes.scanl (fun sum change => sum + change) start

theorem values_nil [Add α] (start : α) : values [] start = [start] := List.scanl_nil

theorem values_cons [Add α] (change : α) (changes : List α) (start : α) :
    values (change :: changes) start = start :: values changes (start + change) := List.scanl_cons

theorem start_mem_values [Add α] (changes : List α) (start : α) :
    start ∈ values changes start := by
  cases changes with
  | nil =>
      rw [values_nil]
      exact List.mem_singleton_self start
  | cons change changes =>
      rw [values_cons]
      exact List.mem_cons_self

/-- What holds along two lists of changes. -/
theorem forall_values_append [AddMonoid α] {first second : List α} {start : α} {p : α → Prop} :
    (∀ value ∈ values (first ++ second) start, p value) ↔
      (∀ value ∈ values first start, p value) ∧
        ∀ value ∈ values second (start + first.sum), p value := by
  induction first generalizing start with
  | nil =>
      rw [List.nil_append, values_nil, List.forall_mem_singleton, List.sum_nil, add_zero]
      exact ⟨fun hall => ⟨hall start (start_mem_values second start), hall⟩, And.right⟩
  | cons change first ih =>
      rw [List.cons_append, values_cons, values_cons, List.forall_mem_cons, List.forall_mem_cons,
        ih, List.sum_cons, add_assoc, and_assoc]

section Ranges

variable [AddCommGroup α] [LinearOrder α] [IsOrderedAddMonoid α]
variable {changes : List α} {start low high : α}

/-- Changes that raise a sum keep it in a range when they leave it there. -/
theorem values_le_iff (hraise : ∀ change ∈ changes, 0 ≤ change) (hstart : low ≤ start) :
    (∀ value ∈ values changes start, low ≤ value ∧ value ≤ high) ↔
      start + changes.sum ≤ high := by
  induction changes generalizing start with
  | nil =>
      rw [values_nil, List.forall_mem_singleton, List.sum_nil, add_zero]
      exact and_iff_right hstart
  | cons change changes ih =>
      obtain ⟨hchange, hrest⟩ := List.forall_mem_cons.mp hraise
      have hnext : low ≤ start + change := le_add_of_le_of_nonneg hstart hchange
      rw [values_cons, List.forall_mem_cons, ih hrest hnext, List.sum_cons, add_assoc]
      constructor
      · exact And.right
      · intro hend
        have hsum : 0 ≤ change + changes.sum := add_nonneg hchange (List.sum_nonneg hrest)
        exact ⟨⟨hstart, (le_add_of_nonneg_right hsum).trans hend⟩, hend⟩

/-- Changes that lower a sum keep it in a range when they leave it there. -/
theorem le_values_iff (hlower : ∀ change ∈ changes, change ≤ 0) (hstart : start ≤ high) :
    (∀ value ∈ values changes start, low ≤ value ∧ value ≤ high) ↔
      low ≤ start + changes.sum := by
  induction changes generalizing start with
  | nil =>
      rw [values_nil, List.forall_mem_singleton, List.sum_nil, add_zero]
      exact and_iff_left hstart
  | cons change changes ih =>
      obtain ⟨hchange, hrest⟩ := List.forall_mem_cons.mp hlower
      have hnext : start + change ≤ high := (add_le_of_nonpos_right hchange).trans hstart
      rw [values_cons, List.forall_mem_cons, ih hrest hnext, List.sum_cons, add_assoc]
      constructor
      · exact And.right
      · intro hend
        have htail : changes.sum ≤ 0 :=
          (List.sum_le_card_nsmul changes 0 hrest).trans_eq (nsmul_zero _)
        have hsum : change + changes.sum ≤ 0 := add_nonpos hchange htail
        exact ⟨⟨hend.trans (add_le_of_nonpos_right hsum), hstart⟩, hend⟩

end Ranges

end Accumulation
