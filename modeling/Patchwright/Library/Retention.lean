import Mathlib

/-!
# Keeping a bounded number

Of the elements of a list that meet a condition at most a fixed number are
kept, and the least of an order go first.  The elements carry distinct keys,
and the ones to drop are named by their keys.  Elements that do not meet the
condition stay.
-/

universe u v

namespace Retention

variable {α : Type u} {κ : Type v}

/-- The least elements beyond a capacity. -/
def excess (capacity : Nat) (le : α → α → Bool) (values : List α) : List α :=
  (values.mergeSort le).take (values.length - capacity)

theorem excess_subset {capacity : Nat} {le : α → α → Bool} {values : List α} {value : α}
    (hvalue : value ∈ excess capacity le values) : value ∈ values :=
  (List.mergeSort_perm values le).mem_iff.mp (List.mem_of_mem_take hvalue)

/-- What is dropped is not above what stays. -/
theorem excess_le {capacity : Nat} {le : α → α → Bool} {values : List α}
    (htrans : ∀ first second third, le first second → le second third → le first third)
    (htotal : ∀ first second, le first second || le second first)
    {gone kept : α} (hgone : gone ∈ excess capacity le values) (hkept : kept ∈ values)
    (hstays : kept ∉ excess capacity le values) : le gone kept := by
  have hsorted := List.pairwise_mergeSort htrans htotal values
  have hmem : kept ∈ values.mergeSort le := (List.mergeSort_perm values le).mem_iff.mpr hkept
  rw [← List.take_append_drop (values.length - capacity) (values.mergeSort le)] at hsorted hmem
  cases List.mem_append.mp hmem with
  | inl htaken => exact absurd htaken hstays
  | inr hdropped => exact (List.pairwise_append.mp hsorted).2.2 gone hgone kept hdropped

variable [DecidableEq κ]

/-- Drop the excess among the elements that meet the condition. -/
def evict (capacity : Nat) (key : α → κ) (le : α → α → Bool) (cond : α → Bool)
    (values : List α) : List α :=
  values.filter fun value => key value ∉ (excess capacity le (values.filter cond)).map key

section Evict

variable {capacity : Nat} {key : α → κ} {le : α → α → Bool} {cond : α → Bool} {values : List α}

theorem evict_sublist : (evict capacity key le cond values).Sublist values :=
  List.filter_sublist

/-- At most the capacity remains. -/
theorem length_filter_evict : ((evict capacity key le cond values).filter cond).length ≤
    capacity := by
  let kept := values.filter cond
  let gone := excess capacity le kept
  have hcomm : (evict capacity key le cond values).filter cond =
      kept.filter fun value => key value ∉ gone.map key := by
    rw [evict, List.filter_comm]
  have hperm : (kept.filter fun value => key value ∉ gone.map key).length =
      ((kept.mergeSort le).filter fun value => key value ∉ gone.map key).length :=
    ((List.mergeSort_perm kept le).symm.filter _).length_eq
  have htaken : gone.filter (fun value => key value ∉ gone.map key) = [] := by
    rw [List.filter_eq_nil_iff]
    intro value hvalue
    simpa using List.mem_map_of_mem hvalue
  have hlength : (kept.mergeSort le).length = kept.length := (List.mergeSort_perm kept le).length_eq
  have hrest := List.length_filter_le (fun value => key value ∉ gone.map key)
    ((kept.mergeSort le).drop (kept.length - capacity))
  rw [List.length_drop, hlength] at hrest
  rw [hcomm, hperm, ← List.take_append_drop (kept.length - capacity) (kept.mergeSort le),
    List.filter_append]
  change (gone.filter _ ++ _).length ≤ capacity
  rw [htaken, List.nil_append]
  omega

/-- An element goes exactly when it is in the excess. -/
theorem mem_evict (hnodup : (values.map key).Nodup) {value : α} :
    value ∈ evict capacity key le cond values ↔
      value ∈ values ∧ value ∉ excess capacity le (values.filter cond) := by
  rw [evict, List.mem_filter, decide_eq_true_iff]
  apply and_congr_right
  intro hvalue
  apply not_congr
  constructor
  · intro hkey
    obtain ⟨gone, hgone, hsame⟩ := List.mem_map.mp hkey
    have hmem : gone ∈ values := (List.mem_filter.mp (excess_subset hgone)).1
    rwa [← List.inj_on_of_nodup_map hnodup hmem hvalue hsame]
  · exact List.mem_map_of_mem

/-- The elements outside the condition stay as they are. -/
theorem filter_not_evict (hnodup : (values.map key).Nodup) :
    (evict capacity key le cond values).filter (fun value => !cond value) =
      values.filter fun value => !cond value := by
  rw [evict, List.filter_filter]
  apply List.filter_congr
  intro value hvalue
  cases hcond : cond value with
  | true => rfl
  | false =>
      have hstays : value ∉ excess capacity le (values.filter cond) := by
        intro hgone
        rw [(List.mem_filter.mp (excess_subset hgone)).2] at hcond
        exact absurd hcond nofun
      have hkey := ((mem_evict hnodup).mpr ⟨hvalue, hstays⟩)
      rw [evict, List.mem_filter] at hkey
      rw [hkey.2]
      rfl

end Evict

end Retention
