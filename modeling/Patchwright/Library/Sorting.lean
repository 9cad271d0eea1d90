import Mathlib

/-!
# Sorting by a comparison

A stable sort by a three-way comparison, and one by a strict order.  Where the
comparison distinguishes the items of a list, the sorted list does not depend on
the order they came in, and two comparisons with the same answers on the items
sort them alike.
-/

namespace Sorting

variable {α : Type*}

/-- The stable sort of a list by a three-way comparison. -/
def sortBy (cmp : α → α → Ordering) (items : List α) : List α :=
  items.mergeSort fun left right => (cmp left right).isLE

/-- The stable sort of a list by a strict order. -/
def sorted (before : α → α → Bool) (items : List α) : List α :=
  items.mergeSort fun left right => !before right left

/-- Different items of the list are told apart by the comparison. -/
def Distinguishes (cmp : α → α → Ordering) (items : List α) : Prop :=
  ∀ left ∈ items, ∀ right ∈ items, cmp left right = .eq → left = right

variable {cmp : α → α → Ordering} {items shuffled : List α}

theorem sortBy_perm (cmp : α → α → Ordering) (items : List α) :
    (sortBy cmp items).Perm items :=
  List.mergeSort_perm items _

theorem mem_sortBy {item : α} : item ∈ sortBy cmp items ↔ item ∈ items :=
  (sortBy_perm cmp items).mem_iff

theorem isLE_total (cmp : α → α → Ordering) [Std.OrientedCmp cmp] (left right : α) :
    ((cmp left right).isLE || (cmp right left).isLE) = true := by
  have hswap : cmp right left = (cmp left right).swap := Std.OrientedCmp.eq_swap
  rw [hswap]
  cases cmp left right <;> rfl

theorem sortBy_pairwise (cmp : α → α → Ordering) [Std.TransCmp cmp] (items : List α) :
    (sortBy cmp items).Pairwise fun left right => (cmp left right).isLE := by
  apply List.pairwise_mergeSort
  · intro first second third hfirst hsecond
    exact Std.TransCmp.isLE_trans hfirst hsecond
  · exact isLE_total cmp

/-- A list in order is determined by its items. -/
theorem eq_of_sorted [Std.TransCmp cmp] {left right : List α}
    (hdistinct : Distinguishes cmp left) (hperm : left.Perm right)
    (hleft : left.Pairwise fun first second => (cmp first second).isLE)
    (hright : right.Pairwise fun first second => (cmp first second).isLE) : left = right := by
  apply List.Perm.eq_of_pairwise ?_ hleft hright hperm
  intro first second hfirst hsecond hle hge
  apply hdistinct first hfirst second (hperm.mem_iff.mpr hsecond)
  exact Std.OrientedCmp.isLE_antisymm hle hge

theorem Distinguishes.of_perm (hdistinct : Distinguishes cmp items)
    (hperm : shuffled.Perm items) : Distinguishes cmp shuffled :=
  fun left hleft right hright =>
    hdistinct left (hperm.mem_iff.mp hleft) right (hperm.mem_iff.mp hright)

/-- The sorted list does not depend on the order of the input. -/
theorem sortBy_eq_of_perm [Std.TransCmp cmp] (hdistinct : Distinguishes cmp items)
    (hperm : shuffled.Perm items) : sortBy cmp shuffled = sortBy cmp items := by
  have hshuffled := (sortBy_perm cmp shuffled).trans hperm
  apply eq_of_sorted (hdistinct.of_perm hshuffled)
  · exact hshuffled.trans (sortBy_perm cmp items).symm
  · exact sortBy_pairwise cmp shuffled
  · exact sortBy_pairwise cmp items

/-- Comparisons that agree on the items sort them alike. -/
theorem sortBy_congr {other : α → α → Ordering} [Std.TransCmp cmp] [Std.TransCmp other]
    (hdistinct : Distinguishes cmp items)
    (hagree : ∀ left ∈ items, ∀ right ∈ items, cmp left right = other left right) :
    sortBy cmp items = sortBy other items := by
  apply eq_of_sorted (hdistinct.of_perm (sortBy_perm cmp items))
  · exact (sortBy_perm cmp items).trans (sortBy_perm other items).symm
  · exact sortBy_pairwise cmp items
  · apply (sortBy_pairwise other items).imp_of_mem
    intro left right hleft hright hle
    rw [hagree left (mem_sortBy.1 hleft) right (mem_sortBy.1 hright)]
    exact hle

/-- A sort by the strict order of a comparison is the sort by the comparison. -/
theorem sorted_eq_sortBy [Std.OrientedCmp cmp] {before : α → α → Bool}
    (hbefore : ∀ left right, before left right = (cmp left right).isLT) :
    sorted before = sortBy cmp := by
  funext items
  rw [sorted, sortBy]
  congr 1
  funext left right
  have hswap : cmp right left = (cmp left right).swap := Std.OrientedCmp.eq_swap
  rw [hbefore, hswap]
  cases cmp left right <;> rfl

/-- Distinguished items stand in strict order. -/
theorem sortBy_strict [Std.TransCmp cmp] (hnodup : items.Nodup)
    (hdistinct : Distinguishes cmp items) :
    (sortBy cmp items).Pairwise fun left right => cmp left right = .lt := by
  have hne := (sortBy_perm cmp items).nodup_iff.mpr hnodup
  apply (List.Pairwise.and (sortBy_pairwise cmp items) hne).imp_of_mem
  intro left right hleft hright h
  have hneq := mt (hdistinct left (mem_sortBy.1 hleft) right (mem_sortBy.1 hright)) h.2
  have hle := h.1
  revert hneq hle
  cases cmp left right <;> simp

/-- A comparison of keys compares the items they belong to. -/
theorem transCmp_comap {β : Type*} {cmp : α → α → Ordering} (hcmp : Std.TransCmp cmp) (key : β → α) :
    Std.TransCmp fun left right => cmp (key left) (key right) where
  eq_swap := hcmp.eq_swap
  isLE_trans := hcmp.isLE_trans

theorem transCmp_then {first second : α → α → Ordering} (hfirst : Std.TransCmp first)
    (hsecond : Std.TransCmp second) :
    Std.TransCmp fun left right => (first left right).then (second left right) :=
  inferInstanceAs (Std.TransCmp (compareLex first second))

/-- Items of a class that the comparison never puts first stand at the end. -/
theorem sortBy_last [Std.TransCmp cmp] {last : α → Prop}
    (hlast : ∀ left right, last left → ¬ last right → cmp left right = .gt) :
    ∃ present missing, sortBy cmp items = present ++ missing ∧
      (∀ item ∈ present, ¬ last item) ∧ ∀ item ∈ missing, last item := by
  classical
  have hpairwise := sortBy_pairwise cmp items
  generalize sortBy cmp items = ordered at hpairwise
  induction ordered with
  | nil => exact ⟨[], [], rfl, by simp, by simp⟩
  | cons head tail ih =>
      obtain ⟨hhead, htail⟩ := List.pairwise_cons.mp hpairwise
      by_cases hclass : last head
      · refine ⟨[], head :: tail, rfl, by simp, List.forall_mem_cons.mpr ⟨hclass, ?_⟩⟩
        intro item hitem
        by_contra hnot
        have hle := hhead item hitem
        rw [hlast head item hclass hnot] at hle
        exact absurd hle (by decide)
      · obtain ⟨present, missing, hsplit, hpresent, hmissing⟩ := ih htail
        refine ⟨head :: present, missing, congrArg (head :: ·) hsplit, ?_, hmissing⟩
        exact List.forall_mem_cons.mpr ⟨hclass, hpresent⟩

/-- The first answer of a search, where all answers agree, does not depend on
the order of the list. -/
theorem findSome?_eq_of_perm {β : Type*} {answer : α → Option β}
    (hagree : ∀ left ∈ items, ∀ right ∈ items, ∀ first ∈ answer left, ∀ second ∈ answer right,
      first = second) (hperm : shuffled.Perm items) :
    shuffled.findSome? answer = items.findSome? answer := by
  cases hfound : items.findSome? answer with
  | none =>
      rw [List.findSome?_eq_none_iff] at hfound ⊢
      exact fun item hitem => hfound item (hperm.mem_iff.mp hitem)
  | some value =>
      obtain ⟨source, hsource, hvalue⟩ := List.exists_of_findSome?_eq_some hfound
      cases hother : shuffled.findSome? answer with
      | none =>
          have hnone := List.findSome?_eq_none_iff.mp hother source (hperm.mem_iff.mpr hsource)
          rw [hvalue] at hnone
          cases hnone
      | some other =>
          obtain ⟨second, hsecond, hanswer⟩ := List.exists_of_findSome?_eq_some hother
          rw [hagree second (hperm.mem_iff.mp hsecond) source hsource other hanswer value hvalue]

/-! ### Stable sorts by a key -/

section ByKey

variable {κ : Type*} [DecidableEq κ] {order : κ → κ → Ordering} {key : α → κ}

/-- The items in the order of their keys, those of one key as they stood. -/
structure IsStableSort (order : κ → κ → Ordering) (key : α → κ) (items sorted : List α) : Prop where
  ordered : sorted.Pairwise fun left right => (order (key left) (key right)).isLE
  stable : ∀ value, (sorted.filter fun item => key item = value) =
    items.filter fun item => key item = value

def sortByKey (order : κ → κ → Ordering) (key : α → κ) : List α → List α :=
  sortBy fun left right => order (key left) (key right)

theorem filter_key_pairwise [Std.ReflCmp order] (items : List α) (value : κ) :
    (items.filter fun item => key item = value).Pairwise fun left right =>
      (order (key left) (key right)).isLE := by
  apply List.pairwise_of_forall_mem_list
  intro left hleft right hright
  have hleft' := of_decide_eq_true (List.mem_filter.mp hleft).2
  have hright' := of_decide_eq_true (List.mem_filter.mp hright).2
  have hself : order value value = .eq := Std.ReflCmp.compare_self
  rw [hleft', hright', hself]
  rfl

theorem sortByKey_isStableSort [Std.TransCmp order] (items : List α) :
    IsStableSort order key items (sortByKey order key items) where
  ordered := by
    have htrans : Std.TransCmp fun left right : α => order (key left) (key right) :=
      transCmp_comap inferInstance key
    exact sortBy_pairwise _ items
  stable := fun value => by
    have hkept : (items.filter fun item => key item = value).Sublist
        (sortByKey order key items) := by
      apply List.sublist_mergeSort
      · exact fun first second third => Std.TransCmp.isLE_trans
      · exact fun left right => isLE_total order (key left) (key right)
      · exact filter_key_pairwise items value
      · exact List.filter_sublist
    have hfilter := hkept.filter fun item => decide (key item = value)
    rw [List.filter_filter] at hfilter
    simp only [Bool.and_self] at hfilter
    refine (hfilter.eq_of_length ?_).symm
    exact ((sortBy_perm _ items).filter _).length_eq.symm

theorem mem_iff_of_filter_key {left right : List α}
    (hsame : ∀ value, (left.filter fun item => key item = value) =
      right.filter fun item => key item = value) (item : α) : item ∈ left ↔ item ∈ right := by
  have hiff := iff_of_eq (congrArg (item ∈ ·) (hsame (key item)))
  simpa only [List.mem_filter, decide_true, and_true] using hiff

/-- Two lists in order with the same items under each key are the same. -/
theorem eq_of_filter_key [Std.TransCmp order] [Std.LawfulEqCmp order] {left right : List α}
    (hleft : left.Pairwise fun first second => (order (key first) (key second)).isLE)
    (hright : right.Pairwise fun first second => (order (key first) (key second)).isLE)
    (hsame : ∀ value, (left.filter fun item => key item = value) =
      right.filter fun item => key item = value) : left = right := by
  have hmem := mem_iff_of_filter_key hsame
  induction left generalizing right with
  | nil => exact (List.eq_nil_iff_forall_not_mem.mpr fun item hitem =>
      List.not_mem_nil ((hmem item).mpr hitem)).symm
  | cons item left ih =>
      cases right with
      | nil => exact absurd ((hmem item).mp List.mem_cons_self) List.not_mem_nil
      | cons other right =>
          have hkey : key item = key other := by
            by_contra hne
            have hother : other ∈ left := List.mem_of_ne_of_mem (fun heq => hne (heq ▸ rfl))
              ((hmem other).mpr List.mem_cons_self)
            have hitem : item ∈ right := List.mem_of_ne_of_mem (fun heq => hne (heq ▸ rfl))
              ((hmem item).mp List.mem_cons_self)
            have heq := Std.OrientedCmp.isLE_antisymm (List.rel_of_pairwise_cons hleft hother)
              (List.rel_of_pairwise_cons hright hitem)
            exact hne (Std.LawfulEqCmp.eq_of_compare heq)
          have hhead := hsame (key item)
          rw [List.filter_cons, List.filter_cons, if_pos (decide_eq_true rfl),
            if_pos (decide_eq_true hkey.symm)] at hhead
          obtain ⟨rfl, -⟩ := List.cons.inj hhead
          have htail : ∀ value, (left.filter fun item => key item = value) =
              right.filter fun item => key item = value := by
            intro value
            have hvalue := hsame value
            rw [List.filter_cons, List.filter_cons] at hvalue
            split at hvalue
            · exact (List.cons.inj hvalue).2
            · exact hvalue
          rw [ih hleft.of_cons hright.of_cons htail (mem_iff_of_filter_key htail)]

/-- The keys and the order within each key determine the list. -/
theorem IsStableSort.unique [Std.TransCmp order] [Std.LawfulEqCmp order] {items left right : List α}
    (hleft : IsStableSort order key items left) (hright : IsStableSort order key items right) :
    left = right :=
  eq_of_filter_key hleft.ordered hright.ordered fun value =>
    (hleft.stable value).trans (hright.stable value).symm

/-- The sort depends on the order of the input within each key only. -/
theorem sortByKey_congr [Std.TransCmp order] [Std.LawfulEqCmp order] {items shuffled : List α}
    (hsame : ∀ value, (shuffled.filter fun item => key item = value) =
      items.filter fun item => key item = value) :
    sortByKey order key shuffled = sortByKey order key items := by
  have hsorted : IsStableSort order key shuffled (sortByKey order key shuffled) :=
    sortByKey_isStableSort shuffled
  exact IsStableSort.unique ⟨hsorted.ordered, fun value => (hsorted.stable value).trans (hsame value)⟩
    (sortByKey_isStableSort items)

end ByKey

end Sorting
