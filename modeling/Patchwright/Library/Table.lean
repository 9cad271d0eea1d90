import Mathlib

/-!
# Keyed tables

A table of a relational store, keyed by its primary key.  The rows are
Mathlib's association lists without repeated keys, so a table with two rows of
one key cannot be built.  Insertion and lookup are Mathlib's; this module adds
the update a relational store makes besides, a change of every row that a
condition selects, and the case of it where the condition names one key, and
the query for the row that comes first in a descending order.
-/

universe u v

/-- A table with primary key `κ` and rows `α`. -/
abbrev Table (κ : Type u) (α : Type v) := AList fun _ : κ => α

namespace List

variable {α : Type u}

/-- The first element with the greatest rank. -/
def latestBy (rank : α → Int) : List α → Option α
  | [] => none
  | value :: values =>
      match latestBy rank values with
      | none => some value
      | some best => if rank value < rank best then some best else some value

theorem latestBy_isSome (rank : α → Int) {values : List α} (hne : values ≠ []) :
    (latestBy rank values).isSome := by
  cases values with
  | nil => exact absurd rfl hne
  | cons value values =>
      rw [latestBy]
      cases latestBy rank values with
      | none => rfl
      | some later =>
          dsimp only
          split <;> rfl

theorem latestBy_eq_some {rank : α → Int} {values : List α} {best : α}
    (hbest : latestBy rank values = some best) :
    best ∈ values ∧ ∀ value ∈ values, rank value ≤ rank best := by
  induction values generalizing best with
  | nil => simp [latestBy] at hbest
  | cons value values ih =>
      rw [latestBy] at hbest
      cases hrest : latestBy rank values with
      | none =>
          rw [hrest, Option.some.injEq] at hbest
          have hnil : values = [] := by
            by_contra hne
            have hsome := latestBy_isSome rank hne
            simp [hrest] at hsome
          subst hnil hbest
          simp
      | some later =>
          obtain ⟨hmem, hmax⟩ := ih hrest
          rw [hrest] at hbest
          dsimp only at hbest
          split at hbest
          · rename_i hlt
            cases hbest
            refine ⟨mem_cons_of_mem _ hmem, ?_⟩
            intro other hother
            rcases mem_cons.mp hother with rfl | hother
            · exact hlt.le
            · exact hmax other hother
          · rename_i hge
            cases hbest
            refine ⟨mem_cons_self, ?_⟩
            intro other hother
            rcases mem_cons.mp hother with rfl | hother
            · exact le_refl _
            · exact (hmax other hother).trans (not_lt.mp hge)

/-- Of distinct values, a filter takes out as many as it names. -/
theorem length_filter_notMem [DecidableEq α] {values named : List α} (hvalues : values.Nodup)
    (hnamed : named.Nodup) (hsubset : named ⊆ values) :
    (values.filter fun value => value ∉ named).length = values.length - named.length := by
  have hperm : (values.filter fun value => value ∈ named).Perm named := by
    refine (perm_ext_iff_of_nodup (hvalues.filter _) hnamed).mpr fun value => ?_
    rw [mem_filter, decide_eq_true_iff]
    exact and_iff_right_of_imp fun hvalue => hsubset hvalue
  have hsum := length_eq_length_filter_add (l := values) fun value => decide (value ∈ named)
  rw [hperm.length_eq] at hsum
  simp only [decide_not]
  omega

/-! ### Lists collected from keyed sources -/

section Collected

variable {β γ κ : Type u} [DecidableEq κ]

omit [DecidableEq κ] in
theorem exists_source_of_forall₂ {rel : α → γ → Prop} {sources : List α} {results : List γ}
    (hall : Forall₂ rel sources results) {result : γ} (hresult : result ∈ results) :
    ∃ source ∈ sources, rel source result := by
  induction hall with
  | nil => exact absurd hresult not_mem_nil
  | @cons first found sources results hfirst hrest ih =>
      rcases mem_cons.mp hresult with rfl | htail
      · exact ⟨first, mem_cons_self, hfirst⟩
      · rcases ih htail with ⟨source, hsource, hrel⟩
        exact ⟨source, mem_cons_of_mem _ hsource, hrel⟩

omit [DecidableEq κ] in
theorem map_eq_map_of_forall₂ {rel : α → γ → Prop} {key : α → κ} {label : γ → κ}
    {sources : List α} {results : List γ} (hall : Forall₂ rel sources results)
    (hlabel : ∀ source result, rel source result → label result = key source) :
    results.map label = sources.map key := by
  induction hall with
  | nil => rfl
  | cons hfirst hrest ih => rw [map_cons, map_cons, hlabel _ _ hfirst, ih]

variable {key : α → κ} {label : β → κ}
variable {rel : α → List β → Prop} {sources : List α} {lists : List (List β)}

/-- Of lists whose elements carry the key of their source, a filter by the key
of one source finds its list. -/
theorem filter_flatten_of_forall₂ (hall : Forall₂ rel sources lists)
    (hlabel : ∀ source list, rel source list → ∀ value ∈ list, label value = key source)
    (hnodup : (sources.map key).Nodup) {source : α} (hsource : source ∈ sources) :
    rel source (lists.flatten.filter fun value => label value = key source) := by
  induction hall with
  | nil => exact absurd hsource not_mem_nil
  | @cons first list sources lists hfirst hrest ih =>
      rw [map_cons, nodup_cons] at hnodup
      rw [flatten_cons, filter_append]
      rcases mem_cons.mp hsource with rfl | htail
      · have hkeep : list.filter (fun value => label value = key source) = list := by
          rw [filter_eq_self]
          intro value hvalue
          exact decide_eq_true (hlabel source list hfirst value hvalue)
        have hdrop : lists.flatten.filter (fun value => label value = key source) = [] := by
          rw [filter_eq_nil_iff]
          intro value hvalue hsame
          rcases mem_flatten.mp hvalue with ⟨other, hother, hmem⟩
          rcases exists_source_of_forall₂ hrest hother with ⟨origin, horigin, hrel⟩
          rw [decide_eq_true_iff, hlabel origin other hrel value hmem] at hsame
          exact hnodup.1 (hsame ▸ mem_map_of_mem horigin)
        rw [hkeep, hdrop, append_nil]
        exact hfirst
      · have hdrop : list.filter (fun value => label value = key source) = [] := by
          rw [filter_eq_nil_iff]
          intro value hvalue hsame
          rw [decide_eq_true_iff, hlabel first list hfirst value hvalue] at hsame
          exact hnodup.1 (hsame ▸ mem_map_of_mem htail)
        rw [hdrop, nil_append]
        exact ih hnodup.2 htail

end Collected

end List

namespace AList

variable {κ : Type u} {α : Type v}

/-- Rewrite every row in place. -/
def mapRows (change : κ → α → α) (table : Table κ α) : Table κ α where
  entries := table.entries.map fun entry => ⟨entry.1, change entry.1 entry.2⟩
  nodupKeys := by
    have hkeys : (table.entries.map fun entry : Sigma fun _ : κ => α =>
        (⟨entry.1, change entry.1 entry.2⟩ : Sigma fun _ : κ => α)).keys =
          table.entries.keys := by
      simp [List.keys, Function.comp_def]
    simpa only [List.NodupKeys, hkeys] using table.nodupKeys

variable [DecidableEq κ]

@[simp]
theorem lookup_mapRows (change : κ → α → α) (table : Table κ α) (key : κ) :
    (mapRows change table).lookup key = (table.lookup key).map (change key) := by
  exact List.dlookup_map₂ (l := table.entries) (f := change) key

/-- The row under a key after inserting a row under another or the same key. -/
theorem lookup_insert_eq (table : Table κ α) (key other : κ) (row : α) :
    (table.insert key row).lookup other =
      if other = key then some row else table.lookup other := by
  by_cases hkey : other = key
  · subst hkey
    rw [lookup_insert, if_pos rfl]
  · rw [lookup_insert_ne hkey, if_neg hkey]

/-- The entries under a key are the row under it. -/
theorem filter_entries_eq (table : Table κ α) (key : κ) :
    table.entries.filter (fun entry => entry.1 = key) =
      ((table.lookup key).map fun row => ⟨key, row⟩).toList := by
  obtain ⟨entries, hnodup⟩ := table
  change entries.filter (fun entry => entry.1 = key) =
    ((entries.dlookup key).map fun row => (⟨key, row⟩ : Sigma fun _ : κ => α)).toList
  induction entries with
  | nil => rfl
  | cons entry entries ih =>
      obtain ⟨hfresh, hkeys⟩ := List.nodupKeys_cons.mp hnodup
      by_cases hkey : entry.1 = key
      · obtain ⟨other, row⟩ := entry
        change other = key at hkey
        subst hkey
        have hrest : entries.filter (fun entry => entry.1 = other) = [] := by
          rw [ih hkeys, List.dlookup_eq_none.mpr hfresh]
          rfl
        rw [List.dlookup_cons_eq, List.filter_cons, if_pos (decide_eq_true rfl), hrest]
        rfl
      · rw [List.dlookup_cons_ne _ _ (Ne.symm hkey),
          List.filter_cons_of_neg (by simpa using hkey), ih hkeys]

/-- Change the row under one key, if there is one. -/
def modify (key : κ) (change : α → α) (table : Table κ α) : Table κ α :=
  mapRows (fun other row => if other = key then change row else row) table

@[simp]
theorem lookup_modify_self (table : Table κ α) (key : κ) (change : α → α) :
    (table.modify key change).lookup key = (table.lookup key).map change := by
  simp [modify]

theorem lookup_modify_ne (table : Table κ α) {key other : κ} (change : α → α)
    (hkey : other ≠ key) : (table.modify key change).lookup other = table.lookup other := by
  simp [modify, hkey]

end AList
