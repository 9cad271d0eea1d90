import Mathlib
import Patchwright.Library.Table

/-!
# Coalescing entries

Entries are collected into items in one pass.  An entry without a key makes an
item of its own; an entry with a key extends the item of its key, which the
first entry of the key has made.  An index keeps the place of the item of each
key.  The entries that have made an item are the leaders, and what the pass
returns is read off from them: the items stand in the order of their leaders,
and the item of a key has taken all entries of the key in their order.
-/

namespace Coalescing

universe u v w

variable {α : Type u} {β : Type v} {κ : Type w}

structure Groups (κ : Type w) (β : Type v) where
  items : List β
  index : Table κ Nat

def Groups.empty : Groups κ β := ⟨[], ∅⟩

section Pass

variable [DecidableEq κ] (key : α → Option κ) (start : α → β) (extend : β → α → β)

/-- Take one more entry. -/
def Groups.collect (groups : Groups κ β) (entry : α) : Groups κ β :=
  match key entry with
  | none => { groups with items := groups.items ++ [start entry] }
  | some own =>
      match groups.index.lookup own with
      | some place =>
          { groups with items := groups.items.modify place fun item => extend item entry }
      | none => ⟨groups.items ++ [start entry], groups.index.insert own groups.items.length⟩

def coalesce (entries : List α) : List β :=
  (entries.foldl (Groups.collect key start extend) Groups.empty).items

/-- The entry has an item of its own behind the earlier entries. -/
def Leads (earlier : List α) (entry : α) : Prop :=
  ∀ own, key entry = some own → ∀ other ∈ earlier, key other ≠ some own

instance (earlier : List α) (entry : α) : Decidable (Leads key earlier entry) :=
  match hkey : key entry with
  | none => isTrue fun _ hsome => nomatch hkey.symm.trans hsome
  | some own => decidable_of_iff (∀ other ∈ earlier, key other ≠ some own)
      ⟨fun hnew _ hsome => Option.some.inj (hkey.symm.trans hsome) ▸ hnew, fun hlead => hlead own hkey⟩

/-- The leaders among later entries. -/
def leadersBehind : List α → List α → List α
  | _, [] => []
  | earlier, entry :: later =>
      if Leads key earlier entry then entry :: leadersBehind (earlier ++ [entry]) later
      else leadersBehind (earlier ++ [entry]) later

def leaders (entries : List α) : List α := leadersBehind key [] entries

/-- The entries of a key. -/
def ofKey (own : κ) (entries : List α) : List α := entries.filter fun entry => key entry = some own

/-- The item of a leader, with the later entries of its key. -/
def itemOf (entries : List α) (leader : α) : β :=
  match key leader with
  | none => start leader
  | some own => (ofKey key own entries).tail.foldl extend (start leader)

end Pass

section Leaders

variable [DecidableEq κ] {key : α → Option κ}

theorem leadersBehind_append (earlier first second : List α) :
    leadersBehind key earlier (first ++ second) =
      leadersBehind key earlier first ++ leadersBehind key (earlier ++ first) second := by
  induction first generalizing earlier with
  | nil => rw [List.nil_append, List.append_nil, leadersBehind, List.nil_append]
  | cons entry first ih =>
      rw [List.cons_append, leadersBehind, leadersBehind, ih, List.append_assoc,
        List.singleton_append]
      split <;> rfl

theorem leaders_append (first second : List α) :
    leaders key (first ++ second) = leaders key first ++ leadersBehind key first second := by
  rw [leaders, leadersBehind_append, List.nil_append, leaders]

theorem leaders_concat (entries : List α) (entry : α) :
    leaders key (entries ++ [entry]) =
      leaders key entries ++ if Leads key entries entry then [entry] else [] := by
  rw [leaders_append, leadersBehind, leadersBehind]

theorem leadersBehind_sublist (earlier entries : List α) :
    (leadersBehind key earlier entries).Sublist entries := by
  induction entries generalizing earlier with
  | nil => exact List.Sublist.refl _
  | cons entry entries ih =>
      rw [leadersBehind]
      split
      · exact (ih _).cons_cons entry
      · exact (ih _).cons entry

theorem leaders_sublist (entries : List α) : (leaders key entries).Sublist entries :=
  leadersBehind_sublist [] entries

omit [DecidableEq κ] in
theorem not_leads_iff {earlier : List α} {entry : α} : ¬ Leads key earlier entry ↔
    ∃ own, key entry = some own ∧ ∃ other ∈ earlier, key other = some own := by
  simp only [Leads, not_forall, not_not, exists_prop]

/-- Every entry with a key has a leader. -/
theorem exists_leader {entries : List α} {entry : α} {own : κ} (hmem : entry ∈ entries)
    (hkey : key entry = some own) : ∃ leader ∈ leaders key entries, key leader = some own := by
  induction entries using List.reverseRecOn generalizing entry with
  | nil => cases hmem
  | append_singleton entries last ih =>
      have hearlier {other : α} (hother : other ∈ entries) (hown : key other = some own) :
          ∃ leader ∈ leaders key (entries ++ [last]), key leader = some own := by
        obtain ⟨leader, hleader, hsame⟩ := ih hother hown
        rw [leaders_concat]
        exact ⟨leader, List.mem_append_left _ hleader, hsame⟩
      rcases List.mem_append.mp hmem with hmem | hmem
      · exact hearlier hmem hkey
      · obtain rfl := List.mem_singleton.mp hmem
        by_cases hlead : Leads key entries entry
        · refine ⟨entry, ?_, hkey⟩
          rw [leaders_concat, if_pos hlead]
          exact List.mem_append_right _ List.mem_cons_self
        · obtain ⟨found, hfound, other, hother, hsame⟩ := not_leads_iff.1 hlead
          obtain rfl := Option.some.inj (hfound.symm.trans hkey)
          exact hearlier hother hsame

omit [DecidableEq κ] in
theorem leads_of_key_eq_none {earlier : List α} {entry : α} (hkey : key entry = none) :
    Leads key earlier entry := fun _ hown => nomatch hkey.symm.trans hown

theorem mem_leaders_of_key_eq_none {entries : List α} {entry : α} (hmem : entry ∈ entries)
    (hkey : key entry = none) : entry ∈ leaders key entries := by
  obtain ⟨earlier, later, rfl⟩ := List.append_of_mem hmem
  rw [leaders_append, leadersBehind, if_pos (leads_of_key_eq_none hkey)]
  exact List.mem_append_right _ List.mem_cons_self

end Leaders

section Items

variable [DecidableEq κ] {key : α → Option κ} {start : α → β} {extend : β → α → β}

theorem ofKey_append (own : κ) (first second : List α) :
    ofKey key own (first ++ second) = ofKey key own first ++ ofKey key own second :=
  List.filter_append ..

theorem ofKey_singleton (own : κ) (entry : α) :
    ofKey key own [entry] = if key entry = some own then [entry] else [] := by
  rw [ofKey, List.filter_cons, List.filter_nil]
  simp only [decide_eq_true_eq]

theorem ofKey_eq_nil {own : κ} {entries : List α} :
    ofKey key own entries = [] ↔ ∀ entry ∈ entries, key entry ≠ some own := by
  simp [ofKey, List.filter_eq_nil_iff]

/-- A leader is the first entry of its key. -/
theorem ofKey_eq_cons {entries : List α} {leader : α} {own : κ}
    (hleader : leader ∈ leaders key entries) (hkey : key leader = some own) :
    ∃ later, ofKey key own entries = leader :: later := by
  induction entries using List.reverseRecOn with
  | nil => cases hleader
  | append_singleton entries entry ih =>
      rw [leaders_concat, List.mem_append] at hleader
      rw [ofKey_append]
      rcases hleader with hleader | hleader
      · obtain ⟨later, hlater⟩ := ih hleader
        exact ⟨later ++ ofKey key own [entry], by rw [hlater, List.cons_append]⟩
      · split at hleader
        next hlead =>
          obtain rfl := List.mem_singleton.mp hleader
          refine ⟨[], ?_⟩
          rw [ofKey_eq_nil.2 (hlead own hkey), ofKey_singleton, if_pos hkey, List.nil_append]
        next => cases hleader

/-- A key has one leader. -/
theorem leader_unique {entries : List α} {first second : α} {own : κ}
    (hfirst : first ∈ leaders key entries) (hsecond : second ∈ leaders key entries)
    (hfirstKey : key first = some own) (hsecondKey : key second = some own) : first = second := by
  obtain ⟨firstLater, hfirstCons⟩ := ofKey_eq_cons hfirst hfirstKey
  obtain ⟨secondLater, hsecondCons⟩ := ofKey_eq_cons hsecond hsecondKey
  exact (List.cons.inj (hfirstCons.symm.trans hsecondCons)).1

/-- Later entries extend the item of a leader whose key they have. -/
theorem itemOf_append {entries : List α} {leader : α} (hleader : leader ∈ entries)
    (later : List α) : itemOf key start extend (entries ++ later) leader =
      match key leader with
      | none => itemOf key start extend entries leader
      | some own => (ofKey key own later).foldl extend (itemOf key start extend entries leader) := by
  cases hkey : key leader with
  | none => simp only [itemOf, hkey]
  | some own =>
      have hne : ofKey key own entries ≠ [] := by
        rw [Ne, ofKey_eq_nil]
        exact fun hnone => hnone leader hleader hkey
      simp only [itemOf, hkey]
      rw [ofKey_append, List.tail_append_of_ne_nil hne, List.foldl_append]

theorem itemOf_concat {entries : List α} {leader : α} (hleader : leader ∈ entries) (entry : α) :
    itemOf key start extend (entries ++ [entry]) leader =
      if key leader ≠ none ∧ key leader = key entry
      then extend (itemOf key start extend entries leader) entry
      else itemOf key start extend entries leader := by
  rw [itemOf_append hleader]
  cases hkey : key leader with
  | none => rfl
  | some own =>
      dsimp only
      rw [ofKey_singleton]
      by_cases hsame : key entry = some own
      · simp [hsame]
      · simp [hsame, eq_comm]

/-- A leader's item, when it has just come. -/
theorem itemOf_leads {entries : List α} {entry : α} (hlead : Leads key entries entry) :
    itemOf key start extend (entries ++ [entry]) entry = start entry := by
  cases hkey : key entry with
  | none => simp only [itemOf, hkey]
  | some own =>
      have hnil : ofKey key own entries = [] := ofKey_eq_nil.2 (hlead own hkey)
      simp only [itemOf, hkey]
      rw [ofKey_append, hnil, List.nil_append, ofKey_singleton, if_pos hkey, List.tail_cons,
        List.foldl_nil]

end Items

section Correctness

variable [DecidableEq κ] {key : α → Option κ} {start : α → β} {extend : β → α → β}

/-- What the pass has collected of the entries. -/
structure Collected (key : α → Option κ) (start : α → β) (extend : β → α → β)
    (entries : List α) (groups : Groups κ β) : Prop where
  items : groups.items = (leaders key entries).map (itemOf key start extend entries)
  index : ∀ own place, groups.index.lookup own = some place ↔
    ∃ leader, (leaders key entries)[place]? = some leader ∧ key leader = some own

variable {entries : List α} {groups : Groups κ β}

theorem getElem?_concat_eq_some {values : List α} {last value : α} {place : Nat} :
    (values ++ [last])[place]? = some value ↔
      values[place]? = some value ∨ place = values.length ∧ last = value := by
  rw [List.getElem?_append]
  split
  next hlt => simp [Nat.ne_of_lt hlt]
  next hge =>
      rw [List.getElem?_eq_none (Nat.le_of_not_lt hge), List.getElem?_singleton]
      simp only [reduceCtorEq, false_or]
      split <;> simp <;> omega

theorem Collected.lookup_eq_none (hcollected : Collected key start extend entries groups)
    {own : κ} (hnone : groups.index.lookup own = none) :
    ∀ other ∈ entries, key other ≠ some own := by
  intro other hother hkey
  obtain ⟨leader, hleader, hown⟩ := exists_leader hother hkey
  obtain ⟨place, hplace⟩ := List.mem_iff_getElem?.mp hleader
  have hsome := (hcollected.index own place).mpr ⟨leader, hplace, hown⟩
  rw [hnone] at hsome
  cases hsome

/-- An entry that leads makes an item. -/
theorem Collected.push (hcollected : Collected key start extend entries groups) {entry : α}
    (hlead : Leads key entries entry) :
    groups.items ++ [start entry] = (leaders key (entries ++ [entry])).map
      (itemOf key start extend (entries ++ [entry])) := by
  rw [leaders_concat, if_pos hlead, List.map_append, List.map_singleton, itemOf_leads hlead,
    hcollected.items]
  congr 1
  apply List.map_congr_left
  intro leader hleader
  have hmem := (leaders_sublist entries).subset hleader
  rw [itemOf_concat hmem, if_neg]
  rintro ⟨hsome, hsame⟩
  obtain ⟨own, hown⟩ := Option.ne_none_iff_exists'.mp hsome
  exact hlead own (hsame ▸ hown) leader hmem hown

/-- An entry whose key has an item extends it. -/
theorem Collected.modify (hcollected : Collected key start extend entries groups) {entry : α}
    {own : κ} {place : Nat} (hkey : key entry = some own)
    (hplace : groups.index.lookup own = some place) :
    groups.items.modify place (fun item => extend item entry) =
      (leaders key entries).map (itemOf key start extend (entries ++ [entry])) := by
  rw [hcollected.items]
  apply List.ext_getElem?
  intro position
  rw [List.getElem?_modify, List.getElem?_map, List.getElem?_map]
  cases hleader : (leaders key entries)[position]? with
  | none => rfl
  | some leader =>
      have hmem := (leaders_sublist entries).subset (List.mem_of_getElem? hleader)
      simp only [Option.map_some]
      rw [itemOf_concat hmem, hkey]
      by_cases hsame : place = position
      · subst hsame
        obtain ⟨found, hfound, hown⟩ := (hcollected.index own place).mp hplace
        obtain rfl := Option.some.inj (hfound.symm.trans hleader)
        simp [hown]
      · have hother : key leader ≠ some own := by
          intro hown
          have hindex := (hcollected.index own position).mpr ⟨leader, hleader, hown⟩
          exact hsame (Option.some.inj (hplace.symm.trans hindex))
        simp [hsame, hother]

theorem Collected.collect (hcollected : Collected key start extend entries groups) (entry : α) :
    Collected key start extend (entries ++ [entry]) (groups.collect key start extend entry) := by
  have hlength : groups.items.length = (leaders key entries).length := by
    rw [hcollected.items, List.length_map]
  cases hkey : key entry with
  | none =>
      have hlead : Leads key entries entry := leads_of_key_eq_none hkey
      rw [Groups.collect, hkey]
      refine ⟨hcollected.push hlead, fun own place => ?_⟩
      rw [hcollected.index, leaders_concat, if_pos hlead]
      simp only [getElem?_concat_eq_some, or_and_right, exists_or]
      rw [or_iff_left]
      rintro ⟨leader, ⟨-, rfl⟩, hown⟩
      cases hkey.symm.trans hown
  | some own =>
      cases hplace : groups.index.lookup own with
      | none =>
          have hlead : Leads key entries entry := by
            intro found hfound
            obtain rfl := Option.some.inj (hkey.symm.trans hfound)
            exact hcollected.lookup_eq_none hplace
          simp only [Groups.collect, hkey, hplace]
          refine ⟨hcollected.push hlead, fun other place => ?_⟩
          rw [AList.lookup_insert_eq, leaders_concat, if_pos hlead]
          simp only [getElem?_concat_eq_some, or_and_right, exists_or]
          rw [← hcollected.index, hlength]
          split
          next hsame =>
            subst hsame
            simp [hplace, hkey, eq_comm]
          next hne =>
            simp [hkey, Ne.symm hne]
      | some place =>
          have hlead : ¬ Leads key entries entry := by
            obtain ⟨leader, hleader, hown⟩ := (hcollected.index own place).mp hplace
            have hmem := (leaders_sublist entries).subset (List.mem_of_getElem? hleader)
            exact fun hlead => hlead own hkey leader hmem hown
          have hleaders : leaders key (entries ++ [entry]) = leaders key entries := by
            rw [leaders_concat, if_neg hlead, List.append_nil]
          simp only [Groups.collect, hkey, hplace]
          refine ⟨?_, fun other position => ?_⟩
          · rw [hleaders]
            exact hcollected.modify hkey hplace
          · rw [hleaders]
            exact hcollected.index other position

theorem Collected.empty : Collected key start extend [] Groups.empty where
  items := rfl
  index own place := by simp [Groups.empty, leaders, leadersBehind]

theorem collected_foldl (entries : List α) : Collected key start extend entries
    (entries.foldl (Groups.collect key start extend) Groups.empty) := by
  induction entries using List.reverseRecOn with
  | nil => exact .empty
  | append_singleton entries entry ih =>
      rw [List.foldl_append, List.foldl_cons, List.foldl_nil]
      exact ih.collect entry

/-- The pass returns the items of the leaders. -/
theorem coalesce_eq (entries : List α) : coalesce key start extend entries =
    (leaders key entries).map (itemOf key start extend entries) :=
  (collected_foldl entries).items

end Correctness

end Coalescing
