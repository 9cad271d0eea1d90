import Mathlib
import Patchwright.Library.Json

/-!
# Records in JSON

How a derived reader finds the fields of a record: in an object under their
names, each at most once and in any order, or in an array at their places.  A
field may have further names, and a strict reader refuses every other name.
-/

namespace Json

universe u

variable {α : Type u} {names : List String} {fields : List (List String)} {strict : Bool}
variable {entries : List (String × Json)} {values : List (Option Json)}

/-- The value of a field, if there is one; two values are an error. -/
def fieldValue? (names : List String) (entries : List (String × Json)) : Option (Option Json) :=
  match entries.filter fun entry => entry.1 ∈ names with
  | [] => some none
  | [entry] => some (some entry.2)
  | _ => none

/-- The values of the fields of a record, each field given by its names. -/
def record? (strict : Bool) (fields : List (List String)) : Json → Option (List (Option Json))
  | obj entries =>
      if strict ∧ ¬ entries.all (fun entry => entry.1 ∈ fields.flatten) then none
      else fields.mapM fun names => fieldValue? names entries
  | arr items => if items.length = fields.length then some (items.map some) else none
  | _ => none

/-- A field that has to be there. -/
def required (read : Json → Option α) : Option Json → Option α
  | some value => read value
  | none => none

/-- A field that may be missing or null. -/
def optional (read : Json → Option α) : Option Json → Option (Option α)
  | none => some none
  | some null => some none
  | some value => (read value).map some

/-- The items of an array. -/
def asList? (read : Json → Option α) (value : Json) : Option (List α) :=
  value.asArr?.bind fun items => items.mapM read

/-- An unsigned number below a bound. -/
def asBelow? (bound : Nat) : Json → Option Nat
  | int (.ofNat value) => if value < bound then some value else none
  | _ => none

/-- The name of a variant without content: a text, or a name with null under it. -/
def variant? : Json → Option String
  | str name => some name
  | obj [(name, null)] => some name
  | _ => none

/-- The name of a variant in a value that has been buffered, where an empty
object is as good as null. -/
def bufferedVariant? : Json → Option String
  | obj [(name, obj [])] => some name
  | value => value.variant?

/-- The tag of a value and its other fields. -/
def tagged? (tag : String) : Json → Option (String × Json)
  | obj entries =>
      match fieldValue? [tag] entries with
      | some (some (str name)) => some (name, obj (entries.filter fun entry => entry.1 ≠ tag))
      | _ => none
  | arr (str name :: items) => some (name, arr items)
  | _ => none

/-- The tag of a value and its content, if there is any, beside each other. -/
def adjacent? (tag content : String) : Json → Option (Json × Option Json)
  | obj entries =>
      match fieldValue? [tag] entries, fieldValue? [content] entries with
      | some (some kind), some details => some (kind, details)
      | _, _ => none
  | arr [kind, details] => some (kind, some details)
  | _ => none

/-- The last field of each name. -/
def lastOfEach : List (String × Json) → List (String × Json)
  | [] => []
  | entry :: entries =>
      if entry.1 ∈ entries.map Prod.fst then lastOfEach entries else entry :: lastOfEach entries

mutual

/-- The value a parser makes of a text: the last field of each name. -/
def lastFields : Json → Json
  | arr items => arr (lastFieldsItems items)
  | obj entries => obj (lastOfEach (lastFieldsEntries entries))
  | value => value

def lastFieldsItems : List Json → List Json
  | [] => []
  | item :: items => item.lastFields :: lastFieldsItems items

def lastFieldsEntries : List (String × Json) → List (String × Json)
  | [] => []
  | (name, value) :: entries => (name, value.lastFields) :: lastFieldsEntries entries

end

/-! ### What a writer has written -/

section Written

/-- Every field has one entry, in the order of the fields, under one of its
names. -/
def Fills (fields : List (List String)) (entries : List (String × Json)) : Prop :=
  List.Forall₂ (fun names entry => entry.1 ∈ names) fields entries

instance (fields : List (List String)) (entries : List (String × Json)) :
    Decidable (Fills fields entries) :=
  inferInstanceAs (Decidable (List.Forall₂ _ _ _))

theorem Fills.exists_names (hfills : Fills fields entries) {entry : String × Json}
    (hentry : entry ∈ entries) : ∃ names ∈ fields, entry.1 ∈ names := by
  induction hfills with
  | nil => exact absurd hentry List.not_mem_nil
  | cons hname _ ih =>
      cases List.mem_cons.mp hentry with
      | inl hsame => exact ⟨_, List.mem_cons_self, hsame ▸ hname⟩
      | inr hlater =>
          obtain ⟨names, hnames, hmem⟩ := ih hlater
          exact ⟨names, List.mem_cons_of_mem _ hnames, hmem⟩

theorem filter_eq_nil (hother : ∀ entry ∈ entries, entry.1 ∉ names) :
    (entries.filter fun entry => entry.1 ∈ names) = [] := by
  rw [List.filter_eq_nil_iff]
  intro entry hentry
  rw [decide_eq_true_iff]
  exact hother entry hentry

theorem mapM_fieldValue (hfills : Fills fields entries)
    (hdisjoint : fields.Pairwise List.Disjoint) :
    ∀ before : List (String × Json), (∀ entry ∈ before, ∀ names ∈ fields, entry.1 ∉ names) →
      (fields.mapM fun names => fieldValue? names (before ++ entries)) =
        some (entries.map fun entry => some entry.2) := by
  induction hfills with
  | nil => exact fun _ _ => rfl
  | @cons names entry fields entries hname hfills ih =>
      intro before hbefore
      rw [List.pairwise_cons] at hdisjoint
      have hlater : ∀ other ∈ entries, other.1 ∉ names := by
        intro other hother hmem
        obtain ⟨second, hsecond, hin⟩ := Fills.exists_names hfills hother
        exact hdisjoint.1 second hsecond hmem hin
      have hvalue : fieldValue? names (before ++ entry :: entries) = some (some entry.2) := by
        rw [fieldValue?, List.filter_append,
          filter_eq_nil fun other hother => hbefore other hother names List.mem_cons_self,
          List.filter_cons, if_pos (decide_eq_true hname), filter_eq_nil hlater]
        rfl
      have hrest := ih hdisjoint.2 (before ++ [entry]) (by
        intro other hother second hsecond
        cases List.mem_append.mp hother with
        | inl hearlier => exact hbefore other hearlier second (List.mem_cons_of_mem _ hsecond)
        | inr hlast =>
            rw [List.mem_singleton.mp hlast]
            exact fun hin => hdisjoint.1 second hsecond hname hin)
      rw [List.append_assoc, List.singleton_append] at hrest
      rw [List.mapM_cons, hvalue, hrest]
      rfl

/-- What has been written field by field is read field by field. -/
theorem record?_obj (hfills : Fills fields entries) (hnodup : fields.flatten.Nodup) :
    record? strict fields (obj entries) = some (entries.map fun entry => some entry.2) := by
  have hknown : entries.all (fun entry => entry.1 ∈ fields.flatten) = true := by
    rw [List.all_eq_true]
    intro entry hentry
    obtain ⟨names, hnames, hmem⟩ := hfills.exists_names hentry
    exact decide_eq_true (List.mem_flatten.mpr ⟨names, hnames, hmem⟩)
  rw [record?, if_neg fun hboth => hboth.2 hknown]
  exact mapM_fieldValue hfills (List.nodup_flatten.mp hnodup).2 []
    fun entry hentry => absurd hentry List.not_mem_nil

theorem tagged?_obj {tag name : String} (hother : ∀ entry ∈ entries, entry.1 ≠ tag) :
    tagged? tag (obj ((tag, str name) :: entries)) = some (name, obj entries) := by
  have hvalue : fieldValue? [tag] ((tag, str name) :: entries) = some (some (str name)) := by
    have hnone : (entries.filter fun entry => entry.1 ∈ [tag]) = [] :=
      filter_eq_nil fun entry hentry hmem => hother entry hentry (List.mem_singleton.mp hmem)
    rw [fieldValue?, List.filter_cons, if_pos (decide_eq_true List.mem_cons_self), hnone]
  have hrest : (((tag, str name) :: entries).filter fun entry => entry.1 ≠ tag) = entries := by
    rw [List.filter_cons, if_neg (by simp), List.filter_eq_self]
    exact fun entry hentry => decide_eq_true (hother entry hentry)
  rw [tagged?, hvalue]
  dsimp only
  rw [hrest]

theorem asBelow?_int {bound number : Nat} (hbound : number < bound) :
    asBelow? bound (int number) = some number :=
  if_pos hbound

theorem asBelow?_lt {bound number : Nat} {value : Json} (hread : asBelow? bound value = some number) :
    number < bound := by
  unfold asBelow? at hread
  split at hread
  · split at hread
    next hbound =>
      rw [← Option.some.inj hread]
      exact hbound
    next => cases hread
  · cases hread

theorem optional_ofOption_str (value : Option String) :
    optional asStr? (some (ofOption str value)) = some value := by
  cases value with
  | none => rfl
  | some value => rfl

/-- A written list is read back exactly when its items are. -/
theorem asList?_map_iff {read : Json → Option α} {write : α → Json} {items : List α} :
    asList? read (arr (items.map write)) = some items ↔
      ∀ item ∈ items, read (write item) = some item := by
  change (items.map write).mapM read = some items ↔ _
  induction items with
  | nil => exact iff_of_true rfl fun _ hitem => absurd hitem List.not_mem_nil
  | cons item items ih =>
      rw [List.map_cons, List.mapM_cons, List.forall_mem_cons, ← ih]
      simp only [Option.bind_eq_bind, Option.bind_eq_some_iff, Option.pure_def, Option.some.injEq,
        List.cons.injEq]
      constructor
      · rintro ⟨_, hitem, _, hitems, rfl, rfl⟩
        exact ⟨hitem, hitems⟩
      · rintro ⟨hitem, hitems⟩
        exact ⟨item, hitem, items, hitems, rfl, rfl⟩

theorem adjacent?_obj {tag content : String} {kind details : Json} (hother : content ≠ tag) :
    adjacent? tag content (obj [(tag, kind), (content, details)]) = some (kind, some details) := by
  have htag : fieldValue? [tag] [(tag, kind), (content, details)] = some (some kind) := by
    simp [fieldValue?, hother]
  have hcontent : fieldValue? [content] [(tag, kind), (content, details)] =
      some (some details) := by
    simp [fieldValue?, hother.symm]
  rw [adjacent?, htag, hcontent]

theorem adjacent?_tag {tag content : String} {kind : Json} (hother : content ≠ tag) :
    adjacent? tag content (obj [(tag, kind)]) = some (kind, none) := by
  have htag : fieldValue? [tag] [(tag, kind)] = some (some kind) := by simp [fieldValue?]
  have hcontent : fieldValue? [content] [(tag, kind)] = some none := by
    simp [fieldValue?, hother.symm]
  rw [adjacent?, htag, hcontent]

@[simp]
theorem lastFields_null : null.lastFields = null := by
  simp [lastFields]

@[simp]
theorem lastFields_int (value : Int) : (int value).lastFields = int value := by
  simp [lastFields]

@[simp]
theorem lastFields_str (value : String) : (str value).lastFields = str value := by
  simp [lastFields]

@[simp]
theorem lastFields_ofOption (value : Option String) :
    (ofOption str value).lastFields = ofOption str value := by
  cases value with
  | none => exact lastFields_null
  | some value => exact lastFields_str value

theorem lastOfEach_of_nodup (hnodup : (entries.map Prod.fst).Nodup) :
    lastOfEach entries = entries := by
  induction entries with
  | nil => rfl
  | cons entry entries ih =>
      rw [List.map_cons, List.nodup_cons] at hnodup
      rw [lastOfEach, if_neg hnodup.1, ih hnodup.2]

theorem lastFields_arr {items : List Json} (hall : ∀ item ∈ items, item.lastFields = item) :
    (arr items).lastFields = arr items := by
  have hitems : lastFieldsItems items = items := by
    induction items with
    | nil => rfl
    | cons item items ih =>
        rw [List.forall_mem_cons] at hall
        rw [lastFieldsItems, hall.1, ih hall.2]
  rw [lastFields, hitems]

theorem lastFields_map {items : List α} {write : α → Json}
    (hwrite : ∀ item, (write item).lastFields = write item) :
    (arr (items.map write)).lastFields = arr (items.map write) := by
  refine lastFields_arr fun item hitem => ?_
  obtain ⟨source, -, rfl⟩ := List.mem_map.mp hitem
  exact hwrite source

/-- What a writer has written, each name once, is the value that is parsed. -/
theorem lastFields_obj (hnodup : (entries.map Prod.fst).Nodup)
    (hall : ∀ entry ∈ entries, entry.2.lastFields = entry.2) :
    (obj entries).lastFields = obj entries := by
  have hentries : lastFieldsEntries entries = entries := by
    clear hnodup
    induction entries with
    | nil => rfl
    | cons entry entries ih =>
        rw [List.forall_mem_cons] at hall
        obtain ⟨name, value⟩ := entry
        rw [lastFieldsEntries, hall.1, ih hall.2]
  rw [lastFields, hentries, lastOfEach_of_nodup hnodup]

/-- Every item of a list has been read. -/
theorem exists_of_mem_asList {read : Json → Option α} {value : Json} {items : List α}
    (hread : asList? read value = some items) :
    ∀ item ∈ items, ∃ written, read written = some item := by
  obtain ⟨writtens, -, hitems⟩ := Option.bind_eq_some_iff.mp hread
  clear hread
  induction writtens generalizing items with
  | nil =>
      cases hitems
      exact fun item hitem => absurd hitem List.not_mem_nil
  | cons written writtens ih =>
      rw [List.mapM_cons] at hitems
      obtain ⟨first, hfirst, hitems⟩ := Option.bind_eq_some_iff.mp hitems
      obtain ⟨later, hlater, hitems⟩ := Option.bind_eq_some_iff.mp hitems
      cases hitems
      exact List.forall_mem_cons.mpr ⟨⟨written, hfirst⟩, ih hlater⟩

end Written

/-! ### What a reader has found -/

section Found

theorem forall₂_fieldValue (hread : record? strict fields (obj entries) = some values) :
    List.Forall₂ (fun names value => fieldValue? names entries = some value) fields values := by
  rw [record?] at hread
  split at hread
  next => cases hread
  next =>
    clear * - hread
    induction fields generalizing values with
    | nil =>
        cases hread
        exact .nil
    | cons names fields ih =>
        rw [List.mapM_cons] at hread
        obtain ⟨value, hvalue, hread⟩ := Option.bind_eq_some_iff.mp hread
        obtain ⟨later, hlater, hread⟩ := Option.bind_eq_some_iff.mp hread
        cases hread
        exact .cons hvalue (ih hlater)

theorem exists_mem_of_fieldValue {value : Json}
    (hfound : fieldValue? names entries = some (some value)) : ∃ entry ∈ entries, entry.1 ∈ names := by
  rw [fieldValue?] at hfound
  split at hfound
  next => cases hfound
  next entry hentries =>
    have hmem : entry ∈ entries.filter fun entry => entry.1 ∈ names := by
      rw [hentries]
      exact List.mem_singleton_self entry
    rw [List.mem_filter, decide_eq_true_iff] at hmem
    exact ⟨entry, hmem⟩
  next => cases hfound

theorem exists_of_required {read : Json → Option α} {field : Option Json} {result : α}
    (hread : required read field = some result) :
    ∃ value, field = some value ∧ read value = some result := by
  cases field with
  | none => cases hread
  | some value => exact ⟨value, rfl, hread⟩

theorem required_below {bound number : Nat} {field : Option Json}
    (hread : required (asBelow? bound) field = some number) : number < bound := by
  obtain ⟨value, -, hvalue⟩ := exists_of_required hread
  exact asBelow?_lt hvalue

/-- A strict reader finds only the names it knows. -/
theorem known_of_record (hread : record? true fields (obj entries) = some values) :
    ∀ entry ∈ entries, entry.1 ∈ fields.flatten := by
  rw [record?] at hread
  split at hread
  next => cases hread
  next hknown =>
    intro entry hentry
    by_contra hmem
    refine hknown ⟨rfl, fun hall => hmem ?_⟩
    rw [List.all_eq_true] at hall
    exact of_decide_eq_true (hall entry hentry)

theorem length_of_record {items : List Json} (hread : record? strict fields (arr items) = some values) :
    items.length = fields.length := by
  rw [record?] at hread
  split at hread
  next hlength => exact hlength
  next => cases hread

/-- No value is a record of one format and of another strict one, when the first
has found a field that the other does not know, and they differ in length. -/
theorem not_both_records {other : List (List String)} {later : List (Option Json)} {value : Json}
    (hread : record? strict fields value = some values)
    (hother : record? true other value = some later) (hlength : fields.length ≠ other.length)
    {index : Nat} {found : Json} (hnames : fields[index]? = some names)
    (hfound : values[index]? = some (some found)) (hunknown : ∀ name ∈ names, name ∉ other.flatten) :
    False := by
  cases value with
  | obj entries =>
      have hvalue : fieldValue? names entries = some (some found) := by
        have hall := forall₂_fieldValue hread
        rw [List.forall₂_iff_get] at hall
        obtain ⟨hinside, hname⟩ := List.getElem?_eq_some_iff.mp hnames
        obtain ⟨hbound, hvalue⟩ := List.getElem?_eq_some_iff.mp hfound
        have hat := hall.2 index hinside hbound
        rw [List.get_eq_getElem, List.get_eq_getElem] at hat
        rw [← hname, ← hvalue]
        exact hat
      obtain ⟨entry, hentry, hname⟩ := exists_mem_of_fieldValue hvalue
      exact hunknown _ hname (known_of_record hother entry hentry)
  | arr items => exact hlength ((length_of_record hread).symm.trans (length_of_record hother))
  | null => cases hread
  | bool _ => cases hread
  | int _ => cases hread
  | float _ => cases hread
  | str _ => cases hread

end Found

end Json
