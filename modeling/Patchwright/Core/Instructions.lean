import Patchwright.Core.Text
import Patchwright.Library.Sorting
import Std.Data.TreeMap.Lemmas

/-!
# Instructions

The instructions that apply to a task come from several sources, from the
organization's down to the task's own.  They are put in order of precedence,
their settings are collected by key, and a key with two values is a conflict,
which the last setting wins.
-/

namespace Patchwright

/-- The kinds of sources, in ascending precedence. -/
inductive InstructionKind where
  | organization
  | user
  | projectConfiguration
  | rootAgents
  | directoryAgents
  | branch
  | task
  deriving DecidableEq, Ord, Repr

namespace InstructionKind

instance : Std.TransOrd InstructionKind where
  eq_swap {left right} := by cases left <;> cases right <;> rfl
  isLE_trans {first second third} := by
    cases first <;> cases second <;> cases third <;> decide

instance : Std.LawfulEqOrd InstructionKind where
  compare_self {kind} := by cases kind <;> rfl
  eq_of_compare {left right} := by cases left <;> cases right <;> decide

end InstructionKind

structure InstructionSource where
  kind : InstructionKind
  location : String
  content : String
  contentSha256 : String
  enforced : Bool
  deriving DecidableEq, Repr

structure InstructionConflict where
  key : String
  values : List String
  effectiveValue : String
  deriving DecidableEq, Repr

structure EffectiveInstructions where
  sources : List InstructionSource
  conflicts : List InstructionConflict
  deriving DecidableEq, Repr

/-! ## Resolution -/

/-- A line without the carriage return before its end. -/
def stripCarriageReturn (line : List Char) : List Char :=
  if line.getLast? = some '\r' then line.dropLast else line

/-- The lines of a text.  What follows the last line feed is a line unless it is
empty, and keeps a carriage return at its end. -/
def textLines (text : String) : List String :=
  let pieces := text.toList.splitOn '\n'
  let complete := pieces.dropLast.map stripCarriageReturn
  let last := pieces.getLast?.filter fun piece => !piece.isEmpty
  (complete ++ last.toList).map String.ofList

abbrev SettingTable := Std.TreeMap String (List String)

def recordLine (values : SettingTable) (line : String) : SettingTable :=
  match splitOnce line ':' with
  | some (key, value) =>
      let key := trim key
      let value := trim value
      if !key.isEmpty && !value.isEmpty then
        values.alter key fun given => some (given.getD [] ++ [value])
      else values
  | none => values

/-- Two neighbours in the list differ. -/
def neighboursDiffer (values : List String) : Bool :=
  (values.zip values.tail).any fun pair => pair.1 != pair.2

def InstructionResolver.resolve (sources : List InstructionSource) : EffectiveInstructions :=
  let sources := Sorting.sortByKey compare InstructionSource.kind sources
  let values : SettingTable := sources.foldl (fun values source =>
    (textLines source.content).foldl recordLine values) ∅
  let conflicts := values.toList.filter fun entry => neighboursDiffer entry.2
  { sources := sources
    conflicts := conflicts.map fun entry =>
      { key := entry.1, values := entry.2, effectiveValue := entry.2.getLast?.getD "" } }

/-! ## Settings -/

/-- The key and the value of a line `key: value`. -/
def setting (line : String) : Option (String × String) :=
  ((splitOnce line ':').map fun parts => (trim parts.1, trim parts.2)).filter fun parts =>
    !parts.1.isEmpty && !parts.2.isEmpty

namespace InstructionSource

/-- The settings of a source, line by line. -/
def settings (source : InstructionSource) : List (String × String) :=
  (textLines source.content).filterMap setting

/-- The values that a source gives a key. -/
def given (source : InstructionSource) (key : String) : List String :=
  (source.settings.filter fun entry => entry.1 = key).map Prod.snd

end InstructionSource

/-- The values that the sources give a key, one source after the other. -/
def given (sources : List InstructionSource) (key : String) : List String :=
  sources.flatMap fun source => source.given key

/-- What the resolution of instructions is to be: the sources by precedence, one
conflict for each key with two values, with all its values by precedence, and
the last value of the last source that sets the key in effect. -/
structure Resolves (sources : List InstructionSource) (result : EffectiveInstructions) : Prop where
  precedence : Sorting.IsStableSort compare InstructionSource.kind sources result.sources
  keys : ∀ key, (∃ conflict ∈ result.conflicts, conflict.key = key) ↔
    ∃ first ∈ given sources key, ∃ second ∈ given sources key, first ≠ second
  once : result.conflicts.Pairwise fun first second => compare first.key second.key = .lt
  values : ∀ conflict ∈ result.conflicts, conflict.values = given result.sources conflict.key
  effective : ∀ conflict ∈ result.conflicts, ∃ before source after,
    result.sources = before ++ source :: after ∧
      (source.given conflict.key).getLast? = some conflict.effectiveValue ∧
      ∀ later ∈ after, later.given conflict.key = []

theorem neighboursDiffer_cons_cons (first second : String) (values : List String) :
    neighboursDiffer (first :: second :: values) =
      (first != second || neighboursDiffer (second :: values)) :=
  rfl

/-- Where no neighbours differ, no two values do. -/
theorem neighboursDiffer_eq_false {values : List String} :
    neighboursDiffer values = false ↔ ∀ first ∈ values, ∀ second ∈ values, first = second := by
  induction values with
  | nil => exact iff_of_true rfl nofun
  | cons first values ih =>
      cases values with
      | nil =>
          refine iff_of_true rfl fun left hleft right hright => ?_
          rw [List.mem_singleton.mp hleft, List.mem_singleton.mp hright]
      | cons second values =>
          rw [neighboursDiffer_cons_cons, Bool.or_eq_false_iff, bne_eq_false_iff_eq, ih]
          constructor
          · rintro ⟨rfl, hall⟩
            have hfirst : ∀ value ∈ first :: first :: values, value = first := fun value hvalue =>
              (List.mem_cons.mp hvalue).elim id fun hmem => hall value hmem _ List.mem_cons_self
            intro left hleft right hright
            exact (hfirst left hleft).trans (hfirst right hright).symm
          · intro hall
            have hsecond : second ∈ first :: second :: values :=
              List.mem_cons_of_mem _ List.mem_cons_self
            refine ⟨hall _ List.mem_cons_self _ hsecond, fun left hleft right hright => ?_⟩
            exact hall left (List.mem_cons_of_mem _ hleft) right (List.mem_cons_of_mem _ hright)

theorem neighboursDiffer_iff (values : List String) :
    neighboursDiffer values = true ↔ ∃ first ∈ values, ∃ second ∈ values, first ≠ second := by
  rw [← Bool.not_eq_false, neighboursDiffer_eq_false]
  push Not
  rfl

theorem recordLine_eq (values : SettingTable) (line : String) :
    recordLine values line = (setting line).elim values fun entry =>
      values.alter entry.1 fun given => some (given.getD [] ++ [entry.2]) := by
  rw [recordLine, setting]
  rcases splitOnce line ':' with _ | ⟨key, value⟩
  · rfl
  · dsimp only
    split
    next hset => rw [Option.map_some, Option.filter_some, if_pos hset, Option.elim_some]
    next hset => rw [Option.map_some, Option.filter_some, if_neg hset, Option.elim_none]

/-! ## The table of settings -/

/-- The table has the collected values under each key that has any. -/
def Collected (values : SettingTable) (collected : String → List String) : Prop :=
  ∀ key, values[key]? = if collected key = [] then none else some (collected key)

theorem Collected.getD {values : SettingTable} {collected : String → List String}
    (hvalues : Collected values collected) (key : String) :
    values[key]?.getD [] = collected key := by
  rw [hvalues key]
  split
  next hnone => rw [hnone, Option.getD_none]
  next => rw [Option.getD_some]

/-- The values that lines give a key. -/
def linesGive (lines : List String) (key : String) : List String :=
  ((lines.filterMap setting).filter fun entry => entry.1 = key).map Prod.snd

theorem linesGive_cons (line : String) (lines : List String) (key : String) :
    linesGive (line :: lines) key =
      ((setting line).toList.filter fun entry => entry.1 = key).map Prod.snd ++
        linesGive lines key := by
  rw [linesGive, linesGive, List.filterMap_cons]
  cases setting line with
  | none => rfl
  | some entry => rw [Option.toList_some, ← List.map_append, ← List.filter_append,
      List.singleton_append]

/-- One line adds its value at the end of its key's values. -/
theorem Collected.recordLine {values : SettingTable} {collected : String → List String}
    (hvalues : Collected values collected) (line : String) :
    Collected (recordLine values line) fun key =>
      collected key ++ ((setting line).toList.filter fun entry => entry.1 = key).map Prod.snd := by
  rw [recordLine_eq]
  cases setting line with
  | none => simpa only [Option.toList_none, List.filter_nil, List.map_nil, List.append_nil]
  | some entry =>
      intro key
      have hown : ((some entry).toList.filter fun other => other.1 = key).map Prod.snd =
          if entry.1 = key then [entry.2] else [] := by
        rw [Option.toList_some, List.filter_singleton]
        split <;> simp_all
      simp only [Option.elim_some, Std.TreeMap.getElem?_alter, hown]
      by_cases hkey : entry.1 = key
      · subst hkey
        have hself : compare entry.1 entry.1 = .eq := Std.ReflCmp.compare_self
        rw [if_pos hself, hvalues.getD, if_pos rfl, if_neg (by simp)]
      · rw [if_neg fun heq => hkey (Std.LawfulEqCmp.eq_of_compare heq), hvalues key, if_neg hkey,
          List.append_nil]

theorem Collected.recordLines {values : SettingTable} {collected : String → List String}
    (hvalues : Collected values collected) (lines : List String) :
    Collected (lines.foldl Patchwright.recordLine values) fun key =>
      collected key ++ linesGive lines key := by
  induction lines generalizing values collected with
  | nil =>
      simpa only [linesGive, List.filterMap_nil, List.filter_nil, List.map_nil, List.append_nil]
  | cons line lines ih =>
      have hrest := ih (hvalues.recordLine line)
      simp only [List.append_assoc, ← linesGive_cons] at hrest
      exact hrest

theorem Collected.recordSources {values : SettingTable} {collected : String → List String}
    (hvalues : Collected values collected) (sources : List InstructionSource) :
    Collected (sources.foldl (fun values source =>
      (textLines source.content).foldl Patchwright.recordLine values) values) fun key =>
        collected key ++ given sources key := by
  induction sources generalizing values collected with
  | nil => simpa only [given, List.flatMap_nil, List.append_nil]
  | cons source sources ih =>
      have hrest := ih (hvalues.recordLines (textLines source.content))
      simp only [List.append_assoc] at hrest
      exact hrest

theorem exists_last_source {sources : List InstructionSource} {key : String}
    (hne : given sources key ≠ []) : ∃ before source after, sources = before ++ source :: after ∧
      (source.given key).getLast? = (given sources key).getLast? ∧
      ∀ later ∈ after, later.given key = [] := by
  induction sources with
  | nil => exact absurd rfl hne
  | cons source sources ih =>
      by_cases hrest : given sources key = []
      · refine ⟨[], source, sources, rfl, ?_, fun later hlater => ?_⟩
        · rw [given, List.flatMap_cons, ← given, hrest, List.append_nil]
        · exact List.flatMap_eq_nil_iff.mp hrest later hlater
      · obtain ⟨before, last, after, rfl, hlast, hafter⟩ := ih hrest
        refine ⟨source :: before, last, after, rfl, ?_, hafter⟩
        rw [hlast]
        exact (List.getLast?_append_of_ne_nil _ hrest).symm

/-! ## The resolution -/

section Resolution

open InstructionResolver

variable (sources : List InstructionSource)

theorem resolve_sources : (resolve sources).sources =
    Sorting.sortByKey compare InstructionSource.kind sources := rfl

theorem given_perm {sources sorted : List InstructionSource} (hperm : sorted.Perm sources)
    {key value : String} : value ∈ given sorted key ↔ value ∈ given sources key :=
  (hperm.flatMap_right _).mem_iff

/-- The entries of the table are the keys with the values given to them. -/
theorem mem_table_iff {values : SettingTable} {collected : String → List String}
    (hvalues : Collected values collected) {entry : String × List String} :
    entry ∈ values.toList ↔ collected entry.1 ≠ [] ∧ entry.2 = collected entry.1 := by
  rw [← Prod.mk.eta (p := entry), Std.TreeMap.mem_toList_iff_getElem?_eq_some, hvalues entry.1]
  split
  next hnone => exact iff_of_false nofun fun h => h.1 hnone
  next hsome =>
    exact ⟨fun heq => ⟨hsome, (Option.some.inj heq).symm⟩, fun h => congrArg some h.2.symm⟩

/-- A conflict is reported exactly for a key with two values. -/
theorem mem_conflicts_iff {conflict : InstructionConflict} :
    conflict ∈ (resolve sources).conflicts ↔
      conflict.values = given (resolve sources).sources conflict.key ∧
        (∃ first ∈ conflict.values, ∃ second ∈ conflict.values, first ≠ second) ∧
          conflict.effectiveValue = conflict.values.getLast?.getD "" := by
  have hempty : Collected ∅ fun _ => [] := fun key => by
    rw [Std.TreeMap.getElem?_emptyc, if_pos rfl]
  have htable := hempty.recordSources (resolve sources).sources
  simp only [List.nil_append] at htable
  rw [resolve, List.mem_map]
  simp only [List.mem_filter, mem_table_iff htable, ← resolve_sources, neighboursDiffer_iff]
  constructor
  · rintro ⟨entry, ⟨⟨-, hvalues⟩, hdiffer⟩, rfl⟩
    exact ⟨hvalues, hdiffer, rfl⟩
  · rintro ⟨hvalues, hdiffer, heffective⟩
    obtain ⟨first, hfirst, -⟩ := id hdiffer
    refine ⟨(conflict.key, conflict.values), ⟨⟨?_, hvalues⟩, hdiffer⟩, ?_⟩
    · exact List.ne_nil_of_mem (hvalues ▸ hfirst)
    · rw [← heffective]

theorem resolve_spec : Resolves sources (resolve sources) where
  precedence := Sorting.sortByKey_isStableSort sources
  keys := fun key => by
    have hperm : (resolve sources).sources.Perm sources := Sorting.sortBy_perm _ sources
    constructor
    · rintro ⟨conflict, hconflict, rfl⟩
      obtain ⟨hvalues, ⟨first, hfirst, second, hsecond, hne⟩, -⟩ :=
        (mem_conflicts_iff sources).mp hconflict
      rw [hvalues] at hfirst hsecond
      exact ⟨first, (given_perm hperm).mp hfirst, second, (given_perm hperm).mp hsecond, hne⟩
    · rintro ⟨first, hfirst, second, hsecond, hne⟩
      let values := given (resolve sources).sources key
      refine ⟨⟨key, values, values.getLast?.getD ""⟩, (mem_conflicts_iff sources).mpr
        ⟨rfl, ⟨first, ?_, second, ?_, hne⟩, rfl⟩, rfl⟩
      · exact (given_perm hperm).mpr hfirst
      · exact (given_perm hperm).mpr hsecond
  once := by
    rw [resolve, List.pairwise_map]
    exact (Std.TreeMap.ordered_keys_toList).filter _
  values := fun conflict hconflict => ((mem_conflicts_iff sources).mp hconflict).1
  effective := fun conflict hconflict => by
    obtain ⟨hvalues, ⟨first, hfirst, -⟩, heffective⟩ := (mem_conflicts_iff sources).mp hconflict
    rw [hvalues] at hfirst heffective
    obtain ⟨before, source, after, hsplit, hlast, hafter⟩ :=
      exists_last_source (List.ne_nil_of_mem hfirst)
    refine ⟨before, source, after, hsplit, ?_, hafter⟩
    rw [hlast, heffective, List.getLast?_eq_some_getLast (List.ne_nil_of_mem hfirst),
      Option.getD_some]

/-- The resolution depends on the order of the sources within each kind only. -/
theorem resolve_congr {shuffled : List InstructionSource}
    (hsame : ∀ kind, (shuffled.filter fun source => source.kind = kind) =
      sources.filter fun source => source.kind = kind) : resolve shuffled = resolve sources := by
  rw [resolve, resolve, Sorting.sortByKey_congr hsame]

/-- The result is what the settings of the sources ask for, and the same for
every order of the sources that keeps those of one kind in order. -/
theorem resolve_exact : Resolves sources (resolve sources) ∧
    ∀ shuffled : List InstructionSource,
      (∀ kind, (shuffled.filter fun source => source.kind = kind) =
        sources.filter fun source => source.kind = kind) → resolve shuffled = resolve sources :=
  ⟨resolve_spec sources, fun _ => resolve_congr sources⟩

example : (resolve
    [{ kind := .task, location := "task", content := "network: allow\r\nrun tests\nnetwork : deny"
       contentSha256 := "", enforced := false }]).conflicts =
    [{ key := "network", values := ["allow", "deny"], effectiveValue := "deny" }] := by
  decide +kernel

end Resolution

end Patchwright
