import Patchwright.Library.Checked
import Patchwright.Library.Table

/-!
# Schemas of a relational store

Scripts that build a schema: tables and indexes created where they are missing,
and columns added to tables.  What a statement does to the schema depends on
the schema alone, up to the one check that looks at rows, that of a unique index
on the rows its table has.  Rows are kept by every statement; a column that is
added is NULL in them.
-/

namespace Schema

open Checked

/-- A column with the rest of its declaration. -/
structure Column where
  name : String
  declaration : String
  deriving DecidableEq, Repr

/-- The columns of a table and its table constraints. -/
structure Layout where
  columns : List Column
  constraints : List String
  deriving DecidableEq, Repr

def Layout.names (layout : Layout) : List String := layout.columns.map Column.name

/-- An index over columns of a table.  A partial index is over the rows in which
a column is NULL. -/
structure Index where
  table : String
  columns : List String
  unique : Bool
  whereNull : Option String
  deriving DecidableEq, Repr

/-- A row has one value for each column; `none` is NULL. -/
structure Relation (ν : Type) where
  layout : Layout
  rows : List (List (Option ν))
  widths : ∀ row ∈ rows, row.length = layout.columns.length

/-- What a name of the schema stands for. -/
inductive Object (ν : Type) where
  | table (relation : Relation ν)
  | index (index : Index)

/-- An object without its rows. -/
inductive Shape where
  | table (layout : Layout)
  | index (index : Index)
  deriving DecidableEq, Repr

/-- The objects of a database under their names. -/
abbrev Database (ν : Type) := Table String (Object ν)

inductive Statement where
  | createTable (name : String) (layout : Layout)
  | createIndex (name : String) (index : Index)
  | addColumn (table : String) (column : Column)
  deriving DecidableEq, Repr

/-- The names a statement is about. -/
def Statement.touched : Statement → List String
  | .createTable name _ => [name]
  | .createIndex name index => [name, index.table]
  | .addColumn table _ => [table]

/-- The table of a unique index to be created. -/
def Statement.uniqueTable : Statement → Option String
  | .createIndex _ index => if index.unique then some index.table else none
  | .createTable .. | .addColumn .. => none

section Rows

variable {ν : Type}

/-- The value a row has in a column. -/
def Layout.value (layout : Layout) (row : List (Option ν)) (name : String) : Option ν :=
  (row[layout.names.idxOf name]?).join

/-- The key an index has for a row, unless one of its columns is NULL or the
index is not about the row. -/
def Index.key (index : Index) (layout : Layout) (row : List (Option ν)) : Option (List ν) :=
  if index.whereNull.all fun name => (layout.value row name).isNone then
    index.columns.mapM (layout.value row)
  else none

/-- No two rows have one key. -/
def Index.Holds (index : Index) (relation : Relation ν) : Prop :=
  index.unique = true → (relation.rows.filterMap (index.key relation.layout)).Nodup

instance [DecidableEq ν] (index : Index) (relation : Relation ν) :
    Decidable (index.Holds relation) := inferInstanceAs (Decidable (_ → _))

/-- A table with one more column. -/
def Relation.extend (relation : Relation ν) (column : Column) : Relation ν where
  layout := { relation.layout with columns := relation.layout.columns ++ [column] }
  rows := relation.rows.map fun row => row ++ [none]
  widths := by
    intro row hrow
    obtain ⟨old, hold, rfl⟩ := List.mem_map.mp hrow
    rw [List.length_append, List.length_append, relation.widths old hold]
    rfl

theorem Relation.extend_layout (relation : Relation ν) (column : Column) :
    (relation.extend column).layout =
      { relation.layout with columns := relation.layout.columns ++ [column] } := rfl

def Relation.empty (layout : Layout) : Relation ν := ⟨layout, [], nofun⟩

def Object.shape : Object ν → Shape
  | .table relation => .table relation.layout
  | .index found => .index found

def shape? (database : Database ν) (name : String) : Option Shape :=
  (database.lookup name).map Object.shape

/-- The table of a name. -/
def relation? (database : Database ν) (name : String) : Option (Relation ν) :=
  match database.lookup name with
  | some (.table relation) => some relation
  | _ => none

/-- Run one statement. -/
def exec [DecidableEq ν] (statement : Statement) (database : Database ν) :
    Except String (Database ν) :=
  match statement with
  | .createTable name layout =>
      match database.lookup name with
      | some (.table _) => .ok database
      | some (.index _) => .error s!"there is already an index named {name}"
      | none => .ok (database.insert name (.table (.empty layout)))
  | .createIndex name index =>
      match database.lookup name with
      | some (.index _) => .ok database
      | some (.table _) => .error s!"there is already a table named {name}"
      | none => do
          let relation ← okOr s!"no such table: {index.table}" (relation? database index.table)
          ensure (∀ column ∈ index.columns ++ index.whereNull.toList,
            column ∈ relation.layout.names) "no such column"
          ensure (index.Holds relation) "UNIQUE constraint failed"
          return database.insert name (.index index)
  | .addColumn table column => do
      let relation ← okOr s!"no such table: {table}" (relation? database table)
      ensure (column.name ∉ relation.layout.names) s!"duplicate column name: {column.name}"
      return database.insert table (.table (relation.extend column))

def run [DecidableEq ν] (script : List Statement) (database : Database ν) :
    Except String (Database ν) :=
  script.foldlM (fun database statement => exec statement database) database

end Rows

/-! ## Schemas -/

section Shapes

variable {ν : Type} {μ : Type}

/-- Two databases have the same objects, rows aside. -/
def SameSchema (left : Database ν) (right : Database μ) : Prop :=
  ∀ name, shape? left name = shape? right name

/-- The objects of one database are in another. -/
def Contained (left : Database ν) (right : Database μ) : Prop :=
  ∀ name shape, shape? left name = some shape → shape? right name = some shape

theorem SameSchema.refl (database : Database ν) : SameSchema database database := fun _ => rfl

theorem SameSchema.symm {left : Database ν} {right : Database μ}
    (hsame : SameSchema left right) : SameSchema right left := fun name => (hsame name).symm

theorem SameSchema.trans {left middle right : Database ν} (hfirst : SameSchema left middle)
    (hsecond : SameSchema middle right) : SameSchema left right :=
  fun name => (hfirst name).trans (hsecond name)

theorem Contained.empty (right : Database μ) : Contained (∅ : Database ν) right := by
  intro name shape hshape
  rw [shape?, AList.lookup_empty] at hshape
  cases hshape

/-- Databases that hold each other's objects have the same schema. -/
theorem Contained.antisymm {left : Database ν} {right : Database μ}
    (hleft : Contained left right) (hright : Contained right left) : SameSchema left right := by
  intro name
  cases hshape : shape? left name with
  | some shape => exact (hleft name shape hshape).symm
  | none =>
      cases hother : shape? right name with
      | none => rfl
      | some shape =>
          rw [hright name shape hother] at hshape
          cases hshape

theorem shape?_insert (database : Database ν) (name other : String) (object : Object ν) :
    shape? (database.insert name object) other =
      if other = name then some object.shape else shape? database other := by
  rw [shape?, AList.lookup_insert_eq, shape?]
  split <;> rfl

theorem shape?_eq_none {database : Database ν} {name : String} :
    shape? database name = none ↔ database.lookup name = none := Option.map_eq_none_iff

theorem relation?_eq_some {database : Database ν} {name : String} {relation : Relation ν} :
    relation? database name = some relation ↔ database.lookup name = some (.table relation) := by
  rw [relation?]
  cases database.lookup name with
  | none => exact iff_of_false nofun nofun
  | some object =>
      cases object with
      | index found => exact iff_of_false nofun nofun
      | table found =>
          constructor
          · rintro ⟨⟩
            rfl
          · rintro ⟨⟩
            rfl

theorem shape?_of_relation? {database : Database ν} {name : String} {relation : Relation ν}
    (hrelation : relation? database name = some relation) :
    shape? database name = some (.table relation.layout) := by
  rw [shape?, relation?_eq_some.1 hrelation]
  rfl

theorem exists_relation {database : Database ν} {name : String} {layout : Layout}
    (hshape : shape? database name = some (.table layout)) :
    ∃ relation, relation? database name = some relation ∧ relation.layout = layout := by
  obtain ⟨object, hobject, hlayout⟩ := Option.map_eq_some_iff.mp hshape
  cases object with
  | index found => cases hlayout
  | table relation =>
      cases hlayout
      exact ⟨relation, relation?_eq_some.2 hobject, rfl⟩

/-- The object a statement makes, and the name it makes it under.  A statement
that finds what it would create makes nothing. -/
inductive Makes (database : Database ν) : Statement → Option (String × Object ν) → Prop
  | createTable {name layout} (hnone : database.lookup name = none) :
      Makes database (.createTable name layout) (some (name, .table (.empty layout)))
  | tableExists {name layout} (hshape : ∃ found, shape? database name = some (.table found)) :
      Makes database (.createTable name layout) none
  | createIndex {name index relation} (hnone : database.lookup name = none)
      (hrelation : relation? database index.table = some relation)
      (hcolumns : ∀ column ∈ index.columns ++ index.whereNull.toList,
        column ∈ relation.layout.names) (hholds : index.Holds relation) :
      Makes database (.createIndex name index) (some (name, .index index))
  | indexExists {name index} (hshape : ∃ found, shape? database name = some (.index found)) :
      Makes database (.createIndex name index) none
  | addColumn {table column relation} (hrelation : relation? database table = some relation)
      (hnew : column.name ∉ relation.layout.names) :
      Makes database (.addColumn table column) (some (table, .table (relation.extend column)))

/-- The database with what a statement makes. -/
def make (database : Database ν) : Option (String × Object ν) → Database ν
  | none => database
  | some (name, object) => database.insert name object

theorem shape?_make (database : Database ν) (made : Option (String × Object ν)) (name : String) :
    shape? (make database made) name =
      match made with
      | some (other, object) => if name = other then some object.shape else shape? database name
      | none => shape? database name := by
  cases made with
  | none => rfl
  | some entry => exact shape?_insert database entry.1 name entry.2

theorem Index.holds_of_rows {index : Index} {relation : Relation ν}
    (hrows : index.unique = true → relation.rows = []) : index.Holds relation := by
  intro hunique
  rw [hrows hunique]
  exact List.nodup_nil

/-- What is made looks the same on databases with the same schema. -/
theorem Makes.shape_eq {statement : Statement} {left : Database ν} {right : Database μ}
    {made : Option (String × Object ν)} {other : Option (String × Object μ)}
    (hsame : SameSchema left right) (hleft : Makes left statement made)
    (hright : Makes right statement other) :
    made.map (fun entry => (entry.1, entry.2.shape)) =
      other.map fun entry => (entry.1, entry.2.shape) := by
  have habsent : ∀ {name : String} {shape : Shape}, left.lookup name = none →
      shape? right name = some shape → False := fun hnone hshape => by
    rw [← hsame, shape?_eq_none.2 hnone] at hshape
    cases hshape
  have hmissing : ∀ {name : String} {shape : Shape}, right.lookup name = none →
      shape? left name = some shape → False := fun hnone hshape => by
    rw [hsame, shape?_eq_none.2 hnone] at hshape
    cases hshape
  cases hleft with
  | createTable hnone =>
      cases hright with
      | createTable => rfl
      | tableExists hshape => exact (habsent hnone hshape.choose_spec).elim
  | tableExists hshape =>
      cases hright with
      | createTable hnone => exact (hmissing hnone hshape.choose_spec).elim
      | tableExists => rfl
  | createIndex hnone =>
      cases hright with
      | createIndex => rfl
      | indexExists hshape => exact (habsent hnone hshape.choose_spec).elim
  | indexExists hshape =>
      cases hright with
      | createIndex hnone => exact (hmissing hnone hshape.choose_spec).elim
      | indexExists => rfl
  | @addColumn table column relation hrelation hnew =>
      cases hright with
      | @addColumn _ _ other hother _ =>
          have hlayout : relation.layout = other.layout := by
            have hshapes := hsame table
            rw [shape?_of_relation? hrelation, shape?_of_relation? hother] at hshapes
            exact Shape.table.inj (Option.some_inj.mp hshapes)
          have hextended : (relation.extend column).layout = (other.extend column).layout := by
            rw [Relation.extend_layout, Relation.extend_layout, hlayout]
          rw [Option.map_some, Option.map_some, Object.shape, Object.shape, hextended]

end Shapes

/-! ## What a statement does -/

section Effects

variable {ν μ : Type} [DecidableEq ν] [DecidableEq μ]

/-- A statement succeeds exactly when it makes something or finds it made. -/
theorem exec_eq_ok {statement : Statement} {database after : Database ν} :
    exec statement database = .ok after ↔
      ∃ made, Makes database statement made ∧ make database made = after := by
  cases statement with
  | createTable name layout =>
      rw [exec]
      cases hlookup : database.lookup name with
      | none =>
          constructor
          · intro h
            exact ⟨_, .createTable hlookup, Except.ok.inj h⟩
          · rintro ⟨_, hmakes, rfl⟩
            cases hmakes with
            | createTable => rfl
            | tableExists hshape =>
                obtain ⟨found, hfound⟩ := hshape
                rw [shape?_eq_none.2 hlookup] at hfound
                cases hfound
      | some object =>
          cases object with
          | table relation =>
              have hshape : shape? database name = some (.table relation.layout) :=
                shape?_of_relation? (relation?_eq_some.2 hlookup)
              constructor
              · intro h
                exact ⟨none, .tableExists ⟨_, hshape⟩, Except.ok.inj h⟩
              · rintro ⟨_, hmakes, rfl⟩
                cases hmakes with
                | createTable hnone =>
                    rw [hlookup] at hnone
                    cases hnone
                | tableExists => rfl
          | index found =>
              constructor
              · intro h
                cases h
              · rintro ⟨_, hmakes, rfl⟩
                cases hmakes with
                | createTable hnone =>
                    rw [hlookup] at hnone
                    cases hnone
                | tableExists hshape =>
                    obtain ⟨layout, hlayout⟩ := hshape
                    rw [shape?, hlookup] at hlayout
                    cases hlayout
  | createIndex name index =>
      rw [exec]
      cases hlookup : database.lookup name with
      | none =>
          dsimp only
          simp only [bind_eq_ok, okOr_eq_ok, ensure_eq_ok, pure_eq_ok, exists_const]
          constructor
          · rintro ⟨relation, hrelation, hcolumns, hholds, rfl⟩
            exact ⟨_, .createIndex hlookup hrelation hcolumns hholds, rfl⟩
          · rintro ⟨_, hmakes, rfl⟩
            cases hmakes with
            | createIndex _ hrelation hcolumns hholds =>
                exact ⟨_, hrelation, hcolumns, hholds, rfl⟩
            | indexExists hshape =>
                obtain ⟨found, hfound⟩ := hshape
                rw [shape?_eq_none.2 hlookup] at hfound
                cases hfound
      | some object =>
          cases object with
          | index found =>
              have hshape : shape? database name = some (.index found) := by
                rw [shape?, hlookup]
                rfl
              constructor
              · intro h
                exact ⟨none, .indexExists ⟨_, hshape⟩, Except.ok.inj h⟩
              · rintro ⟨_, hmakes, rfl⟩
                cases hmakes with
                | createIndex hnone =>
                    rw [hlookup] at hnone
                    cases hnone
                | indexExists => rfl
          | table relation =>
              constructor
              · intro h
                cases h
              · rintro ⟨_, hmakes, rfl⟩
                cases hmakes with
                | createIndex hnone =>
                    rw [hlookup] at hnone
                    cases hnone
                | indexExists hshape =>
                    obtain ⟨found, hfound⟩ := hshape
                    rw [shape?, hlookup] at hfound
                    cases hfound
  | addColumn table column =>
      rw [exec]
      simp only [bind_eq_ok, okOr_eq_ok, ensure_eq_ok, pure_eq_ok, exists_const]
      constructor
      · rintro ⟨relation, hrelation, hnew, rfl⟩
        exact ⟨_, .addColumn hrelation hnew, rfl⟩
      · rintro ⟨_, hmakes, rfl⟩
        cases hmakes with
        | addColumn hrelation hnew => exact ⟨_, hrelation, hnew, rfl⟩

/-- Statements keep databases with the same schema together. -/
theorem exec_sameSchema {statement : Statement} {left leftAfter : Database ν}
    {right rightAfter : Database μ} (hsame : SameSchema left right)
    (hleft : exec statement left = .ok leftAfter) (hright : exec statement right = .ok rightAfter) :
    SameSchema leftAfter rightAfter := by
  obtain ⟨made, hmade, rfl⟩ := exec_eq_ok.1 hleft
  obtain ⟨other, hother, rfl⟩ := exec_eq_ok.1 hright
  have hshape := hmade.shape_eq hsame hother
  intro name
  rw [shape?_make, shape?_make]
  cases made with
  | none =>
      cases other with
      | none => exact hsame name
      | some entry => cases hshape
  | some entry =>
      cases other with
      | none => cases hshape
      | some found =>
          obtain ⟨hname, hobject⟩ := Prod.mk.inj (Option.some_inj.mp hshape)
          dsimp only
          rw [hname, hobject, hsame name]

/-- The database is one on which a unique index that is still to be made cannot
fail: its table has no rows. -/
def Quiet (script : List Statement) (database : Database ν) : Prop :=
  ∀ name index, Statement.createIndex name index ∈ script → index.unique = true →
    shape? database name ≠ none ∨
      ∀ relation, relation? database index.table = some relation → relation.rows = []

/-- A statement that succeeds on a database succeeds on a quiet one with the
same schema. -/
theorem exec_isOk {statement : Statement} {left : Database ν} {right rightAfter : Database μ}
    (hsame : SameSchema left right) (hquiet : Quiet [statement] left)
    (hright : exec statement right = .ok rightAfter) :
    ∃ leftAfter, exec statement left = .ok leftAfter := by
  obtain ⟨other, hother, _⟩ := exec_eq_ok.1 hright
  have habsent : ∀ {name : String}, right.lookup name = none → left.lookup name = none :=
    fun hnone => shape?_eq_none.1 ((hsame _).trans (shape?_eq_none.2 hnone))
  have hfound : ∀ {table : String} {relation : Relation μ}, relation? right table = some relation →
      ∃ found, relation? left table = some found ∧ found.layout = relation.layout :=
    fun hrelation => exists_relation ((hsame _).trans (shape?_of_relation? hrelation))
  have hmakes : ∃ made, Makes left statement made := by
    cases hother with
    | createTable hnone => exact ⟨_, .createTable (habsent hnone)⟩
    | tableExists hshape =>
        obtain ⟨found, hshape⟩ := hshape
        exact ⟨_, .tableExists ⟨found, (hsame _).trans hshape⟩⟩
    | @createIndex name index relation hnone hrelation hcolumns hholds =>
        obtain ⟨found, hleft, hlayout⟩ := hfound hrelation
        refine ⟨_, .createIndex (habsent hnone) hleft (hlayout ▸ hcolumns) ?_⟩
        apply Index.holds_of_rows
        intro hunique
        rcases hquiet name index List.mem_cons_self hunique with hshape | hrows
        · exact absurd (shape?_eq_none.2 (habsent hnone)) hshape
        · exact hrows found hleft
    | indexExists hshape =>
        obtain ⟨found, hshape⟩ := hshape
        exact ⟨_, .indexExists ⟨found, (hsame _).trans hshape⟩⟩
    | addColumn hrelation hnew =>
        obtain ⟨found, hleft, hlayout⟩ := hfound hrelation
        exact ⟨_, .addColumn hleft (hlayout ▸ hnew)⟩
  obtain ⟨made, hmade⟩ := hmakes
  exact ⟨_, exec_eq_ok.2 ⟨made, hmade, rfl⟩⟩

end Effects

/-! ## What is kept -/

section Kept

variable {ν : Type}

/-- The rows of a table have the values they had, NULL in columns that were
added, and more rows may have come behind them. -/
def Relation.Extends (old new : Relation ν) (more : List (List (Option ν))) : Prop :=
  ∃ added : List Column,
    new.layout = { old.layout with columns := old.layout.columns ++ added } ∧
    new.rows = (old.rows.map fun row => row ++ List.replicate added.length none) ++ more

/-- Nothing of a database is lost.  Rows are added to one table at most, its
log, and new tables are empty. -/
structure Kept (log : String) (before after : Database ν) : Prop where
  tables : ∀ name relation, relation? before name = some relation →
    ∃ extended more, relation? after name = some extended ∧ relation.Extends extended more ∧
      (name ≠ log → more = [])
  indexes : ∀ name index, before.lookup name = some (.index index) →
    after.lookup name = some (.index index)
  fresh : ∀ name relation, name ≠ log → relation? before name = none →
    relation? after name = some relation → relation.rows = []

theorem Relation.Extends.refl (relation : Relation ν) : relation.Extends relation [] := by
  refine ⟨[], ?_, ?_⟩
  · rw [List.append_nil]
  · have hsame : (fun row : List (Option ν) => row ++ List.replicate 0 none) = id := by
      funext row
      exact List.append_nil row
    rw [List.append_nil, List.length_nil, hsame, List.map_id]

theorem Relation.Extends.trans {old middle new : Relation ν} {more later : List (List (Option ν))}
    (hfirst : old.Extends middle more) (hsecond : middle.Extends new later) :
    ∃ all, old.Extends new all ∧ (more = [] → later = [] → all = []) := by
  obtain ⟨added, hlayout, hrows⟩ := hfirst
  obtain ⟨further, hnext, hnextRows⟩ := hsecond
  refine ⟨more.map (fun row => row ++ List.replicate further.length none) ++ later,
    ⟨added ++ further, ?_, ?_⟩, ?_⟩
  · rw [hnext, hlayout, List.append_assoc]
  · have hcompose : (fun row : List (Option ν) => row ++ List.replicate further.length none) ∘
        (fun row => row ++ List.replicate added.length none) =
        fun row => row ++ List.replicate (added ++ further).length none := by
      funext row
      rw [Function.comp_apply, List.append_assoc, List.replicate_append_replicate,
        List.length_append]
    rw [hnextRows, hrows, List.map_append, List.map_map, hcompose, List.append_assoc]
  · rintro rfl rfl
    rfl

theorem Relation.extends_extend (relation : Relation ν) (column : Column) :
    relation.Extends (relation.extend column) [] := by
  refine ⟨[column], rfl, ?_⟩
  rw [List.append_nil]
  rfl

variable {log : String} {before middle after : Database ν}

theorem relation?_insert_table (database : Database ν) (name other : String)
    (relation : Relation ν) :
    relation? (database.insert name (.table relation)) other =
      if other = name then some relation else relation? database other := by
  rw [relation?, AList.lookup_insert_eq]
  by_cases hother : other = name
  · rw [if_pos hother, if_pos hother]
  · rw [if_neg hother, if_neg hother, relation?]

theorem Kept.refl (log : String) (database : Database ν) : Kept log database database where
  tables name relation hrelation := ⟨relation, [], hrelation, .refl relation, fun _ => rfl⟩
  indexes _ _ hindex := hindex
  fresh name relation _ hnone hsome := by
    rw [hnone] at hsome
    cases hsome

theorem Kept.trans (hfirst : Kept log before middle) (hsecond : Kept log middle after) :
    Kept log before after where
  tables name relation hrelation := by
    obtain ⟨between, more, hbetween, hextends, hmore⟩ := hfirst.tables name relation hrelation
    obtain ⟨last, later, hlast, hnext, hlater⟩ := hsecond.tables name between hbetween
    obtain ⟨all, hall, hnone⟩ := hextends.trans hnext
    exact ⟨last, all, hlast, hall, fun hname => hnone (hmore hname) (hlater hname)⟩
  indexes name index hindex := hsecond.indexes name index (hfirst.indexes name index hindex)
  fresh name relation hname hnone hsome := by
    cases hmiddle : relation? middle name with
    | none => exact hsecond.fresh name relation hname hmiddle hsome
    | some between =>
        obtain ⟨last, more, hlast, ⟨added, _, hrows⟩, hmore⟩ :=
          hsecond.tables name between hmiddle
        rw [hsome] at hlast
        cases hlast
        rw [hrows, hmore hname, hfirst.fresh name between hname hnone hmiddle]
        rfl

/-- Nothing is lost by what a statement makes. -/
theorem Makes.kept {statement : Statement} {made : Option (String × Object ν)}
    (hmakes : Makes before statement made) (log : String) : Kept log before (make before made) := by
  have hnotIndex : ∀ {name : String} {relation : Relation ν} {index : Index},
      relation? before name = some relation → before.lookup name ≠ some (.index index) := by
    intro name relation index hrelation hindex
    rw [relation?_eq_some.1 hrelation] at hindex
    cases hindex
  have hnotNone : ∀ {name other : String} {object : Object ν}, before.lookup name = none →
      before.lookup other = some object → other ≠ name := by
    rintro name other object hnone hsome rfl
    rw [hnone] at hsome
    cases hsome
  cases hmakes with
  | tableExists | indexExists => exact .refl log before
  | @createTable name layout hnone =>
      refine ⟨fun other relation hrelation => ?_, fun other index hindex => ?_,
        fun other relation _ hbefore hafter => ?_⟩
      · have hother := hnotNone hnone (relation?_eq_some.1 hrelation)
        refine ⟨relation, [], ?_, .refl relation, fun _ => rfl⟩
        rw [make, relation?_insert_table, if_neg hother]
        exact hrelation
      · rw [make, AList.lookup_insert_ne (hnotNone hnone hindex)]
        exact hindex
      · rw [make, relation?_insert_table, hbefore] at hafter
        split at hafter
        case isTrue =>
          cases hafter
          rfl
        case isFalse => cases hafter
  | @createIndex name index relation hnone =>
      have hsame : ∀ other, relation? (before.insert name (.index index)) other =
          relation? before other := by
        intro other
        rw [relation?, AList.lookup_insert_eq]
        by_cases hother : other = name
        · rw [if_pos hother, relation?, hother, hnone]
        · rw [if_neg hother, relation?]
      refine ⟨fun other found hfound => ?_, fun other found hfound => ?_,
        fun other found _ hbefore hafter => ?_⟩
      · exact ⟨found, [], (hsame other).trans hfound, .refl found, fun _ => rfl⟩
      · rw [make, AList.lookup_insert_ne (hnotNone hnone hfound)]
        exact hfound
      · rw [make, hsame, hbefore] at hafter
        cases hafter
  | @addColumn table column relation hrelation hnew =>
      refine ⟨fun other found hfound => ?_, fun other index hindex => ?_,
        fun other found _ hbefore hafter => ?_⟩
      · rw [make, relation?_insert_table]
        split
        case isTrue hother =>
          subst hother
          rw [hrelation] at hfound
          cases hfound
          exact ⟨_, [], rfl, relation.extends_extend column, fun _ => rfl⟩
        case isFalse => exact ⟨found, [], hfound, .refl found, fun _ => rfl⟩
      · have hother : other ≠ table := by
          rintro rfl
          exact hnotIndex hrelation hindex
        rw [make, AList.lookup_insert_ne hother]
        exact hindex
      · rw [make, relation?_insert_table] at hafter
        split at hafter
        case isTrue hother =>
          rw [hother, hrelation] at hbefore
          cases hbefore
        case isFalse =>
          rw [hbefore] at hafter
          cases hafter

theorem Kept.shape_ne_none (hkept : Kept log before after) {name : String}
    (hshape : shape? before name ≠ none) : shape? after name ≠ none := by
  cases hlookup : before.lookup name with
  | none => exact absurd (shape?_eq_none.2 hlookup) hshape
  | some object =>
      cases object with
      | table relation =>
          obtain ⟨extended, _, hextended, _⟩ :=
            hkept.tables name relation (relation?_eq_some.2 hlookup)
          rw [shape?_of_relation? hextended]
          exact nofun
      | index found =>
          rw [shape?, hkept.indexes name found hlookup]
          exact nofun

/-- A database from which nothing is lost stays quiet, where the scripts index
other tables than the log. -/
theorem Quiet.of_kept {script : List Statement} (hquiet : Quiet script before)
    (hkept : Kept log before after)
    (hlog : ∀ statement ∈ script, log ∉ statement.touched) : Quiet script after := by
  intro name index hmem hunique
  have htable : index.table ≠ log := fun hsame =>
    hlog _ hmem (List.mem_cons_of_mem _ (List.mem_singleton.mpr hsame.symm))
  refine (hquiet name index hmem hunique).imp hkept.shape_ne_none fun hrows relation hafter => ?_
  cases hbefore : relation? before index.table with
  | none => exact hkept.fresh _ relation htable hbefore hafter
  | some old =>
      obtain ⟨extended, more, hextended, ⟨added, _, hnew⟩, hmore⟩ :=
        hkept.tables index.table old hbefore
      rw [hafter] at hextended
      cases hextended
      rw [hnew, hrows old hbefore, hmore htable]
      rfl

/-- Where the tables of the unique indexes are still to be created, a database
is quiet. -/
theorem Quiet.of_absent {μ : Type} {script : List Statement} {reference : Database μ}
    (hsame : SameSchema before reference)
    (habsent : ∀ statement ∈ script, ∀ table ∈ statement.uniqueTable,
      shape? reference table = none) : Quiet script before := by
  intro name index hmem hunique
  right
  intro relation hrelation
  have hshape := shape?_of_relation? hrelation
  rw [hsame, habsent _ hmem index.table (if_pos hunique)] at hshape
  cases hshape

theorem Quiet.mono {script smaller : List Statement} (hquiet : Quiet script before)
    (hsubset : smaller ⊆ script) : Quiet smaller before :=
  fun name index hmem => hquiet name index (hsubset hmem)

end Kept

/-! ## Scripts -/

section Creates

variable {ν μ : Type}

/-- The statement creates a table or an index where it is missing. -/
def Statement.IsCreate : Statement → Prop
  | .createTable .. | .createIndex .. => True
  | .addColumn .. => False

instance (statement : Statement) : Decidable statement.IsCreate :=
  match statement with
  | .createTable .. | .createIndex .. => isTrue trivial
  | .addColumn .. => isFalse id

theorem Makes.shape_kept {statement : Statement} {before : Database ν}
    {made : Option (String × Object ν)} (hmakes : Makes before statement made)
    (hcreate : statement.IsCreate) : Contained before (make before made) := by
  intro name shape hshape
  rw [shape?_make]
  cases hmakes with
  | tableExists | indexExists => exact hshape
  | createTable hnone | createIndex hnone =>
      dsimp only
      rw [if_neg]
      · exact hshape
      · rintro rfl
        rw [shape?_eq_none.2 hnone] at hshape
        cases hshape
  | addColumn => exact hcreate.elim

theorem Contained.insert_left {left : Database ν} {right : Database μ} {name : String}
    {object : Object ν} (hcontained : Contained left right)
    (hname : shape? right name = some object.shape) :
    Contained (left.insert name object) right := by
  intro other shape hshape
  rw [shape?_insert] at hshape
  split at hshape
  case isTrue hother => rwa [hother, hname]
  case isFalse => exact hcontained other shape hshape

theorem Contained.insert {left : Database ν} {right : Database μ}
    (hcontained : Contained left right) (name : String) {object : Object ν} {other : Object μ} (hshape : object.shape = other.shape) :
    Contained (left.insert name object) (right.insert name other) := by
  intro found shape hfound
  rw [shape?_insert] at hfound ⊢
  split at hfound
  case isTrue hname => rwa [if_pos hname, ← hshape]
  case isFalse hname =>
    rw [if_neg hname]
    exact hcontained found shape hfound

/-- A database between the steps of another one and their end keeps up with
them. -/
theorem Makes.between {statement : Statement} {left : Database ν} {right final : Database μ}
    {made : Option (String × Object μ)} (hmakes : Makes right statement made)
    (hcreate : statement.IsCreate) (hquiet : Quiet [statement] left)
    (hlower : Contained right left) (hupper : Contained left final)
    (hfinal : Contained (make right made) final) :
    ∃ own, Makes left statement own ∧ Contained (make right made) (make left own) ∧
      Contained (make left own) final := by
  have hlast : ∀ {name : String} {object : Object μ}, made = some (name, object) →
      shape? final name = some object.shape := by
    rintro name object rfl
    apply hfinal name object.shape
    rw [make, shape?_insert, if_pos rfl]
  cases hmakes with
  | tableExists hshape =>
      obtain ⟨layout, hshape⟩ := hshape
      exact ⟨none, .tableExists ⟨layout, hlower _ _ hshape⟩, hlower, hupper⟩
  | indexExists hshape =>
      obtain ⟨found, hshape⟩ := hshape
      exact ⟨none, .indexExists ⟨found, hlower _ _ hshape⟩, hlower, hupper⟩
  | @createTable name layout =>
      cases hshape : shape? left name with
      | none =>
          exact ⟨_, .createTable (shape?_eq_none.1 hshape), hlower.insert name rfl,
            hupper.insert_left (hlast rfl)⟩
      | some shape =>
          have hsame := hupper name shape hshape
          rw [hlast rfl] at hsame
          cases hsame
          exact ⟨none, .tableExists ⟨layout, hshape⟩, hlower.insert_left hshape, hupper⟩
  | @createIndex name index relation _ hrelation hcolumns =>
      cases hshape : shape? left name with
      | none =>
          obtain ⟨found, hfound, hlayout⟩ :=
            exists_relation (hlower _ _ (shape?_of_relation? hrelation))
          have hholds : index.Holds found := by
            apply Index.holds_of_rows
            intro hunique
            rcases hquiet name index List.mem_cons_self hunique with hpresent | hrows
            · exact absurd hshape hpresent
            · exact hrows found hfound
          exact ⟨_, .createIndex (shape?_eq_none.1 hshape) hfound (hlayout ▸ hcolumns) hholds,
            hlower.insert name rfl, hupper.insert_left (hlast rfl)⟩
      | some shape =>
          have hsame := hupper name shape hshape
          rw [hlast rfl] at hsame
          cases hsame
          exact ⟨none, .indexExists ⟨index, hshape⟩, hlower.insert_left hshape, hupper⟩
  | addColumn => exact hcreate.elim

end Creates

section Scripts

variable {ν μ : Type} [DecidableEq ν] [DecidableEq μ] {log : String} {script : List Statement}

theorem run_cons (statement : Statement) (script : List Statement) (database : Database ν) :
    run (statement :: script) database = exec statement database >>= run script := rfl

theorem run_append (first second : List Statement) (database : Database ν) :
    run (first ++ second) database = run first database >>= run second := by
  rw [run, List.foldlM_append]
  rfl

/-- A statement leaves the names it is not about alone. -/
theorem exec_lookup {statement : Statement} {before after : Database ν} {other : String}
    (hexec : exec statement before = .ok after) (hother : other ∉ statement.touched) :
    after.lookup other = before.lookup other := by
  obtain ⟨made, hmakes, rfl⟩ := exec_eq_ok.1 hexec
  cases hmakes with
  | tableExists | indexExists => rfl
  | createTable | createIndex | addColumn =>
      exact AList.lookup_insert_ne (List.ne_of_not_mem_cons hother)

theorem run_lookup {before after : Database ν} {other : String}
    (hrun : run script before = .ok after)
    (hother : ∀ statement ∈ script, other ∉ statement.touched) :
    after.lookup other = before.lookup other := by
  induction script generalizing before with
  | nil =>
      cases hrun
      rfl
  | cons statement script ih =>
      rw [run_cons, bind_eq_ok] at hrun
      obtain ⟨next, hexec, hrest⟩ := hrun
      obtain ⟨hfirst, hothers⟩ := List.forall_mem_cons.mp hother
      rw [ih hrest hothers, exec_lookup hexec hfirst]

theorem exec_kept {statement : Statement} {before after : Database ν}
    (hexec : exec statement before = .ok after) (log : String) : Kept log before after := by
  obtain ⟨made, hmakes, rfl⟩ := exec_eq_ok.1 hexec
  exact hmakes.kept log

/-- A script that runs on a database runs on a quiet one with the same schema
and leaves both with the same schema. -/
theorem run_isOk {left : Database ν} {right rightAfter : Database μ}
    (hsame : SameSchema left right) (hquiet : Quiet script left)
    (hlog : ∀ statement ∈ script, log ∉ statement.touched)
    (hright : run script right = .ok rightAfter) :
    ∃ leftAfter, run script left = .ok leftAfter ∧ SameSchema leftAfter rightAfter ∧
      Kept log left leftAfter := by
  induction script generalizing left right with
  | nil =>
      cases hright
      exact ⟨left, rfl, hsame, .refl log left⟩
  | cons statement script ih =>
      rw [run_cons, bind_eq_ok] at hright
      obtain ⟨rightNext, hexec, hrest⟩ := hright
      have hone : [statement] ⊆ statement :: script :=
        List.cons_subset.mpr ⟨List.mem_cons_self, List.nil_subset _⟩
      obtain ⟨leftNext, hleftNext⟩ := exec_isOk hsame (hquiet.mono hone) hexec
      have hkept := exec_kept hleftNext log
      have hquietNext : Quiet script leftNext :=
        (hquiet.of_kept hkept hlog).mono (List.subset_cons_self _ _)
      obtain ⟨leftAfter, hrun, hsameAfter, hkeptAfter⟩ :=
        ih (exec_sameSchema hsame hleftNext hexec) hquietNext
          (fun later hmem => hlog later (List.mem_cons_of_mem _ hmem)) hrest
      refine ⟨leftAfter, ?_, hsameAfter, hkept.trans hkeptAfter⟩
      rw [run_cons, hleftNext]
      exact hrun

theorem run_contained {before after : Database ν}
    (hcreates : ∀ statement ∈ script, statement.IsCreate)
    (hrun : run script before = .ok after) : Contained before after := by
  induction script generalizing before with
  | nil =>
      cases hrun
      exact fun _ _ hshape => hshape
  | cons statement script ih =>
      rw [run_cons, bind_eq_ok] at hrun
      obtain ⟨next, hexec, hrest⟩ := hrun
      obtain ⟨made, hmakes, rfl⟩ := exec_eq_ok.1 hexec
      obtain ⟨hcreate, hothers⟩ := List.forall_mem_cons.mp hcreates
      exact fun name shape hshape =>
        ih hothers hrest name shape (hmakes.shape_kept hcreate name shape hshape)

/-- A script that creates what is missing completes every quiet database that
has some of what it creates. -/
theorem run_between {left : Database ν} {right final : Database μ}
    (hcreates : ∀ statement ∈ script, statement.IsCreate) (hquiet : Quiet script left)
    (hlog : ∀ statement ∈ script, log ∉ statement.touched)
    (hlower : Contained right left) (hupper : Contained left final)
    (hrun : run script right = .ok final) :
    ∃ leftAfter, run script left = .ok leftAfter ∧ SameSchema leftAfter final ∧
      Kept log left leftAfter := by
  induction script generalizing left right with
  | nil =>
      cases hrun
      exact ⟨left, rfl, hupper.antisymm hlower, .refl log left⟩
  | cons statement script ih =>
      rw [run_cons, bind_eq_ok] at hrun
      obtain ⟨next, hexec, hrest⟩ := hrun
      obtain ⟨made, hmakes, rfl⟩ := exec_eq_ok.1 hexec
      obtain ⟨hcreate, hothers⟩ := List.forall_mem_cons.mp hcreates
      have hone : [statement] ⊆ statement :: script :=
        List.cons_subset.mpr ⟨List.mem_cons_self, List.nil_subset _⟩
      obtain ⟨own, hown, hlowerNext, hupperNext⟩ := hmakes.between hcreate (hquiet.mono hone)
        hlower hupper (run_contained hothers hrest)
      have hexecLeft := exec_eq_ok.2 ⟨own, hown, rfl⟩
      have hkept := exec_kept hexecLeft log
      have hquietNext : Quiet script (make left own) :=
        (hquiet.of_kept hkept hlog).mono (List.subset_cons_self _ _)
      obtain ⟨leftAfter, hleft, hsame, hkeptAfter⟩ := ih hothers hquietNext
        (fun later hmem => hlog later (List.mem_cons_of_mem _ hmem)) hlowerNext
        hupperNext hrest
      refine ⟨leftAfter, ?_, hsame, hkept.trans hkeptAfter⟩
      rw [run_cons, hexecLeft]
      exact hleft

end Scripts

/-! ## Rows -/

section Rows

variable {ν μ : Type} {name : String} {row : List (Option ν)} {before after : Database ν}

/-- A table with one more row behind the others. -/
def Relation.insert (relation : Relation ν) (row : List (Option ν))
    (hwidth : row.length = relation.layout.columns.length) : Relation ν where
  layout := relation.layout
  rows := relation.rows ++ [row]
  widths := List.forall_mem_append.mpr ⟨relation.widths, List.forall_mem_singleton.mpr hwidth⟩

theorem Relation.insert_rows (relation : Relation ν) (row : List (Option ν))
    (hwidth : row.length = relation.layout.columns.length) :
    (relation.insert row hwidth).rows = relation.rows ++ [row] := rfl

def insertRow (name : String) (row : List (Option ν)) (database : Database ν) :
    Except String (Database ν) :=
  match relation? database name with
  | none => .error s!"no such table: {name}"
  | some relation =>
      if hwidth : row.length = relation.layout.columns.length then
        .ok (database.insert name (.table (relation.insert row hwidth)))
      else .error s!"table {name} has {relation.layout.columns.length} columns"

theorem insertRow_eq_ok : insertRow name row before = .ok after ↔
    ∃ relation hwidth, relation? before name = some relation ∧
      before.insert name (.table (relation.insert row hwidth)) = after := by
  rw [insertRow]
  cases hrelation : relation? before name with
  | none => exact iff_of_false nofun nofun
  | some relation =>
      dsimp only
      split
      case isTrue hwidth =>
        constructor
        · intro hinsert
          exact ⟨relation, hwidth, rfl, Except.ok.inj hinsert⟩
        · rintro ⟨_, _, ⟨⟩, rfl⟩
          rfl
      case isFalse hwidth =>
        constructor
        · exact nofun
        · rintro ⟨_, hwide, ⟨⟩, _⟩
          exact absurd hwide hwidth

/-- A row changes no schema. -/
theorem insertRow_sameSchema (hinsert : insertRow name row before = .ok after) :
    SameSchema after before := by
  obtain ⟨relation, hwidth, hrelation, rfl⟩ := insertRow_eq_ok.1 hinsert
  intro other
  rw [shape?_insert]
  split
  case isTrue hother => rw [hother, shape?_of_relation? hrelation, Object.shape, Relation.insert]
  case isFalse => rfl

/-- A row takes nothing from a database. -/
theorem insertRow_kept (hinsert : insertRow name row before = .ok after) :
    Kept name before after := by
  obtain ⟨relation, hwidth, hrelation, rfl⟩ := insertRow_eq_ok.1 hinsert
  refine ⟨fun other found hfound => ?_, fun other index hindex => ?_,
    fun other found hother hbefore hafter => ?_⟩
  · rw [relation?_insert_table]
    split
    case isTrue hother =>
      rw [hother, hrelation] at hfound
      cases hfound
      refine ⟨_, [row], rfl, ⟨[], ?_, ?_⟩, fun hne => absurd hother hne⟩
      · rw [List.append_nil, Relation.insert]
      · simp only [Relation.insert, List.length_nil, List.replicate_zero, List.append_nil,
          List.map_id']
    case isFalse => exact ⟨found, [], hfound, .refl found, fun _ => rfl⟩
  · have hother : other ≠ name := by
      rintro rfl
      rw [relation?_eq_some.1 hrelation] at hindex
      cases hindex
    rw [AList.lookup_insert_ne hother]
    exact hindex
  · rw [relation?_insert_table, if_neg hother, hbefore] at hafter
    cases hafter

end Rows

end Schema
