import Patchwright.Library.Schema
import Patchwright.Library.Transaction

/-!
# Schema migrations

The migrations of the store and the transaction that applies them when the
store is opened.  A database that has an initial segment of them, recorded or
left by the first version of the store, ends as an empty one does with nothing
lost, or stays as it is.
-/

namespace Patchwright

open Checked Schema Transaction

/-- A value of the database. -/
inductive SqlValue where
  | integer (value : Int)
  | real (bits : UInt64)
  | text (value : String)
  | blob (bytes : List UInt8)
  deriving DecidableEq, Repr

namespace Migrations

/-- A column by the two parts of its declaration. -/
def column (declaration : String × String) : Column := ⟨declaration.1, declaration.2⟩

def table (name : String) (columns : List (String × String)) (constraints : List String := []) :
    Statement :=
  .createTable name ⟨columns.map column, constraints⟩

def index (name table : String) (columns : List String) : Statement :=
  .createIndex name ⟨table, columns, false, none⟩

def uniqueIndex (name table : String) (columns : List String)
    (whereNull : Option String := none) : Statement :=
  .createIndex name ⟨table, columns, true, whereNull⟩

def logLayout : Layout where
  columns := [⟨"version", "INTEGER PRIMARY KEY"⟩, ⟨"applied_at", "TEXT NOT NULL"⟩]
  constraints := []

def MIGRATIONS : List (Nat × List Statement) := [
  (1, [
    table "tasks" [("id", "TEXT PRIMARY KEY"), ("payload", "TEXT NOT NULL"),
      ("updated_at", "TEXT NOT NULL")],
    table "task_events" [("sequence", "INTEGER PRIMARY KEY AUTOINCREMENT"),
      ("task_id", "TEXT NOT NULL"), ("summary", "TEXT NOT NULL"), ("payload", "TEXT NOT NULL"),
      ("occurred_at", "TEXT NOT NULL")],
    index "task_events_task_id" "task_events" ["task_id", "sequence"],
    table "deliveries" [("key", "TEXT PRIMARY KEY"), ("result", "TEXT"),
      ("claimed_at", "TEXT NOT NULL"), ("completed_at", "TEXT")],
    table "github_account" [("singleton", "INTEGER PRIMARY KEY CHECK(singleton = 1)"),
      ("payload", "TEXT NOT NULL"), ("synced_at", "TEXT NOT NULL")],
    table "github_snapshots" [("full_name", "TEXT PRIMARY KEY"),
      ("repository_payload", "TEXT NOT NULL"), ("snapshot_payload", "TEXT NOT NULL"),
      ("synced_at", "TEXT NOT NULL")]]),
  (2, [
    table "repository_bindings" [("id", "TEXT PRIMARY KEY"),
      ("full_name", "TEXT NOT NULL UNIQUE"), ("payload", "TEXT NOT NULL"),
      ("updated_at", "TEXT NOT NULL")],
    table "task_contracts" [("task_id", "TEXT PRIMARY KEY"), ("binding_id", "TEXT NOT NULL"),
      ("version", "INTEGER NOT NULL"), ("payload", "TEXT NOT NULL"),
      ("updated_at", "TEXT NOT NULL")],
    index "task_contracts_binding_id" "task_contracts" ["binding_id", "task_id"],
    table "approvals" [("id", "TEXT PRIMARY KEY"), ("task_id", "TEXT NOT NULL"),
      ("capability", "TEXT NOT NULL"), ("action_digest", "TEXT NOT NULL"),
      ("payload", "TEXT NOT NULL"), ("expires_at", "TEXT NOT NULL")],
    index "approvals_task_id" "approvals" ["task_id", "expires_at"],
    table "jobs" [("id", "TEXT PRIMARY KEY"), ("kind", "TEXT NOT NULL"), ("task_id", "TEXT"),
      ("state", "TEXT NOT NULL"), ("cancellation_state", "TEXT NOT NULL"),
      ("summary", "TEXT NOT NULL"), ("checkpoint_payload", "TEXT"),
      ("created_at", "TEXT NOT NULL"), ("updated_at", "TEXT NOT NULL"),
      ("generation", "INTEGER NOT NULL")],
    index "jobs_state" "jobs" ["state", "updated_at"],
    table "job_events" [("sequence", "INTEGER PRIMARY KEY AUTOINCREMENT"),
      ("job_id", "TEXT NOT NULL"), ("state", "TEXT NOT NULL"), ("summary", "TEXT NOT NULL"),
      ("checkpoint_payload", "TEXT"), ("occurred_at", "TEXT NOT NULL")],
    index "job_events_job_id" "job_events" ["job_id", "sequence"],
    table "task_checkpoints" [("id", "TEXT PRIMARY KEY"), ("task_id", "TEXT NOT NULL"),
      ("state", "TEXT NOT NULL"), ("summary", "TEXT NOT NULL"), ("payload", "TEXT NOT NULL"),
      ("occurred_at", "TEXT NOT NULL")],
    index "task_checkpoints_task_id" "task_checkpoints" ["task_id", "occurred_at"]]),
  (3, [
    table "task_sources" [("source_key", "TEXT PRIMARY KEY"), ("task_id", "TEXT NOT NULL UNIQUE"),
      ("created_at", "TEXT NOT NULL")],
    index "task_sources_task_id" "task_sources" ["task_id"]]),
  (4, [
    table "codex_sessions" [("task_id", "TEXT PRIMARY KEY"),
      ("process_generation", "TEXT NOT NULL"), ("status", "TEXT NOT NULL"), ("thread_id", "TEXT"),
      ("last_turn_id", "TEXT"), ("last_sequence", "INTEGER NOT NULL"),
      ("payload", "TEXT NOT NULL"), ("updated_at", "TEXT NOT NULL")],
    index "codex_sessions_status" "codex_sessions" ["status", "updated_at"],
    table "codex_events" [("task_id", "TEXT NOT NULL"), ("sequence", "INTEGER NOT NULL"),
      ("process_generation", "TEXT NOT NULL"), ("kind", "TEXT NOT NULL"),
      ("summary", "TEXT NOT NULL"), ("payload", "TEXT NOT NULL"),
      ("occurred_at", "TEXT NOT NULL")] ["PRIMARY KEY(task_id, sequence)"],
    index "codex_events_generation" "codex_events" ["task_id", "process_generation", "sequence"]]),
  (5, [
    table "codex_runtime_approvals" [("id", "TEXT PRIMARY KEY"), ("task_id", "TEXT NOT NULL"),
      ("process_generation", "TEXT NOT NULL"), ("request_id", "TEXT NOT NULL"),
      ("state", "TEXT NOT NULL"), ("payload", "TEXT NOT NULL"), ("expires_at", "TEXT NOT NULL")],
    uniqueIndex "codex_runtime_approvals_request" "codex_runtime_approvals"
      ["task_id", "process_generation", "request_id"],
    index "codex_runtime_approvals_task" "codex_runtime_approvals"
      ["task_id", "state", "expires_at"]]),
  (6, [
    table "queue_decisions" [("repository_full_name", "TEXT NOT NULL"),
      ("pull_request_number", "INTEGER NOT NULL"), ("position", "INTEGER NOT NULL"),
      ("payload", "TEXT NOT NULL"), ("updated_at", "TEXT NOT NULL")]
      ["PRIMARY KEY(repository_full_name, pull_request_number)"],
    uniqueIndex "queue_decisions_position" "queue_decisions" ["position"]]),
  (7, [
    .addColumn "approvals" ⟨"invalidated_at", "TEXT"⟩,
    table "monitors" [("id", "TEXT PRIMARY KEY"), ("task_id", "TEXT NOT NULL"),
      ("repository_full_name", "TEXT NOT NULL"), ("pull_request_number", "INTEGER NOT NULL"),
      ("state", "TEXT NOT NULL"), ("next_attempt_at", "TEXT"), ("payload", "TEXT NOT NULL"),
      ("updated_at", "TEXT NOT NULL")],
    index "monitors_task" "monitors" ["task_id", "updated_at"],
    index "monitors_due" "monitors" ["state", "next_attempt_at"]]),
  (8, [
    table "preparation_claims" [("approval_id", "TEXT PRIMARY KEY"), ("task_id", "TEXT NOT NULL"),
      ("action_digest", "TEXT NOT NULL"), ("claimed_at", "TEXT NOT NULL"), ("result", "TEXT"),
      ("completed_at", "TEXT")],
    uniqueIndex "preparation_claims_active_task" "preparation_claims" ["task_id"]
      (some "completed_at"),
    index "preparation_claims_task" "preparation_claims" ["task_id", "claimed_at"]]),
  (9, [
    table "verification_evidence" [("task_id", "TEXT NOT NULL"), ("run_id", "TEXT NOT NULL"),
      ("ordinal", "INTEGER NOT NULL"), ("success", "INTEGER NOT NULL"),
      ("payload", "TEXT NOT NULL"), ("completed_at", "TEXT NOT NULL")]
      ["PRIMARY KEY(task_id, run_id, ordinal)"],
    index "verification_evidence_task" "verification_evidence" ["task_id", "completed_at"]]),
  (10, [
    table "github_webhook_deliveries" [("delivery_id", "TEXT PRIMARY KEY NOT NULL"),
      ("event", "TEXT NOT NULL"), ("action", "TEXT NOT NULL"), ("repository_full_name", "TEXT"),
      ("entity_number", "INTEGER"), ("payload_sha256", "TEXT NOT NULL"),
      ("received_at", "TEXT NOT NULL"), ("ingested_at", "TEXT NOT NULL")],
    index "github_webhook_repository" "github_webhook_deliveries"
      ["repository_full_name", "entity_number", "ingested_at"]]),
  (11, [
    .addColumn "deliveries" ⟨"task_id", "TEXT"⟩,
    index "deliveries_task_id" "deliveries" ["task_id", "claimed_at"]])]

def logTable : Statement := .createTable "schema_migrations" logLayout

/-- The version that a row of the log records. -/
def rowVersion (layout : Layout) (row : List (Option SqlValue)) : Except String Nat :=
  match layout.value row "version" with
  | some (.integer version) => do
      ensure (0 ≤ version ∧ version < 2 ^ 32) s!"Integer {version} out of range at index 0"
      return version.toNat
  | _ => .error "Invalid column type at index: 0, name: version"

/-- The versions that a database has recorded. -/
def appliedVersions (database : Database SqlValue) : Except String (List Nat) := do
  let log ← okOr "no such table: schema_migrations" (relation? database "schema_migrations")
  log.rows.mapM (rowVersion log.layout)

def recordVersion (version : Nat) (now : String) (database : Database SqlValue) :
    Except String (Database SqlValue) := do
  let log ← okOr "no such table: schema_migrations" (relation? database "schema_migrations")
  ensure (∀ row ∈ log.rows, log.layout.value row "version" ≠ some (.integer version))
    "UNIQUE constraint failed: schema_migrations.version"
  insertRow "schema_migrations" [some (.integer version), some (.text now)] database

/-- The operations of one migration: its statements, and its record. -/
def migrationOperations (now : String) (migration : Nat × List Statement) :
    List (Database SqlValue → Except String (Database SqlValue)) :=
  (migration.2.map fun statement database => (exec statement database).mapError fun reason =>
    s!"apply schema migration {migration.1}: {reason}") ++ [recordVersion migration.1 now]

/-- The migrations that are not recorded. -/
def pending (applied : List Nat) : List (Nat × List Statement) :=
  MIGRATIONS.filter fun migration => migration.1 ∉ applied

/-- Apply the migrations that a database has not recorded, in one transaction. -/
def applyMigrations (faults : Faults) (now : String) (database : Database SqlValue) :
    Outcome × Database SqlValue :=
  finish faults database do
    let work ← performAll faults 0 [.ok, exec logTable] database
    let applied ← perform faults 2 (appliedVersions work)
    performAll faults 3 ((pending applied).flatMap (migrationOperations now)) work

/-! ## The databases it is applied to -/

/-- What a number of the migrations makes of an empty database. -/
def schemaAfter (count : Nat) : Except String (Database SqlValue) :=
  run (logTable :: (MIGRATIONS.take count).flatMap Prod.snd) ∅

/-- An initial segment of the migrations has been applied.  A database of the
first version has some of the first migration's objects and no log. -/
inductive Started (database : Database SqlValue) : Prop
  | recorded (count : Nat) {reference : Database SqlValue} {applied : List Nat}
      (hreference : schemaAfter count = .ok reference) (hsame : SameSchema database reference)
      (happlied : appliedVersions database = .ok applied)
      (hversions : ∀ version, version ∈ applied ↔
        version ∈ (MIGRATIONS.take count).map Prod.fst)
  | legacy {reference : Database SqlValue} (hreference : schemaAfter 1 = .ok reference)
      (hunlogged : shape? database "schema_migrations" = none)
      (hcontained : Contained database reference)

/-- Two databases have one schema and have recorded the same versions. -/
structure Agree (left right : Database SqlValue) : Prop where
  schema : SameSchema left right
  versions : ∃ own other, appliedVersions left = .ok own ∧ appliedVersions right = .ok other ∧
    ∀ version, version ∈ own ↔ version ∈ other

/-- The log of a database lists versions. -/
def Logged (database : Database SqlValue) (versions : List Nat) : Prop :=
  ∃ log, relation? database "schema_migrations" = some log ∧ log.layout = logLayout ∧
    log.rows.mapM (rowVersion logLayout) = .ok versions

/-- All migrations are made and recorded. -/
structure Migrated (database : Database SqlValue) : Prop where
  schema : ∃ final, schemaAfter MIGRATIONS.length = .ok final ∧ SameSchema database final
  log : ∃ versions, Logged database versions ∧
    ∀ version, version ∈ versions ↔ version ∈ MIGRATIONS.map Prod.fst

/-! ## The list of migrations -/

theorem log_untouched : ∀ statement ∈ MIGRATIONS.flatMap Prod.snd,
    "schema_migrations" ∉ statement.touched := by decide

theorem versions_nodup : (MIGRATIONS.map Prod.fst).Nodup := by decide

theorem versions_lt : ∀ version ∈ MIGRATIONS.map Prod.fst, version < 2 ^ 32 := by decide

/-- A migration makes the tables of its own unique indexes. -/
theorem uniqueTable_untouched : ∀ count ≤ MIGRATIONS.length,
    ∀ statement ∈ (MIGRATIONS.drop count).flatMap Prod.snd, ∀ table ∈ statement.uniqueTable,
      ∀ made ∈ logTable :: (MIGRATIONS.take count).flatMap Prod.snd, table ∉ made.touched := by
  decide

theorem exists_schemaAfter_length : ∃ final, schemaAfter MIGRATIONS.length = .ok final := by
  have hok : (schemaAfter MIGRATIONS.length).isOk = true := by decide
  cases hfinal : schemaAfter MIGRATIONS.length with
  | error reason =>
      rw [hfinal] at hok
      cases hok
  | ok final => exact ⟨final, rfl⟩

/-- The migrations can be made in two parts. -/
theorem exists_schemaAfter (count : Nat) : ∃ reference final, schemaAfter count = .ok reference ∧
    run ((MIGRATIONS.drop count).flatMap Prod.snd) reference = .ok final ∧
      schemaAfter MIGRATIONS.length = .ok final := by
  obtain ⟨final, hfinal⟩ := exists_schemaAfter_length
  have hparts : logTable :: (MIGRATIONS.take MIGRATIONS.length).flatMap Prod.snd =
      (logTable :: (MIGRATIONS.take count).flatMap Prod.snd) ++
        (MIGRATIONS.drop count).flatMap Prod.snd := by
    rw [List.cons_append, ← List.flatMap_append, List.take_append_drop, List.take_length]
  have hrun := hfinal
  rw [schemaAfter, hparts, run_append, bind_eq_ok] at hrun
  obtain ⟨reference, hreference, hrest⟩ := hrun
  exact ⟨reference, final, hreference, hrest, hfinal⟩

section Reference

variable {count : Nat} {reference : Database SqlValue}

theorem run_logTable (script : List Statement) : run (logTable :: script) ∅ =
    run script ((∅ : Database SqlValue).insert "schema_migrations" (.table (.empty logLayout))) :=
  rfl

/-- The log has its layout from the start. -/
theorem shape?_log (hreference : schemaAfter count = .ok reference) :
    shape? reference "schema_migrations" = some (.table logLayout) := by
  rw [schemaAfter, run_logTable] at hreference
  have hlookup := run_lookup hreference fun statement hmem => by
    obtain ⟨migration, hmigration, hstatement⟩ := List.mem_flatMap.mp hmem
    exact log_untouched statement
      (List.mem_flatMap.mpr ⟨migration, List.mem_of_mem_take hmigration, hstatement⟩)
  rw [shape?, hlookup, AList.lookup_insert]
  rfl

/-- The unique indexes that are to come are over tables to come. -/
theorem uniqueTable_absent (hreference : schemaAfter count = .ok reference) :
    ∀ statement ∈ (MIGRATIONS.drop count).flatMap Prod.snd, ∀ table ∈ statement.uniqueTable,
      shape? reference table = none := by
  intro statement hmem table htable
  rcases Nat.lt_or_ge MIGRATIONS.length count with hlong | hcount
  · rw [List.drop_eq_nil_of_le hlong.le] at hmem
    cases hmem
  · have hlookup := run_lookup hreference
      (uniqueTable_untouched count hcount statement hmem table htable)
    rw [shape?, hlookup]
    rfl

end Reference

/-! ## The log -/

section Log

variable {database after : Database SqlValue} {versions : List Nat}

theorem Logged.applied (hlogged : Logged database versions) :
    appliedVersions database = .ok versions := by
  obtain ⟨log, hlog, hlayout, hrows⟩ := hlogged
  rw [appliedVersions, hlog, okOr, ok_bind, hlayout]
  exact hrows

theorem logged_of_applied (hshape : shape? database "schema_migrations" = some (.table logLayout))
    (happlied : appliedVersions database = .ok versions) : Logged database versions := by
  obtain ⟨log, hlog, hlayout⟩ := exists_relation hshape
  rw [appliedVersions, hlog, okOr, ok_bind, hlayout] at happlied
  exact ⟨log, hlog, hlayout, happlied⟩

theorem Logged.of_lookup (hlogged : Logged database versions)
    (hlookup : after.lookup "schema_migrations" = database.lookup "schema_migrations") :
    Logged after versions := by
  obtain ⟨log, hlog, hrest⟩ := hlogged
  rw [relation?_eq_some, ← hlookup, ← relation?_eq_some] at hlog
  exact ⟨log, hlog, hrest⟩

theorem rowVersion_record {version : Nat} (hversion : version < 2 ^ 32) (now : String) :
    rowVersion logLayout [some (.integer version), some (.text now)] = .ok version := by
  have hvalue : logLayout.value [some (.integer version), some (.text now)] "version" =
      some (SqlValue.integer version) := by
    have hposition : logLayout.names.idxOf "version" = 0 := by decide
    rw [Layout.value, hposition]
    rfl
  have hrange : 0 ≤ (version : Int) ∧ (version : Int) < 2 ^ 32 := by omega
  rw [rowVersion, hvalue]
  dsimp only
  rw [bind_eq_ok]
  exact ⟨(), ensure_eq_ok.2 hrange, rfl⟩

/-- A row records the version it has in its column. -/
theorem rowVersion_ne_iff {row : List (Option SqlValue)} {recorded : Nat} (version : Nat)
    (hrow : rowVersion logLayout row = .ok recorded) :
    recorded ≠ version ↔ logLayout.value row "version" ≠ some (.integer version) := by
  rw [rowVersion] at hrow
  split at hrow
  case h_1 value hvalue =>
    rw [bind_eq_ok] at hrow
    obtain ⟨_, hrange, hrecorded⟩ := hrow
    rw [ensure_eq_ok] at hrange
    rw [pure_eq_ok] at hrecorded
    rw [hvalue, not_iff_not, Option.some_inj, SqlValue.integer.injEq]
    omega
  case h_2 => cases hrow

/-- A version that is not recorded can be. -/
theorem recordVersion_isOk {version : Nat} (hlogged : Logged database versions)
    (hnew : version ∉ versions) (hversion : version < 2 ^ 32) (now : String) :
    ∃ after, recordVersion version now database = .ok after ∧ SameSchema after database ∧
      Kept "schema_migrations" database after ∧ Logged after (versions ++ [version]) := by
  obtain ⟨log, hlog, hlayout, hrows⟩ := hlogged
  have hfresh : ∀ row ∈ log.rows, logLayout.value row "version" ≠ some (.integer version) := by
    rw [← forall_results_iff hrows fun row recorded hrow => rowVersion_ne_iff version hrow]
    exact fun recorded hmem => ne_of_mem_of_not_mem hmem hnew
  have hwidth : [some (SqlValue.integer version), some (.text now)].length =
      log.layout.columns.length := by
    rw [hlayout]
    rfl
  have hinsert := insertRow_eq_ok.2 ⟨log, hwidth, hlog, rfl⟩
  refine ⟨_, ?_, insertRow_sameSchema hinsert, insertRow_kept hinsert,
    log.insert [some (.integer version), some (.text now)] hwidth, ?_, hlayout, ?_⟩
  · simp only [recordVersion, bind_eq_ok, okOr_eq_ok, ensure_eq_ok]
    exact ⟨log, hlog, (), hlayout ▸ hfresh, hinsert⟩
  · rw [relation?_insert_table, if_pos rfl]
  · have hrecord := rowVersion_record hversion now
    rw [log.insert_rows _ hwidth, List.mapM_append, hrows, List.mapM_cons, hrecord]
    rfl

end Log

/-! ## Applying migrations -/

section Operations

variable {left after : Database SqlValue} {versions : List Nat} {now : String}

/-- The statements of a migration do what its script does. -/
theorem runAll_statements {script : List Statement} (change : String → String)
    (hrun : run script left = .ok after) :
    runAll (script.map fun statement database => (exec statement database).mapError change) left =
      .ok after := by
  induction script generalizing left with
  | nil =>
      cases hrun
      rfl
  | cons statement script ih =>
      rw [run_cons, bind_eq_ok] at hrun
      obtain ⟨next, hexec, hrest⟩ := hrun
      rw [List.map_cons, runAll_cons, mapError_eq_ok.2 hexec]
      exact ih hrest

/-- A migration whose script runs is made and recorded. -/
theorem runAll_migration {migration : Nat × List Statement} (hlogged : Logged left versions)
    (hmem : migration ∈ MIGRATIONS) (hnew : migration.1 ∉ versions)
    (hrun : run migration.2 left = .ok after) (hkept : Kept "schema_migrations" left after)
    (now : String) :
    ∃ final, runAll (migrationOperations now migration) left = .ok final ∧
      SameSchema final after ∧ Kept "schema_migrations" left final ∧
      Logged final (versions ++ [migration.1]) := by
  have hlookup := run_lookup hrun fun statement hstatement =>
    log_untouched statement (List.mem_flatMap.mpr ⟨migration, hmem, hstatement⟩)
  have hversion := versions_lt migration.1 (List.mem_map_of_mem hmem)
  obtain ⟨final, hrecord, hsame, hlater, hfinal⟩ :=
    recordVersion_isOk (hlogged.of_lookup hlookup) hnew hversion now
  refine ⟨final, ?_, hsame, hkept.trans hlater, hfinal⟩
  rw [migrationOperations, runAll_append, runAll_statements _ hrun, ok_bind, runAll_cons, hrecord]
  rfl

/-- Migrations that run on a database run on each with the same schema that has
not recorded them. -/
theorem runAll_migrations {migrations : List (Nat × List Statement)}
    {right rightAfter : Database SqlValue} (hlogged : Logged left versions)
    (hsame : SameSchema left right) (hquiet : Quiet (migrations.flatMap Prod.snd) left)
    (hsubset : migrations ⊆ MIGRATIONS) (hnodup : (migrations.map Prod.fst).Nodup)
    (hnew : ∀ version ∈ migrations.map Prod.fst, version ∉ versions)
    (hright : run (migrations.flatMap Prod.snd) right = .ok rightAfter) (now : String) :
    ∃ final, runAll (migrations.flatMap (migrationOperations now)) left = .ok final ∧
      SameSchema final rightAfter ∧ Kept "schema_migrations" left final ∧
      Logged final (versions ++ migrations.map Prod.fst) := by
  have hlog : ∀ statement ∈ migrations.flatMap Prod.snd,
      "schema_migrations" ∉ statement.touched := by
    intro statement hstatement
    obtain ⟨migration, hmem, hin⟩ := List.mem_flatMap.mp hstatement
    exact log_untouched statement (List.mem_flatMap.mpr ⟨migration, hsubset hmem, hin⟩)
  induction migrations generalizing left right versions with
  | nil =>
      cases hright
      refine ⟨left, rfl, hsame, .refl _ left, ?_⟩
      rwa [List.map_nil, List.append_nil]
  | cons migration migrations ih =>
      rw [List.flatMap_cons, run_append, bind_eq_ok] at hright
      obtain ⟨rightNext, hfirst, hrest⟩ := hright
      rw [List.flatMap_cons] at hquiet hlog
      obtain ⟨hlogFirst, hlogRest⟩ := List.forall_mem_append.mp hlog
      obtain ⟨hnotMem, hnodupRest⟩ := List.nodup_cons.mp hnodup
      obtain ⟨hnewFirst, hnewRest⟩ := List.forall_mem_cons.mp hnew
      obtain ⟨hmem, hsubsetRest⟩ := List.cons_subset.mp hsubset
      obtain ⟨next, hnext, hsameNext, hkeptNext⟩ := run_isOk hsame
        (hquiet.mono (List.subset_append_left _ _)) hlogFirst hfirst
      obtain ⟨recorded, hrecorded, hsameRecorded, hkeptRecorded, hloggedRecorded⟩ :=
        runAll_migration hlogged hmem hnewFirst hnext hkeptNext now
      have hquietRecorded : Quiet (migrations.flatMap Prod.snd) recorded :=
        Quiet.of_kept (hquiet.mono (List.subset_append_right _ _)) hkeptRecorded hlogRest
      have hnewRecorded : ∀ version ∈ migrations.map Prod.fst,
          version ∉ versions ++ [migration.1] := by
        intro version hversion hold
        rcases List.mem_append.mp hold with hold | hold
        · exact hnewRest version hversion hold
        · exact hnotMem (List.mem_singleton.mp hold ▸ hversion)
      obtain ⟨final, hfinal, hsameFinal, hkeptFinal, hloggedFinal⟩ :=
        ih hloggedRecorded (hsameRecorded.trans hsameNext) hquietRecorded hsubsetRest hnodupRest
          hnewRecorded hrest hlogRest
      refine ⟨final, ?_, hsameFinal, hkeptRecorded.trans hkeptFinal, ?_⟩
      · rw [List.flatMap_cons, runAll_append, hrecorded]
        exact hfinal
      · rwa [List.append_assoc, List.singleton_append] at hloggedFinal

/-- What is pending behind a recorded initial segment is the rest. -/
theorem pending_eq_drop {applied : List Nat} {count : Nat} (hversions : ∀ version,
    version ∈ applied ↔ version ∈ (MIGRATIONS.take count).map Prod.fst) :
    pending applied = MIGRATIONS.drop count := by
  have hnodup := versions_nodup
  rw [← List.take_append_drop count MIGRATIONS, List.map_append, List.nodup_append] at hnodup
  obtain ⟨_, _, hapart⟩ := hnodup
  have htaken : (MIGRATIONS.take count).filter (fun migration => migration.1 ∉ applied) = [] := by
    rw [List.filter_eq_nil_iff]
    intro migration hmem
    rw [decide_eq_true_eq, not_not, hversions]
    exact List.mem_map_of_mem hmem
  have hdropped : (MIGRATIONS.drop count).filter (fun migration => migration.1 ∉ applied) =
      MIGRATIONS.drop count := by
    rw [List.filter_eq_self]
    intro migration hmem
    rw [decide_eq_true_eq, hversions]
    exact fun htaken => hapart _ htaken _ (List.mem_map_of_mem hmem) rfl
  calc
    pending applied = (MIGRATIONS.take count ++ MIGRATIONS.drop count).filter
        (fun migration => migration.1 ∉ applied) := by rw [List.take_append_drop, pending]
    _ = MIGRATIONS.drop count := by rw [List.filter_append, htaken, hdropped, List.nil_append]

end Operations

/-! ## Databases in which migrations were applied -/

theorem first_creates : ∀ statement ∈ (MIGRATIONS.take 1).flatMap Prod.snd,
    statement.IsCreate ∧ statement.uniqueTable = none := by decide

section Started

variable {database work after : Database SqlValue} {applied : List Nat} {now : String}

/-- What the transaction does when nothing stops it. -/
structure Completes (now : String) (database work : Database SqlValue) (applied : List Nat)
    (after : Database SqlValue) : Prop where
  create : exec logTable database = .ok work
  read : appliedVersions work = .ok applied
  apply : runAll ((pending applied).flatMap (migrationOperations now)) work = .ok after

/-- Behind a recorded initial segment the rest of the migrations is made. -/
theorem completes_of_recorded {count : Nat} {reference : Database SqlValue}
    (hreference : schemaAfter count = .ok reference) (hsame : SameSchema database reference)
    (happlied : appliedVersions database = .ok applied)
    (hversions : ∀ version, version ∈ applied ↔ version ∈ (MIGRATIONS.take count).map Prod.fst)
    (now : String) : ∃ after, Completes now database database applied after ∧ Migrated after ∧
      Kept "schema_migrations" database after := by
  have hlogShape : shape? database "schema_migrations" = some (.table logLayout) :=
    (hsame _).trans (shape?_log hreference)
  have hlog : exec logTable database = .ok database :=
    exec_eq_ok.2 ⟨none, .tableExists ⟨logLayout, hlogShape⟩, rfl⟩
  obtain ⟨known, final, hknown, hrest, hfinal⟩ := exists_schemaAfter count
  rw [hreference] at hknown
  cases hknown
  have hnodup := versions_nodup
  rw [← List.take_append_drop count MIGRATIONS, List.map_append, List.nodup_append] at hnodup
  obtain ⟨_, hnodupRest, hapart⟩ := hnodup
  obtain ⟨after, hafter, hsameAfter, hkept, hlogged⟩ :=
    runAll_migrations (logged_of_applied hlogShape happlied) hsame
      (Quiet.of_absent hsame (uniqueTable_absent hreference)) (List.drop_subset _ _) hnodupRest
      (fun version hversion hold => hapart _ ((hversions version).mp hold) _ hversion rfl)
      hrest now
  refine ⟨after, ⟨hlog, happlied, ?_⟩, ⟨⟨final, hfinal, hsameAfter⟩, _, hlogged, ?_⟩, hkept⟩
  · rw [pending_eq_drop hversions]
    exact hafter
  · intro version
    rw [List.mem_append, hversions, ← List.mem_append, ← List.map_append, List.take_append_drop]

/-- On a database of the first version all migrations are made. -/
theorem completes_of_legacy {reference : Database SqlValue}
    (hreference : schemaAfter 1 = .ok reference)
    (hunlogged : shape? database "schema_migrations" = none)
    (hcontained : Contained database reference) (now : String) :
    ∃ work after, Completes now database work [] after ∧ Migrated after ∧
      Kept "schema_migrations" database after := by
  have hnone := shape?_eq_none.1 hunlogged
  have hlog : exec logTable database =
      .ok (database.insert "schema_migrations" (.table (.empty logLayout))) :=
    exec_eq_ok.2 ⟨_, .createTable hnone, rfl⟩
  have hloggedWork : Logged (database.insert "schema_migrations" (.table (.empty logLayout))) [] :=
    ⟨_, by rw [relation?_insert_table, if_pos rfl], rfl, rfl⟩
  obtain ⟨first, hfirst⟩ : ∃ first, MIGRATIONS.take 1 = [first] := ⟨_, rfl⟩
  have hcreates := first_creates
  rw [hfirst, List.flatMap_singleton] at hcreates
  have hmem : first ∈ MIGRATIONS := List.mem_of_mem_take (hfirst ▸ List.mem_singleton_self first)
  have hlogFirst : ∀ statement ∈ first.2, "schema_migrations" ∉ statement.touched :=
    fun statement hstatement =>
      log_untouched statement (List.mem_flatMap.mpr ⟨first, hmem, hstatement⟩)
  have hrun := hreference
  rw [schemaAfter, hfirst, List.flatMap_singleton, run_logTable] at hrun
  have hquiet : Quiet first.2
      (database.insert "schema_migrations" (.table (.empty logLayout))) := by
    intro name index hindex hunique
    exact absurd ((hcreates _ hindex).2.symm.trans (if_pos hunique)) nofun
  have hlower : Contained
      ((∅ : Database SqlValue).insert "schema_migrations" (.table (.empty logLayout)))
      (database.insert "schema_migrations" (.table (.empty logLayout))) :=
    (Contained.empty database).insert _ rfl
  have hupper : Contained (database.insert "schema_migrations" (.table (.empty logLayout)))
      reference := hcontained.insert_left (shape?_log hreference)
  obtain ⟨made, hmade, hsameMade, hkeptMade⟩ := run_between
    (fun statement hstatement => (hcreates statement hstatement).1) hquiet hlogFirst hlower hupper
    hrun
  obtain ⟨recorded, hrecorded, hsameRecorded, hkeptRecorded, hloggedRecorded⟩ :=
    runAll_migration hloggedWork hmem List.not_mem_nil hmade hkeptMade now
  have hsame := hsameRecorded.trans hsameMade
  obtain ⟨known, final, hknown, hrest, hfinal⟩ := exists_schemaAfter 1
  rw [hreference] at hknown
  cases hknown
  have hsplit : [first] ++ MIGRATIONS.drop 1 = MIGRATIONS := by
    rw [← hfirst, List.take_append_drop]
  have hnodup := versions_nodup
  rw [← hsplit, List.map_append, List.nodup_append] at hnodup
  obtain ⟨_, hnodupRest, hapart⟩ := hnodup
  obtain ⟨after, hafter, hsameAfter, hkept, hlogged⟩ :=
    runAll_migrations hloggedRecorded hsame (Quiet.of_absent hsame (uniqueTable_absent hreference))
      (List.drop_subset _ _) hnodupRest
      (fun version hversion hold => hapart _ hold _ hversion rfl) hrest now
  have hcreateKept := exec_kept hlog "schema_migrations"
  refine ⟨_, after, ⟨hlog, hloggedWork.applied, ?_⟩, ⟨⟨final, hfinal, hsameAfter⟩, _, hlogged, ?_⟩,
    hcreateKept.trans (hkeptRecorded.trans hkept)⟩
  · have hpending : pending [] = MIGRATIONS :=
      List.filter_eq_self.mpr fun _ _ => decide_eq_true List.not_mem_nil
    rw [hpending, ← hsplit, List.flatMap_append, List.flatMap_singleton, runAll_append, hrecorded]
    exact hafter
  · intro version
    rw [List.nil_append, ← List.map_singleton, ← List.map_append, hsplit]

end Started

section Confluence

variable {database : Database SqlValue}

/-- A started database is completed when nothing stops the transaction. -/
theorem Started.completes (hstarted : Started database) (now : String) :
    ∃ work applied after, Completes now database work applied after ∧ Migrated after ∧
      Kept "schema_migrations" database after := by
  cases hstarted with
  | recorded count hreference hsame happlied hversions =>
      obtain ⟨after, hcompletes⟩ :=
        completes_of_recorded hreference hsame happlied hversions now
      exact ⟨database, _, after, hcompletes⟩
  | legacy hreference hunlogged hcontained =>
      obtain ⟨work, after, hcompletes⟩ :=
        completes_of_legacy hreference hunlogged hcontained now
      exact ⟨work, [], after, hcompletes⟩

/-- A database that is not there yet is of the first version. -/
theorem started_empty : Started ∅ := by
  obtain ⟨reference, _, hreference, _⟩ := exists_schemaAfter 1
  exact .legacy hreference rfl (Contained.empty reference)

theorem runAll_create (database : Database SqlValue) :
    runAll [.ok, exec logTable] database = exec logTable database :=
  bind_pure (exec logTable database)

/-- What gets through the transaction is what it does when nothing stops it. -/
theorem Completes.unique {now : String} {work final after : Database SqlValue}
    {applied : List Nat} {faults : Faults} (hcompletes : Completes now database work applied final)
    (hcopy : (do
      let work ← performAll faults 0 [.ok, exec logTable] database
      let applied ← perform faults 2 (appliedVersions work)
      performAll faults 3 ((pending applied).flatMap (migrationOperations now)) work) =
        .ok after) : after = final := by
  rw [bind_eq_ok] at hcopy
  obtain ⟨next, hlog, hcopy⟩ := hcopy
  rw [bind_eq_ok] at hcopy
  obtain ⟨versions, hversions, hoperations⟩ := hcopy
  have hnext := of_performAll_eq_ok hlog
  rw [runAll_create, hcompletes.create] at hnext
  cases hnext
  have hread := of_perform_eq_ok hversions
  rw [hcompletes.read] at hread
  cases hread
  have hlast := of_performAll_eq_ok hoperations
  rw [hcompletes.apply] at hlast
  exact (Except.ok.inj hlast).symm

theorem Completes.committed {now : String} {work after : Database SqlValue} {applied : List Nat}
    (hcompletes : Completes now database work applied after) :
    applyMigrations .none now database = (.committed, after) := by
  have hlog : performAll .none 0 [.ok, exec logTable] database = .ok work :=
    performAll_none ((runAll_create database).trans hcompletes.create)
  have hoperations : performAll .none 3 ((pending applied).flatMap (migrationOperations now))
      work = .ok after := performAll_none hcompletes.apply
  rw [applyMigrations, hlog, ok_bind, perform_none, hcompletes.read]
  change finish .none database (performAll .none 3 _ work) = _
  rw [hoperations]
  rfl

theorem Migrated.agree {left right : Database SqlValue} (hleft : Migrated left)
    (hright : Migrated right) : Agree left right := by
  obtain ⟨⟨final, hfinal, hsame⟩, own, hown, hownVersions⟩ := hleft
  obtain ⟨⟨other, hother, hsameOther⟩, versions, hversions, hall⟩ := hright
  rw [hfinal] at hother
  cases hother
  exact ⟨hsame.trans hsameOther.symm, own, versions, hown.applied, hversions.applied,
    fun version => (hownVersions version).trans (hall version).symm⟩

theorem Migrated.started (hmigrated : Migrated database) : Started database := by
  obtain ⟨⟨final, hfinal, hsame⟩, versions, hlogged, hversions⟩ := hmigrated
  refine .recorded MIGRATIONS.length hfinal hsame hlogged.applied ?_
  rwa [List.take_length]

/-- Nothing is left to do on a database with all migrations. -/
theorem Migrated.applyMigrations_eq (hmigrated : Migrated database) (faults : Faults)
    (now : String) : (applyMigrations faults now database).2 = database := by
  obtain ⟨⟨final, hfinal, hsame⟩, versions, hlogged, hversions⟩ := hmigrated
  have hlogShape : shape? database "schema_migrations" = some (.table logLayout) :=
    (hsame _).trans (shape?_log hfinal)
  have hcompletes : Completes now database database versions database := by
    refine ⟨exec_eq_ok.2 ⟨none, .tableExists ⟨logLayout, hlogShape⟩, rfl⟩, hlogged.applied, ?_⟩
    have hpending : pending versions = [] := by
      rw [← List.drop_length, pending_eq_drop]
      rwa [List.take_length]
    rw [hpending]
    rfl
  exact finish_same fun work hwork => hcompletes.unique hwork

/-- Applying the migrations ends as it does on an empty database, with nothing
lost and nothing left to do, or leaves the database as it was; and it ends when
nothing stops it. -/
theorem applyMigrations_confluent (hstarted : Started database) (faults : Faults) (now : String) :
    ((Agree (applyMigrations faults now database).2 (applyMigrations .none now ∅).2 ∧
        Kept "schema_migrations" database (applyMigrations faults now database).2 ∧
        ∀ others later, (applyMigrations others later (applyMigrations faults now database).2).2 =
          (applyMigrations faults now database).2) ∨
      (applyMigrations faults now database).1 ≠ .committed ∧
        (applyMigrations faults now database).2 = database) ∧
      (applyMigrations .none now database).1 = .committed := by
  obtain ⟨work, applied, after, hcompletes, hmigrated, hkept⟩ := hstarted.completes now
  obtain ⟨_, _, fresh, hfresh, hmigratedFresh, _⟩ := started_empty.completes now
  rw [hfresh.committed, hcompletes.committed]
  refine ⟨?_, rfl⟩
  rcases finish_cases faults database _ with ⟨hcopy, _⟩ | hunchanged
  · left
    have hafter : (applyMigrations faults now database).2 = after := hcompletes.unique hcopy
    rw [hafter]
    exact ⟨hmigrated.agree hmigratedFresh, hkept, hmigrated.applyMigrations_eq⟩
  · exact .inr hunchanged

/-- A database of the first version with one task. -/
def legacySample : Database SqlValue :=
  (∅ : Database SqlValue).insert "tasks" (.table {
    layout := ⟨[⟨"id", "TEXT PRIMARY KEY"⟩, ⟨"payload", "TEXT NOT NULL"⟩,
      ⟨"updated_at", "TEXT NOT NULL"⟩], []⟩
    rows := [[some (.text "7"), some (.text "{}"), some (.text "2026-07-13T10:00:00Z")]]
    widths := List.forall_mem_singleton.mpr rfl })

theorem legacySample_started : Started legacySample := by
  obtain ⟨reference, _, hreference, _⟩ := exists_schemaAfter 1
  refine .legacy hreference rfl ((Contained.empty reference).insert_left ?_)
  have hshape : (schemaAfter 1).toOption.bind (shape? · "tasks") = some (.table
      ⟨[⟨"id", "TEXT PRIMARY KEY"⟩, ⟨"payload", "TEXT NOT NULL"⟩,
        ⟨"updated_at", "TEXT NOT NULL"⟩], []⟩) := by decide
  rw [hreference] at hshape
  exact hshape

theorem applyMigrations_confluent_sample :
    ((Agree (applyMigrations .none "" legacySample).2 (applyMigrations .none "" ∅).2 ∧
        Kept "schema_migrations" legacySample (applyMigrations .none "" legacySample).2 ∧
        ∀ others later, (applyMigrations others later (applyMigrations .none "" legacySample).2).2 =
          (applyMigrations .none "" legacySample).2) ∨
      (applyMigrations .none "" legacySample).1 ≠ .committed ∧
        (applyMigrations .none "" legacySample).2 = legacySample) ∧
      (applyMigrations .none "" legacySample).1 = .committed :=
  applyMigrations_confluent legacySample_started .none ""

end Confluence

end Migrations

end Patchwright
