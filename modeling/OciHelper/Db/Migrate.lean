import Mathlib.Data.List.Infix
import OciHelper.Lib.Repeatable

/-!
# Schema migrations

* `DDL`, `exec` : the three kinds of statements of the list, and what SQLite answers;
* `migrations` : the list; `runMigrations` : a run; `crash` : a run that ends after some statements;
* `repeatable` : a statement of the list that is repeated changes nothing, or fails with an error that is skipped;
* `Between` : the databases that a run passes through; `Between.restart` : a crash leads to another one of them, and
  a run to the last;
* `runMigrations_crash_safe` : any number of crashes.

The times of the version rows, and the statistics that `PRAGMA optimize` keeps, are left out.
-/

namespace OciHelper.Db.Migrate

structure Column where
  name : String
  declaration : String
  deriving DecidableEq, Repr

structure Index where
  name : String
  table : String
  column : String
  deriving DecidableEq, Repr

structure Table where
  name : String
  columns : List Column
  deriving DecidableEq, Repr

structure Schema where
  tables : List Table := []
  indexes : List Index := []
  deriving DecidableEq, Repr

inductive DDL
  | createTable (name : String) (columns : List Column)
  | addColumn (table : String) (column : Column)
  | createIndex (index : Index)
  deriving DecidableEq, Repr

structure Migration where
  version : Nat
  name : String
  sql : List DDL
  deriving DecidableEq, Repr

def migrations : List Migration := [
  ⟨1, "initial_schema", [
    .createTable "tenants"
      [⟨"id", "INTEGER PRIMARY KEY AUTOINCREMENT"⟩, ⟨"name", "TEXT NOT NULL"⟩,
        ⟨"user_ocid", "TEXT NOT NULL DEFAULT ''"⟩, ⟨"tenancy_ocid", "TEXT NOT NULL DEFAULT ''"⟩,
        ⟨"region", "TEXT NOT NULL DEFAULT ''"⟩, ⟨"fingerprint", "TEXT NOT NULL DEFAULT ''"⟩,
        ⟨"key_file", "TEXT NOT NULL DEFAULT ''"⟩, ⟨"status", "TEXT NOT NULL DEFAULT 'active'"⟩,
        ⟨"home_region", "TEXT DEFAULT ''"⟩, ⟨"subscribed", "TEXT DEFAULT ''"⟩,
        ⟨"created_at", "DATETIME DEFAULT CURRENT_TIMESTAMP"⟩, ⟨"updated_at", "DATETIME DEFAULT CURRENT_TIMESTAMP"⟩],
    .createTable "instances"
      [⟨"id", "TEXT PRIMARY KEY"⟩, ⟨"tenant_id", "INTEGER NOT NULL REFERENCES tenants(id)"⟩,
        ⟨"name", "TEXT NOT NULL DEFAULT ''"⟩, ⟨"ocid", "TEXT NOT NULL DEFAULT ''"⟩,
        ⟨"shape", "TEXT NOT NULL DEFAULT ''"⟩, ⟨"ocpu", "REAL NOT NULL DEFAULT 0"⟩,
        ⟨"memory_gb", "REAL NOT NULL DEFAULT 0"⟩, ⟨"boot_volume_gb", "INTEGER NOT NULL DEFAULT 0"⟩,
        ⟨"public_ip", "TEXT NOT NULL DEFAULT ''"⟩, ⟨"private_ip", "TEXT NOT NULL DEFAULT ''"⟩,
        ⟨"state", "TEXT NOT NULL DEFAULT ''"⟩, ⟨"availability_domain", "TEXT NOT NULL DEFAULT ''"⟩,
        ⟨"fault_domain", "TEXT NOT NULL DEFAULT ''"⟩, ⟨"image_id", "TEXT NOT NULL DEFAULT ''"⟩,
        ⟨"subnet_id", "TEXT NOT NULL DEFAULT ''"⟩, ⟨"created_at", "DATETIME DEFAULT CURRENT_TIMESTAMP"⟩,
        ⟨"synced_at", "DATETIME DEFAULT CURRENT_TIMESTAMP"⟩],
    .createTable "tasks"
      [⟨"id", "INTEGER PRIMARY KEY AUTOINCREMENT"⟩, ⟨"tenant_id", "INTEGER"⟩, ⟨"type", "TEXT NOT NULL"⟩,
        ⟨"status", "TEXT NOT NULL DEFAULT 'pending'"⟩, ⟨"progress", "INTEGER NOT NULL DEFAULT 0"⟩,
        ⟨"message", "TEXT NOT NULL DEFAULT ''"⟩, ⟨"payload", "TEXT NOT NULL DEFAULT '\x7b\x7d'"⟩,
        ⟨"result", "TEXT DEFAULT ''"⟩, ⟨"created_at", "DATETIME DEFAULT CURRENT_TIMESTAMP"⟩,
        ⟨"started_at", "DATETIME"⟩, ⟨"finished_at", "DATETIME"⟩],
    .createTable "audit_logs"
      [⟨"id", "INTEGER PRIMARY KEY AUTOINCREMENT"⟩, ⟨"tenant_id", "INTEGER"⟩, ⟨"action", "TEXT NOT NULL"⟩,
        ⟨"detail", "TEXT NOT NULL DEFAULT ''"⟩, ⟨"ip", "TEXT NOT NULL DEFAULT ''"⟩,
        ⟨"created_at", "DATETIME DEFAULT CURRENT_TIMESTAMP"⟩],
    .createTable "config"
      [⟨"key", "TEXT PRIMARY KEY"⟩, ⟨"value", "TEXT NOT NULL DEFAULT ''"⟩]]⟩,
  ⟨2, "add_cf_cfg_ip_data_ssh_keys", [
    .createTable "cf_configs"
      [⟨"id", "INTEGER PRIMARY KEY AUTOINCREMENT"⟩, ⟨"name", "TEXT NOT NULL"⟩, ⟨"token", "TEXT NOT NULL DEFAULT ''"⟩,
        ⟨"email", "TEXT NOT NULL DEFAULT ''"⟩, ⟨"api_key", "TEXT NOT NULL DEFAULT ''"⟩,
        ⟨"zone_id", "TEXT NOT NULL DEFAULT ''"⟩, ⟨"enabled", "INTEGER NOT NULL DEFAULT 1"⟩,
        ⟨"created_at", "DATETIME DEFAULT CURRENT_TIMESTAMP"⟩, ⟨"updated_at", "DATETIME DEFAULT CURRENT_TIMESTAMP"⟩],
    .createTable "ip_data"
      [⟨"id", "INTEGER PRIMARY KEY AUTOINCREMENT"⟩, ⟨"tenant_id", "INTEGER REFERENCES tenants(id)"⟩,
        ⟨"cidr", "TEXT NOT NULL DEFAULT ''"⟩, ⟨"label", "TEXT NOT NULL DEFAULT ''"⟩,
        ⟨"type", "TEXT NOT NULL DEFAULT 'pool'"⟩, ⟨"enabled", "INTEGER NOT NULL DEFAULT 1"⟩,
        ⟨"created_at", "DATETIME DEFAULT CURRENT_TIMESTAMP"⟩],
    .createTable "ssh_keys"
      [⟨"id", "INTEGER PRIMARY KEY AUTOINCREMENT"⟩, ⟨"name", "TEXT NOT NULL DEFAULT ''"⟩,
        ⟨"public_key", "TEXT NOT NULL DEFAULT ''"⟩, ⟨"private_key", "TEXT NOT NULL DEFAULT ''"⟩,
        ⟨"fingerprint", "TEXT NOT NULL DEFAULT ''"⟩, ⟨"tenant_id", "INTEGER REFERENCES tenants(id)"⟩,
        ⟨"created_at", "DATETIME DEFAULT CURRENT_TIMESTAMP"⟩],
    .createTable "instance_plans"
      [⟨"id", "INTEGER PRIMARY KEY AUTOINCREMENT"⟩, ⟨"name", "TEXT NOT NULL"⟩,
        ⟨"tenant_id", "INTEGER REFERENCES tenants(id)"⟩, ⟨"shape", "TEXT NOT NULL DEFAULT ''"⟩,
        ⟨"image_id", "TEXT NOT NULL DEFAULT ''"⟩, ⟨"subnet_id", "TEXT NOT NULL DEFAULT ''"⟩,
        ⟨"availability_domain", "TEXT NOT NULL DEFAULT ''"⟩, ⟨"boot_volume_size_gb", "INTEGER NOT NULL DEFAULT 50"⟩,
        ⟨"ocpus", "REAL NOT NULL DEFAULT 1"⟩, ⟨"memory_gb", "REAL NOT NULL DEFAULT 1"⟩,
        ⟨"created_at", "DATETIME DEFAULT CURRENT_TIMESTAMP"⟩],
    .createTable "users"
      [⟨"id", "INTEGER PRIMARY KEY AUTOINCREMENT"⟩, ⟨"username", "TEXT NOT NULL UNIQUE"⟩,
        ⟨"password_hash", "TEXT NOT NULL DEFAULT ''"⟩, ⟨"role", "TEXT NOT NULL DEFAULT 'user'"⟩,
        ⟨"mfa_enabled", "INTEGER NOT NULL DEFAULT 0"⟩, ⟨"mfa_secret", "TEXT NOT NULL DEFAULT ''"⟩,
        ⟨"email", "TEXT NOT NULL DEFAULT ''"⟩, ⟨"created_at", "DATETIME DEFAULT CURRENT_TIMESTAMP"⟩,
        ⟨"updated_at", "DATETIME DEFAULT CURRENT_TIMESTAMP"⟩]]⟩,
  ⟨3, "add_ip_data_geolocation", [
    .addColumn "ip_data" ⟨"lat", "REAL NOT NULL DEFAULT 0"⟩,
    .addColumn "ip_data" ⟨"lng", "REAL NOT NULL DEFAULT 0"⟩,
    .addColumn "ip_data" ⟨"country", "TEXT NOT NULL DEFAULT ''"⟩,
    .addColumn "ip_data" ⟨"area", "TEXT NOT NULL DEFAULT ''"⟩,
    .addColumn "ip_data" ⟨"city", "TEXT NOT NULL DEFAULT ''"⟩,
    .addColumn "ip_data" ⟨"org", "TEXT NOT NULL DEFAULT ''"⟩,
    .addColumn "ip_data" ⟨"asn", "TEXT NOT NULL DEFAULT ''"⟩]⟩,
  ⟨4, "add_instance_region", [
    .addColumn "instances" ⟨"region", "TEXT NOT NULL DEFAULT ''"⟩]⟩,
  ⟨5, "add_parent_task_id", [
    .addColumn "tasks" ⟨"parent_task_id", "INTEGER DEFAULT 0"⟩]⟩,
  ⟨6, "add_stock_alerts", [
    .createTable "stock_alerts"
      [⟨"id", "INTEGER PRIMARY KEY AUTOINCREMENT"⟩, ⟨"tenant_id", "INTEGER NOT NULL"⟩, ⟨"region", "TEXT NOT NULL"⟩,
        ⟨"shape", "TEXT NOT NULL"⟩, ⟨"availability_domain", "TEXT NOT NULL DEFAULT ''"⟩,
        ⟨"chat_id", "INTEGER NOT NULL DEFAULT 0"⟩, ⟨"enabled", "INTEGER NOT NULL DEFAULT 1"⟩,
        ⟨"last_checked_at", "TIMESTAMP"⟩, ⟨"last_stock_status", "TEXT DEFAULT ''"⟩,
        ⟨"created_at", "TIMESTAMP DEFAULT CURRENT_TIMESTAMP"⟩, ⟨"updated_at", "TIMESTAMP DEFAULT CURRENT_TIMESTAMP"⟩]]⟩,
  ⟨7, "add_instance_dns_last_ip", [
    .addColumn "instances" ⟨"dns_last_ip", "TEXT DEFAULT ''"⟩]⟩,
  ⟨8, "add_query_indexes", [
    .createIndex ⟨"idx_instances_tenant_id", "instances", "tenant_id"⟩,
    .createIndex ⟨"idx_instances_state", "instances", "state"⟩,
    .createIndex ⟨"idx_tasks_status", "tasks", "status"⟩,
    .createIndex ⟨"idx_tasks_parent_task_id", "tasks", "parent_task_id"⟩,
    .createIndex ⟨"idx_ip_data_tenant_id", "ip_data", "tenant_id"⟩,
    .createIndex ⟨"idx_ssh_keys_tenant_id", "ssh_keys", "tenant_id"⟩,
    .createIndex ⟨"idx_stock_alerts_enabled", "stock_alerts", "enabled"⟩,
    .createIndex ⟨"idx_audit_logs_created_at", "audit_logs", "created_at"⟩]⟩,
  ⟨9, "account_status_recurring_tasks_blacklist", [
    .addColumn "tenants" ⟨"account_status", "TEXT NOT NULL DEFAULT ''"⟩,
    .createTable "create_tasks"
      [⟨"id", "INTEGER PRIMARY KEY AUTOINCREMENT"⟩, ⟨"tenant_id", "INTEGER NOT NULL REFERENCES tenants(id)"⟩,
        ⟨"region", "TEXT NOT NULL DEFAULT ''"⟩, ⟨"ocpus", "REAL NOT NULL DEFAULT 1"⟩,
        ⟨"memory_gb", "REAL NOT NULL DEFAULT 1"⟩, ⟨"disk", "INTEGER NOT NULL DEFAULT 50"⟩,
        ⟨"architecture", "TEXT NOT NULL DEFAULT 'AMD'"⟩, ⟨"interval_seconds", "INTEGER NOT NULL DEFAULT 60"⟩,
        ⟨"create_numbers", "INTEGER NOT NULL DEFAULT 1"⟩, ⟨"operation_system", "TEXT NOT NULL DEFAULT 'Ubuntu'"⟩,
        ⟨"root_password", "TEXT NOT NULL DEFAULT ''"⟩, ⟨"paused", "INTEGER NOT NULL DEFAULT 0"⟩,
        ⟨"last_run_at", "DATETIME"⟩, ⟨"created_at", "DATETIME DEFAULT CURRENT_TIMESTAMP"⟩,
        ⟨"updated_at", "DATETIME DEFAULT CURRENT_TIMESTAMP"⟩],
    .createTable "login_blacklist"
      [⟨"ip", "TEXT PRIMARY KEY"⟩, ⟨"reason", "TEXT NOT NULL DEFAULT ''"⟩,
        ⟨"created_at", "DATETIME DEFAULT CURRENT_TIMESTAMP"⟩],
    .createIndex ⟨"idx_create_tasks_tenant_id", "create_tasks", "tenant_id"⟩,
    .createIndex ⟨"idx_create_tasks_paused", "create_tasks", "paused"⟩]⟩,
  ⟨10, "instance_dns_bindings", [
    .createTable "instance_dns_bindings"
      [⟨"id", "INTEGER PRIMARY KEY AUTOINCREMENT"⟩, ⟨"instance_id", "TEXT NOT NULL"⟩,
        ⟨"tenant_id", "INTEGER NOT NULL DEFAULT 0"⟩, ⟨"name", "TEXT NOT NULL DEFAULT ''"⟩,
        ⟨"cf_cfg_id", "INTEGER NOT NULL DEFAULT 0"⟩, ⟨"zone_id", "TEXT NOT NULL DEFAULT ''"⟩,
        ⟨"proxied", "INTEGER NOT NULL DEFAULT 0"⟩, ⟨"ttl", "INTEGER NOT NULL DEFAULT 120"⟩,
        ⟨"enabled", "INTEGER NOT NULL DEFAULT 1"⟩, ⟨"created_at", "DATETIME DEFAULT CURRENT_TIMESTAMP"⟩,
        ⟨"updated_at", "DATETIME DEFAULT CURRENT_TIMESTAMP"⟩],
    .createIndex ⟨"idx_inst_dns_bindings_instance_id", "instance_dns_bindings", "instance_id"⟩,
    .createIndex ⟨"idx_inst_dns_bindings_zone_id", "instance_dns_bindings", "zone_id"⟩]⟩]

/-! ## Statements -/

/-- The text of an error as the driver gives it. -/
def sqlError (message : String) : String := "SQL logic error: " ++ message ++ " (1)"

def duplicateColumn (column : String) : String := sqlError ("duplicate column name: " ++ column)

namespace Schema

def hasTable (s : Schema) (name : String) : Bool := s.tables.any (·.name = name)

def hasIndex (s : Schema) (name : String) : Bool := s.indexes.any (·.name = name)

def hasColumn (s : Schema) (table column : String) : Bool :=
  s.tables.any fun t => t.name = table && t.columns.any (·.name = column)

end Schema

/-- `CREATE TABLE IF NOT EXISTS`, `ALTER TABLE ADD COLUMN` and `CREATE INDEX IF NOT EXISTS`. -/
def execDDL (s : Schema) : DDL → Except String Schema
  | .createTable name columns =>
    if s.hasTable name then .ok s
    else if s.hasIndex name then .error (sqlError ("there is already an index named " ++ name))
    else .ok { s with tables := s.tables ++ [⟨name, columns⟩] }
  | .addColumn table column =>
    if !s.hasTable table then .error (sqlError ("no such table: " ++ table))
    else if s.hasColumn table column.name then .error (duplicateColumn column.name)
    else
      .ok
        { s with
          tables := s.tables.map fun t => if t.name = table then { t with columns := t.columns ++ [column] } else t }
  | .createIndex index =>
    if !s.hasTable index.table then .error (sqlError ("no such table: main." ++ index.table))
    else if s.hasTable index.name then .error (sqlError ("there is already a table named " ++ index.name))
    else if s.hasIndex index.name then .ok s
    else if !s.hasColumn index.table index.column then .error (sqlError ("no such column: " ++ index.column))
    else .ok { s with indexes := s.indexes ++ [index] }

/-- `versions` are the rows of `schema_version`, if there is such a table. -/
structure Database where
  schema : Schema := {}
  versions : Option (List (Nat × String)) := none
  deriving DecidableEq, Repr

namespace Database

/-- `COALESCE(MAX(version), 0)` -/
def currentVersion (db : Database) : Nat := ((db.versions.getD []).map Prod.fst).foldr max 0

def createVersionTable (db : Database) : Database := { db with versions := some (db.versions.getD []) }

def insertVersion (db : Database) (version : Nat) (name : String) : Except String Database :=
  match db.versions with
  | none => .error (sqlError "no such table: schema_version")
  | some rows =>
    if rows.any (·.1 = version) then
      .error "constraint failed: UNIQUE constraint failed: schema_version.version (1555)"
    else .ok { db with versions := some (rows ++ [(version, name)]) }

end Database

/-- A statement of `runMigrations` that writes. -/
inductive Statement
  | ddl (m : Migration) (d : DDL)
  | record (m : Migration)

/-- `strings.Contains` -/
def contains (s sub : String) : Bool := sub.toList <:+: s.toList

/-- A statement of the list, and how the loop handles its error. -/
def migrateDDL (s : Schema) (d : DDL) : Except String Schema :=
  match execDDL s d with
  | .ok s => .ok s
  | .error err => if contains err "duplicate column" then .ok s else .error err

def exec (db : Database) : Statement → Except String Database
  | .ddl m d =>
    match migrateDDL db.schema d with
    | .ok schema => .ok { db with schema := schema }
    | .error err => .error ("migration v" ++ toString m.version ++ " " ++ m.name ++ ": " ++ err)
  | .record m =>
    match db.insertVersion m.version m.name with
    | .ok db => .ok db
    | .error err => .error ("record migration v" ++ toString m.version ++ ": " ++ err)

/-! ## Runs -/

def Migration.statements (m : Migration) : List Statement := m.sql.map (.ddl m) ++ [.record m]

/-- The statements that a run makes from some version on. -/
def pending (ms : List Migration) (currentVersion : Nat) : List Statement :=
  (ms.filter (currentVersion < ·.version)).flatMap (·.statements)

def runMigrations (ms : List Migration) (db : Database) : Except String Database :=
  let db := db.createVersionTable
  (pending ms db.currentVersion).foldlM exec db

/-- A run whose process crashes after `n` statements. -/
def crash (ms : List Migration) (db : Database) : (n : Nat) → Except String Database
  | 0 => .ok db
  | n + 1 =>
    let db := db.createVersionTable
    ((pending ms db.currentVersion).take n).foldlM exec db

/-! ## Statements can be repeated -/

theorem contains_duplicateColumn (column : String) : contains (duplicateColumn column) "duplicate column" = true := by
  unfold contains duplicateColumn sqlError
  refine decide_eq_true ⟨"SQL logic error: ".toList, " name: ".toList ++ column.toList ++ " (1)".toList, ?_⟩
  simp only [String.toList_append, ← List.append_assoc]
  rfl

def DDL.Done : DDL → Schema → Prop
  | .createTable name _, s => s.hasTable name = true
  | .addColumn table column, s => s.hasColumn table column.name = true
  | .createIndex index, s =>
    s.hasTable index.table = true ∧ s.hasTable index.name = false ∧ s.hasIndex index.name = true

theorem hasTable_of_hasColumn {s : Schema} {table column : String} (h : s.hasColumn table column = true) :
    s.hasTable table = true := by
  obtain ⟨t, ht, hp⟩ := List.any_eq_true.mp h
  refine List.any_eq_true.mpr ⟨t, ht, ?_⟩
  simp only [Bool.and_eq_true] at hp
  exact hp.1

theorem migrateDDL_of_done {s : Schema} {d : DDL} (h : d.Done s) : migrateDDL s d = .ok s := by
  unfold migrateDDL
  cases d with
  | createTable name columns => simp [execDDL, show s.hasTable name = true from h]
  | addColumn table column =>
    have hcol : s.hasColumn table column.name = true := h
    simp [execDDL, hasTable_of_hasColumn hcol, hcol, contains_duplicateColumn]
  | createIndex index =>
    obtain ⟨ht, hn, hi⟩ := h
    simp [execDDL, ht, hn, hi]

/-- What a statement that succeeds adds to the schema. -/
theorem execDDL_cases {s s' : Schema} {d : DDL} (h : execDDL s d = .ok s') :
    s' = s ∧ d.Done s ∨
    (∃ name columns, d = .createTable name columns ∧ s.hasIndex name = false ∧
      s' = { s with tables := s.tables ++ [⟨name, columns⟩] }) ∨
    (∃ table column, d = .addColumn table column ∧ s.hasTable table = true ∧
      s' = { s with
        tables := s.tables.map fun t =>
          if t.name = table then { t with columns := t.columns ++ [column] } else t }) ∨
    ∃ index, d = .createIndex index ∧ s.hasTable index.table = true ∧ s.hasTable index.name = false ∧
      s' = { s with indexes := s.indexes ++ [index] } := by
  unfold execDDL at h
  cases d with
  | createTable name columns =>
    dsimp only at h
    split at h
    · next hn => cases h; exact .inl ⟨rfl, hn⟩
    · split at h
      · cases h
      · next hi => cases h; exact .inr (.inl ⟨name, columns, rfl, by simpa using hi, rfl⟩)
  | addColumn table column =>
    dsimp only at h
    split at h
    · cases h
    · next ht =>
      split at h
      · cases h
      · cases h; exact .inr (.inr (.inl ⟨table, column, rfl, by simpa using ht, rfl⟩))
  | createIndex index =>
    dsimp only at h
    split at h
    · cases h
    · next ht =>
      split at h
      · cases h
      · next hn =>
        have ht : s.hasTable index.table = true := by simpa using ht
        have hn : s.hasTable index.name = false := by simpa using hn
        split at h
        · next hi => cases h; exact .inl ⟨rfl, ht, hn, hi⟩
        · split at h
          · cases h
          · cases h; exact .inr (.inr (.inr ⟨index, rfl, ht, hn, rfl⟩))

theorem hasTable_addColumn (tables : List Table) (table name : String) (column : Column) :
    (tables.map fun t => if t.name = table then { t with columns := t.columns ++ [column] } else t).any
      (·.name = name) = tables.any (·.name = name) := by
  rw [List.any_map]
  congr 1
  funext t
  dsimp only [Function.comp]
  split <;> rfl

theorem hasColumn_addColumn {s : Schema} {table : String} {column : Column} {table' column' : String}
    (h : s.hasColumn table' column' = true) :
    Schema.hasColumn { s with
      tables := s.tables.map fun t => if t.name = table then { t with columns := t.columns ++ [column] } else t }
      table' column' = true := by
  obtain ⟨t, ht, hp⟩ := List.any_eq_true.mp h
  refine List.any_eq_true.mpr ⟨_, List.mem_map.mpr ⟨t, ht, rfl⟩, ?_⟩
  simp only [Bool.and_eq_true] at hp ⊢
  split
  · exact ⟨hp.1, by simp only [List.any_append, hp.2, Bool.true_or]⟩
  · exact hp

theorem hasColumn_added {s : Schema} {table : String} (column : Column) (h : s.hasTable table = true) :
    Schema.hasColumn { s with
      tables := s.tables.map fun t => if t.name = table then { t with columns := t.columns ++ [column] } else t }
      table column.name = true := by
  obtain ⟨t, ht, hp⟩ := List.any_eq_true.mp h
  have hname : t.name = table := by simpa using hp
  refine List.any_eq_true.mpr ⟨_, List.mem_map.mpr ⟨t, ht, rfl⟩, ?_⟩
  simp [hname]

theorem done_of_execDDL {s s' : Schema} {d : DDL} (h : execDDL s d = .ok s') : d.Done s' := by
  obtain ⟨rfl, hd⟩ | ⟨name, columns, rfl, -, rfl⟩ | ⟨table, column, rfl, ht, rfl⟩ | ⟨index, rfl, ht, hn, rfl⟩ :=
    execDDL_cases h
  · exact hd
  · simp [DDL.Done, Schema.hasTable]
  · exact hasColumn_added column ht
  · exact ⟨ht, hn, by simp [Schema.hasIndex]⟩

/-- No statement takes anything away, and none makes a table with the name of an index. -/
theorem kept_of_execDDL {s s' : Schema} {d d' : DDL} (hd : d.Done s) (h : execDDL s d' = .ok s') : d.Done s' := by
  obtain ⟨rfl, -⟩ | ⟨name, columns, rfl, hi, rfl⟩ | ⟨table, column, rfl, -, rfl⟩ | ⟨index, rfl, -, -, rfl⟩ :=
    execDDL_cases h
  · exact hd
  · cases d with
    | createTable name' columns' =>
      have hname : s.tables.any (·.name = name') = true := hd
      simp [DDL.Done, Schema.hasTable, List.any_append, hname]
    | addColumn table column =>
      have hcol : s.tables.any (fun t => t.name = table && t.columns.any (·.name = column.name)) = true := hd
      simp only [DDL.Done, Schema.hasColumn, List.any_append, hcol, Bool.true_or]
    | createIndex index =>
      obtain ⟨ht, hn, hindex⟩ := hd
      have hne : name ≠ index.name := fun he => by rw [he, hindex] at hi; cases hi
      refine ⟨?_, ?_, hindex⟩
      · simp only [Schema.hasTable, List.any_append] at ht ⊢
        simp [ht]
      · simp only [Schema.hasTable, List.any_append] at hn ⊢
        simp [hn, hne]
  · cases d with
    | createTable name' columns' => exact (hasTable_addColumn s.tables table name' column).trans hd
    | addColumn table' column' => exact hasColumn_addColumn hd
    | createIndex index =>
      obtain ⟨ht, hn, hindex⟩ := hd
      exact ⟨(hasTable_addColumn s.tables table _ column).trans ht,
        (hasTable_addColumn s.tables table _ column).trans hn, hindex⟩
  · cases d with
    | createTable name' columns' => exact hd
    | addColumn table' column' => exact hd
    | createIndex index' =>
      obtain ⟨ht, hn, hindex⟩ := hd
      refine ⟨ht, hn, ?_⟩
      simp only [Schema.hasIndex, List.any_append] at hindex ⊢
      simp [hindex]

/-- A statement that fails is not skipped. -/
def clean (db : Database) : Statement → Except String Database
  | .ddl _ d =>
    match execDDL db.schema d with
    | .ok schema => .ok { db with schema := schema }
    | .error err => .error err
  | .record m => db.insertVersion m.version m.name

namespace Statement

/-- The statements that a run may repeat. -/
def IsDDL : Statement → Prop
  | .ddl _ _ => True
  | .record _ => False

def Done : Statement → Database → Prop
  | .ddl _ d, db => d.Done db.schema
  | .record _, _ => False

end Statement

theorem clean_ddl {db db' : Database} {m : Migration} {d : DDL} (h : clean db (.ddl m d) = .ok db') :
    ∃ s, execDDL db.schema d = .ok s ∧ db' = { db with schema := s } := by
  unfold clean at h
  dsimp only at h
  split at h <;> cases h
  next s hs => exact ⟨s, hs, rfl⟩

theorem clean_record {db db' : Database} {m : Migration} (h : clean db (.record m) = .ok db') :
    ∃ rows, db.versions = some rows ∧ db' = { db with versions := some (rows ++ [(m.version, m.name)]) } := by
  unfold clean Database.insertVersion at h
  dsimp only at h
  cases hv : db.versions with
  | none => rw [hv] at h; cases h
  | some rows =>
    rw [hv] at h
    dsimp only at h
    split at h <;> cases h
    exact ⟨rows, rfl, rfl⟩

theorem repeatable : Repeatable exec clean Statement.IsDDL Statement.Done where
  exec_eq := by
    intro db st db' h
    cases st with
    | ddl m d =>
      obtain ⟨s, hs, rfl⟩ := clean_ddl h
      simp only [exec, migrateDDL, hs]
    | record m =>
      have hinsert : db.insertVersion m.version m.name = .ok db' := h
      simp only [exec, hinsert]
  done := by
    intro db st db' hst h
    cases st with
    | ddl m d =>
      obtain ⟨s, hs, rfl⟩ := clean_ddl h
      exact done_of_execDDL hs
    | record m => exact hst
  kept := by
    intro db st st' db' hst h
    cases st with
    | ddl m d =>
      cases st' with
      | ddl m' d' =>
        obtain ⟨s, hs, rfl⟩ := clean_ddl h
        exact kept_of_execDDL hst hs
      | record m' =>
        obtain ⟨rows, -, rfl⟩ := clean_record h
        exact hst
    | record m => exact hst
  again := by
    intro db st hst
    cases st with
    | ddl m d => simp only [exec, migrateDDL_of_done hst]
    | record m => exact hst.elim

/-! ## Crashes -/

/-- The versions of the list ascend. -/
def Ascending (ms : List Migration) : Prop := (ms.map (·.version)).Pairwise (· < ·)

theorem migrations_ascending : Ascending migrations := by
  unfold Ascending
  decide

theorem versions_ddls {m : Migration} : ∀ {l : List DDL} {db db' : Database},
    (l.map (Statement.ddl m)).foldlM clean db = .ok db' → db'.versions = db.versions := by
  intro l
  induction l with
  | nil => intro db db' h; cases h; rfl
  | cons d l ih =>
    intro db db' h
    obtain ⟨u, hu, h⟩ := Repeatable.foldlM_cons_ok.mp h
    obtain ⟨s, -, rfl⟩ := clean_ddl hu
    have hrest := ih h
    exact hrest

theorem currentVersion_congr {db db' : Database} (h : db'.versions = db.versions) :
    db'.currentVersion = db.currentVersion := by
  unfold Database.currentVersion
  rw [h]

theorem currentVersion_record {db : Database} {rows : List (Nat × String)} (h : db.versions = some rows) {m : Migration}
    (hlt : db.currentVersion < m.version) :
    Database.currentVersion { db with versions := some (rows ++ [(m.version, m.name)]) } = m.version := by
  unfold Database.currentVersion at hlt ⊢
  rw [h] at hlt
  simp only [Option.getD_some] at hlt ⊢
  rw [List.map_append, List.foldr_append]
  have hmax : ∀ (vs : List Nat) (a : Nat), vs.foldr max a = max (vs.foldr max 0) a := by
    intro vs a
    induction vs with
    | nil => simp
    | cons v vs ih => rw [List.foldr_cons, List.foldr_cons, ih, max_assoc]
  rw [hmax]
  simp only [List.map_cons, List.map_nil, List.foldr_cons, List.foldr_nil]
  omega

theorem filter_all {ms : List Migration} {v : Nat} (h : ∀ m ∈ ms, v < m.version) :
    ms.filter (v < ·.version) = ms :=
  List.filter_eq_self.mpr fun m hm => by simpa using h m hm

/-- A run from `u` leads to `t`, and a crash of it leaves what some number of the statements leaves. -/
def Restarts (ms : List Migration) (db t u : Database) : Prop :=
  db.currentVersion ≤ u.currentVersion ∧ (pending ms u.currentVersion).foldlM exec u = .ok t ∧
    ∀ n, ∃ k v, ((pending ms u.currentVersion).take n).foldlM exec u = .ok v ∧
      ((ms.flatMap (·.statements)).take k).foldlM clean db = .ok v

/-- The version of the first migration is not recorded, so the run begins with the same statement. -/
theorem restarts_within {ms : List Migration} {m : Migration} {db t u : Database} {j : Nat}
    (hlt : ∀ m' ∈ m :: ms, db.currentVersion < m'.version)
    (h : ((m :: ms).flatMap (·.statements)).foldlM clean db = .ok t) (hj : j ≤ m.sql.length)
    (hu : (((m :: ms).flatMap (·.statements)).take j).foldlM clean db = .ok u) : Restarts (m :: ms) db t u := by
  have htake : ((m :: ms).flatMap (·.statements)).take j = (m.sql.take j).map (Statement.ddl m) := by
    rw [List.flatMap_cons, Migration.statements, List.append_assoc,
      List.take_append_of_le_length (by simpa using hj), List.map_take]
  have hcurrent : u.currentVersion = db.currentVersion := currentVersion_congr (versions_ddls (htake ▸ hu))
  have hP : ∀ st ∈ ((m :: ms).flatMap (·.statements)).take j, st.IsDDL := by
    intro st hst
    rw [htake] at hst
    obtain ⟨d, -, rfl⟩ := List.mem_map.mp hst
    trivial
  have hpending : pending (m :: ms) u.currentVersion = (m :: ms).flatMap (·.statements) := by
    unfold pending
    rw [hcurrent, filter_all hlt]
  unfold Restarts
  rw [hpending]
  refine ⟨hcurrent.ge, ?_, fun n => ?_⟩
  · obtain ⟨v, hv, hv'⟩ := repeatable.rerun h hP hu ((m :: ms).flatMap (·.statements)).length
    rw [List.take_length] at hv
    rw [List.take_of_length_le (Nat.le_max_right ..), h] at hv'
    exact Except.ok.inj hv' ▸ hv
  · obtain ⟨v, hv, hv'⟩ := repeatable.rerun h hP hu n
    exact ⟨_, v, hv, hv'⟩

/-- Where the statements of the first migration lead, with its version recorded. -/
theorem first_migration {ms : List Migration} {m : Migration} {db t : Database}
    (hm : db.currentVersion < m.version) (h : ((m :: ms).flatMap (·.statements)).foldlM clean db = .ok t) :
    ∃ b, b.currentVersion = m.version ∧ (ms.flatMap (·.statements)).foldlM clean b = .ok t ∧
      ∀ i, (((m :: ms).flatMap (·.statements)).take (m.sql.length + (i + 1))).foldlM clean db =
        ((ms.flatMap (·.statements)).take i).foldlM clean b := by
  rw [List.flatMap_cons, Migration.statements, List.append_assoc] at h ⊢
  obtain ⟨a, ha, hrest⟩ := Repeatable.foldlM_append_ok.mp h
  obtain ⟨b, hb, hrest⟩ := Repeatable.foldlM_cons_ok.mp hrest
  have hbv : b.currentVersion = m.version := by
    obtain ⟨rows, hrows, rfl⟩ := clean_record hb
    exact currentVersion_record hrows (by rw [currentVersion_congr (versions_ddls ha)]; exact hm)
  refine ⟨b, hbv, hrest, fun i => ?_⟩
  have hlen : (m.sql.map (Statement.ddl m)).length = m.sql.length := List.length_map ..
  rw [← hlen, List.take_length_add_append, List.foldlM_append, ha]
  have hrecord : (([Statement.record m] ++ ms.flatMap (·.statements)).take (i + 1)).foldlM clean a =
      ((ms.flatMap (·.statements)).take i).foldlM clean b := by
    rw [List.singleton_append, List.take_succ_cons, List.foldlM_cons, hb]
    rfl
  exact hrecord

/-- After `j` statements of the pending migrations, a run from the version that is recorded then leads where they all
lead, and a crash of it leaves what some other number of them leaves. -/
theorem restart : ∀ {ms : List Migration} {db t : Database}, Ascending ms → (∀ m ∈ ms, db.currentVersion < m.version) →
    (ms.flatMap (·.statements)).foldlM clean db = .ok t → ∀ {j : Nat} {u : Database},
      ((ms.flatMap (·.statements)).take j).foldlM clean db = .ok u → Restarts ms db t u := by
  intro ms
  induction ms with
  | nil =>
    intro db t _ _ h j u hu
    rw [List.flatMap_nil, List.take_nil] at hu
    cases hu
    cases h
    exact ⟨Nat.le_refl _, rfl, fun n => ⟨0, _, by rw [show pending [] _ = [] from rfl, List.take_nil]; rfl, rfl⟩⟩
  | cons m ms ih =>
    intro db t hasc hlt h j u hu
    by_cases hj : j ≤ m.sql.length
    · exact restarts_within hlt h hj hu
    · obtain ⟨i, rfl⟩ : ∃ i, j = m.sql.length + (i + 1) := ⟨j - m.sql.length - 1, by omega⟩
      have hm := hlt m (List.mem_cons_self ..)
      obtain ⟨b, hbv, hrest, htake⟩ := first_migration hm h
      rw [htake] at hu
      have hasc' := List.pairwise_cons.mp hasc
      obtain ⟨hle, hrun, hcrash⟩ := ih hasc'.2
        (fun m' hm' => by rw [hbv]; exact hasc'.1 _ (List.mem_map_of_mem hm')) hrest hu
      rw [hbv] at hle
      have hpending : pending (m :: ms) u.currentVersion = pending ms u.currentVersion := by
        unfold pending
        rw [List.filter_cons_of_neg (by simpa using hle)]
      unfold Restarts
      rw [hpending]
      refine ⟨by omega, hrun, fun n => ?_⟩
      obtain ⟨k, v, hv, hk⟩ := hcrash n
      exact ⟨m.sql.length + (k + 1), v, hv, (htake k).trans hk⟩

theorem isSome_foldlM : ∀ {l : List Statement} {db db' : Database}, db.versions.isSome = true →
    l.foldlM clean db = .ok db' → db'.versions.isSome = true := by
  intro l
  induction l with
  | nil => intro db db' hsome h; cases h; exact hsome
  | cons st l ih =>
    intro db db' hsome h
    obtain ⟨u, hu, h⟩ := Repeatable.foldlM_cons_ok.mp h
    refine ih ?_ h
    cases st with
    | ddl m d => obtain ⟨s, -, rfl⟩ := clean_ddl hu; exact hsome
    | record m => obtain ⟨rows, -, rfl⟩ := clean_record hu; rfl

/-- A database with an empty version table. -/
def versionTable : Database := Database.createVersionTable {}

/-- A run from the empty database, of which no statement fails. -/
def Leads (ms : List Migration) (t : Database) : Prop := (pending ms 0).foldlM clean versionTable = .ok t

/-- They all do, with a row for each version. -/
theorem migrations_leads : ∃ t, Leads migrations t ∧ t.versions = some (migrations.map fun m => (m.version, m.name)) :=
  ⟨_, rfl, rfl⟩

/-- The databases that such a run passes through. -/
def Between (ms : List Migration) (db : Database) : Prop :=
  db = {} ∨ ∃ j, ((pending ms 0).take j).foldlM clean versionTable = .ok db

theorem Between.createVersionTable {ms : List Migration} {db : Database} (h : Between ms db) :
    ∃ j, ((pending ms 0).take j).foldlM clean versionTable = .ok db.createVersionTable := by
  obtain rfl | ⟨j, hj⟩ := h
  · exact ⟨0, rfl⟩
  · refine ⟨j, hj.trans (congrArg Except.ok ?_)⟩
    have hsome := isSome_foldlM rfl hj
    obtain ⟨schema, versions⟩ := db
    cases versions with
    | none => cases hsome
    | some rows => rfl

/-- `restart` for a run. -/
theorem Between.restart {ms : List Migration} {t db : Database} (hasc : Ascending ms) (ht : Leads ms t)
    (h : Between ms db) : runMigrations ms db = .ok t ∧ ∀ n, ∃ u, crash ms db n = .ok u ∧ Between ms u := by
  obtain ⟨j, hj⟩ := h.createVersionTable
  have hfilter : ∀ v, pending (ms.filter (0 < ·.version)) v = pending ms v := by
    intro v
    unfold pending
    rw [List.filter_filter]
    congr 1
    refine List.filter_congr fun m _ => ?_
    rw [← Bool.decide_and, decide_eq_decide]
    omega
  have hasc' : Ascending (ms.filter (0 < ·.version)) := List.Pairwise.sublist (List.filter_sublist.map _) hasc
  have hlt : ∀ m ∈ ms.filter (0 < ·.version), versionTable.currentVersion < m.version :=
    fun m hm => of_decide_eq_true (List.mem_filter.mp hm).2
  obtain ⟨-, hrun, hcrash⟩ := Migrate.restart hasc' hlt ht hj
  rw [hfilter] at hrun hcrash
  refine ⟨hrun, fun n => ?_⟩
  cases n with
  | zero => exact ⟨db, rfl, h⟩
  | succ n =>
    obtain ⟨k, v, hv, hk⟩ := hcrash n
    exact ⟨v, hv, .inr ⟨k, hk⟩⟩

/-- A run of the first migrations is a run of all of them that crashed. -/
theorem run_take_eq_crash (ms : List Migration) (k : Nat) (db : Database) :
    ∃ n, runMigrations (ms.take k) db = crash ms db n := by
  refine ⟨(pending (ms.take k) db.createVersionTable.currentVersion).length + 1, ?_⟩
  unfold runMigrations crash
  dsimp only
  have happend : ∀ v, pending ms v = pending (ms.take k) v ++ pending (ms.drop k) v := by
    intro v
    unfold pending
    rw [← List.flatMap_append, ← List.filter_append, List.take_append_drop]
  rw [happend, List.take_left]

/-- The runs that crash, one after the other. -/
def crashes (ms : List Migration) (db : Database) (ns : List Nat) : Except String Database := ns.foldlM (crash ms) db

theorem Between.crashes {ms : List Migration} {t : Database} (hasc : Ascending ms) (ht : Leads ms t) :
    ∀ (ns : List Nat) {db : Database}, Between ms db → ∃ u, crashes ms db ns = .ok u ∧ Between ms u := by
  intro ns
  induction ns with
  | nil => exact fun h => ⟨_, rfl, h⟩
  | cons n ns ih =>
    intro db h
    obtain ⟨u, hu, hbetween⟩ := (h.restart hasc ht).2 n
    obtain ⟨v, hv, hbetween⟩ := ih hbetween
    exact ⟨v, Repeatable.foldlM_cons_ok.mpr ⟨u, hu, hv⟩, hbetween⟩

/-- The database of a new installation, or one that a run of the first migrations left. -/
def LeftBy (ms : List Migration) (db : Database) : Prop := db = {} ∨ ∃ k, runMigrations (ms.take k) {} = .ok db

theorem LeftBy.between {ms : List Migration} {t db : Database} (hasc : Ascending ms) (ht : Leads ms t)
    (h : LeftBy ms db) : Between ms db := by
  obtain rfl | ⟨k, hk⟩ := h
  · exact .inl rfl
  · have hempty : Between ms {} := .inl rfl
    obtain ⟨n, hn⟩ := run_take_eq_crash ms k {}
    obtain ⟨u, hu, hbetween⟩ := (hempty.restart hasc ht).2 n
    rw [hn, hu] at hk
    exact Except.ok.inj hk ▸ hbetween

/-- **Migrations are safe against crashes.** Whatever version left the database, and after any number of statements
of any number of runs, no run fails, the first that completes leaves what a run from the empty database leaves whose
statements all succeed, with the rows of all versions, and a further one changes nothing. -/
theorem runMigrations_crash_safe {db : Database} (h : LeftBy migrations db) :
    ∃ final, (Leads migrations final ∧ final.versions = some (migrations.map fun m => (m.version, m.name))) ∧
      runMigrations migrations db = .ok final ∧ runMigrations migrations final = .ok final ∧
      ∀ ns, ∃ u, crashes migrations db ns = .ok u ∧ runMigrations migrations u = .ok final := by
  obtain ⟨final, ht, hversions⟩ := migrations_leads
  have hbetween := h.between migrations_ascending ht
  have hlast : Between migrations final := .inr ⟨(pending migrations 0).length, by rw [List.take_length]; exact ht⟩
  refine ⟨final, ⟨ht, hversions⟩, (hbetween.restart migrations_ascending ht).1,
    (hlast.restart migrations_ascending ht).1, fun ns => ?_⟩
  obtain ⟨u, hu, hbetween⟩ := hbetween.crashes migrations_ascending ht ns
  exact ⟨u, hu, (hbetween.restart migrations_ascending ht).1⟩

/-- The database of version 3. -/
theorem runMigrations_crash_safe_three : ∃ db final, runMigrations (migrations.take 3) {} = .ok db ∧
    (Leads migrations final ∧ final.versions = some (migrations.map fun m => (m.version, m.name))) ∧
      runMigrations migrations db = .ok final ∧ runMigrations migrations final = .ok final ∧
      ∀ ns, ∃ u, crashes migrations db ns = .ok u ∧ runMigrations migrations u = .ok final := by
  obtain ⟨db, hdb⟩ : ∃ db, runMigrations (migrations.take 3) {} = .ok db := ⟨_, rfl⟩
  obtain ⟨final, hfinal⟩ := runMigrations_crash_safe (.inr ⟨3, hdb⟩)
  exact ⟨db, final, hdb, hfinal⟩

end OciHelper.Db.Migrate
