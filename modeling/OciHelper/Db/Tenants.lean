import OciHelper.Db.Tables

/-!
# Deleting a tenant

* `deleteTenantCascade` : the three statements, and the foreign keys that the last one must meet;
* `Unnamed` : no row names the tenant or one of its instances; `OthersKept` : the other rows are as before;
* `deleteTenantCascade_complete_iff` : when a deletion succeeds and leaves nothing of the tenant.

The audit log is no part of the tables here.
-/

namespace OciHelper.Db

/-! ## The statements -/

/-- `DELETE FROM instances WHERE tenant_id=?` -/
def deleteInstancesOf (id : Int) (instances : AList fun _ : String => Instance) :
    AList fun _ : String => Instance where
  entries := instances.entries.filter fun e => e.2.tenantID ≠ id
  nodupKeys := instances.nodupKeys.sublist List.filter_sublist

/-- A row with a column `REFERENCES tenants(id)` holds the tenant. -/
def Referenced (id : Int) (db : Tables) : Prop :=
  (∃ e ∈ db.instances.entries, e.2.tenantID = id) ∨ (∃ r ∈ db.ipData.rows, r.2.tenantID = id) ∨
    (∃ r ∈ db.sshKeys.rows, r.2.tenantID = id) ∨ (∃ r ∈ db.instancePlans.rows, r.2.tenantID = id) ∨
    ∃ r ∈ db.createTasks.rows, r.2.tenantID = id

instance (id : Int) (db : Tables) : Decidable (Referenced id db) := by
  unfold Referenced
  infer_instance

/-- `DELETE FROM tenants WHERE id=?` -/
def deleteTenant (id : Int) (db : Tables) : Except SqlError Tables :=
  if (db.tenants.get id).isSome ∧ Referenced id db then .error .foreignKey
  else .ok { db with tenants := db.tenants.erase id }

/-- One transaction; an error rolls it back. -/
def deleteTenantCascade (id : Int) (db : Tables) : Except SqlError Tables :=
  deleteTenant id
    { db with
      instances := deleteInstancesOf id db.instances
      createTasks := db.createTasks.filter fun t => t.tenantID ≠ id }

/-! ## What names a tenant -/

/-- The keys that end in the tenant's id. -/
def tenantConfigPrefixes : List String :=
  ["tenant_ntg_", "tenant_ndtalk_", "tenant_proxy_", "tenant_pwdexp_", "tenant_plan_type_",
    "tenant_plan_refresh_"]

/-- The keys that go on with a VCN. -/
def defenseConfigPrefixes : List String :=
  ["defense_enabled_", "defense_tenant_", "defense_vcn_", "defense_cidrs_"]

def ConfigNames (id : Int) (key : String) : Prop :=
  (∃ p ∈ tenantConfigPrefixes, key = p ++ toString id) ∨
    ∃ p ∈ defenseConfigPrefixes, (p ++ toString id ++ "_").toList <+: key.toList

/-- The ids of the tenant's instances. -/
def InstanceOf (id : Int) (db : Tables) (instanceID : String) : Prop :=
  ∃ i, db.instances.lookup instanceID = some i ∧ i.tenantID = id

/-- A task names a tenant in its column or in its payload. -/
def Task.Names (id : Int) (ofTenant : String → Prop) (row : Task) : Prop :=
  row.tenantId = id ∨
    (∃ p, row.payload.asStart = .ok p ∧ (p.tenantID = id ∨ ∃ i ∈ p.instanceIDs, ofTenant i)) ∨
    (∃ p, row.payload.asCreate = .ok p ∧ p.tenantID = id) ∨ id ∈ row.payload.tenantIDs

def InstanceDNSBinding.Names (id : Int) (ofTenant : String → Prop) (row : InstanceDNSBinding) : Prop :=
  row.tenantID = id ∨ ofTenant row.instanceID

/-- What the cascade has no statement for. -/
structure NoLeftovers (id : Int) (ofTenant : String → Prop) (db : Tables) : Prop where
  ipData : ∀ r ∈ db.ipData.rows, r.2.tenantID ≠ id
  sshKeys : ∀ r ∈ db.sshKeys.rows, r.2.tenantID ≠ id
  instancePlans : ∀ r ∈ db.instancePlans.rows, r.2.tenantID ≠ id
  stockAlerts : ∀ r ∈ db.stockAlerts.rows, r.2.tenantID ≠ id
  tasks : ∀ r ∈ db.tasks.rows, ¬ r.2.Names id ofTenant
  dnsBindings : ∀ r ∈ db.dnsBindings.rows, ¬ r.2.Names id ofTenant
  config : ∀ e ∈ db.config.entries, ¬ ConfigNames id e.1

/-- No row names the tenant or one of the instances. -/
structure Unnamed (id : Int) (ofTenant : String → Prop) (db : Tables) : Prop
    extends NoLeftovers id ofTenant db where
  tenants : db.tenants.get id = none
  instances : ∀ e ∈ db.instances.entries, e.2.tenantID ≠ id
  createTasks : ∀ r ∈ db.createTasks.rows, r.2.tenantID ≠ id

/-- The rows that do not belong to the tenant are the same. -/
def RowsKept {ρ : Type} (belongs : ρ → Prop) (rows rows' : List ρ) : Prop :=
  ∀ r, ¬ belongs r → (r ∈ rows' ↔ r ∈ rows)

structure OthersKept (id : Int) (ofTenant : String → Prop) (db db' : Tables) : Prop where
  tenants : RowsKept (fun r => r.1 = id) db.tenants.rows db'.tenants.rows
  instances : RowsKept (fun e => e.2.tenantID = id) db.instances.entries db'.instances.entries
  createTasks : RowsKept (fun r => r.2.tenantID = id) db.createTasks.rows db'.createTasks.rows
  ipData : RowsKept (fun r => r.2.tenantID = id) db.ipData.rows db'.ipData.rows
  sshKeys : RowsKept (fun r => r.2.tenantID = id) db.sshKeys.rows db'.sshKeys.rows
  instancePlans : RowsKept (fun r => r.2.tenantID = id) db.instancePlans.rows db'.instancePlans.rows
  stockAlerts : RowsKept (fun r => r.2.tenantID = id) db.stockAlerts.rows db'.stockAlerts.rows
  tasks : RowsKept (fun r => r.2.Names id ofTenant) db.tasks.rows db'.tasks.rows
  dnsBindings : RowsKept (fun r => r.2.Names id ofTenant) db.dnsBindings.rows db'.dnsBindings.rows
  config : RowsKept (fun e => ConfigNames id e.1) db.config.entries db'.config.entries
  users : db'.users = db.users
  cfConfigs : db'.cfConfigs = db.cfConfigs

/-! ## What a deletion does -/

theorem RowsKept.refl {ρ : Type} (belongs : ρ → Prop) (rows : List ρ) : RowsKept belongs rows rows :=
  fun _ _ => Iff.rfl

theorem RowsKept.filter {ρ : Type} {belongs : ρ → Prop} {p : ρ → Bool} (rows : List ρ)
    (h : ∀ r, ¬ belongs r → p r = true) : RowsKept belongs rows (rows.filter p) := fun r hr => by
  rw [List.mem_filter]
  exact ⟨fun hm => hm.1, fun hm => ⟨hm, h r hr⟩⟩

/-- The tables after a deletion that succeeds. -/
def withoutTenant (id : Int) (db : Tables) : Tables :=
  { db with
    tenants := db.tenants.erase id
    instances := deleteInstancesOf id db.instances
    createTasks := db.createTasks.filter fun t => t.tenantID ≠ id }

theorem instances_withoutTenant (id : Int) (db : Tables) :
    ∀ e ∈ (withoutTenant id db).instances.entries, e.2.tenantID ≠ id := fun e he => by
  have hne : decide (e.2.tenantID ≠ id) = true := (List.mem_filter.mp he).2
  exact of_decide_eq_true hne

theorem createTasks_withoutTenant (id : Int) (db : Tables) :
    ∀ r ∈ (withoutTenant id db).createTasks.rows, r.2.tenantID ≠ id := fun r hr => by
  have hne := ((KeyTable.mem_rows_filter _ _ _).mp hr).2
  exact of_decide_eq_true hne

theorem othersKept_withoutTenant (id : Int) (ofTenant : String → Prop) (db : Tables) :
    OthersKept id ofTenant db (withoutTenant id db) where
  tenants := RowsKept.filter _ fun r hr => by simpa using hr
  instances := RowsKept.filter _ fun e he => decide_eq_true he
  createTasks := RowsKept.filter _ fun r hr => decide_eq_true hr
  ipData := RowsKept.refl _ _
  sshKeys := RowsKept.refl _ _
  instancePlans := RowsKept.refl _ _
  stockAlerts := RowsKept.refl _ _
  tasks := RowsKept.refl _ _
  dnsBindings := RowsKept.refl _ _
  config := RowsKept.refl _ _
  users := rfl
  cfConfigs := rfl

theorem unnamed_withoutTenant_iff (id : Int) (ofTenant : String → Prop) (db : Tables) :
    Unnamed id ofTenant (withoutTenant id db) ↔ NoLeftovers id ofTenant db := by
  constructor
  · intro h
    exact ⟨h.ipData, h.sshKeys, h.instancePlans, h.stockAlerts, h.tasks, h.dnsBindings, h.config⟩
  · intro h
    exact ⟨⟨h.ipData, h.sshKeys, h.instancePlans, h.stockAlerts, h.tasks, h.dnsBindings, h.config⟩,
      KeyTable.get_erase_self _ _, instances_withoutTenant id db, createTasks_withoutTenant id db⟩

/-- The cascade fails or deletes; it fails only on one of the foreign keys that it has no statement for. -/
theorem deleteTenantCascade_eq (id : Int) (db : Tables) :
    deleteTenantCascade id db = .ok (withoutTenant id db) ∨
      deleteTenantCascade id db = .error .foreignKey ∧ ((∃ r ∈ db.ipData.rows, r.2.tenantID = id) ∨
        (∃ r ∈ db.sshKeys.rows, r.2.tenantID = id) ∨ ∃ r ∈ db.instancePlans.rows, r.2.tenantID = id) := by
  unfold deleteTenantCascade deleteTenant
  split
  · next h =>
    refine Or.inr ⟨rfl, ?_⟩
    obtain ⟨e, he, hid⟩ | hip | hssh | hplan | ⟨r, hr, hid⟩ := h.2
    · exact absurd hid (instances_withoutTenant id db e he)
    · exact Or.inl hip
    · exact Or.inr (Or.inl hssh)
    · exact Or.inr (Or.inr hplan)
    · exact absurd hid (createTasks_withoutTenant id db r hr)
  · exact Or.inl rfl

/-- A deletion succeeds, leaves nothing of the tenant and keeps the rows of the others if and only if nothing of
the tenant is in the tables that it has no statement for. -/
theorem deleteTenantCascade_complete_iff (id : Int) (db : Tables) :
    (∃ db', deleteTenantCascade id db = .ok db' ∧ Unnamed id (InstanceOf id db) db' ∧
      OthersKept id (InstanceOf id db) db db') ↔ NoLeftovers id (InstanceOf id db) db := by
  constructor
  · rintro ⟨db', hdel, hun, -⟩
    obtain hok | ⟨herr, -⟩ := deleteTenantCascade_eq id db
    · obtain rfl := Except.ok.inj (hok.symm.trans hdel)
      exact (unnamed_withoutTenant_iff id _ db).mp hun
    · cases herr.symm.trans hdel
  · intro h
    obtain hok | ⟨-, ⟨r, hr, hid⟩ | ⟨r, hr, hid⟩ | ⟨r, hr, hid⟩⟩ := deleteTenantCascade_eq id db
    · exact ⟨_, hok, (unnamed_withoutTenant_iff id _ db).mpr h, othersKept_withoutTenant id _ db⟩
    · exact absurd hid (h.ipData r hr)
    · exact absurd hid (h.sshKeys r hr)
    · exact absurd hid (h.instancePlans r hr)

/-! ## A tenant with a network range -/

def exampleTenants : KeyTable Tenant := KeyTable.empty.insert { name := "acme" }

def exampleTables : Except SqlError Tables :=
  (createIpDataImportTx exampleTenants .empty { tenantID := 1, cidr := "10.0.0.0/8" }).map fun ipData =>
    { tenants := exampleTenants, ipData }

/-- The range, added by the program's own statements, makes the deletion fail. -/
theorem deleteTenantCascade_blocked : ∃ db, exampleTables = .ok db ∧ (db.tenants.get 1).isSome ∧
    deleteTenantCascade 1 db = .error .foreignKey :=
  ⟨_, rfl, rfl, rfl⟩

end OciHelper.Db
