import OciHelper.Db.Secrets
import OciHelper.Db.Tasks
import OciHelper.Schedule.Scheduler
import Mathlib.Data.Rat.Defs

/-!
# The tables a backup exports

* `Tenant`, `Instance`, `CfCfg`, ... : the columns of one row. The times `created_at`, `updated_at` and
  `synced_at` are left out, and a float is the rational number it stands for;
* `Tables` : all of them; `Tables.Consistent` : the foreign keys and the unique user names hold;
* `listTenants`, `listSSHKeys`, ... : the list queries, each without its filters;
* `createTenantImportWithIDTx`, ... : the statements of a restore.

A query reads and a statement fails only as the schema makes it fail.
-/

namespace OciHelper.Db

/-! ## Rows -/

structure Tenant where
  name : String
  userOCID : String := ""
  tenancyOCID : String := ""
  region : String := ""
  fingerprint : String := ""
  keyFile : String := ""
  status : String := "active"
  accountStatus : String := ""
  homeRegion : String := ""
  subscribed : String := ""
  deriving DecidableEq, Repr

structure Instance where
  tenantID : Int
  name : String := ""
  ocid : String := ""
  shape : String := ""
  ocpu : Rat := 0
  memoryGB : Rat := 0
  bootVolumeGB : Int := 0
  publicIP : String := ""
  privateIP : String := ""
  state : String := ""
  availabilityDomain : String := ""
  faultDomain : String := ""
  imageID : String := ""
  subnetID : String := ""
  region : String := ""
  dnsLastIP : String := ""
  deriving DecidableEq, Repr

structure User where
  username : String
  passwordHash : String := ""
  role : String := "user"
  mfaEnabled : Bool := false
  mfaSecret : String := ""
  email : String := ""
  deriving DecidableEq, Repr

structure CfCfg where
  name : String
  token : String := ""
  email : String := ""
  apiKey : String := ""
  zoneID : String := ""
  enabled : Bool := true
  deriving DecidableEq, Repr

structure InstanceDNSBinding where
  instanceID : String
  tenantID : Int := 0
  name : String := ""
  cfCfgID : Int := 0
  zoneID : String := ""
  proxied : Bool := false
  ttl : Int := 120
  enabled : Bool := true
  deriving DecidableEq, Repr

structure IpData where
  tenantID : Int
  cidr : String := ""
  label : String := ""
  type : String := "pool"
  enabled : Bool := true
  lat : Rat := 0
  lng : Rat := 0
  country : String := ""
  area : String := ""
  city : String := ""
  org : String := ""
  asn : String := ""
  deriving DecidableEq, Repr

structure SSHKey where
  name : String := ""
  publicKey : String := ""
  privateKey : String := ""
  fingerprint : String := ""
  tenantID : Int
  deriving DecidableEq, Repr

structure InstancePlan where
  name : String
  tenantID : Int
  shape : String := ""
  imageID : String := ""
  subnetID : String := ""
  availabilityDomain : String := ""
  bootVolumeSizeGB : Int := 50
  ocpus : Rat := 1
  memoryGB : Rat := 1
  deriving DecidableEq, Repr

structure StockAlert where
  tenantID : Int
  region : String
  shape : String
  availabilityDomain : String := ""
  chatID : Int := 0
  enabled : Bool := true
  lastCheckedAt : Option Nat := none
  lastStockStatus : String := ""
  deriving DecidableEq, Repr

/-- A row of `create_tasks` with all its columns. -/
structure CreateTask extends Schedule.CreateTask where
  region : String := ""
  ocpus : Rat := 1
  memoryGB : Rat := 1
  disk : Int := 50
  architecture : String := "AMD"
  operationSystem : String := "Ubuntu"
  rootPassword : String := ""
  deriving DecidableEq, Repr

/-- No statement of the program writes NULL into a tenant column. -/
structure Tables where
  tenants : KeyTable Tenant := .empty
  instances : AList fun _ : String => Instance := ∅
  config : Config := ∅
  users : KeyTable User := .empty
  cfConfigs : KeyTable CfCfg := .empty
  ipData : KeyTable IpData := .empty
  sshKeys : KeyTable SSHKey := .empty
  instancePlans : KeyTable InstancePlan := .empty
  stockAlerts : KeyTable StockAlert := .empty
  tasks : Tasks := .empty
  createTasks : KeyTable CreateTask := .empty
  dnsBindings : KeyTable InstanceDNSBinding := .empty

/-- The tenant columns declared `REFERENCES tenants(id)` and the unique column of `users`. -/
structure Tables.Consistent (db : Tables) : Prop where
  instances : ∀ e ∈ db.instances.entries, (db.tenants.get e.2.tenantID).isSome
  ipData : ∀ r ∈ db.ipData.rows, (db.tenants.get r.2.tenantID).isSome
  sshKeys : ∀ r ∈ db.sshKeys.rows, (db.tenants.get r.2.tenantID).isSome
  instancePlans : ∀ r ∈ db.instancePlans.rows, (db.tenants.get r.2.tenantID).isSome
  createTasks : ∀ r ∈ db.createTasks.rows, (db.tenants.get r.2.tenantID).isSome
  usernames : (db.users.rows.map fun r => r.2.username).Nodup

/-! ## List queries -/

variable (gcm : Gcm)

def listTenants (db : Tables) : List (Int × Tenant) := db.tenants.newest

/-- The order, by creation time in the source, is that of the table here. -/
def listInstances (db : Tables) : List (Sigma fun _ : String => Instance) := db.instances.entries

/-- The order, by key in the source, is that of the table here. -/
def listAllConfig (db : Tables) : List (Sigma fun _ : String => String) := db.config.entries

/-- `ListUsers`, without the columns it does not select. -/
def listUsers (db : Tables) : List (Int × User) :=
  db.users.rows.map fun r => (r.1, { r.2 with passwordHash := "", mfaSecret := "" })

def getUserByUsername (db : Tables) (username : String) : Option User :=
  (db.users.rows.find? fun r => r.2.username == username).map Prod.snd

def listCfCfgs (db : Tables) : List (Int × CfCfg) := db.cfConfigs.newest

def getCfCfg (db : Tables) (id : Int) : Option CfCfg := db.cfConfigs.get id

def listIpData (db : Tables) : List (Int × IpData) := db.ipData.newest

/-- The struct `db.SSHKey`: a row, its `ID` and the name of its tenant. -/
structure SSHKeyRecord where
  id : Int
  row : SSHKey
  tenantName : String

/-- `private_key` is not among the selected columns. -/
def listSSHKeys (db : Tables) : List SSHKeyRecord :=
  db.sshKeys.newest.map fun r =>
    { id := r.1
      row := { r.2 with privateKey := "" }
      tenantName := ((db.tenants.get r.2.tenantID).map Tenant.name).getD "" }

def listInstancePlans (db : Tables) : List (Int × InstancePlan) := db.instancePlans.newest

def listStockAlerts (db : Tables) : List (Int × StockAlert) := db.stockAlerts.newest

/-- `scanCreateTask` decrypts the password. -/
def scanCreateTask (key : Option Key) (t : CreateTask) : CreateTask :=
  { t with rootPassword := decryptSecret gcm key t.rootPassword }

def listCreateTasks (key : Option Key) (db : Tables) : List (Int × CreateTask) :=
  db.createTasks.newest.map fun r => (r.1, scanCreateTask gcm key r.2)

def listInstanceDNSBindings (db : Tables) : List (Int × InstanceDNSBinding) := db.dnsBindings.rows

/-! ## Import statements -/

inductive SqlError
  | primaryKey
  | unique
  | foreignKey
  deriving DecidableEq, Repr

structure TenantRecord where
  id : Int
  name : String
  userOCID : String
  tenancyOCID : String
  region : String
  fingerprint : String
  keyFile : String
  status : String
  deriving DecidableEq, Repr

structure InstanceRecord where
  id : String
  name : String
  ocid : String
  shape : String
  state : String
  publicIP : String
  privateIP : String
  region : String
  availabilityDomain : String
  faultDomain : String
  imageID : String
  subnetID : String
  tenantID : Int
  ocpu : Rat
  memoryGB : Rat
  bootVolumeGB : Int
  deriving DecidableEq, Repr

/-- `ClearAllTx`; an `AUTOINCREMENT` counter outlives its rows. -/
def clearAllTx (db : Tables) : Tables where
  tenants := db.tenants.clear
  instances := ∅
  config := ∅
  users := db.users.clear
  cfConfigs := db.cfConfigs.clear
  ipData := db.ipData.clear
  sshKeys := db.sshKeys.clear
  instancePlans := db.instancePlans.clear
  stockAlerts := db.stockAlerts.clear
  tasks := db.tasks.clear
  createTasks := db.createTasks.clear
  dnsBindings := db.dnsBindings.clear

/-- The status columns take their defaults. -/
def createTenantImportWithIDTx (tenants : KeyTable Tenant) (t : TenantRecord) :
    Except SqlError (KeyTable Tenant) :=
  match tenants.insertAt t.id
    { name := t.name, userOCID := t.userOCID, tenancyOCID := t.tenancyOCID, region := t.region,
      fingerprint := t.fingerprint, keyFile := t.keyFile } with
  | some tenants => .ok tenants
  | none => .error .primaryKey

/-- An upsert leaves `tenant_id`, `ocid` and `dns_last_ip` of a row that is there. -/
def upsertInstanceImportTx (tenants : KeyTable Tenant) (instances : AList fun _ : String => Instance)
    (i : InstanceRecord) : Except SqlError (AList fun _ : String => Instance) :=
  let put (old : Instance) : Instance :=
    { old with
      name := i.name, shape := i.shape, ocpu := i.ocpu, memoryGB := i.memoryGB,
      bootVolumeGB := i.bootVolumeGB, state := i.state, availabilityDomain := i.availabilityDomain,
      faultDomain := i.faultDomain, imageID := i.imageID, subnetID := i.subnetID,
      publicIP := i.publicIP, privateIP := i.privateIP, region := i.region }
  match instances.lookup i.id with
  | some old => .ok (instances.insert i.id (put old))
  | none =>
    if (tenants.get i.tenantID).isSome then
      .ok (instances.insert i.id (put { tenantID := i.tenantID, ocid := i.ocid, dnsLastIP := "" }))
    else .error .foreignKey

def setConfigTx (config : Config) (key value : String) : Except SqlError Config :=
  .ok (setConfig config key value)

def createUserImportTx (users : KeyTable User) (u : User) : Except SqlError (KeyTable User) :=
  if u.username ∈ users.rows.map (fun r => r.2.username) then .error .unique
  else .ok (users.insert u)

def createCfCfgImportTx (cfConfigs : KeyTable CfCfg) (c : CfCfg) : Except SqlError (KeyTable CfCfg) :=
  .ok (cfConfigs.insert c)

/-- An insertion into a table whose tenant column is a foreign key. -/
def insertOfTenant {α : Type} (tenantID : α → Int) (tenants : KeyTable Tenant) (rows : KeyTable α) (v : α) :
    Except SqlError (KeyTable α) :=
  if (tenants.get (tenantID v)).isSome then .ok (rows.insert v) else .error .foreignKey

def createIpDataImportTx (tenants : KeyTable Tenant) (ipData : KeyTable IpData) (d : IpData) :
    Except SqlError (KeyTable IpData) :=
  insertOfTenant IpData.tenantID tenants ipData d

def createSSHKeyImportTx (tenants : KeyTable Tenant) (sshKeys : KeyTable SSHKey) (k : SSHKey) :
    Except SqlError (KeyTable SSHKey) :=
  insertOfTenant SSHKey.tenantID tenants sshKeys k

def createInstancePlanImportTx (tenants : KeyTable Tenant) (plans : KeyTable InstancePlan)
    (p : InstancePlan) : Except SqlError (KeyTable InstancePlan) :=
  insertOfTenant InstancePlan.tenantID tenants plans p

/-- Without `last_checked_at` and `last_stock_status`. -/
def createStockAlertImportTx (alerts : KeyTable StockAlert) (a : StockAlert) :
    Except SqlError (KeyTable StockAlert) :=
  .ok (alerts.insert
    { tenantID := a.tenantID, region := a.region, shape := a.shape,
      availabilityDomain := a.availabilityDomain, chatID := a.chatID, enabled := a.enabled })

/-- Without `started_at` and `finished_at`. -/
def createTaskImportTx (tasks : Tasks) (t : Task) : Except SqlError Tasks :=
  .ok (tasks.insert
    { tenantId := t.tenantId, parentTaskId := t.parentTaskId, type := t.type, status := t.status,
      progress := t.progress, message := t.message, payload := t.payload, result := t.result })

/-- Encrypted under the key in memory, and without `last_run_at`. -/
def createCreateTaskTx (key : Option Key) (nonce : Nonce) (tenants : KeyTable Tenant)
    (createTasks : KeyTable CreateTask) (t : CreateTask) : Except SqlError (KeyTable CreateTask) :=
  insertOfTenant (fun t => t.tenantID) tenants createTasks
    { tenantID := t.tenantID, region := t.region, ocpus := t.ocpus, memoryGB := t.memoryGB,
      disk := t.disk, architecture := t.architecture, intervalSeconds := t.intervalSeconds,
      createNumbers := t.createNumbers, operationSystem := t.operationSystem,
      rootPassword := encryptSecret gcm key nonce t.rootPassword, paused := t.paused }

def createInstanceDNSBindingImportTx (bindings : KeyTable InstanceDNSBinding) (b : InstanceDNSBinding) :
    Except SqlError (KeyTable InstanceDNSBinding) :=
  .ok (bindings.insert b)

end OciHelper.Db
