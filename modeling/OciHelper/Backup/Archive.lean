import OciHelper.Db.Tables

/-!
# Backup and restore

* `BackupData` : what a backup file holds; `Codec` : how it is written and read;
* `Server` : the tables, the directory of key files and the key in memory; an `Installation` keeps the
  constraints of the schema and has file names for its key files;
* `handleBackup`, `restoreData` : the two operations.

Disk accesses succeed. `restoreTx` is the transaction inside `restoreData`: it either gives the tables
it commits or rolls back.
-/

namespace OciHelper.Backup
open OciHelper.Db

abbrev KeyFiles := AList fun _ : String => List UInt8

structure BackupData where
  tenants : List TenantRecord
  instances : List InstanceRecord
  config : List (String × String)
  users : List User
  cfCfgs : List (Int × CfCfg)
  ipData : List (Int × IpData)
  sshKeys : List SSHKeyRecord
  instancePlans : List (Int × InstancePlan)
  stockAlerts : List (Int × StockAlert)
  tasks : List (Int × Task)
  createTasks : List (Int × CreateTask)
  dnsBindings : List (Int × InstanceDNSBinding)
  keyFiles : List (String × List UInt8)

/-- JSON, the encryption under a password, and the text form of a file, each undone by its inverse.
`noise` is what the encryption reads from the random source. -/
structure Codec where
  Plain : Type
  Sealed : Type
  Text : Type
  marshal : BackupData → Plain
  unmarshal : Plain → Option BackupData
  encrypt : (noise : List UInt8) → Plain → (password : String) → Sealed
  decrypt : Sealed → (password : String) → Option Plain
  encodeToString : Sealed → Text
  decodeString : Text → Option Sealed
  unmarshal_marshal : ∀ data, unmarshal (marshal data) = some data
  decrypt_encrypt : ∀ noise plain password, decrypt (encrypt noise plain password) password = some plain
  decode_encode : ∀ file, decodeString (encodeToString file) = some file

/-- A file that is the data itself next to its password. -/
def Codec.bare : Codec where
  Plain := BackupData
  Sealed := String × BackupData
  Text := String × BackupData
  marshal data := data
  unmarshal data := some data
  encrypt _ plain password := (password, plain)
  decrypt file password := if file.1 = password then some file.2 else none
  encodeToString file := file
  decodeString file := some file
  unmarshal_marshal _ := rfl
  decrypt_encrypt _ _ _ := if_pos rfl
  decode_encode _ := rfl

structure Server where
  db : Tables
  keysDir : KeyFiles := ∅
  secretKey : Option Key

structure Installation extends Server where
  consistent : db.Consistent
  plain : ∀ e ∈ keysDir.entries, e.1 ≠ "" ∧ '/' ∉ e.1.toList

theorem plain_empty : ∀ e ∈ (∅ : KeyFiles).entries, e.1 ≠ "" ∧ '/' ∉ e.1.toList :=
  fun _ h => absurd h List.not_mem_nil

variable (gcm : Gcm) (codec : Codec)

/-! ## Backup -/

def tenantRecord (r : Int × Tenant) : TenantRecord :=
  { id := r.1, name := r.2.name, userOCID := r.2.userOCID, tenancyOCID := r.2.tenancyOCID,
    region := r.2.region, fingerprint := r.2.fingerprint, keyFile := r.2.keyFile, status := r.2.status }

def instanceRecord (e : Sigma fun _ : String => Instance) : InstanceRecord :=
  { id := e.1, name := e.2.name, ocid := e.2.ocid, shape := e.2.shape, state := e.2.state,
    publicIP := e.2.publicIP, privateIP := e.2.privateIP, region := e.2.region,
    availabilityDomain := e.2.availabilityDomain, faultDomain := e.2.faultDomain,
    imageID := e.2.imageID, subnetID := e.2.subnetID, tenantID := e.2.tenantID, ocpu := e.2.ocpu,
    memoryGB := e.2.memoryGB, bootVolumeGB := e.2.bootVolumeGB }

def collect (s : Server) : BackupData where
  tenants := (listTenants s.db).map tenantRecord
  instances := (listInstances s.db).map instanceRecord
  config := (listAllConfig s.db).map fun e => (e.1, e.2)
  -- each user is read again, with the columns that the list leaves out
  users := (listUsers s.db).filterMap fun r => getUserByUsername s.db r.2.username
  cfCfgs := listCfCfgs s.db
  ipData := listIpData s.db
  sshKeys := listSSHKeys s.db
  instancePlans := listInstancePlans s.db
  stockAlerts := listStockAlerts s.db
  tasks := listTasks s.db.tasks
  createTasks := listCreateTasks gcm s.secretKey s.db
  dnsBindings := listInstanceDNSBindings s.db
  keyFiles := s.keysDir.entries.map fun e => (e.1, e.2)

def handleBackup (s : Server) (noise : List UInt8) (password : String) : Except String codec.Text :=
  if password = "" then .error "password required"
  else .ok (codec.encodeToString (codec.encrypt noise (codec.marshal (collect gcm s)) password))

/-! ## Restore -/

inductive RestoreError
  | invalidData
  | decryptFailed
  | invalidBackup
  | statement (what : String) (cause : SqlError)
  | invalidName (name : String)
  deriving DecidableEq, Repr

/-- One loop of the transaction: a statement for each record, up to the first that fails. -/
def importEach {σ ρ : Type} (what : String) (stmt : σ → ρ → Except SqlError σ) (s : σ) (rs : List ρ) :
    Except RestoreError σ :=
  match rs.foldlM stmt s with
  | .ok s => .ok s
  | .error e => .error (.statement what e)

/-- `rand i` is what the encryption of the `i`-th password reads from the random source. -/
def restoreTx (key : Option Key) (rand : Nat → Nonce) (payload : BackupData) (db : Tables) :
    Except RestoreError Tables := do
  let db := clearAllTx db
  let tenants ← importEach "tenant" createTenantImportWithIDTx db.tenants payload.tenants
  let instances ← importEach "instance" (upsertInstanceImportTx tenants) db.instances payload.instances
  let config ← importEach "config" (fun c kv => setConfigTx c kv.1 kv.2) db.config payload.config
  let users ← importEach "user" createUserImportTx db.users payload.users
  let cfConfigs ← importEach "cf config" (fun t r => createCfCfgImportTx t r.2) db.cfConfigs payload.cfCfgs
  let ipData ← importEach "ip data" (fun t r => createIpDataImportTx tenants t r.2) db.ipData payload.ipData
  let sshKeys ← importEach "ssh key" (fun t r => createSSHKeyImportTx tenants t r.row) db.sshKeys
    payload.sshKeys
  let instancePlans ← importEach "instance plan" (fun t r => createInstancePlanImportTx tenants t r.2)
    db.instancePlans payload.instancePlans
  let stockAlerts ← importEach "stock alert" (fun t r => createStockAlertImportTx t r.2) db.stockAlerts
    payload.stockAlerts
  let tasks ← importEach "task" (fun t r => createTaskImportTx t r.2) db.tasks payload.tasks
  let createTasks ← importEach "recurring task"
    (fun t r => createCreateTaskTx gcm key (rand r.2) tenants t r.1.2) db.createTasks
    payload.createTasks.zipIdx
  let dnsBindings ← importEach "dns binding" (fun t r => createInstanceDNSBindingImportTx t r.2)
    db.dnsBindings payload.dnsBindings
  return { tenants, instances, config, users, cfConfigs, ipData, sshKeys, instancePlans, stockAlerts,
           tasks, createTasks, dnsBindings }

/-- `filepath.Base`, on the characters of a path. -/
def base (path : List Char) : List Char :=
  if path = [] then ['.']
  else
    let trimmed := (path.reverse.dropWhile (· == '/')).reverse
    let last := (trimmed.reverse.takeWhile (· != '/')).reverse
    if last = [] then ['/'] else last

/-- Write the key files up to the first invalid name. -/
def writeKeyFiles (keysDir : KeyFiles) : List (String × List UInt8) → KeyFiles × Except RestoreError Unit
  | [] => (keysDir, .ok ())
  | (name, content) :: rest =>
    if name = "" then writeKeyFiles keysDir rest
    else if base name.toList ≠ name.toList then (keysDir, .error (.invalidName name))
    else writeKeyFiles (keysDir.insert name content) rest

/-- `restoreData` returns the numbers of restored tenants and instances. -/
def restoreData (rand : Nat → Nonce) (password : String) (data : codec.Text) (s : Server) :
    Server × Except RestoreError (Nat × Nat) :=
  match codec.decodeString data with
  | none => (s, .error .invalidData)
  | some encrypted =>
    match codec.decrypt encrypted password with
    | none => (s, .error .decryptFailed)
    | some plain =>
      match codec.unmarshal plain with
      | none => (s, .error .invalidBackup)
      | some payload =>
        match restoreTx gcm s.secretKey rand payload s.db with
        | .error e => (s, .error e)
        | .ok db =>
          match writeKeyFiles s.keysDir payload.keyFiles with
          | (keysDir, .error e) => ({ s with db, keysDir }, .error e)
          | (keysDir, .ok _) =>
            ({ s with db, keysDir }, .ok (payload.tenants.length, payload.instances.length))

end OciHelper.Backup
