import OciHelper.Audit.Shutdown
import OciHelper.Backup.Archive

/-!
# A restore whose accesses fail

* `Database` : the tables, with the two that a restore only empties;
* `Disk` : which statements and which accesses to the directory fail;
* `restoreData` : as in `Archive`, with these failures; `restoreTx_sound` : without them the transaction is that one;
* `AllOrNothing` : after an error the database and the key files are what they were;
* `allOrNothing_iff_harmless` : exactly when this is so.

A transaction that does not commit is rolled back. Times are left out.
-/

namespace OciHelper.Backup.Faults
open OciHelper.Db

structure LoginBlacklist where
  ip : String
  reason : String
  deriving DecidableEq, Repr

structure Database extends Tables where
  loginBlacklist : List LoginBlacklist := []
  auditLogs : List Audit.AuditLog := []

structure Host where
  db : Database
  keysDir : KeyFiles := ∅
  secretKey : Option Key

/-- `WriteFile` does not open the file, or writes only the first `n` bytes to it, possibly all of them. -/
inductive WriteFault
  | notOpened
  | short (n : Nat)
  deriving DecidableEq, Repr

/-- What succeeds: the transaction's `i`-th statement, and what happens to the `i`-th key file. -/
structure Disk where
  beginTx : Bool := true
  stmt : Nat → Bool := fun _ => true
  commit : Bool := true
  mkdirAll : Bool := true
  writeFile : Nat → Option WriteFault := fun _ => none

inductive Failure
  | refused (e : RestoreError)
  | beginTx
  | clear
  | statement (what : String)
  | commit
  | mkdirAll
  | writeFile (name : String)
  deriving DecidableEq, Repr

variable (gcm : Gcm) (codec : Codec) (disk : Disk)

/-! ## The transaction -/

/-- One loop of the transaction; the first of its statements has the number `first`. -/
def importEach {σ ρ : Type} (first : Nat) (what : String) (stmt : σ → ρ → Except SqlError σ) (s : σ) (rs : List ρ) :
    Except Failure σ :=
  (rs.zipIdx first).foldlM (fun s r =>
    if disk.stmt r.2 then (stmt s r.1).mapError fun e => .refused (.statement what e)
    else .error (.statement what)) s

/-- `ClearAllTx` empties fourteen tables. -/
def restoreTx (key : Option Key) (rand : Nat → Nonce) (payload : BackupData) (db : Database) :
    Except Failure Database := do
  if !disk.beginTx then throw .beginTx
  if !(List.range 14).all disk.stmt then throw .clear
  let db := clearAllTx db.toTables
  let n := 14
  let tenants ← importEach disk n "tenant" createTenantImportWithIDTx db.tenants payload.tenants
  let n := n + payload.tenants.length
  let instances ← importEach disk n "instance" (upsertInstanceImportTx tenants) db.instances payload.instances
  let n := n + payload.instances.length
  let config ← importEach disk n "config" (fun c kv => setConfigTx c kv.1 kv.2) db.config payload.config
  let n := n + payload.config.length
  let users ← importEach disk n "user" createUserImportTx db.users payload.users
  let n := n + payload.users.length
  let cfConfigs ← importEach disk n "cf config" (fun t r => createCfCfgImportTx t r.2) db.cfConfigs payload.cfCfgs
  let n := n + payload.cfCfgs.length
  let ipData ← importEach disk n "ip data" (fun t r => createIpDataImportTx tenants t r.2) db.ipData payload.ipData
  let n := n + payload.ipData.length
  let sshKeys ← importEach disk n "ssh key" (fun t r => createSSHKeyImportTx tenants t r.row) db.sshKeys
    payload.sshKeys
  let n := n + payload.sshKeys.length
  let instancePlans ← importEach disk n "instance plan" (fun t r => createInstancePlanImportTx tenants t r.2)
    db.instancePlans payload.instancePlans
  let n := n + payload.instancePlans.length
  let stockAlerts ← importEach disk n "stock alert" (fun t r => createStockAlertImportTx t r.2) db.stockAlerts
    payload.stockAlerts
  let n := n + payload.stockAlerts.length
  let tasks ← importEach disk n "task" (fun t r => createTaskImportTx t r.2) db.tasks payload.tasks
  let n := n + payload.tasks.length
  let createTasks ← importEach disk n "recurring task"
    (fun t r => createCreateTaskTx gcm key (rand r.2) tenants t r.1.2) db.createTasks payload.createTasks.zipIdx
  let n := n + payload.createTasks.length
  let dnsBindings ← importEach disk n "dns binding" (fun t r => createInstanceDNSBindingImportTx t r.2)
    db.dnsBindings payload.dnsBindings
  if !disk.commit then throw .commit
  return { tenants, instances, config, users, cfConfigs, ipData, sshKeys, instancePlans, stockAlerts,
           tasks, createTasks, dnsBindings }

theorem importEach_sound {σ ρ : Type} (first : Nat) (what : String) (stmt : σ → ρ → Except SqlError σ) (s : σ)
    (rs : List ρ) :
    importEach {} first what stmt s rs = (Backup.importEach what stmt s rs).mapError .refused := by
  unfold importEach Backup.importEach
  induction rs generalizing s first with
  | nil => rfl
  | cons r rs ih =>
    rw [List.zipIdx_cons, List.foldlM_cons, List.foldlM_cons]
    cases hs : stmt s r with
    | error e => rfl
    | ok s' => exact ih (first + 1) s'

theorem bind_sound {α β β' : Type} {x : Except RestoreError α} {k : α → Except RestoreError β}
    {k' : α → Except Failure β'} {f : β → β'} (h : ∀ a, k' a = ((k a).map f).mapError .refused) :
    (x.mapError .refused >>= k') = ((x >>= k).map f).mapError .refused := by
  cases x with
  | error e => rfl
  | ok a => exact h a

/-- The tables that a transaction commits. -/
def committed (db : Tables) : Database := { db with }

theorem restoreTx_sound (key : Option Key) (rand : Nat → Nonce) (payload : BackupData) (db : Database) :
    restoreTx gcm {} key rand payload db =
      ((Backup.restoreTx gcm key rand payload db.toTables).map committed).mapError .refused := by
  unfold restoreTx Backup.restoreTx
  have hclear : (List.range 14).all ({} : Disk).stmt = true := rfl
  simp only [importEach_sound, hclear, Bool.not_true, Bool.false_eq_true, if_false]
  iterate 12 refine bind_sound fun _ => ?_
  rfl

/-! ## The key files -/

/-- The names that `base` leaves alone and that stand for a directory. -/
def directories : List String := [".", "..", "/"]

/-- How the `i`-th file fails: `none` if it is skipped or written. -/
def fileFault (i : Nat) (f : String × List UInt8) : Option Failure :=
  if f.1 = "" then none
  else if base f.1.toList ≠ f.1.toList then some (.refused (.invalidName f.1))
  else if f.1 ∈ directories ∨ (disk.writeFile i).isSome then some (.writeFile f.1)
  else none

/-- What a failure leaves of the `i`-th file. -/
def remnant (i : Nat) (f : String × List UInt8) : List (String × List UInt8) :=
  if base f.1.toList ≠ f.1.toList ∨ f.1 ∈ directories then []
  else
    match disk.writeFile i with
    | some (.short n) => [(f.1, f.2.take n)]
    | _ => []

/-- Write the key files up to the first failure, counted from `i`. -/
def writeKeyFiles (keysDir : KeyFiles) (i : Nat) : List (String × List UInt8) → KeyFiles × Except Failure Unit
  | [] => (keysDir, .ok ())
  | f :: rest =>
    if f.1 = "" then writeKeyFiles keysDir (i + 1) rest
    else
      match fileFault disk i f with
      | some e => ((remnant disk i f).foldl (fun d r => d.insert r.1 r.2) keysDir, .error e)
      | none => writeKeyFiles (keysDir.insert f.1 f.2) (i + 1) rest

/-! ## The restore -/

def payloadOf (password : String) (data : codec.Text) : Except RestoreError BackupData :=
  match codec.decodeString data with
  | none => .error .invalidData
  | some encrypted =>
    match codec.decrypt encrypted password with
    | none => .error .decryptFailed
    | some plain =>
      match codec.unmarshal plain with
      | none => .error .invalidBackup
      | some payload => .ok payload

def restoreData (rand : Nat → Nonce) (password : String) (data : codec.Text) (s : Host) :
    Host × Except Failure (Nat × Nat) :=
  match payloadOf codec password data with
  | .error e => (s, .error (.refused e))
  | .ok payload =>
    match restoreTx gcm disk s.secretKey rand payload s.db with
    | .error e => (s, .error e)
    | .ok db =>
      if !disk.mkdirAll then ({ s with db }, .error .mkdirAll)
      else
        match writeKeyFiles disk s.keysDir 0 payload.keyFiles with
        | (keysDir, .error e) => ({ s with db, keysDir }, .error e)
        | (keysDir, .ok _) => ({ s with db, keysDir }, .ok (payload.tenants.length, payload.instances.length))

/-! ## All or nothing -/

/-- The rows of every table agree. -/
structure SameContents (db db' : Database) : Prop where
  tenants : db'.tenants.rows = db.tenants.rows
  instances : ∀ id, db'.instances.lookup id = db.instances.lookup id
  config : ∀ key, db'.config.lookup key = db.config.lookup key
  users : db'.users.rows = db.users.rows
  cfConfigs : db'.cfConfigs.rows = db.cfConfigs.rows
  ipData : db'.ipData.rows = db.ipData.rows
  sshKeys : db'.sshKeys.rows = db.sshKeys.rows
  instancePlans : db'.instancePlans.rows = db.instancePlans.rows
  stockAlerts : db'.stockAlerts.rows = db.stockAlerts.rows
  tasks : db'.tasks.rows = db.tasks.rows
  createTasks : db'.createTasks.rows = db.createTasks.rows
  dnsBindings : db'.dnsBindings.rows = db.dnsBindings.rows
  loginBlacklist : db'.loginBlacklist = db.loginBlacklist
  auditLogs : db'.auditLogs = db.auditLogs

def SameFiles (d d' : KeyFiles) : Prop := ∀ name, d'.lookup name = d.lookup name

def AllOrNothing (s : Host) (r : Host × Except Failure (Nat × Nat)) : Prop :=
  ∀ e, r.2 = .error e → SameContents s.db r.1.db ∧ SameFiles s.keysDir r.1.keysDir

/-- The files before the first one that fails, and what is left of that. -/
def written (i : Nat) (fs : List (String × List UInt8)) : List (String × List UInt8) :=
  let before := (fs.zipIdx i).takeWhile fun r => (fileFault disk r.2 r.1).isNone
  (before.map Prod.fst).filter (·.1 ≠ "") ++
    ((fs.zipIdx i).find? fun r => (fileFault disk r.2 r.1).isSome).elim [] fun r => remnant disk r.2 r.1

/-- If the transaction commits, nothing fails after it, or else it commits the rows that were there and what is written
last to a key file was its contents before. -/
def Harmless (rand : Nat → Nonce) (password : String) (data : codec.Text) (s : Host) : Prop :=
  ∀ payload db, payloadOf codec password data = .ok payload →
    restoreTx gcm disk s.secretKey rand payload s.db = .ok db →
      (disk.mkdirAll = true ∧ ∀ r ∈ payload.keyFiles.zipIdx, fileFault disk r.2 r.1 = none) ∨
        SameContents s.db db ∧ (disk.mkdirAll = true → ∀ name content,
          (written disk 0 payload.keyFiles).reverse.lookup name = some content → s.keysDir.lookup name = some content)

variable {disk}

theorem lookup_foldl_insert {β : Type} (ws : List (String × β)) (name : String) : ∀ d : AList fun _ : String => β,
    (ws.foldl (fun d r => d.insert r.1 r.2) d).lookup name = (ws.reverse.lookup name).or (d.lookup name) := by
  induction ws with
  | nil => intro d; rfl
  | cons w ws ih =>
    intro d
    obtain ⟨n, content⟩ := w
    rw [List.foldl_cons, ih, List.reverse_cons, List.lookup_append, Option.or_assoc]
    by_cases he : name = n
    · rw [he, AList.lookup_insert, List.lookup_cons_self]
      rfl
    · have hne : (name == n) = false := beq_eq_false_iff_ne.mpr he
      rw [AList.lookup_insert_ne he, List.lookup_cons, hne]
      rfl

theorem fileFault_of_empty {f : String × List UInt8} (h : f.1 = "") (i : Nat) : fileFault disk i f = none := if_pos h

theorem written_cons_of_none {i : Nat} {f : String × List UInt8} (h : fileFault disk i f = none)
    (fs : List (String × List UInt8)) :
    written disk i (f :: fs) = (if f.1 = "" then [] else [f]) ++ written disk (i + 1) fs := by
  unfold written
  by_cases hempty : f.1 = ""
  · simp [List.zipIdx_cons, h, hempty]
  · simp [List.zipIdx_cons, h, hempty]

theorem written_cons_of_some {i : Nat} {f : String × List UInt8} {e : Failure} (h : fileFault disk i f = some e)
    (fs : List (String × List UInt8)) : written disk i (f :: fs) = remnant disk i f := by
  simp [written, List.zipIdx_cons, h]

/-- The files up to the first failure are written in their order. -/
theorem writeKeyFiles_fst (fs : List (String × List UInt8)) : ∀ (d : KeyFiles) (i : Nat),
    (writeKeyFiles disk d i fs).1 = (written disk i fs).foldl (fun d r => d.insert r.1 r.2) d := by
  induction fs with
  | nil => intro d i; rfl
  | cons f fs ih =>
    intro d i
    unfold writeKeyFiles
    by_cases hempty : f.1 = ""
    · rw [if_pos hempty, ih, written_cons_of_none (fileFault_of_empty hempty i), if_pos hempty, List.nil_append]
    · rw [if_neg hempty]
      cases hf : fileFault disk i f with
      | none => rw [written_cons_of_none hf, if_neg hempty]; exact ih _ _
      | some e => rw [written_cons_of_some hf]

/-- They are written without a failure just when none of them fails. -/
theorem writeKeyFiles_ok_iff (fs : List (String × List UInt8)) : ∀ (d : KeyFiles) (i : Nat),
    (writeKeyFiles disk d i fs).2 = .ok () ↔ ∀ r ∈ fs.zipIdx i, fileFault disk r.2 r.1 = none := by
  induction fs with
  | nil => intro d i; exact iff_of_true rfl fun r hr => by cases hr
  | cons f fs ih =>
    intro d i
    unfold writeKeyFiles
    rw [List.zipIdx_cons, List.forall_mem_cons]
    by_cases hempty : f.1 = ""
    · rw [if_pos hempty, ih]
      exact (and_iff_right (fileFault_of_empty hempty i)).symm
    · rw [if_neg hempty]
      cases hf : fileFault disk i f with
      | none => exact (ih _ _).trans (and_iff_right rfl).symm
      | some e => exact iff_of_false (fun h => by cases h) fun h => by cases h.1

theorem sameFiles_writeKeyFiles (fs : List (String × List UInt8)) (d : KeyFiles) :
    SameFiles d (writeKeyFiles disk d 0 fs).1 ↔
      ∀ name content, (written disk 0 fs).reverse.lookup name = some content → d.lookup name = some content := by
  unfold SameFiles
  simp only [writeKeyFiles_fst, lookup_foldl_insert]
  refine forall_congr' fun name => ?_
  cases (written disk 0 fs).reverse.lookup name with
  | none => exact iff_of_true rfl fun content h => by cases h
  | some content => exact ⟨fun h c hc => by rw [← hc, ← h]; rfl, fun h => (h content rfl).symm⟩

variable {gcm codec} {rand : Nat → Nonce} {password : String} {data : codec.Text} {s : Host}

theorem allOrNothing_of_unchanged {e : Failure} : AllOrNothing s (s, .error e) := fun _ _ =>
  ⟨⟨rfl, fun _ => rfl, fun _ => rfl, rfl, rfl, rfl, rfl, rfl, rfl, rfl, rfl, rfl, rfl, rfl⟩, fun _ => rfl⟩

theorem allOrNothing_error {s' : Host} {e : Failure} :
    AllOrNothing s (s', .error e) ↔ SameContents s.db s'.db ∧ SameFiles s.keysDir s'.keysDir :=
  ⟨fun h => h e rfl, fun h _ _ => h⟩

/-- What is left after the commit. -/
theorem allOrNothing_committed {payload : BackupData} {db : Database}
    (hp : payloadOf codec password data = .ok payload)
    (hdb : restoreTx gcm disk s.secretKey rand payload s.db = .ok db) :
    AllOrNothing s (restoreData gcm codec disk rand password data s) ↔
      (disk.mkdirAll = true ∧ ∀ r ∈ payload.keyFiles.zipIdx, fileFault disk r.2 r.1 = none) ∨
        SameContents s.db db ∧ (disk.mkdirAll = true → ∀ name content,
          (written disk 0 payload.keyFiles).reverse.lookup name = some content →
            s.keysDir.lookup name = some content) := by
  unfold restoreData
  simp only [hp, hdb]
  by_cases hdir : disk.mkdirAll = true
  · rw [← sameFiles_writeKeyFiles, ← writeKeyFiles_ok_iff payload.keyFiles s.keysDir 0]
    simp only [hdir, Bool.not_true, Bool.false_eq_true, if_false, true_and, forall_const]
    rcases hw : writeKeyFiles disk s.keysDir 0 payload.keyFiles with ⟨keysDir, e | u⟩
    · exact allOrNothing_error.trans (or_iff_right fun h => by cases h).symm
    · exact iff_of_true (fun e he => by cases he) (.inl rfl)
  · simp only [hdir, Bool.not_false, if_true, false_and, false_or, Bool.false_eq_true]
    exact allOrNothing_error.trans ⟨fun h => ⟨h.1, fun h => by cases h⟩, fun h => ⟨h.1, fun _ => rfl⟩⟩

theorem allOrNothing_iff_harmless (gcm : Gcm) (codec : Codec) (disk : Disk) (rand : Nat → Nonce) (password : String)
    (data : codec.Text) (s : Host) :
    AllOrNothing s (restoreData gcm codec disk rand password data s) ↔
      Harmless gcm codec disk rand password data s := by
  cases hp : payloadOf codec password data with
  | error e =>
    refine iff_of_true ?_ fun payload db h => by rw [hp] at h; cases h
    unfold restoreData
    rw [hp]
    exact allOrNothing_of_unchanged
  | ok payload =>
    cases hdb : restoreTx gcm disk s.secretKey rand payload s.db with
    | error e =>
      refine iff_of_true ?_ fun p db h hdb' => by
        rw [hp] at h
        cases h
        rw [hdb] at hdb'
        cases hdb'
      unfold restoreData
      simp only [hp, hdb]
      exact allOrNothing_of_unchanged
    | ok db =>
      rw [allOrNothing_committed hp hdb]
      refine ⟨fun h p db' hp' hdb' => ?_, fun h => h payload db hp hdb⟩
      rw [hp] at hp'
      cases hp'
      rw [hdb] at hdb'
      cases hdb'
      exact h

/-- A backup without rows whose only key file has a path for its name. -/
def pathFile : Codec.bare.Text :=
  Codec.bare.encodeToString <| Codec.bare.encrypt [] (Codec.bare.marshal
    { tenants := [], instances := [], config := [], users := [], cfCfgs := [], ipData := [], sshKeys := [],
      instancePlans := [], stockAlerts := [], tasks := [], createTasks := [], dnsBindings := [],
      keyFiles := [("a/b", [])] }) "secret"

def oneConfig : Host := { db := { config := (∅ : AList fun _ : String => String).insert "k" "v" }, secretKey := none }

/-- The name is refused after the configuration has gone. -/
theorem invalid_name_clears :
    ¬AllOrNothing oneConfig (restoreData .keyed .bare {} (fun _ => zeroNonce) "secret" pathFile oneConfig) := by
  intro h
  have herr : (restoreData .keyed .bare {} (fun _ => zeroNonce) "secret" pathFile oneConfig).2 =
      .error (.refused (.invalidName "a/b")) := rfl
  have hconfig := (h _ herr).1.config "k"
  exact absurd hconfig (by decide)

end OciHelper.Backup.Faults
