import OciHelper.Backup.Copies

/-!
# What a backup keeps

* `SameRows` : two sets of tables agree in every column, up to the keys a restore gives out;
* `Exportable` : no row uses a column that a backup or a restore leaves out, and there are at most 200
  tasks;
* `Copy.sameRows_iff` : a copy agrees with its original exactly if the original is exportable;
* `restore_identity_iff` : a backup and a restore give the same rows exactly of exportable tables.
-/

namespace OciHelper.Backup
open OciHelper.Db

/-- The rows agree as multisets. A password counts as it is read under the key. -/
structure SameRows (gcm : Gcm) (key : Option Key) (db db' : Tables) : Prop where
  tenants : (db'.tenants.rows.map Prod.snd).Perm (db.tenants.rows.map Prod.snd)
  instances : db'.instances.entries.Perm db.instances.entries
  config : db'.config.entries.Perm db.config.entries
  users : (db'.users.rows.map Prod.snd).Perm (db.users.rows.map Prod.snd)
  cfConfigs : (db'.cfConfigs.rows.map Prod.snd).Perm (db.cfConfigs.rows.map Prod.snd)
  ipData : (db'.ipData.rows.map Prod.snd).Perm (db.ipData.rows.map Prod.snd)
  sshKeys : (db'.sshKeys.rows.map Prod.snd).Perm (db.sshKeys.rows.map Prod.snd)
  instancePlans : (db'.instancePlans.rows.map Prod.snd).Perm (db.instancePlans.rows.map Prod.snd)
  stockAlerts : (db'.stockAlerts.rows.map Prod.snd).Perm (db.stockAlerts.rows.map Prod.snd)
  tasks : (db'.tasks.rows.map Prod.snd).Perm (db.tasks.rows.map Prod.snd)
  createTasks : (db'.createTasks.rows.map fun r => scanCreateTask gcm key r.2).Perm
    (db.createTasks.rows.map fun r => scanCreateTask gcm key r.2)
  dnsBindings : (db'.dnsBindings.rows.map Prod.snd).Perm (db.dnsBindings.rows.map Prod.snd)

structure Exportable (db : Tables) : Prop where
  tenants : ∀ r ∈ db.tenants.rows, r.2.status = "active" ∧ r.2.accountStatus = "" ∧
    r.2.homeRegion = "" ∧ r.2.subscribed = ""
  instances : ∀ e ∈ db.instances.entries, e.2.dnsLastIP = ""
  sshKeys : ∀ r ∈ db.sshKeys.rows, r.2.privateKey = ""
  stockAlerts : ∀ r ∈ db.stockAlerts.rows, r.2.lastCheckedAt = none ∧ r.2.lastStockStatus = ""
  fewTasks : db.tasks.rows.length ≤ 200
  tasks : ∀ r ∈ db.tasks.rows, r.2.startedAt = none ∧ r.2.finishedAt = none
  createTasks : ∀ r ∈ db.createTasks.rows, r.2.lastRunAt = none

/-! ## Rows that a reset leaves alone -/

theorem perm_map_iff {α : Type*} {g : α → α} (hg : ∀ x, g (g x) = g x) (l : List α) :
    (l.map g).Perm l ↔ ∀ x ∈ l, g x = x := by
  constructor
  · intro h x hx
    obtain ⟨y, -, rfl⟩ := List.mem_map.mp (h.mem_iff.mpr hx)
    exact hg y
  · intro h
    rw [List.map_congr_left h, List.map_id']

theorem perm_map_newest_iff {α β : Type*} (f : α → β) {g : β → β} (hg : ∀ x, g (g x) = g x)
    (t : KeyTable α) :
    (t.newest.map fun r => g (f r.2)).Perm (t.rows.map fun r => f r.2) ↔
      ∀ r ∈ t.rows, g (f r.2) = f r.2 := by
  have hrev : (t.newest.map fun r => g (f r.2)).Perm ((t.rows.map fun r => f r.2).map g) := by
    rw [List.map_map]
    exact (List.reverse_perm _).map _
  constructor
  · intro h r hr
    exact (perm_map_iff hg _).mp (hrev.symm.trans h) _ (List.mem_map_of_mem (f := fun r => f r.2) hr)
  · intro h
    refine hrev.trans ((perm_map_iff hg _).mpr fun x hx => ?_)
    obtain ⟨r, hr, rfl⟩ := List.mem_map.mp hx
    exact h r hr

/-- A truncated list loses rows. -/
theorem perm_map_take_iff {α : Type*} {g : α → α} (hg : ∀ x, g (g x) = g x) (t : KeyTable α) (n : Nat) :
    ((t.newest.take n).map fun r => g r.2).Perm (t.rows.map Prod.snd) ↔
      t.rows.length ≤ n ∧ ∀ r ∈ t.rows, g r.2 = r.2 := by
  have hlen : t.newest.length = t.rows.length := List.length_reverse
  have hall : t.rows.length ≤ n → t.newest.take n = t.newest := fun h =>
    List.take_of_length_le (by omega)
  constructor
  · intro h
    have hle : t.rows.length ≤ n := by
      have := h.length_eq
      simp only [List.length_map, List.length_take, hlen] at this
      omega
    rw [hall hle] at h
    exact ⟨hle, (perm_map_newest_iff (fun x => x) hg t).mp h⟩
  · rintro ⟨hle, h⟩
    rw [hall hle]
    exact (perm_map_newest_iff (fun x => x) hg t).mpr h

/-- Read under the key it was encrypted under, a restored schedule has lost its last run only. -/
theorem scanCreateTask_reset (gcm : Gcm) (key : Option Key) (nonce : Nonce) (t : CreateTask) :
    scanCreateTask gcm key (t.reset gcm key key nonce) =
      { scanCreateTask gcm key t with lastRunAt := none } := by
  simp only [scanCreateTask, CreateTask.reset, decryptSecret_encryptSecret]

theorem Copy.values_createTasks {gcm : Gcm} {key : Option Key} {rand : Nat → Nonce} {s : Server}
    {db db' : Tables} (h : Copy gcm key rand s db db') (hk : s.secretKey = key) :
    (db'.createTasks.rows.map fun r => scanCreateTask gcm key r.2) =
      s.db.createTasks.newest.map fun r => { scanCreateTask gcm key r.2 with lastRunAt := none } := by
  have hvalues := congrArg (List.map (scanCreateTask gcm key))
    (KeyTable.values_insertAll db.createTasks.clear
      (s.db.createTasks.newest.zipIdx.map fun r => r.1.2.reset gcm s.secretKey key (rand r.2)))
  rw [← h.createTasks, List.map_map, KeyTable.rows_clear, List.map_nil, List.nil_append, List.map_map,
    hk] at hvalues
  refine hvalues.trans ?_
  have hstep : ((scanCreateTask gcm key) ∘ fun r : (Int × CreateTask) × Nat =>
      r.1.2.reset gcm key key (rand r.2)) =
      (fun r : Int × CreateTask => { scanCreateTask gcm key r.2 with lastRunAt := none }) ∘ Prod.fst := by
    funext r
    exact scanCreateTask_reset gcm key (rand r.2) r.1.2
  rw [hstep, ← List.map_map, List.zipIdx_map_fst]

/-! ## Copies and originals -/

theorem values_of_insertAll {α : Type} {t' t₀ : KeyTable α} {vs : List α} (h : t' = t₀.clear.insertAll vs) :
    t'.rows.map Prod.snd = vs := by
  rw [h, KeyTable.values_insertAll, KeyTable.rows_clear, List.map_nil, List.nil_append]

theorem newest_perm {α : Type} (t : KeyTable α) : (t.newest.map Prod.snd).Perm (t.rows.map Prod.snd) :=
  (List.reverse_perm _).map _

/-! ### The tables with columns to lose -/

section
variable {gcm : Gcm} {key : Option Key} {rand : Nat → Nonce} {s : Server} {db db' : Tables}
  (h : Copy gcm key rand s db db')
include h

theorem Copy.tenants_perm_iff : (db'.tenants.rows.map Prod.snd).Perm (s.db.tenants.rows.map Prod.snd) ↔
    ∀ r ∈ s.db.tenants.rows, r.2.reset = r.2 := by
  have hp : (db'.tenants.rows.map Prod.snd).Perm (s.db.tenants.newest.map fun r => r.2.reset) := by
    have hrows := h.tenants.map Prod.snd
    rw [List.map_map] at hrows
    exact hrows.trans ((List.reverse_perm _).symm.map _)
  rw [← perm_map_newest_iff (fun t => t) (g := Tenant.reset) fun _ => rfl]
  exact ⟨hp.symm.trans, hp.trans⟩

theorem Copy.instances_perm_iff : db'.instances.entries.Perm s.db.instances.entries ↔
    ∀ e ∈ s.db.instances.entries, e.2.reset = e.2 := by
  have hi := perm_map_iff (g := fun e : Sigma fun _ : String => Instance => ⟨e.1, e.2.reset⟩)
    (fun _ => rfl) s.db.instances.entries
  have he : ∀ e : Sigma fun _ : String => Instance,
      (⟨e.1, e.2.reset⟩ : Sigma fun _ : String => Instance) = e ↔ e.2.reset = e.2 := by
    rintro ⟨n, i⟩
    simp
  simp only [he] at hi
  rw [← hi]
  exact ⟨h.instances.symm.trans, h.instances.trans⟩

theorem Copy.sshKeys_perm_iff : (db'.sshKeys.rows.map Prod.snd).Perm (s.db.sshKeys.rows.map Prod.snd) ↔
    ∀ r ∈ s.db.sshKeys.rows, r.2.reset = r.2 := by
  rw [values_of_insertAll h.sshKeys]
  exact perm_map_newest_iff (fun k => k) (g := SSHKey.reset) (fun _ => rfl) _

theorem Copy.stockAlerts_perm_iff :
    (db'.stockAlerts.rows.map Prod.snd).Perm (s.db.stockAlerts.rows.map Prod.snd) ↔
      ∀ r ∈ s.db.stockAlerts.rows, r.2.reset = r.2 := by
  rw [values_of_insertAll h.stockAlerts]
  exact perm_map_newest_iff (fun a => a) (g := StockAlert.reset) (fun _ => rfl) _

theorem Copy.tasks_perm_iff : (db'.tasks.rows.map Prod.snd).Perm (s.db.tasks.rows.map Prod.snd) ↔
    s.db.tasks.rows.length ≤ 200 ∧ ∀ r ∈ s.db.tasks.rows, r.2.reset = r.2 := by
  rw [values_of_insertAll h.tasks]
  exact perm_map_take_iff (g := Task.reset) (fun _ => rfl) _ _

theorem Copy.createTasks_perm_iff (hk : s.secretKey = key) :
    (db'.createTasks.rows.map fun r => scanCreateTask gcm key r.2).Perm
        (s.db.createTasks.rows.map fun r => scanCreateTask gcm key r.2) ↔
      ∀ r ∈ s.db.createTasks.rows, r.2.lastRunAt = none := by
  rw [h.values_createTasks hk, perm_map_newest_iff (scanCreateTask gcm key)
    (g := fun t => { t with lastRunAt := none }) fun _ => rfl]
  refine forall₂_congr fun r _ => ?_
  constructor
  · intro e
    exact (congrArg (fun t : CreateTask => t.lastRunAt) e).symm
  · intro e
    have hscan : (scanCreateTask gcm key r.2).lastRunAt = none := e
    rw [← hscan]

theorem Copy.sameRows_iff (hk : s.secretKey = key) : SameRows gcm key s.db db' ↔ Exportable s.db := by
  have htenants := h.tenants_perm_iff
  have hinstances := h.instances_perm_iff
  have hkeys := h.sshKeys_perm_iff
  have halerts := h.stockAlerts_perm_iff
  have htasks := h.tasks_perm_iff
  have hcreate := h.createTasks_perm_iff hk
  simp only [Tenant.reset_eq_iff] at htenants
  simp only [Instance.reset_eq_iff] at hinstances
  simp only [SSHKey.reset_eq_iff] at hkeys
  simp only [StockAlert.reset_eq_iff] at halerts
  simp only [Task.reset_eq_iff] at htasks
  constructor
  · intro hs
    exact
      { tenants := htenants.mp hs.tenants
        instances := hinstances.mp hs.instances
        sshKeys := hkeys.mp hs.sshKeys
        stockAlerts := halerts.mp hs.stockAlerts
        fewTasks := (htasks.mp hs.tasks).1
        tasks := (htasks.mp hs.tasks).2
        createTasks := hcreate.mp hs.createTasks }
  · intro he
    exact
      { tenants := htenants.mpr he.tenants
        instances := hinstances.mpr he.instances
        config := h.config
        users := by rw [values_of_insertAll h.users]
        cfConfigs := by rw [values_of_insertAll h.cfConfigs]; exact newest_perm _
        ipData := by rw [values_of_insertAll h.ipData]; exact newest_perm _
        sshKeys := hkeys.mpr he.sshKeys
        instancePlans := by rw [values_of_insertAll h.instancePlans]; exact newest_perm _
        stockAlerts := halerts.mpr he.stockAlerts
        tasks := htasks.mpr ⟨he.fewTasks, he.tasks⟩
        createTasks := hcreate.mpr he.createTasks
        dnsBindings := by rw [values_of_insertAll h.dnsBindings] }

end

/-- `db` and `keysDir` are what the restoring server holds before. -/
theorem restore_identity_iff (gcm : Gcm) (codec : Codec) (s : Installation) {noise : List UInt8}
    {password : String} {file : codec.Text}
    (hb : handleBackup gcm codec s.toServer noise password = .ok file) (rand : Nat → Nonce) (db : Tables)
    (keysDir : KeyFiles) :
    (∃ s' n, restoreData gcm codec rand password file ⟨db, keysDir, s.secretKey⟩ = (s', .ok n) ∧
      SameRows gcm s.secretKey s.db s'.db) ↔ Exportable s.db := by
  obtain ⟨db', keysDir', hr, hcopy, -⟩ :=
    restoreData_handleBackup s hb rand ⟨db, keysDir, s.secretKey⟩
  have hiff := hcopy.sameRows_iff rfl
  constructor
  · rintro ⟨s', n, hr', hsame⟩
    have hs' : s' = ⟨db', keysDir', s.secretKey⟩ := congrArg Prod.fst (hr'.symm.trans hr)
    rw [hs'] at hsame
    exact hiff.mp hsame
  · intro he
    exact ⟨_, _, hr, hiff.mpr he⟩

/-! ## One tenant -/

/-- A server with one tenant, which the last check found in the given state. -/
def oneTenant (accountStatus : String) : Installation where
  db := { tenants := KeyTable.empty.insert { name := "home", accountStatus := accountStatus } }
  secretKey := some zeroKey
  consistent :=
    { instances := fun _ h => by cases h
      ipData := fun _ h => by cases h
      sshKeys := fun _ h => by cases h
      instancePlans := fun _ h => by cases h
      createTasks := fun _ h => by cases h
      usernames := .nil }
  plain := plain_empty

theorem exportable_oneTenant_iff (status : String) : Exportable (oneTenant status).db ↔ status = "" := by
  have hrows : (oneTenant status).db.tenants.rows = [(1, { name := "home", accountStatus := status })] := rfl
  constructor
  · intro h
    exact (h.tenants (1, { name := "home", accountStatus := status })
      (by rw [hrows]; exact List.mem_singleton_self _)).2.1
  · rintro rfl
    exact
      { tenants := fun r hr => by
          rw [hrows, List.mem_singleton] at hr
          rw [hr]
          exact ⟨rfl, rfl, rfl, rfl⟩
        instances := fun _ h => by cases h
        sshKeys := fun _ h => by cases h
        stockAlerts := fun _ h => by cases h
        fewTasks := Nat.zero_le _
        tasks := fun _ h => by cases h
        createTasks := fun _ h => by cases h }

theorem handleBackup_ok (gcm : Gcm) (codec : Codec) (s : Server) (noise : List UInt8) {password : String}
    (h : password ≠ "") : ∃ file, handleBackup gcm codec s noise password = .ok file :=
  ⟨_, if_neg h⟩

theorem restore_identity_unchecked : ∃ file s' n,
    handleBackup .keyed .bare (oneTenant "").toServer [] "secret" = .ok file ∧
    restoreData .keyed .bare (fun _ => zeroNonce) "secret" file
      ⟨{}, ∅, (oneTenant "").secretKey⟩ = (s', .ok n) ∧
    SameRows .keyed (oneTenant "").secretKey (oneTenant "").db s'.db := by
  obtain ⟨file, hb⟩ := handleBackup_ok .keyed .bare (oneTenant "").toServer [] (by decide : "secret" ≠ "")
  obtain ⟨s', n, h⟩ := (restore_identity_iff .keyed .bare (oneTenant "") hb
    (fun _ => zeroNonce) {} ∅).mpr ((exportable_oneTenant_iff "").mpr rfl)
  exact ⟨file, s', n, hb, h⟩

/-- The account status that a check has stored comes back empty. -/
theorem account_status_lost : ∃ file s' n,
    handleBackup .keyed .bare (oneTenant "ACTIVE").toServer [] "secret" = .ok file ∧
    restoreData .keyed .bare (fun _ => zeroNonce) "secret" file
      ⟨{}, ∅, (oneTenant "ACTIVE").secretKey⟩ = (s', .ok n) ∧
    ¬ SameRows .keyed (oneTenant "ACTIVE").secretKey (oneTenant "ACTIVE").db s'.db := by
  obtain ⟨file, hb⟩ := handleBackup_ok .keyed .bare (oneTenant "ACTIVE").toServer [] (by decide : "secret" ≠ "")
  obtain ⟨db', keysDir', hr, hcopy, -⟩ := restoreData_handleBackup (oneTenant "ACTIVE") hb
    (fun _ => zeroNonce) ⟨{}, ∅, (oneTenant "ACTIVE").secretKey⟩
  refine ⟨file, _, _, hb, hr, fun h => ?_⟩
  have := (exportable_oneTenant_iff "ACTIVE").mp ((hcopy.sameRows_iff rfl).mp h)
  exact absurd this (by decide)

end OciHelper.Backup
