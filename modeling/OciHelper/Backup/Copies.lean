import OciHelper.Backup.Archive
import Mathlib.Data.List.TakeWhile

/-!
# What a restored backup writes

* `Tenant.reset`, `Instance.reset`, ... : what is left of a row after a backup and a restore;
* `Copy` : the tables that a restore of a backup commits, table by table;
* `restoreTx_collect`, `restoreData_handleBackup` : a restore of a backup succeeds with such tables;
* `restoreTx_consistent` : whatever a restore commits keeps the constraints of the schema.
-/

namespace OciHelper.Db

def Tenant.reset (t : Tenant) : Tenant :=
  { t with status := "active", accountStatus := "", homeRegion := "", subscribed := "" }

def Instance.reset (i : Instance) : Instance := { i with dnsLastIP := "" }

def SSHKey.reset (k : SSHKey) : SSHKey := { k with privateKey := "" }

def StockAlert.reset (a : StockAlert) : StockAlert :=
  { a with lastCheckedAt := none, lastStockStatus := "" }

def Task.reset (t : Task) : Task := { t with startedAt := none, finishedAt := none }

def CreateTask.reset (gcm : Gcm) (key key' : Option Key) (nonce : Nonce) (t : CreateTask) : CreateTask :=
  { t with
    lastRunAt := none
    rootPassword := encryptSecret gcm key' nonce (decryptSecret gcm key t.rootPassword) }

theorem Tenant.reset_eq_iff (t : Tenant) : t.reset = t ↔
    t.status = "active" ∧ t.accountStatus = "" ∧ t.homeRegion = "" ∧ t.subscribed = "" := by
  cases t
  simp [Tenant.reset, eq_comm]

theorem Instance.reset_eq_iff (i : Instance) : i.reset = i ↔ i.dnsLastIP = "" := by
  cases i
  simp [Instance.reset, eq_comm]

theorem SSHKey.reset_eq_iff (k : SSHKey) : k.reset = k ↔ k.privateKey = "" := by
  cases k
  simp [SSHKey.reset, eq_comm]

theorem StockAlert.reset_eq_iff (a : StockAlert) :
    a.reset = a ↔ a.lastCheckedAt = none ∧ a.lastStockStatus = "" := by
  cases a
  simp [StockAlert.reset, eq_comm]

theorem Task.reset_eq_iff (t : Task) : t.reset = t ↔ t.startedAt = none ∧ t.finishedAt = none := by
  cases t
  simp [Task.reset, eq_comm]

end OciHelper.Db

namespace OciHelper.Backup
open OciHelper.Db

variable {gcm : Gcm} {codec : Codec}

/-- `db` after a restore of a backup of `s`, where `key` is in memory. -/
structure Copy (gcm : Gcm) (key : Option Key) (rand : Nat → Nonce) (s : Server) (db db' : Tables) :
    Prop where
  tenants : db'.tenants.rows.Perm (s.db.tenants.rows.map fun r => (r.1, r.2.reset))
  instances : db'.instances.entries.Perm
    (s.db.instances.entries.map fun e => (⟨e.1, e.2.reset⟩ : Sigma fun _ : String => Instance))
  config : db'.config.entries.Perm s.db.config.entries
  users : db'.users = db.users.clear.insertAll (s.db.users.rows.map Prod.snd)
  cfConfigs : db'.cfConfigs = db.cfConfigs.clear.insertAll (s.db.cfConfigs.newest.map Prod.snd)
  ipData : db'.ipData = db.ipData.clear.insertAll (s.db.ipData.newest.map Prod.snd)
  sshKeys : db'.sshKeys = db.sshKeys.clear.insertAll (s.db.sshKeys.newest.map fun r => r.2.reset)
  instancePlans : db'.instancePlans =
    db.instancePlans.clear.insertAll (s.db.instancePlans.newest.map Prod.snd)
  stockAlerts : db'.stockAlerts =
    db.stockAlerts.clear.insertAll (s.db.stockAlerts.newest.map fun r => r.2.reset)
  tasks : db'.tasks = db.tasks.clear.insertAll ((listTasks s.db.tasks).map fun r => r.2.reset)
  createTasks : db'.createTasks = db.createTasks.clear.insertAll
    (s.db.createTasks.newest.zipIdx.map fun r => r.1.2.reset gcm s.secretKey key (rand r.2))
  dnsBindings : db'.dnsBindings = db.dnsBindings.clear.insertAll (s.db.dnsBindings.rows.map Prod.snd)

/-! ## The tables whose rows keep their keys -/

theorem importTenants (rs : List (Int × Tenant)) :
    ∀ t : KeyTable Tenant, (rs.map Prod.fst ++ t.rows.map Prod.fst).Nodup →
      ∃ t', importEach "tenant" createTenantImportWithIDTx t (rs.map tenantRecord) = .ok t' ∧
        t'.rows.Perm (rs.map (fun r => (r.1, r.2.reset)) ++ t.rows) := by
  induction rs with
  | nil => exact fun t _ => ⟨t, rfl, .refl _⟩
  | cons r rs ih =>
    intro t hn
    rw [List.map_cons, List.cons_append, List.nodup_cons, List.mem_append, not_or] at hn
    obtain ⟨t₁, h₁, hp₁⟩ := t.insertAt_of_free r.2.reset ((t.get_eq_none_iff r.1).mpr hn.1.2)
    have hfst : (t₁.rows.map Prod.fst).Perm (r.1 :: t.rows.map Prod.fst) := hp₁.map Prod.fst
    have hn₁ : (rs.map Prod.fst ++ t₁.rows.map Prod.fst).Nodup := by
      have hp : (rs.map Prod.fst ++ t₁.rows.map Prod.fst).Perm
          (r.1 :: (rs.map Prod.fst ++ t.rows.map Prod.fst)) :=
        (hfst.append_left _).trans List.perm_middle
      refine hp.nodup_iff.mpr (List.nodup_cons.mpr ⟨?_, hn.2⟩)
      rw [List.mem_append, not_or]
      exact hn.1
    obtain ⟨t', h', hp'⟩ := ih t₁ hn₁
    refine ⟨t', ?_, hp'.trans ?_⟩
    · have hstep : createTenantImportWithIDTx t (tenantRecord r) = .ok t₁ := by
        have hinsert : t.insertAt (tenantRecord r).id _ = some t₁ := h₁
        unfold createTenantImportWithIDTx
        exact hinsert ▸ rfl
      unfold importEach at h' ⊢
      rw [List.map_cons, List.foldlM_cons, hstep]
      exact h'
    · exact (hp₁.append_left _).trans List.perm_middle

/-- A fold of statements, each of which inserts a fresh name. -/
theorem foldlM_insert_fresh {ρ β : Type} (stmt : (AList fun _ : String => β) → ρ →
    Except SqlError (AList fun _ : String => β)) (e : ρ → Sigma fun _ : String => β) (rs : List ρ)
    (hstmt : ∀ m, ∀ r ∈ rs, (e r).1 ∉ m → stmt m r = .ok (m.insert (e r).1 (e r).2)) :
    ∀ m, (rs.map fun r => (e r).1).Nodup → (∀ r ∈ rs, (e r).1 ∉ m) →
      ∃ m', rs.foldlM stmt m = .ok m' ∧ m'.entries.Perm (rs.map e ++ m.entries) := by
  induction rs with
  | nil => exact fun m _ _ => ⟨m, rfl, .refl _⟩
  | cons r rs ih =>
    intro m hn hfree
    rw [List.map_cons, List.nodup_cons] at hn
    have hnot : (e r).1 ∉ m := hfree r List.mem_cons_self
    have hfree₁ : ∀ r' ∈ rs, (e r').1 ∉ m.insert (e r).1 (e r).2 := by
      intro r' hr' hmem
      rcases (AList.mem_insert m).mp hmem with h | h
      · exact hn.1 (h ▸ List.mem_map_of_mem (f := fun r => (e r).1) hr')
      · exact hfree r' (List.mem_cons_of_mem _ hr') h
    obtain ⟨m', h', hp'⟩ := ih (fun m r' hr' => hstmt m r' (List.mem_cons_of_mem _ hr')) _ hn.2 hfree₁
    refine ⟨m', ?_, hp'.trans ?_⟩
    · rw [List.foldlM_cons, hstmt m r List.mem_cons_self hnot]
      exact h'
    · rw [AList.entries_insert_of_notMem hnot]
      exact List.perm_middle

theorem importEach_of_ok {σ ρ : Type} {what : String} {stmt : σ → ρ → Except SqlError σ} {s s' : σ}
    {rs : List ρ} (h : rs.foldlM stmt s = .ok s') : importEach what stmt s rs = .ok s' := by
  unfold importEach
  rw [h]

theorem importInstances (tenants : KeyTable Tenant) (m : AList fun _ : String => Instance)
    (hfk : ∀ e ∈ m.entries, (tenants.get e.2.tenantID).isSome) :
    ∃ m', importEach "instance" (upsertInstanceImportTx tenants) ∅ (m.entries.map instanceRecord) = .ok m' ∧
      m'.entries.Perm (m.entries.map fun e => ⟨e.1, e.2.reset⟩) := by
  have hstmt : ∀ m', ∀ e ∈ m.entries, e.1 ∉ m' →
      upsertInstanceImportTx tenants m' (instanceRecord e) = .ok (m'.insert e.1 e.2.reset) := by
    intro m' e he hnot
    have hl : m'.lookup e.1 = none := AList.lookup_eq_none.mpr hnot
    have ht : (tenants.get e.2.tenantID).isSome = true := hfk e he
    simp only [upsertInstanceImportTx, instanceRecord, hl, ht, if_true]
    rfl
  obtain ⟨m', h, hp⟩ := foldlM_insert_fresh (fun m' e => upsertInstanceImportTx tenants m' (instanceRecord e))
    (fun e => ⟨e.1, e.2.reset⟩) m.entries hstmt ∅ m.nodupKeys fun e _ => AList.notMem_empty e.1
  refine ⟨m', importEach_of_ok ?_, by simpa using hp⟩
  rw [List.foldlM_map]
  exact h

theorem importConfig (m : Config) :
    ∃ m', importEach "config" (fun c kv => setConfigTx c kv.1 kv.2) ∅ (m.entries.map fun e => (e.1, e.2)) =
      .ok m' ∧ m'.entries.Perm m.entries := by
  obtain ⟨m', h, hp⟩ := foldlM_insert_fresh (fun c e => setConfigTx c e.1 e.2) (fun e => e) m.entries
    (fun _ _ _ _ => rfl) ∅ m.nodupKeys fun e _ => AList.notMem_empty e.1
  refine ⟨m', importEach_of_ok ?_, by simpa using hp⟩
  rw [List.foldlM_map]
  exact h

/-! ## The tables whose rows get new keys -/

theorem importRows {α ρ : Type} (what : String) (stmt : KeyTable α → ρ → Except SqlError (KeyTable α))
    (f : ρ → α) (t : KeyTable α) (rs : List ρ) (h : ∀ t, ∀ r ∈ rs, stmt t r = .ok (t.insert (f r))) :
    importEach what stmt t rs = .ok (t.insertAll (rs.map f)) :=
  importEach_of_ok (t.foldlM_insert stmt f rs h)

theorem insertOfTenant_of_isSome {α : Type} {tenantID : α → Int} {tenants : KeyTable Tenant}
    (rows : KeyTable α) {v : α} (h : (tenants.get (tenantID v)).isSome) :
    insertOfTenant tenantID tenants rows v = .ok (rows.insert v) := by
  unfold insertOfTenant
  rw [if_pos h]

theorem importUsers (us : List User) :
    ∀ t : KeyTable User, (us.map User.username ++ t.rows.map fun r => r.2.username).Nodup →
      importEach "user" createUserImportTx t us = .ok (t.insertAll us) := by
  intro t hn
  apply importEach_of_ok
  induction us generalizing t with
  | nil => rfl
  | cons u us ih =>
    rw [List.map_cons, List.cons_append, List.nodup_cons, List.mem_append, not_or] at hn
    have hstep : createUserImportTx t u = .ok (t.insert u) := by
      unfold createUserImportTx
      rw [if_neg hn.1.2]
    have hn₁ : (us.map User.username ++ (t.insert u).rows.map fun r => r.2.username).Nodup := by
      have hrows : (t.insert u).rows.map (fun r => r.2.username) =
          (t.rows.map fun r => r.2.username) ++ [u.username] := by simp [KeyTable.insert]
      have hnot : u.username ∉ us.map User.username ++ t.rows.map fun r => r.2.username := by
        rw [List.mem_append, not_or]
        exact hn.1
      rw [hrows, ← List.append_assoc]
      exact List.nodup_append_comm.mp (List.nodup_cons.mpr ⟨hnot, hn.2⟩)
    rw [List.foldlM_cons, hstep]
    exact ih _ hn₁

/-- Unique names make the second reading find the same user. -/
theorem users_collect {s : Server} (h : (s.db.users.rows.map fun r => r.2.username).Nodup) :
    (collect gcm s).users = s.db.users.rows.map Prod.snd := by
  have hget : ∀ r ∈ s.db.users.rows, getUserByUsername s.db r.2.username = some r.2 := by
    intro r hr
    unfold getUserByUsername
    cases hf : s.db.users.rows.find? fun r' => r'.2.username == r.2.username with
    | none => exact absurd (List.find?_eq_none.mp hf r hr) (by simp)
    | some r' =>
      have hname : r'.2.username = r.2.username := by simpa using List.find?_some hf
      have := List.inj_on_of_nodup_map h (List.mem_of_find?_eq_some hf) hr hname
      rw [this]
      rfl
  show (List.map _ s.db.users.rows).filterMap _ = _
  rw [List.filterMap_map, ← List.filterMap_eq_map]
  exact List.filterMap_congr hget

/-! ## The whole restore -/

theorem get_isSome_of_rows {ts ts' : KeyTable Tenant}
    (hp : ts'.rows.Perm (ts.rows.map fun r => (r.1, r.2.reset))) {id : Int} (h : (ts.get id).isSome) :
    (ts'.get id).isSome := by
  obtain ⟨t, ht⟩ := Option.isSome_iff_exists.mp h
  have hm : (id, t.reset) ∈ ts'.rows :=
    hp.mem_iff.mpr (List.mem_map_of_mem (f := fun r => (r.1, r.2.reset)) (ts.mem_rows_iff.mpr ht))
  rw [ts'.mem_rows_iff.mp hm]
  rfl

theorem restoreTx_collect (s : Installation) (key : Option Key) (rand : Nat → Nonce) (db : Tables) :
    ∃ db', restoreTx gcm key rand (collect gcm s.toServer) db = .ok db' ∧
      Copy gcm key rand s.toServer db db' := by
  let file := collect gcm s.toServer
  have hmem : ∀ {α : Type} {t : KeyTable α} {r : Int × α}, r ∈ t.newest → r ∈ t.rows :=
    fun h => List.mem_reverse.mp h
  have hkeys : (s.db.tenants.newest.map Prod.fst ++ db.tenants.clear.rows.map Prod.fst).Nodup := by
    rw [KeyTable.rows_clear, List.map_nil, List.append_nil, KeyTable.newest, List.map_reverse,
      List.nodup_reverse]
    exact List.pairwise_map.mpr (s.db.tenants.sorted.imp fun h => by omega)
  obtain ⟨tenants, ht, hpt⟩ := importTenants s.db.tenants.newest db.tenants.clear hkeys
  have hpt' : tenants.rows.Perm (s.db.tenants.rows.map fun r => (r.1, r.2.reset)) := by
    rw [KeyTable.rows_clear, List.append_nil] at hpt
    exact hpt.trans ((List.reverse_perm _).map _)
  have hfk : ∀ {id : Int}, (s.db.tenants.get id).isSome → (tenants.get id).isSome :=
    get_isSome_of_rows hpt'
  obtain ⟨instances, hi, hpi⟩ := importInstances tenants s.db.instances fun e he =>
    hfk (s.consistent.instances e he)
  obtain ⟨config, hc, hpc⟩ := importConfig s.db.config
  have hu : importEach "user" createUserImportTx db.users.clear file.users =
      .ok (db.users.clear.insertAll (s.db.users.rows.map Prod.snd)) := by
    rw [show file.users = s.db.users.rows.map Prod.snd from users_collect s.consistent.usernames]
    apply importUsers
    rw [KeyTable.rows_clear, List.map_nil, List.append_nil, List.map_map]
    exact s.consistent.usernames
  have hcf := importRows "cf config" (fun t r => createCfCfgImportTx t r.2) Prod.snd db.cfConfigs.clear
    file.cfCfgs fun _ _ _ => rfl
  have hip := importRows "ip data" (fun t (r : Int × IpData) => createIpDataImportTx tenants t r.2)
    Prod.snd db.ipData.clear file.ipData fun t r hr =>
      insertOfTenant_of_isSome t (hfk (s.consistent.ipData r (hmem hr)))
  have hkey : importEach "ssh key" (fun t r => createSSHKeyImportTx tenants t r.row) db.sshKeys.clear
      file.sshKeys = .ok (db.sshKeys.clear.insertAll (s.db.sshKeys.newest.map fun r => r.2.reset)) := by
    have := importRows "ssh key" (fun t r => createSSHKeyImportTx tenants t r.row) SSHKeyRecord.row
      db.sshKeys.clear file.sshKeys fun t r hr => by
        obtain ⟨r', hr', rfl⟩ := List.mem_map.mp hr
        exact insertOfTenant_of_isSome t (hfk (s.consistent.sshKeys r' (hmem hr')))
    rwa [show file.sshKeys.map SSHKeyRecord.row = _ from List.map_map] at this
  have hplan := importRows "instance plan"
    (fun t (r : Int × InstancePlan) => createInstancePlanImportTx tenants t r.2) Prod.snd
    db.instancePlans.clear file.instancePlans fun t r hr =>
      insertOfTenant_of_isSome t (hfk (s.consistent.instancePlans r (hmem hr)))
  have halert := importRows "stock alert" (fun t r => createStockAlertImportTx t r.2)
    (fun r => r.2.reset) db.stockAlerts.clear file.stockAlerts fun _ _ _ => rfl
  have htask := importRows "task" (fun t r => createTaskImportTx t r.2) (fun r => r.2.reset)
    db.tasks.clear file.tasks fun _ _ _ => rfl
  have hct : importEach "recurring task" (fun t r => createCreateTaskTx gcm key (rand r.2) tenants t r.1.2)
      db.createTasks.clear file.createTasks.zipIdx = .ok (db.createTasks.clear.insertAll
        (s.db.createTasks.newest.zipIdx.map fun r => r.1.2.reset gcm s.secretKey key (rand r.2))) := by
    rw [show file.createTasks.zipIdx = _ from List.zipIdx_map]
    have := importRows "recurring task"
      (fun t (r : (Int × CreateTask) × Nat) =>
        createCreateTaskTx gcm key (rand r.2) tenants t (scanCreateTask gcm s.secretKey r.1.2))
      (fun r => r.1.2.reset gcm s.secretKey key (rand r.2)) db.createTasks.clear
      s.db.createTasks.newest.zipIdx fun t r hr =>
        insertOfTenant_of_isSome t (hfk (s.consistent.createTasks r.1
          (hmem (List.fst_mem_of_mem_zipIdx hr))))
    unfold importEach at this ⊢
    rwa [List.foldlM_map]
  have hdns := importRows "dns binding" (fun t r => createInstanceDNSBindingImportTx t r.2) Prod.snd
    db.dnsBindings.clear file.dnsBindings fun _ _ _ => rfl
  refine ⟨⟨tenants, instances, config, _, _, _, _, _, _, _, _, _⟩, ?_,
    ⟨hpt', hpi, hpc, rfl, rfl, rfl, rfl, rfl, rfl, rfl, rfl, rfl⟩⟩
  have ht' : importEach "tenant" createTenantImportWithIDTx db.tenants.clear file.tenants = .ok tenants := ht
  have hi' : importEach "instance" (upsertInstanceImportTx tenants) ∅ file.instances = .ok instances := hi
  have hc' : importEach "config" (fun c kv => setConfigTx c kv.1 kv.2) ∅ file.config = .ok config := hc
  have hbind : ∀ {σ τ : Type} (a : σ) (f : σ → Except RestoreError τ), (Except.ok a >>= f) = f a :=
    fun _ _ => rfl
  simp only [restoreTx, clearAllTx, show collect gcm s.toServer = file from rfl, ht', hi', hc', hu, hcf, hip,
    hkey, hplan, halert, htask, hct, hdns, hbind]
  rfl

/-! ## Key files -/

theorem base_of_plain {path : List Char} (hne : path ≠ []) (h : '/' ∉ path) : base path = path := by
  have htrim : path.reverse.dropWhile (· == '/') = path.reverse := by
    apply List.dropWhile_eq_self_iff.mpr
    intro hl
    have hm : path.reverse[0] ∈ path := List.mem_reverse.mp (List.getElem_mem hl)
    have hc : path.reverse[0] ≠ '/' := fun e => h (e ▸ hm)
    simpa using hc
  have htake : path.reverse.takeWhile (· != '/') = path.reverse :=
    List.takeWhile_eq_self_iff.mpr fun c hm => by
      have hc : c ≠ '/' := fun e => h (e ▸ List.mem_reverse.mp hm)
      simpa using hc
  simp only [base, if_neg hne, htrim, List.reverse_reverse, htake]

theorem writeKeyFiles_of_plain (fs : List (String × List UInt8))
    (hp : ∀ f ∈ fs, f.1 ≠ "" ∧ '/' ∉ f.1.toList) (hn : (fs.map Prod.fst).Nodup) (d : KeyFiles) :
    ∃ d', writeKeyFiles d fs = (d', .ok ()) ∧ (∀ f ∈ fs, d'.lookup f.1 = some f.2) ∧
      ∀ n, n ∉ fs.map Prod.fst → d'.lookup n = d.lookup n := by
  induction fs generalizing d with
  | nil => exact ⟨d, rfl, fun f hf => absurd hf List.not_mem_nil, fun _ _ => rfl⟩
  | cons f fs ih =>
    obtain ⟨hne, hslash⟩ := hp f List.mem_cons_self
    rw [List.map_cons, List.nodup_cons] at hn
    have hbase : base f.1.toList = f.1.toList := by
      refine base_of_plain (fun h => hne ?_) hslash
      exact String.toList_inj.mp h
    obtain ⟨d', hd, hin, hout⟩ := ih (fun f' hf' => hp f' (List.mem_cons_of_mem _ hf')) hn.2
      (d.insert f.1 f.2)
    refine ⟨d', ?_, ?_, ?_⟩
    · simp only [writeKeyFiles, if_neg hne, hbase, ne_eq, not_true_eq_false, if_false]
      exact hd
    · intro f' hf'
      rcases List.mem_cons.mp hf' with rfl | hf'
      · rw [hout _ hn.1]
        exact AList.lookup_insert d
      · exact hin f' hf'
    · intro n hn'
      rw [List.map_cons, List.mem_cons, not_or] at hn'
      rw [hout n hn'.2]
      exact AList.lookup_insert_ne hn'.1

/-- A restore of a backup succeeds, writes the tables of `Copy` and every key file. -/
theorem restoreData_handleBackup (s : Installation) {noise : List UInt8} {password : String}
    {file : codec.Text} (hb : handleBackup gcm codec s.toServer noise password = .ok file)
    (rand : Nat → Nonce) (s' : Server) :
    ∃ db' keysDir', restoreData gcm codec rand password file s' =
        ({ s' with db := db', keysDir := keysDir' },
          .ok (s.db.tenants.rows.length, s.db.instances.entries.length)) ∧
      Copy gcm s'.secretKey rand s.toServer s'.db db' ∧
      ∀ e ∈ s.keysDir.entries, keysDir'.lookup e.1 = some e.2 := by
  unfold handleBackup at hb
  split at hb
  · cases hb
  obtain rfl := Except.ok.inj hb
  obtain ⟨db', hr, hcopy⟩ : ∃ db', restoreTx gcm s'.secretKey rand (collect gcm s.toServer) s'.db = .ok db' ∧
      Copy gcm s'.secretKey rand s.toServer s'.db db' := restoreTx_collect s s'.secretKey rand s'.db
  have hplain : ∀ f ∈ (collect gcm s.toServer).keyFiles, f.1 ≠ "" ∧ '/' ∉ f.1.toList := by
    intro f hf
    obtain ⟨e, he, rfl⟩ := List.mem_map.mp hf
    exact s.plain e he
  have hnodup : ((collect gcm s.toServer).keyFiles.map Prod.fst).Nodup := by
    rw [show (collect gcm s.toServer).keyFiles.map Prod.fst = s.keysDir.entries.map Sigma.fst from
      List.map_map]
    exact s.keysDir.nodupKeys
  obtain ⟨d', hd, hin, -⟩ := writeKeyFiles_of_plain _ hplain hnodup s'.keysDir
  refine ⟨db', d', ?_, hcopy, fun e he => hin (e.1, e.2) (List.mem_map_of_mem (f := fun e => (e.1, e.2)) he)⟩
  simp only [restoreData, codec.decode_encode, codec.decrypt_encrypt, codec.unmarshal_marshal, hr, hd]
  simp [collect, listTenants, listInstances, KeyTable.newest]

/-! ## What any restore leaves -/

theorem importEach_invariant {σ ρ : Type} {what : String} {stmt : σ → ρ → Except SqlError σ} {P : σ → Prop}
    {rs : List ρ} (hstep : ∀ s, ∀ r ∈ rs, ∀ s', P s → stmt s r = .ok s' → P s') {s s' : σ} (hs : P s)
    (h : importEach what stmt s rs = .ok s') : P s' := by
  have hfold : ∀ l ⊆ rs, ∀ s, P s → l.foldlM stmt s = .ok s' → P s' := by
    intro l
    induction l with
    | nil =>
      intro _ s hs h
      cases h
      exact hs
    | cons r l ih =>
      intro hl s hs h
      rw [List.foldlM_cons] at h
      cases hr : stmt s r with
      | error e =>
        rw [hr] at h
        cases h
      | ok s₁ =>
        rw [hr] at h
        exact ih (List.subset_of_cons_subset hl) s₁ (hstep s r (hl (.head _)) s₁ hs hr) h
  unfold importEach at h
  cases hf : rs.foldlM stmt s with
  | error e =>
    rw [hf] at h
    cases h
  | ok s₁ =>
    rw [hf] at h
    cases h
    exact hfold rs (List.Subset.refl rs) s hs hf

theorem insertOfTenant_invariant {α : Type} {tenantID : α → Int} {tenants : KeyTable Tenant}
    {rows rows' : KeyTable α} {v : α}
    (hs : ∀ r ∈ rows.rows, (tenants.get (tenantID r.2)).isSome)
    (h : insertOfTenant tenantID tenants rows v = .ok rows') :
    ∀ r ∈ rows'.rows, (tenants.get (tenantID r.2)).isSome := by
  unfold insertOfTenant at h
  split at h
  · rename_i hv
    cases h
    intro r hr
    rcases List.mem_append.mp hr with hr | hr
    · exact hs r hr
    · rw [List.mem_singleton.mp hr]
      exact hv
  · cases h

theorem createUserImportTx_invariant {users users' : KeyTable User} {u : User}
    (hs : (users.rows.map fun r => r.2.username).Nodup) (h : createUserImportTx users u = .ok users') :
    (users'.rows.map fun r => r.2.username).Nodup := by
  unfold createUserImportTx at h
  split at h
  · cases h
  · rename_i hnot
    cases h
    have hrows : (users.insert u).rows.map (fun r => r.2.username) =
        (users.rows.map fun r => r.2.username) ++ [u.username] := by simp [KeyTable.insert]
    rw [hrows]
    exact List.nodup_append_comm.mp (List.nodup_cons.mpr ⟨hnot, hs⟩)

theorem upsertInstanceImportTx_invariant {tenants : KeyTable Tenant}
    {m m' : AList fun _ : String => Instance} {i : InstanceRecord}
    (hs : ∀ e ∈ m.entries, (tenants.get e.2.tenantID).isSome)
    (h : upsertInstanceImportTx tenants m i = .ok m') :
    ∀ e ∈ m'.entries, (tenants.get e.2.tenantID).isSome := by
  -- an upsert keeps the tenant of a row that is there
  have hput : ∀ v : Instance, (tenants.get v.tenantID).isSome →
      ∀ e ∈ (m.insert i.id v).entries, (tenants.get e.2.tenantID).isSome := by
    intro v hv e he
    rw [AList.entries_insert] at he
    rcases List.mem_cons.mp he with rfl | he
    · exact hv
    · exact hs e (List.kerase_sublist i.id m.entries |>.subset he)
  unfold upsertInstanceImportTx at h
  cases hl : m.lookup i.id with
  | some old =>
    rw [hl] at h
    cases h
    exact hput _ (hs ⟨i.id, old⟩ (AList.mem_lookup_iff.mp hl))
  | none =>
    rw [hl] at h
    simp only at h
    split at h
    · rename_i hv
      cases h
      exact hput _ hv
    · cases h

theorem bind_ok {σ τ : Type} {x : Except RestoreError σ} {f : σ → Except RestoreError τ} {b : τ}
    (h : (x >>= f) = .ok b) : ∃ a, x = .ok a ∧ f a = .ok b := by
  cases x with
  | error e => cases h
  | ok a => exact ⟨a, rfl, h⟩

theorem restoreTx_consistent {key : Option Key} {rand : Nat → Nonce} {payload : BackupData}
    {db db' : Tables} (h : restoreTx gcm key rand payload db = .ok db') : db'.Consistent := by
  unfold restoreTx at h
  obtain ⟨tenants, -, h⟩ := bind_ok h
  obtain ⟨instances, hi, h⟩ := bind_ok h
  obtain ⟨config, -, h⟩ := bind_ok h
  obtain ⟨users, hu, h⟩ := bind_ok h
  obtain ⟨cfConfigs, -, h⟩ := bind_ok h
  obtain ⟨ipData, hip, h⟩ := bind_ok h
  obtain ⟨sshKeys, hk, h⟩ := bind_ok h
  obtain ⟨plans, hp, h⟩ := bind_ok h
  obtain ⟨alerts, -, h⟩ := bind_ok h
  obtain ⟨tasks, -, h⟩ := bind_ok h
  obtain ⟨createTasks, hc, h⟩ := bind_ok h
  obtain ⟨bindings, -, h⟩ := bind_ok h
  cases h
  have hempty : ∀ {α : Type} {P : α → Prop} (l : List α), l = [] → ∀ r ∈ l, P r := by
    intro α P l hl r hr
    rw [hl] at hr
    cases hr
  exact
    { instances := importEach_invariant (fun _ _ _ _ => upsertInstanceImportTx_invariant) (hempty _ rfl) hi
      ipData := importEach_invariant (fun _ _ _ _ => insertOfTenant_invariant) (hempty _ rfl) hip
      sshKeys := importEach_invariant (fun _ _ _ _ => insertOfTenant_invariant) (hempty _ rfl) hk
      instancePlans := importEach_invariant (fun _ _ _ _ => insertOfTenant_invariant) (hempty _ rfl) hp
      createTasks := importEach_invariant (fun _ _ _ _ => insertOfTenant_invariant) (hempty _ rfl) hc
      usernames := importEach_invariant (P := fun users => (users.rows.map fun r => r.2.username).Nodup)
        (fun _ _ _ _ => createUserImportTx_invariant) List.nodup_nil hu }

end OciHelper.Backup
