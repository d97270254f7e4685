import OciHelper.Backup.Copies
import OciHelper.Lib.Text

/-!
# References between rows

Tenants and instances keep their keys in a restore; every other row gets a new one.

* `movedCfCfg`, `movedTask`, ... : the key of the copy of a row, if there is one;
* `RefsKept` : each copy is found there, and each reference to a row leads to the copy of that row;
* `RefsFit` : the rows that are referred to by a key get the key they had;
* `references_kept_iff` : a restore keeps the references exactly if they fit.
-/

namespace OciHelper.Backup
open OciHelper.Db KeyTable

/-! ## The referring config value -/

/-- The id that the automatic DNS update looks up, if `dns_auto_sync_cfg_id` holds one. -/
def autoSyncCfgID (config : Config) : Option Int :=
  match Text.parseInt (getConfig config "dns_auto_sync_cfg_id").toList with
  | some id => if 0 < id then some id else none
  | none => none

/-! ## Where the copies are -/

variable (s : Server) (db : Tables)

def movedCfCfg : Int → Option Int := newId db.cfConfigs.nextId s.db.cfConfigs.newest

def movedSSHKey : Int → Option Int := newId db.sshKeys.nextId s.db.sshKeys.newest

def movedInstancePlan : Int → Option Int := newId db.instancePlans.nextId s.db.instancePlans.newest

/-- Only the newest 200 tasks are copied. -/
def movedTask : Int → Option Int := newId db.tasks.nextId (listTasks s.db.tasks)

def movedCreateTask : Int → Option Int := newId db.createTasks.nextId s.db.createTasks.newest

def movedDNSBinding : Int → Option Int := newId db.dnsBindings.nextId s.db.dnsBindings.rows

/-- Each row of `t` whose reference is `present` has a copy in `t'`, whose reference is the moved one. -/
def RowKept {α κ : Type} (moved : Int → Option Int) (t t' : KeyTable α) (ref : α → κ) (present : κ → Prop)
    (movedRef : κ → Option κ) : Prop :=
  ∀ id row, t.get id = some row → present (ref row) →
    ∃ id' row', moved id = some id' ∧ t'.get id' = some row' ∧ movedRef (ref row) = some (ref row')

structure RefsKept (db' : Tables) : Prop where
  tenants : ∀ id t, s.db.tenants.get id = some t → db'.tenants.get id = some t.reset
  instances : ∀ n i, s.db.instances.lookup n = some i → db'.instances.lookup n = some i.reset
  cfConfigs : ∀ id id' c, s.db.cfConfigs.get id = some c → movedCfCfg s db id = some id' →
    db'.cfConfigs.get id' = some c
  tasks : ∀ id id' t, s.db.tasks.get id = some t → movedTask s db id = some id' →
    db'.tasks.get id' = some t.reset
  instanceTenant : ∀ n i, s.db.instances.lookup n = some i → (s.db.tenants.get i.tenantID).isSome →
    ∃ i', db'.instances.lookup n = some i' ∧ i'.tenantID = i.tenantID
  sshKeyTenant : RowKept (movedSSHKey s db) s.db.sshKeys db'.sshKeys SSHKey.tenantID
    (fun id => (s.db.tenants.get id).isSome) some
  planTenant : RowKept (movedInstancePlan s db) s.db.instancePlans db'.instancePlans InstancePlan.tenantID
    (fun id => (s.db.tenants.get id).isSome) some
  taskTenant : RowKept (movedTask s db) s.db.tasks db'.tasks Task.tenantId
    (fun id => (s.db.tenants.get id).isSome) some
  createTaskTenant : RowKept (movedCreateTask s db) s.db.createTasks db'.createTasks (fun t => t.tenantID)
    (fun id => (s.db.tenants.get id).isSome) some
  bindingInstance : RowKept (movedDNSBinding s db) s.db.dnsBindings db'.dnsBindings
    InstanceDNSBinding.instanceID (fun n => n ∈ s.db.instances) some
  bindingCfCfg : RowKept (movedDNSBinding s db) s.db.dnsBindings db'.dnsBindings InstanceDNSBinding.cfCfgID
    (fun id => (getCfCfg s.db id).isSome) (movedCfCfg s db)
  autoSync : ∀ id, autoSyncCfgID s.db.config = some id → (getCfCfg s.db id).isSome →
    movedCfCfg s db id = autoSyncCfgID db'.config
  taskParent : RowKept (movedTask s db) s.db.tasks db'.tasks Task.parentTaskId
    (fun id => (s.db.tasks.get id).isSome) (movedTask s db)

/-- The copy of a row of `t` is given the key of the row: the rows with higher keys are inserted first. -/
def SameKey {α : Type} (t t₀ : KeyTable α) (id : Int) : Prop := t₀.nextId + t.above id = id

structure RefsFit : Prop where
  taskTenant : ∀ id t, s.db.tasks.get id = some t → (s.db.tenants.get t.tenantId).isSome →
    s.db.tasks.above id < 200
  taskParent : ∀ id t, s.db.tasks.get id = some t → (s.db.tasks.get t.parentTaskId).isSome →
    s.db.tasks.above id < 200 ∧ s.db.tasks.above t.parentTaskId < 200 ∧
      SameKey s.db.tasks db.tasks t.parentTaskId
  bindingCfCfg : ∀ id b, s.db.dnsBindings.get id = some b → (getCfCfg s.db b.cfCfgID).isSome →
    SameKey s.db.cfConfigs db.cfConfigs b.cfCfgID
  autoSync : ∀ id, autoSyncCfgID s.db.config = some id → (getCfCfg s.db id).isSome →
    SameKey s.db.cfConfigs db.cfConfigs id

/-! ## Copies of single rows -/

variable {s db}

theorem rowKept_iff {α κ : Type} {t t' t₀ : KeyTable α} {copied : List (Int × α)} {vs : List α}
    {ref : α → κ} {present : κ → Prop} {movedRef : κ → Option κ} (ht : t' = t₀.clear.insertAll vs)
    (hcopied : ∀ r ∈ copied, t.get r.1 = some r.2)
    (hvs : ∀ (i : Nat) (r : Int × α), copied[i]? = some r → ∃ w, vs[i]? = some w ∧ ref w = ref r.2) :
    RowKept (newId t₀.nextId copied) t t' ref present movedRef ↔
      ∀ id row, t.get id = some row → present (ref row) →
        (∃ id', newId t₀.nextId copied id = some id') ∧ movedRef (ref row) = some (ref row) := by
  have hget : ∀ {id id' row}, t.get id = some row → newId t₀.nextId copied id = some id' →
      ∃ w, t'.get id' = some w ∧ ref w = ref row := by
    intro id id' row hrow hid
    obtain ⟨v, w, hm, hw, hR⟩ := exists_of_newId (R := fun v w => ref w = ref v) t₀.clear copied vs hvs hid
    have hv : v = row := Option.some.inj ((hcopied _ hm).symm.trans hrow)
    exact ⟨w, ht ▸ hw, hv ▸ hR⟩
  constructor
  · intro h id row hrow hp
    obtain ⟨id', row', hid, hrow', href⟩ := h id row hrow hp
    obtain ⟨w, hw, hR⟩ := hget hrow hid
    obtain rfl : w = row' := Option.some.inj (hw.symm.trans hrow')
    exact ⟨⟨id', hid⟩, hR ▸ href⟩
  · intro h id row hrow hp
    obtain ⟨⟨id', hid⟩, href⟩ := h id row hrow hp
    obtain ⟨w, hw, hR⟩ := hget hrow hid
    exact ⟨id', w, hid, hw, hR ▸ href⟩

theorem getElem?_map_fst {α β : Type} {copied : List (Int × α)} (f : Int × α → β) (i : Nat) (r : Int × α)
    (hr : copied[i]? = some r) : (copied.map f)[i]? = some (f r) := by
  rw [List.getElem?_map, hr]
  rfl

/-- A table whose rows are all copied, each with its reference. -/
theorem rowKept_all_iff {α κ : Type} {t t' t₀ : KeyTable α} {copied : List (Int × α)} {vs : List α}
    {ref : α → κ} {present : κ → Prop} {movedRef : κ → Option κ} (ht : t' = t₀.clear.insertAll vs)
    (hall : ∀ id v, (id, v) ∈ copied ↔ t.get id = some v)
    (hvs : ∀ (i : Nat) (r : Int × α), copied[i]? = some r → ∃ w, vs[i]? = some w ∧ ref w = ref r.2) :
    RowKept (newId t₀.nextId copied) t t' ref present movedRef ↔
      ∀ id row, t.get id = some row → present (ref row) → movedRef (ref row) = some (ref row) := by
  rw [rowKept_iff ht (fun r hr => (hall r.1 r.2).mp hr) hvs]
  refine forall₂_congr fun id row => forall₂_congr fun hrow _ => and_iff_right ?_
  exact newId_isSome _ ((hall id row).mpr hrow)

theorem sameKey_iff {α : Type} {t t₀ : KeyTable α} {id : Int} (h : (t.get id).isSome) :
    newId t₀.nextId t.newest id = some id ↔ SameKey t t₀ id := by
  obtain ⟨v, hv⟩ := Option.isSome_iff_exists.mp h
  rw [newId_newest t _ hv, Option.some.injEq, SameKey]

theorem movedTask_eq_iff {id id' : Int} {t : Task} (h : s.db.tasks.get id = some t) :
    movedTask s db id = some id' ↔
      s.db.tasks.above id < 200 ∧ db.tasks.nextId + s.db.tasks.above id = id' := by
  rw [movedTask, show listTasks s.db.tasks = s.db.tasks.newest.take 200 from rfl, newId_take_newest _ _ _ h]
  by_cases hlt : s.db.tasks.above id < 200
  · simp [hlt]
  · simp [hlt]

theorem mem_listTasks {r : Int × Task} (h : r ∈ listTasks s.db.tasks) : s.db.tasks.get r.1 = some r.2 :=
  s.db.tasks.mem_newest.mp (List.mem_of_mem_take h)

theorem rowKept_task_iff {gcm : Gcm} {key : Option Key} {rand : Nat → Nonce} {db' : Tables}
    (h : Copy gcm key rand s db db') {ref : Task → Int} (href : ∀ t : Task, ref t.reset = ref t)
    {present : Int → Prop} {movedRef : Int → Option Int} :
    RowKept (movedTask s db) s.db.tasks db'.tasks ref present movedRef ↔
      ∀ id t, s.db.tasks.get id = some t → present (ref t) →
        s.db.tasks.above id < 200 ∧ movedRef (ref t) = some (ref t) := by
  unfold movedTask
  rw [rowKept_iff h.tasks (fun r hr => mem_listTasks hr) fun i r hr =>
    ⟨_, getElem?_map_fst (fun r => r.2.reset) i r hr, href r.2⟩]
  refine forall₂_congr fun id t => forall₂_congr fun ht _ => and_congr_left fun _ => ?_
  constructor
  · rintro ⟨id', hid⟩
    exact ((movedTask_eq_iff ht).mp hid).1
  · intro hlt
    exact ⟨_, (movedTask_eq_iff ht).mpr ⟨hlt, rfl⟩⟩

/-! ## All references -/

theorem Copy.get_tenants {gcm : Gcm} {key : Option Key} {rand : Nat → Nonce} {db' : Tables}
    (h : Copy gcm key rand s db db') (id : Int) :
    db'.tenants.get id = (s.db.tenants.get id).map Tenant.reset :=
  (get_of_perm (t := s.db.tenants.mapRows fun _ => Tenant.reset) h.tenants id).trans (get_mapRows ..)

theorem lookup_reset {es : List (Sigma fun _ : String => Instance)} {n : String} :
    (es.map fun e => (⟨e.1, e.2.reset⟩ : Sigma fun _ : String => Instance)).dlookup n =
      (es.dlookup n).map Instance.reset := by
  induction es with
  | nil => rfl
  | cons e es ih =>
    obtain ⟨m, i⟩ := e
    by_cases hm : n = m
    · subst hm
      simp
    · simp [hm, ih]

theorem Copy.lookup_instances {gcm : Gcm} {key : Option Key} {rand : Nat → Nonce} {db' : Tables}
    (h : Copy gcm key rand s db db') (n : String) :
    db'.instances.lookup n = (s.db.instances.lookup n).map Instance.reset := by
  rw [AList.lookup, AList.lookup, ← lookup_reset]
  exact List.perm_dlookup n db'.instances.nodupKeys h.instances

theorem Copy.autoSync {gcm : Gcm} {key : Option Key} {rand : Nat → Nonce} {db' : Tables}
    (h : Copy gcm key rand s db db') : autoSyncCfgID db'.config = autoSyncCfgID s.db.config := by
  unfold autoSyncCfgID getConfig
  rw [AList.perm_lookup h.config]

/-! ### The rows that refer to a row with a kept key -/

section
variable {gcm : Gcm} {key : Option Key} {rand : Nat → Nonce} {db' : Tables} (h : Copy gcm key rand s db db')
include h

theorem Copy.sshKeyTenant_kept : RowKept (movedSSHKey s db) s.db.sshKeys db'.sshKeys SSHKey.tenantID
    (fun id => (s.db.tenants.get id).isSome) some :=
  (rowKept_all_iff h.sshKeys (fun _ _ => s.db.sshKeys.mem_newest) fun i r hr =>
    ⟨r.2.reset, getElem?_map_fst (fun r => r.2.reset) i r hr, rfl⟩).mpr fun _ _ _ _ => rfl

theorem Copy.planTenant_kept : RowKept (movedInstancePlan s db) s.db.instancePlans db'.instancePlans
    InstancePlan.tenantID (fun id => (s.db.tenants.get id).isSome) some :=
  (rowKept_all_iff h.instancePlans (fun _ _ => s.db.instancePlans.mem_newest) fun i r hr =>
    ⟨_, getElem?_map_fst Prod.snd i r hr, rfl⟩).mpr fun _ _ _ _ => rfl

theorem Copy.createTaskTenant_kept : RowKept (movedCreateTask s db) s.db.createTasks db'.createTasks
    (fun t => t.tenantID) (fun id => (s.db.tenants.get id).isSome) some := by
  refine (rowKept_all_iff h.createTasks (fun _ _ => s.db.createTasks.mem_newest) fun i r hr => ?_).mpr
    fun _ _ _ _ => rfl
  refine ⟨r.2.reset gcm s.secretKey key (rand (0 + i)), ?_, rfl⟩
  rw [List.getElem?_map, List.getElem?_zipIdx, hr]
  rfl

theorem Copy.bindingInstance_kept : RowKept (movedDNSBinding s db) s.db.dnsBindings db'.dnsBindings
    InstanceDNSBinding.instanceID (fun n => n ∈ s.db.instances) some :=
  (rowKept_all_iff h.dnsBindings (fun _ _ => s.db.dnsBindings.mem_rows_iff) fun i r hr =>
    ⟨_, getElem?_map_fst Prod.snd i r hr, rfl⟩).mpr fun _ _ _ _ => rfl

/-! ### The rows that refer to a row with a new key -/

theorem Copy.taskTenant_iff : RowKept (movedTask s db) s.db.tasks db'.tasks Task.tenantId
    (fun id => (s.db.tenants.get id).isSome) some ↔
      ∀ id t, s.db.tasks.get id = some t → (s.db.tenants.get t.tenantId).isSome → s.db.tasks.above id < 200 := by
  rw [rowKept_task_iff h fun _ => rfl]
  exact forall₂_congr fun id t => forall₂_congr fun _ _ => and_iff_left rfl

theorem Copy.taskParent_iff : RowKept (movedTask s db) s.db.tasks db'.tasks Task.parentTaskId
    (fun id => (s.db.tasks.get id).isSome) (movedTask s db) ↔
      ∀ id t, s.db.tasks.get id = some t → (s.db.tasks.get t.parentTaskId).isSome →
        s.db.tasks.above id < 200 ∧ s.db.tasks.above t.parentTaskId < 200 ∧
          SameKey s.db.tasks db.tasks t.parentTaskId := by
  rw [rowKept_task_iff h fun _ => rfl]
  refine forall₂_congr fun id t => forall₂_congr fun _ hp => and_congr_right fun _ => ?_
  obtain ⟨p, hp⟩ := Option.isSome_iff_exists.mp hp
  exact movedTask_eq_iff hp

theorem Copy.bindingCfCfg_iff : RowKept (movedDNSBinding s db) s.db.dnsBindings db'.dnsBindings
    InstanceDNSBinding.cfCfgID (fun id => (getCfCfg s.db id).isSome) (movedCfCfg s db) ↔
      ∀ id b, s.db.dnsBindings.get id = some b → (getCfCfg s.db b.cfCfgID).isSome →
        SameKey s.db.cfConfigs db.cfConfigs b.cfCfgID := by
  refine (rowKept_all_iff h.dnsBindings (fun _ _ => s.db.dnsBindings.mem_rows_iff) fun i r hr =>
    ⟨_, getElem?_map_fst Prod.snd i r hr, rfl⟩).trans ?_
  exact forall₂_congr fun id b => forall₂_congr fun _ hc => sameKey_iff hc

theorem Copy.autoSync_iff : (∀ id, autoSyncCfgID s.db.config = some id → (getCfCfg s.db id).isSome →
    movedCfCfg s db id = autoSyncCfgID db'.config) ↔
      ∀ id, autoSyncCfgID s.db.config = some id → (getCfCfg s.db id).isSome →
        SameKey s.db.cfConfigs db.cfConfigs id := by
  refine forall_congr' fun id => forall₂_congr fun hid hc => ?_
  rw [h.autoSync, hid]
  exact sameKey_iff hc

/-! ### The rows that are referred to -/

theorem Copy.get_moved_cfCfg {id id' : Int} {c : CfCfg} (hc : getCfCfg s.db id = some c)
    (hid : movedCfCfg s db id = some id') : getCfCfg db' id' = some c := by
  obtain ⟨v, w, hm, hw, rfl⟩ := exists_of_newId (R := Eq) db.cfConfigs.clear s.db.cfConfigs.newest _
    (fun i r hr => ⟨_, getElem?_map_fst Prod.snd i r hr, rfl⟩) hid
  unfold getCfCfg at hc ⊢
  rw [h.cfConfigs, hw, ← hc]
  exact (s.db.cfConfigs.mem_newest.mp hm).symm

theorem Copy.get_moved_task {id id' : Int} {t : Task} (ht : s.db.tasks.get id = some t)
    (hid : movedTask s db id = some id') : db'.tasks.get id' = some t.reset := by
  obtain ⟨v, w, hm, hw, rfl⟩ := exists_of_newId (R := fun v w => w = v.reset) (KeyTable.clear db.tasks)
    (listTasks s.db.tasks) _ (fun i r hr => ⟨_, getElem?_map_fst (fun r => r.2.reset) i r hr, rfl⟩) hid
  have hv : v = t := Option.some.inj ((mem_listTasks hm).symm.trans ht)
  rw [h.tasks, hw, hv]

theorem Copy.refsKept_iff : RefsKept s db db' ↔ RefsFit s db := by
  constructor
  · intro hk
    exact ⟨h.taskTenant_iff.mp hk.taskTenant, h.taskParent_iff.mp hk.taskParent,
      h.bindingCfCfg_iff.mp hk.bindingCfCfg, h.autoSync_iff.mp hk.autoSync⟩
  · intro hf
    exact
      { tenants := fun id t ht => by rw [h.get_tenants, ht]; rfl
        instances := fun n i hi => by rw [h.lookup_instances, hi]; rfl
        cfConfigs := fun id id' c hc hid => h.get_moved_cfCfg hc hid
        tasks := fun id id' t ht hid => h.get_moved_task ht hid
        instanceTenant := fun n i hi _ => ⟨i.reset, by rw [h.lookup_instances, hi]; rfl, rfl⟩
        sshKeyTenant := h.sshKeyTenant_kept
        planTenant := h.planTenant_kept
        taskTenant := h.taskTenant_iff.mpr hf.taskTenant
        createTaskTenant := h.createTaskTenant_kept
        bindingInstance := h.bindingInstance_kept
        bindingCfCfg := h.bindingCfCfg_iff.mpr hf.bindingCfCfg
        autoSync := h.autoSync_iff.mpr hf.autoSync
        taskParent := h.taskParent_iff.mpr hf.taskParent }

end

theorem references_kept_iff (gcm : Gcm) (codec : Codec) (s : Installation) {noise : List UInt8}
    {password : String} {file : codec.Text}
    (hb : handleBackup gcm codec s.toServer noise password = .ok file) (rand : Nat → Nonce) (target : Server) :
    (∀ s' n, restoreData gcm codec rand password file target = (s', .ok n) →
      RefsKept s.toServer target.db s'.db) ↔ RefsFit s.toServer target.db := by
  obtain ⟨db', keysDir', hr, hcopy, -⟩ := restoreData_handleBackup s hb rand target
  constructor
  · intro h
    exact hcopy.refsKept_iff.mp (h _ _ hr)
  · intro hf s' n hr'
    have hs' : s' = { target with db := db', keysDir := keysDir' } := congrArg Prod.fst (hr'.symm.trans hr)
    rw [hs']
    exact hcopy.refsKept_iff.mpr hf

/-! ## One binding -/

/-- A binding that uses the first of some Cloudflare configurations. -/
def boundTo (cfConfigs : KeyTable CfCfg) : Installation where
  db := { cfConfigs := cfConfigs
          dnsBindings := KeyTable.empty.insert { instanceID := "1:web", name := "web", cfCfgID := 1 } }
  secretKey := none
  consistent :=
    { instances := fun _ h => by cases h
      ipData := fun _ h => by cases h
      sshKeys := fun _ h => by cases h
      instancePlans := fun _ h => by cases h
      createTasks := fun _ h => by cases h
      usernames := .nil }
  plain := plain_empty

def homeCfg : CfCfg := { name := "home", token := "t1" }

def shopCfg : CfCfg := { name := "shop", token := "t2" }

theorem refsFit_boundTo_one : RefsFit (boundTo (KeyTable.empty.insert homeCfg)).toServer {} where
  taskTenant := fun _ _ h => by cases h
  taskParent := fun _ _ h => by cases h
  bindingCfCfg := by
    intro id b hb _
    have hm := (boundTo (KeyTable.empty.insert homeCfg)).db.dnsBindings.mem_rows_iff.mpr hb
    have hcfg : b.cfCfgID = 1 := congrArg (fun r : Int × InstanceDNSBinding => r.2.cfCfgID)
      (List.mem_singleton.mp hm)
    rw [hcfg]
    rfl
  autoSync := fun _ h => by cases h

theorem references_kept_single : ∃ file,
    handleBackup .keyed .bare (boundTo (KeyTable.empty.insert homeCfg)).toServer [] "secret" = .ok file ∧
    ∀ s' n, restoreData .keyed .bare (fun _ => zeroNonce) "secret" file ⟨{}, ∅, none⟩ =
      (s', .ok n) → RefsKept (boundTo (KeyTable.empty.insert homeCfg)).toServer {} s'.db := by
  have hb : handleBackup .keyed .bare (boundTo (KeyTable.empty.insert homeCfg)).toServer [] "secret" =
      .ok _ := if_neg (by decide)
  exact ⟨_, hb, (references_kept_iff .keyed .bare _ hb _ ⟨{}, ∅, none⟩).mpr refsFit_boundTo_one⟩

/-- Of two configurations the newer one is inserted first, so the two exchange their ids and the binding
uses the other account. -/
theorem binding_changes_account : ∃ file s' n,
    handleBackup .keyed .bare (boundTo ((KeyTable.empty.insert homeCfg).insert shopCfg)).toServer [] "secret" =
      .ok file ∧
    restoreData .keyed .bare (fun _ => zeroNonce) "secret" file ⟨{}, ∅, none⟩ = (s', .ok n) ∧
    ¬ RefsKept (boundTo ((KeyTable.empty.insert homeCfg).insert shopCfg)).toServer {} s'.db := by
  have hb : handleBackup .keyed .bare (boundTo ((KeyTable.empty.insert homeCfg).insert shopCfg)).toServer []
      "secret" = .ok _ := if_neg (by decide)
  obtain ⟨db', keysDir', hr, hcopy, -⟩ := restoreData_handleBackup _ hb
    (fun _ => zeroNonce) ⟨{}, ∅, none⟩
  refine ⟨_, _, _, hb, hr, fun h => ?_⟩
  have hsame : SameKey ((KeyTable.empty.insert homeCfg).insert shopCfg) KeyTable.empty 1 :=
    (hcopy.refsKept_iff.mp h).bindingCfCfg 1 { instanceID := "1:web", name := "web", cfCfgID := 1 } rfl rfl
  exact absurd hsame (by unfold SameKey; decide)

end OciHelper.Backup
