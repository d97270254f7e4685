import OciHelper.Backup.Copies
import OciHelper.Db.Tenants
import OciHelper.Lib.StepRun

/-!
# DNS bindings and their instances

* `validDNSName`, `createBinding`, `updateBinding` : the binding endpoints;
* `step` : an operation that writes the tables and succeeds; one that fails changes nothing and is no event;
* `BindingsConsistent` : every binding names an instance row and its tenant;
* `bindings_consistent_iff` : when it holds throughout a run.
-/

namespace OciHelper.Dns
open Db Backup StepRun

/-! ## The binding endpoints -/

/-- `dnsNameRe`. -/
def dnsNameChar (c : Char) : Bool :=
  c.isAlpha || c.isDigit || c = '@' || c = '.' || c = '_' || c = '-'

def validDNSName (s : String) : Bool :=
  let cs := s.toList
  if cs = [] ∨ 253 < s.utf8ByteSize then false
  else if s = "@" then true
  else if ¬ cs.all dnsNameChar ∨ cs.head? = some '.' ∨ cs.getLast? = some '.' then false
  else (cs.splitOn '.').all fun label =>
    label ≠ [] ∧ label.length ≤ 63 ∧ label.head? ≠ some '-' ∧ label.getLast? ≠ some '-'

inductive BindingError
  | instanceIDRequired
  | bindingNotFound
  | instanceNotFound
  | tenantMismatch
  | nameRequired
  | invalidName
  | zoneRequired
  deriving DecidableEq, Repr

/-- The checks that both endpoints make, and the row that is stored. -/
def validateBinding (db : Tables) (b : InstanceDNSBinding) : Except BindingError InstanceDNSBinding :=
  match db.instances.lookup b.instanceID with
  | none => .error .instanceNotFound
  | some inst =>
    if b.tenantID ≠ 0 ∧ b.tenantID ≠ inst.tenantID then .error .tenantMismatch
    else if b.name = "" then .error .nameRequired
    else if validDNSName b.name = false then .error .invalidName
    else if b.zoneID = "" then .error .zoneRequired
    else .ok { b with tenantID := inst.tenantID, ttl := if b.ttl = 0 then 120 else b.ttl }

/-- `POST /api/cloudflare/bindings` -/
def createBinding (db : Tables) (b : InstanceDNSBinding) : Except BindingError Tables :=
  if b.instanceID = "" then .error .instanceIDRequired
  else
    match validateBinding db b with
    | .error e => .error e
    | .ok b => .ok { db with dnsBindings := db.dnsBindings.insert b }

/-- The body of an update; what is omitted keeps its value. -/
structure BindingUpdate where
  instanceID : Option String := none
  tenantID : Option Int := none
  name : Option String := none
  cfCfgID : Option Int := none
  zoneID : Option String := none
  proxied : Option Bool := none
  ttl : Option Int := none
  enabled : Option Bool := none

def BindingUpdate.merge (req : BindingUpdate) (cur : InstanceDNSBinding) : InstanceDNSBinding where
  instanceID := req.instanceID.getD cur.instanceID
  tenantID := req.tenantID.getD cur.tenantID
  name := req.name.getD cur.name
  cfCfgID := req.cfCfgID.getD cur.cfCfgID
  zoneID := req.zoneID.getD cur.zoneID
  proxied := req.proxied.getD cur.proxied
  ttl := req.ttl.getD cur.ttl
  enabled := req.enabled.getD cur.enabled

/-- `PUT /api/cloudflare/bindings/{id}` -/
def updateBinding (db : Tables) (id : Int) (req : BindingUpdate) : Except BindingError Tables :=
  match db.dnsBindings.get id with
  | none => .error .bindingNotFound
  | some cur =>
    match validateBinding db (req.merge cur) with
    | .error e => .error e
    | .ok b => .ok { db with dnsBindings := db.dnsBindings.update id fun _ => b }

/-! ## The writers of the tables -/

/-- `UpdateInstanceState`, `UpdateInstanceDNSIP` and `UpdateInstancePublicIP`. -/
inductive InstanceColumn
  | state (v : String)
  | dnsLastIP (v : String)
  | publicIP (v : String)
  deriving DecidableEq, Repr

def InstanceColumn.set (c : InstanceColumn) (i : Instance) : Instance :=
  match c with
  | .state v => { i with state := v }
  | .dnsLastIP v => { i with dnsLastIP := v }
  | .publicIP v => { i with publicIP := v }

/-- `elsewhere` is a statement on the other tables, which are `rest` after it. -/
inductive Event
  | createBinding (b : InstanceDNSBinding)
  | updateBinding (id : Int) (req : BindingUpdate)
  | deleteBinding (id : Int)
  | upsertInstance (i : InstanceRecord)
  | setColumn (instanceID : String) (c : InstanceColumn)
  | deleteTenant (id : Int)
  | restore (key : Option Key) (rand : Nat → Nonce) (payload : BackupData)
  | elsewhere (rest : Tables)

/-- `UpsertInstance` is the statement that a restore uses as well. -/
def upsertInstance (db : Tables) (i : InstanceRecord) : Except SqlError Tables :=
  (upsertInstanceImportTx db.tenants db.instances i).map fun instances => { db with instances }

def setColumn (db : Tables) (instanceID : String) (c : InstanceColumn) : Tables :=
  match db.instances.lookup instanceID with
  | none => db
  | some i => { db with instances := db.instances.insert instanceID (c.set i) }

variable (gcm : Gcm)

def step : Step Tables Event
  | db, .createBinding b => (createBinding db b).toOption
  | db, .updateBinding id req => (updateBinding db id req).toOption
  | db, .deleteBinding id => some { db with dnsBindings := db.dnsBindings.erase id }
  | db, .upsertInstance i => (upsertInstance db i).toOption
  | db, .setColumn instanceID c => some (setColumn db instanceID c)
  | db, .deleteTenant id => (deleteTenantCascade id db).toOption
  | db, .restore key rand payload => (restoreTx gcm key rand payload db).toOption
  | db, .elsewhere rest => some { rest with instances := db.instances, dnsBindings := db.dnsBindings }

/-- The binding names an instance row and its tenant. -/
def Refers (instances : AList fun _ : String => Instance) (b : InstanceDNSBinding) : Prop :=
  ∃ i, instances.lookup b.instanceID = some i ∧ i.tenantID = b.tenantID

def BindingsConsistent (db : Tables) : Prop := ∀ r ∈ db.dnsBindings.rows, Refers db.instances r.2

/-- In the file, every binding names an instance and its tenant; of two instances with one id the first is
meant. -/
def BindingsMatch (payload : BackupData) : Prop :=
  ∀ b ∈ payload.dnsBindings, ∃ i, payload.instances.find? (fun i => i.id == b.2.instanceID) = some i ∧
    i.tenantID = b.2.tenantID

/-- A tenant that is deleted has no bindings, and a file that is restored matches. -/
def Safe (db : Tables) : Event → Prop
  | .deleteTenant id => ∀ r ∈ db.dnsBindings.rows, r.2.tenantID ≠ id
  | .restore _ _ payload => BindingsMatch payload
  | _ => True

/-! ## Statements that keep the references -/

theorem validateBinding_refers {db : Tables} {b b' : InstanceDNSBinding} (h : validateBinding db b = .ok b') :
    Refers db.instances b' := by
  unfold validateBinding at h
  cases hl : db.instances.lookup b.instanceID with
  | none =>
    rw [hl] at h
    cases h
  | some inst =>
    rw [hl] at h
    dsimp only at h
    split at h
    · cases h
    split at h
    · cases h
    split at h
    · cases h
    split at h
    · cases h
    · cases h
      exact ⟨inst, hl, rfl⟩

/-- The rows that are there keep their tenants. -/
def TenantsKept (instances instances' : AList fun _ : String => Instance) : Prop :=
  ∀ k i, instances.lookup k = some i → ∃ i', instances'.lookup k = some i' ∧ i'.tenantID = i.tenantID

theorem Refers.of_kept {instances instances' : AList fun _ : String => Instance}
    (hk : TenantsKept instances instances') {b : InstanceDNSBinding} (h : Refers instances b) :
    Refers instances' b := by
  obtain ⟨i, hl, ht⟩ := h
  obtain ⟨i', hl', ht'⟩ := hk _ i hl
  exact ⟨i', hl', ht'.trans ht⟩

theorem tenantsKept_insert {instances : AList fun _ : String => Instance} {k : String} {v : Instance}
    (h : ∀ i, instances.lookup k = some i → v.tenantID = i.tenantID) :
    TenantsKept instances (instances.insert k v) := fun k' i hl => by
  by_cases hk : k' = k
  · subst hk
    exact ⟨v, AList.lookup_insert _, h i hl⟩
  · refine ⟨i, ?_, rfl⟩
    rw [AList.lookup_insert_ne hk]
    exact hl

theorem upsertInstanceImportTx_kept {tenants : KeyTable Tenant} {m m' : AList fun _ : String => Instance}
    {i : InstanceRecord} (h : upsertInstanceImportTx tenants m i = .ok m') : TenantsKept m m' := by
  unfold upsertInstanceImportTx at h
  cases hl : m.lookup i.id with
  | some old =>
    rw [hl] at h
    cases h
    refine tenantsKept_insert fun i' hi' => ?_
    obtain rfl := Option.some.inj (hl.symm.trans hi')
    rfl
  | none =>
    rw [hl] at h
    dsimp only at h
    split at h
    · cases h
      exact tenantsKept_insert fun i' hi' => by cases hl.symm.trans hi'
    · cases h

theorem setColumn_kept (db : Tables) (instanceID : String) (c : InstanceColumn) :
    TenantsKept db.instances (setColumn db instanceID c).instances := by
  unfold setColumn
  cases hl : db.instances.lookup instanceID with
  | none => exact fun k i hk => ⟨i, hk, rfl⟩
  | some i =>
    refine tenantsKept_insert fun i' hi' => ?_
    obtain rfl := Option.some.inj (hl.symm.trans hi')
    cases c <;> rfl

theorem setColumn_dnsBindings (db : Tables) (instanceID : String) (c : InstanceColumn) :
    (setColumn db instanceID c).dnsBindings = db.dnsBindings := by
  unfold setColumn
  split <;> rfl

/-! ## A deletion -/

theorem lookup_deleteInstancesOf (id : Int) (instances : AList fun _ : String => Instance) (k : String)
    (i : Instance) : (deleteInstancesOf id instances).lookup k = some i ↔
      instances.lookup k = some i ∧ i.tenantID ≠ id := by
  rw [← Option.mem_def, ← Option.mem_def, AList.mem_lookup_iff, AList.mem_lookup_iff]
  show _ ∈ instances.entries.filter _ ↔ _
  rw [List.mem_filter]
  simp

theorem deleteTenant_safe_iff {id : Int} {db db' : Tables} (h0 : BindingsConsistent db)
    (h : deleteTenantCascade id db = .ok db') :
    BindingsConsistent db' ↔ ∀ r ∈ db.dnsBindings.rows, r.2.tenantID ≠ id := by
  obtain hok | ⟨herr, -⟩ := deleteTenantCascade_eq id db
  · obtain rfl := Except.ok.inj (hok.symm.trans h)
    constructor
    · intro hc r hr
      obtain ⟨i, hl, ht⟩ := hc r hr
      rw [← ht]
      exact ((lookup_deleteInstancesOf id db.instances _ i).mp hl).2
    · intro hno r hr
      obtain ⟨i, hl, ht⟩ := h0 r hr
      exact ⟨i, (lookup_deleteInstancesOf id db.instances _ i).mpr ⟨hl, ht ▸ hno r hr⟩, ht⟩
  · cases herr.symm.trans h

/-! ## A restore -/

/-- The tenant of an instance after the loop over the instances of a file. -/
theorem foldlM_upsert {tenants : KeyTable Tenant} (rs : List InstanceRecord) :
    ∀ {m m' : AList fun _ : String => Instance}, rs.foldlM (upsertInstanceImportTx tenants) m = .ok m' →
      ∀ k, (m'.lookup k).map Instance.tenantID =
        ((m.lookup k).map Instance.tenantID).or ((rs.find? fun i => i.id == k).map InstanceRecord.tenantID) := by
  induction rs with
  | nil =>
    intro m m' h k
    cases h
    exact (Option.or_none).symm
  | cons r rs ih =>
    intro m m' h k
    rw [List.foldlM_cons] at h
    cases hr : upsertInstanceImportTx tenants m r with
    | error e =>
      rw [hr] at h
      cases h
    | ok m₁ =>
      rw [hr] at h
      rw [ih h k, List.find?_cons]
      by_cases hk : r.id = k
      · rw [show (r.id == k) = true from beq_iff_eq.mpr hk]
        subst hk
        cases hl : m.lookup r.id with
        | some old =>
          obtain ⟨i', hl', ht'⟩ := upsertInstanceImportTx_kept hr _ old hl
          rw [hl', Option.map_some, ht']
          rfl
        | none =>
          have hnew : (m₁.lookup r.id).map Instance.tenantID = some r.tenantID := by
            unfold upsertInstanceImportTx at hr
            rw [hl] at hr
            dsimp only at hr
            split at hr
            · cases hr
              rw [AList.lookup_insert]
              rfl
            · cases hr
          rw [hnew]
          rfl
      · rw [show (r.id == k) = false from beq_eq_false_iff_ne.mpr hk]
        have hsame : m₁.lookup k = m.lookup k := by
          unfold upsertInstanceImportTx at hr
          split at hr
          · cases hr
            exact AList.lookup_insert_ne (Ne.symm hk)
          · split at hr
            · cases hr
              exact AList.lookup_insert_ne (Ne.symm hk)
            · cases hr
        rw [hsame]

/-- The two loops of a restore that commits. -/
theorem restoreTx_loops {key : Option Key} {rand : Nat → Nonce} {payload : BackupData} {db db' : Tables}
    (h : restoreTx gcm key rand payload db = .ok db') :
    (∃ tenants, payload.instances.foldlM (upsertInstanceImportTx tenants) ∅ = .ok db'.instances) ∧
      importEach "dns binding" (fun t r => createInstanceDNSBindingImportTx t r.2) db.dnsBindings.clear
        payload.dnsBindings = .ok db'.dnsBindings := by
  unfold restoreTx at h
  obtain ⟨tenants, -, h⟩ := bind_ok h
  obtain ⟨instances, hi, h⟩ := bind_ok h
  obtain ⟨config, -, h⟩ := bind_ok h
  obtain ⟨users, -, h⟩ := bind_ok h
  obtain ⟨cfConfigs, -, h⟩ := bind_ok h
  obtain ⟨ipData, -, h⟩ := bind_ok h
  obtain ⟨sshKeys, -, h⟩ := bind_ok h
  obtain ⟨plans, -, h⟩ := bind_ok h
  obtain ⟨alerts, -, h⟩ := bind_ok h
  obtain ⟨tasks, -, h⟩ := bind_ok h
  obtain ⟨createTasks, -, h⟩ := bind_ok h
  obtain ⟨bindings, hb, h⟩ := bind_ok h
  cases h
  refine ⟨⟨tenants, ?_⟩, hb⟩
  unfold importEach at hi
  cases hf : payload.instances.foldlM (upsertInstanceImportTx tenants) (clearAllTx db).instances with
  | error e =>
    rw [hf] at hi
    cases hi
  | ok m =>
    rw [hf] at hi
    obtain rfl := Except.ok.inj hi
    exact hf

/-- What a restore that commits makes of the two tables. -/
theorem restoreTx_bindings {key : Option Key} {rand : Nat → Nonce} {payload : BackupData} {db db' : Tables}
    (h : restoreTx gcm key rand payload db = .ok db') :
    db'.dnsBindings.rows.map Prod.snd = payload.dnsBindings.map Prod.snd ∧
      ∀ k, (db'.instances.lookup k).map Instance.tenantID =
        (payload.instances.find? fun i => i.id == k).map InstanceRecord.tenantID := by
  obtain ⟨⟨tenants, hi⟩, hb⟩ := restoreTx_loops gcm h
  constructor
  · have himport := importRows "dns binding"
      (fun t (r : Int × InstanceDNSBinding) => createInstanceDNSBindingImportTx t r.2) Prod.snd
      db.dnsBindings.clear payload.dnsBindings fun _ _ _ => rfl
    obtain heq := Except.ok.inj (himport.symm.trans hb)
    rw [← heq]
    exact KeyTable.values_insertAll _ _
  · exact fun k => foldlM_upsert payload.instances hi k

theorem restore_safe_iff {key : Option Key} {rand : Nat → Nonce} {payload : BackupData} {db db' : Tables}
    (h : restoreTx gcm key rand payload db = .ok db') : BindingsConsistent db' ↔ BindingsMatch payload := by
  obtain ⟨hb, hi⟩ := restoreTx_bindings gcm h
  have hrefers : ∀ b : InstanceDNSBinding, Refers db'.instances b ↔
      ∃ i, payload.instances.find? (fun i => i.id == b.instanceID) = some i ∧ i.tenantID = b.tenantID := fun b => by
    have hmap : ∀ {α : Type} {o : Option α} {f : α → Int} {t : Int},
        (∃ i, o = some i ∧ f i = t) ↔ o.map f = some t := Option.map_eq_some_iff.symm
    unfold Refers
    rw [hmap, hi, hmap]
  unfold BindingsConsistent BindingsMatch
  simp only [hrefers]
  constructor
  · intro hc b hmem
    have hin : b.2 ∈ db'.dnsBindings.rows.map Prod.snd := by
      rw [hb]
      exact List.mem_map_of_mem hmem
    obtain ⟨r, hr, heq⟩ := List.mem_map.mp hin
    rw [← heq]
    exact hc r hr
  · intro hm r hr
    have hin : r.2 ∈ payload.dnsBindings.map Prod.snd := by
      rw [← hb]
      exact List.mem_map_of_mem hr
    obtain ⟨b, hmem, heq⟩ := List.mem_map.mp hin
    rw [← heq]
    exact hm b hmem

/-- A backup of tables whose bindings are consistent matches. -/
theorem collect_bindingsMatch {s : Server} (h : BindingsConsistent s.db) : BindingsMatch (collect gcm s) := by
  intro b hb
  obtain ⟨i, hl, ht⟩ := h b hb
  refine ⟨instanceRecord ⟨b.2.instanceID, i⟩, ?_, ht⟩
  show (s.db.instances.entries.map instanceRecord).find? _ = _
  rw [List.find?_map]
  have hmem : (⟨b.2.instanceID, i⟩ : Sigma fun _ : String => Instance) ∈ s.db.instances.entries :=
    AList.mem_lookup_iff.mp hl
  cases hf : s.db.instances.entries.find? ((fun i => i.id == b.2.instanceID) ∘ instanceRecord) with
  | none => exact absurd (List.find?_eq_none.mp hf _ hmem) (by simp [instanceRecord])
  | some e =>
    obtain ⟨k, i'⟩ := e
    have hk : k = b.2.instanceID := by simpa [instanceRecord] using List.find?_some hf
    subst hk
    have hl' : s.db.instances.lookup b.2.instanceID = some i' :=
      AList.mem_lookup_iff.mpr (List.mem_of_find?_eq_some hf)
    obtain rfl := Option.some.inj (hl.symm.trans hl')
    rfl

/-! ## Runs -/

theorem toOption_eq_some {ε α : Type} {x : Except ε α} {a : α} (h : x.toOption = some a) : x = .ok a := by
  cases x with
  | error e => cases h
  | ok b => exact congrArg Except.ok (Option.some.inj h)

theorem step_consistent_iff (db : Tables) (e : Event) (db' : Tables) (h0 : BindingsConsistent db)
    (h : step gcm db e = some db') : BindingsConsistent db' ↔ Safe db e := by
  cases e with
  | createBinding b =>
    refine iff_of_true ?_ trivial
    have h := toOption_eq_some h
    unfold createBinding at h
    split at h
    · cases h
    split at h
    · cases h
    next b' hv =>
    cases h
    intro r hr
    obtain hr | hr := List.mem_append.mp hr
    · exact h0 r hr
    · rw [List.mem_singleton.mp hr]
      exact validateBinding_refers hv
  | updateBinding id req =>
    refine iff_of_true ?_ trivial
    have h := toOption_eq_some h
    unfold updateBinding at h
    split at h
    · cases h
    split at h
    · cases h
    next b' hv =>
    cases h
    intro r hr
    obtain ⟨r₀, hr₀, rfl⟩ := List.mem_map.mp hr
    dsimp only
    split
    · exact validateBinding_refers hv
    · exact h0 r₀ hr₀
  | deleteBinding id =>
    refine iff_of_true ?_ trivial
    cases h
    exact fun r hr => h0 r (List.mem_filter.mp hr).1
  | upsertInstance i =>
    refine iff_of_true ?_ trivial
    have h := toOption_eq_some h
    unfold upsertInstance at h
    cases hu : upsertInstanceImportTx db.tenants db.instances i with
    | error e =>
      rw [hu] at h
      cases h
    | ok instances =>
      rw [hu] at h
      cases h
      exact fun r hr => (h0 r hr).of_kept (upsertInstanceImportTx_kept hu)
  | setColumn instanceID c =>
    refine iff_of_true ?_ trivial
    cases h
    intro r hr
    rw [setColumn_dnsBindings] at hr
    exact (h0 r hr).of_kept (setColumn_kept db instanceID c)
  | deleteTenant id => exact deleteTenant_safe_iff h0 (toOption_eq_some h)
  | restore key rand payload => exact restore_safe_iff gcm (toOption_eq_some h)
  | elsewhere rest =>
    refine iff_of_true ?_ trivial
    cases h
    exact h0

/-- Over every run, the bindings are consistent in all states if and only if each tenant that is deleted has no
bindings left and each file that is restored matches. -/
theorem bindings_consistent_iff {db db' : Tables} {es : List Event} (h0 : BindingsConsistent db)
    (h : exec (step gcm) db es = some db') :
    Throughout (step gcm) BindingsConsistent db es ↔ Run (step gcm) Safe db es db' :=
  throughout_iff (step_consistent_iff gcm) h0 h

/-! ## One binding -/

def oneTenant : Tables := { tenants := KeyTable.empty.insert { name := "acme" } }

def makeInstance : Event :=
  .upsertInstance
    { id := "1:ocid", name := "web", ocid := "ocid", shape := "", state := "", publicIP := "", privateIP := "",
      region := "", availabilityDomain := "", faultDomain := "", imageID := "", subnetID := "", tenantID := 1,
      ocpu := 0, memoryGB := 0, bootVolumeGB := 0 }

def makeBinding : Event := .createBinding { instanceID := "1:ocid", name := "web.example.org", zoneID := "zone" }

theorem consistent_oneTenant : BindingsConsistent oneTenant := fun _ hr => nomatch hr

/-- The run that the events lead to, if all succeed. -/
def runFrom (es : List Event) : Option Tables := exec (step .keyed) oneTenant es

theorem bindings_consistent_created : ∃ db', runFrom [makeInstance, makeBinding, .deleteTenant 2] = some db' ∧
    Throughout (step .keyed) BindingsConsistent oneTenant [makeInstance, makeBinding, .deleteTenant 2] := by
  refine ⟨_, rfl, (bindings_consistent_iff .keyed consistent_oneTenant rfl).mpr ?_⟩
  refine .cons trivial rfl (.cons trivial rfl (.cons (fun r hr => ?_) rfl (.nil _)))
  obtain rfl := List.mem_singleton.mp hr
  decide

/-- The tenant is deleted with its instance, and the binding stays. -/
theorem binding_dangles : ∃ db', runFrom [makeInstance, makeBinding, .deleteTenant 1] = some db' ∧
    ¬ BindingsConsistent db' := by
  refine ⟨_, rfl, fun h => ?_⟩
  obtain ⟨i, hl, -⟩ := h _ (List.mem_singleton.mpr rfl)
  cases hl

end OciHelper.Dns
