import OciHelper.Dns.Bindings
import OciHelper.Instances.Addressing
import OciHelper.Lib.KeyedFold

/-!
# The sync of a tenant's instances

* `Answers` : what the service answers in one sync, call by call;
* `handleSync` : list the instances of each region, then read the VNICs of every stored row;
* `listed`, `vnicsRead` : what the two phases got for a row, in terms of the rows before and the answers;
* `Undegraded` : what was read is in the rows, and what was not read is as it was;
* `handleSync_undegraded_iff` : when that holds. The listing blanks the addresses of the rows it writes.

The regions are visited one after another. The rows of the second phase are handled by goroutines, in any order.
-/

namespace OciHelper.Instances.Sync
open Db Addressing KeyedFold

/-! ## What the service answers -/

structure ShapeConfig where
  ocpus : Option Rat := none
  memoryInGBs : Option Rat := none

structure SourceViaImage where
  imageId : Option String := none
  bootVolumeSizeInGBs : Option Int := none

/-- `core.Instance`. Source details of another kind are left out. -/
structure OciInstance where
  id : Option String
  displayName : Option String := none
  shape : Option String := none
  lifecycleState : String := ""
  shapeConfig : Option ShapeConfig := none
  imageId : Option String := none
  sourceDetails : Option SourceViaImage := none
  availabilityDomain : Option String := none
  faultDomain : Option String := none

structure Vnic where
  publicIp : Option String := none
  privateIp : Option String := none
  subnetId : Option String := none

/-- An attachment: it has no VNIC id, its VNIC cannot be read, or it has this VNIC. -/
inductive Attachment
  | noVnic
  | unreadable
  | read (vnic : Vnic)

def Attachment.vnic : Attachment → Option Vnic
  | .read vnic => some vnic
  | _ => none

/-- `none` is an error. `client` and `regionClient` say whether there is a client, for the listing and for the
VNICs of a region; `list n` is the answer for the region visited after `n` others. -/
structure Answers where
  client : Bool
  subscriptions : Option (List (Option String))
  list : Nat → Option (List OciInstance)
  regionClient : String → Bool
  attachments : String → Option (List Attachment)

/-- The column `subscribed`: its text as a list, and the text of a list. -/
structure RegionsJson where
  unmarshal : String → Option (List String)
  marshal : List String → String

/-- The order in which the goroutines get to the rows. -/
structure Arrangement where
  arrange : List (Sigma fun _ : String => Db.Instance) → List (Sigma fun _ : String => Db.Instance)
  perm : ∀ rows, (arrange rows).Perm rows

/-! ## Statements -/

def instanceRecord (id : String) (i : Db.Instance) : InstanceRecord :=
  { id, name := i.name, ocid := i.ocid, shape := i.shape, state := i.state, publicIP := i.publicIP,
    privateIP := i.privateIP, region := i.region, availabilityDomain := i.availabilityDomain,
    faultDomain := i.faultDomain, imageID := i.imageID, subnetID := i.subnetID, tenantID := i.tenantID,
    ocpu := i.ocpu, memoryGB := i.memoryGB, bootVolumeGB := i.bootVolumeGB }

/-- `UpsertInstance`, an error of which is logged. -/
def upsert (db : Tables) (id : String) (i : Db.Instance) : Tables :=
  match Dns.upsertInstance db (instanceRecord id i) with
  | .ok db => db
  | .error _ => db

/-- `ListInstances`; 0 is every tenant. -/
def listInstancesOf (db : Tables) (tenantID : Int) : List (Sigma fun _ : String => Db.Instance) :=
  if tenantID ≠ 0 then (listInstances db).filter fun e => e.2.tenantID = tenantID else listInstances db

/-! ## The handler -/

def strOr (o : Option String) (fallback : String) : String := o.getD fallback

/-- The row with its key. -/
def ociToDB (i : OciInstance) (tenantID : Int) (region : String) : String × Db.Instance :=
  (compositeID tenantID (strOr i.id ""),
    { tenantID
      name := strOr i.displayName ""
      ocid := strOr i.id ""
      shape := strOr i.shape ""
      state := i.lifecycleState
      ocpu := (i.shapeConfig.bind ShapeConfig.ocpus).getD 0
      memoryGB := (i.shapeConfig.bind ShapeConfig.memoryInGBs).getD 0
      bootVolumeGB := (i.sourceDetails.bind SourceViaImage.bootVolumeSizeInGBs).getD 0
      imageID := ((i.sourceDetails.bind SourceViaImage.imageId).or i.imageId).getD ""
      availabilityDomain := strOr i.availabilityDomain ""
      faultDomain := strOr i.faultDomain ""
      region })

section
variable (json : RegionsJson) (tenantID : Int) (a : Answers)

def getTenantClient (db : Tables) : Option Tenant :=
  (db.tenants.get tenantID).bind fun t => if a.client then some t else none

def discoverRegions : List String :=
  match a.subscriptions with
  | none => []
  | some subs => (subs.filterMap id).filter (· ≠ "")

def getSubscribedRegions (t : Tenant) : List String :=
  if t.subscribed = "" then [] else (json.unmarshal t.subscribed).getD []

/-- The regions a sync visits. -/
def syncRegions (t : Tenant) : List String :=
  let regions := discoverRegions a
  let regions := if regions = [] then getSubscribedRegions json t else regions
  if regions = [] then [t.region] else regions

def updateTenantRegions (db : Tables) (regions : List String) : Tables :=
  { db with tenants := db.tenants.update tenantID fun t => { t with subscribed := json.marshal regions } }

/-- The loop over the regions, `n` of which are done. -/
def listRegions (db : Tables) : Nat → List String → Tables
  | _, [] => db
  | n, region :: regions =>
    match a.list n with
    | none => listRegions db (n + 1) regions
    | some instances =>
      let db := instances.foldl (fun db i =>
        let row := ociToDB i tenantID region
        upsert db row.1 row.2) db
      listRegions db (n + 1) regions

/-- What is after the first colon, if there is one. -/
def askedOCID (ocid : String) : String := String.ofList ((Text.splitN ':' 2 ocid.toList).getLast?.getD [])

/-- An instance has no VNICs only if it has no attachments. -/
def getInstanceVNICs (key : String) : Option (List Vnic) :=
  (a.attachments key).bind fun attachments =>
    let vnics := attachments.filterMap Attachment.vnic
    if vnics.length = 0 ∧ 0 < attachments.length then none else some vnics

/-- The VNICs of the row with a key; `none` also if they are not asked for. -/
def vnicsOf (tenant : Tenant) (key region ocid : String) : Option (List Vnic) :=
  let region := if region = "" then tenant.region else region
  if a.regionClient region then
    if askedOCID ocid = "" then none else getInstanceVNICs a key
  else none

/-- The three columns as the VNIC has them. -/
def setNetwork (inst : Db.Instance) (vnic : Vnic) : Db.Instance :=
  { inst with
    publicIP := vnic.publicIp.getD "", privateIP := vnic.privateIp.getD "", subnetID := vnic.subnetId.getD "" }

/-- One turn of a goroutine. -/
def syncVNIC (tenant : Tenant) (db : Tables) (inst : Sigma fun _ : String => Db.Instance) : Tables :=
  match vnicsOf a tenant inst.1 inst.2.region inst.2.ocid with
  | none => db
  | some [] => db
  | some (vnic :: _) => upsert db inst.1 (setNetwork inst.2 vnic)

def syncVNICs (order : Arrangement) (db : Tables) : Tables :=
  match db.tenants.get tenantID with
  | none => db
  | some tenant => (order.arrange (listInstancesOf db tenantID)).foldl (syncVNIC a tenant) db

def handleSync (order : Arrangement) (db : Tables) : Tables :=
  match getTenantClient tenantID a db with
  | none => db
  | some t =>
    let regions := syncRegions json a t
    syncVNICs tenantID a order (listRegions tenantID a (updateTenantRegions json tenantID db regions) 0 regions)

/-! ## What a sync gets for a row -/

/-- What the listings return, in their order, each instance with its region. -/
def returned : Nat → List String → List (String × OciInstance)
  | _, [] => []
  | n, region :: regions => ((a.list n).getD []).map (region, ·) ++ returned (n + 1) regions

def listing (db : Tables) : List (String × OciInstance) :=
  match getTenantClient tenantID a db with
  | none => []
  | some t => returned a 0 (syncRegions json a t)

/-- The last listing that returned the instance with a key. -/
def listed (db : Tables) (key : String) : Option (String × OciInstance) :=
  ((listing json tenantID a db).filter fun e => (ociToDB e.2 tenantID e.1).1 = key).getLast?

/-- The VNICs of a row of some tenant, which the sync may not be about. -/
def vnicsFor (t : Tenant) (key : String) (owner : Int) (region ocid : String) : Option (List Vnic) :=
  if tenantID = 0 ∨ owner = tenantID then vnicsOf a t key region ocid else none

/-- The VNICs of a row, stored before or listed; its region is the one it was listed in. -/
def vnicsRead (db : Tables) (key : String) : Option (List Vnic) :=
  (getTenantClient tenantID a db).bind fun t =>
    match db.instances.lookup key, listed json tenantID a db key with
    | some row, found => vnicsFor tenantID a t key row.tenantID (found.elim row.region Prod.fst) row.ocid
    | none, some (region, i) => vnicsFor tenantID a t key tenantID region (strOr i.id "")
    | none, none => none

/-- Some VNIC of the row with a key was not read. -/
def Unread (db : Tables) (key : String) : Prop :=
  vnicsRead json tenantID a db key = none ∨
    ∃ attachments, a.attachments key = some attachments ∧ .unreadable ∈ attachments

/-- The three columns a listing has nothing for. -/
def network (inst : Db.Instance) : String × String × String := (inst.publicIP, inst.privateIP, inst.subnetID)

/-- Every field that the listing of the region returned is in the row. -/
structure HasFields (row : Db.Instance) (region : String) (i : OciInstance) : Prop where
  name : ∀ v ∈ i.displayName, row.name = v
  shape : ∀ v ∈ i.shape, row.shape = v
  state : row.state = i.lifecycleState
  ocpu : ∀ config ∈ i.shapeConfig, ∀ v ∈ config.ocpus, row.ocpu = v
  memoryGB : ∀ config ∈ i.shapeConfig, ∀ v ∈ config.memoryInGBs, row.memoryGB = v
  bootVolumeGB : ∀ source ∈ i.sourceDetails, ∀ v ∈ source.bootVolumeSizeInGBs, row.bootVolumeGB = v
  imageID : ∀ v ∈ (i.sourceDetails.bind SourceViaImage.imageId).or i.imageId, row.imageID = v
  availabilityDomain : ∀ v ∈ i.availabilityDomain, row.availabilityDomain = v
  faultDomain : ∀ v ∈ i.faultDomain, row.faultDomain = v
  region : row.region = region

/-- A row that no listing returned is as it was, but for the columns of the VNIC where all VNICs were read. -/
structure Undegraded (db after : Tables) : Prop where
  unread : ∀ key row, db.instances.lookup key = some row → Unread json tenantID a db key →
    ∃ row', after.instances.lookup key = some row' ∧ network row' = network row
  unlisted : ∀ key row, db.instances.lookup key = some row → listed json tenantID a db key = none →
    ∃ row', after.instances.lookup key = some row' ∧
      (row' = row ∨ ¬ Unread json tenantID a db key ∧
        ∃ vnic vnics, vnicsRead json tenantID a db key = some (vnic :: vnics) ∧ row' = setNetwork row vnic)
  listed : ∀ key region i, listed json tenantID a db key = some (region, i) →
    ∃ row', after.instances.lookup key = some row' ∧ HasFields row' region i
  read : ∀ key vnic vnics, ¬ Unread json tenantID a db key →
    vnicsRead json tenantID a db key = some (vnic :: vnics) →
    ∃ row', after.instances.lookup key = some row' ∧ network row' = network (setNetwork row' vnic)

end

/-! ## One key -/

/-- What an upsert writes over a row. -/
def refresh (old new : Db.Instance) : Db.Instance :=
  { old with
    name := new.name, shape := new.shape, ocpu := new.ocpu, memoryGB := new.memoryGB,
    bootVolumeGB := new.bootVolumeGB, state := new.state, availabilityDomain := new.availabilityDomain,
    faultDomain := new.faultDomain, imageID := new.imageID, subnetID := new.subnetID,
    publicIP := new.publicIP, privateIP := new.privateIP, region := new.region }

/-- The columns that an upsert only sets in a new row. -/
def blank (new : Db.Instance) : Db.Instance := { tenantID := new.tenantID, ocid := new.ocid }

/-- What the tables have at a key. -/
def cell (key : String) (db : Tables) : KeyTable Tenant × Option Db.Instance := (db.tenants, db.instances.lookup key)

def upsertAt (s : KeyTable Tenant × Option Db.Instance) (new : Db.Instance) : KeyTable Tenant × Option Db.Instance :=
  (s.1, match s.2 with
    | some old => some (refresh old new)
    | none => if (s.1.get new.tenantID).isSome then some (refresh (blank new) new) else none)

theorem cell_upsert (db : Tables) (id : String) (new : Db.Instance) (key : String) :
    cell key (upsert db id new) = if id = key then upsertAt (cell key db) new else cell key db := by
  unfold cell upsert Dns.upsertInstance upsertInstanceImportTx upsertAt
  by_cases hk : id = key
  · subst hk
    cases hl : db.instances.lookup id with
    | some old => simp [instanceRecord, hl, Except.map, refresh]
    | none =>
      by_cases ht : (db.tenants.get new.tenantID).isSome
      · simp [instanceRecord, hl, ht, Except.map, refresh, blank]
      · simp [instanceRecord, hl, ht, Except.map]
  · have hne : key ≠ id := fun e => hk e.symm
    cases hl : db.instances.lookup id with
    | some old => simp [instanceRecord, hl, hk, hne, Except.map]
    | none =>
      by_cases ht : (db.tenants.get new.tenantID).isSome
      · simp [instanceRecord, hl, ht, hk, hne, Except.map]
      · simp [instanceRecord, hl, ht, hk, Except.map]

/-- Upserts of the same new row overwrite each other. -/
theorem upsertAt_upsertAt (s : KeyTable Tenant × Option Db.Instance) {new new' : Db.Instance}
    (ht : new.tenantID = new'.tenantID) (ho : new.ocid = new'.ocid) :
    upsertAt (upsertAt s new) new' = upsertAt s new' := by
  obtain ⟨tenants, old⟩ := s
  cases old with
  | some old => rfl
  | none =>
    unfold upsertAt
    by_cases h : (tenants.get new'.tenantID).isSome
    · simp [ht, ho, h, refresh, blank]
    · simp [ht, h]

section
variable (json : RegionsJson) (tenantID : Int) (a : Answers)

/-! ## The two phases at a key -/

theorem listRegions_eq (db : Tables) (n : Nat) (regions : List String) :
    listRegions tenantID a db n regions =
      (returned a n regions).foldl (fun db e => upsert db (ociToDB e.2 tenantID e.1).1 (ociToDB e.2 tenantID e.1).2)
        db := by
  induction regions generalizing db n with
  | nil => rfl
  | cons region regions ih =>
    unfold listRegions returned
    cases a.list n with
    | none => exact ih db (n + 1)
    | some instances =>
      dsimp only [Option.getD_some]
      rw [ih, List.foldl_append, List.foldl_map]

theorem ocid_eq_of_key {i i' : OciInstance} {region region' : String}
    (h : (ociToDB i tenantID region).1 = (ociToDB i' tenantID region').1) :
    (ociToDB i tenantID region).2.ocid = (ociToDB i' tenantID region').2.ocid := by
  have := congrArg Worker.bareOCID h
  simpa only [ociToDB, bareOCID_compositeID] using this

theorem cell_listRegions (db : Tables) (n : Nat) (regions : List String) (key : String) :
    cell key (listRegions tenantID a db n regions) =
      ((returned a n regions).filter fun e => (ociToDB e.2 tenantID e.1).1 = key).getLast?.elim (cell key db)
        fun e => upsertAt (cell key db) (ociToDB e.2 tenantID e.1).2 := by
  rw [listRegions_eq, foldl_view (v := cell key) (f := fun s e => upsertAt s (ociToDB e.2 tenantID e.1).2)
    (p := fun e => decide ((ociToDB e.2 tenantID e.1).1 = key))]
  · refine foldl_getLast (f := fun s (e : String × OciInstance) => upsertAt s (ociToDB e.2 tenantID e.1).2)
      (fun s e he e' he' => ?_) _
    refine upsertAt_upsertAt s rfl (ocid_eq_of_key tenantID ?_)
    rw [of_decide_eq_true (List.mem_filter.mp he).2, of_decide_eq_true (List.mem_filter.mp he').2]
  · intro s e he
    rw [cell_upsert, if_pos (of_decide_eq_true he)]
  · intro s e he
    rw [cell_upsert, if_neg fun h => he (decide_eq_true h)]

theorem tenants_listRegions (db : Tables) (n : Nat) (regions : List String) :
    (listRegions tenantID a db n regions).tenants = db.tenants := by
  have h := congrArg Prod.fst (cell_listRegions tenantID a db n regions "")
  cases hl : ((returned a n regions).filter fun e => (ociToDB e.2 tenantID e.1).1 = "").getLast? with
  | none => rwa [hl] at h
  | some e => rwa [hl] at h

/-- The effect of one turn on its row. -/
def withNetwork (vnics : Option (List Vnic)) (row : Db.Instance) : Db.Instance :=
  match vnics with
  | none => row
  | some [] => row
  | some (vnic :: _) => setNetwork row vnic

theorem keys_listInstancesOf (db : Tables) : ((listInstancesOf db tenantID).map Sigma.fst).Nodup := by
  have hall : ((listInstances db).map Sigma.fst).Nodup := db.instances.nodupKeys
  unfold listInstancesOf
  split
  · exact hall.sublist (List.filter_sublist.map _)
  · exact hall

theorem mem_listInstancesOf (db : Tables) (key : String) (row : Db.Instance) :
    ⟨key, row⟩ ∈ listInstancesOf db tenantID ↔
      db.instances.lookup key = some row ∧ (tenantID = 0 ∨ row.tenantID = tenantID) := by
  have hmem : (⟨key, row⟩ : Sigma fun _ : String => Db.Instance) ∈ listInstances db ↔
      db.instances.lookup key = some row := AList.mem_lookup_iff.symm
  unfold listInstancesOf
  split
  · next h => simp [hmem, h]
  · next h => simp [hmem, not_not.mp h]

/-- The turn of a row, for what is stored under its key. -/
def turnVNIC (t : Tenant) (s : KeyTable Tenant × Option Db.Instance) (e : Sigma fun _ : String => Db.Instance) :
    KeyTable Tenant × Option Db.Instance :=
  match vnicsOf a t e.1 e.2.region e.2.ocid with
  | none => s
  | some [] => s
  | some (vnic :: _) => upsertAt s (setNetwork e.2 vnic)

/-- Only the turns of a key write there. -/
theorem cell_syncVNICs (order : Arrangement) (db : Tables) (t : Tenant) (ht : db.tenants.get tenantID = some t)
    (key : String) :
    cell key (syncVNICs tenantID a order db) =
      ((order.arrange (listInstancesOf db tenantID)).filter fun e => e.1 = key).foldl (turnVNIC a t) (cell key db) := by
  unfold syncVNICs
  rw [ht]
  refine foldl_view (v := cell key) (f := turnVNIC a t) (p := fun e => decide (e.1 = key)) ?_ ?_ _ _
  · intro s e he
    unfold turnVNIC syncVNIC
    split
    · rfl
    · rfl
    · rw [cell_upsert, if_pos (of_decide_eq_true he)]
  · intro s e he
    unfold syncVNIC
    split
    · rfl
    · rfl
    · rw [cell_upsert, if_neg fun h => he (decide_eq_true h)]

theorem lookup_syncVNICs (order : Arrangement) (db : Tables) (t : Tenant) (ht : db.tenants.get tenantID = some t)
    (key : String) :
    (syncVNICs tenantID a order db).instances.lookup key =
      (db.instances.lookup key).map fun row =>
        withNetwork (vnicsFor tenantID a t key row.tenantID row.region row.ocid) row := by
  have hrows : ∀ e, e ∈ order.arrange (listInstancesOf db tenantID) ↔ e ∈ listInstancesOf db tenantID :=
    fun e => (order.perm _).mem_iff
  have hkeys : ((order.arrange (listInstancesOf db tenantID)).map Sigma.fst).Nodup :=
    ((order.perm _).map _).nodup_iff.mpr (keys_listInstancesOf tenantID db)
  have hview := cell_syncVNICs tenantID a order db t ht key
  by_cases hin : ∃ row, db.instances.lookup key = some row ∧ (tenantID = 0 ∨ row.tenantID = tenantID)
  · obtain ⟨row, hl, hscope⟩ := hin
    have hmem := (hrows ⟨key, row⟩).mpr ((mem_listInstancesOf tenantID db key row).mpr ⟨hl, hscope⟩)
    have hone := filter_key_of_nodup hkeys hmem
    rw [hone] at hview
    have hsnd := congrArg Prod.snd hview
    simp only [List.foldl_cons, List.foldl_nil, turnVNIC, cell, hl] at hsnd
    rw [hl, Option.map_some, vnicsFor, if_pos hscope]
    refine hsnd.trans ?_
    unfold withNetwork
    cases vnicsOf a t key row.region row.ocid with
    | none => rfl
    | some vnics =>
      cases vnics with
      | nil => rfl
      | cons vnic vnics => rfl
  · have hnil : ((order.arrange (listInstancesOf db tenantID)).filter fun e => e.1 = key) = [] := by
      refine List.filter_eq_nil_iff.mpr fun e he hk => hin ?_
      obtain rfl := of_decide_eq_true hk
      exact ⟨e.2, (mem_listInstancesOf tenantID db e.1 e.2).mp ((hrows e).mp he)⟩
    rw [hnil] at hview
    have hsnd : (syncVNICs tenantID a order db).instances.lookup key = db.instances.lookup key :=
      congrArg Prod.snd hview
    rw [hsnd]
    cases hl : db.instances.lookup key with
    | none => rfl
    | some row =>
      have hscope : ¬ (tenantID = 0 ∨ row.tenantID = tenantID) := fun h => hin ⟨row, hl, h⟩
      rw [Option.map_some, vnicsFor, if_neg hscope]
      rfl

/-- A row after the listings. -/
def afterListing (stored : Option Db.Instance) (found : Option (String × OciInstance)) : Option Db.Instance :=
  found.elim stored fun e =>
    some (refresh (stored.getD (blank (ociToDB e.2 tenantID e.1).2)) (ociToDB e.2 tenantID e.1).2)

theorem lookup_listRegions (db : Tables) (ht : (db.tenants.get tenantID).isSome) (n : Nat) (regions : List String)
    (key : String) :
    (listRegions tenantID a db n regions).instances.lookup key =
      afterListing tenantID (db.instances.lookup key)
        ((returned a n regions).filter fun e => (ociToDB e.2 tenantID e.1).1 = key).getLast? := by
  have hview := congrArg Prod.snd (cell_listRegions tenantID a db n regions key)
  refine hview.trans ?_
  cases ((returned a n regions).filter fun e => (ociToDB e.2 tenantID e.1).1 = key).getLast? with
  | none => rfl
  | some e =>
    have hnew : (db.tenants.get (ociToDB e.2 tenantID e.1).2.tenantID).isSome := ht
    unfold afterListing upsertAt cell
    cases db.instances.lookup key with
    | none => simp [hnew]
    | some old => rfl

theorem getTenantClient_get {db : Tables} {t : Tenant} (h : getTenantClient tenantID a db = some t) :
    db.tenants.get tenantID = some t := by
  obtain ⟨t', ht', ht⟩ := Option.bind_eq_some_iff.mp h
  split at ht
  · cases ht
    exact ht'
  · cases ht

/-- **What a sync leaves at a key.** -/
theorem lookup_handleSync (order : Arrangement) (db : Tables) (key : String) :
    (handleSync json tenantID a order db).instances.lookup key =
      (afterListing tenantID (db.instances.lookup key) (listed json tenantID a db key)).map
        (withNetwork (vnicsRead json tenantID a db key)) := by
  unfold handleSync vnicsRead listed listing
  cases hc : getTenantClient tenantID a db with
  | none =>
    dsimp only [List.filter_nil, List.getLast?_nil, Option.bind_none]
    cases db.instances.lookup key <;> rfl
  | some t =>
    have hget := getTenantClient_get tenantID a hc
    have hupdated : (updateTenantRegions json tenantID db (syncRegions json a t)).tenants.get tenantID =
        some { t with subscribed := json.marshal (syncRegions json a t) } := by
      rw [updateTenantRegions, KeyTable.get_update_self, hget, Option.map_some]
    have hlisted : (listRegions tenantID a (updateTenantRegions json tenantID db (syncRegions json a t)) 0
        (syncRegions json a t)).tenants.get tenantID =
          some { t with subscribed := json.marshal (syncRegions json a t) } := by
      rw [tenants_listRegions, hupdated]
    dsimp only [Option.bind_some]
    rw [lookup_syncVNICs tenantID a order _ _ hlisted, lookup_listRegions tenantID a _ (hupdated ▸ rfl)]
    change (afterListing tenantID (db.instances.lookup key) _).map _ = _
    cases db.instances.lookup key with
    | some row =>
      cases ((returned a 0 (syncRegions json a t)).filter fun e => (ociToDB e.2 tenantID e.1).1 = key).getLast? <;>
        rfl
    | none =>
      cases ((returned a 0 (syncRegions json a t)).filter fun e => (ociToDB e.2 tenantID e.1).1 = key).getLast? <;>
        rfl

/-! ## Degraded rows -/

theorem getD_of_mem {α : Type} {o : Option α} {v : α} (h : v ∈ o) (d : α) : o.getD d = v := by
  rw [Option.mem_def.mp h, Option.getD_some]

theorem hasFields_refresh (old : Db.Instance) (region : String) (i : OciInstance) :
    HasFields (refresh old (ociToDB i tenantID region).2) region i where
  name _ hv := getD_of_mem hv ""
  shape _ hv := getD_of_mem hv ""
  state := rfl
  ocpu config hc _ hv := getD_of_mem (Option.mem_bind_iff.mpr ⟨config, hc, hv⟩) 0
  memoryGB config hc _ hv := getD_of_mem (Option.mem_bind_iff.mpr ⟨config, hc, hv⟩) 0
  bootVolumeGB source hs _ hv := getD_of_mem (Option.mem_bind_iff.mpr ⟨source, hs, hv⟩) 0
  imageID _ hv := getD_of_mem hv ""
  availabilityDomain _ hv := getD_of_mem hv ""
  faultDomain _ hv := getD_of_mem hv ""
  region := rfl

theorem HasFields.withNetwork {row : Db.Instance} {region : String} {i : OciInstance} (h : HasFields row region i)
    (vnics : Option (List Vnic)) : HasFields (withNetwork vnics row) region i := by
  unfold Sync.withNetwork
  split
  · exact h
  · exact h
  · exact { h with }

/-- VNICs are only asked for of a row that is there. -/
theorem exists_of_vnicsRead {db : Tables} {key : String} {vnics : List Vnic}
    (h : vnicsRead json tenantID a db key = some vnics) :
    ∃ row, afterListing tenantID (db.instances.lookup key) (listed json tenantID a db key) = some row := by
  obtain ⟨t, -, h⟩ := Option.bind_eq_some_iff.mp h
  cases hl : db.instances.lookup key with
  | some row =>
    cases hlisted : listed json tenantID a db key with
    | none => exact ⟨row, rfl⟩
    | some e => exact ⟨_, rfl⟩
  | none =>
    cases hlisted : listed json tenantID a db key with
    | none =>
      rw [hl, hlisted] at h
      cases h
    | some e => exact ⟨_, rfl⟩

/-- The columns of a VNIC do not depend on the row. -/
theorem network_setNetwork (row row' : Db.Instance) (vnic : Vnic) :
    network (setNetwork row vnic) = network (setNetwork row' vnic) := rfl

/-- A row that has the columns of the VNIC is not changed. -/
theorem setNetwork_of_network {row : Db.Instance} {vnic : Vnic} (h : network row = network (setNetwork row vnic)) :
    setNetwork row vnic = row := by
  obtain ⟨hpublic, hprivate, hsubnet⟩ : row.publicIP = _ ∧ row.privateIP = _ ∧ row.subnetID = _ := by
    simpa [network] using h
  unfold setNetwork at hpublic hprivate hsubnet ⊢
  cases row
  simp_all

/-- Where a VNIC could not be read, there is an attachment. -/
theorem vnicsRead_ne_nil_of_unread {db : Tables} {key : String} (h : Unread json tenantID a db key) :
    vnicsRead json tenantID a db key ≠ some [] := by
  intro hnil
  obtain hnone | ⟨attachments, hatt, hmem⟩ := h
  · rw [hnone] at hnil
    cases hnil
  have hasked : getInstanceVNICs a key = some [] := by
    obtain ⟨t, -, hvnics⟩ := Option.bind_eq_some_iff.mp hnil
    have hfor : ∀ owner region ocid, vnicsFor tenantID a t key owner region ocid = some [] →
        getInstanceVNICs a key = some [] := by
      intro owner region ocid hfor
      simp only [vnicsFor, vnicsOf, Option.ite_none_right_eq_some] at hfor
      obtain ⟨-, -, hfor⟩ := hfor
      split at hfor
      · cases hfor
      · exact hfor
    split at hvnics
    · exact hfor _ _ _ hvnics
    · exact hfor _ _ _ hvnics
    · cases hvnics
  unfold getInstanceVNICs at hasked
  rw [hatt, Option.bind_some] at hasked
  dsimp only at hasked
  have hpos := List.length_pos_of_mem hmem
  split at hasked
  · cases hasked
  · next hne =>
    have hlen := congrArg List.length (Option.some.inj hasked)
    exact hne ⟨hlen, hpos⟩

/-- **Sync and data it could not read.** Nothing is degraded if and only if every stored row that a listing returns,
and whose VNICs could not be read, has no addresses and no subnet, and every stored row of whose VNICs some could not
be read has the addresses and the subnet of the first one that could. -/
theorem handleSync_undegraded_iff (order : Arrangement) (db : Tables) :
    Undegraded json tenantID a db (handleSync json tenantID a order db) ↔
      ∀ key row, db.instances.lookup key = some row →
        ((listed json tenantID a db key).isSome → vnicsRead json tenantID a db key = none →
          network row = ("", "", "")) ∧
        ∀ vnic vnics, Unread json tenantID a db key → vnicsRead json tenantID a db key = some (vnic :: vnics) →
          network row = network (setNetwork row vnic) := by
  constructor
  · intro h key row hl
    constructor
    · intro hlisted hnone
      obtain ⟨row', hl', hrow'⟩ := h.unread key row hl (Or.inl hnone)
      obtain ⟨e, he⟩ := Option.isSome_iff_exists.mp hlisted
      rw [lookup_handleSync, hl, he, hnone] at hl'
      cases hl'
      exact hrow'.symm
    · intro vnic vnics hunread hread
      obtain ⟨row', hl', hrow'⟩ := h.unread key row hl hunread
      rw [lookup_handleSync, hread] at hl'
      obtain ⟨row'', -, rfl⟩ := Option.map_eq_some_iff.mp hl'
      rw [← hrow']
      exact network_setNetwork row'' row vnic
  · intro h
    refine ⟨?_, ?_, ?_, ?_⟩
    · intro key row hl hunread
      cases hread : vnicsRead json tenantID a db key with
      | none =>
        rw [lookup_handleSync, hl, hread]
        cases hlisted : listed json tenantID a db key with
        | none => exact ⟨row, rfl, rfl⟩
        | some e => exact ⟨_, rfl, ((h key row hl).1 (hlisted ▸ rfl) hread).symm⟩
      | some vnics =>
        cases vnics with
        | nil => exact absurd hread (vnicsRead_ne_nil_of_unread json tenantID a hunread)
        | cons vnic vnics =>
          obtain ⟨row', hrow'⟩ := exists_of_vnicsRead json tenantID a hread
          rw [lookup_handleSync, hrow', hread]
          refine ⟨_, rfl, ?_⟩
          rw [(h key row hl).2 vnic vnics hunread hread]
          exact network_setNetwork row' row vnic
    · intro key row hl hunlisted
      rw [lookup_handleSync, hl, hunlisted]
      refine ⟨_, rfl, ?_⟩
      cases hread : vnicsRead json tenantID a db key with
      | none => exact .inl rfl
      | some vnics =>
        cases vnics with
        | nil => exact .inl rfl
        | cons vnic vnics =>
          by_cases hunread : Unread json tenantID a db key
          · exact .inl (setNetwork_of_network ((h key row hl).2 vnic vnics hunread hread))
          · exact .inr ⟨hunread, vnic, vnics, rfl, rfl⟩
    · intro key region i hlisted
      rw [lookup_handleSync, hlisted]
      exact ⟨_, rfl, (hasFields_refresh tenantID _ region i).withNetwork _⟩
    · intro key vnic vnics _ hread
      obtain ⟨row, hrow⟩ := exists_of_vnicsRead json tenantID a hread
      rw [lookup_handleSync, hrow, hread]
      exact ⟨_, rfl, rfl⟩

end

/-! ## A sync whose VNICs cannot be read -/

def exampleJson : RegionsJson := ⟨fun _ => none, fun _ => "[]"⟩

/-- The region is not discovered, its listing returns one instance, and the VNICs are refused. -/
def exampleAnswers : Answers where
  client := true
  subscriptions := none
  list _ := some [{ id := some "ocid1.instance", displayName := some "web", lifecycleState := "RUNNING" }]
  regionClient _ := true
  attachments _ := none

def exampleDb : Tables :=
  { tenants := KeyTable.empty.insert { name := "acme", region := "eu-frankfurt-1" }
    instances := (∅ : AList fun _ : String => Db.Instance).insert "1:ocid1.instance"
      { tenantID := 1, name := "web", ocid := "ocid1.instance", publicIP := "203.0.113.7", privateIP := "10.0.0.2",
        subnetID := "ocid1.subnet", state := "RUNNING", region := "eu-frankfurt-1" } }

/-- The instance loses its addresses and its subnet. -/
theorem handleSync_degrades :
    ¬ Undegraded exampleJson 1 exampleAnswers exampleDb
      (handleSync exampleJson 1 exampleAnswers ⟨id, fun _ => .refl _⟩ exampleDb) := by
  intro h
  obtain ⟨row, hl, hrow⟩ := h.unread "1:ocid1.instance" _ (by rfl) (Or.inl (by decide))
  have : (handleSync exampleJson 1 exampleAnswers ⟨id, fun _ => .refl _⟩ exampleDb).instances.lookup
      "1:ocid1.instance" = some
        { tenantID := 1, name := "web", ocid := "ocid1.instance", state := "RUNNING", region := "eu-frankfurt-1" } := by
    decide
  rw [this] at hl
  cases hl
  exact absurd hrow (by decide)

end OciHelper.Instances.Sync
