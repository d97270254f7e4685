import OciHelper.Backup.References
import OciHelper.Dns.Bindings
import OciHelper.Dns.Writes

/-!
# The automatic DNS sync

* `instanceBindings`, `implicitTarget`, `managed` : the records that a run manages for an instance;
* `reconcile`, `syncImplicitDNS` : what the two phases do for one instance, as a `Turn`;
* `step` : the turns of a run, the calls of `syncBindingToDNS` from elsewhere and the writes of the tables;
* `Honest` : an instance whose `dns_last_ip` is its address has its records set to it;
* `mem_managed_iff` : the records that are managed; `Turn.honest_iff` : what a turn may do to them.

A turn is one step; what others do comes between two turns. Of an attempt only the outcome is kept: the zone
that it finds is an answer of the service.
-/

namespace OciHelper.Dns.AutoSync
open Db Backup StepRun

/-- A record is known by its zone and its normalized name. -/
abbrev Key := String × Name

abbrev Row := Sigma fun _ : String => Instance

variable (lower : Char → Char)

/-! ## What a run manages -/

def instanceBindings (db : Tables) (instanceID : String) : List (Int × InstanceDNSBinding) :=
  (listInstanceDNSBindings db).filter fun b => b.2.instanceID = instanceID ∧ b.2.enabled ∧ b.2.name ≠ ""

/-- `cloudflareClientFor`: the zone, if there is a token. -/
def cloudflareClientFor (db : Tables) (cfgID : Int) (fallbackZone : String) : Option String :=
  let cfg := getCfCfg db cfgID
  let own := (cfg.map CfCfg.token).getD ""
  let token := if own = "" then getConfig db.config "cloudflare_token" else own
  if token = "" then none
  else some (if fallbackZone = "" then (cfg.map CfCfg.zoneID).getD "" else fallbackZone)

/-- Without a client the record is the one in the zone of the binding. -/
def bindingKey (db : Tables) (b : InstanceDNSBinding) : Key :=
  ((cloudflareClientFor db b.cfCfgID b.zoneID).getD b.zoneID, normalize lower b.name.toList)

/-- The configuration that is named, if it has a token. -/
def autoCfg (db : Tables) : Option CfCfg :=
  ((autoSyncCfgID db.config).bind (getCfCfg db)).filter fun cfg => cfg.token ≠ ""

/-- The zone and the domain of the second phase, if it takes place. -/
def implicitTarget (db : Tables) : Option (String × String) :=
  let globalZone := getConfig db.config "dns_auto_sync_zone_id"
  let zoneID := if globalZone = "" then ((autoCfg db).map CfCfg.zoneID).getD "" else globalZone
  let token := ((autoCfg db).map CfCfg.token).getD (getConfig db.config "cloudflare_token")
  if zoneID = "" ∨ token = "" then none else some (zoneID, getConfig db.config "dns_auto_sync_domain")

def dnsName (name domain : String) : Name :=
  (if domain ≠ "" then name ++ "." ++ domain else name).toList

def enabled (db : Tables) : Bool := getConfig db.config "dns_auto_sync_enabled" = "true"

/-- The records that the next run manages for an instance of that id and name. -/
def managed (db : Tables) (instanceID name : String) : List Key :=
  if enabled db then
    match instanceBindings db instanceID with
    | [] => ((implicitTarget db).map fun t => (t.1, normalize lower (dnsName name t.2))).toList
    | bs => bs.map fun b => bindingKey lower db b.2
  else []

/-! ## One instance -/

structure Attempt where
  key : Key
  ok : Bool

/-- What is attempted for an instance, and whether its `dns_last_ip` is set afterwards. -/
structure Turn where
  id : String := ""
  ip : String := ""
  attempts : List Attempt := []
  marks : Bool := false

/-- The zone that a call of `syncBindingToDNS` finds, and the other answers. -/
structure Try where
  zone : Zone
  answers : SyncAnswers

def syncBinding (db : Tables) (ip : String) (t : Try) (b : InstanceDNSBinding) : Attempt where
  key := bindingKey lower db b
  ok := (syncBindingToDNS lower
    { t.answers with client := (cloudflareClientFor db b.cfCfgID b.zoneID).isSome }
    b.name.toList b.proxied b.ttl ip.toList t.zone).2 ≠ .error

/-- An instance in `reconcileExplicitBindings`. -/
def reconcile (db : Tables) (inst : Row) (tries : Int → Try) : Turn :=
  if inst.2.publicIP = "" then {}
  else
    match instanceBindings db inst.1 with
    | [] => {}
    | bs =>
      { id := inst.1
        ip := inst.2.publicIP
        attempts := bs.map fun b => syncBinding lower db inst.2.publicIP (tries b.1) b.2
        -- the outcomes are not looked at
        marks := true }

/-- An instance in `syncImplicitDNS`; the row is the one that was read when the run began. -/
def syncImplicitDNS (db : Tables) (zoneID domain : String) (existingRecords : List DNSRecord) (inst : Row)
    (zone : Zone) (update : Bool) (create : Option RecordID) : Turn :=
  if inst.2.publicIP = "" then {}
  else if instanceBindings db inst.1 ≠ [] then {}
  else if inst.2.dnsLastIP = inst.2.publicIP then {}
  else
    let name := dnsName inst.2.name domain
    let ok := (syncImplicit lower existingRecords update create name inst.2.publicIP.toList zone).2 = .ok
    { id := inst.1
      ip := inst.2.publicIP
      attempts := [⟨(zoneID, normalize lower name), ok⟩]
      marks := ok }

/-! ## Runs -/

inductive Phase
  | idle
  | explicit (instances todo : List Row)
  | implicit (zoneID domain : String) (existingRecords : List DNSRecord) (todo : List Row)

/-- `last` is what the last attempt at each record ended with. -/
structure State where
  db : Tables
  phase : Phase := .idle
  last : Key → Option String := fun _ => none

/-- `syncBinding` is a call by `handleCloudflareOCISync` or `updateCfDNSAfterChangeIP`. -/
inductive Event
  | start
  | reconcile (tries : Int → Try)
  | beginImplicit (listing : Option (List DNSRecord))
  | implicit (zone : Zone) (update : Bool) (create : Option RecordID)
  | finish
  | syncBinding (b : Int) (ip : String) (t : Try)
  | write (e : Dns.Event)

namespace Turn

/-- How the last attempt of the turn at a record ended, if there is one. -/
def outcome (t : Turn) (k : Key) : Option Bool :=
  ((t.attempts.filter fun a => a.key = k).getLast?).map Attempt.ok

/-- The row of an instance after the turn. -/
def mark (t : Turn) (id : String) (i : Instance) : Instance :=
  if t.marks = true ∧ id = t.id then { i with dnsLastIP := t.ip } else i

def last (t : Turn) (before : Key → Option String) (k : Key) : Option String :=
  match t.outcome k with
  | none => before k
  | some ok => if ok then some t.ip else none

def run (t : Turn) (s : State) (phase : Phase) : State where
  db := if t.marks then setColumn s.db t.id (.dnsLastIP t.ip) else s.db
  phase := phase
  last := t.last s.last

end Turn

/-- What the event does for an instance. -/
def turn (s : State) : Event → Turn
  | .reconcile tries =>
    match s.phase with
    | .explicit _ (inst :: _) => reconcile lower s.db inst tries
    | _ => {}
  | .implicit zone update create =>
    match s.phase with
    | .implicit zoneID domain existing (inst :: _) =>
      syncImplicitDNS lower s.db zoneID domain existing inst zone update create
    | _ => {}
  | .syncBinding id ip t =>
    match s.db.dnsBindings.get id with
    | some b => { ip := ip, attempts := [syncBinding lower s.db ip t b] }
    | none => {}
  | _ => {}

/-- How a run goes on, if the event is one that can happen now. -/
def next (s : State) : Event → Option Phase
  | .start =>
    match s.phase with
    | .idle =>
      some (if enabled s.db then .explicit (listInstances s.db) (listInstances s.db) else .idle)
    | _ => none
  | .reconcile _ =>
    match s.phase with
    | .explicit instances (_ :: todo) => some (.explicit instances todo)
    | _ => none
  | .beginImplicit listing =>
    match s.phase with
    | .explicit instances [] =>
      match implicitTarget s.db, listing with
      | some (zoneID, domain), some existing => some (.implicit zoneID domain existing instances)
      | _, _ => some .idle
    | _ => none
  | .implicit _ _ _ =>
    match s.phase with
    | .implicit zoneID domain existing (_ :: todo) => some (.implicit zoneID domain existing todo)
    | _ => none
  | .finish =>
    match s.phase with
    | .implicit _ _ _ [] => some .idle
    | _ => none
  | _ => some s.phase

variable (gcm : Gcm)

def step : Step State Event
  | s, .write e => (Dns.step gcm s.db e).map fun db => { s with db }
  | s, e => (next s e).map ((turn lower s e).run s)

/-! ## The mark -/

/-- What the next run takes to be up to date. -/
def Marked (i : Instance) : Prop := i.dnsLastIP ≠ "" ∧ i.dnsLastIP = i.publicIP

/-- Of a marked instance, the last attempt at each record set it to the address. -/
def Honest (s : State) : Prop :=
  ∀ id i, s.db.instances.lookup id = some i → Marked i →
    ∀ k ∈ managed lower s.db id i.name, s.last k = some i.publicIP

/-- Of an instance that is marked after the turn, each record that was attempted was set to its address, and so
were the others before, unless it was marked before. -/
def Turn.Keeps (t : Turn) (s : State) : Prop :=
  ∀ id i, s.db.instances.lookup id = some i → Marked (t.mark id i) →
    ∀ k ∈ managed lower s.db id i.name,
      match t.outcome k with
      | some ok => ok = true ∧ t.ip = i.publicIP
      | none => Marked i ∨ s.last k = some i.publicIP

/-! ## Turns -/

variable {lower gcm}

namespace Turn

@[simp] theorem mark_name (t : Turn) (id : String) (i : Instance) : (t.mark id i).name = i.name := by
  unfold mark
  split <;> rfl

@[simp] theorem mark_publicIP (t : Turn) (id : String) (i : Instance) : (t.mark id i).publicIP = i.publicIP := by
  unfold mark
  split <;> rfl

theorem lookup_run (t : Turn) (s : State) (phase : Phase) (id : String) :
    (t.run s phase).db.instances.lookup id = (s.db.instances.lookup id).map (t.mark id) := by
  show (if t.marks then setColumn s.db t.id (.dnsLastIP t.ip) else s.db).instances.lookup id = _
  unfold mark
  by_cases hm : t.marks = true
  · rw [if_pos hm]
    unfold setColumn
    by_cases hid : id = t.id
    · subst hid
      cases hl : s.db.instances.lookup t.id with
      | none => exact hl
      | some i =>
        dsimp only
        rw [AList.lookup_insert, Option.map_some, if_pos ⟨hm, rfl⟩]
        rfl
    · simp only [hid, and_false, if_false, Option.map_id']
      split
      · rfl
      · exact AList.lookup_insert_ne hid
  · simp [hm]

theorem run_tables (t : Turn) (s : State) (phase : Phase) :
    (t.run s phase).db.dnsBindings = s.db.dnsBindings ∧ (t.run s phase).db.config = s.db.config ∧
      (t.run s phase).db.cfConfigs = s.db.cfConfigs := by
  unfold run setColumn
  dsimp only
  split
  · split <;> exact ⟨rfl, rfl, rfl⟩
  · exact ⟨rfl, rfl, rfl⟩

end Turn

/-! ## What is managed -/

/-- The binding counts for the instance. -/
def Active (instanceID : String) (b : InstanceDNSBinding) : Prop :=
  b.instanceID = instanceID ∧ b.enabled = true ∧ b.name ≠ ""

/-- The record of an instance without a binding that counts. -/
def implicitKeys (lower : Char → Char) (db : Tables) (name : String) : List Key :=
  ((implicitTarget db).map fun t => (t.1, normalize lower (dnsName name t.2))).toList

theorem mem_instanceBindings_iff {db : Tables} {id : String} {r : Int × InstanceDNSBinding} :
    r ∈ instanceBindings db id ↔ db.dnsBindings.get r.1 = some r.2 ∧ Active id r.2 := by
  rw [← KeyTable.mem_rows_iff]
  unfold instanceBindings Active
  rw [List.mem_filter, decide_eq_true_eq]
  rfl

theorem instanceBindings_eq_nil_iff {db : Tables} {id : String} :
    instanceBindings db id = [] ↔ ∀ j b, db.dnsBindings.get j = some b → ¬ Active id b := by
  rw [List.eq_nil_iff_forall_not_mem, Prod.forall]
  refine forall₂_congr fun j b => ?_
  rw [mem_instanceBindings_iff, not_and]

theorem mem_managed_iff {db : Tables} {id name : String} {k : Key} : k ∈ managed lower db id name ↔
    enabled db = true ∧ ((∃ j b, db.dnsBindings.get j = some b ∧ Active id b ∧ bindingKey lower db b = k) ∨
      ((∀ j b, db.dnsBindings.get j = some b → ¬ Active id b) ∧ k ∈ implicitKeys lower db name)) := by
  rw [← instanceBindings_eq_nil_iff]
  unfold managed
  cases enabled db with
  | false => simp
  | true =>
    simp only [if_true, true_and]
    cases hbs : instanceBindings db id with
    | nil =>
      refine ⟨fun h => .inr ⟨rfl, h⟩, ?_⟩
      rintro (⟨j, b, hget, hactive, -⟩ | ⟨-, h⟩)
      · exact absurd (mem_instanceBindings_iff (r := (j, b)) |>.mpr ⟨hget, hactive⟩) (hbs ▸ List.not_mem_nil)
      · exact h
    | cons b bs =>
      have hmap : k ∈ (b :: bs).map (fun b => bindingKey lower db b.2) ↔
          ∃ r ∈ instanceBindings db id, bindingKey lower db r.2 = k := by rw [hbs, List.mem_map]
      refine hmap.trans ?_
      constructor
      · rintro ⟨r, hr, hkey⟩
        obtain ⟨hget, hactive⟩ := mem_instanceBindings_iff.mp hr
        exact .inl ⟨r.1, r.2, hget, hactive, hkey⟩
      · rintro (⟨j, b, hget, hactive, hkey⟩ | ⟨hnil, -⟩)
        · exact ⟨(j, b), mem_instanceBindings_iff.mpr ⟨hget, hactive⟩, hkey⟩
        · exact absurd hnil (List.cons_ne_nil _ _)

/-- Only three tables say what is managed. -/
theorem managed_congr {db db' : Tables} (hb : db'.dnsBindings = db.dnsBindings) (hc : db'.config = db.config)
    (hf : db'.cfConfigs = db.cfConfigs) (id name : String) : managed lower db' id name = managed lower db id name := by
  have hcfg : getCfCfg db' = getCfCfg db := by
    unfold getCfCfg
    rw [hf]
  have hauto : autoCfg db' = autoCfg db := by
    unfold autoCfg
    rw [hc, hcfg]
  have htarget : implicitTarget db' = implicitTarget db := by
    unfold implicitTarget
    rw [hauto, hc]
  have hkey : bindingKey lower db' = bindingKey lower db := by
    funext b
    unfold bindingKey cloudflareClientFor
    rw [hcfg, hc]
  unfold managed enabled instanceBindings listInstanceDNSBindings
  rw [hb, hc, htarget, hkey]

theorem Turn.keeps_nothing (s : State) : ({} : Turn).Keeps lower s := fun id i _ hm _ _ => by
  unfold Turn.mark at hm
  rw [if_neg fun h => Bool.false_ne_true h.1] at hm
  exact Or.inl hm

theorem Turn.honest_iff (t : Turn) {s : State} (h0 : Honest lower s) (phase : Phase) :
    Honest lower (t.run s phase) ↔ t.Keeps lower s := by
  obtain ⟨hb, hc, hf⟩ := t.run_tables s phase
  have hlast : ∀ k, (t.run s phase).last k = t.last s.last k := fun _ => rfl
  unfold Honest Turn.Keeps
  simp only [managed_congr hb hc hf, t.lookup_run, Option.map_eq_some_iff, hlast]
  constructor
  · intro h id i hl hm k hk
    have hset := h id (t.mark id i) ⟨i, hl, rfl⟩ hm k (by rwa [mark_name])
    rw [mark_publicIP] at hset
    unfold Turn.last at hset
    split at hset <;> rename_i ho
    · rw [ho]
      exact Or.inr hset
    · rw [ho]
      split at hset <;> rename_i hok
      · exact ⟨hok, Option.some.inj hset⟩
      · cases hset
  · rintro h id - ⟨i, hl, rfl⟩ hm k hk
    rw [mark_name] at hk
    have hset := h id i hl hm k hk
    rw [mark_publicIP]
    unfold Turn.last
    split at hset <;> rename_i ho
    · rw [ho]
      obtain ⟨rfl, hip⟩ := hset
      exact congrArg some hip
    · rw [ho]
      obtain hmarked | hset := hset
      · exact h0 id i hl hmarked k hk
      · exact hset

end OciHelper.Dns.AutoSync
