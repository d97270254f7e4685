import OciHelper.Dns.AutoSync

/-!
# When the DNS mark is honest

* `Accepted`, `Written` : the answers with which an attempt succeeds;
* `ReconcileSafe`, `ImplicitSafe`, `BindingSafe` : what an attempt writes is accepted, and no marked instance with
  another address has the record; `WriteSafe` : a write of the tables gives a marked instance only records that are set;
* `step_honest_iff` : a step keeps the mark honest just when it is safe;
* `autoSync_honest_iff` : over runs.
-/

namespace OciHelper.Dns.AutoSync
open Db Backup StepRun

variable (lower : Char → Char)

/-! ## The answers of the service -/

/-- There is a token, the records are listed, no other record has the name, and the record has the address or one of the
two writes is accepted. -/
def Accepted (db : Tables) (ip : String) (t : Try) (b : InstanceDNSBinding) : Prop :=
  (cloudflareClientFor db b.cfCfgID b.zoneID).isSome = true ∧ t.answers.list = true ∧
    match findBindingTarget lower t.zone.records b.name.toList with
    | (_, some _) => False
    | (some r, none) => r.content = ip.toList ∨ ∃ n, t.answers.update n = true
    | (none, none) => ∃ n, t.zone.Fresh (t.answers.create n)

/-- The record that was listed is still there and its update is accepted, or the new one is. -/
def Written (existingRecords : List DNSRecord) (zone : Zone) (update : Bool) (create : Option RecordID)
    (name : Name) : Prop :=
  match existingRecords.find? fun r => normalize lower r.name = normalize lower name with
  | some r => update = true ∧ ∃ r' ∈ zone.records, r'.id = r.id
  | none => zone.Fresh create

/-! ## The turns -/

/-- The last of an instance's bindings with that record. -/
def lastBinding (db : Tables) (instanceID : String) (k : Key) : Option (Int × InstanceDNSBinding) :=
  ((instanceBindings db instanceID).filter fun b => bindingKey lower db b.2 = k).getLast?

/-- The instance is marked afterwards if it still has the address that was read. -/
def ReconcileSafe (s : State) (inst : Row) (tries : Int → Try) : Prop :=
  inst.2.publicIP ≠ "" → ∀ k b, lastBinding lower s.db inst.1 k = some b →
    ∀ id i, s.db.instances.lookup id = some i → k ∈ managed lower s.db id i.name →
      (if id = inst.1 then i.publicIP = inst.2.publicIP else Marked i) →
        Accepted lower s.db inst.2.publicIP (tries b.1) b.2 ∧ i.publicIP = inst.2.publicIP

/-- A refused write is at a record of no marked instance. With one that is accepted the instance is marked, if it still
has the address that was read. -/
def ImplicitSafe (s : State) (zoneID domain : String) (existingRecords : List DNSRecord) (inst : Row) (zone : Zone)
    (update : Bool) (create : Option RecordID) : Prop :=
  let name := dnsName inst.2.name domain
  let k := (zoneID, normalize lower name)
  inst.2.publicIP ≠ "" → instanceBindings s.db inst.1 = [] → inst.2.dnsLastIP ≠ inst.2.publicIP →
    (¬ Written lower existingRecords zone update create name →
      ∀ id i, s.db.instances.lookup id = some i → Marked i → k ∉ managed lower s.db id i.name) ∧
    (Written lower existingRecords zone update create name →
      (∀ id i, id ≠ inst.1 → s.db.instances.lookup id = some i → Marked i → k ∈ managed lower s.db id i.name →
        i.publicIP = inst.2.publicIP) ∧
      ∀ i, s.db.instances.lookup inst.1 = some i → i.publicIP = inst.2.publicIP → ¬ Marked i →
        ∀ k' ∈ managed lower s.db inst.1 i.name, k' ≠ k → s.last k' = some i.publicIP)

/-- A call from elsewhere marks nothing. -/
def BindingSafe (s : State) (ip : String) (t : Try) (b : InstanceDNSBinding) : Prop :=
  ∀ id i, s.db.instances.lookup id = some i → Marked i → bindingKey lower s.db b ∈ managed lower s.db id i.name →
    Accepted lower s.db ip t b ∧ i.publicIP = ip

/-! ## The writes of the tables -/

/-- If the instance is marked, the record of the binding was last set to its address. -/
def BindingSet (s : State) (b : InstanceDNSBinding) : Prop :=
  b.enabled = true → enabled s.db = true → ∀ i, s.db.instances.lookup b.instanceID = some i → Marked i →
    s.last (bindingKey lower s.db b) = some i.publicIP

/-- And so was the record that it has without a binding. -/
def ImplicitSet (s : State) (instanceID : String) : Prop :=
  enabled s.db = true → ∀ i, s.db.instances.lookup instanceID = some i → Marked i →
    ∀ k ∈ implicitKeys lower s.db i.name, s.last k = some i.publicIP

/-- All the records of an instance of that name were last set to that address. -/
def AllSet (s : State) (instanceID name ip : String) : Prop :=
  ∀ k ∈ managed lower s.db instanceID name, s.last k = some ip

/-- No other binding counts for the instance. -/
def OnlyBinding (db : Tables) (id : Int) (instanceID : String) : Prop :=
  ∀ j b, db.dnsBindings.get j = some b → Active instanceID b → j = id

def WriteSafe (s : State) : Dns.Event → Prop
  | .createBinding b => BindingSet lower s b
  | .updateBinding id req => ∀ cur, s.db.dnsBindings.get id = some cur →
      BindingSet lower s (req.merge cur) ∧
        (¬ Active cur.instanceID (req.merge cur) → OnlyBinding s.db id cur.instanceID →
          ImplicitSet lower s cur.instanceID)
  | .deleteBinding id => ∀ cur, s.db.dnsBindings.get id = some cur → OnlyBinding s.db id cur.instanceID →
      ImplicitSet lower s cur.instanceID
  | .upsertInstance r => ∀ i, s.db.instances.lookup r.id = some i → i.dnsLastIP ≠ "" → i.dnsLastIP = r.publicIP →
      AllSet lower s r.id r.name r.publicIP
  | .setColumn id (.dnsLastIP v) => ∀ i, s.db.instances.lookup id = some i → v ≠ "" → v = i.publicIP →
      AllSet lower s id i.name i.publicIP
  | .setColumn id (.publicIP v) => ∀ i, s.db.instances.lookup id = some i → i.dnsLastIP ≠ "" → i.dnsLastIP = v →
      AllSet lower s id i.name v
  | .setColumn _ (.state _) => True
  -- what goes is managed no longer, and what is restored has no mark
  | .deleteTenant _ => True
  | .restore _ _ _ => True
  -- other settings, other records
  | .elsewhere rest => ∀ id i, s.db.instances.lookup id = some i → Marked i →
      ∀ k ∈ managed lower { rest with dnsBindings := s.db.dnsBindings } id i.name, k ∉ managed lower s.db id i.name →
        s.last k = some i.publicIP

def Safe (s : State) : Event → Prop
  | .reconcile tries =>
    match s.phase with
    | .explicit _ (inst :: _) => ReconcileSafe lower s inst tries
    | _ => True
  | .implicit zone update create =>
    match s.phase with
    | .implicit zoneID domain existing (inst :: _) =>
      ImplicitSafe lower s zoneID domain existing inst zone update create
    | _ => True
  | .syncBinding id ip t => ∀ b, s.db.dnsBindings.get id = some b → BindingSafe lower s ip t b
  | .write e => WriteSafe lower s e
  | _ => True

variable {lower} {gcm : Gcm} {s s' : State}

/-! ## Attempts -/

theorem update_ok_iff (z : Zone) (accepts : Bool) (id : RecordID) (body : DNSRecord) :
    (z.update accepts id body).2 = true ↔ accepts = true ∧ ∃ r ∈ z.records, r.id = id := by
  unfold Zone.update
  split
  · next h => exact iff_of_true rfl h
  · next h => exact iff_of_false Bool.false_ne_true h

/-- A write that fails leaves the zone to the second one as it was. -/
theorem bindingWrite_fst_of_false {a : SyncAnswers} {existing : Option DNSRecord} {record : DNSRecord} {n : Fin 2}
    {z z' : Zone} (h : bindingWrite a existing record n z = (z', false)) : z' = z := by
  unfold bindingWrite at h
  split at h
  · unfold Zone.update at h
    split at h
    · cases h
    · cases h; rfl
  · unfold Zone.create at h
    split at h
    · cases h; rfl
    · split at h
      · cases h
      · cases h; rfl

/-- One of the two writes succeeds. -/
theorem twoWrites_ok_iff {a : SyncAnswers} {existing : Option DNSRecord} {record : DNSRecord} {z : Zone} :
    (match bindingWrite a existing record 0 z with
      | (z, true) => (z, Report.ok)
      | (z, false) => report (bindingWrite a existing record 1 z)).2 ≠ .error ↔
      ∃ n, (bindingWrite a existing record n z).2 = true := by
  have hsplit : (∃ n : Fin 2, (bindingWrite a existing record n z).2 = true) ↔
      (bindingWrite a existing record 0 z).2 = true ∨ (bindingWrite a existing record 1 z).2 = true :=
    Fin.exists_fin_two
  rw [hsplit]
  rcases hfirst : bindingWrite a existing record 0 z with ⟨z', ok⟩
  cases ok with
  | true => simp
  | false =>
    obtain rfl := bindingWrite_fst_of_false hfirst
    simp only [report, Bool.false_eq_true, false_or]
    cases (bindingWrite a existing record 1 z').2 <;> simp

theorem syncBinding_ok_iff {db : Tables} {ip : String} {t : Try} {b : InstanceDNSBinding} :
    (syncBinding lower db ip t b).ok = true ↔ Accepted lower db ip t b := by
  unfold syncBinding Accepted syncBindingToDNS
  rw [decide_eq_true_eq]
  dsimp only
  cases (cloudflareClientFor db b.cfCfgID b.zoneID).isSome with
  | false => simp
  | true =>
    cases t.answers.list with
    | false => simp
    | true =>
      rw [if_neg (by simp)]
      simp only [true_and]
      rcases htarget : findBindingTarget lower t.zone.records b.name.toList with ⟨existing, _ | conflict⟩
      · cases existing with
        | none =>
          simp only [Option.map_none, reduceCtorEq, if_false]
          refine twoWrites_ok_iff.trans ?_
          exact exists_congr fun n => t.zone.create_fresh_iff (t.answers.create n) _
        | some r =>
          have hmem := (findBindingTarget_existing htarget).1
          by_cases hcontent : r.content = ip.toList
          · simp [hcontent]
          · simp only [Option.map_some, Option.some.injEq, hcontent, if_false, false_or]
            refine twoWrites_ok_iff.trans ?_
            exact exists_congr fun n => (update_ok_iff ..).trans (and_iff_left ⟨r, hmem, rfl⟩)
      · simp

theorem syncImplicit_ok_iff {existing : List DNSRecord} {zone : Zone} {update : Bool} {create : Option RecordID}
    {name : Name} (ip : List Char) :
    (syncImplicit lower existing update create name ip zone).2 = .ok ↔
      Written lower existing zone update create name := by
  have hreport : ∀ res : Zone × Bool, (report res).2 = .ok ↔ res.2 = true := by
    rintro ⟨z, ok⟩
    cases ok <;> simp [report]
  unfold syncImplicit Written
  cases existing.find? fun r => normalize lower r.name = normalize lower name with
  | some r => exact (hreport _).trans (update_ok_iff ..)
  | none => exact (hreport _).trans (zone.create_fresh_iff ..)

/-! ## Turns -/

/-- An instance with bindings has only their records. -/
theorem exists_lastBinding {db : Tables} {id name : String} {k : Key} (hk : k ∈ managed lower db id name)
    (hne : instanceBindings db id ≠ []) : ∃ b, lastBinding lower db id k = some b := by
  obtain ⟨-, ⟨j, b, hget, hactive, hkey⟩ | ⟨hnone, -⟩⟩ := mem_managed_iff.mp hk
  · have hmem : (j, b) ∈ (instanceBindings db id).filter fun b => bindingKey lower db b.2 = k :=
      List.mem_filter.mpr ⟨mem_instanceBindings_iff.mpr ⟨hget, hactive⟩, decide_eq_true hkey⟩
    exact Option.isSome_iff_exists.mp (List.getLast?_isSome.mpr (List.ne_nil_of_mem hmem))
  · exact absurd (instanceBindings_eq_nil_iff.mpr hnone) hne

/-- What is done for an instance with an address and bindings. -/
theorem reconcile_eq {db : Tables} {inst : Row} (tries : Int → Try) (hip : inst.2.publicIP ≠ "")
    (hne : instanceBindings db inst.1 ≠ []) : reconcile lower db inst tries =
      { id := inst.1
        ip := inst.2.publicIP
        attempts := (instanceBindings db inst.1).map fun b => syncBinding lower db inst.2.publicIP (tries b.1) b.2
        marks := true } := by
  unfold reconcile
  rw [if_neg hip]
  split
  · next h => exact absurd h hne
  · rfl

theorem outcome_reconcile {db : Tables} {inst : Row} (tries : Int → Try) (hip : inst.2.publicIP ≠ "")
    (hne : instanceBindings db inst.1 ≠ []) (k : Key) : (reconcile lower db inst tries).outcome k =
      (lastBinding lower db inst.1 k).map fun b => (syncBinding lower db inst.2.publicIP (tries b.1) b.2).ok := by
  rw [reconcile_eq tries hip hne, Turn.outcome, lastBinding, List.filter_map, List.getLast?_map, Option.map_map]
  rfl

theorem marked_mark_iff {t : Turn} {id : String} {i : Instance} (hmarks : t.marks = true) (hip : t.ip ≠ "") :
    Marked (t.mark id i) ↔ if id = t.id then i.publicIP = t.ip else Marked i := by
  unfold Turn.mark
  by_cases hid : id = t.id
  · rw [if_pos ⟨hmarks, hid⟩, if_pos hid]
    exact (and_iff_right hip).trans eq_comm
  · rw [if_neg fun h => hid h.2, if_neg hid]

theorem reconcile_keeps_iff (inst : Row) (tries : Int → Try) :
    (reconcile lower s.db inst tries).Keeps lower s ↔ ReconcileSafe lower s inst tries := by
  by_cases hip : inst.2.publicIP = ""
  · have hnothing : reconcile lower s.db inst tries = {} := if_pos hip
    rw [hnothing]
    exact iff_of_true (Turn.keeps_nothing s) fun h => absurd hip h
  by_cases hne : instanceBindings s.db inst.1 = []
  · have hnothing : reconcile lower s.db inst tries = {} := by
      unfold reconcile
      rw [if_neg hip, hne]
    rw [hnothing]
    refine iff_of_true (Turn.keeps_nothing s) fun _ k b hb => ?_
    rw [lastBinding, hne] at hb
    cases hb
  have houtcome : ∀ k, (reconcile lower s.db inst tries).outcome k = (lastBinding lower s.db inst.1 k).map fun b =>
      (syncBinding lower s.db inst.2.publicIP (tries b.1) b.2).ok := outcome_reconcile tries hip hne
  have hmarked : ∀ {id : String} {i : Instance}, Marked ((reconcile lower s.db inst tries).mark id i) ↔
      if id = inst.1 then i.publicIP = inst.2.publicIP else Marked i := by
    rw [reconcile_eq tries hip hne]
    exact marked_mark_iff rfl hip
  have hip' : (reconcile lower s.db inst tries).ip = inst.2.publicIP := by rw [reconcile_eq tries hip hne]
  unfold Turn.Keeps
  simp only [hmarked, houtcome, hip']
  constructor
  · intro h _ k b hb id i hl hk hm
    have hset := h id i hl hm k hk
    rw [hb] at hset
    exact ⟨syncBinding_ok_iff.mp hset.1, hset.2.symm⟩
  · intro h id i hl hm k hk
    cases hb : lastBinding lower s.db inst.1 k with
    | some b =>
      obtain ⟨haccepted, heq⟩ := h hip k b hb id i hl hk hm
      exact ⟨syncBinding_ok_iff.mpr haccepted, heq.symm⟩
    | none =>
      -- the instance itself has no record that is not attempted
      by_cases hid : id = inst.1
      · subst hid
        obtain ⟨b, hb'⟩ := exists_lastBinding hk hne
        cases hb.symm.trans hb'
      · rw [if_neg hid] at hm
        exact .inl hm

theorem outcome_single {t : Turn} {a : Attempt} (h : t.attempts = [a]) (k : Key) :
    t.outcome k = if a.key = k then some a.ok else none := by
  rw [Turn.outcome, h]
  by_cases hk : a.key = k
  · simp [hk]
  · simp [hk]

theorem binding_keeps_iff (ip : String) (t : Try) (b : InstanceDNSBinding) :
    Turn.Keeps lower { ip := ip, attempts := [syncBinding lower s.db ip t b] } s ↔ BindingSafe lower s ip t b := by
  have hmark : ∀ (id : String) (i : Instance),
      ({ ip := ip, attempts := [syncBinding lower s.db ip t b] } : Turn).mark id i = i :=
    fun id i => if_neg fun h => Bool.false_ne_true h.1
  have houtcome : ∀ k, ({ ip := ip, attempts := [syncBinding lower s.db ip t b] } : Turn).outcome k =
      if bindingKey lower s.db b = k then some (syncBinding lower s.db ip t b).ok else none :=
    outcome_single (a := syncBinding lower s.db ip t b) rfl
  unfold Turn.Keeps
  simp only [hmark, houtcome]
  constructor
  · intro h id i hl hm hk
    have hset := h id i hl hm _ hk
    rw [if_pos rfl] at hset
    exact ⟨syncBinding_ok_iff.mp hset.1, hset.2.symm⟩
  · intro h id i hl hm k hk
    by_cases hkey : bindingKey lower s.db b = k
    · subst hkey
      obtain ⟨haccepted, heq⟩ := h id i hl hm hk
      rw [if_pos rfl]
      exact ⟨syncBinding_ok_iff.mpr haccepted, heq.symm⟩
    · rw [if_neg hkey]
      exact .inl hm

/-- A refused attempt that marks nothing. -/
theorem refused_keeps_iff (id ip : String) (k : Key) :
    Turn.Keeps lower { id := id, ip := ip, attempts := [⟨k, false⟩] } s ↔
      ∀ id i, s.db.instances.lookup id = some i → Marked i → k ∉ managed lower s.db id i.name := by
  have hmark : ∀ (id' : String) (i : Instance),
      ({ id := id, ip := ip, attempts := [⟨k, false⟩] } : Turn).mark id' i = i :=
    fun id' i => if_neg fun h => Bool.false_ne_true h.1
  have houtcome : ∀ k', ({ id := id, ip := ip, attempts := [⟨k, false⟩] } : Turn).outcome k' =
      if k = k' then some false else none := outcome_single (a := ⟨k, false⟩) rfl
  unfold Turn.Keeps
  simp only [hmark, houtcome]
  constructor
  · intro h id i hl hm hk
    have hset := h id i hl hm k hk
    rw [if_pos rfl] at hset
    exact Bool.false_ne_true hset.1
  · intro h id i hl hm k' hk
    by_cases hkey : k = k'
    · exact absurd (hkey ▸ hk) (h id i hl hm)
    · rw [if_neg hkey]
      exact .inl hm

/-- An accepted attempt that marks the instance. -/
theorem accepted_keeps_iff {id ip : String} (hip : ip ≠ "") (k : Key) :
    Turn.Keeps lower { id := id, ip := ip, attempts := [⟨k, true⟩], marks := true } s ↔
      (∀ id' i, id' ≠ id → s.db.instances.lookup id' = some i → Marked i → k ∈ managed lower s.db id' i.name →
        i.publicIP = ip) ∧
      ∀ i, s.db.instances.lookup id = some i → i.publicIP = ip → ¬ Marked i →
        ∀ k' ∈ managed lower s.db id i.name, k' ≠ k → s.last k' = some i.publicIP := by
  have hmarked : ∀ {id' : String} {i : Instance},
      Marked (({ id := id, ip := ip, attempts := [⟨k, true⟩], marks := true } : Turn).mark id' i) ↔
        if id' = id then i.publicIP = ip else Marked i := marked_mark_iff rfl hip
  have houtcome : ∀ k', ({ id := id, ip := ip, attempts := [⟨k, true⟩], marks := true } : Turn).outcome k' =
      if k = k' then some true else none := outcome_single (a := ⟨k, true⟩) rfl
  unfold Turn.Keeps
  simp only [hmarked, houtcome]
  constructor
  · intro h
    constructor
    · intro id' i hid hl hm hk
      have hset := h id' i hl (by rwa [if_neg hid]) k hk
      rw [if_pos rfl] at hset
      exact hset.2.symm
    · intro i hl heq hm k' hk' hne
      have hset := h id i hl (by rwa [if_pos rfl]) k' hk'
      rw [if_neg fun h => hne h.symm] at hset
      exact hset.resolve_left hm
  · rintro ⟨hothers, hself⟩ id' i hl hm k' hk'
    by_cases hkey : k = k'
    · subst hkey
      rw [if_pos rfl]
      refine ⟨rfl, ?_⟩
      by_cases hid : id' = id
      · rw [if_pos hid] at hm
        exact hm.symm
      · rw [if_neg hid] at hm
        exact (hothers id' i hid hl hm hk').symm
    · rw [if_neg hkey]
      by_cases hid : id' = id
      · subst hid
        rw [if_pos rfl] at hm
        exact or_iff_not_imp_left.mpr fun hnot => hself i hl hm hnot k' hk' fun h => hkey h.symm
      · rw [if_neg hid] at hm
        exact .inl hm

theorem implicit_keeps_iff (zoneID domain : String) (existing : List DNSRecord) (inst : Row) (zone : Zone)
    (update : Bool) (create : Option RecordID) :
    (syncImplicitDNS lower s.db zoneID domain existing inst zone update create).Keeps lower s ↔
      ImplicitSafe lower s zoneID domain existing inst zone update create := by
  unfold syncImplicitDNS ImplicitSafe
  by_cases hip : inst.2.publicIP = ""
  · rw [if_pos hip]
    exact iff_of_true (Turn.keeps_nothing s) fun h => absurd hip h
  by_cases hne : instanceBindings s.db inst.1 = []
  swap
  · rw [if_neg hip, if_pos hne]
    exact iff_of_true (Turn.keeps_nothing s) fun _ h => absurd h hne
  by_cases hsame : inst.2.dnsLastIP = inst.2.publicIP
  · rw [if_neg hip, if_neg (not_not.mpr hne), if_pos hsame]
    exact iff_of_true (Turn.keeps_nothing s) fun _ _ h => absurd hsame h
  rw [if_neg hip, if_neg (not_not.mpr hne), if_neg hsame]
  simp only [ne_eq, hip, hne, hsame, not_false_eq_true, true_imp_iff]
  rw [← syncImplicit_ok_iff inst.2.publicIP.toList]
  by_cases hok : (syncImplicit lower existing update create (dnsName inst.2.name domain) inst.2.publicIP.toList
      zone).2 = .ok
  · simp only [hok, decide_true, not_true_eq_false, false_imp_iff, true_imp_iff, true_and]
    exact accepted_keeps_iff hip _
  · simp only [hok, decide_false, not_false_eq_true, true_imp_iff, false_imp_iff, and_true]
    exact refused_keeps_iff ..

/-! ## Writes of the bindings -/

theorem mem_managed_bindings_iff {t : KeyTable InstanceDNSBinding} {id name : String} {k : Key} :
    k ∈ managed lower { s.db with dnsBindings := t } id name ↔
      enabled s.db = true ∧ ((∃ j b, t.get j = some b ∧ Active id b ∧ bindingKey lower s.db b = k) ∨
        ((∀ j b, t.get j = some b → ¬ Active id b) ∧ k ∈ implicitKeys lower s.db name)) :=
  mem_managed_iff

/-- What a binding that is stored keeps of the one that was sent. -/
theorem validateBinding_keeps {db : Tables} {b b' : InstanceDNSBinding} (h : validateBinding db b = .ok b') :
    b.name ≠ "" ∧ (∀ id, Active id b' ↔ Active id b) ∧ bindingKey lower db b' = bindingKey lower db b := by
  unfold validateBinding at h
  split at h
  · cases h
  split at h
  · cases h
  split at h
  · cases h
  next hname =>
  split at h
  · cases h
  split at h
  · cases h
  cases h
  exact ⟨hname, fun id => Iff.rfl, rfl⟩

theorem create_honest_iff {b : InstanceDNSBinding} {db : Tables} (h0 : Honest lower s)
    (h : createBinding s.db b = .ok db) : Honest lower { s with db } ↔ BindingSet lower s b := by
  unfold createBinding at h
  split at h
  · cases h
  split at h
  · cases h
  next b' hvalid =>
  cases h
  obtain ⟨hname, hactive, hkey⟩ := validateBinding_keeps hvalid
  constructor
  · intro hh hen hon i hl hm
    have hb' : Active b.instanceID b' := (hactive _).mpr ⟨rfl, hen, hname⟩
    exact hh b.instanceID i hl hm _ (mem_managed_bindings_iff.mpr
      ⟨hon, .inl ⟨s.db.dnsBindings.nextId, b', s.db.dnsBindings.get_insert_self b', hb', hkey⟩⟩)
  · intro hset id i hl hm k hk
    obtain ⟨hon, ⟨j, c, hget, hc, rfl⟩ | ⟨hnone, himplicit⟩⟩ := mem_managed_bindings_iff.mp hk
    · rw [KeyTable.get_insert] at hget
      split at hget
      · cases hget
        obtain ⟨rfl, hen, -⟩ := (hactive id).mp hc
        rw [hkey]
        exact hset hen hon i hl hm
      · exact h0 id i hl hm _ (mem_managed_iff.mpr ⟨hon, .inl ⟨j, c, hget, hc, rfl⟩⟩)
    · refine h0 id i hl hm k (mem_managed_iff.mpr ⟨hon, .inr ⟨fun j c hget => hnone j c ?_, himplicit⟩⟩)
      exact s.db.dnsBindings.get_insert_of_some b' hget

theorem delete_honest_iff {id : Int} (h0 : Honest lower s) :
    Honest lower { s with db := { s.db with dnsBindings := s.db.dnsBindings.erase id } } ↔
      ∀ cur, s.db.dnsBindings.get id = some cur → OnlyBinding s.db id cur.instanceID →
        ImplicitSet lower s cur.instanceID := by
  constructor
  · intro hh cur hcur honly hon i hl hm k himplicit
    refine hh cur.instanceID i hl hm k (mem_managed_bindings_iff.mpr ⟨hon, .inr ⟨fun j b hget hb => ?_, himplicit⟩⟩)
    obtain ⟨hget, hne⟩ := s.db.dnsBindings.get_of_get_erase hget
    exact hne (honly j b hget hb)
  · intro hset id' i hl hm k hk
    obtain ⟨hon, ⟨j, b, hget, hb, rfl⟩ | ⟨hnone, himplicit⟩⟩ := mem_managed_bindings_iff.mp hk
    · exact h0 id' i hl hm _ (mem_managed_iff.mpr
        ⟨hon, .inl ⟨j, b, (s.db.dnsBindings.get_of_get_erase hget).1, hb, rfl⟩⟩)
    · have honly : OnlyBinding s.db id id' := fun j b hget hb =>
        by_contra fun hne => hnone j b ((s.db.dnsBindings.get_erase_of_ne hne).trans hget) hb
      by_cases hold : ∀ j b, s.db.dnsBindings.get j = some b → ¬ Active id' b
      · exact h0 id' i hl hm k (mem_managed_iff.mpr ⟨hon, .inr ⟨hold, himplicit⟩⟩)
      · -- the binding that was erased was the one that counted
        simp only [not_forall, not_not] at hold
        obtain ⟨j, b, hget, hb⟩ := hold
        obtain rfl := honly j b hget hb
        obtain rfl := hb.1
        exact hset b hget honly hon i hl hm k himplicit

theorem update_honest_iff {id : Int} {req : BindingUpdate} {db : Tables} (h0 : Honest lower s)
    (h : updateBinding s.db id req = .ok db) : Honest lower { s with db } ↔
      ∀ cur, s.db.dnsBindings.get id = some cur → BindingSet lower s (req.merge cur) ∧
        (¬ Active cur.instanceID (req.merge cur) → OnlyBinding s.db id cur.instanceID →
          ImplicitSet lower s cur.instanceID) := by
  unfold updateBinding at h
  split at h
  · cases h
  next cur hcur =>
  split at h
  · cases h
  next b' hvalid =>
  cases h
  obtain ⟨hname, hactive, hkey⟩ := validateBinding_keeps hvalid
  have hself : (s.db.dnsBindings.update id fun _ => b').get id = some b' := by
    rw [KeyTable.get_update_self, hcur]
    rfl
  have hother : ∀ {j}, j ≠ id → (s.db.dnsBindings.update id fun _ => b').get j = s.db.dnsBindings.get j :=
    fun hne => s.db.dnsBindings.get_update_of_ne _ hne
  constructor
  · intro hh cur' hcur'
    obtain rfl := Option.some.inj (hcur.symm.trans hcur')
    constructor
    · intro hen hon i hl hm
      exact hh _ i hl hm _ (mem_managed_bindings_iff.mpr
        ⟨hon, .inl ⟨id, b', hself, (hactive _).mpr ⟨rfl, hen, hname⟩, hkey⟩⟩)
    · intro hleft honly hon i hl hm k himplicit
      refine hh _ i hl hm k (mem_managed_bindings_iff.mpr ⟨hon, .inr ⟨fun j b hget hb => ?_, himplicit⟩⟩)
      by_cases hj : j = id
      · subst hj
        obtain rfl := Option.some.inj (hself.symm.trans hget)
        exact hleft ((hactive _).mp hb)
      · exact hj (honly j b ((hother hj).symm.trans hget) hb)
  · intro hset id' i hl hm k hk
    obtain ⟨hnew, hleft⟩ := hset cur hcur
    obtain ⟨hon, ⟨j, b, hget, hb, rfl⟩ | ⟨hnone, himplicit⟩⟩ := mem_managed_bindings_iff.mp hk
    · by_cases hj : j = id
      · subst hj
        obtain rfl := Option.some.inj (hself.symm.trans hget)
        obtain ⟨rfl, hen, -⟩ := (hactive id').mp hb
        rw [hkey]
        exact hnew hen hon i hl hm
      · exact h0 id' i hl hm _ (mem_managed_iff.mpr ⟨hon, .inl ⟨j, b, (hother hj).symm.trans hget, hb, rfl⟩⟩)
    · have honly : OnlyBinding s.db id id' := fun j b hget hb =>
        by_contra fun hne => hnone j b ((hother hne).trans hget) hb
      by_cases hold : ∀ j b, s.db.dnsBindings.get j = some b → ¬ Active id' b
      · exact h0 id' i hl hm k (mem_managed_iff.mpr ⟨hon, .inr ⟨hold, himplicit⟩⟩)
      · simp only [not_forall, not_not] at hold
        obtain ⟨j, b, hget, hb⟩ := hold
        obtain rfl := honly j b hget hb
        obtain rfl := Option.some.inj (hcur.symm.trans hget)
        obtain rfl := hb.1
        exact hleft (fun h => hnone j b' hself ((hactive _).mpr h)) honly hon i hl hm k himplicit

/-! ## Writes of the instances -/

/-- Only one row is written. -/
theorem row_honest_iff {instances : AList fun _ : String => Instance} {id : String}
    (hothers : ∀ id' ≠ id, instances.lookup id' = s.db.instances.lookup id') (h0 : Honest lower s) :
    Honest lower { s with db := { s.db with instances } } ↔
      ∀ i, instances.lookup id = some i → Marked i → AllSet lower s id i.name i.publicIP := by
  constructor
  · exact fun hh i hl hm k hk => hh id i hl hm k hk
  · intro hset id' i hl hm k hk
    by_cases hid : id' = id
    · subst hid
      exact hset i hl hm k hk
    · exact h0 id' i ((hothers id' hid).symm.trans hl) hm k hk

theorem upsert_honest_iff {r : InstanceRecord} {db : Tables} (h0 : Honest lower s)
    (h : upsertInstance s.db r = .ok db) : Honest lower { s with db } ↔
      ∀ i, s.db.instances.lookup r.id = some i → i.dnsLastIP ≠ "" → i.dnsLastIP = r.publicIP →
        AllSet lower s r.id r.name r.publicIP := by
  unfold upsertInstance upsertInstanceImportTx at h
  cases hl : s.db.instances.lookup r.id with
  | some old =>
    rw [hl] at h
    cases h
    rw [row_honest_iff (fun id' hid => AList.lookup_insert_ne hid) h0]
    simp only [AList.lookup_insert, Option.some.injEq, forall_eq', Marked, and_imp]
  | none =>
    rw [hl] at h
    dsimp only at h
    split at h
    · cases h
      rw [row_honest_iff (fun id' hid => AList.lookup_insert_ne hid) h0]
      simp [Marked]
    · cases h

theorem column_honest_iff (id : String) (c : InstanceColumn) (h0 : Honest lower s) :
    Honest lower { s with db := setColumn s.db id c } ↔
      ∀ i, s.db.instances.lookup id = some i → Marked (c.set i) → AllSet lower s id i.name (c.set i).publicIP := by
  unfold setColumn
  cases hl : s.db.instances.lookup id with
  | none => exact iff_of_true h0 fun _ h => nomatch h
  | some i =>
    rw [row_honest_iff (fun id' hid => AList.lookup_insert_ne hid) h0]
    have hname : (c.set i).name = i.name := by cases c <;> rfl
    simp only [AList.lookup_insert, Option.some.injEq, forall_eq', hname]

theorem setColumn_honest_iff (id : String) (c : InstanceColumn) (h0 : Honest lower s) :
    Honest lower { s with db := setColumn s.db id c } ↔ WriteSafe lower s (.setColumn id c) := by
  rw [column_honest_iff id c h0]
  cases c with
  | state v => exact iff_of_true (fun i hl hm k hk => h0 id i hl hm k hk) trivial
  | dnsLastIP v => exact ⟨fun h i hl hne heq => h i hl ⟨hne, heq⟩, fun h i hl hm => h i hl hm.1 hm.2⟩
  | publicIP v => exact ⟨fun h i hl hne heq => h i hl ⟨hne, heq⟩, fun h i hl hm => h i hl hm.1 hm.2⟩

/-- The rows that are left are as they were. -/
theorem deleteTenant_honest {id : Int} {db : Tables} (h0 : Honest lower s) (h : deleteTenantCascade id s.db = .ok db) :
    Honest lower { s with db } := by
  obtain hok | ⟨herr, -⟩ := deleteTenantCascade_eq id s.db
  · obtain rfl := Except.ok.inj (hok.symm.trans h)
    exact fun id' i hl hm k hk => h0 id' i ((lookup_deleteInstancesOf id s.db.instances id' i).mp hl).1 hm k hk
  · cases herr.symm.trans h

theorem unmarked_foldlM {tenants : KeyTable Tenant} (rs : List InstanceRecord) :
    ∀ {m m' : AList fun _ : String => Instance}, (∀ id i, m.lookup id = some i → i.dnsLastIP = "") →
      rs.foldlM (upsertInstanceImportTx tenants) m = .ok m' → ∀ id i, m'.lookup id = some i → i.dnsLastIP = "" := by
  induction rs with
  | nil =>
    intro m m' h0 h
    cases h
    exact h0
  | cons r rs ih =>
    intro m m' h0 h
    rw [List.foldlM_cons] at h
    cases hr : upsertInstanceImportTx tenants m r with
    | error e =>
      rw [hr] at h
      cases h
    | ok m₁ =>
      rw [hr] at h
      refine ih (fun id i hl => ?_) h
      unfold upsertInstanceImportTx at hr
      by_cases hid : id = r.id
      · subst hid
        cases hold : m.lookup r.id with
        | some old =>
          rw [hold] at hr
          cases hr
          rw [AList.lookup_insert] at hl
          cases hl
          exact h0 r.id old hold
        | none =>
          rw [hold] at hr
          dsimp only at hr
          split at hr
          · cases hr
            rw [AList.lookup_insert] at hl
            cases hl
            rfl
          · cases hr
      · split at hr
        · cases hr
          exact h0 id i ((AList.lookup_insert_ne hid).symm.trans hl)
        · split at hr
          · cases hr
            exact h0 id i ((AList.lookup_insert_ne hid).symm.trans hl)
          · cases hr

/-- Nothing that is restored has a mark. -/
theorem restore_honest {key : Option Db.Key} {rand : Nat → Nonce} {payload : BackupData} {db : Tables}
    (h : restoreTx gcm key rand payload s.db = .ok db) : Honest lower { s with db } := by
  obtain ⟨⟨tenants, hi⟩, -⟩ := restoreTx_loops gcm h
  intro id i hl hm
  have hempty : ∀ id i, (∅ : AList fun _ : String => Instance).lookup id = some i → i.dnsLastIP = "" := by
    intro id i h
    rw [AList.lookup_empty] at h
    cases h
  exact absurd (unmarked_foldlM payload.instances hempty hi id i hl) hm.1

theorem elsewhere_honest_iff (rest : Tables) (h0 : Honest lower s) :
    Honest lower { s with db := { rest with instances := s.db.instances, dnsBindings := s.db.dnsBindings } } ↔
      WriteSafe lower s (.elsewhere rest) := by
  constructor
  · exact fun hh id i hl hm k hk _ => hh id i hl hm k hk
  · intro hset id i hl hm k hk
    by_cases hold : k ∈ managed lower s.db id i.name
    · exact h0 id i hl hm k hold
    · exact hset id i hl hm k hk hold

theorem write_honest_iff {e : Dns.Event} {db : Tables} (h0 : Honest lower s) (h : Dns.step gcm s.db e = some db) :
    Honest lower { s with db } ↔ WriteSafe lower s e := by
  cases e with
  | createBinding b => exact create_honest_iff h0 (toOption_eq_some h)
  | updateBinding id req => exact update_honest_iff h0 (toOption_eq_some h)
  | deleteBinding id =>
    cases h
    exact delete_honest_iff h0
  | upsertInstance r => exact upsert_honest_iff h0 (toOption_eq_some h)
  | setColumn id c =>
    cases h
    exact setColumn_honest_iff id c h0
  | deleteTenant id => exact iff_of_true (deleteTenant_honest h0 (toOption_eq_some h)) trivial
  | restore key rand payload => exact iff_of_true (restore_honest (toOption_eq_some h)) trivial
  | elsewhere rest =>
    cases h
    exact elsewhere_honest_iff rest h0

/-! ## Runs -/

/-- **A step keeps the mark honest just when it is safe.** -/
theorem step_honest_iff (s : State) (e : Event) (s' : State) (h0 : Honest lower s)
    (h : step lower gcm s e = some s') : Honest lower s' ↔ Safe lower s e := by
  have hturn : ∀ {e : Event}, (next s e).map ((turn lower s e).run s) = some s' →
      (Honest lower s' ↔ (turn lower s e).Keeps lower s) := by
    intro e h
    obtain ⟨phase, -, rfl⟩ := Option.map_eq_some_iff.mp h
    exact (turn lower s e).honest_iff h0 phase
  cases e with
  | write e =>
    obtain ⟨db, hdb, rfl⟩ := Option.map_eq_some_iff.mp h
    exact write_honest_iff h0 hdb
  | start => exact (hturn h).trans (iff_of_true (Turn.keeps_nothing s) trivial)
  | beginImplicit listing => exact (hturn h).trans (iff_of_true (Turn.keeps_nothing s) trivial)
  | finish => exact (hturn h).trans (iff_of_true (Turn.keeps_nothing s) trivial)
  | reconcile tries =>
    refine (hturn h).trans ?_
    simp only [turn, Safe]
    rcases s.phase with _ | ⟨_, _ | ⟨inst, todo⟩⟩ | _
    case explicit.cons => exact reconcile_keeps_iff inst tries
    all_goals exact iff_of_true (Turn.keeps_nothing s) trivial
  | implicit zone update create =>
    refine (hturn h).trans ?_
    simp only [turn, Safe]
    rcases s.phase with _ | _ | ⟨zoneID, domain, existing, _ | ⟨inst, todo⟩⟩
    case implicit.cons => exact implicit_keeps_iff zoneID domain existing inst zone update create
    all_goals exact iff_of_true (Turn.keeps_nothing s) trivial
  | syncBinding id ip t =>
    refine (hturn (e := .syncBinding id ip t) h).trans ?_
    simp only [turn, Safe]
    cases s.db.dnsBindings.get id with
    | none =>
      refine iff_of_true (Turn.keeps_nothing s) fun _ hb => ?_
      cases hb
    | some b => exact (binding_keeps_iff ip t b).trans ⟨fun h _ hb => Option.some.inj hb ▸ h, fun h => h b rfl⟩

/-- **Over every run**, each marked instance has its records set to its address in all states if and only if every
attempt at the record of one is accepted and for its address, and no write gives one a record that is not set. -/
theorem autoSync_honest_iff {s s' : State} {es : List Event} (h0 : Honest lower s)
    (h : exec (step lower gcm) s es = some s') :
    Throughout (step lower gcm) (Honest lower) s es ↔ Run (step lower gcm) (Safe lower) s es s' :=
  throughout_iff step_honest_iff h0 h

/-! ## One instance and one binding -/

def oneRow (publicIP : String) : Instance := { tenantID := 1, name := "web", publicIP := publicIP }

def webBinding : InstanceDNSBinding :=
  { instanceID := "1:ocid", tenantID := 1, name := "web.example.org", zoneID := "zone" }

/-- A server with one instance, whose binding is enabled. -/
def oneBinding : State where
  db :=
    { tenants := KeyTable.empty.insert { name := "acme" }
      instances := AList.insert "1:ocid" (oneRow "192.0.2.1") ∅
      config := AList.insert "dns_auto_sync_enabled" "true" (AList.insert "cloudflare_token" "token" ∅)
      dnsBindings := KeyTable.empty.insert webBinding }

theorem eq_of_lookup {id : String} {i i₀ : Instance}
    (hl : (AList.insert "1:ocid" i₀ (∅ : AList fun _ : String => Instance)).lookup id = some i) :
    id = "1:ocid" ∧ i = i₀ := by
  by_cases hid : id = "1:ocid"
  · subst hid
    exact ⟨rfl, Option.some.inj (hl.symm.trans (AList.lookup_insert _))⟩
  · cases (AList.lookup_insert_ne hid).symm.trans hl

theorem honest_oneBinding : Honest Char.toLower oneBinding := fun id i hl hm => by
  obtain ⟨-, rfl⟩ := eq_of_lookup hl
  exact absurd rfl hm.1

/-- The zone has no records, and the service lists them or not. -/
def emptyZone (list : Bool) : Try where
  zone := { records := [], nodup := List.nodup_nil }
  answers := { client := true, list := list, update := fun _ => true, create := fun _ => some ['1'] }

/-- The zone has the record, and only the second of two updates is accepted. -/
def secondUpdate : Try where
  zone :=
    { records := [{ aRecord "web.example.org".toList "192.0.2.1".toList 120 with id := ['1'] }]
      nodup := List.nodup_singleton _ }
  answers := { client := true, list := true, update := fun n => n.val = 1, create := fun _ => none }

/-- A call from elsewhere that fails, a run, another address, another run, and then the binding is deleted. -/
def synced : List Event :=
  [.syncBinding 1 "192.0.2.1" (emptyZone false), .start, .reconcile fun _ => emptyZone true, .beginImplicit none,
   .write (.setColumn "1:ocid" (.publicIP "192.0.2.2")), .start, .reconcile fun _ => secondUpdate, .beginImplicit none,
   .write (.deleteBinding 1)]

/-- With one binding, which is accepted. -/
theorem reconcileSafe_webBinding {s : State} {inst : Row} {t : Try} {i₀ : Instance}
    (hbindings : s.db.dnsBindings = KeyTable.empty.insert webBinding)
    (hinstances : s.db.instances = AList.insert "1:ocid" i₀ ∅) (hid : inst.1 = "1:ocid")
    (haccepted : Accepted Char.toLower s.db inst.2.publicIP t webBinding) :
    ReconcileSafe Char.toLower s inst fun _ => t := by
  intro _ k b hb id i hl _ hm
  have hmem := (List.mem_filter.mp (List.mem_of_getLast? hb)).1
  have hget := (mem_instanceBindings_iff.mp hmem).1
  rw [hbindings, KeyTable.get_insert] at hget
  have heq : b.2 = webBinding := by
    split at hget
    · exact (Option.some.inj hget).symm
    · cases hget
  rw [hinstances] at hl
  rw [if_pos ((eq_of_lookup hl).1.trans hid.symm)] at hm
  exact ⟨heq ▸ haccepted, hm⟩

theorem success_honest : ∃ s', exec (step Char.toLower .keyed) oneBinding synced = some s' ∧
    (s'.db.instances.lookup "1:ocid").map Instance.dnsLastIP = some "192.0.2.2" ∧
      Throughout (step Char.toLower .keyed) (Honest Char.toLower) oneBinding synced := by
  refine ⟨_, rfl, rfl, (autoSync_honest_iff honest_oneBinding rfl).mpr ?_⟩
  refine .cons ?_ rfl (.cons trivial rfl (.cons ?_ rfl (.cons trivial rfl (.cons ?_ rfl
    (.cons trivial rfl (.cons ?_ rfl (.cons trivial rfl (.cons ?_ rfl (.nil _)))))))))
  · intro b _ id i hl hm
    obtain ⟨-, rfl⟩ := eq_of_lookup hl
    exact absurd rfl hm.1
  · refine reconcileSafe_webBinding rfl rfl rfl ⟨rfl, rfl, 0, ['1'], rfl, ?_⟩
    exact fun _ h => absurd h List.not_mem_nil
  · intro i hl hne heq
    obtain ⟨-, rfl⟩ := eq_of_lookup hl
    exact absurd heq (by decide)
  · exact reconcileSafe_webBinding rfl rfl rfl ⟨rfl, rfl, .inr ⟨1, rfl⟩⟩
  · intro cur _ _ _ i _ _ k hk
    cases hk

/-- The listing fails, and the instance is marked. -/
theorem failure_marks : ∃ s', exec (step Char.toLower .keyed) oneBinding
      [.start, .reconcile fun _ => emptyZone false] = some s' ∧ ¬ Honest Char.toLower s' := by
  refine ⟨_, rfl, fun h => ?_⟩
  have := h "1:ocid" _ rfl ⟨by decide, rfl⟩ _ (List.mem_singleton.mpr rfl)
  cases this

end OciHelper.Dns.AutoSync
