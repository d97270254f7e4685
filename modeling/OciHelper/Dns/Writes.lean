import OciHelper.Dns.Zone
import OciHelper.Lib.StepRun

/-!
# The paths that write DNS records

* `syncBindingToDNS`, `syncImplicit`, `removeBinding`, `ociSync`, `updateDNSRecordIP`,
  `updateCfDNSAfterChangeIP` : what each does for one name, with the answers of its calls;
* `Path` : one of them with its arguments; `Framed` : it stays in its frame;
* `path_framed_iff` : when it does; `others_survive` : what any number of paths that do so leave.
-/

namespace OciHelper.Dns

/-- The `error` of a result entry is set, or the function returns one. -/
inductive Report
  | ok
  | skip
  | error
  deriving DecidableEq, Repr

def report (res : Zone × Bool) : Zone × Report := (res.1, if res.2 then .ok else .error)

def aRecord (name : Name) (ip : List Char) (ttl : Int) : DNSRecord :=
  { id := [], type := .a, name := name, content := ip, ttl := ttl }

variable (lower fold : Char → Char)

/-! ## Bindings -/

/-- The answers to the two attempts at a write, and whether there is a client and a listing. -/
structure SyncAnswers where
  client : Bool
  list : Bool
  update : Fin 2 → Bool
  create : Fin 2 → Option RecordID

/-- One attempt. -/
def bindingWrite (a : SyncAnswers) (existing : Option DNSRecord) (record : DNSRecord) (attempt : Fin 2) (z : Zone) :
    Zone × Bool :=
  match existing with
  | some r => z.update (a.update attempt) r.id record
  | none => z.create (a.create attempt) record

def bindingRecord (name : Name) (proxied : Bool) (ttl : Int) (ip : List Char) : DNSRecord :=
  { aRecord name ip (if proxied then 1 else if ttl = 0 then 120 else ttl) with proxied := some proxied }

def syncBindingToDNS (a : SyncAnswers) (name : Name) (proxied : Bool) (ttl : Int) (ip : List Char) (z : Zone) :
    Zone × Report :=
  if a.client = false ∨ a.list = false then (z, .error)
  else
    match findBindingTarget lower z.records name with
    | (_, some _) => (z, .error)
    | (existing, none) =>
      if existing.map DNSRecord.content = some ip then (z, .skip)
      else
        let write := bindingWrite a existing (bindingRecord name proxied ttl ip)
        match write 0 z with
        | (z, true) => (z, .ok)
        | (z, false) => report (write 1 z)

/-- The removal in `handleCloudflareOCISync` for a binding. -/
def removeBinding (client list delete : Bool) (name : Name) (z : Zone) : Zone × Report :=
  if client = false ∨ list = false then (z, .error)
  else
    match z.records.find? fun r => equalFold fold r.name name ∧ r.type = .a with
    | none => (z, .skip)
    | some r => report (z.delete delete r.id)

/-! ## Instances without bindings -/

/-- One instance of `syncImplicitDNS`; `existingRecords` is the listing at the start of the run. -/
def syncImplicit (existingRecords : List DNSRecord) (update : Bool) (create : Option RecordID) (dnsName : Name)
    (ip : List Char) (z : Zone) : Zone × Report :=
  match existingRecords.find? fun r => normalize lower r.name = normalize lower dnsName with
  | some r => report (z.update update r.id (aRecord dnsName ip 120))
  | none => report (z.create create (aRecord dnsName ip 120))

def updateDNSRecordIP (list update : Bool) (name : Name) (newIP : List Char) (z : Zone) : Zone × Report :=
  if list = false then (z, .error)
  else
    match z.records.find? fun r => normalize lower r.name = normalize lower name with
    | none => (z, .error)
    | some r => report (z.update update r.id { r with content := newIP })

inductive Action
  | add
  | remove
  | update
  deriving DecidableEq, Repr

structure WriteAnswers where
  list : Bool
  update : Bool
  delete : Bool
  create : Option RecordID

/-- `handleCloudflareOCISync` for an instance. -/
def ociSync (action : Action) (a : WriteAnswers) (dnsName : Name) (ip : List Char) (z : Zone) : Zone × Report :=
  match action with
  | .add =>
    -- the error of the listing is not looked at
    let existing := if a.list then z.records else []
    if existing.any fun r => equalFold fold r.name dnsName then (z, .skip)
    else report (z.create a.create (aRecord dnsName ip 120))
  | .remove =>
    if a.list = false then (z, .error)
    else
      match z.records.find? fun r => equalFold fold r.name dnsName with
      | none => (z, .skip)
      | some r => report (z.delete a.delete r.id)
  | .update => updateDNSRecordIP lower a.list a.update dnsName ip z

/-- What follows after the bindings in `updateCfDNSAfterChangeIP`; `config` is the zone and the name of the
configuration, if it has a token. -/
def updateCfDNSAfterChangeIP (config : Option (List Char × Name)) (a : WriteAnswers) (pre domain : Name)
    (newIP : List Char) (proxied : Option Bool) (ttl : Int) (remark : List Char) (z : Zone) : Zone × Report :=
  match config with
  | none => (z, .error)
  | some (zoneID, cfgName) =>
    if pre = [] ∨ zoneID = [] then (z, .error)
    else
      let dnsName := pre ++ '.' :: (if domain = [] then cfgName else domain)
      let record : DNSRecord :=
        { aRecord dnsName newIP (if ttl = 0 then 120 else ttl) with proxied := proxied, comment := remark }
      if a.list = false then (z, .error)
      else
        match z.records.find? fun r => equalFold fold r.name dnsName with
        | none => report (z.create a.create record)
        | some r =>
          match z.delete a.delete r.id with
          | (z, false) => (z, .error)
          | (z, true) => report (z.create a.create record)

/-! ## The frame -/

inductive Path
  | bindingSync (a : SyncAnswers) (name : Name) (proxied : Bool) (ttl : Int) (ip : List Char)
  | bindingRemove (client list delete : Bool) (name : Name)
  | implicitSync (existingRecords : List DNSRecord) (update : Bool) (create : Option RecordID) (dnsName : Name)
      (ip : List Char)
  | ociSync (action : Action) (a : WriteAnswers) (dnsName : Name) (ip : List Char)
  | recordIP (list update : Bool) (name : Name) (newIP : List Char)
  | afterChangeIP (config : Option (List Char × Name)) (a : WriteAnswers) (pre domain : Name) (newIP : List Char)
      (proxied : Option Bool) (ttl : Int) (remark : List Char)

def Path.run : Path → Zone → Zone × Report
  | .bindingSync a name proxied ttl ip => syncBindingToDNS lower a name proxied ttl ip
  | .bindingRemove client list delete name => removeBinding fold client list delete name
  | .implicitSync existingRecords update create dnsName ip => syncImplicit lower existingRecords update create dnsName ip
  | .ociSync action a dnsName ip => Dns.ociSync lower fold action a dnsName ip
  | .recordIP list update name newIP => updateDNSRecordIP lower list update name newIP
  | .afterChangeIP config a pre domain newIP proxied ttl remark =>
    updateCfDNSAfterChangeIP fold config a pre domain newIP proxied ttl remark

/-- The names that the path takes for its own. -/
def Path.names : Path → Name → Bool
  | .bindingSync _ name _ _ _, n => normalize lower n = normalize lower name
  | .bindingRemove _ _ _ name, n => equalFold fold n name
  | .implicitSync _ _ _ dnsName _, n => normalize lower n = normalize lower dnsName
  | .ociSync .update _ dnsName _, n => normalize lower n = normalize lower dnsName
  | .ociSync _ _ dnsName _, n => equalFold fold n dnsName
  | .recordIP _ _ name _, n => normalize lower n = normalize lower name
  | .afterChangeIP config _ pre domain _ _ _ _, n =>
    config.any fun c => equalFold fold n (pre ++ '.' :: (if domain = [] then c.2 else domain))

/-- Only `A` records of the name are changed or deleted, and after an error they are still there. -/
def Framed (names : Name → Bool) (z : Zone) (res : Zone × Report) : Prop :=
  InFrame names z res.1 ∧ (res.2 = .error → KeepsA names z res.1)

/-- The record that `UpdateDNSRecordIP` writes to is an `A` record, or has the address already. -/
def UpdateSafe (list update : Bool) (name : Name) (newIP : List Char) (z : Zone) : Prop :=
  list = true → update = true → newIP ≠ [] →
    ∀ r, z.records.find? (fun r => normalize lower r.name = normalize lower name) = some r →
      r.content ≠ newIP → r.type = .a

/-- The first record of the name is an `A` record, or is not written to, or is not changed by the write; and where
it is deleted, the creation that follows succeeds. -/
def Path.Safe (p : Path) (z : Zone) : Prop :=
  match p with
  | .bindingSync .. | .bindingRemove .. => True
  | .implicitSync existingRecords update _ dnsName ip =>
    update = true → ∀ r, existingRecords.find? (fun r => normalize lower r.name = normalize lower dnsName) = some r →
      ∀ r' ∈ z.records, r'.id = r.id → r'.patched (aRecord dnsName ip 120) ≠ r' → r'.IsTarget (p.names lower fold)
  | .ociSync .add _ _ _ => True
  | .ociSync .remove a dnsName _ =>
    a.list = true → a.delete = true →
      ∀ r, z.records.find? (fun r => equalFold fold r.name dnsName) = some r → r.type = .a
  | .ociSync .update a name newIP => UpdateSafe lower a.list a.update name newIP z
  | .recordIP list update name newIP => UpdateSafe lower list update name newIP z
  | .afterChangeIP config a pre domain _ _ _ _ =>
    ∀ zoneID cfgName, config = some (zoneID, cfgName) → pre ≠ [] → zoneID ≠ [] → a.list = true → a.delete = true →
      ∀ r, z.records.find? (fun r => equalFold fold r.name (pre ++ '.' :: (if domain = [] then cfgName else domain))) =
        some r → r.type = .a ∧ ∃ id, a.create = some id ∧ ∀ r' ∈ z.records, r' ≠ r → r'.id ≠ id

/-! ## The frame of each path -/

variable {lower fold}

theorem Framed.refl (names : Name → Bool) (z : Zone) (rep : Report) : Framed names z (z, rep) :=
  ⟨.refl names z, fun _ => .refl names z⟩

theorem Framed.create (names : Name → Bool) (z : Zone) (newID : Option RecordID) (body : DNSRecord) :
    Framed names z (report (z.create newID body)) :=
  ⟨.create names z newID body, fun _ => .create names z newID body⟩

/-- An error of an update or a deletion changes nothing. -/
theorem framed_report_iff {names : Name → Bool} {z : Zone} {res : Zone × Bool} (h : res.2 = false → res.1 = z) :
    Framed names z (report res) ↔ InFrame names z res.1 := by
  refine ⟨fun hf => hf.1, fun hin => ⟨hin, fun herr => ?_⟩⟩
  cases hb : res.2 with
  | true =>
    unfold report at herr
    rw [hb] at herr
    cases herr
  | false =>
    show KeepsA names z res.1
    rw [h hb]
    exact .refl names z

theorem update_failed (z : Zone) (accepts : Bool) (id : RecordID) (body : DNSRecord)
    (h : (z.update accepts id body).2 = false) : (z.update accepts id body).1 = z := by
  unfold Zone.update at h ⊢
  split at h
  · cases h
  · rw [if_neg ‹_›]

theorem delete_failed (z : Zone) (accepts : Bool) (id : RecordID) (h : (z.delete accepts id).2 = false) :
    (z.delete accepts id).1 = z := by
  unfold Zone.delete at h ⊢
  split at h
  · cases h
  · rw [if_neg ‹_›]

theorem create_failed (z : Zone) (newID : Option RecordID) (body : DNSRecord) (h : (z.create newID body).2 = false) :
    (z.create newID body).1 = z := by
  unfold Zone.create at h ⊢
  split at h
  · rfl
  · split at h
    · cases h
    · rw [dif_neg ‹_›]

theorem bindingWrite_framed (a : SyncAnswers) {existing : Option DNSRecord} {name : Name} (proxied : Bool) (ttl : Int)
    (ip : List Char) (attempt : Fin 2) {z : Zone} (hex : ∀ r, existing = some r →
      r ∈ z.records ∧ r.type = .a ∧ normalize lower r.name = normalize lower name) :
    InFrame (fun n => normalize lower n = normalize lower name) z
      (bindingWrite a existing (bindingRecord name proxied ttl ip) attempt z).1 ∧
    ((bindingWrite a existing (bindingRecord name proxied ttl ip) attempt z).2 = false →
      (bindingWrite a existing (bindingRecord name proxied ttl ip) attempt z).1 = z) := by
  unfold bindingWrite
  cases existing with
  | none => exact ⟨.create _ z _ _, create_failed z _ _⟩
  | some r =>
    obtain ⟨hr, htype, hname⟩ := hex r rfl
    exact ⟨.update hr ⟨htype, by simpa using hname⟩ _ _, update_failed z _ _ _⟩

theorem syncBindingToDNS_framed (a : SyncAnswers) (name : Name) (proxied : Bool) (ttl : Int) (ip : List Char)
    (z : Zone) : Framed (fun n => normalize lower n = normalize lower name) z
      (syncBindingToDNS lower a name proxied ttl ip z) := by
  unfold syncBindingToDNS
  split
  · exact .refl _ z _
  cases hf : findBindingTarget lower z.records name with
  | mk existing conflict =>
    cases conflict with
    | some t => exact .refl _ z _
    | none =>
      dsimp only
      split
      · exact .refl _ z _
      have hex : ∀ r, existing = some r →
          r ∈ z.records ∧ r.type = .a ∧ normalize lower r.name = normalize lower name := fun r hr => by
        rw [hr] at hf
        exact findBindingTarget_existing hf
      obtain ⟨hin, hfail⟩ := bindingWrite_framed a proxied ttl ip 0 hex
      cases hw : bindingWrite a existing (bindingRecord name proxied ttl ip) 0 z with
      | mk z₁ ok =>
        rw [hw] at hin hfail
        cases ok with
        | true => exact ⟨hin, fun h => nomatch h⟩
        | false =>
          -- the first attempt has changed nothing
          obtain rfl := hfail rfl
          obtain ⟨hin', hfail'⟩ := bindingWrite_framed a proxied ttl ip 1 hex
          exact (framed_report_iff hfail').mpr hin'

theorem removeBinding_framed (client list delete : Bool) (name : Name) (z : Zone) :
    Framed (fun n => equalFold fold n name) z (removeBinding fold client list delete name z) := by
  unfold removeBinding
  split
  · exact .refl _ z _
  split
  · exact .refl _ z _
  next r hf =>
    have hr := List.mem_of_find?_eq_some hf
    have ht : equalFold fold r.name name = true ∧ r.type = .a := by simpa using List.find?_some hf
    exact (framed_report_iff (delete_failed z _ _)).mpr ((inFrame_delete_iff hr _).mpr fun _ => ⟨ht.2, ht.1⟩)

theorem patched_content (r : DNSRecord) (newIP : List Char) :
    r.patched { r with content := newIP } = { r with content := if newIP = [] then r.content else newIP } := by
  unfold DNSRecord.patched
  simp only [ite_self, Option.or_self]

theorem updateDNSRecordIP_framed_iff (list update : Bool) (name : Name) (newIP : List Char) (z : Zone) :
    Framed (fun n => normalize lower n = normalize lower name) z (updateDNSRecordIP lower list update name newIP z) ↔
      UpdateSafe lower list update name newIP z := by
  unfold updateDNSRecordIP UpdateSafe
  cases list with
  | false => exact iff_of_true (.refl _ z _) fun h => nomatch h
  | true =>
    rw [if_neg (by decide)]
    cases hf : z.records.find? fun r => normalize lower r.name = normalize lower name with
    | none => exact iff_of_true (.refl _ z _) fun _ _ _ r h => nomatch h
    | some r =>
      have hr := List.mem_of_find?_eq_some hf
      have hname : normalize lower r.name = normalize lower name := by simpa using List.find?_some hf
      dsimp only
      rw [framed_report_iff (update_failed z _ _ _), inFrame_update_iff hr, patched_content]
      constructor
      · intro h _ hup hip r' hr' hne
        obtain rfl := Option.some.inj hr'
        refine (h hup fun heq => hne ?_).1
        rw [if_neg hip] at heq
        rw [← heq]
      · intro h hup hne
        refine ⟨h rfl hup (fun hip => hne ?_) r rfl (fun heq => hne ?_), by simpa using hname⟩
        · rw [if_pos hip]
        · rw [← heq, ite_self]

theorem syncImplicit_framed_iff (existingRecords : List DNSRecord) (update : Bool) (create : Option RecordID)
    (dnsName : Name) (ip : List Char) (z : Zone) {names : Name → Bool} :
    Framed names z (syncImplicit lower existingRecords update create dnsName ip z) ↔
      (update = true → ∀ r,
        existingRecords.find? (fun r => normalize lower r.name = normalize lower dnsName) = some r →
        ∀ r' ∈ z.records, r'.id = r.id → r'.patched (aRecord dnsName ip 120) ≠ r' → r'.IsTarget names) := by
  unfold syncImplicit
  cases hf : existingRecords.find? fun r => normalize lower r.name = normalize lower dnsName with
  | none => exact iff_of_true (.create _ z _ _) fun _ r h => nomatch h
  | some r =>
    dsimp only
    rw [framed_report_iff (update_failed z _ _ _)]
    by_cases hid : ∃ r' ∈ z.records, r'.id = r.id
    · obtain ⟨r', hr', heq⟩ := hid
      rw [← heq, inFrame_update_iff hr']
      constructor
      · intro h hup r₁ hr₁ r₂ hr₂ heq₂ hne
        obtain rfl := Option.some.inj hr₁
        obtain rfl := z.eq_of_id hr₂ hr' (heq₂.trans heq.symm)
        exact h hup hne
      · exact fun h hup hne => h hup r rfl r' hr' heq hne
    · refine iff_of_true ?_ fun _ r₁ hr₁ r₂ hr₂ heq₂ _ => ?_
      · unfold Zone.update
        rw [if_neg fun h => hid h.2]
        exact .refl _ z
      · obtain rfl := Option.some.inj hr₁
        exact absurd ⟨r₂, hr₂, heq₂⟩ hid

theorem removal_framed_iff (dnsName : Name) (delete : Bool) (z : Zone) :
    Framed (fun n => equalFold fold n dnsName) z
        (match z.records.find? fun r => equalFold fold r.name dnsName with
          | none => (z, .skip)
          | some r => report (z.delete delete r.id)) ↔
      (delete = true → ∀ r, z.records.find? (fun r => equalFold fold r.name dnsName) = some r → r.type = .a) := by
  cases hf : z.records.find? fun r => equalFold fold r.name dnsName with
  | none => exact iff_of_true (.refl _ z _) fun _ r h => nomatch h
  | some r =>
    have hr := List.mem_of_find?_eq_some hf
    have hname : equalFold fold r.name dnsName = true := by simpa using List.find?_some hf
    dsimp only
    rw [framed_report_iff (delete_failed z _ _), inFrame_delete_iff hr]
    constructor
    · intro h hdel r' hr'
      obtain rfl := Option.some.inj hr'
      exact (h hdel).1
    · exact fun h hdel => ⟨h hdel r rfl, hname⟩

theorem ociSync_framed_iff (action : Action) (a : WriteAnswers) (dnsName : Name) (ip : List Char) (z : Zone) :
    Framed ((Path.ociSync action a dnsName ip).names lower fold) z (ociSync lower fold action a dnsName ip z) ↔
      (Path.ociSync action a dnsName ip).Safe lower fold z := by
  cases action with
  | add =>
    refine iff_of_true ?_ trivial
    unfold ociSync
    dsimp only
    by_cases hdup : ((if a.list then z.records else []).any fun r => equalFold fold r.name dnsName) = true
    · rw [if_pos hdup]
      exact .refl _ z _
    · rw [if_neg hdup]
      exact .create _ z _ _
  | remove =>
    have hsafe : (Path.ociSync .remove a dnsName ip).Safe lower fold z ↔ (a.list = true → a.delete = true →
      ∀ r, z.records.find? (fun r => equalFold fold r.name dnsName) = some r → r.type = .a) := Iff.rfl
    rw [hsafe]
    unfold ociSync
    cases hl : a.list with
    | false => exact iff_of_true (.refl _ z _) fun h => nomatch h
    | true =>
      dsimp only
      rw [if_neg (by decide)]
      exact (removal_framed_iff dnsName a.delete z).trans ⟨fun h _ => h, fun h => h rfl⟩
  | update => exact updateDNSRecordIP_framed_iff a.list a.update dnsName ip z

/-- A deletion and a creation. -/
theorem replace_framed_iff (dnsName : Name) (a : WriteAnswers) {record : DNSRecord} (htype : record.type = .a)
    (z : Zone) {r : DNSRecord} (hr : r ∈ z.records) (hname : equalFold fold r.name dnsName = true) :
    Framed (fun n => equalFold fold n dnsName) z
        (match z.delete a.delete r.id with
          | (z, false) => (z, .error)
          | (z, true) => report (z.create a.create record)) ↔
      (a.delete = true → r.type = .a ∧ ∃ id, a.create = some id ∧ ∀ r' ∈ z.records, r' ≠ r → r'.id ≠ id) := by
  cases hdel : a.delete with
  | false =>
    rw [z.delete_refused]
    exact iff_of_true (.refl _ z _) fun h => nomatch h
  | true =>
    have hok := z.delete_accepted hr
    have hmem : ∀ r', r' ∈ (z.delete true r.id).1.records ↔ r' ∈ z.records ∧ r' ≠ r := fun r' => z.mem_delete_iff hr
    generalize z.delete true r.id = res at hok hmem
    obtain ⟨z₁, ok⟩ := res
    obtain rfl : ok = true := hok
    dsimp only at hmem ⊢
    have hfresh : z₁.Fresh a.create ↔ ∃ id, a.create = some id ∧ ∀ r' ∈ z.records, r' ≠ r → r'.id ≠ id := by
      unfold Zone.Fresh
      simp only [hmem, and_imp]
    rw [← hfresh, ← z₁.create_fresh_iff a.create record]
    constructor
    · rintro ⟨hin, hkeep⟩ -
      have htarget : r.type = .a := by
        by_contra hne
        refine hne (hin r hr fun hback => ?_).1
        obtain hback | ⟨id, -, heq⟩ := z₁.mem_of_mem_create hback
        · exact ((hmem r).mp hback).2 rfl
        · rw [heq] at hne
          exact hne htype
      refine ⟨htarget, ?_⟩
      by_contra hno
      rw [Bool.not_eq_true] at hno
      have herr : (report (z₁.create a.create record)).2 = .error := by
        unfold report
        rw [hno]
        rfl
      obtain ⟨r', hr', hid, -⟩ := hkeep herr r hr ⟨htarget, hname⟩
      have hr₁ : r' ∈ z₁.records := by
        rw [← create_failed z₁ a.create record hno]
        exact hr'
      obtain ⟨hz, hne⟩ := (hmem r').mp hr₁
      exact hne (z.eq_of_id hz hr hid)
    · intro h
      obtain ⟨htarget, hcreated⟩ := h rfl
      refine ⟨fun r' hr' hgone => ?_, fun herr => ?_⟩
      · have heq : r' = r := by
          by_contra hne
          exact hgone (z₁.mem_create ((hmem r').mpr ⟨hr', hne⟩) a.create record)
        rw [heq]
        exact ⟨htarget, hname⟩
      · unfold report at herr
        rw [hcreated] at herr
        cases herr

theorem updateCfDNSAfterChangeIP_framed_iff (config : Option (List Char × Name)) (a : WriteAnswers)
    (pre domain : Name) (newIP : List Char) (proxied : Option Bool) (ttl : Int) (remark : List Char) (z : Zone) :
    Framed ((Path.afterChangeIP config a pre domain newIP proxied ttl remark).names lower fold) z
        (updateCfDNSAfterChangeIP fold config a pre domain newIP proxied ttl remark z) ↔
      (Path.afterChangeIP config a pre domain newIP proxied ttl remark).Safe lower fold z := by
  unfold updateCfDNSAfterChangeIP
  cases config with
  | none => exact iff_of_true (.refl _ z _) fun _ _ h => nomatch h
  | some c =>
    obtain ⟨zoneID, cfgName⟩ := c
    dsimp only
    by_cases hmissing : pre = [] ∨ zoneID = []
    · rw [if_pos hmissing]
      refine iff_of_true (.refl _ z _) fun zoneID' cfgName' heq hpre hzone => ?_
      obtain ⟨rfl, rfl⟩ := Prod.mk.inj (Option.some.inj heq)
      exact absurd hmissing (not_or.mpr ⟨hpre, hzone⟩)
    rw [if_neg hmissing]
    obtain ⟨hpre, hzone⟩ := not_or.mp hmissing
    have hnames : (Path.afterChangeIP (some (zoneID, cfgName)) a pre domain newIP proxied ttl remark).names lower fold =
        fun n => equalFold fold n (pre ++ '.' :: (if domain = [] then cfgName else domain)) := rfl
    have hsafe : (Path.afterChangeIP (some (zoneID, cfgName)) a pre domain newIP proxied ttl remark).Safe lower fold z ↔
        (a.list = true → a.delete = true → ∀ r, z.records.find? (fun r =>
          equalFold fold r.name (pre ++ '.' :: (if domain = [] then cfgName else domain))) = some r →
            r.type = .a ∧ ∃ id, a.create = some id ∧ ∀ r' ∈ z.records, r' ≠ r → r'.id ≠ id) := by
      refine ⟨fun h => h zoneID cfgName rfl hpre hzone, fun h zoneID' cfgName' heq _ _ => ?_⟩
      obtain ⟨rfl, rfl⟩ := Prod.mk.inj (Option.some.inj heq)
      exact h
    rw [hnames, hsafe]
    generalize pre ++ '.' :: (if domain = [] then cfgName else domain) = dnsName
    cases hl : a.list with
    | false => exact iff_of_true (.refl _ z _) fun h => nomatch h
    | true =>
      rw [if_neg (by decide)]
      cases hf : z.records.find? fun r => equalFold fold r.name dnsName with
      | none => exact iff_of_true (.create _ z _ _) fun _ _ r h => nomatch h
      | some r =>
        have hr := List.mem_of_find?_eq_some hf
        have hname : equalFold fold r.name dnsName = true := by simpa using List.find?_some hf
        refine (replace_framed_iff dnsName a rfl z hr hname).trans ⟨fun h _ hdel r' hr' => ?_, fun h hdel => ?_⟩
        · obtain rfl := Option.some.inj hr'
          exact h hdel
        · exact h rfl hdel r rfl

/-- A path touches only `A` records of its name, and after an error they are still there, if and only if the record
that it finds first is one, or is left as it is, and a deletion is followed by a creation that succeeds. -/
theorem path_framed_iff (lower fold : Char → Char) (p : Path) (z : Zone) :
    Framed (p.names lower fold) z (p.run lower fold z) ↔ p.Safe lower fold z := by
  cases p with
  | bindingSync a name proxied ttl ip => exact iff_of_true (syncBindingToDNS_framed a name proxied ttl ip z) trivial
  | bindingRemove client list delete name => exact iff_of_true (removeBinding_framed client list delete name z) trivial
  | implicitSync existingRecords update create dnsName ip =>
    exact syncImplicit_framed_iff existingRecords update create dnsName ip z
  | ociSync action a dnsName ip => exact ociSync_framed_iff action a dnsName ip z
  | recordIP list update name newIP => exact updateDNSRecordIP_framed_iff list update name newIP z
  | afterChangeIP config a pre domain newIP proxied ttl remark =>
    exact updateCfDNSAfterChangeIP_framed_iff config a pre domain newIP proxied ttl remark z

/-- One path after another, on one zone. -/
def write (lower fold : Char → Char) : StepRun.Step Zone Path := fun z p => some (p.run lower fold z).1

/-- Records that are no `A` records outlive every run of safe paths. -/
theorem others_survive {z z' : Zone} {ps : List Path}
    (h : StepRun.Run (write lower fold) (fun z p => p.Safe lower fold z) z ps z') {r : DNSRecord}
    (hr : r ∈ z.records) (htype : r.type ≠ .a) : r ∈ z'.records := by
  refine h.invariant (I := fun z => r ∈ z.records) (fun z p z₁ hsafe hr hstep => ?_) hr
  obtain rfl := Option.some.inj hstep
  by_contra hgone
  have hframed := (path_framed_iff lower fold p z).mpr hsafe
  exact htype (hframed.1 r hr hgone).1

/-! ## A zone with a text record -/

def exampleZone : Zone where
  records := [{ id := "r".toList, type := .txt, name := "web.example.org".toList, content := "v=spf1".toList }]
  nodup := List.nodup_singleton _

def removeWeb : Path := .ociSync .remove ⟨true, true, true, none⟩ "web.example.org".toList "192.0.2.1".toList

/-- The text record of the name is deleted. -/
theorem remove_deletes_text : (removeWeb.run id id exampleZone).1.records = [] ∧
    ¬ Framed (removeWeb.names id id) exampleZone (removeWeb.run id id exampleZone) := by
  refine ⟨by decide, fun h => ?_⟩
  have htarget := h.1 _ (List.mem_singleton.mpr rfl) (by decide)
  exact absurd htarget.1 (by decide)

end OciHelper.Dns
