import OciHelper.Recurring.Handlers

/-!
# Forms with masked secrets

* `readConfig`, `readCfCfgs` : the read endpoints that mask (for schedules it is `listRecurringTasks`);
* `Write`, `serve` : the write endpoints, with their reads;
* `Secret` : what is masked; `stored`, `Shows`, `field` : its value, what a form shows of it, and what a request
  carries for it;
* `Undamaged` : the condition under which a request that carries the mask leaves the value.
-/

namespace OciHelper.Api.Forms
open Db Recurring

variable (gcm : Gcm) (key : Option Key)

/-! ## The read endpoints -/

/-- The keys of the settings page. -/
def configKeys : List String :=
  ["mfa_enabled", "telegram_token", "dingtalk_webhook", "google_client_id", "google_client_secret",
    "google_allowed_emails", "cloudflare_token", "siliconflow_key", "siliconflow_model", "ai_search_enabled",
    "telegram_chat_id", "telegram_webhook_secret", "daily_broadcast_enabled", "daily_broadcast_cron",
    "version_update_notifications_enabled", "update_repo", "panel_url", "traffic_quota_gb"]

/-- `GET /api/config`, without the user name. -/
def readConfig (db : Tables) : List (String × List UInt8) :=
  configKeys.map fun k =>
    let v := getConfig db.config k
    (k, if k ∈ configSecretKeys then maskSecret v else bytes v)

/-- A Cloudflare configuration in a reply. The credentials stand apart, as the bytes of the texts that are encoded. -/
structure CfShown where
  id : Int
  row : CfCfg
  token : List UInt8
  apiKey : List UInt8

def maskCfCfg (id : Int) (cfg : CfCfg) : CfShown :=
  { id, row := { cfg with token := "", apiKey := "" }, token := maskSecret cfg.token, apiKey := maskSecret cfg.apiKey }

/-- `GET /api/cloudflare/cfgs` -/
def readCfCfgs (db : Tables) : List CfShown := (listCfCfgs db).map fun r => maskCfCfg r.1 r.2

/-! ## The write endpoints -/

/-- The body of `PUT /api/cloudflare/cfgs/{id}`; an omitted field is `none`. -/
structure CfBody where
  name : Option String := none
  token : Option String := none
  email : Option String := none
  apiKey : Option String := none
  zoneID : Option String := none
  enabled : Option Bool := none

inductive Write
  | config (admin : Bool) (key value : String)
  | cfCfg (id : Int) (req : CfBody)
  | schedule (id : Int) (req : CreateTask)

inductive Answer
  | error (message : String)
  | done
  deriving DecidableEq

/-- `POST /api/config` -/
def writeConfig (x : Chance) (admin : Bool) (key value : String) (db : Tables) : Tables × Answer :=
  if ¬ admin then (db, .error "admin access required")
  else if key = "" then (db, .error "key required")
  else if key ∈ configSecretKeys ∧ hasMarker value then (db, .done)
  else if x.writes then ({ db with config := setConfig db.config key value }, .done)
  else (db, .error "set config")

/-- A redacted value does not overwrite the real one. -/
def keepMasked (value : Option String) (cur : String) : String :=
  match value with
  | some v => if hasMarker v then cur else v
  | none => cur

def CfBody.merge (req : CfBody) (cur : CfCfg) : CfCfg where
  name := req.name.getD cur.name
  token := keepMasked req.token cur.token
  email := req.email.getD cur.email
  apiKey := keepMasked req.apiKey cur.apiKey
  zoneID := req.zoneID.getD cur.zoneID
  enabled := req.enabled.getD cur.enabled

/-- `PUT /api/cloudflare/cfgs/{id}` -/
def writeCfCfg (x : Chance) (id : Int) (req : CfBody) (db : Tables) : Tables × Answer :=
  if id ≤ 0 then (db, .error "invalid config id")
  else
    match if x.reads then getCfCfg db id else none with
    | none => (db, .error "cf config not found")
    | some cur =>
      let merged := req.merge cur
      if merged.name = "" then (db, .error "name required")
      else if x.writes then ({ db with cfConfigs := db.cfConfigs.update id fun _ => merged }, .done)
      else (db, .error "update cf config")

/-- `PUT /api/create-tasks/recurring/{id}` -/
def writeSchedule (x : Chance) (id : Int) (req : CreateTask) (db : Tables) : Tables × Answer :=
  match recurringTaskByID id (updateRecurringTask gcm key x id (some req)) db with
  | (db', .error message) => (db', .error message)
  | (db', _) => (db', .done)

def serve (x : Chance) (db : Tables) : Write → Tables × Answer
  | .config admin key value => writeConfig x admin key value db
  | .cfCfg id req => writeCfCfg x id req db
  | .schedule id req => writeSchedule gcm key x id req db

/-! ## Secrets -/

inductive Secret
  | config (key : String)
  | token (id : Int)
  | apiKey (id : Int)
  | password (id : Int)

def Secret.stored (db : Tables) : Secret → Option String
  | .config key => some (getConfig db.config key)
  | .token id => (db.cfConfigs.get id).map CfCfg.token
  | .apiKey id => (db.cfConfigs.get id).map CfCfg.apiKey
  | .password id => (db.createTasks.get id).map fun t => decryptSecret gcm key t.rootPassword

/-- A read endpoint shows the bytes for the secret. -/
def Secret.Shows (db : Tables) : Secret → List UInt8 → Prop
  | .config key, b => key ∈ configSecretKeys ∧ (key, b) ∈ readConfig db
  | .token id, b => ∃ c ∈ readCfCfgs db, c.id = id ∧ c.token = b
  | .apiKey id, b => ∃ c ∈ readCfCfgs db, c.id = id ∧ c.apiKey = b
  | .password id, b => ∃ tenantID data, listRecurringTasks gcm key {} tenantID db = .tasks data ∧
      ∃ t ∈ data, t.id = id ∧ t.rootPassword = b

/-- What a request carries for a secret. -/
def Write.field : Write → Secret → Option String
  | .config _ key value, .config key' => if key = key' then some value else none
  | .cfCfg id req, .token id' => if id = id' then req.token else none
  | .cfCfg id req, .apiKey id' => if id = id' then req.apiKey else none
  | .schedule id req, .password id' => if id = id' then some req.rootPassword else none
  | _, _ => none

/-- An edit of a schedule that is written without a look at the current password finds one that is its own mask. -/
def Undamaged (json : JsonText) (x : Chance) (db : Tables) : Write → Prop
  | .schedule id req =>
    0 < id ∧ ¬ x.reads ∧ x.writes ∧ (db.tenants.get req.tenantID).isSome →
      ∀ t, db.createTasks.get id = some t →
        json.read (maskSecret (decryptSecret gcm key t.rootPassword)) = decryptSecret gcm key t.rootPassword
  | _ => True

variable {gcm key}

/-- A form shows masks. -/
theorem eq_maskSecret_of_shows {db : Tables} {s : Secret} {b : List UInt8} (h : s.Shows gcm key db b) :
    ∃ v, s.stored gcm key db = some v ∧ b = maskSecret v := by
  cases s with
  | config k =>
    obtain ⟨hsecret, hmem⟩ := h
    obtain ⟨k', -, he⟩ := List.mem_map.mp hmem
    cases he
    exact ⟨_, rfl, if_pos hsecret⟩
  | token id =>
    obtain ⟨c, hc, rfl, rfl⟩ := h
    obtain ⟨r, hr, rfl⟩ := List.mem_map.mp hc
    have hget := db.cfConfigs.mem_newest.mp hr
    exact ⟨r.2.token, congrArg (Option.map CfCfg.token) hget, rfl⟩
  | apiKey id =>
    obtain ⟨c, hc, rfl, rfl⟩ := h
    obtain ⟨r, hr, rfl⟩ := List.mem_map.mp hc
    have hget := db.cfConfigs.mem_newest.mp hr
    exact ⟨r.2.apiKey, congrArg (Option.map CfCfg.apiKey) hget, rfl⟩
  | password id =>
    obtain ⟨tenantID, data, hdata, t, ht, rfl, rfl⟩ := h
    cases hdata
    obtain ⟨r, hr, rfl⟩ := List.mem_map.mp ht
    obtain ⟨r', hr', rfl⟩ := List.mem_map.mp (List.mem_filter.mp hr).1
    have hget := db.createTasks.mem_newest.mp hr'
    exact ⟨_, congrArg (Option.map fun t : CreateTask => decryptSecret gcm key t.rootPassword) hget, rfl⟩

/-! ## Round trips -/

theorem getConfig_setConfig (config : Config) (k v : String) : getConfig (setConfig config k v) k = v := by
  unfold getConfig setConfig
  rw [AList.lookup_insert]
  rfl

theorem keepMasked_mask (json : JsonText) (v : String) : keepMasked (some (json.read (maskSecret v))) v = v := by
  unfold keepMasked
  dsimp only
  by_cases hv : v = ""
  · rw [(maskSecret_eq_nil_iff v).mpr hv, json.read_nil, hv, ite_self]
  · rw [if_pos (hasMarker_read_maskSecret json hv)]

/-- A mask that is sent back is a sign to keep the current password. -/
theorem keeps_mask (json : JsonText) (v : String) :
    json.read (maskSecret v) = "" ∨ hasMarker (json.read (maskSecret v)) := by
  by_cases hv : v = ""
  · rw [(maskSecret_eq_nil_iff v).mpr hv, json.read_nil]
    exact Or.inl rfl
  · exact Or.inr (hasMarker_read_maskSecret json hv)

theorem writeSchedule_fst (x : Chance) (id : Int) (req : CreateTask) (db : Tables) :
    (writeSchedule gcm key x id req db).1 =
      if id ≤ 0 then db
      else (updateCreateTask gcm key x id { req with rootPassword := keptPassword gcm key x id req db } db).getD db := by
  have hfst : (writeSchedule gcm key x id req db).1 =
      (recurringTaskByID id (updateRecurringTask gcm key x id (some req)) db).1 := by
    unfold writeSchedule
    split <;> simp [*]
  rw [hfst, recurringTaskByID_fst, updateRecurringTask_fst]

theorem stored_writeSchedule {x : Chance} {id : Int} {req : CreateTask} {db : Tables} {t : CreateTask}
    (hget : db.createTasks.get id = some t) :
    Secret.stored gcm key (writeSchedule gcm key x id req db).1 (.password id) =
      some (if 0 < id ∧ x.writes ∧ (db.tenants.get req.tenantID).isSome then keptPassword gcm key x id req db
        else decryptSecret gcm key t.rootPassword) := by
  have hold : Secret.stored gcm key db (.password id) = some (decryptSecret gcm key t.rootPassword) :=
    congrArg (Option.map fun t : CreateTask => decryptSecret gcm key t.rootPassword) hget
  rw [writeSchedule_fst]
  by_cases hid : 0 < id
  · rw [if_neg (by omega)]
    unfold updateCreateTask
    by_cases hw : x.writes
    · by_cases ht : (db.tenants.get req.tenantID).isSome
      · rw [if_pos (And.intro hid (And.intro hw ht))]
        simp [Secret.stored, hw, ht, hget, decryptSecret_encryptSecret]
      · rw [if_neg fun hc : _ ∧ _ => ht hc.2.2, ← hold]
        simp [hw, ht, hget]
    · rw [if_neg fun hc : _ ∧ _ => hw hc.2.1, ← hold]
      simp [hw]
  · rw [if_pos (by omega), if_neg fun hc : _ ∧ _ => hid hc.1, hold]

/-- A success stores the merged configuration, and nothing else changes one. -/
theorem writeCfCfg_spec (x : Chance) {id : Int} (req : CfBody) {db : Tables} {cur : CfCfg}
    (hget : db.cfConfigs.get id = some cur) :
    (writeCfCfg x id req db).2 ≠ .done ∧ (writeCfCfg x id req db).1.cfConfigs.get id = some cur ∨
      (writeCfCfg x id req db).1.cfConfigs.get id = some (req.merge cur) := by
  unfold writeCfCfg getCfCfg
  by_cases hid : id ≤ 0
  · rw [if_pos hid]
    exact Or.inl ⟨by simp, hget⟩
  · rw [if_neg hid]
    cases hr : x.reads with
    | false => exact Or.inl ⟨by simp, hget⟩
    | true =>
      rw [if_pos rfl, hget]
      dsimp only
      split
      · exact Or.inl ⟨by simp, hget⟩
      · split
        · right
          dsimp only
          rw [KeyTable.get_update_self, hget]
          rfl
        · exact Or.inl ⟨by simp, hget⟩

/-- A field that the merge keeps stays. -/
theorem writeCfCfg_keeps (f : CfCfg → String) (x : Chance) {id : Int} {req : CfBody} {db : Tables} {cur : CfCfg}
    (hget : db.cfConfigs.get id = some cur) (hf : f (req.merge cur) = f cur) :
    ((writeCfCfg x id req db).1.cfConfigs.get id).map f = some (f cur) := by
  obtain ⟨-, h⟩ | h := writeCfCfg_spec x req hget
  · rw [h, Option.map_some]
  · rw [h, Option.map_some, hf]

/-- A field that the merge sets is set by a success. -/
theorem writeCfCfg_sets (f : CfCfg → String) (x : Chance) {id : Int} {req : CfBody} {db : Tables} {v : String}
    (hexists : ((db.cfConfigs.get id).map f).isSome) (hdone : (writeCfCfg x id req db).2 = .done)
    (hf : ∀ cur, f (req.merge cur) = v) : ((writeCfCfg x id req db).1.cfConfigs.get id).map f = some v := by
  rw [Option.isSome_map, Option.isSome_iff_exists] at hexists
  obtain ⟨cur, hget⟩ := hexists
  obtain ⟨hne, -⟩ | h := writeCfCfg_spec x req hget
  · exact absurd hdone hne
  · rw [h, Option.map_some, hf]

/-- An edit that succeeds is written. -/
theorem written_of_done {x : Chance} {id : Int} {req : CreateTask} {db : Tables}
    (hexists : (db.createTasks.get id).isSome) (h : (writeSchedule gcm key x id req db).2 = .done) :
    0 < id ∧ x.writes ∧ (db.tenants.get req.tenantID).isSome := by
  unfold writeSchedule recurringTaskByID updateRecurringTask updateCreateTask at h
  by_cases hid : id ≤ 0
  · simp [hid] at h
  · by_cases hw : x.writes
    · by_cases ht : (db.tenants.get req.tenantID).isSome
      · exact ⟨by omega, hw, ht⟩
      · simp [hid, hw, ht, hexists] at h
    · simp [hid, hw] at h

/-- What carries a value for a secret. -/
theorem field_cases {w : Write} {s : Secret} {b : String} (h : w.field s = some b) :
    (∃ admin k, w = .config admin k b ∧ s = .config k) ∨
      (∃ id req, w = .cfCfg id req ∧ (s = .token id ∧ req.token = some b ∨ s = .apiKey id ∧ req.apiKey = some b)) ∨
      ∃ id req, w = .schedule id req ∧ s = .password id ∧ req.rootPassword = b := by
  unfold Write.field at h
  split at h
  · next admin k value k' =>
    obtain ⟨rfl, he⟩ := Option.ite_none_right_eq_some.mp h
    cases he
    exact Or.inl ⟨admin, k, rfl, rfl⟩
  · next id req id' =>
    obtain ⟨rfl, he⟩ := Option.ite_none_right_eq_some.mp h
    exact Or.inr (Or.inl ⟨id, req, rfl, Or.inl ⟨rfl, he⟩⟩)
  · next id req id' =>
    obtain ⟨rfl, he⟩ := Option.ite_none_right_eq_some.mp h
    exact Or.inr (Or.inl ⟨id, req, rfl, Or.inr ⟨rfl, he⟩⟩)
  · next id req id' =>
    obtain ⟨rfl, he⟩ := Option.ite_none_right_eq_some.mp h
    cases he
    exact Or.inr (Or.inr ⟨id, req, rfl, rfl, rfl⟩)
  · cases h

/-- A request that carries the mask of a secret. -/
theorem roundTrip_iff (json : JsonText) (x : Chance) {db : Tables} {w : Write} {s : Secret} {b : List UInt8}
    (hs : s.Shows gcm key db b) (hw : w.field s = some (json.read b)) :
    s.stored gcm key (serve gcm key x db w).1 = s.stored gcm key db ↔ Undamaged gcm key json x db w := by
  obtain ⟨v, hv, rfl⟩ := eq_maskSecret_of_shows hs
  obtain ⟨admin, k, rfl, rfl⟩ | ⟨id, req, rfl, hcf⟩ | ⟨id, req, rfl, rfl, hreq⟩ := field_cases hw
  · refine iff_of_true ?_ trivial
    obtain rfl : getConfig db.config k = v := Option.some.inj hv
    unfold serve writeConfig
    dsimp only
    split
    · rfl
    · split
      · rfl
      · split
        · rfl
        · next hmark =>
          split
          · -- only an empty secret has a mask without the marker
            have hempty : getConfig db.config k = "" := by
              by_contra hne
              exact hmark ⟨hs.1, hasMarker_read_maskSecret json hne⟩
            unfold Secret.stored
            dsimp only
            rw [getConfig_setConfig, hempty, (maskSecret_eq_nil_iff "").mpr rfl, json.read_nil]
          · rfl
  · refine iff_of_true ?_ trivial
    rw [hv]
    obtain ⟨rfl, hreq⟩ | ⟨rfl, hreq⟩ := hcf
    · obtain ⟨cur, hget, rfl⟩ := Option.map_eq_some_iff.mp hv
      exact writeCfCfg_keeps CfCfg.token x hget (by simp only [CfBody.merge, hreq, keepMasked_mask])
    · obtain ⟨cur, hget, rfl⟩ := Option.map_eq_some_iff.mp hv
      exact writeCfCfg_keeps CfCfg.apiKey x hget (by simp only [CfBody.merge, hreq, keepMasked_mask])
  · rw [hv]
    obtain ⟨t, hget, rfl⟩ := Option.map_eq_some_iff.mp hv
    have hkeep : req.rootPassword = "" ∨ hasMarker req.rootPassword := hreq ▸ keeps_mask json _
    have hkept : keptPassword gcm key x id req db =
        if x.reads then decryptSecret gcm key t.rootPassword else req.rootPassword := by
      unfold keptPassword getCreateTask
      rw [if_pos hkeep]
      cases x.reads <;> simp [hget, scanCreateTask]
    unfold serve Undamaged
    dsimp only
    rw [stored_writeSchedule hget, hkept, Option.some.injEq]
    simp only [hget, Option.some.injEq, forall_eq']
    by_cases hc : 0 < id ∧ x.writes ∧ (db.tenants.get req.tenantID).isSome
    · rw [if_pos hc]
      cases hr : x.reads with
      | true => simp
      | false => simp [hc, hreq]
    · rw [if_neg hc]
      exact iff_of_true rfl fun h => absurd ⟨h.1, h.2.2⟩ hc

/-- A request that succeeds stores a value without the marker; an empty password is none. -/
theorem stored_of_done {x : Chance} {db : Tables} {w : Write} {s : Secret} {v : String} (hw : w.field s = some v)
    (hmark : hasMarker v = false) (hpass : ∀ id, s = .password id → v ≠ "") (hexists : (s.stored gcm key db).isSome)
    (hdone : (serve gcm key x db w).2 = .done) : s.stored gcm key (serve gcm key x db w).1 = some v := by
  obtain ⟨admin, k, rfl, rfl⟩ | ⟨id, req, rfl, hcf⟩ | ⟨id, req, rfl, rfl, rfl⟩ := field_cases hw
  · unfold serve writeConfig at hdone ⊢
    dsimp only at hdone ⊢
    split at hdone
    · cases hdone
    · next hadmin =>
      rw [if_neg hadmin]
      split at hdone
      · cases hdone
      · next hk =>
        have hnot : ¬ (k ∈ configSecretKeys ∧ hasMarker v = true) := fun hc => by
          rw [hmark] at hc
          cases hc.2
        rw [if_neg hnot] at hdone
        rw [if_neg hk, if_neg hnot]
        split at hdone
        · next hwrites =>
          rw [if_pos hwrites]
          exact congrArg some (getConfig_setConfig ..)
        · cases hdone
  · obtain ⟨rfl, hreq⟩ | ⟨rfl, hreq⟩ := hcf
    · exact writeCfCfg_sets CfCfg.token x hexists hdone fun cur => by simp [CfBody.merge, hreq, keepMasked, hmark]
    · exact writeCfCfg_sets CfCfg.apiKey x hexists hdone fun cur => by simp [CfBody.merge, hreq, keepMasked, hmark]
  · obtain ⟨t, hget⟩ : ∃ t, db.createTasks.get id = some t := by
      rw [← Option.isSome_iff_exists, ← Option.isSome_map (f := fun t : CreateTask => decryptSecret gcm key t.rootPassword)]
      exact hexists
    have hwritten := written_of_done (hget ▸ rfl) hdone
    unfold serve
    dsimp only
    rw [stored_writeSchedule hget, if_pos hwritten]
    unfold keptPassword
    rw [if_neg]
    rintro (he | hm)
    · exact hpass id rfl he
    · rw [hmark] at hm
      cases hm

/-- **Masked forms**: a request that carries the mask of a secret leaves it as it was if and only if it does no damage,
and a request that succeeds stores a new value without the marker as it is. -/
theorem masked_secrets_survive_iff (json : JsonText) (x : Chance) (db : Tables) (w : Write) (s : Secret) :
    (∀ b, s.Shows gcm key db b → w.field s = some (json.read b) →
        (s.stored gcm key (serve gcm key x db w).1 = s.stored gcm key db ↔ Undamaged gcm key json x db w)) ∧
      ∀ v, w.field s = some v → hasMarker v = false → (∀ id, s = .password id → v ≠ "") →
        (s.stored gcm key db).isSome → (serve gcm key x db w).2 = .done →
          s.stored gcm key (serve gcm key x db w).1 = some v :=
  ⟨fun _ hs hw => roundTrip_iff json x hs hw, fun _ hw hmark hpass hexists => stored_of_done hw hmark hpass hexists⟩

/-! ## A schedule that is sent back -/

def exampleTask : CreateTask := { tenantID := 1, intervalSeconds := 60, createNumbers := 1, rootPassword := "secret" }

/-- One tenant with a schedule, under no key. -/
def oneSchedule : Tables := { exampleDb with createTasks := KeyTable.empty.insert exampleTask }

/-- The schedule as it was listed. -/
def sentBack : Write := .schedule 1 { exampleTask with rootPassword := JsonText.ascii.read stars }

theorem shows_stars : Secret.Shows .keyed none oneSchedule (.password 1) stars :=
  ⟨0, _, rfl, _, List.mem_singleton.mpr rfl, rfl, rfl⟩

theorem roundTrip_read : Secret.stored .keyed none (serve .keyed none {} oneSchedule sentBack).1 (.password 1) =
    some "secret" :=
  ((masked_secrets_survive_iff JsonText.ascii {} oneSchedule sentBack (.password 1)).1 stars shows_stars rfl).mpr
    fun h => absurd rfl h.2.1

/-- The current password cannot be read, and the mask is stored in its place. -/
theorem roundTrip_damages : Secret.Shows .keyed none oneSchedule (.password 1) stars ∧
    sentBack.field (.password 1) = some (JsonText.ascii.read stars) ∧
    Secret.stored .keyed none oneSchedule (.password 1) = some "secret" ∧
    Secret.stored .keyed none (serve .keyed none { reads := false } oneSchedule sentBack).1 (.password 1) = some "***" :=
  ⟨shows_stars, rfl, rfl, rfl⟩

end OciHelper.Api.Forms
