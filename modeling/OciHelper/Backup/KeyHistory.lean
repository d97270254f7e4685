import OciHelper.Backup.Faults
import OciHelper.Lib.Repeatable
import OciHelper.Lib.StepRun

/-!
# The encryption key over restarts and restores

* `Access` : what the accesses of one `loadOrCreateSSHKey` do; `loadOrCreateSSHKey_sound` : without failures it is that
  of `Db`;
* `State`, `Event`, `step` : process starts, calls of `getSSHEncryptionKey`, restores;
* `Kept` : no valid persisted key was written over, and what was encrypted under a key that was returned can be
  decrypted under all returned later; `KeptOnRestart` : and under one that a restart returns;
* `Safe` : no read fails that matters, and no restore brings another key;
* `key_kept_of_safe` : what a safe run keeps, and that only safe runs keep it over a restart.
-/

namespace OciHelper.Backup.KeyHistory
open OciHelper.Db StepRun

/-! ## `crypto.go` -/

/-- Does the read of the `config` table succeed, what does `rand.Read` return, does the write succeed? -/
structure Access where
  read : Bool := true
  newKey : Option Key
  write : Bool := true

inductive LoadError
  | generate
  | persist
  deriving DecidableEq, Repr

/-- The key in a setting, where the empty text is none. -/
def validKey (text : String) : Option Key := if text = "" then none else keyOfText text

/-- The key, and the new one if its text was stored. A failed read is like an absent key. -/
def loadOrCreateSSHKey (env : String) (config : Config) (io : Access) : Except LoadError Key × Option Key :=
  match validKey env with
  | some key => (.ok key, none)
  | none =>
    match if io.read then validKey (getConfig config sshKeyConfig) else none with
    | some key => (.ok key, none)
    | none =>
      match io.newKey with
      | none => (.error .generate, none)
      | some newKey => if io.write then (.ok newKey, some newKey) else (.error .persist, none)

def persist (config : Config) : Option Key → Config
  | none => config
  | some key => setConfig config sshKeyConfig (textOfKey key)

theorem loadOrCreateSSHKey_sound (env : String) (config : Config) (newKey : Key) :
    (loadOrCreateSSHKey env config { newKey := some newKey }).map id (persist config) =
      (Db.loadOrCreateSSHKey env config newKey).map .ok id := by
  unfold loadOrCreateSSHKey Db.loadOrCreateSSHKey validKey
  by_cases henv : env = ""
  · by_cases hdb : getConfig config sshKeyConfig = ""
    · simp [henv, hdb, persist]
    · cases hk : keyOfText (getConfig config sshKeyConfig) <;> simp [henv, hdb, hk, persist]
  · cases keyOfText env with
    | some key => simp [henv, persist]
    | none =>
      by_cases hdb : getConfig config sshKeyConfig = ""
      · simp [henv, hdb, persist]
      · cases hk : keyOfText (getConfig config sshKeyConfig) <;> simp [henv, hdb, hk, persist]

/-! ## Runs -/

/-- `sshKey` is the key in memory. `issued` are the keys that calls returned since the environment was last changed,
`lost` the valid persisted keys that were written over. -/
structure State where
  host : Faults.Host
  env : String := ""
  sshKey : Option Key := none
  issued : List Key := []
  lost : List Key := []

inductive Event (codec : Codec)
  | start (env : String) (io : Access)
  | getKey (io : Access)
  | restore (disk : Faults.Disk) (rand : Nat → Nonce) (password : String) (data : codec.Text)

namespace State

def persisted (s : State) : Option Key := validKey (getConfig s.host.db.config sshKeyConfig)

def store (s : State) (written : Option Key) : State :=
  { s with
    host := { s.host with db := { s.host.db with config := persist s.host.db.config written } }
    lost := s.lost ++ if written.isSome then s.persisted.toList else [] }

def getSSHEncryptionKey (s : State) (io : Access) : State × Except LoadError Key :=
  match s.sshKey with
  | some key => ({ s with issued := s.issued ++ [key] }, .ok key)
  | none =>
    match loadOrCreateSSHKey s.env s.host.db.config io with
    | (.error e, written) => (s.store written, .error e)
    | (.ok key, written) => ({ s.store written with sshKey := some key, issued := s.issued ++ [key] }, .ok key)

/-- A new process has no key in memory, and keys that were returned under another environment do not count. -/
def restarted (s : State) (env : String) : State :=
  { s with
    host := { s.host with secretKey := none }
    env
    sshKey := none
    issued := if env = s.env then s.issued else [] }

/-- `New` installs the key in the store if it has one. -/
def start (s : State) (env : String) (io : Access) : State :=
  match (s.restarted env).getSSHEncryptionKey io with
  | (s, .error _) => s
  | (s, .ok key) => { s with host := { s.host with secretKey := some key } }

end State

variable (gcm : Gcm) (codec : Codec)

def step : Step State (Event codec) := fun s e =>
  match e with
  | .start env io => some (s.start env io)
  | .getKey io => some (s.getSSHEncryptionKey io).1
  | .restore disk rand password data =>
    some { s with host := (Faults.restoreData gcm codec disk rand password data s.host).1 }

/-- The machine before its first start. -/
def off (host : Faults.Host) : State where
  host := host

/-- What is encrypted under the first key can be decrypted under the second. -/
def Readable (k k' : Key) : Prop :=
  (∀ salt nonce plain, decryptSSHPrivateKey gcm k' (encryptSSHPrivateKey gcm k salt nonce plain) = .ok plain) ∧
    ∀ nonce plain, decryptSecret gcm (some k') (encryptSecret gcm (some k) nonce plain) = plain

/-- No valid key was lost, and every key that was returned can be replaced by those returned later. -/
def Kept (s : State) : Prop := s.lost = [] ∧ s.issued.Pairwise (Readable gcm)

/-- And so it stays if the process is started again and nothing fails. -/
def KeptOnRestart (s : State) : Prop := Kept gcm s ∧ ∀ key, Kept gcm (s.start s.env { newKey := some key })

/-! ## What may go wrong -/

/-- Can a new key be made and stored? -/
def Access.stores (io : Access) : Bool := io.newKey.isSome && io.write

/-- Without a valid key in the environment, a valid persisted key is read, or no new one can be stored. -/
def SafeLoad (s : State) (io : Access) : Prop :=
  validKey s.env = none → s.persisted ≠ none → io.read = true ∨ io.stores = false

/-- The key that the configuration of a backup carries, where the last value counts. -/
def carried (payload : BackupData) : Option Key := validKey ((payload.config.reverse.lookup sshKeyConfig).getD "")

/-- A key in memory is not loaded. A restore that commits, after a key was returned that the environment does not have,
brings the key that is persisted. -/
def Safe (s : State) : Event codec → Prop
  | .start env io => SafeLoad (s.restarted env) io
  | .getKey io => s.sshKey = none → SafeLoad s io
  | .restore disk rand password data =>
    validKey s.env = none → s.issued ≠ [] → ∀ payload db, Faults.payloadOf codec password data = .ok payload →
      Faults.restoreTx gcm disk s.host.secretKey rand payload s.host.db = .ok db → carried payload = s.persisted

/-! ## One load -/

variable {gcm codec} {s s' : State} {io : Access} {key : Key}

theorem readable_iff {k k' : Key} : Readable gcm k k' ↔ k' = k := by
  constructor
  · intro h
    have salt : Salt := ⟨List.replicate 16 0, rfl⟩
    exact (decryptSSHPrivateKey_encryptSSHPrivateKey_iff gcm k k' salt zeroNonce "").mp (h.1 salt zeroNonce "")
  · rintro rfl
    exact ⟨fun salt nonce plain => (decryptSSHPrivateKey_encryptSSHPrivateKey_iff gcm k' k' salt nonce plain).mpr rfl,
      fun nonce plain => decryptSecret_encryptSecret gcm (some k') nonce plain⟩

/-- Another key is returned. -/
theorem pairwise_issue {issued : List Key} (h : issued.Pairwise (Readable gcm)) :
    (issued ++ [key]).Pairwise (Readable gcm) ↔ ∀ k ∈ issued, k = key := by
  rw [List.pairwise_append]
  simp only [h, List.pairwise_singleton, true_and, List.forall_mem_singleton, readable_iff]
  exact forall₂_congr fun k _ => eq_comm

/-- The key that a load finds. -/
def State.found (s : State) : Option Key := (validKey s.env).or s.persisted

/-- Every key that was returned would be found again. -/
def Sourced (s : State) : Prop := ∀ k ∈ s.issued, s.found = some k

/-- The key in memory was returned. -/
def Remembered (s : State) : Prop := ∀ key, s.sshKey = some key → key ∈ s.issued

/-- The key is found, kept in memory and returned. -/
def State.issue (s : State) (key : Key) : State := { s with sshKey := some key, issued := s.issued ++ [key] }

theorem remembered_issue (s : State) (key : Key) : Remembered (s.issue key) := by
  rintro _ ⟨⟩
  exact List.mem_append_right _ List.mem_cons_self

theorem kept_issue (hk : Kept gcm s) : Kept gcm (s.issue key) ↔ ∀ k ∈ s.issued, k = key :=
  (and_iff_right hk.1).trans (pairwise_issue hk.2)

theorem eq_of_sourced (hs : Sourced s) (hfound : s.found = some key) : ∀ k ∈ s.issued, k = key :=
  fun k hk => Option.some.inj ((hs k hk).symm.trans hfound)

theorem sourced_issue (hs : Sourced s) (hfound : s.found = some key) : Sourced (s.issue key) :=
  List.forall_mem_append.mpr ⟨hs, List.forall_mem_singleton.mpr hfound⟩

theorem store_none : s.store none = s := by
  rw [State.store]
  simp [persist]

theorem validKey_textOfKey (key : Key) : validKey (textOfKey key) = some key :=
  (if_neg (textOfKey_ne_empty key)).trans (keyOfText_textOfKey key)

theorem persisted_store (s : State) (key : Key) : (s.store (some key)).persisted = some key := by
  have hget : getConfig (s.store (some key)).host.db.config sshKeyConfig = textOfKey key := by
    simp [State.store, persist, getConfig, setConfig]
  rw [State.persisted, hget, validKey_textOfKey]

/-- A key that is there and can be read is returned. -/
theorem call_of_found (hnone : s.sshKey = none) (hread : validKey s.env = none → io.read = true)
    (hfound : s.found = some key) : s.getSSHEncryptionKey io = (s.issue key, .ok key) := by
  have hload : loadOrCreateSSHKey s.env s.host.db.config io = (.ok key, none) := by
    unfold loadOrCreateSSHKey
    cases henv : validKey s.env with
    | some e =>
      rw [State.found, henv] at hfound
      cases hfound
      rfl
    | none =>
      rw [State.found, henv] at hfound
      have hdb : validKey (getConfig s.host.db.config sshKeyConfig) = some key := hfound
      rw [hread henv, if_pos rfl, hdb]
  rw [State.getSSHEncryptionKey, hnone]
  simp only [hload, store_none]
  rfl

theorem get_of_found (hnone : s.sshKey = none) (hread : validKey s.env = none → io.read = true)
    (hfound : s.found = some key) : (s.getSSHEncryptionKey io).1 = s.issue key :=
  congrArg Prod.fst (call_of_found hnone hread hfound)

/-- Else a new one is stored over what was there, or the call fails. -/
theorem get_of_not_found (io : Access) (hnone : s.sshKey = none) (henv : validKey s.env = none)
    (hfound : io.read = true → s.persisted = none) :
    (io.stores = true ∧ ∃ key, io.newKey = some key ∧
      (s.getSSHEncryptionKey io).1 = (s.store (some key)).issue key) ∨
    (io.stores = false ∧ (s.getSSHEncryptionKey io).1 = s) := by
  have hread : (if io.read then validKey (getConfig s.host.db.config sshKeyConfig) else none) = none := by
    split
    · next h => exact hfound h
    · rfl
  rw [State.getSSHEncryptionKey, hnone]
  unfold loadOrCreateSSHKey Access.stores
  rw [henv, hread]
  cases io.newKey with
  | none => exact .inr ⟨rfl, store_none⟩
  | some key =>
    cases io.write with
    | true => exact .inl ⟨rfl, key, rfl, rfl⟩
    | false => exact .inr ⟨rfl, store_none⟩

theorem lost_store (s : State) (key : Key) : (s.store (some key)).lost = s.lost ++ s.persisted.toList := rfl

theorem kept_stored (hk : Kept gcm s) :
    Kept gcm ((s.store (some key)).issue key) ↔ s.persisted = none ∧ ∀ k ∈ s.issued, k = key := by
  refine and_congr ?_ (pairwise_issue hk.2)
  change (s.store (some key)).lost = [] ↔ _
  rw [lost_store, hk.1, List.nil_append]
  cases s.persisted with
  | none => exact iff_of_true rfl rfl
  | some k => exact iff_of_false (List.cons_ne_nil _ _) (fun h => nomatch h)

theorem found_store (henv : validKey s.env = none) (key : Key) : (s.store (some key)).found = some key := by
  have henv' : validKey (s.store (some key)).env = none := henv
  rw [State.found, henv', persisted_store]
  rfl

/-- One load keeps the key just when it is safe. -/
theorem load_spec (io : Access) (hnone : s.sshKey = none) (hk : Kept gcm s) (hs : Sourced s) :
    Remembered (s.getSSHEncryptionKey io).1 ∧
      (Kept gcm (s.getSSHEncryptionKey io).1 ∧ Sourced (s.getSSHEncryptionKey io).1 ↔ SafeLoad s io) := by
  have hissue : ∀ {key}, s.found = some key → Kept gcm (s.issue key) ∧ Sourced (s.issue key) := fun h =>
    ⟨(kept_issue hk).mpr (eq_of_sourced hs h), sourced_issue hs h⟩
  cases henv : validKey s.env with
  | some key =>
    have hfound : s.found = some key := by rw [State.found, henv]; rfl
    rw [get_of_found hnone (fun h => nomatch henv.symm.trans h) hfound]
    exact ⟨remembered_issue s key, iff_of_true (hissue hfound) fun h => nomatch henv.symm.trans h⟩
  | none =>
    have hpersisted : s.found = s.persisted := by rw [State.found, henv]; rfl
    cases hp : s.persisted with
    | some key =>
      cases hread : io.read with
      | true =>
        rw [get_of_found hnone (fun _ => hread) (hpersisted.trans hp)]
        exact ⟨remembered_issue s key, iff_of_true (hissue (hpersisted.trans hp)) fun _ _ => .inl hread⟩
      | false =>
        obtain ⟨hst, new, -, hget⟩ | ⟨hst, hget⟩ := get_of_not_found io hnone henv fun h => nomatch hread.symm.trans h
        · rw [hget, kept_stored hk, hp]
          refine ⟨remembered_issue _ new, iff_of_false (fun h => nomatch h.1.1) fun h => ?_⟩
          rcases h henv (hp ▸ Option.some_ne_none key) with h | h
          · exact nomatch hread.symm.trans h
          · exact nomatch hst.symm.trans h
        · rw [hget]
          exact ⟨fun _ h => (nomatch hnone.symm.trans h), iff_of_true ⟨hk, hs⟩ fun _ _ => .inr hst⟩
    | none =>
      have hempty : ∀ k ∈ s.issued, False := fun k h => nomatch (hpersisted.trans hp).symm.trans (hs k h)
      have hsafe : SafeLoad s io := fun _ h => absurd hp h
      obtain ⟨-, new, -, hget⟩ | ⟨-, hget⟩ := get_of_not_found io hnone henv fun _ => hp
      · rw [hget]
        refine ⟨remembered_issue _ new, iff_of_true ⟨(kept_stored hk).mpr ⟨hp, fun k h => (hempty k h).elim⟩, ?_⟩ hsafe⟩
        exact sourced_issue (fun k h => (hempty k h).elim) (found_store henv new)
      · rw [hget]
        exact ⟨fun _ h => (nomatch hnone.symm.trans h), iff_of_true ⟨hk, hs⟩ hsafe⟩

/-! ## Starts -/

theorem sourced_restarted (hs : Sourced s) (env : String) : Sourced (s.restarted env) := by
  intro k hk
  unfold State.restarted at hk ⊢
  dsimp only at hk
  split at hk
  · next he =>
    subst he
    exact hs k hk
  · exact absurd hk List.not_mem_nil

theorem kept_restarted (hk : Kept gcm s) (env : String) : Kept gcm (s.restarted env) := by
  refine ⟨hk.1, ?_⟩
  unfold State.restarted
  dsimp only
  split
  · exact hk.2
  · exact List.Pairwise.nil

/-- Nothing of this depends on the key in the store. -/
theorem start_spec (gcm : Gcm) (s : State) (env : String) (io : Access) :
    (Remembered (s.start env io) ↔ Remembered ((s.restarted env).getSSHEncryptionKey io).1) ∧
      (Kept gcm (s.start env io) ↔ Kept gcm ((s.restarted env).getSSHEncryptionKey io).1) ∧
      (Sourced (s.start env io) ↔ Sourced ((s.restarted env).getSSHEncryptionKey io).1) := by
  unfold State.start
  rcases (s.restarted env).getSSHEncryptionKey io with ⟨s', e | key⟩
  · exact ⟨Iff.rfl, Iff.rfl, Iff.rfl⟩
  · exact ⟨Iff.rfl, Iff.rfl, Iff.rfl⟩

/-- A restart without failures finds the key that was returned before just when that key has a source. -/
theorem keptOnRestart_iff : KeptOnRestart gcm s ↔ Kept gcm s ∧ Sourced s := by
  refine and_congr_right fun hk => ⟨fun h => ?_, fun hs key => ?_⟩
  · have hk' := kept_restarted hk s.env
    have hissued : (s.restarted s.env).issued = s.issued := if_pos rfl
    have hfound : (s.restarted s.env).found = s.found := rfl
    have h' := fun key => (start_spec gcm s s.env { newKey := some key }).2.1.mp (h key)
    intro k hmem
    cases hf : s.found with
    | some key =>
      have hkey := h' key
      rw [get_of_found rfl (fun _ => rfl) (hfound.trans hf), kept_issue hk', hissued] at hkey
      rw [hkey k hmem]
    | none =>
      obtain ⟨henv, hp⟩ : validKey s.env = none ∧ s.persisted = none := Option.or_eq_none_iff.mp hf
      have hkey : ∀ key, k = key := by
        intro key
        have hkey := h' key
        obtain ⟨-, new, hnew, hget⟩ | ⟨hst, -⟩ :=
          get_of_not_found (s := s.restarted s.env) { newKey := some key } rfl henv fun _ => hp
        · cases hnew
          rw [hget, kept_stored hk', hissued] at hkey
          exact hkey.2 k hmem
        · cases hst
      exact absurd ((hkey zeroKey).symm.trans (hkey oneKey)) (by decide)
  · rw [(start_spec gcm s s.env _).2.1]
    exact ((load_spec _ rfl (kept_restarted hk s.env) (sourced_restarted hs s.env)).2.mpr fun _ _ => .inl rfl).1

/-! ## Restores -/

theorem config_of_importEach {disk : Faults.Disk} {what : String} (rs : List (String × String)) :
    ∀ {n : Nat} {c c' : Config}, Faults.importEach disk n what (fun c kv => setConfigTx c kv.1 kv.2) c rs = .ok c' →
      c' = rs.foldl (fun c kv => setConfig c kv.1 kv.2) c := by
  induction rs with
  | nil =>
    intro n c c' h
    cases h
    rfl
  | cons kv rs ih =>
    intro n c c' h
    unfold Faults.importEach at h
    rw [List.zipIdx_cons, List.foldlM_cons] at h
    obtain ⟨c₁, hc₁, h⟩ := Repeatable.bind_ok.mp h
    split at hc₁
    · cases hc₁
      exact ih h
    · cases hc₁

/-- What a transaction that commits leaves in the configuration. -/
theorem config_of_restoreTx {disk : Faults.Disk} {secretKey : Option Key} {rand : Nat → Nonce} {payload : BackupData}
    {db db' : Faults.Database} (h : Faults.restoreTx gcm disk secretKey rand payload db = .ok db') :
    db'.config = payload.config.foldl (fun c kv => setConfig c kv.1 kv.2) ∅ := by
  unfold Faults.restoreTx at h
  dsimp only at h
  split at h
  · cases h
  split at h
  · cases h
  obtain ⟨tenants, -, h⟩ := Repeatable.bind_ok.mp h
  obtain ⟨instances, -, h⟩ := Repeatable.bind_ok.mp h
  obtain ⟨config, hc, h⟩ := Repeatable.bind_ok.mp h
  obtain ⟨users, -, h⟩ := Repeatable.bind_ok.mp h
  obtain ⟨cfConfigs, -, h⟩ := Repeatable.bind_ok.mp h
  obtain ⟨ipData, -, h⟩ := Repeatable.bind_ok.mp h
  obtain ⟨sshKeys, -, h⟩ := Repeatable.bind_ok.mp h
  obtain ⟨plans, -, h⟩ := Repeatable.bind_ok.mp h
  obtain ⟨alerts, -, h⟩ := Repeatable.bind_ok.mp h
  obtain ⟨tasks, -, h⟩ := Repeatable.bind_ok.mp h
  obtain ⟨createTasks, -, h⟩ := Repeatable.bind_ok.mp h
  obtain ⟨bindings, -, h⟩ := Repeatable.bind_ok.mp h
  split at h
  · cases h
  cases h
  exact config_of_importEach _ hc

/-- The key that is persisted after a restore. -/
theorem persisted_restoreData (gcm : Gcm) (disk : Faults.Disk) (rand : Nat → Nonce) (password : String) (data : codec.Text)
    (host : Faults.Host) :
    (∃ payload db, Faults.payloadOf codec password data = .ok payload ∧
      Faults.restoreTx gcm disk host.secretKey rand payload host.db = .ok db ∧
        validKey (getConfig (Faults.restoreData gcm codec disk rand password data host).1.db.config sshKeyConfig) =
          carried payload) ∨
    ((∀ payload db, Faults.payloadOf codec password data = .ok payload →
      Faults.restoreTx gcm disk host.secretKey rand payload host.db ≠ .ok db) ∧
        (Faults.restoreData gcm codec disk rand password data host).1 = host) := by
  cases hp : Faults.payloadOf codec password data with
  | error e =>
    have hr : Faults.restoreData gcm codec disk rand password data host = (host, .error (.refused e)) := by
      rw [Faults.restoreData, hp]
    exact .inr ⟨fun payload db h => (nomatch h), by rw [hr]⟩
  | ok payload =>
    cases hdb : Faults.restoreTx gcm disk host.secretKey rand payload host.db with
    | error e =>
      have hr : Faults.restoreData gcm codec disk rand password data host = (host, .error e) := by
        rw [Faults.restoreData, hp]
        simp only [hdb]
      refine .inr ⟨fun payload' db h h' => ?_, by rw [hr]⟩
      cases h
      exact nomatch hdb.symm.trans h'
    | ok db =>
      have hr : (Faults.restoreData gcm codec disk rand password data host).1.db = db := by
        rw [Faults.restoreData, hp]
        simp only [hdb]
        split
        · rfl
        · split <;> rfl
      refine .inl ⟨payload, db, rfl, hdb, ?_⟩
      rw [hr, config_of_restoreTx hdb, getConfig, carried]
      unfold setConfig
      rw [Faults.lookup_foldl_insert, AList.lookup_empty, Option.or_none]

theorem restore_spec (disk : Faults.Disk) (rand : Nat → Nonce) (password : String) (data : codec.Text)
    (hs : Sourced s) :
    Sourced { s with host := (Faults.restoreData gcm codec disk rand password data s.host).1 } ↔
      Safe gcm codec s (.restore disk rand password data) := by
  cases henv : validKey s.env with
  | some key =>
    refine iff_of_true (fun k hk => ?_) fun h => nomatch henv.symm.trans h
    have hfound := hs k hk
    rw [State.found, henv] at hfound ⊢
    exact hfound
  | none =>
    have hold : ∀ k ∈ s.issued, s.persisted = some k := by
      intro k hk
      have hfound := hs k hk
      rwa [State.found, henv, Option.none_or] at hfound
    obtain ⟨payload, db, hp, hdb, hnew⟩ | ⟨hrefused, hsame⟩ :=
      persisted_restoreData gcm disk rand password data s.host
    · have hsourced : Sourced { s with host := (Faults.restoreData gcm codec disk rand password data s.host).1 } ↔
          ∀ k ∈ s.issued, carried payload = some k := by
        refine forall₂_congr fun k _ => ?_
        rw [State.found, henv, Option.none_or, State.persisted, hnew]
      rw [hsourced]
      constructor
      · intro h _ hne payload' db' hp' _
        obtain rfl := Except.ok.inj (hp.symm.trans hp')
        obtain ⟨k, hk⟩ := List.exists_mem_of_ne_nil _ hne
        exact (h k hk).trans (hold k hk).symm
      · intro h k hk
        exact (h henv (List.ne_nil_of_mem hk) payload db hp hdb).trans (hold k hk)
    · rw [hsame]
      exact iff_of_true hs fun _ _ payload db hp hdb => absurd hdb (hrefused payload db hp)

/-! ## Every run -/

theorem step_spec (e : Event codec) (hk : KeptOnRestart gcm s) (hr : Remembered s) (h : step gcm codec s e = some s') :
    Remembered s' ∧ (KeptOnRestart gcm s' ↔ Safe gcm codec s e) := by
  obtain ⟨hk, hs⟩ := keptOnRestart_iff.mp hk
  rw [keptOnRestart_iff]
  cases e with
  | start env io =>
    cases h
    obtain ⟨hremembered, hkept, hsourced⟩ := start_spec gcm s env io
    rw [hremembered, hkept, hsourced]
    exact load_spec io rfl (kept_restarted hk env) (sourced_restarted hs env)
  | getKey io =>
    cases h
    cases hmem : s.sshKey with
    | none =>
      obtain ⟨hremembered, hiff⟩ := load_spec io hmem hk hs
      exact ⟨hremembered, hiff.trans ⟨fun h _ => h, fun h => h hmem⟩⟩
    | some key =>
      have hget : (s.getSSHEncryptionKey io).1 = s.issue key := by
        rw [State.issue, ← hmem, State.getSSHEncryptionKey]
        simp only [hmem]
      have hfound := hs key (hr key hmem)
      rw [hget]
      exact ⟨remembered_issue s key, iff_of_true
        ⟨(kept_issue hk).mpr (eq_of_sourced hs hfound), sourced_issue hs hfound⟩ fun h => nomatch hmem.symm.trans h⟩
  | restore disk rand password data =>
    cases h
    exact ⟨hr, (and_iff_right hk).trans (restore_spec disk rand password data hs)⟩

theorem exists_exec (es : List (Event codec)) : ∃ t, exec (step gcm codec) s es = some t := by
  induction es generalizing s with
  | nil => exact ⟨s, rfl⟩
  | cons e es ih =>
    obtain ⟨s', hs⟩ : ∃ s', step gcm codec s e = some s' := by cases e <;> exact ⟨_, rfl⟩
    obtain ⟨t, ht⟩ := ih (s := s')
    exact ⟨t, by rw [exec, hs]; exact ht⟩

theorem keptOnRestart_off (gcm : Gcm) (host : Faults.Host) : KeptOnRestart gcm (off host) :=
  keptOnRestart_iff.mpr ⟨⟨rfl, List.Pairwise.nil⟩, fun _ h => absurd h List.not_mem_nil⟩

theorem remembered_off (host : Faults.Host) : Remembered (off host) := fun _ h => nomatch h

/-- **The key is kept throughout a safe run**, for every database, environment and outcome of the accesses. A step that
is not safe loses the key, at once or at the next restart. -/
theorem key_kept_of_safe (gcm : Gcm) (codec : Codec) (host : Faults.Host) (es : List (Event codec)) :
    ((∃ t, Run (step gcm codec) (Safe gcm codec) (off host) es t) →
      Throughout (step gcm codec) (Kept gcm) (off host) es) ∧
    (Throughout (step gcm codec) (KeptOnRestart gcm) (off host) es →
      ∃ t, Run (step gcm codec) (Safe gcm codec) (off host) es t) := by
  obtain ⟨t, ht⟩ := exists_exec (s := off host) es
  have hiff := throughout_iff_of_invariant (I := KeptOnRestart gcm) (J := Remembered) (C := Safe gcm codec)
    (fun s e s' hk hr h => (step_spec e hk hr h).2) (fun s e s' hk hr _ h => (step_spec e hk hr h).1)
    (keptOnRestart_off gcm host) (remembered_off host) ht
  constructor
  · rintro ⟨t', h⟩
    obtain rfl := Option.some.inj (ht.symm.trans (exec_of_run h))
    exact (hiff.mpr h).imp fun _ h => h.1
  · exact fun h => ⟨t, hiff.mp h⟩

/-! ## Runs of a process without an environment key -/

def exampleHost : Faults.Host where
  db := {}
  secretKey := none

/-- The states of a machine that has stored `zeroKey` and nothing else. -/
def stored (secretKey sshKey : Option Key) (issued : List Key) : State where
  host := { db := { config := setConfig ∅ sshKeyConfig (textOfKey zeroKey) }, secretKey }
  sshKey
  issued

theorem found_stored (secretKey sshKey : Option Key) (issued : List Key) :
    (stored secretKey sshKey issued).found = some zeroKey :=
  found_store (s := { host := exampleHost }) rfl zeroKey

/-- A backup of nothing but the key. -/
def keyFile : Codec.bare.Text :=
  Codec.bare.encodeToString <| Codec.bare.encrypt [] (Codec.bare.marshal
    { tenants := [], instances := [], config := [(sshKeyConfig, textOfKey zeroKey)], users := [], cfCfgs := [],
      ipData := [], sshKeys := [], instancePlans := [], stockAlerts := [], tasks := [], createTasks := [],
      dnsBindings := [], keyFiles := [] }) "secret"

/-- A first start, a restart, one that can neither read nor write, a call that reads again, a restore, a restart. -/
def keptEvents : List (Event Codec.bare) :=
  [.start "" { newKey := some zeroKey }, .getKey { newKey := none }, .start "" { newKey := none },
   .start "" { read := false, newKey := some oneKey, write := false }, .getKey { newKey := none },
   .restore {} (fun _ => zeroNonce) "secret" keyFile, .start "" { newKey := some oneKey }]

theorem start_stored (secretKey sshKey : Option Key) (issued : List Key) {io : Access} (h : io.read = true) :
    step .keyed .bare (stored secretKey sshKey issued) (.start "" io) =
      some (stored (some zeroKey) (some zeroKey) (issued ++ [zeroKey])) := by
  have hcall := call_of_found (s := stored none none issued) rfl (fun _ => h) (found_stored none none issued)
  have hrestarted : (stored secretKey sshKey issued).restarted "" = stored none none issued := rfl
  rw [step, State.start, hrestarted, hcall]
  rfl

theorem run_keptEvents : Run (step .keyed .bare) (Safe .keyed .bare) (off exampleHost) keptEvents
    (stored (some zeroKey) (some zeroKey) (List.replicate 5 zeroKey)) := by
  have hread : ∀ {s : State} {io : Access}, io.read = true → SafeLoad s io := fun h _ _ => .inl h
  have hfirst : step .keyed .bare (off exampleHost) (.start "" { newKey := some zeroKey }) =
      some (stored (some zeroKey) (some zeroKey) [zeroKey]) := rfl
  have hcached : step .keyed .bare (stored (some zeroKey) (some zeroKey) [zeroKey]) (.getKey { newKey := none }) =
      some (stored (some zeroKey) (some zeroKey) (List.replicate 2 zeroKey)) := rfl
  have hfailed : step .keyed .bare (stored (some zeroKey) (some zeroKey) (List.replicate 3 zeroKey))
      (.start "" { read := false, newKey := some oneKey, write := false }) =
        some (stored none none (List.replicate 3 zeroKey)) := rfl
  have hagain : step .keyed .bare (stored none none (List.replicate 3 zeroKey)) (.getKey { newKey := none }) =
      some (stored none (some zeroKey) (List.replicate 4 zeroKey)) :=
    congrArg some (get_of_found rfl (fun _ => rfl) (found_stored _ _ _))
  have hrestored : step .keyed .bare (stored none (some zeroKey) (List.replicate 4 zeroKey))
      (.restore {} (fun _ => zeroNonce) "secret" keyFile) =
        some (stored none (some zeroKey) (List.replicate 4 zeroKey)) := rfl
  refine .cons (hread rfl) hfirst (.cons (fun h => nomatch h) hcached (.cons (hread rfl) (start_stored _ _ _ rfl)
    (.cons (fun _ _ => .inr rfl) hfailed (.cons (fun _ => hread rfl) hagain (.cons ?_ hrestored
      (.cons (hread rfl) (start_stored _ _ _ rfl) (.nil _)))))))
  intro _ _ payload db hp _
  have hconfig : payload.config = [(sshKeyConfig, textOfKey zeroKey)] := by
    cases hp
    rfl
  rw [carried, hconfig]
  exact (validKey_textOfKey zeroKey).trans (found_stored none (some zeroKey) []).symm

theorem key_kept_of_safe_sevenEvents :
    Throughout (step .keyed .bare) (Kept .keyed) (off exampleHost) keptEvents ∧
      (exec (step .keyed .bare) (off exampleHost) keptEvents).map State.issued = some (List.replicate 5 zeroKey) :=
  ⟨(key_kept_of_safe .keyed .bare exampleHost keptEvents).1 ⟨_, run_keptEvents⟩,
    congrArg (Option.map State.issued) (exec_of_run run_keptEvents)⟩

/-- A restart that cannot read the table writes a new key over the one that the first start stored. -/
theorem failed_read_loses_key : ¬ ∀ (gcm : Gcm) (codec : Codec) (host : Faults.Host) (es : List (Event codec)),
    Throughout (step gcm codec) (Kept gcm) (off host) es := by
  intro h
  let first : Event Codec.bare := .start "" { newKey := some zeroKey }
  let second : Event Codec.bare := .start "" { read := false, newKey := some oneKey }
  have hall := h .keyed .bare exampleHost [first, second]
  have hpersisted : (stored none none [zeroKey]).persisted = some zeroKey := found_stored none none [zeroKey]
  have hlost : (stored none none [zeroKey]).persisted.toList = [] := ((hall.2 _ rfl).2 _ rfl).1
  rw [hpersisted] at hlost
  exact absurd hlost (List.cons_ne_nil _ _)

end OciHelper.Backup.KeyHistory
