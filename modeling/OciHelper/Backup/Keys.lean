import OciHelper.Backup.References

/-!
# Secrets after a restore and a restart

The backup carries the key in its config rows, and a restore encrypts the passwords under the key that
the restoring server has in memory.

* `SecretsSurvive` : after the restart each password reads as it did, and each private key that could be
  opened can be opened;
* `Copy.secretsSurvive_iff`, `secrets_survive_iff` : exactly when that is so.
-/

namespace OciHelper.Backup
open OciHelper.Db

/-- The key that the next process start loads from the tables; `newKey` is what it draws if there is
none. -/
def keyAtStart (db : Tables) (newKey : Key) : Key := (loadOrCreateSSHKey "" db.config newKey).1

/-- `key₁` is the key of the server `s` that was backed up, `key₃` that of the restarted one. -/
structure SecretsSurvive (gcm : Gcm) (key₁ key₃ : Key) (s : Server) (db db' : Tables) : Prop where
  passwords : ∀ id t, s.db.createTasks.get id = some t → ∃ id' t', movedCreateTask s db id = some id' ∧
    db'.createTasks.get id' = some t' ∧
    decryptSecret gcm (some key₃) t'.rootPassword = decryptSecret gcm (some key₁) t.rootPassword
  privateKeys : ∀ id k plain, s.db.sshKeys.get id = some k →
    decryptSSHPrivateKey gcm key₁ k.privateKey = .ok plain → ∃ id' k' plain', movedSSHKey s db id = some id' ∧
      db'.sshKeys.get id' = some k' ∧ decryptSSHPrivateKey gcm key₃ k'.privateKey = .ok plain'

variable {gcm : Gcm} {rand : Nat → Nonce} {s : Server} {db db' : Tables}

theorem Copy.keyAtStart {key : Option Key} (h : Copy gcm key rand s db db') (newKey : Key) :
    keyAtStart db' newKey = keyAtStart s.db newKey := by
  have hget : getConfig db'.config sshKeyConfig = getConfig s.db.config sshKeyConfig := by
    unfold getConfig
    rw [AList.perm_lookup h.config]
  simp only [Backup.keyAtStart, loadOrCreateSSHKey, hget, if_true]
  by_cases he : getConfig s.db.config sshKeyConfig = ""
  · simp only [he, if_true]
  · simp only [he, if_false]
    cases keyOfText (getConfig s.db.config sshKeyConfig) <;> rfl

/-- The copy of a schedule, encrypted under the key in memory. -/
theorem Copy.get_createTask {key₁ key₂ : Key} (h : Copy gcm (some key₂) rand s db db')
    (hk : s.secretKey = some key₁) {id : Int} {t : CreateTask} (ht : s.db.createTasks.get id = some t) :
    ∃ id' t' nonce, movedCreateTask s db id = some id' ∧ db'.createTasks.get id' = some t' ∧
      t'.rootPassword =
        encryptSecret gcm (some key₂) nonce (decryptSecret gcm (some key₁) t.rootPassword) := by
  obtain ⟨id', hid⟩ := KeyTable.newId_isSome db.createTasks.nextId (s.db.createTasks.mem_newest.mpr ht)
  obtain ⟨v, w, hm, hw, nonce, hpw⟩ := KeyTable.exists_of_newId
    (R := fun v w => ∃ nonce, w.rootPassword =
      encryptSecret gcm (some key₂) nonce (decryptSecret gcm (some key₁) v.rootPassword))
    db.createTasks.clear s.db.createTasks.newest
    (s.db.createTasks.newest.zipIdx.map fun r => r.1.2.reset gcm s.secretKey (some key₂) (rand r.2))
    (fun i r hr => by
      refine ⟨r.2.reset gcm s.secretKey (some key₂) (rand (0 + i)), ?_, rand (0 + i), by rw [hk]; rfl⟩
      rw [List.getElem?_map, List.getElem?_zipIdx, hr]
      rfl) hid
  have hv : v = t := Option.some.inj ((s.db.createTasks.mem_newest.mp hm).symm.trans ht)
  exact ⟨id', w, nonce, hid, by rw [h.createTasks]; exact hw, hv ▸ hpw⟩

/-- The copy of a key pair has lost its private key. -/
theorem Copy.get_sshKey {key : Option Key} (h : Copy gcm key rand s db db') {id : Int} {k : SSHKey}
    (hk : s.db.sshKeys.get id = some k) :
    ∃ id', movedSSHKey s db id = some id' ∧ db'.sshKeys.get id' = some k.reset := by
  obtain ⟨id', hid⟩ := KeyTable.newId_isSome db.sshKeys.nextId (s.db.sshKeys.mem_newest.mpr hk)
  obtain ⟨v, w, hm, hw, rfl⟩ := KeyTable.exists_of_newId (R := fun v w => w = v.reset) db.sshKeys.clear
    s.db.sshKeys.newest _ (fun i r hr => ⟨_, getElem?_map_fst (fun r => r.2.reset) i r hr, rfl⟩) hid
  have hv : v = k := Option.some.inj ((s.db.sshKeys.mem_newest.mp hm).symm.trans hk)
  exact ⟨id', hid, by rw [h.sshKeys, hw, hv]⟩

theorem Copy.secretsSurvive_iff {key₁ key₂ : Key} (h : Copy gcm (some key₂) rand s db db')
    (hk : s.secretKey = some key₁) (key₃ : Key) : SecretsSurvive gcm key₁ key₃ s db db' ↔
      ((∀ id t, s.db.createTasks.get id = some t → decryptSecret gcm (some key₁) t.rootPassword = "") ∨
        key₃ = key₂) ∧
      ∀ id k plain, s.db.sshKeys.get id = some k → decryptSSHPrivateKey gcm key₁ k.privateKey ≠ .ok plain := by
  constructor
  · intro hs
    refine ⟨?_, fun id k plain hk' hplain => ?_⟩
    · by_cases h₃ : key₃ = key₂
      · exact .inr h₃
      · refine .inl fun id t ht => ?_
        obtain ⟨id', t', hid, ht', hread⟩ := hs.passwords id t ht
        obtain ⟨id₁, t₁, nonce, hid₁, ht₁, hpw⟩ := h.get_createTask hk ht
        obtain rfl : id' = id₁ := Option.some.inj (hid.symm.trans hid₁)
        obtain rfl : t' = t₁ := Option.some.inj (ht'.symm.trans ht₁)
        rw [hpw] at hread
        exact ((decryptSecret_encryptSecret_iff gcm key₂ key₃ nonce _).mp hread).resolve_right h₃
    · obtain ⟨id', k', plain', hid, hk₂, hopen⟩ := hs.privateKeys id k plain hk' hplain
      obtain ⟨id₁, hid₁, hk₁⟩ := h.get_sshKey hk'
      obtain rfl : id' = id₁ := Option.some.inj (hid.symm.trans hid₁)
      obtain rfl : k' = k.reset := Option.some.inj (hk₂.symm.trans hk₁)
      have hempty : decryptSSHPrivateKey gcm key₃ k.reset.privateKey = .error .tooShort :=
        decryptSSHPrivateKey_empty gcm key₃
      rw [hempty] at hopen
      cases hopen
  · rintro ⟨hpw, hssh⟩
    refine ⟨fun id t ht => ?_, fun id k plain hk' hplain => absurd hplain (hssh id k plain hk')⟩
    obtain ⟨id', t', nonce, hid, ht', he⟩ := h.get_createTask hk ht
    refine ⟨id', t', hid, ht', ?_⟩
    rw [he]
    exact (decryptSecret_encryptSecret_iff gcm key₂ key₃ nonce _).mpr (hpw.imp_left fun h => h id t ht)

theorem secrets_survive_iff (gcm : Gcm) (codec : Codec) (s : Installation) {key₁ : Key}
    (hk : s.secretKey = some key₁) {noise : List UInt8} {password : String} {file : codec.Text}
    (hb : handleBackup gcm codec s.toServer noise password = .ok file) (rand : Nat → Nonce) (db : Tables)
    (keysDir : KeyFiles) (key₂ newKey : Key) :
    (∀ s' n, restoreData gcm codec rand password file ⟨db, keysDir, some key₂⟩ = (s', .ok n) →
      SecretsSurvive gcm key₁ (keyAtStart s'.db newKey) s.toServer db s'.db) ↔
      ((∀ id t, s.db.createTasks.get id = some t → decryptSecret gcm (some key₁) t.rootPassword = "") ∨
        keyAtStart s.db newKey = key₂) ∧
      ∀ id k plain, s.db.sshKeys.get id = some k → decryptSSHPrivateKey gcm key₁ k.privateKey ≠ .ok plain := by
  obtain ⟨db', keysDir', hr, hcopy, -⟩ := restoreData_handleBackup s hb rand ⟨db, keysDir, some key₂⟩
  have hiff := hcopy.secretsSurvive_iff hk (keyAtStart db' newKey)
  rw [hcopy.keyAtStart] at hiff
  constructor
  · intro h
    have := h _ _ hr
    simp only [hcopy.keyAtStart] at this
    exact hiff.mp this
  · intro h s' n hr'
    have hs' : s' = ⟨db', keysDir', some key₂⟩ := congrArg Prod.fst (hr'.symm.trans hr)
    rw [hs']
    simp only [hcopy.keyAtStart]
    exact hiff.mpr h

/-! ## One schedule with a password -/

/-- A server that persisted its key, with one schedule whose password is encrypted under it. -/
def oneSchedule (key : Key) : Installation where
  db := { tenants := KeyTable.empty.insert { name := "home" }
          config := setConfig ∅ sshKeyConfig (textOfKey key)
          createTasks := KeyTable.empty.insert
            { tenantID := 1, intervalSeconds := 60, createNumbers := 1,
              rootPassword := encryptSecret .keyed (some key) zeroNonce "root" } }
  secretKey := some key
  consistent :=
    { instances := fun _ h => by cases h
      ipData := fun _ h => by cases h
      sshKeys := fun _ h => by cases h
      instancePlans := fun _ h => by cases h
      createTasks := fun r h => by rw [List.mem_singleton.mp h]; rfl
      usernames := .nil }
  plain := plain_empty

theorem keyAtStart_oneSchedule (key newKey : Key) : keyAtStart (oneSchedule key).db newKey = key := by
  have hget : getConfig (oneSchedule key).db.config sshKeyConfig = textOfKey key := by
    unfold getConfig oneSchedule setConfig
    rw [AList.lookup_insert]
    rfl
  exact congrArg Prod.fst (loadOrCreateSSHKey_of_persisted hget newKey)

theorem secrets_survive_same_key : ∃ file,
    handleBackup .keyed .bare (oneSchedule zeroKey).toServer [] "secret" = .ok file ∧
    ∀ s' n, restoreData .keyed .bare (fun _ => zeroNonce) "secret" file ⟨{}, ∅, some zeroKey⟩ = (s', .ok n) →
      SecretsSurvive .keyed zeroKey (keyAtStart s'.db oneKey) (oneSchedule zeroKey).toServer {} s'.db := by
  have hb : handleBackup .keyed .bare (oneSchedule zeroKey).toServer [] "secret" = .ok _ :=
    if_neg (by decide)
  exact ⟨_, hb, (secrets_survive_iff .keyed .bare (oneSchedule zeroKey) rfl hb _ {} ∅ zeroKey oneKey).mpr
    ⟨.inr (keyAtStart_oneSchedule zeroKey oneKey), fun _ _ _ h => by cases h⟩⟩

/-- The restoring server encrypts under its own key and loads the backup's after the restart, so the
schedule's password reads as its ciphertext. -/
theorem password_unreadable : ∃ file s' n,
    handleBackup .keyed .bare (oneSchedule zeroKey).toServer [] "secret" = .ok file ∧
    restoreData .keyed .bare (fun _ => zeroNonce) "secret" file ⟨{}, ∅, some oneKey⟩ = (s', .ok n) ∧
    ¬ SecretsSurvive .keyed zeroKey (keyAtStart s'.db oneKey) (oneSchedule zeroKey).toServer {} s'.db := by
  have hb : handleBackup .keyed .bare (oneSchedule zeroKey).toServer [] "secret" = .ok _ :=
    if_neg (by decide)
  obtain ⟨db', keysDir', hr, hcopy, -⟩ := restoreData_handleBackup (oneSchedule zeroKey) hb
    (fun _ => zeroNonce) ⟨{}, ∅, some oneKey⟩
  refine ⟨_, _, _, hb, hr, fun h => ?_⟩
  have hstart : keyAtStart db' oneKey = zeroKey :=
    (hcopy.keyAtStart oneKey).trans (keyAtStart_oneSchedule zeroKey oneKey)
  rw [hstart] at h
  have hread : decryptSecret .keyed (some zeroKey) (encryptSecret .keyed (some zeroKey) zeroNonce "root") =
      "root" := decryptSecret_encryptSecret .keyed (some zeroKey) zeroNonce "root"
  rcases ((hcopy.secretsSurvive_iff rfl zeroKey).mp h).1 with hpw | hkey
  · have : decryptSecret .keyed (some zeroKey) (encryptSecret .keyed (some zeroKey) zeroNonce "root") = "" :=
      hpw 1 _ rfl
    rw [hread] at this
    exact absurd this (by decide)
  · exact absurd hkey (by decide)

end OciHelper.Backup
