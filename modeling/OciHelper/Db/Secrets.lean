import OciHelper.Lib.Base64
import Mathlib.Data.List.AList

/-!
# Secrets at rest

* `Gcm` : AES-256-GCM on texts, with what the code relies on; opening succeeds exactly under the
  sealing key;
* `encryptSecret`, `decryptSecret` : the column `create_tasks.root_password`;
* `encryptSSHPrivateKey`, `decryptSSHPrivateKey` : the column `ssh_keys.private_key`;
* `loadOrCreateSSHKey` : the key both are encrypted under.
-/

namespace OciHelper.Db

abbrev Key := {k : List UInt8 // k.length = 32}
abbrev Nonce := {n : List UInt8 // n.length = 12}
abbrev Salt := {s : List UInt8 // s.length = 16}

structure Gcm where
  sealText : Key → List UInt8 → String → List UInt8
  openText : Key → List UInt8 → List UInt8 → Option String
  open_seal : ∀ k k' n p, openText k' n (sealText k n p) = if k' = k then some p else none
  size_le_length : ∀ k n p, p.utf8ByteSize ≤ (sealText k n p).length

/-! ## Keys for concrete runs -/

def zeroKey : Key := ⟨List.replicate 32 0, rfl⟩

def oneKey : Key := ⟨List.replicate 32 1, rfl⟩

def zeroNonce : Nonce := ⟨List.replicate 12 0, rfl⟩

/-- A sealed text that is the sealing key followed by the text. -/
def Gcm.keyed : Gcm where
  sealText k _ p := k.1 ++ p.toByteArray.data.toList
  openText k _ c := if c.take 32 = k.1 then String.fromUTF8? ⟨(c.drop 32).toArray⟩ else none
  open_seal := by
    intro k k' n p
    have htext : String.fromUTF8? ⟨p.toByteArray.data.toList.toArray⟩ = some p := by
      rw [Array.toArray_toList]
      exact dif_pos p.isValidUTF8
    have hiff : k.1 = k'.1 ↔ k' = k := by rw [Subtype.ext_iff, eq_comm]
    simp only [List.take_left' k.2, List.drop_left' k.2, htext, hiff]
  size_le_length := by
    intro k n p
    rw [List.length_append, Array.length_toList]
    exact Nat.le_add_left _ _

abbrev Config := AList fun _ : String => String

def getConfig (config : Config) (key : String) : String := (config.lookup key).getD ""

def setConfig (config : Config) (key value : String) : Config := config.insert key value

/-! ## `secret.go` -/

def secretPrefix : String := "enc1:"

variable (gcm : Gcm)

/-- `EncodeToString` on a nonce and what was sealed under it, with the tag. -/
def tagged (k : Key) (nonce : Nonce) (plain : String) : String :=
  secretPrefix ++ String.ofList (Base64.encode false (nonce.1 ++ gcm.sealText k nonce.1 plain))

def encryptSecret (key : Option Key) (nonce : Nonce) (plain : String) : String :=
  match key with
  | none => plain
  | some k => if plain = "" then plain else tagged gcm k nonce plain

def decryptSecret (key : Option Key) (stored : String) : String :=
  match key with
  | none => stored
  | some k =>
    if stored = "" ∨ ¬ secretPrefix.toList <+: stored.toList then stored
    else
      match Base64.decode false (stored.toList.drop secretPrefix.toList.length) with
      | none => stored
      | some raw =>
        if raw.length < 12 then stored
        else
          match gcm.openText k (raw.take 12) (raw.drop 12) with
          | none => stored
          | some plain => plain

/-! ## `crypto.go` -/

inductive CryptoError
  | decode
  | tooShort
  | authentication
  deriving DecidableEq, Repr

/-- The stored text is 16 bytes of salt, the nonce and the sealed text. -/
def encryptSSHPrivateKey (key : Key) (salt : Salt) (nonce : Nonce) (plain : String) : String :=
  String.ofList (Base64.encode true (salt.1 ++ nonce.1 ++ gcm.sealText key nonce.1 plain))

def decryptSSHPrivateKey (key : Key) (encoded : String) : Except CryptoError String :=
  match Base64.decode true encoded.toList with
  | none => .error .decode
  | some data =>
    if data.length < 28 then .error .tooShort
    else
      match gcm.openText key ((data.drop 16).take 12) (data.drop 28) with
      | none => .error .authentication
      | some plain => .ok plain

/-- The key that a text holds, if it is 32 bytes in base64. -/
def keyOfText (text : String) : Option Key :=
  match Base64.decode true text.toList with
  | none => none
  | some decoded => if h : decoded.length = 32 then some ⟨decoded, h⟩ else none

def textOfKey (key : Key) : String := String.ofList (Base64.encode true key.1)

def sshKeyConfig : String := "ssh_key_encryption_key"

/-- The key from the environment, else the persisted one, else `newKey`, which is then persisted. -/
def loadOrCreateSSHKey (env : String) (config : Config) (newKey : Key) : Key × Config :=
  let fresh := (newKey, setConfig config sshKeyConfig (textOfKey newKey))
  let persisted :=
    let dbKey := getConfig config sshKeyConfig
    if dbKey = "" then fresh
    else
      match keyOfText dbKey with
      | some key => (key, config)
      | none => fresh
  if env = "" then persisted
  else
    match keyOfText env with
    | some key => (key, config)
    | none => persisted

/-! ## What is read back -/

theorem length_le_utf8ByteSize (cs : List Char) : cs.length ≤ (String.ofList cs).utf8ByteSize := by
  induction cs with
  | nil => simp
  | cons c cs ih =>
    have hc : 0 < (String.singleton c).utf8ByteSize := by
      refine Nat.pos_of_ne_zero fun h => ?_
      have := String.utf8ByteSize_eq_zero_iff.mp h
      have := congrArg String.toList this
      simp at this
    have hsplit : String.ofList (c :: cs) = String.singleton c ++ String.ofList cs := by
      apply String.toList_inj.mp
      simp
    rw [hsplit, String.utf8ByteSize_append, List.length_cons]
    omega

theorem size_lt_tagged (k : Key) (nonce : Nonce) (plain : String) :
    plain.utf8ByteSize < (tagged gcm k nonce plain).utf8ByteSize := by
  have hseal := gcm.size_le_length k nonce.1 plain
  have henc := Base64.length_le_encode false (nonce.1 ++ gcm.sealText k nonce.1 plain)
  have hchars := length_le_utf8ByteSize (Base64.encode false (nonce.1 ++ gcm.sealText k nonce.1 plain))
  have htag : secretPrefix.utf8ByteSize = 5 := rfl
  rw [List.length_append] at henc
  unfold tagged
  rw [String.utf8ByteSize_append]
  omega

theorem decryptSecret_tagged (k k' : Key) (nonce : Nonce) (plain : String) :
    decryptSecret gcm (some k') (tagged gcm k nonce plain) =
      if k' = k then plain else tagged gcm k nonce plain := by
  have hn := nonce.2
  have hlist : (tagged gcm k nonce plain).toList =
      secretPrefix.toList ++ Base64.encode false (nonce.1 ++ gcm.sealText k nonce.1 plain) := by
    simp [tagged]
  have hne : tagged gcm k nonce plain ≠ "" := by
    intro h
    have := size_lt_tagged gcm k nonce plain
    rw [h] at this
    exact absurd this (by simp)
  have hpre : secretPrefix.toList <+: (tagged gcm k nonce plain).toList := by
    rw [hlist]
    exact List.prefix_append _ _
  have hcond : ¬ (tagged gcm k nonce plain = "" ∨
      ¬ secretPrefix.toList <+: (tagged gcm k nonce plain).toList) := by
    simp [hne, hpre]
  simp only [decryptSecret]
  rw [if_neg hcond, hlist, List.drop_left, Base64.decode_encode]
  simp only
  rw [if_neg (by rw [List.length_append]; omega), List.take_left' hn, List.drop_left' hn,
    gcm.open_seal]
  by_cases hk : k' = k <;> simp [hk]

/-- A text that was encrypted under one key reads back under another one exactly if it is empty or the
keys are equal. -/
theorem decryptSecret_encryptSecret_iff (k k' : Key) (nonce : Nonce) (plain : String) :
    decryptSecret gcm (some k') (encryptSecret gcm (some k) nonce plain) = plain ↔
      plain = "" ∨ k' = k := by
  unfold encryptSecret
  by_cases hp : plain = ""
  · simp [hp, decryptSecret]
  · simp only [hp, if_false, false_or, decryptSecret_tagged]
    by_cases hk : k' = k
    · simp [hk]
    · simp only [hk, if_false, iff_false]
      intro h
      have := size_lt_tagged gcm k nonce plain
      rw [h] at this
      omega

theorem decryptSecret_encryptSecret (key : Option Key) (nonce : Nonce) (plain : String) :
    decryptSecret gcm key (encryptSecret gcm key nonce plain) = plain := by
  cases key with
  | none => rfl
  | some k => exact (decryptSecret_encryptSecret_iff gcm k k nonce plain).mpr (.inr rfl)

/-- A private key is opened exactly under the key it was sealed under. -/
theorem decryptSSHPrivateKey_encryptSSHPrivateKey_iff (k k' : Key) (salt : Salt) (nonce : Nonce) (plain : String) :
    decryptSSHPrivateKey gcm k' (encryptSSHPrivateKey gcm k salt nonce plain) = .ok plain ↔ k' = k := by
  have hs := salt.2
  have hn := nonce.2
  have hhead : (salt.1 ++ nonce.1).length = 28 := by rw [List.length_append, hs, hn]
  unfold decryptSSHPrivateKey encryptSSHPrivateKey
  rw [String.toList_ofList, Base64.decode_encode]
  simp only
  rw [if_neg (by rw [List.length_append]; omega), List.append_assoc, List.drop_left' hs, List.take_left' hn,
    ← List.append_assoc, List.drop_left' hhead, gcm.open_seal]
  by_cases hk : k' = k <;> simp [hk]

theorem keyOfText_textOfKey (key : Key) : keyOfText (textOfKey key) = some key := by
  unfold keyOfText textOfKey
  rw [String.toList_ofList, Base64.decode_encode]
  exact dif_pos key.2

theorem textOfKey_ne_empty (key : Key) : textOfKey key ≠ "" := by
  intro he
  have hlen := Base64.length_le_encode true key.1
  have : (textOfKey key).toList = [] := by rw [he]; rfl
  rw [textOfKey, String.toList_ofList] at this
  rw [this, key.2] at hlen
  exact absurd hlen (by decide)

/-- A persisted key is loaded again. -/
theorem loadOrCreateSSHKey_of_persisted {config : Config} {key : Key}
    (h : getConfig config sshKeyConfig = textOfKey key) (newKey : Key) :
    loadOrCreateSSHKey "" config newKey = (key, config) := by
  have hne := textOfKey_ne_empty key
  simp only [loadOrCreateSSHKey, h, hne, if_true, if_false, keyOfText_textOfKey]

/-- No key opens the empty column. -/
theorem decryptSSHPrivateKey_empty (key : Key) :
    decryptSSHPrivateKey gcm key "" = .error .tooShort := rfl

end OciHelper.Db
