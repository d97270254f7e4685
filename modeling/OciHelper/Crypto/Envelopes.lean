import OciHelper.Db.Secrets
import OciHelper.Lib.Aead
import OciHelper.Lib.Slices
import OciHelper.Lib.Text
import Mathlib.Data.List.Induction

/-!
# The envelopes around AES-GCM, byte for byte

* `encrypt`, `decrypt` : backups, under a key that is derived from a password and the salt;
* `sign`, `unsign`, `encryptSigned`, `decryptSigned` : the two layers of a session;
* `encryptSSHPrivateKey`, `decryptSSHPrivateKey`, `encryptSecret`, `decryptSecret` : columns;
* `Call`, `perform`, `run` : any encoders in any order, and the log of what they have sealed;
* `openSalted_eq_ok_iff`, `decrypt_eq_ok_iff`, `decryptSecret_cases` : what the decoders give back;
* `Envelopes`, `envelopes` : every decoder inverts its encoder, slices in range and gives back encoded values only.

`Db.Secrets` and `Auth.Tokens` have these on texts, with a cipher that opens whatever is sealed under the key. Here a
text is the list of its bytes, and a slice out of range or a nonce of another length is a panic, `none`; `Crypto.Texts`
connects the two.
-/

namespace OciHelper.Crypto
open OciHelper.Db (Nonce Salt)
open Aead Slices

/-- `pbkdf2.Key` with 600000 rounds of SHA-256, for 32 bytes. -/
structure Pbkdf2 where
  key : Bytes → Bytes → Bytes
  length_key : ∀ password salt, (key password salt).length = 32

inductive Err
  /-- The program's own texts. -/
  | text (message : String)
  | base64
  | cipher
  | authentication
  | wrapped (context : String) (err : Err)
  deriving DecidableEq, Repr

section
variable (A : Scheme) (kdf : Pbkdf2) (mac : Bytes → Bytes → Bytes)

/-! ## Salt, nonce and ciphertext -/

/-- The salt, the nonce and the ciphertext, and the log with the message. -/
def sealSalted (log : Log) (plaintext key : Bytes) (salt : Salt) (nonce : Nonce) : Except Err (Bytes × Log) :=
  match newCipher key with
  | none => .error .cipher
  | some key =>
    let (out, log) := A.sealIn log key nonce.1 plaintext
    .ok (salt.1 ++ (nonce.1 ++ out), log)

def gcmOpen (log : Log) (key nonce ciphertext : Bytes) : Option (Except Err Bytes) :=
  (A.openIn log key nonce ciphertext).map fun
    | none => .error .authentication
    | some plaintext => .ok plaintext

/-- The salt is not used. -/
def openSalted (log : Log) (data key : Bytes) : Option (Except Err Bytes) :=
  if data.length < 28 then some (.error (.text "too short"))
  else
    match newCipher key with
    | none => some (.error .cipher)
    | some key => do
      let nonce ← cut? data 16 (16 + 12)
      let ciphertext ← cut? data (16 + 12) data.length
      gcmOpen A log key nonce ciphertext

/-! ## `backup.go` -/

def encrypt (log : Log) (plaintext password : Bytes) (salt : Salt) (nonce : Nonce) : Except Err (Bytes × Log) :=
  sealSalted A log plaintext (kdf.key password salt.1) salt nonce

def decrypt (log : Log) (data password : Bytes) : Option (Except Err Bytes) :=
  if data.length < 16 + 12 then some (.error (.text "ciphertext too short"))
  else do
    let salt ← cut? data 0 16
    match newCipher (kdf.key password salt) with
    | none => some (.error .cipher)
    | some key =>
      -- the length is checked a second time, against the nonce size of the cipher
      if data.length < 16 + 12 then some (.error (.text "ciphertext too short"))
      else
        let nonce ← cut? data 16 (16 + 12)
        let ciphertext ← cut? data (16 + 12) data.length
        gcmOpen A log key nonce ciphertext

/-! ## `auth.go` -/

def sign (data key : Bytes) : Bytes :=
  Base64.bytes (Base64.encodeUrl data ++ '.' :: Base64.encodeUrl (mac key data))

def unsign (token key : Bytes) : Except Err Bytes :=
  match Text.splitN '.' 2 (Base64.chars token) with
  | [data, sig] =>
    match Base64.decodeUrl data, Base64.decodeUrl sig with
    | some data, some sig => if sig = mac key data then .ok data else .error (.text "invalid signature")
    | _, _ => .error .base64
  | _ => .error (.text "invalid token")

def encryptSigned (log : Log) (plaintext key : Bytes) (salt : Salt) (nonce : Nonce) : Except Err (Bytes × Log) :=
  sealSalted A log plaintext key salt nonce

def decryptSigned (log : Log) (data key : Bytes) : Option (Except Err Bytes) := openSalted A log data key

/-- Both layers, as a session cookie has them. -/
def sealSession (log : Log) (data key : Bytes) (salt : Salt) (nonce : Nonce) : Except Err (Bytes × Log) :=
  encryptSigned A log (sign mac data key) key salt nonce

def openSession (log : Log) (encrypted key : Bytes) : Option (Except Err Bytes) :=
  (decryptSigned A log encrypted key).map fun signed => signed.bind fun signed => unsign mac signed key

/-! ## `crypto.go` -/

def encryptSSHPrivateKey (log : Log) (key plaintext : Bytes) (salt : Salt) (nonce : Nonce) :
    Except Err (Bytes × Log) :=
  match sealSalted A log plaintext key salt nonce with
  | .error e => .error (.wrapped "encrypt SSH: new cipher" e)
  | .ok (out, log) => .ok (Base64.bytes (Base64.encode true out), log)

def decryptSSHPrivateKey (log : Log) (key encoded : Bytes) : Option (Except Err Bytes) :=
  match Base64.decode true (Base64.chars encoded) with
  | none => some (.error (.wrapped "decode" .base64))
  | some data => openSalted A log data key

/-! ## `secret.go` -/

def secretPrefix : Bytes := Base64.bytes "enc1:".toList

/-- A key of another length is not installed. -/
def setSecretKey (secretKey key : Bytes) : Bytes := if key.length = 32 then key else secretKey

/-- The key of a store after some calls of `setSecretKey`; no key is the empty one. -/
def installed (keys : List Bytes) : Bytes := keys.foldl setSecretKey []

def encryptSecret (log : Log) (secretKey plain : Bytes) (nonce : Nonce) : Except Err (Bytes × Log) :=
  if plain = [] ∨ secretKey = [] then .ok (plain, log)
  else
    match newCipher secretKey with
    | none => .error (.wrapped "secret cipher" .cipher)
    | some key =>
      let (out, log) := A.sealIn log key nonce.1 plain
      .ok (secretPrefix ++ Base64.bytes (Base64.encode false (nonce.1 ++ out)), log)

def decryptSecret (log : Log) (secretKey stored : Bytes) : Option Bytes :=
  if stored = [] ∨ secretKey = [] ∨ ¬ secretPrefix <+: stored then some stored
  else
    match Base64.decode false (Base64.chars (stored.drop secretPrefix.length)) with
    | none => some stored
    | some raw =>
      match newCipher secretKey with
      | none => some stored
      | some key =>
        if raw.length < 12 then some stored
        else do
          let nonce ← cut? raw 0 12
          let ciphertext ← cut? raw 12 raw.length
          match ← A.openIn log key nonce ciphertext with
          | none => some stored
          | some plain => some plain

/-! ## Runs -/

/-- What is encoded, and with what. -/
inductive Call
  | encrypt (plaintext password : Bytes) (salt : Salt) (nonce : Nonce)
  | encryptSigned (plaintext key : Bytes) (salt : Salt) (nonce : Nonce)
  | encryptSSHPrivateKey (key plaintext : Bytes) (salt : Salt) (nonce : Nonce)
  | encryptSecret (secretKey plain : Bytes) (nonce : Nonce)

def perform (log : Log) : Call → Except Err (Bytes × Log)
  | .encrypt plaintext password salt nonce => encrypt A kdf log plaintext password salt nonce
  | .encryptSigned plaintext key salt nonce => encryptSigned A log plaintext key salt nonce
  | .encryptSSHPrivateKey key plaintext salt nonce => encryptSSHPrivateKey A log key plaintext salt nonce
  | .encryptSecret secretKey plain nonce => encryptSecret A log secretKey plain nonce

/-- The log after a call; a failed one leaves it. -/
def after (log : Log) (c : Call) : Log :=
  match perform A kdf log c with
  | .error _ => log
  | .ok (_, log) => log

def run (log : Log) (calls : List Call) : Log := calls.foldl (after A kdf) log

/-- The call encodes the value under the key. -/
def Call.Encodes (key value : Bytes) : Call → Prop
  | .encrypt plaintext password salt _ => kdf.key password salt.1 = key ∧ plaintext = value
  | .encryptSigned plaintext key' _ _ => key' = key ∧ plaintext = value
  | .encryptSSHPrivateKey key' plaintext _ _ => key' = key ∧ plaintext = value
  | .encryptSecret secretKey plain _ => secretKey = key ∧ plain = value

variable {A kdf mac} {log log' : Log} {data key p : Bytes} {calls : List Call}

/-! ## What the decoders give back -/

/-- An input with enough bytes is a salt, a nonce and the rest. -/
theorem exists_parts {m n : Nat} (h : m + n ≤ data.length) :
    ∃ salt nonce rest : Bytes, data = salt ++ (nonce ++ rest) ∧ salt.length = m ∧ nonce.length = n := by
  refine ⟨data.take m, (data.drop m).take n, (data.drop m).drop n, ?_, ?_, ?_⟩
  · rw [List.take_append_drop, List.take_append_drop]
  · rw [List.length_take]
    omega
  · rw [List.length_take, List.length_drop]
    omega

theorem cut?_nonce (salt : Salt) (nonce : Nonce) (c : Bytes) :
    cut? (salt.1 ++ (nonce.1 ++ c)) 16 (16 + 12) = some nonce.1 :=
  cut?_mid salt.2 (by rw [nonce.2])

theorem cut?_ciphertext (salt : Salt) (nonce : Nonce) (c : Bytes) :
    cut? (salt.1 ++ (nonce.1 ++ c)) (16 + 12) (salt.1 ++ (nonce.1 ++ c)).length = some c := by
  rw [← List.append_assoc]
  exact cut?_right (by rw [List.length_append, salt.2, nonce.2])

theorem not_short (salt : Salt) (nonce : Nonce) (c : Bytes) : ¬ (salt.1 ++ (nonce.1 ++ c)).length < 28 := by
  simp only [List.length_append, salt.2, nonce.2]
  omega

theorem openSalted_append (hk : newCipher key = some key) (salt : Salt) (nonce : Nonce) (c : Bytes) :
    openSalted A log (salt.1 ++ (nonce.1 ++ c)) key = gcmOpen A log key nonce.1 c := by
  unfold openSalted
  simp only [if_neg (not_short salt nonce c), hk, cut?_nonce, cut?_ciphertext]
  rfl

theorem gcmOpen_isSome (nonce : Nonce) (c : Bytes) : (gcmOpen A log key nonce.1 c).isSome := by
  rw [gcmOpen, Option.isSome_map]
  exact openIn_isSome nonce.2

theorem gcmOpen_eq_ok_iff (nonce : Nonce) {c : Bytes} :
    gcmOpen A log key nonce.1 c = some (.ok p) ↔ ⟨key, nonce.1, p⟩ ∈ log ∧ c = A.ciphertext key nonce.1 p := by
  rw [← openIn_eq_some_iff nonce.2, gcmOpen, Option.map_eq_some_iff]
  constructor
  · rintro ⟨- | q, hq, h⟩
    · exact absurd h (by simp)
    · rw [hq, show q = p by simpa using h]
  · intro h
    exact ⟨some p, h, rfl⟩

/-- The bytes are a salt, a nonce and the ciphertext of a message in the log, under the key for that salt. -/
def Holds (A : Scheme) (log : Log) (data : Bytes) (keyOf : Bytes → Bytes) (p : Bytes) : Prop :=
  ∃ (salt : Salt) (nonce : Nonce), ⟨keyOf salt.1, nonce.1, p⟩ ∈ log ∧
    data = salt.1 ++ (nonce.1 ++ A.ciphertext (keyOf salt.1) nonce.1 p)

theorem Holds.length_eq {keyOf : Bytes → Bytes} (h : Holds A log data keyOf p) : data.length = p.length + 44 := by
  obtain ⟨salt, nonce, -, rfl⟩ := h
  simp only [List.length_append, salt.2, nonce.2, A.length_ciphertext]
  omega

theorem openSalted_isSome (A : Scheme) (log : Log) (data key : Bytes) : (openSalted A log data key).isSome := by
  by_cases h : data.length < 28
  · simp [openSalted, h]
  cases hk : newCipher key with
  | none => simp [openSalted, h, hk]
  | some k =>
    obtain rfl := newCipher_eq_some hk
    obtain ⟨salt, nonce, c, rfl, hs, hn⟩ := exists_parts (m := 16) (n := 12) (Nat.not_lt.mp h)
    rw [openSalted_append hk ⟨salt, hs⟩ ⟨nonce, hn⟩]
    exact gcmOpen_isSome ⟨nonce, hn⟩ c

theorem openSalted_eq_ok_iff :
    openSalted A log data key = some (.ok p) ↔ newCipher key = some key ∧ Holds A log data (fun _ => key) p := by
  constructor
  · intro h
    have hlen : ¬ data.length < 28 := fun hlt => by simp [openSalted, hlt] at h
    cases hk : newCipher key with
    | none => simp [openSalted, hlen, hk] at h
    | some k =>
      obtain rfl := newCipher_eq_some hk
      obtain ⟨salt, nonce, c, rfl, hs, hn⟩ := exists_parts (m := 16) (n := 12) (Nat.not_lt.mp hlen)
      rw [openSalted_append hk ⟨salt, hs⟩ ⟨nonce, hn⟩] at h
      obtain ⟨hmem, rfl⟩ := (gcmOpen_eq_ok_iff ⟨nonce, hn⟩).mp h
      exact ⟨rfl, ⟨salt, hs⟩, ⟨nonce, hn⟩, hmem, rfl⟩
  · rintro ⟨hk, salt, nonce, hmem, rfl⟩
    rw [openSalted_append hk salt nonce]
    exact (gcmOpen_eq_ok_iff nonce).mpr ⟨hmem, rfl⟩

theorem decrypt_append (password : Bytes) (salt : Salt) (nonce : Nonce) (c : Bytes) :
    decrypt A kdf log (salt.1 ++ (nonce.1 ++ c)) password = gcmOpen A log (kdf.key password salt.1) nonce.1 c := by
  have hsalt : cut? (salt.1 ++ (nonce.1 ++ c)) 0 16 = some salt.1 := cut?_left salt.2
  have hk : newCipher (kdf.key password salt.1) = some (kdf.key password salt.1) :=
    newCipher_of_length (kdf.length_key ..)
  unfold decrypt
  rw [if_neg (not_short salt nonce c), hsalt]
  simp only [Option.bind_eq_bind, Option.bind_some, hk, if_neg (not_short salt nonce c), cut?_nonce, cut?_ciphertext]

theorem decrypt_isSome (A : Scheme) (kdf : Pbkdf2) (log : Log) (data password : Bytes) :
    (decrypt A kdf log data password).isSome := by
  by_cases h : data.length < 16 + 12
  · simp [decrypt, h]
  obtain ⟨salt, nonce, c, rfl, hs, hn⟩ := exists_parts (Nat.not_lt.mp h)
  rw [decrypt_append password ⟨salt, hs⟩ ⟨nonce, hn⟩]
  exact gcmOpen_isSome ⟨nonce, hn⟩ c

theorem decrypt_eq_ok_iff {password : Bytes} :
    decrypt A kdf log data password = some (.ok p) ↔ Holds A log data (kdf.key password) p := by
  constructor
  · intro h
    have hlen : ¬ data.length < 16 + 12 := fun hlt => by simp [decrypt, hlt] at h
    obtain ⟨salt, nonce, c, rfl, hs, hn⟩ := exists_parts (Nat.not_lt.mp hlen)
    rw [decrypt_append password ⟨salt, hs⟩ ⟨nonce, hn⟩] at h
    obtain ⟨hmem, rfl⟩ := (gcmOpen_eq_ok_iff ⟨nonce, hn⟩).mp h
    exact ⟨⟨salt, hs⟩, ⟨nonce, hn⟩, hmem, rfl⟩
  · rintro ⟨salt, nonce, hmem, rfl⟩
    rw [decrypt_append]
    exact (gcmOpen_eq_ok_iff nonce).mpr ⟨hmem, rfl⟩

theorem decryptSSHPrivateKey_isSome (A : Scheme) (log : Log) (key encoded : Bytes) :
    (decryptSSHPrivateKey A log key encoded).isSome := by
  unfold decryptSSHPrivateKey
  cases Base64.decode true (Base64.chars encoded) with
  | none => rfl
  | some data => exact openSalted_isSome A log data key

theorem decryptSSHPrivateKey_eq_ok_iff {encoded : Bytes} :
    decryptSSHPrivateKey A log key encoded = some (.ok p) ↔ newCipher key = some key ∧
      ∃ data, Base64.decode true (Base64.chars encoded) = some data ∧ Holds A log data (fun _ => key) p := by
  unfold decryptSSHPrivateKey
  cases Base64.decode true (Base64.chars encoded) with
  | none => simp
  | some data => simpa using openSalted_eq_ok_iff

/-! ## Tokens -/

theorem chars_sign (mac : Bytes → Bytes → Bytes) (data key : Bytes) :
    Base64.chars (sign mac data key) = Base64.encodeUrl data ++ '.' :: Base64.encodeUrl (mac key data) := by
  apply Base64.chars_bytes
  intro c hc
  rcases List.mem_append.mp hc with hc | hc
  · exact Base64.toNat_lt_of_mem_encodeUrl data c hc
  · rcases List.mem_cons.mp hc with rfl | hc
    · decide
    · exact Base64.toNat_lt_of_mem_encodeUrl _ c hc

theorem unsign_sign (mac : Bytes → Bytes → Bytes) (data key : Bytes) :
    unsign mac (sign mac data key) key = .ok data := by
  have hdot : '.' ∉ Base64.encodeUrl data := fun h => (Base64.forall_mem_encodeUrl data _ h).2.2 rfl
  unfold unsign
  rw [chars_sign, Text.splitN_append '.' 0 hdot]
  simp [Text.splitN, Base64.decodeUrl_encodeUrl]

/-- A token that is accepted has its data and their code in the encoding of `sign`. -/
theorem unsign_eq_ok {token : Bytes} (h : unsign mac token key = .ok data) :
    ∃ a b, Text.splitN '.' 2 (Base64.chars token) = [a, b] ∧ Base64.decodeUrl a = some data ∧
      Base64.decodeUrl b = some (mac key data) := by
  unfold unsign at h
  split at h
  · next a b hsplit =>
    split at h
    · next d sig hd hsig =>
      split at h
      · next hmac =>
        obtain rfl := Except.ok.inj h
        exact ⟨a, b, hsplit, hd, hmac ▸ hsig⟩
      · exact absurd h (by simp)
    · exact absurd h (by simp)
  · exact absurd h (by simp)

/-! ## Columns -/

/-- The text is tagged and holds a message of the log, in base64. -/
def Tagged (A : Scheme) (log : Log) (key stored p : Bytes) : Prop :=
  secretPrefix <+: stored ∧ ∃ nonce : Nonce, ⟨key, nonce.1, p⟩ ∈ log ∧
    Base64.decode false (Base64.chars (stored.drop secretPrefix.length)) = some (nonce.1 ++ A.ciphertext key nonce.1 p)

theorem chars_encode (pad : Bool) (bs : Bytes) :
    Base64.chars (Base64.bytes (Base64.encode pad bs)) = Base64.encode pad bs :=
  Base64.chars_bytes (Base64.toNat_lt_of_mem_encode pad bs)

theorem ne_nil_of_newCipher (hk : newCipher key = some key) : key ≠ [] := by
  rintro rfl
  exact absurd hk (by decide)

theorem decryptSecret_of_tagged (hk : newCipher key = some key) {stored : Bytes} (h : Tagged A log key stored p) :
    decryptSecret A log key stored = some p := by
  obtain ⟨htag, nonce, hmem, hraw⟩ := h
  have hne : stored ≠ [] := by
    rintro rfl
    exact absurd (List.prefix_nil.mp htag) (by decide)
  have hlen : ¬ (nonce.1 ++ A.ciphertext key nonce.1 p).length < 12 := by
    simp [List.length_append, nonce.2]
  have hopen : A.openIn log key nonce.1 (A.ciphertext key nonce.1 p) = some (some p) :=
    (openIn_eq_some_iff nonce.2).mpr ⟨hmem, rfl⟩
  unfold decryptSecret
  rw [if_neg (by simp [hne, ne_nil_of_newCipher hk, htag])]
  simp only [hraw, hk, if_neg hlen, cut?_left nonce.2, cut?_right nonce.2, Option.bind_eq_bind, Option.bind_some, hopen]

/-- The stored text passes through, or it is tagged and opens. -/
theorem decryptSecret_cases (A : Scheme) (log : Log) (key stored : Bytes) :
    decryptSecret A log key stored = some stored ∨
      ∃ p, newCipher key = some key ∧ Tagged A log key stored p ∧ decryptSecret A log key stored = some p := by
  by_cases hpass : stored = [] ∨ key = [] ∨ ¬ secretPrefix <+: stored
  · exact .inl (by simp [decryptSecret, hpass])
  cases hraw : Base64.decode false (Base64.chars (stored.drop secretPrefix.length)) with
  | none => exact .inl (by simp [decryptSecret, hraw])
  | some raw =>
    cases hk : newCipher key with
    | none => exact .inl (by simp [decryptSecret, hraw, hk])
    | some k =>
      obtain rfl := newCipher_eq_some hk
      by_cases hlen : raw.length < 12
      · exact .inl (by simp [decryptSecret, hraw, hk, hlen])
      obtain ⟨nonce, rest, c, rfl, hn, hrest⟩ := exists_parts (m := 12) (n := 0) (Nat.not_lt.mp hlen)
      obtain rfl := List.length_eq_zero_iff.mp hrest
      rw [List.nil_append] at hraw hlen
      have heq : decryptSecret A log k stored = (A.openIn log k nonce c).bind fun
          | none => some stored
          | some plain => some plain := by
        unfold decryptSecret
        rw [if_neg hpass]
        simp only [hraw, hk, if_neg hlen, cut?_left hn, cut?_right hn, Option.bind_eq_bind, Option.bind_some]
      obtain ⟨r, hr⟩ := Option.isSome_iff_exists.mp (@openIn_isSome A log k nonce c hn)
      cases r with
      | none => exact .inl (by rw [heq, hr]; rfl)
      | some p =>
        obtain ⟨hmem, rfl⟩ := (openIn_eq_some_iff hn).mp hr
        exact .inr ⟨p, rfl, ⟨not_not.mp fun h => hpass (.inr (.inr h)), ⟨nonce, hn⟩, hmem, hraw⟩, by rw [heq, hr]; rfl⟩

theorem decryptSecret_eq_iff {stored : Bytes} :
    decryptSecret A log key stored = some stored ↔
      ¬ ∃ other ≠ stored, newCipher key = some key ∧ Tagged A log key stored other := by
  constructor
  · rintro h ⟨other, hne, hk, htag⟩
    rw [decryptSecret_of_tagged hk htag] at h
    exact hne (Option.some.inj h)
  · intro h
    rcases decryptSecret_cases A log key stored with hpass | ⟨p, hk, htag, hp⟩
    · exact hpass
    · by_cases hps : p = stored
      · rw [hp, hps]
      · exact absurd ⟨p, hps, hk, htag⟩ h

/-- A store has no key, or one that makes a cipher. -/
theorem installed_cases (keys : List Bytes) :
    installed keys = [] ∨ newCipher (installed keys) = some (installed keys) := by
  unfold installed
  induction keys using List.reverseRecOn with
  | nil => exact .inl rfl
  | append_singleton keys key ih =>
    rw [List.foldl_append]
    change setSecretKey _ key = [] ∨ newCipher (setSecretKey _ key) = some (setSecretKey _ key)
    unfold setSecretKey
    split
    · next h => exact .inr (newCipher_of_length h)
    · exact ih

/-! ## What has been sealed -/

theorem sealSalted_of_newCipher (A : Scheme) (log : Log) (hk : newCipher key = some key) (salt : Salt) (nonce : Nonce) :
    sealSalted A log p key salt nonce =
      .ok (salt.1 ++ (nonce.1 ++ A.ciphertext key nonce.1 p), ⟨key, nonce.1, p⟩ :: log) := by
  simp [sealSalted, hk, Scheme.sealIn]

theorem sealSalted_eq_ok {salt : Salt} {nonce : Nonce} {e : Bytes}
    (h : sealSalted A log p key salt nonce = .ok (e, log')) : log' = ⟨key, nonce.1, p⟩ :: log := by
  unfold sealSalted at h
  cases hk : newCipher key with
  | none => simp [hk] at h
  | some k =>
    obtain rfl := newCipher_eq_some hk
    simp only [hk, Scheme.sealIn, Except.ok.injEq, Prod.mk.injEq] at h
    exact h.2.symm

/-- A call seals what it encodes, or nothing. -/
theorem perform_eq_ok {c : Call} {e : Bytes} (h : perform A kdf log c = .ok (e, log')) :
    log' = log ∨ ∃ m : Message, log' = m :: log ∧ c.Encodes kdf m.key m.plain := by
  cases c with
  | encrypt plaintext password salt nonce => exact .inr ⟨_, sealSalted_eq_ok h, rfl, rfl⟩
  | encryptSigned plaintext key salt nonce => exact .inr ⟨_, sealSalted_eq_ok h, rfl, rfl⟩
  | encryptSSHPrivateKey key plaintext salt nonce =>
    simp only [perform, encryptSSHPrivateKey] at h
    split at h
    · exact absurd h (by simp)
    · next out log'' hseal =>
      obtain ⟨-, rfl⟩ := Prod.mk.inj (Except.ok.inj h)
      exact .inr ⟨_, sealSalted_eq_ok hseal, rfl, rfl⟩
  | encryptSecret secretKey plain nonce =>
    simp only [perform, encryptSecret] at h
    split at h
    · exact .inl (Prod.mk.inj (Except.ok.inj h)).2.symm
    · split at h
      · exact absurd h (by simp)
      · next k hk =>
        obtain rfl := newCipher_eq_some hk
        exact .inr ⟨_, (Prod.mk.inj (Except.ok.inj h)).2.symm, rfl, rfl⟩

/-- The value has been encoded under the key by one of the calls. -/
def Encoded (kdf : Pbkdf2) (calls : List Call) (key value : Bytes) : Prop := ∃ c ∈ calls, c.Encodes kdf key value

theorem after_cases (A : Scheme) (kdf : Pbkdf2) (log : Log) (c : Call) :
    after A kdf log c = log ∨ ∃ m : Message, after A kdf log c = m :: log ∧ c.Encodes kdf m.key m.plain := by
  unfold after
  split
  · exact .inl rfl
  · next h => exact perform_eq_ok h

theorem subset_run (A : Scheme) (kdf : Pbkdf2) (log : Log) (calls : List Call) : log ⊆ run A kdf log calls := by
  induction calls generalizing log with
  | nil => exact List.Subset.refl log
  | cons c calls ih =>
    apply List.Subset.trans _ (ih (after A kdf log c))
    rcases after_cases A kdf log c with h | ⟨m, h, -⟩
    · rw [h]
      exact List.Subset.refl log
    · rw [h]
      exact List.subset_cons_self m log

theorem mem_run {m : Message} (h : m ∈ run A kdf log calls) : m ∈ log ∨ Encoded kdf calls m.key m.plain := by
  induction calls generalizing log with
  | nil => exact .inl h
  | cons c calls ih =>
    rcases ih h with hlog | ⟨c', hc', henc⟩
    · rcases after_cases A kdf log c with heq | ⟨m', heq, henc⟩
      · exact .inl (heq ▸ hlog)
      · rw [heq] at hlog
        rcases List.mem_cons.mp hlog with rfl | hlog
        · exact .inr ⟨c, List.mem_cons_self .., henc⟩
        · exact .inl hlog
    · exact .inr ⟨c', List.mem_cons_of_mem c hc', henc⟩

theorem encoded_of_mem_run {m : Message} (h : m ∈ run A kdf [] calls) : Encoded kdf calls m.key m.plain :=
  (mem_run h).resolve_left List.not_mem_nil

/-! ## All four -/

/-- Under a key that makes a cipher, what is encoded is given back from then on. -/
def Inverts (A : Scheme) (kdf : Pbkdf2) (key : Bytes) (enc : Log → Bytes → Except Err (Bytes × Log))
    (dec : Log → Bytes → Option (Except Err Bytes)) : Prop :=
  ∀ log value, newCipher key ≠ none → ∃ e log', enc log value = .ok (e, log') ∧
    ∀ calls, dec (run A kdf log' calls) e = some (.ok value)

theorem inverts_sealSalted (A : Scheme) (kdf : Pbkdf2) (key : Bytes) (salt : Salt) (nonce : Nonce) :
    Inverts A kdf key (fun log p => sealSalted A log p key salt nonce) (fun log e => openSalted A log e key) := by
  intro log p hne
  obtain ⟨k, hk⟩ := Option.ne_none_iff_exists'.mp hne
  obtain rfl := newCipher_eq_some hk
  refine ⟨_, _, sealSalted_of_newCipher A log hk salt nonce, fun calls => ?_⟩
  exact openSalted_eq_ok_iff.mpr ⟨hk, salt, nonce, subset_run A kdf _ calls (List.mem_cons_self ..), rfl⟩

theorem inverts_encrypt (A : Scheme) (kdf : Pbkdf2) (password : Bytes) (salt : Salt) (nonce : Nonce) :
    Inverts A kdf (kdf.key password salt.1) (fun log p => encrypt A kdf log p password salt nonce)
      (fun log e => decrypt A kdf log e password) := by
  intro log p _
  have hk := newCipher_of_length (kdf.length_key password salt.1)
  refine ⟨_, _, sealSalted_of_newCipher A log hk salt nonce, fun calls => ?_⟩
  exact decrypt_eq_ok_iff.mpr ⟨salt, nonce, subset_run A kdf _ calls (List.mem_cons_self ..), rfl⟩

theorem inverts_session (A : Scheme) (kdf : Pbkdf2) (mac : Bytes → Bytes → Bytes) (key : Bytes) (salt : Salt)
    (nonce : Nonce) :
    Inverts A kdf key (fun log p => sealSession A mac log p key salt nonce) (fun log e => openSession A mac log e key) := by
  intro log p hne
  obtain ⟨e, log', henc, hdec⟩ := inverts_sealSalted A kdf key salt nonce log (sign mac p key) hne
  refine ⟨e, log', henc, fun calls => ?_⟩
  have hsigned : decryptSigned A (run A kdf log' calls) e key = some (.ok (sign mac p key)) := hdec calls
  simp only [openSession, hsigned, Option.map_some]
  exact congrArg some (unsign_sign mac p key)

theorem inverts_encryptSSHPrivateKey (A : Scheme) (kdf : Pbkdf2) (key : Bytes) (salt : Salt) (nonce : Nonce) :
    Inverts A kdf key (fun log p => encryptSSHPrivateKey A log key p salt nonce)
      (fun log e => decryptSSHPrivateKey A log key e) := by
  intro log p hne
  obtain ⟨e, log', henc, hdec⟩ := inverts_sealSalted A kdf key salt nonce log p hne
  refine ⟨Base64.bytes (Base64.encode true e), log', ?_, fun calls => ?_⟩
  · simp only [encryptSSHPrivateKey]
    rw [show sealSalted A log p key salt nonce = .ok (e, log') from henc]
  · simp only [decryptSSHPrivateKey, chars_encode, Base64.decode_encode]
    exact hdec calls

theorem decryptSecret_encryptSecret (A : Scheme) (kdf : Pbkdf2) (log : Log) (plain : Bytes) (nonce : Nonce)
    (hkey : key = [] ∨ newCipher key = some key) :
    ∃ e log', encryptSecret A log key plain nonce = .ok (e, log') ∧
      ∀ calls, decryptSecret A (run A kdf log' calls) key e = some plain := by
  by_cases hpass : plain = [] ∨ key = []
  · refine ⟨plain, log, by simp only [encryptSecret, if_pos hpass], fun calls => ?_⟩
    unfold decryptSecret
    rw [if_pos (hpass.imp_right .inl)]
  have hk := hkey.resolve_left fun h => hpass (.inr h)
  refine ⟨secretPrefix ++ Base64.bytes (Base64.encode false (nonce.1 ++ A.ciphertext key nonce.1 plain)),
    ⟨key, nonce.1, plain⟩ :: log, by simp only [encryptSecret, if_neg hpass, hk, Scheme.sealIn], fun calls => ?_⟩
  apply decryptSecret_of_tagged hk
  refine ⟨List.prefix_append .., nonce, subset_run A kdf _ calls (List.mem_cons_self ..), ?_⟩
  rw [List.drop_left, chars_encode, Base64.decode_encode]

/-- Every decoder inverts its encoder, does not panic and gives back only what was encoded under its key. -/
structure Envelopes (A : Scheme) (kdf : Pbkdf2) (mac : Bytes → Bytes → Bytes) : Prop where
  encrypt : ∀ password salt nonce, Inverts A kdf (kdf.key password salt.1)
    (fun log p => encrypt A kdf log p password salt nonce) (fun log e => decrypt A kdf log e password)
  sign : ∀ data key, unsign mac (sign mac data key) key = .ok data
  encryptSigned : ∀ key salt nonce, Inverts A kdf key
    (fun log p => encryptSigned A log p key salt nonce) (fun log e => decryptSigned A log e key)
  session : ∀ key salt nonce, Inverts A kdf key
    (fun log p => sealSession A mac log p key salt nonce) (fun log e => openSession A mac log e key)
  encryptSSHPrivateKey : ∀ key salt nonce, Inverts A kdf key
    (fun log p => encryptSSHPrivateKey A log key p salt nonce) (fun log e => decryptSSHPrivateKey A log key e)
  encryptSecret : ∀ keys log plain nonce,
    ∃ e log', encryptSecret A log (installed keys) plain nonce = .ok (e, log') ∧
      ∀ calls, decryptSecret A (run A kdf log' calls) (installed keys) e = some plain
  /-- A text that was stored without a key is read back unless it is itself an encoding of another text. -/
  storedBefore : ∀ log plain nonce, Crypto.encryptSecret A log [] plain nonce = .ok (plain, log) ∧
    ∀ calls key, decryptSecret A (run A kdf log calls) key plain = some plain ↔
      ¬ ∃ other ≠ plain, newCipher key = some key ∧ Tagged A (run A kdf log calls) key plain other
  isSome : ∀ log data key, (decrypt A kdf log data key).isSome ∧ (decryptSigned A log data key).isSome ∧
    (openSession A mac log data key).isSome ∧ (decryptSSHPrivateKey A log key data).isSome ∧
    (decryptSecret A log key data).isSome
  decrypt_sound : ∀ calls data password p, decrypt A kdf (run A kdf [] calls) data password = some (.ok p) →
    data.length = p.length + 44 ∧ ∃ salt : Salt, salt.1 <+: data ∧ Encoded kdf calls (kdf.key password salt.1) p
  decryptSigned_sound : ∀ calls data key p, decryptSigned A (run A kdf [] calls) data key = some (.ok p) →
    data.length = p.length + 44 ∧ Encoded kdf calls key p
  unsign_sound : ∀ token data key, unsign mac token key = .ok data →
    ∃ a b, Text.splitN '.' 2 (Base64.chars token) = [a, b] ∧ Base64.decodeUrl a = some data ∧
      Base64.decodeUrl b = some (mac key data)
  session_sound : ∀ calls key e data, openSession A mac (run A kdf [] calls) e key = some (.ok data) →
    ∃ token, Encoded kdf calls key token ∧ unsign mac token key = .ok data ∧
      ∀ d, token = Crypto.sign mac d key → d = data
  decryptSSHPrivateKey_sound : ∀ calls encoded key p,
    decryptSSHPrivateKey A (run A kdf [] calls) key encoded = some (.ok p) → Encoded kdf calls key p
  decryptSecret_sound : ∀ calls stored key p, decryptSecret A (run A kdf [] calls) key stored = some p →
    p = stored ∨ Encoded kdf calls key p

theorem decryptSecret_isSome (A : Scheme) (log : Log) (key stored : Bytes) : (decryptSecret A log key stored).isSome := by
  rcases decryptSecret_cases A log key stored with h | ⟨p, -, -, h⟩ <;> simp [h]

theorem decryptSigned_sound (h : decryptSigned A (run A kdf [] calls) data key = some (.ok p)) :
    data.length = p.length + 44 ∧ Encoded kdf calls key p := by
  obtain ⟨-, hholds⟩ := openSalted_eq_ok_iff.mp h
  refine ⟨hholds.length_eq, ?_⟩
  obtain ⟨salt, nonce, hmem, -⟩ := hholds
  exact encoded_of_mem_run hmem

theorem session_sound {e : Bytes} (h : openSession A mac (run A kdf [] calls) e key = some (.ok data)) :
    ∃ token, Encoded kdf calls key token ∧ unsign mac token key = .ok data ∧
      ∀ d, token = sign mac d key → d = data := by
  obtain ⟨signed, hsigned, hdata⟩ := Option.map_eq_some_iff.mp h
  cases signed with
  | error err => exact absurd hdata (by simp [Except.bind])
  | ok token =>
    have hunsign : unsign mac token key = .ok data := hdata
    refine ⟨token, (decryptSigned_sound hsigned).2, hunsign, ?_⟩
    rintro d rfl
    rw [unsign_sign] at hunsign
    exact Except.ok.inj hunsign

theorem envelopes (A : Scheme) (kdf : Pbkdf2) (mac : Bytes → Bytes → Bytes) : Envelopes A kdf mac where
  encrypt := inverts_encrypt A kdf
  sign := unsign_sign mac
  encryptSigned := inverts_sealSalted A kdf
  session := inverts_session A kdf mac
  encryptSSHPrivateKey := inverts_encryptSSHPrivateKey A kdf
  encryptSecret keys log plain nonce := decryptSecret_encryptSecret A kdf log plain nonce (installed_cases keys)
  storedBefore log plain nonce := by
    refine ⟨by simp [Crypto.encryptSecret], fun calls key => ?_⟩
    exact decryptSecret_eq_iff
  isSome log data key := by
    refine ⟨decrypt_isSome A kdf log data key, openSalted_isSome A log data key, ?_,
      decryptSSHPrivateKey_isSome A log key data, decryptSecret_isSome A log key data⟩
    rw [openSession, Option.isSome_map]
    exact openSalted_isSome A log data key
  decrypt_sound calls data password p h := by
    have hholds : Holds A (run A kdf [] calls) data (kdf.key password) p := decrypt_eq_ok_iff.mp h
    refine ⟨hholds.length_eq, ?_⟩
    obtain ⟨salt, nonce, hmem, rfl⟩ := hholds
    exact ⟨salt, List.prefix_append .., encoded_of_mem_run hmem⟩
  decryptSigned_sound calls data key p h := decryptSigned_sound h
  unsign_sound token data key h := unsign_eq_ok h
  session_sound calls key e data h := session_sound h
  decryptSSHPrivateKey_sound calls encoded key p h := by
    obtain ⟨-, data, -, salt, nonce, hmem, -⟩ := decryptSSHPrivateKey_eq_ok_iff.mp h
    exact encoded_of_mem_run hmem
  decryptSecret_sound calls stored key p h := by
    rcases decryptSecret_cases A (run A kdf [] calls) key stored with hpass | ⟨q, -, ⟨-, nonce, hmem, -⟩, hq⟩
    · exact .inl (Option.some.inj (h.symm.trans hpass))
    · obtain rfl := Option.some.inj (h.symm.trans hq)
      exact .inr (encoded_of_mem_run hmem)

end

/-! ## A text that is itself an encoding -/

/-- The ciphertext is the plaintext and a tag of zeros. -/
def clear : Scheme where
  ciphertext _ _ p := p ++ List.replicate 16 0
  length_ciphertext k n p := by simp
  ciphertext_injective k n p q h := by simpa using h

def zeros : Pbkdf2 where
  key _ _ := List.replicate 32 0
  length_key _ _ := List.length_replicate ..

/-- What `encryptSecret` makes of `x` under the key of zeros. -/
def encodedX : Bytes :=
  secretPrefix ++ Base64.bytes (Base64.encode false (List.replicate 12 0 ++ ([120] ++ List.replicate 16 0)))

/-- It is encoded, the key is taken away, the encoding is stored as a text, and the key is configured again. -/
theorem encoding_stored_before :
    let log := run clear zeros [] [.encryptSecret Db.zeroKey.1 [120] Db.zeroNonce]
    encryptSecret clear [] Db.zeroKey.1 [120] Db.zeroNonce = .ok (encodedX, log) ∧
      encryptSecret clear log [] encodedX Db.zeroNonce = .ok (encodedX, log) ∧
      decryptSecret clear log Db.zeroKey.1 encodedX = some [120] ∧ encodedX ≠ [120] := by
  decide +kernel

end OciHelper.Crypto
