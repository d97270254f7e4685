import OciHelper.Auth.Tokens
import OciHelper.Crypto.Envelopes
import OciHelper.Db.Search

/-!
# The envelopes on texts are those on bytes

* `textBytes` : the bytes of a text; what the decoders and the splitting of a token make of them (`decode_utf8`,
  `splitN_utf8`, `prefix_utf8_iff`);
* `Agrees` : a cipher on texts seals as a scheme does; `Unforged` : what opens has been sealed;
* `encryptSecret_text`, `decryptSecret_text`, `encryptSSHPrivateKey_text`, `decryptSSHPrivateKey_text` : the columns of
  `Db.Secrets` are the ones of `Envelopes`;
* `sign_text`, `unsign_text`, `encryptSigned_text`, `openSession_text` : so are the tokens of `Auth.Tokens`.
-/

namespace OciHelper.Crypto
open OciHelper.Db (Gcm Key Nonce Salt)
open Db.Search (utf8)
open Aead Slices

/-! ## ASCII and UTF-8 -/

theorem utf8_cons (c : Char) (s : List Char) : utf8 (c :: s) = String.utf8EncodeChar c ++ utf8 s := List.flatMap_cons

theorem utf8_append (s t : List Char) : utf8 (s ++ t) = utf8 s ++ utf8 t := List.flatMap_append

theorem utf8EncodeChar_ascii {c : Char} (h : c.toNat < 128) : String.utf8EncodeChar c = [UInt8.ofNat c.toNat] := by
  have hle : c.val.toNat ≤ 0x7f := Nat.le_of_lt_succ h
  unfold String.utf8EncodeChar
  exact if_pos hle

theorem utf8_ascii {s : List Char} (h : ∀ c ∈ s, c.toNat < 128) : utf8 s = Base64.bytes s := by
  induction s with
  | nil => rfl
  | cons c s ih =>
    obtain ⟨hc, hs⟩ := List.forall_mem_cons.mp h
    rw [utf8_cons, utf8EncodeChar_ascii hc, ih hs]
    rfl

/-- All bytes of a character that is not ASCII have the highest bit. -/
theorem le_of_mem_utf8EncodeChar {c : Char} (h : 128 ≤ c.toNat) : ∀ b ∈ String.utf8EncodeChar c, 128 ≤ b.toNat := by
  have hhigh : ∀ n : Nat, 128 ≤ n → n < 256 → 128 ≤ (UInt8.ofNat n).toNat := fun n hle hlt =>
    le_of_le_of_eq hle (UInt8.toNat_ofNat_of_lt' hlt).symm
  have hc : c.val.toNat = c.toNat := rfl
  unfold String.utf8EncodeChar
  dsimp only
  rw [hc, if_neg (by omega)]
  split
  · simp only [List.forall_mem_cons, List.not_mem_nil, false_imp_iff, implies_true, and_true]
    exact ⟨hhigh _ (by omega) (by omega), hhigh _ (by omega) (by omega)⟩
  · split
    · simp only [List.forall_mem_cons, List.not_mem_nil, false_imp_iff, implies_true, and_true]
      exact ⟨hhigh _ (by omega) (by omega), hhigh _ (by omega) (by omega), hhigh _ (by omega) (by omega)⟩
    · simp only [List.forall_mem_cons, List.not_mem_nil, false_imp_iff, implies_true, and_true]
      exact ⟨hhigh _ (by omega) (by omega), hhigh _ (by omega) (by omega), hhigh _ (by omega) (by omega),
        hhigh _ (by omega) (by omega)⟩

theorem toNat_charOfByte (b : UInt8) : (Char.ofNat b.toNat).toNat = b.toNat := by
  have hlt := b.toNat_lt
  have hvalid : b.toNat.isValidChar := .inl (by omega)
  rw [Char.ofNat, dif_pos hvalid]
  rfl

theorem chars_utf8_ascii {s : List Char} (h : ∀ c ∈ s, c.toNat < 128) : Base64.chars (utf8 s) = s := by
  rw [utf8_ascii h]
  exact Base64.chars_bytes fun c hc => (h c hc).trans (by decide)

/-- An ASCII character of the bytes is one of the text. -/
theorem mem_of_mem_chars_utf8 {c : Char} (hc : c.toNat < 128) {s : List Char} (h : c ∈ Base64.chars (utf8 s)) :
    c ∈ s := by
  obtain ⟨b, hb, rfl⟩ := List.mem_map.mp h
  obtain ⟨d, hd, hbd⟩ := List.mem_flatMap.mp hb
  rw [toNat_charOfByte] at hc
  by_cases hd128 : d.toNat < 128
  · rw [utf8EncodeChar_ascii hd128, List.mem_singleton] at hbd
    have hd' : Char.ofNat b.toNat = d := by
      rw [hbd, UInt8.toNat_ofNat_of_lt' (hd128.trans (by decide)), Char.ofNat_toNat]
    exact hd' ▸ hd
  · have := le_of_mem_utf8EncodeChar (Nat.not_lt.mp hd128) b hbd
    omega

/-- A decoder of ASCII decodes the bytes of a text as the text. -/
theorem decoder_utf8 {β : Type} {f : List Char → Option β} (hf : ∀ s b, f s = some b → ∀ c ∈ s, c.toNat < 128)
    (s : List Char) : f (Base64.chars (utf8 s)) = f s := by
  by_cases h : ∀ c ∈ s, c.toNat < 128
  · rw [chars_utf8_ascii h]
  · push Not at h
    obtain ⟨c, hc, hle⟩ := h
    have hnone : f s = none := by
      cases hs : f s with
      | none => rfl
      | some b => exact absurd (hf s b hs c hc) (Nat.not_lt.mpr hle)
    obtain ⟨b, hb⟩ := List.exists_mem_of_ne_nil _ (@String.utf8EncodeChar_ne_nil c)
    have hmem : Char.ofNat b.toNat ∈ Base64.chars (utf8 s) := List.mem_map_of_mem (List.mem_flatMap.mpr ⟨c, hc, hb⟩)
    rw [hnone]
    cases hs : f (Base64.chars (utf8 s)) with
    | none => rfl
    | some out =>
      have hlt := hf _ out hs _ hmem
      rw [toNat_charOfByte] at hlt
      have := le_of_mem_utf8EncodeChar hle b hb
      omega

theorem decode_utf8 (pad : Bool) (s : List Char) : Base64.decode pad (Base64.chars (utf8 s)) = Base64.decode pad s :=
  decoder_utf8 (fun _ _ h => Base64.toNat_lt_of_decode h) s

theorem decodeUrl_utf8 (s : List Char) : Base64.decodeUrl (Base64.chars (utf8 s)) = Base64.decodeUrl s :=
  decoder_utf8 (fun _ _ h => Base64.toNat_lt_of_decodeUrl h) s

/-- A text is cut at an ASCII separator where its bytes are. -/
theorem splitN_utf8 {sep : Char} (hsep : sep.toNat < 128) (n : Nat) (s : List Char) :
    Text.splitN sep n (Base64.chars (utf8 s)) = (Text.splitN sep n s).map fun part => Base64.chars (utf8 part) := by
  induction n generalizing s with
  | zero => rfl
  | succ n ih =>
    by_cases hmem : sep ∈ s
    · cases n with
      | zero => rfl
      | succ n =>
        obtain ⟨a, b, rfl, ha⟩ := List.eq_append_cons_of_mem hmem
        have hbytes : Base64.chars (utf8 (a ++ sep :: b)) =
            Base64.chars (utf8 a) ++ sep :: Base64.chars (utf8 b) := by
          rw [utf8_append, utf8_cons, utf8EncodeChar_ascii hsep]
          simp only [Base64.chars, List.map_append, List.map_cons, List.singleton_append,
            UInt8.toNat_ofNat_of_lt' (hsep.trans (by decide : 128 < 256)), Char.ofNat_toNat]
        rw [hbytes, Text.splitN_append sep n ha, Text.splitN_append sep n (mt (mem_of_mem_chars_utf8 hsep) ha), ih,
          List.map_cons]
    · rw [Text.splitN_of_notMem sep n hmem, Text.splitN_of_notMem sep n (mt (mem_of_mem_chars_utf8 hsep) hmem)]
      rfl

theorem prefix_utf8_iff {p : List Char} (hp : ∀ c ∈ p, c.toNat < 128) (s : List Char) :
    Base64.bytes p <+: utf8 s ↔ p <+: s := by
  constructor
  · intro h
    induction p generalizing s with
    | nil => exact List.nil_prefix
    | cons c p ih =>
      obtain ⟨hc, hp⟩ := List.forall_mem_cons.mp hp
      cases s with
      | nil => exact absurd (List.prefix_nil.mp h) (List.cons_ne_nil _ _)
      | cons d s =>
        rw [utf8_cons] at h
        by_cases hd : d.toNat < 128
        · rw [utf8EncodeChar_ascii hd] at h
          obtain ⟨hcd, hrest⟩ := List.cons_prefix_cons.mp h
          have hnat := congrArg UInt8.toNat hcd
          rw [UInt8.toNat_ofNat_of_lt' (hc.trans (by decide)), UInt8.toNat_ofNat_of_lt' (hd.trans (by decide))] at hnat
          exact List.cons_prefix_cons.mpr ⟨Char.toNat_inj.mp hnat, ih hp s hrest⟩
        · obtain ⟨b, bs, hbs⟩ := List.exists_cons_of_ne_nil (@String.utf8EncodeChar_ne_nil d)
          have hhigh := le_of_mem_utf8EncodeChar (Nat.not_lt.mp hd) b (hbs ▸ List.mem_cons_self ..)
          rw [hbs] at h
          have hcb := (List.cons_prefix_cons.mp h).1
          rw [← hcb, UInt8.toNat_ofNat_of_lt' (hc.trans (by decide))] at hhigh
          omega
  · rintro ⟨t, rfl⟩
    rw [utf8_append, utf8_ascii hp]
    exact List.prefix_append _ _

/-! ## Texts -/

def textBytes (s : String) : Bytes := utf8 s.toList

theorem textBytes_eq_nil_iff (s : String) : textBytes s = [] ↔ s = "" := by
  rw [textBytes, utf8, List.flatMap_eq_nil_iff]
  constructor
  · intro h
    cases hs : s.toList with
    | nil => exact String.toList_eq_nil_iff.mp hs
    | cons c cs => exact absurd (h c (hs ▸ List.mem_cons_self ..)) String.utf8EncodeChar_ne_nil
  · rintro rfl c hc
    cases hc

theorem textBytes_ofList {s : List Char} (h : ∀ c ∈ s, c.toNat < 128) :
    textBytes (String.ofList s) = Base64.bytes s := by
  rw [textBytes, String.toList_ofList, utf8_ascii h]

/-! ## The two ciphers -/

/-- The cipher seals a text as the scheme seals its bytes, and nothing but texts has been sealed under the key. -/
structure Agrees (A : Scheme) (gcm : Gcm) (log : Log) (key : Key) : Prop where
  sealText : ∀ (nonce : Nonce) p, gcm.sealText key nonce.1 p = A.ciphertext key.1 nonce.1 (textBytes p)
  texts : ∀ m ∈ log, m.key = key.1 → ∃ p, m.plain = textBytes p

/-- What opens has been sealed. -/
def Unforged (gcm : Gcm) (log : Log) (key : Key) (nonce ciphertext : Bytes) : Prop :=
  ∀ p, gcm.openText key nonce ciphertext = some p →
    ⟨key.1, nonce, textBytes p⟩ ∈ log ∧ ciphertext = gcm.sealText key nonce p

section
variable {A : Scheme} {gcm : Gcm} {log : Log} {key : Key}

theorem Agrees.cons (h : Agrees A gcm log key) (k n : Bytes) (p : String) :
    Agrees A gcm (⟨k, n, textBytes p⟩ :: log) key where
  sealText := h.sealText
  texts m hm hk := by
    rcases List.mem_cons.mp hm with rfl | hm
    · exact ⟨p, rfl⟩
    · exact h.texts m hm hk

theorem Agrees.openIn (h : Agrees A gcm log key) (nonce : Nonce) {c : Bytes} (hc : Unforged gcm log key nonce.1 c) :
    A.openIn log key.1 nonce.1 c = some ((gcm.openText key nonce.1 c).map textBytes) := by
  cases hopen : gcm.openText key nonce.1 c with
  | some p =>
    obtain ⟨hmem, rfl⟩ := hc p hopen
    exact (openIn_eq_some_iff nonce.2).mpr ⟨hmem, h.sealText nonce p⟩
  | none =>
    obtain ⟨r, hr⟩ := Option.isSome_iff_exists.mp (@openIn_isSome A log key.1 nonce.1 c nonce.2)
    cases r with
    | none => exact hr
    | some q =>
      obtain ⟨hmem, rfl⟩ := (openIn_eq_some_iff nonce.2).mp hr
      obtain ⟨p, rfl⟩ := h.texts _ hmem rfl
      rw [← h.sealText, gcm.open_seal, if_pos rfl] at hopen
      cases hopen

theorem newCipher_key (key : Key) : newCipher key.1 = some key.1 := newCipher_of_length key.2

/-! ## Columns -/

/-- No key is the empty one. -/
def keyBytes : Option Key → Bytes
  | none => []
  | some k => k.1

theorem prefix_ascii : ∀ c ∈ Db.secretPrefix.toList, c.toNat < 128 := List.all_iff_forall_prop.mp (by decide)

theorem textBytes_tagged (nonce : Nonce) (plain : String) :
    textBytes (Db.tagged gcm key nonce plain) =
      secretPrefix ++ Base64.bytes (Base64.encode false (nonce.1 ++ gcm.sealText key nonce.1 plain)) := by
  rw [Db.tagged, textBytes, String.toList_append, utf8_append, utf8_ascii prefix_ascii, String.toList_ofList,
    utf8_ascii (Base64.toNat_lt_of_decode (Base64.decode_encode false _))]
  rfl

/-- The text that is stored is the same, and still only texts have been sealed under the key. -/
theorem encryptSecret_text {key : Option Key} (h : ∀ k ∈ key, Agrees A gcm log k) (nonce : Nonce) (plain : String) :
    ∃ log', encryptSecret A log (keyBytes key) (textBytes plain) nonce =
      .ok (textBytes (Db.encryptSecret gcm key nonce plain), log') ∧ ∀ k ∈ key, Agrees A gcm log' k := by
  cases key with
  | none => exact ⟨log, if_pos (.inr rfl), h⟩
  | some k =>
    by_cases hplain : plain = ""
    · refine ⟨log, ?_, h⟩
      rw [encryptSecret, if_pos (.inl ((textBytes_eq_nil_iff plain).mpr hplain)), Db.encryptSecret, if_pos hplain]
    · have hk := h k rfl
      have hne : ¬ (textBytes plain = [] ∨ k.1 = []) := by
        rw [textBytes_eq_nil_iff, not_or]
        exact ⟨hplain, ne_nil_of_newCipher (newCipher_key k)⟩
      refine ⟨⟨k.1, nonce.1, textBytes plain⟩ :: log, ?_, fun k' hk' => (h k' hk').cons _ _ _⟩
      rw [keyBytes, encryptSecret, if_neg hne, newCipher_key, Db.encryptSecret]
      dsimp only
      rw [if_neg hplain, textBytes_tagged, hk.sealText]
      rfl

/-- So is the text that is read. -/
theorem decryptSecret_text {key : Option Key} (h : ∀ k ∈ key, Agrees A gcm log k) (stored : String)
    (hopen : ∀ k ∈ key, ∀ raw, Base64.decode false (stored.toList.drop Db.secretPrefix.toList.length) = some raw →
      Unforged gcm log k (raw.take 12) (raw.drop 12)) :
    decryptSecret A log (keyBytes key) (textBytes stored) = some (textBytes (Db.decryptSecret gcm key stored)) := by
  cases key with
  | none => exact if_pos (.inr (.inl rfl))
  | some k =>
    have hpass : (textBytes stored = [] ∨ k.1 = [] ∨ ¬ secretPrefix <+: textBytes stored) ↔
        stored = "" ∨ ¬ Db.secretPrefix.toList <+: stored.toList := by
      have hkey : k.1 ≠ [] := ne_nil_of_newCipher (newCipher_key k)
      have hprefix := prefix_utf8_iff prefix_ascii stored.toList
      rw [textBytes_eq_nil_iff, textBytes]
      simp only [hkey, false_or]
      exact or_congr_right (not_congr hprefix)
    rw [keyBytes, decryptSecret, Db.decryptSecret]
    by_cases hplain : stored = "" ∨ ¬ Db.secretPrefix.toList <+: stored.toList
    · rw [if_pos hplain, if_pos (hpass.mpr hplain)]
    · rw [if_neg hplain, if_neg (mt hpass.mp hplain)]
      obtain ⟨rest, hrest⟩ := not_not.mp (not_or.mp hplain).2
      have hdrop : (textBytes stored).drop secretPrefix.length =
          utf8 (stored.toList.drop Db.secretPrefix.toList.length) := by
        rw [textBytes, ← hrest, List.drop_left, utf8_append, utf8_ascii prefix_ascii]
        exact List.drop_left
      rw [hdrop, decode_utf8]
      cases hraw : Base64.decode false (stored.toList.drop Db.secretPrefix.toList.length) with
      | none => rfl
      | some raw =>
        dsimp only
        rw [newCipher_key]
        dsimp only
        split
        · rfl
        · next hlen =>
          have hunforged := hopen k rfl raw hraw
          obtain ⟨nonce, rest', c, rfl, hn, hr⟩ := exists_parts (m := 12) (n := 0) (Nat.not_lt.mp hlen)
          obtain rfl := List.length_eq_zero_iff.mp hr
          rw [List.nil_append] at hunforged ⊢
          rw [List.take_left' hn, List.drop_left' hn] at hunforged ⊢
          simp only [cut?_left hn, cut?_right hn, Option.bind_eq_bind, Option.bind_some,
            (h k rfl).openIn ⟨nonce, hn⟩ hunforged]
          cases gcm.openText k nonce c <;> rfl

/-- The errors under the names of `Db.Secrets`. -/
def errOf : Db.CryptoError → Err
  | .decode => .wrapped "decode" .base64
  | .tooShort => .text "too short"
  | .authentication => .authentication

/-- As `decryptSigned` and `decryptSSHPrivateKey` open what has enough bytes. -/
theorem openSalted_text (h : Agrees A gcm log key) {data : Bytes}
    (hopen : Unforged gcm log key ((data.drop 16).take 12) (data.drop 28)) :
    openSalted A log data key.1 = some (if data.length < 28 then .error (errOf .tooShort)
      else match gcm.openText key ((data.drop 16).take 12) (data.drop 28) with
        | none => .error (errOf .authentication)
        | some plain => .ok (textBytes plain)) := by
  by_cases hlen : data.length < 28
  · rw [openSalted, if_pos hlen, if_pos hlen]
    rfl
  · obtain ⟨salt, nonce, c, rfl, hs, hn⟩ := exists_parts (m := 16) (n := 12) (Nat.not_lt.mp hlen)
    have hdrop : (salt ++ (nonce ++ c)).drop 28 = c := by
      rw [← List.append_assoc]
      exact List.drop_left' (by rw [List.length_append, hs, hn])
    rw [List.drop_left' hs, List.take_left' hn, hdrop] at hopen ⊢
    rw [if_neg hlen, openSalted_append (newCipher_key key) ⟨salt, hs⟩ ⟨nonce, hn⟩, gcmOpen,
      h.openIn ⟨nonce, hn⟩ hopen, Option.map_some]
    cases gcm.openText key nonce c <;> rfl

theorem encryptSSHPrivateKey_text (h : Agrees A gcm log key) (salt : Salt) (nonce : Nonce) (plain : String) :
    encryptSSHPrivateKey A log key.1 (textBytes plain) salt nonce =
      .ok (textBytes (Db.encryptSSHPrivateKey gcm key salt nonce plain),
        ⟨key.1, nonce.1, textBytes plain⟩ :: log) := by
  rw [encryptSSHPrivateKey, sealSalted_of_newCipher A log (newCipher_key key)]
  dsimp only
  rw [Db.encryptSSHPrivateKey, textBytes_ofList (Base64.toNat_lt_of_decode (Base64.decode_encode true _)),
    h.sealText, List.append_assoc]

theorem decryptSSHPrivateKey_text (h : Agrees A gcm log key) (encoded : String)
    (hopen : ∀ data, Base64.decode true encoded.toList = some data →
      Unforged gcm log key ((data.drop 16).take 12) (data.drop 28)) :
    decryptSSHPrivateKey A log key.1 (textBytes encoded) =
      some (match Db.decryptSSHPrivateKey gcm key encoded with
        | .error e => .error (errOf e)
        | .ok plain => .ok (textBytes plain)) := by
  rw [decryptSSHPrivateKey, textBytes, decode_utf8, Db.decryptSSHPrivateKey]
  cases hdata : Base64.decode true encoded.toList with
  | none => rfl
  | some data =>
    dsimp only
    rw [openSalted_text h (hopen data hdata)]
    split
    · rfl
    · cases gcm.openText key ((data.drop 16).take 12) (data.drop 28) <;> rfl

/-! ## Tokens -/

variable {mac : Bytes → Bytes → Bytes} {macText : Key → Bytes → Bytes}

theorem sign_text (hmac : ∀ d, mac key.1 d = macText key d) (data : Bytes) :
    sign mac data key.1 = textBytes (Auth.sign macText key data) := by
  have hascii : ∀ c ∈ Base64.encodeUrl data ++ '.' :: Base64.encodeUrl (macText key data), c.toNat < 128 := by
    intro c hc
    rcases List.mem_append.mp hc with hc | hc
    · exact Base64.toNat_lt_of_decodeUrl (Base64.decodeUrl_encodeUrl _) c hc
    · rcases List.mem_cons.mp hc with rfl | hc
      · decide
      · exact Base64.toNat_lt_of_decodeUrl (Base64.decodeUrl_encodeUrl _) c hc
  rw [Auth.sign, textBytes_ofList hascii, sign, hmac]

theorem unsign_text (hmac : ∀ d, mac key.1 d = macText key d) (token : String) :
    (unsign mac (textBytes token) key.1).toOption = Auth.unsign macText key token := by
  rw [unsign, Auth.unsign, textBytes, splitN_utf8 (by decide)]
  rcases Text.splitN '.' 2 token.toList with _ | ⟨a, _ | ⟨b, _ | ⟨c, rest⟩⟩⟩
  case cons.cons.nil =>
    simp only [List.map_cons, List.map_nil, decodeUrl_utf8]
    cases Base64.decodeUrl a with
    | none => rfl
    | some data =>
      cases Base64.decodeUrl b with
      | none => rfl
      | some sig =>
        simp only [Option.bind_some, hmac]
        split <;> rfl
  all_goals rfl

theorem encryptSigned_text (h : Agrees A gcm log key) (plaintext : String) (salt : Salt) (nonce : Nonce) :
    encryptSigned A log (textBytes plaintext) key.1 salt nonce =
      .ok (Auth.encryptSigned gcm key salt nonce plaintext, ⟨key.1, nonce.1, textBytes plaintext⟩ :: log) := by
  rw [encryptSigned, sealSalted_of_newCipher A log (newCipher_key key), Auth.encryptSigned, h.sealText]

theorem decryptSigned_text (h : Agrees A gcm log key) {data : Bytes}
    (hopen : Unforged gcm log key ((data.drop 16).take 12) (data.drop 28)) :
    (decryptSigned A log data key.1).map Except.toOption =
      some ((Auth.decryptSigned gcm key data).map textBytes) := by
  rw [decryptSigned, openSalted_text h hopen, Auth.decryptSigned, Option.map_some]
  split
  · rfl
  · cases gcm.openText key ((data.drop 16).take 12) (data.drop 28) <;> rfl

/-- What a cookie holds before it is read as a session. -/
theorem openSession_text (h : Agrees A gcm log key) (hmac : ∀ d, mac key.1 d = macText key d) {encrypted : Bytes}
    (hopen : Unforged gcm log key ((encrypted.drop 16).take 12) (encrypted.drop 28)) :
    (openSession A mac log encrypted key.1).map Except.toOption =
      some ((Auth.decryptSigned gcm key encrypted).bind (Auth.unsign macText key)) := by
  rw [openSession, decryptSigned, openSalted_text h hopen, Auth.decryptSigned, Option.map_some, Option.map_some]
  split
  · rfl
  · cases gcm.openText key ((encrypted.drop 16).take 12) (encrypted.drop 28) with
    | none => rfl
    | some token => exact congrArg some (unsign_text hmac token)

end

/-! ## A cipher that agrees with `clear` -/

theorem toByteArray_textBytes (s : String) : (textBytes s).toByteArray = s.toByteArray := by
  conv =>
    rhs
    rw [← String.ofList_toList (s := s), String.toByteArray_ofList]
  rfl

theorem fromUTF8?_textBytes (s : String) : String.fromUTF8? (textBytes s).toByteArray = some s := by
  rw [toByteArray_textBytes]
  exact dif_pos s.isValidUTF8

theorem length_textBytes (s : String) : (textBytes s).length = s.utf8ByteSize := by
  rw [← List.size_toByteArray, toByteArray_textBytes]
  rfl

/-- Under the key of zeros, the text and a tag of zeros. -/
def clearGcm : Gcm where
  sealText k _ p := if k = Db.zeroKey then textBytes p ++ List.replicate 16 0 else k.1 ++ (textBytes p ++ [1])
  openText k _ c :=
    if k = Db.zeroKey then
      if c.getLast? = some 0 then String.fromUTF8? (c.take (c.length - 16)).toByteArray else none
    else if c.getLast? = some 1 ∧ c.take 32 = k.1 then String.fromUTF8? (c.drop 32).dropLast.toByteArray else none
  open_seal := by
    intro k k' n p
    by_cases hk : k = Db.zeroKey <;> by_cases hk' : k' = Db.zeroKey
    · simp [hk, hk', fromUTF8?_textBytes]
    · simp [hk, hk']
    · simp [hk, hk', Ne.symm hk]
    · have hiff : k.1 = k'.1 ↔ k' = k := by rw [Subtype.ext_iff, eq_comm]
      simp [hk, hk', List.take_left' k.2, List.drop_left' k.2, fromUTF8?_textBytes, hiff]
  size_le_length := by
    intro k n p
    have hlen := length_textBytes p
    split <;> simp only [List.length_append] <;> omega

theorem agrees_clearGcm : Agrees clear clearGcm [] Db.zeroKey where
  sealText nonce p := by simp [clearGcm, clear]
  texts m hm := absurd hm List.not_mem_nil

end OciHelper.Crypto
