import OciHelper.Db.Secrets
import OciHelper.Lib.Text

/-!
# Session tokens

* `Session` : what a token says; `SessionJson` : its JSON;
* `sign`, `encryptSigned` : the two layers of a token, and `unsign`, `decryptSigned` which take them off;
* `mint` : the value of a new session's cookie; `openCookie` : the session in a cookie;
* `sealedPart` : the bytes of a cookie from the nonce on, all that `openCookie` reads.
-/

namespace OciHelper.Auth
open OciHelper.Db (Gcm Key Nonce)
open Base64

/-- Times are nanoseconds. -/
structure Session where
  user : String
  role : String
  csrfToken : String
  createdAt : Int
  sessionID : String
  deriving DecidableEq, Repr

/-- A session has no text if the year of its time has none. -/
structure SessionJson where
  marshal : Session → Option (List UInt8)
  unmarshal : List UInt8 → Option Session
  unmarshal_marshal : ∀ {sess data}, marshal sess = some data → unmarshal data = some sess

/-- What `rand.Read` gives for a token. -/
abbrev Token := {b : List UInt8 // b.length = 32}

abbrev Salt := {b : List UInt8 // b.length = 16}

def randomToken (b : Token) : String := String.ofList (encodeUrl b.1)

/-! ## The two layers -/

section
variable (mac : Key → List UInt8 → List UInt8) (gcm : Gcm)

/-- `mac` is the HMAC under the key. -/
def sign (key : Key) (data : List UInt8) : String :=
  String.ofList (encodeUrl data ++ '.' :: encodeUrl (mac key data))

def unsign (key : Key) (token : String) : Option (List UInt8) :=
  match Text.splitN '.' 2 token.toList with
  | [data, sig] =>
    (decodeUrl data).bind fun data =>
      (decodeUrl sig).bind fun sig => if sig = mac key data then some data else none
  | _ => none

theorem unsign_sign (key : Key) (data : List UInt8) : unsign mac key (sign mac key data) = some data := by
  have hdot : '.' ∉ encodeUrl data := fun h => (forall_mem_encodeUrl data _ h).2.2 rfl
  unfold unsign sign
  rw [String.toList_ofList, Text.splitN_append '.' 0 hdot]
  simp [Text.splitN, decodeUrl_encodeUrl]

/-- The salt is not used. -/
def encryptSigned (key : Key) (salt : Salt) (nonce : Nonce) (plaintext : String) : List UInt8 :=
  salt.1 ++ (nonce.1 ++ gcm.sealText key nonce.1 plaintext)

def decryptSigned (key : Key) (data : List UInt8) : Option String :=
  if data.length < 28 then none else gcm.openText key ((data.drop 16).take 12) (data.drop 28)

end

/-! ## Cookies -/

structure Rand where
  csrf : Token
  sid : Token
  salt : Salt
  nonce : Nonce

variable (json : SessionJson) (mac : Key → List UInt8 → List UInt8) (gcm : Gcm)

def newSession (now : Int) (user role : String) (rand : Rand) : Session :=
  { user, role, csrfToken := randomToken rand.csrf, createdAt := now, sessionID := randomToken rand.sid }

/-- The cookie of a session. -/
def mint (key : Key) (sess : Session) (rand : Rand) : Option String :=
  (json.marshal sess).map fun data =>
    String.ofList (encodeUrl (encryptSigned gcm key rand.salt rand.nonce (sign mac key data)))

def openCookie (key : Key) (cookie : String) : Option Session :=
  (decodeUrl cookie.toList).bind fun encrypted =>
    (decryptSigned gcm key encrypted).bind fun signed => (unsign mac key signed).bind json.unmarshal

/-- The bytes after the salt, if there are enough of them for a nonce. -/
def sealedPart (cookie : String) : Option (List UInt8) :=
  (decodeUrl cookie.toList).bind fun encrypted => if encrypted.length < 28 then none else some (encrypted.drop 16)

/-- What is sealed in the bytes after the salt. -/
def openSealed (key : Key) (bytes : List UInt8) : Option String := gcm.openText key (bytes.take 12) (bytes.drop 12)

theorem openCookie_eq (key : Key) (cookie : String) :
    openCookie json mac gcm key cookie =
      (sealedPart cookie).bind fun bytes =>
        (openSealed gcm key bytes).bind fun signed => (unsign mac key signed).bind json.unmarshal := by
  unfold openCookie sealedPart decryptSigned openSealed
  cases decodeUrl cookie.toList with
  | none => rfl
  | some encrypted =>
    by_cases h : encrypted.length < 28
    · simp [h]
    · simp [h, List.drop_drop]

theorem sealedPart_mint {key : Key} {sess : Session} {rand : Rand} {cookie : String}
    (h : mint json mac gcm key sess rand = some cookie) :
    ∃ data, json.marshal sess = some data ∧
      sealedPart cookie = some (rand.nonce.1 ++ gcm.sealText key rand.nonce.1 (sign mac key data)) := by
  obtain ⟨data, hdata, rfl⟩ := Option.map_eq_some_iff.mp h
  refine ⟨data, hdata, ?_⟩
  unfold sealedPart encryptSigned
  rw [String.toList_ofList, decodeUrl_encodeUrl, Option.bind_some, if_neg, List.drop_left' rand.salt.2]
  simp only [List.length_append, rand.salt.2, rand.nonce.2]
  omega

theorem openSealed_seal (key : Key) (nonce : Nonce) (plain : String) :
    openSealed gcm key (nonce.1 ++ gcm.sealText key nonce.1 plain) = some plain := by
  unfold openSealed
  rw [List.take_left' nonce.2, List.drop_left' nonce.2, gcm.open_seal, if_pos rfl]

/-- A cookie with the sealed part of a minted one holds its session. -/
theorem openCookie_of_sealedPart {key : Key} {sess : Session} {rand : Rand} {cookie minted : String}
    (h : mint json mac gcm key sess rand = some minted) (hc : sealedPart cookie = sealedPart minted) :
    openCookie json mac gcm key cookie = some sess := by
  obtain ⟨data, hdata, hpart⟩ := sealedPart_mint json mac gcm h
  rw [openCookie_eq, hc, hpart, Option.bind_some, openSealed_seal, Option.bind_some, unsign_sign, Option.bind_some]
  exact json.unmarshal_marshal hdata

theorem randomToken_inj {b b' : Token} (h : randomToken b = randomToken b') : b = b' := by
  have hurl : encodeUrl b.1 = encodeUrl b'.1 := by simpa [randomToken] using congrArg String.toList h
  have := congrArg decodeUrl hurl
  rw [decodeUrl_encodeUrl, decodeUrl_encodeUrl] at this
  exact Subtype.ext (Option.some.inj this)

theorem randomToken_ne_empty (b : Token) : randomToken b ≠ "" := by
  intro h
  have hurl : encodeUrl b.1 = [] := by simpa [randomToken] using congrArg String.toList h
  have hback : some b.1 = some [] := by rw [← decodeUrl_encodeUrl, hurl]; rfl
  have := b.2
  rw [Option.some.inj hback] at this
  cases this

end OciHelper.Auth
