import OciHelper.Auth.MfaCache
import OciHelper.Db.Tables
import OciHelper.Lib.Text

/-!
# The second factor of a login

* `validateTOTP` : the codes of a secret; `secondFactor` : the check that both logins make;
* `handleLogin`, `handleGoogleCallback` : the logins, as far as they decide on a session;
* `Gate`, `gate` : what the check lets through; `required` : the secret that the tables ask for;
* `Guards` : the gate lets no code through but those of the required secret;
* `second_factor_iff` : just then no session is issued without the second factor.
-/

namespace OciHelper.Auth.SecondFactor
open Db Text
open Mfa (MfaCacheEntry ofTable)

/-- `key` is the base32 decoding of a secret in upper case, `totpAt` the code of a key at a time step. -/
structure Totp where
  key : String → Option (List UInt8)
  totpAt : List UInt8 → Int → String

/-- The step of the time, in seconds, and the two next to it. -/
def validateTOTP (t : Totp) (now : Int) (secret code : String) : Bool :=
  if code.utf8ByteSize ≠ 6 then false
  else
    match t.key secret with
    | none => false
    | some key => [now / 30, now / 30 - 1, now / 30 + 1].any fun step => t.totpAt key step = code

structure Panel where
  db : Tables
  cache : MfaCacheEntry

/-- Which reads of a login succeed. -/
structure Reads where
  user : Bool := true
  allowlist : Bool := true
  deriving DecidableEq, Repr

/-- Without an error, the row or that there is none. -/
def readUser (s : Panel) (reads : Reads) (username : String) : Option User :=
  if reads.user then getUserByUsername s.db username else none

/-- An error of the read is dropped. -/
def readAllowlist (s : Panel) (reads : Reads) : String :=
  if reads.allowlist then getConfig s.db.config "google_allowed_emails" else ""

/-- The check of a code in `handleLogin` and in `handleGoogleCallback`. -/
def secondFactor (t : Totp) (now : Int) (user : Option User) (cache : MfaCacheEntry) (totp : String) : Bool :=
  match user.filter User.mfaEnabled with
  | some u => totp ≠ "" && validateTOTP t now u.mfaSecret totp
  | none => if cache.enabled then cache.secret ≠ "" && validateTOTP t now cache.secret totp else true

/-- `session` is the user and the role of the session that is issued; `failure` and `reset` are the calls of the
limiter. -/
structure LoginResult where
  status : Nat
  session : Option (String × String) := none
  failure : Bool := false
  reset : Bool := false
  deriving DecidableEq, Repr

/-- `listed` and `blocked` are what the checks of the address say, `credentials` is the name with the right password. -/
structure LoginRequest where
  post : Bool := true
  listed : Bool := false
  blocked : Bool := false
  credentials : Option String
  totp : String := ""
  now : Int := 0

def handleLogin (t : Totp) (s : Panel) (reads : Reads) (r : LoginRequest) : LoginResult :=
  if ¬ r.post then { status := 400 }
  else if r.listed then { status := 401 }
  else if r.blocked then { status := 401 }
  else
    match r.credentials with
    | none => { status := 401, failure := true }
    | some username =>
      if secondFactor t r.now (readUser s reads username) s.cache r.totp then
        { status := 200, session := some (username, "admin"), reset := true }
      else { status := 401, failure := true }

/-- `fold` is simple case folding, character by character. -/
def oauthEmailAllowed (fold : Char → Char) (allowlist email : String) : Bool :=
  if trimSpace email.toList = [] then false
  else (allowlist.toList.splitOn ',').any fun e => trimSpace e ≠ [] && (trimSpace e).map fold = email.toList.map fold

/-- `email` is what Google answers to a callback that comes that far. -/
structure Callback where
  enabled : Bool := true
  state : Bool := true
  code : String
  email : Option String
  header : String := ""
  query : String := ""
  now : Int := 0

/-- The header goes before the query. -/
def Callback.totp (r : Callback) : String := if r.header = "" then r.query else r.header

def handleGoogleCallback (t : Totp) (fold : Char → Char) (s : Panel) (reads : Reads) (r : Callback) : LoginResult :=
  if ¬ r.enabled then { status := 400 }
  else if ¬ r.state then { status := 400 }
  else if r.code = "" then { status := 400 }
  else
    match r.email with
    | none => { status := 400 }
    | some email =>
      if ¬ oauthEmailAllowed fold (readAllowlist s reads) email then { status := 403 }
      else
        let user := readUser s reads email
        let role := (user.map User.role).getD "user"
        if secondFactor t r.now user s.cache r.totp then
          { status := 302, session := some (email, if role = "" then "user" else role) }
        else { status := 401 }

/-! ## What the check lets through -/

/-- Everything, nothing, or the codes of a secret. -/
inductive Gate
  | opened
  | closed
  | secret (secret : String)
  deriving DecidableEq, Repr

def Gate.accepts (t : Totp) (now : Int) (totp : String) : Gate → Bool
  | opened => true
  | closed => false
  | secret s => validateTOTP t now s totp

def gate (user : Option User) (cache : MfaCacheEntry) : Gate :=
  match user.filter User.mfaEnabled with
  | some u => .secret u.mfaSecret
  | none => if cache.enabled then if cache.secret = "" then .closed else .secret cache.secret else .opened

/-- The secret that the tables ask for: that of the user, else the global one. -/
def required (db : Tables) (username : String) : Option String :=
  match (getUserByUsername db username).filter User.mfaEnabled with
  | some u => some u.mfaSecret
  | none => if (ofTable db.config).enabled then some (ofTable db.config).secret else none

/-- A session is issued only with a code of the secret that its user needs. -/
def Protected (t : Totp) (now : Int) (db : Tables) (totp : String) (o : LoginResult) : Prop :=
  ∀ session ∈ o.session, ∀ secret ∈ required db session.1, validateTOTP t now secret totp = true

/-- Every code of one secret is a code of the other. -/
def Stronger (t : Totp) (secret secret' : String) : Prop :=
  ∀ now code, validateTOTP t now secret code = true → validateTOTP t now secret' code = true

/-- The gate is not open where a secret is required, and its codes are codes of that secret. -/
def Guards (t : Totp) (required : Option String) : Gate → Prop
  | .opened => required = none
  | .closed => True
  | .secret s => ∀ secret ∈ required, Stronger t s secret

theorem validateTOTP_empty (t : Totp) (now : Int) (secret : String) : validateTOTP t now secret "" = false := by
  unfold validateTOTP
  rw [if_pos (by decide)]

theorem secondFactor_eq (t : Totp) (now : Int) (user : Option User) (cache : MfaCacheEntry) (totp : String) :
    secondFactor t now user cache totp = (gate user cache).accepts t now totp := by
  have hempty : ∀ secret, (totp ≠ "" && validateTOTP t now secret totp) = validateTOTP t now secret totp := by
    intro secret
    by_cases h : totp = ""
    · rw [h, validateTOTP_empty, Bool.and_false]
    · simp [h]
  unfold secondFactor gate
  cases user.filter User.mfaEnabled with
  | some u => exact hempty _
  | none =>
    dsimp only
    cases cache.enabled with
    | false => rfl
    | true => by_cases h : cache.secret = "" <;> simp [h, Gate.accepts]

/-- A gate that guards lets no one through without a code, and any other gate lets someone through. -/
theorem guards_iff (t : Totp) (required : Option String) (g : Gate) :
    Guards t required g ↔ ∀ now totp, g.accepts t now totp = true →
      ∀ secret ∈ required, validateTOTP t now secret totp = true := by
  cases g with
  | opened =>
    constructor
    · intro h now totp _ secret hs
      rw [show required = none from h] at hs
      cases hs
    · intro h
      cases required with
      | none => rfl
      | some secret =>
        have hcode := h 0 "" rfl secret rfl
        rw [validateTOTP_empty] at hcode
        cases hcode
  | closed => exact iff_of_true trivial fun _ _ h => by cases h
  | secret s => exact ⟨fun h now totp hacc secret hs => h secret hs now totp hacc, fun h secret hs now totp hacc =>
      h now totp hacc secret hs⟩

/-- The gate at a login of a user. -/
def gateOf (s : Panel) (reads : Reads) (username : String) : Gate := gate (readUser s reads username) s.cache

section
variable (t : Totp) (s : Panel) (reads : Reads) (username : String)

theorem handleLogin_session {r : LoginRequest} (hr : r.credentials = some username) {session : String × String}
    (h : session ∈ (handleLogin t s reads r).session) :
    session.1 = username ∧ (gateOf s reads username).accepts t r.now r.totp = true := by
  unfold handleLogin at h
  rw [hr] at h
  split at h
  · cases h
  · split at h
    · cases h
    · split at h
      · cases h
      · dsimp only at h
        split at h
        · next hacc =>
          cases h
          rw [secondFactor_eq] at hacc
          exact ⟨rfl, hacc⟩
        · cases h

/-- The password login asks for the second factor just when its gate guards. -/
theorem handleLogin_protected_iff :
    (∀ r : LoginRequest, r.credentials = some username →
      Protected t r.now s.db r.totp (handleLogin t s reads r)) ↔
        Guards t (required s.db username) (gateOf s reads username) := by
  rw [guards_iff]
  constructor
  · intro h now totp hacc
    refine h { credentials := some username, totp := totp, now := now } rfl (username, "admin") ?_
    have hfactor : secondFactor t now (readUser s reads username) s.cache totp = true := by
      rw [secondFactor_eq]
      exact hacc
    simp [handleLogin, hfactor]
  · intro h r hr session hsession secret hsecret
    obtain ⟨hname, hacc⟩ := handleLogin_session t s reads username hr hsession
    rw [hname] at hsecret
    exact h r.now r.totp hacc secret hsecret

variable (fold : Char → Char)

/-- The address is on the list, as it is read. -/
def Allowed : Prop := oauthEmailAllowed fold (readAllowlist s reads) username = true

theorem handleGoogleCallback_session {r : Callback} (hr : r.email = some username) {session : String × String}
    (h : session ∈ (handleGoogleCallback t fold s reads r).session) :
    Allowed s reads username fold ∧ session.1 = username ∧
      (gateOf s reads username).accepts t r.now r.totp = true := by
  unfold handleGoogleCallback at h
  rw [hr] at h
  split at h
  · cases h
  · split at h
    · cases h
    · split at h
      · cases h
      · dsimp only at h
        split at h
        · cases h
        · next hallowed =>
          split at h
          · next hacc =>
            cases h
            rw [secondFactor_eq] at hacc
            exact ⟨not_not.mp hallowed, rfl, hacc⟩
          · cases h

/-- So does the Google login, for an address that is allowed. -/
theorem handleGoogleCallback_protected_iff :
    (∀ r : Callback, r.email = some username →
      Protected t r.now s.db r.totp (handleGoogleCallback t fold s reads r)) ↔
        (Allowed s reads username fold → Guards t (required s.db username) (gateOf s reads username)) := by
  rw [guards_iff]
  constructor
  · intro h hallowed now totp hacc
    have hfactor : secondFactor t now (readUser s reads username) s.cache totp = true := by
      rw [secondFactor_eq]
      exact hacc
    have htotp : ∀ r : Callback, r.header = totp → r.query = totp → r.totp = totp := by
      intro r hheader hquery
      unfold Callback.totp
      rw [hheader, hquery, ite_self]
    have hissued := h { code := "code", email := some username, header := totp, query := totp, now := now } rfl
    unfold handleGoogleCallback at hissued
    rw [htotp _ rfl rfl] at hissued
    unfold Allowed at hallowed
    simp only [hallowed, hfactor] at hissued
    exact hissued _ rfl
  · intro h r hr session hsession secret hsecret
    obtain ⟨hallowed, hname, hacc⟩ := handleGoogleCallback_session t s reads username fold hr hsession
    rw [hname] at hsecret
    exact h hallowed r.now r.totp hacc secret hsecret

/-- Tables that can be read, and a cache that says what they do. -/
theorem guards_of_mirrors (hread : reads.user = true ∨ (getUserByUsername s.db username).filter User.mfaEnabled = none)
    (hcache : s.cache = ofTable s.db.config) : Guards t (required s.db username) (gateOf s reads username) := by
  have huser : (readUser s reads username).filter User.mfaEnabled =
      (getUserByUsername s.db username).filter User.mfaEnabled := by
    unfold readUser
    rcases hread with hok | hnone
    · rw [if_pos hok]
    · split
      · rfl
      · exact hnone.symm
  unfold gateOf gate required
  rw [huser, hcache]
  cases (getUserByUsername s.db username).filter User.mfaEnabled with
  | some u =>
    rintro secret hs
    cases hs
    exact fun _ _ h => h
  | none =>
    dsimp only
    split
    · split
      · trivial
      · rintro secret hs
        cases hs
        exact fun _ _ h => h
    · rfl

end

/-- **When no login gets by without the second factor.** -/
theorem second_factor_iff (t : Totp) (fold : Char → Char) (s : Panel) (reads : Reads) (username : String) :
    ((∀ r : LoginRequest, r.credentials = some username →
        Protected t r.now s.db r.totp (handleLogin t s reads r)) ↔
      Guards t (required s.db username) (gateOf s reads username)) ∧
    ((∀ r : Callback, r.email = some username →
        Protected t r.now s.db r.totp (handleGoogleCallback t fold s reads r)) ↔
      (Allowed s reads username fold → Guards t (required s.db username) (gateOf s reads username))) :=
  ⟨handleLogin_protected_iff t s reads username, handleGoogleCallback_protected_iff t s reads username fold⟩

/-- A user with MFA, whose row cannot be read; global MFA is off. -/
def examplePanel : Panel where
  db := { users := KeyTable.empty.insert { username := "admin", mfaEnabled := true, mfaSecret := "JBSWY3DPEHPK3PXP" } }
  cache := ⟨false, ""⟩

/-- A code that is the same at every time. -/
def exampleTotp : Totp := ⟨fun _ => some [], fun _ _ => "123456"⟩

/-- The login without a code succeeds. -/
theorem login_without_code :
    (handleLogin exampleTotp examplePanel { user := false } { credentials := some "admin" }).session =
        some ("admin", "admin") ∧
      required examplePanel.db "admin" = some "JBSWY3DPEHPK3PXP" ∧
      ¬ Protected exampleTotp 0 examplePanel.db ""
        (handleLogin exampleTotp examplePanel { user := false } { credentials := some "admin" }) := by
  refine ⟨rfl, by decide, fun h => ?_⟩
  have hcode := h ("admin", "admin") rfl "JBSWY3DPEHPK3PXP" (by decide)
  rw [validateTOTP_empty] at hcode
  cases hcode

end OciHelper.Auth.SecondFactor
