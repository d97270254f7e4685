import OciHelper.Auth.Tokens
import OciHelper.Lib.StepRun

/-!
# The life of a session

* `getSession`, `logout`, `cleanupRevoked` : the operations on the revoked ids;
* `State`, `step` : the operations in any order, with the cookies handed out and those a logout was made with;
* `Genuine` : what an ideal AEAD and distinct random tokens promise of an event;
* `Inv` : which ids are revoked; `inv_run` : it holds after every run;
* `session_lifecycle` : which cookies are accepted, what a logout changes and what the cleanup cannot undo.
-/

namespace OciHelper.Auth
open OciHelper.Db (Gcm Key Nonce)
open StepRun

/-- 24 h. -/
def sessionTTL : Int := 24 * 3600 * 1000000000

section
variable (json : SessionJson) (mac : Key → List UInt8 → List UInt8) (gcm : Gcm) (key : Key)

/-- A session and its cookie. -/
structure Minted where
  session : Session
  rand : Rand
  cookie : String
  minted : mint json mac gcm key session rand = some cookie
  sessionID : session.sessionID = randomToken rand.sid

/-- `none` if the session has no text. -/
def mintSession (now : Int) (user role : String) (rand : Rand) : Option (Minted json mac gcm key) :=
  match h : mint json mac gcm key (newSession now user role rand) rand with
  | none => none
  | some cookie => some ⟨newSession now user role rand, rand, cookie, h, rfl⟩

def setLoginCookie (now : Int) (user role : String) (rand : Rand) : Option (Minted json mac gcm key) :=
  mintSession json mac gcm key now user role rand

def createSession (now : Int) (user role : String) (rand : Rand) : Option (Minted json mac gcm key) :=
  mintSession json mac gcm key now user (if role = "" then "user" else role) rand

/-- The ids that are logged out, with the time. -/
abbrev Revoked := String → Option Int

/-- `cookie` is the value of the request's session cookie, if there is one. -/
def getSession (revoked : Revoked) (now : Int) (cookie : Option String) : Option Session :=
  match cookie.bind (openCookie json mac gcm key) with
  | none => none
  | some sess =>
    if sess.sessionID = "" then none
    else if now - sess.createdAt ≥ sessionTTL then none
    else if (revoked sess.sessionID).isSome then none
    else some sess

def logout (revoked : Revoked) (now : Int) (cookie : Option String) : Revoked :=
  match getSession json mac gcm key revoked now cookie with
  | none => revoked
  | some sess => if sess.sessionID ≠ "" then Function.update revoked sess.sessionID (some now) else revoked

def cleanupRevoked (revoked : Revoked) (now : Int) : Revoked :=
  let cutoff := now - sessionTTL
  fun id => (revoked id).filter fun at_ => ¬ at_ < cutoff

/-! ## Runs -/

/-- `minted` and `logouts` are for the statements only: no operation reads them. -/
structure State where
  clock : Int
  revoked : Revoked := fun _ => none
  minted : List (Minted json mac gcm key) := []
  logouts : List String := []

inductive Event
  | login (now : Int) (user role : String) (rand : Rand)
  | create (now : Int) (user role : String) (rand : Rand)
  | logout (now : Int) (cookie : Option String)
  | cleanup (now : Int)
  | request (now : Int) (cookie : Option String)

def Event.now : Event → Int
  | .login now .. => now
  | .create now .. => now
  | .logout now _ => now
  | .cleanup now => now
  | .request now _ => now

/-- An operation at its time. -/
def act (s : State json mac gcm key) : Event → State json mac gcm key
  | .login now user role rand =>
    { s with clock := now, minted := (setLoginCookie json mac gcm key now user role rand).toList ++ s.minted }
  | .create now user role rand =>
    { s with clock := now, minted := (createSession json mac gcm key now user role rand).toList ++ s.minted }
  | .logout now cookie =>
    { s with
      clock := now, revoked := logout json mac gcm key s.revoked now cookie,
      logouts := cookie.toList ++ s.logouts }
  | .cleanup now => { s with clock := now, revoked := cleanupRevoked s.revoked now }
  | .request now _ => { s with clock := now }

/-- The clock does not go back. -/
def step : Step (State json mac gcm key) Event := fun s e =>
  if s.clock ≤ e.now then some (act json mac gcm key s e) else none

variable {json mac gcm key}

/-- What opens has been sealed. -/
def Unforged (s : State json mac gcm key) (cookie : String) : Prop :=
  ∀ bytes, sealedPart cookie = some bytes → (openSealed gcm key bytes).isSome →
    ∃ m ∈ s.minted, sealedPart m.cookie = some bytes

/-- The random id of a session is new, and a cookie in a request is not forged. -/
def Genuine (s : State json mac gcm key) : Event → Prop
  | .login _ _ _ rand => ∀ m ∈ s.minted, m.rand.sid ≠ rand.sid
  | .create _ _ _ rand => ∀ m ∈ s.minted, m.rand.sid ≠ rand.sid
  | .logout _ cookie => ∀ c ∈ cookie, Unforged s c
  | .cleanup _ => True
  | .request _ cookie => ∀ c ∈ cookie, Unforged s c

/-! ## Cookies and sessions -/

theorem openCookie_minted {m : Minted json mac gcm key} {cookie : String}
    (h : sealedPart cookie = sealedPart m.cookie) : openCookie json mac gcm key cookie = some m.session :=
  openCookie_of_sealedPart json mac gcm m.minted h

theorem openCookie_iff {s : State json mac gcm key} {cookie : String} (hc : Unforged s cookie) (sess : Session) :
    openCookie json mac gcm key cookie = some sess ↔
      ∃ m ∈ s.minted, sealedPart cookie = sealedPart m.cookie ∧ m.session = sess := by
  constructor
  · intro h
    have hopen := h
    rw [openCookie_eq] at hopen
    obtain ⟨bytes, hbytes, hopen⟩ := Option.bind_eq_some_iff.mp hopen
    obtain ⟨signed, hsigned, -⟩ := Option.bind_eq_some_iff.mp hopen
    obtain ⟨m, hm, hpart⟩ := hc bytes hbytes (hsigned ▸ rfl)
    have hsame : sealedPart cookie = sealedPart m.cookie := hbytes.trans hpart.symm
    exact ⟨m, hm, hsame, Option.some.inj ((openCookie_minted hsame).symm.trans h)⟩
  · rintro ⟨m, -, hsame, rfl⟩
    exact openCookie_minted hsame

theorem session_eq_of_sealedPart {m m' : Minted json mac gcm key}
    (h : sealedPart m.cookie = sealedPart m'.cookie) : m.session = m'.session :=
  Option.some.inj ((openCookie_minted (rfl : sealedPart m.cookie = _)).symm.trans (openCookie_minted h))

theorem getSession_iff {revoked : Revoked} {now : Int} {cookie : String} {sess : Session} :
    getSession json mac gcm key revoked now (some cookie) = some sess ↔
      openCookie json mac gcm key cookie = some sess ∧ sess.sessionID ≠ "" ∧ now - sess.createdAt < sessionTTL ∧
        revoked sess.sessionID = none := by
  unfold getSession
  rw [Option.bind_some]
  cases openCookie json mac gcm key cookie with
  | none => simp
  | some sess' =>
    dsimp only
    split
    · next h => simp only [reduceCtorEq, Option.some.injEq, false_iff]; rintro ⟨rfl, hne, -⟩; exact hne h
    · next hne =>
      split
      · next h => simp only [reduceCtorEq, Option.some.injEq, false_iff]; rintro ⟨rfl, -, hlt, -⟩; omega
      · next hlt =>
        split
        · next h =>
          simp only [reduceCtorEq, Option.some.injEq, false_iff]
          rintro ⟨rfl, -, -, hrev⟩
          rw [hrev] at h
          cases h
        · next hrev =>
          simp only [Option.some.injEq]
          constructor
          · rintro rfl
            exact ⟨rfl, hne, by omega, by simpa using hrev⟩
          · rintro ⟨rfl, -⟩
            rfl

/-! ## The revoked ids -/

variable (json mac gcm key) in
/-- Every revoked id is that of a session that was logged out; the id of a session that was logged out is revoked as
long as the session has not expired. -/
structure Inv (s : State json mac gcm key) : Prop where
  distinct : ∀ m ∈ s.minted, ∀ m' ∈ s.minted, m.rand.sid = m'.rand.sid → m = m'
  past : ∀ m ∈ s.minted, m.session.createdAt ≤ s.clock
  genuine : ∀ c ∈ s.logouts, Unforged s c
  caused : ∀ id at_, s.revoked id = some at_ → ∃ m ∈ s.minted, m.session.sessionID = id ∧
    m.session.createdAt ≤ at_ ∧ ∃ c ∈ s.logouts, sealedPart c = sealedPart m.cookie
  kept : ∀ c ∈ s.logouts, ∀ m ∈ s.minted, sealedPart c = sealedPart m.cookie →
    (s.revoked m.session.sessionID).isSome ∨ sessionTTL ≤ s.clock - m.session.createdAt

theorem Inv.eq_of_sessionID {s : State json mac gcm key} (h : Inv json mac gcm key s) {m m' : Minted json mac gcm key}
    (hm : m ∈ s.minted) (hm' : m' ∈ s.minted) (hid : m.session.sessionID = m'.session.sessionID) : m = m' := by
  rw [m.sessionID, m'.sessionID] at hid
  exact h.distinct m hm m' hm' (randomToken_inj hid)

theorem Inv.start (clock : Int) : Inv json mac gcm key { clock } := by
  refine ⟨?_, ?_, ?_, ?_, ?_⟩ <;> simp

theorem Unforged.mono {s s' : State json mac gcm key} (h : s.minted ⊆ s'.minted) {cookie : String}
    (hc : Unforged s cookie) : Unforged s' cookie := by
  intro bytes hbytes hopen
  obtain ⟨m, hm, hpart⟩ := hc bytes hbytes hopen
  exact ⟨m, h hm, hpart⟩

/-- A request or nothing at all. -/
theorem Inv.tick {s : State json mac gcm key} (h : Inv json mac gcm key s) {now : Int} (hnow : s.clock ≤ now) :
    Inv json mac gcm key { s with clock := now } where
  distinct := h.distinct
  past m hm := (h.past m hm).trans hnow
  genuine := h.genuine
  caused := h.caused
  kept c hc m hm hsame := by
    rcases h.kept c hc m hm hsame with hrev | hold
    · exact .inl hrev
    · have : s.clock ≤ now := hnow
      exact .inr (by dsimp only; omega)

/-- A new session has a new sealed part. -/
theorem Inv.mint {s : State json mac gcm key} (h : Inv json mac gcm key s) (m₀ : Minted json mac gcm key)
    (hfresh : ∀ m ∈ s.minted, m.rand.sid ≠ m₀.rand.sid) (hpast : m₀.session.createdAt ≤ s.clock) :
    Inv json mac gcm key { s with minted := m₀ :: s.minted } where
  distinct m hm m' hm' hid := by
    rcases List.mem_cons.mp hm with hm₀ | hold <;> rcases List.mem_cons.mp hm' with hm₀' | hold'
    · rw [hm₀, hm₀']
    · exact absurd (hm₀ ▸ hid.symm) (hfresh m' hold')
    · exact absurd (hm₀' ▸ hid) (hfresh m hold)
    · exact h.distinct m hold m' hold' hid
  past m hm := by
    rcases List.mem_cons.mp hm with rfl | hm
    · exact hpast
    · exact h.past m hm
  genuine c hc := (h.genuine c hc).mono (List.subset_cons_self _ _)
  caused id at_ hrev := by
    obtain ⟨m, hm, hrest⟩ := h.caused id at_ hrev
    exact ⟨m, List.mem_cons_of_mem _ hm, hrest⟩
  kept c hc m hm hsame := by
    rcases List.mem_cons.mp hm with rfl | hm
    · -- a logout with the new cookie would have been a forgery
      obtain ⟨data, -, hpart⟩ := sealedPart_mint json mac gcm m.minted
      obtain ⟨m', hm', hpart'⟩ := h.genuine c hc _ (hsame.trans hpart) (by rw [openSealed_seal]; rfl)
      have hsession : m'.session = m.session := session_eq_of_sealedPart (hpart'.trans hpart.symm)
      have hid : m'.session.sessionID = m.session.sessionID := by rw [hsession]
      rw [m'.sessionID, m.sessionID] at hid
      exact absurd (randomToken_inj hid) (hfresh m' hm')
    · exact h.kept c hc m hm hsame

theorem mem_mintSession {now : Int} {user role : String} {rand : Rand} {m : Minted json mac gcm key}
    (h : mintSession json mac gcm key now user role rand = some m) :
    m.session = newSession now user role rand ∧ m.rand = rand := by
  unfold mintSession at h
  split at h
  · cases h
  · cases h
    exact ⟨rfl, rfl⟩

theorem Inv.mintSession {s : State json mac gcm key} (h : Inv json mac gcm key s) {user role : String} {rand : Rand}
    (hfresh : ∀ m ∈ s.minted, m.rand.sid ≠ rand.sid) :
    Inv json mac gcm key
      { s with minted := (mintSession json mac gcm key s.clock user role rand).toList ++ s.minted } := by
  cases hm : Auth.mintSession json mac gcm key s.clock user role rand with
  | none => exact h
  | some m =>
    obtain ⟨hsession, hrand⟩ := mem_mintSession hm
    exact h.mint m (by rwa [hrand]) (hsession ▸ le_refl s.clock)

theorem Inv.cleanup {s : State json mac gcm key} (h : Inv json mac gcm key s) :
    Inv json mac gcm key { s with revoked := cleanupRevoked s.revoked s.clock } where
  distinct := h.distinct
  past := h.past
  genuine := h.genuine
  caused id at_ hrev := h.caused id at_ (Option.filter_eq_some_iff.mp hrev).1
  kept c hc m hm hsame := by
    rcases h.kept c hc m hm hsame with hrev | hold
    · obtain ⟨at_, hat⟩ := Option.isSome_iff_exists.mp hrev
      by_cases hcut : at_ < s.clock - sessionTTL
      · -- what the cleanup drops was revoked after the session began
        obtain ⟨m', hm', hid, hle, -⟩ := h.caused _ at_ hat
        obtain rfl := h.eq_of_sessionID hm' hm hid
        exact .inr (by dsimp only; omega)
      · refine .inl (Option.isSome_iff_exists.mpr ⟨at_, ?_⟩)
        exact Option.filter_eq_some_iff.mpr ⟨hat, by simpa using hcut⟩
    · exact .inr hold

theorem Minted.sessionID_ne_empty (m : Minted json mac gcm key) : m.session.sessionID ≠ "" :=
  m.sessionID ▸ randomToken_ne_empty m.rand.sid

/-- A logout that finds no session finds one that is revoked or has expired. -/
theorem Inv.logout_none {s : State json mac gcm key} (h : Inv json mac gcm key s) {cookie : String}
    (hc : Unforged s cookie) (hnone : getSession json mac gcm key s.revoked s.clock (some cookie) = none) :
    Inv json mac gcm key { s with logouts := cookie :: s.logouts } where
  distinct := h.distinct
  past := h.past
  genuine c hmem := by
    rcases List.mem_cons.mp hmem with rfl | hmem
    · exact hc
    · exact h.genuine c hmem
  caused id at_ hrev := by
    obtain ⟨m, hm, hid, hle, c, hmem, hsame⟩ := h.caused id at_ hrev
    exact ⟨m, hm, hid, hle, c, List.mem_cons_of_mem _ hmem, hsame⟩
  kept c hmem m hm hsame := by
    rcases List.mem_cons.mp hmem with rfl | hmem
    · by_contra hlive
      rw [not_or] at hlive
      have hrev : s.revoked m.session.sessionID = none := by simpa using hlive.1
      have hfound := getSession_iff.mpr
        ⟨openCookie_minted hsame, m.sessionID_ne_empty, not_le.mp hlive.2, hrev⟩
      rw [hfound] at hnone
      cases hnone
    · exact h.kept c hmem m hm hsame

/-- A logout that finds a session revokes it. -/
theorem Inv.logout_some {s : State json mac gcm key} (h : Inv json mac gcm key s) {cookie : String}
    (hc : Unforged s cookie) {sess : Session} (hopen : openCookie json mac gcm key cookie = some sess) :
    Inv json mac gcm key
      { s with
        revoked := Function.update s.revoked sess.sessionID (some s.clock), logouts := cookie :: s.logouts } where
  distinct := h.distinct
  past := h.past
  genuine c hmem := by
    rcases List.mem_cons.mp hmem with rfl | hmem
    · exact hc
    · exact h.genuine c hmem
  caused id at_ hrev := by
    by_cases hid : id = sess.sessionID
    · subst hid
      obtain ⟨m, hm, hsame, rfl⟩ := (openCookie_iff hc sess).mp hopen
      dsimp only at hrev
      rw [Function.update_self] at hrev
      cases hrev
      exact ⟨m, hm, rfl, h.past m hm, cookie, List.mem_cons_self .., hsame⟩
    · dsimp only at hrev
      rw [Function.update_of_ne hid] at hrev
      obtain ⟨m, hm, hid', hle, c, hmem, hsame⟩ := h.caused id at_ hrev
      exact ⟨m, hm, hid', hle, c, List.mem_cons_of_mem _ hmem, hsame⟩
  kept c hmem m hm hsame := by
    by_cases hid : m.session.sessionID = sess.sessionID
    · exact .inl (by dsimp only; rw [hid, Function.update_self]; rfl)
    · rcases List.mem_cons.mp hmem with rfl | hmem
      · rw [openCookie_minted hsame] at hopen
        exact absurd (congrArg Session.sessionID (Option.some.inj hopen)) hid
      · dsimp only
        rw [Function.update_of_ne hid]
        exact h.kept c hmem m hm hsame

theorem Inv.logout {s : State json mac gcm key} (h : Inv json mac gcm key s) {cookie : String}
    (hc : Unforged s cookie) :
    Inv json mac gcm key
      { s with
        revoked := logout json mac gcm key s.revoked s.clock (some cookie), logouts := cookie :: s.logouts } := by
  unfold Auth.logout
  cases hg : getSession json mac gcm key s.revoked s.clock (some cookie) with
  | none => exact h.logout_none hc hg
  | some sess =>
    obtain ⟨hopen, hne, -, -⟩ := getSession_iff.mp hg
    dsimp only
    rw [if_pos hne]
    exact h.logout_some hc hopen

theorem inv_step {s s' : State json mac gcm key} {e : Event} (hg : Genuine s e) (h : Inv json mac gcm key s)
    (hs : step json mac gcm key s e = some s') : Inv json mac gcm key s' := by
  unfold step at hs
  split at hs
  · next hnow =>
    cases hs
    have htick := h.tick hnow
    cases e with
    | login now user role rand => exact htick.mintSession hg
    | create now user role rand => exact htick.mintSession hg
    | logout now cookie =>
      cases cookie with
      | none => exact htick
      | some cookie => exact htick.logout (hg cookie rfl)
    | cleanup now => exact htick.cleanup
    | request now cookie => exact htick
  · cases hs

theorem inv_run {s t : State json mac gcm key} {es : List Event}
    (h : Run (step json mac gcm key) Genuine s es t) (h0 : Inv json mac gcm key s) : Inv json mac gcm key t :=
  h.invariant (fun _ _ _ hg hi hs => inv_step hg hi hs) h0

/-- **Which cookies are accepted.** -/
theorem Inv.getSession_iff {s : State json mac gcm key} (h : Inv json mac gcm key s) {now : Int}
    (hnow : s.clock ≤ now) {cookie : String} (hc : Unforged s cookie) (sess : Session) :
    getSession json mac gcm key s.revoked now (some cookie) = some sess ↔
      ∃ m ∈ s.minted, sealedPart cookie = sealedPart m.cookie ∧ m.session = sess ∧
        now - sess.createdAt < sessionTTL ∧ ∀ c ∈ s.logouts, sealedPart c ≠ sealedPart m.cookie := by
  rw [Auth.getSession_iff, openCookie_iff hc]
  constructor
  · rintro ⟨⟨m, hm, hsame, rfl⟩, hne, hlt, hrev⟩
    refine ⟨m, hm, hsame, rfl, hlt, fun c hmem hsame' => ?_⟩
    rcases h.kept c hmem m hm hsame' with hsome | hold
    · rw [hrev] at hsome
      cases hsome
    · omega
  · rintro ⟨m, hm, hsame, rfl, hlt, hnot⟩
    refine ⟨⟨m, hm, hsame, rfl⟩, m.sessionID_ne_empty, hlt, ?_⟩
    cases hrev : s.revoked m.session.sessionID with
    | none => rfl
    | some at_ =>
      obtain ⟨m', hm', hid, -, c, hmem, hsame'⟩ := h.caused _ at_ hrev
      obtain rfl := h.eq_of_sessionID hm' hm hid
      exact absurd hsame' (hnot c hmem)

theorem logouts_subset {s t : State json mac gcm key} {es : List Event}
    (h : Run (step json mac gcm key) Genuine s es t) {c : String} (hc : c ∈ s.logouts) : c ∈ t.logouts := by
  refine h.invariant (I := fun s => c ∈ s.logouts) (fun s e s' _ hmem hs => ?_) hc
  unfold step at hs
  split at hs
  · cases hs
    cases e with
    | logout now cookie => exact List.mem_append_right _ hmem
    | login | create | cleanup | request => exact hmem
  · cases hs

theorem Inv.getSession_logout {s s' : State json mac gcm key} (h : Inv json mac gcm key s) {now now' : Int}
    {cookie other : String} (hc : Unforged s cookie) (ho : Unforged s other)
    (hs : step json mac gcm key s (.logout now (some cookie)) = some s') (hnow : now ≤ now')
    (hne : sealedPart other ≠ sealedPart cookie) :
    getSession json mac gcm key s'.revoked now' (some other) =
      getSession json mac gcm key s.revoked now' (some other) := by
  have hg : Genuine s (.logout now (some cookie)) := fun c hmem => Option.some.inj hmem ▸ hc
  have h' := inv_step hg h hs
  unfold step at hs
  split at hs
  · next hle =>
    cases hs
    refine Option.ext fun sess => ?_
    rw [h'.getSession_iff hnow (ho.mono (List.Subset.refl _)), h.getSession_iff (hle.trans hnow) ho]
    refine exists_congr fun m => and_congr_right fun _ => and_congr_right fun hsame => and_congr_right fun _ =>
      and_congr_right fun _ => ?_
    constructor
    · exact fun hall c hmem => hall c (List.mem_cons_of_mem _ hmem)
    · intro hall c hmem
      rcases List.mem_cons.mp hmem with rfl | hmem
      · exact fun hsame' => hne (hsame.trans hsame'.symm)
      · exact hall c hmem
  · cases hs

/-- **The life of a session.** A cookie is accepted just when it has the sealed part of one that was minted less than
24 h ago and no logout was made with one of that sealed part; it is then the session that was minted. A logout
leaves cookies of other sealed parts as they were, and nothing that comes after it brings its own back. -/
theorem session_lifecycle {clock : Int} {es : List Event} {s : State json mac gcm key}
    (h : Run (step json mac gcm key) Genuine { clock } es s) :
    (∀ now cookie, s.clock ≤ now → Unforged s cookie → ∀ sess,
      getSession json mac gcm key s.revoked now (some cookie) = some sess ↔
        ∃ m ∈ s.minted, sealedPart cookie = sealedPart m.cookie ∧ m.session = sess ∧
          now - sess.createdAt < sessionTTL ∧ ∀ c ∈ s.logouts, sealedPart c ≠ sealedPart m.cookie) ∧
    (∀ now cookie s', Unforged s cookie → step json mac gcm key s (.logout now (some cookie)) = some s' →
      ∀ now' other, now ≤ now' → Unforged s other → sealedPart other ≠ sealedPart cookie →
        getSession json mac gcm key s'.revoked now' (some other) =
          getSession json mac gcm key s.revoked now' (some other)) ∧
    (∀ es' t, Run (step json mac gcm key) Genuine s es' t → ∀ c ∈ s.logouts, ∀ now, t.clock ≤ now →
      getSession json mac gcm key t.revoked now (some c) = none) := by
  have hinv := inv_run h (Inv.start clock)
  refine ⟨fun now cookie hnow hc => hinv.getSession_iff hnow hc,
    fun now cookie s' hc hs now' other hnow ho hne => hinv.getSession_logout hc ho hs hnow hne,
    fun es' t hrun c hc now hnow => ?_⟩
  have hinv' := inv_run hrun hinv
  have hmem := logouts_subset hrun hc
  cases hg : getSession json mac gcm key t.revoked now (some c) with
  | none => rfl
  | some sess =>
    obtain ⟨m, -, hsame, -, -, hnot⟩ := (hinv'.getSession_iff hnow (hinv'.genuine c hmem) sess).mp hg
    exact absurd hsame (hnot c hmem)

/-! ## Another salt -/

/-- The same session under another salt is another cookie with the same sealed part. -/
theorem exists_resalted (m : Minted json mac gcm key) {salt : Salt} (hne : salt ≠ m.rand.salt) :
    ∃ cookie, cookie ≠ m.cookie ∧ sealedPart cookie = sealedPart m.cookie := by
  obtain ⟨data, hdata, hpart⟩ := sealedPart_mint json mac gcm m.minted
  have hmint : mint json mac gcm key m.session { m.rand with salt } = some (String.ofList (Base64.encodeUrl
      (encryptSigned gcm key salt m.rand.nonce (sign mac key data)))) := by
    rw [mint, hdata, Option.map_some]
  obtain ⟨data', hdata', hpart'⟩ := sealedPart_mint json mac gcm hmint
  obtain rfl : data = data' := Option.some.inj (hdata.symm.trans hdata')
  refine ⟨_, fun he => hne ?_, hpart'.trans hpart.symm⟩
  have hcookie := m.minted
  rw [mint, hdata, Option.map_some, ← he] at hcookie
  have hbytes := congrArg Base64.decodeUrl (String.ofList_injective (Option.some.inj hcookie))
  rw [Base64.decodeUrl_encodeUrl, Base64.decodeUrl_encodeUrl] at hbytes
  exact Subtype.ext (List.append_inj_left (Option.some.inj hbytes).symm (salt.2.trans m.rand.salt.2.symm))

end

/-! ## Two logins -/

def exampleRand : Rand where
  csrf := Db.zeroKey
  sid := Db.oneKey
  salt := ⟨List.replicate 16 0, rfl⟩
  nonce := Db.zeroNonce

def exampleSession : Session := newSession 0 "admin" "admin" exampleRand

def exampleText : String :=
  "\x7b\"user\":\"admin\",\"role\":\"admin\",\"csrf\":\"AAAAAAAAAAAAAAAAAAAAAAAAAAAAAAAAAAAAAAAAAAA\"," ++
    "\"createdAt\":\"1970-01-01T00:00:00Z\",\"sid\":\"AQEBAQEBAQEBAQEBAQEBAQEBAQEBAQEBAQEBAQEBAQE\"\x7d"

/-- One hour later. -/
def laterRand : Rand := { exampleRand with sid := Db.zeroKey }

def hour : Int := 3600 * 1000000000

def laterSession : Session := newSession hour "admin" "admin" laterRand

def laterText : String :=
  "\x7b\"user\":\"admin\",\"role\":\"admin\",\"csrf\":\"AAAAAAAAAAAAAAAAAAAAAAAAAAAAAAAAAAAAAAAAAAA\"," ++
    "\"createdAt\":\"1970-01-01T01:00:00Z\",\"sid\":\"AAAAAAAAAAAAAAAAAAAAAAAAAAAAAAAAAAAAAAAAAAA\"\x7d"

theorem laterSession_ne : laterSession ≠ exampleSession := by
  intro h
  have hsid : laterRand.sid = exampleRand.sid := randomToken_inj (congrArg Session.sessionID h)
  revert hsid
  decide

/-- The texts of the two sessions. -/
def exampleJson : SessionJson where
  marshal sess :=
    if sess = exampleSession then some exampleText.toByteArray.data.toList
    else if sess = laterSession then some laterText.toByteArray.data.toList
    else none
  unmarshal data :=
    if data = exampleText.toByteArray.data.toList then some exampleSession
    else if data = laterText.toByteArray.data.toList then some laterSession
    else none
  unmarshal_marshal := by
    intro sess data h
    split at h
    · next he =>
      cases h
      rw [if_pos rfl, he]
    · split at h
      · next he =>
        cases h
        rw [if_neg (by decide +kernel), if_pos rfl, he]
      · cases h

/-- A digest that is 32 zeros. -/
def exampleMac : Key → List UInt8 → List UInt8 := fun _ _ => List.replicate 32 0

abbrev ExampleState := State exampleJson exampleMac Db.Gcm.keyed Db.zeroKey

def exampleStart : ExampleState := { clock := 0 }

def exampleLogin : Event := .login 0 "admin" "admin" exampleRand

def exampleState : ExampleState := act exampleJson exampleMac Db.Gcm.keyed Db.zeroKey exampleStart exampleLogin

theorem exampleRun : Run (step exampleJson exampleMac Db.Gcm.keyed Db.zeroKey) Genuine exampleStart [exampleLogin]
    exampleState := by
  have hg : Genuine exampleStart exampleLogin := fun m hm => absurd hm List.not_mem_nil
  have hle : exampleStart.clock ≤ exampleLogin.now := le_refl 0
  exact .single hg (if_pos hle)

/-- A session that has a text is minted. -/
theorem exists_mintSession {json : SessionJson} (mac : Key → List UInt8 → List UInt8) (gcm : Gcm) (key : Key)
    {now : Int} {user role : String} {rand : Rand}
    (h : (json.marshal (newSession now user role rand)).isSome = true) :
    ∃ m, mintSession json mac gcm key now user role rand = some m ∧ m.session = newSession now user role rand ∧
      m.rand = rand := by
  have hmint : mint json mac gcm key (newSession now user role rand) rand ≠ none := by
    obtain ⟨data, hdata⟩ := Option.isSome_iff_exists.mp h
    rw [mint, hdata]
    exact Option.some_ne_none _
  cases hm : mintSession json mac gcm key now user role rand with
  | none =>
    unfold mintSession at hm
    split at hm
    · next hnone => exact absurd hnone hmint
    · cases hm
  | some m => exact ⟨m, rfl, mem_mintSession hm⟩

theorem exampleState_minted : ∃ m, exampleState.minted = [m] ∧ m.session = exampleSession ∧ m.rand = exampleRand := by
  have htext : (exampleJson.marshal (newSession 0 "admin" "admin" exampleRand)).isSome = true := by
    change (exampleJson.marshal exampleSession).isSome = true
    simp [exampleJson]
  obtain ⟨m, hm, hsession, hrand⟩ := exists_mintSession exampleMac Db.Gcm.keyed Db.zeroKey htext
  refine ⟨m, ?_, hsession, hrand⟩
  change (setLoginCookie exampleJson exampleMac Db.Gcm.keyed Db.zeroKey 0 "admin" "admin" exampleRand).toList ++ [] =
    [m]
  rw [setLoginCookie, hm]
  rfl

def laterLogin : Event := .login hour "admin" "admin" laterRand

def bothLoggedIn : ExampleState := act exampleJson exampleMac Db.Gcm.keyed Db.zeroKey exampleState laterLogin

theorem bothLoggedIn_run : Run (step exampleJson exampleMac Db.Gcm.keyed Db.zeroKey) Genuine exampleStart
    [exampleLogin, laterLogin] bothLoggedIn := by
  obtain ⟨m, hminted, -, hrand⟩ := exampleState_minted
  have hg : Genuine exampleState laterLogin := by
    intro m' hm'
    rw [hminted] at hm'
    obtain rfl := List.mem_singleton.mp hm'
    rw [hrand]
    decide
  have hle : exampleState.clock ≤ laterLogin.now := by decide
  exact exampleRun.append (.single hg (if_pos hle))

theorem bothLoggedIn_minted : ∃ m m', bothLoggedIn.minted = [m', m] ∧ m.session = exampleSession ∧
    m'.session = laterSession := by
  have htext : (exampleJson.marshal (newSession hour "admin" "admin" laterRand)).isSome = true := by
    change (exampleJson.marshal laterSession).isSome = true
    simp [exampleJson, laterSession_ne]
  obtain ⟨m', hm', hsession', -⟩ := exists_mintSession exampleMac Db.Gcm.keyed Db.zeroKey htext
  obtain ⟨m, hminted, hsession, -⟩ := exampleState_minted
  refine ⟨m, m', ?_, hsession, hsession'⟩
  change (setLoginCookie exampleJson exampleMac Db.Gcm.keyed Db.zeroKey hour "admin" "admin" laterRand).toList ++
    exampleState.minted = [m', m]
  rw [setLoginCookie, hm', hminted]
  rfl

abbrev exampleStep : Step ExampleState Event := step exampleJson exampleMac Db.Gcm.keyed Db.zeroKey

abbrev ExampleMinted := Minted exampleJson exampleMac Db.Gcm.keyed Db.zeroKey

abbrev exampleGet (s : ExampleState) (now : Int) (cookie : String) : Option Session :=
  getSession exampleJson exampleMac Db.Gcm.keyed Db.zeroKey s.revoked now (some cookie)

/-- Two logins, a logout with the first cookie and a cleanup, and two days later another cleanup: the first cookie is
accepted before the logout and refused after each of the cleanups, the second is not touched by the logout and accepted
after the first cleanup. -/
theorem session_lifecycle_login : ∃ (m m' : ExampleMinted) (r s t : ExampleState),
    exampleStep bothLoggedIn (.logout (2 * hour) (some m.cookie)) = some r ∧
    Run exampleStep Genuine exampleStart
      [exampleLogin, laterLogin, .logout (2 * hour) (some m.cookie), .cleanup (3 * hour)] s ∧
    Run exampleStep Genuine s [.cleanup (50 * hour)] t ∧
    exampleGet bothLoggedIn hour m.cookie = some exampleSession ∧
    exampleGet r (2 * hour) m'.cookie = exampleGet bothLoggedIn (2 * hour) m'.cookie ∧
    exampleGet s (4 * hour) m.cookie = none ∧
    exampleGet s (4 * hour) m'.cookie = some laterSession ∧
    exampleGet t (50 * hour) m.cookie = none := by
  obtain ⟨m, m', hminted, hsession, hsession'⟩ := bothLoggedIn_minted
  have hm : m ∈ bothLoggedIn.minted := hminted ▸ List.mem_cons_of_mem _ (List.mem_singleton_self m)
  have hm' : m' ∈ bothLoggedIn.minted := hminted ▸ List.mem_cons_self ..
  have hunforged : Unforged bothLoggedIn m.cookie := fun bytes hbytes _ => ⟨m, hm, hbytes⟩
  have hunforged' : Unforged bothLoggedIn m'.cookie := fun bytes hbytes _ => ⟨m', hm', hbytes⟩
  have hne : sealedPart m'.cookie ≠ sealedPart m.cookie := fun h =>
    laterSession_ne ((hsession'.symm.trans (session_eq_of_sealedPart h)).trans hsession)
  let r := act exampleJson exampleMac Db.Gcm.keyed Db.zeroKey bothLoggedIn (.logout (2 * hour) (some m.cookie))
  let s := act exampleJson exampleMac Db.Gcm.keyed Db.zeroKey r (.cleanup (3 * hour))
  let t := act exampleJson exampleMac Db.Gcm.keyed Db.zeroKey s (.cleanup (50 * hour))
  have hlogout : exampleStep bothLoggedIn (.logout (2 * hour) (some m.cookie)) = some r :=
    if_pos (show bothLoggedIn.clock ≤ 2 * hour by decide)
  have hgenuine : Genuine bothLoggedIn (.logout (2 * hour) (some m.cookie)) :=
    fun c hc => Option.some.inj hc ▸ hunforged
  have hcleanup : exampleStep r (.cleanup (3 * hour)) = some s := if_pos (show 2 * hour ≤ 3 * hour by decide)
  have hcleanup' : exampleStep s (.cleanup (50 * hour)) = some t := if_pos (show 3 * hour ≤ 50 * hour by decide)
  have hrun : Run exampleStep Genuine exampleStart
      [exampleLogin, laterLogin, .logout (2 * hour) (some m.cookie), .cleanup (3 * hour)] s :=
    bothLoggedIn_run.append ((Run.single hgenuine hlogout).append (Run.single trivial hcleanup))
  have hrun' : Run exampleStep Genuine s [.cleanup (50 * hour)] t := Run.single trivial hcleanup'
  have hmem : m.cookie ∈ s.logouts := List.mem_singleton_self _
  refine ⟨m, m', r, s, t, hlogout, hrun, hrun', ?_, ?_, ?_, ?_, ?_⟩
  · refine ((session_lifecycle bothLoggedIn_run).1 hour m.cookie (by decide) hunforged exampleSession).mpr ?_
    exact ⟨m, hm, rfl, hsession, by decide, fun c hc => absurd hc List.not_mem_nil⟩
  · exact (session_lifecycle bothLoggedIn_run).2.1 (2 * hour) m.cookie r hunforged hlogout (2 * hour) m'.cookie
      (le_refl _) hunforged' hne
  · exact (session_lifecycle hrun).2.2 [] s (.nil s) m.cookie hmem (4 * hour)
      (show 3 * hour ≤ 4 * hour by decide)
  · refine ((session_lifecycle hrun).1 (4 * hour) m'.cookie (show 3 * hour ≤ 4 * hour by decide) hunforged'
      laterSession).mpr ?_
    refine ⟨m', hm', rfl, hsession', by decide, fun c hc => ?_⟩
    obtain rfl := List.mem_singleton.mp hc
    exact hne.symm
  · exact (session_lifecycle hrun).2.2 [.cleanup (50 * hour)] t hrun' m.cookie hmem (50 * hour) (le_refl (50 * hour))

/-- So is a cookie that was not minted: the minted one with another salt. -/
theorem accepts_unminted :
    Run (step exampleJson exampleMac Db.Gcm.keyed Db.zeroKey) Genuine exampleStart [exampleLogin] exampleState ∧
      ∃ cookie, Unforged exampleState cookie ∧ (∀ m ∈ exampleState.minted, m.cookie ≠ cookie) ∧
        getSession exampleJson exampleMac Db.Gcm.keyed Db.zeroKey exampleState.revoked 1 (some cookie) =
          some exampleSession := by
  refine ⟨exampleRun, ?_⟩
  obtain ⟨m, hminted, hsession, hrand⟩ := exampleState_minted
  have hmem : m ∈ exampleState.minted := hminted ▸ List.mem_singleton_self m
  have hsalt : (⟨List.replicate 16 1, rfl⟩ : Salt) ≠ m.rand.salt := by
    rw [hrand]
    decide
  obtain ⟨cookie, hne, hsame⟩ := exists_resalted m hsalt
  have hunforged : Unforged exampleState cookie := fun bytes hbytes _ => ⟨m, hmem, hsame.symm.trans hbytes⟩
  refine ⟨cookie, hunforged, fun m' hm' => ?_, ?_⟩
  · rw [hminted] at hm'
    obtain rfl := List.mem_singleton.mp hm'
    exact hne.symm
  · refine ((inv_run exampleRun (Inv.start 0)).getSession_iff (by decide) hunforged _).mpr ?_
    exact ⟨m, hmem, hsame, hsession, by decide, fun c hc => absurd hc List.not_mem_nil⟩

end OciHelper.Auth
