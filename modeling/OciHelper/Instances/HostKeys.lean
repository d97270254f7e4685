import OciHelper.Instances.ConsoleStrings
import OciHelper.Instances.VncProxy
import OciHelper.Lib.Calls

/-!
# Host keys of the shell

* `World` : the pinned keys, the console connections, and a network that shows any key at any address;
* `handshake` : one connection, with `tofuHostKeyCallback`; `connectSSH`, `handleShellWS` : the ways to an instance and
  the end of a session;
* `Pinned` : a key is the one that is pinned for a name; `Settled` : what a request leaves open;
* `hosts_trusted` : in every interleaving of sessions, on any network, the keys of the sessions are the pinned ones, and
  no console connection is left that the program does not know of.

Texts are lists of characters. Sockets that the program closes are left out.
-/

namespace OciHelper.Instances.HostKeys
open Calls Console VncProxy

abbrev Host := List Char

abbrev User := List Char

/-- A port of a host, or one that is reached through a console proxy. -/
inductive Address
  | direct (host : Host) (port : Int)
  | through (proxy : Host) (target : Host) (port : Int)
  deriving DecidableEq, Repr

/-- `owner` is the request that made it, for the statements only. -/
structure ConsoleConnection (ι : Type) where
  owner : Option ι
  lifecycleState : VncProxy.LifecycleState := .other
  connectionString : Option (List Char) := none

/-- `keyAt` is what a server shows at an address, `letsIn` whether it lets a user in. -/
structure World (ι Key : Type) where
  knownHostKeys : Host → Option Key := fun _ => none
  consoles : ID → Option (ConsoleConnection ι) := fun _ => none
  keyAt : Address → Option Key := fun _ => none
  letsIn : Address → User → Bool := fun _ _ => false

inductive Error
  | client
  | createConsole
  | notReady
  | noConnectionString
  | parse (e : ParseError)
  | proxy
  | attempts
  deriving DecidableEq, Repr

/-- `undeleted` is the console connection whose deletion failed; it is logged. -/
structure Failure where
  cause : Error
  undeleted : Option ID := none
  deriving DecidableEq, Repr

structure Client (Key : Type) where
  host : Host
  address : Address
  user : User
  key : Key
  deriving DecidableEq, Repr

structure Session (Key : Type) where
  client : Client Key
  undeleted : Option ID := none
  deriving DecidableEq, Repr

/-- A row of the database, as far as it is read. -/
structure Instance where
  publicIP : Host
  privateIP : Host
  deriving DecidableEq, Repr

structure Request where
  inst : Instance
  loginUser : User := []
  deriving DecidableEq, Repr

/-- What changes by itself: the network, and what a console connection shows. -/
inductive Move (Key : Type)
  | network (keyAt : Address → Option Key) (letsIn : Address → User → Bool)
  | console (id : ID) (lifecycleState : VncProxy.LifecycleState) (connectionString : Option (List Char))
  | expire (id : ID)

section
variable {ι Key Print : Type}

namespace World

def move (m : Move Key) (s : World ι Key) : World ι Key :=
  match m with
  | .network keyAt letsIn => { s with keyAt := keyAt, letsIn := letsIn }
  | .console id state text =>
    { s with
      consoles := Function.update s.consoles id
        ((s.consoles id).map fun c => { c with lifecycleState := state, connectionString := text }) }
  | .expire id => { s with consoles := Function.update s.consoles id none }

def pin (s : World ι Key) (host : Host) (key : Key) : World ι Key :=
  { s with knownHostKeys := Function.update s.knownHostKeys host (some key) }

def addConsole (s : World ι Key) (id : ID) (i : ι) : World ι Key :=
  { s with consoles := Function.update s.consoles id (some { owner := some i }) }

def deleteConsole (id : ID) (s : World ι Key) : World ι Key :=
  { s with consoles := Function.update s.consoles id none }

def owner (s : World ι Key) (id : ID) : Option ι := (s.consoles id).bind ConsoleConnection.owner

end World

abbrev Job (ι Key : Type) := Proc (World ι Key) Failure

variable [DecidableEq Print] (fingerprint : Key → Print)

/-- Whether the key is taken, and the pins after that. -/
def tofuHostKeyCallback (host : Host) (key : Key) (s : World ι Key) : Bool × World ι Key :=
  match s.knownHostKeys host with
  | none => (true, s.pin host key)
  | some stored => (fingerprint stored = fingerprint key, s)

/-- After the server has shown its key. -/
def shown (host : Host) (address : Address) (s : World ι Key) : World ι Key :=
  (s.keyAt address).elim s fun key => (tofuHostKeyCallback fingerprint host key s).2

/-- The key is pinned before the user is let in or not. -/
def handshake (host : Host) (address : Address) (user : User) : Job ι Key Key :=
  .invoke (shown fingerprint host address)
    (fun s =>
      match s.keyAt address with
      | none => .error ⟨.attempts, none⟩
      | some key =>
        if (tofuHostKeyCallback fingerprint host key s).1 && s.letsIn address user then .ok key
        else .error ⟨.attempts, none⟩)
    ⟨.attempts, none⟩

def sshLoginUsers : List User :=
  ["opc".toList, "root".toList, "ubuntu".toList, "debian".toList, "admin".toList]

def userCandidates (loginUser : User) : List User := if loginUser ≠ [] then [loginUser] else sshLoginUsers

/-- The users one after the other, at one address. -/
def tryUsers (host : Host) (address : Address) : List User → Job ι Key (Option (Client Key))
  | [] => pure none
  | user :: users => do
    let key ← (handshake fingerprint host address user).attempt
    match key with
    | some key => pure (some ⟨host, address, user, key⟩)
    | none => tryUsers host address users

/-- The targets behind the proxy: a channel is opened before each handshake. -/
def dialTarget (proxy : Host) : List (Host × Int) → Job ι Key (Option Address)
  | [] => pure none
  | (target, port) :: targets => do
    let address := Address.through proxy target port
    let channel ← (Proc.ask (fun s => if (s.keyAt address).isSome then .ok () else .error ⟨.attempts, none⟩)
      ⟨.attempts, none⟩).attempt
    match channel with
    | some _ => pure (some address)
    | none => dialTarget proxy targets

def targets (proxy : ConsoleProxyInfo) : List (Host × Int) :=
  [(proxy.targetHost, proxy.targetPort), ("localhost".toList, 22), ("127.0.0.1".toList, 22)]

def tryTargets (host : Host) (proxy : ConsoleProxyInfo) : List User → Job ι Key (Option (Client Key))
  | [] => pure none
  | user :: users => do
    let address ← dialTarget proxy.proxyHost (targets proxy)
    match address with
    | none => tryTargets host proxy users
    | some address => do
      let key ← (handshake fingerprint host address user).attempt
      match key with
      | some key => pure (some ⟨host, address, user, key⟩)
      | none => tryTargets host proxy users

/-- What is left after the deletion. -/
def cleanup (id : ID) : Job ι Key (Option ID) := do
  let deleted ← (Proc.send (World.deleteConsole id) ⟨.notReady, none⟩).attempt
  pure (if deleted.isSome then none else some id)

def abandon {α : Type} (id : ID) (cause : Error) : Job ι Key α := do
  let undeleted ← cleanup id
  .done (.error ⟨cause, undeleted⟩)

def waitForConsoleConnectionActive (id : ID) : Nat → Job ι Key (Option (List Char))
  | 0 => .done (.error ⟨.notReady, none⟩)
  | rounds + 1 => do
    let conn ← Proc.ask (fun s => (s.consoles id).elim (.error ⟨.notReady, none⟩) .ok) ⟨.notReady, none⟩
    match conn.lifecycleState with
    | .active => pure conn.connectionString
    | .failed => .done (.error ⟨.notReady, none⟩)
    | .other => waitForConsoleConnectionActive id rounds

variable (consoleId : World ι Key → ID) (rounds : Nat)

def connectThrough (host : Host) (users : List User) (id : ID) (connStr : List Char) :
    Job ι Key (Client Key × Option ID) :=
  match parseConsoleConnectionString connStr with
  | .error e => abandon id (.parse e)
  | .ok proxy => do
    let proxyKey ←
      (handshake fingerprint proxy.proxyHost (.direct proxy.proxyHost proxy.proxyPort) proxy.proxyUser).attempt
    match proxyKey with
    | none => abandon id .proxy
    | some _ => do
      let client ← tryTargets fingerprint host proxy users
      match client with
      | none => abandon id .attempts
      | some client => pure (client, some id)

def connectViaConsoleProxy (i : ι) (host : Host) (users : List User) : Job ι Key (Client Key × Option ID) := do
  Proc.ask (fun _ => .ok ()) ⟨.client, none⟩
  let id ← Proc.invoke (fun s => s.addConsole (consoleId s) i) (fun s => .ok (consoleId s)) ⟨.createConsole, none⟩
  let active ← (waitForConsoleConnectionActive id rounds).attempt
  match active with
  | none => abandon id .notReady
  | some connStr =>
    if connStr.getD [] = [] then abandon id .noConnectionString
    else connectThrough fingerprint host users id (connStr.getD [])

/-- One of the addresses of the instance, where there is reason to try it. -/
def tryAddress (reason : Bool) (host ip : Host) (users : List User) : Job ι Key (Option (Client Key)) :=
  if reason then tryUsers fingerprint host (.direct ip 22) users else pure none

/-- The host keys are those of the public address on every way. -/
def connectSSH (i : ι) (inst : Instance) (loginUser : User) : Job ι Key (Client Key × Option ID) := do
  let users := userCandidates loginUser
  let direct ← tryAddress fingerprint (inst.publicIP ≠ []) inst.publicIP inst.publicIP users
  match direct with
  | some client => pure (client, none)
  | none => do
    let inside ←
      tryAddress fingerprint (inst.privateIP ≠ [] ∧ inst.privateIP ≠ inst.publicIP) inst.publicIP inst.privateIP
      users
    match inside with
    | some client => pure (client, none)
    | none => connectViaConsoleProxy fingerprint consoleId rounds i inst.publicIP users

/-- The session may fail to open; it ends at any time. -/
def handleShellWS (i : ι) (r : Request) : Job ι Key (Session Key) := do
  let connection ← connectSSH fingerprint consoleId rounds i r.inst r.loginUser
  let _ ← (Proc.ask (fun _ => .ok ()) ⟨.client, none⟩).attempt
  match connection.2 with
  | none => pure { client := connection.1 }
  | some id => do
    let undeleted ← cleanup id
    pure { client := connection.1, undeleted := undeleted }

end

/-! ## What a request relies on, and what it does -/

section
variable {ι Key Print : Type} {fingerprint : Key → Print}

/-- A pin stays, and nobody else makes a console connection for the request. -/
structure Relies (i : ι) (s s' : World ι Key) : Prop where
  pins : ∀ host key, s.knownHostKeys host = some key → s'.knownHostKeys host = some key
  owned : ∀ id, s'.owner id = some i → s.owner id = some i

structure Allows (i : ι) (s s' : World ι Key) : Prop where
  pins : ∀ host key, s.knownHostKeys host = some key → s'.knownHostKeys host = some key
  others : ∀ j ≠ i, ∀ id, s'.owner id = some j → s.owner id = some j

instance (i : ι) : IsPreorder (World ι Key) (Relies i) where
  refl _ := ⟨fun _ _ h => h, fun _ h => h⟩
  trans _ _ _ h h' :=
    ⟨fun host key hk => h'.pins host key (h.pins host key hk), fun id hid => h.owned id (h'.owned id hid)⟩

instance (i : ι) : IsPreorder (World ι Key) (Allows i) where
  refl _ := ⟨fun _ _ h => h, fun _ _ _ h => h⟩
  trans _ _ _ h h' :=
    ⟨fun host key hk => h'.pins host key (h.pins host key hk),
      fun j hj id hid => h.others j hj id (h'.others j hj id hid)⟩

theorem Allows.relies {i j : ι} {s s' : World ι Key} (h : Allows i s s') (hij : i ≠ j) : Relies j s s' :=
  ⟨h.pins, h.others j hij.symm⟩

theorem owner_update (s : World ι Key) (id id' : ID) (c : Option (ConsoleConnection ι)) :
    World.owner { s with consoles := Function.update s.consoles id c } id' =
      if id' = id then c.bind ConsoleConnection.owner else s.owner id' := by
  unfold World.owner
  dsimp only
  by_cases hid : id' = id
  · subst hid
    rw [Function.update_self, if_pos rfl]
  · rw [Function.update_of_ne hid, if_neg hid]

theorem relies_move (m : Move Key) (s : World ι Key) (i : ι) : Relies i s (s.move m) := by
  cases m with
  | network keyAt letsIn => exact ⟨fun _ _ h => h, fun _ h => h⟩
  | console id state text =>
    refine ⟨fun _ _ h => h, fun id' h => ?_⟩
    rw [World.move, owner_update] at h
    split at h
    · next hid =>
      obtain ⟨c', hc', howner⟩ := Option.bind_eq_some_iff.mp h
      obtain ⟨c, hc, rfl⟩ := Option.map_eq_some_iff.mp hc'
      rw [World.owner, hid, hc]
      exact howner
    · exact h
  | expire id =>
    refine ⟨fun _ _ h => h, fun id' h => ?_⟩
    rw [World.move, owner_update] at h
    split at h
    · cases h
    · exact h

variable (fingerprint) in
/-- The key is the one that is pinned for the host. -/
def Pinned (s : World ι Key) (host : Host) (key : Key) : Prop :=
  ∃ stored, s.knownHostKeys host = some stored ∧ fingerprint stored = fingerprint key

/-- Of the console connections of the request, only this one may be left. -/
def Settled (i : ι) (s : World ι Key) (undeleted : Option ID) : Prop := ∀ id, s.owner id = some i → undeleted = some id

/-- An error leaves nothing behind that is not logged, but where the answer to the creation may be lost. -/
def Closed (i : ι) (f : Failure) (s : World ι Key) : Prop := f.cause = .createConsole ∨ Settled i s f.undeleted

theorem Pinned.keeps {s s' : World ι Key} {host : Host} {key : Key} (h : Pinned fingerprint s host key)
    (hs : ∀ host key, s.knownHostKeys host = some key → s'.knownHostKeys host = some key) :
    Pinned fingerprint s' host key := by
  obtain ⟨stored, hstored, heq⟩ := h
  exact ⟨stored, hs host stored hstored, heq⟩

theorem Pinned.later {i : ι} {s s' : World ι Key} {host : Host} {key : Key} (h : Pinned fingerprint s host key)
    (hs : Relies i s s') : Pinned fingerprint s' host key := h.keeps hs.pins

theorem Settled.later {i : ι} {s s' : World ι Key} {undeleted : Option ID} (h : Settled i s undeleted)
    (hs : Relies i s s') :
    Settled i s' undeleted := fun id hid => h id (hs.owned id hid)

theorem Closed.later {i : ι} (f : Failure) (s s' : World ι Key) (h : Closed i f s) (hs : Relies i s s') :
    Closed i f s' :=
  h.imp_right fun hsettled => hsettled.later hs

variable (fingerprint) in
/-- A client as it should be. -/
def Trusted (host : Host) (s : World ι Key) (client : Client Key) : Prop :=
  client.host = host ∧ Pinned fingerprint s host client.key

theorem Trusted.later {i : ι} {s t : World ι Key} {host : Host} {client : Client Key}
    (h : Trusted fingerprint host s client)
    (ht : Relies i s t) : Trusted fingerprint host t client := ⟨h.1, h.2.later ht⟩

variable (fingerprint) in
/-- A client with the console connection that it needs, which is the only one. -/
def Connected (i : ι) (host : Host) (connection : Client Key × Option ID) (t : World ι Key) :
    Prop :=
  Trusted fingerprint host t connection.1 ∧ Settled i t connection.2

theorem Connected.later {i : ι} {s : World ι Key} {host : Host} {connection : Client Key × Option ID} {t : World ι Key}
    (h : Connected fingerprint i host connection s) (ht : Relies i s t) : Connected fingerprint i host connection t :=
  ⟨h.1.later ht, h.2.later ht⟩

theorem Trusted.fingerprint_eq {s : World ι Key} {host : Host} {client : Client Key} {stored : Key}
    (h : Trusted fingerprint host s client) (hstored : s.knownHostKeys host = some stored) :
    fingerprint client.key = fingerprint stored := by
  obtain ⟨-, key, hkey, heq⟩ := h
  obtain rfl := Option.some.inj (hstored.symm.trans hkey)
  exact heq.symm

/-- The pins stay. -/
structure Keeps (s s' : World ι Key) : Prop where
  pins : ∀ host key, s.knownHostKeys host = some key → s'.knownHostKeys host = some key

instance : IsPreorder (World ι Key) Keeps where
  refl _ := ⟨fun _ _ h => h⟩
  trans _ _ _ h h' := ⟨fun host key hk => h'.pins host key (h.pins host key hk)⟩

/-! ## The handshake -/

variable [DecidableEq Print]

theorem allows_tofu (i : ι) (host : Host) (key : Key) (s : World ι Key) :
    Allows i s (tofuHostKeyCallback fingerprint host key s).2 := by
  unfold tofuHostKeyCallback
  split
  · next hnone =>
    refine ⟨fun host' key' h => ?_, fun _ _ _ h => h⟩
    have hne : host' ≠ host := by
      rintro rfl
      rw [hnone] at h
      cases h
    exact (Function.update_of_ne hne ..).trans h
  · exact refl_of (Allows i) s

variable (fingerprint) in
theorem owner_tofu (host : Host) (key : Key) (s : World ι Key) (id : ID) :
    (tofuHostKeyCallback fingerprint host key s).2.owner id = s.owner id := by
  unfold tofuHostKeyCallback
  split <;> rfl

/-- A key that is taken is the pinned one from then on. -/
theorem pinned_tofu {host : Host} {key : Key} {s : World ι Key}
    (h : (tofuHostKeyCallback fingerprint host key s).1 = true) :
    Pinned fingerprint (tofuHostKeyCallback fingerprint host key s).2 host key := by
  unfold tofuHostKeyCallback at h ⊢
  split
  · exact ⟨key, Function.update_self .., rfl⟩
  · next stored hstored =>
    rw [hstored] at h
    exact ⟨stored, hstored, of_decide_eq_true h⟩

variable {A : Answer → Prop} {i : ι} {s : World ι Key} {undeleted : Option ID}

/-- Whatever the error, and what is settled stays settled. -/
abbrev JobSpec {α : Type} (A : Answer → Prop) (i : ι) (P : α → World ι Key → Prop) (x : Job ι Key α) (s : World ι Key) :
    Prop :=
  Upholds A (Relies i) (Allows i) (EndsIn (Closed i) P) x s

theorem upholds_handshake {host : Host} {address : Address} {user : User} {Q : Except Failure Key → World ι Key → Prop}
    (hs : Settled i s undeleted)
    (hok : ∀ key t, Settled i t undeleted → Pinned fingerprint t host key → Q (.ok key) t)
    (herror : ∀ e t, Settled i t undeleted → Q (.error e) t) :
    Upholds A (Relies i) (Allows i) Q (handshake fingerprint host address user) s := by
  refine upholds_invoke fun s' hs' => ?_
  have hsettled := hs.later hs'
  have hstay : Allows i s' s' := refl_of (Allows i) s'
  have happly : Allows i s' (shown fingerprint host address s') ∧
      Settled i (shown fingerprint host address s') undeleted := by
    unfold shown
    cases s'.keyAt address with
    | none => exact ⟨hstay, hsettled⟩
    | some key =>
      exact ⟨allows_tofu i host key s', fun id hid => hsettled id (owner_tofu fingerprint host key s' id ▸ hid)⟩
  have heffect : ∀ a : Answer, Allows i s' (a.apply (shown fingerprint host address) s') ∧
      Settled i (a.apply (shown fingerprint host address) s') undeleted := by
    intro a
    cases a with
    | ok => exact happly
    | refused => exact ⟨hstay, hsettled⟩
    | lost => exact happly
  refine ⟨fun a _ => (heffect a).1, fun _ t ht => ?_, fun a _ _ t ht => herror _ t ((heffect a).2.later ht)⟩
  have hafter := happly.2.later ht
  cases hkey : s'.keyAt address with
  | none => exact herror _ t hafter
  | some key =>
    simp only [shown, hkey, Option.elim_some] at ht
    dsimp only
    split
    · next hand =>
      exact hok key t hafter ((pinned_tofu (Bool.and_eq_true_iff.mp hand).1).later ht)
    · exact herror _ t hafter

theorem spec_tryUsers {host : Host} {address : Address} : ∀ {users : List User} {s : World ι Key},
    Settled i s undeleted → JobSpec A i
      (fun found t => Settled i t undeleted ∧ ∀ client ∈ found, Trusted fingerprint host t client)
      (tryUsers fingerprint host address users) s := by
  intro users
  induction users with
  | nil => exact fun hs => upholds_pure fun t ht => ⟨hs.later ht, nofun⟩
  | cons user users ih =>
    intro s hs
    refine upholds_then Closed.later
      (P := fun key t => Settled i t undeleted ∧ ∀ k ∈ key, Pinned fingerprint t host k)
      (upholds_try (upholds_handshake hs (fun key t ht hpinned => ⟨ht, ?_⟩) fun _ t ht => ⟨ht, nofun⟩)) ?_
    · rintro _ ⟨⟩
      exact hpinned
    rintro key s' ⟨hs', hkey⟩
    split
    · next key =>
      refine upholds_pure fun t ht => ⟨hs'.later ht, ?_⟩
      rintro _ ⟨⟩
      exact ⟨rfl, (hkey key rfl).later ht⟩
    · exact ih hs'

theorem spec_tryAddress {reason : Bool} {host ip : Host} {users : List User} (hs : Settled i s undeleted) :
    JobSpec A i (fun found t => Settled i t undeleted ∧ ∀ client ∈ found, Trusted fingerprint host t client)
      (tryAddress fingerprint reason host ip users) s := by
  unfold tryAddress
  split
  · exact spec_tryUsers hs
  · exact upholds_pure fun t ht => ⟨hs.later ht, nofun⟩

theorem spec_dialTarget {proxy : Host} : ∀ {targets : List (Host × Int)} {s : World ι Key}, Settled i s undeleted →
    JobSpec A i (fun _ t => Settled i t undeleted) (dialTarget proxy targets) s := by
  intro targets
  induction targets with
  | nil => exact fun hs => upholds_pure fun t ht => hs.later ht
  | cons target targets ih =>
    intro s hs
    refine upholds_then Closed.later (P := fun _ t => Settled i t undeleted) (upholds_try ?_) fun channel s' hs' => ?_
    · refine upholds_ask (fun _ s' hs' t ht => ?_) fun _ _ _ t ht => hs.later ht
      have hsettled := hs.later (trans_of (Relies i) hs' ht)
      split <;> exact hsettled
    · split
      · exact upholds_pure fun t ht => hs'.later ht
      · exact ih hs'

theorem spec_tryTargets {host : Host} {proxy : ConsoleProxyInfo} : ∀ {users : List User} {s : World ι Key},
    Settled i s undeleted → JobSpec A i
      (fun found t => Settled i t undeleted ∧ ∀ client ∈ found, Trusted fingerprint host t client)
      (tryTargets fingerprint host proxy users) s := by
  intro users
  induction users with
  | nil => exact fun hs => upholds_pure fun t ht => ⟨hs.later ht, nofun⟩
  | cons user users ih =>
    intro s hs
    refine upholds_then Closed.later (spec_dialTarget hs) fun address s' hs' => ?_
    split
    · exact ih hs'
    · refine upholds_then Closed.later
        (P := fun key t => Settled i t undeleted ∧ ∀ k ∈ key, Pinned fingerprint t host k)
        (upholds_try (upholds_handshake hs' (fun key t ht hpinned => ⟨ht, ?_⟩) fun _ t ht => ⟨ht, nofun⟩)) ?_
      · rintro _ ⟨⟩
        exact hpinned
      rintro key s'' ⟨hs'', hkey⟩
      split
      · next key =>
        refine upholds_pure fun t ht => ⟨hs''.later ht, ?_⟩
        rintro _ ⟨⟩
        exact ⟨rfl, (hkey key rfl).later ht⟩
      · exact ih hs''

/-! ## Console connections -/

theorem allows_deleteConsole (i : ι) (id : ID) (s : World ι Key) : Allows i s (s.deleteConsole id) := by
  refine ⟨fun _ _ h => h, fun j _ id' h => ?_⟩
  rw [World.deleteConsole, owner_update] at h
  split at h
  · cases h
  · exact h

theorem allows_addConsole (i : ι) (id : ID) (s : World ι Key) : Allows i s (s.addConsole id i) := by
  refine ⟨fun _ _ h => h, fun j hj id' h => ?_⟩
  rw [World.addConsole, owner_update] at h
  split at h
  · exact absurd (Option.some.inj h).symm hj
  · exact h

theorem settled_deleteConsole {id : ID} (h : Settled i s (some id)) : Settled i (s.deleteConsole id) none := by
  intro id' howner
  rw [World.deleteConsole, owner_update] at howner
  split at howner
  · cases howner
  · next hne => exact absurd (Option.some.inj (h id' howner)).symm hne

theorem Settled.some {id : ID} (h : Settled i s none) : Settled i s (some id) :=
  fun id' howner => absurd (h id' howner) (by nofun)

/-- The deletion, or the log entry. -/
theorem spec_cleanup {id : ID} (hs : Settled i s (some id)) :
    JobSpec A i (fun undeleted t => Settled i t undeleted) (cleanup id) s := by
  refine upholds_then Closed.later (P := fun deleted t => Settled i t (if deleted.isSome then none else some id))
    (upholds_try (upholds_send fun s' hs' => ?_)) fun deleted s' hs' => upholds_pure fun t ht => ?_
  case refine_2 => exact hs'.later ht
  have hsettled := hs.later hs'
  have hdeleted := settled_deleteConsole hsettled
  refine ⟨fun a _ => ?_, fun _ t ht => hdeleted.later ht, fun a _ _ t ht => ?_⟩
  · cases a with
    | ok => exact allows_deleteConsole i id s'
    | refused => exact refl_of (Allows i) s'
    | lost => exact allows_deleteConsole i id s'
  · cases a with
    | ok => exact hdeleted.some.later ht
    | refused => exact hsettled.later ht
    | lost => exact hdeleted.some.later ht

theorem spec_abandon {α : Type} {P : α → World ι Key → Prop} {id : ID} {cause : Error} (hs : Settled i s (some id)) :
    JobSpec A i P (abandon id cause) s :=
  upholds_then Closed.later (spec_cleanup hs) fun _ _ hs' => upholds_done fun _ ht => .inr (hs'.later ht)

theorem spec_waitForConsoleConnectionActive {id : ID} : ∀ {rounds : Nat} {s : World ι Key}, Settled i s undeleted →
    Upholds A (Relies i) (Allows i) (fun _ t => Settled i t undeleted)
      (waitForConsoleConnectionActive id rounds) s := by
  intro rounds
  induction rounds with
  | zero => exact fun hs => upholds_done fun t ht => hs.later ht
  | succ rounds ih =>
    intro s hs
    refine upholds_bind (upholds_ask (fun _ s' hs' t ht => ?_) fun _ _ _ t ht => ?_)
    · have ht := hs.later (trans_of (Relies i) hs' ht)
      cases s'.consoles id with
      | none => exact upholds_done fun t' ht' => ht.later ht'
      | some conn =>
        dsimp only [Option.elim_some]
        split
        · exact upholds_pure fun t' ht' => ht.later ht'
        · exact upholds_done fun t' ht' => ht.later ht'
        · exact ih ht
    · exact upholds_done fun t' ht' => hs.later (trans_of (Relies i) ht ht')

theorem spec_connectThrough {host : Host} {users : List User} {id : ID} {connStr : List Char}
    (hs : Settled i s (some id)) :
    JobSpec A i (Connected fingerprint i host) (connectThrough fingerprint host users id connStr) s := by
  unfold connectThrough
  split
  · exact spec_abandon hs
  · next proxy _ =>
    refine upholds_then Closed.later (P := fun _ t => Settled i t (some id))
      (upholds_try (upholds_handshake hs (fun _ t ht _ => ht) fun _ t ht => ht)) fun proxyKey s' hs' => ?_
    split
    · exact spec_abandon hs'
    · refine upholds_then Closed.later (spec_tryTargets hs') ?_
      rintro client s'' ⟨hs'', hclient⟩
      split
      · exact spec_abandon hs''
      · next client => exact upholds_pure fun t ht => Connected.later ⟨hclient client rfl, hs''⟩ ht

theorem spec_connectViaConsoleProxy {consoleId : World ι Key → ID} {rounds : Nat} {host : Host} {users : List User}
    (hs : Settled i s none) : JobSpec A i (Connected fingerprint i host)
      (connectViaConsoleProxy fingerprint consoleId rounds i host users) s := by
  refine upholds_then Closed.later (P := fun _ t => Settled i t none)
    (upholds_ask (fun _ s' hs' t ht => hs.later (trans_of (Relies i) hs' ht)) fun _ _ _ t ht => .inr (hs.later ht))
    fun _ s₁ hs₁ => ?_
  refine upholds_then Closed.later (P := fun id t => Settled i t (some id)) (upholds_invoke fun s' hs' => ?_)
    fun id s₂ hs₂ => ?_
  · have hsettled := hs₁.later hs'
    refine ⟨fun a _ => ?_, fun _ t ht => Settled.later (fun id' howner => ?_) ht, fun _ _ _ _ _ => .inl rfl⟩
    · cases a with
      | ok => exact allows_addConsole i _ s'
      | refused => exact refl_of (Allows i) s'
      | lost => exact allows_addConsole i _ s'
    · rw [World.addConsole, owner_update] at howner
      split at howner
      · next hid => exact congrArg some hid.symm
      · exact absurd (hsettled id' howner) (by nofun)
  · refine upholds_then Closed.later (P := fun _ t => Settled i t (some id))
      (upholds_try ((spec_waitForConsoleConnectionActive hs₂).imp fun r t ht => ?_)) fun active s₃ hs₃ => ?_
    · cases r <;> exact ht
    split
    · exact spec_abandon hs₃
    · split
      · exact spec_abandon hs₃
      · exact spec_connectThrough hs₃

theorem spec_connectSSH {consoleId : World ι Key → ID} {rounds : Nat} {inst : Instance} {loginUser : User}
    (hs : Settled i s none) :
    JobSpec A i (Connected fingerprint i inst.publicIP)
      (connectSSH fingerprint consoleId rounds i inst loginUser) s := by
  refine upholds_then Closed.later (spec_tryAddress hs) ?_
  rintro direct s₁ ⟨hs₁, hdirect⟩
  split
  · next client => exact upholds_pure fun t ht => Connected.later ⟨hdirect client rfl, hs₁⟩ ht
  · refine upholds_then Closed.later (spec_tryAddress hs₁) ?_
    rintro inside s₂ ⟨hs₂, hinside⟩
    split
    · next client => exact upholds_pure fun t ht => Connected.later ⟨hinside client rfl, hs₂⟩ ht
    · exact spec_connectViaConsoleProxy hs₂

theorem spec_handleShellWS {consoleId : World ι Key → ID} {rounds : Nat} {r : Request} (hs : Settled i s none) :
    JobSpec A i (fun session t => Trusted fingerprint r.inst.publicIP t session.client ∧ Settled i t session.undeleted)
      (handleShellWS fingerprint consoleId rounds i r) s := by
  refine upholds_then Closed.later (spec_connectSSH hs) ?_
  rintro ⟨client, console⟩ s₁ hs₁
  refine upholds_then Closed.later (P := fun _ t => Connected fingerprint i r.inst.publicIP (client, console) t)
    (upholds_try
      (upholds_ask (fun _ s' hs' t ht => hs₁.later (trans_of (Relies i) hs' ht)) fun _ _ _ t ht => hs₁.later ht))
    fun _ s₂ hs₂ => ?_
  obtain ⟨htrusted, hsettled⟩ := hs₂
  dsimp only
  split
  · exact upholds_pure fun t ht => ⟨htrusted.later ht, Settled.later hsettled ht⟩
  · refine upholds_then Closed.later (P := fun undeleted t => Trusted fingerprint r.inst.publicIP t client ∧
      Settled i t undeleted) ?_ fun undeleted s₃ hs₃ => upholds_pure fun t ht => ⟨hs₃.1.later ht, hs₃.2.later ht⟩
    refine ((spec_cleanup hsettled).frame (P := fun t => Trusted fingerprint r.inst.publicIP t client)
      (fun _ _ h ht => h.later ht) (fun _ _ h ht => ⟨h.1, h.2.keeps ht.pins⟩) htrusted).imp fun r t ht => ?_
    cases r with
    | ok undeleted => exact ht
    | error f => exact ht.2

/-! ## Many sessions -/

variable [DecidableEq ι]

/-- **Trust on first use.** However the sessions interleave, and whatever the network shows: a pin stays; the sessions
of all instances with one public address, on whichever way, have had servers with one key, the pinned one if there was
one before; and of the console connections of an ended request only the one is left whose deletion failed and was
logged, unless the answer to its creation was lost. -/
theorem hosts_trusted (consoleId : World ι Key → ID) (rounds : Nat) (requests : ι → Request) {A : Answer → Prop}
    {s₀ : World ι Key} (hstart : ∀ id, s₀.owner id = none) {es : List (Event ι (Move Key))}
    {p : Procs ι (World ι Key) Failure (Session Key)}
    (hrun : StepRun.Run (Procs.step World.move) (fun _ => Answered A)
      ⟨s₀, fun i => handleShellWS fingerprint consoleId rounds i (requests i)⟩ es p) :
    Keeps s₀ p.state ∧
      (∀ i session, p.procs i = .done (.ok session) →
        (∀ stored, s₀.knownHostKeys (requests i).inst.publicIP = some stored →
          fingerprint session.client.key = fingerprint stored) ∧
        (∀ j session', p.procs j = .done (.ok session') → (requests j).inst.publicIP = (requests i).inst.publicIP →
          fingerprint session'.client.key = fingerprint session.client.key) ∧
        Settled i p.state session.undeleted) ∧
      ∀ i f, p.procs i = .done (.error f) → Closed i f p.state := by
  have hothers : ∀ i j : ι, i ≠ j → ∀ s s' : World ι Key, Allows i s s' → Relies j s s' :=
    fun _ _ hij _ _ h => h.relies hij
  have hmoves : ∀ (m : Move Key) (s : World ι Key) (i : ι), Relies i s (s.move m) := relies_move
  have hspec : ∀ i, JobSpec A i (fun session t => Trusted fingerprint (requests i).inst.publicIP t session.client ∧
      Settled i t session.undeleted) (handleShellWS fingerprint consoleId rounds i (requests i)) s₀ :=
    fun i => spec_handleShellWS fun id howner => absurd ((hstart id).symm.trans howner) (by nofun)
  have hkeeps : Keeps s₀ p.state := by
    refine Procs.run_within hothers hmoves (fun _ _ _ h => ⟨h.pins⟩) (fun m s => ⟨?_⟩) hrun hspec
    cases m <;> exact fun _ _ h => h
  have htrusted : ∀ i session, p.procs i = .done (.ok session) →
      Trusted fingerprint (requests i).inst.publicIP p.state session.client ∧ Settled i p.state session.undeleted :=
    fun i session hi => Procs.run_ended hothers hmoves hrun hspec hi
  refine ⟨hkeeps, fun i session hi => ?_, fun i f hi => Procs.run_ended hothers hmoves hrun hspec hi⟩
  obtain ⟨htrust, hsettled⟩ := htrusted i session hi
  refine ⟨fun stored hstored => htrust.fingerprint_eq (hkeeps.pins _ stored hstored), fun j session' hj hsame => ?_,
      hsettled⟩
  obtain ⟨-, key, hkey, heq⟩ := htrust
  rw [← heq]
  exact (htrusted j session' hj).1.fingerprint_eq (hsame ▸ hkey)

end

/-- The server of an instance, which lets `root` in. -/
def exampleWorld : World Bool Nat where
  knownHostKeys host := if host = "192.0.2.1".toList then some 1 else none
  keyAt address := if address = .direct "192.0.2.1".toList 22 then some 1 else none
  letsIn _ user := user = "root".toList

/-- Another server takes its address. -/
def impostor : Move Nat := .network (fun _ => some 2) fun _ _ => true

def exampleRequest (_ : Bool) : Request where
  inst := { publicIP := "192.0.2.1".toList, privateIP := [] }

def exampleStart : Procs Bool (World Bool Nat) Failure (Session Nat) :=
  ⟨exampleWorld, fun i => handleShellWS id (fun _ => "c".toList) 1 i (exampleRequest i)⟩

/-- One session, the impostor, and another session, which finds no way. -/
def exampleEvents : List (Event Bool (Move Nat)) :=
  List.replicate 3 (.call false .ok) ++ .move impostor :: List.replicate 9 (.call true .ok)

theorem hosts_trusted_example : ∃ p session f,
    StepRun.exec (Procs.step World.move) exampleStart exampleEvents = some p ∧
    p.procs false = .done (.ok session) ∧ session.client.user = "root".toList ∧ session.client.key = 1 ∧
    p.procs true = .done (.error f) ∧ Closed true f p.state := by
  have hresult : (StepRun.exec (Procs.step World.move) exampleStart exampleEvents).map
      (fun p => ((p.procs false).result?.map fun r => r.map fun session => session.client.user,
        (p.procs true).result?.map fun r => r.map fun session => session.client.user)) =
      some (some (.ok "root".toList), some (.error ⟨.notReady, none⟩)) := by decide +kernel
  obtain ⟨p, hp, hdone⟩ := Option.map_eq_some_iff.mp hresult
  obtain ⟨hfirst, hsecond⟩ := Prod.mk.inj hdone
  obtain ⟨r, hr, hok⟩ := Option.map_eq_some_iff.mp hfirst
  obtain ⟨r', hr', herror⟩ := Option.map_eq_some_iff.mp hsecond
  have hrun := StepRun.run_of_forall (C := Answered fun _ => True) (fun e _ => by cases e <;> trivial) hp
  obtain ⟨-, hsessions, hclosed⟩ := hosts_trusted (fun _ => "c".toList) 1 exampleRequest (fun _ => rfl) hrun
  cases r with
  | error f => cases hok
  | ok session =>
    cases r' with
    | ok session' => cases herror
    | error f =>
      have hi := Proc.eq_done_of_result? hr
      have hj := Proc.eq_done_of_result? hr'
      exact ⟨p, session, f, hp, hi, Except.ok.inj hok, (hsessions false session hi).1 1 (by decide), hj,
        hclosed true f hj⟩

end OciHelper.Instances.HostKeys
