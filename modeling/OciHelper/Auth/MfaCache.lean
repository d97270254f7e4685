import OciHelper.Api.Masks
import OciHelper.Db.Secrets
import OciHelper.Lib.Pool
import OciHelper.Lib.StepRun

/-!
# The MFA cache

* `Operation` : a write of the config table, which may be followed by a refresh; `Request` : what makes such writes;
* `complete` : an operation on its own; `Mirrors` : the cache is what the table says;
* `step` : concurrent requests, one statement or lock at a time; `exec_alone` : a request on its own is `complete`;
* `Keeps`, `Fresh` : the conditions on an operation and on a step under which the cache mirrors the table;
* `Settling` : what a refresh has read is what the table says, as long as the refresh has not stored it.
-/

namespace OciHelper.Auth.Mfa
open Db (Config getConfig setConfig)
open Api StepRun

structure MfaCacheEntry where
  enabled : Bool
  secret : String
  deriving DecidableEq, Repr

structure Server where
  config : Config
  cache : MfaCacheEntry

/-- What the table says. -/
def ofTable (config : Config) : MfaCacheEntry where
  enabled := getConfig config "mfa_enabled" = "true"
  secret := getConfig config "mfa_secret"

def Mirrors (s : Server) : Prop := s.cache = ofTable s.config

/-! ## Operations -/

/-- A write of `handleConfig`, a call of `setConfig`, or the transaction of a restore. -/
inductive Operation
  | post (key value : String)
  | set (key value : String)
  | restore (entries : List (String × String))
  deriving DecidableEq, Repr

/-- Which of the statements of an operation succeed. -/
structure Outcome where
  write : Bool := true
  readEnabled : Bool := true
  readSecret : Bool := true
  deriving DecidableEq, Repr

namespace Operation

def apply : Operation → Config → Config
  | post key value, config => setConfig config key value
  | set key value, config => setConfig config key value
  | restore entries, _ => entries.foldl (fun config e => setConfig config e.1 e.2) ∅

/-- Whether a refresh follows the write. -/
def refreshes : Operation → (written : Bool) → Bool
  | post _ _, _ => false
  | set key _, _ => key = "mfa_enabled" || key = "mfa_secret"
  | restore _, written => written

/-- The table after the write. -/
def table (op : Operation) (written : Bool) (config : Config) : Config := if written then op.apply config else config

end Operation

/-- An error of the read is dropped. -/
def readConfig (config : Config) (key : String) (ok : Bool) : String := if ok then getConfig config key else ""

def refreshMFACache (s : Server) (o : Outcome) : Server :=
  { s with
    cache := ⟨readConfig s.config "mfa_enabled" o.readEnabled = "true",
      readConfig s.config "mfa_secret" o.readSecret⟩ }

def complete (s : Server) (op : Operation) (o : Outcome) : Server :=
  let s := { s with config := op.table o.write s.config }
  if op.refreshes o.write then refreshMFACache s o else s

/-! ## Requests -/

/-- `valid` is the check of the code that was sent. `mfaSetup` is the Telegram flow as well, `mfaDisable` too. -/
inductive Request
  | config (key value : String)
  | setConfig (key value : String)
  | mfaSetup (secret : String)
  | mfaVerify (valid : Bool)
  | mfaDisable (valid : Bool)
  | restore (entries : List (String × String))
  deriving DecidableEq, Repr

/-- What a request writes; the secret that a code is checked against is the cached one. -/
def Request.operations (s : Server) : Request → List Operation
  | .config key value =>
    if key = "" then [] else if key ∈ configSecretKeys ∧ hasMarker value then [] else [.post key value]
  | .setConfig key value => [.set key value]
  | .mfaSetup secret => [.set "mfa_secret" secret, .set "mfa_enabled" "false"]
  | .mfaVerify valid => if s.cache.secret ≠ "" ∧ valid then [.set "mfa_enabled" "true"] else []
  | .mfaDisable valid => if s.cache.secret ≠ "" ∧ valid then [.set "mfa_enabled" "false"] else []
  | .restore entries => [.restore entries]

/-- How far a request is, and the operations that are left. -/
inductive Phase
  | todo (ops : List Operation)
  | written (rest : List Operation)
  | readEnabled (enabled : String) (rest : List Operation)
  | readBoth (enabled secret : String) (rest : List Operation)
  deriving DecidableEq, Repr

structure State where
  server : Server
  requests : Pool Phase := {}

inductive Event
  | start (r : Request)
  | write (n : Nat) (ok : Bool)
  | readEnabled (n : Nat) (ok : Bool)
  | readSecret (n : Nat) (ok : Bool)
  | store (n : Nat)
  deriving DecidableEq, Repr

def step : Step State Event
  | s, .start r => some { s with requests := s.requests.join (.todo (r.operations s.server)) }
  | s, .write n ok =>
    match s.requests.get? n with
    | some (.todo (op :: rest)) =>
      some
        { server := { s.server with config := op.table ok s.server.config }
          requests := s.requests.put n (if op.refreshes ok then .written rest else .todo rest) }
    | _ => none
  | s, .readEnabled n ok =>
    match s.requests.get? n with
    | some (.written rest) =>
      some
        { s with
          requests := s.requests.put n (.readEnabled (readConfig s.server.config "mfa_enabled" ok) rest) }
    | _ => none
  | s, .readSecret n ok =>
    match s.requests.get? n with
    | some (.readEnabled enabled rest) =>
      some
        { s with
          requests := s.requests.put n (.readBoth enabled (readConfig s.server.config "mfa_secret" ok) rest) }
    | _ => none
  | s, .store n =>
    match s.requests.get? n with
    | some (.readBoth enabled secret rest) =>
      some
        { server := { s.server with cache := ⟨enabled = "true", secret⟩ }
          requests := s.requests.put n (.todo rest) }
    | _ => none

/-- The steps of an operation on its own. -/
def alone (n : Nat) (op : Operation) (o : Outcome) : List Event :=
  .write n o.write :: if op.refreshes o.write then [.readEnabled n o.readEnabled, .readSecret n o.readSecret, .store n]
    else []

theorem exec_alone (s : State) {n : Nat} {op : Operation} {rest : List Operation}
    (h : s.requests.get? n = some (.todo (op :: rest))) (o : Outcome) :
    ∃ requests, exec step s (alone n op o) = some ⟨complete s.server op o, requests⟩ ∧
      requests.get? n = some (.todo rest) := by
  have hput : ∀ (p : Pool Phase) {w : Phase}, p.get? n = some w → ∀ w', (p.put n w').get? n = some w' :=
    fun p w hp w' => by rw [Pool.get?_put p hp, if_pos rfl]
  cases hr : op.refreshes o.write with
  | false =>
    refine ⟨s.requests.put n (.todo rest), ?_, hput _ h _⟩
    simp [alone, exec, step, h, hr, complete]
  | true =>
    let p₁ := s.requests.put n (.written rest)
    have h₁ : p₁.get? n = some (.written rest) := hput _ h _
    let config := op.table o.write s.server.config
    let enabled := readConfig config "mfa_enabled" o.readEnabled
    let secret := readConfig config "mfa_secret" o.readSecret
    let p₂ := p₁.put n (.readEnabled enabled rest)
    have h₂ : p₂.get? n = some (.readEnabled enabled rest) := hput _ h₁ _
    let p₃ := p₂.put n (.readBoth enabled secret rest)
    have h₃ : p₃.get? n = some (.readBoth enabled secret rest) := hput _ h₂ _
    refine ⟨p₃.put n (.todo rest), ?_, hput _ h₃ _⟩
    simp [alone, exec, step, h, hr, h₁, h₂, h₃, complete, refreshMFACache, p₁, p₂, p₃, enabled, secret, config]

/-! ## One operation after another -/

/-- A sequence of completed operations. -/
def runOne : Step Server (Operation × Outcome) := fun s e => some (complete s e.1 e.2)

/-- A refresh reads what the table has, and an operation without one does not change it. -/
def Keeps (s : Server) (e : Operation × Outcome) : Prop :=
  let config := e.1.table e.2.write s.config
  if e.1.refreshes e.2.write then
    (e.2.readEnabled = true ∨ getConfig config "mfa_enabled" ≠ "true") ∧
      (e.2.readSecret = true ∨ getConfig config "mfa_secret" = "")
  else ofTable config = ofTable s.config

theorem mirrors_refresh_iff (s : Server) (o : Outcome) :
    Mirrors (refreshMFACache s o) ↔ (o.readEnabled = true ∨ getConfig s.config "mfa_enabled" ≠ "true") ∧
      (o.readSecret = true ∨ getConfig s.config "mfa_secret" = "") := by
  unfold Mirrors refreshMFACache ofTable readConfig
  rw [MfaCacheEntry.mk.injEq]
  refine and_congr ?_ ?_
  · cases o.readEnabled <;> simp
  · cases o.readSecret <;> simp

theorem mirrors_complete_iff {s : Server} (h : Mirrors s) (e : Operation × Outcome) :
    Mirrors (complete s e.1 e.2) ↔ Keeps s e := by
  unfold complete Keeps
  dsimp only
  split
  · exact mirrors_refresh_iff _ _
  · unfold Mirrors
    dsimp only
    rw [show s.cache = ofTable s.config from h, eq_comm]

/-! ## Requests that overlap -/

/-- The request has written and its refresh has not stored yet. -/
def Phase.pending : Phase → Prop
  | .todo _ => False
  | .written _ | .readEnabled _ _ | .readBoth _ _ _ => True

/-- The refresh of the request has read, and has not stored yet. -/
def Phase.reading : Phase → Bool
  | .todo _ | .written _ => false
  | .readEnabled _ _ | .readBoth _ _ _ => true

/-- **The condition.** A write that no refresh follows does not change what the keys say, and one that changes it
falls into no refresh that has read; a read succeeds unless it has nothing to miss. -/
def Fresh (s : State) : Event → Prop
  | .write n ok => ∀ op rest, s.requests.get? n = some (.todo (op :: rest)) →
      ofTable (op.table ok s.server.config) = ofTable s.server.config ∨
        op.refreshes ok = true ∧ ∀ k ph, s.requests.get? k = some ph → ph.reading = false
  | .readEnabled _ ok => ok = true ∨ getConfig s.server.config "mfa_enabled" ≠ "true"
  | .readSecret _ ok => ok = true ∨ getConfig s.server.config "mfa_secret" = ""
  | .start _ => True
  | .store _ => True

/-- What a refresh has read is what the table says. -/
def Phase.Agrees (config : Config) : Phase → Prop
  | .todo _ | .written _ => True
  | .readEnabled enabled _ => decide (enabled = "true") = (ofTable config).enabled
  | .readBoth enabled secret _ => ⟨enabled = "true", secret⟩ = ofTable config

/-- The cache mirrors the table or is about to be refreshed from it. -/
structure Settling (s : State) : Prop where
  mirrors : Mirrors s.server ∨ ∃ n ph, s.requests.get? n = some ph ∧ ph.pending
  agrees : ∀ n ph, s.requests.get? n = some ph → ph.Agrees s.server.config

theorem Phase.Agrees.congr {config config' : Config} (h : ofTable config' = ofTable config) {ph : Phase}
    (hph : ph.Agrees config) : ph.Agrees config' := by
  cases ph with
  | todo | written => trivial
  | readEnabled | readBoth => unfold Phase.Agrees; rwa [h]

theorem Phase.agrees_of_not_reading {config : Config} {ph : Phase} (h : ph.reading = false) : ph.Agrees config := by
  cases ph with
  | todo | written => trivial
  | readEnabled | readBoth => cases h

/-- A request goes on to a phase in which it is about to store. -/
theorem settling_pending {s : State} {config : Config} {n : Nat} {ph ph' : Phase} (h : s.requests.get? n = some ph)
    (hph' : ph'.pending) (hagree : ph'.Agrees config)
    (hothers : ∀ k v, s.requests.get? k = some v → v.Agrees config) :
    Settling ⟨⟨config, s.server.cache⟩, s.requests.put n ph'⟩ where
  mirrors := .inr ⟨n, ph', by rw [Pool.get?_put _ h, if_pos rfl], hph'⟩
  agrees := (s.requests.forall_put_iff h hothers ph').mpr hagree

theorem settling_start {s : State} (h : Settling s) (r : Request) :
    Settling { s with requests := s.requests.join (.todo (r.operations s.server)) } where
  mirrors := by
    rcases h.mirrors with hmirrors | ⟨n, ph, hget, hph⟩
    · exact .inl hmirrors
    · have hne : n ≠ s.requests.workers.length := by
        rintro rfl
        rw [Pool.get?, List.getElem?_eq_none (le_refl _)] at hget
        cases hget
      exact .inr ⟨n, ph, by rw [Pool.get?_join, if_neg hne, hget], hph⟩
  agrees k v hv := by
    rw [Pool.get?_join] at hv
    split at hv
    · cases hv
      trivial
    · exact h.agrees k v hv

/-- A write that no refresh follows leaves what the keys say. -/
theorem settling_write {s : State} (h : Settling s) {n : Nat} {ops : List Operation}
    (hget : s.requests.get? n = some (.todo ops)) {config : Config} (hsame : ofTable config = ofTable s.server.config)
    (rest : List Operation) : Settling ⟨⟨config, s.server.cache⟩, s.requests.put n (.todo rest)⟩ where
  mirrors := by
    rcases h.mirrors with hmirrors | ⟨k, ph, hk, hph⟩
    · refine .inl ?_
      unfold Mirrors at hmirrors ⊢
      rw [hsame]
      exact hmirrors
    · refine .inr ⟨k, ph, ?_, hph⟩
      have hne : k ≠ n := by
        rintro rfl
        rw [hget] at hk
        cases hk
        exact hph
      rw [Pool.get?_put _ hget, if_neg hne, hk]
  agrees := (s.requests.forall_put_iff hget (fun k v hv => (h.agrees k v hv).congr hsame) _).mpr trivial

theorem settling_step {s s' : State} {e : Event} (hf : Fresh s e) (h : Settling s) (hs : step s e = some s') :
    Settling s' := by
  cases e with
  | start r =>
    cases hs
    exact settling_start h r
  | write n ok =>
    unfold step at hs
    dsimp only at hs
    split at hs
    · next op rest hget =>
      cases hs
      have hothers : ∀ k v, s.requests.get? k = some v → v.Agrees (op.table ok s.server.config) := by
        intro k v hv
        obtain hsame | ⟨-, hquiet⟩ := hf op rest hget
        · exact (h.agrees k v hv).congr hsame
        · exact Phase.agrees_of_not_reading (hquiet k v hv)
      cases hr : op.refreshes ok with
      | true => exact settling_pending hget trivial trivial hothers
      | false =>
        obtain hsame | ⟨hrefresh, -⟩ := hf op rest hget
        · exact settling_write h hget hsame rest
        · cases hrefresh.symm.trans hr
    · cases hs
  | readEnabled n ok =>
    unfold step at hs
    dsimp only at hs
    split at hs
    · next rest hget =>
      cases hs
      refine settling_pending hget trivial ?_ h.agrees
      change decide (readConfig s.server.config "mfa_enabled" ok = "true") = _
      obtain rfl | hne := hf
      · rfl
      · cases ok with
        | true => rfl
        | false => simp [readConfig, ofTable, hne]
    · cases hs
  | readSecret n ok =>
    unfold step at hs
    dsimp only at hs
    split at hs
    · next enabled rest hget =>
      cases hs
      refine settling_pending hget trivial ?_ h.agrees
      have hread : readConfig s.server.config "mfa_secret" ok = getConfig s.server.config "mfa_secret" := by
        obtain rfl | hempty := hf
        · rfl
        · cases ok with
          | true => rfl
          | false => exact hempty.symm
      have henabled : decide (enabled = "true") = (ofTable s.server.config).enabled := h.agrees n _ hget
      change (⟨decide (enabled = "true"), readConfig s.server.config "mfa_secret" ok⟩ : MfaCacheEntry) = _
      rw [hread, henabled]
      rfl
    · cases hs
  | store n =>
    unfold step at hs
    dsimp only at hs
    split at hs
    · next enabled secret rest hget =>
      cases hs
      exact ⟨.inl (h.agrees n _ hget), (s.requests.forall_put_iff hget h.agrees _).mpr trivial⟩
    · cases hs

/-- **The cache and the table.** In a sequence of completed operations the cache mirrors the table throughout just
when every operation keeps it so. With requests that overlap, it does so whenever no refresh is under way, if no write
that matters falls between the reads of a refresh and its store. -/
theorem mfaCache_mirrors {config : Config} :
    (∀ ops t, exec runOne ⟨config, ofTable config⟩ ops = some t →
      (Throughout runOne Mirrors ⟨config, ofTable config⟩ ops ↔ Run runOne Keeps ⟨config, ofTable config⟩ ops t)) ∧
    (∀ es t, Run step Fresh { server := ⟨config, ofTable config⟩ } es t →
      (∀ n ph, t.requests.get? n = some ph → ¬ ph.pending) → Mirrors t.server) := by
  constructor
  · intro ops t h
    refine throughout_iff (fun s e s' hm hs => ?_) rfl h
    cases hs
    exact mirrors_complete_iff hm e
  · intro es t hrun hidle
    have h : Settling t := hrun.invariant (fun s e s' hf hi hs => settling_step hf hi hs)
      ⟨.inl rfl, fun n ph hget => by cases hget⟩
    rcases h.mirrors with hm | ⟨n, ph, hget, hph⟩
    · exact hm
    · exact absurd hph (hidle n ph hget)

/-- The test of the condition. -/
def fresh (s : State) : Event → Bool
  | .write n ok =>
    match s.requests.get? n with
    | some (.todo (op :: _)) =>
      ofTable (op.table ok s.server.config) = ofTable s.server.config ||
        op.refreshes ok && s.requests.workers.all fun ph => !ph.reading
    | _ => true
  | .readEnabled _ ok => ok || getConfig s.server.config "mfa_enabled" ≠ "true"
  | .readSecret _ ok => ok || getConfig s.server.config "mfa_secret" = ""
  | _ => true

theorem fresh_of_test {s : State} {e : Event} (h : fresh s e = true) : Fresh s e := by
  cases e with
  | write n ok =>
    intro op rest hget
    unfold fresh at h
    dsimp only at h
    rw [hget] at h
    dsimp only at h
    obtain hsame | hrefresh := (Bool.or_eq_true _ _).mp h
    · exact .inl (of_decide_eq_true hsame)
    · obtain ⟨hrefresh, hall⟩ := (Bool.and_eq_true _ _).mp hrefresh
      refine .inr ⟨hrefresh, fun k ph hk => ?_⟩
      have := List.all_eq_true.mp hall ph (List.mem_of_getElem? hk)
      simpa using this
  | readEnabled n ok => simpa [fresh, Fresh] using h
  | readSecret n ok => simpa [fresh, Fresh] using h
  | start | store => trivial

/-- A setup and a verification overlap: the second one writes before the refreshes of the first one read. -/
def overlapping : List Event :=
  [.start (.mfaSetup "JBSWY3DP"), .write 0 true, .readEnabled 0 true, .readSecret 0 true, .store 0,
    .start (.mfaVerify true), .write 0 true, .write 1 true, .readEnabled 0 true, .readEnabled 1 true,
    .readSecret 1 true, .readSecret 0 true, .store 1, .store 0]

theorem mfaCache_mirrors_overlapping : ∃ t, Run step Fresh { server := ⟨∅, ofTable ∅⟩ } overlapping t ∧
    t.server.cache = ⟨true, "JBSWY3DP"⟩ ∧ Mirrors t.server := by
  obtain ⟨t, ht⟩ : ∃ t, execWhile step fresh { server := ⟨∅, ofTable ∅⟩ } overlapping = some t :=
    Option.isSome_iff_exists.mp (by decide +kernel)
  have hrun := run_of_execWhile (fun _ _ => fresh_of_test) ht
  have hexec := exec_of_run hrun
  have hworkers : t.requests.workers = [.todo [], .todo []] :=
    read_of_exec (f := fun t => t.requests.workers) hexec (by decide +kernel)
  refine ⟨t, hrun, read_of_exec (f := fun t => t.server.cache) hexec (by decide +kernel),
    mfaCache_mirrors.2 _ t hrun fun n ph hget => ?_⟩
  have hmem := List.mem_of_getElem? hget
  rw [hworkers] at hmem
  simp only [List.mem_cons, List.not_mem_nil, or_false, or_self] at hmem
  rw [hmem]
  exact id

/-- MFA is switched on by a write of `/api/config`, and the cache does not know. -/
theorem config_post_stale :
    exec runOne ⟨∅, ofTable ∅⟩ [(.post "mfa_enabled" "true", {})] =
        some ⟨setConfig ∅ "mfa_enabled" "true", ofTable ∅⟩ ∧
      ¬ Mirrors ⟨setConfig ∅ "mfa_enabled" "true", ofTable ∅⟩ := by
  refine ⟨rfl, ?_⟩
  unfold Mirrors
  decide

end OciHelper.Auth.Mfa
