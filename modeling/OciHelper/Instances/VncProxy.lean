import OciHelper.Lib.IpAddr
import OciHelper.Lib.Relay

/-!
# The VNC proxy

* `parseVNCURL` : the address in a connection string; `parseVNCURL_joinHostPort` : it is the one that was written there;
* `Proxy`, `step` : a call of `handleVNCProxy`, from its checks to the deletion of the console connection, with the
  tunnel of `Relay` between the VNC server and the browser;
* `Inv` : what is open at which stage;
* `proxy_delivers` : what the tunnel carries, what is left when the call ends, and where it can stay.
-/

namespace OciHelper.Instances.VncProxy
open IpAddr StepRun

abbrev ID := List Char

abbrev Bytes := List UInt8

/-! ## The address -/

/-- The text before and after the last `sep`. -/
def cutLast (sep : List Char) : List Char → Option (List Char × List Char)
  | [] => none
  | c :: cs =>
    match cutLast sep cs with
    | some (a, b) => some (c :: a, b)
    | none => if sep <+: c :: cs then some ([], (c :: cs).drop sep.length) else none

def trimPrefix (front s : List Char) : List Char := if front <+: s then s.drop front.length else s

def trimSuffix (back s : List Char) : List Char := if back <:+ s then s.take (s.length - back.length) else s

def parseVNCURL (vncURL : List Char) : List Char × List Char :=
  let s := trimPrefix "vnc://".toList vncURL
  match s with
  | '[' :: inner =>
    match cutLast "]:".toList s with
    | some (front, port) => (front.drop 1, port)
    | none => (trimSuffix "]".toList inner, "5900".toList)
  | _ => (cutLast ":".toList s).getD (s, "5900".toList)

theorem cutLast_eq_none {sep : List Char} {c : Char} (hsep : c ∈ sep) :
    ∀ {s : List Char}, c ∉ s → cutLast sep s = none := by
  intro s
  induction s with
  | nil => exact fun _ => rfl
  | cons d s ih =>
    intro h
    rw [cutLast, ih fun hmem => h (List.mem_cons_of_mem d hmem)]
    exact if_neg fun hinitial => h (hinitial.subset hsep)

theorem cutLast_append {sep t : List Char} {r : List Char × List Char} (h : cutLast sep t = some r) (a : List Char) :
    cutLast sep (a ++ t) = some (a ++ r.1, r.2) := by
  induction a with
  | nil => exact h
  | cons c a ih => rw [List.cons_append, cutLast, ih]; rfl

theorem cutLast_colon {port : List Char} (h : ':' ∉ port) (host : List Char) :
    cutLast [':'] (host ++ ':' :: port) = some (host, port) := by
  have hhere : cutLast [':'] (':' :: port) = some ([], port) := by
    rw [cutLast, cutLast_eq_none (List.mem_singleton_self ':') h]
    exact if_pos (List.prefix_append [':'] port)
  rw [cutLast_append hhere, List.append_nil]

theorem cutLast_bracket {port : List Char} (h : ':' ∉ port) (host : List Char) :
    cutLast [']', ':'] (host ++ ']' :: ':' :: port) = some (host, port) := by
  have hcolon : cutLast [']', ':'] (':' :: port) = none := by
    rw [cutLast, cutLast_eq_none (show ':' ∈ [']', ':'] by decide) h]
    exact if_neg fun hinitial => absurd (List.cons_prefix_cons.mp hinitial).1 (by decide)
  have hhere : cutLast [']', ':'] (']' :: ':' :: port) = some ([], port) := by
    rw [cutLast, hcolon]
    exact if_pos (List.prefix_append [']', ':'] port)
  rw [cutLast_append hhere, List.append_nil]

/-- An address with a port is read as it was written. -/
theorem parseVNCURL_joinHostPort {host port : List Char} (hport : ':' ∉ port)
    (hhost : ':' ∈ host ∨ ∀ inner, host ≠ '[' :: inner) :
    parseVNCURL ("vnc://".toList ++ joinHostPort host port) = (host, port) := by
  have htrim : trimPrefix "vnc://".toList ("vnc://".toList ++ joinHostPort host port) = joinHostPort host port := by
    rw [trimPrefix, if_pos (List.prefix_append _ _), List.drop_left]
  unfold parseVNCURL
  rw [htrim]
  unfold joinHostPort
  split
  · have hcut := cutLast_bracket hport ('[' :: host)
    rw [show '[' :: host ++ [']', ':'] ++ port = '[' :: host ++ ']' :: ':' :: port by simp]
    change (match cutLast [']', ':'] ('[' :: host ++ ']' :: ':' :: port) with
      | some (front, port) => (front.drop 1, port)
      | none => (trimSuffix "]".toList (host ++ ']' :: ':' :: port), "5900".toList)) = (host, port)
    rw [hcut]
    rfl
  · next hcolon =>
    have hplain := hhost.resolve_left hcolon
    have hcut := cutLast_colon hport host
    dsimp only
    split
    · next inner heq =>
      cases host with
      | nil => exact absurd (List.cons.inj heq).1 (by decide)
      | cons c host =>
        obtain rfl : c = '[' := (List.cons.inj heq).1
        exact absurd rfl (hplain host)
    · rw [show ":".toList = [':'] from rfl, hcut]
      rfl

/-! ## The call -/

inductive LifecycleState
  | active
  | failed
  | other
  deriving DecidableEq, Repr

structure ConsoleConnection where
  lifecycleState : LifecycleState
  vncConnectionString : Option (List Char)
  deriving DecidableEq, Repr

/-- The VNC server is on the left, the browser on the right. -/
abbrev Tunnel := Relay.State (fun _ => Bytes) (fun _ => Bytes)

abbrev TunnelEvent := Relay.Event fun _ => Bytes

/-- An empty read is not sent to the browser. -/
def encode : Relay.Side → Bytes → Option Bytes
  | .left, b => if b = [] then none else some b
  | .right, b => some b

inductive Stage
  | checking
  | creating
  | polling (consoleID : ID) (rounds : Nat)
  | dialling (consoleID : ID) (addr : List Char)
  | upgrading (consoleID : ID)
  | serving (consoleID : ID)
  | deleting (consoleID : ID)
  | finished
  deriving DecidableEq, Repr

/-- `tcp` and `ws` are what the call has opened and has not closed, `console` what the service has made for it and has
not deleted. -/
structure Proxy where
  stage : Stage := .checking
  console : Option ID := none
  tcp : Bool := false
  ws : Bool := false
  tunnel : Tunnel := Relay.start

/-- `made` is the console connection that the service makes, and `told` says whether its answer arrives; `expire` ends
the request, or the time for polling. -/
inductive Event
  | check (ok : Bool)
  | create (made : Option ID) (told : Bool)
  | poll (answer : Option ConsoleConnection)
  | expire
  | dial (ok : Bool)
  | upgrade (ok : Bool)
  | tunnel (e : TunnelEvent)
  | leave
  | delete (ok : Bool)

/-- `WaitForConsoleConnectionActive`, and what follows. -/
def poll (consoleID : ID) (rounds : Nat) (conn : ConsoleConnection) : Stage :=
  match conn.lifecycleState, rounds with
  | .active, _ =>
    match conn.vncConnectionString.getD [] with
    | [] => .deleting consoleID
    | vncConn =>
      let address := parseVNCURL vncConn
      .dialling consoleID (joinHostPort address.1 address.2)
  | .failed, _ => .deleting consoleID
  | .other, 0 => .deleting consoleID
  | .other, rounds + 1 => .polling consoleID rounds

/-- The id that the call learns; an answer without one is an error. -/
def known (made : Option ID) (told : Bool) : Option ID := if told then made.filter (· ≠ []) else none

/-- `rounds` is how often the loop polls before its deadline, but for the first time. -/
def step (rounds : Nat) (p : Proxy) (e : Event) : Option Proxy :=
  match p.stage, e with
  | .checking, .check ok => some { p with stage := if ok then .creating else .finished }
  | .creating, .create made told =>
    some { p with stage := (known made told).elim .finished fun id => .polling id rounds, console := made }
  | .polling id left, .poll answer => some { p with stage := answer.elim (.deleting id) (poll id left) }
  | .polling id _, .expire => some { p with stage := .deleting id }
  | .dialling id _, .dial ok => some { p with stage := if ok then .upgrading id else .deleting id, tcp := ok }
  | .upgrading id, .upgrade ok =>
    some { p with stage := if ok then .serving id else .deleting id, tcp := ok, ws := ok }
  | .serving _, .tunnel e =>
    (Relay.step encode .right p.tunnel e).map fun t =>
      { p with tunnel := t, tcp := !(t.conns .left).closed, ws := !(t.conns .right).closed }
  | .serving id, .leave => if p.tunnel.main = .ended then some { p with stage := .deleting id } else none
  | .deleting _, .delete ok => some { p with stage := .finished, console := if ok then none else p.console }
  | _, _ => none

/-! ## What is open -/

/-- What is open at a stage; before the tunnel is served, nothing in it has moved. -/
def Stage.Open (p : Proxy) : Stage → Prop
  | .checking | .creating => p.console = none ∧ p.tcp = false ∧ p.ws = false ∧ p.tunnel = Relay.start
  | .polling id _ | .dialling id _ => p.console = some id ∧ p.tcp = false ∧ p.ws = false ∧ p.tunnel = Relay.start
  | .upgrading id => p.console = some id ∧ p.tcp = true ∧ p.ws = false ∧ p.tunnel = Relay.start
  | .serving id => p.console = some id ∧ p.tcp = !(p.tunnel.conns .left).closed ∧ p.ws = !(p.tunnel.conns .right).closed
  | .deleting id => p.console = some id ∧ p.tcp = false ∧ p.ws = false
  | .finished => p.tcp = false ∧ p.ws = false

structure Inv (p : Proxy) : Prop where
  tunnel : Relay.Inv p.tunnel
  stage : p.stage.Open p

theorem known_eq_some {made : Option ID} {told : Bool} {id : ID} (h : known made told = some id) : made = some id := by
  unfold known at h
  split at h
  · exact (Option.filter_eq_some_iff.mp h).1
  · cases h

theorem inv_start : Inv {} := ⟨Relay.inv_start, rfl, rfl, rfl, rfl⟩

/-- What happens in the tunnel. -/
def tunnelEvents : List Event → List TunnelEvent
  | [] => []
  | .tunnel e :: es => e :: tunnelEvents es
  | _ :: es => tunnelEvents es

section
variable {rounds : Nat} {p p' : Proxy} {e : Event}

/-- What an answer to a poll can lead to. -/
theorem poll_cases (id : ID) (left : Nat) (conn : ConsoleConnection) :
    poll id left conn = .deleting id ∨ (∃ addr, poll id left conn = .dialling id addr) ∨
      ∃ rest, left = rest + 1 ∧ poll id left conn = .polling id rest := by
  unfold poll
  split
  · split
    · exact .inl rfl
    · exact .inr (.inl ⟨_, rfl⟩)
  · exact .inl rfl
  · exact .inl rfl
  · next rest hstate => exact .inr (.inr ⟨rest, rfl, rfl⟩)

theorem open_poll {id : ID} {left : Nat} (conn : ConsoleConnection) (hconsole : p.console = some id)
    (htcp : p.tcp = false) (hws : p.ws = false) (htunnel : p.tunnel = Relay.start) : (poll id left conn).Open p := by
  obtain h | ⟨addr, h⟩ | ⟨rest, -, h⟩ := poll_cases id left conn
  · rw [h]
    exact ⟨hconsole, htcp, hws⟩
  · rw [h]
    exact ⟨hconsole, htcp, hws, htunnel⟩
  · rw [h]
    exact ⟨hconsole, htcp, hws, htunnel⟩

/-- One step. -/
theorem inv_step (h : Inv p) (hs : step rounds p e = some p') : Inv p' := by
  obtain ⟨htunnel, hopen⟩ := h
  unfold step at hs
  split at hs
  · next ok hstage =>
    rw [hstage] at hopen
    obtain ⟨hconsole, htcp, hws, hfresh⟩ := hopen
    cases hs
    cases ok
    · exact ⟨htunnel, htcp, hws⟩
    · exact ⟨htunnel, hconsole, htcp, hws, hfresh⟩
  · next made told hstage =>
    rw [hstage] at hopen
    obtain ⟨hconsole, htcp, hws, hfresh⟩ := hopen
    cases hs
    refine ⟨htunnel, ?_⟩
    dsimp only
    cases hid : known made told with
    | none => exact ⟨htcp, hws⟩
    | some id => exact ⟨known_eq_some hid, htcp, hws, hfresh⟩
  · next id left answer hstage =>
    rw [hstage] at hopen
    obtain ⟨hconsole, htcp, hws, hfresh⟩ := hopen
    cases hs
    refine ⟨htunnel, ?_⟩
    cases answer with
    | none => exact ⟨hconsole, htcp, hws⟩
    | some conn => exact open_poll conn hconsole htcp hws hfresh
  · next id left hstage =>
    rw [hstage] at hopen
    obtain ⟨hconsole, htcp, hws, hfresh⟩ := hopen
    cases hs
    exact ⟨htunnel, hconsole, htcp, hws⟩
  · next id addr ok hstage =>
    rw [hstage] at hopen
    obtain ⟨hconsole, htcp, hws, hfresh⟩ := hopen
    cases hs
    cases ok
    · exact ⟨htunnel, hconsole, rfl, hws⟩
    · exact ⟨htunnel, hconsole, rfl, hws, hfresh⟩
  · next id ok hstage =>
    rw [hstage] at hopen
    obtain ⟨hconsole, htcp, hws, hfresh⟩ := hopen
    cases hs
    cases ok
    · exact ⟨htunnel, hconsole, rfl, rfl⟩
    · refine ⟨htunnel, hconsole, ?_, ?_⟩
      · dsimp only
        rw [hfresh]
        rfl
      · dsimp only
        rw [hfresh]
        rfl
  · next id e hstage =>
    rw [hstage] at hopen
    obtain ⟨t, ht, rfl⟩ := Option.map_eq_some_iff.mp hs
    refine ⟨Relay.inv_step htunnel ht, ?_⟩
    dsimp only
    rw [hstage]
    exact ⟨hopen.1, rfl, rfl⟩
  · next id hstage =>
    rw [hstage] at hopen
    obtain ⟨hconsole, htcp, hws⟩ := hopen
    split at hs
    · next hended =>
      cases hs
      obtain ⟨-, hall⟩ := htunnel.ended hended
      rw [(hall .left).1] at htcp
      rw [(hall .right).1] at hws
      exact ⟨htunnel, hconsole, htcp, hws⟩
    · cases hs
  · next id ok hstage =>
    rw [hstage] at hopen
    cases hs
    exact ⟨htunnel, hopen.2⟩
  · cases hs

theorem inv_run {C : Proxy → Event → Prop} {es : List Event} (h : Run (step rounds) C {} es p) : Inv p :=
  h.invariant (fun _ _ _ _ hi hs => inv_step hi hs) inv_start

/-- The tunnel moves by its own steps. -/
theorem tunnel_step (hs : step rounds p e = some p') :
    (∃ t, e = .tunnel t ∧ Relay.step encode .right p.tunnel t = some p'.tunnel) ∨
      (∀ es, tunnelEvents (e :: es) = tunnelEvents es) ∧ p'.tunnel = p.tunnel := by
  unfold step at hs
  split at hs
  case h_7 id t hstage =>
    obtain ⟨t', ht, rfl⟩ := Option.map_eq_some_iff.mp hs
    exact .inl ⟨t, rfl, ht⟩
  case h_8 id hstage =>
    split at hs
    · cases hs
      exact .inr ⟨fun _ => rfl, rfl⟩
    · cases hs
  case h_10 => cases hs
  all_goals
    cases hs
    exact .inr ⟨fun _ => rfl, rfl⟩

theorem tunnel_run {C : Proxy → Event → Prop} {es : List Event} (h : Run (step rounds) C p es p') :
    Run (Relay.step encode .right) (Always Tunnel TunnelEvent) p.tunnel (tunnelEvents es) p'.tunnel := by
  induction h with
  | nil p => exact .nil _
  | cons _ hs _ ih =>
    obtain ⟨t, rfl, ht⟩ | ⟨hskip, hsame⟩ := tunnel_step hs
    · exact .cons trivial ht ih
    · rw [hskip, ← hsame]
      exact ih

theorem flatten_filterMap_encode (d : Relay.Side) (bs : List Bytes) :
    (bs.filterMap (encode d)).flatten = bs.flatten := by
  induction bs with
  | nil => rfl
  | cons b bs ih =>
    rw [List.filterMap_cons, List.flatten_cons]
    cases d with
    | left =>
      by_cases hb : b = []
      · simpa [encode, hb] using ih
      · simp [encode, hb, ih]
    | right => simp [encode, ih]

end

/-! ## Where a call stays -/

/-- All but what the network does in the tunnel. -/
def Event.isProgram : Event → Bool
  | .tunnel e => e.isProgram
  | _ => true

def AtRest (rounds : Nat) (p : Proxy) : Prop := ∀ e : Event, e.isProgram → step rounds p e = none

def Proxy.work (rounds : Nat) (p : Proxy) : Nat :=
  match p.stage with
  | .checking => p.tunnel.work + rounds + 7
  | .creating => p.tunnel.work + rounds + 6
  | .polling _ left => p.tunnel.work + left + 5
  | .dialling _ _ => p.tunnel.work + 4
  | .upgrading _ => p.tunnel.work + 3
  | .serving _ => p.tunnel.work + 2
  | .deleting _ => 1
  | .finished => 0

/-- What has come in on a side, and what of it has gone out on the other. -/
def sent (d : Relay.Side) (es : List Event) : Bytes := (Relay.sends d (tunnelEvents es)).flatten

def Proxy.passed (d : Relay.Side) (p : Proxy) : Bytes := (p.tunnel.lines d).written.flatten

/-- The tunnel is served, and in each direction everything has been passed on, or a write has failed. -/
structure Idle (p : Proxy) (es : List Event) : Prop where
  stage : ∃ id, p.stage = .serving id
  waits : Relay.Waits p.tunnel
  passed : ∀ d, (p.tunnel.lines d).copier = .reading → p.passed d = sent d es

section
variable {rounds : Nat} {p p' : Proxy} {e : Event} {es : List Event}

theorem work_poll {id : ID} {left : Nat} (conn : ConsoleConnection) (hstage : p.stage = poll id left conn) :
    p.work rounds < p.tunnel.work + left + 5 := by
  unfold Proxy.work
  rw [hstage]
  obtain h | ⟨addr, h⟩ | ⟨rest, rfl, h⟩ := poll_cases id left conn
  · rw [h]
    dsimp only
    omega
  · rw [h]
    dsimp only
    omega
  · rw [h]
    dsimp only
    omega

theorem work_step (he : e.isProgram) (hs : step rounds p e = some p') : p'.work rounds < p.work rounds := by
  unfold step at hs
  split at hs
  · next ok hstage =>
    cases hs
    cases ok <;> simp only [Proxy.work, hstage, Bool.false_eq_true, if_false, if_true] <;> omega
  · next made told hstage =>
    cases hs
    simp only [Proxy.work, hstage]
    cases known made told with
    | none => simp only [Option.elim_none]; omega
    | some id => simp only [Option.elim_some]; omega
  · next id left answer hstage =>
    cases hs
    have hwork : p.work rounds = p.tunnel.work + left + 5 := by simp only [Proxy.work, hstage]
    rw [hwork]
    cases answer with
    | none => simp only [Proxy.work, Option.elim_none]; omega
    | some conn => exact work_poll (p := { p with stage := poll id left conn }) conn rfl
  · next id left hstage =>
    cases hs
    simp only [Proxy.work, hstage]
    omega
  · next id addr ok hstage =>
    cases hs
    cases ok <;> simp only [Proxy.work, hstage, Bool.false_eq_true, if_false, if_true] <;> omega
  · next id ok hstage =>
    cases hs
    cases ok <;> simp only [Proxy.work, hstage, Bool.false_eq_true, if_false, if_true] <;> omega
  · next id t hstage =>
    obtain ⟨t', ht, rfl⟩ := Option.map_eq_some_iff.mp hs
    have hlt := Relay.work_step he ht
    simp only [Proxy.work, hstage]
    omega
  · next id hstage =>
    split at hs
    · cases hs
      simp only [Proxy.work, hstage]
      omega
    · cases hs
  · next id ok hstage =>
    cases hs
    simp only [Proxy.work, hstage]
    omega
  · cases hs

/-- What has been passed on is what has come in, up to a point. -/
theorem passed_initial (h : Run (step rounds) (Always Proxy Event) {} es p) (d : Relay.Side) :
    p.passed d <+: sent d es := by
  obtain ⟨rest, hrest⟩ := Relay.written_initial (tunnel_run h) d
  unfold Proxy.passed sent
  rw [← flatten_filterMap_encode d (Relay.sends d (tunnelEvents es)), ← hrest, List.flatten_append]
  exact List.prefix_append _ _

/-- A step after which a console connection may be left: its deletion is refused, or its id is not told. -/
def Event.Leaves : Event → Prop
  | .delete ok => ok = false
  | .create made told => ∃ id, made = some id ∧ (told = false ∨ id = [])
  | _ => False

theorem console_of_finished (h : Run (step rounds) (Always Proxy Event) {} es p) (hfinished : p.stage = .finished) :
    p.console = none ∨ ∃ e ∈ es, e.Leaves := by
  by_cases hmem : ∃ e ∈ es, e.Leaves
  · exact .inr hmem
  left
  have hrun := run_of_forall (C := fun e => ¬ e.Leaves) (fun e he hleaves => hmem ⟨e, he, hleaves⟩) (exec_of_run h)
  have hinv : Inv p ∧ (p.stage = .finished → p.console = none) := by
    refine hrun.invariant (I := fun p => Inv p ∧ (p.stage = .finished → p.console = none)) ?_ ⟨inv_start, nofun⟩
    rintro q e q' he ⟨hq, -⟩ hs
    refine ⟨inv_step hq hs, fun hq' => ?_⟩
    obtain ⟨-, hopen⟩ := hq
    unfold step at hs
    split at hs
    · next ok hstage =>
      rw [hstage] at hopen
      cases hs
      exact hopen.1
    · next made told hstage =>
      cases hs
      dsimp only at hq' ⊢
      cases hid : known made told with
      | some id =>
        rw [hid] at hq'
        cases hq'
      | none =>
        cases made with
        | none => rfl
        | some id =>
          have hne : told = true ∧ id ≠ [] := by
            have hnot : ¬ (told = false ∨ id = []) := fun hcase => he ⟨id, rfl, hcase⟩
            simpa using hnot
          simp [known, hne] at hid
    · next id left answer hstage =>
      cases hs
      cases answer with
      | none => cases hq'
      | some conn =>
        change poll id left conn = .finished at hq'
        obtain h | ⟨addr, h⟩ | ⟨rest, -, h⟩ := poll_cases id left conn <;> rw [h] at hq' <;> cases hq'
    · cases hs; cases hq'
    · next ok hstage => cases hs; cases ok <;> cases hq'
    · next ok hstage => cases hs; cases ok <;> cases hq'
    · next hstage =>
      obtain ⟨t, ht, rfl⟩ := Option.map_eq_some_iff.mp hs
      dsimp only at hq'
      rw [hstage] at hq'
      cases hq'
    · split at hs
      · cases hs; cases hq'
      · cases hs
    · next id ok hstage =>
      cases hs
      cases ok with
      | true => rfl
      | false => exact absurd rfl he
    · cases hs
  exact hinv.2 hfinished

/-- A copier that reads has passed on what it has read. -/
theorem passed_of_reading (h : Run (step rounds) (Always Proxy Event) {} es p) {d : Relay.Side}
    (hreading : (p.tunnel.lines d).copier = .reading) (hpending : (p.tunnel.lines d).pending = []) :
    p.passed d = sent d es := by
  obtain ⟨hfaithful, htaken⟩ := Relay.run_line (tunnel_run h) d
  rw [hpending, List.append_nil] at htaken
  simp only [Relay.Line.Faithful, hreading] at hfaithful
  unfold Proxy.passed sent
  rw [hfaithful, htaken, flatten_filterMap_encode]

theorem atRest_iff (h : Run (step rounds) (Always Proxy Event) {} es p) :
    AtRest rounds p ↔ p.stage = .finished ∨ Idle p es := by
  have hinv := inv_run h
  constructor
  · intro hrest
    cases hstage : p.stage with
    | checking =>
      have hnone := hrest (.check true) rfl
      simp only [step, hstage, reduceCtorEq] at hnone
    | creating =>
      have hnone := hrest (.create none true) rfl
      simp only [step, hstage, reduceCtorEq] at hnone
    | polling id left =>
      have hnone := hrest .expire rfl
      simp only [step, hstage, reduceCtorEq] at hnone
    | dialling id addr =>
      have hnone := hrest (.dial true) rfl
      simp only [step, hstage, reduceCtorEq] at hnone
    | upgrading id =>
      have hnone := hrest (.upgrade true) rfl
      simp only [step, hstage, reduceCtorEq] at hnone
    | deleting id =>
      have hnone := hrest (.delete true) rfl
      simp only [step, hstage, reduceCtorEq] at hnone
    | finished => exact .inl rfl
    | serving id =>
      right
      have htunnel : Relay.AtRest encode .right p.tunnel := by
        intro e he
        have hnone := hrest (.tunnel e) he
        simp only [step, hstage, Option.map_eq_none_iff] at hnone
        exact hnone
      have hleave := hrest .leave rfl
      simp only [step, hstage, ite_eq_right_iff, reduceCtorEq, imp_false] at hleave
      have hwaits := ((Relay.atRest_iff hinv.tunnel).mp htunnel).resolve_left hleave
      refine ⟨⟨id, hstage⟩, hwaits, fun d hreading => passed_of_reading h hreading ?_⟩
      obtain ⟨-, -, hpending⟩ | hstopped := hwaits.copiers d
      · exact hpending
      · rw [hreading] at hstopped
        cases hstopped
  · rintro (hfinished | ⟨⟨id, hstage⟩, hwaits, -⟩) e he
    · cases e <;> simp only [step, hfinished]
    · cases e with
      | tunnel t =>
        have hnone : Relay.step encode .right p.tunnel t = none := (Relay.atRest_iff hinv.tunnel).mpr (.inr hwaits) t he
        simp only [step, hstage, hnone, Option.map_none]
      | leave =>
        have hmain : p.tunnel.main ≠ .ended := by
          rw [hwaits.main]
          nofun
        simp only [step, hstage, if_neg hmain]
      | check | create | poll | expire | dial | upgrade | delete => simp only [step, hstage]

/-- **The proxy delivers.** In every run of a call, in each direction what has gone out is what has come in, up to a
point. When the call has ended, both connections are closed, and no console connection is left, unless its deletion was
refused or the answer to its creation was lost or had no id. Without input, there are only so many steps; the call then
has ended, or it serves a tunnel in which each direction has passed on everything or has given up at a failed write. -/
theorem proxy_delivers (h : Run (step rounds) (Always Proxy Event) {} es p) :
    (∀ d, p.passed d <+: sent d es) ∧
      (p.stage = .finished → p.tcp = false ∧ p.ws = false ∧ (p.console = none ∨ ∃ e ∈ es, e.Leaves)) ∧
      (∀ es' p', Run (step rounds) (fun _ e => e.isProgram) p es' p' → es'.length ≤ p.work rounds) ∧
      (AtRest rounds p ↔ p.stage = .finished ∨ Idle p es) := by
  refine ⟨passed_initial h, fun hfinished => ?_, fun es' p' hrun => ?_, atRest_iff h⟩
  · have hopen := (inv_run h).stage
    rw [hfinished] at hopen
    exact ⟨hopen.1, hopen.2, console_of_finished h hfinished⟩
  · have hle := hrun.length_le fun _ _ _ he hs => work_step he hs
    omega

end

/-- A tunnel is opened. -/
def exampleSetup : List Event :=
  [.check true, .create (some "c".toList) true,
    .poll (some { lifecycleState := .other, vncConnectionString := none }),
    .poll (some { lifecycleState := .active, vncConnectionString := some "vnc://h:5901".toList }), .dial true,
    .upgrade true]

/-- The server sends and ends. -/
def exampleTunnel : List TunnelEvent :=
  [.send .left [1, 2], .copy .left false, .copy .left false, .failRead .left, .copy .left true, .main, .main, .main,
    .copy .right true, .main]

theorem proxy_delivers_example : ∃ p,
    exec (step 24) {} (exampleSetup ++ exampleTunnel.map .tunnel ++ [.leave, .delete true]) =
      some p ∧ p.passed .left <+: [1, 2] ∧ p.tcp = false ∧ p.ws = false ∧ p.console = none := by
  have hresult :
      (exec (step 24) {} (exampleSetup ++ exampleTunnel.map .tunnel ++ [.leave, .delete true])).map Proxy.stage =
      some .finished := by decide
  obtain ⟨p, hp, hstage⟩ := Option.map_eq_some_iff.mp hresult
  obtain ⟨hpassed, hfinished, -, -⟩ := proxy_delivers (run_of_exec hp)
  obtain ⟨htcp, hws, hconsole⟩ := hfinished hstage
  refine ⟨p, hp, hpassed .left, htcp, hws, hconsole.resolve_right ?_⟩
  simp [exampleSetup, exampleTunnel, Event.Leaves]

end OciHelper.Instances.VncProxy
