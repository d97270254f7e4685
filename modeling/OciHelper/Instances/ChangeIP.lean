import Mathlib.Data.List.ReduceOption
import OciHelper.Lib.IpAddr
import OciHelper.Lib.StepRun
import OciHelper.Lib.Traced

/-!
# A new public address

* `Vnic` : its private IPs and what is bound to them; `Attachments` : the VNICs of an instance;
* `changeInstanceIP` : the VNIC that is resolved, the deletion of the old address, the new one and the filter;
* `attempt` : one call of the retry loop, with what it leaves;
* `Due` : an address that is deleted is the old one or made by the call, and a new one is made at home;
* `Right` : the address that is found is the old one, and the VNIC that is resolved is home;
* `changeIP_right_iff` : when all attempts of a task touch only the right address.
-/

namespace OciHelper.Instances.ChangeIP
open StepRun Traced

abbrev ID := List Char

structure PublicIp where
  id : ID
  ipAddress : List Char
  reserved : Bool
  deriving DecidableEq, Repr

structure PrivateIp where
  id : ID
  isPrimary : Bool
  publicIp : Option PublicIp
  deriving DecidableEq, Repr

/-- The private IPs are in the order of their listing. -/
structure Vnic where
  id : ID
  privateIps : List PrivateIp
  onePrimary : ∀ p ∈ privateIps, ∀ q ∈ privateIps, p.isPrimary = true → q.isPrimary = true → p = q

/-- The attachments in the order of their listing; one that is being made has no VNIC yet. -/
abbrev Attachments := List (Option Vnic)

namespace Vnic

/-- A page holds 100. -/
def page (v : Vnic) : List PrivateIp := v.privateIps.take 100

/-- The field of `GetVnic` is the address of the primary private IP. -/
def publicIp (v : Vnic) : List Char :=
  ((v.privateIps.find? PrivateIp.isPrimary).bind PrivateIp.publicIp).elim [] PublicIp.ipAddress

/-- What is bound to a private IP is replaced. -/
def rebind (id : ID) (ip : Option PublicIp) (v : Vnic) : Vnic where
  id := v.id
  privateIps := v.privateIps.map fun p => if p.id = id then { p with publicIp := ip } else p
  onePrimary := by
    have hprimary : ∀ p : PrivateIp, (if p.id = id then { p with publicIp := ip } else p).isPrimary = p.isPrimary :=
      fun p => by split <;> rfl
    intro p' hp' q' hq' hp hq
    obtain ⟨p, hpmem, rfl⟩ := List.mem_map.mp hp'
    obtain ⟨q, hqmem, rfl⟩ := List.mem_map.mp hq'
    rw [hprimary] at hp hq
    rw [v.onePrimary p hpmem q hqmem hp hq]

end Vnic

/-- What becomes of a deletion; an unconfirmed one has happened, but an error is returned. An address that is not
found is gone already. -/
inductive Deletion
  | refused
  | notFound
  | unconfirmed
  | done
  deriving DecidableEq, Repr

def Deletion.happened : Deletion → Bool
  | .unconfirmed | .done => true
  | .refused | .notFound => false

def Deletion.accepted : Deletion → Bool
  | .notFound | .done => true
  | .refused | .unconfirmed => false

/-- How the service answers. A creation that it grants gives a new address. -/
structure Answers where
  attachments : Bool := true
  getVnic : ID → Bool := fun _ => true
  privateIps : Bool := true
  publicIp : ID → Bool := fun _ => true
  deleteOld : Deletion := .done
  create : Option (ID × List Char)
  deleteNew : Deletion := .done

inductive ChangeError
  | listAttachments
  | noVnicAttached
  | getVnic (id : ID)
  | noVnicID
  | listPrivateIps
  | noPrimary
  | getPublicIp (id : ID)
  | noPublicIp
  | deleteOld
  | create
  | notInRanges (ip : List Char)
  deriving DecidableEq, Repr

/-- What the call does; `resolved` is the VNIC it found with its address. An address that is `gone` was deleted by
someone else. -/
inductive Event
  | resolved (v : Vnic) (oldIP : List Char)
  | deleted (p : PrivateIp) (ip : PublicIp)
  | gone (p : PrivateIp)
  | created (vnicID privateIpID : ID) (ip : PublicIp)

def Deletion.events (p : PrivateIp) (ip : PublicIp) : Deletion → List Event
  | .unconfirmed | .done => [.deleted p ip]
  | .notFound => [.gone p]
  | .refused => []

/-! ## The call -/

/-- The first VNIC with an address, or the first one. -/
def resolvePublicIPVnic (getVnic : ID → Bool) : (first : Option Vnic) → Attachments →
    Except ChangeError (Vnic × List Char)
  | none, [] => .error .noVnicID
  | some v, [] => .ok (v, [])
  | first, none :: rest => resolvePublicIPVnic getVnic first rest
  | first, some v :: rest =>
    if getVnic v.id = false then .error (.getVnic v.id)
    else if v.publicIp ≠ [] then .ok (v, v.publicIp)
    else resolvePublicIPVnic getVnic (first.or (some v)) rest

/-- The first private IP with a public one. -/
def publicIPIDForPrivateIPs (publicIp : ID → Bool) : List PrivateIp → Except ChangeError (PrivateIp × PublicIp)
  | [] => .error .noPublicIp
  | p :: rest =>
    if publicIp p.id = false then .error (.getPublicIp p.id)
    else
      match p.publicIp with
      | some ip => .ok (p, ip)
      | none => publicIPIDForPrivateIPs publicIp rest

def ipInCIDR (ip cidr : List Char) : Bool :=
  match IpAddr.parseIP ip, IpAddr.parseCIDR cidr with
  | some ip, some (_, cidr) => cidr.contains ip
  | _, _ => false

variable (a : Answers) (cidrList : List (List Char))

/-- The result says whether the target has no public IP now. -/
def releaseOld (oldIP : List Char) (items : List PrivateIp) (target : PrivateIp) : Traced Event ChangeError Bool :=
  if oldIP = [] then pure true
  else do
    let (holder, old) ← (⟨[], publicIPIDForPrivateIPs a.publicIp items⟩ : Traced Event ChangeError _)
    emit (a.deleteOld.events holder old)
    require a.deleteOld.accepted .deleteOld
    return holder.id = target.id

/-- An address outside the ranges is given back. -/
def filterNew (target : PrivateIp) (new : PublicIp) : Traced Event ChangeError (List Char) :=
  if cidrList ≠ [] ∧ cidrList.any (ipInCIDR new.ipAddress) = false then do
    emit (a.deleteNew.events { target with publicIp := some new } new)
    require false (.notInRanges new.ipAddress)
    return []
  else return new.ipAddress

/-- The service refuses a second public IP for one private IP. -/
def createNew (vnic : Vnic) (target : PrivateIp) (free : Bool) : Traced Event ChangeError PublicIp := do
  let (id, ipAddress) ← demand (if free then a.create else none) .create
  let new : PublicIp := ⟨id, ipAddress, false⟩
  emit [.created vnic.id target.id new]
  return new

/-- What follows when the target is known. -/
def replaceIP (vnic : Vnic) (oldIP : List Char) (target : PrivateIp) : Traced Event ChangeError (List Char) := do
  emit [.resolved vnic oldIP]
  let free ← releaseOld a oldIP vnic.page target
  let new ← createNew a vnic target free
  filterNew a cidrList target new

def changeInstanceIP (w : Attachments) : Traced Event ChangeError (List Char) := do
  require a.attachments .listAttachments
  let items := w.take 100
  require (!items.isEmpty) .noVnicAttached
  let (vnic, oldIP) ← (⟨[], resolvePublicIPVnic a.getVnic none items⟩ : Traced Event ChangeError _)
  require a.privateIps .listPrivateIps
  let target ← demand (vnic.page.find? PrivateIp.isPrimary) .noPrimary
  replaceIP a cidrList vnic oldIP target

/-! ## The retries -/

def Event.apply (w : Attachments) : Event → Attachments
  | .resolved _ _ => w
  | .deleted p _ => w.map (Option.map (Vnic.rebind p.id none))
  | .gone p => w.map (Option.map (Vnic.rebind p.id none))
  | .created _ privateIpID ip => w.map (Option.map (Vnic.rebind privateIpID (some ip)))

/-- `log` are the events of the attempts so far. -/
structure State where
  attachments : Attachments
  log : List (List Event) := []
  done : Bool := false

/-- One attempt; there is no other one after a success. -/
def attempt : Step State Answers := fun s a =>
  if s.done then none
  else
    let t := changeInstanceIP a cidrList s.attachments
    some
      { attachments := t.trace.foldl Event.apply s.attachments
        log := s.log ++ [t.trace]
        done := t.result matches .ok _ }

/-! ## What it should do -/

/-- The VNIC with the public IP, the first one if there is none. -/
def carrier (w : Attachments) : Option Vnic :=
  let vnics := (w.take 100).reduceOption
  (vnics.find? fun v => v.publicIp ≠ []).or vnics.head?

/-- What is deleted is the ephemeral address of the primary private IP of the VNIC that was resolved, or was created
before in this call; what is created is at home. -/
def Due (home : Option ID) (before : List Event) : Event → Prop
  | .resolved _ _ => True
  | .gone _ => True
  | .deleted p ip =>
    (∃ v oldIP, .resolved v oldIP ∈ before ∧ p ∈ v.privateIps ∧ p.isPrimary = true ∧ p.publicIp = some ip ∧
      ip.reserved = false ∧ ip.ipAddress = oldIP) ∨
    ∃ vnicID, .created vnicID p.id ip ∈ before
  | .created vnicID _ _ => home = some vnicID

def OnlyRight (home : Option ID) (s : State) : Prop := ∀ t ∈ s.log, Justified (Due home) [] t

/-- Where an attempt deletes an old address, the first private IP with a public one is the primary one and its public
IP is ephemeral; where it creates a new one, the VNIC that it resolves is home. -/
def Right (home : Option ID) (s : State) (a : Answers) : Prop :=
  a.attachments = true → a.privateIps = true →
    ∀ v oldIP target, resolvePublicIPVnic a.getVnic none (s.attachments.take 100) = .ok (v, oldIP) →
      v.page.find? PrivateIp.isPrimary = some target →
      (oldIP ≠ [] → ∀ p ip, publicIPIDForPrivateIPs a.publicIp v.page = .ok (p, ip) → a.deleteOld.happened = true →
        p.isPrimary = true ∧ ip.reserved = false) ∧
      ((oldIP ≠ [] → ∃ p ip, publicIPIDForPrivateIPs a.publicIp v.page = .ok (p, ip) ∧
        a.deleteOld.accepted = true ∧ p.id = target.id) → a.create.isSome → home = some v.id)

/-! ## The lookups -/

theorem resolve_cons_some (getVnic : ID → Bool) (first : Option Vnic) (v : Vnic) (rest : Attachments) :
    resolvePublicIPVnic getVnic first (some v :: rest) =
      if getVnic v.id = false then .error (.getVnic v.id)
      else if v.publicIp ≠ [] then .ok (v, v.publicIp)
      else resolvePublicIPVnic getVnic (first.or (some v)) rest := by
  cases first <;> rfl

theorem resolve_publicIp {getVnic : ID → Bool} {v : Vnic} {oldIP : List Char} :
    ∀ {w : Attachments} {first : Option Vnic}, resolvePublicIPVnic getVnic first w = .ok (v, oldIP) →
      oldIP ≠ [] → oldIP = v.publicIp := by
  intro w
  induction w with
  | nil =>
    intro first h hne
    cases first with
    | none => cases h
    | some u => exact absurd (Prod.mk.inj (Except.ok.inj h)).2.symm hne
  | cons att rest ih =>
    intro first h hne
    cases att with
    | none =>
      cases first <;> exact ih h hne
    | some u =>
      rw [resolve_cons_some] at h
      split at h
      · cases h
      split at h
      · obtain ⟨rfl, rfl⟩ := Prod.mk.inj (Except.ok.inj h)
        rfl
      · exact ih h hne

theorem lookup_spec {publicIp : ID → Bool} {p : PrivateIp} {ip : PublicIp} : ∀ {items : List PrivateIp},
    publicIPIDForPrivateIPs publicIp items = .ok (p, ip) → p ∈ items ∧ p.publicIp = some ip := by
  intro items
  induction items with
  | nil => exact nofun
  | cons q rest ih =>
    intro h
    unfold publicIPIDForPrivateIPs at h
    split at h
    · cases h
    split at h
    · next ip' hip =>
      obtain ⟨rfl, rfl⟩ := Prod.mk.inj (Except.ok.inj h)
      exact ⟨List.mem_cons_self, hip⟩
    · exact (ih h).imp_left (List.mem_cons_of_mem _)

/-- The address of a VNIC is the one of its primary private IP. -/
theorem publicIp_of_primary {v : Vnic} {p : PrivateIp} (hmem : p ∈ v.privateIps) (hprimary : p.isPrimary = true)
    {ip : PublicIp} (hip : p.publicIp = some ip) : v.publicIp = ip.ipAddress := by
  unfold Vnic.publicIp
  cases hfind : v.privateIps.find? PrivateIp.isPrimary with
  | none => exact absurd hprimary (List.find?_eq_none.mp hfind p hmem)
  | some q =>
    obtain rfl := v.onePrimary q (List.mem_of_find?_eq_some hfind) p hmem (List.find?_some hfind) hprimary
    show q.publicIp.elim [] PublicIp.ipAddress = _
    rw [hip]
    rfl

/-! ## The events of an attempt -/

variable {a : Answers} {cidrList : List (List Char)} {home : Option ID}

theorem justified_events {h : List Event} {p : PrivateIp} {ip : PublicIp} {d : Deletion} :
    Justified (Due home) h (d.events p ip) ↔ (d.happened = true → Due home h (.deleted p ip)) := by
  cases d with
  | refused => exact iff_of_true trivial nofun
  | notFound => exact iff_of_true ⟨trivial, trivial⟩ nofun
  | unconfirmed | done => exact ⟨fun h _ => h.1, fun h => ⟨h rfl, trivial⟩⟩

/-- The address that the filter gives back is the one that was created. -/
theorem justified_filterNew {h : List Event} {vnicID : ID} {target : PrivateIp} {new : PublicIp}
    (hmem : .created vnicID target.id new ∈ h) : Justified (Due home) h (filterNew a cidrList target new).trace := by
  unfold filterNew
  split
  · refine justified_bind.mpr ⟨?_, fun _ _ => justified_bind.mpr ⟨trivial, fun _ h => nomatch h⟩⟩
    rw [trace_emit]
    exact justified_events.mpr fun _ => Or.inr ⟨vnicID, hmem⟩
  · trivial

theorem createNew_granted {vnic : Vnic} {target : PrivateIp} {id : ID} {ipAddress : List Char}
    (h : a.create = some (id, ipAddress)) :
    createNew a vnic target true =
      ⟨[.created vnic.id target.id ⟨id, ipAddress, false⟩], .ok ⟨id, ipAddress, false⟩⟩ := by
  unfold createNew
  rw [if_pos rfl, h]
  rfl

theorem createNew_refused {vnic : Vnic} {target : PrivateIp} {free : Bool}
    (h : ¬ (free = true ∧ a.create.isSome = true)) : createNew a vnic target free = ⟨[], .error .create⟩ := by
  have hnone : (if free = true then a.create else none) = none := by
    split
    · next hfree => exact Option.not_isSome_iff_eq_none.mp fun hsome => h ⟨hfree, hsome⟩
    · rfl
  unfold createNew
  rw [hnone]
  rfl

theorem justified_createNew {h : List Event} {vnic : Vnic} {target : PrivateIp} {free : Bool} :
    Justified (Due home) h (createNew a vnic target free >>= filterNew a cidrList target).trace ↔
      (free = true → a.create.isSome = true → home = some vnic.id) := by
  by_cases hgranted : free = true ∧ a.create.isSome = true
  · obtain ⟨rfl, hsome⟩ := hgranted
    obtain ⟨⟨id, ipAddress⟩, hcreate⟩ := Option.isSome_iff_exists.mp hsome
    rw [justified_bind, createNew_granted hcreate, justified_cons]
    constructor
    · rintro ⟨⟨hhome, -⟩, -⟩ - -
      exact hhome
    · intro hhome
      refine ⟨⟨hhome rfl hsome, trivial⟩, fun new hnew => ?_⟩
      obtain rfl := Except.ok.inj hnew
      exact justified_filterNew (List.mem_append_right _ (List.mem_singleton_self _))
  · rw [createNew_refused hgranted]
    exact iff_of_true trivial fun hfree hsome => absurd ⟨hfree, hsome⟩ hgranted

/-- The old address is due when the lookup finds the primary private IP and its address is ephemeral. -/
theorem due_deleted_iff {v : Vnic} {oldIP : List Char} (hold : oldIP = v.publicIp) {p : PrivateIp} {ip : PublicIp}
    (hmem : p ∈ v.privateIps) (hip : p.publicIp = some ip) :
    Due home [.resolved v oldIP] (.deleted p ip) ↔ p.isPrimary = true ∧ ip.reserved = false := by
  constructor
  · rintro (⟨-, -, -, -, hprimary, -, hreserved, -⟩ | ⟨vnicID, hcreated⟩)
    · exact ⟨hprimary, hreserved⟩
    · cases List.mem_singleton.mp hcreated
  · rintro ⟨hprimary, hreserved⟩
    refine Or.inl ⟨v, oldIP, List.mem_singleton_self _, hmem, hprimary, hip, hreserved, ?_⟩
    rw [hold, publicIp_of_primary hmem hprimary hip]

theorem releaseOld_found {oldIP : List Char} (hne : oldIP ≠ []) {items : List PrivateIp} {p target : PrivateIp}
    {ip : PublicIp} (h : publicIPIDForPrivateIPs a.publicIp items = .ok (p, ip)) :
    releaseOld a oldIP items target =
      ⟨a.deleteOld.events p ip,
        if a.deleteOld.accepted then .ok (decide (p.id = target.id)) else .error .deleteOld⟩ := by
  unfold releaseOld
  rw [if_neg hne, h]
  cases a.deleteOld <;> rfl

theorem releaseOld_missing {oldIP : List Char} (hne : oldIP ≠ []) {items : List PrivateIp} {target : PrivateIp}
    {e : ChangeError} (h : publicIPIDForPrivateIPs a.publicIp items = .error e) :
    releaseOld a oldIP items target = ⟨[], .error e⟩ := by
  unfold releaseOld
  rw [if_neg hne, h]
  rfl

/-- The deletion of the old address. -/
theorem justified_releaseOld {v : Vnic} {oldIP : List Char} (hold : oldIP ≠ [] → oldIP = v.publicIp)
    {target : PrivateIp} :
    Justified (Due home) [.resolved v oldIP] (releaseOld a oldIP v.page target).trace ↔
      (oldIP ≠ [] → ∀ p ip, publicIPIDForPrivateIPs a.publicIp v.page = .ok (p, ip) → a.deleteOld.happened = true →
        p.isPrimary = true ∧ ip.reserved = false) := by
  by_cases hne : oldIP = []
  · rw [show releaseOld a oldIP v.page target = pure true from if_pos hne]
    exact iff_of_true trivial fun h => absurd hne h
  · cases hlookup : publicIPIDForPrivateIPs a.publicIp v.page with
    | error e =>
      rw [releaseOld_missing hne hlookup]
      exact iff_of_true trivial nofun
    | ok found =>
      obtain ⟨p, ip⟩ := found
      obtain ⟨hmem, hip⟩ := lookup_spec hlookup
      rw [releaseOld_found hne hlookup]
      dsimp only
      rw [justified_events, due_deleted_iff (hold hne) (List.mem_of_mem_take hmem) hip]
      refine ⟨fun h _ p' ip' heq hdel => ?_, fun h hdel => h hne p ip rfl hdel⟩
      obtain ⟨rfl, rfl⟩ := Prod.mk.inj (Except.ok.inj heq)
      exact h hdel

/-- When the target has no public IP left. -/
theorem releaseOld_free_iff {oldIP : List Char} {items : List PrivateIp} {target : PrivateIp} :
    (releaseOld a oldIP items target).result = .ok true ↔
      (oldIP ≠ [] → ∃ p ip, publicIPIDForPrivateIPs a.publicIp items = .ok (p, ip) ∧
        a.deleteOld.accepted = true ∧ p.id = target.id) := by
  by_cases hne : oldIP = []
  · rw [show releaseOld a oldIP items target = pure true from if_pos hne]
    exact iff_of_true rfl fun h => absurd hne h
  · cases hlookup : publicIPIDForPrivateIPs a.publicIp items with
    | error e =>
      rw [releaseOld_missing hne hlookup]
      refine iff_of_false nofun fun h => ?_
      obtain ⟨_, _, h, -⟩ := h hne
      cases h
    | ok found =>
      obtain ⟨p, ip⟩ := found
      rw [releaseOld_found hne hlookup]
      dsimp only
      constructor
      · intro hfree _
        split at hfree
        · next hacc => exact ⟨p, ip, rfl, hacc, of_decide_eq_true (Except.ok.inj hfree)⟩
        · cases hfree
      · intro hfound
        obtain ⟨p', ip', heq, hacc, hid⟩ := hfound hne
        obtain ⟨rfl, rfl⟩ := Prod.mk.inj (Except.ok.inj heq)
        rw [if_pos hacc, decide_eq_true hid]

theorem justified_replaceIP {v : Vnic} {oldIP : List Char} (hold : oldIP ≠ [] → oldIP = v.publicIp)
    {target : PrivateIp} :
    Justified (Due home) [] (replaceIP a cidrList v oldIP target).trace ↔
      (oldIP ≠ [] → ∀ p ip, publicIPIDForPrivateIPs a.publicIp v.page = .ok (p, ip) → a.deleteOld.happened = true →
        p.isPrimary = true ∧ ip.reserved = false) ∧
      ((oldIP ≠ [] → ∃ p ip, publicIPIDForPrivateIPs a.publicIp v.page = .ok (p, ip) ∧
        a.deleteOld.accepted = true ∧ p.id = target.id) → a.create.isSome → home = some v.id) := by
  have hresolved : Justified (Due home) [] [.resolved v oldIP] := ⟨trivial, trivial⟩
  unfold replaceIP
  rw [justified_emit_bind, and_iff_right hresolved, List.nil_append, justified_bind, justified_releaseOld hold,
    ← releaseOld_free_iff]
  refine and_congr_right fun _ => ?_
  simp only [justified_createNew]
  constructor
  · exact fun hrest hfree => hrest true hfree rfl
  · rintro hhome free hresult rfl
    exact hhome hresult

/-- **One attempt.** -/
theorem justified_changeInstanceIP (s : State) :
    Justified (Due home) [] (changeInstanceIP a cidrList s.attachments).trace ↔ Right home s a := by
  have hnonempty : ∀ {x}, resolvePublicIPVnic a.getVnic none (s.attachments.take 100) = .ok x →
      (!(s.attachments.take 100).isEmpty) = true := by
    intro x h
    cases hitems : s.attachments.take 100 with
    | nil =>
      rw [hitems] at h
      cases h
    | cons att rest => rfl
  unfold changeInstanceIP Right
  simp only [justified_bind, trace_require, trace_demand, justified_nil, true_and, List.append_nil, require_ok,
    demand_ok]
  constructor
  · intro h hattachments hprivateIps v oldIP target hresolve htarget
    exact (justified_replaceIP (resolve_publicIp hresolve)).mp
      (h () hattachments () (hnonempty hresolve) (v, oldIP) hresolve () hprivateIps target htarget)
  · rintro h - hattachments - - ⟨v, oldIP⟩ hresolve - hprivateIps target htarget
    exact (justified_replaceIP (resolve_publicIp hresolve)).mpr
      (h hattachments hprivateIps v oldIP target hresolve htarget)

/-! ## The attempts of a task -/

theorem carrier_of_resolve_from {getVnic : ID → Bool} {v : Vnic} {oldIP : List Char} :
    ∀ {w : Attachments} {first : Option Vnic}, resolvePublicIPVnic getVnic first w = .ok (v, oldIP) →
      (w.reduceOption.find? fun v => v.publicIp ≠ []).or (first.or w.reduceOption.head?) = some v := by
  intro w
  induction w with
  | nil =>
    intro first h
    cases first with
    | none => cases h
    | some u =>
      rw [← (Prod.mk.inj (Except.ok.inj h)).1]
      rfl
  | cons att rest ih =>
    intro first h
    cases att with
    | none => cases first <;> exact ih h
    | some u =>
      rw [resolve_cons_some] at h
      rw [List.reduceOption_cons_of_some]
      split at h
      · cases h
      split at h
      · next hip =>
        rw [List.find?_cons_of_pos (by simpa using hip), ← (Prod.mk.inj (Except.ok.inj h)).1]
        rfl
      · next hip =>
        rw [List.find?_cons_of_neg (by simpa using hip)]
        have hrest := ih h
        rwa [Option.or_assoc, Option.some_or] at hrest

/-- An attempt resolves the VNIC with the public IP. -/
theorem carrier_of_resolve {getVnic : ID → Bool} {w : Attachments} {v : Vnic} {oldIP : List Char}
    (h : resolvePublicIPVnic getVnic none (w.take 100) = .ok (v, oldIP)) : carrier w = some v :=
  carrier_of_resolve_from h

theorem onlyRight_step {s s' : State} (h : OnlyRight home s) (hs : attempt cidrList s a = some s') :
    OnlyRight home s' ↔ Right home s a := by
  unfold attempt at hs
  split at hs
  · cases hs
  obtain rfl := Option.some.inj hs
  constructor
  · intro hall
    exact (justified_changeInstanceIP s).mp (hall _ (List.mem_append_right _ (List.mem_singleton_self _)))
  · intro hright t ht
    rcases List.mem_append.mp ht with hold | hnew
    · exact h t hold
    · rw [List.mem_singleton.mp hnew]
      exact (justified_changeInstanceIP s).mpr hright

/-- **All attempts of a task touch only the right address if and only if each finds it first and finds its VNIC at
home.** -/
theorem changeIP_right_iff (cidrList : List (List Char)) (w : Attachments) {as : List Answers} {t : State}
    (h : exec (attempt cidrList) { attachments := w } as = some t) :
    Throughout (attempt cidrList) (OnlyRight ((carrier w).map Vnic.id)) { attachments := w } as ↔
      Run (attempt cidrList) (Right ((carrier w).map Vnic.id)) { attachments := w } as t :=
  throughout_iff (fun _ _ _ hi hs => onlyRight_step hi hs) (List.forall_mem_nil _) h

/-! ## An instance with one VNIC -/

private def oneVnic (reserved : Bool) : Vnic where
  id := "vnic".toList
  privateIps := [⟨"private".toList, true, some ⟨"public".toList, "192.0.2.1".toList, reserved⟩⟩]
  onePrimary := by
    intro p hp q hq _ _
    rw [List.mem_singleton.mp hp, List.mem_singleton.mp hq]

private def grants (id : String) (ip : String) : Answers := { create := some (id.toList, ip.toList) }

/-- The address of the primary private IP is deleted even if it is reserved. -/
theorem reserved_is_deleted :
    ¬ ∀ (cidrList : List (List Char)) (w : Attachments) (as : List Answers) (t : State),
      exec (attempt cidrList) { attachments := w } as = some t →
        Throughout (attempt cidrList) (OnlyRight ((carrier w).map Vnic.id)) { attachments := w } as := by
  intro h
  obtain ⟨t, ht⟩ : ∃ t, exec (attempt []) { attachments := [some (oneVnic true)] } [grants "new" "192.0.2.9"] =
      some t := Option.isSome_iff_exists.mp (by decide)
  have hall := h [] [some (oneVnic true)] _ t ht
  have hjust := (hall.2 _ rfl).head _ (List.mem_singleton_self _)
  have hright := (justified_changeInstanceIP { attachments := [some (oneVnic true)] }).mp hjust
  have hreserved := ((hright rfl rfl (oneVnic true) _ _ rfl rfl).1 (by decide) _ _ rfl rfl).2
  exact absurd hreserved (by decide)

/-- One VNIC with one private IP leaves no choice. -/
theorem right_of_single {s : State} {v : Vnic} {p : PrivateIp} (hs : s.attachments = [some v])
    (hv : v.privateIps = [p]) (hprimary : p.isPrimary = true) (hip : ∀ ip, p.publicIp = some ip → ip.reserved = false)
    (hhome : home = some v.id) : Right home s a := by
  intro _ _ u oldIP target hresolve _
  have hcarrier := carrier_of_resolve hresolve
  rw [hs] at hcarrier
  have hu : v = u := by
    unfold carrier at hcarrier
    change (List.find? _ [v]).or (some v) = some u at hcarrier
    cases hfind : [v].find? fun v => v.publicIp ≠ [] with
    | none =>
      rw [hfind] at hcarrier
      exact Option.some.inj hcarrier
    | some v' =>
      rw [hfind] at hcarrier
      rw [← List.mem_singleton.mp (List.mem_of_find?_eq_some hfind)]
      exact Option.some.inj hcarrier
  subst hu
  refine ⟨fun _ q ip hlookup _ => ?_, fun _ _ => hhome⟩
  obtain ⟨hmem, hq⟩ := lookup_spec hlookup
  have hqp : q = p := by
    have hmem' := List.mem_of_mem_take hmem
    rw [hv] at hmem'
    exact List.mem_singleton.mp hmem'
  subst hqp
  exact ⟨hprimary, hip ip hq⟩

private def retries : List Answers := [grants "second" "198.51.100.7", grants "third" "192.0.2.9"]

/-- The first new address is outside the range. -/
theorem ephemeral_is_replaced :
    Throughout (attempt ["192.0.2.0/24".toList])
      (OnlyRight ((carrier [some (oneVnic false)]).map Vnic.id)) { attachments := [some (oneVnic false)] } retries := by
  obtain ⟨t, hrun⟩ : ∃ t, Run (attempt ["192.0.2.0/24".toList]) (Right ((carrier [some (oneVnic false)]).map Vnic.id))
      { attachments := [some (oneVnic false)] } retries t :=
    ⟨_, .cons (right_of_single rfl rfl rfl (by rintro ip ⟨⟩; rfl) rfl) rfl <|
      .cons (right_of_single rfl rfl rfl nofun rfl) rfl <| .nil _⟩
  exact (changeIP_right_iff _ _ (exec_of_run hrun)).mpr hrun

end OciHelper.Instances.ChangeIP
