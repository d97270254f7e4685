import Mathlib.Data.List.Infix
import Mathlib.Data.List.Nodup

/-!
# The 500 Mbps feature

* `enable500Mbps` : a NAT gateway, a route table that leads to it, the binding of the VNIC and a load balancer;
* `disable500Mbps`, `clearNatGatewayCleanup` : what is unbound and deleted;
* `OnlyOwn` : only what an enable made or bound for the instance is touched, and nothing that the feature of
  another instance uses;
* `disable_onlyOwn_iff` : when a call touches nothing else.

Next to the network stands what the enables did: `made...` and `uses`, which no call reads. Any call to the
service may fail, a deletion also because the service refuses it.
-/

namespace OciHelper.Oci.Nat

abbrev ID := List Char

structure NatGateway where
  id : ID
  available : Bool
  deriving DecidableEq, Repr

structure RouteRule where
  destination : Option (List Char)
  networkEntityId : Option ID
  deriving DecidableEq, Repr

structure RouteTable where
  id : ID
  displayName : Option (List Char)
  routeRules : List RouteRule
  deriving DecidableEq, Repr

/-- A VNIC without a route table of its own uses the one of its subnet. -/
structure Vnic where
  id : ID
  instanceID : ID
  privateIp : List Char
  subnetId : ID
  routeTableId : Option ID
  skipSourceDestCheck : Bool
  deriving DecidableEq, Repr

/-- `instanceTag` is the tag `oci-helper-instance-id`. -/
structure NetworkLoadBalancer where
  id : ID
  instanceTag : Option ID
  deriving DecidableEq, Repr

/-- The feature of an instance: its VNIC is bound to the route table, which leads to the gateway. -/
structure Use where
  instanceID : ID
  vnic : ID
  routeTable : ID
  gateway : ID
  deriving DecidableEq, Repr

/-- One VCN; `made` names the instance that a resource was created for. -/
structure Vcn where
  gateways : List NatGateway
  routeTables : List RouteTable
  vnics : List Vnic
  nlbs : List NetworkLoadBalancer
  madeGateways : List (ID × ID)
  madeTables : List (ID × ID)
  uses : List Use
  vnicIds : (vnics.map Vnic.id).Nodup

/-! ## What both calls do -/

/-- How the service answers to `GetInstanceVNICs`, and to the listing of the load balancers. -/
structure LookupAnswers where
  attachments : Bool
  getVnic : ID → Bool
  subnet : Bool
  nlbs : Bool

/-- The first VNIC that `GetInstanceVNICs` returns. -/
def firstVnic (a : LookupAnswers) (s : Vcn) (instanceID : ID) : Option Vnic :=
  if a.attachments then s.vnics.find? fun v => v.instanceID = instanceID ∧ a.getVnic v.id = true else none

/-- The first page holds 100. -/
def findInstanceNLB (s : Vcn) (instanceID : ID) : Option NetworkLoadBalancer :=
  (s.nlbs.take 100).find? fun nlb => nlb.instanceTag = some instanceID

def Vnic.bind (v : Vnic) (table : Option ID) (skip : Bool) : Vnic :=
  { v with routeTableId := table, skipSourceDestCheck := skip }

theorem map_bind_ids (vnicID : ID) (table : Option ID) (skip : Bool) (vnics : List Vnic) :
    (vnics.map fun v => if v.id = vnicID then v.bind table skip else v).map Vnic.id = vnics.map Vnic.id := by
  rw [List.map_map]
  refine List.map_congr_left fun v _ => ?_
  show (if v.id = vnicID then v.bind table skip else v).id = v.id
  split <;> rfl

/-- `UpdateVnic`. -/
def Vcn.updateVnic (s : Vcn) (vnicID : ID) (table : Option ID) (skip : Bool) : Vcn :=
  { s with
    vnics := s.vnics.map fun v => if v.id = vnicID then v.bind table skip else v
    vnicIds := by rw [map_bind_ids]; exact s.vnicIds }

/-! ## Enable -/

inductive EnableError
  | listNlbs
  | vnics
  | noVnic
  | incomplete
  | subnet
  | listGateways
  | createGateway
  | pollGateway
  | listTables
  | createTable
  | updateVnic
  | createNlb
  deriving DecidableEq, Repr

/-- What the service creates has a new id; an attempt at a load balancer may make one and still fail. -/
structure EnableAnswers extends LookupAnswers where
  listGateways : Bool
  createGateway : Option ID
  pollGateway : Bool
  listTables : Bool
  createTable : Option ID
  updateVnic : Bool
  attempts : List (Option ID)
  nlb : Bool

def anywhere : List Char := "0.0.0.0/0".toList

def ensureNatGateway (a : EnableAnswers) (instanceID : ID) (s : Vcn) : Vcn × Except EnableError ID :=
  if a.listGateways = false then (s, .error .listGateways)
  else
    match s.gateways.find? NatGateway.available with
    | some g => (s, .ok g.id)
    | none =>
      match a.createGateway with
      | none => (s, .error .createGateway)
      | some id =>
        let s := { s with
          gateways := s.gateways ++ [⟨id, a.pollGateway⟩]
          madeGateways := s.madeGateways ++ [(instanceID, id)] }
        if a.pollGateway then (s, .ok id) else (s, .error .pollGateway)

/-- The table leads to the gateway. -/
def RouteTable.leadsTo (natGWID : ID) (rt : RouteTable) : Bool :=
  rt.routeRules.any fun rule => rule.networkEntityId = some natGWID ∧ rule.destination = some anywhere

def ensureNatRouteTable (a : EnableAnswers) (instanceID natGWID : ID) (s : Vcn) : Vcn × Except EnableError ID :=
  if a.listTables = false then (s, .error .listTables)
  else
    match s.routeTables.find? (RouteTable.leadsTo natGWID) with
    | some rt => (s, .ok rt.id)
    | none =>
      match a.createTable with
      | none => (s, .error .createTable)
      | some id =>
        ({ s with
          routeTables := s.routeTables ++ [⟨id, some "nat-route-table".toList, [⟨some anywhere, some natGWID⟩]⟩]
          madeTables := s.madeTables ++ [(instanceID, id)] }, .ok id)

/-- Steps 3 and 5. `ReleaseAllPorts` touches security lists only. -/
def bindAndBalance (a : EnableAnswers) (instanceID natGWID rtID : ID) (vnic : Vnic) (s : Vcn) :
    Vcn × Except EnableError Unit :=
  if a.updateVnic = false then (s, .error .updateVnic)
  else
    let s := s.updateVnic vnic.id (some rtID) true
    let s := { s with
      uses := s.uses ++ [⟨instanceID, vnic.id, rtID, natGWID⟩]
      nlbs := s.nlbs ++ a.attempts.reduceOption.map fun id => ⟨id, some instanceID⟩ }
    if a.nlb then (s, .ok ()) else (s, .error .createNlb)

def enable500Mbps (a : EnableAnswers) (instanceID : ID) (s : Vcn) : Vcn × Except EnableError Unit :=
  if a.nlbs = false then (s, .error .listNlbs)
  else if (findInstanceNLB s instanceID).isSome then (s, .ok ())
  else if a.attachments = false then (s, .error .vnics)
  else
    match firstVnic a.toLookupAnswers s instanceID with
    | none => (s, .error .noVnic)
    | some vnic =>
      if vnic.privateIp = [] ∨ vnic.subnetId = [] ∨ vnic.id = [] then (s, .error .incomplete)
      else if a.subnet = false then (s, .error .subnet)
      else
        match ensureNatGateway a instanceID s with
        | (s, .error e) => (s, .error e)
        | (s, .ok natGWID) =>
          match ensureNatRouteTable a instanceID natGWID s with
          | (s, .error e) => (s, .error e)
          | (s, .ok rtID) => bindAndBalance a instanceID natGWID rtID vnic s

/-! ## Disable -/

inductive DisableError
  | listNlbs
  | deleteNlb
  deriving DecidableEq, Repr

/-- What becomes of the deletion of a load balancer; an unconfirmed one may still have happened. -/
inductive Deletion
  | refused
  | failed
  | unconfirmed
  | done
  deriving DecidableEq, Repr

structure DisableAnswers extends LookupAnswers where
  updateVnic : Bool
  deleteNlb : Deletion
  listTables : Bool
  deleteTable : ID → Bool
  listGateways : Bool
  deleteGateway : ID → Bool

/-- The route tables that the cleanup deletes. -/
def RouteTable.Cleaned (rt : RouteTable) : Prop :=
  (∃ name, rt.displayName = some name ∧ "nat".toList <:+: name) ∧
    ∃ r ∈ rt.routeRules, r.destination = some anywhere

instance (rt : RouteTable) : Decidable rt.Cleaned :=
  match h : rt.displayName with
  | none => isFalse fun hc => by
    obtain ⟨⟨name, hname, -⟩, -⟩ := hc
    cases h.symm.trans hname
  | some name => decidable_of_iff ("nat".toList <:+: name ∧ ∃ r ∈ rt.routeRules, r.destination = some anywhere)
    ⟨fun hc => ⟨⟨name, h, hc.1⟩, hc.2⟩, fun ⟨⟨_, hname, hin⟩, hr⟩ => by
      obtain rfl := Option.some.inj (h.symm.trans hname)
      exact ⟨hin, hr⟩⟩

def clearNatGatewayCleanup (a : DisableAnswers) (s : Vcn) : Vcn :=
  if a.listTables = false then s
  else
    let s := { s with routeTables := s.routeTables.filter fun rt => ¬ (rt.Cleaned ∧ a.deleteTable rt.id = true) }
    if a.listGateways = false then s
    else { s with gateways := s.gateways.filter fun ngw => ¬ a.deleteGateway ngw.id = true }

/-- The VNIC is unbound from whatever table it is bound to. -/
def unbind (a : DisableAnswers) (instanceID : ID) (s : Vcn) : Vcn :=
  match firstVnic a.toLookupAnswers s instanceID with
  | none => s
  | some vnic =>
    if vnic.routeTableId.getD [] ≠ [] ∧ a.updateVnic = true then s.updateVnic vnic.id none false else s

def deleteNlb (a : DisableAnswers) (instanceID : ID) (retainBL : Bool) (s : Vcn) : Vcn × Except DisableError Unit :=
  if a.nlbs = false then (s, .error .listNlbs)
  else
    match findInstanceNLB s instanceID with
    | none => (s, .ok ())
    | some nlb =>
      if retainBL then (s, .ok ())
      else
        let deleted := { s with nlbs := s.nlbs.filter (· ≠ nlb) }
        match a.deleteNlb with
        | .refused | .failed => (s, .error .deleteNlb)
        | .unconfirmed => (deleted, .error .deleteNlb)
        | .done => (deleted, .ok ())

/-- With the call the feature of the instance ends. -/
def disable500Mbps (a : DisableAnswers) (instanceID : ID) (retainBL retainNatGW : Bool) (s : Vcn) :
    Vcn × Except DisableError Unit :=
  let first := firstVnic a.toLookupAnswers s instanceID
  let ended (s : Vcn) : Vcn := { s with uses := s.uses.filter fun u => u.instanceID ≠ instanceID }
  match deleteNlb a instanceID retainBL (unbind a instanceID s) with
  | (s, .error e) => (ended s, .error e)
  | (s, .ok ()) =>
    if retainNatGW = false ∧ first.isSome ∧ a.subnet = true then (ended (clearNatGatewayCleanup a s), .ok ())
    else (ended s, .ok ())

/-! ## What an enable does -/

/-- Nothing is deleted, and what is new was made for the instance. -/
structure Extends (instanceID : ID) (s s' : Vcn) : Prop where
  gateways : s.gateways ⊆ s'.gateways
  routeTables : s.routeTables ⊆ s'.routeTables
  newGateway : ∀ g ∈ s'.gateways, g ∉ s.gateways → (instanceID, g.id) ∈ s'.madeGateways
  newTable : ∀ rt ∈ s'.routeTables, rt ∉ s.routeTables → (instanceID, rt.id) ∈ s'.madeTables
  madeGateways : s.madeGateways ⊆ s'.madeGateways
  madeTables : s.madeTables ⊆ s'.madeTables

theorem Extends.refl (instanceID : ID) (s : Vcn) : Extends instanceID s s where
  gateways := List.Subset.refl _
  routeTables := List.Subset.refl _
  newGateway := fun _ h hn => absurd h hn
  newTable := fun _ h hn => absurd h hn
  madeGateways := List.Subset.refl _
  madeTables := List.Subset.refl _

theorem Extends.trans {instanceID : ID} {s₁ s₂ s₃ : Vcn} (h : Extends instanceID s₁ s₂)
    (h' : Extends instanceID s₂ s₃) : Extends instanceID s₁ s₃ where
  gateways := List.Subset.trans h.gateways h'.gateways
  routeTables := List.Subset.trans h.routeTables h'.routeTables
  newGateway := fun g hg hn => by
    by_cases hg₂ : g ∈ s₂.gateways
    · exact h'.madeGateways (h.newGateway g hg₂ hn)
    · exact h'.newGateway g hg hg₂
  newTable := fun rt hrt hn => by
    by_cases hrt₂ : rt ∈ s₂.routeTables
    · exact h'.madeTables (h.newTable rt hrt₂ hn)
    · exact h'.newTable rt hrt hrt₂
  madeGateways := List.Subset.trans h.madeGateways h'.madeGateways
  madeTables := List.Subset.trans h.madeTables h'.madeTables

theorem ensureNatGateway_extends (a : EnableAnswers) (instanceID : ID) (s : Vcn) :
    Extends instanceID s (ensureNatGateway a instanceID s).1 := by
  unfold ensureNatGateway
  split
  · exact Extends.refl _ _
  split
  · exact Extends.refl _ _
  split
  · exact Extends.refl _ _
  next id _ =>
    have hmade : Extends instanceID s { s with
        gateways := s.gateways ++ [⟨id, a.pollGateway⟩]
        madeGateways := s.madeGateways ++ [(instanceID, id)] } := by
      refine ⟨List.subset_append_left _ _, List.Subset.refl _, fun g hg hn => ?_, fun _ h hn => absurd h hn,
        List.subset_append_left _ _, List.Subset.refl _⟩
      obtain rfl := List.mem_singleton.mp ((List.mem_append.mp hg).resolve_left hn)
      exact List.mem_append_right _ (List.mem_singleton.mpr rfl)
    dsimp only
    split
    · exact hmade
    · exact hmade

theorem ensureNatRouteTable_extends (a : EnableAnswers) (instanceID natGWID : ID) (s : Vcn) :
    Extends instanceID s (ensureNatRouteTable a instanceID natGWID s).1 := by
  unfold ensureNatRouteTable
  split
  · exact Extends.refl _ _
  split
  · exact Extends.refl _ _
  split
  · exact Extends.refl _ _
  · refine ⟨List.Subset.refl _, List.subset_append_left _ _, fun _ h hn => absurd h hn, fun rt hrt hn => ?_,
      List.Subset.refl _, List.subset_append_left _ _⟩
    obtain rfl := List.mem_singleton.mp ((List.mem_append.mp hrt).resolve_left hn)
    exact List.mem_append_right _ (List.mem_singleton.mpr rfl)

theorem bindAndBalance_extends (a : EnableAnswers) (instanceID natGWID rtID : ID) (vnic : Vnic) (s : Vcn) :
    Extends instanceID s (bindAndBalance a instanceID natGWID rtID vnic s).1 := by
  unfold bindAndBalance
  split
  · exact Extends.refl _ _
  dsimp only
  split
  · exact ⟨List.Subset.refl _, List.Subset.refl _, fun _ h hn => absurd h hn, fun _ h hn => absurd h hn,
      List.Subset.refl _, List.Subset.refl _⟩
  · exact ⟨List.Subset.refl _, List.Subset.refl _, fun _ h hn => absurd h hn, fun _ h hn => absurd h hn,
      List.Subset.refl _, List.Subset.refl _⟩

theorem enable500Mbps_extends (a : EnableAnswers) (instanceID : ID) (s : Vcn) :
    Extends instanceID s (enable500Mbps a instanceID s).1 := by
  have hrefl := Extends.refl instanceID s
  unfold enable500Mbps
  split
  · exact hrefl
  split
  · exact hrefl
  split
  · exact hrefl
  split
  · exact hrefl
  split
  · exact hrefl
  split
  · exact hrefl
  have hgw := ensureNatGateway_extends a instanceID s
  split
  · next heq =>
    rw [heq] at hgw
    exact hgw
  next s₁ natGWID heq =>
  rw [heq] at hgw
  have hrt := ensureNatRouteTable_extends a instanceID natGWID s₁
  split
  · next heq' =>
    rw [heq'] at hrt
    exact hgw.trans hrt
  next s₂ rtID heq' =>
  rw [heq'] at hrt
  exact hgw.trans (hrt.trans (bindAndBalance_extends _ _ _ _ _ _))

/-! ## What a disable may touch -/

def OwnGateway (instanceID : ID) (s : Vcn) (g : NatGateway) : Prop :=
  (instanceID, g.id) ∈ s.madeGateways ∧ ∀ u ∈ s.uses, u.gateway = g.id → u.instanceID = instanceID

def OwnTable (instanceID : ID) (s : Vcn) (rt : RouteTable) : Prop :=
  (instanceID, rt.id) ∈ s.madeTables ∧ ∀ u ∈ s.uses, u.routeTable = rt.id → u.instanceID = instanceID

/-- The VNIC is bound to the table that an enable for the instance bound it to. -/
def OwnBinding (instanceID : ID) (s : Vcn) (v : Vnic) : Prop :=
  ∃ u ∈ s.uses, u.instanceID = instanceID ∧ u.vnic = v.id ∧ v.routeTableId = some u.routeTable

structure OnlyOwn (instanceID : ID) (s s' : Vcn) : Prop where
  gateway : ∀ g ∈ s.gateways, g ∉ s'.gateways → OwnGateway instanceID s g
  routeTable : ∀ rt ∈ s.routeTables, rt ∉ s'.routeTables → OwnTable instanceID s rt
  vnic : ∀ v ∈ s.vnics, v ∉ s'.vnics → OwnBinding instanceID s v
  nlb : ∀ n ∈ s.nlbs, n ∉ s'.nlbs → n.instanceTag = some instanceID

/-- The cleanup is reached. -/
def DisableAnswers.Cleans (a : DisableAnswers) (instanceID : ID) (retainBL retainNatGW : Bool) (s : Vcn) : Prop :=
  a.nlbs = true ∧ (findInstanceNLB s instanceID = none ∨ retainBL = true ∨ a.deleteNlb = .done) ∧
    retainNatGW = false ∧ (firstVnic a.toLookupAnswers s instanceID).isSome ∧ a.subnet = true

/-- What the call unbinds and what it deletes are the instance's own. -/
structure TouchesOwn (a : DisableAnswers) (instanceID : ID) (retainBL retainNatGW : Bool) (s : Vcn) : Prop where
  vnic : ∀ v, firstVnic a.toLookupAnswers s instanceID = some v → v.routeTableId.getD [] ≠ [] →
    a.updateVnic = true → OwnBinding instanceID s v
  routeTable : a.Cleans instanceID retainBL retainNatGW s → a.listTables = true →
    ∀ rt ∈ s.routeTables, rt.Cleaned → a.deleteTable rt.id = true → OwnTable instanceID s rt
  gateway : a.Cleans instanceID retainBL retainNatGW s → a.listTables = true → a.listGateways = true →
    ∀ g ∈ s.gateways, a.deleteGateway g.id = true → OwnGateway instanceID s g

theorem firstVnic_mem {a : LookupAnswers} {s : Vcn} {instanceID : ID} {v : Vnic}
    (h : firstVnic a s instanceID = some v) : v ∈ s.vnics := by
  unfold firstVnic at h
  split at h
  · exact List.mem_of_find?_eq_some h
  · cases h

theorem unbind_nlbs (a : DisableAnswers) (instanceID : ID) (s : Vcn) :
    (unbind a instanceID s).nlbs = s.nlbs ∧ (unbind a instanceID s).routeTables = s.routeTables ∧
      (unbind a instanceID s).gateways = s.gateways := by
  unfold unbind
  split
  · exact ⟨rfl, rfl, rfl⟩
  split
  · exact ⟨rfl, rfl, rfl⟩
  · exact ⟨rfl, rfl, rfl⟩

/-- The VNICs that an unbinding changes. -/
theorem unbind_vnic_iff (a : DisableAnswers) (instanceID : ID) (s : Vcn) {v : Vnic} (hv : v ∈ s.vnics) :
    v ∉ (unbind a instanceID s).vnics ↔ firstVnic a.toLookupAnswers s instanceID = some v ∧
      v.routeTableId.getD [] ≠ [] ∧ a.updateVnic = true := by
  unfold unbind
  cases hf : firstVnic a.toLookupAnswers s instanceID with
  | none => exact iff_of_false (not_not.mpr hv) fun h => nomatch h.1
  | some first =>
    have hfirst := firstVnic_mem hf
    dsimp only
    by_cases hb : first.routeTableId.getD [] ≠ [] ∧ a.updateVnic = true
    · rw [if_pos hb]
      by_cases heq : v = first
      · subst heq
        refine iff_of_true (fun hmem => ?_) ⟨rfl, hb⟩
        obtain ⟨w, -, hw⟩ := List.mem_map.mp hmem
        by_cases hid : w.id = v.id
        · rw [if_pos hid] at hw
          have hnone : v.routeTableId = none := by rw [← hw]; rfl
          exact hb.1 (by rw [hnone]; rfl)
        · rw [if_neg hid] at hw
          exact hid (by rw [hw])
      · refine iff_of_false (not_not.mpr ?_) fun h => heq (Option.some.inj h.1).symm
        have hid : v.id ≠ first.id := fun hid => heq (List.inj_on_of_nodup_map s.vnicIds hv hfirst hid)
        exact List.mem_map.mpr ⟨v, hv, if_neg hid⟩
    · rw [if_neg hb]
      refine iff_of_false (not_not.mpr hv) fun ⟨heq, h⟩ => hb ?_
      rw [Option.some.inj heq]
      exact h

theorem findInstanceNLB_tag {s : Vcn} {instanceID : ID} {nlb : NetworkLoadBalancer}
    (h : findInstanceNLB s instanceID = some nlb) : nlb.instanceTag = some instanceID := by
  have := List.find?_some h
  simpa using this

theorem deleteNlb_ok_iff (a : DisableAnswers) (instanceID : ID) (retainBL : Bool) (s : Vcn) :
    (deleteNlb a instanceID retainBL s).2 = .ok () ↔
      a.nlbs = true ∧ (findInstanceNLB s instanceID = none ∨ retainBL = true ∨ a.deleteNlb = .done) := by
  unfold deleteNlb
  by_cases hn : a.nlbs = false
  · rw [if_pos hn]
    simp [hn]
  rw [if_neg hn]
  rw [Bool.not_eq_false] at hn
  cases hf : findInstanceNLB s instanceID with
  | none => simp [hn]
  | some nlb =>
    cases retainBL with
    | true => simp [hn]
    | false => cases a.deleteNlb <;> simp [hn]

/-- Only a load balancer of the instance goes. -/
theorem deleteNlb_keeps (a : DisableAnswers) (instanceID : ID) (retainBL : Bool) (s : Vcn) :
    (deleteNlb a instanceID retainBL s).1.vnics = s.vnics ∧
      (deleteNlb a instanceID retainBL s).1.routeTables = s.routeTables ∧
      (deleteNlb a instanceID retainBL s).1.gateways = s.gateways ∧
      ∀ n ∈ s.nlbs, n ∉ (deleteNlb a instanceID retainBL s).1.nlbs → n.instanceTag = some instanceID := by
  have hsame : ∀ r : Except DisableError Unit, ((s, r) : Vcn × _).1.vnics = s.vnics ∧
      ((s, r) : Vcn × _).1.routeTables = s.routeTables ∧ ((s, r) : Vcn × _).1.gateways = s.gateways ∧
      ∀ n ∈ s.nlbs, n ∉ ((s, r) : Vcn × _).1.nlbs → n.instanceTag = some instanceID := fun _ =>
    ⟨rfl, rfl, rfl, fun _ h hn => absurd h hn⟩
  unfold deleteNlb
  by_cases hn : a.nlbs = false
  · rw [if_pos hn]
    exact hsame _
  rw [if_neg hn]
  cases hf : findInstanceNLB s instanceID with
  | none => exact hsame _
  | some nlb =>
    have htag : ∀ n ∈ s.nlbs, n ∉ s.nlbs.filter (· ≠ nlb) → n.instanceTag = some instanceID := fun n hmem hgone => by
      have heq : n = nlb := by
        by_contra hne
        exact hgone (List.mem_filter.mpr ⟨hmem, by simpa using hne⟩)
      rw [heq]
      exact findInstanceNLB_tag hf
    cases retainBL with
    | true => exact hsame _
    | false =>
      cases a.deleteNlb with
      | refused => exact hsame _
      | failed => exact hsame _
      | unconfirmed => exact ⟨rfl, rfl, rfl, htag⟩
      | done => exact ⟨rfl, rfl, rfl, htag⟩

/-- What the cleanup deletes. -/
theorem clearNatGatewayCleanup_keeps (a : DisableAnswers) (s : Vcn) :
    (∀ rt ∈ s.routeTables, rt ∉ (clearNatGatewayCleanup a s).routeTables ↔
        a.listTables = true ∧ rt.Cleaned ∧ a.deleteTable rt.id = true) ∧
      (∀ g ∈ s.gateways, g ∉ (clearNatGatewayCleanup a s).gateways ↔
        a.listTables = true ∧ a.listGateways = true ∧ a.deleteGateway g.id = true) ∧
      (clearNatGatewayCleanup a s).vnics = s.vnics ∧ (clearNatGatewayCleanup a s).nlbs = s.nlbs := by
  unfold clearNatGatewayCleanup
  by_cases hlt : a.listTables = false
  · rw [if_pos hlt]
    exact ⟨fun rt hrt => iff_of_false (not_not.mpr hrt) (by simp [hlt]),
      fun g hg => iff_of_false (not_not.mpr hg) (by simp [hlt]), rfl, rfl⟩
  rw [if_neg hlt]
  rw [Bool.not_eq_false] at hlt
  have htables : ∀ rt ∈ s.routeTables,
      rt ∉ s.routeTables.filter (fun rt => ¬ (rt.Cleaned ∧ a.deleteTable rt.id = true)) ↔
        a.listTables = true ∧ rt.Cleaned ∧ a.deleteTable rt.id = true := fun rt hrt => by
    rw [List.mem_filter]
    simp [hrt, hlt]
  by_cases hlg : a.listGateways = false
  · dsimp only
    rw [if_pos hlg]
    exact ⟨htables, fun g hg => iff_of_false (not_not.mpr hg) (by simp [hlg]), rfl, rfl⟩
  · dsimp only
    rw [if_neg hlg]
    rw [Bool.not_eq_false] at hlg
    refine ⟨htables, fun g hg => ?_, rfl, rfl⟩
    rw [List.mem_filter]
    simp [hg, hlt, hlg]

/-- What is left after a call. -/
theorem disable500Mbps_keeps (a : DisableAnswers) (instanceID : ID) (retainBL retainNatGW : Bool) (s : Vcn) :
    let s' := (disable500Mbps a instanceID retainBL retainNatGW s).1
    s'.vnics = (unbind a instanceID s).vnics ∧
      (∀ n ∈ s.nlbs, n ∉ s'.nlbs → n.instanceTag = some instanceID) ∧
      (∀ rt ∈ s.routeTables, rt ∉ s'.routeTables ↔ a.Cleans instanceID retainBL retainNatGW s ∧
        a.listTables = true ∧ rt.Cleaned ∧ a.deleteTable rt.id = true) ∧
      (∀ g ∈ s.gateways, g ∉ s'.gateways ↔ a.Cleans instanceID retainBL retainNatGW s ∧
        a.listTables = true ∧ a.listGateways = true ∧ a.deleteGateway g.id = true) := by
  obtain ⟨hn, ht, hg⟩ := unbind_nlbs a instanceID s
  obtain ⟨hv₁, ht₁, hg₁, hn₁⟩ := deleteNlb_keeps a instanceID retainBL (unbind a instanceID s)
  have hok := deleteNlb_ok_iff a instanceID retainBL (unbind a instanceID s)
  have hfind : findInstanceNLB (unbind a instanceID s) instanceID = findInstanceNLB s instanceID := by
    unfold findInstanceNLB
    rw [hn]
  rw [hfind] at hok
  rw [ht] at ht₁
  rw [hg] at hg₁
  rw [hn] at hn₁
  unfold disable500Mbps DisableAnswers.Cleans
  generalize deleteNlb a instanceID retainBL (unbind a instanceID s) = res at hv₁ ht₁ hg₁ hn₁ hok
  obtain ⟨s₁, r⟩ := res
  dsimp only at hv₁ ht₁ hg₁ hn₁ hok ⊢
  -- without the cleanup all tables and gateways are left
  have hleft : ∀ {Q : Prop}, ¬ Q → (∀ rt ∈ s.routeTables, rt ∉ s₁.routeTables ↔ Q ∧
      a.listTables = true ∧ rt.Cleaned ∧ a.deleteTable rt.id = true) ∧
      (∀ g ∈ s.gateways, g ∉ s₁.gateways ↔ Q ∧
        a.listTables = true ∧ a.listGateways = true ∧ a.deleteGateway g.id = true) := fun hQ => by
    rw [ht₁, hg₁]
    exact ⟨fun rt hrt => iff_of_false (not_not.mpr hrt) fun h => hQ h.1,
      fun g hgm => iff_of_false (not_not.mpr hgm) fun h => hQ h.1⟩
  cases r with
  | error e => exact ⟨hv₁, hn₁, hleft fun h => nomatch hok.mpr ⟨h.1, h.2.1⟩⟩
  | ok u =>
    obtain ⟨hlist, hnlb⟩ := hok.mp rfl
    dsimp only
    by_cases hclean : retainNatGW = false ∧ (firstVnic a.toLookupAnswers s instanceID).isSome ∧ a.subnet = true
    · rw [if_pos hclean]
      obtain ⟨htc, hgc, hvc, hnc⟩ := clearNatGatewayCleanup_keeps a s₁
      rw [ht₁] at htc
      rw [hg₁] at hgc
      refine ⟨hvc.trans hv₁, fun n hmem hgone => hn₁ n hmem (by rwa [← hnc]), fun rt hrt => ?_, fun g hgm => ?_⟩
      · exact (htc rt hrt).trans ⟨fun h => ⟨⟨hlist, hnlb, hclean⟩, h⟩, fun h => h.2⟩
      · exact (hgc g hgm).trans ⟨fun h => ⟨⟨hlist, hnlb, hclean⟩, h⟩, fun h => h.2⟩
    · rw [if_neg hclean]
      exact ⟨hv₁, hn₁, hleft fun h => hclean h.2.2⟩

/-- A call touches only what the instance's feature owns if and only if the table that its first VNIC is bound to,
the tables with `nat` in their name and a default route, and all gateways of the VCN, as far as the service lets
them go, are the feature's own. -/
theorem disable_onlyOwn_iff (a : DisableAnswers) (instanceID : ID) (retainBL retainNatGW : Bool) (s : Vcn) :
    OnlyOwn instanceID s (disable500Mbps a instanceID retainBL retainNatGW s).1 ↔
      TouchesOwn a instanceID retainBL retainNatGW s := by
  obtain ⟨hv, hn, ht, hg⟩ := disable500Mbps_keeps a instanceID retainBL retainNatGW s
  constructor
  · intro h
    refine ⟨fun v hfirst hb hup => ?_, fun hc hl rt hrt hcl hdel => ?_, fun hc hl hlg g hgm hdel => ?_⟩
    · have hmem := firstVnic_mem hfirst
      refine h.vnic v hmem ?_
      rw [hv]
      exact (unbind_vnic_iff a instanceID s hmem).mpr ⟨hfirst, hb, hup⟩
    · exact h.routeTable rt hrt ((ht rt hrt).mpr ⟨hc, hl, hcl, hdel⟩)
    · exact h.gateway g hgm ((hg g hgm).mpr ⟨hc, hl, hlg, hdel⟩)
  · intro h
    refine ⟨fun g hgm hgone => ?_, fun rt hrt hgone => ?_, fun v hmem hgone => ?_, hn⟩
    · obtain ⟨hc, hl, hlg, hdel⟩ := (hg g hgm).mp hgone
      exact h.gateway hc hl hlg g hgm hdel
    · obtain ⟨hc, hl, hcl, hdel⟩ := (ht rt hrt).mp hgone
      exact h.routeTable hc hl rt hrt hcl hdel
    · rw [hv] at hgone
      obtain ⟨hfirst, hb, hup⟩ := (unbind_vnic_iff a instanceID s hmem).mp hgone
      exact h.vnic v hfirst hb hup

/-! ## One instance -/

def exampleVcn : Vcn where
  gateways := [⟨"office".toList, true⟩]
  routeTables := []
  vnics := [⟨"v".toList, "i".toList, "10.0.0.2".toList, "subnet".toList, none, false⟩]
  nlbs := []
  madeGateways := []
  madeTables := []
  uses := []
  vnicIds := List.nodup_singleton _

def exampleLookup : LookupAnswers := ⟨true, fun _ => true, true, true⟩

def enabledVcn : Vcn :=
  (enable500Mbps ⟨exampleLookup, true, none, true, true, some "t".toList, true, [some "nlb".toList], true⟩
    "i".toList exampleVcn).1

def disabledVcn : Vcn :=
  (disable500Mbps ⟨exampleLookup, true, .done, true, fun _ => true, true, fun _ => true⟩ "i".toList false false
    enabledVcn).1

/-- The gateway was there before the feature, which reuses it, and is deleted with the feature. -/
theorem disable_deletes_gateway : exampleVcn.gateways ≠ [] ∧ disabledVcn.gateways = [] ∧
    ¬ OnlyOwn "i".toList enabledVcn disabledVcn := by
  refine ⟨by decide, rfl, fun h => ?_⟩
  have hown := h.gateway ⟨"office".toList, true⟩ (by decide) (by decide)
  exact absurd hown.1 (by decide)

end OciHelper.Oci.Nat
