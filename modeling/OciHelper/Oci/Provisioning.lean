import OciHelper.Lib.Calls
import OciHelper.Oci.MirrorIpv6
import OciHelper.Oci.NatCleanup
import OciHelper.Oci.SubnetIpv6

/-!
# The network of a tenancy and the procedures that provision it

* `Network` : what the service stores; `Service` : what it chooses when something is created; `Move` : what it does
  by itself;
* `enableIPv6`, `disableIPv6` : IPv6 for the VNIC of an instance;
* `ensurePublicSubnet` : the subnet for a new instance.

Everything is in one compartment, the tenancy. An identifier is never missing from an answer; the optional fields of the
source that hold other resources' identifiers are optional here.
-/

namespace OciHelper.Oci.Provisioning
open Calls

abbrev ID := List Char

abbrev RouteRule := Oci.Nat.RouteRule

/-- `pending` are the IPv6 blocks that the VCN does not show yet. -/
structure Vcn where
  available : Bool := false
  ipv6CidrBlocks : List (List Char) := []
  pending : List (List Char) := []
  defaultRouteTableId : Option ID := none
  defaultListId : Option ID := none
  deriving DecidableEq, Repr

structure Subnet where
  vcnId : Option ID
  ipv6CidrBlock : Option (List Char) := none
  routeTableId : Option ID
  securityListIds : List ID
  prohibitInternetIngress : Option Bool := none
  deriving DecidableEq, Repr

structure Gateway where
  id : ID
  vcnId : ID
  deriving DecidableEq, Repr

structure Ipv6 where
  id : ID
  vnicId : ID
  ipAddress : Option (List Char)
  deriving DecidableEq, Repr

/-- `vcnIds`, `subnetIds` and `gateways` are in the order of the listings; `vnics` gives the subnet of a VNIC. -/
structure Network where
  vcnIds : List ID := []
  vcns : ID → Option Vcn := fun _ => none
  subnetIds : List ID := []
  subnets : ID → Option Subnet := fun _ => none
  gateways : List Gateway := []
  tables : ID → Option (List RouteRule) := fun _ => none
  lists : Lists := fun _ => none
  attachments : ID → List ID := fun _ => []
  vnics : ID → Option (Option ID) := fun _ => none
  ipv6s : List Ipv6 := []

/-- The identifiers of a new VCN and of what it comes with. -/
structure NewVcn where
  id : ID
  tableId : ID
  listId : ID
  deriving DecidableEq, Repr

/-- What the service chooses, as long as its limits allow: new identifiers, and blocks that an address parser reads. -/
structure Service where
  vcn : Network → Option NewVcn
  subnetId : Network → Option ID
  gatewayId : Network → ID
  ipv6Id : Network → ID
  block : Network → List Char
  /-- The address in the answer of `CreateIpv6`, which may come later. -/
  address : Network → Option (List Char)
  vcn_new : ∀ s v, vcn s = some v → s.vcns v.id = none ∧ s.tables v.tableId = none ∧ s.lists v.listId = none
  subnetId_new : ∀ s id, subnetId s = some id → s.subnets id = none
  block_parses : ∀ s, (IpAddr.parseCIDR (block s)).isSome

namespace Network

def modifyVcn (s : Network) (id : ID) (f : Vcn → Vcn) : Network :=
  { s with vcns := Function.update s.vcns id ((s.vcns id).map f) }

def modifySubnet (s : Network) (id : ID) (f : Subnet → Subnet) : Network :=
  { s with subnets := Function.update s.subnets id ((s.subnets id).map f) }

/-- `UpdateRouteTable` -/
def setTable (s : Network) (id : ID) (rules : List RouteRule) : Network :=
  { s with tables := Function.update s.tables id ((s.tables id).map fun _ => rules) }

/-- `UpdateSecurityList` -/
def setList (s : Network) (id : ID) (ingress egress : List SecurityRule) : Network :=
  { s with
    lists := Function.update s.lists id ((s.lists id).map fun sl => { sl with ingress := ingress, egress := egress }) }

theorem subnets_modifySubnet (s : Network) (id : ID) (f : Subnet → Subnet) :
    (s.modifySubnet id f).subnets id = (s.subnets id).map f := Function.update_self ..

theorem tables_setTable (s : Network) (id : ID) (rules : List RouteRule) :
    (s.setTable id rules).tables id = (s.tables id).map fun _ => rules := Function.update_self ..

theorem lists_setList (s : Network) (id : ID) (ingress egress : List SecurityRule) :
    (s.setList id ingress egress).lists id =
      (s.lists id).map fun sl => { sl with ingress := ingress, egress := egress } := Function.update_self ..

/-- `AddIpv6SubnetCidr`: a subnet goes on showing its first block. -/
def addSubnetCidr (s : Network) (id : ID) (cidr : List Char) : Network :=
  s.modifySubnet id fun subnet =>
    if subnet.ipv6CidrBlock.getD [] = [] then { subnet with ipv6CidrBlock := some cidr } else subnet

def gatewaysOf (s : Network) (vcnID : ID) : List Gateway := s.gateways.filter (·.vcnId = vcnID)

def ipv6sOf (s : Network) (vnicID : ID) : List Ipv6 := s.ipv6s.filter (·.vnicId = vnicID)

def subnetsOf (s : Network) (vcnID : ID) : List (ID × Subnet) :=
  s.subnetIds.filterMap fun id => (s.subnets id).bind fun subnet =>
    if subnet.vcnId = some vcnID then some (id, subnet) else none

def listing (s : Network) : List (ID × Vcn) := s.vcnIds.filterMap fun id => (s.vcns id).map (id, ·)

end Network

namespace Service
variable (svc : Service)

/-- `CreateVcn` -/
def addVcn (s : Network) : Network :=
  match svc.vcn s with
  | none => s
  | some v =>
    { s with
      vcnIds := s.vcnIds ++ [v.id]
      vcns := Function.update s.vcns v.id
        (some { defaultRouteTableId := some v.tableId, defaultListId := some v.listId })
      tables := Function.update s.tables v.tableId (some [])
      lists := Function.update s.lists v.listId (some { id := v.listId }) }

/-- `CreateInternetGateway` -/
def addGateway (vcnID : ID) (s : Network) : Network :=
  { s with gateways := s.gateways ++ [⟨svc.gatewayId s, vcnID⟩] }

/-- A subnet that is created without a route table and a security list has those of its VCN. -/
def newSubnet (vcnID : ID) (s : Network) : Subnet where
  vcnId := some vcnID
  routeTableId := (s.vcns vcnID).bind Vcn.defaultRouteTableId
  securityListIds := ((s.vcns vcnID).bind Vcn.defaultListId).toList
  prohibitInternetIngress := some false

/-- `CreateSubnet` -/
def addSubnet (vcnID : ID) (s : Network) : Network :=
  match svc.subnetId s with
  | none => s
  | some id =>
    { s with
      subnetIds := s.subnetIds ++ [id]
      subnets := Function.update s.subnets id (some (newSubnet vcnID s)) }

/-- `AddIpv6VcnCidr` -/
def addVcnCidr (vcnID : ID) (s : Network) : Network :=
  s.modifyVcn vcnID fun vcn => { vcn with pending := vcn.pending ++ [svc.block s] }

/-- `CreateIpv6` -/
def addIpv6 (vnicID : ID) (s : Network) : Network :=
  { s with ipv6s := s.ipv6s ++ [⟨svc.ipv6Id s, vnicID, svc.address s⟩] }

end Service

/-- `settle` makes a VCN available and shows its blocks; `assign` gives an IPv6 its address. -/
inductive Move
  | settle (vcnID : ID)
  | assign (ipv6ID : ID) (ipAddress : List Char)
  deriving DecidableEq, Repr

def Vcn.settled (v : Vcn) : Vcn :=
  { v with available := true, ipv6CidrBlocks := v.ipv6CidrBlocks ++ v.pending, pending := [] }

def Network.move : Move → Network → Network
  | .settle vcnID, s => s.modifyVcn vcnID Vcn.settled
  | .assign ipv6ID ipAddress, s =>
    { s with ipv6s := s.ipv6s.map fun ip => if ip.id = ipv6ID then { ip with ipAddress := some ipAddress } else ip }

/-! ## The calls -/

inductive Error
  | getVnics
  | noVnic
  | getSubnet
  | noVcnId
  | getVcn
  | addVcnCidr
  | cancelled
  | notReady
  | derive (e : DeriveError)
  | addSubnetCidr
  | noRouteTable
  | listGateways
  | noGateway
  | getRouteTable
  | updateRouteTable
  | mirror (e : MirrorError)
  | createIpv6
  | listIpv6s
  | notAvailable
  | deleteIpv6
  | listVcns
  | listSubnets
  | createGateway
  | createVcn
  | createSubnet
  deriving DecidableEq, Repr

abbrev Job (α : Type) := Proc Network Error α

def fail {α : Type} (e : Error) : Job α := .done (.error e)

def demand {α : Type} (value : Option α) (e : Error) : Job α := .done (value.elim (.error e) .ok)

/-- A query for one resource. -/
def get {α : Type} (value : Network → Option α) (e : Error) : Job α := .ask (fun s => (value s).elim (.error e) .ok) e

def list {α : Type} (values : Network → List α) (e : Error) : Job (List α) := .ask (fun s => .ok (values s)) e

/-- A wait that the context may end. -/
def pause : Job Unit := .ask (fun _ => .ok ()) .cancelled

def getVcn (vcnID : ID) : Job Vcn := get (fun s => s.vcns vcnID) .getVcn

def getRouteTable (rtID : ID) : Job (List RouteRule) := get (fun s => s.tables rtID) .getRouteTable

def listInternetGateways (vcnID : ID) : Job (List Gateway) := list (fun s => s.gatewaysOf vcnID) .listGateways

def listSubnets (vcnID : ID) : Job (List (ID × Subnet)) := list (fun s => s.subnetsOf vcnID) .listSubnets

def updateRouteTable (rtID : ID) (rules : List RouteRule) : Job Unit :=
  .send (fun s => s.setTable rtID rules) .updateRouteTable

/-! ## IPv6 -/

/-- What `GetVnic` answers. -/
structure Vnic where
  id : ID
  subnetId : Option ID
  ipv6Addresses : List (List Char)
  deriving DecidableEq, Repr

def Network.vnic (s : Network) (id : ID) : Option Vnic :=
  (s.vnics id).map fun subnetId => ⟨id, subnetId, (s.ipv6sOf id).filterMap Ipv6.ipAddress⟩

/-- A VNIC that cannot be read is left out. -/
def getVnics : List ID → Job (List Vnic)
  | [] => pure []
  | id :: ids => do
    let vnic ← (get (fun s => s.vnic id) .getVnics).attempt
    let vnics ← getVnics ids
    pure (vnic.toList ++ vnics)

def getInstanceVNICs (instanceID : ID) : Job (List Vnic) := do
  let attachments ← list (fun s => s.attachments instanceID) .getVnics
  let vnics ← getVnics attachments
  if vnics = [] ∧ attachments ≠ [] then fail .getVnics else pure vnics

def pollVcn (vcnID : ID) : Nat → Job (List Char)
  | 0 => fail .notReady
  | rounds + 1 => do
    pause
    let vcn ← getVcn vcnID
    match vcn.ipv6CidrBlocks with
    | cidr :: _ => pure cidr
    | [] => pollVcn vcnID rounds

/-- `rounds` is how often the loop polls before its deadline. -/
def ensureVcnCidr (svc : Service) (rounds : Nat) (vcnID : ID) : Job (List Char) := do
  let vcn ← getVcn vcnID
  match vcn.ipv6CidrBlocks with
  | cidr :: _ => pure cidr
  | [] => do
    .send (svc.addVcnCidr vcnID) .addVcnCidr
    pollVcn vcnID rounds

/-- The IPv6 blocks of the subnets of a VCN. -/
def usedCIDRs (subnets : List (ID × Subnet)) : List (List Char) :=
  (subnets.filterMap fun s => s.2.ipv6CidrBlock).filter (· ≠ [])

def ensureSubnetCidr (subnetID : ID) (subnet : Subnet) (vcnID : ID) (vcnIpv6 : List Char) : Job Unit :=
  if subnet.ipv6CidrBlock.getD [] = [] then do
    let existingSubnets ← (listSubnets vcnID).attempt
    match deriveSubnetIpv6 vcnIpv6 (usedCIDRs (existingSubnets.getD [])) with
    | .error e => fail (.derive e)
    | .ok subnetCidr => .send (fun s => s.addSubnetCidr subnetID subnetCidr) .addSubnetCidr
  else pure ()

def ensureIPv6Route (vcnID : ID) (routeTableID : Option ID) : Job Unit := do
  let rtID ← demand (routeTableID.filter (· ≠ [])) .noRouteTable
  let igws ← listInternetGateways vcnID
  let igw ← demand igws.head? .noGateway
  let rules ← getRouteTable rtID
  if rules.any (·.destination = some anyIPv6) then pure ()
  else updateRouteTable rtID (rules ++ [⟨some anyIPv6, some igw.id⟩])

def mirrorToIPv6 : List ID → Job Unit
  | [] => pure ()
  | slID :: ids => do
    let sl ← get (fun s => s.lists slID) (.mirror .get)
    if mirrored sl.ingress = [] ∧ mirrored sl.egress = [] then mirrorToIPv6 ids
    else do
      .send (fun s => s.setList slID (sl.ingress ++ mirrored sl.ingress) (sl.egress ++ mirrored sl.egress))
        (.mirror .update)
      mirrorToIPv6 ids

def firstAddress (addresses : List (Option (List Char))) : Option (List Char) :=
  (addresses.filterMap id).find? (· ≠ [])

def createIpv6 (svc : Service) (vnicID : ID) : Job (List Char) := do
  let ipAddress ← .invoke (svc.addIpv6 vnicID) (fun s => .ok (svc.address s)) .createIpv6
  match firstAddress [ipAddress] with
  | some ip => pure ip
  | none => do
    let ipv6s ← (list (fun s => s.ipv6sOf vnicID) .listIpv6s).attempt
    demand (firstAddress ((ipv6s.getD []).map Ipv6.ipAddress)) .notAvailable

/-- IPv6 for a VNIC without an address. -/
def assignIPv6 (svc : Service) (rounds : Nat) (vnicID subnetID : ID) : Job (List Char) := do
  let subnet ← get (fun s => s.subnets subnetID) .getSubnet
  let vcnID ← demand subnet.vcnId .noVcnId
  let vcnIpv6 ← ensureVcnCidr svc rounds vcnID
  ensureSubnetCidr subnetID subnet vcnID vcnIpv6
  ensureIPv6Route vcnID subnet.routeTableId
  mirrorToIPv6 subnet.securityListIds
  createIpv6 svc vnicID

def enableIPv6 (svc : Service) (rounds : Nat) (instanceID : ID) : Job (List Char) := do
  let vnics ← getInstanceVNICs instanceID
  let vnic ← demand vnics.head? .noVnic
  let subnetID ← demand vnic.subnetId .noVnic
  match vnic.ipv6Addresses with
  | ip :: _ => pure ip
  | [] => assignIPv6 svc rounds vnic.id subnetID

def deleteIpv6s : List Ipv6 → Job Unit
  | [] => pure ()
  | ip :: ips => do
    .send (fun s => { s with ipv6s := s.ipv6s.filter (·.id ≠ ip.id) }) .deleteIpv6
    deleteIpv6s ips

def disableIPv6 (instanceID : ID) : Job Unit := do
  let vnics ← getInstanceVNICs instanceID
  match vnics.head? with
  | none => pure ()
  | some vnic => do
    let ipv6s ← list (fun s => s.ipv6sOf vnic.id) .listIpv6s
    deleteIpv6s ipv6s

/-! ## A public subnet -/

/-- The gateway that is listed first, or a new one. -/
def chooseGateway (svc : Service) (vcnID : ID) (igws : List Gateway) : Job ID :=
  match igws.head? with
  | some igw => pure igw.id
  | none => .invoke (svc.addGateway vcnID) (fun s => .ok (svc.gatewayId s)) .createGateway

def ensureInternetGateway (svc : Service) (vcnID : ID) : Job Unit := do
  let igws ← listInternetGateways vcnID
  let igwID ← chooseGateway svc vcnID igws
  let vcn ← getVcn vcnID
  match vcn.defaultRouteTableId with
  | none => pure ()
  | some rtID => do
    let rules ← getRouteTable rtID
    if rules.any fun r => r.destination = some anyIPv4 ∧ r.networkEntityId = some igwID then pure ()
    else updateRouteTable rtID (rules ++ [⟨some anyIPv4, some igwID⟩])

def Subnet.IsPublic (subnet : Subnet) : Prop := subnet.prohibitInternetIngress ≠ some true

instance (subnet : Subnet) : Decidable subnet.IsPublic := inferInstanceAs (Decidable (_ ≠ _))

/-- The VCNs one after the other; an error goes on to the next one. -/
def searchVcns (svc : Service) : List (ID × Vcn) → Job (Option (ID × Subnet))
  | [] => pure none
  | (vcnID, vcn) :: vcns =>
    if vcn.available then do
      let routed ← (ensureInternetGateway svc vcnID).attempt
      match routed with
      | none => searchVcns svc vcns
      | some _ => do
        let subnets ← (listSubnets vcnID).attempt
        match (subnets.getD []).find? fun s => s.2.IsPublic with
        | some s => pure (some s)
        | none => searchVcns svc vcns
    else searchVcns svc vcns

def awaitVcn (vcnID : ID) : Nat → Job Unit
  | 0 => pure ()
  | rounds + 1 => do
    let vcn ← (getVcn vcnID).attempt
    if (vcn.map Vcn.available).getD false then pure ()
    else do
      pause
      awaitVcn vcnID rounds

def createDefaultVCNWithSubnet (svc : Service) : Job (ID × Subnet) := do
  let vcnID ← .invoke svc.addVcn (fun s => (svc.vcn s).elim (.error .createVcn) fun v => .ok v.id) .createVcn
  awaitVcn vcnID 30
  ensureInternetGateway svc vcnID
  .invoke (svc.addSubnet vcnID)
    (fun s => (svc.subnetId s).elim (.error .createSubnet) fun id => .ok (id, Service.newSubnet vcnID s)) .createSubnet

def ensurePublicSubnet (svc : Service) : Job (ID × Subnet) := do
  let vcns ← list (fun s => s.listing) .listVcns
  let found ← searchVcns svc vcns
  match found with
  | some subnet => pure subnet
  | none => createDefaultVCNWithSubnet svc

/-! ## What stays -/

/-- What is stored is still stored, related by `r` to what it was. -/
def Kept {α : Type} (r : α → α → Prop) (m m' : ID → Option α) : Prop :=
  ∀ id v, m id = some v → ∃ v', m' id = some v' ∧ r v v'

section
variable {α : Type} {r : α → α → Prop} {m m' m'' : ID → Option α}

theorem Kept.refl (hr : ∀ v, r v v) (m : ID → Option α) : Kept r m m := fun _ v hv => ⟨v, hv, hr v⟩

theorem Kept.trans (hr : ∀ a b c, r a b → r b c → r a c) (h : Kept r m m') (h' : Kept r m' m'') : Kept r m m'' := by
  intro id v hv
  obtain ⟨v', hv', hvv'⟩ := h id v hv
  obtain ⟨v'', hv'', hv'v''⟩ := h' id v' hv'
  exact ⟨v'', hv'', hr _ _ _ hvv' hv'v''⟩

theorem kept_modify (hr : ∀ v, r v v) {id : ID} {f : α → α} (hf : ∀ v, m id = some v → r v (f v)) :
    Kept r m (Function.update m id ((m id).map f)) := by
  intro id' v hv
  by_cases hid : id' = id
  · subst hid
    rw [Function.update_self, hv]
    exact ⟨f v, rfl, hf v hv⟩
  · rw [Function.update_of_ne hid]
    exact ⟨v, hv, hr v⟩

theorem kept_add (hr : ∀ v, r v v) {id : ID} {v : α} (h : m id = none) : Kept r m (Function.update m id (some v)) := by
  intro id' w hw
  have hid : id' ≠ id := by
    rintro rfl
    rw [h] at hw
    cases hw
  rw [Function.update_of_ne hid]
  exact ⟨w, hw, hr w⟩

end

/-! ## Assertions about the calls -/

section
variable {A : Answer → Prop} {R : Network → Network → Prop} {E : Error → Prop} {α : Type} {P : α → Network → Prop}
  {s : Network}

theorem spec_fail {e : Error} (h : E e) : Spec A R E P (fail e) s := spec_error h

theorem spec_demand {value : Option α} {e : Error} (hnone : value = none → E e)
    (hsome : ∀ v, value = some v → ∀ t, R s t → P v t) : Spec A R E P (demand value e) s := by
  cases value with
  | none => exact spec_error (hnone rfl)
  | some v => exact fun t ht => hsome v rfl t ht

variable [IsPreorder Network R]

theorem spec_get {value : Network → Option α} {e : Error} (he : Faulty A → E e)
    (hnone : ∀ s', R s s' → value s' = none → E e)
    (hsome : ∀ s' v, R s s' → value s' = some v → ∀ t, R s' t → P v t) : Spec A R E P (get value e) s := by
  refine spec_ask he fun s' hs' t ht => ?_
  cases hv : value s' with
  | none => exact hnone s' hs' hv
  | some v => exact hsome s' v hs' hv t ht

theorem spec_list {values : Network → List α} {P : List α → Network → Prop} {e : Error} (he : Faulty A → E e)
    (h : ∀ s', R s s' → ∀ t, R s' t → P (values s') t) : Spec A R E P (list values e) s :=
  spec_ask he h

theorem spec_send {effect : Network → Network} {e : Error} {P : Unit → Network → Prop} (he : Faulty A → E e)
    (h : ∀ s', R s s' → R s' (effect s') ∧ ∀ t, R (effect s') t → P () t) : Spec A R E P (.send effect e) s :=
  spec_invoke he h

theorem toOption_elim (o : Option α) (e : Error) : (o.elim (.error e) .ok : Except Error α).toOption = o := by
  cases o <;> rfl

end

/-! ## An example -/

/-- The first of two names that is free. -/
def firstFree {α : Type} (m : ID → Option α) : Option ID := ["a".toList, "b".toList].find? fun id => (m id).isNone

theorem firstFree_free {α : Type} {m : ID → Option α} {id : ID} (h : firstFree m = some id) : m id = none := by
  have hfree := List.find?_some h
  exact Option.isNone_iff_eq_none.mp hfree

def exampleService : Service where
  vcn s := (firstFree s.vcns).bind fun id => (firstFree s.tables).bind fun tableId =>
    (firstFree s.lists).map fun listId => ⟨id, tableId, listId⟩
  subnetId s := firstFree s.subnets
  gatewayId _ := "gateway".toList
  ipv6Id _ := "ipv6".toList
  block _ := "2001:db8::/56".toList
  address _ := some "2001:db8::1".toList
  vcn_new s v h := by
    obtain ⟨id, hid, h⟩ := Option.bind_eq_some_iff.mp h
    obtain ⟨tableId, htable, h⟩ := Option.bind_eq_some_iff.mp h
    obtain ⟨listId, hlist, rfl⟩ := Option.map_eq_some_iff.mp h
    exact ⟨firstFree_free hid, firstFree_free htable, firstFree_free hlist⟩
  subnetId_new s id h := firstFree_free h
  block_parses _ := by decide +kernel

end OciHelper.Oci.Provisioning
