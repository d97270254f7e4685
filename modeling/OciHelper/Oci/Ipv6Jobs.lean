import Mathlib.Data.List.Perm.Subperm
import OciHelper.Oci.Provisioning

/-!
# IPv6 for many instances at once

* `Connected` : the network of a subnet carries IPv6; `EndToEnd` : that of a VNIC does;
* `Grows` : shared resources are added to and never taken away; `Within` : and a VNIC only gets an address when its
  network carries IPv6; every call of `enableIPv6` and `disableIPv6` is within this;
* `addressed_end_to_end` : in every interleaving of such jobs, with any calls failing, a VNIC with an address has a
  network that carries IPv6;
* `Ready`, `enableIPv6_fails_only` : without failing calls, the job of a ready instance can only fail where the service
  does not show what it has given.
-/

namespace OciHelper.Oci.Provisioning
open Calls

def HasRoute (rules : List RouteRule) : Prop := ∃ r ∈ rules, r.destination = some anyIPv6

def HasCidr (s : Network) (vcnID : ID) : Prop := ∃ vcn, s.vcns vcnID = some vcn ∧ vcn.ipv6CidrBlocks ≠ []

def Routed (s : Network) (rtID : ID) : Prop := ∃ rules, s.tables rtID = some rules ∧ HasRoute rules

/-- Every open rule of the list has its key taken for IPv6. -/
def Mirrored (s : Network) (id : ID) : Prop := ∃ sl, s.lists id = some sl ∧ mirrorList sl = sl

structure Connected (s : Network) (subnet : Subnet) : Prop where
  vcn : ∃ vcnID, subnet.vcnId = some vcnID ∧ HasCidr s vcnID
  cidr : subnet.ipv6CidrBlock.getD [] ≠ []
  route : ∃ rtID, subnet.routeTableId = some rtID ∧ Routed s rtID
  mirrored : ∀ id ∈ subnet.securityListIds, Mirrored s id

def EndToEnd (s : Network) (vnicID : ID) : Prop :=
  ∃ subnetID subnet, s.vnics vnicID = some (some subnetID) ∧ s.subnets subnetID = some subnet ∧ Connected s subnet

def Parses (cidr : List Char) : Prop := (IpAddr.parseCIDR cidr).isSome

structure VcnGrows (v v' : Vcn) : Prop where
  routeTable : v'.defaultRouteTableId = v.defaultRouteTableId
  cidrs : v.ipv6CidrBlocks <+: v'.ipv6CidrBlocks
  parses : (∀ b ∈ v.ipv6CidrBlocks ++ v.pending, Parses b) → ∀ b ∈ v'.ipv6CidrBlocks ++ v'.pending, Parses b

structure SubnetGrows (n n' : Subnet) : Prop where
  vcnId : n'.vcnId = n.vcnId
  routeTableId : n'.routeTableId = n.routeTableId
  securityListIds : n'.securityListIds = n.securityListIds
  ingress : n'.prohibitInternetIngress = n.prohibitInternetIngress
  cidr : n.ipv6CidrBlock.getD [] ≠ [] → n'.ipv6CidrBlock = n.ipv6CidrBlock

/-- The rules for other destinations stay as they are, and a route for IPv6 stays. -/
structure RulesGrow (rules rules' : List RouteRule) : Prop where
  others : rules'.filter (·.destination ≠ some anyIPv6) = rules.filter (·.destination ≠ some anyIPv6)
  route : HasRoute rules → HasRoute rules'

def ListGrows (sl sl' : RuleList) : Prop := sl' = sl ∨ sl' = mirrorList sl

/-- Shared resources are only added to. -/
structure Grows (s s' : Network) : Prop where
  subnetIds : s'.subnetIds = s.subnetIds
  gateways : s'.gateways = s.gateways
  attachments : s'.attachments = s.attachments
  vnics : s'.vnics = s.vnics
  vcns : Kept VcnGrows s.vcns s'.vcns
  subnets : Kept SubnetGrows s.subnets s'.subnets
  tables : Kept RulesGrow s.tables s'.tables
  lists : Kept ListGrows s.lists s'.lists

structure Within (s s' : Network) : Prop where
  grows : Grows s s'
  addressed : ∀ x ∈ s'.ipv6s, (∃ y ∈ s.ipv6s, y.vnicId = x.vnicId) ∨ EndToEnd s' x.vnicId

/-! ## Growth -/

theorem VcnGrows.refl (v : Vcn) : VcnGrows v v := ⟨rfl, List.prefix_rfl, fun h => h⟩

theorem VcnGrows.trans (a b c : Vcn) (h : VcnGrows a b) (h' : VcnGrows b c) : VcnGrows a c :=
  ⟨h'.routeTable.trans h.routeTable, h.cidrs.trans h'.cidrs, fun hp => h'.parses (h.parses hp)⟩

theorem SubnetGrows.refl (n : Subnet) : SubnetGrows n n := ⟨rfl, rfl, rfl, rfl, fun _ => rfl⟩

theorem SubnetGrows.trans (a b c : Subnet) (h : SubnetGrows a b) (h' : SubnetGrows b c) : SubnetGrows a c := by
  refine ⟨h'.vcnId.trans h.vcnId, h'.routeTableId.trans h.routeTableId,
    h'.securityListIds.trans h.securityListIds, h'.ingress.trans h.ingress, fun ha => ?_⟩
  have hb := h.cidr ha
  rw [← hb] at ha
  exact (h'.cidr ha).trans hb

theorem RulesGrow.refl (rules : List RouteRule) : RulesGrow rules rules := ⟨rfl, fun h => h⟩

theorem RulesGrow.trans (a b c : List RouteRule) (h : RulesGrow a b) (h' : RulesGrow b c) : RulesGrow a c :=
  ⟨h'.others.trans h.others, fun ha => h'.route (h.route ha)⟩

theorem ListGrows.refl (sl : RuleList) : ListGrows sl sl := .inl rfl

theorem ListGrows.trans (a b c : RuleList) (h : ListGrows a b) (h' : ListGrows b c) : ListGrows a c := by
  obtain rfl | rfl := h
  · exact h'
  · obtain rfl | rfl := h'
    · exact .inr rfl
    · exact .inr (mirrorList_mirrorList a)

theorem Grows.refl (s : Network) : Grows s s where
  subnetIds := rfl
  gateways := rfl
  attachments := rfl
  vnics := rfl
  vcns := .refl VcnGrows.refl _
  subnets := .refl SubnetGrows.refl _
  tables := .refl RulesGrow.refl _
  lists := .refl ListGrows.refl _

theorem Grows.trans {s s' s'' : Network} (h : Grows s s') (h' : Grows s' s'') : Grows s s'' where
  subnetIds := h'.subnetIds.trans h.subnetIds
  gateways := h'.gateways.trans h.gateways
  attachments := h'.attachments.trans h.attachments
  vnics := h'.vnics.trans h.vnics
  vcns := h.vcns.trans VcnGrows.trans h'.vcns
  subnets := h.subnets.trans SubnetGrows.trans h'.subnets
  tables := h.tables.trans RulesGrow.trans h'.tables
  lists := h.lists.trans ListGrows.trans h'.lists

theorem HasCidr.grows {s s' : Network} {vcnID : ID} (h : HasCidr s vcnID) (hs : Grows s s') : HasCidr s' vcnID := by
  obtain ⟨vcn, hvcn, hne⟩ := h
  obtain ⟨vcn', hvcn', hgrows⟩ := hs.vcns vcnID vcn hvcn
  exact ⟨vcn', hvcn', fun hnil => hne (List.prefix_nil.mp (hnil ▸ hgrows.cidrs))⟩

theorem Routed.grows {s s' : Network} {rtID : ID} (h : Routed s rtID) (hs : Grows s s') : Routed s' rtID := by
  obtain ⟨rules, hrules, hroute⟩ := h
  obtain ⟨rules', hrules', hgrow⟩ := hs.tables rtID rules hrules
  exact ⟨rules', hrules', hgrow.route hroute⟩

theorem Mirrored.grows {s s' : Network} {id : ID} (h : Mirrored s id) (hs : Grows s s') : Mirrored s' id := by
  obtain ⟨sl, hsl, hmirrored⟩ := h
  obtain ⟨sl', hsl', hgrow⟩ := hs.lists id sl hsl
  have hsame : sl' = sl := hgrow.elim (fun h => h) fun h => h.trans hmirrored
  exact ⟨sl, hsame ▸ hsl', hmirrored⟩

theorem Connected.grows {s s' : Network} {n n' : Subnet} (h : Connected s n) (hs : Grows s s') (hn : SubnetGrows n n') :
    Connected s' n' := by
  obtain ⟨⟨vcnID, hid, hhas⟩, hcidr, ⟨rtID, hrt, hrouted⟩, hlists⟩ := h
  refine ⟨⟨vcnID, hn.vcnId.trans hid, hhas.grows hs⟩, ?_, ⟨rtID, hn.routeTableId.trans hrt, hrouted.grows hs⟩, ?_⟩
  · rw [hn.cidr hcidr]
    exact hcidr
  · rw [hn.securityListIds]
    exact fun id hid => (hlists id hid).grows hs

theorem EndToEnd.grows {s s' : Network} {vnicID : ID} (h : EndToEnd s vnicID) (hs : Grows s s') :
    EndToEnd s' vnicID := by
  obtain ⟨subnetID, subnet, hvnic, hsubnet, hconnected⟩ := h
  obtain ⟨subnet', hsubnet', hgrows⟩ := hs.subnets subnetID subnet hsubnet
  exact ⟨subnetID, subnet', hs.vnics ▸ hvnic, hsubnet', hconnected.grows hs hgrows⟩

instance : IsPreorder Network Within where
  refl s := ⟨.refl s, fun x hx => .inl ⟨x, hx, rfl⟩⟩
  trans s s' s'' h h' := by
    refine ⟨h.grows.trans h'.grows, fun x hx => ?_⟩
    obtain ⟨y, hy, hyx⟩ | hconnected := h'.addressed x hx
    · rw [← hyx]
      exact (h.addressed y hy).imp_right fun hy => hy.grows h'.grows
    · exact .inr hconnected

/-- Every VNIC with an address has a network that carries IPv6. -/
def Addressed (s : Network) : Prop := ∀ x ∈ s.ipv6s, EndToEnd s x.vnicId

theorem Addressed.within {s s' : Network} (h : Addressed s) (hs : Within s s') : Addressed s' := by
  intro x hx
  obtain ⟨y, hy, hyx⟩ | hconnected := hs.addressed x hx
  · exact hyx ▸ (h y hy).grows hs.grows
  · exact hconnected

/-! ## Effects -/

theorem within_modifyVcn {s : Network} {id : ID} {f : Vcn → Vcn} (hf : ∀ v, s.vcns id = some v → VcnGrows v (f v)) :
    Within s (s.modifyVcn id f) :=
  ⟨{ Grows.refl s with vcns := kept_modify VcnGrows.refl hf }, fun x hx => .inl ⟨x, hx, rfl⟩⟩

theorem within_addVcnCidr (svc : Service) (vcnID : ID) (s : Network) : Within s (svc.addVcnCidr vcnID s) := by
  refine within_modifyVcn fun v _ => ⟨rfl, List.prefix_rfl, fun hv b hb => ?_⟩
  rw [← List.append_assoc, List.mem_append] at hb
  obtain hb | hb := hb
  · exact hv b hb
  · rw [List.mem_singleton.mp hb]
    exact svc.block_parses s

theorem within_addSubnetCidr (s : Network) (id : ID) (cidr : List Char) : Within s (s.addSubnetCidr id cidr) := by
  refine ⟨{ Grows.refl s with subnets := kept_modify SubnetGrows.refl fun n _ => ?_ }, fun x hx => .inl ⟨x, hx, rfl⟩⟩
  split
  · next hnone => exact ⟨rfl, rfl, rfl, rfl, fun h => absurd hnone h⟩
  · exact SubnetGrows.refl n

theorem within_setTable {s : Network} {id : ID} {rules : List RouteRule}
    (h : ∀ now, s.tables id = some now → RulesGrow now rules) : Within s (s.setTable id rules) :=
  ⟨{ Grows.refl s with tables := kept_modify RulesGrow.refl h }, fun x hx => .inl ⟨x, hx, rfl⟩⟩

theorem within_setList {s : Network} {id : ID} {ingress egress : List SecurityRule}
    (h : ∀ sl, s.lists id = some sl → ListGrows sl { sl with ingress := ingress, egress := egress }) :
    Within s (s.setList id ingress egress) :=
  ⟨{ Grows.refl s with lists := kept_modify ListGrows.refl h }, fun x hx => .inl ⟨x, hx, rfl⟩⟩

theorem within_addIpv6 (svc : Service) {s : Network} {vnicID : ID} (h : EndToEnd s vnicID) :
    Within s (svc.addIpv6 vnicID s) := by
  have hgrows : Grows s (svc.addIpv6 vnicID s) := { Grows.refl s with }
  refine ⟨hgrows, fun x hx => ?_⟩
  obtain hx | hx := List.mem_append.mp hx
  · exact .inl ⟨x, hx, rfl⟩
  · rw [List.mem_singleton.mp hx]
    exact .inr (h.grows hgrows)

theorem within_deleteIpv6 (s : Network) (id : ID) : Within s { s with ipv6s := s.ipv6s.filter (·.id ≠ id) } :=
  ⟨{ Grows.refl s with }, fun x hx => .inl ⟨x, (List.mem_filter.mp hx).1, rfl⟩⟩

theorem within_move (m : Move) (s : Network) : Within s (s.move m) := by
  cases m with
  | settle vcnID =>
    refine within_modifyVcn fun v _ => ⟨rfl, List.prefix_append _ _, fun hv b hb => hv b ?_⟩
    rwa [Vcn.settled, List.append_nil] at hb
  | assign ipv6ID ipAddress =>
    refine ⟨{ Grows.refl s with }, fun x hx => .inl ?_⟩
    obtain ⟨y, hy, rfl⟩ := List.mem_map.mp hx
    refine ⟨y, hy, ?_⟩
    split <;> rfl

/-! ## What a job relies on -/

/-- The VCN is there, and its blocks can be read. -/
def Sound (s : Network) (vcnID : ID) : Prop :=
  ∃ vcn, s.vcns vcnID = some vcn ∧ ∀ b ∈ vcn.ipv6CidrBlocks ++ vcn.pending, Parses b

theorem Sound.grows {s s' : Network} {vcnID : ID} (h : Sound s vcnID) (hs : Grows s s') : Sound s' vcnID := by
  obtain ⟨vcn, hvcn, hparses⟩ := h
  obtain ⟨vcn', hvcn', hgrows⟩ := hs.vcns vcnID vcn hvcn
  exact ⟨vcn', hvcn', hgrows.parses hparses⟩

/-- What a subnet needs around it. -/
structure Provided (s : Network) (subnet : Subnet) : Prop where
  vcn : ∃ vcnID, subnet.vcnId = some vcnID ∧ Sound s vcnID ∧ s.gatewaysOf vcnID ≠ []
  table : ∃ rtID rules, subnet.routeTableId = some rtID ∧ rtID ≠ [] ∧ s.tables rtID = some rules
  lists : ∀ id ∈ subnet.securityListIds, ∃ sl, s.lists id = some sl

/-- An instance that IPv6 can be enabled for: a VCN has 256 blocks for its subnets. -/
structure Ready (s : Network) (instanceID : ID) : Prop where
  attached : ∃ id ∈ s.attachments instanceID, (s.vnics id).isSome
  provided : ∀ id ∈ s.attachments instanceID, ∀ subnetId, s.vnics id = some subnetId →
    ∃ subnetID subnet, subnetId = some subnetID ∧ s.subnets subnetID = some subnet ∧ Provided s subnet
  room : s.subnetIds.length < 256

theorem Provided.grows {s s' : Network} {n n' : Subnet} (h : Provided s n) (hs : Grows s s') (hn : SubnetGrows n n') :
    Provided s' n' := by
  obtain ⟨⟨vcnID, hid, hsound, hgateways⟩, ⟨rtID, rules, hrt, hne, hrules⟩, hlists⟩ := h
  refine ⟨⟨vcnID, hn.vcnId.trans hid, hsound.grows hs, ?_⟩, ?_, fun id hid => ?_⟩
  · rw [Network.gatewaysOf, hs.gateways]
    exact hgateways
  · obtain ⟨rules', hrules', -⟩ := hs.tables rtID rules hrules
    exact ⟨rtID, rules', hn.routeTableId.trans hrt, hne, hrules'⟩
  · rw [hn.securityListIds] at hid
    obtain ⟨sl, hsl⟩ := hlists id hid
    obtain ⟨sl', hsl', -⟩ := hs.lists id sl hsl
    exact ⟨sl', hsl'⟩

theorem Ready.grows {s s' : Network} {instanceID : ID} (h : Ready s instanceID) (hs : Grows s s') :
    Ready s' instanceID := by
  obtain ⟨hattached, hprovided, hroom⟩ := h
  refine ⟨?_, ?_, ?_⟩
  · rw [hs.attachments, hs.vnics]
    exact hattached
  · rw [hs.attachments, hs.vnics]
    intro id hid subnetId hvnic
    obtain ⟨subnetID, subnet, rfl, hsubnet, hp⟩ := hprovided id hid subnetId hvnic
    obtain ⟨subnet', hsubnet', hgrows⟩ := hs.subnets subnetID subnet hsubnet
    exact ⟨subnetID, subnet', rfl, hsubnet', hp.grows hs hgrows⟩
  · rw [hs.subnetIds]
    exact hroom

/-! ## A free block -/

theorem candidate_inj (ip : IpAddr.IP) {j k : Nat} (hj : j < 256) (hk : k < 256)
    (h : candidate (IpAddr.mask ip 56) j = candidate (IpAddr.mask ip 56) k) : j = k := by
  have hparse := (parseCIDR_candidate ip hj).symm.trans
      ((congrArg IpAddr.parseCIDR h).trans (parseCIDR_candidate ip hk))
  have hip := congrArg BitVec.toNat (congrArg Prod.fst (Option.some.inj hparse))
  dsimp only at hip
  rw [toNat_subnetIP ip hj, toNat_subnetIP ip hk] at hip
  omega

theorem exists_derive {vcnCidr : List Char} {used : List (List Char)} (h : Parses vcnCidr) (hused : used.length < 256) :
    ∃ cidr, deriveSubnetIpv6 vcnCidr used = .ok cidr := by
  obtain ⟨⟨ip, vcn⟩, hparse⟩ := Option.isSome_iff_exists.mp h
  cases hd : deriveSubnetIpv6 vcnCidr used with
  | ok cidr => exact ⟨cidr, rfl⟩
  | error e =>
    obtain ⟨-, hall⟩ := (derive_eq_error_iff used hparse e).mp hd
    have hnodup : ((List.range 256).map (candidate (IpAddr.mask vcn.ip 56))).Nodup := by
      refine List.Nodup.map_on (fun j hj k hk h => ?_) List.nodup_range
      exact candidate_inj vcn.ip (List.mem_range.mp hj) (List.mem_range.mp hk) h
    have hsubset : (List.range 256).map (candidate (IpAddr.mask vcn.ip 56)) ⊆ used := by
      intro cidr hcidr
      obtain ⟨j, hj, rfl⟩ := List.mem_map.mp hcidr
      exact hall j (List.mem_range.mp hj)
    have hlength := (hnodup.subperm hsubset).length_le
    rw [List.length_map, List.length_range] at hlength
    omega

theorem derive_ne_nil {vcnCidr cidr : List Char} {used : List (List Char)}
    (h : deriveSubnetIpv6 vcnCidr used = .ok cidr) : cidr ≠ [] := by
  unfold deriveSubnetIpv6 at h
  split at h
  · cases h
  · dsimp only at h
    split at h
    · cases h
      exact List.append_ne_nil_of_right_ne_nil _ (by decide)
    · cases h

theorem length_usedCIDRs (s : Network) (vcnID : ID) : (usedCIDRs (s.subnetsOf vcnID)).length ≤ s.subnetIds.length :=
  (List.length_filter_le _ _).trans ((List.length_filterMap_le _ _).trans (List.length_filterMap_le _ _))

/-! ## The steps of a job -/

section
variable (A : Answer → Prop) (s₀ : Network) (instanceID : ID)

/-- Why a job may fail. -/
def Excused (e : Error) : Prop := Faulty A ∨ ¬ Ready s₀ instanceID ∨ e = .notReady ∨ e = .notAvailable

abbrev JobSpec {α : Type} (Q : α → Network → Prop) (x : Job α) (s : Network) : Prop :=
  Spec A Within (Excused A s₀ instanceID) Q x s

end

section
variable {A : Answer → Prop} {s₀ : Network} {instanceID : ID} {α : Type} {P : α → Network → Prop} {s : Network}

/-! ## Its VNIC -/

/-- What the answer of `GetVnic` says about the network. -/
def Seen (s : Network) (v : Vnic) : Prop :=
  s.vnics v.id = some v.subnetId ∧ (v.ipv6Addresses ≠ [] → EndToEnd s v.id)

theorem Seen.grows {s s' : Network} {v : Vnic} (h : Seen s v) (hs : Grows s s') : Seen s' v :=
  ⟨hs.vnics ▸ h.1, fun hne => (h.2 hne).grows hs⟩

theorem seen_vnic {s : Network} (h : Addressed s) {id : ID} {v : Vnic} (hv : s.vnic id = some v) :
    v.id = id ∧ Seen s v := by
  obtain ⟨subnetId, hvnic, rfl⟩ := Option.map_eq_some_iff.mp hv
  refine ⟨rfl, hvnic, fun hne => ?_⟩
  obtain ⟨ip, hip⟩ := List.exists_mem_of_ne_nil _ hne
  obtain ⟨x, hx, -⟩ := List.mem_filterMap.mp hip
  obtain ⟨hx, hid⟩ := List.mem_filter.mp hx
  have hid := of_decide_eq_true hid
  exact hid ▸ h x hx

/-- The VNICs that are read are among those asked for, and without a failing call no readable one is missing. -/
structure Vnics (A : Answer → Prop) (ids : List ID) (vs : List Vnic) (t : Network) : Prop where
  seen : ∀ v ∈ vs, v.id ∈ ids ∧ Seen t v
  all : Faulty A ∨ ∀ id ∈ ids, (t.vnics id).isSome → ∃ v ∈ vs, v.id = id

theorem spec_getVnics : ∀ {ids : List ID} {s : Network}, Addressed s →
    JobSpec A s₀ instanceID (Vnics A ids) (getVnics ids) s := by
  intro ids
  induction ids with
  | nil => exact fun _ => spec_pure fun t _ => ⟨nofun, .inr nofun⟩
  | cons id ids ih =>
    intro s h
    refine spec_bind (P := fun v t => (∀ w, v = some w → w.id = id ∧ Seen t w) ∧
      (Faulty A ∨ ((t.vnics id).isSome → ∃ w, v = some w ∧ w.id = id)))
      (spec_attempt_ask (fun s' hs' t ht => ?_) fun hfaulty t _ => ⟨nofun, .inl hfaulty⟩) fun v s₁ hs₁ hv => ?_
    · rw [toOption_elim]
      refine ⟨fun w hw => ?_, .inr fun hsome => ?_⟩
      · obtain ⟨hid, hseen⟩ := seen_vnic (h.within hs') hw
        exact ⟨hid, hseen.grows ht.grows⟩
      · rw [ht.grows.vnics] at hsome
        obtain ⟨subnetId, hsome⟩ := Option.isSome_iff_exists.mp hsome
        exact ⟨_, congrArg (Option.map _) hsome, rfl⟩
    · refine spec_bind (ih (h.within hs₁)) fun vs s₂ hs₂ hvs => spec_pure fun t ht => ⟨fun w hw => ?_, ?_⟩
      · obtain hw | hw := List.mem_append.mp hw
        · obtain ⟨hid, hseen⟩ := hv.1 w (Option.mem_toList.mp hw)
          exact ⟨hid ▸ List.mem_cons_self, (hseen.grows hs₂.grows).grows ht.grows⟩
        · obtain ⟨hid, hseen⟩ := hvs.seen w hw
          exact ⟨List.mem_cons_of_mem _ hid, hseen.grows ht.grows⟩
      · obtain hfaulty | hv := hv.2
        · exact .inl hfaulty
        · refine hvs.all.imp_right fun hall id' hid' hsome => ?_
          rw [ht.grows.vnics] at hsome
          obtain rfl | hid' := List.mem_cons.mp hid'
          · rw [hs₂.grows.vnics] at hsome
            obtain ⟨w, hw, hwid⟩ := hv hsome
            exact ⟨w, List.mem_append_left _ (Option.mem_toList.mpr hw), hwid⟩
          · obtain ⟨w, hw, hwid⟩ := hall id' hid' hsome
            exact ⟨w, List.mem_append_right _ hw, hwid⟩

theorem spec_getInstanceVNICs {s : Network} (h : Addressed s) (hs : Within s₀ s) :
    JobSpec A s₀ instanceID (fun vs t => (∀ v ∈ vs, v.id ∈ t.attachments instanceID ∧ Seen t v) ∧
      (vs = [] → Excused A s₀ instanceID .noVnic)) (getInstanceVNICs instanceID) s := by
  refine spec_bind (P := fun ids t => ids = t.attachments instanceID) (spec_list .inl fun s' _ t ht => ?_) ?_
  · rw [ht.grows.attachments]
  rintro ids s₁ hs₁ rfl
  have hs₁' := trans_of Within hs hs₁
  refine spec_bind (spec_getVnics (h.within hs₁)) fun vs s₂ hs₂ hvs => ?_
  have hnone : vs = [] → Excused A s₀ instanceID .noVnic := by
    rintro rfl
    obtain hfaulty | hall := hvs.all
    · exact .inl hfaulty
    · refine .inr (.inl fun hready => ?_)
      obtain ⟨id, hid, hsome⟩ := (hready.grows hs₁'.grows).attached
      rw [← hs₂.grows.vnics] at hsome
      obtain ⟨w, hw, -⟩ := hall id hid hsome
      exact absurd hw List.not_mem_nil
  split
  · next hempty => exact spec_fail ((hnone hempty.1).imp_right fun h => h.imp_right fun h => by simp at h)
  · refine spec_pure fun t ht => ⟨fun v hv => ?_, hnone⟩
    obtain ⟨hid, hseen⟩ := hvs.seen v hv
    rw [ht.grows.attachments, hs₂.grows.attachments]
    exact ⟨hid, hseen.grows ht.grows⟩

/-! ## Its VCN and its subnet -/

/-- A block that the VCN has shown. -/
structure Shown (s : Network) (vcnID : ID) (cidr : List Char) : Prop where
  has : HasCidr s vcnID
  parses : Sound s vcnID → Parses cidr

theorem Shown.of_cons {s t : Network} {vcnID : ID} {vcn : Vcn} {cidr : List Char} {rest : List (List Char)}
    (hvcn : s.vcns vcnID = some vcn) (hcidrs : vcn.ipv6CidrBlocks = cidr :: rest) (ht : Within s t) :
    Shown t vcnID cidr := by
  refine ⟨(show HasCidr s vcnID from ⟨vcn, hvcn, hcidrs ▸ List.cons_ne_nil _ _⟩).grows ht.grows, ?_⟩
  rintro ⟨vcn', hvcn', hparses⟩
  obtain ⟨vcn'', hvcn'', hgrows⟩ := ht.grows.vcns vcnID vcn hvcn
  obtain rfl := Option.some.inj (hvcn'.symm.trans hvcn'')
  refine hparses cidr (List.mem_append_left _ (hgrows.cidrs.subset ?_))
  rw [hcidrs]
  exact List.mem_cons_self

theorem spec_getVcn {vcnID : ID} {s : Network} (h : Ready s₀ instanceID → Sound s vcnID) :
    JobSpec A s₀ instanceID (fun vcn t => ∃ s', Within s s' ∧ s'.vcns vcnID = some vcn ∧ Within s' t)
      (getVcn vcnID) s := by
  refine spec_get .inl (fun s' hs' hnone => .inr (.inl fun hready => ?_))
    fun s' vcn hs' hvcn t ht => ⟨s', hs', hvcn, ht⟩
  obtain ⟨vcn, hvcn, -⟩ := (h hready).grows hs'.grows
  exact absurd hnone (hvcn ▸ Option.some_ne_none vcn)

theorem spec_pollVcn {vcnID : ID} : ∀ {rounds : Nat} {s : Network}, (Ready s₀ instanceID → Sound s vcnID) →
    JobSpec A s₀ instanceID (fun cidr t => Shown t vcnID cidr) (pollVcn vcnID rounds) s := by
  intro rounds
  induction rounds with
  | zero => exact fun _ => spec_fail (.inr (.inr (.inl rfl)))
  | succ rounds ih =>
    intro s h
    refine spec_bind (P := fun _ _ => True) ?_ fun _ s₁ hs₁ _ => ?_
    · exact upholds_ask (fun _ _ _ _ _ => trivial) fun a ha hne _ _ => .inl ⟨a, ha, hne⟩
    have h₁ := fun hready => (h hready).grows hs₁.grows
    refine spec_bind (spec_getVcn h₁) ?_
    rintro vcn s₂ hs₂ ⟨s', hs', hvcn, ht⟩
    split
    · next cidr rest hcidrs =>
      exact spec_pure fun t ht' => .of_cons hvcn hcidrs (trans_of Within ht ht')
    · exact ih fun hready => (h₁ hready).grows hs₂.grows

theorem spec_ensureVcnCidr {svc : Service} {rounds : Nat} {vcnID : ID} {s : Network}
    (h : Ready s₀ instanceID → Sound s vcnID) :
    JobSpec A s₀ instanceID (fun cidr t => Shown t vcnID cidr) (ensureVcnCidr svc rounds vcnID) s := by
  refine spec_bind (spec_getVcn h) ?_
  rintro vcn s₁ hs₁ ⟨s', hs', hvcn, ht⟩
  split
  · next cidr rest hcidrs =>
    exact spec_pure fun t ht' => .of_cons hvcn hcidrs (trans_of Within ht ht')
  · refine spec_bind (P := fun _ _ => True)
      (spec_send .inl fun s' _ => ⟨within_addVcnCidr svc vcnID s', fun _ _ => trivial⟩)
      fun _ s₂ hs₂ _ => ?_
    exact spec_pollVcn fun hready => ((h hready).grows hs₁.grows).grows hs₂.grows

/-- The subnet that was read, as it is now. -/
def Still (s : Network) (subnetID : ID) (subnet : Subnet) : Prop :=
  ∃ n, s.subnets subnetID = some n ∧ SubnetGrows subnet n

theorem Still.grows {s s' : Network} {subnetID : ID} {subnet : Subnet} (h : Still s subnetID subnet) (hs : Grows s s') :
    Still s' subnetID subnet := by
  obtain ⟨n, hn, hgrows⟩ := h
  obtain ⟨n', hn', hgrows'⟩ := hs.subnets subnetID n hn
  exact ⟨n', hn', SubnetGrows.trans _ _ _ hgrows hgrows'⟩

/-- It has a block now. -/
def Blocked (s : Network) (subnetID : ID) : Prop := ∃ n, s.subnets subnetID = some n ∧ n.ipv6CidrBlock.getD [] ≠ []

theorem Blocked.grows {s s' : Network} {subnetID : ID} (h : Blocked s subnetID) (hs : Grows s s') :
    Blocked s' subnetID := by
  obtain ⟨n, hn, hne⟩ := h
  obtain ⟨n', hn', hgrows⟩ := hs.subnets subnetID n hn
  exact ⟨n', hn', hgrows.cidr hne ▸ hne⟩

theorem blocked_addSubnetCidr {s : Network} {subnetID : ID} {subnet : Subnet} {cidr : List Char}
    (h : Still s subnetID subnet) (hcidr : cidr ≠ []) : Blocked (s.addSubnetCidr subnetID cidr) subnetID := by
  obtain ⟨n, hn, -⟩ := h
  refine ⟨if n.ipv6CidrBlock.getD [] = [] then { n with ipv6CidrBlock := some cidr } else n, ?_, ?_⟩
  · rw [Network.addSubnetCidr, Network.subnets_modifySubnet, hn, Option.map_some]
  · split
    · exact hcidr
    · next hne => exact hne

theorem spec_ensureSubnetCidr {subnetID vcnID : ID} {subnet : Subnet} {vcnIpv6 : List Char} {s : Network}
    (hstill : Still s subnetID subnet) (hparses : Ready s₀ instanceID → Parses vcnIpv6)
    (hroom : Ready s₀ instanceID → s.subnetIds.length < 256) :
    JobSpec A s₀ instanceID (fun _ t => Blocked t subnetID) (ensureSubnetCidr subnetID subnet vcnID vcnIpv6) s := by
  unfold ensureSubnetCidr
  split
  · refine spec_bind (P := fun subnets _ => (usedCIDRs (subnets.getD [])).length ≤ s.subnetIds.length)
      (spec_attempt_ask (fun s' hs' t _ => ?_) fun _ _ _ => Nat.zero_le _) fun subnets s₁ hs₁ hused => ?_
    · exact (length_usedCIDRs s' vcnID).trans_eq (congrArg List.length hs'.grows.subnetIds)
    split
    · next e he =>
      refine spec_fail (.inr (.inl fun hready => ?_))
      obtain ⟨cidr, hcidr⟩ := exists_derive (hparses hready) (hused.trans_lt (hroom hready))
      rw [hcidr] at he
      cases he
    · next cidr hcidr =>
      refine spec_send .inl fun s' hs' => ⟨within_addSubnetCidr s' subnetID cidr, fun t ht => ?_⟩
      have hnow := (hstill.grows hs₁.grows).grows hs'.grows
      exact (blocked_addSubnetCidr hnow (derive_ne_nil hcidr)).grows ht.grows
  · next hne =>
    refine spec_pure fun t ht => ?_
    obtain ⟨n, hn, hgrows⟩ := hstill.grows ht.grows
    exact ⟨n, hn, hgrows.cidr hne ▸ hne⟩

/-! ## Its route and its rules -/

theorem hasRoute_append (rules : List RouteRule) (igwID : ID) : HasRoute (rules ++ [⟨some anyIPv6, some igwID⟩]) :=
  ⟨_, List.mem_append_right _ (List.mem_singleton_self _), rfl⟩

/-- The rules as they were read, with one for IPv6, are fit to replace those that are there now. -/
theorem rulesGrow_append {rules now : List RouteRule} (h : RulesGrow rules now) (igwID : ID) :
    RulesGrow now (rules ++ [⟨some anyIPv6, some igwID⟩]) := by
  refine ⟨?_, fun _ => hasRoute_append rules igwID⟩
  rw [h.others, List.filter_append]
  exact List.append_nil _

theorem spec_ensureIPv6Route {vcnID : ID} {routeTableID : Option ID} {s : Network}
    (hgateway : Ready s₀ instanceID → s.gatewaysOf vcnID ≠ [])
    (htable : Ready s₀ instanceID → ∃ rtID rules, routeTableID = some rtID ∧ rtID ≠ [] ∧ s.tables rtID = some rules) :
    JobSpec A s₀ instanceID (fun _ t => ∃ rtID, routeTableID = some rtID ∧ Routed t rtID)
      (ensureIPv6Route vcnID routeTableID) s := by
  refine spec_bind (P := fun rtID _ => routeTableID = some rtID)
      (spec_demand (fun hnone => ?_) fun rtID hsome t _ => ?_)
    fun rtID s₁ hs₁ hrt => ?_
  · refine .inr (.inl fun hready => ?_)
    obtain ⟨rtID, rules, hrt, hne, -⟩ := htable hready
    rw [hrt, Option.filter_some, if_pos (decide_eq_true hne)] at hnone
    cases hnone
  · exact (Option.filter_eq_some_iff.mp hsome).1
  refine spec_bind (P := fun igws _ => igws = s.gatewaysOf vcnID) (spec_list .inl fun s' hs' _ _ => ?_)
      fun igws s₂ hs₂ higws => ?_
  · rw [Network.gatewaysOf, hs'.grows.gateways, hs₁.grows.gateways]
    rfl
  refine spec_bind (P := fun _ _ => True) (spec_demand (fun hnone => ?_) fun _ _ _ _ => trivial) fun igw s₃ hs₃ _ => ?_
  · refine .inr (.inl fun hready => hgateway hready ?_)
    rw [← higws]
    exact List.head?_eq_none_iff.mp hnone
  have hs' := trans_of Within hs₁ (trans_of Within hs₂ hs₃)
  refine spec_bind (P := fun rules t => ∃ s', s'.tables rtID = some rules ∧ Within s' t)
    (spec_get .inl (fun s' hs'' hnone => .inr (.inl fun hready => ?_))
      fun s' rules _ hrules t ht => ⟨s', hrules, ht⟩) ?_
  · obtain ⟨rtID', rules, hrt', -, hrules⟩ := htable hready
    obtain rfl := Option.some.inj (hrt.symm.trans hrt')
    obtain ⟨rules', hrules', -⟩ := (hs'.grows.trans hs''.grows).tables rtID rules hrules
    exact absurd hnone (hrules' ▸ Option.some_ne_none rules')
  rintro rules s₄ hs₄ ⟨s', hrules, ht'⟩
  split
  · next hany =>
    obtain ⟨r, hr, hdest⟩ := List.any_eq_true.mp hany
    have hrouted : Routed s' rtID := ⟨rules, hrules, r, hr, of_decide_eq_true hdest⟩
    exact spec_pure fun t ht => ⟨rtID, hrt, (hrouted.grows ht'.grows).grows ht.grows⟩
  · refine spec_send .inl fun s₅ hs₅ => ⟨within_setTable fun now hnow => ?_, fun t ht => ⟨rtID, hrt, ?_⟩⟩
    · obtain ⟨now', hnow', hgrow⟩ := (ht'.grows.trans hs₅.grows).tables rtID rules hrules
      obtain rfl := Option.some.inj (hnow.symm.trans hnow')
      exact rulesGrow_append hgrow igw.id
    · obtain ⟨now, hnow, -⟩ := (ht'.grows.trans hs₅.grows).tables rtID rules hrules
      refine Routed.grows ⟨rules ++ [⟨some anyIPv6, some igw.id⟩], ?_, hasRoute_append rules igw.id⟩ ht.grows
      rw [Network.tables_setTable, hnow, Option.map_some]

/-- The update from rules that were read earlier leaves the list with its counterparts. -/
theorem mirrorList_of_grown {sl now : RuleList} (h : ListGrows sl now) :
    { now with ingress := sl.ingress ++ mirrored sl.ingress, egress := sl.egress ++ mirrored sl.egress } =
      mirrorList sl := by
  obtain rfl | rfl := h
  · rfl
  · rfl

theorem spec_mirrorToIPv6 : ∀ {ids : List ID} {s : Network},
    (Ready s₀ instanceID → ∀ id ∈ ids, ∃ sl, s.lists id = some sl) →
      JobSpec A s₀ instanceID (fun _ t => ∀ id ∈ ids, Mirrored t id) (mirrorToIPv6 ids) s := by
  intro ids
  induction ids with
  | nil => exact fun _ => spec_pure fun t _ => nofun
  | cons slID ids ih =>
    intro s h
    refine spec_bind (P := fun sl t => ∃ s', s'.lists slID = some sl ∧ Within s' t)
      (spec_get .inl (fun s' hs' hnone => .inr (.inl fun hready => ?_)) fun s' sl _ hsl t ht => ⟨s', hsl, ht⟩) ?_
    · obtain ⟨sl, hsl⟩ := h hready slID List.mem_cons_self
      obtain ⟨sl', hsl', -⟩ := hs'.grows.lists slID sl hsl
      exact absurd hnone (hsl' ▸ Option.some_ne_none sl')
    rintro sl s₁ hs₁ ⟨s', hsl, ht'⟩
    have hrest : ∀ s₂, Within s s₂ → Ready s₀ instanceID → ∀ id ∈ ids, ∃ sl, s₂.lists id = some sl := by
      intro s₂ hs₂ hready id hid
      obtain ⟨sl, hsl⟩ := h hready id (List.mem_cons_of_mem _ hid)
      obtain ⟨sl', hsl', -⟩ := hs₂.grows.lists id sl hsl
      exact ⟨sl', hsl'⟩
    have hcons : ∀ t, Mirrored t slID → (∀ id ∈ ids, Mirrored t id) → ∀ id ∈ slID :: ids, Mirrored t id :=
      fun t hhead htail => List.forall_mem_cons.mpr ⟨hhead, htail⟩
    split
    · next hnone =>
      have hhead : Mirrored s₁ slID := Mirrored.grows ⟨sl, hsl, mirrorList_eq_self hnone⟩ ht'.grows
      exact spec_imp (ih (hrest s₁ hs₁)) fun _ t ht htail => hcons t (hhead.grows ht.grows) htail
    · refine spec_bind (P := fun _ t => Mirrored t slID) (spec_send .inl fun s₂ hs₂ => ?_) fun _ s₃ hs₃ hhead => ?_
      · obtain ⟨now, hnow, hgrow⟩ := (ht'.grows.trans hs₂.grows).lists slID sl hsl
        refine ⟨within_setList fun now' hnow' => ?_, fun t ht => Mirrored.grows ⟨mirrorList sl, ?_, ?_⟩ ht.grows⟩
        · obtain rfl := Option.some.inj (hnow.symm.trans hnow')
          rw [mirrorList_of_grown hgrow]
          obtain rfl | rfl := hgrow
          · exact .inr rfl
          · exact .inl rfl
        · rw [Network.lists_setList, hnow, Option.map_some, mirrorList_of_grown hgrow]
        · exact mirrorList_mirrorList sl
      · exact spec_imp (ih (hrest s₃ (trans_of Within hs₁ hs₃)))
          fun _ t ht htail => hcons t (hhead.grows ht.grows) htail

/-! ## Its address -/

theorem spec_createIpv6 {svc : Service} {vnicID : ID} {s : Network} (h : EndToEnd s vnicID) :
    JobSpec A s₀ instanceID (fun _ t => EndToEnd t vnicID) (createIpv6 svc vnicID) s := by
  refine spec_bind (P := fun _ _ => True) (upholds_invoke fun s' hs' => ⟨fun a _ => ?_, fun _ _ _ => trivial, ?_⟩)
    fun ipAddress s₁ hs₁ _ => ?_
  · exact related_apply (within_addIpv6 svc (h.grows hs'.grows)) a
  · exact fun a ha hne _ _ => .inl ⟨a, ha, hne⟩
  split
  · exact spec_pure fun t ht => (h.grows hs₁.grows).grows ht.grows
  · refine spec_bind (P := fun _ _ => True) (spec_attempt_ask (fun _ _ _ _ => trivial) fun _ _ _ => trivial)
        fun ipv6s s₂ hs₂ _ => ?_
    refine spec_demand (fun _ => .inr (.inr (.inr rfl))) fun _ _ t ht => ?_
    exact ((h.grows hs₁.grows).grows hs₂.grows).grows ht.grows

theorem spec_assignIPv6 {svc : Service} {rounds : Nat} {vnicID subnetID : ID} {s : Network}
    (hvnic : s.vnics vnicID = some (some subnetID))
    (hprovided : Ready s₀ instanceID → ∃ subnet, s.subnets subnetID = some subnet ∧ Provided s subnet)
    (hroom : Ready s₀ instanceID → s.subnetIds.length < 256) :
    JobSpec A s₀ instanceID (fun _ t => EndToEnd t vnicID) (assignIPv6 svc rounds vnicID subnetID) s := by
  refine spec_bind (P := fun subnet t => Still t subnetID subnet ∧ (Ready s₀ instanceID → Provided t subnet))
    (spec_get .inl (fun s' hs' hnone => .inr (.inl fun hready => ?_))
      fun s' subnet hs' hsubnet t ht => ⟨?_, fun hready => ?_⟩) ?_
  · obtain ⟨n, hn, -⟩ := hprovided hready
    obtain ⟨n', hn', -⟩ := hs'.grows.subnets subnetID n hn
    exact absurd hnone (hn' ▸ Option.some_ne_none n')
  · exact Still.grows ⟨subnet, hsubnet, SubnetGrows.refl subnet⟩ ht.grows
  · obtain ⟨n, hn, hp⟩ := hprovided hready
    obtain ⟨n', hn', hgrows⟩ := hs'.grows.subnets subnetID n hn
    obtain rfl := Option.some.inj (hsubnet.symm.trans hn')
    exact (hp.grows hs'.grows hgrows).grows ht.grows (SubnetGrows.refl subnet)
  rintro subnet s₁ hs₁ ⟨hstill, hp⟩
  have hneeds : ∀ {t}, Within s₁ t → Ready s₀ instanceID → Provided t subnet :=
    fun ht hready => (hp hready).grows ht.grows (SubnetGrows.refl subnet)
  refine spec_bind (P := fun vcnID _ => subnet.vcnId = some vcnID) (spec_demand (fun hnone => ?_) fun _ h _ _ => h)
    fun vcnID s₂ hs₂ hvcnID => ?_
  · refine .inr (.inl fun hready => ?_)
    obtain ⟨vcnID, hsome, -⟩ := (hp hready).vcn
    exact absurd hnone (hsome ▸ Option.some_ne_none vcnID)
  have hvcn : ∀ {t}, Within s₁ t → Ready s₀ instanceID → Sound t vcnID ∧ t.gatewaysOf vcnID ≠ [] := by
    intro t ht hready
    obtain ⟨vcnID', hsome, hsound⟩ := (hneeds ht hready).vcn
    obtain rfl := Option.some.inj (hvcnID.symm.trans hsome)
    exact hsound
  refine spec_bind (spec_ensureVcnCidr fun hready => (hvcn hs₂ hready).1) fun vcnIpv6 s₃ hs₃ hshown => ?_
  have h₃ := trans_of Within hs₂ hs₃
  refine spec_bind (spec_ensureSubnetCidr (hstill.grows h₃.grows) (fun hready => hshown.parses (hvcn h₃ hready).1) ?_)
    fun _ s₄ hs₄ hblocked => ?_
  · intro hready
    rw [h₃.grows.subnetIds, hs₁.grows.subnetIds]
    exact hroom hready
  have h₄ := trans_of Within h₃ hs₄
  refine spec_bind (spec_ensureIPv6Route (fun hready => (hvcn h₄ hready).2) fun hready => (hneeds h₄ hready).table)
    fun _ s₅ hs₅ hrouted => ?_
  have h₅ := trans_of Within h₄ hs₅
  refine spec_bind (spec_mirrorToIPv6 fun hready => (hneeds h₅ hready).lists) fun _ s₆ hs₆ hmirrored => ?_
  apply spec_createIpv6
  obtain ⟨n, hn, hgrows⟩ := hstill.grows (trans_of Within h₅ hs₆).grows
  obtain ⟨m, hm, hne⟩ := hblocked.grows (trans_of Within hs₅ hs₆).grows
  obtain rfl := Option.some.inj (hn.symm.trans hm)
  obtain ⟨rtID, hrt, hrouted⟩ := hrouted
  refine ⟨subnetID, n, ?_, hn, ⟨vcnID, hgrows.vcnId.trans hvcnID, ?_⟩, hne,
    ⟨rtID, hgrows.routeTableId.trans hrt, ?_⟩, ?_⟩
  · rw [(trans_of Within hs₁ (trans_of Within h₅ hs₆)).grows.vnics]
    exact hvnic
  · exact hshown.has.grows (trans_of Within hs₄ (trans_of Within hs₅ hs₆)).grows
  · exact hrouted.grows hs₆.grows
  · rw [hgrows.securityListIds]
    exact hmirrored

theorem spec_enableIPv6 (svc : Service) (rounds : Nat) {s : Network} (h : Addressed s) (hs : Within s₀ s) :
    JobSpec A s₀ instanceID (fun _ t => ∃ vnicID ∈ t.attachments instanceID, EndToEnd t vnicID)
      (enableIPv6 svc rounds instanceID) s := by
  refine spec_bind (spec_getInstanceVNICs h hs) fun vnics s₁ hs₁ hvnics => ?_
  refine spec_bind (P := fun v t => v.id ∈ t.attachments instanceID ∧ Seen t v)
      (spec_demand (fun hnone => ?_) fun v hv t ht => ?_)
    fun vnic s₂ hs₂ hvnic => ?_
  · exact hvnics.2 (List.head?_eq_none_iff.mp hnone)
  · obtain ⟨hid, hseen⟩ := hvnics.1 v (List.mem_of_head? hv)
    exact ⟨ht.grows.attachments ▸ hid, hseen.grows ht.grows⟩
  obtain ⟨hid, hseen⟩ := hvnic
  have hs₂' := trans_of Within hs (trans_of Within hs₁ hs₂)
  have hprovided := fun hready : Ready s₀ instanceID =>
    (hready.grows hs₂'.grows).provided vnic.id hid vnic.subnetId hseen.1
  refine spec_bind (P := fun subnetID _ => vnic.subnetId = some subnetID)
      (spec_demand (fun hnone => ?_) fun _ h _ _ => h)
    fun subnetID s₃ hs₃ hsubnetID => ?_
  · refine .inr (.inl fun hready => ?_)
    obtain ⟨subnetID, subnet, hsome, -⟩ := hprovided hready
    exact absurd hnone (hsome ▸ Option.some_ne_none subnetID)
  have hid₃ : vnic.id ∈ s₃.attachments instanceID := hs₃.grows.attachments ▸ hid
  split
  · next ip rest haddresses =>
    refine spec_pure fun t ht => ⟨vnic.id, ht.grows.attachments ▸ hid₃, ?_⟩
    exact ((hseen.2 (haddresses ▸ List.cons_ne_nil ip rest)).grows hs₃.grows).grows ht.grows
  · refine spec_imp (spec_assignIPv6 ?_ (fun hready => ?_) fun hready => ?_) fun _ t ht hconnected =>
      ⟨vnic.id, ht.grows.attachments ▸ hid₃, hconnected⟩
    · rw [hs₃.grows.vnics, hseen.1, hsubnetID]
    · obtain ⟨subnetID', subnet, hsome, hsubnet, hp⟩ := hprovided hready
      obtain rfl := Option.some.inj (hsubnetID.symm.trans hsome)
      obtain ⟨n, hn, hgrows⟩ := hs₃.grows.subnets subnetID subnet hsubnet
      exact ⟨n, hn, hp.grows hs₃.grows hgrows⟩
    · exact (hready.grows (hs₂'.grows.trans hs₃.grows)).room

theorem upholds_deleteIpv6s : ∀ {ips : List Ipv6} {s : Network},
    Upholds A Within Within (fun _ _ => True) (deleteIpv6s ips) s := by
  intro ips
  induction ips with
  | nil => exact fun _ _ => trivial
  | cons ip ips ih =>
    intro s
    refine upholds_seq (P := fun _ _ => True) (upholds_send fun s' _ => ⟨fun a _ => ?_, fun _ _ _ => trivial, ?_⟩)
      (fun _ _ _ _ => ih) fun _ _ _ _ _ _ => trivial
    · exact related_apply (within_deleteIpv6 s' ip.id) a
    · exact fun _ _ _ _ _ => trivial

theorem upholds_disableIPv6 {s : Network} (h : Addressed s) :
    Upholds A Within Within (fun _ _ => True) (disableIPv6 instanceID) s := by
  refine upholds_seq (spec_getInstanceVNICs h (refl_of Within s)) (fun vnics s₁ _ _ => ?_)
    fun _ _ _ _ _ _ => trivial
  split
  · exact fun _ _ => trivial
  · refine upholds_seq (P := fun _ _ => True) (upholds_ask (fun _ _ _ _ _ => trivial) fun _ _ _ _ _ => trivial)
      (fun _ _ _ _ => upholds_deleteIpv6s) fun _ _ _ _ _ _ => trivial

end

/-! ## Many jobs -/

inductive Request
  | enable (instanceID : ID)
  | disable (instanceID : ID)
  deriving DecidableEq, Repr

def Request.job (svc : Service) (rounds : Nat) : Request → Job (Option (List Char))
  | .enable instanceID => do
    let ip ← enableIPv6 svc rounds instanceID
    pure (some ip)
  | .disable instanceID => do
    disableIPv6 instanceID
    pure none

/-- How a request ends. -/
def Request.Ends (A : Answer → Prop) (s₀ : Network) : Request → Except Error (Option (List Char)) → Network → Prop
  | .enable instanceID, .ok _, s => ∃ vnicID ∈ s.attachments instanceID, EndToEnd s vnicID
  | .enable instanceID, .error e, _ => Excused A s₀ instanceID e
  | .disable _, _, _ => True

theorem upholds_job {A : Answer → Prop} (svc : Service) (rounds : Nat) {s : Network} (h : Addressed s) (r : Request) :
    Upholds A Within Within (r.Ends A s) (r.job svc rounds) s := by
  cases r with
  | enable instanceID =>
    refine upholds_seq (spec_enableIPv6 svc rounds h (refl_of Within s)) (fun ip s₁ _ hconnected t ht => ?_)
      fun e _ _ he _ _ => he
    obtain ⟨vnicID, hid, hconnected⟩ := hconnected
    exact ⟨vnicID, ht.grows.attachments ▸ hid, hconnected.grows ht.grows⟩
  | disable instanceID =>
    exact upholds_seq (upholds_disableIPv6 h) (fun _ _ _ _ _ _ => trivial) fun _ _ _ _ _ _ => trivial

section
variable {ι : Type} [DecidableEq ι] (svc : Service) (rounds : ι → Nat) (requests : ι → Request)

/-- Every request at its first call. -/
def start (s : Network) : Procs ι Network Error (Option (List Char)) :=
  ⟨s, fun i => (requests i).job svc (rounds i)⟩

variable {A : Answer → Prop} {s₀ : Network} {es : List (Event ι Move)} {p : Procs ι Network Error (Option (List Char))}

theorem run_within_of_start (h : Addressed s₀)
    (hrun : StepRun.Run (Procs.step Network.move) (fun _ => Answered A) (start svc rounds requests s₀) es p) :
    Within s₀ p.state ∧ ∀ i r, p.procs i = .done r → (requests i).Ends A s₀ r p.state := by
  have hothers : ∀ i j : ι, i ≠ j → ∀ s s', Within s s' → Within s s' := fun _ _ _ _ _ hs => hs
  have hmoves : ∀ (m : Move) s (_ : ι), Within s (s.move m) := fun m s _ => within_move m s
  have hstart : ∀ i, Upholds A Within Within ((requests i).Ends A s₀) ((requests i).job svc (rounds i)) s₀ :=
    fun i => upholds_job svc (rounds i) h (requests i)
  exact ⟨Procs.run_within hothers hmoves (W := Within) (fun _ _ _ hs => hs) within_move hrun hstart,
    fun i r hi => Procs.run_ended hothers hmoves hrun hstart hi⟩

/-- **No address without a way.** However the calls of the jobs interleave, and whichever fail, a VNIC with an address
has a network that carries IPv6, and shared resources are only added to. -/
theorem addressed_end_to_end (h : Addressed s₀)
    (hrun : StepRun.Run (Procs.step Network.move) (fun _ => Answered A) (start svc rounds requests s₀) es p) :
    Addressed p.state ∧ Grows s₀ p.state ∧
      ∀ i instanceID ip, requests i = .enable instanceID → p.procs i = .done (.ok (some ip)) →
        ∃ vnicID ∈ p.state.attachments instanceID, EndToEnd p.state vnicID := by
  obtain ⟨hwithin, hends⟩ := run_within_of_start svc rounds requests h hrun
  refine ⟨h.within hwithin, hwithin.grows, fun i instanceID ip hi hdone => ?_⟩
  have hend := hends i _ hdone
  rw [hi] at hend
  exact hend

end

/-- One instance in a VCN without IPv6. -/
def exampleNetwork : Network where
  vcnIds := ["vcn".toList]
  vcns id := if id = "vcn".toList then some { available := true, defaultRouteTableId := some "rt".toList } else none
  subnetIds := ["subnet".toList]
  subnets id := if id = "subnet".toList then
      some { vcnId := some "vcn".toList, routeTableId := some "rt".toList, securityListIds := ["sl".toList] }
    else none
  gateways := [⟨"igw".toList, "vcn".toList⟩]
  tables id := if id = "rt".toList then some [⟨some anyIPv4, some "igw".toList⟩] else none
  lists id := if id = "sl".toList then
      some { id := "sl".toList, ingress := [{ protocol := some "6".toList, cidr := some anyIPv4 }] }
    else none
  attachments id := if id = "i".toList then ["vnic".toList] else []
  vnics id := if id = "vnic".toList then some (some "subnet".toList) else none

def exampleStart (s : Network) : Procs Unit Network Error (Option (List Char)) :=
  start exampleService (fun _ => 30) (fun _ => .enable "i".toList) s

def calls (n : Nat) (a : Answer) : List (Event Unit Move) := List.replicate n (.call () a)

theorem addressed_exampleNetwork : Addressed exampleNetwork := nofun

theorem example_addressed : ∃ p, StepRun.exec (Procs.step Network.move) (exampleStart exampleNetwork)
      (calls 5 .ok ++ .move (.settle "vcn".toList) :: calls 10 .ok) = some p ∧
    Addressed p.state ∧ ∃ vnicID ∈ p.state.attachments "i".toList, EndToEnd p.state vnicID := by
  have hresult : (StepRun.exec (Procs.step Network.move) (exampleStart exampleNetwork)
      (calls 5 .ok ++ .move (.settle "vcn".toList) :: calls 10 .ok)).map (fun p => (p.procs ()).result?) =
        some (some (.ok (some "2001:db8::1".toList))) := by decide +kernel
  obtain ⟨p, hp, hdone⟩ := Option.map_eq_some_iff.mp hresult
  have hrun := StepRun.run_of_forall (C := Answered fun _ => True) (fun e _ => by cases e <;> trivial) hp
  obtain ⟨haddressed, -, hends⟩ := addressed_end_to_end exampleService (fun _ => 30) (fun _ => .enable "i".toList)
    addressed_exampleNetwork hrun
  exact ⟨p, hp, haddressed, hends () "i".toList _ rfl (Proc.eq_done_of_result? hdone)⟩

section
variable {ι : Type} [DecidableEq ι] (svc : Service) (rounds : ι → Nat) (requests : ι → Request)
  {A : Answer → Prop} {s₀ : Network} {es : List (Event ι Move)} {p : Procs ι Network Error (Option (List Char))}

/-- **Another try.** After any jobs with any failures, a job without failing calls enables IPv6 for an instance that was
ready from the start, unless the service does not show in time what it has given. -/
theorem enableIPv6_recovers {κ : Type} [DecidableEq κ] (later : κ → Request) (rounds' : κ → Nat)
    {es' : List (Event κ Move)} {p' : Procs κ Network Error (Option (List Char))} (h : Addressed s₀)
    (hrun : StepRun.Run (Procs.step Network.move) (fun _ => Answered A) (start svc rounds requests s₀) es p)
    (hrun' : StepRun.Run (Procs.step Network.move) (fun _ => Answered (· = .ok)) (start svc rounds' later p.state)
      es' p')
    {i : κ} {instanceID : ID} (hi : later i = .enable instanceID) (hready : Ready s₀ instanceID)
    {r : Except Error (Option (List Char))} (hr : p'.procs i = .done r) :
    (∃ vnicID ∈ p'.state.attachments instanceID, EndToEnd p'.state vnicID) ∨
      r = .error .notReady ∨ r = .error .notAvailable := by
  obtain ⟨hwithin, -⟩ := run_within_of_start svc rounds requests h hrun
  obtain ⟨-, hends⟩ := run_within_of_start svc rounds' later (h.within hwithin) hrun'
  have hend := hends i r hr
  rw [hi] at hend
  cases r with
  | ok ip => exact .inl hend
  | error e =>
    right
    obtain ⟨a, ha, hne⟩ | hnot | rfl | rfl := hend
    · exact absurd ha hne
    · exact absurd (hready.grows hwithin.grows) hnot
    · exact .inl rfl
    · exact .inr rfl

end

theorem ready_exampleNetwork : Ready exampleNetwork "i".toList := by
  refine ⟨⟨"vnic".toList, by decide, by decide⟩, fun id hid subnetId hvnic => ?_, by decide⟩
  obtain rfl := List.mem_singleton.mp (show id ∈ ["vnic".toList] from hid)
  obtain rfl := Option.some.inj hvnic
  refine ⟨_, _, rfl, rfl, ⟨"vcn".toList, rfl, ⟨_, rfl, nofun⟩, by decide⟩, ⟨"rt".toList, _, rfl, by decide, rfl⟩, ?_⟩
  intro id hid
  obtain rfl := List.mem_singleton.mp hid
  exact ⟨_, rfl⟩

/-- The answer to `AddIpv6SubnetCidr` is lost and the job fails; the next one goes through. -/
theorem example_recovers : ∃ p p', StepRun.exec (Procs.step Network.move) (exampleStart exampleNetwork)
      (calls 5 .ok ++ .move (.settle "vcn".toList) :: calls 3 .ok ++ calls 1 .lost) = some p ∧
    (p.procs ()).result? = some (.error .addSubnetCidr) ∧
    StepRun.exec (Procs.step Network.move) (exampleStart p.state) (calls 10 .ok) = some p' ∧
    ∃ vnicID ∈ p'.state.attachments "i".toList, EndToEnd p'.state vnicID := by
  have hfirst : (StepRun.exec (Procs.step Network.move) (exampleStart exampleNetwork)
      (calls 5 .ok ++ .move (.settle "vcn".toList) :: calls 3 .ok ++ calls 1 .lost)).map
        (fun p => (p.procs ()).result?) =
        some (some (.error .addSubnetCidr)) := by decide +kernel
  have hsecond : ((StepRun.exec (Procs.step Network.move) (exampleStart exampleNetwork)
      (calls 5 .ok ++ .move (.settle "vcn".toList) :: calls 3 .ok ++ calls 1 .lost)).bind fun p =>
        StepRun.exec (Procs.step Network.move) (exampleStart p.state) (calls 10 .ok)).map
          (fun p => (p.procs ()).result?) =
      some (some (.ok (some "2001:db8::1".toList))) := by decide +kernel
  obtain ⟨p, hp, hfailed⟩ := Option.map_eq_some_iff.mp hfirst
  rw [hp, Option.bind_some] at hsecond
  obtain ⟨p', hp', hdone⟩ := Option.map_eq_some_iff.mp hsecond
  refine ⟨p, p', hp, hfailed, hp', ?_⟩
  have hrun := StepRun.run_of_forall (C := Answered fun _ => True) (fun e _ => by cases e <;> trivial) hp
  have hrun' := StepRun.run_of_forall (C := Answered (· = .ok)) (fun e he => ?_) hp'
  · obtain hconnected | hfails := enableIPv6_recovers exampleService (fun _ => 30) (fun _ => .enable "i".toList)
      (fun _ : Unit => .enable "i".toList) (fun _ => 30) addressed_exampleNetwork hrun hrun' rfl ready_exampleNetwork
      (Proc.eq_done_of_result? hdone)
    · exact hconnected
    · obtain h | h := hfails <;> cases h
  · rw [List.eq_of_mem_replicate he]
    rfl

end OciHelper.Oci.Provisioning
