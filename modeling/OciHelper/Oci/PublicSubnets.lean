import OciHelper.Oci.Provisioning

/-!
# A public subnet for every caller

* `Online` : the default route table of a VCN leads to a gateway of the VCN; `Public` : a subnet of such a VCN that lets
  in what comes from the internet;
* `Wf` : every default route table is there and is that of one VCN;
* `Adds` : what there is stays, and a VCN stays online; every call of `ensurePublicSubnet` is within this;
* `subnets_public` : in every interleaving of callers, with any calls failing, who gets a subnet gets a public one.
-/

namespace OciHelper.Oci.Provisioning.PublicSubnets
open Calls

/-- A route to the internet by a gateway of the VCN. -/
def IsRoute (s : Network) (vcnID : ID) (r : RouteRule) : Prop :=
  r.destination = some anyIPv4 ∧ ∃ g ∈ s.gateways, g.vcnId = vcnID ∧ r.networkEntityId = some g.id

def Online (s : Network) (vcnID : ID) : Prop :=
  ∀ vcn rtID, s.vcns vcnID = some vcn → vcn.defaultRouteTableId = some rtID →
    ∃ rules, s.tables rtID = some rules ∧ ∃ r ∈ rules, IsRoute s vcnID r

structure Public (s : Network) (vcnID subnetID : ID) (subnet : Subnet) : Prop where
  stored : s.subnets subnetID = some subnet
  ingress : subnet.IsPublic
  vcnId : subnet.vcnId = some vcnID
  vcn : (s.vcns vcnID).isSome
  gateway : s.gatewaysOf vcnID ≠ []
  online : Online s vcnID

structure Wf (s : Network) : Prop where
  tables : ∀ id vcn rtID, s.vcns id = some vcn → vcn.defaultRouteTableId = some rtID → (s.tables rtID).isSome
  own : ∀ id id' vcn vcn' rtID, s.vcns id = some vcn → s.vcns id' = some vcn' → vcn.defaultRouteTableId = some rtID →
    vcn'.defaultRouteTableId = some rtID → id = id'

structure VcnStays (v v' : Vcn) : Prop where
  routeTable : v'.defaultRouteTableId = v.defaultRouteTableId
  available : v.available → v'.available

/-- A route to the internet by any gateway. -/
def Leads (s : Network) (r : RouteRule) : Prop :=
  r.destination = some anyIPv4 ∧ r.networkEntityId ∈ s.gateways.map fun g => some g.id

instance (s : Network) (r : RouteRule) : Decidable (Leads s r) := inferInstanceAs (Decidable (_ ∧ _))

def others (s : Network) (rules : List RouteRule) : List RouteRule := rules.filter fun r => ¬ Leads s r

def SameOthers (s : Network) (rules rules' : List RouteRule) : Prop := others s rules' = others s rules

theorem SameOthers.refl (s : Network) (rules : List RouteRule) : SameOthers s rules rules := rfl

structure Adds (s s' : Network) : Prop where
  vcns : Kept VcnStays s.vcns s'.vcns
  subnets : Kept Eq s.subnets s'.subnets
  gateways : s.gateways <+: s'.gateways
  tables : Kept (SameOthers s') s.tables s'.tables
  lists : Kept Eq s.lists s'.lists
  attachments : s'.attachments = s.attachments
  vnics : s'.vnics = s.vnics
  ipv6s : s'.ipv6s.map Ipv6.vnicId = s.ipv6s.map Ipv6.vnicId
  wf : Wf s → Wf s'
  online : Wf s → ∀ vcnID, (s.vcns vcnID).isSome → Online s vcnID → Online s' vcnID

/-! ## What stays -/

theorem VcnStays.refl (v : Vcn) : VcnStays v v := ⟨rfl, fun h => h⟩

theorem VcnStays.trans (a b c : Vcn) (h : VcnStays a b) (h' : VcnStays b c) : VcnStays a c :=
  ⟨h'.routeTable.trans h.routeTable, fun ha => h'.available (h.available ha)⟩

theorem Kept.isSome {α : Type} {r : α → α → Prop} {m m' : ID → Option α} (h : Kept r m m') {id : ID}
    (hid : (m id).isSome) : (m' id).isSome := by
  obtain ⟨v, hv⟩ := Option.isSome_iff_exists.mp hid
  obtain ⟨v', hv', -⟩ := h id v hv
  exact hv' ▸ rfl

theorem Leads.mono {s s' : Network} (h : s.gateways <+: s'.gateways) {r : RouteRule} (hr : Leads s r) : Leads s' r :=
  ⟨hr.1, (h.sublist.map _).subset hr.2⟩

/-- With more gateways, fewer rules are others. -/
theorem others_mono {s s' : Network} (h : s.gateways <+: s'.gateways) {rules rules' : List RouteRule}
    (hrules : others s rules' = others s rules) : others s' rules' = others s' rules := by
  have hfilter : ∀ l, others s' l = others s' (others s l) := by
    intro l
    unfold others
    rw [List.filter_filter]
    refine List.filter_congr fun r _ => ?_
    by_cases hr : Leads s r
    · simp [hr, hr.mono h]
    · simp [hr]
  rw [hfilter rules', hfilter rules, hrules]

theorem IsRoute.mono {s s' : Network} (h : s.gateways <+: s'.gateways) {vcnID : ID} {r : RouteRule}
    (hr : IsRoute s vcnID r) : IsRoute s' vcnID r := by
  obtain ⟨hdest, g, hg, hvcn, hentity⟩ := hr
  exact ⟨hdest, g, h.subset hg, hvcn, hentity⟩

instance : IsPreorder Network Adds where
  refl s :=
    { vcns := .refl VcnStays.refl _
      subnets := .refl (fun _ => rfl) _
      gateways := List.prefix_rfl
      tables := .refl (SameOthers.refl _) s.tables
      lists := .refl (fun _ => rfl) _
      attachments := rfl
      vnics := rfl
      ipv6s := rfl
      wf := fun h => h
      online := fun _ _ _ h => h }
  trans s s' s'' h h' :=
    { vcns := h.vcns.trans VcnStays.trans h'.vcns
      subnets := h.subnets.trans (fun _ _ _ => Eq.trans) h'.subnets
      gateways := h.gateways.trans h'.gateways
      tables := by
        intro id rules hrules
        obtain ⟨rules', hrules', hothers⟩ := h.tables id rules hrules
        obtain ⟨rules'', hrules'', hothers'⟩ := h'.tables id rules' hrules'
        exact ⟨rules'', hrules'', hothers'.trans (others_mono h'.gateways hothers)⟩
      lists := h.lists.trans (fun _ _ _ => Eq.trans) h'.lists
      attachments := h'.attachments.trans h.attachments
      vnics := h'.vnics.trans h.vnics
      ipv6s := h'.ipv6s.trans h.ipv6s
      wf := fun hwf => h'.wf (h.wf hwf)
      online := fun hwf vcnID hsome honline =>
        h'.online (h.wf hwf) vcnID (Kept.isSome h.vcns hsome) (h.online hwf vcnID hsome honline) }

theorem gatewaysOf_ne_nil {s s' : Network} (h : Adds s s') {vcnID : ID} (hne : s.gatewaysOf vcnID ≠ []) :
    s'.gatewaysOf vcnID ≠ [] := by
  obtain ⟨g, hg⟩ := List.exists_mem_of_ne_nil _ hne
  obtain ⟨hmem, hvcn⟩ := List.mem_filter.mp hg
  exact List.ne_nil_of_mem (List.mem_filter.mpr ⟨h.gateways.subset hmem, hvcn⟩)

theorem Public.adds {s s' : Network} (hs : Adds s s') (hwf : Wf s) {vcnID subnetID : ID} {subnet : Subnet}
    (h : Public s vcnID subnetID subnet) : Public s' vcnID subnetID subnet := by
  obtain ⟨subnet', hsubnet', rfl⟩ := hs.subnets subnetID subnet h.stored
  exact ⟨hsubnet', h.ingress, h.vcnId, Kept.isSome hs.vcns h.vcn, gatewaysOf_ne_nil hs h.gateway,
    hs.online hwf vcnID h.vcn h.online⟩

/-! ## Effects -/

/-- A step that leaves route tables and what leads to them as they are. -/
theorem online_of_same (s s' : Network) (hvcns : ∀ id vcn, s'.vcns id = some vcn →
      ∃ vcn', s.vcns id = some vcn' ∧ vcn'.defaultRouteTableId = vcn.defaultRouteTableId)
    (htables : s'.tables = s.tables) (hgateways : s.gateways <+: s'.gateways) {vcnID : ID} (h : Online s vcnID) :
    Online s' vcnID := by
  intro vcn rtID hvcn hrt
  obtain ⟨vcn', hvcn', hsame⟩ := hvcns vcnID vcn hvcn
  obtain ⟨rules, hrules, r, hr, hroute⟩ := h vcn' rtID hvcn' (hsame.trans hrt)
  exact ⟨rules, htables ▸ hrules, r, hr, hroute.mono hgateways⟩

theorem adds_addGateway (svc : Service) (vcnID : ID) (s : Network) : Adds s (svc.addGateway vcnID s) :=
  { refl_of Adds s with
    gateways := List.prefix_append _ _
    tables := .refl (SameOthers.refl _) s.tables
    wf := fun h => ⟨h.tables, h.own⟩
    online := fun _ _ _ h =>
      online_of_same s (svc.addGateway vcnID s) (fun _ vcn hvcn => ⟨vcn, hvcn, rfl⟩) rfl (List.prefix_append _ _) h }

theorem adds_addSubnet (svc : Service) (vcnID : ID) (s : Network) : Adds s (svc.addSubnet vcnID s) := by
  unfold Service.addSubnet
  split
  · exact refl_of Adds s
  · next id hid =>
    exact { refl_of Adds s with
      subnets := kept_add (fun _ => rfl) (svc.subnetId_new s id hid)
      tables := .refl (SameOthers.refl _) s.tables
      wf := fun h => ⟨h.tables, h.own⟩
      online := fun _ _ _ h => online_of_same s _ (fun _ vcn hvcn => ⟨vcn, hvcn, rfl⟩) rfl List.prefix_rfl h }

theorem vcns_modifyVcn {s : Network} {id id' : ID} {f : Vcn → Vcn} {vcn : Vcn}
    (h : (s.modifyVcn id f).vcns id' = some vcn) : ∃ vcn', s.vcns id' = some vcn' ∧ (vcn = vcn' ∨ vcn = f vcn') := by
  change Function.update s.vcns id ((s.vcns id).map f) id' = some vcn at h
  by_cases hid : id' = id
  · subst hid
    rw [Function.update_self] at h
    obtain ⟨vcn', hvcn', rfl⟩ := Option.map_eq_some_iff.mp h
    exact ⟨vcn', hvcn', .inr rfl⟩
  · rw [Function.update_of_ne hid] at h
    exact ⟨vcn, h, .inl rfl⟩

theorem adds_move (m : Move) (s : Network) : Adds s (s.move m) := by
  cases m with
  | settle vcnID =>
    have hback : ∀ id vcn, (s.move (.settle vcnID)).vcns id = some vcn →
        ∃ vcn', s.vcns id = some vcn' ∧ vcn'.defaultRouteTableId = vcn.defaultRouteTableId := by
      intro id vcn hvcn
      obtain ⟨vcn', hvcn', rfl | rfl⟩ := vcns_modifyVcn hvcn
      · exact ⟨vcn, hvcn', rfl⟩
      · exact ⟨vcn', hvcn', rfl⟩
    exact { refl_of Adds s with
      vcns := kept_modify VcnStays.refl fun v _ => ⟨rfl, fun _ => rfl⟩
      tables := .refl (SameOthers.refl _) s.tables
      wf := fun h => by
        refine ⟨fun id vcn rtID hvcn hrt => ?_, fun id id' vcn vcn' rtID hvcn hvcn' hrt hrt' => ?_⟩
        · obtain ⟨w, hw, hsame⟩ := hback id vcn hvcn
          exact h.tables id w rtID hw (hsame.trans hrt)
        · obtain ⟨w, hw, hsame⟩ := hback id vcn hvcn
          obtain ⟨w', hw', hsame'⟩ := hback id' vcn' hvcn'
          exact h.own id id' w w' rtID hw hw' (hsame.trans hrt) (hsame'.trans hrt')
      online := fun _ _ _ h => online_of_same s _ hback rfl List.prefix_rfl h }
  | assign ipv6ID ipAddress =>
    exact { refl_of Adds s with
      tables := .refl (SameOthers.refl _) s.tables
      ipv6s := by
        refine (List.map_map ..).trans (List.map_congr_left fun ip _ => ?_)
        dsimp only [Function.comp]
        split <;> rfl
      wf := fun h => ⟨h.tables, h.own⟩
      online := fun _ _ _ h => online_of_same s _ (fun _ vcn hvcn => ⟨vcn, hvcn, rfl⟩) rfl List.prefix_rfl h }

/-- The VCNs after a new one. -/
theorem vcns_update {s : Network} {v : NewVcn} {w vcn : Vcn} {id : ID}
    (h : Function.update s.vcns v.id (some w) id = some vcn) : id = v.id ∧ vcn = w ∨ id ≠ v.id ∧
      s.vcns id = some vcn := by
  by_cases hid : id = v.id
  · subst hid
    rw [Function.update_self] at h
    exact .inl ⟨rfl, (Option.some.inj h).symm⟩
  · rw [Function.update_of_ne hid] at h
    exact .inr ⟨hid, h⟩

theorem adds_addVcn (svc : Service) (s : Network) : Adds s (svc.addVcn s) := by
  unfold Service.addVcn
  split
  · exact refl_of Adds s
  · next v hv =>
    obtain ⟨hvcn, htable, hlist⟩ := svc.vcn_new s v hv
    -- the default route table of an older VCN is an older one
    have hold : ∀ {id vcn rtID}, Wf s → s.vcns id = some vcn → vcn.defaultRouteTableId = some rtID →
        rtID ≠ v.tableId := by
      rintro id vcn rtID hwf hid hrt rfl
      have hsome := hwf.tables id vcn _ hid hrt
      rw [htable] at hsome
      cases hsome
    exact { refl_of Adds s with
      vcns := kept_add VcnStays.refl hvcn
      tables := kept_add (SameOthers.refl _) htable
      lists := kept_add (fun _ => rfl) hlist
      wf := fun hwf => by
        refine ⟨fun id vcn rtID hid hrt => ?_, fun id id' vcn vcn' rtID hid hid' hrt hrt' => ?_⟩
        · obtain ⟨-, rfl⟩ | ⟨-, hid⟩ := vcns_update hid
          · obtain rfl := Option.some.inj hrt
            change (Function.update s.tables v.tableId (some []) v.tableId).isSome
            rw [Function.update_self]
            rfl
          · change (Function.update s.tables v.tableId (some []) rtID).isSome
            rw [Function.update_of_ne (hold hwf hid hrt)]
            exact hwf.tables id vcn rtID hid hrt
        · obtain ⟨rfl, rfl⟩ | ⟨-, hid⟩ := vcns_update hid
          · obtain ⟨rfl, -⟩ | ⟨-, hid'⟩ := vcns_update hid'
            · rfl
            · obtain rfl := Option.some.inj hrt
              exact absurd rfl (hold hwf hid' hrt')
          · obtain ⟨rfl, rfl⟩ | ⟨-, hid'⟩ := vcns_update hid'
            · obtain rfl := Option.some.inj hrt'
              exact absurd rfl (hold hwf hid hrt)
            · exact hwf.own id id' vcn vcn' rtID hid hid' hrt hrt'
      online := fun hwf vcnID hsome honline vcn rtID hid hrt => by
        obtain ⟨rfl, -⟩ | ⟨-, hid⟩ := vcns_update hid
        · rw [hvcn] at hsome
          cases hsome
        · obtain ⟨rules, hrules, hroute⟩ := honline vcn rtID hid hrt
          exact ⟨rules, (Function.update_of_ne (hold hwf hid hrt) ..).trans hrules, hroute⟩ }

/-- The rules of the default route table of a VCN, as they were read, with a route. -/
theorem adds_setTable {s₁ s : Network} (hs : Adds s₁ s) {vcnID rtID igwID : ID} {vcn : Vcn} {rules : List RouteRule}
    (hvcn : s.vcns vcnID = some vcn) (hrt : vcn.defaultRouteTableId = some rtID) (hrules : s₁.tables rtID = some rules)
    (higw : ∃ g ∈ s.gateways, g.vcnId = vcnID ∧ g.id = igwID) :
    Adds s (s.setTable rtID (rules ++ [⟨some anyIPv4, some igwID⟩])) ∧
      (Wf s → Online (s.setTable rtID (rules ++ [⟨some anyIPv4, some igwID⟩])) vcnID) := by
  obtain ⟨g, hg, hgvcn, rfl⟩ := higw
  have hroute : IsRoute s vcnID ⟨some anyIPv4, some g.id⟩ := ⟨rfl, g, hg, hgvcn, rfl⟩
  have hleads : Leads s ⟨some anyIPv4, some g.id⟩ := ⟨rfl, List.mem_map_of_mem hg⟩
  obtain ⟨now, hnow, hothers⟩ := hs.tables rtID rules hrules
  have hset : (s.setTable rtID (rules ++ [⟨some anyIPv4, some g.id⟩])).tables rtID =
      some (rules ++ [⟨some anyIPv4, some g.id⟩]) := by
    rw [Network.tables_setTable, hnow, Option.map_some]
  have hne : ∀ id, id ≠ rtID →
      (s.setTable rtID (rules ++ [⟨some anyIPv4, some g.id⟩])).tables id = s.tables id :=
    fun id hid => Function.update_of_ne hid ..
  have honline : Wf s → ∀ id, (id = vcnID ∨ Online s id) →
      Online (s.setTable rtID (rules ++ [⟨some anyIPv4, some g.id⟩])) id := by
    intro hwf id hid vcn' rtID' hvcn' hrt'
    by_cases heq : rtID' = rtID
    · subst heq
      obtain rfl := hwf.own vcnID id vcn vcn' rtID' hvcn hvcn' hrt hrt'
      exact ⟨_, hset, _, List.mem_append_right _ (List.mem_singleton_self _), hroute⟩
    · obtain rfl | hid := hid
      · obtain rfl := Option.some.inj (hvcn.symm.trans hvcn')
        exact absurd (Option.some.inj (hrt'.symm.trans hrt)) heq
      · obtain ⟨rules', hrules', hr⟩ := hid vcn' rtID' hvcn' hrt'
        exact ⟨rules', (hne rtID' heq).trans hrules', hr⟩
  refine ⟨{ refl_of Adds s with
    tables := kept_modify (SameOthers.refl _) fun now' hnow' => ?_
    wf := fun hwf => ⟨fun id vcn' rtID' hvcn' hrt' => ?_, hwf.own⟩
    online := fun hwf id _ hid => honline hwf id (.inr hid) }, fun hwf => honline hwf vcnID (.inl rfl)⟩
  · obtain rfl := Option.some.inj (hnow.symm.trans hnow')
    have happend : others s (rules ++ [⟨some anyIPv4, some g.id⟩]) = others s rules := by
      simp [others, hleads]
    exact happend.trans hothers.symm
  · by_cases heq : rtID' = rtID
    · rw [heq, hset]
      rfl
    · rw [hne rtID' heq]
      exact hwf.tables id vcn' rtID' hvcn' hrt'

/-! ## The steps of a caller -/

section
variable {A : Answer → Prop} {svc : Service}

/-- Whatever the error. -/
abbrev CallerSpec {α : Type} (A : Answer → Prop) (Q : α → Network → Prop) (x : Job α) (s : Network) : Prop :=
  Spec A Adds (fun _ => True) Q x s

/-- A gateway of the VCN, with a route to it in the default table. -/
structure Reachable (s : Network) (vcnID : ID) : Prop where
  vcn : (s.vcns vcnID).isSome
  gateway : s.gatewaysOf vcnID ≠ []
  online : Online s vcnID

theorem Reachable.adds {s s' : Network} {vcnID : ID} (h : Reachable s vcnID) (hs : Adds s s') (hwf : Wf s) :
    Reachable s' vcnID :=
  ⟨Kept.isSome hs.vcns h.vcn, gatewaysOf_ne_nil hs h.gateway, hs.online hwf vcnID h.vcn h.online⟩

/-- The gateway is one of the VCN. -/
def HasGateway (s : Network) (vcnID igwID : ID) : Prop := ∃ g ∈ s.gateways, g.vcnId = vcnID ∧ g.id = igwID

theorem HasGateway.adds {s s' : Network} {vcnID igwID : ID} (h : HasGateway s vcnID igwID) (hs : Adds s s') :
    HasGateway s' vcnID igwID := by
  obtain ⟨g, hg, hboth⟩ := h
  exact ⟨g, hs.gateways.subset hg, hboth⟩

theorem HasGateway.ne_nil {s : Network} {vcnID igwID : ID} (h : HasGateway s vcnID igwID) :
    s.gatewaysOf vcnID ≠ [] := by
  obtain ⟨g, hg, hvcn, -⟩ := h
  exact List.ne_nil_of_mem (List.mem_filter.mpr ⟨hg, decide_eq_true hvcn⟩)

theorem hasGateway_of_head? {s : Network} {vcnID : ID} {igw : Gateway} (h : (s.gatewaysOf vcnID).head? = some igw) :
    HasGateway s vcnID igw.id := by
  obtain ⟨hg, hvcn⟩ := List.mem_filter.mp (List.mem_of_head? h)
  exact ⟨igw, hg, of_decide_eq_true hvcn, rfl⟩

theorem hasGateway_addGateway (svc : Service) (vcnID : ID) (s : Network) :
    HasGateway (svc.addGateway vcnID s) vcnID (svc.gatewayId s) :=
  ⟨_, List.mem_append_right _ (List.mem_singleton_self _), rfl, rfl⟩

theorem spec_ensureInternetGateway {vcnID : ID} {s : Network} (hwf : Wf s) :
    CallerSpec A (fun _ t => Reachable t vcnID) (ensureInternetGateway svc vcnID) s := by
  refine spec_bind (P := fun igws t => ∀ igw, igws.head? = some igw → HasGateway t vcnID igw.id)
    (spec_list (fun _ => trivial) fun s' _ t ht igw higw => (hasGateway_of_head? higw).adds ht)
    fun igws s₁ hs₁ higws => ?_
  refine spec_bind (P := fun igwID t => HasGateway t vcnID igwID) ?_ fun igwID s₂ hs₂ hgateway => ?_
  · unfold chooseGateway
    split
    · next igw higw => exact spec_pure fun t ht => (higws igw higw).adds ht
    · refine spec_invoke (fun _ => trivial) fun s' _ => ⟨adds_addGateway svc vcnID s', fun t ht => ?_⟩
      exact (hasGateway_addGateway svc vcnID s').adds ht
  refine spec_bind
    (P := fun vcn t => ∃ now, t.vcns vcnID = some now ∧ now.defaultRouteTableId = vcn.defaultRouteTableId)
    (spec_get (fun _ => trivial) (fun _ _ _ => trivial) fun s' vcn _ hvcn t ht => ?_) ?_
  · obtain ⟨now, hnow, hstays⟩ := ht.vcns vcnID vcn hvcn
    exact ⟨now, hnow, hstays.routeTable⟩
  rintro vcn s₃ hs₃ ⟨now, hnow, hsame⟩
  have hgateway₃ := hgateway.adds hs₃
  have hwf₃ := hs₃.wf (hs₂.wf (hs₁.wf hwf))
  split
  · next hnone =>
    have honline : Online s₃ vcnID := by
      intro vcn' rtID hvcn' hrt
      obtain rfl := Option.some.inj (hnow.symm.trans hvcn')
      rw [hsame, hnone] at hrt
      cases hrt
    exact spec_pure fun t ht => Reachable.adds ⟨hnow ▸ rfl, hgateway₃.ne_nil, honline⟩ ht hwf₃
  · next rtID hrt =>
    refine spec_bind (P := fun rules t => ∃ s', Adds s₃ s' ∧ s'.tables rtID = some rules ∧ Adds s' t)
      (spec_get (fun _ => trivial) (fun _ _ _ => trivial) fun s' rules hs' hrules t ht => ⟨s', hs', hrules, ht⟩) ?_
    rintro rules s₄ hs₄ ⟨s', hs', hrules, ht'⟩
    split
    · next hany =>
      obtain ⟨r, hr, hroute⟩ := List.any_eq_true.mp hany
      obtain ⟨hdest, hentity⟩ := of_decide_eq_true hroute
      obtain ⟨g, hg, hgvcn, rfl⟩ := hgateway₃.adds hs'
      have honline : Online s' vcnID := by
        intro vcn' rtID' hvcn' hrt'
        obtain ⟨now', hnow', hstays⟩ := hs'.vcns vcnID now hnow
        obtain rfl := Option.some.inj (hnow'.symm.trans hvcn')
        obtain rfl := Option.some.inj ((hstays.routeTable.trans (hsame.trans hrt)).symm.trans hrt')
        exact ⟨rules, hrules, r, hr, hdest, g, hg, hgvcn, hentity⟩
      have hreachable : Reachable s' vcnID := by
        refine ⟨Kept.isSome hs'.vcns (hnow ▸ rfl), HasGateway.ne_nil ⟨g, hg, hgvcn, rfl⟩, honline⟩
      exact spec_pure fun t ht => hreachable.adds (trans_of Adds ht' ht) (hs'.wf hwf₃)
    · refine spec_send (fun _ => trivial) fun s₅ hs₅ => ?_
      have hs₅' := trans_of Adds ht' hs₅
      obtain ⟨now₅, hnow₅, hstays⟩ := (trans_of Adds hs' hs₅').vcns vcnID now hnow
      obtain ⟨hadds, honline⟩ := adds_setTable hs₅' hnow₅ (hstays.routeTable.trans (hsame.trans hrt)) hrules
        ((hgateway₃.adds hs').adds hs₅')
      have hwf₅ := (trans_of Adds hs' hs₅').wf hwf₃
      have hreachable : Reachable (s₅.setTable rtID (rules ++ [⟨some anyIPv4, some igwID⟩])) vcnID :=
        ⟨Kept.isSome hadds.vcns (hnow₅ ▸ rfl), (((hgateway₃.adds hs').adds hs₅').adds hadds).ne_nil, honline hwf₅⟩
      exact ⟨hadds, fun t ht => hreachable.adds ht (hadds.wf hwf₅)⟩

theorem mem_subnetsOf {s : Network} {vcnID id : ID} {subnet : Subnet} (h : (id, subnet) ∈ s.subnetsOf vcnID) :
    s.subnets id = some subnet ∧ subnet.vcnId = some vcnID := by
  obtain ⟨id', -, h⟩ := List.mem_filterMap.mp h
  obtain ⟨subnet', hsubnet', h⟩ := Option.bind_eq_some_iff.mp h
  split at h
  · next hvcn =>
    cases h
    exact ⟨hsubnet', hvcn⟩
  · cases h

theorem spec_searchVcns : ∀ {vcns : List (ID × Vcn)} {s : Network}, Wf s →
    CallerSpec A (fun found t => ∀ id subnet, found = some (id, subnet) → ∃ vcnID, Public t vcnID id subnet)
      (searchVcns svc vcns) s := by
  intro vcns
  induction vcns with
  | nil => exact fun _ => spec_pure fun t _ => nofun
  | cons v vcns ih =>
    obtain ⟨vcnID, vcn⟩ := v
    intro s hwf
    rw [searchVcns]
    split
    · refine spec_bind (P := fun routed t => routed = some () → Reachable t vcnID)
        (spec_attempt (spec_ensureInternetGateway hwf) (fun _ _ _ h _ => h) fun _ _ => nofun)
        fun routed s₁ hs₁ hrouted => ?_
      have hwf₁ := hs₁.wf hwf
      split
      · exact ih hwf₁
      · refine spec_bind
          (P := fun subnets t => ∀ x ∈ subnets.getD [], t.subnets x.1 = some x.2 ∧ x.2.vcnId = some vcnID)
          (spec_attempt_ask (fun s' _ t ht x hx => ?_) fun _ _ _ => nofun) fun subnets s₂ hs₂ hsubnets => ?_
        · obtain ⟨hx, hvcn⟩ := mem_subnetsOf hx
          obtain ⟨n, hn, rfl⟩ := ht.subnets x.1 x.2 hx
          exact ⟨hn, hvcn⟩
        split
        · next found hfound =>
          obtain ⟨hstored, hvcn⟩ := hsubnets found (List.mem_of_find?_eq_some hfound)
          have hingress := List.find?_some hfound
          replace hingress : found.2.IsPublic := of_decide_eq_true hingress
          have hreachable := (hrouted rfl).adds hs₂ hwf₁
          refine spec_pure fun t ht id subnet heq => ⟨vcnID, ?_⟩
          obtain rfl := Option.some.inj heq
          exact Public.adds ht (hs₂.wf hwf₁)
            ⟨hstored, hingress, hvcn, hreachable.vcn, hreachable.gateway, hreachable.online⟩
        · exact ih (hs₂.wf hwf₁)
    · exact ih hwf

theorem spec_awaitVcn {vcnID : ID} : ∀ {rounds : Nat} {s : Network},
    CallerSpec A (fun _ _ => True) (awaitVcn vcnID rounds) s := by
  intro rounds
  induction rounds with
  | zero => exact spec_pure fun _ _ => trivial
  | succ rounds ih =>
    intro s
    refine spec_bind (P := fun _ _ => True) (spec_attempt_ask (fun _ _ _ _ => trivial) fun _ _ _ => trivial)
      fun vcn s₁ _ _ => ?_
    split
    · exact spec_pure fun _ _ => trivial
    · exact spec_bind (P := fun _ _ => True) (spec_ask (fun _ => trivial) fun _ _ _ _ => trivial) fun _ _ _ _ => ih

theorem spec_createDefaultVCNWithSubnet {s : Network} (hwf : Wf s) :
    CallerSpec A (fun r t => ∃ vcnID, Public t vcnID r.1 r.2) (createDefaultVCNWithSubnet svc) s := by
  refine spec_bind (P := fun _ _ => True)
    (spec_invoke (fun _ => trivial) fun s' _ => ⟨adds_addVcn svc s', fun t _ => ?_⟩)
    fun vcnID s₁ hs₁ _ => ?_
  · cases svc.vcn s' <;> trivial
  refine spec_bind spec_awaitVcn fun _ s₂ hs₂ _ => ?_
  refine spec_bind (spec_ensureInternetGateway (hs₂.wf (hs₁.wf hwf))) fun _ s₃ hs₃ hreachable => ?_
  refine spec_invoke (fun _ => trivial) fun s' hs' => ⟨adds_addSubnet svc vcnID s', fun t ht => ?_⟩
  have hwf' := hs'.wf (hs₃.wf (hs₂.wf (hs₁.wf hwf)))
  have hreachable' := hreachable.adds hs' (hs₃.wf (hs₂.wf (hs₁.wf hwf)))
  cases hid : svc.subnetId s' with
  | none => trivial
  | some id =>
    have hadds := adds_addSubnet svc vcnID s'
    have hnow := hreachable'.adds hadds hwf'
    refine ⟨vcnID, Public.adds ht (hadds.wf hwf') ⟨?_, ?_, rfl, hnow.vcn, hnow.gateway, hnow.online⟩⟩
    · rw [Service.addSubnet, hid]
      exact Function.update_self ..
    · exact show some false ≠ some true by decide

theorem spec_ensurePublicSubnet {s : Network} (hwf : Wf s) :
    CallerSpec A (fun r t => ∃ vcnID, Public t vcnID r.1 r.2) (ensurePublicSubnet svc) s := by
  refine spec_bind (P := fun _ _ => True) (spec_list (fun _ => trivial) fun _ _ _ _ => trivial) fun vcns s₁ hs₁ _ => ?_
  refine spec_bind (spec_searchVcns (hs₁.wf hwf)) fun found s₂ hs₂ hfound => ?_
  split
  · next subnet =>
    refine spec_pure fun t ht => ?_
    obtain ⟨vcnID, hpublic⟩ := hfound subnet.1 subnet.2 rfl
    exact ⟨vcnID, hpublic.adds ht (hs₂.wf (hs₁.wf hwf))⟩
  · exact spec_createDefaultVCNWithSubnet (hs₂.wf (hs₁.wf hwf))

end

/-! ## Many callers -/

section
variable {ι : Type} [DecidableEq ι] (svc : Service)

/-- **Public for every caller.** However the calls of the callers interleave, and whichever fail: what there was is
still there, and who got a subnet got one that lets in what comes from the internet, in a VCN with a gateway whose
default route table leads to a gateway of it. -/
theorem subnets_public {A : Answer → Prop} {s₀ : Network} (hwf : Wf s₀) {es : List (Event ι Move)}
    {p : Procs ι Network Error (ID × Subnet)}
    (hrun : StepRun.Run (Procs.step Network.move) (fun _ => Answered A) ⟨s₀, fun _ => ensurePublicSubnet svc⟩ es p) :
    Adds s₀ p.state ∧ Wf p.state ∧
      ∀ i id subnet, p.procs i = .done (.ok (id, subnet)) → ∃ vcnID, Public p.state vcnID id subnet := by
  have hothers : ∀ i j : ι, i ≠ j → ∀ s s', Adds s s' → Adds s s' := fun _ _ _ _ _ hs => hs
  have hmoves : ∀ (m : Move) s (_ : ι), Adds s (s.move m) := fun m s _ => adds_move m s
  have hstart : ∀ _ : ι, Upholds A Adds Adds (Ends (fun _ => True) fun r t => ∃ vcnID, Public t vcnID r.1 r.2)
      (ensurePublicSubnet svc) s₀ := fun _ => spec_ensurePublicSubnet hwf
  have hadds := Procs.run_within hothers hmoves (W := Adds) (fun _ _ _ hs => hs) adds_move hrun hstart
  exact ⟨hadds, hadds.wf hwf, fun i id subnet hi => Procs.run_ended hothers hmoves hrun hstart hi⟩

end

/-- Two callers, who both find no VCN; each makes its own. -/
def exampleEvents : List (Event Bool Move) :=
  [.call false .ok, .call true .ok, .call false .ok, .call true .ok, .move (.settle "a".toList),
    .move (.settle "b".toList)] ++ (List.replicate 7 [.call false .ok, .call true .ok]).flatten

theorem wf_empty : Wf {} := ⟨nofun, nofun⟩

theorem subnets_public_example : ∃ p, StepRun.exec (Procs.step Network.move)
      ⟨{}, fun _ => ensurePublicSubnet exampleService⟩ exampleEvents = some p ∧
    ∀ i, ∃ vcnID id subnet, p.procs i = .done (.ok (id, subnet)) ∧ Public p.state vcnID id subnet := by
  have hresult : (StepRun.exec (Procs.step Network.move) ⟨{}, fun _ => ensurePublicSubnet exampleService⟩
      exampleEvents).map (fun p => [false, true].all fun i => ((p.procs i).result?.bind Except.toOption).isSome) =
        some true := by decide +kernel
  obtain ⟨p, hp, hdone⟩ := Option.map_eq_some_iff.mp hresult
  have hrun := StepRun.run_of_forall (C := Answered fun _ => True) (fun e _ => by cases e <;> trivial) hp
  obtain ⟨-, -, hpublic⟩ := subnets_public exampleService wf_empty hrun
  refine ⟨p, hp, fun i => ?_⟩
  have hi : i ∈ [false, true] := by cases i <;> decide
  obtain ⟨⟨id, subnet⟩, hr⟩ := Option.isSome_iff_exists.mp (List.all_eq_true.mp hdone i hi)
  obtain ⟨r, hresult, hok⟩ := Option.bind_eq_some_iff.mp hr
  cases r with
  | error e => cases hok
  | ok found =>
    cases hok
    have hended := Proc.eq_done_of_result? hresult
    obtain ⟨vcnID, h⟩ := hpublic i id subnet hended
    exact ⟨vcnID, id, subnet, hended, h⟩

end OciHelper.Oci.Provisioning.PublicSubnets
