import OciHelper.Oci.SecurityLists
import Mathlib.Data.List.Infix
import Mathlib.Data.List.Nodup

/-!
# Identifiers of security rules

* `securityRuleID`, `listSecurityRules` : the identifier of a rule and the listing that gives it out;
* `parseRuleID`, `matchesFilter`, `removeSecurityRules` : the removal by identifiers;
* `Vcn` : the security lists of a VCN in the pages of the service, with well-formed rules;
* `Identified` : when an identifier means the rules that are like its own;
* `remove_exact_iff` : a removal by one identifier removes exactly those rules if and only if it does.
-/

namespace OciHelper.Oci
open Text

/-! ## Listing -/

/-- `strconv.Itoa`. -/
def itoa (n : Int) : List Char := (toString n).toList

def portRangeKey (opts : Option PortOptions) : List Char :=
  match opts.bind PortOptions.destinationPortRange with
  | none => "all".toList
  | some range => if range.min = range.max then itoa range.min else itoa range.min ++ '-' :: itoa range.max

def securityRuleID (slID direction : List Char) (protocol source dest : Option (List Char))
    (tcpOpts : Option PortOptions) : List Char :=
  let cidr := match direction == "ingress".toList, source, direction == "egress".toList, dest with
    | true, some source, _, _ => replaceChar '/' '_' source
    | _, _, true, some dest => replaceChar '/' '_' dest
    | _, _, _, _ => "0.0.0.0/0".toList
  let port :=
    if protocol = some "TCP".toList ∨ protocol = some "UDP".toList then '/' :: portRangeKey tcpOpts else []
  slID ++ '/' :: (direction ++ '/' :: (protocol.getD "all".toList ++ '/' :: (cidr ++ port)))

structure SecurityRuleInfo where
  id : List Char
  name : List Char
  protocol : List Char
  source : List Char
  dest : List Char
  port : List Char
  type : List Char
  deriving DecidableEq, Repr

/-- The entry of a rule in the listing. -/
def ruleInfo (sl : SecurityList) (d : Direction) (rule : Rule) : SecurityRuleInfo where
  id := match d with
    | .ingress => securityRuleID sl.id d.text rule.protocol rule.cidr none rule.tcpOptions
    | .egress => securityRuleID sl.id d.text rule.protocol none rule.cidr rule.tcpOptions
  name := sl.displayName
  protocol := rule.protocol.getD []
  source := if d = .ingress then rule.cidr.getD [] else []
  dest := if d = .egress then rule.cidr.getD [] else []
  port := match rule.tcpOptions.bind PortOptions.destinationPortRange with
    | some range => itoa range.min ++ '-' :: itoa range.max
    | none => []
  type := d.text

def ruleInfos (sl : SecurityList) : List SecurityRuleInfo :=
  sl.ingress.map (ruleInfo sl .ingress) ++ sl.egress.map (ruleInfo sl .egress)

/-- `lower` is `strings.ToLower`. No answer means that the slice expression panics. -/
def listSecurityRules (lower : List Char → List Char) (pages : List (List SecurityList))
    (keyword : List Char) (page size : Int) : Option (List SecurityRuleInfo × Int) :=
  let kw := lower keyword
  let filtered := (pages.flatten.flatMap ruleInfos).filter fun r =>
    kw = [] ∨ kw <:+: lower r.protocol ∨ kw <:+: lower r.source ∨ kw <:+: lower r.dest ∨ kw <:+: lower r.port
  let total : Int := filtered.length
  let start := (page - 1) * size
  if start ≥ total then some ([], total)
  else
    let stop := if start + size > total then total else start + size
    if start < 0 ∨ stop < start then none
    else some ((filtered.drop start.toNat).take (stop - start).toNat, total)

/-! ## Removal -/

structure RuleFilter where
  direction : List Char
  protocol : List Char
  sourceOrDest : List Char := []
  portMin : Int := 0
  portMax : Int := 0
  hasPort : Bool := false
  deriving DecidableEq, Repr

inductive RemoveError
  | noRuleIDs
  | invalidRuleID (rid : List Char)
  | update (slID : List Char)
  deriving DecidableEq, Repr

/-- The security list and the filter that an identifier stands for. -/
def parseRuleID (rid : List Char) : Except RemoveError (List Char × RuleFilter) :=
  match splitN '/' 6 rid with
  | slID :: direction :: protocol :: sourceOrDest :: port :: _ =>
    if port = "all".toList then .ok (slID, { direction, protocol, sourceOrDest })
    else
      let portMin := atoi ((splitN '-' 2 port).headD [])
      let portMax := match splitN '-' 2 port with
        | _ :: max :: _ => atoi max
        | _ => portMin
      .ok (slID, { direction, protocol, sourceOrDest, portMin, portMax, hasPort := true })
  | slID :: direction :: protocol :: _ => .ok (slID, { direction, protocol })
  | _ => .error (.invalidRuleID rid)

def matchesFilter (direction : List Char) (rule : Rule) (filters : List RuleFilter) : Bool :=
  filters.any fun f =>
    f.direction = direction ∧ rule.protocol = some f.protocol ∧
      (f.sourceOrDest = [] ∨ rule.cidr = some f.sourceOrDest) ∧
      (f.hasPort = false ∨
        rule.tcpOptions.bind PortOptions.destinationPortRange = some ⟨f.portMin, f.portMax⟩)

def matchesIngressFilter (rule : Rule) (filters : List RuleFilter) : Bool :=
  matchesFilter "ingress".toList rule filters

def matchesEgressFilter (rule : Rule) (filters : List RuleFilter) : Bool :=
  matchesFilter "egress".toList rule filters

/-- The update of a list that some filters name. -/
def removeFrom (sdk : Sdk) (filters : List RuleFilter) (sl : SecurityList) : SecurityList :=
  sl.update sdk (appended (sl.ingress.filter fun r => !matchesIngressFilter r filters))
    (appended (sl.egress.filter fun r => !matchesEgressFilter r filters))

/-- The loop over the lists, up to the first update that fails. -/
def removeLoop (sdk : Sdk) (updates : List Char → Bool) (filtersBySL : List (List Char × RuleFilter)) :
    List SecurityList → List SecurityList × Except RemoveError Unit
  | [] => ([], .ok ())
  | sl :: rest =>
    let filters := (filtersBySL.filter fun f => f.1 = sl.id).map Prod.snd
    if filters = [] then
      let (rest, result) := removeLoop sdk updates filtersBySL rest
      (sl :: rest, result)
    else if updates sl.id then
      let (rest, result) := removeLoop sdk updates filtersBySL rest
      (removeFrom sdk filters sl :: rest, result)
    else (sl :: rest, .error (.update sl.id))

/-- Only the first page of the lists is asked for. `updates` says which updates succeed. -/
def removeSecurityRules (sdk : Sdk) (updates : List Char → Bool) (pages : List (List SecurityList))
    (ruleIDs : List (List Char)) : List (List SecurityList) × Except RemoveError Unit :=
  if ruleIDs = [] then (pages, .error .noRuleIDs)
  else
    match ruleIDs.mapM parseRuleID with
    | .error e => (pages, .error e)
    | .ok filtersBySL =>
      match pages with
      | [] => ([], .ok ())
      | first :: others =>
        let (first, result) := removeLoop sdk updates filtersBySL first
        (first :: others, result)

/-! ## What an identifier means -/

/-- The security lists of a VCN as the service pages them. Each rule has a protocol and a CIDR, which has
a slash; no protocol and no OCID has one. -/
structure Vcn where
  pages : List (List SecurityList)
  nodup : (pages.flatten.map SecurityList.id).Nodup
  ids : ∀ sl ∈ pages.flatten, '/' ∉ sl.id
  rules : ∀ sl ∈ pages.flatten, ∀ d, ∀ r ∈ sl.rules d,
    ∃ p c, r.protocol = some p ∧ '/' ∉ p ∧ r.cidr = some c ∧ '/' ∈ c

def Rule.destinationRange (r : Rule) : Option PortRange :=
  match r.tcpOptions.bind PortOptions.destinationPortRange with
  | some range => some range
  | none => r.udpOptions.bind PortOptions.destinationPortRange

/-- The rules of a direction that a removal of `rule` is meant to remove. -/
def Rule.Like (rule r : Rule) : Prop :=
  r.protocol = rule.protocol ∧ r.cidr = rule.cidr ∧ r.destinationRange = rule.destinationRange

instance (rule r : Rule) : Decidable (rule.Like r) := inferInstanceAs (Decidable (_ ∧ _ ∧ _))

/-- The rules of the list `slID` like `rule` are gone, there was one, and nothing else has changed. -/
structure RemovesExactly (slID : List Char) (d : Direction) (rule : Rule)
    (pages pages' : List (List SecurityList)) : Prop where
  eq : pages' = pages.map (List.map fun l =>
    if l.id = slID then l.setRules d ((l.rules d).filter fun r => ¬ rule.Like r) else l)
  ne : pages' ≠ pages

structure Identified (sdk : Sdk) (v : Vcn) (sl : SecurityList) (d : Direction) (rule : Rule) : Prop where
  firstPage : sl ∈ v.pages.headD []
  noPorts : rule.protocol ≠ some "TCP".toList ∧ rule.protocol ≠ some "UDP".toList
  alike : ∀ r ∈ sl.rules d, r.protocol = rule.protocol → rule.Like r
  remains : sdk.keepNil = true → ∃ r ∈ sl.rules d, r.protocol ≠ rule.protocol

/-! ## Reading an identifier back -/

theorem notMem_text (d : Direction) : '/' ∉ d.text := by
  cases d <;> decide

theorem text_injective {d d' : Direction} (h : d.text = d'.text) : d = d' := by
  cases d <;> cases d' <;> first | rfl | exact absurd h (by decide)

theorem ruleInfo_id (sl : SecurityList) (d : Direction) {rule : Rule} {p c : List Char}
    (hp : rule.protocol = some p) (hc : rule.cidr = some c) :
    (ruleInfo sl d rule).id = sl.id ++ '/' :: (d.text ++ '/' :: (p ++ '/' :: (replaceChar '/' '_' c ++
      if p = "TCP".toList ∨ p = "UDP".toList then '/' :: portRangeKey rule.tcpOptions else []))) := by
  cases d with
  | ingress =>
    show securityRuleID _ _ _ _ _ _ = _
    rw [hp, hc]
    simp only [securityRuleID, Option.some.injEq]
    rfl
  | egress =>
    show securityRuleID _ _ _ _ _ _ = _
    rw [hp, hc]
    simp only [securityRuleID, Option.some.injEq]
    rfl

/-- Without ports the identifier has four parts, and the CIDR is not read. -/
theorem parseRuleID_of_noPorts (sl : SecurityList) (d : Direction) {rule : Rule} {p c : List Char}
    (hid : '/' ∉ sl.id) (hp : rule.protocol = some p) (hps : '/' ∉ p) (hc : rule.cidr = some c)
    (hno : p ≠ "TCP".toList ∧ p ≠ "UDP".toList) :
    parseRuleID (ruleInfo sl d rule).id = .ok (sl.id, { direction := d.text, protocol := p }) := by
  have hcidr : '/' ∉ replaceChar '/' '_' c := notMem_replaceChar (by decide) c
  have hparts : splitN '/' 6 (ruleInfo sl d rule).id = [sl.id, d.text, p, replaceChar '/' '_' c] := by
    rw [ruleInfo_id sl d hp hc, if_neg (not_or.mpr hno), List.append_nil, splitN_append '/' 4 hid,
      splitN_append '/' 3 (notMem_text d), splitN_append '/' 2 hps, splitN_of_notMem '/' 2 hcidr]
  unfold parseRuleID
  rw [hparts]

/-- With ports the filter asks for the CIDR without its slash. -/
theorem parseRuleID_of_ports (sl : SecurityList) (d : Direction) {rule : Rule} {p c : List Char}
    (hid : '/' ∉ sl.id) (hp : rule.protocol = some p) (hps : '/' ∉ p) (hc : rule.cidr = some c)
    (hport : p = "TCP".toList ∨ p = "UDP".toList) :
    ∃ f, parseRuleID (ruleInfo sl d rule).id = .ok (sl.id, f) ∧
      f.sourceOrDest = replaceChar '/' '_' c := by
  have hcidr : '/' ∉ replaceChar '/' '_' c := notMem_replaceChar (by decide) c
  obtain ⟨q, qs, hq⟩ := List.exists_cons_of_ne_nil (splitN_ne_nil '/' 1 (portRangeKey rule.tcpOptions))
  have hparts : splitN '/' 6 (ruleInfo sl d rule).id =
      sl.id :: d.text :: p :: replaceChar '/' '_' c :: q :: qs := by
    rw [ruleInfo_id sl d hp hc, if_pos hport, splitN_append '/' 4 hid,
      splitN_append '/' 3 (notMem_text d), splitN_append '/' 2 hps, splitN_append '/' 1 hcidr, hq]
  unfold parseRuleID
  rw [hparts]
  by_cases hall : q = "all".toList
  · exact ⟨_, if_pos hall, rfl⟩
  · exact ⟨_, if_neg hall, rfl⟩

/-! ## What a filter removes -/

theorem matchesFilter_singleton (direction : List Char) (rule : Rule) (f : RuleFilter) :
    matchesFilter direction rule [f] = true ↔ f.direction = direction ∧ rule.protocol = some f.protocol ∧
      (f.sourceOrDest = [] ∨ rule.cidr = some f.sourceOrDest) ∧ (f.hasPort = false ∨
        rule.tcpOptions.bind PortOptions.destinationPortRange = some ⟨f.portMin, f.portMax⟩) := by
  simp [matchesFilter]

/-- A filter of one direction changes the rules of that direction only. -/
theorem removeFrom_eq (sdk : Sdk) (sl : SecurityList) (d : Direction) {f : RuleFilter}
    (hd : f.direction = d.text) :
    removeFrom sdk [f] sl = sl.setRules d
      (sdk.sent (sl.rules d) (appended ((sl.rules d).filter fun r => !matchesFilter d.text r [f]))) := by
  have hother : ∀ d', d' ≠ d → ∀ r, matchesFilter d'.text r [f] = false := by
    intro d' hne r
    refine Bool.eq_false_iff.mpr fun h => hne ?_
    exact text_injective (((matchesFilter_singleton _ _ _).mp h).1.symm.trans hd)
  have hkept : ∀ d', d' ≠ d → (sl.rules d').filter (fun r => !matchesFilter d'.text r [f]) = sl.rules d' :=
    fun d' hne => List.filter_eq_self.mpr fun r _ => by rw [hother d' hne r]; rfl
  cases d with
  | ingress =>
    have hegress : sl.egress.filter (fun r => !matchesEgressFilter r [f]) = sl.egress :=
      hkept .egress (by decide)
    simp only [removeFrom, SecurityList.update, hegress, Sdk.sent_appended_self]
    rfl
  | egress =>
    have hingress : sl.ingress.filter (fun r => !matchesIngressFilter r [f]) = sl.ingress :=
      hkept .ingress (by decide)
    simp only [removeFrom, SecurityList.update, hingress, Sdk.sent_appended_self]
    rfl

/-- A filter that no rule matches changes nothing. -/
theorem removeFrom_of_forall_not (sdk : Sdk) (sl : SecurityList) {filters : List RuleFilter}
    (h : ∀ d, ∀ r ∈ sl.rules d, matchesFilter d.text r filters = false) : removeFrom sdk filters sl = sl := by
  have hkept : ∀ d, (sl.rules d).filter (fun r => !matchesFilter d.text r filters) = sl.rules d :=
    fun d => List.filter_eq_self.mpr fun r hr => by rw [h d r hr]; rfl
  have hi : sl.ingress.filter (fun r => !matchesIngressFilter r filters) = sl.ingress := hkept .ingress
  have he : sl.egress.filter (fun r => !matchesEgressFilter r filters) = sl.egress := hkept .egress
  simp only [removeFrom, SecurityList.update, hi, he, Sdk.sent_appended_self]

/-- The loop for one identifier changes the lists it names. -/
theorem removeLoop_singleton (sdk : Sdk) (updates : List Char → Bool) (slID : List Char) (f : RuleFilter)
    (lists : List SecurityList) :
    (∀ lists', removeLoop sdk updates [(slID, f)] lists = (lists', .ok ()) →
      lists' = lists.map fun l => if l.id = slID then removeFrom sdk [f] l else l) ∧
    ((∀ l ∈ lists, updates l.id = true) →
      ∃ lists', removeLoop sdk updates [(slID, f)] lists = (lists', .ok ())) := by
  induction lists with
  | nil =>
    refine ⟨fun lists' h => ?_, fun _ => ⟨[], rfl⟩⟩
    cases h
    rfl
  | cons l rest ih =>
    obtain ⟨ihEq, ihOk⟩ := ih
    cases hrest : removeLoop sdk updates [(slID, f)] rest with
    | mk rest' result =>
    rw [hrest] at ihEq ihOk
    by_cases hid : l.id = slID
    · have hfs : (([(slID, f)].filter fun f => f.1 = l.id).map Prod.snd) = [f] := by simp [hid]
      by_cases hu : updates l.id = true
      · have hloop : removeLoop sdk updates [(slID, f)] (l :: rest) = (removeFrom sdk [f] l :: rest', result) := by
          simp only [removeLoop, hfs, hu, hrest]
          simp
        rw [hloop]
        refine ⟨fun lists' h => ?_, fun h => ?_⟩
        · cases h
          rw [List.map_cons, if_pos hid, ← ihEq rest' rfl]
        · obtain ⟨lists', hl⟩ := ihOk fun l' hl' => h l' (List.mem_cons_of_mem _ hl')
          cases hl
          exact ⟨_, rfl⟩
      · have hloop : removeLoop sdk updates [(slID, f)] (l :: rest) = (l :: rest, .error (.update l.id)) := by
          simp only [removeLoop, hfs, hu]
          simp
        rw [hloop]
        exact ⟨fun lists' h => (by cases h), fun h => absurd (h l List.mem_cons_self) hu⟩
    · have hne : slID ≠ l.id := fun e => hid e.symm
      have hfs : (([(slID, f)].filter fun f => f.1 = l.id).map Prod.snd) = [] := by simp [hne]
      have hloop : removeLoop sdk updates [(slID, f)] (l :: rest) = (l :: rest', result) := by
        simp only [removeLoop, hfs, hrest]
        simp
      rw [hloop]
      refine ⟨fun lists' h => ?_, fun h => ?_⟩
      · cases h
        rw [List.map_cons, if_neg hid, ← ihEq rest' rfl]
      · obtain ⟨lists', hl⟩ := ihOk fun l' hl' => h l' (List.mem_cons_of_mem _ hl')
        cases hl
        exact ⟨_, rfl⟩

/-! ## A removal by one identifier -/

section removal

variable {sdk : Sdk} {v : Vcn} {sl : SecurityList} {d : Direction} {rule : Rule}

theorem Vcn.eq_of_id (v : Vcn) {l l' : SecurityList} (hl : l ∈ v.pages.flatten) (hl' : l' ∈ v.pages.flatten)
    (h : l.id = l'.id) : l = l' :=
  List.inj_on_of_nodup_map v.nodup hl hl' h

theorem map_pages_congr {pages : List (List SecurityList)} {f g : SecurityList → SecurityList}
    (h : ∀ l ∈ pages.flatten, f l = g l) : pages.map (List.map f) = pages.map (List.map g) :=
  List.map_congr_left fun page hp => List.map_congr_left fun l hl =>
    h l (List.mem_flatten.mpr ⟨page, hp, hl⟩)

theorem map_pages_inj {pages : List (List SecurityList)} {f g : SecurityList → SecurityList}
    (h : pages.map (List.map f) = pages.map (List.map g)) {l : SecurityList} (hl : l ∈ pages.flatten) :
    f l = g l := by
  obtain ⟨page, hp, hl⟩ := List.mem_flatten.mp hl
  exact List.map_inj_left.mp (List.map_inj_left.mp h page hp) l hl

/-- What a removal by one identifier does to the VCN. -/
theorem remove_eq (sdk : Sdk) (v : Vcn) {slID rid : List Char} {f : RuleFilter}
    (hf : parseRuleID rid = .ok (slID, f)) :
    (∀ updates pages', removeSecurityRules sdk updates v.pages [rid] = (pages', .ok ()) →
      pages' = v.pages.map (List.map fun l =>
        if l ∈ v.pages.headD [] ∧ l.id = slID then removeFrom sdk [f] l else l)) ∧
    ∃ pages', removeSecurityRules sdk (fun _ => true) v.pages [rid] = (pages', .ok ()) := by
  have hparse : [rid].mapM parseRuleID = .ok [(slID, f)] := by
    simp only [List.mapM_cons, List.mapM_nil, hf]
    rfl
  have hnodup := v.nodup
  have hstart : ∀ updates first others, removeSecurityRules sdk updates (first :: others) [rid] =
      ((removeLoop sdk updates [(slID, f)] first).1 :: others,
        (removeLoop sdk updates [(slID, f)] first).2) := by
    intro updates first others
    simp only [removeSecurityRules, hparse, List.cons_ne_nil, if_false]
  have hempty : ∀ updates, removeSecurityRules sdk updates [] [rid] = ([], .ok ()) := by
    intro updates
    simp only [removeSecurityRules, hparse, List.cons_ne_nil, if_false]
  cases hpages : v.pages with
  | nil =>
    refine ⟨fun updates pages' h => ?_, ⟨_, hempty _⟩⟩
    rw [hempty] at h
    cases h
    rfl
  | cons first others =>
    rw [hpages] at hnodup
    refine ⟨fun updates pages' h => ?_, ?_⟩
    · rw [hstart] at h
      cases hl : removeLoop sdk updates [(slID, f)] first with
      | mk first' result =>
      rw [hl, Prod.mk.injEq] at h
      obtain ⟨rfl, rfl⟩ := h
      have hfirst := (removeLoop_singleton sdk updates slID f first).1 first' hl
      rw [hfirst, List.map_cons]
      congr 1
      · exact List.map_congr_left fun l hl => by simp [hl]
      · -- a list of a later page is not on the first one
        refine (List.map_id' others).symm.trans (List.map_congr_left fun page hp => ?_)
        refine (List.map_id' page).symm.trans (List.map_congr_left fun l hl => ?_)
        have hnot : l ∉ first := by
          intro hmem
          rw [List.flatten_cons, List.map_append] at hnodup
          exact (List.disjoint_of_nodup_append hnodup) (List.mem_map_of_mem hmem)
            (List.mem_map_of_mem (List.mem_flatten.mpr ⟨page, hp, hl⟩))
        simp [hnot]
    · obtain ⟨lists', hl⟩ := (removeLoop_singleton sdk (fun _ => true) slID f first).2 fun _ _ => rfl
      exact ⟨lists' :: others, by rw [hstart, hl]⟩

theorem removesExactly_iff {pages' : List (List SecurityList)} (hsl : sl ∈ v.pages.flatten)
    (hr : rule ∈ sl.rules d) {g : SecurityList → SecurityList}
    (hp : pages' = v.pages.map (List.map g)) (hg : ∀ l ∈ v.pages.flatten, l.id ≠ sl.id → g l = l) :
    RemovesExactly sl.id d rule v.pages pages' ↔
      g sl = sl.setRules d ((sl.rules d).filter fun r => ¬ rule.Like r) := by
  have hless : sl.setRules d ((sl.rules d).filter fun r => ¬ rule.Like r) ≠ sl := by
    intro h
    have hrules : (sl.rules d).filter (fun r => ¬ rule.Like r) = sl.rules d := by
      have := congrArg (fun l : SecurityList => l.rules d) h
      rwa [SecurityList.rules_setRules] at this
    have := List.filter_eq_self.mp hrules rule hr
    simp [Rule.Like] at this
  constructor
  · intro h
    have := map_pages_inj (hp.symm.trans h.eq) hsl
    rwa [if_pos rfl] at this
  · intro h
    refine ⟨hp.trans (map_pages_congr fun l hl => ?_), fun he => hless ?_⟩
    · by_cases hid : l.id = sl.id
      · rw [if_pos hid, v.eq_of_id hl hsl hid, h]
      · rw [if_neg hid, hg l hl hid]
    · have hid : v.pages = v.pages.map (List.map fun l => l) := by simp
      rw [hp] at he
      rw [← h]
      exact map_pages_inj (he.trans hid) hsl

/-- Removing by the protocol is removing the like rules exactly if there are no others of the protocol, and
rules of another protocol remain where an empty list would not be sent. -/
theorem sent_byProtocol_iff {rules : List Rule} (hr : rule ∈ rules) :
    sdk.sent rules (appended (rules.filter fun r => !decide (r.protocol = rule.protocol))) =
        rules.filter (fun r => ¬ rule.Like r) ↔
      (∀ r ∈ rules, r.protocol = rule.protocol → rule.Like r) ∧
        (sdk.keepNil = true → ∃ r ∈ rules, r.protocol ≠ rule.protocol) := by
  have hself : rule.Like rule := ⟨rfl, rfl, rfl⟩
  constructor
  · intro h
    have hkeep : sdk.keepNil = true → ∃ r ∈ rules, r.protocol ≠ rule.protocol := by
      intro hk
      by_contra hnone
      have hkept : rules.filter (fun r => !decide (r.protocol = rule.protocol)) = [] := by
        refine List.filter_eq_nil_iff.mpr fun r hr' hp => hnone ⟨r, hr', ?_⟩
        simpa using hp
      rw [hkept] at h
      simp only [appended, if_true, Sdk.sent, hk] at h
      have := List.filter_eq_self.mp h.symm rule hr
      simp [hself] at this
    refine ⟨fun r hr' hp => ?_, hkeep⟩
    have hsent : sdk.sent rules (appended (rules.filter fun r => !decide (r.protocol = rule.protocol))) =
        rules.filter fun r => !decide (r.protocol = rule.protocol) := by
      refine sdk.sent_appended rules fun hk => ?_
      obtain ⟨r', hr', hp'⟩ := hkeep hk
      exact List.ne_nil_of_mem (List.mem_filter.mpr ⟨hr', by simpa using hp'⟩)
    by_contra hlike
    have hm : r ∈ rules.filter fun r => ¬ rule.Like r := List.mem_filter.mpr ⟨hr', by simpa using hlike⟩
    rw [← h, hsent] at hm
    simp [hp] at hm
  · rintro ⟨halike, hkeep⟩
    rw [sdk.sent_appended rules fun hk => ?_]
    · refine List.filter_congr fun r hr' => ?_
      by_cases hp : r.protocol = rule.protocol
      · simp [hp, halike r hr' hp]
      · have hnot : ¬ rule.Like r := fun h => hp h.1
        simp [hp, hnot]
    · obtain ⟨r, hr', hp⟩ := hkeep hk
      exact List.ne_nil_of_mem (List.mem_filter.mpr ⟨hr', by simpa using hp⟩)

/-- The CIDR in an identifier with ports has lost its `/`, so no rule has it. -/
theorem matchesFilter_of_replaced {f : RuleFilter} {c : List Char} (hc : c ≠ [])
    (hsrc : f.sourceOrDest = replaceChar '/' '_' c) {l : SecurityList} (hl : l ∈ v.pages.flatten) {r : Rule}
    (hr : r ∈ l.rules d) : matchesFilter d.text r [f] = false := by
  obtain ⟨-, c', -, -, hc', hcs'⟩ := v.rules l hl d r hr
  refine Bool.eq_false_iff.mpr fun h => ?_
  rcases ((matchesFilter_singleton _ _ _).mp h).2.2.1 with he | he
  · rw [hsrc, replaceChar, List.map_eq_nil_iff] at he
    exact hc he
  · rw [hc', hsrc, Option.some.injEq] at he
    exact notMem_replaceChar (by decide) c (he ▸ hcs')

/-- A removal that changes no list removes nothing. -/
theorem not_removesExactly_of_nothing {f : RuleFilter}
    (hf : parseRuleID (ruleInfo sl d rule).id = .ok (sl.id, f))
    (hsame : ∀ l ∈ v.pages.flatten, l ∈ v.pages.headD [] → l.id = sl.id → removeFrom sdk [f] l = l) :
    ¬ ∀ updates pages', removeSecurityRules sdk updates v.pages [(ruleInfo sl d rule).id] = (pages', .ok ()) →
      RemovesExactly sl.id d rule v.pages pages' := by
  intro h
  obtain ⟨heq, pages', hok⟩ := remove_eq sdk v hf
  refine (h _ _ hok).ne ((heq _ _ hok).trans ?_)
  refine (map_pages_congr fun l hl => ?_).trans (show v.pages.map (List.map fun l => l) = v.pages by simp)
  by_cases hl' : l ∈ v.pages.headD [] ∧ l.id = sl.id
  · rw [if_pos hl', hsame l hl hl'.1 hl'.2]
  · rw [if_neg hl']

/-- An identifier without ports stands for the protocol. -/
theorem removesExactly_byProtocol_iff {p : List Char} (hp : rule.protocol = some p) (hsl : sl ∈ v.pages.flatten)
    (hr : rule ∈ sl.rules d) {pages' : List (List SecurityList)}
    (hpages : pages' = v.pages.map (List.map fun l => if l ∈ v.pages.headD [] ∧ l.id = sl.id then
      removeFrom sdk [{ direction := d.text, protocol := p }] l else l))
    (hfirst : sl ∈ v.pages.headD []) :
    RemovesExactly sl.id d rule v.pages pages' ↔
      (∀ r ∈ sl.rules d, r.protocol = rule.protocol → rule.Like r) ∧
        (sdk.keepNil = true → ∃ r ∈ sl.rules d, r.protocol ≠ rule.protocol) := by
  have hmatch : ∀ r, matchesFilter d.text r [{ direction := d.text, protocol := p }] =
      decide (r.protocol = rule.protocol) := by
    intro r
    rw [Bool.eq_iff_iff, matchesFilter_singleton, hp]
    simp
  have hg : removeFrom sdk [{ direction := d.text, protocol := p }] sl = sl.setRules d (sdk.sent (sl.rules d)
      (appended ((sl.rules d).filter fun r => !decide (r.protocol = rule.protocol)))) := by
    rw [removeFrom_eq sdk sl d rfl]
    simp only [hmatch]
  rw [removesExactly_iff hsl hr hpages fun l _ hne => by rw [if_neg fun h => hne h.2],
    if_pos ⟨hfirst, rfl⟩, hg, ← sent_byProtocol_iff hr]
  constructor
  · intro he
    have := congrArg (fun l : SecurityList => l.rules d) he
    simpa only [SecurityList.rules_setRules] using this
  · intro he
    rw [he]

/-- The removal of a rule of the VCN by its identifier. -/
theorem removesExactly_iff_identified (sdk : Sdk) (v : Vcn) {sl : SecurityList} (hsl : sl ∈ v.pages.flatten)
    (d : Direction) {rule : Rule} (hr : rule ∈ sl.rules d) :
    (∀ updates pages', removeSecurityRules sdk updates v.pages [(ruleInfo sl d rule).id] = (pages', .ok ()) →
      RemovesExactly sl.id d rule v.pages pages') ↔ Identified sdk v sl d rule := by
  obtain ⟨p, c, hp, hps, hc, hcs⟩ := v.rules sl hsl d rule hr
  have hid := v.ids sl hsl
  have hprotocol : ∀ text, rule.protocol ≠ some text ↔ p ≠ text := fun text => by
    rw [hp, ne_eq, Option.some.injEq]
  by_cases hport : p = "TCP".toList ∨ p = "UDP".toList
  · obtain ⟨f, hf, hsrc⟩ := parseRuleID_of_ports sl d hid hp hps hc hport
    refine iff_of_false (not_removesExactly_of_nothing hf fun l hl _ _ => ?_) ?_
    · exact removeFrom_of_forall_not sdk l fun d' r hr' =>
        matchesFilter_of_replaced (List.ne_nil_of_mem hcs) hsrc hl hr'
    · rintro ⟨-, hno, -, -⟩
      rw [hprotocol, hprotocol] at hno
      exact hport.elim hno.1 hno.2
  · have hno : p ≠ "TCP".toList ∧ p ≠ "UDP".toList := not_or.mp hport
    have hf := parseRuleID_of_noPorts sl d hid hp hps hc hno
    by_cases hfirst : sl ∈ v.pages.headD []
    · obtain ⟨heq, pages₀, hok⟩ := remove_eq sdk v hf
      constructor
      · intro h
        have hcond := (removesExactly_byProtocol_iff hp hsl hr (heq _ _ hok) hfirst).mp (h _ _ hok)
        refine ⟨hfirst, ?_, hcond.1, hcond.2⟩
        rw [hprotocol, hprotocol]
        exact hno
      · intro h updates pages' hrun
        exact (removesExactly_byProtocol_iff hp hsl hr (heq _ _ hrun) hfirst).mpr ⟨h.alike, h.remains⟩
    · refine iff_of_false (not_removesExactly_of_nothing hf fun l hl hl' hlid => ?_) fun h => hfirst h.firstPage
      exact absurd (v.eq_of_id hl hsl hlid ▸ hl') hfirst

end removal

/-- Every entry of a listing is the entry of a rule. -/
theorem exists_of_mem_listSecurityRules {lower : List Char → List Char} {pages : List (List SecurityList)}
    {keyword : List Char} {page size total : Int} {infos : List SecurityRuleInfo} {info : SecurityRuleInfo}
    (h : listSecurityRules lower pages keyword page size = some (infos, total)) (hm : info ∈ infos) :
    ∃ sl ∈ pages.flatten, ∃ d, ∃ rule ∈ sl.rules d, info = ruleInfo sl d rule := by
  have hall : info ∈ pages.flatten.flatMap ruleInfos := by
    unfold listSecurityRules at h
    set filtered := (pages.flatten.flatMap ruleInfos).filter _ with hfiltered
    dsimp only at h
    by_cases hstart : (page - 1) * size ≥ (filtered.length : Int)
    · rw [if_pos hstart] at h
      obtain ⟨rfl, -⟩ := Prod.mk.inj (Option.some.inj h)
      cases hm
    · rw [if_neg hstart] at h
      obtain ⟨-, h⟩ := Option.ite_none_left_eq_some.mp h
      obtain ⟨rfl, -⟩ := Prod.mk.inj (Option.some.inj h)
      exact (List.mem_filter.mp (List.mem_of_mem_drop (List.mem_of_mem_take hm))).1
  obtain ⟨sl, hsl, hm⟩ := List.mem_flatMap.mp hall
  rcases List.mem_append.mp hm with hm | hm
  · obtain ⟨rule, hr, rfl⟩ := List.mem_map.mp hm
    exact ⟨sl, hsl, .ingress, rule, hr, rfl⟩
  · obtain ⟨rule, hr, rfl⟩ := List.mem_map.mp hm
    exact ⟨sl, hsl, .egress, rule, hr, rfl⟩

/-- A removal by the identifier of a listed rule, when it succeeds, removes exactly the rules like it if
and only if the identifier means those. -/
theorem remove_exact_iff (sdk : Sdk) (v : Vcn) {lower : List Char → List Char} {keyword : List Char}
    {page size total : Int} {infos : List SecurityRuleInfo} {info : SecurityRuleInfo}
    (h : listSecurityRules lower v.pages keyword page size = some (infos, total)) (hm : info ∈ infos) :
    (∃ sl ∈ v.pages.flatten, ∃ d, ∃ rule ∈ sl.rules d, info = ruleInfo sl d rule) ∧
      ∀ sl ∈ v.pages.flatten, ∀ d, ∀ rule ∈ sl.rules d, info = ruleInfo sl d rule →
        ((∀ updates pages', removeSecurityRules sdk updates v.pages [info.id] = (pages', .ok ()) →
          RemovesExactly sl.id d rule v.pages pages') ↔ Identified sdk v sl d rule) := by
  refine ⟨exists_of_mem_listSecurityRules h hm, fun sl hsl d rule hr hinfo => ?_⟩
  subst hinfo
  exact removesExactly_iff_identified sdk v hsl d hr

/-! ## One list -/

def exampleRule (protocol cidr : String) : Rule :=
  { protocol := some protocol.toList, cidr := some cidr.toList }

/-- Rules for all of TCP from two networks, and one for ICMP. -/
def exampleList : SecurityList where
  id := "l".toList
  displayName := "default".toList
  ingress := [exampleRule "6" "10.0.0.0/8", exampleRule "6" "172.16.0.0/12", exampleRule "1" "10.0.0.0/8"]
  egress := []

def exampleVcn : Vcn where
  pages := [[exampleList]]
  nodup := by decide
  ids := by
    intro sl hsl
    obtain rfl := List.mem_singleton.mp hsl
    decide
  rules := by
    intro sl hsl d r hr
    obtain rfl := List.mem_singleton.mp hsl
    cases d with
    | ingress =>
      simp only [exampleList, SecurityList.rules, List.mem_cons, List.not_mem_nil, or_false] at hr
      rcases hr with rfl | rfl | rfl <;> exact ⟨_, _, rfl, by decide, rfl, by decide⟩
    | egress => cases hr

/-- The rule for ICMP is the only one of its protocol. -/
theorem remove_exact_icmp : ∃ pages', removeSecurityRules ⟨true, false⟩ (fun _ => true) exampleVcn.pages
      [(ruleInfo exampleList .ingress (exampleRule "1" "10.0.0.0/8")).id] = (pages', .ok ()) ∧
    RemovesExactly exampleList.id .ingress (exampleRule "1" "10.0.0.0/8") exampleVcn.pages pages' := by
  have hlist : listSecurityRules id exampleVcn.pages [] 1 10 =
      some (exampleVcn.pages.flatten.flatMap ruleInfos, 3) := by decide
  have hexact := ((remove_exact_iff ⟨true, false⟩ exampleVcn hlist (by decide)).2 exampleList (by decide)
    .ingress (exampleRule "1" "10.0.0.0/8") (by decide) rfl).mpr
    ⟨by decide, by decide, by decide, fun _ => ⟨exampleRule "6" "10.0.0.0/8", by decide, by decide⟩⟩
  exact ⟨_, rfl, hexact (fun _ => true) _ rfl⟩

/-- Removing the rule for TCP from one network removes the other as well. -/
theorem other_network_removed :
    ruleInfo exampleList .ingress (exampleRule "6" "10.0.0.0/8") ∈ ruleInfos exampleList ∧
      removeSecurityRules ⟨true, false⟩ (fun _ => true) exampleVcn.pages
          [(ruleInfo exampleList .ingress (exampleRule "6" "10.0.0.0/8")).id] =
        ([[exampleList.setRules .ingress [exampleRule "1" "10.0.0.0/8"]]], .ok ()) ∧
      ¬ RemovesExactly exampleList.id .ingress (exampleRule "6" "10.0.0.0/8") exampleVcn.pages
          [[exampleList.setRules .ingress [exampleRule "1" "10.0.0.0/8"]]] := by
  refine ⟨by decide, rfl, fun h => ?_⟩
  have := h.eq
  revert this
  decide

end OciHelper.Oci
