import OciHelper.Oci.PortStrings

/-!
# Adding a rule with all its options

* `addRuleAdvanced` : `AddIngressRuleAdvanced` and `AddEgressRuleAdvanced`, on the lists of a VCN page by page;
* `Meets` : a rule is the one that a request asks for; `Adds` : a list got that rule, if it lacked it, and nothing else;
* `Expressible` : the rule that is built is the one asked for; `meets_advancedRule_iff`;
* `NoLookalike` : a list that seems to have the rule has it;
* `add_exact_iff` : when a successful request does what it says.
-/

namespace OciHelper.Oci

structure RuleList where
  id : List Char
  ingress : List SecurityRule := []
  egress : List SecurityRule := []
  deriving DecidableEq, Repr

def RuleList.rules (sl : RuleList) : Direction → List SecurityRule
  | .ingress => sl.ingress
  | .egress => sl.egress

def RuleList.setRules (sl : RuleList) (d : Direction) (rules : List SecurityRule) : RuleList :=
  match d with
  | .ingress => { sl with ingress := rules }
  | .egress => { sl with egress := rules }

/-- `hasIngressRule` and `hasEgressRule`. -/
def hasRule (rules : List SecurityRule) (rule : SecurityRule) : Bool :=
  hasIngressRule (rules.map SecurityRule.toRule) rule.toRule

/-- The update of one list. -/
def addToList (d : Direction) (newRule : SecurityRule) (sl : RuleList) : RuleList :=
  sl.setRules d (if hasRule (sl.rules d) newRule then sl.rules d else sl.rules d ++ [newRule])

/-- The loop over the lists of a page. -/
def applyToLists (d : Direction) (newRule : SecurityRule) (update : List Char → Bool) :
    List RuleList → List RuleList × Except ReleaseError Unit
  | [] => ([], .ok ())
  | sl :: rest =>
    if update sl.id then
      let (rest, result) := applyToLists d newRule update rest
      (addToList d newRule sl :: rest, result)
    else (sl :: rest, .error (.update sl.id))

/-- `applyIngressRule` and `applyEgressRule`: the loop over the pages. -/
def applyRule (d : Direction) (newRule : SecurityRule) (a : PortAnswers) :
    Nat → List (List RuleList) → List (List RuleList) × Except ReleaseError Unit
  | _, [] => ([], .ok ())
  | n, page :: pages =>
    if a.list n then
      match applyToLists d newRule a.update page with
      | (page, .ok ()) =>
        let (pages, result) := applyRule d newRule a (n + 1) pages
        (page :: pages, result)
      | (page, .error e) => (page :: pages, .error e)
    else (page :: pages, .error .list)

def addRuleAdvanced (d : Direction) (a : PortAnswers) (pages : List (List RuleList)) (opts : SecurityRuleOptions) :
    List (List RuleList) × Except ReleaseError Unit :=
  applyRule d (advancedRule opts) a 0 pages

/-! ## What a request asks for -/

def IsIcmp (opts : SecurityRuleOptions) : Prop := opts.protocol = "1".toList ∨ opts.protocol = "58".toList

def HasPorts (opts : SecurityRuleOptions) : Prop := opts.protocol = "TCP".toList ∨ opts.protocol = "UDP".toList

instance (opts : SecurityRuleOptions) : Decidable (IsIcmp opts) := inferInstanceAs (Decidable (_ ∨ _))

instance (opts : SecurityRuleOptions) : Decidable (HasPorts opts) := inferInstanceAs (Decidable (_ ∨ _))

/-- The type and the code, of a request for ICMP or with one of them. -/
def requestedIcmp (opts : SecurityRuleOptions) : Option IcmpOptions :=
  if IsIcmp opts ∨ opts.icmpType ≠ 0 ∨ opts.icmpCode ≠ 0 then some ⟨some opts.icmpType, some opts.icmpCode⟩ else none

/-- The rule has the attributes of the request. -/
structure Meets (opts : SecurityRuleOptions) (r : SecurityRule) : Prop where
  protocol : r.protocol = some opts.protocol
  cidr : r.cidr = some opts.sourceOrDest
  destination : r.destinationPorts = parsePortRange opts.port
  source : r.sourcePorts = parsePortRange opts.sourcePort
  icmp : r.icmpOptions = requestedIcmp opts
  stateless : r.isStateless.getD false = opts.stateless

/-- The list has the rule, and otherwise what it had. -/
structure Adds (d : Direction) (opts : SecurityRuleOptions) (before after : RuleList) : Prop where
  rest : after = before.setRules d (after.rules d)
  has : ∃ r ∈ after.rules d, Meets opts r
  only : ∃ added, after.rules d = before.rules d ++ added ∧ ∀ r ∈ added, Meets opts r

/-- The rule that is built has every attribute of the request. -/
def Expressible (opts : SecurityRuleOptions) : Prop :=
  if IsIcmp opts then
    0 < opts.icmpType ∧ 0 < opts.icmpCode ∧ parsePortRange opts.port = none ∧ parsePortRange opts.sourcePort = none
  else
    opts.icmpType = 0 ∧ opts.icmpCode = 0 ∧
      (HasPorts opts ∨ (parsePortRange opts.port = none ∧ parsePortRange opts.sourcePort = none))

/-- A list that has a rule with the same protocol, address and destination ports has the rule asked for, and the rule
that any other list gets is the one asked for. -/
def NoLookalike (d : Direction) (opts : SecurityRuleOptions) (sl : RuleList) : Prop :=
  if hasRule (sl.rules d) (advancedRule opts) then ∃ r ∈ sl.rules d, Meets opts r else Expressible opts

theorem not_isIcmp_of_hasPorts {opts : SecurityRuleOptions} (h : HasPorts opts) : ¬ IsIcmp opts := by
  unfold HasPorts at h
  unfold IsIcmp
  rcases h with h | h <;> (rw [h]; decide)

theorem advancedRule_of_isIcmp {opts : SecurityRuleOptions} (h : IsIcmp opts) :
    (advancedRule opts).portOptions = none ∧
      (advancedRule opts).icmpOptions = some
        ⟨if opts.icmpType > 0 then some opts.icmpType else none,
          if opts.icmpCode > 0 then some opts.icmpCode else none⟩ := by
  unfold IsIcmp at h
  unfold advancedRule
  dsimp only
  rw [if_pos h]
  exact ⟨rfl, rfl⟩

theorem advancedRule_of_hasPorts {opts : SecurityRuleOptions} (h : HasPorts opts) :
    (advancedRule opts).portOptions = some ⟨parsePortRange opts.port, parsePortRange opts.sourcePort⟩ ∧
      (advancedRule opts).icmpOptions = none := by
  have hicmp := not_isIcmp_of_hasPorts h
  unfold HasPorts at h
  unfold IsIcmp at hicmp
  unfold advancedRule
  dsimp only
  rw [if_neg hicmp, if_pos h]
  split <;> exact ⟨rfl, rfl⟩

theorem advancedRule_of_neither {opts : SecurityRuleOptions} (hicmp : ¬ IsIcmp opts) (hports : ¬ HasPorts opts) :
    (advancedRule opts).portOptions = none ∧ (advancedRule opts).icmpOptions = none := by
  unfold HasPorts at hports
  unfold IsIcmp at hicmp
  unfold advancedRule
  dsimp only
  rw [if_neg hicmp, if_neg hports]
  exact ⟨rfl, rfl⟩

/-- What every rule takes over from its request. -/
theorem advancedRule_common (opts : SecurityRuleOptions) :
    (advancedRule opts).protocol = some opts.protocol ∧ (advancedRule opts).cidr = some opts.sourceOrDest ∧
      (advancedRule opts).isStateless = some opts.stateless := by
  unfold advancedRule
  dsimp only
  split
  · exact ⟨rfl, rfl, rfl⟩
  · split
    · split <;> exact ⟨rfl, rfl, rfl⟩
    · exact ⟨rfl, rfl, rfl⟩

/-- The rest of the attributes. -/
theorem meets_advancedRule (opts : SecurityRuleOptions) :
    Meets opts (advancedRule opts) ↔
      (advancedRule opts).destinationPorts = parsePortRange opts.port ∧
        (advancedRule opts).sourcePorts = parsePortRange opts.sourcePort ∧
        (advancedRule opts).icmpOptions = requestedIcmp opts := by
  obtain ⟨hprotocol, hcidr, hstateless⟩ := advancedRule_common opts
  constructor
  · exact fun h => ⟨h.destination, h.source, h.icmp⟩
  · rintro ⟨hdestination, hsource, hicmp⟩
    exact ⟨hprotocol, hcidr, hdestination, hsource, hicmp, by rw [hstateless]; rfl⟩

theorem requestedIcmp_eq_none_iff {opts : SecurityRuleOptions} (h : ¬ IsIcmp opts) :
    none = requestedIcmp opts ↔ opts.icmpType = 0 ∧ opts.icmpCode = 0 := by
  unfold requestedIcmp
  by_cases htype : opts.icmpType = 0 <;> by_cases hcode : opts.icmpCode = 0 <;> simp [h, htype, hcode]

theorem meets_advancedRule_iff (opts : SecurityRuleOptions) : Meets opts (advancedRule opts) ↔ Expressible opts := by
  rw [meets_advancedRule]
  unfold Expressible SecurityRule.destinationPorts SecurityRule.sourcePorts
  by_cases hicmp : IsIcmp opts
  · obtain ⟨hports, hoptions⟩ := advancedRule_of_isIcmp hicmp
    have hrequested : requestedIcmp opts = some ⟨some opts.icmpType, some opts.icmpCode⟩ := if_pos (Or.inl hicmp)
    rw [hports, hoptions, hrequested, if_pos hicmp]
    by_cases htype : opts.icmpType > 0 <;> by_cases hcode : opts.icmpCode > 0 <;> simp [htype, hcode, eq_comm]
  · have hnone := requestedIcmp_eq_none_iff hicmp
    rw [if_neg hicmp]
    by_cases hp : HasPorts opts
    · obtain ⟨hports, hoptions⟩ := advancedRule_of_hasPorts hp
      rw [hports, hoptions, hnone]
      simp [hp]
    · obtain ⟨hports, hoptions⟩ := advancedRule_of_neither hicmp hp
      rw [hports, hoptions, hnone]
      simp only [Option.bind_none, hp, false_or, eq_comm]
      tauto

/-! ## One list -/

@[simp] theorem RuleList.rules_setRules (sl : RuleList) (d : Direction) (rules : List SecurityRule) :
    (sl.setRules d rules).rules d = rules := by
  cases d <;> rfl

@[simp] theorem RuleList.setRules_rules (sl : RuleList) (d : Direction) : sl.setRules d (sl.rules d) = sl := by
  cases d <;> rfl

theorem hasRule_of_mem {rules : List SecurityRule} {rule : SecurityRule} (h : rule ∈ rules) :
    hasRule rules rule = true := by
  have hself : ∀ o : Option PortOptions, portOptionsEq o o = true := by
    intro o
    cases o with
    | none => rfl
    | some o => simp [portOptionsEq]
  unfold hasRule hasIngressRule
  exact List.any_eq_true.mpr ⟨rule.toRule, List.mem_map_of_mem h, by simp [hself]⟩

theorem rules_addToList (d : Direction) (newRule : SecurityRule) (sl : RuleList) :
    (addToList d newRule sl).rules d =
      if hasRule (sl.rules d) newRule then sl.rules d else sl.rules d ++ [newRule] :=
  RuleList.rules_setRules ..

theorem addToList_of_hasRule {d : Direction} {newRule : SecurityRule} {sl : RuleList}
    (h : hasRule (sl.rules d) newRule = true) : addToList d newRule sl = sl := by
  unfold addToList
  rw [if_pos h, RuleList.setRules_rules]

theorem hasRule_addToList (d : Direction) (newRule : SecurityRule) (sl : RuleList) :
    hasRule ((addToList d newRule sl).rules d) newRule = true := by
  rw [rules_addToList]
  split
  · assumption
  · exact hasRule_of_mem (List.mem_append_right _ (List.mem_singleton_self _))

theorem adds_addToList_iff (d : Direction) (opts : SecurityRuleOptions) (sl : RuleList) :
    Adds d opts sl (addToList d (advancedRule opts) sl) ↔ NoLookalike d opts sl := by
  have hrest : addToList d (advancedRule opts) sl = sl.setRules d ((addToList d (advancedRule opts) sl).rules d) := by
    rw [rules_addToList]
    rfl
  have hrules := rules_addToList d (advancedRule opts) sl
  unfold NoLookalike
  split
  · next hhas =>
    rw [if_pos hhas] at hrules
    constructor
    · intro h
      have := h.has
      rwa [hrules] at this
    · intro h
      exact ⟨hrest, by rwa [hrules], [], by rw [hrules, List.append_nil], fun r hr => by cases hr⟩
  · next hhas =>
    rw [if_neg hhas] at hrules
    rw [← meets_advancedRule_iff]
    constructor
    · intro h
      obtain ⟨added, hadded, hall⟩ := h.only
      rw [hrules] at hadded
      obtain rfl := List.append_cancel_left hadded
      exact hall _ (List.mem_singleton_self _)
    · intro h
      refine ⟨hrest, ⟨_, ?_, h⟩, [advancedRule opts], hrules, fun r hr => ?_⟩
      · rw [hrules]
        exact List.mem_append_right _ (List.mem_singleton_self _)
      · rw [List.mem_singleton.mp hr]
        exact h

/-! ## All lists -/

theorem applyToLists_ok {d : Direction} {newRule : SecurityRule} {update : List Char → Bool} {lists : List RuleList}
    (h : (applyToLists d newRule update lists).2 = .ok ()) :
    (applyToLists d newRule update lists).1 = lists.map (addToList d newRule) := by
  induction lists with
  | nil => rfl
  | cons sl rest ih =>
    unfold applyToLists at h ⊢
    split at h
    · next hu =>
      rw [if_pos hu]
      exact congrArg _ (ih h)
    · cases h

theorem applyRule_ok {d : Direction} {newRule : SecurityRule} {a : PortAnswers} : ∀ {n : Nat}
    {pages : List (List RuleList)}, (applyRule d newRule a n pages).2 = .ok () →
      (applyRule d newRule a n pages).1 = pages.map fun page => page.map (addToList d newRule) := by
  intro n pages
  induction pages generalizing n with
  | nil => exact fun _ => rfl
  | cons page pages ih =>
    intro h
    have hpage := @applyToLists_ok d newRule a.update page
    unfold applyRule at h ⊢
    split at h
    · next hlist =>
      rw [if_pos hlist]
      cases hlists : applyToLists d newRule a.update page with
      | mk page' result =>
        rw [hlists] at h hpage
        cases result with
        | ok u =>
          dsimp only at h hpage ⊢
          rw [hpage rfl, ih h]
          rfl
        | error e => cases h
    · cases h

/-- Lists that have the rule stay as they are. -/
theorem applyToLists_of_hasRule {d : Direction} {newRule : SecurityRule} (update : List Char → Bool)
    {lists : List RuleList} (h : ∀ sl ∈ lists, hasRule (sl.rules d) newRule = true) :
    (applyToLists d newRule update lists).1 = lists := by
  induction lists with
  | nil => rfl
  | cons sl rest ih =>
    have hrest := ih fun l hl => h l (List.mem_cons_of_mem _ hl)
    unfold applyToLists
    split
    · dsimp only
      rw [addToList_of_hasRule (h sl (List.mem_cons_self ..)), hrest]
    · rfl

theorem applyRule_of_hasRule {d : Direction} {newRule : SecurityRule} (a : PortAnswers) {pages : List (List RuleList)}
    (h : ∀ page ∈ pages, ∀ sl ∈ page, hasRule (sl.rules d) newRule = true) (n : Nat) :
    (applyRule d newRule a n pages).1 = pages := by
  induction pages generalizing n with
  | nil => rfl
  | cons page pages ih =>
    have hpage := applyToLists_of_hasRule a.update (h page (List.mem_cons_self ..))
    have hpages := ih (fun p hp => h p (List.mem_cons_of_mem _ hp)) (n + 1)
    unfold applyRule
    split
    · cases hlists : applyToLists d newRule a.update page with
      | mk page' result =>
        rw [hlists] at hpage
        obtain rfl : page' = page := hpage
        cases result with
        | ok u => exact congrArg _ hpages
        | error e => rfl
    · rfl

/-- **When a request adds exactly its rule.** A successful request leaves every list with the rule asked for and nothing
else new, just when no list has a rule that only looks like it and the rule can be expressed; repeated, it changes
nothing. -/
theorem add_exact_iff (d : Direction) (a : PortAnswers) (pages : List (List RuleList)) (opts : SecurityRuleOptions)
    (h : (addRuleAdvanced d a pages opts).2 = .ok ()) :
    (List.Forall₂ (List.Forall₂ (Adds d opts)) pages (addRuleAdvanced d a pages opts).1 ∧
      ∀ a', (addRuleAdvanced d a' (addRuleAdvanced d a pages opts).1 opts).1 = (addRuleAdvanced d a pages opts).1) ↔
        ∀ page ∈ pages, ∀ sl ∈ page, NoLookalike d opts sl := by
  have hpages : (addRuleAdvanced d a pages opts).1 =
      pages.map fun page => page.map (addToList d (advancedRule opts)) := applyRule_ok h
  have hrepeat : ∀ a', (addRuleAdvanced d a' (addRuleAdvanced d a pages opts).1 opts).1 =
      (addRuleAdvanced d a pages opts).1 := by
    intro a'
    apply applyRule_of_hasRule
    intro page hpage sl hsl
    rw [hpages] at hpage
    obtain ⟨page₀, -, rfl⟩ := List.mem_map.mp hpage
    obtain ⟨sl₀, -, rfl⟩ := List.mem_map.mp hsl
    exact hasRule_addToList ..
  rw [and_iff_left hrepeat, hpages, List.forall₂_map_right_iff, List.forall₂_same]
  simp only [List.forall₂_map_right_iff, List.forall₂_same, adds_addToList_iff]

/-- A VCN with one list and no rules. -/
def emptyVcn : List (List RuleList) := [[{ id := "list".toList }]]

/-- Echo requests, with type 8 and code 0. -/
def echoRequest : SecurityRuleOptions where
  protocol := "1".toList
  sourceOrDest := "0.0.0.0/0".toList
  icmpType := 8

/-- The rule that is added has no code. -/
theorem code_zero_is_dropped :
    (addRuleAdvanced .ingress ⟨fun _ => true, fun _ => true⟩ emptyVcn echoRequest).2 = .ok () ∧
      ¬ List.Forall₂ (List.Forall₂ (Adds .ingress echoRequest)) emptyVcn
        (addRuleAdvanced .ingress ⟨fun _ => true, fun _ => true⟩ emptyVcn echoRequest).1 := by
  refine ⟨rfl, fun h => ?_⟩
  have hpage := (List.forall₂_cons.mp h).1
  obtain ⟨-, ⟨r, hr, hmeets⟩, -⟩ := (List.forall₂_cons.mp hpage).1
  obtain rfl := List.mem_singleton.mp hr
  have hicmp := hmeets.icmp
  revert hicmp
  decide +kernel

/-- One port over TCP. -/
def sshOptions : SecurityRuleOptions where
  protocol := "TCP".toList
  port := "22".toList
  sourceOrDest := "0.0.0.0/0".toList
  stateless := true

theorem ssh_is_added :
    List.Forall₂ (List.Forall₂ (Adds .ingress sshOptions)) emptyVcn
      (addRuleAdvanced .ingress ⟨fun _ => true, fun _ => true⟩ emptyVcn sshOptions).1 := by
  refine ((add_exact_iff .ingress ⟨fun _ => true, fun _ => true⟩ emptyVcn sshOptions rfl).mpr ?_).1
  intro page hpage sl hsl
  obtain rfl := List.mem_singleton.mp hpage
  obtain rfl := List.mem_singleton.mp hsl
  have hnone : hasRule [] (advancedRule sshOptions) = false := rfl
  unfold NoLookalike
  rw [show RuleList.rules { id := "list".toList } .ingress = [] from rfl, hnone, if_neg Bool.false_ne_true]
  unfold Expressible
  rw [if_neg (by decide)]
  exact ⟨rfl, rfl, .inl (.inl rfl)⟩

end OciHelper.Oci
