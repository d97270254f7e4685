import OciHelper.Oci.Release

/-!
# New rules and their port texts

* `SecurityRule` : a rule with all that `AddIngressRuleAdvanced` and `AddEgressRuleAdvanced` set;
* `parsePortRange` : the reading of a port text that is not the one of `newIngressRule`;
* `plainRule`, `advancedRule` : the rules that are built from a request, with the plain options and with all;
* `PortsOf` : the ports that a text says; `WellFormed` : it says some;
* `Agree` : what the two readings should have in common; `agree_iff` : they do just on well-formed texts.
-/

namespace OciHelper.Oci
open Text

inductive CidrType
  | unset
  | cidrBlock
  | serviceCidrBlock
  deriving DecidableEq, Repr

structure IcmpOptions where
  type : Option Int := none
  code : Option Int := none
  deriving DecidableEq, Repr

structure SecurityRule extends Rule where
  cidrType : CidrType := .unset
  icmpOptions : Option IcmpOptions := none
  isStateless : Option Bool := none
  description : Option (List Char) := none
  deriving DecidableEq, Repr

structure SecurityRuleOptions where
  protocol : List Char
  port : List Char := []
  sourceOrDest : List Char
  sourcePort : List Char := []
  icmpType : Int := 0
  icmpCode : Int := 0
  stateless : Bool := false
  description : List Char := []
  deriving DecidableEq, Repr

/-- A second part that is not a number counts as missing. -/
def parsePortRange (s : List Char) : Option PortRange :=
  let s := trimSpace s
  if s = [] then none
  else
    match splitN '-' 2 s with
    | [] => none
    | first :: rest =>
      match parseInt (trimSpace first) with
      | none => none
      | some min =>
        let max := match rest with
          | [] => min
          | second :: _ => (parseInt (trimSpace second)).getD min
        some ⟨min, max⟩

/-- What `AddIngressRule` adds, and `AddEgressRule` with a destination. -/
def plainRule (protocol port cidr : List Char) : Except ReleaseError SecurityRule :=
  match newIngressRule protocol port cidr with
  | .ok rule => .ok { toRule := rule }
  | .error e => .error e

/-- What `AddIngressRuleAdvanced` and `AddEgressRuleAdvanced` add. -/
def advancedRule (opts : SecurityRuleOptions) : SecurityRule :=
  let rule : SecurityRule :=
    { protocol := some opts.protocol, cidr := some opts.sourceOrDest, isStateless := some opts.stateless,
      description := if opts.description = [] then none else some opts.description, cidrType := .cidrBlock }
  if opts.protocol = "1".toList ∨ opts.protocol = "58".toList then
    { rule with
      icmpOptions := some
        { type := if opts.icmpType > 0 then some opts.icmpType else none
          code := if opts.icmpCode > 0 then some opts.icmpCode else none } }
  else if opts.protocol = "TCP".toList ∨ opts.protocol = "UDP".toList then
    let options : PortOptions := ⟨parsePortRange opts.port, parsePortRange opts.sourcePort⟩
    if opts.protocol = "UDP".toList then { rule with udpOptions := some options }
    else { rule with tcpOptions := some options }
  else rule

/-- The choice of `handleSecurityRules`. -/
def isAdvanced (opts : SecurityRuleOptions) : Bool :=
  opts.sourcePort ≠ [] || opts.icmpType > 0 || opts.stateless || opts.description ≠ []

def requestedRule (opts : SecurityRuleOptions) : Except ReleaseError SecurityRule :=
  if isAdvanced opts then .ok (advancedRule opts) else plainRule opts.protocol opts.port opts.sourceOrDest

namespace SecurityRule

def portOptions (r : SecurityRule) : Option PortOptions := r.tcpOptions.or r.udpOptions

/-- Without a range, all ports. -/
def destinationPorts (r : SecurityRule) : Option PortRange := r.portOptions.bind PortOptions.destinationPortRange

def sourcePorts (r : SecurityRule) : Option PortRange := r.portOptions.bind PortOptions.sourcePortRange

end SecurityRule

/-! ## What a text says -/

/-- The text is a decimal number. -/
structure IsNumber (s : List Char) (n : Nat) : Prop where
  nonempty : s ≠ []
  digits : s.all Char.isDigit = true
  value : Nat.ofDigitChars 10 s 0 = n

/-- The text is a port or two of them with a dash between, in order. -/
inductive PortsOf : List Char → PortRange → Prop
  | port {s : List Char} {n : Nat} (h : IsNumber s n) (low : 1 ≤ n) (high : n ≤ 65535) : PortsOf s ⟨n, n⟩
  | range {a b : List Char} {lo hi : Nat} (ha : IsNumber a lo) (hb : IsNumber b hi) (low : 1 ≤ lo) (order : lo ≤ hi)
      (high : hi ≤ 65535) : PortsOf (a ++ '-' :: b) ⟨lo, hi⟩

def WellFormed (s : List Char) : Prop := ∃ r, PortsOf s r

/-- The ports that a request opens, if it is not rejected. -/
def opened (r : Except ReleaseError SecurityRule) : Option (Option PortRange) :=
  match r with
  | .ok r => some r.destinationPorts
  | .error _ => none

/-- The advanced path rejects a text or opens what the plain path opens, and both reject what says no ports. -/
structure Agree (opts : SecurityRuleOptions) : Prop where
  same : opened (.ok (advancedRule opts)) = none ∨
    opened (.ok (advancedRule opts)) = opened (plainRule opts.protocol opts.port opts.sourceOrDest)
  plain : opened (plainRule opts.protocol opts.port opts.sourceOrDest) ≠ none → WellFormed opts.port
  advanced : opened (.ok (advancedRule opts)) ≠ none → WellFormed opts.port

/-! ## The two readings of a well-formed text -/

theorem IsNumber.parseInt {s : List Char} {n : Nat} (h : IsNumber s n) (hn : n ≤ 65535) :
    parseInt s = some (n : Int) := by
  unfold Text.parseInt
  rw [number?_digits h.nonempty h.digits, h.value]
  exact if_pos (by omega)

theorem IsNumber.isDigit {s : List Char} {n : Nat} (h : IsNumber s n) {c : Char} (hc : c ∈ s) : c.isDigit = true :=
  List.all_eq_true.mp h.digits c hc

theorem IsNumber.trimSpace {s : List Char} {n : Nat} (h : IsNumber s n) : trimSpace s = s :=
  trimSpace_eq_self fun _ hc => isSpace_of_isDigit (h.isDigit hc)

theorem IsNumber.dash_notMem {s : List Char} {n : Nat} (h : IsNumber s n) : '-' ∉ s := by
  intro hm
  have hdigit := h.isDigit hm
  revert hdigit
  decide

theorem trimSpace_range {a b : List Char} {lo hi : Nat} (ha : IsNumber a lo) (hb : IsNumber b hi) :
    trimSpace (a ++ '-' :: b) = a ++ '-' :: b := by
  apply trimSpace_eq_self
  intro c hc
  rw [List.mem_append, List.mem_cons] at hc
  obtain hc | rfl | hc := hc
  · exact isSpace_of_isDigit (ha.isDigit hc)
  · decide
  · exact isSpace_of_isDigit (hb.isDigit hc)

/-- **The advanced path gets the ports that a text says.** -/
theorem PortsOf.parsePortRange {s : List Char} {r : PortRange} (h : PortsOf s r) : parsePortRange s = some r := by
  unfold Oci.parsePortRange
  dsimp only
  cases h with
  | port h low high =>
    rw [h.trimSpace, if_neg h.nonempty, splitN_of_notMem '-' 1 h.dash_notMem]
    dsimp only
    rw [h.trimSpace, h.parseInt high]
  | range ha hb low order high =>
    rw [trimSpace_range ha hb, if_neg (by simp), splitN_append '-' 0 ha.dash_notMem]
    dsimp only [splitN]
    rw [ha.trimSpace, hb.trimSpace, ha.parseInt (Nat.le_trans order high), hb.parseInt high]
    rfl

/-- **So does the plain path.** -/
theorem PortsOf.plainRule {s : List Char} {r : PortRange} (h : PortsOf s r) {protocol : List Char}
    (hprotocol : protocol = "TCP".toList ∨ protocol = "UDP".toList) (cidr : List Char) :
    ∃ rule, plainRule protocol s cidr = .ok rule ∧ rule.destinationPorts = some r := by
  unfold Oci.plainRule newIngressRule
  rw [if_pos hprotocol]
  cases h with
  | port h low high =>
    dsimp only
    rw [splitN_of_notMem '-' 2 h.dash_notMem, List.headD_cons, h.parseInt high]
    dsimp only
    split <;> exact ⟨_, rfl, rfl⟩
  | range ha hb low order high =>
    dsimp only
    rw [splitN_append '-' 1 ha.dash_notMem, splitN_of_notMem '-' 1 hb.dash_notMem, List.headD_cons,
      ha.parseInt (Nat.le_trans order high)]
    dsimp only
    rw [hb.parseInt high]
    dsimp only
    split <;> exact ⟨_, rfl, rfl⟩

/-- The advanced path rejects nothing. -/
theorem opened_advanced (opts : SecurityRuleOptions) :
    opened (.ok (advancedRule opts)) = some (advancedRule opts).destinationPorts := rfl

section
variable {opts : SecurityRuleOptions} (h : opts.protocol = "TCP".toList ∨ opts.protocol = "UDP".toList)
include h

theorem destinationPorts_advancedRule : (advancedRule opts).destinationPorts = parsePortRange opts.port := by
  have hicmp : ¬ (opts.protocol = "1".toList ∨ opts.protocol = "58".toList) := by
    rcases h with h | h <;> (rw [h]; decide)
  unfold advancedRule
  dsimp only
  rw [if_neg hicmp, if_pos h]
  split <;> rfl

/-- **The two paths agree on well-formed texts only.** On any other text the advanced path adds a rule all the same. -/
theorem agree_iff : Agree opts ↔ WellFormed opts.port := by
  constructor
  · exact fun hagree => hagree.advanced (by rw [opened_advanced]; exact Option.some_ne_none _)
  · rintro ⟨r, hr⟩
    obtain ⟨rule, hplain, hports⟩ := hr.plainRule h opts.sourceOrDest
    refine ⟨.inr ?_, fun _ => ⟨r, hr⟩, fun _ => ⟨r, hr⟩⟩
    rw [opened_advanced, destinationPorts_advancedRule h, hr.parsePortRange, hplain]
    exact congrArg some hports.symm

/-- Whichever path a request takes, it opens the ports that its text says. -/
theorem opened_requestedRule {r : PortRange} (hr : PortsOf opts.port r) :
    opened (requestedRule opts) = some (some r) := by
  obtain ⟨rule, hplain, hports⟩ := hr.plainRule h opts.sourceOrDest
  unfold requestedRule
  split
  · rw [opened_advanced, destinationPorts_advancedRule h, hr.parsePortRange]
  · rw [hplain]
    exact congrArg some hports

end

/-- A list of ports on the advanced path. -/
def listOptions : SecurityRuleOptions where
  protocol := "TCP".toList
  port := "22,80".toList
  sourceOrDest := "0.0.0.0/0".toList
  stateless := true

/-- The plain path rejects it, and the advanced path opens all ports. -/
theorem list_opens_all :
    opened (plainRule listOptions.protocol listOptions.port listOptions.sourceOrDest) = none ∧
      opened (.ok (advancedRule listOptions)) = some none ∧ ¬ Agree listOptions := by
  have hplain : opened (plainRule listOptions.protocol listOptions.port listOptions.sourceOrDest) = none := by
    decide +kernel
  have hadvanced : opened (.ok (advancedRule listOptions)) = some none := by decide +kernel
  refine ⟨hplain, hadvanced, fun hagree => ?_⟩
  have hsame := hagree.same
  rw [hplain, hadvanced] at hsame
  rcases hsame with h | h <;> cases h

theorem range_agrees :
    Agree { protocol := "TCP".toList, port := "80-443".toList, sourceOrDest := "0.0.0.0/0".toList } := by
  have hlo : IsNumber "80".toList 80 := ⟨by decide, by decide, by decide⟩
  have hhi : IsNumber "443".toList 443 := ⟨by decide, by decide, by decide⟩
  exact (agree_iff (.inl rfl)).mpr ⟨⟨80, 443⟩, .range hlo hhi (by decide) (by decide) (by decide)⟩

end OciHelper.Oci
