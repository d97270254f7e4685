import OciHelper.Lib.Text

/-!
# Security lists

* `Rule`, `SecurityList` : the rules of a list, ingress and egress alike; the fields of a rule that no
  function here reads are left out;
* `Slice` : a Go slice, which tells nil from empty;
* `Sdk` : what an absent list means in an update, and how an empty list is returned;
* `SecurityList.update` : `UpdateSecurityList` on one list.

Texts are lists of characters.
-/

namespace OciHelper.Oci

structure PortRange where
  min : Int
  max : Int
  deriving DecidableEq, Repr

/-- `TcpOptions` or `UdpOptions`. -/
structure PortOptions where
  destinationPortRange : Option PortRange := none
  sourcePortRange : Option PortRange := none
  deriving DecidableEq, Repr

/-- `cidr` is the source of an ingress rule and the destination of an egress rule. -/
structure Rule where
  protocol : Option (List Char)
  cidr : Option (List Char)
  tcpOptions : Option PortOptions := none
  udpOptions : Option PortOptions := none
  deriving DecidableEq, Repr

inductive Direction
  | ingress
  | egress
  deriving DecidableEq, Repr

def Direction.text : Direction → List Char
  | .ingress => "ingress".toList
  | .egress => "egress".toList

structure SecurityList where
  id : List Char
  displayName : List Char
  ingress : List Rule
  egress : List Rule
  deriving DecidableEq, Repr

def SecurityList.rules (sl : SecurityList) : Direction → List Rule
  | .ingress => sl.ingress
  | .egress => sl.egress

def SecurityList.setRules (sl : SecurityList) (d : Direction) (rules : List Rule) : SecurityList :=
  match d with
  | .ingress => { sl with ingress := rules }
  | .egress => { sl with egress := rules }

/-! ## Slices -/

/-- `none` is the nil slice. -/
abbrev Slice (α : Type) := Option (List α)

/-- What a loop of `append` makes of the nil slice. -/
def appended {α : Type} (kept : List α) : Slice α := if kept = [] then none else some kept

/-- `keepNil`: an update without a list leaves that list as it is. `emptyNil`: an empty list comes back
as nil. -/
structure Sdk where
  keepNil : Bool
  emptyNil : Bool

def Sdk.sent (sdk : Sdk) (old : List Rule) : Slice Rule → List Rule
  | some rules => rules
  | none => if sdk.keepNil then old else []

def Sdk.returned (sdk : Sdk) (rules : List Rule) : Slice Rule :=
  if rules = [] ∧ sdk.emptyNil then none else some rules

def SecurityList.update (sdk : Sdk) (sl : SecurityList) (ingress egress : Slice Rule) : SecurityList :=
  { sl with ingress := sdk.sent sl.ingress ingress, egress := sdk.sent sl.egress egress }

/-- Rules that are all kept are sent back as they were. -/
@[simp] theorem Sdk.sent_appended_self (sdk : Sdk) (rules : List Rule) :
    sdk.sent rules (appended rules) = rules := by
  unfold appended
  by_cases h : rules = []
  · simp [h, Sdk.sent]
  · simp [h, Sdk.sent]

theorem Sdk.sent_appended (sdk : Sdk) (old : List Rule) {kept : List Rule}
    (h : sdk.keepNil = true → kept ≠ []) : sdk.sent old (appended kept) = kept := by
  unfold appended
  by_cases hk : kept = []
  · have hsdk : sdk.keepNil = false := by
      cases hs : sdk.keepNil with
      | false => rfl
      | true => exact absurd hk (h hs)
    simp [hk, Sdk.sent, hsdk]
  · simp [hk, Sdk.sent]

@[simp] theorem Sdk.sent_returned_self (sdk : Sdk) (rules : List Rule) :
    sdk.sent rules (sdk.returned rules) = rules := by
  unfold Sdk.returned
  by_cases h : rules = [] ∧ sdk.emptyNil = true
  · rw [if_pos h]
    simp [Sdk.sent, h.1]
  · rw [if_neg h]
    rfl

@[simp] theorem Sdk.getD_returned (sdk : Sdk) (rules : List Rule) : (sdk.returned rules).getD [] = rules := by
  unfold Sdk.returned
  by_cases h : rules = [] ∧ sdk.emptyNil = true
  · rw [if_pos h, h.1]
    rfl
  · rw [if_neg h]
    rfl

theorem SecurityList.rules_setRules (sl : SecurityList) (d : Direction) (rules : List Rule) :
    (sl.setRules d rules).rules d = rules := by
  cases d <;> rfl

end OciHelper.Oci
