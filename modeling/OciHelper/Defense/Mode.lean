import OciHelper.Lib.KeyTable
import OciHelper.Lib.StepRun
import OciHelper.Oci.SecurityLists
import Mathlib.Logic.Function.Basic

/-!
# Defense mode

* `filteredRules` : the rules that `enableDefense` leaves in a list;
* `restoredRules` : the rules that `disableDefense` puts back, or its fallback;
* `Call` : where a call of either stands;
* `Firewall.step` : one update, one access to the config table, or one request, each of which may fail,
  and a cut-off.

The calls are for one VCN of one tenant and come one after the other. A call that ends before its first
update changes nothing and is left out.
-/

namespace OciHelper.Defense
open Oci

/-- The keys of the config table that defense mode writes. -/
inductive Key
  | enabled
  | tenant
  | vcn
  | cidrs
  | originalRules (slID : Int)
  deriving DecidableEq, Repr

/-- A text, or what `json.Marshal` makes of a slice of rules. -/
inductive Value
  | text (s : List Char)
  | json (rules : Slice Rule)
  deriving DecidableEq, Repr

/-- `GetConfig` answers with the empty text where there is no row. -/
abbrev Config := Key → Value

def Value.unmarshal : Value → Option (Slice Rule)
  | .json rules => some rules
  | .text _ => none

/-- A security list as `ListSecurityLists` returns it. -/
structure Listed where
  id : Int
  ingress : Slice Rule
  egress : Slice Rule
  deriving DecidableEq, Repr

/-! ## The rules of an update -/

def filteredRules (blacklist : List (List Char)) (ingress : Slice Rule) : Slice Rule :=
  appended ((ingress.getD []).filter fun existing =>
    !blacklist.any fun cidr => existing.cidr = some cidr)

def allowAll : Rule := { protocol := some "all".toList, cidr := some "0.0.0.0/0".toList }

def Rule.AllowsAll (r : Rule) : Prop :=
  r.protocol = some "all".toList ∧ r.cidr = some "0.0.0.0/0".toList

instance (r : Rule) : Decidable (Rule.AllowsAll r) := inferInstanceAs (Decidable (_ ∧ _))

def hasAllowAll (rules : List Rule) : Bool := rules.any fun r => Rule.AllowsAll r

/-- The slice that `disableDefense` reads from a config value; nil without one, and nil when it does not
unmarshal. `read` says whether `GetConfig` succeeds. -/
def loadOriginals (read : Bool) (v : Value) : Slice Rule :=
  if read ∧ v ≠ .text [] then
    match v.unmarshal with
    | some rules => rules
    | none => none
  else none

def restoredRules (originals ingress : Slice Rule) : Slice Rule :=
  match originals with
  | some rules => some rules
  | none => if hasAllowAll (ingress.getD []) then ingress else some (ingress.getD [] ++ [allowAll])

/-! ## Calls -/

/-- Where a call stands; `todo` are the lists that it has still to update, and `saving` has just updated
its list. What follows the last update are writes that are only logged when they fail. -/
inductive Call
  | enabling (blacklist : List (List Char)) (todo : List Listed)
  | saving (blacklist : List (List Char)) (sl : Listed) (todo : List Listed)
  | disabling (items todo : List Listed)
  | writing (disable : Bool) (writes : List (Key × Value))
  deriving DecidableEq, Repr

/-- The answer to an update; `lost` has its effect, but the call sees an error. -/
inductive Answer
  | ok
  | lost
  | refused
  deriving DecidableEq, Repr

inductive Event
  | create (ingress egress : List Rule)
  | enable (blacklist : List (List Char)) (page : List Int)
  | disable (page : List Int)
  | block (a : Answer)
  | save (read ok : Bool)
  | restore (read : Bool) (a : Answer)
  | write (ok : Bool)
  | finish
  | cut
  deriving DecidableEq, Repr

/-- A security list as the service holds it. `before` are the ingress rules it had before the first
enable, or when it was created since; the code does not read them. -/
structure Row where
  ingress : List Rule
  egress : List Rule
  before : Option (List Rule) := none

def Row.listed (sdk : Sdk) (id : Int) (row : Row) : Listed :=
  ⟨id, sdk.returned row.ingress, sdk.returned row.egress⟩

/-- `UpdateSecurityList`. -/
def Row.update (sdk : Sdk) (ingress egress : Slice Rule) (row : Row) : Row :=
  { row with ingress := sdk.sent row.ingress ingress, egress := sdk.sent row.egress egress }

/-- `begun`: there was an enable. -/
structure Firewall where
  tenantID : Int
  vcnID : List Char
  rows : KeyTable Row
  config : Config := fun _ => .text []
  begun : Bool := false
  call : Option Call := none

/-- What `enableDefense` writes after its loop. -/
def enableWrites (tenantID : Int) (vcnID : List Char) (blacklist : List (List Char)) : List (Key × Value) :=
  [(.enabled, .text "true".toList), (.tenant, .text (toString tenantID).toList), (.vcn, .text vcnID),
    (.cidrs, .text (List.intercalate [','] blacklist))]

/-- What `disableDefense` writes after its loop. -/
def disableWrites (items : List Listed) : List (Key × Value) :=
  [(.enabled, .text "false".toList), (.tenant, .text []), (.vcn, .text []), (.cidrs, .text [])] ++
    items.map fun sl => (.originalRules sl.id, .text [])

namespace Firewall

def boot (tenantID : Int) (vcnID : List Char) (lists : KeyTable (List Rule × List Rule)) : Firewall where
  tenantID := tenantID
  vcnID := vcnID
  rows := lists.mapRows fun _ l => ⟨l.1, l.2, none⟩

/-- The first page of the lists, at most 100 of them, in the order of the service. -/
def listSecurityLists (sdk : Sdk) (f : Firewall) (page : List Int) : Option (List Listed) :=
  if page ≠ [] ∧ page.Nodup ∧ page.length ≤ 100 then
    page.mapM fun id => (f.rows.get id).map (Row.listed sdk id)
  else none

def create (f : Firewall) (ingress egress : List Rule) : Firewall :=
  { f with rows := f.rows.insert ⟨ingress, egress, if f.begun then some ingress else none⟩ }

/-- The first enable fixes what the lists had before. -/
def begin (f : Firewall) : Firewall :=
  { f with
    rows := f.rows.map fun row => { row with before := if f.begun then row.before else some row.ingress }
    begun := true }

def updateSecurityList (sdk : Sdk) (f : Firewall) (a : Answer) (id : Int) (ingress egress : Slice Rule) :
    Firewall :=
  if a = .refused then f else { f with rows := f.rows.update id (Row.update sdk ingress egress) }

def setConfig (f : Firewall) (ok : Bool) (k : Key) (v : Value) : Firewall :=
  if ok then { f with config := Function.update f.config k v } else f

/-- The originals are saved when `GetConfig` answers with the empty text, also by its error. -/
def saveOriginals (f : Firewall) (read ok : Bool) (sl : Listed) : Firewall :=
  if read ∧ f.config (.originalRules sl.id) ≠ .text [] then f
  else f.setConfig ok (.originalRules sl.id) (.json sl.ingress)

def setCall (f : Firewall) (call : Option Call) : Firewall := { f with call }

def step (sdk : Sdk) : StepRun.Step Firewall Event := fun f e =>
  match e, f.call with
  | .create ingress egress, _ => some (f.create ingress egress)
  | .enable blacklist page, none =>
    (f.listSecurityLists sdk page).map fun items => f.begin.setCall (some (.enabling blacklist items))
  | .disable page, none =>
    (f.listSecurityLists sdk page).map fun items => f.setCall (some (.disabling items items))
  | .block a, some (.enabling blacklist (sl :: todo)) =>
    some ((f.updateSecurityList sdk a sl.id (filteredRules blacklist sl.ingress) sl.egress).setCall
      (if a = .ok then some (.saving blacklist sl todo) else none))
  | .save read ok, some (.saving blacklist sl todo) =>
    some ((f.saveOriginals read ok sl).setCall (some (.enabling blacklist todo)))
  | .restore read a, some (.disabling items (sl :: todo)) =>
    some ((f.updateSecurityList sdk a sl.id
        (restoredRules (loadOriginals read (f.config (.originalRules sl.id))) sl.ingress) sl.egress).setCall
      (if a = .ok then some (.disabling items todo) else none))
  | .write ok, some (.writing disable ((k, v) :: writes)) =>
    some ((f.setConfig ok k v).setCall (some (.writing disable writes)))
  | .finish, some (.enabling blacklist []) =>
    some (f.setCall (some (.writing false (enableWrites f.tenantID f.vcnID blacklist))))
  | .finish, some (.disabling items []) => some (f.setCall (some (.writing true (disableWrites items))))
  | .finish, some (.writing _ []) => some (f.setCall none)
  | .cut, some _ => some (f.setCall none)
  | _, _ => none

end Firewall

end OciHelper.Defense
