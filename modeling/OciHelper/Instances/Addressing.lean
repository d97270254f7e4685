import OciHelper.Db.Tables
import OciHelper.Lib.CallTree
import OciHelper.Lib.Text
import OciHelper.Worker.Runner

/-!
# Which instance and which region

* `Op` : a lookup, an update, a call about an instance or a launch, with the key or the region it is made with;
* `clientForInstance` and the entry points, each as the tree of its operations;
* `StoredInstance` : a row with its tenant; `Op.Addresses` : an operation is about that row, in its region;
* `addressed_iff` : which entry points address the row, for which form of its id.

A loop that repeats a call is that call once, and what a request says besides its ids is a choice. The store
answers; a call to the service may fail.
-/

namespace OciHelper.Instances.Addressing
open Db CallTree
open OciHelper.Worker (bareOCID)

/-- The methods of the client that the entry points call. -/
inductive Api
  | getInstance
  | instanceAction
  | waitForState
  | terminateInstance
  | updateInstance
  | updateInstanceDisplayName
  | updateInstanceFreeformTags
  | updateRootPasswordTag
  | getBootVolumeAttachment
  | listBootVolumeAttachments
  | getBootVolume
  | updateBootVolume
  | createBootVolume
  | createBootVolumeFromImage
  | attachBootVolume
  | detachBootVolume
  | deleteBootVolume
  | createBootVolumeBackup
  | getBootVolumeBackup
  | deleteBootVolumeBackup
  | enableIPv6
  | disableIPv6
  | changeInstanceIP
  | enable500Mbps
  | disable500Mbps
  | createConsoleConnection
  | waitForConsoleConnectionActive
  | listConsoleConnections
  | deleteConsoleConnection
  | getInstanceVNICs
  | getMetrics
  | getVNICTtraffic
  | listImages
  | findImageForOS
  | ensurePublicSubnet
  | launchTaskInstance
  deriving DecidableEq, Repr

/-- `request` is the id in the request that a call is made for, `sent` the instance id in the call, if it has
one; `region` is that of the client. -/
inductive Op
  | lookup (instanceID : String)
  | update (instanceID : String)
  | call (api : Api) (region request : String) (sent : Option String)
  | launch (named region : String)
  deriving DecidableEq, Repr

/-! ## Clients -/

/-- A client in its region, for an id in a request and the OCID made of it. -/
structure Session where
  region : String
  request : String
  ocid : String

namespace Session

/-- A call with the OCID. -/
def on (s : Session) (api : Api) : Op := .call api s.region s.request (some s.ocid)

/-- A call about something that belongs to the instance. -/
def within (s : Session) (api : Api) : Op := .call api s.region s.request none

end Session

/-- The region of the tenant; there may be no client. -/
def clientFor (db : Tables) (tenantID : Int) (next : String → CallTree Op) : CallTree Op :=
  match db.tenants.get tenantID with
  | none => .done
  | some t => guarded (next t.region)

/-- The region of the stored row, if there is one. -/
def regionFor (db : Tables) (region instanceID : String) : String :=
  match db.instances.lookup instanceID with
  | none => region
  | some inst => if inst.region ≠ "" then inst.region else region

/-- The program ends if there is no such row. -/
def getInstanceByID (db : Tables) (instanceID : String) (next : Db.Instance → CallTree Op) : CallTree Op :=
  ignored (.lookup instanceID) <|
    match db.instances.lookup instanceID with
    | none => .done
    | some inst => next inst

def clientForInstance (db : Tables) (tenantID : Int) (instanceID : String) (next : Session → CallTree Op) :
    CallTree Op :=
  clientFor db tenantID fun region =>
    ignored (.lookup instanceID) <|
      match db.instances.lookup instanceID with
      | none => next ⟨region, instanceID, bareOCID instanceID⟩
      | some inst =>
        if inst.tenantID ≠ 0 ∧ inst.tenantID ≠ tenantID then .done
        else next ⟨if inst.region ≠ "" then inst.region else region, instanceID, bareOCID instanceID⟩

/-! ## The pages -/

section
variable (db : Tables) (tenantID : Int) (instanceID : String)

/-- `start`, `stop`, `reboot`, `softstop` and `softreset`, or `terminate`, which may ask for a captcha. -/
def handleInstanceAction : CallTree Op :=
  clientForInstance db tenantID instanceID fun s =>
    ignored (.lookup instanceID) <|
      let s := { s with region := regionFor db s.region instanceID }
      guarded <| .choice
        (required (s.on .instanceAction) <| ignored (.update instanceID) .done)
        (guarded <| required (s.on .terminateInstance) <| ignored (.update instanceID) .done)

/-- A handler that makes one call. -/
def oneCall (api : Api) : CallTree Op := clientForInstance db tenantID instanceID fun s => required (s.on api) .done

def handleChangeShape : CallTree Op := oneCall db tenantID instanceID .updateInstance

def handleUpdateShape : CallTree Op := oneCall db tenantID instanceID .updateInstance

def handleAttachIPv6 : CallTree Op := oneCall db tenantID instanceID .enableIPv6

def handleDisableIPv6 : CallTree Op := oneCall db tenantID instanceID .disableIPv6

def handleUpdateInstanceName : CallTree Op := oneCall db tenantID instanceID .updateInstanceDisplayName

def handleOneClickClose500M : CallTree Op := oneCall db tenantID instanceID .disable500Mbps

def handleUpdateRootPassword : CallTree Op := guarded <| oneCall db tenantID instanceID .updateRootPasswordTag

def handleOneClick500M : CallTree Op :=
  clientForInstance db tenantID instanceID fun s =>
    required (s.on .getInstance) <| guarded <| required (s.on .enable500Mbps) .done

def handleInstanceConfigUpdate : CallTree Op :=
  clientForInstance db tenantID instanceID fun s =>
    required (s.on .updateInstance) <| guarded <| required (s.on .updateInstanceDisplayName) .done

def handleChangeBootVolume : CallTree Op :=
  clientForInstance db tenantID instanceID fun s =>
    required (s.on .getBootVolumeAttachment) <| guarded <| required (s.within .updateBootVolume) .done

def handleStartVNC : CallTree Op :=
  clientForInstance db tenantID instanceID fun s =>
    guarded <| required (s.on .createConsoleConnection) <|
      required (s.within .waitForConsoleConnectionActive) .done

/-- The console connection is deleted in the end. -/
def handleVNCProxy : CallTree Op :=
  if tenantID = 0 ∨ instanceID = "" then .done
  else
    clientForInstance db tenantID instanceID fun s =>
      guarded <| required (s.on .createConsoleConnection) <| guarded <|
      ignored (s.within .waitForConsoleConnectionActive) <| ignored (s.within .deleteConsoleConnection) .done

def handleStopVNC : CallTree Op :=
  clientForInstance db tenantID instanceID fun s =>
    .choice (required (s.within .deleteConsoleConnection) .done)
      (required (s.on .listConsoleConnections) <| guarded <| ignored (s.within .deleteConsoleConnection) .done)

def handleInstanceConfigInfo : CallTree Op :=
  clientForInstance db tenantID instanceID fun s =>
    required (s.on .getInstance) <| ignored (s.on .getInstanceVNICs) <|
    ignored (s.on .listBootVolumeAttachments) <| guarded <| ignored (s.within .getBootVolume) .done

def handleMetrics : CallTree Op :=
  clientFor db tenantID fun region =>
    guarded <| ignored (.lookup instanceID) <|
      let s : Session := ⟨regionFor db region instanceID, instanceID, bareOCID instanceID⟩
      required (s.on .getInstance) <| required (s.on .getMetrics) .done

def handleShell : CallTree Op :=
  clientFor db tenantID fun region =>
    required ((⟨region, instanceID, instanceID⟩ : Session).on .getInstance) .done

/-- The request to attach a boot volume. -/
def handleBootVolumeByID : CallTree Op :=
  clientFor db tenantID fun region =>
    let ocid := match Text.splitN ':' 2 instanceID.toList with
      | [_, ocid] => String.ofList ocid
      | _ => instanceID
    guarded <| required ((⟨region, instanceID, ocid⟩ : Session).on .attachBootVolume) .done

/-- The way to a shell that is tried last; its cleanup deletes the console connection. -/
def connectViaConsoleProxy (tenant : Tenant) (inst : Db.Instance) : CallTree Op :=
  let s : Session := ⟨tenant.region, instanceID, inst.ocid⟩
  guarded <| required (s.on .createConsoleConnection) <|
    ignored (s.within .waitForConsoleConnectionActive) <| ignored (s.within .deleteConsoleConnection) .done

def handleShellWS : CallTree Op :=
  if tenantID = 0 ∨ instanceID = "" then .done
  else
    guarded <| match db.tenants.get tenantID with
      | none => .done
      | some tenant =>
        getInstanceByID db instanceID fun inst => guarded <| connectViaConsoleProxy instanceID tenant inst

/-- The bindings are looked up by the id of the instance. -/
def afterChangeIP : CallTree Op :=
  .choice (ignored (.update instanceID) .done) (ignored (.lookup instanceID) <| ignored (.update instanceID) .done)

def handleChangeIP : CallTree Op :=
  clientForInstance db tenantID instanceID fun s =>
    required (s.on .changeInstanceIP) <| afterChangeIP instanceID

/-- `{tenantID}:{ocid}` -/
def compositeID (tenantID : Int) (ocid : String) : String := toString tenantID ++ ":" ++ ocid

/-- An instance that ran is started again. -/
def restart (s : Session) (running : Bool) : CallTree Op :=
  if running then ignored (s.on .instanceAction) .done else .done

/-- The old boot volume is attached again. -/
def reattach (s : Session) (running : Bool) : CallTree Op := ignored (s.on .attachBootVolume) <| restart s running

def discard (s : Session) (running : Bool) : CallTree Op :=
  ignored (s.within .deleteBootVolume) <| reattach s running

/-- Step 11. -/
def saveBootVolumeSize : CallTree Op :=
  let instID := compositeID tenantID instanceID
  getInstanceByID db instID fun _ => ignored (.update instID) .done

/-- Steps 5 to 11. -/
def shrink (s : Session) (running : Bool) : CallTree Op :=
  .call (s.within .detachBootVolume) (restart s running) <|
  .call (s.within .createBootVolume) (reattach s running) <|
  .choice (reattach s running) <|
  .call (s.within .getBootVolume) (discard s running) <|
  .choice (discard s running) <|
  .call (s.on .attachBootVolume) (discard s running) <|
  ignored (s.within .deleteBootVolume) <|
    if running then required (s.on .instanceAction) <| saveBootVolumeSize db tenantID instanceID
    else saveBootVolumeSize db tenantID instanceID

def handleShrinkDisk : CallTree Op :=
  if tenantID = 0 ∨ instanceID = "" then .done
  else
    clientForInstance db tenantID instanceID fun s =>
      required (s.on .getInstance) <| guarded <|
      required (s.on .listBootVolumeAttachments) <| guarded <|
      required (s.within .getBootVolume) <| guarded <|
        .choice (shrink db tenantID instanceID s false)
          (required (s.on .instanceAction) <| required (s.on .waitForState) <| .choice
            (shrink db tenantID instanceID s false) (shrink db tenantID instanceID s true))

/-- The last step: the instance starts with its new boot volume. -/
def startRescued (s : Session) : CallTree Op :=
  required (s.on .instanceAction) <| ignored (s.on .waitForState) <| ignored (s.on .getInstanceVNICs) .done

/-- Steps 2 to 9; the temporary instance is another one, and the backup may be kept. -/
def rescueVolume (s : Session) : CallTree Op :=
  required (s.on .listBootVolumeAttachments) <| guarded <|
  required (s.within .createBootVolumeBackup) <| ignored (s.within .getBootVolumeBackup) <| guarded <|
  required (s.within .detachBootVolume) <| required (s.within .deleteBootVolume) <|
  required (s.within .ensurePublicSubnet) <| guarded <| required (s.within .findImageForOS) <|
  required (s.within .launchTaskInstance) <| required (s.within .waitForState) <|
  required (s.within .listBootVolumeAttachments) <| guarded <|
  required (s.within .createBootVolume) <| ignored (s.within .getBootVolume) <| guarded <|
  required (s.on .attachBootVolume) <| ignored (s.within .terminateInstance) <|
  .choice (startRescued s) (ignored (s.within .deleteBootVolumeBackup) <| startRescued s)

def runAutoRescue (s : Session) : CallTree Op :=
  guarded <| required (s.on .getInstance) <| guarded <|
    .choice (rescueVolume s) (required (s.on .instanceAction) <| required (s.on .waitForState) <| rescueVolume s)

def handleAutoRescue : CallTree Op :=
  clientForInstance db tenantID instanceID fun s =>
    getInstanceByID db (compositeID tenantID instanceID) fun _ => runAutoRescue s

/-- Step 3 of the two handlers below. -/
def stopped (s : Session) (next : CallTree Op) : CallTree Op :=
  .choice (required (s.on .instanceAction) <| required (s.on .waitForState) next) (guarded next)

/-- Steps 9 to 12. -/
def bootRescue (s : Session) : CallTree Op :=
  .call (s.within .createBootVolumeFromImage) (ignored (s.on .attachBootVolume) .done) <|
  .call (s.on .attachBootVolume)
    (ignored (s.within .deleteBootVolume) <| ignored (s.on .attachBootVolume) .done) <|
  ignored (s.on .updateInstanceFreeformTags) <| required (s.on .instanceAction) .done

def handleNetbootRescue : CallTree Op :=
  if tenantID = 0 ∨ instanceID = "" then .done
  else
    clientForInstance db tenantID instanceID fun s =>
      required (s.on .getInstance) <| guarded <| stopped s <|
      required (s.on .getBootVolumeAttachment) <| guarded <|
      required (s.on .getInstanceVNICs) <| guarded <| required (s.within .detachBootVolume) <|
        -- a request without an image takes the first one there is
        .choice (bootRescue s)
          (.call (s.within .listImages) (ignored (s.on .attachBootVolume) .done) <|
            .choice (ignored (s.on .attachBootVolume) .done) (bootRescue s))

def handleNetbootRescueStop : CallTree Op :=
  if tenantID = 0 ∨ instanceID = "" then .done
  else
    clientForInstance db tenantID instanceID fun s =>
      required (s.on .getInstance) <| guarded <| stopped s <|
      required (s.on .getBootVolumeAttachment) <| required (s.within .detachBootVolume) <|
      required (s.on .attachBootVolume) <| ignored (s.on .updateInstanceFreeformTags) <|
      .choice (required (s.on .instanceAction) .done)
        (ignored (s.within .deleteBootVolume) <| required (s.on .instanceAction) .done)

/-! ## Tasks in memory and batches -/

def runChangeIPAttempt : CallTree Op :=
  guarded <| clientFor db tenantID fun region =>
    ignored (.lookup instanceID) <|
      let s : Session := ⟨regionFor db region instanceID, instanceID, bareOCID instanceID⟩
      required (s.on .changeInstanceIP) <| afterChangeIP instanceID

def runUpdateCfgAttempt : CallTree Op :=
  guarded <| clientFor db tenantID fun region =>
    guarded <| required ((⟨region, instanceID, instanceID⟩ : Session).on .updateInstance) .done

end

/-- The loop over the instances; a pause or a shutdown ends it. -/
def startInstances (region : String) : List String → CallTree Op
  | [] => .done
  | instanceID :: rest =>
    let s : Session := ⟨region, instanceID, bareOCID instanceID⟩
    guarded <| .call (s.on .getInstance) (startInstances region rest) <|
      ignored (s.on .instanceAction) (startInstances region rest)

def runBatchStart (db : Tables) (tenantID : Int) (instanceIDs : List String) : CallTree Op :=
  clientFor db tenantID fun region => startInstances region instanceIDs

/-- `LaunchInstance` does not look at the region that it is given. -/
def launchInstances (region named : String) : Nat → CallTree Op
  | 0 => .done
  | n + 1 => guarded <| ignored (.launch named region) (launchInstances region named n)

def runBatchCreate (db : Tables) (tenantID : Int) (named : String) (instances : Nat) : CallTree Op :=
  clientFor db tenantID fun region => launchInstances region named instances

/-! ## Launches -/

/-- The launch in `handleInstances`. -/
def createInstance (db : Tables) (tenantID : Int) (named : String) : CallTree Op :=
  clientFor db tenantID fun region =>
    required (.launch named (if named ≠ "" then named else region)) .done

/-- The launches are made one after the other. -/
def runCreateTask (db : Tables) (tenantID : Int) (named : String) : CallTree Op :=
  clientFor db tenantID fun region =>
    guarded <| ignored (.launch named (if named ≠ "" then named else region)) .done

/-! ## Telegram -/

/-- `strings.SplitN(inst.OCID, ":", 2)`, the last part. -/
def lastPart (ocid : String) : String := String.ofList ((Text.splitN ':' 2 ocid.toList).getLastD [])

def tgPerformAction (db : Tables) (instanceID : String) : CallTree Op :=
  getInstanceByID db instanceID fun inst =>
    clientFor db inst.tenantID fun region =>
      guarded <| required ((⟨region, instanceID, lastPart inst.ocid⟩ : Session).on .instanceAction) .done

def tgTerminateDo (db : Tables) (instanceID : String) : CallTree Op :=
  getInstanceByID db instanceID fun inst =>
    clientFor db inst.tenantID fun region =>
      required ((⟨region, instanceID, bareOCID instanceID⟩ : Session).on .terminateInstance) <|
        ignored (.update instanceID) .done

def tgTrafficQuery (db : Tables) (instanceID : String) : CallTree Op :=
  getInstanceByID db instanceID fun inst =>
    clientFor db inst.tenantID fun region =>
      let s : Session := ⟨region, instanceID, bareOCID instanceID⟩
      required (s.on .getInstanceVNICs) <| guarded <| ignored (s.within .getVNICTtraffic) .done

/-! ## Ids -/

theorem colon_notMem_toString (n : Int) : ':' ∉ (toString n).toList := by
  have hnat : ∀ m : Nat, ':' ∉ (toString m).toList := by
    intro m h
    have hm : ':' ∈ Nat.toDigits 10 m := by simpa using h
    have hd : ':'.isDigit = true := Nat.isDigit_of_mem_toDigits (by omega) (by omega) hm
    exact absurd hd (by decide)
  cases n with
  | ofNat m => exact hnat m
  | negSucc m =>
    intro h
    have hm : ':' ∈ ("-" ++ toString (m + 1)).toList := h
    rw [String.toList_append, List.mem_append] at hm
    obtain hm | hm := hm
    · exact absurd hm (by decide)
    · exact hnat _ hm

section
variable {tenantID : Int} {ocid : String}

theorem toList_compositeID : (compositeID tenantID ocid).toList = (toString tenantID).toList ++ ':' :: ocid.toList := by
  unfold compositeID
  rw [String.toList_append, String.toList_append, List.append_assoc]
  rfl

theorem bareOCID_compositeID : bareOCID (compositeID tenantID ocid) = ocid := by
  have hall : ∀ c ∈ (toString tenantID).toList, decide (c ≠ ':') = true := by
    intro c hc
    exact decide_eq_true fun h => colon_notMem_toString tenantID (h ▸ hc)
  unfold bareOCID
  rw [toList_compositeID, List.dropWhile_append_of_pos hall, List.dropWhile_cons_of_neg (by simp)]
  exact String.ofList_toList

theorem bareOCID_of_notMem (h : ':' ∉ ocid.toList) : bareOCID ocid = ocid := by
  have hdrop : ocid.toList.dropWhile (· ≠ ':') = [] := by
    apply List.dropWhile_eq_nil_iff.mpr
    intro c hc
    exact decide_eq_true fun e => h (e ▸ hc)
  unfold bareOCID
  rw [hdrop]

theorem compositeID_ne : compositeID tenantID ocid ≠ ocid := by
  intro h
  have hlen := congrArg (fun s => s.toList.length) h
  simp only [toList_compositeID, List.length_append, List.length_cons] at hlen
  omega

theorem lastPart_of_notMem (h : ':' ∉ ocid.toList) : lastPart ocid = ocid := by
  unfold lastPart
  rw [Text.splitN_of_notMem ':' 1 h]
  exact String.ofList_toList

end

/-! ## A stored instance -/

/-- The two forms of the id of an instance in a request. -/
inductive IdForm
  | bare
  | composite
  deriving DecidableEq, Repr

/-- A row with its tenant; the row has its own region, and an OCID never contains a colon. -/
structure StoredInstance (db : Tables) where
  row : Db.Instance
  tenant : Tenant
  stored : db.instances.lookup (compositeID row.tenantID row.ocid) = some row
  owned : db.tenants.get row.tenantID = some tenant
  tenantID_ne : row.tenantID ≠ 0
  region_ne : row.region ≠ ""
  ocid_ne : row.ocid ≠ ""
  colon : ':' ∉ row.ocid.toList

namespace StoredInstance
variable {db : Tables} (r : StoredInstance db) (form : IdForm)

def key : String := compositeID r.row.tenantID r.row.ocid

def id : IdForm → String
  | .bare => r.row.ocid
  | .composite => r.key

theorem id_eq_key_iff : r.id form = r.key ↔ form = .composite := by
  cases form with
  | bare => exact iff_of_false (fun h => compositeID_ne h.symm) nofun
  | composite => exact iff_of_true rfl rfl

theorem id_eq_ocid_iff : r.id form = r.row.ocid ↔ form = .bare := by
  cases form with
  | bare => exact iff_of_true rfl rfl
  | composite => exact iff_of_false compositeID_ne nofun

theorem bareOCID_id : bareOCID (r.id form) = r.row.ocid := by
  cases form with
  | bare => exact bareOCID_of_notMem r.colon
  | composite => exact bareOCID_compositeID

theorem id_ne : r.id form ≠ "" := by
  intro h
  have hocid := r.bareOCID_id form
  rw [h] at hocid
  exact r.ocid_ne hocid.symm

end StoredInstance

/-- The operation is about the row and in its region, if it is one for `id`. -/
def Op.Addresses {db : Tables} (r : StoredInstance db) (id : String) : Op → Prop
  | .lookup instanceID => instanceID = r.key
  | .update instanceID => instanceID = r.key
  | .call _ region request sent => request = id → region = r.row.region ∧ ∀ ocid ∈ sent, ocid = r.row.ocid
  | .launch named region => named = "" ∨ region = named

inductive EntryPoint
  | handleInstanceAction
  | handleChangeShape
  | handleUpdateShape
  | handleAttachIPv6
  | handleDisableIPv6
  | handleUpdateInstanceName
  | handleUpdateRootPassword
  | handleOneClick500M
  | handleOneClickClose500M
  | handleInstanceConfigUpdate
  | handleInstanceConfigInfo
  | handleChangeBootVolume
  | handleBootVolumeByID
  | handleStartVNC
  | handleVNCProxy
  | handleStopVNC
  | handleMetrics
  | handleShell
  | handleShellWS
  | handleChangeIP
  | handleShrinkDisk
  | handleAutoRescue
  | handleNetbootRescue
  | handleNetbootRescueStop
  | runChangeIPAttempt
  | runUpdateCfgAttempt
  | runBatchStart (before after : List String)
  | runBatchCreate (named : String) (instances : Nat)
  | createInstance (named : String)
  | runCreateTask (named : String)
  | tgPerformAction
  | tgTerminateDo
  | tgTrafficQuery

namespace EntryPoint

/-- The code of an entry point; a batch starts other instances too. -/
def code (db : Tables) (tenantID : Int) (id : String) : EntryPoint → CallTree Op
  | handleInstanceAction => Addressing.handleInstanceAction db tenantID id
  | handleChangeShape => Addressing.handleChangeShape db tenantID id
  | handleUpdateShape => Addressing.handleUpdateShape db tenantID id
  | handleAttachIPv6 => Addressing.handleAttachIPv6 db tenantID id
  | handleDisableIPv6 => Addressing.handleDisableIPv6 db tenantID id
  | handleUpdateInstanceName => Addressing.handleUpdateInstanceName db tenantID id
  | handleUpdateRootPassword => Addressing.handleUpdateRootPassword db tenantID id
  | handleOneClick500M => Addressing.handleOneClick500M db tenantID id
  | handleOneClickClose500M => Addressing.handleOneClickClose500M db tenantID id
  | handleInstanceConfigUpdate => Addressing.handleInstanceConfigUpdate db tenantID id
  | handleInstanceConfigInfo => Addressing.handleInstanceConfigInfo db tenantID id
  | handleChangeBootVolume => Addressing.handleChangeBootVolume db tenantID id
  | handleBootVolumeByID => Addressing.handleBootVolumeByID db tenantID id
  | handleStartVNC => Addressing.handleStartVNC db tenantID id
  | handleVNCProxy => Addressing.handleVNCProxy db tenantID id
  | handleStopVNC => Addressing.handleStopVNC db tenantID id
  | handleMetrics => Addressing.handleMetrics db tenantID id
  | handleShell => Addressing.handleShell db tenantID id
  | handleShellWS => Addressing.handleShellWS db tenantID id
  | handleChangeIP => Addressing.handleChangeIP db tenantID id
  | handleShrinkDisk => Addressing.handleShrinkDisk db tenantID id
  | handleAutoRescue => Addressing.handleAutoRescue db tenantID id
  | handleNetbootRescue => Addressing.handleNetbootRescue db tenantID id
  | handleNetbootRescueStop => Addressing.handleNetbootRescueStop db tenantID id
  | runChangeIPAttempt => Addressing.runChangeIPAttempt db tenantID id
  | runUpdateCfgAttempt => Addressing.runUpdateCfgAttempt db tenantID id
  | runBatchStart before after => Addressing.runBatchStart db tenantID (before ++ id :: after)
  | runBatchCreate named instances => Addressing.runBatchCreate db tenantID named instances
  | createInstance named => Addressing.createInstance db tenantID named
  | runCreateTask named => Addressing.runCreateTask db tenantID named
  | tgPerformAction => Addressing.tgPerformAction db id
  | tgTerminateDo => Addressing.tgTerminateDo db id
  | tgTrafficQuery => Addressing.tgTrafficQuery db id

/-- When all operations address the row. -/
def Addressed {db : Tables} (r : StoredInstance db) (form : IdForm) : EntryPoint → Prop
  -- both look up the key with the tenant put before it once more, or the bare OCID
  | handleShrinkDisk | handleAutoRescue => False
  -- the id goes into the call as it is, and the region stays that of the tenant
  | handleShell | runUpdateCfgAttempt => form = .bare ∧ r.tenant.region = r.row.region
  | handleBootVolumeByID | runBatchStart _ _ => r.tenant.region = r.row.region
  | handleShellWS | tgPerformAction | tgTerminateDo | tgTrafficQuery =>
    form = .composite ∧ r.tenant.region = r.row.region
  | runBatchCreate named instances => instances = 0 ∨ named = "" ∨ named = r.tenant.region
  | createInstance _ | runCreateTask _ => True
  | _ => form = .composite

end EntryPoint

/-! ## Which entry points address the row -/

section
variable {db : Tables} (r : StoredInstance db) (form : IdForm)

/-- A client in the region of the row, with its OCID. -/
def StoredInstance.session : Session := ⟨r.row.region, r.id form, r.row.ocid⟩

@[simp] theorem session_request : (r.session form).request = r.id form := rfl

@[simp] theorem session_ocid : (r.session form).ocid = r.row.ocid := rfl

@[simp] theorem on_session (api : Api) : ((r.session form).on api).Addresses r (r.id form) := by
  intro _
  exact ⟨rfl, fun _ h => (Option.some.inj h).symm⟩

@[simp] theorem within_session (api : Api) : ((r.session form).within api).Addresses r (r.id form) := by
  intro _
  exact ⟨rfl, nofun⟩

@[simp] theorem lookup_addresses (id : String) : (Op.lookup (r.id form)).Addresses r id ↔ form = .composite :=
  r.id_eq_key_iff form

@[simp] theorem update_addresses (id : String) : (Op.update (r.id form)).Addresses r id ↔ form = .composite :=
  r.id_eq_key_iff form

theorem on_addresses (api : Api) (region ocid : String) :
    ((⟨region, r.id form, ocid⟩ : Session).on api).Addresses r (r.id form) ↔
      region = r.row.region ∧ ocid = r.row.ocid := by
  constructor
  · intro h
    exact ⟨(h rfl).1, (h rfl).2 _ rfl⟩
  · rintro ⟨rfl, rfl⟩
    exact on_session r form api

theorem within_addresses (api : Api) (region ocid : String) :
    ((⟨region, r.id form, ocid⟩ : Session).within api).Addresses r (r.id form) ↔ region = r.row.region := by
  constructor
  · intro h
    exact (h rfl).1
  · rintro rfl
    exact fun _ => ⟨rfl, nofun⟩

theorem lookup_again (id : String) :
    (Op.lookup (compositeID r.row.tenantID (r.id form))).Addresses r id ↔ form = .bare := by
  cases form with
  | bare => exact iff_of_true rfl rfl
  | composite => exact iff_of_false compositeID_ne nofun

theorem all_clientFor {next : String → CallTree Op} {P : Op → Prop} :
    (clientFor db r.row.tenantID next).All P ↔ (next r.tenant.region).All P := by
  unfold clientFor
  rw [r.owned]
  exact all_guarded

theorem regionFor_id (region : String) : regionFor db region (r.id .composite) = r.row.region := by
  have hl : db.instances.lookup (r.id .composite) = some r.row := r.stored
  unfold regionFor
  rw [hl]
  exact if_pos r.region_ne

/-- With the composite id the client is set to the region of the row. -/
theorem all_clientForInstance {next : Session → CallTree Op} :
    (clientForInstance db r.row.tenantID (r.id form) next).All (Op.Addresses r (r.id form)) ↔
      form = .composite ∧ (next (r.session form)).All (Op.Addresses r (r.id form)) := by
  unfold clientForInstance
  rw [all_clientFor, all_ignored, lookup_addresses]
  apply and_congr_right
  rintro rfl
  have hl : db.instances.lookup (r.id .composite) = some r.row := r.stored
  have hown : ¬(r.row.tenantID ≠ 0 ∧ r.row.tenantID ≠ r.row.tenantID) := fun h => h.2 rfl
  rw [hl]
  simp only [if_neg hown, if_pos r.region_ne, r.bareOCID_id]
  exact Iff.rfl

theorem all_clientForInstance_iff {next : Session → CallTree Op}
    (h : (next (r.session form)).All (Op.Addresses r (r.id form))) :
    (clientForInstance db r.row.tenantID (r.id form) next).All (Op.Addresses r (r.id form)) ↔ form = .composite :=
  (all_clientForInstance r form).trans (and_iff_left h)

theorem all_oneCall (api : Api) :
    (oneCall db r.row.tenantID (r.id form) api).All (Op.Addresses r (r.id form)) ↔ form = .composite :=
  all_clientForInstance_iff r form (by simp)

theorem all_afterChangeIP (id : String) :
    (afterChangeIP (r.id form)).All (Op.Addresses r id) ↔ form = .composite := by
  unfold afterChangeIP
  simp

@[simp] theorem all_restart (running : Bool) :
    (restart (r.session form) running).All (Op.Addresses r (r.id form)) := by
  cases running <;> simp [restart]

/-- A composite id gets the tenant once more. -/
theorem all_saveBootVolumeSize :
    (saveBootVolumeSize db r.row.tenantID (r.id form)).All (Op.Addresses r (r.id form)) ↔ form = .bare := by
  simp only [saveBootVolumeSize, getInstanceByID, all_ignored, lookup_again]
  apply and_iff_left_of_imp
  rintro rfl
  split
  · exact trivial
  · simp [Op.Addresses, StoredInstance.key, StoredInstance.id]

theorem all_shrink (running : Bool) :
    (shrink db r.row.tenantID (r.id form) (r.session form) running).All (Op.Addresses r (r.id form)) ↔
      form = .bare := by
  cases running <;> simp [shrink, reattach, discard, all_saveBootVolumeSize]

theorem not_all_handleShrinkDisk :
    ¬(handleShrinkDisk db r.row.tenantID (r.id form)).All (Op.Addresses r (r.id form)) := by
  have hgiven : ¬(r.row.tenantID = 0 ∨ r.id form = "") := fun h => h.elim r.tenantID_ne (r.id_ne form)
  unfold handleShrinkDisk
  rw [if_neg hgiven, all_clientForInstance]
  rintro ⟨rfl, h⟩
  simp [all_shrink] at h

theorem not_all_handleAutoRescue :
    ¬(handleAutoRescue db r.row.tenantID (r.id form)).All (Op.Addresses r (r.id form)) := by
  unfold handleAutoRescue
  rw [all_clientForInstance]
  rintro ⟨rfl, h⟩
  have hl := (all_ignored.mp h).1
  cases (lookup_again r .composite _).mp hl

/-- Induction on the instances; only the calls for the id say something about the row. -/
theorem all_startInstances (region : String) (ids : List String) :
    (startInstances region ids).All (Op.Addresses r (r.id form)) ↔
      (r.id form ∈ ids → region = r.row.region) := by
  induction ids with
  | nil => simp [startInstances]
  | cons first rest ih =>
    unfold startInstances
    by_cases hfirst : first = r.id form
    · subst hfirst
      simp only [all_guarded, all_call, all_ignored, on_addresses, ih, r.bareOCID_id]
      constructor
      · intro h _
        exact h.1.1
      · intro h
        have hregion := h (List.mem_cons_self ..)
        exact ⟨⟨hregion, trivial⟩, fun _ => hregion, ⟨hregion, trivial⟩, fun _ => hregion⟩
    · have hother : ∀ api, ((⟨region, first, bareOCID first⟩ : Session).on api).Addresses r (r.id form) :=
        fun _ h => absurd h hfirst
      have hmem : r.id form ∈ first :: rest ↔ r.id form ∈ rest := by
        rw [List.mem_cons]
        exact or_iff_right fun h => hfirst h.symm
      simp only [all_guarded, all_call, all_ignored, hother, ih, hmem]
      simp

theorem all_launchInstances (region id named : String) (n : Nat) :
    (launchInstances region named n).All (Op.Addresses r id) ↔ n = 0 ∨ named = "" ∨ named = region := by
  induction n with
  | zero => simp [launchInstances]
  | succ n ih =>
    simp only [launchInstances, all_guarded, all_ignored, ih, Op.Addresses, eq_comm (a := region)]
    constructor
    · exact fun h => Or.inr h.1
    · rintro (h | h)
      · cases h
      · exact ⟨h, Or.inr h⟩

theorem launch_addresses (id named region : String) :
    (Op.launch named (if named ≠ "" then named else region)).Addresses r id := by
  by_cases h : named = ""
  · exact Or.inl h
  · exact Or.inr (if_pos h)

/-- The part of an id after its colon. -/
theorem splitN_id :
    (match Text.splitN ':' 2 (r.id form).toList with
      | [_, ocid] => String.ofList ocid
      | _ => r.id form) = r.row.ocid := by
  cases form with
  | bare =>
    rw [StoredInstance.id, Text.splitN_of_notMem ':' 1 r.colon]
  | composite =>
    rw [StoredInstance.id, StoredInstance.key, toList_compositeID,
      Text.splitN_append ':' 0 (colon_notMem_toString _)]
    exact String.ofList_toList

theorem all_getInstanceByID {next : Db.Instance → CallTree Op} :
    (getInstanceByID db (r.id form) next).All (Op.Addresses r (r.id form)) ↔
      form = .composite ∧ (next r.row).All (Op.Addresses r (r.id form)) := by
  unfold getInstanceByID
  rw [all_ignored, lookup_addresses]
  apply and_congr_right
  rintro rfl
  have hl : db.instances.lookup (r.id .composite) = some r.row := r.stored
  rw [hl]

theorem all_handleInstanceAction :
    (handleInstanceAction db r.row.tenantID (r.id form)).All (Op.Addresses r (r.id form)) ↔ form = .composite := by
  unfold handleInstanceAction
  rw [all_clientForInstance]
  apply and_iff_left_of_imp
  rintro rfl
  simp [regionFor_id, on_addresses]

theorem all_handleMetrics :
    (handleMetrics db r.row.tenantID (r.id form)).All (Op.Addresses r (r.id form)) ↔ form = .composite := by
  simp only [handleMetrics, all_clientFor, all_guarded, all_ignored, lookup_addresses]
  apply and_iff_left_of_imp
  rintro rfl
  simp [regionFor_id, on_addresses, r.bareOCID_id]

theorem all_handleChangeIP :
    (handleChangeIP db r.row.tenantID (r.id form)).All (Op.Addresses r (r.id form)) ↔ form = .composite := by
  unfold handleChangeIP
  rw [all_clientForInstance, all_required, all_afterChangeIP]
  simp

theorem all_runChangeIPAttempt :
    (runChangeIPAttempt db r.row.tenantID (r.id form)).All (Op.Addresses r (r.id form)) ↔ form = .composite := by
  simp only [runChangeIPAttempt, all_clientFor, all_guarded, all_ignored, lookup_addresses]
  apply and_iff_left_of_imp
  rintro rfl
  simp [regionFor_id, on_addresses, r.bareOCID_id, all_afterChangeIP]

theorem all_handleNetbootRescue :
    (handleNetbootRescue db r.row.tenantID (r.id form)).All (Op.Addresses r (r.id form)) ↔ form = .composite := by
  have hgiven : ¬(r.row.tenantID = 0 ∨ r.id form = "") := fun h => h.elim r.tenantID_ne (r.id_ne form)
  unfold handleNetbootRescue
  rw [if_neg hgiven]
  exact all_clientForInstance_iff r form (by simp [stopped, bootRescue])

theorem all_handleNetbootRescueStop :
    (handleNetbootRescueStop db r.row.tenantID (r.id form)).All (Op.Addresses r (r.id form)) ↔
      form = .composite := by
  have hgiven : ¬(r.row.tenantID = 0 ∨ r.id form = "") := fun h => h.elim r.tenantID_ne (r.id_ne form)
  unfold handleNetbootRescueStop
  rw [if_neg hgiven]
  exact all_clientForInstance_iff r form (by simp [stopped])

theorem all_handleVNCProxy :
    (handleVNCProxy db r.row.tenantID (r.id form)).All (Op.Addresses r (r.id form)) ↔ form = .composite := by
  have hgiven : ¬(r.row.tenantID = 0 ∨ r.id form = "") := fun h => h.elim r.tenantID_ne (r.id_ne form)
  unfold handleVNCProxy
  rw [if_neg hgiven]
  exact all_clientForInstance_iff r form (by simp)

theorem all_handleShellWS :
    (handleShellWS db r.row.tenantID (r.id form)).All (Op.Addresses r (r.id form)) ↔
      form = .composite ∧ r.tenant.region = r.row.region := by
  have hgiven : ¬(r.row.tenantID = 0 ∨ r.id form = "") := fun h => h.elim r.tenantID_ne (r.id_ne form)
  unfold handleShellWS
  rw [if_neg hgiven, all_guarded, r.owned]
  simp only [all_getInstanceByID, connectViaConsoleProxy, all_guarded, all_required, all_ignored, on_addresses,
    within_addresses]
  simp

/-- **An entry point addresses the row exactly in these cases.** -/
theorem addressed_iff (e : EntryPoint) :
    (∀ answers, ∀ op ∈ (e.code db r.row.tenantID (r.id form)).run answers, op.Addresses r (r.id form)) ↔
      e.Addressed r form := by
  rw [forall_run_iff]
  cases e with
  | handleInstanceAction => exact all_handleInstanceAction r form
  | handleChangeShape => exact all_oneCall r form _
  | handleUpdateShape => exact all_oneCall r form _
  | handleAttachIPv6 => exact all_oneCall r form _
  | handleDisableIPv6 => exact all_oneCall r form _
  | handleUpdateInstanceName => exact all_oneCall r form _
  | handleUpdateRootPassword => exact all_guarded.trans (all_oneCall r form _)
  | handleOneClick500M =>
    simp only [EntryPoint.code, Addressing.handleOneClick500M]
    exact all_clientForInstance_iff r form (by simp)
  | handleOneClickClose500M => exact all_oneCall r form _
  | handleInstanceConfigUpdate =>
    simp only [EntryPoint.code, Addressing.handleInstanceConfigUpdate]
    exact all_clientForInstance_iff r form (by simp)
  | handleInstanceConfigInfo =>
    simp only [EntryPoint.code, Addressing.handleInstanceConfigInfo]
    exact all_clientForInstance_iff r form (by simp)
  | handleChangeBootVolume =>
    simp only [EntryPoint.code, Addressing.handleChangeBootVolume]
    exact all_clientForInstance_iff r form (by simp)
  | handleBootVolumeByID =>
    simp only [EntryPoint.code, Addressing.handleBootVolumeByID, all_clientFor, all_guarded, all_required,
      on_addresses, splitN_id]
    simp [EntryPoint.Addressed]
  | handleStartVNC =>
    simp only [EntryPoint.code, Addressing.handleStartVNC]
    exact all_clientForInstance_iff r form (by simp)
  | handleVNCProxy => exact all_handleVNCProxy r form
  | handleStopVNC =>
    simp only [EntryPoint.code, Addressing.handleStopVNC]
    exact all_clientForInstance_iff r form (by simp)
  | handleMetrics => exact all_handleMetrics r form
  | handleShell =>
    simp only [EntryPoint.code, Addressing.handleShell, all_clientFor, all_required, on_addresses,
      r.id_eq_ocid_iff]
    simp [EntryPoint.Addressed, and_comm]
  | handleShellWS => exact all_handleShellWS r form
  | handleChangeIP => exact all_handleChangeIP r form
  | handleShrinkDisk => exact iff_of_false (not_all_handleShrinkDisk r form) id
  | handleAutoRescue => exact iff_of_false (not_all_handleAutoRescue r form) id
  | handleNetbootRescue => exact all_handleNetbootRescue r form
  | handleNetbootRescueStop => exact all_handleNetbootRescueStop r form
  | runChangeIPAttempt => exact all_runChangeIPAttempt r form
  | runUpdateCfgAttempt =>
    simp only [EntryPoint.code, Addressing.runUpdateCfgAttempt, all_clientFor, all_guarded, all_required,
      on_addresses, r.id_eq_ocid_iff]
    simp [EntryPoint.Addressed, and_comm]
  | runBatchStart before after =>
    simp only [EntryPoint.code, Addressing.runBatchStart, all_clientFor, all_startInstances]
    simp [EntryPoint.Addressed]
  | runBatchCreate named instances =>
    simp only [EntryPoint.code, Addressing.runBatchCreate, all_clientFor, all_launchInstances]
    exact Iff.rfl
  | createInstance named =>
    simp only [EntryPoint.code, Addressing.createInstance, all_clientFor, all_required]
    exact iff_of_true ⟨launch_addresses r _ _ _, trivial⟩ trivial
  | runCreateTask named =>
    simp only [EntryPoint.code, Addressing.runCreateTask, all_clientFor, all_guarded, all_ignored]
    exact iff_of_true ⟨launch_addresses r _ _ _, trivial⟩ trivial
  | tgPerformAction =>
    simp only [EntryPoint.code, Addressing.tgPerformAction, all_getInstanceByID, all_clientFor, all_guarded,
      all_required, on_addresses, lastPart_of_notMem r.colon]
    simp [EntryPoint.Addressed]
  | tgTerminateDo =>
    simp only [EntryPoint.code, Addressing.tgTerminateDo, all_getInstanceByID, all_clientFor, all_ignored,
      all_required, on_addresses, r.bareOCID_id, update_addresses]
    simp +contextual [EntryPoint.Addressed]
  | tgTrafficQuery =>
    simp only [EntryPoint.code, Addressing.tgTrafficQuery, all_getInstanceByID, all_clientFor, all_guarded,
      all_required, all_ignored, on_addresses, within_addresses, r.bareOCID_id]
    simp [EntryPoint.Addressed]

end

/-- A tenant with an instance in another region. -/
def twoRegions : Tables where
  tenants := KeyTable.empty.insert { name := "acme", region := "us-ashburn-1" }
  instances := AList.insert "1:ocid1.instance" { tenantID := 1, ocid := "ocid1.instance", region := "eu-frankfurt-1" } ∅

def inFrankfurt : StoredInstance twoRegions where
  row := { tenantID := 1, ocid := "ocid1.instance", region := "eu-frankfurt-1" }
  tenant := { name := "acme", region := "us-ashburn-1" }
  stored := by decide
  owned := rfl
  tenantID_ne := by decide
  region_ne := by decide
  ocid_ne := by decide
  colon := by decide

/-- The task is made with the composite id, which goes to the region of the tenant as it is. -/
theorem updateCfg_unaddressed :
    ¬∀ answers, ∀ op ∈ (EntryPoint.runUpdateCfgAttempt.code twoRegions inFrankfurt.row.tenantID
      (inFrankfurt.id .composite)).run answers, op.Addresses inFrankfurt (inFrankfurt.id .composite) := by
  intro h
  let id := inFrankfurt.id .composite
  have hop := h (fun _ => true) (.call .updateInstance "us-ashburn-1" id (some id)) (List.mem_singleton_self _)
  have hregion : "us-ashburn-1" = "eu-frankfurt-1" := (hop rfl).1
  exact absurd hregion (by decide)

end OciHelper.Instances.Addressing
