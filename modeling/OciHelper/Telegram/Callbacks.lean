import Mathlib.Data.List.Basic
import OciHelper.Lib.Text

/-!
# Telegram callbacks

* `Word`, `Part` : the words of a callback string, and what stands between its colons;
* `Arm`, `Arm.guard`, `Arm.args` : the cases of the switch, their conditions and what they pass on;
* `handleTGCallback` : the first case whose condition holds;
* `Keyboard`, `Keyboard.buttons` : the keyboards and their buttons, each with the case that it was built for;
* `buttons_routed_iff` : which buttons select that case, and which cases are never selected.

The bodies of the cases and the texts of the buttons are left out.
-/

namespace OciHelper.Telegram
open Text

/-! ## Parts -/

inductive Word
  | main
  | cancel
  | status
  | help
  | ai
  | mfa
  | enable
  | disable
  | create
  | tenant
  | instances
  | detail
  | action
  | terminate
  | confirm
  | keep
  | del
  | tasks
  | defense
  | vcn
  | blacklist
  | add
  | remove
  | clear
  | sshkeys
  | generate
  | backup
  | vnc
  | openVnc
  | traffic
  | query
  | volumes
  | update
  | plans
  | logs
  | version
  | checkalive
  | doCheck
  | cfg
  | list
  | sysmetrics
  | model
  | setModel
  | restore
  | ssh
  | start
  | stop
  | reboot
  | softreset
  | deepseekR1
  | deepseekV3
  | qwen
  deriving DecidableEq, Repr

namespace Word

def text : Word → List Char
  | .main => ['m', 'a', 'i', 'n']
  | .cancel => ['c', 'a', 'n', 'c', 'e', 'l']
  | .status => ['s', 't', 'a', 't', 'u', 's']
  | .help => ['h', 'e', 'l', 'p']
  | .ai => ['a', 'i']
  | .mfa => ['m', 'f', 'a']
  | .enable => ['e', 'n', 'a', 'b', 'l', 'e']
  | .disable => ['d', 'i', 's', 'a', 'b', 'l', 'e']
  | .create => ['c', 'r', 'e', 'a', 't', 'e']
  | .tenant => ['t', 'e', 'n', 'a', 'n', 't']
  | .instances => ['i', 'n', 's', 't', 'a', 'n', 'c', 'e', 's']
  | .detail => ['d', 'e', 't', 'a', 'i', 'l']
  | .action => ['a', 'c', 't', 'i', 'o', 'n']
  | .terminate => ['t', 'e', 'r', 'm', 'i', 'n', 'a', 't', 'e']
  | .confirm => ['c', 'o', 'n', 'f', 'i', 'r', 'm']
  | .keep => ['k', 'e', 'e', 'p']
  | .del => ['d', 'e', 'l']
  | .tasks => ['t', 'a', 's', 'k', 's']
  | .defense => ['d', 'e', 'f', 'e', 'n', 's', 'e']
  | .vcn => ['v', 'c', 'n']
  | .blacklist => ['b', 'l', 'a', 'c', 'k', 'l', 'i', 's', 't']
  | .add => ['a', 'd', 'd']
  | .remove => ['r', 'e', 'm', 'o', 'v', 'e']
  | .clear => ['c', 'l', 'e', 'a', 'r']
  | .sshkeys => ['s', 's', 'h', 'k', 'e', 'y', 's']
  | .generate => ['g', 'e', 'n', 'e', 'r', 'a', 't', 'e']
  | .backup => ['b', 'a', 'c', 'k', 'u', 'p']
  | .vnc => ['v', 'n', 'c']
  | .openVnc => ['o', 'p', 'e', 'n']
  | .traffic => ['t', 'r', 'a', 'f', 'f', 'i', 'c']
  | .query => ['q', 'u', 'e', 'r', 'y']
  | .volumes => ['v', 'o', 'l', 'u', 'm', 'e', 's']
  | .update => ['u', 'p', 'd', 'a', 't', 'e']
  | .plans => ['p', 'l', 'a', 'n', 's']
  | .logs => ['l', 'o', 'g', 's']
  | .version => ['v', 'e', 'r', 's', 'i', 'o', 'n']
  | .checkalive => ['c', 'h', 'e', 'c', 'k', 'a', 'l', 'i', 'v', 'e']
  | .doCheck => ['d', 'o']
  | .cfg => ['c', 'f', 'g']
  | .list => ['l', 'i', 's', 't']
  | .sysmetrics => ['s', 'y', 's', 'm', 'e', 't', 'r', 'i', 'c', 's']
  | .model => ['m', 'o', 'd', 'e', 'l']
  | .setModel => ['s', 'e', 't']
  | .restore => ['r', 'e', 's', 't', 'o', 'r', 'e']
  | .ssh => ['s', 's', 'h']
  | .start => ['s', 't', 'a', 'r', 't']
  | .stop => ['s', 't', 'o', 'p']
  | .reboot => ['r', 'e', 'b', 'o', 'o', 't']
  | .softreset => ['s', 'o', 'f', 't', 'r', 'e', 's', 'e', 't']
  | .deepseekR1 => ['d', 'e', 'e', 'p', 's', 'e', 'e', 'k', '_', 'r', '1']
  | .deepseekV3 => ['d', 'e', 'e', 'p', 's', 'e', 'e', 'k', '_', 'v', '3']
  | .qwen => ['q', 'w', 'e', 'n']

def all : List Word :=
  [
    .main, .cancel, .status, .help, .ai, .mfa, .enable, .disable, .create, .tenant, .instances, .detail,
    .action, .terminate, .confirm, .keep, .del, .tasks, .defense, .vcn, .blacklist, .add, .remove, .clear,
    .sshkeys, .generate, .backup, .vnc, .openVnc, .traffic, .query, .volumes, .update, .plans, .logs, .version,
    .checkalive, .doCheck, .cfg, .list, .sysmetrics, .model, .setModel, .restore, .ssh, .start, .stop, .reboot,
    .softreset, .deepseekR1, .deepseekV3, .qwen]

end Word

/-- What stands between two colons. -/
abbrev Part := {s : List Char // ':' ∉ s}

def Word.part (w : Word) : Part := ⟨w.text, by cases w <;> decide⟩

def Part.num (n : Int64) : Part := ⟨decimal n.toInt, notMem_decimal (by decide) (by decide) _⟩

/-- `strings.Split` -/
def parts (data : List Char) : List Part :=
  (data.splitOn ':').pmap Subtype.mk fun _ h => notMem_of_mem_splitOn h

def join (ps : List Part) : List Char := [':'].intercalate (ps.map Subtype.val)

/-! ## The switch -/

inductive Length
  | any
  | exactly (n : Nat)
  | atLeast (n : Nat)
  deriving DecidableEq, Repr

def Length.holds : Length → Nat → Bool
  | .any, _ => true
  | .exactly n, len => len = n
  | .atLeast n, len => n ≤ len

/-- The conditions on `action`, on `len(parts)` and on the parts after the first. -/
structure Guard where
  action : Word
  len : Length
  subs : List Word
  deriving DecidableEq, Repr

def Guard.holds (g : Guard) (ps : List Part) : Bool :=
  ps[0]? = some g.action.part && g.len.holds ps.length &&
    (List.range g.subs.length).all fun i => ps[i + 1]? = g.subs[i]?.map Word.part

/-- The cases, in the order of the source. -/
inductive Arm
  | main
  | cancel
  | status
  | help
  | ai
  | mfa
  | mfaEnable
  | mfaDisable
  | create
  | createTenant
  | instanceDetail
  | instanceAction
  | terminateDo
  | terminateConfirm
  | taskDetail
  | defense
  | defenseEnable
  | defenseTenant
  | defenseVcn
  | defenseConfirm
  | disableTenant
  | disableVcn
  | disableConfirm
  | disable
  | blacklist
  | blacklistAdd
  | blacklistRemove
  | blacklistClear
  | sshkeys
  | sshkeysGenerate
  | backup
  | vnc
  | vncOpen
  | traffic
  | trafficQuery
  | volumes
  | volumeTerminateDo
  | volumeTerminate
  | volumeUpdate
  | plans
  | logs
  | version
  | checkalive
  | checkaliveDo
  | cfgList
  | sysmetrics
  | aiModelSet
  | aiModel
  | backupTrigger
  | backupRestore
  | ssh
  | sshRemove
  | instances
  | tasks
  deriving DecidableEq, Repr

namespace Arm

def guard : Arm → Guard
  | .main => ⟨.main, .any, []⟩
  | .cancel => ⟨.cancel, .any, []⟩
  | .status => ⟨.status, .any, []⟩
  | .help => ⟨.help, .any, []⟩
  | .ai => ⟨.ai, .exactly 1, []⟩
  | .mfa => ⟨.mfa, .any, []⟩
  | .mfaEnable => ⟨.mfa, .atLeast 2, [.enable]⟩
  | .mfaDisable => ⟨.mfa, .atLeast 2, [.disable]⟩
  | .create => ⟨.create, .exactly 1, []⟩
  | .createTenant => ⟨.create, .atLeast 2, [.tenant]⟩
  | .instanceDetail => ⟨.instances, .atLeast 3, [.detail]⟩
  | .instanceAction => ⟨.instances, .atLeast 5, [.action]⟩
  | .terminateDo => ⟨.instances, .atLeast 6, [.terminate, .confirm]⟩
  | .terminateConfirm => ⟨.instances, .atLeast 3, [.terminate]⟩
  | .taskDetail => ⟨.tasks, .atLeast 3, [.detail]⟩
  | .defense => ⟨.defense, .exactly 1, []⟩
  | .defenseEnable => ⟨.defense, .atLeast 2, [.enable]⟩
  | .defenseTenant => ⟨.defense, .atLeast 3, [.tenant]⟩
  | .defenseVcn => ⟨.defense, .atLeast 4, [.vcn]⟩
  | .defenseConfirm => ⟨.defense, .atLeast 3, [.confirm]⟩
  | .disableTenant => ⟨.defense, .atLeast 4, [.disable, .tenant]⟩
  | .disableVcn => ⟨.defense, .atLeast 5, [.disable, .vcn]⟩
  | .disableConfirm => ⟨.defense, .atLeast 5, [.disable, .confirm]⟩
  | .disable => ⟨.defense, .atLeast 2, [.disable]⟩
  | .blacklist => ⟨.blacklist, .exactly 1, []⟩
  | .blacklistAdd => ⟨.blacklist, .atLeast 2, [.add]⟩
  | .blacklistRemove => ⟨.blacklist, .atLeast 3, [.remove]⟩
  | .blacklistClear => ⟨.blacklist, .atLeast 2, [.clear]⟩
  | .sshkeys => ⟨.sshkeys, .exactly 1, []⟩
  | .sshkeysGenerate => ⟨.sshkeys, .atLeast 2, [.generate]⟩
  | .backup => ⟨.backup, .any, []⟩
  | .vnc => ⟨.vnc, .any, []⟩
  | .vncOpen => ⟨.vnc, .atLeast 3, [.openVnc]⟩
  | .traffic => ⟨.traffic, .exactly 1, []⟩
  | .trafficQuery => ⟨.traffic, .atLeast 3, [.query]⟩
  | .volumes => ⟨.volumes, .exactly 1, []⟩
  | .volumeTerminateDo => ⟨.volumes, .atLeast 5, [.terminate, .confirm]⟩
  | .volumeTerminate => ⟨.volumes, .atLeast 4, [.terminate]⟩
  | .volumeUpdate => ⟨.volumes, .atLeast 4, [.update]⟩
  | .plans => ⟨.plans, .any, []⟩
  | .logs => ⟨.logs, .any, []⟩
  | .version => ⟨.version, .any, []⟩
  | .checkalive => ⟨.checkalive, .exactly 1, []⟩
  | .checkaliveDo => ⟨.checkalive, .atLeast 3, [.doCheck]⟩
  | .cfgList => ⟨.cfg, .atLeast 2, [.list]⟩
  | .sysmetrics => ⟨.sysmetrics, .any, []⟩
  | .aiModelSet => ⟨.ai, .atLeast 4, [.model, .setModel]⟩
  | .aiModel => ⟨.ai, .atLeast 2, [.model]⟩
  | .backupTrigger => ⟨.backup, .exactly 1, []⟩
  | .backupRestore => ⟨.backup, .atLeast 2, [.restore]⟩
  | .ssh => ⟨.ssh, .exactly 1, []⟩
  | .sshRemove => ⟨.ssh, .atLeast 3, [.remove]⟩
  | .instances => ⟨.instances, .atLeast 1, []⟩
  | .tasks => ⟨.tasks, .atLeast 1, []⟩

def all : List Arm :=
  [
    .main, .cancel, .status, .help, .ai, .mfa, .mfaEnable, .mfaDisable, .create, .createTenant,
    .instanceDetail, .instanceAction, .terminateDo, .terminateConfirm, .taskDetail, .defense, .defenseEnable,
    .defenseTenant, .defenseVcn, .defenseConfirm, .disableTenant, .disableVcn, .disableConfirm, .disable,
    .blacklist, .blacklistAdd, .blacklistRemove, .blacklistClear, .sshkeys, .sshkeysGenerate, .backup, .vnc,
    .vncOpen, .traffic, .trafficQuery, .volumes, .volumeTerminateDo, .volumeTerminate, .volumeUpdate, .plans,
    .logs, .version, .checkalive, .checkaliveDo, .cfgList, .sysmetrics, .aiModelSet, .aiModel, .backupTrigger,
    .backupRestore, .ssh, .sshRemove, .instances, .tasks]

end Arm

def select (ps : List Part) : Option Arm := Arm.all.find? fun a => a.guard.holds ps

/-- What a case passes on: a number, one part, an instance id or a yes or no. -/
inductive Arg
  | num (n : Int64)
  | part (p : Part)
  | id (instanceID : List Char)
  | flag (b : Bool)
  deriving DecidableEq

/-- `strconv.ParseInt` and `strconv.Atoi`, their errors ignored. -/
def number (p : Part) : Int64 := Int64.ofInt (atoi p.1)

/-- `none` if the index is out of range. -/
def tgInstID (ps : List Part) (idx : Nat) : Option (List Char) :=
  match ps[idx]?, ps[idx + 1]? with
  | some p, some q => some (p.1 ++ ':' :: q.1)
  | some p, none => some p.1
  | none, _ => none

/-- A number, and the part after it. -/
def numAndPart (ps : List Part) (idx : Nat) : Option (List Arg) := do
  let n ← ps[idx]?
  let p ← ps[idx + 1]?
  return [.num (number n), .part p]

/-- `none` if an index is out of range. -/
def Arm.args (ps : List Part) : Arm → Option (List Arg)
  | .createTenant | .taskDetail | .defenseTenant => ps[2]?.map fun p => [.num (number p)]
  | .instanceDetail | .terminateConfirm | .vncOpen | .trafficQuery | .checkaliveDo =>
    (tgInstID ps 2).map fun id => [.id id]
  | .instanceAction => do
    let id ← tgInstID ps 2
    let actionType ← ps[4]?
    return [.id id, .part actionType]
  | .terminateDo => do
    let id ← tgInstID ps 3
    let keep ← ps[5]?
    return [.id id, .flag (keep = Word.keep.part)]
  | .defenseVcn | .defenseConfirm | .volumeTerminate | .volumeUpdate => numAndPart ps 2
  | .disableTenant => ps[3]?.map fun p => [.num (number p)]
  | .disableVcn | .disableConfirm | .volumeTerminateDo => numAndPart ps 3
  | .blacklistRemove => ps[2]?.map fun p => (parseInt p.1).elim [] fun n => [.num (Int64.ofInt n)]
  | .blacklistClear => some [.flag (ps[2]? = some Word.confirm.part)]
  | .aiModelSet => ps[3]?.map fun p => [.part p]
  | .instances | .tasks => some [.num (ps[1]?.elim 0 number)]
  | _ => some []

/-- `ignored` if no case is selected, `panic` if its body indexes out of range. -/
inductive Outcome
  | selected (arm : Arm) (args : List Arg)
  | ignored
  | panicked
  deriving DecidableEq

def handleTGCallback (data : List Char) : Outcome :=
  let ps := parts data
  match select ps with
  | none => .ignored
  | some arm =>
    match arm.args ps with
    | none => .panicked
    | some args => .selected arm args

/-! ## Keyboards -/

/-- The parts of the callback string, and the case that the button is for. -/
structure Button where
  parts : List Part
  arm : Arm
  args : List Arg := []

def Button.data (b : Button) : List Char := join b.parts

/-- A stored instance id. -/
structure InstanceID where
  tenantID : Int64
  ocid : Part

namespace InstanceID

def parts (id : InstanceID) : List Part := [.num id.tenantID, id.ocid]

def text (id : InstanceID) : List Char := join id.parts

end InstanceID

def words (ws : List Word) : List Part := ws.map Word.part

/-- A button whose callback string has no ids. -/
def plain (ws : List Word) (arm : Arm) (args : List Arg) : Button := ⟨words ws, arm, args⟩

def mainButton : Button := plain [.main] .main []

def pageButton (w : Word) (arm : Arm) (page : Int64) : Button := ⟨words [w] ++ [.num page], arm, [.num page]⟩

def instancePage (page : Int64) : Button := pageButton .instances .instances page

def taskPage (page : Int64) : Button := pageButton .tasks .tasks page

def tgMainKeyboard : List Button :=
  [instancePage 0, taskPage 0, plain [.status] .status [], plain [.sysmetrics] .sysmetrics [], plain [.help] .help [],
    plain [.ai] .ai [], plain [.ai, .model] .aiModel [], plain [.create] .create [], plain [.mfa] .mfa [],
    plain [.defense] .defense [], plain [.blacklist] .blacklist [], plain [.sshkeys] .sshkeys [],
    plain [.ssh] .ssh [], plain [.version] .version [], plain [.backup] .backup [], plain [.traffic] .traffic [],
    plain [.volumes] .volumes [], plain [.plans] .plans [], plain [.vnc] .vnc [], plain [.logs] .logs [],
    plain [.checkalive] .checkalive [], plain [.cfg, .list] .cfgList []]

/-- A button for an instance. -/
def instanceButton (ws : List Word) (arm : Arm) (id : InstanceID) : Button := ⟨words ws ++ id.parts, arm, [.id id.text]⟩

/-- The page that is shown, and how many there are. -/
structure Paging where
  page : Int64
  totalPages : Int64

def navRow (pg : Paging) (button : Int64 → Button) : List Button :=
  (if pg.page > 0 then [button (pg.page - 1)] else []) ++ [mainButton] ++
    if pg.page < pg.totalPages - 1 then [button (pg.page + 1)] else []

/-- The rows of a page; the index of the first one may wrap around. -/
def Paging.rows {α : Type} (pg : Paging) (items : List α) : List α := (items.drop (pg.page * 8).toInt.toNat).take 8

theorem Paging.rows_map {α β : Type} (pg : Paging) (f : α → β) (items : List α) :
    pg.rows (items.map f) = (pg.rows items).map f := by
  rw [rows, rows, List.map_take, List.map_drop]

def tgInstanceKeyboard (items : List InstanceID) (pg : Paging) : List Button :=
  (pg.rows items).map (instanceButton [.instances, .detail] .instanceDetail) ++
    navRow pg instancePage

def actionButton (id : InstanceID) (actionType : Word) : Button :=
  ⟨words [.instances, .action] ++ id.parts ++ words [actionType], .instanceAction, [.id id.text, .part actionType.part]⟩

def tgInstanceActionKeyboard (id : InstanceID) : List Button :=
  [actionButton id .start, actionButton id .stop, actionButton id .reboot, actionButton id .softreset,
    instanceButton [.instances, .terminate] .terminateConfirm id, instancePage 0]

def tgTaskKeyboard (items : List Int64) (pg : Paging) : List Button :=
  (pg.rows items).map (fun id => ⟨words [.tasks, .detail] ++ [.num id], .taskDetail, [.num id]⟩) ++
    navRow pg taskPage

def tgCreateTenantList (tenants : List Int64) : List Button :=
  tenants.map (fun id => ⟨words [.create, .tenant] ++ [.num id], .createTenant, [.num id]⟩) ++ [mainButton]

def tgMFAMenu : List Button :=
  [plain [.mfa, .enable] .mfaEnable [], plain [.mfa, .disable] .mfaDisable [], mainButton]

def tgSendTaskDetail : List Button := [taskPage 0]

def tgDefenseMenu : List Button :=
  [plain [.defense, .enable] .defenseEnable [], plain [.defense, .disable] .disable [], mainButton]

def tgBlacklistMenu : List Button :=
  [plain [.blacklist, .add] .blacklistAdd [], plain [.blacklist, .clear] .blacklistClear [.flag false], mainButton]

def tgBlacklistClearConfirm : List Button :=
  [plain [.blacklist, .clear, .confirm] .blacklistClear [.flag true], plain [.blacklist] .blacklist []]

def tgSSHKeysList : List Button := [plain [.sshkeys, .generate] .sshkeysGenerate [], mainButton]

/-- The keyboard of the case `vnc`. -/
def vncKeyboard (instances : List InstanceID) : List Button :=
  (instances.take 10).map (instanceButton [.vnc, .openVnc] .vncOpen) ++ [mainButton]

def tgTrafficChooseInstance (instances : List InstanceID) : List Button :=
  (instances.take 8).map (instanceButton [.traffic, .query] .trafficQuery) ++ [mainButton]

/-- A button for something of a tenant. -/
def tenantButton (ws : List Word) (arm : Arm) (tenantID : Int64) (id : Part) : Button :=
  ⟨words ws ++ [.num tenantID, id], arm, [.num tenantID, .part id]⟩

def tgVolumeList (volumes : List (Int64 × Part)) : List Button :=
  volumes.flatMap (fun v =>
    [tenantButton [.volumes, .terminate] .volumeTerminate v.1 v.2,
      tenantButton [.volumes, .update] .volumeUpdate v.1 v.2]) ++ [mainButton]

/-- The keyboard of the case `volumeTerminate`. -/
def volumeTerminateKeyboard (tenantID : Int64) (volID : Part) : List Button :=
  [tenantButton [.volumes, .terminate, .confirm] .volumeTerminateDo tenantID volID, plain [.volumes] .volumes []]

def tgCheckAlivePrompt (instances : List InstanceID) : List Button :=
  (instances.take 12).map (instanceButton [.checkalive, .doCheck] .checkaliveDo) ++ [mainButton]

def tgSystemMetrics : List Button := [plain [.sysmetrics] .sysmetrics [], mainButton]

def tgAIModelMenu : List Button :=
  [.deepseekR1, .deepseekV3, .qwen].map (fun key => plain [.ai, .model, .setModel, key] .aiModelSet [.part key.part]) ++
    [mainButton]

def terminateButton (id : InstanceID) (preserve : Bool) : Button :=
  ⟨words [.instances, .terminate, .confirm] ++ id.parts ++ words [if preserve then .keep else .del], .terminateDo,
    [.id id.text, .flag preserve]⟩

def tgTerminateConfirm (id : InstanceID) : List Button :=
  [terminateButton id true, terminateButton id false, instancePage 0]

def tgSSHManagement (configured : Bool) : List Button :=
  (if configured then [plain [.ssh, .remove] .sshRemove []] else []) ++ [mainButton]

def defenseBack : Button := plain [.defense] .defense []

/-- The list is the same in both dialogues. -/
def tgDefenseTenantList (disable : Bool) (tenants : List Int64) : List Button :=
  tenants.map (fun id =>
    ⟨words [.defense, .tenant] ++ [.num id], if disable then .disableTenant else .defenseTenant, [.num id]⟩) ++
    [defenseBack]

def tgDefenseVcnList (disable : Bool) (tenantID : Int64) (vcns : List Part) : List Button :=
  vcns.map (fun vcn =>
    if disable then tenantButton [.defense, .disable, .vcn] .disableVcn tenantID vcn
    else tenantButton [.defense, .vcn] .defenseVcn tenantID vcn) ++ [defenseBack]

def confirmButton (tenantID : Int64) (vcnID : Part) : Button :=
  tenantButton [.defense, .confirm] .defenseConfirm tenantID vcnID

def tgDefenseConfirm (disable : Bool) (tenantID : Int64) (vcnID : Part) : List Button :=
  [if disable then tenantButton [.defense, .disable, .confirm] .disableConfirm tenantID vcnID
    else confirmButton tenantID vcnID, defenseBack]

/-- Every keyboard that the bot sends; the ids of a list are those of the rows that have a button. -/
inductive Keyboard
  | main
  | instances (items : List InstanceID) (pg : Paging)
  | instanceActions (id : InstanceID)
  | terminate (id : InstanceID)
  | tasks (items : List Int64) (pg : Paging)
  | taskDetail
  | createTenants (tenants : List Int64)
  | mfa
  | defense
  | defenseTenants (disable : Bool) (tenants : List Int64)
  | defenseVcns (disable : Bool) (tenantID : Int64) (vcns : List Part)
  | defenseConfirm (disable : Bool) (tenantID : Int64) (vcnID : Part)
  | blacklist
  | blacklistClear
  | sshkeys
  | ssh (configured : Bool)
  | vnc (items : List InstanceID)
  | traffic (items : List InstanceID)
  | volumes (items : List (Int64 × Part))
  | volumeTerminate (tenantID : Int64) (volID : Part)
  | checkalive (items : List InstanceID)
  | sysmetrics
  | aiModels

def Keyboard.buttons : Keyboard → List Button
  | .main => tgMainKeyboard
  | .instances items pg => tgInstanceKeyboard items pg
  | .instanceActions id => tgInstanceActionKeyboard id
  | .terminate id => tgTerminateConfirm id
  | .tasks items pg => tgTaskKeyboard items pg
  | .taskDetail => tgSendTaskDetail
  | .createTenants tenants => tgCreateTenantList tenants
  | .mfa => tgMFAMenu
  | .defense => tgDefenseMenu
  | .defenseTenants disable tenants => tgDefenseTenantList disable tenants
  | .defenseVcns disable tenantID vcns => tgDefenseVcnList disable tenantID vcns
  | .defenseConfirm disable tenantID vcnID => tgDefenseConfirm disable tenantID vcnID
  | .blacklist => tgBlacklistMenu
  | .blacklistClear => tgBlacklistClearConfirm
  | .sshkeys => tgSSHKeysList
  | .ssh configured => tgSSHManagement configured
  | .vnc items => vncKeyboard items
  | .traffic items => tgTrafficChooseInstance items
  | .volumes items => tgVolumeList items
  | .volumeTerminate tenantID volID => volumeTerminateKeyboard tenantID volID
  | .checkalive items => tgCheckAlivePrompt items
  | .sysmetrics => tgSystemMetrics
  | .aiModels => tgAIModelMenu

/-- The button selects the case that it is for, and that one is passed its ids. -/
def Button.Routed (b : Button) : Prop := handleTGCallback b.data = .selected b.arm b.args

/-- The cases that no button for them selects. -/
def missed : List Arm := [.mfaEnable, .mfaDisable, .vncOpen, .sshRemove, .disableTenant]

/-- The cases that come after one that holds whenever they do. -/
def shadowed : List Arm := [.mfaEnable, .mfaDisable, .vncOpen, .backupTrigger, .backupRestore]

/-! ## Strings and parts -/

theorem parts_join {ps : List Part} (h : ps ≠ []) : parts (join ps) = ps := by
  have hmap : (parts (join ps)).map Subtype.val = ps.map Subtype.val := by
    unfold parts
    rw [List.map_pmap, List.pmap_eq_map]
    simp only [List.map_id_fun', id]
    unfold join
    refine List.splitOn_intercalate ':' (fun l hl => ?_) fun he => h (List.map_eq_nil_iff.mp he)
    obtain ⟨p, -, rfl⟩ := List.mem_map.mp hl
    exact p.2
  exact List.map_injective_iff.mpr Subtype.val_injective hmap

namespace Part

/-- The word that a part is. -/
def word? (p : Part) : Option Word := Word.all.find? fun w => w.text = p.1

theorem word?_part (w : Word) : Part.word? w.part = some w := by cases w <;> rfl

theorem word?_eq_some_iff {p : Part} {w : Word} : p.word? = some w ↔ p = w.part := by
  constructor
  · intro h
    have hp := List.find?_some h
    exact Subtype.ext (of_decide_eq_true hp).symm
  · rintro rfl
    exact word?_part w

/-- Words begin with a letter. -/
theorem word?_num (n : Int64) : (Part.num n).word? = none := by
  refine List.find?_eq_none.mpr fun w _ => ?_
  obtain ⟨c, cs, hc, hdigit⟩ := decimal_head n.toInt
  have hne : ∀ w : Word, ∀ c cs, w.text = c :: cs → c ≠ '-' ∧ c.isDigit = false := by
    intro w
    cases w <;> (rintro c cs ⟨⟩; decide)
  intro he
  obtain ⟨hminus, hnot⟩ := hne w c cs ((of_decide_eq_true he).trans hc)
  obtain rfl | hd := hdigit
  · exact hminus rfl
  · rw [hnot] at hd
    cases hd

end Part

/-- The condition in terms of the words among the parts. -/
def Guard.holdsWords (g : Guard) (len : Nat) (ws : List (Option Word)) : Bool :=
  ws[0]? = some (some g.action) && g.len.holds len &&
    (List.range g.subs.length).all fun i => ws[i + 1]? = g.subs[i]?.map some

theorem getElem?_word (ps : List Part) (i : Nat) (w : Word) :
    ps[i]? = some w.part ↔ (ps.map Part.word?)[i]? = some (some w) := by
  rw [List.getElem?_map, Option.map_eq_some_iff]
  constructor
  · exact fun h => ⟨_, h, Part.word?_part w⟩
  · rintro ⟨p, hp, hw⟩
    rw [hp, Part.word?_eq_some_iff.mp hw]

theorem Guard.holds_eq (g : Guard) (ps : List Part) :
    g.holds ps = g.holdsWords ps.length (ps.map Part.word?) := by
  unfold Guard.holds Guard.holdsWords
  congr 1
  · congr 1
    exact decide_eq_decide.mpr (getElem?_word ps 0 g.action)
  · rw [Bool.eq_iff_iff, List.all_eq_true, List.all_eq_true]
    refine forall₂_congr fun i hi => ?_
    rw [decide_eq_true_iff, decide_eq_true_iff]
    obtain ⟨w, hw⟩ : ∃ w, g.subs[i]? = some w :=
      ⟨_, List.getElem?_eq_getElem (List.mem_range.mp hi)⟩
    rw [hw]
    exact getElem?_word ps (i + 1) w

/-- The switch in terms of the words among the parts. -/
def selectWords (len : Nat) (ws : List (Option Word)) : Option Arm :=
  Arm.all.find? fun a => a.guard.holdsWords len ws

theorem select_eq (ps : List Part) : select ps = selectWords ps.length (ps.map Part.word?) := by
  unfold select selectWords
  congr 1
  funext a
  exact a.guard.holds_eq ps

theorem select_words_append (ws : List Word) (ps : List Part) :
    select (words ws ++ ps) = selectWords (ws.length + ps.length) (ws.map some ++ ps.map Part.word?) := by
  rw [select_eq, words, List.length_append, List.length_map, List.map_append, List.map_map]
  congr 2
  exact List.map_congr_left fun w _ => Part.word?_part w

/-! ## Buttons -/

@[simp]
theorem number_num (n : Int64) : number (.num n) = n := by
  have h : atoi (decimal n.toInt) = n.toInt := atoi_decimal ⟨n.le_toInt, n.toInt_lt⟩
  rw [number, Part.num, h]
  exact n.ofInt_toInt

theorem handleTGCallback_eq_selected_iff {data : List Char} {arm : Arm} {args : List Arg} :
    handleTGCallback data = .selected arm args ↔
      select (parts data) = some arm ∧ arm.args (parts data) = some args := by
  unfold handleTGCallback
  cases hs : select (parts data) with
  | none => simp [hs]
  | some a =>
    cases ha : a.args (parts data) with
    | none =>
      simp only [hs, ha, reduceCtorEq, Option.some.injEq, false_iff, not_and]
      rintro rfl
      rw [ha]
      exact Option.some_ne_none args ∘ Eq.symm
    | some as =>
      simp only [hs, ha, Outcome.selected.injEq, Option.some.injEq]
      refine and_congr_right fun he => ?_
      rw [← he, ha, Option.some.injEq]

theorem Button.routed_iff {b : Button} (h : b.parts ≠ []) :
    b.Routed ↔ select b.parts = some b.arm ∧ b.arm.args b.parts = some b.args := by
  unfold Button.Routed Button.data
  rw [handleTGCallback_eq_selected_iff, parts_join h]

/-- A button is routed unless its case is one of `missed`. -/
def Button.Agrees (b : Button) : Prop := b.Routed ↔ b.arm ∉ missed

theorem words_ne_nil {ws : List Word} (h : ws ≠ []) (ps : List Part) : words ws ++ ps ≠ [] :=
  List.append_ne_nil_of_left_ne_nil (fun he => h (List.map_eq_nil_iff.mp he)) ps

theorem agrees_of_select {b : Button} (ws : List Word) {ps : List Part} (hb : b.parts = words ws ++ ps)
    (hws : ws ≠ []) (hs : selectWords (ws.length + ps.length) (ws.map some ++ ps.map Part.word?) = some b.arm)
    (ha : b.arm.args b.parts = some b.args) (hm : b.arm ∉ missed) : b.Agrees := by
  have hsel : select b.parts = some b.arm := hb ▸ (select_words_append ws ps).trans hs
  exact iff_of_true ((Button.routed_iff (hb ▸ words_ne_nil hws ps)).mpr ⟨hsel, ha⟩) hm

theorem agrees_of_missed {b : Button} (ws : List Word) {ps : List Part} (hb : b.parts = words ws ++ ps)
    (hws : ws ≠ []) (hs : selectWords (ws.length + ps.length) (ws.map some ++ ps.map Part.word?) ≠ some b.arm)
    (hm : b.arm ∈ missed) : b.Agrees := by
  refine iff_of_false (fun h => hs ?_) (not_not_intro hm)
  rw [← select_words_append, ← hb]
  exact ((Button.routed_iff (hb ▸ words_ne_nil hws ps)).mp h).1

/-- A button without ids, checked by evaluation. -/
theorem agrees_plain {ws : List Word} {arm : Arm} {args : List Arg} (hws : ws ≠ [])
    (h : (selectWords ws.length (ws.map some) = some arm ∧ arm.args (words ws) = some args) ↔ arm ∉ missed) :
    (plain ws arm args).Agrees := by
  have hs : select (words ws) = selectWords ws.length (ws.map some) := by
    simpa using select_words_append ws []
  have hne : words ws ≠ [] := fun he => hws (List.map_eq_nil_iff.mp he)
  rw [← hs] at h
  exact (Button.routed_iff hne).trans h

theorem agrees_mainButton : mainButton.Agrees := agrees_plain (by decide) (by decide)

theorem agrees_pageButton {w : Word} {arm : Arm} (n : Int64)
    (hs : selectWords 2 [some w, none] = some arm)
    (ha : ∀ ps, arm.args ps = some [.num (ps[1]?.elim 0 number)]) (hm : arm ∉ missed) :
    (pageButton w arm n).Agrees := by
  refine agrees_of_select [w] rfl (List.cons_ne_nil w []) ?_ ?_ hm
  · change selectWords 2 [some w, (Part.num _).word?] = some arm
    rw [Part.word?_num]
    exact hs
  · refine (ha _).trans ?_
    simp [pageButton, words]

theorem agrees_instancePage (n : Int64) : (instancePage n).Agrees :=
  agrees_pageButton n rfl (fun _ => rfl) (by decide)

theorem agrees_taskPage (n : Int64) : (taskPage n).Agrees :=
  agrees_pageButton n rfl (fun _ => rfl) (by decide)

theorem agrees_navRow (pg : Paging) {button : Int64 → Button} (h : ∀ n, (button n).Agrees) :
    ∀ b ∈ navRow pg button, b.Agrees := by
  unfold navRow
  intro b hb
  split at hb <;> split at hb <;>
    simp only [List.nil_append, List.append_nil, List.cons_append, List.mem_cons, List.not_mem_nil, or_false] at hb
  · obtain rfl | rfl | rfl := hb
    exacts [h _, agrees_mainButton, h _]
  · obtain rfl | rfl := hb
    exacts [h _, agrees_mainButton]
  · obtain rfl | rfl := hb
    exacts [agrees_mainButton, h _]
  · exact hb ▸ agrees_mainButton

theorem agrees_numButton {w₁ w₂ : Word} {arm : Arm} (n : Int64)
    (hs : selectWords 3 [some w₁, some w₂, none] = some arm)
    (ha : ∀ ps, arm.args ps = ps[2]?.map fun p => [.num (number p)]) (hm : arm ∉ missed) :
    (⟨words [w₁, w₂] ++ [.num n], arm, [.num n]⟩ : Button).Agrees := by
  refine agrees_of_select [w₁, w₂] rfl (List.cons_ne_nil w₁ [w₂]) ?_ ?_ hm
  · change selectWords 3 [some w₁, some w₂, (Part.num n).word?] = some arm
    rw [Part.word?_num]
    exact hs
  · refine (ha _).trans ?_
    simp [words]

theorem tgInstID_eq {ps : List Part} {idx : Nat} {id : InstanceID} (h : ps[idx]? = some (.num id.tenantID))
    (h' : ps[idx + 1]? = some id.ocid) : tgInstID ps idx = some id.text := by
  unfold tgInstID
  rw [h, h']
  simp [InstanceID.text, join, InstanceID.parts, List.intercalate]

theorem InstanceID.map_word?_parts (id : InstanceID) : id.parts.map Part.word? = [none, id.ocid.word?] := by
  simp [InstanceID.parts, Part.word?_num]

theorem agrees_instanceButton {w₁ w₂ : Word} {arm : Arm} (id : InstanceID)
    (hs : ∀ w, selectWords 4 [some w₁, some w₂, none, w] = some arm)
    (ha : ∀ ps, arm.args ps = (tgInstID ps 2).map fun id => [.id id]) (hm : arm ∉ missed) :
    (instanceButton [w₁, w₂] arm id).Agrees := by
  refine agrees_of_select [w₁, w₂] rfl (List.cons_ne_nil w₁ [w₂]) ?_ ?_ hm
  · rw [id.map_word?_parts]
    exact hs _
  · have hid : tgInstID (words [w₁, w₂] ++ id.parts) 2 = some id.text := tgInstID_eq rfl rfl
    rw [instanceButton, ha, hid, Option.map_some]

theorem agrees_actionButton (id : InstanceID) (actionType : Word) : (actionButton id actionType).Agrees := by
  have hid : tgInstID (actionButton id actionType).parts 2 = some id.text := tgInstID_eq rfl rfl
  refine agrees_of_select _ (List.append_assoc _ _ _) (List.cons_ne_nil _ _) ?_ ?_ (by simp [actionButton, missed])
  · rw [List.map_append, id.map_word?_parts]
    rfl
  · rw [show (actionButton id actionType).arm = .instanceAction from rfl, Arm.args, hid]
    rfl

theorem agrees_terminateButton (id : InstanceID) (preserve : Bool) : (terminateButton id preserve).Agrees := by
  have hid : tgInstID (terminateButton id preserve).parts 3 = some id.text := tgInstID_eq rfl rfl
  refine agrees_of_select _ (List.append_assoc _ _ _) (List.cons_ne_nil _ _) ?_ ?_ (by simp [terminateButton, missed])
  · rw [List.map_append, id.map_word?_parts]
    rfl
  · rw [show (terminateButton id preserve).arm = .terminateDo from rfl, Arm.args, hid]
    cases preserve <;> rfl

theorem agrees_tenantButton {ws : List Word} {arm : Arm} (tenantID : Int64) (p : Part) (hws : ws ≠ [])
    (hs : ∀ w, selectWords (ws.length + 2) (ws.map some ++ [none, w]) = some arm)
    (ha : ∀ ps, arm.args ps = numAndPart ps ws.length) (hm : arm ∉ missed) :
    (tenantButton ws arm tenantID p).Agrees := by
  refine agrees_of_select ws rfl hws ?_ ?_ hm
  · rw [List.map_cons, List.map_singleton, Part.word?_num]
    exact hs _
  · refine (ha _).trans ?_
    simp [numAndPart, tenantButton, words]

/-! ## The keyboards -/

theorem agrees_tgMainKeyboard : ∀ b ∈ tgMainKeyboard, b.Agrees := by
  unfold tgMainKeyboard
  simp only [List.forall_mem_cons, List.not_mem_nil, false_implies, implies_true, and_true]
  refine ⟨agrees_instancePage 0, agrees_taskPage 0, ?_⟩
  and_intros <;> exact agrees_plain (by decide) (by decide)

theorem agrees_tgInstanceKeyboard (items : List InstanceID) (pg : Paging) :
    ∀ b ∈ tgInstanceKeyboard items pg, b.Agrees := by
  unfold tgInstanceKeyboard
  rw [List.forall_mem_append, List.forall_mem_map]
  refine ⟨fun id _ => ?_, agrees_navRow pg agrees_instancePage⟩
  exact agrees_instanceButton id (fun _ => rfl) (fun _ => rfl) (by decide)

theorem agrees_tgInstanceActionKeyboard (id : InstanceID) : ∀ b ∈ tgInstanceActionKeyboard id, b.Agrees := by
  simp only [tgInstanceActionKeyboard, List.forall_mem_cons, List.not_mem_nil, false_implies, implies_true, and_true]
  refine ⟨agrees_actionButton id _, agrees_actionButton id _, agrees_actionButton id _, agrees_actionButton id _, ?_,
    agrees_instancePage 0⟩
  exact agrees_instanceButton id (fun _ => rfl) (fun _ => rfl) (by decide)

theorem agrees_tgTerminateConfirm (id : InstanceID) : ∀ b ∈ tgTerminateConfirm id, b.Agrees := by
  simp only [tgTerminateConfirm, List.forall_mem_cons, List.not_mem_nil, false_implies, implies_true, and_true]
  exact ⟨agrees_terminateButton id true, agrees_terminateButton id false, agrees_instancePage 0⟩

theorem agrees_tgTaskKeyboard (items : List Int64) (pg : Paging) : ∀ b ∈ tgTaskKeyboard items pg, b.Agrees := by
  unfold tgTaskKeyboard
  rw [List.forall_mem_append, List.forall_mem_map]
  exact ⟨fun n _ => agrees_numButton n rfl (fun _ => rfl) (by decide), agrees_navRow pg agrees_taskPage⟩

/-- The buttons of a list, and the button below them. -/
theorem agrees_map_append {α : Type} {items : List α} {button : α → Button} {last : Button}
    (h : ∀ a, (button a).Agrees) (hlast : last.Agrees) : ∀ b ∈ items.map button ++ [last], b.Agrees := by
  rw [List.forall_mem_append, List.forall_mem_map, List.forall_mem_singleton]
  exact ⟨fun a _ => h a, hlast⟩

theorem agrees_instanceList {w₁ w₂ : Word} {arm : Arm} (items : List InstanceID)
    (hs : ∀ w, selectWords 4 [some w₁, some w₂, none, w] = some arm)
    (ha : ∀ ps, arm.args ps = (tgInstID ps 2).map fun id => [.id id]) (hm : arm ∉ missed) :
    ∀ b ∈ items.map (instanceButton [w₁, w₂] arm) ++ [mainButton], b.Agrees :=
  agrees_map_append (fun id => agrees_instanceButton id hs ha hm) agrees_mainButton

/-- The case `vnc` takes the buttons of `vncOpen`. -/
theorem agrees_vncKeyboard (instances : List InstanceID) : ∀ b ∈ vncKeyboard instances, b.Agrees := by
  refine agrees_map_append (fun id => ?_) agrees_mainButton
  refine agrees_of_missed [.vnc, .openVnc] rfl (List.cons_ne_nil _ _) ?_ (by simp [instanceButton, missed])
  rw [id.map_word?_parts]
  exact fun h => by cases h

theorem agrees_tgVolumeList (volumes : List (Int64 × Part)) : ∀ b ∈ tgVolumeList volumes, b.Agrees := by
  unfold tgVolumeList
  rw [List.forall_mem_append, List.forall_mem_flatMap, List.forall_mem_singleton]
  refine ⟨fun v _ => ?_, agrees_mainButton⟩
  rw [List.forall_mem_cons, List.forall_mem_singleton]
  exact ⟨agrees_tenantButton v.1 v.2 (by decide) (fun _ => rfl) (fun _ => rfl) (by decide),
    agrees_tenantButton v.1 v.2 (by decide) (fun _ => rfl) (fun _ => rfl) (by decide)⟩

theorem agrees_volumeTerminateKeyboard (tenantID : Int64) (volID : Part) :
    ∀ b ∈ volumeTerminateKeyboard tenantID volID, b.Agrees := by
  unfold volumeTerminateKeyboard
  rw [List.forall_mem_cons, List.forall_mem_singleton]
  exact ⟨agrees_tenantButton tenantID volID (by decide) (fun _ => rfl) (fun _ => rfl) (by decide),
    agrees_plain (by decide) (by decide)⟩

theorem agrees_tgAIModelMenu : ∀ b ∈ tgAIModelMenu, b.Agrees := by
  unfold tgAIModelMenu
  rw [List.forall_mem_append, List.forall_mem_map, List.forall_mem_singleton]
  simp only [List.forall_mem_cons, List.not_mem_nil, false_implies, implies_true, and_true]
  exact ⟨⟨agrees_plain (by decide) (by decide), agrees_plain (by decide) (by decide),
    agrees_plain (by decide) (by decide)⟩, agrees_mainButton⟩

theorem agrees_tgSSHManagement (configured : Bool) : ∀ b ∈ tgSSHManagement configured, b.Agrees := by
  unfold tgSSHManagement
  rw [List.forall_mem_append, List.forall_mem_singleton]
  refine ⟨?_, agrees_mainButton⟩
  cases configured with
  | false => exact fun b hb => absurd hb List.not_mem_nil
  | true => exact (List.forall_mem_singleton).mpr (agrees_plain (by decide) (by decide))

/-- The list of the disable dialogue has the buttons of the other one. -/
theorem agrees_tgDefenseTenantList (disable : Bool) (tenants : List Int64) :
    ∀ b ∈ tgDefenseTenantList disable tenants, b.Agrees := by
  refine agrees_map_append (fun n => ?_) (agrees_plain (by decide) (by decide))
  cases disable with
  | false => exact agrees_numButton n rfl (fun _ => rfl) (by decide)
  | true =>
    refine agrees_of_missed [.defense, .tenant] rfl (List.cons_ne_nil _ _) ?_ (by simp [missed])
    change selectWords 3 [some .defense, some .tenant, (Part.num n).word?] ≠ some .disableTenant
    rw [Part.word?_num]
    exact fun h => by cases h

theorem agrees_tgDefenseVcnList (disable : Bool) (tenantID : Int64) (vcns : List Part) :
    ∀ b ∈ tgDefenseVcnList disable tenantID vcns, b.Agrees := by
  refine agrees_map_append (fun vcn => ?_) (agrees_plain (by decide) (by decide))
  cases disable with
  | false => exact agrees_tenantButton tenantID vcn (by decide) (fun _ => rfl) (fun _ => rfl) (by decide)
  | true => exact agrees_tenantButton tenantID vcn (by decide) (fun _ => rfl) (fun _ => rfl) (by decide)

theorem agrees_tgDefenseConfirm (disable : Bool) (tenantID : Int64) (vcnID : Part) :
    ∀ b ∈ tgDefenseConfirm disable tenantID vcnID, b.Agrees := by
  unfold tgDefenseConfirm
  rw [List.forall_mem_cons, List.forall_mem_singleton]
  refine ⟨?_, agrees_plain (by decide) (by decide)⟩
  cases disable with
  | false => exact agrees_tenantButton tenantID vcnID (by decide) (fun _ => rfl) (fun _ => rfl) (by decide)
  | true => exact agrees_tenantButton tenantID vcnID (by decide) (fun _ => rfl) (fun _ => rfl) (by decide)

/-- The menus without ids. -/
theorem agrees_menus :
    ∀ menu ∈ [tgMFAMenu, tgDefenseMenu, tgBlacklistMenu, tgBlacklistClearConfirm, tgSSHKeysList, tgSystemMetrics],
      ∀ b ∈ menu, b.Agrees := by
  simp only [tgMFAMenu, tgDefenseMenu, tgBlacklistMenu, tgBlacklistClearConfirm, tgSSHKeysList, tgSystemMetrics,
    List.forall_mem_cons, List.not_mem_nil, false_implies, implies_true, and_true]
  and_intros <;> first | exact agrees_mainButton | exact agrees_plain (by decide) (by decide)

theorem agrees_buttons (k : Keyboard) : ∀ b ∈ k.buttons, b.Agrees := by
  cases k with
  | main => exact agrees_tgMainKeyboard
  | instances items pg => exact agrees_tgInstanceKeyboard items pg
  | instanceActions id => exact agrees_tgInstanceActionKeyboard id
  | terminate id => exact agrees_tgTerminateConfirm id
  | tasks items pg => exact agrees_tgTaskKeyboard items pg
  | taskDetail => exact (List.forall_mem_singleton).mpr (agrees_taskPage 0)
  | createTenants tenants =>
    exact agrees_map_append (fun n => agrees_numButton n rfl (fun _ => rfl) (by decide)) agrees_mainButton
  | mfa => exact agrees_menus tgMFAMenu (by simp)
  | defense => exact agrees_menus tgDefenseMenu (by simp)
  | defenseTenants disable tenants => exact agrees_tgDefenseTenantList disable tenants
  | defenseVcns disable tenantID vcns => exact agrees_tgDefenseVcnList disable tenantID vcns
  | defenseConfirm disable tenantID vcnID => exact agrees_tgDefenseConfirm disable tenantID vcnID
  | blacklist => exact agrees_menus tgBlacklistMenu (by simp)
  | blacklistClear => exact agrees_menus tgBlacklistClearConfirm (by simp)
  | sshkeys => exact agrees_menus tgSSHKeysList (by simp)
  | ssh configured => exact agrees_tgSSHManagement configured
  | vnc items => exact agrees_vncKeyboard items
  | traffic items => exact agrees_instanceList _ (fun _ => rfl) (fun _ => rfl) (by decide)
  | volumes items => exact agrees_tgVolumeList items
  | volumeTerminate tenantID volID => exact agrees_volumeTerminateKeyboard tenantID volID
  | checkalive items => exact agrees_instanceList _ (fun _ => rfl) (fun _ => rfl) (by decide)
  | sysmetrics => exact agrees_menus tgSystemMetrics (by simp)
  | aiModels => exact agrees_tgAIModelMenu

/-! ## Shadowed cases -/

theorem Guard.holds_any {g : Guard} {ps : List Part} (h : g.holds ps) : (⟨g.action, .any, []⟩ : Guard).holds ps := by
  simp only [Guard.holds, Bool.and_eq_true] at h
  simp [Guard.holds, Length.holds, h.1.1]

/-- The case that is selected does not come after one that holds. -/
theorem select_mem_take {ps : List Part} {a : Arm} {n : Nat} (ha : a ∈ Arm.all.take n) (h : a.guard.holds ps) :
    ∃ b ∈ Arm.all.take n, select ps = some b := by
  have hsome : ((Arm.all.take n).find? fun b => b.guard.holds ps).isSome := List.find?_isSome.mpr ⟨a, ha, h⟩
  obtain ⟨b, hb⟩ := Option.isSome_iff_exists.mp hsome
  refine ⟨b, List.mem_of_find?_eq_some hb, ?_⟩
  unfold select
  rw [← List.take_append_drop n Arm.all, List.find?_append, hb, Option.some_or]

theorem select_ne_of_shadowed {arm : Arm} (ps : List Part) (h : arm ∈ shadowed) : select ps ≠ some arm := by
  intro hs
  have hg := List.find?_some hs
  have hany := Guard.holds_any hg
  simp only [shadowed, List.mem_cons, List.not_mem_nil, or_false] at h
  obtain ⟨a, n, ha, hn, hmem⟩ : ∃ a n, a.guard = ⟨arm.guard.action, .any, []⟩ ∧ a ∈ Arm.all.take n ∧
      arm ∉ Arm.all.take n := by
    obtain rfl | rfl | rfl | rfl | rfl := h
    · exact ⟨.mfa, 6, rfl, by decide, by decide⟩
    · exact ⟨.mfa, 6, rfl, by decide, by decide⟩
    · exact ⟨.vnc, 32, rfl, by decide, by decide⟩
    · exact ⟨.backup, 31, rfl, by decide, by decide⟩
    · exact ⟨.backup, 31, rfl, by decide, by decide⟩
  obtain ⟨b, hb, hsb⟩ := select_mem_take hn (ha ▸ hany)
  exact hmem (Option.some.inj (hs.symm.trans hsb) ▸ hb)

/-- The words of the condition, and as many more as it asks for. -/
def Arm.words (arm : Arm) : List Word :=
  let ws := arm.guard.action :: arm.guard.subs
  match arm.guard.len with
  | .atLeast n => ws ++ List.replicate (n - ws.length) .main
  | _ => ws

theorem select_words {arm : Arm} (h : arm ∉ shadowed) : select (Telegram.words arm.words) = some arm := by
  rw [← List.append_nil (Telegram.words _), select_words_append]
  cases arm <;> first | rfl | exact absurd (by decide) h

/-- Each button is routed unless its case is one of `missed`, and each case is selected by some callback string unless
it is one of `shadowed`. -/
theorem buttons_routed_iff (k : Keyboard) (arm : Arm) :
    (∀ b ∈ k.buttons, b.Routed ↔ b.arm ∉ missed) ∧
      ((∃ data, select (parts data) = some arm) ↔ arm ∉ shadowed) := by
  refine ⟨agrees_buttons k, ⟨?_, fun h => ?_⟩⟩
  · rintro ⟨data, hs⟩ hmem
    exact select_ne_of_shadowed (parts data) hmem hs
  · have hne : Telegram.words arm.words ≠ [] := fun he => by
      have hs := select_words h
      rw [he] at hs
      cases hs
    exact ⟨join (Telegram.words arm.words), (parts_join hne).symm ▸ select_words h⟩

/-- The button of the MFA menu that enables MFA shows the menu again. -/
theorem mfa_enable_shows_menu :
    ∃ b ∈ Keyboard.mfa.buttons, b.data = ['m', 'f', 'a', ':', 'e', 'n', 'a', 'b', 'l', 'e'] ∧ b.arm = .mfaEnable ∧
      handleTGCallback b.data = .selected .mfa [] ∧ ¬b.Routed :=
  ⟨plain [.mfa, .enable] .mfaEnable [], List.mem_cons_self, rfl, rfl, by decide, by unfold Button.Routed; decide⟩

end OciHelper.Telegram
