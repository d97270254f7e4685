import OciHelper.Instances.Netboot
import OciHelper.Lib.Traced

/-!
# Requests about boot volumes

* `Event` : a request that a procedure makes, with the answer it gets;
* `waitForState` : poll an instance until it is in a state.

A call counts as a request also where its context has ended. The names of resources, their compartments and shapes are
left out, and what the service does.
-/

namespace OciHelper.Instances.BootVolumes

abbrev OCID := String

inductive VolumeState
  | provisioning
  | restoring
  | available
  | terminating
  | terminated
  | faulty
  deriving DecidableEq, Repr

inductive BackupState
  | requestReceived
  | creating
  | available
  | terminating
  | terminated
  | faulty
  deriving DecidableEq, Repr

inductive Action
  | start
  | stop
  deriving DecidableEq, Repr

structure InstanceDetails where
  availabilityDomain : Option String
  lifecycleState : LifecycleState

structure Attachment where
  id : Option OCID
  bootVolumeID : Option OCID
  deriving DecidableEq, Repr

/-- An answer is `none`, or `false`, if the request failed; what was created may come without its id. -/
inductive Event
  | getInstance (id : OCID) (answer : Option LifecycleState)
  | instanceAction (id : OCID) (action : Action) (ok : Bool)
  | launchTaskInstance (answer : Option (Option OCID))
  | terminateInstance (id : OCID) (ok : Bool)
  | getInstanceVNICs (id : OCID)
  | listBootVolumeAttachments (instanceID : OCID) (answer : Option (List Attachment))
  | createBootVolumeBackup (bootVolumeID : OCID) (answer : Option (Option OCID))
  | getBootVolumeBackup (id : OCID) (answer : Option BackupState)
  | deleteBootVolumeBackup (id : OCID) (ok : Bool)
  | createBootVolume (sourceVolumeID : OCID) (answer : Option (Option OCID))
  | getBootVolume (id : OCID) (answer : Option VolumeState)
  | deleteBootVolume (id : OCID) (ok : Bool)
  | attachBootVolume (bootVolumeID instanceID : OCID) (ok : Bool)
  | detachBootVolume (attachmentID : OCID) (ok : Bool)
  | ensurePublicSubnet (answer : Option (Option OCID))
  | findImageForOS (answer : Option (Option OCID))
  deriving DecidableEq, Repr

def strOr (p : Option String) (fallback : String) : String := p.getD fallback

/-- What `WaitForState` makes of an answer. -/
def stateVerdict (desired : LifecycleState) : Option LifecycleState → Traced.Verdict Unit
  | none => .failed ()
  | some state =>
    if state = desired then .ready
    else if state = .terminated ∨ state = .terminating then .failed ()
    else .wait

/-- Whether the instance gets into the state; the polls are those until the timeout. -/
def reached (desired : LifecycleState) (polls : List (Traced.Poll LifecycleState)) : Bool :=
  (Traced.poll id (stateVerdict desired) () polls).result matches .ok true

def waitForState {ρ : Type} (id : OCID) (desired : LifecycleState) (polls : List (Traced.Poll LifecycleState)) :
    Traced Event ρ Bool :=
  ⟨(Traced.poll (.getInstance id) (stateVerdict desired) () polls).trace, .ok (reached desired polls)⟩

theorem waitForState_ok {ρ : Type} {id : OCID} {desired : LifecycleState}
    {polls : List (Traced.Poll LifecycleState)} {b : Bool} :
    (waitForState id desired polls : Traced Event ρ Bool).result = .ok b ↔ reached desired polls = b := by
  simp [waitForState]

theorem all_waitForState {ρ : Type} {id : OCID} {desired : LifecycleState}
    {polls : List (Traced.Poll LifecycleState)} {P : Event → Prop} (h : ∀ answer, P (.getInstance id answer)) :
    (waitForState id desired polls : Traced Event ρ Bool).All P := by
  have hpoll : (Traced.poll (.getInstance id) (stateVerdict desired) () polls).All P := Traced.all_poll h
  exact hpoll

end OciHelper.Instances.BootVolumes
