import Mathlib.Logic.Function.Basic
import Mathlib.Tactic.SplitIfs

/-!
# Netboot rescue

* `stopInstance`, `createBootVolumeFromImage` : what the two handlers call;
* `handleNetbootRescue`, `handleNetbootRescueStop` : each call of theirs to the service may fail;
* `Undone` : the instance is as before the rescue, or one more stop makes it so;
* `rescue_undone_iff` : which rescues and stops leave it so.

The calls that roll back, and those that terminate the temporary instance after an error, succeed.
-/

namespace OciHelper.Instances

inductive LifecycleState
  | moving
  | provisioning
  | running
  | starting
  | stopping
  | stopped
  | creatingImage
  | terminating
  | terminated
  deriving DecidableEq, Repr

abbrev VolumeID := List Char

/-- A key that is not there has no value. -/
abbrev Tags := List Char → Option (List Char)

def netbootRescueTag : List Char := "oci-helper-netboot-rescue-orig-bv".toList

/-- `bootVolume` is the volume that is attached. -/
structure Instance where
  state : LifecycleState
  freeformTags : Tags
  bootVolume : Option VolumeID

/-- The instance, and the boot volumes that exist. -/
structure World where
  inst : Instance
  volumes : List VolumeID

structure NetbootRequest where
  tenantID : Int
  instanceID : List Char
  rescueImageID : List Char

inductive CreateError
  | launch
  | nilID
  | timeoutStart
  | stop
  | timeoutStop
  | attachment
  | nilVolumeID
  | nilAttachmentID
  | detach
  | terminate
  deriving DecidableEq, Repr

inductive NetbootError
  | required
  | client
  | getInstance
  | alreadyActive
  | notActive
  | stop
  | timeout
  | state (current : LifecycleState)
  | attachment
  | nilVolumeID
  | subnet
  | detach
  | noImage
  | create (e : CreateError)
  | attach
  | start
  deriving DecidableEq, Repr

/-! ## The calls -/

namespace World

def setState (w : World) (s : LifecycleState) : World := { w with inst := { w.inst with state := s } }

def setTags (w : World) (tags : Tags) : World := { w with inst := { w.inst with freeformTags := tags } }

def attach (w : World) (bv : VolumeID) : World := { w with inst := { w.inst with bootVolume := some bv } }

def detach (w : World) : World := { w with inst := { w.inst with bootVolume := none } }

/-- The service keeps a volume that is attached. -/
def delete (w : World) (bv : VolumeID) : World :=
  if w.inst.bootVolume = some bv then w else { w with volumes := w.volumes.filter (· ≠ bv) }

/-- The tags without the one of the rescue. -/
def cleanedTags (w : World) : Tags := fun k => if k = netbootRescueTag then none else w.inst.freeformTags k

end World

/-- Step 3 of both handlers. An instance that did not stop in time goes on stopping. -/
def stopInstance (stop wait : Bool) (w : World) : World × Except NetbootError Unit :=
  if w.inst.state = .running ∨ w.inst.state = .starting then
    if stop = false then (w, .error .stop)
    else if wait = false then (w.setState .stopping, .error .timeout)
    else (w.setState .stopped, .ok ())
  else if w.inst.state = .stopped then (w, .ok ())
  else (w, .error (.state w.inst.state))

/-- How the service answers to `CreateBootVolumeFromImage`. The launch answers with the id of the
temporary instance, empty where there is none, and it makes the boot volume. -/
structure CreateAnswers where
  launch : Option (List Char × VolumeID)
  running : Bool
  stop : Bool
  stopped : Bool
  attachment : Bool
  volumeID : Bool
  attachmentID : Bool
  detach : Bool
  terminate : Bool

/-- The volumes that are left, and the new one. -/
def createBootVolumeFromImage (a : CreateAnswers) (volumes : List VolumeID) :
    List VolumeID × Except CreateError VolumeID :=
  match a.launch with
  | none => (volumes, .error .launch)
  | some (tempID, bvID) =>
    if tempID = [] then (volumes ++ [bvID], .error .nilID)
    -- the temporary instance is terminated with its volume
    else if a.running = false then (volumes, .error .timeoutStart)
    else if a.stop = false then (volumes, .error .stop)
    else if a.stopped = false then (volumes, .error .timeoutStop)
    else if a.attachment = false then (volumes, .error .attachment)
    else if a.volumeID = false then (volumes, .error .nilVolumeID)
    -- from here on the volume is preserved
    else if a.attachmentID = false then (volumes ++ [bvID], .error .nilAttachmentID)
    else if a.detach = false then (volumes ++ [bvID], .error .detach)
    else if a.terminate = false then (volumes ++ [bvID], .error .terminate)
    else (volumes ++ [bvID], .ok bvID)

structure RescueAnswers where
  client : Bool
  getInstance : Bool
  stop : Bool
  wait : Bool
  attachment : Bool
  volumeID : Bool
  subnet : Bool
  detach : Bool
  images : Bool
  create : CreateAnswers
  attach : Bool
  tag : Bool
  start : Bool

structure StopAnswers where
  client : Bool
  getInstance : Bool
  stop : Bool
  wait : Bool
  attachment : Bool
  volumeID : Bool
  detach : Bool
  attach : Bool
  clear : Bool
  delete : Bool
  start : Bool

/-! ## The handlers -/

/-- Steps 11 and 12: a failed tag update is only logged. -/
def tagAndStart (a : RescueAnswers) (originalBV : VolumeID) (w : World) : World × Except NetbootError Unit :=
  let w := if a.tag then w.setTags (Function.update (fun _ => none) netbootRescueTag (some originalBV)) else w
  if a.start then (w.setState .starting, .ok ()) else (w, .error .start)

/-- Steps 7 to 12, after the original volume was detached. -/
def attachRescue (req : NetbootRequest) (a : RescueAnswers) (originalBV : VolumeID) (w : World) :
    World × Except NetbootError Unit :=
  if req.rescueImageID = [] ∧ a.images = false then (w.attach originalBV, .error .noImage)
  else
    match createBootVolumeFromImage a.create w.volumes with
    | (volumes, .error e) => (({ w with volumes } : World).attach originalBV, .error (.create e))
    | (volumes, .ok rescueBV) =>
      let w : World := { w with volumes }
      if a.attach = false then ((w.delete rescueBV).attach originalBV, .error .attach)
      else tagAndStart a originalBV (w.attach rescueBV)

/-- Steps 4 to 6. -/
def detachOriginal (req : NetbootRequest) (a : RescueAnswers) (w : World) : World × Except NetbootError Unit :=
  if a.attachment = false then (w, .error .attachment)
  else
    match w.inst.bootVolume with
    | none => (w, .error .attachment)
    | some originalBV =>
      if a.volumeID = false then (w, .error .nilVolumeID)
      else if a.subnet = false then (w, .error .subnet)
      else if a.detach = false then (w, .error .detach)
      else attachRescue req a originalBV w.detach

def handleNetbootRescue (req : NetbootRequest) (a : RescueAnswers) (w : World) :
    World × Except NetbootError Unit :=
  if req.tenantID = 0 ∨ req.instanceID = [] then (w, .error .required)
  else if a.client = false then (w, .error .client)
  else if a.getInstance = false then (w, .error .getInstance)
  else if w.inst.freeformTags netbootRescueTag ≠ none then (w, .error .alreadyActive)
  else
    match stopInstance a.stop a.wait w with
    | (w, .error e) => (w, .error e)
    | (w, .ok ()) => detachOriginal req a w

/-- Steps 7 to 9; the tags are those that step 1 read. -/
def clearAndStart (a : StopAnswers) (rescueBV : VolumeID) (w : World) : World × Except NetbootError Unit :=
  let w := if a.clear then w.setTags w.cleanedTags else w
  let w := if a.volumeID ∧ rescueBV ≠ [] ∧ a.delete then w.delete rescueBV else w
  if a.start then (w.setState .starting, .ok ()) else (w, .error .start)

local instance : LawfulBEq VolumeID := inferInstance

/-- Steps 4 to 9. -/
def detachRescue (a : StopAnswers) (originalBV : VolumeID) (w : World) : World × Except NetbootError Unit :=
  if a.attachment = false then (w, .error .attachment)
  else
    match w.inst.bootVolume with
    | none => (w, .error .attachment)
    | some rescueBV =>
      if a.detach = false then (w, .error .detach)
      else if a.attach = true ∧ originalBV ∈ w.volumes then clearAndStart a rescueBV (w.detach.attach originalBV)
      else (w.detach, .error .attach)

def handleNetbootRescueStop (req : NetbootRequest) (a : StopAnswers) (w : World) :
    World × Except NetbootError Unit :=
  if req.tenantID = 0 ∨ req.instanceID = [] then (w, .error .required)
  else if a.client = false then (w, .error .client)
  else if a.getInstance = false then (w, .error .getInstance)
  else
    match w.inst.freeformTags netbootRescueTag with
    | none | some [] => (w, .error .notActive)
    | some originalBV =>
      match stopInstance a.stop a.wait w with
      | (w, .error e) => (w, .error e)
      | (w, .ok ()) => detachRescue a originalBV w

/-! ## What a rescue should leave -/

def LifecycleState.settled : LifecycleState → LifecycleState
  | .starting => .running
  | .stopping => .stopped
  | s => s

/-- The world when its instance has started or stopped. -/
def World.settled (w : World) : World := w.setState w.inst.state.settled

/-- The instance has its volume, its tags and its power state of `w` again. -/
structure Restored (w w' : World) : Prop where
  inst : w'.settled.inst = w.inst
  volume : ∀ bv, w.inst.bootVolume = some bv → bv ∈ w'.volumes

/-- A later stop restores the instance. -/
def Recoverable (req : NetbootRequest) (w w' : World) : Prop :=
  ∃ a w'', handleNetbootRescueStop req a w'.settled = (w'', .ok ()) ∧ Restored w w''

def Undone (req : NetbootRequest) (w w' : World) : Prop := Restored w w' ∨ Recoverable req w w'

/-- What a stop may leave: one that succeeds restores the instance. -/
def StopUndoes (req : NetbootRequest) (w : World) : World × Except NetbootError Unit → Prop
  | (w', .ok ()) => Restored w w'
  | (w', .error _) => Undone req w w'

/-- What a rescue may leave, and after one that succeeds the stop that `b` answers. -/
def RescueUndone (req : NetbootRequest) (b : StopAnswers) (w : World) (res : World × Except NetbootError Unit) :
    Prop :=
  Undone req w res.1 ∧ (res.2 = .ok () → StopUndoes req w (handleNetbootRescueStop req b res.1.settled))

/-- An instance that is running or stopped, with its boot volume. -/
structure Bootable where
  world : World
  bv : VolumeID
  power : world.inst.state = .running ∨ world.inst.state = .stopped
  attached : world.inst.bootVolume = some bv
  volume : bv ∈ world.volumes
  id : bv ≠ []

/-! ## When it does -/

/-- The calls of the temporary instance succeed. -/
def CreateAnswers.Succeeds (a : CreateAnswers) : Prop :=
  (∃ tempID bvID, a.launch = some (tempID, bvID) ∧ tempID ≠ []) ∧ a.running = true ∧ a.stop = true ∧
    a.stopped = true ∧ a.attachment = true ∧ a.volumeID = true ∧ a.attachmentID = true ∧
    a.detach = true ∧ a.terminate = true

/-- The rescue volume is attached to an instance that has stopped. -/
def RescueAnswers.Attaches (a : RescueAnswers) (req : NetbootRequest) : Prop :=
  a.attachment = true ∧ a.volumeID = true ∧ a.subnet = true ∧ a.detach = true ∧
    (req.rescueImageID = [] → a.images = true) ∧ a.create.Succeeds ∧ a.attach = true

/-- The rescue ends before it acts on the instance. -/
def RescueAnswers.EndsEarly (a : RescueAnswers) (req : NetbootRequest) (inst : Instance) : Prop :=
  req.tenantID = 0 ∨ req.instanceID = [] ∨ a.client = false ∨ a.getInstance = false ∨
    inst.freeformTags netbootRescueTag ≠ none ∨ inst.state = .running ∧ a.stop = false

/-- The stop ends before it detaches the rescue volume, or attaches the original one, with its last two calls
succeeding or failing together. -/
def StopAnswers.Safe (b : StopAnswers) : Prop :=
  b.client = false ∨ b.getInstance = false ∨ b.stop = false ∨ b.wait = false ∨ b.attachment = false ∨
    b.detach = false ∨ b.attach = true ∧ b.clear = b.start

/-- The instance ran without tags, and no call failed that cannot be made up for. -/
def SafeRescue (req : NetbootRequest) (a : RescueAnswers) (b : StopAnswers) (inst : Instance) : Prop :=
  inst.state = .running ∧ (∀ k, inst.freeformTags k = none) ∧
    (a.stop = true ∧ a.wait = true ∧ a.Attaches req ∧ a.tag = true) ∧ (a.start = true → b.Safe)

/-- The volume of the temporary instance is a new one. -/
def CreateAnswers.Fresh (a : CreateAnswers) (volumes : List VolumeID) : Prop :=
  ∀ tempID bvID, a.launch = some (tempID, bvID) → bvID ∉ volumes

/-! ## The volume of the temporary instance -/

theorem createBootVolumeFromImage_ok {a : CreateAnswers} (h : a.Succeeds) (volumes : List VolumeID) :
    ∃ tempID bvID, a.launch = some (tempID, bvID) ∧
      createBootVolumeFromImage a volumes = (volumes ++ [bvID], .ok bvID) := by
  obtain ⟨⟨tempID, bvID, hl, ht⟩, h₁, h₂, h₃, h₄, h₅, h₆, h₇, h₈⟩ := h
  refine ⟨tempID, bvID, hl, ?_⟩
  unfold createBootVolumeFromImage
  simp [hl, ht, h₁, h₂, h₃, h₄, h₅, h₆, h₇, h₈]

theorem createBootVolumeFromImage_error {a : CreateAnswers} (h : ¬ a.Succeeds) (volumes : List VolumeID) :
    ∃ vs e, createBootVolumeFromImage a volumes = (vs, .error e) ∧ volumes ⊆ vs := by
  unfold createBootVolumeFromImage
  cases hl : a.launch with
  | none => exact ⟨_, _, rfl, List.Subset.refl _⟩
  | some l =>
    obtain ⟨tempID, bvID⟩ := l
    have hsub : volumes ⊆ volumes ++ [bvID] := List.subset_append_left _ _
    dsimp only
    by_cases ht : tempID = []
    · rw [if_pos ht]
      exact ⟨_, _, rfl, hsub⟩
    rw [if_neg ht]
    iterate 5
      split
      · exact ⟨_, _, rfl, List.Subset.refl _⟩
    iterate 3
      split
      · exact ⟨_, _, rfl, hsub⟩
    rename_i h₁ h₂ h₃ h₄ h₅ h₆ h₇ h₈
    rw [Bool.not_eq_false] at h₁ h₂ h₃ h₄ h₅ h₆ h₇ h₈
    exact absurd ⟨⟨tempID, bvID, hl, ht⟩, h₁, h₂, h₃, h₄, h₅, h₆, h₇, h₈⟩ h

/-! ## The steps of a rescue -/

/-- An error puts the original volume back. -/
theorem detachOriginal_error {req : NetbootRequest} {a : RescueAnswers} (h : ¬ a.Attaches req) {w : World}
    {bv : VolumeID} (hbv : w.inst.bootVolume = some bv) (hvol : bv ∈ w.volumes)
    (hfresh : a.create.Fresh w.volumes) :
    ∃ w' e, detachOriginal req a w = (w', .error e) ∧ w'.inst = w.inst ∧ bv ∈ w'.volumes := by
  have hback : ∀ vs : List VolumeID,
      (({ w.detach with volumes := vs } : World).attach bv).inst = w.inst := fun vs => by
    unfold World.attach World.detach
    rw [← hbv]
  unfold detachOriginal
  rw [hbv]
  dsimp only
  split_ifs with h₁ h₂ h₃ h₄
  · exact ⟨w, _, rfl, rfl, hvol⟩
  · exact ⟨w, _, rfl, rfl, hvol⟩
  · exact ⟨w, _, rfl, rfl, hvol⟩
  · exact ⟨w, _, rfl, rfl, hvol⟩
  unfold attachRescue
  by_cases himg : req.rescueImageID = [] ∧ a.images = false
  · rw [if_pos himg]
    exact ⟨_, _, rfl, hback w.volumes, hvol⟩
  rw [if_neg himg]
  by_cases hc : a.create.Succeeds
  · obtain ⟨tempID, rescueBV, hl, hrun⟩ := createBootVolumeFromImage_ok hc w.detach.volumes
    rw [hrun]
    dsimp only
    have hattach : a.attach = false := by
      by_contra hne
      simp only [Bool.not_eq_false] at h₁ h₂ h₃ h₄ hne
      have himages : req.rescueImageID = [] → a.images = true := fun hid => by
        rw [not_and, Bool.not_eq_false] at himg
        exact himg hid
      exact h ⟨h₁, h₂, h₃, h₄, himages, hc, hne⟩
    rw [if_pos hattach]
    refine ⟨_, _, rfl, ?_, ?_⟩
    · unfold World.delete
      rw [if_neg (by show (none : Option VolumeID) ≠ some rescueBV; exact Option.some_ne_none _ |>.symm)]
      exact hback _
    · have hne : bv ≠ rescueBV := fun heq => hfresh tempID rescueBV hl (heq ▸ hvol)
      unfold World.delete
      rw [if_neg (by show (none : Option VolumeID) ≠ some rescueBV; exact Option.some_ne_none _ |>.symm)]
      show bv ∈ (w.volumes ++ [rescueBV]).filter (· ≠ rescueBV)
      simp [hvol, hne]
  · obtain ⟨vs, e, hrun, hsub⟩ := createBootVolumeFromImage_error hc w.detach.volumes
    rw [hrun]
    exact ⟨_, _, rfl, hback vs, hsub hvol⟩

theorem detachOriginal_attaches {req : NetbootRequest} {a : RescueAnswers} (h : a.Attaches req) {w : World}
    {bv : VolumeID} (hbv : w.inst.bootVolume = some bv) (hvol : bv ∈ w.volumes)
    (hfresh : a.create.Fresh w.volumes) :
    ∃ rescueBV w', rescueBV ≠ bv ∧ w'.inst = { w.inst with bootVolume := some rescueBV } ∧ bv ∈ w'.volumes ∧
      detachOriginal req a w = tagAndStart a bv w' := by
  obtain ⟨h₁, h₂, h₃, h₄, himg, hc, hattach⟩ := h
  obtain ⟨tempID, rescueBV, hl, hrun⟩ := createBootVolumeFromImage_ok hc w.detach.volumes
  have hne : rescueBV ≠ bv := fun heq => hfresh tempID rescueBV hl (heq ▸ hvol)
  refine ⟨rescueBV, ({ w.detach with volumes := w.volumes ++ [rescueBV] } : World).attach rescueBV, hne, rfl,
    List.mem_append_left _ hvol, ?_⟩
  have hnone : ¬ (req.rescueImageID = [] ∧ a.images = false) := fun ⟨hid, hno⟩ =>
    Bool.false_ne_true (hno.symm.trans (himg hid))
  unfold detachOriginal attachRescue
  rw [hbv]
  simp only [h₁, h₂, h₃, h₄, hattach, if_neg hnone, hrun, Bool.true_eq_false, if_false]
  rfl

/-! ## The steps of a stop -/

/-- The instance runs from the rescue volume, or it has stopped; the tag names `bv`. -/
structure InRescue (w : World) (bv : VolumeID) : Prop where
  power : w.inst.state = .running ∨ w.inst.state = .starting ∨ w.inst.state = .stopped
  tag : w.inst.freeformTags netbootRescueTag = some bv
  id : bv ≠ []
  attached : ∃ rescueBV, w.inst.bootVolume = some rescueBV
  volume : bv ∈ w.volumes

theorem stopInstance_ok {stop wait : Bool} {w w' : World} (h : stopInstance stop wait w = (w', .ok ())) :
    (w.inst.state = .running ∨ w.inst.state = .starting ∨ w.inst.state = .stopped) ∧
      w' = w.setState .stopped := by
  unfold stopInstance at h
  split_ifs at h with hon h₁ h₂ hoff
  · cases (Prod.mk.inj h).2
  · cases (Prod.mk.inj h).2
  · exact ⟨hon.elim Or.inl fun hs => Or.inr (Or.inl hs), ((Prod.mk.inj h).1).symm⟩
  · obtain ⟨rfl, -⟩ := Prod.mk.inj h
    refine ⟨Or.inr (Or.inr hoff), ?_⟩
    unfold World.setState
    rw [← hoff]
  · cases (Prod.mk.inj h).2

theorem stopInstance_running {w : World} (h : w.inst.state = .running) (stop wait : Bool) :
    stopInstance stop wait w =
      if stop = false then (w, .error .stop)
      else if wait = false then (w.setState .stopping, .error .timeout)
      else (w.setState .stopped, .ok ()) := by
  unfold stopInstance
  rw [if_pos (Or.inl h)]

theorem stopInstance_stopped {w : World} (h : w.inst.state = .stopped) (stop wait : Bool) :
    stopInstance stop wait w = (w, .ok ()) := by
  unfold stopInstance
  rw [if_neg (by simp [h]), if_pos h]

theorem World.delete_inst (w : World) (bv : VolumeID) : (w.delete bv).inst = w.inst := by
  unfold World.delete
  split_ifs <;> rfl

theorem World.mem_delete {w : World} {bv : VolumeID} (hb : w.inst.bootVolume = some bv) (hv : bv ∈ w.volumes)
    (rescueBV : VolumeID) : bv ∈ (w.delete rescueBV).volumes := by
  unfold World.delete
  split_ifs with h
  · exact hv
  · have hne : bv ≠ rescueBV := fun heq => h (heq ▸ hb)
    show bv ∈ w.volumes.filter (· ≠ rescueBV)
    simp [hv, hne]

/-- The world before the last start. -/
theorem clearAndStart_eq (a : StopAnswers) (rescueBV : VolumeID) {w : World} {bv : VolumeID}
    (hb : w.inst.bootVolume = some bv) (hv : bv ∈ w.volumes) :
    ∃ w', w'.inst = { w.inst with freeformTags := if a.clear then w.cleanedTags else w.inst.freeformTags } ∧
      bv ∈ w'.volumes ∧
      clearAndStart a rescueBV w = if a.start then (w'.setState .starting, .ok ()) else (w', .error .start) := by
  have hcleared : ∀ w₁ : World, w₁ = (if a.clear then w.setTags w.cleanedTags else w) →
      w₁.inst = { w.inst with freeformTags := if a.clear then w.cleanedTags else w.inst.freeformTags } ∧
        w₁.inst.bootVolume = some bv ∧ bv ∈ w₁.volumes := by
    rintro w₁ rfl
    cases a.clear
    · exact ⟨rfl, hb, hv⟩
    · exact ⟨rfl, hb, hv⟩
  obtain ⟨hinst, hb₁, hv₁⟩ := hcleared _ rfl
  unfold clearAndStart
  by_cases hdel : a.volumeID = true ∧ rescueBV ≠ [] ∧ a.delete = true
  · refine ⟨_, ?_, World.mem_delete hb₁ hv₁ rescueBV, ?_⟩
    · rw [World.delete_inst]
      exact hinst
    · dsimp only
      rw [if_pos hdel]
  · refine ⟨_, hinst, hv₁, ?_⟩
    dsimp only
    rw [if_neg hdel]

theorem detachRescue_eq (a : StopAnswers) (bv : VolumeID) {w : World} {rescueBV : VolumeID}
    (hb : w.inst.bootVolume = some rescueBV) :
    detachRescue a bv w =
      if a.attachment = false then (w, .error .attachment)
      else if a.detach = false then (w, .error .detach)
      else if a.attach = true ∧ bv ∈ w.volumes then clearAndStart a rescueBV (w.detach.attach bv)
      else (w.detach, .error .attach) := by
  unfold detachRescue
  rw [hb]

theorem detachRescue_none (a : StopAnswers) (bv : VolumeID) {w : World} (hb : w.inst.bootVolume = none) :
    detachRescue a bv w = (w, .error .attachment) := by
  unfold detachRescue
  rw [hb]
  exact ite_self _

theorem handleNetbootRescueStop_eq {req : NetbootRequest} (hreq : ¬ (req.tenantID = 0 ∨ req.instanceID = []))
    (a : StopAnswers) {w : World} {bv : VolumeID} (htag : w.inst.freeformTags netbootRescueTag = some bv)
    (hid : bv ≠ []) :
    handleNetbootRescueStop req a w =
      if a.client = false then (w, .error .client)
      else if a.getInstance = false then (w, .error .getInstance)
      else
        match stopInstance a.stop a.wait w with
        | (w, .error e) => (w, .error e)
        | (w, .ok ()) => detachRescue a bv w := by
  unfold handleNetbootRescueStop
  rw [if_neg hreq, htag]
  cases bv with
  | nil => exact absurd rfl hid
  | cons c cs => rfl

/-- Without a rescue tag the instance is left alone. -/
theorem handleNetbootRescueStop_noTag (req : NetbootRequest) (a : StopAnswers) {w : World}
    (htag : ∀ bv, w.inst.freeformTags netbootRescueTag = some bv → bv = []) :
    ∃ e, handleNetbootRescueStop req a w = (w, .error e) := by
  unfold handleNetbootRescueStop
  split_ifs
  · exact ⟨_, rfl⟩
  · exact ⟨_, rfl⟩
  · exact ⟨_, rfl⟩
  cases ht : w.inst.freeformTags netbootRescueTag with
  | none => exact ⟨_, rfl⟩
  | some bv =>
    obtain rfl := htag bv ht
    exact ⟨_, rfl⟩

/-- What a stop that succeeds did. -/
theorem handleNetbootRescueStop_ok {req : NetbootRequest} {a : StopAnswers} {w w' : World}
    (h : handleNetbootRescueStop req a w = (w', .ok ())) :
    ∃ bv, ¬ (req.tenantID = 0 ∨ req.instanceID = []) ∧ InRescue w bv ∧
      w'.inst = ⟨.starting, if a.clear then w.cleanedTags else w.inst.freeformTags, some bv⟩ := by
  have hreq : ¬ (req.tenantID = 0 ∨ req.instanceID = []) := fun hreq => by
    unfold handleNetbootRescueStop at h
    rw [if_pos hreq] at h
    cases (Prod.mk.inj h).2
  by_cases hno : ∀ bv, w.inst.freeformTags netbootRescueTag = some bv → bv = []
  · obtain ⟨e, he⟩ := handleNetbootRescueStop_noTag req a hno
    rw [he] at h
    cases (Prod.mk.inj h).2
  simp only [not_forall] at hno
  obtain ⟨bv, htag, hid⟩ := hno
  rw [handleNetbootRescueStop_eq hreq a htag hid] at h
  by_cases hclient : a.client = false
  · rw [if_pos hclient] at h
    cases (Prod.mk.inj h).2
  rw [if_neg hclient] at h
  by_cases hget : a.getInstance = false
  · rw [if_pos hget] at h
    cases (Prod.mk.inj h).2
  rw [if_neg hget] at h
  cases hstop : stopInstance a.stop a.wait w with
  | mk w₁ r =>
    rw [hstop] at h
    cases r with
    | error e => cases (Prod.mk.inj h).2
    | ok u =>
      obtain ⟨hpower, rfl⟩ := stopInstance_ok hstop
      dsimp only at h
      cases hboot : w.inst.bootVolume with
      | none =>
        rw [detachRescue_none a bv (w := w.setState .stopped) hboot] at h
        cases (Prod.mk.inj h).2
      | some rescueBV =>
        rw [detachRescue_eq a bv (w := w.setState .stopped) hboot] at h
        split_ifs at h with hatt hdet hattach
        · cases (Prod.mk.inj h).2
        · cases (Prod.mk.inj h).2
        · obtain ⟨w₂, hinst, -, hrun⟩ := clearAndStart_eq a rescueBV
            (w := (w.setState .stopped).detach.attach bv) rfl hattach.2
          rw [hrun] at h
          split_ifs at h with hstart
          · obtain ⟨rfl, -⟩ := Prod.mk.inj h
            refine ⟨bv, hreq, ⟨hpower, htag, hid, ⟨rescueBV, hboot⟩, hattach.2⟩, ?_⟩
            unfold World.setState
            rw [hinst]
            rfl
          · cases (Prod.mk.inj h).2
        · cases (Prod.mk.inj h).2

/-! ## What a later stop makes up for -/

def StopAnswers.allOk : StopAnswers := ⟨true, true, true, true, true, true, true, true, true, true, true⟩

theorem InRescue.stop_allOk {req : NetbootRequest} (hreq : ¬ (req.tenantID = 0 ∨ req.instanceID = [])) {w : World}
    {bv : VolumeID} (h : InRescue w bv) :
    ∃ w', handleNetbootRescueStop req .allOk w = (w', .ok ()) ∧
      w'.inst = ⟨.starting, w.cleanedTags, some bv⟩ ∧ bv ∈ w'.volumes := by
  obtain ⟨rescueBV, hboot⟩ := h.attached
  have hstop : stopInstance true true w = (w.setState .stopped, .ok ()) := by
    unfold stopInstance
    obtain hs | hs | hs := h.power
    · simp [hs]
    · simp [hs]
    · simp only [hs, World.setState, reduceCtorEq, or_self, if_false, if_true]
      rw [← hs]
  obtain ⟨w₂, hinst, hvol, hrun⟩ := clearAndStart_eq .allOk rescueBV
    (w := (w.setState .stopped).detach.attach bv) rfl h.volume
  refine ⟨w₂.setState .starting, ?_, ?_, hvol⟩
  · rw [handleNetbootRescueStop_eq hreq _ h.tag h.id]
    simp only [StopAnswers.allOk, Bool.true_eq_false, if_false, hstop]
    rw [← StopAnswers.allOk]
    rw [detachRescue_eq .allOk bv (w := w.setState .stopped) hboot]
    show (if true = true ∧ bv ∈ w.volumes then _ else _) = _
    rw [if_pos ⟨rfl, h.volume⟩, hrun]
    rfl
  · unfold World.setState
    rw [hinst]
    rfl

theorem recoverable_iff (req : NetbootRequest) {b : Bootable}
    (hnone : b.world.inst.freeformTags netbootRescueTag = none) (w' : World) :
    Recoverable req b.world w' ↔ ¬ (req.tenantID = 0 ∨ req.instanceID = []) ∧ InRescue w'.settled b.bv ∧
      b.world.inst.state = .running ∧ b.world.inst.freeformTags = w'.cleanedTags := by
  constructor
  · rintro ⟨a, w'', hrun, hinst, -⟩
    obtain ⟨bv, hreq, hin, hw⟩ := handleNetbootRescueStop_ok hrun
    have hback : b.world.inst = ⟨.running, if a.clear then w'.cleanedTags else w'.inst.freeformTags, some bv⟩ := by
      rw [← hinst]
      unfold World.settled World.setState
      rw [hw]
      rfl
    have hbv : bv = b.bv := by
      have := b.attached
      rw [hback] at this
      exact Option.some.inj this
    subst hbv
    refine ⟨hreq, hin, by rw [hback], ?_⟩
    rw [hback] at hnone ⊢
    cases hclear : a.clear with
    | true => rfl
    | false =>
      rw [hclear] at hnone
      cases hnone.symm.trans hin.tag
  · rintro ⟨hreq, hin, hstate, htags⟩
    obtain ⟨w'', hrun, hinst, hvol⟩ := hin.stop_allOk hreq
    refine ⟨_, w'', hrun, ?_, fun bv hbv => ?_⟩
    · unfold World.settled World.setState
      rw [hinst]
      show (⟨.running, w'.cleanedTags, some b.bv⟩ : Instance) = b.world.inst
      rw [← hstate, ← htags, ← b.attached]
    · rw [b.attached] at hbv
      exact Option.some.inj hbv ▸ hvol

/-! ## A stop -/

def rescueTags (bv : VolumeID) : Tags := Function.update (fun _ => none) netbootRescueTag (some bv)

theorem rescueTags_tag (bv : VolumeID) : rescueTags bv netbootRescueTag = some bv := Function.update_self _ _ _

theorem cleanedTags_rescueTags {w : World} {bv : VolumeID} (h : w.inst.freeformTags = rescueTags bv) :
    w.cleanedTags = fun _ => none := by
  funext k
  unfold World.cleanedTags
  by_cases hk : k = netbootRescueTag
  · rw [if_pos hk]
  · rw [if_neg hk, h]
    exact Function.update_of_ne hk _ _

theorem not_restored {b : Bootable} {w' : World} (h : w'.inst.bootVolume ≠ some b.bv) :
    ¬ Restored b.world w' := fun hr => by
  have hinst := congrArg Instance.bootVolume hr.inst
  exact h (hinst.trans b.attached)

/-- The instance that ran without tags, and that the rescue tag is set of. -/
theorem recoverable_of_tags {req : NetbootRequest} (hreq : ¬ (req.tenantID = 0 ∨ req.instanceID = []))
    {b : Bootable} (hrun : b.world.inst.state = .running) (hempty : b.world.inst.freeformTags = fun _ => none)
    {w' : World} (hpower : w'.inst.state.settled = .running ∨ w'.inst.state.settled = .stopped)
    (htags : w'.inst.freeformTags = rescueTags b.bv) (hboot : ∃ bv, w'.inst.bootVolume = some bv)
    (hvol : b.bv ∈ w'.volumes) : Recoverable req b.world w' := by
  refine (recoverable_iff req (by rw [hempty]) w').mpr ⟨hreq, ?_, hrun, ?_⟩
  · exact ⟨hpower.imp_right Or.inr, (congrFun htags _).trans (rescueTags_tag b.bv), b.id, hboot, hvol⟩
  · rw [cleanedTags_rescueTags htags]
    exact hempty

/-- Nothing makes up for an instance that ran, has stopped and bears no rescue tag. -/
theorem not_undone_of_stopped {req : NetbootRequest} {b : Bootable}
    (hnone : b.world.inst.freeformTags netbootRescueTag = none) (hrun : b.world.inst.state = .running) {w : World}
    (hstate : w.inst.state.settled = .stopped) (htag : w.inst.freeformTags netbootRescueTag = none) :
    ¬ Undone req b.world w := by
  rintro (hres | hrec)
  · have hback : w.inst.state.settled = b.world.inst.state := congrArg Instance.state hres.inst
    rw [hstate, hrun] at hback
    cases hback
  · obtain ⟨-, hin, -⟩ := (recoverable_iff req hnone w).mp hrec
    cases htag.symm.trans hin.tag

/-- The last two calls: the tag has to stay for a later stop if the instance does not start. -/
theorem clearAndStart_undoes_iff {req : NetbootRequest} (hreq : ¬ (req.tenantID = 0 ∨ req.instanceID = []))
    {b : Bootable} (hrun : b.world.inst.state = .running) (hempty : b.world.inst.freeformTags = fun _ => none)
    (a : StopAnswers) (rescueBV : VolumeID) {w : World} (hw : w.inst = ⟨.stopped, rescueTags b.bv, some b.bv⟩)
    (hvol : b.bv ∈ w.volumes) : StopUndoes req b.world (clearAndStart a rescueBV w) ↔ a.clear = a.start := by
  have htag : w.inst.freeformTags = rescueTags b.bv := by rw [hw]
  obtain ⟨w₂, hinst, hvol₂, heq⟩ := clearAndStart_eq a rescueBV (by rw [hw]) hvol
  rw [cleanedTags_rescueTags htag, hw] at hinst
  have hboot : w₂.inst.bootVolume = some b.bv := by rw [hinst]
  have hstate : w₂.inst.state = .stopped := by rw [hinst]
  have hsettled : w₂.inst.state.settled = .stopped := by rw [hstate]; rfl
  rw [heq]
  cases hclear : a.clear with
  | true =>
    have htags : w₂.inst.freeformTags = fun _ => none := by rw [hinst, hclear]; rfl
    cases hstart : a.start with
    | true =>
      refine iff_of_true ⟨?_, fun bv hbv => ?_⟩ rfl
      · show (⟨.running, w₂.inst.freeformTags, w₂.inst.bootVolume⟩ : Instance) = b.world.inst
        rw [htags, hboot, ← hempty, ← hrun, ← b.attached]
      · rw [b.attached] at hbv
        exact Option.some.inj hbv ▸ hvol₂
    | false =>
      refine iff_of_false ?_ (by simp)
      exact not_undone_of_stopped (by rw [hempty]) hrun hsettled (congrFun htags _)
  | false =>
    have htags : w₂.inst.freeformTags = rescueTags b.bv := by rw [hinst, hclear]; rfl
    cases hstart : a.start with
    | true =>
      refine iff_of_false (fun hres => ?_) (by simp)
      have hback : b.world.inst.freeformTags = w₂.inst.freeformTags :=
        (congrArg Instance.freeformTags hres.inst).symm
      rw [hempty, htags] at hback
      cases (congrFun hback netbootRescueTag).trans (rescueTags_tag b.bv)
    | false =>
      refine iff_of_true (Or.inr ?_) rfl
      exact recoverable_of_tags hreq hrun hempty (Or.inr hsettled) htags ⟨_, hboot⟩ hvol₂

/-- A stop that did not detach the rescue volume can be made again. -/
theorem undone_of_rescueTags {req : NetbootRequest} (hreq : ¬ (req.tenantID = 0 ∨ req.instanceID = []))
    {b : Bootable} (hrun : b.world.inst.state = .running) (hempty : b.world.inst.freeformTags = fun _ => none)
    {w : World} {s : LifecycleState} (hs : s.settled = .running ∨ s.settled = .stopped) {bv : VolumeID}
    (hw : w.inst = ⟨s, rescueTags b.bv, some bv⟩) (hvol : b.bv ∈ w.volumes) : Undone req b.world w :=
  Or.inr (recoverable_of_tags hreq hrun hempty (by rw [hw]; exact hs) (by rw [hw]) ⟨bv, by rw [hw]⟩ hvol)

theorem detachRescue_undoes_iff {req : NetbootRequest} (hreq : ¬ (req.tenantID = 0 ∨ req.instanceID = []))
    {b : Bootable} (hrun : b.world.inst.state = .running) (hempty : b.world.inst.freeformTags = fun _ => none)
    (a : StopAnswers) {w : World} {rescueBV : VolumeID}
    (hw : w.inst = ⟨.stopped, rescueTags b.bv, some rescueBV⟩) (hvol : b.bv ∈ w.volumes) :
    StopUndoes req b.world (detachRescue a b.bv w) ↔
      a.attachment = false ∨ a.detach = false ∨ a.attach = true ∧ a.clear = a.start := by
  have hkeep : Undone req b.world w := undone_of_rescueTags hreq hrun hempty (Or.inr rfl) hw hvol
  rw [detachRescue_eq a b.bv (by rw [hw])]
  by_cases hatt : a.attachment = false
  · rw [if_pos hatt]
    exact iff_of_true hkeep (Or.inl hatt)
  rw [if_neg hatt]
  by_cases hdet : a.detach = false
  · rw [if_pos hdet]
    exact iff_of_true hkeep (Or.inr (Or.inl hdet))
  rw [if_neg hdet]
  simp only [hatt, hdet, Bool.true_eq_false, false_or]
  by_cases hattach : a.attach = true
  · rw [if_pos ⟨hattach, hvol⟩, and_iff_right hattach]
    refine clearAndStart_undoes_iff hreq hrun hempty a rescueBV ?_ hvol
    show (⟨w.inst.state, w.inst.freeformTags, some b.bv⟩ : Instance) = _
    rw [hw]
  · rw [if_neg fun h => hattach h.1]
    refine iff_of_false ?_ fun h => hattach h.1
    -- the instance has no boot volume, and a stop needs one
    rintro (hres | hrec)
    · exact not_restored (by exact Option.some_ne_none _ |>.symm) hres
    · obtain ⟨-, hin, -⟩ := (recoverable_iff req (by rw [hempty]) _).mp hrec
      obtain ⟨bv, hbv⟩ := hin.attached
      cases hbv

theorem stopUndoes_iff {req : NetbootRequest} (hreq : ¬ (req.tenantID = 0 ∨ req.instanceID = [])) {b : Bootable}
    (hrun : b.world.inst.state = .running) (hempty : b.world.inst.freeformTags = fun _ => none) (a : StopAnswers)
    {w : World} {rescueBV : VolumeID} (hw : w.inst = ⟨.running, rescueTags b.bv, some rescueBV⟩)
    (hvol : b.bv ∈ w.volumes) :
    StopUndoes req b.world (handleNetbootRescueStop req a w) ↔ a.Safe := by
  have hkeep : Undone req b.world w := undone_of_rescueTags hreq hrun hempty (Or.inl rfl) hw hvol
  have hset : ∀ s : LifecycleState, (w.setState s).inst = ⟨s, rescueTags b.bv, some rescueBV⟩ := fun s => by
    unfold World.setState
    rw [hw]
  have htag : w.inst.freeformTags netbootRescueTag = some b.bv := by
    rw [hw]
    exact rescueTags_tag b.bv
  rw [handleNetbootRescueStop_eq hreq a htag b.id, stopInstance_running (by rw [hw])]
  unfold StopAnswers.Safe
  by_cases hclient : a.client = false
  · rw [if_pos hclient]
    exact iff_of_true hkeep (Or.inl hclient)
  rw [if_neg hclient]
  by_cases hget : a.getInstance = false
  · rw [if_pos hget]
    exact iff_of_true hkeep (Or.inr (Or.inl hget))
  rw [if_neg hget]
  by_cases hstop : a.stop = false
  · rw [if_pos hstop]
    exact iff_of_true hkeep (by simp [hstop])
  rw [if_neg hstop]
  by_cases hwait : a.wait = false
  · rw [if_pos hwait]
    exact iff_of_true (undone_of_rescueTags hreq hrun hempty (Or.inr rfl) (hset .stopping) hvol) (by simp [hwait])
  rw [if_neg hwait]
  simp only [hclient, hget, hstop, hwait, Bool.true_eq_false, false_or]
  exact detachRescue_undoes_iff hreq hrun hempty a (hset .stopped) hvol

/-! ## A rescue and its stop -/

section
variable (a : RescueAnswers) (bv : VolumeID) (w : World)

theorem tagAndStart_inst : (tagAndStart a bv w).1.inst =
    ⟨if a.start then .starting else w.inst.state, if a.tag then rescueTags bv else w.inst.freeformTags,
      w.inst.bootVolume⟩ := by
  unfold tagAndStart
  cases a.tag <;> cases a.start <;> rfl

theorem tagAndStart_volumes : (tagAndStart a bv w).1.volumes = w.volumes := by
  unfold tagAndStart
  cases a.tag <;> cases a.start <;> rfl

theorem tagAndStart_ok_iff : (tagAndStart a bv w).2 = .ok () ↔ a.start = true := by
  unfold tagAndStart
  cases a.start <;> simp

end

/-- A rescue that attaches its volume. -/
theorem tagAndStart_undone_iff {req : NetbootRequest} (hreq : ¬ (req.tenantID = 0 ∨ req.instanceID = []))
    (a : RescueAnswers) (s : StopAnswers) {b : Bootable}
    (hnone : b.world.inst.freeformTags netbootRescueTag = none) {w : World} {rescueBV : VolumeID}
    (hne : rescueBV ≠ b.bv)
    (hw : w.inst = ⟨.stopped, b.world.inst.freeformTags, some rescueBV⟩) (hvol : b.bv ∈ w.volumes) :
    RescueUndone req s b.world (tagAndStart a b.bv w) ↔
    b.world.inst.state = .running ∧ (∀ k, b.world.inst.freeformTags k = none) ∧ a.tag = true ∧
      (a.start = true → s.Safe) := by
  have hinst := tagAndStart_inst a b.bv w
  have hvol' : b.bv ∈ (tagAndStart a b.bv w).1.volumes := by rwa [tagAndStart_volumes]
  have hok := tagAndStart_ok_iff a b.bv w
  rw [hw] at hinst
  generalize tagAndStart a b.bv w = res at hinst hvol' hok
  have hpower : res.1.inst.state.settled = .running ∨ res.1.inst.state.settled = .stopped := by
    rw [hinst]
    cases a.start
    · exact Or.inr rfl
    · exact Or.inl rfl
  have hstarted : a.start = true → a.tag = true →
      res.1.settled.inst = ⟨.running, rescueTags b.bv, some rescueBV⟩ := by
    intro hstart htag
    unfold World.settled World.setState
    rw [hinst, hstart, htag]
    rfl
  constructor
  · rintro ⟨hundone, hstop⟩
    obtain hres | hrec := hundone
    · refine absurd hres (not_restored ?_)
      rw [hinst]
      exact fun h => hne (Option.some.inj h)
    obtain ⟨-, hin, hrun, hclean⟩ := (recoverable_iff req hnone _).mp hrec
    have htag : a.tag = true := by
      by_contra hno
      have hin' : res.1.inst.freeformTags netbootRescueTag = some b.bv := hin.tag
      rw [hinst, if_neg hno] at hin'
      cases hnone.symm.trans hin'
    have htags : res.1.inst.freeformTags = rescueTags b.bv := by rw [hinst, if_pos htag]
    have hempty : b.world.inst.freeformTags = fun _ => none := hclean.trans (cleanedTags_rescueTags htags)
    refine ⟨hrun, congrFun hempty, htag, fun hstart => ?_⟩
    exact (stopUndoes_iff hreq hrun hempty s (hstarted hstart htag) hvol').mp (hstop (hok.mpr hstart))
  · rintro ⟨hrun, hnoTags, htag, hsafe⟩
    have hempty : b.world.inst.freeformTags = fun _ => none := funext hnoTags
    have htags : res.1.inst.freeformTags = rescueTags b.bv := by rw [hinst, if_pos htag]
    have hboot : res.1.inst.bootVolume = some rescueBV := by rw [hinst]
    refine ⟨Or.inr (recoverable_of_tags hreq hrun hempty hpower htags ⟨_, hboot⟩ hvol'), fun hres => ?_⟩
    have hstart := hok.mp hres
    exact (stopUndoes_iff hreq hrun hempty s (hstarted hstart htag) hvol').mpr (hsafe hstart)

theorem Bootable.settled (b : Bootable) : b.world.inst.state.settled = b.world.inst.state := by
  obtain hs | hs := b.power
  · rw [hs]
    rfl
  · rw [hs]
    rfl

theorem Bootable.restored (b : Bootable) {w : World} (hinst : w.inst = b.world.inst) (hvol : b.bv ∈ w.volumes) :
    Restored b.world w := by
  refine ⟨?_, fun bv hbv => ?_⟩
  · show (⟨w.inst.state.settled, w.inst.freeformTags, w.inst.bootVolume⟩ : Instance) = b.world.inst
    rw [hinst, b.settled]
  · rw [b.attached] at hbv
    exact Option.some.inj hbv ▸ hvol

/-- The rescue of an instance that has stopped. -/
theorem detachOriginal_undone_iff {req : NetbootRequest} (hreq : ¬ (req.tenantID = 0 ∨ req.instanceID = []))
    (a : RescueAnswers) (s : StopAnswers) {b : Bootable}
    (hnone : b.world.inst.freeformTags netbootRescueTag = none) (hfresh : a.create.Fresh b.world.volumes) :
    RescueUndone req s b.world (detachOriginal req a (b.world.setState .stopped)) ↔
    b.world.inst.state = .stopped ∧ ¬ a.Attaches req ∨
      b.world.inst.state = .running ∧ (∀ k, b.world.inst.freeformTags k = none) ∧ a.Attaches req ∧ a.tag = true ∧
        (a.start = true → s.Safe) := by
  by_cases hatt : a.Attaches req
  · obtain ⟨rescueBV, w', hne, hinst, hvol, hrun⟩ := detachOriginal_attaches hatt
      (w := b.world.setState .stopped) b.attached b.volume hfresh
    rw [hrun, tagAndStart_undone_iff hreq a s hnone hne hinst hvol]
    simp [hatt]
  · obtain ⟨w', e, hrun, hinst, hvol⟩ := detachOriginal_error hatt
      (w := b.world.setState .stopped) b.attached b.volume hfresh
    rw [hrun]
    obtain hs | hs := b.power
    · refine iff_of_false (fun h => ?_) (by simp [hs, hatt])
      refine not_undone_of_stopped hnone hs ?_ ?_ h.1
      · rw [hinst]
        rfl
      · rw [hinst]
        exact hnone
    · refine iff_of_true ⟨Or.inl (b.restored ?_ hvol), fun h => ?_⟩ (Or.inl ⟨hs, hatt⟩)
      · rw [hinst]
        unfold World.setState
        rw [← hs]
      · cases h

/-- A rescue and its stop leave the instance restored, or for a later stop to restore, if and only if the rescue
ends before it acts, or fails on a stopped instance before the rescue volume is attached, or the instance ran
without tags and no call failed that cannot be made up for. -/
theorem rescue_undone_iff (req : NetbootRequest) (a : RescueAnswers) (s : StopAnswers) (b : Bootable)
    (hfresh : a.create.Fresh b.world.volumes) :
    RescueUndone req s b.world (handleNetbootRescue req a b.world) ↔
      a.EndsEarly req b.world.inst ∨ (b.world.inst.state = .stopped ∧ ¬ a.Attaches req) ∨
        SafeRescue req a s b.world.inst := by
  have hearly : ∀ e : NetbootError, RescueUndone req s b.world (b.world, .error e) := fun e =>
    ⟨Or.inl (b.restored rfl b.volume), fun h => nomatch h⟩
  unfold handleNetbootRescue RescueAnswers.EndsEarly
  by_cases hreq : req.tenantID = 0 ∨ req.instanceID = []
  · rw [if_pos hreq]
    exact iff_of_true (hearly _) (Or.inl (hreq.imp_right Or.inl))
  rw [if_neg hreq]
  by_cases hclient : a.client = false
  · rw [if_pos hclient]
    exact iff_of_true (hearly _) (by simp [hclient])
  rw [if_neg hclient]
  by_cases hget : a.getInstance = false
  · rw [if_pos hget]
    exact iff_of_true (hearly _) (by simp [hget])
  rw [if_neg hget]
  by_cases hactive : b.world.inst.freeformTags netbootRescueTag ≠ none
  · rw [if_pos hactive]
    exact iff_of_true (hearly _) (by simp [hactive])
  rw [if_neg hactive]
  have htag := not_not.mp hactive
  have hmain := detachOriginal_undone_iff hreq a s htag hfresh
  unfold SafeRescue
  obtain hs | hs := b.power
  · rw [stopInstance_running hs]
    by_cases hstop : a.stop = false
    · rw [if_pos hstop]
      exact iff_of_true (hearly _) (by simp [hs, hstop])
    rw [if_neg hstop]
    by_cases hwait : a.wait = false
    · rw [if_pos hwait]
      refine iff_of_false (fun h => ?_) ?_
      · exact not_undone_of_stopped htag hs (w := b.world.setState .stopping) rfl htag h.1
      · simp only [not_or] at hreq
        simp [hreq, hclient, hget, htag, hstop, hs, hwait]
    rw [if_neg hwait]
    refine hmain.trans ?_
    simp only [not_or] at hreq
    simp [hreq, hclient, hget, htag, hstop, hwait, hs, and_assoc]
  · have hsame : b.world.setState .stopped = b.world := by
      unfold World.setState
      rw [← hs]
    rw [hsame] at hmain
    rw [stopInstance_stopped hs]
    refine hmain.trans ?_
    simp only [not_or] at hreq
    simp [hreq, hclient, hget, htag, hs]

/-! ## One instance -/

def exampleRequest : NetbootRequest := ⟨1, "i".toList, "image".toList⟩

def exampleCreate : CreateAnswers :=
  ⟨some ("temp".toList, "rescue".toList), true, true, true, true, true, true, true, true⟩

def exampleRescue : RescueAnswers :=
  ⟨true, true, true, true, true, true, true, true, true, exampleCreate, true, true, true⟩

/-- It runs, with these tags. -/
def exampleInstance (tags : Tags) : Bootable where
  world := ⟨⟨.running, tags, some "boot".toList⟩, ["boot".toList]⟩
  bv := "boot".toList
  power := Or.inl rfl
  attached := rfl
  volume := List.mem_singleton.mpr rfl
  id := by decide

theorem rescue_undone_untagged : RescueUndone exampleRequest .allOk (exampleInstance fun _ => none).world
    (handleNetbootRescue exampleRequest exampleRescue (exampleInstance fun _ => none).world) := by
  refine (rescue_undone_iff exampleRequest exampleRescue .allOk (exampleInstance fun _ => none) ?_).mpr
    (Or.inr (Or.inr ?_))
  · intro tempID bvID h
    obtain ⟨-, rfl⟩ := Prod.mk.inj (Option.some.inj h)
    decide
  · refine ⟨rfl, fun _ => rfl, ⟨rfl, rfl, ?_, rfl⟩, fun _ => ?_⟩
    · exact ⟨rfl, rfl, rfl, rfl, fun _ => rfl,
        ⟨⟨_, _, rfl, by decide⟩, rfl, rfl, rfl, rfl, rfl, rfl, rfl, rfl⟩, rfl⟩
    · unfold StopAnswers.Safe
      decide

def taggedWorld : World := (exampleInstance fun k => if k = "env".toList then some "prod".toList else none).world

def rescuedWorld : World := (handleNetbootRescue exampleRequest exampleRescue taggedWorld).1.settled

/-- All calls succeed, and the tag `env` is lost. -/
theorem rescue_loses_tags :
    (handleNetbootRescue exampleRequest exampleRescue taggedWorld).2 = .ok () ∧
      (handleNetbootRescueStop exampleRequest .allOk rescuedWorld).2 = .ok () ∧
      taggedWorld.inst.freeformTags "env".toList = some "prod".toList ∧
      (handleNetbootRescueStop exampleRequest .allOk rescuedWorld).1.inst.freeformTags "env".toList = none :=
  ⟨rfl, rfl, rfl, rfl⟩

end OciHelper.Instances
