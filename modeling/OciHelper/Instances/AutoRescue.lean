import OciHelper.Instances.BootVolumes

/-!
# The automatic rescue

* `runAutoRescue` : the instance's volume is backed up and deleted, and a clone of a new one is attached;
* `due` : what must have been observed before a volume is deleted or attached, before the temporary instance is
  terminated, and before the backup is deleted;
* `keeps_a_copy_iff` : what is due is observed unless one of the two loops of polls runs out.
-/

namespace OciHelper.Instances.AutoRescue
open BootVolumes Traced

/-- How the service answers each request. The polls of an instance are those until the timeout. -/
structure Answers where
  getTenant : Bool
  getInstance : Option InstanceDetails
  stop : Bool
  stopPolls : List (Poll LifecycleState)
  attachments : Option (List Attachment)
  createBackup : Option (Option OCID)
  backupPolls : Nat → Poll BackupState
  detach : Bool
  delete : Bool
  ensurePublicSubnet : Option (Option OCID)
  findImageForOS : Option (Option OCID)
  launch : Option (Option OCID)
  startPolls : List (Poll LifecycleState)
  tmpAttachments : Option (List Attachment)
  createClone : Option (Option OCID)
  clonePolls : Nat → Poll VolumeState
  attach : Bool
  terminate : Bool
  deleteBackup : Bool
  start : Bool
  finalPolls : List (Poll LifecycleState)

/-- Why the procedure ends: a step fails, or it reads an id that is not there. -/
inductive Ending
  | noTenant
  | failed (step : String)
  | nilID
  deriving DecidableEq, Repr

/-- Failed polls count as well. -/
def availableVerdict {σ : Type} [DecidableEq σ] (available : σ) (answer : Option σ) : Verdict Ending :=
  if answer = some available then .ready else .wait

def sixty {σ : Type} (polls : Nat → Poll σ) : List (Poll σ) := (List.range 60).map polls

variable (a : Answers) (ocid : OCID)

/-! ## The procedure -/

/-- Step 1. -/
def stopInstance (initialState : LifecycleState) : Traced Event Ending Unit :=
  if initialState = .running ∨ initialState = .starting then do
    perform (.instanceAction ocid .stop) a.stop (.failed "关机")
    let stopped ← waitForState ocid .stopped a.stopPolls
    require stopped (.failed "等待关机")
  else pure ()

/-- The old boot volume and its attachment. -/
def prepare : Traced Event Ending (OCID × OCID) := do
  require a.getTenant .noTenant
  let inst ← ask (fun i => .getInstance ocid (i.map (·.lifecycleState))) a.getInstance (.failed "获取实例")
  require (strOr inst.availabilityDomain "" ≠ "") (.failed "获取可用域")
  stopInstance a ocid inst.lifecycleState
  let attachments ← ask (.listBootVolumeAttachments ocid) a.attachments (.failed "获取引导卷")
  let attachment ← demand attachments.head? (.failed "获取引导卷")
  let oldBV := strOr attachment.bootVolumeID ""
  let attachmentID := strOr attachment.id ""
  require (oldBV ≠ "" ∧ attachmentID ≠ "") (.failed "获取引导卷")
  return (oldBV, attachmentID)

/-- Create a volume or a backup, and ask for it until it is available. -/
def createAndAwait {σ : Type} [DecidableEq σ] (create : Option (Option OCID) → Event) (get : OCID → Option σ → Event)
    (available : σ) (createStep awaitStep : String) (answer : Option (Option OCID)) (polls : Nat → Poll σ) :
    Traced Event Ending OCID := do
  let created ← ask create answer (.failed createStep)
  let id := strOr created ""
  -- the result is not looked at: the loop may have run out
  let _ ← poll (get id) (availableVerdict available) (.failed awaitStep) (sixty polls)
  return id

/-- Step 2. -/
def backUp (oldBV : OCID) : Traced Event Ending OCID :=
  createAndAwait (.createBootVolumeBackup oldBV) .getBootVolumeBackup .available "备份引导卷" "等待备份完成"
    a.createBackup a.backupPolls

/-- Steps 3 and 4. -/
def removeOriginal (oldBV attachmentID : OCID) : Traced Event Ending Unit := do
  perform (.detachBootVolume attachmentID) a.detach (.failed "分离引导卷")
  perform (.deleteBootVolume oldBV) a.delete (.failed "删除引导卷")

/-- Step 5: the temporary instance and its boot volume. -/
def launchTemporary : Traced Event Ending (OCID × OCID) := do
  let subnet ← ask .ensurePublicSubnet a.ensurePublicSubnet (.failed "准备公网子网")
  let _ ← demand subnet (.failed "准备公网子网")
  let image ← ask .findImageForOS a.findImageForOS (.failed "选择镜像")
  let _ ← demand image .nilID
  let tmpInst ← ask .launchTaskInstance a.launch (.failed "创建AMD实例")
  let tmpID := strOr tmpInst ""
  let running ← waitForState tmpID .running a.startPolls
  require running (.failed "等待AMD实例启动")
  let tmpAttachments ← ask (.listBootVolumeAttachments tmpID) a.tmpAttachments (.failed "获取AMD引导卷")
  let attachment ← demand tmpAttachments.head? (.failed "获取AMD引导卷")
  let bootVolumeID ← demand attachment.bootVolumeID (.failed "获取AMD引导卷")
  return (tmpID, bootVolumeID)

/-- Step 6. -/
def cloneVolume (source : OCID) : Traced Event Ending OCID :=
  createAndAwait (.createBootVolume source) .getBootVolume .available "克隆引导卷" "等待克隆完成"
    a.createClone a.clonePolls

/-- Steps 8 and 9. -/
def cleanUp (keepBackup : Bool) (backupID tmpID : OCID) : Traced Event Ending Unit := do
  emit [.terminateInstance tmpID a.terminate]
  emit (if keepBackup then [] else [.deleteBootVolumeBackup backupID a.deleteBackup])
  perform (.instanceAction ocid .start) a.start (.failed "启动实例")
  let _ ← waitForState ocid .running a.finalPolls
  emit [.getInstanceVNICs ocid]

/-- From step 7 on. -/
def attachAndStart (keepBackup : Bool) (backupID tmpID cloneID : OCID) : Traced Event Ending Unit := do
  perform (.attachBootVolume cloneID ocid) a.attach (.failed "附加引导卷")
  cleanUp a ocid keepBackup backupID tmpID

/-- From step 5 on. -/
def replaceVolume (keepBackup : Bool) (backupID : OCID) : Traced Event Ending Unit := do
  let (tmpID, tmpBV) ← launchTemporary a
  let cloneID ← cloneVolume a tmpBV
  attachAndStart a ocid keepBackup backupID tmpID cloneID

def runAutoRescue (keepBackup : Bool) : Traced Event Ending Unit := do
  let (oldBV, attachmentID) ← prepare a ocid
  let backupID ← backUp a oldBV
  removeOriginal a oldBV attachmentID
  replaceVolume a ocid keepBackup backupID

/-! ## What is due -/

/-- A volume that is deleted has a backup that was seen available; one that is attached was seen available, and so was
the clone when the temporary instance is terminated; when the backup is deleted the clone was attached. -/
def due (before : List Event) : Event → Prop
  | .deleteBootVolume v _ =>
    ∃ b, .createBootVolumeBackup v (some b) ∈ before ∧ .getBootVolumeBackup (strOr b "") (some .available) ∈ before
  | .attachBootVolume v _ _ => .getBootVolume v (some .available) ∈ before
  | .terminateInstance _ _ =>
    ∃ source c, .createBootVolume source (some c) ∈ before ∧ .getBootVolume (strOr c "") (some .available) ∈ before
  | .deleteBootVolumeBackup _ _ =>
    ∃ source c, .createBootVolume source (some c) ∈ before ∧ .attachBootVolume (strOr c "") ocid true ∈ before
  | _ => True

/-- The polls run out: each fails or shows another state, and none is cut off. -/
def Overdue {σ : Type} (available : σ) (polls : Nat → Poll σ) : Prop :=
  ∀ i < 60, (polls i).answer ≠ some available ∧ (polls i).cancelled = false

/-- The polls are cut off only after the state was seen. -/
def Passes {σ : Type} (available : σ) (polls : Nat → Poll σ) : Prop :=
  ∀ i < 60, (polls i).cancelled = true → ∃ j ≤ i, (polls j).answer = some available

/-- A backup of the volume is created. -/
structure Answers.BacksUp (a : Answers) : Prop where
  getTenant : a.getTenant = true
  getInstance : ∃ inst, a.getInstance = some inst ∧ strOr inst.availabilityDomain "" ≠ "" ∧
    (inst.lifecycleState = .running ∨ inst.lifecycleState = .starting →
      a.stop = true ∧ reached .stopped a.stopPolls = true)
  attachments : ∃ attachment, a.attachments.bind List.head? = some attachment ∧
    strOr attachment.bootVolumeID "" ≠ "" ∧ strOr attachment.id "" ≠ ""
  createBackup : a.createBackup ≠ none

/-- A clone of the temporary instance's volume is created. -/
structure Answers.Clones (a : Answers) : Prop where
  backsUp : a.BacksUp
  passes : Passes .available a.backupPolls
  detach : a.detach = true
  delete : a.delete = true
  subnet : ∃ id, a.ensurePublicSubnet = some (some id)
  image : ∃ id, a.findImageForOS = some (some id)
  launch : a.launch ≠ none
  running : reached .running a.startPolls = true
  attachment : ∃ attachment id, a.tmpAttachments.bind List.head? = some attachment ∧ attachment.bootVolumeID = some id
  createClone : a.createClone ≠ none

/-! ## The polls -/

section Polls
variable {σ : Type} [DecidableEq σ] {event : Option σ → Event} {available : σ} {polls : Nat → Poll σ} {cutOff : Ending}

theorem availableVerdict_ready {answer : Option σ} :
    availableVerdict available answer = .ready ↔ answer = some available := by
  unfold availableVerdict
  split <;> simp [*]

theorem availableVerdict_wait {answer : Option σ} :
    availableVerdict available answer = .wait ↔ answer ≠ some available := by
  unfold availableVerdict
  split <;> simp [*]

omit [DecidableEq σ] in
theorem mem_sixty {p : Poll σ} : p ∈ sixty polls ↔ ∃ i < 60, polls i = p := by
  simp [sixty]

omit [DecidableEq σ] in
theorem sixty_getElem? {i : Nat} {p : Poll σ} : (sixty polls)[i]? = some p ↔ i < 60 ∧ polls i = p := by
  simp only [sixty, List.getElem?_map, Option.map_eq_some_iff, List.getElem?_eq_some_iff, List.length_range,
    List.getElem_range, exists_prop]
  exact ⟨fun ⟨_, ⟨hi, he⟩, hp⟩ => ⟨hi, he ▸ hp⟩, fun ⟨hi, hp⟩ => ⟨i, ⟨hi, rfl⟩, hp⟩⟩

theorem poll_passes :
    (∃ b, (poll event (availableVerdict available) cutOff (sixty polls)).result = .ok b) ↔
      Passes available polls := by
  rw [poll_ok_iff fun answer r => by unfold availableVerdict; split <;> simp]
  simp only [sixty_getElem?, availableVerdict_ready]
  constructor
  · intro h i hi hcut
    obtain ⟨j, hj, q, ⟨_, rfl⟩, hq⟩ := h i (polls i) ⟨hi, rfl⟩ hcut
    exact ⟨j, hj, hq⟩
  · rintro h i p ⟨hi, rfl⟩ hcut
    obtain ⟨j, hj, hq⟩ := h i hi hcut
    exact ⟨j, hj, polls j, ⟨Nat.lt_of_le_of_lt hj hi, rfl⟩, hq⟩

theorem seen_of_not_overdue {b : Bool}
    (h : (poll event (availableVerdict available) cutOff (sixty polls)).result = .ok b)
    (hover : ¬Overdue available polls) :
    event (some available) ∈ (poll event (availableVerdict available) cutOff (sixty polls)).trace := by
  obtain ⟨p, _, hr, hm⟩ | hout := poll_ok h
  · rwa [availableVerdict_ready.mp hr] at hm
  · refine absurd (fun i hi => ?_) hover
    obtain ⟨hw, hc⟩ := hout (polls i) (mem_sixty.mpr ⟨i, hi, rfl⟩)
    exact ⟨availableVerdict_wait.mp hw, hc⟩

theorem unseen_of_overdue (hover : Overdue available polls) {e : Event}
    (he : e ∈ (poll event (availableVerdict available) cutOff (sixty polls)).trace) :
    ∃ s, s ≠ some available ∧ e = event s := by
  obtain ⟨p, hp, rfl⟩ := mem_trace_poll he
  obtain ⟨i, hi, rfl⟩ := mem_sixty.mp hp
  exact ⟨_, (hover i hi).1, rfl⟩

omit [DecidableEq σ] in
theorem passes_of_overdue (hover : Overdue available polls) : Passes available polls := by
  intro i hi hcut
  rw [(hover i hi).2] at hcut
  cases hcut

end Polls

/-! ## The steps -/

/-- Nothing is due before the event, and it shows no volume and no backup. -/
def Neutral : Event → Prop
  | .deleteBootVolume .. | .attachBootVolume .. | .terminateInstance .. | .deleteBootVolumeBackup .. => False
  | .getBootVolume .. | .getBootVolumeBackup .. => False
  | _ => True

variable {a ocid}

theorem due_of_neutral {e : Event} (he : Neutral e) (h : List Event) : due ocid h e := by
  cases e <;> first | exact trivial | exact he.elim

theorem neutral_waitForState (id : OCID) (desired : LifecycleState) (polls : List (Poll LifecycleState)) :
    (waitForState id desired polls : Traced Event Ending Bool).All Neutral := all_waitForState fun _ => trivial

theorem neutral_stopInstance (s : LifecycleState) : (stopInstance a ocid s).All Neutral := by
  unfold stopInstance
  split
  · simp [Neutral, neutral_waitForState]
  · simp

theorem neutral_prepare : (prepare a ocid).All Neutral := by
  unfold prepare
  simp [Neutral, neutral_stopInstance]

theorem neutral_launchTemporary : (launchTemporary a).All Neutral := by
  unfold launchTemporary
  simp [Neutral, neutral_waitForState]

theorem stopInstance_ok {s : LifecycleState} {u : Unit} : (stopInstance a ocid s).result = .ok u ↔
    (s = .running ∨ s = .starting → a.stop = true ∧ reached .stopped a.stopPolls = true) := by
  unfold stopInstance
  split
  · simp [bind_ok_iff, waitForState_ok, *]
  · simp [*]

theorem backsUp_iff (ocid : OCID) :
    a.BacksUp ↔ (∃ x, (prepare a ocid).result = .ok x) ∧ a.createBackup ≠ none := by
  unfold prepare
  simp only [bind_ok_iff, require_ok, ask_ok, demand_ok, stopInstance_ok]
  constructor
  · rintro ⟨ht, ⟨inst, hi, had, hstop⟩, ⟨attachment, hatt, hbv, hid⟩, hb⟩
    obtain ⟨attachments, hl, hh⟩ := Option.bind_eq_some_iff.mp hatt
    refine ⟨⟨_, (), ht, inst, hi, (), by simpa using had, (), hstop, attachments, hl, attachment, hh, (), ?_, rfl⟩, hb⟩
    simp [hbv, hid]
  · rintro ⟨⟨x, _, ht, inst, hi, _, had, _, hstop, attachments, hl, attachment, hh, _, hids, hx⟩, hb⟩
    simp only [decide_eq_true_eq] at had hids
    exact ⟨ht, ⟨inst, hi, had, hstop⟩, ⟨attachment, Option.bind_eq_some_iff.mpr ⟨_, hl, hh⟩, hids⟩, hb⟩

theorem launchTemporary_ok : (∃ x, (launchTemporary a).result = .ok x) ↔
    (∃ id, a.ensurePublicSubnet = some (some id)) ∧ (∃ id, a.findImageForOS = some (some id)) ∧ a.launch ≠ none ∧
      reached .running a.startPolls = true ∧
      ∃ attachment id, a.tmpAttachments.bind List.head? = some attachment ∧ attachment.bootVolumeID = some id := by
  unfold launchTemporary
  simp only [bind_ok_iff, require_ok, ask_ok, demand_ok, waitForState_ok, result_pure]
  constructor
  · rintro ⟨x, _, hs, id, rfl, _, hi, _, rfl, tmp, hl, _, hr, _, rfl, _, hatt, attachment, hh, bv, hbv, hx⟩
    exact ⟨⟨id, hs⟩, ⟨_, hi⟩, by simp [hl], hr, attachment, bv, Option.bind_eq_some_iff.mpr ⟨_, hatt, hh⟩, hbv⟩
  · rintro ⟨⟨id, hs⟩, ⟨id', hi⟩, hl, hr, attachment, bv, hatt, hbv⟩
    obtain ⟨tmp, hl⟩ := Option.ne_none_iff_exists'.mp hl
    obtain ⟨attachments, hatt, hh⟩ := Option.bind_eq_some_iff.mp hatt
    exact ⟨_, _, hs, id, rfl, _, hi, id', rfl, tmp, hl, _, hr, (), rfl, attachments, hatt, attachment, hh, bv, hbv, rfl⟩

theorem clones_iff : a.Clones ↔
    a.BacksUp ∧ Passes .available a.backupPolls ∧ (a.detach = true ∧ a.delete = true) ∧
      (∃ x, (launchTemporary a).result = .ok x) ∧ a.createClone ≠ none := by
  rw [launchTemporary_ok]
  constructor
  · rintro ⟨hb, hp, hd, hdel, hs, hi, hl, hr, hatt, hc⟩
    exact ⟨hb, hp, ⟨hd, hdel⟩, ⟨hs, hi, hl, hr, hatt⟩, hc⟩
  · rintro ⟨hb, hp, ⟨hd, hdel⟩, ⟨hs, hi, hl, hr, hatt⟩, hc⟩
    exact ⟨hb, hp, hd, hdel, hs, hi, hl, hr, hatt, hc⟩

section Await
variable {σ : Type} [DecidableEq σ] {create : Option (Option OCID) → Event} {get : OCID → Option σ → Event}
  {available : σ} {createStep awaitStep : String} {answer : Option (Option OCID)} {polls : Nat → Poll σ} {id : OCID}

theorem createAndAwait_ok_iff :
    (∃ id, (createAndAwait create get available createStep awaitStep answer polls).result = .ok id) ↔
      answer ≠ none ∧ Passes available polls := by
  unfold createAndAwait
  simp only [bind_ok_iff, ask_ok, ← Option.isSome_iff_ne_none, Option.isSome_iff_exists]
  constructor
  · rintro ⟨id, created, hc, b, hb, _⟩
    exact ⟨⟨created, hc⟩, poll_passes.mp ⟨b, hb⟩⟩
  · rintro ⟨⟨created, hc⟩, hp⟩
    obtain ⟨b, hb⟩ := poll_passes.mpr hp
    exact ⟨_, created, hc, b, hb, rfl⟩

theorem createAndAwait_seen
    (h : (createAndAwait create get available createStep awaitStep answer polls).result = .ok id)
    (hover : ¬Overdue available polls) :
    ∃ created, id = strOr created "" ∧
      create (some created) ∈ (createAndAwait create get available createStep awaitStep answer polls).trace ∧
      get id (some available) ∈ (createAndAwait create get available createStep awaitStep answer polls).trace := by
  unfold createAndAwait at h ⊢
  simp only [mem_trace_bind]
  obtain ⟨created, hc, h⟩ := bind_ok_iff.mp h
  obtain ⟨b, hb, h⟩ := bind_ok_iff.mp h
  cases h
  refine ⟨created, rfl, .inl ?_, .inr ⟨created, hc, .inl (seen_of_not_overdue hb hover)⟩⟩
  rw [trace_ask, ask_ok.mp hc]
  exact List.mem_singleton_self _

theorem createAndAwait_unseen (hover : Overdue available polls) {e : Event}
    (he : e ∈ (createAndAwait create get available createStep awaitStep answer polls).trace) :
    e = create answer ∨ ∃ id s, s ≠ some available ∧ e = get id s := by
  unfold createAndAwait at he
  simp only [mem_trace_bind, trace_ask, List.mem_singleton, trace_pure, List.not_mem_nil, and_false,
    exists_false, or_false] at he
  obtain rfl | ⟨created, _, he⟩ := he
  · exact .inl rfl
  · obtain ⟨s, hs, rfl⟩ := unseen_of_overdue hover he
    exact .inr ⟨_, s, hs, rfl⟩

theorem all_createAndAwait {P : Event → Prop} (hcreate : ∀ x, P (create x)) (hget : ∀ id s, P (get id s)) :
    (createAndAwait create get available createStep awaitStep answer polls).All P := by
  unfold createAndAwait
  simp [hcreate, all_poll, hget]

end Await

/-! ## When what is due is observed -/

variable {h : List Event} {keepBackup : Bool}

theorem justified_neutral {α : Type} {x : Traced Event Ending α} (hx : x.All Neutral) :
    Justified (due ocid) h x.trace :=
  justified_of_forall (fun e he h => due_of_neutral (hx e he) h) h

/-- No volume was seen available, so far. -/
def Unseen (h : List Event) : Prop := ∀ v, .getBootVolume v (some .available) ∉ h

theorem Unseen.append {t : List Event} (hh : Unseen h) (ht : ∀ e ∈ t, ∀ v, e ≠ .getBootVolume v (some .available)) :
    Unseen (h ++ t) := by
  intro v hv
  obtain hv | hv := List.mem_append.mp hv
  · exact hh v hv
  · exact ht _ hv v rfl

/-- After the clone was attached. -/
theorem justified_cleanUp {source backupID tmpID : OCID} {created : Option OCID}
    (hc : .createBootVolume source (some created) ∈ h)
    (hseen : .getBootVolume (strOr created "") (some .available) ∈ h)
    (hattached : .attachBootVolume (strOr created "") ocid true ∈ h) :
    Justified (due ocid) h (cleanUp a ocid keepBackup backupID tmpID).trace := by
  unfold cleanUp
  rw [justified_bind]
  refine ⟨⟨⟨source, created, hc, hseen⟩, trivial⟩, fun _ _ => ?_⟩
  rw [justified_bind]
  refine ⟨?_, fun _ _ => justified_neutral ?_⟩
  · cases keepBackup with
    | true => exact trivial
    | false =>
      exact ⟨⟨source, created, List.mem_append_left _ hc, List.mem_append_left _ hattached⟩, trivial⟩
  · simp [Neutral, neutral_waitForState]

/-- From the clone on. -/
theorem justified_clone {source backupID tmpID : OCID} (hunseen : Unseen h) :
    Justified (due ocid) h (cloneVolume a source >>= attachAndStart a ocid keepBackup backupID tmpID).trace ↔
      ¬(a.createClone ≠ none ∧ Overdue .available a.clonePolls) := by
  rw [justified_bind]
  constructor
  · rintro ⟨_, hj⟩ ⟨hcreate, hover⟩
    obtain ⟨cloneID, hok⟩ := createAndAwait_ok_iff.mpr ⟨hcreate, passes_of_overdue hover⟩
    have hdue : .getBootVolume cloneID (some .available) ∈ h ++ (cloneVolume a source).trace :=
      (justified_bind.mp (hj cloneID hok)).1.1
    obtain hmem | hmem := List.mem_append.mp hdue
    · exact hunseen _ hmem
    · obtain he | ⟨id, s, hs, he⟩ := createAndAwait_unseen hover hmem
      · cases he
      · cases he
        exact hs rfl
  · intro hnot
    have hclone : Justified (due ocid) h (cloneVolume a source).trace :=
      justified_of_forall (all_createAndAwait (fun _ _ => trivial) fun _ _ _ => trivial) h
    refine ⟨hclone, fun cloneID hok => ?_⟩
    have hover : ¬Overdue .available a.clonePolls := fun hover =>
      hnot ⟨(createAndAwait_ok_iff.mp ⟨_, hok⟩).1, hover⟩
    obtain ⟨created, rfl, hc, hseen⟩ := createAndAwait_seen hok hover
    refine justified_bind.mpr ⟨⟨List.mem_append_right _ hseen, trivial⟩, fun u hu => justified_cleanUp
      (List.mem_append_left _ (List.mem_append_right _ hc)) (List.mem_append_left _ (List.mem_append_right _ hseen))
      (List.mem_append_right _ ?_)⟩
    rw [trace_perform, perform_ok.mp hu]
    exact List.mem_singleton_self _

theorem justified_replaceVolume {backupID : OCID} (hunseen : Unseen h) :
    Justified (due ocid) h (replaceVolume a ocid keepBackup backupID).trace ↔
      ¬((∃ x, (launchTemporary a).result = .ok x) ∧ a.createClone ≠ none ∧ Overdue .available a.clonePolls) := by
  have hunseen' : Unseen (h ++ (launchTemporary a).trace) := hunseen.append fun e he v hv => by
    subst hv
    exact neutral_launchTemporary _ he
  unfold replaceVolume
  rw [justified_bind, and_iff_right (justified_neutral neutral_launchTemporary)]
  have hrest : ∀ x : OCID × OCID, Justified (due ocid) (h ++ (launchTemporary a).trace)
      (cloneVolume a x.2 >>= attachAndStart a ocid keepBackup backupID x.1).trace ↔
        ¬(a.createClone ≠ none ∧ Overdue .available a.clonePolls) := fun x => justified_clone hunseen'
  rw [not_and, forall_exists_index]
  exact forall_congr' fun x => imp_congr_right fun _ => hrest x

theorem removeOriginal_ok {oldBV attachmentID : OCID} {u : Unit} :
    (removeOriginal a oldBV attachmentID).result = .ok u ↔ a.detach = true ∧ a.delete = true := by
  simp [removeOriginal, bind_ok_iff]

theorem justified_removeOriginal {oldBV attachmentID : OCID} :
    Justified (due ocid) h (removeOriginal a oldBV attachmentID).trace ↔
      (a.detach = true → due ocid h (.deleteBootVolume oldBV a.delete)) := by
  simp [removeOriginal, justified_bind, due]

theorem unseen_removeOriginal {oldBV attachmentID : OCID} :
    ∀ e ∈ (removeOriginal a oldBV attachmentID).trace, ∀ v, e ≠ .getBootVolume v (some .available) := by
  have hall : (removeOriginal a oldBV attachmentID).All fun e => ∀ v, e ≠ .getBootVolume v (some .available) := by
    simp [removeOriginal]
  exact hall

theorem justified_remove {oldBV attachmentID backupID : OCID} (hunseen : Unseen h) :
    Justified (due ocid) h
        (removeOriginal a oldBV attachmentID >>= fun _ => replaceVolume a ocid keepBackup backupID).trace ↔
      (a.detach = true → due ocid h (.deleteBootVolume oldBV a.delete)) ∧
        ((a.detach = true ∧ a.delete = true) → ¬((∃ x, (launchTemporary a).result = .ok x) ∧ a.createClone ≠ none ∧
          Overdue .available a.clonePolls)) := by
  rw [justified_bind, justified_removeOriginal]
  refine and_congr_right fun _ => ?_
  simp only [removeOriginal_ok, justified_replaceVolume (hunseen.append unseen_removeOriginal)]
  exact forall_const _

theorem due_delete_iff {oldBV backupID : OCID} (hprep : ∀ e ∈ h, Neutral e)
    (hok : (backUp a oldBV).result = .ok backupID) (ok : Bool) :
    due ocid (h ++ (backUp a oldBV).trace) (.deleteBootVolume oldBV ok) ↔ ¬Overdue .available a.backupPolls := by
  constructor
  · rintro ⟨b, _, hseen⟩ hover
    obtain hmem | hmem := List.mem_append.mp hseen
    · exact hprep _ hmem
    · obtain he | ⟨id, s, hs, he⟩ := createAndAwait_unseen hover hmem
      · cases he
      · cases he
        exact hs rfl
  · intro hover
    obtain ⟨created, rfl, hc, hseen⟩ := createAndAwait_seen hok hover
    exact ⟨created, List.mem_append_right _ hc, List.mem_append_right _ hseen⟩

/-- From the backup on. -/
theorem justified_backUp {oldBV attachmentID : OCID} (hprep : ∀ e ∈ h, Neutral e) :
    Justified (due ocid) h (backUp a oldBV >>= fun backupID => removeOriginal a oldBV attachmentID >>= fun _ =>
        replaceVolume a ocid keepBackup backupID).trace ↔
      (a.createBackup ≠ none ∧ Passes .available a.backupPolls →
        (a.detach = true → ¬Overdue .available a.backupPolls) ∧
          ((a.detach = true ∧ a.delete = true) → ¬((∃ x, (launchTemporary a).result = .ok x) ∧ a.createClone ≠ none ∧
            Overdue .available a.clonePolls))) := by
  have hbackUp : Justified (due ocid) h (backUp a oldBV).trace :=
    justified_of_forall (all_createAndAwait (fun _ _ => trivial) fun _ _ _ => trivial) h
  have hvolumes : (backUp a oldBV).All fun e => ∀ v, e ≠ .getBootVolume v (some .available) :=
    all_createAndAwait (fun _ _ h => by cases h) fun _ _ _ h => by cases h
  have hunseen : Unseen (h ++ (backUp a oldBV).trace) := Unseen.append (fun v hv => hprep _ hv) hvolumes
  rw [justified_bind, and_iff_right hbackUp, ← createAndAwait_ok_iff, forall_exists_index]
  refine forall_congr' fun backupID => imp_congr_right fun hok => ?_
  rw [justified_remove hunseen, due_delete_iff hprep hok]

theorem justified_runAutoRescue : Justified (due ocid) [] (runAutoRescue a ocid keepBackup).trace ↔
    ∀ x, (prepare a ocid).result = .ok x → a.createBackup ≠ none ∧ Passes .available a.backupPolls →
      (a.detach = true → ¬Overdue .available a.backupPolls) ∧
        ((a.detach = true ∧ a.delete = true) → ¬((∃ x, (launchTemporary a).result = .ok x) ∧ a.createClone ≠ none ∧
          Overdue .available a.clonePolls)) := by
  unfold runAutoRescue
  rw [justified_bind, and_iff_right (justified_neutral neutral_prepare)]
  have hrest : ∀ x : OCID × OCID, Justified (due ocid) ([] ++ (prepare a ocid).trace)
      (backUp a x.1 >>= fun backupID => removeOriginal a x.1 x.2 >>= fun _ =>
        replaceVolume a ocid keepBackup backupID).trace ↔ _ := fun x => justified_backUp neutral_prepare
  exact forall_congr' fun x => imp_congr_right fun _ => hrest x

/-- What is due is observed unless a loop of polls runs out before the volume is deleted, or before the clone is
attached. -/
theorem keeps_a_copy_iff (a : Answers) (ocid : OCID) (keepBackup : Bool) :
    Justified (due ocid) [] (runAutoRescue a ocid keepBackup).trace ↔
      ¬(a.BacksUp ∧ Overdue .available a.backupPolls ∧ a.detach = true) ∧
        ¬(a.Clones ∧ Overdue .available a.clonePolls) := by
  rw [justified_runAutoRescue, clones_iff, backsUp_iff ocid]
  constructor
  · intro hall
    refine ⟨fun ⟨⟨⟨x, hx⟩, hb⟩, hover, hd⟩ => (hall x hx ⟨hb, passes_of_overdue hover⟩).1 hd hover, ?_⟩
    rintro ⟨⟨⟨⟨x, hx⟩, hb⟩, hpass, hremove, hl, hc⟩, hover⟩
    exact (hall x hx ⟨hb, hpass⟩).2 hremove ⟨hl, hc, hover⟩
  · rintro ⟨hbackup, hclone⟩ x hx ⟨hb, hpass⟩
    exact ⟨fun hd hover => hbackup ⟨⟨⟨x, hx⟩, hb⟩, hover, hd⟩,
      fun hremove ⟨hl, hc, hover⟩ => hclone ⟨⟨⟨⟨x, hx⟩, hb⟩, hpass, hremove, hl, hc⟩, hover⟩⟩

/-- A backup that takes longer than the polls. -/
def slowBackup : Answers where
  getTenant := true
  getInstance := some ⟨some "AD-1", .stopped⟩
  stop := true
  stopPolls := []
  attachments := some [⟨some "attachment", some "volume"⟩]
  createBackup := some (some "backup")
  backupPolls _ := ⟨some .creating, false⟩
  detach := true
  delete := true
  ensurePublicSubnet := none
  findImageForOS := none
  launch := none
  startPolls := []
  tmpAttachments := none
  createClone := none
  clonePolls _ := ⟨none, false⟩
  attach := true
  terminate := true
  deleteBackup := true
  start := true
  finalPolls := []

theorem slowBackup_not_justified :
    ¬Justified (due "instance") [] (runAutoRescue slowBackup "instance" false).trace := by
  intro hj
  have hover : Overdue .available slowBackup.backupPolls := fun i _ => ⟨by simp [slowBackup], rfl⟩
  exact (justified_runAutoRescue.mp hj ("volume", "attachment") rfl ⟨by decide, passes_of_overdue hover⟩).1 rfl hover

end OciHelper.Instances.AutoRescue
