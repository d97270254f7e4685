import OciHelper.Instances.BootVolumes

/-!
# Shrinking a boot volume

* `handleShrinkDisk` : the instance's volume is replaced by a smaller clone of it; a step that fails is made up for;
* `Course` : what a run asks for, one case for each of its ends;
* `shrink_leaves_usable` : which volume is attached in the end, what is due before a volume is attached or deleted, and
  when the instance is started again.
-/

namespace OciHelper.Instances.ShrinkDisk
open BootVolumes Traced

structure BootVolume where
  lifecycleState : VolumeState
  sizeInGBs : Option Int

/-- How the service answers each request. The polls are those until the timeout. -/
structure Answers where
  client : Bool
  getInstance : Option InstanceDetails
  attachments : Option (List Attachment)
  getBootVolume : Option BootVolume
  stop : Bool
  stopPolls : List (Poll LifecycleState)
  detach : Bool
  createBootVolume : Option (Option OCID)
  newPolls : List (Poll VolumeState)
  attachNew : Bool
  deleteNew : Bool
  attachOld : Bool
  deleteOld : Bool
  start : Bool
  /-- A new volume gets an id of its own. -/
  fresh : ∀ id, createBootVolume = some (some id) → (attachments.bind List.head?).bind (·.bootVolumeID) ≠ some id

structure Request where
  tenantID : Int
  instanceID : String

inductive Failure
  | required
  | client
  | getInstance
  | noDomain
  | listAttachments
  | noAttachment
  | missingIDs
  | getBootVolume
  | small (current : Int)
  | stop
  | stopTimeout
  | instanceState (current : LifecycleState)
  | detach
  | create
  | noID
  | poll
  | volumeState (current : VolumeState)
  | timeout
  | attach
  | start
  deriving DecidableEq, Repr

def targetSizeGB : Int := 47

def newVerdict : Option VolumeState → Verdict Failure
  | none => .failed .poll
  | some .available => .ready
  | some .faulty => .failed (.volumeState .faulty)
  | some .terminated => .failed (.volumeState .terminated)
  | some .terminating => .failed (.volumeState .terminating)
  | some _ => .wait

variable (a : Answers) (ocid : OCID)

/-! ## The procedure -/

/-- Steps 1 to 3: the state of the instance, its boot volume and the attachment of that. -/
def examine (req : Request) : Traced Event Failure (LifecycleState × OCID × OCID) := do
  require (req.tenantID ≠ 0 ∧ req.instanceID ≠ "") .required
  require a.client .client
  let inst ← ask (fun i => .getInstance ocid (i.map (·.lifecycleState))) a.getInstance .getInstance
  require (strOr inst.availabilityDomain "" ≠ "") .noDomain
  let attachments ← ask (.listBootVolumeAttachments ocid) a.attachments .listAttachments
  let attachment ← demand attachments.head? .noAttachment
  let oldVolumeID := strOr attachment.bootVolumeID ""
  let attachmentID := strOr attachment.id ""
  require (oldVolumeID ≠ "" ∧ attachmentID ≠ "") .missingIDs
  let oldBV ← ask (fun v => .getBootVolume oldVolumeID (v.map (·.lifecycleState))) a.getBootVolume .getBootVolume
  let oldSizeGB := oldBV.sizeInGBs.getD 0
  require (targetSizeGB < oldSizeGB) (.small oldSizeGB)
  return (inst.lifecycleState, oldVolumeID, attachmentID)

/-- Step 4. -/
def stopInstance (initialState : LifecycleState) : Traced Event Failure Unit :=
  if initialState = .running ∨ initialState = .starting then do
    perform (.instanceAction ocid .stop) a.stop .stop
    let stopped ← waitForState ocid .stopped a.stopPolls
    require stopped .stopTimeout
  else require (initialState = .stopped) (.instanceState initialState)

/-- After an error an instance that was running is started. -/
def restart (initialState : LifecycleState) : List Event :=
  if initialState = .running then [.instanceAction ocid .start a.start] else []

/-- Step 5. -/
def detachOld (initialState : LifecycleState) (attachmentID : OCID) : Traced Event Failure Unit :=
  (perform (.detachBootVolume attachmentID) a.detach .detach).compensate (restart a ocid initialState)

def createClone (oldVolumeID : OCID) : Traced Event Failure OCID := do
  let newBV ← ask (.createBootVolume oldVolumeID) a.createBootVolume .create
  let newVolumeID := strOr newBV ""
  require (newVolumeID ≠ "") .noID
  return newVolumeID

/-- Step 6. -/
def createNew (initialState : LifecycleState) (oldVolumeID : OCID) : Traced Event Failure OCID :=
  (createClone a oldVolumeID).compensate
    (.attachBootVolume oldVolumeID ocid a.attachOld :: restart a ocid initialState)

/-- Step 7. -/
def pollNew (newVolumeID : OCID) : Traced Event Failure Bool :=
  poll (.getBootVolume newVolumeID) newVerdict .timeout a.newPolls

/-- Steps 7 and 8. -/
def attachNew (initialState : LifecycleState) (oldVolumeID newVolumeID : OCID) : Traced Event Failure Unit :=
  compensate
    (do
      -- the result is not looked at: the deadline may have passed
      let _ ← pollNew a newVolumeID
      perform (.attachBootVolume newVolumeID ocid) a.attachNew .attach)
    (.deleteBootVolume newVolumeID a.deleteNew :: .attachBootVolume oldVolumeID ocid a.attachOld ::
      restart a ocid initialState)

/-- Steps 9 and 10. -/
def finish (initialState : LifecycleState) (oldVolumeID : OCID) : Traced Event Failure Unit := do
  emit [.deleteBootVolume oldVolumeID a.deleteOld]
  if initialState = .running then perform (.instanceAction ocid .start) a.start .start else pure ()

/-- Steps 5 to 10. -/
def replaceVolume (initialState : LifecycleState) (oldVolumeID attachmentID : OCID) : Traced Event Failure Unit := do
  detachOld a ocid initialState attachmentID
  let newVolumeID ← createNew a ocid initialState oldVolumeID
  attachNew a ocid initialState oldVolumeID newVolumeID
  finish a ocid initialState oldVolumeID

def handleShrinkDisk (req : Request) : Traced Event Failure Unit := do
  let (initialState, oldVolumeID, attachmentID) ← examine a ocid req
  stopInstance a ocid initialState
  replaceVolume a ocid initialState oldVolumeID attachmentID

/-! ## What is wanted -/

def IsAttach : Event → Prop
  | .attachBootVolume .. => True
  | _ => False

def isMove : Event → Bool
  | .attachBootVolume .. => true
  | .detachBootVolume .. => true
  | _ => false

/-- The last request that attaches or detaches a volume is one that attaches, if there is any. -/
def EndsAttached (t : List Event) : Prop := ∀ e, (t.filter isMove).getLast? = some e → IsAttach e

/-- A volume that was created is attached only after it was seen available. -/
def dueAttach (before : List Event) : Event → Prop
  | .attachBootVolume v _ _ =>
    (∃ source, .createBootVolume source (some (some v)) ∈ before) → .getBootVolume v (some .available) ∈ before
  | _ => True

/-- The old volume is deleted only after the new one was attached. -/
def dueDelete (oldVolumeID : OCID) (before : List Event) : Event → Prop
  | .deleteBootVolume v _ => v = oldVolumeID →
    ∃ source new, .createBootVolume source (some (some new)) ∈ before ∧ .attachBootVolume new ocid true ∈ before
  | _ => True

/-- A delete was issued for every volume that was created. -/
def CleansUp (t : List Event) : Prop :=
  ∀ source new, .createBootVolume source (some new) ∈ t → ∃ v ok, new = some v ∧ .deleteBootVolume v ok ∈ t

/-- The instance was started after the last time a volume was attached. -/
def Restarted (t : List Event) : Prop :=
  ∃ before ok after, t = before ++ .instanceAction ocid .start ok :: after ∧ ∀ e ∈ after, ¬IsAttach e

def Answers.oldVolumeID (a : Answers) : OCID := ((a.attachments.bind List.head?).bind (·.bootVolumeID)).getD ""

/-- The polls for the new volume run out. -/
def RunsOut (polls : List (Poll VolumeState)) : Prop :=
  ∀ p ∈ polls, (p.answer = some .provisioning ∨ p.answer = some .restoring) ∧ p.cancelled = false

/-- A run, as a shrinking should leave the instance. -/
structure Usable (x : Traced Event Failure Unit) : Prop where
  ends : EndsAttached x.trace
  attach : Justified dueAttach [] x.trace
  delete : Justified (dueDelete ocid a.oldVolumeID) [] x.trace
  cleansUp : (∀ u, x.result ≠ .ok u) → CleansUp x.trace
  restarted : ∀ inst ok, a.getInstance = some inst →
    inst.lifecycleState = .running ∨ inst.lifecycleState = .starting →
      .instanceAction ocid .stop ok ∈ x.trace → Restarted ocid x.trace

/-! ## The course of a run -/

/-- The events before the volume is detached: they ask, or stop the instance. -/
def Asks : Event → Prop
  | .getInstance .. | .listBootVolumeAttachments .. | .getBootVolume .. | .instanceAction _ .stop _ => True
  | _ => False

/-- What is asked for from the detachment of the old volume on. -/
inductive Course (initialState : LifecycleState) (oldVolumeID attachmentID : OCID) : List Event → Prop
  | detachFails (hd : a.detach = false) :
    Course initialState oldVolumeID attachmentID
      ([.detachBootVolume attachmentID false] ++ restart a ocid initialState)
  | createFails (hd : a.detach = true) (hc : ∀ new, a.createBootVolume = some (some new) → new = "") :
    Course initialState oldVolumeID attachmentID
      ([.detachBootVolume attachmentID true, .createBootVolume oldVolumeID a.createBootVolume,
        .attachBootVolume oldVolumeID ocid a.attachOld] ++ restart a ocid initialState)
  | pollFails {new : OCID} {polls : List Event} (hd : a.detach = true) (hc : a.createBootVolume = some (some new))
    (hpolls : ∀ e ∈ polls, ∃ answer, e = .getBootVolume new answer) :
    Course initialState oldVolumeID attachmentID
      ([.detachBootVolume attachmentID true, .createBootVolume oldVolumeID (some (some new))] ++ polls ++
        [.deleteBootVolume new a.deleteNew, .attachBootVolume oldVolumeID ocid a.attachOld] ++
        restart a ocid initialState)
  | attachFails {new : OCID} {polls : List Event} (hd : a.detach = true) (hc : a.createBootVolume = some (some new))
    (hpolls : ∀ e ∈ polls, ∃ answer, e = .getBootVolume new answer)
    (hseen : ¬RunsOut a.newPolls → .getBootVolume new (some .available) ∈ polls) :
    Course initialState oldVolumeID attachmentID
      ([.detachBootVolume attachmentID true, .createBootVolume oldVolumeID (some (some new))] ++ polls ++
        [.attachBootVolume new ocid false, .deleteBootVolume new a.deleteNew,
          .attachBootVolume oldVolumeID ocid a.attachOld] ++ restart a ocid initialState)
  | attached {new : OCID} {polls : List Event} (hd : a.detach = true) (hc : a.createBootVolume = some (some new))
    (hpolls : ∀ e ∈ polls, ∃ answer, e = .getBootVolume new answer)
    (hseen : ¬RunsOut a.newPolls → .getBootVolume new (some .available) ∈ polls) :
    Course initialState oldVolumeID attachmentID
      ([.detachBootVolume attachmentID true, .createBootVolume oldVolumeID (some (some new))] ++ polls ++
        [.attachBootVolume new ocid true, .deleteBootVolume oldVolumeID a.deleteOld] ++ restart a ocid initialState)

variable {a ocid}

theorem newVerdict_wait {answer : Option VolumeState} :
    newVerdict answer = .wait ↔ answer = some .provisioning ∨ answer = some .restoring := by
  cases answer with
  | none => simp [newVerdict]
  | some s => cases s <;> simp [newVerdict]

theorem newVerdict_ready {answer : Option VolumeState} : newVerdict answer = .ready ↔ answer = some .available := by
  cases answer with
  | none => simp [newVerdict]
  | some s => cases s <;> simp [newVerdict]

variable {s : LifecycleState} {old attachmentID : OCID}

theorem finish_trace : (finish a ocid s old).trace = .deleteBootVolume old a.deleteOld :: restart a ocid s := by
  unfold finish restart
  split <;> rfl

theorem polls_of_new (a : Answers) (new : OCID) :
    ∀ e ∈ (pollNew a new).trace, ∃ answer, e = .getBootVolume new answer := by
  intro e he
  obtain ⟨p, _, rfl⟩ := mem_trace_poll he
  exact ⟨_, rfl⟩

theorem seen_of_not_runsOut {new : OCID} {b : Bool} (h : (pollNew a new).result = .ok b)
    (hout : ¬RunsOut a.newPolls) : .getBootVolume new (some .available) ∈ (pollNew a new).trace := by
  obtain ⟨p, _, hr, hm⟩ | hexhausted := poll_ok h
  · rwa [newVerdict_ready.mp hr] at hm
  · refine absurd (fun p hp => ?_) hout
    obtain ⟨hw, hc⟩ := hexhausted p hp
    exact ⟨newVerdict_wait.mp hw, hc⟩

theorem createClone_trace : (createClone a old).trace = [.createBootVolume old a.createBootVolume] := by
  unfold createClone
  cases hc : a.createBootVolume with
  | none => rfl
  | some newBV =>
    rw [bind_of_ok rfl]
    by_cases hid : strOr newBV "" = "" <;> simp [bind, require, hid]

theorem createClone_ok {new : OCID} :
    (createClone a old).result = .ok new ↔ a.createBootVolume = some (some new) ∧ new ≠ "" := by
  unfold createClone
  simp only [bind_ok_iff, ask_ok, require_ok, result_pure, decide_eq_true_eq, Except.ok.injEq]
  constructor
  · rintro ⟨newBV, hc, u, hne, rfl⟩
    cases newBV with
    | none => exact absurd rfl hne
    | some id => exact ⟨hc, hne⟩
  · rintro ⟨hc, hne⟩
    exact ⟨some new, hc, (), hne, rfl⟩

/-- Steps 7 to 10. -/
theorem attachNew_course {new : OCID} (hd : a.detach = true) (hc : a.createBootVolume = some (some new)) :
    Course a ocid s old attachmentID
      ([.detachBootVolume attachmentID true, .createBootVolume old (some (some new))] ++
        (attachNew a ocid s old new >>= fun _ => finish a ocid s old).trace) := by
  unfold attachNew
  cases hres : (pollNew a new).result with
  | error r =>
    have hcourse : Course a ocid s old attachmentID _ := .pollFails hd hc (polls_of_new a new)
    rw [bind_of_error hres, compensate_of_error rfl, bind_of_error rfl]
    simpa using hcourse
  | ok b =>
    rw [bind_of_ok hres]
    cases hattach : a.attachNew with
    | false =>
      have hcourse : Course a ocid s old attachmentID _ :=
        .attachFails hd hc (polls_of_new a new) (seen_of_not_runsOut hres)
      rw [compensate_of_error rfl, bind_of_error rfl]
      simpa using hcourse
    | true =>
      have hcourse : Course a ocid s old attachmentID _ :=
        .attached hd hc (polls_of_new a new) (seen_of_not_runsOut hres)
      rw [compensate_of_ok rfl, bind_of_ok rfl, finish_trace]
      simpa using hcourse

theorem course : Course a ocid s old attachmentID (replaceVolume a ocid s old attachmentID).trace := by
  unfold replaceVolume detachOld
  cases hd : a.detach with
  | false =>
    rw [compensate_of_error rfl, bind_of_error rfl]
    exact .detachFails hd
  | true =>
    rw [compensate_of_ok rfl, bind_of_ok rfl]
    unfold createNew
    cases hres : (createClone a old).result with
    | error r =>
      have hcourse : Course a ocid s old attachmentID _ := .createFails hd fun new hc => by
        by_contra hne
        rw [createClone_ok.mpr ⟨hc, hne⟩] at hres
        cases hres
      rw [compensate_of_error hres, bind_of_error rfl, createClone_trace]
      simpa using hcourse
    | ok new =>
      obtain ⟨hc, hne⟩ := createClone_ok.mp hres
      have hcourse : Course a ocid s old attachmentID _ := attachNew_course hd hc
      rw [compensate_of_ok hres, bind_of_ok hres, createClone_trace, hc]
      simpa using hcourse

/-! ## What holds in each course -/

theorem endsAttached_append {t u : List Event} {e : Event} (he : IsAttach e) (hu : ∀ e ∈ u, isMove e = false) :
    EndsAttached (t ++ e :: u) := by
  intro e' hlast
  have hmove : isMove e = true := by cases e <;> first | rfl | exact he.elim
  have hfilter : (e :: u).filter isMove = [e] := by
    rw [List.filter_cons_of_pos hmove, List.filter_eq_nil_iff.mpr fun x hx => by simp [hu x hx]]
  rw [List.filter_append, hfilter, List.getLast?_concat] at hlast
  cases hlast
  exact he

theorem restart_still : ∀ e ∈ restart a ocid s, isMove e = false := by
  unfold restart
  split <;> simp [isMove]

theorem Course.endsAttached {u : List Event} (h : Course a ocid s old attachmentID u)
    (hd : .detachBootVolume attachmentID false ∉ u) (t : List Event) : EndsAttached (t ++ u) := by
  have hback : ∀ v : List Event,
      EndsAttached (t ++ v ++ .attachBootVolume old ocid a.attachOld :: restart a ocid s) :=
    fun v => endsAttached_append trivial restart_still
  cases h with
  | detachFails _ => exact absurd (List.mem_cons_self ..) hd
  | createFails _ _ =>
    have hend := hback [.detachBootVolume attachmentID true, .createBootVolume old a.createBootVolume]
    simpa using hend
  | @pollFails new polls _ _ _ =>
    have hend := hback ([.detachBootVolume attachmentID true, .createBootVolume old (some (some new))] ++ polls ++
      [.deleteBootVolume new a.deleteNew])
    simpa using hend
  | @attachFails new polls _ _ _ _ =>
    have hend := hback ([.detachBootVolume attachmentID true, .createBootVolume old (some (some new))] ++ polls ++
      [.attachBootVolume new ocid false, .deleteBootVolume new a.deleteNew])
    simpa using hend
  | @attached new polls _ _ _ _ =>
    have hstill : ∀ e ∈ .deleteBootVolume old a.deleteOld :: restart a ocid s, isMove e = false :=
      List.forall_mem_cons.mpr ⟨rfl, restart_still⟩
    have hend := endsAttached_append (e := .attachBootVolume new ocid true) (t := t ++
      ([.detachBootVolume attachmentID true, .createBootVolume old (some (some new))] ++ polls)) trivial hstill
    simpa using hend

/-- Every course ends with the start. -/
theorem Course.restarted {u : List Event} (h : Course a ocid s old attachmentID u) (hs : s = .running)
    (t : List Event) : Restarted ocid (t ++ u) := by
  have hstart : restart a ocid s = [.instanceAction ocid .start a.start] := if_pos hs
  have hend : ∃ v, u = v ++ restart a ocid s := by
    cases h <;> exact ⟨_, rfl⟩
  obtain ⟨v, rfl⟩ := hend
  rw [hstart, ← List.append_assoc]
  exact ⟨t ++ v, a.start, [], rfl, fun e he => by cases he⟩

/-! ## What is due -/

theorem dueAttach_of_asks {e : Event} (he : Asks e) (h : List Event) : dueAttach h e := by
  cases e <;> first | exact trivial | exact he.elim

theorem dueDelete_of_asks {e : Event} (he : Asks e) (h : List Event) : dueDelete ocid old h e := by
  cases e <;> first | exact trivial | exact he.elim

theorem restart_due {due : List Event → Event → Prop} (hdue : ∀ h ok, due h (.instanceAction ocid .start ok))
    (h : List Event) : Justified due h (restart a ocid s) := by
  unfold restart
  split
  · exact ⟨hdue _ _, trivial⟩
  · exact trivial

theorem polls_due {due : List Event → Event → Prop} {new : OCID} {polls : List Event}
    (hdue : ∀ h answer, due h (.getBootVolume new answer))
    (hpolls : ∀ e ∈ polls, ∃ answer, e = .getBootVolume new answer) (h : List Event) : Justified due h polls := by
  refine justified_of_forall (fun e he h => ?_) h
  obtain ⟨answer, rfl⟩ := hpolls e he
  exact hdue h answer

theorem Course.dueDelete {u : List Event} (h : Course a ocid s old attachmentID u) (t : List Event)
    (hne : ∀ id, a.createBootVolume = some (some id) → id ≠ old) : Justified (dueDelete ocid old) t u := by
  cases h with
  | detachFails _ => exact ⟨trivial, restart_due (fun _ _ => trivial) _⟩
  | createFails _ _ => exact ⟨trivial, trivial, trivial, restart_due (fun _ _ => trivial) _⟩
  | @pollFails new polls _ hc hpolls =>
    simp only [justified_append]
    refine ⟨⟨⟨⟨trivial, trivial, trivial⟩, polls_due (fun _ _ => trivial) hpolls _⟩, ?_⟩,
      restart_due (fun _ _ => trivial) _⟩
    exact ⟨fun he => absurd he (hne new hc), trivial, trivial⟩
  | @attachFails new polls _ hc hpolls _ =>
    simp only [justified_append]
    refine ⟨⟨⟨⟨trivial, trivial, trivial⟩, polls_due (fun _ _ => trivial) hpolls _⟩, ?_⟩,
      restart_due (fun _ _ => trivial) _⟩
    exact ⟨trivial, fun he => absurd he (hne new hc), trivial, trivial⟩
  | @attached new polls _ hc hpolls _ =>
    simp only [justified_append]
    refine ⟨⟨⟨⟨trivial, trivial, trivial⟩, polls_due (fun _ _ => trivial) hpolls _⟩, ?_⟩,
      restart_due (fun _ _ => trivial) _⟩
    exact ⟨trivial, fun _ => ⟨old, new, by simp, by simp⟩, trivial⟩

/-- No volume with this id was created so far. -/
def Uncreated (v : OCID) (t : List Event) : Prop := ∀ source, .createBootVolume source (some (some v)) ∉ t

theorem Uncreated.append {v : OCID} {t u : List Event} (ht : Uncreated v t) (hu : Uncreated v u) :
    Uncreated v (t ++ u) := by
  intro source hmem
  obtain hmem | hmem := List.mem_append.mp hmem
  · exact ht source hmem
  · exact hu source hmem

theorem uncreated_polls {v new : OCID} {polls : List Event}
    (hpolls : ∀ e ∈ polls, ∃ answer, e = .getBootVolume new answer) : Uncreated v polls := by
  intro source hmem
  obtain ⟨answer, he⟩ := hpolls _ hmem
  cases he

theorem due_of_uncreated {v : OCID} {h : List Event} {ok : Bool} (hv : Uncreated v h) :
    ShrinkDisk.dueAttach h (.attachBootVolume v ocid ok) := fun ⟨source, hmem⟩ => absurd hmem (hv source)

theorem Course.dueAttach {u t : List Event} (h : Course a ocid s old attachmentID u) (hout : ¬RunsOut a.newPolls)
    (hne : ∀ id, a.createBootVolume = some (some id) → id ≠ old) (ht : Uncreated old t) :
    Justified dueAttach t u := by
  have hcreated : Uncreated old
      (t ++ [.detachBootVolume attachmentID true, .createBootVolume old a.createBootVolume]) :=
    ht.append fun source hmem => by
      simp only [List.mem_cons, Event.createBootVolume.injEq, List.not_mem_nil, or_false, reduceCtorEq,
        false_or] at hmem
      exact hne old hmem.2.symm rfl
  have hstart : ∀ h, Justified ShrinkDisk.dueAttach h (restart a ocid s) := restart_due fun _ _ => trivial
  cases h with
  | detachFails _ => exact ⟨trivial, hstart _⟩
  | createFails _ _ =>
    simp only [justified_append]
    refine ⟨⟨trivial, trivial, due_of_uncreated ?_, trivial⟩, hstart _⟩
    simpa using hcreated
  | @pollFails new polls _ hc hpolls =>
    have hpolled := hcreated.append (uncreated_polls (v := old) hpolls)
    rw [hc] at hpolled
    simp only [justified_append]
    refine ⟨⟨⟨⟨trivial, trivial, trivial⟩, polls_due (fun _ _ => trivial) hpolls _⟩, ?_⟩, hstart _⟩
    refine ⟨trivial, due_of_uncreated ?_, trivial⟩
    simpa using hpolled.append (u := [.deleteBootVolume new a.deleteNew]) fun source hmem => by simp at hmem
  | @attachFails new polls _ hc hpolls hseen =>
    have hpolled := hcreated.append (uncreated_polls (v := old) hpolls)
    rw [hc] at hpolled
    simp only [justified_append]
    refine ⟨⟨⟨⟨trivial, trivial, trivial⟩, polls_due (fun _ _ => trivial) hpolls _⟩, ?_⟩, hstart _⟩
    refine ⟨fun _ => by simp [hseen hout], trivial, due_of_uncreated ?_, trivial⟩
    simpa using hpolled.append (u := [.attachBootVolume new ocid false, .deleteBootVolume new a.deleteNew])
      fun source hmem => by simp at hmem
  | @attached new polls _ hc hpolls hseen =>
    simp only [justified_append]
    refine ⟨⟨⟨⟨trivial, trivial, trivial⟩, polls_due (fun _ _ => trivial) hpolls _⟩, ?_⟩, hstart _⟩
    exact ⟨fun _ => by simp [hseen hout], trivial, trivial⟩

/-! ## What becomes of a new volume -/

theorem Course.cleansUp {u : List Event} (h : Course a ocid s old attachmentID u) {source v : OCID}
    (hv : .createBootVolume source (some (some v)) ∈ u) (hne : v ≠ "") :
    (∃ ok, .deleteBootVolume v ok ∈ u) ∨ .attachBootVolume v ocid true ∈ u := by
  have hstart : ∀ answer, .createBootVolume source answer ∉ restart a ocid s := fun answer => by
    unfold restart
    split <;> simp
  have hpolled : ∀ {new : OCID} {polls : List Event}, (∀ e ∈ polls, ∃ answer, e = .getBootVolume new answer) →
      .createBootVolume source (some (some v)) ∉ polls := fun hpolls => uncreated_polls hpolls source
  cases h with
  | detachFails _ => simp [hstart] at hv
  | createFails _ hc =>
    have hv' : source = old ∧ a.createBootVolume = some (some v) := by simpa [hstart, eq_comm] using hv
    exact absurd (hc v hv'.2) hne
  | @pollFails new polls _ _ hpolls =>
    have hv' : source = old ∧ v = new := by simpa [hstart, hpolled hpolls] using hv
    exact .inl ⟨a.deleteNew, by simp [hv'.2]⟩
  | @attachFails new polls _ _ hpolls _ =>
    have hv' : source = old ∧ v = new := by simpa [hstart, hpolled hpolls] using hv
    exact .inl ⟨a.deleteNew, by simp [hv'.2]⟩
  | @attached new polls _ _ hpolls _ =>
    have hv' : source = old ∧ v = new := by simpa [hstart, hpolled hpolls] using hv
    exact .inr (by simp [hv'.2])

/-! ## Whole runs -/

variable {req : Request}

theorem asks_waitForState (id : OCID) (desired : LifecycleState) (polls : List (Poll LifecycleState)) :
    (waitForState id desired polls : Traced Event Failure Bool).All Asks := all_waitForState fun _ => trivial

theorem asks_examine : (examine a ocid req).All Asks := by
  unfold examine
  simp [Asks]

theorem examine_no_action : (examine a ocid req).All fun e => ∀ action ok, e ≠ .instanceAction ocid action ok := by
  unfold examine
  simp

theorem asks_stopInstance : (stopInstance a ocid s).All Asks := by
  unfold stopInstance
  split
  · simp [Asks, asks_waitForState]
  · simp

theorem examine_ok (h : (examine a ocid req).result = .ok (s, old, attachmentID)) :
    (∃ inst, a.getInstance = some inst ∧ inst.lifecycleState = s) ∧ a.oldVolumeID = old ∧
      ∀ id, a.createBootVolume = some (some id) → id ≠ old := by
  unfold examine at h
  simp only [bind_ok_iff, ask_ok, require_ok, demand_ok, result_pure, decide_eq_true_eq] at h
  obtain ⟨_, _, _, _, inst, hi, _, _, attachments, hl, attachment, hh, _, ⟨hbv, _⟩, _, _, _, _, hx⟩ := h
  cases hx
  have hatt : a.attachments.bind List.head? = some attachment := Option.bind_eq_some_iff.mpr ⟨_, hl, hh⟩
  refine ⟨⟨inst, hi, rfl⟩, by simp [Answers.oldVolumeID, hatt, strOr], ?_⟩
  rintro id hc rfl
  have hfresh := a.fresh _ hc
  rw [hatt] at hfresh
  cases hid : attachment.bootVolumeID with
  | none => exact hbv (by simp [hid, strOr])
  | some bv => exact hfresh (by simp [hid, strOr])

theorem stopInstance_ok {u : Unit} (hs : s = .running ∨ s = .starting) :
    (stopInstance a ocid s).result = .ok u ↔ a.stop = true ∧ reached .stopped a.stopPolls = true := by
  unfold stopInstance
  rw [if_pos hs]
  simp [bind_ok_iff, waitForState_ok]

/-- A stop that was accepted, after which the procedure ends. -/
theorem unreached_of_stop (hstop : .instanceAction ocid .stop true ∈ (stopInstance a ocid s).trace)
    (hr : ∀ u, (stopInstance a ocid s).result ≠ .ok u) : reached .stopped a.stopPolls = false := by
  by_cases hs : s = .running ∨ s = .starting
  · have haccepted : a.stop = true := by
      unfold stopInstance at hstop
      rw [if_pos hs, mem_trace_bind] at hstop
      obtain hstop | ⟨u, hu, _⟩ := hstop
      · rw [trace_perform, List.mem_singleton] at hstop
        injection hstop with _ _ hok
        exact hok.symm
      · exact perform_ok.mp hu
    rw [← Bool.not_eq_true]
    exact fun hreached => hr () ((stopInstance_ok hs).mpr ⟨haccepted, hreached⟩)
  · unfold stopInstance at hstop
    rw [if_neg hs] at hstop
    cases hstop

/-- A run ends before the volume is detached, or takes one of the courses after it has asked. -/
theorem run_cases (a : Answers) (ocid : OCID) (req : Request) :
    ((∀ e ∈ (handleShrinkDisk a ocid req).trace, Asks e) ∧
        (.instanceAction ocid .stop true ∈ (handleShrinkDisk a ocid req).trace →
          reached .stopped a.stopPolls = false)) ∨
      ∃ before s attachmentID after, (handleShrinkDisk a ocid req).trace = before ++ after ∧
        (∀ e ∈ before, Asks e) ∧ Course a ocid s a.oldVolumeID attachmentID after ∧
        (∃ inst, a.getInstance = some inst ∧ inst.lifecycleState = s) ∧
        ∀ id, a.createBootVolume = some (some id) → id ≠ a.oldVolumeID := by
  unfold handleShrinkDisk
  cases hex : (examine a ocid req).result with
  | error r =>
    rw [bind_of_error hex]
    exact .inl ⟨asks_examine, fun hstop => absurd rfl (examine_no_action _ hstop .stop true)⟩
  | ok x =>
    obtain ⟨s, old, attachmentID⟩ := x
    obtain ⟨hinst, rfl, hne⟩ := examine_ok hex
    have hasks : ∀ e ∈ (examine a ocid req).trace ++ (stopInstance a ocid s).trace, Asks e := fun e he =>
      (List.mem_append.mp he).elim (asks_examine e) (asks_stopInstance e)
    rw [bind_of_ok hex]
    cases hst : (stopInstance a ocid s).result with
    | error r =>
      simp only [bind_of_error hst]
      refine .inl ⟨hasks, fun hstop => ?_⟩
      obtain hstop | hstop := List.mem_append.mp hstop
      · exact absurd rfl (examine_no_action _ hstop .stop true)
      · exact unreached_of_stop hstop fun u hu => by rw [hst] at hu; cases hu
    | ok u =>
      simp only [bind_of_ok hst]
      exact .inr ⟨_, s, attachmentID, _, (List.append_assoc ..).symm, hasks, course, hinst, hne⟩

theorem isMove_of_asks {e : Event} (he : Asks e) : isMove e = false := by
  cases e <;> first | rfl | exact he.elim

theorem uncreated_of_asks {v : OCID} {t : List Event} (ht : ∀ e ∈ t, Asks e) : Uncreated v t := fun _ hmem => ht _ hmem

/-- After a run in which the detachment did not fail the volume last asked for was attached; unless the polls run out a
new volume is attached only when it was seen available; the old one is deleted only after that; a new one that has an id
is attached or deleted; and an instance that was running is started again once it has stopped. -/
theorem shrink_leaves_usable (a : Answers) (ocid : OCID) (req : Request) :
    ((∀ id, .detachBootVolume id false ∉ (handleShrinkDisk a ocid req).trace) →
        EndsAttached (handleShrinkDisk a ocid req).trace) ∧
      (¬RunsOut a.newPolls → Justified dueAttach [] (handleShrinkDisk a ocid req).trace) ∧
      Justified (dueDelete ocid a.oldVolumeID) [] (handleShrinkDisk a ocid req).trace ∧
      (∀ source v, .createBootVolume source (some (some v)) ∈ (handleShrinkDisk a ocid req).trace → v ≠ "" →
        (∃ ok, .deleteBootVolume v ok ∈ (handleShrinkDisk a ocid req).trace) ∨
          .attachBootVolume v ocid true ∈ (handleShrinkDisk a ocid req).trace) ∧
      ∀ inst, a.getInstance = some inst → inst.lifecycleState = .running →
        .instanceAction ocid .stop true ∈ (handleShrinkDisk a ocid req).trace →
          reached .stopped a.stopPolls = true → Restarted ocid (handleShrinkDisk a ocid req).trace := by
  obtain ⟨hasks, hstop⟩ | ⟨before, s, attachmentID, after, ht, hasks, hcourse, ⟨inst, hi, hs⟩, hne⟩ :=
    run_cases a ocid req
  · refine ⟨fun _ e he => ?_, fun _ => justified_of_forall (fun e he => dueAttach_of_asks (hasks e he)) _,
      justified_of_forall (fun e he => dueDelete_of_asks (hasks e he)) _, fun source v hv => ?_,
      fun inst _ _ hissued hreached => ?_⟩
    · rw [List.filter_eq_nil_iff.mpr fun e he => by simp [isMove_of_asks (hasks e he)]] at he
      cases he
    · exact absurd hv (uncreated_of_asks hasks source)
    · rw [hstop hissued] at hreached
      cases hreached
  · rw [ht]
    refine ⟨fun hd => ?_, fun hout => ?_, ?_, fun source v hv hid => ?_, fun inst' hi' hs' _ _ => ?_⟩
    · exact hcourse.endsAttached (fun hmem => hd _ (List.mem_append_right _ hmem)) before
    · exact justified_append.mpr ⟨justified_of_forall (fun e he => dueAttach_of_asks (hasks e he)) _,
        hcourse.dueAttach hout hne (uncreated_of_asks hasks)⟩
    · exact justified_append.mpr ⟨justified_of_forall (fun e he => dueDelete_of_asks (hasks e he)) _,
        hcourse.dueDelete _ hne⟩
    · obtain hv | hv := List.mem_append.mp hv
      · exact absurd hv (uncreated_of_asks hasks source)
      · obtain ⟨ok, hmem⟩ | hmem := hcourse.cleansUp hv hid
        · exact .inl ⟨ok, List.mem_append_right _ hmem⟩
        · exact .inr (List.mem_append_right _ hmem)
    · rw [hi] at hi'
      cases hi'
      exact hcourse.restarted (hs.symm.trans hs') before

/-- A running instance with a volume of 100 GB, and a service that does everything. -/
def healthy : Answers where
  client := true
  getInstance := some ⟨some "AD-1", .running⟩
  attachments := some [⟨some "attachment", some "old"⟩]
  getBootVolume := some ⟨.available, some 100⟩
  stop := true
  stopPolls := [⟨some .stopped, false⟩]
  detach := true
  createBootVolume := some (some "new")
  newPolls := [⟨some .available, false⟩]
  attachNew := true
  deleteNew := true
  attachOld := true
  deleteOld := true
  start := true
  fresh id h := by cases h; decide

def shrink (a : Answers) : Traced Event Failure Unit := handleShrinkDisk a "instance" ⟨1, "instance"⟩

def slowVolume : Answers := { healthy with newPolls := [⟨some .provisioning, false⟩] }

def unstartable : Answers := { healthy with start := false }

def starting : Answers := { healthy with getInstance := some ⟨some "AD-1", .starting⟩ }

/-- The detachment fails; the polls run out; the last start fails; the instance was only starting. -/
theorem not_usable :
    ¬Usable { healthy with detach := false } "instance" (shrink { healthy with detach := false }) ∧
      ¬Usable slowVolume "instance" (shrink slowVolume) ∧ ¬Usable unstartable "instance" (shrink unstartable) ∧
      ¬Usable starting "instance" (shrink starting) := by
  refine ⟨fun h => ?_, fun h => ?_, fun h => ?_, fun h => ?_⟩
  · exact h.ends (.detachBootVolume "attachment" false) rfl
  · have hdue := justified_iff.mp h.attach ((shrink slowVolume).trace.take 8)
      (.attachBootVolume "new" "instance" true) ((shrink slowVolume).trace.drop 9) rfl
    exact absurd (hdue ⟨"old", by decide⟩) (by decide)
  · obtain ⟨v, ok, hv, hmem⟩ := h.cleansUp (fun u hu => by cases hu) "old" (some "new") (by decide)
    cases hv
    cases ok <;> exact absurd hmem (by decide)
  · obtain ⟨before, ok, after, ht, -⟩ := h.restarted _ true rfl (.inr rfl) (by decide)
    have hmem : .instanceAction "instance" .start ok ∈ (shrink starting).trace := by
      rw [ht]
      exact List.mem_append_right _ (List.mem_cons_self ..)
    cases ok <;> exact absurd hmem (by decide)

end OciHelper.Instances.ShrinkDisk
