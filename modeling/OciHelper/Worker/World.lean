import OciHelper.Lib.StepRun
import OciHelper.Worker.Requests
import OciHelper.Worker.Runner

/-!
# The worker with its runners and the task requests

* `World` : the `tasks` table, the goroutine of `Run`, its runners, the requests in flight;
* `Event` : one atomic step of one actor, or the process going down or coming up;
* `World.step` : the effect of an event, `none` where it is not enabled;
* `World.log` : the OCI calls, the stored checkpoints and the exits, in order.

Statements on the table succeed. Handlers run only while the process is up.
-/

namespace OciHelper.Worker
open OciHelper.Db

/-- The goroutine of `Run`. `scanning` holds the rest of the list that `processNext` read, `dispatch`
the claimed task before its `switch`, `starting` is before `ResetRunningTasks`. -/
inductive Loop
  | down
  | starting
  | idle
  | scanning (todo : List (Int × Task))
  | dispatch (id : Int) (t : Task) (todo : List (Int × Task))
  | stopped

/-- The listed copies the loop still holds. -/
def Loop.held : Loop → List (Int × Task)
  | .scanning todo => todo
  | .dispatch id t todo => (id, t) :: todo
  | _ => []

/-- Where `Shutdown` stands: `closing` is between `close(w.stop)` and `ResetRunningTasks`. -/
inductive Shutdown
  | notCalled
  | closing
  | done
  deriving DecidableEq, Repr

inductive Entry
  | call (task : Int) (c : Call) (i : Int)
  | saved (task : Int) (k : Int)
  | exit
  deriving DecidableEq, Repr

structure World where
  tasks : Tasks
  loop : Loop := .down
  runners : KeyTable Runner := .empty
  batches : KeyTable Batch := .empty
  shutdown : Shutdown := .notCalled
  clock : Nat := 0
  log : List Entry := []

inductive Event
  | tick
  | reset
  | poll
  | claim
  | dispatch
  | loopPanic
  | loopStop
  | runner (rid : Int) (a : Answer)
  | request (id : Int) (op : Op)
  | edit (id : Int) (payload : PayloadText)
  | submit (req : BatchRequest)
  | insert (bid : Int)
  | batchStart (tenantID : Int) (instanceIDs : List String)
  | closeStop
  | shutdownReset
  | exit
  | boot

/-- A step of the worker or of a runner, as opposed to a request or the process itself. -/
def Event.ofWorker : Event → Bool
  | .reset | .poll | .claim | .dispatch | .loopPanic | .loopStop | .runner .. | .shutdownReset => true
  | _ => false

namespace World

def stop (w : World) : Bool := w.shutdown ≠ .notCalled

/-- `batchSem` has room: fewer than five runners are past it. -/
def free (w : World) : Bool := decide ((w.runners.rows.filter fun r => r.2.phase ≠ .acquire).length < 5)

def ctx (w : World) : Ctx := ⟨w.stop, w.free, w.tasks⟩

/-- The effect of a runner's step on the table and the log. -/
def apply (w : World) (task : Int) : Effect → World
  | .none => w
  | .status s progress msg => { w with tasks := updateTaskStatus w.tasks w.clock task s progress msg }
  | .save job =>
    { w with
      tasks := updateTaskPayload w.tasks task job.marshal
      log := w.log ++ [.saved task job.completedIndex] }
  | .call c i => { w with log := w.log ++ [.call task c i] }
  | .parent pid s progress msg => { w with tasks := updateTaskStatus w.tasks w.clock pid s progress msg }

/-- The next phase of a runner; a runner that returned is gone. -/
def setPhase (w : World) (rid : Int) : Option Phase → World
  | some phase => { w with runners := w.runners.update rid fun r => { r with phase := phase } }
  | none => { w with runners := w.runners.erase rid }

/-- `go w.runWithSem(t, ...)`. -/
def spawn (w : World) (id : Int) (t : Task) (kind : Kind) : World :=
  { w with runners := w.runners.insert ⟨id, kind, t.payload, .acquire⟩ }

def stepRunner (w : World) (rid : Int) (a : Answer) : Option World :=
  match w.runners.get rid with
  | some r =>
    match r.step w.ctx a with
    | some (eff, next) => some ((w.apply r.task eff).setPhase rid next)
    | none => none
  | none => none

/-- The `switch` of `processNext` on the claimed copy. -/
def processClaimed (w : World) (id : Int) (t : Task) : World :=
  match t.type with
  | .batchStart => w.spawn id t .batchStart
  | .batchCreate => w.spawn id t .batchCreate
  | .batchCreateMulti =>
    { w with tasks := updateTaskStatus w.tasks w.clock id .running 0 "0 tenants done" }
  | .other name =>
    { w with tasks := updateTaskStatus w.tasks w.clock id .failed 0 ("unknown task type: " ++ name) }

/-- One step of the goroutine of `Run`. -/
def stepLoop (w : World) : Event → Option World
  | .reset =>
    match w.loop with
    | .starting => some { w with tasks := resetRunningTasks w.tasks, loop := .idle }
    | _ => none
  | .poll =>
    match w.loop with
    | .idle => some { w with loop := .scanning (listPendingTasks w.tasks) }
    | _ => none
  | .claim =>
    match w.loop with
    | .scanning [] => some { w with loop := .idle }
    | .scanning ((id, t) :: todo) =>
      match claimTask w.tasks w.clock id with
      | (tasks, true) => some { w with tasks := tasks, loop := .dispatch id t todo }
      | (tasks, false) => some { w with tasks := tasks, loop := .scanning todo }
    | _ => none
  | .dispatch =>
    match w.loop with
    | .dispatch id t todo => some { w.processClaimed id t with loop := .scanning todo }
    | _ => none
  | .loopPanic =>
    match w.loop with
    | .idle | .scanning _ | .dispatch .. => some { w with loop := .starting }
    | _ => none
  | .loopStop =>
    match w.loop with
    | .idle => if w.stop then some { w with loop := .stopped } else none
    | _ => none
  | _ => none

def up (w : World) : Bool := match w.loop with | .down => false | _ => true

/-- One step of a handler. -/
def stepRequest (w : World) : Event → Option World
  | .request id op => some { w with tasks := handleCreateTasks w.tasks w.clock id op }
  | .edit id payload => some { w with tasks := updateTaskPayload w.tasks id payload }
  | .submit req =>
    match req.normalize with
    | .ok req => some { w with batches := w.batches.insert (.start req) }
    | .error _ => some w
  | .insert bid =>
    match w.batches.get bid with
    | some b =>
      match handleBatchCreate w.tasks b with
      | some (tasks, b) => some { w with tasks := tasks, batches := w.batches.update bid fun _ => b }
      | none => none
    | none => none
  | .batchStart tenantID instanceIDs =>
    match handleBatchStart w.tasks tenantID instanceIDs with
    | .ok tasks => some { w with tasks := tasks }
    | .error _ => some w
  | _ => none

/-- One step of `Shutdown`, or of the process: an exit cuts off every goroutine and every request. -/
def stepProcess (w : World) : Event → Option World
  | .closeStop => if w.shutdown = .notCalled then some { w with shutdown := .closing } else none
  | .shutdownReset =>
    if w.shutdown = .closing then
      some { w with tasks := resetRunningTasks w.tasks, shutdown := .done }
    else none
  | .exit =>
    some { w with
      loop := .down, runners := w.runners.clear, batches := w.batches.clear, log := w.log ++ [.exit] }
  | _ => none

/-- One step of any actor. -/
def step : StepRun.Step World Event := fun w e =>
  match e with
  | .tick => some { w with clock := w.clock + 1 }
  | .boot => if w.up then none else some { w with loop := .starting, shutdown := .notCalled }
  | e =>
    if w.up then
      match e with
      | .runner rid a => w.stepRunner rid a
      | .request .. | .edit .. | .submit .. | .insert .. | .batchStart .. => w.stepRequest e
      | .closeStop | .shutdownReset | .exit => w.stepProcess e
      | e => w.stepLoop e
    else none

/-- The process just before it starts, on any table. -/
def off (tasks : Tasks) : World where
  tasks := tasks

/-! ## Frames -/

@[simp] theorem runners_apply (w : World) (task : Int) (eff : Effect) :
    (w.apply task eff).runners = w.runners := by cases eff <;> rfl

@[simp] theorem loop_apply (w : World) (task : Int) (eff : Effect) : (w.apply task eff).loop = w.loop := by
  cases eff <;> rfl

@[simp] theorem tasks_setPhase (w : World) (rid : Int) (next : Option Phase) :
    (w.setPhase rid next).tasks = w.tasks := by cases next <;> rfl

@[simp] theorem loop_setPhase (w : World) (rid : Int) (next : Option Phase) :
    (w.setPhase rid next).loop = w.loop := by cases next <;> rfl

@[simp] theorem log_setPhase (w : World) (rid : Int) (next : Option Phase) :
    (w.setPhase rid next).log = w.log := by cases next <;> rfl

/-- A runner after a step of the runner `rid`: another one, or the same one in its next phase. -/
theorem get_setPhase {w : World} {rid rid' : Int} {next : Option Phase} {r' : Runner}
    (h : (w.setPhase rid next).runners.get rid' = some r') :
    (rid' ≠ rid ∧ w.runners.get rid' = some r') ∨
      ∃ r phase, rid' = rid ∧ w.runners.get rid = some r ∧ next = some phase ∧
        r' = { r with phase := phase } := by
  cases next with
  | none => exact Or.inl ⟨(w.runners.get_of_get_erase h).2, (w.runners.get_of_get_erase h).1⟩
  | some phase =>
    by_cases he : rid' = rid
    · subst he
      simp only [setPhase, KeyTable.get_update_self] at h
      obtain ⟨r, hr, rfl⟩ := Option.map_eq_some_iff.mp h
      exact Or.inr ⟨r, phase, rfl, hr, rfl, rfl⟩
    · refine Or.inl ⟨he, ?_⟩
      simpa only [setPhase, KeyTable.get_update_of_ne _ _ he] using h

/-- A runner after a spawn: the new one, or an old one. -/
theorem get_spawn {w : World} {id : Int} {t : Task} {k : Kind} {rid : Int} {r : Runner}
    (h : (w.spawn id t k).runners.get rid = some r) :
    (rid = w.runners.nextId ∧ r = ⟨id, k, t.payload, .acquire⟩) ∨ w.runners.get rid = some r := by
  simp only [spawn, KeyTable.get_insert] at h
  split at h
  · cases h; exact Or.inl ⟨‹_›, rfl⟩
  · exact Or.inr h

/-! ## What a step can do -/

/-- The steps of the system, one constructor for each effect. -/
inductive Moves (w : World) : Event → World → Prop
  | tick : Moves w .tick { w with clock := w.clock + 1 }
  | boot (hl : w.loop = .down) : Moves w .boot { w with loop := .starting, shutdown := .notCalled }
  | reset (hl : w.loop = .starting) :
      Moves w .reset { w with tasks := resetRunningTasks w.tasks, loop := .idle }
  | poll (hl : w.loop = .idle) : Moves w .poll { w with loop := .scanning (listPendingTasks w.tasks) }
  | listed (hl : w.loop = .scanning []) : Moves w .claim { w with loop := .idle }
  | claimed (id : Int) (t row : Task) (todo : List (Int × Task)) (hl : w.loop = .scanning ((id, t) :: todo))
      (hr : w.tasks.get id = some row) (hp : row.status = .pending) :
      Moves w .claim
        { w with
          tasks := w.tasks.update id fun t => { t with status := .running, startedAt := some w.clock }
          loop := .dispatch id t todo }
  | lost (id : Int) (t : Task) (todo : List (Int × Task)) (hl : w.loop = .scanning ((id, t) :: todo))
      (hp : ∀ row, w.tasks.get id = some row → row.status ≠ .pending) :
      Moves w .claim { w with loop := .scanning todo }
  | spawned (id : Int) (t : Task) (todo : List (Int × Task)) (k : Kind) (hl : w.loop = .dispatch id t todo)
      (hk : Kind.ofType t.type = some k) : Moves w .dispatch { w.spawn id t k with loop := .scanning todo }
  | marked (id : Int) (t : Task) (todo : List (Int × Task)) (s : TaskStatus) (msg : String)
      (hl : w.loop = .dispatch id t todo) (hk : Kind.ofType t.type = none) (hs : s = .running ∨ s = .failed) :
      Moves w .dispatch
        { w with tasks := updateTaskStatus w.tasks w.clock id s 0 msg, loop := .scanning todo }
  | loopPanic (hl : w.up = true) : Moves w .loopPanic { w with loop := .starting }
  | loopStop (hs : w.stop = true) (hl : w.loop = .idle) : Moves w .loopStop { w with loop := .stopped }
  | runner (rid : Int) (a : Answer) (r : Runner) (eff : Effect) (next : Option Phase)
      (hr : w.runners.get rid = some r) (hs : r.step w.ctx a = some (eff, next)) :
      Moves w (.runner rid a) ((w.apply r.task eff).setPhase rid next)
  | request (id : Int) (op : Op) (hu : w.up = true) :
      Moves w (.request id op)
        { w with tasks := updateTaskStatus w.tasks w.clock id op.status 0 op.message }
  | edit (id : Int) (payload : PayloadText) (hu : w.up = true) :
      Moves w (.edit id payload) { w with tasks := updateTaskPayload w.tasks id payload }
  | rejected (e : Event) (he : e.ofWorker = false) : Moves w e w
  | submit (req : BatchRequest) (b : Batch) : Moves w (.submit req) { w with batches := w.batches.insert b }
  | insert (bid : Int) (b : Batch) (row : Task) (hf : row.Fresh) :
      Moves w (.insert bid)
        { w with tasks := w.tasks.insert row, batches := w.batches.update bid fun _ => b }
  | batchStart (tid : Int) (ids : List String) (row : Task) (hf : row.Fresh) :
      Moves w (.batchStart tid ids) { w with tasks := w.tasks.insert row }
  | closeStop : Moves w .closeStop { w with shutdown := .closing }
  | shutdownReset : Moves w .shutdownReset { w with tasks := resetRunningTasks w.tasks, shutdown := .done }
  | exit :
      Moves w .exit
        { w with
          loop := .down, runners := w.runners.clear, batches := w.batches.clear, log := w.log ++ [.exit] }

theorem moves_of_stepLoop {w w' : World} {e : Event} (hu : w.up = true) (h : w.stepLoop e = some w') :
    Moves w e w' := by
  cases e with
  | reset =>
    simp only [stepLoop] at h
    split at h
    · cases h; exact .reset ‹_›
    · cases h
  | poll =>
    simp only [stepLoop] at h
    split at h
    · cases h; exact .poll ‹_›
    · cases h
  | claim =>
    simp only [stepLoop] at h
    split at h
    · cases h; exact .listed ‹_›
    · split at h
      · rename_i hc
        obtain ⟨row, hr, hp, rfl⟩ := claimTask_true hc
        cases h; exact .claimed _ _ row _ ‹_› hr hp
      · rename_i hc
        obtain ⟨rfl, hp⟩ := claimTask_false hc
        cases h; exact .lost _ _ _ ‹_› hp
    · cases h
  | dispatch =>
    simp only [stepLoop] at h
    split at h
    · rename_i id t todo hl
      cases h
      unfold processClaimed
      split
      · exact .spawned id t todo .batchStart hl (by rw [‹t.type = _›]; rfl)
      · exact .spawned id t todo .batchCreate hl (by rw [‹t.type = _›]; rfl)
      · exact .marked id t todo .running _ hl (by rw [‹t.type = _›]; rfl) (Or.inl rfl)
      · exact .marked id t todo .failed _ hl (by rw [‹t.type = _›]; rfl) (Or.inr rfl)
    · cases h
  | loopPanic =>
    simp only [stepLoop] at h
    split at h
    all_goals first | cases h; exact .loopPanic hu | cases h
  | loopStop =>
    simp only [stepLoop] at h
    split at h
    · split at h
      · cases h; exact .loopStop ‹_› ‹_›
      · cases h
    · cases h
  | _ => cases h

theorem moves_of_stepRequest {w w' : World} {e : Event} (hu : w.up = true)
    (h : w.stepRequest e = some w') : Moves w e w' := by
  cases e with
  | request id op => cases h; exact .request id op hu
  | edit id payload => cases h; exact .edit id payload hu
  | submit req =>
    simp only [stepRequest] at h
    split at h
    · cases h; exact .submit req _
    · cases h; exact .rejected _ rfl
  | insert bid =>
    simp only [stepRequest] at h
    split at h
    · split at h
      · rename_i hb
        obtain ⟨row, rfl, hf⟩ := handleBatchCreate_insert hb
        cases h; exact .insert bid _ row hf
      · cases h
    · cases h
  | batchStart tid ids =>
    simp only [stepRequest] at h
    split at h
    · rename_i hb
      obtain ⟨row, rfl, hf⟩ := handleBatchStart_insert hb
      cases h; exact .batchStart tid ids row hf
    · cases h; exact .rejected _ rfl
  | _ => cases h

theorem moves_of_stepProcess {w w' : World} {e : Event} (h : w.stepProcess e = some w') : Moves w e w' := by
  cases e with
  | closeStop =>
    simp only [stepProcess] at h
    split at h
    · cases h; exact .closeStop
    · cases h
  | shutdownReset =>
    simp only [stepProcess] at h
    split at h
    · cases h; exact .shutdownReset
    · cases h
  | exit => cases h; exact .exit
  | _ => cases h

theorem moves_of_stepRunner {w w' : World} {rid : Int} {a : Answer} (h : w.stepRunner rid a = some w') :
    Moves w (.runner rid a) w' := by
  unfold stepRunner at h
  split at h
  · rename_i r hr
    split at h
    · cases h; exact .runner rid a r _ _ hr ‹_›
    · cases h
  · cases h

theorem loop_of_not_up {w : World} (h : w.up = false) : w.loop = .down := by
  unfold up at h
  split at h
  · assumption
  · cases h

/-- **Every step is one of these moves.** -/
theorem moves {w w' : World} {e : Event} (h : step w e = some w') : Moves w e w' := by
  unfold step at h
  split at h
  · cases h; exact .tick
  · cases hu : w.up with
    | true => rw [hu] at h; cases h
    | false => rw [hu] at h; cases h; exact .boot (loop_of_not_up hu)
  · cases hu : w.up with
    | false => rw [hu] at h; cases h
    | true =>
      rw [if_pos hu] at h
      split at h
      · exact moves_of_stepRunner h
      all_goals first
        | exact moves_of_stepRequest hu h
        | exact moves_of_stepProcess h
        | exact moves_of_stepLoop hu h

/-! ## Short runs -/

/-- No user request on the task. -/
def Untouched (t : Int) : Event → Prop
  | .request id _ => id ≠ t
  | .edit id _ => id ≠ t
  | _ => True

/-- One pending task that creates two instances. -/
def oneTask : Tasks :=
  KeyTable.empty.insert
    { type := .batchCreate, status := .pending,
      payload := ({ tenantID := 1, instancesPerTenant := 2 } : BatchCreatePayload).marshal }

theorem fresh_oneTask (row : Task) (h : oneTask.get 1 = some row) : row.Fresh := by
  cases (show oneTask.get 1 = some _ from rfl).symm.trans h
  exact ⟨Or.inl rfl, fun p hp => by cases hp; rfl, fun p hp => by cases hp; rfl⟩

/-- The start of a process on a table with one pending task, up to its runner. -/
def untilSpawn : List Event := [.boot, .reset, .poll, .claim, .dispatch]

/-- The steps of runner `rid` from its start to its first launch. -/
def untilLaunch (rid : Int) : List Event :=
  [.runner rid .none, .runner rid (.tenant (some "t") none), .runner rid .none, .runner rid .none,
    .runner rid .none, .runner rid (.oci none)]

end World

end OciHelper.Worker
