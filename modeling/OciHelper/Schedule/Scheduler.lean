import OciHelper.Lib.KeyTable
import OciHelper.Lib.StepRun

/-!
# Recurring schedules

* `CreateTask` : the columns of `create_tasks` that decide when and how often a schedule runs;
* `Tick` : where `pumpCreateTasks` stands in its list; `Run`, `Stage` : the runs of `runCreateTask`;
* `Scheduler.step` : one atomic step of the tick, of a run, or of a handler;
* `account` : what the log says of one schedule since its last edit.

Statements succeed. What a run launches (image, shape, password) does not decide anything here and is
left out.
-/

namespace OciHelper.Schedule

structure CreateTask where
  tenantID : Int
  intervalSeconds : Int
  createNumbers : Int
  paused : Bool := false
  lastRunAt : Option Nat := none
  deriving DecidableEq, Repr

abbrev CreateTasks := KeyTable CreateTask

/-! ## The statements -/

/-- `ListActiveCreateTasks`, by id. -/
def listActiveCreateTasks (rows : CreateTasks) : List (Int × CreateTask) :=
  rows.rows.filter fun r => r.2.paused = false ∧ r.2.createNumbers > 0

/-- `UpdateCreateTask` writes every column but `last_run_at`. -/
def updateCreateTask (rows : CreateTasks) (id : Int) (req : CreateTask) : CreateTasks :=
  rows.update id fun t => { req with lastRunAt := t.lastRunAt }

def setCreateTaskPaused (rows : CreateTasks) (id : Int) (paused : Bool) : CreateTasks :=
  rows.update id fun t => { t with paused := paused }

def setCreateTaskRemaining (rows : CreateTasks) (id : Int) (remaining : Int) : CreateTasks :=
  rows.update id fun t => { t with createNumbers := remaining }

/-- `last_run_at=CURRENT_TIMESTAMP`: the clock counts nanoseconds, a time stamp whole seconds. -/
def setCreateTaskLastRun (rows : CreateTasks) (now : Nat) (id : Int) : CreateTasks :=
  rows.update id fun t => { t with lastRunAt := some (now / 1000000000) }

def deleteCreateTask (rows : CreateTasks) (id : Int) : CreateTasks := rows.erase id

/-! ## Runs -/

/-- How the checks of `runCreateTask` before its launch loop end. `ready` lists the availability domains,
`true` for one with a name. -/
inductive Setup
  | tenantMissing
  | clientError
  | shapesError
  | shapeUnsupported
  | imageError
  | noSubnet
  | noDomains
  | ready (ads : List Bool)
  deriving DecidableEq, Repr

inductive Launch
  | ok
  | unauthorized
  | failed
  deriving DecidableEq, Repr

/-- Where a run stands; `drop` still has to delete the schedule, `settle` to write its count back, and
`release` to give up the guard. -/
inductive Stage
  | setup
  | drop
  | domains (ads : List Bool) (remaining : Int) (auth : Bool)
  | launching (ads : List Bool) (i remaining : Int) (auth : Bool)
  | settle (remaining : Int) (auth : Bool)
  | release
  deriving DecidableEq, Repr

/-- A run of the schedule `task` from a listed copy of its row. `edition` counts the edits before that
listing; the code does not read it. -/
structure Run where
  task : Int
  copy : CreateTask
  edition : Nat
  stage : Stage

inductive Answer
  | none
  | setup (s : Setup)
  | launch (l : Launch)
  | panic
  deriving DecidableEq, Repr

/-- What a run does outside itself. -/
inductive Effect
  | none
  | delete
  | launched
  | settle (remaining : Int)
  | release
  deriving DecidableEq, Repr

/-- The step of a run: an effect and the next stage, `none` when the run has returned. -/
def Run.step (r : Run) (a : Answer) : Option (Effect × Option Stage) :=
  match r.stage, a with
  | .release, .none => some (.release, none)
  | .release, _ => none
  -- the deferred release runs on a panic too
  | _, .panic => some (.none, some .release)
  | .setup, .setup s =>
    match s with
    | .tenantMissing | .shapeUnsupported | .noSubnet => some (.none, some .drop)
    | .clientError | .shapesError | .imageError | .noDomains => some (.none, some .release)
    | .ready ads => some (.none, some (.domains ads r.copy.createNumbers false))
  | .drop, .none => some (.delete, some .release)
  | .domains [] remaining auth, .none => some (.none, some (.settle remaining auth))
  | .domains (named :: ads) remaining auth, .none =>
    if !named ∨ remaining ≤ 0 then some (.none, some (.domains ads remaining auth))
    else some (.none, some (.launching ads 0 remaining auth))
  | .launching ads i remaining auth, .launch l =>
    if i < remaining then
      match l with
      | .ok => some (.launched, some (.launching ads (i + 1) (remaining - 1) auth))
      | .unauthorized => some (.none, some (.domains ads remaining true))
      | .failed => some (.none, some (.launching ads (i + 1) remaining auth))
    else none
  | .launching ads i remaining auth, .none =>
    if i < remaining then none else some (.none, some (.domains ads remaining auth))
  | .settle remaining auth, .none =>
    if auth then some (.delete, some .release) else some (.settle remaining, some .release)
  | _, _ => none

/-- The count a run works with, once it has set one. -/
def Stage.remaining : Stage → Option Int
  | .domains _ remaining _ => some remaining
  | .launching _ _ remaining _ => some remaining
  | .settle remaining _ => some remaining
  | _ => none

/-- The number of instances a run may still launch. -/
def Run.left (r : Run) : Int := r.stage.remaining.getD r.copy.createNumbers

/-- What a step of a run can do. -/
inductive Turn (r : Run) (a : Answer) : Effect → Option Stage → Prop
  | quiet (stage : Stage) (hs : r.stage ≠ .release) (hs' : stage ≠ .release)
      (hleft : stage.remaining.getD r.copy.createNumbers = r.left)
      (hi : ∀ ads i remaining auth, stage = .launching ads i remaining auth →
        i = 0 ∨ ∃ ads' i' remaining' auth', r.stage = .launching ads' i' remaining' auth' ∧ i = i' + 1) :
      Turn r a .none (some stage)
  | quit (hs : r.stage ≠ .release) (ha : a = .panic ∨ r.stage = .setup) : Turn r a .none (some .release)
  | delete (hs : r.stage = .drop ∨ ∃ remaining auth, r.stage = .settle remaining auth) :
      Turn r a .delete (some .release)
  | launched (ads : List Bool) (i remaining : Int) (auth : Bool)
      (hs : r.stage = .launching ads i remaining auth) (hi : i < remaining) :
      Turn r a .launched (some (.launching ads (i + 1) (remaining - 1) auth))
  | settle (remaining : Int) (auth : Bool) (hs : r.stage = .settle remaining auth) :
      Turn r a (.settle remaining) (some .release)
  | release (hs : r.stage = .release) : Turn r a .release none

theorem Run.turn {r : Run} {a : Answer} {eff : Effect} {next : Option Stage}
    (h : r.step a = some (eff, next)) : Turn r a eff next := by
  unfold Run.step at h
  split at h
  · cases h; exact .release ‹_›
  · cases h
  · rename_i hne
    cases h
    exact .quit (fun h => hne h) (Or.inl rfl)
  · rename_i hst
    split at h
    all_goals cases h
    all_goals first
      | exact .quit (by rw [hst]; simp) (Or.inr hst)
      | exact .quiet _ (by rw [hst]; simp) (by simp) (by simp [Run.left, hst, Stage.remaining]) (by simp)
  · rename_i hst
    cases h
    exact .delete (Or.inl hst)
  · rename_i hst
    cases h
    exact .quiet _ (by rw [hst]; simp) (by simp) (by simp [Run.left, hst, Stage.remaining]) (by simp)
  · rename_i hst
    split at h
    · cases h
      exact .quiet _ (by rw [hst]; simp) (by simp) (by simp [Run.left, hst, Stage.remaining]) (by simp)
    · cases h
      refine .quiet _ (by rw [hst]; simp) (by simp) (by simp [Run.left, hst, Stage.remaining]) ?_
      intro ads i remaining auth he
      cases he
      exact Or.inl rfl
  · rename_i hst
    split at h
    · split at h
      · cases h
        exact .launched _ _ _ _ hst ‹_›
      · cases h
        exact .quiet _ (by rw [hst]; simp) (by simp) (by simp [Run.left, hst, Stage.remaining]) (by simp)
      · cases h
        refine .quiet _ (by rw [hst]; simp) (by simp) (by simp [Run.left, hst, Stage.remaining]) ?_
        intro ads i remaining auth he
        cases he
        exact Or.inr ⟨_, _, _, _, hst, rfl⟩
    · cases h
  · rename_i hst
    split at h
    · cases h
    · cases h
      exact .quiet _ (by rw [hst]; simp) (by simp) (by simp [Run.left, hst, Stage.remaining]) (by simp)
  · rename_i hst
    split at h
    · cases h
      exact .delete (Or.inr ⟨_, _, hst⟩)
    · cases h
      exact .settle _ _ hst
  · cases h

/-! ## The scheduler -/

/-- A copy that a tick listed, with the number of edits before the listing. -/
structure Listed where
  task : Int
  copy : CreateTask
  edition : Nat

/-- Where `pumpCreateTasks` stands: the rest of its list, or a copy whose guard it has just set. -/
inductive Tick
  | waiting
  | testing (now : Nat) (todo : List Listed)
  | starting (now : Nat) (next : Listed) (todo : List Listed)

inductive Entry
  | stored (id n : Int)
  | launched (id : Int)
  | wroteBack (id : Int) (current : Bool)
  | started (id : Int) (live : Bool)
  deriving DecidableEq, Repr

structure Scheduler where
  rows : CreateTasks
  running : List Int := []
  tick : Tick := .waiting
  runs : KeyTable Run := .empty
  clock : Nat := 0
  log : List Entry := []

inductive Event
  | clock (elapsed : Nat)
  | list
  | test
  | start
  | run (rid : Int) (a : Answer)
  | post (req : CreateTask)
  | put (id : Int) (req : CreateTask)
  | pause (id : Int)
  | resume (id : Int)
  | delete (id : Int)

/-- `time.Duration(n) * time.Second`, an `int64` of nanoseconds; the product wraps around. -/
def seconds (n : Int) : Int := (Int64.ofInt n * 1000000000).toInt

/-- `now.Sub(last)`, the difference held within an `int64`. -/
def sub (now last : Int) : Int := max Int64.minValue.toInt (min Int64.maxValue.toInt (now - last))

/-- The copy is due: it never ran, or its interval is over. -/
def due (now : Nat) (t : CreateTask) : Bool :=
  match t.lastRunAt with
  | some last => !decide (sub now (last * 1000000000) < seconds t.intervalSeconds)
  | none => true

/-- An interval of 292 years counts as negative. -/
example : due 0 ⟨1, 9223372037, 2, false, some 0⟩ = true := by decide

/-- The checks and the defaults of `handleRecurringTasks`. -/
def normalize (req : CreateTask) : Option CreateTask :=
  if req.tenantID = 0 then none
  else some
    { tenantID := req.tenantID
      intervalSeconds := if req.intervalSeconds < 30 then 60 else req.intervalSeconds
      createNumbers := if req.createNumbers < 1 then 1 else req.createNumbers }

/-- What the log says of one schedule: the edits so far, the number the last one stored, and the
launches since then. -/
structure Account where
  edition : Nat := 0
  quota : Int := 0
  launched : Int := 0

def Account.add (id : Int) (a : Account) : Entry → Account
  | .stored k n => if k = id then ⟨a.edition + 1, n, 0⟩ else a
  | .launched k => if k = id then { a with launched := a.launched + 1 } else a
  | _ => a

def account (id : Int) (log : List Entry) : Account := log.foldl (Account.add id) {}

namespace Scheduler

/-- A scheduler on the rows that a process finds at its start; their numbers count as stored. -/
def boot (rows : CreateTasks) : Scheduler where
  rows := rows
  log := rows.rows.map fun r => .stored r.1 r.2.createNumbers

def edition (s : Scheduler) (id : Int) : Nat := (account id s.log).edition

def record (s : Scheduler) (e : Entry) : Scheduler := { s with log := s.log ++ [e] }

/-- The schedule has a row that is not paused. -/
def live (s : Scheduler) (id : Int) : Bool := match s.rows.get id with | some t => !t.paused | none => false

/-- An edit that stores a number, if there is a row to store it in. -/
def store (s : Scheduler) (id : Int) (req : CreateTask) : Scheduler :=
  match s.rows.get id with
  | some _ => { s with rows := updateCreateTask s.rows id req }.record (.stored id req.createNumbers)
  | none => s

/-- The write-back of a run's count; it deletes the row of a schedule with nothing left. -/
def writeBack (s : Scheduler) (r : Run) (remaining : Int) : Scheduler :=
  match s.rows.get r.task with
  | some _ =>
    { s with
      rows := if remaining ≤ 0 then deleteCreateTask s.rows r.task
        else setCreateTaskRemaining s.rows r.task remaining }.record
      (.wroteBack r.task (r.edition == s.edition r.task))
  | none => s

/-- The effect of a run's step. -/
def apply (s : Scheduler) (r : Run) : Effect → Scheduler
  | .none => s
  | .delete => { s with rows := deleteCreateTask s.rows r.task }
  | .launched => s.record (.launched r.task)
  | .settle remaining => s.writeBack r remaining
  | .release => { s with running := s.running.filter (· ≠ r.task) }

def setStage (s : Scheduler) (rid : Int) : Option Stage → Scheduler
  | some stage => { s with runs := s.runs.update rid fun r => { r with stage := stage } }
  | none => { s with runs := s.runs.erase rid }

def stepRun (s : Scheduler) (rid : Int) (a : Answer) : Option Scheduler :=
  match s.runs.get rid with
  | some r =>
    match r.step a with
    | some (eff, next) => some ((s.apply r eff).setStage rid next)
    | none => none
  | none => none

/-- One step of `pumpCreateTasks`: list, then for each copy the tests of the guard and of the interval
with the store of the guard, then `SetCreateTaskLastRun` with the start of the run. -/
def stepTick (s : Scheduler) : Event → Option Scheduler
  | .list =>
    match s.tick with
    | .waiting =>
      some { s with
        tick := .testing s.clock
          ((listActiveCreateTasks s.rows).map fun r => ⟨r.1, r.2, s.edition r.1⟩) }
    | _ => none
  | .test =>
    match s.tick with
    | .testing _ [] => some { s with tick := .waiting }
    | .testing now (l :: todo) =>
      if l.task ∈ s.running then some { s with tick := .testing now todo }
      else if due now l.copy then
        some { s with running := l.task :: s.running, tick := .starting now l todo }
      else some { s with tick := .testing now todo }
    | _ => none
  | .start =>
    match s.tick with
    | .starting now l todo =>
      some ({ s with
        rows := setCreateTaskLastRun s.rows s.clock l.task
        tick := .testing now todo
        runs := s.runs.insert ⟨l.task, l.copy, l.edition, .setup⟩ }.record (.started l.task (s.live l.task)))
    | _ => none
  | _ => none

def step : StepRun.Step Scheduler Event := fun s e =>
  match e with
  | .clock elapsed => some { s with clock := s.clock + elapsed }
  | .run rid a => s.stepRun rid a
  | .post req =>
    match normalize req with
    | some t =>
      some ({ s with rows := s.rows.insert t }.record (.stored s.rows.nextId t.createNumbers))
    | none => some s
  | .put id req => some (s.store id req)
  | .pause id => some { s with rows := setCreateTaskPaused s.rows id true }
  | .resume id => some { s with rows := setCreateTaskPaused s.rows id false }
  | .delete id => some { s with rows := deleteCreateTask s.rows id }
  | e => s.stepTick e

end Scheduler

end OciHelper.Schedule
