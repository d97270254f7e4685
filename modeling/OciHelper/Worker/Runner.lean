import OciHelper.Db.Tasks
import OciHelper.Lib.Checkpoint

/-!
# The task runners `runBatchStart` and `runBatchCreate`

A runner is a goroutine; between two of its steps any other actor may move. Every step makes one access
to the `tasks` table, one call to OCI, or one test of shared memory, and the last access of a runner
ends it.

* `Job` : the decoded payload a runner works on, with `Job.decode` and `Job.marshal`;
* `Point`, `Phase` : where a runner stands; `Effect` : what a step does outside the runner;
* `runBatchStart`, `runBatchCreate` : the loop bodies; `maybeUpdateParent`, `taskIsActive`;
* `Runner.step` : `runWithSem` around them, with recovered panics;
* `Turn`, `Runner.turn` : what a step can do, said once for the proofs.
-/

namespace OciHelper.Worker
open OciHelper.Db

/-- The task types that have a runner. -/
inductive Kind
  | batchStart
  | batchCreate
  deriving DecidableEq, Repr

def Kind.ofType : TaskType → Option Kind
  | .batchStart => some .batchStart
  | .batchCreate => some .batchCreate
  | _ => none

/-! ## Payloads -/

/-- The payload struct a runner holds in memory. -/
inductive Job
  | start (p : BatchStartPayload)
  | create (p : BatchCreatePayload)
  deriving DecidableEq, Repr

namespace Job

def kind : Job → Kind
  | .start _ => .batchStart
  | .create _ => .batchCreate

def total : Job → Int
  | .start p => p.instanceIDs.length
  | .create p => p.instancesPerTenant

def completedIndex : Job → Int
  | .start p => p.completedIndex
  | .create p => p.completedIndex

def setIndex (i : Int) : Job → Job
  | .start p => .start { p with completedIndex := i }
  | .create p => .create { p with completedIndex := i }

def marshal : Job → PayloadText
  | .start p => p.marshal
  | .create p => p.marshal

def decode : Kind → PayloadText → Except String Job
  | .batchStart, text => text.asStart.map .start
  | .batchCreate, text => text.asCreate.map .create

@[simp] theorem kind_setIndex (i : Int) (j : Job) : (j.setIndex i).kind = j.kind := by cases j <;> rfl

@[simp] theorem total_setIndex (i : Int) (j : Job) : (j.setIndex i).total = j.total := by cases j <;> rfl

@[simp] theorem completedIndex_setIndex (i : Int) (j : Job) : (j.setIndex i).completedIndex = i := by
  cases j <;> rfl

/-- The text a runner writes is decoded back by its own decoder. -/
theorem decode_marshal (j : Job) : decode j.kind j.marshal = .ok j := by cases j <;> rfl

theorem kind_of_decode {k : Kind} {text : PayloadText} {j : Job} (h : decode k text = .ok j) :
    j.kind = k := by
  cases k with
  | batchStart =>
    cases ht : text.asStart with
    | error e => rw [decode, ht] at h; cases h
    | ok p => rw [decode, ht] at h; cases h; rfl
  | batchCreate =>
    cases ht : text.asCreate with
    | error e => rw [decode, ht] at h; cases h
    | ok p => rw [decode, ht] at h; cases h; rfl

end Job

/-! ## Points of a runner -/

/-- The OCI calls of the two loop bodies. -/
inductive Call
  | getInstance
  | startInstance
  | launchInstance
  deriving DecidableEq, Repr

/-- The first call made for an index. -/
def Call.opens : Call → Bool
  | .getInstance => true
  | .startInstance => false
  | .launchInstance => true

/-- Points of the loop over the indices. -/
inductive Point
  | head (i : Int)
  | check (i : Int)
  | park (i : Int) (why : String)
  | requeue (why : String)
  | announce (i : Int)
  | probe (i : Int)
  | launch (i : Int)
  | report (i : Int) (msg : String) (ok : Bool)
  | save (i : Int) (ok : Bool)
  | sleep (i : Int)
  | finish
  deriving DecidableEq, Repr

/-- Where a runner stands. `abort msg pid` still has to write status failed, then to update parent `pid`. -/
inductive Phase
  | acquire
  | begin
  | abort (msg : String) (pid : Int)
  | loop (job : Job) (tenant : String) (pt : Point)
  | parent (pid : Int)
  | parentWrite (pid : Int) (status : TaskStatus) (progress : Int) (msg : String)
  | recover (msg : String)
  deriving DecidableEq, Repr

/-- The answer of the environment to the step a runner is at. A panic comes out of the code a runner
calls: the tenant lookup with the client construction, or an OCI call, whose request may be `sent`. -/
inductive Answer
  | none
  | tenant (name : Option String) (clientErr : Option String)
  | oci (err : Option String)
  | panic (sent : Bool) (msg : String)
  deriving DecidableEq, Repr

/-- What a step does outside the runner: a write to its own row, an OCI call, a write to a parent row. -/
inductive Effect
  | none
  | status (s : TaskStatus) (progress : Int) (msg : String)
  | save (job : Job)
  | call (c : Call) (i : Int)
  | parent (pid : Int) (s : TaskStatus) (progress : Int) (msg : String)
  deriving DecidableEq, Repr

/-- What a step reads: the stop channel, a free slot of `batchSem`, the table. -/
structure Ctx where
  stop : Bool
  free : Bool
  tasks : Tasks

structure Runner where
  task : Int
  kind : Kind
  text : PayloadText
  phase : Phase

/-- An effect and the next phase, `none` when the runner has returned. -/
abbrev Outcome := Option (Effect × Option Phase)

/-! ## The bodies -/

def bareOCID (id : String) : String :=
  match id.toList.dropWhile (· ≠ ':') with
  | [] => id
  | _ :: rest => String.ofList rest

/-- Go's integer division truncates. -/
def percent (i total : Int) : Int := (i * 100).tdiv total

/-- `payload.InstanceIDs[i]` for an index below the length; a negative one panics. -/
def instanceAt (p : BatchStartPayload) (i : Int) : Option String :=
  if i < 0 then none else p.instanceIDs[i.toNat]?

/-- The row is still "running". -/
def taskIsActive (tasks : Tasks) (id : Int) : Bool :=
  match getTaskByID tasks id with
  | some t => t.status = .running
  | none => false

/-- `saveCheckpoint` sets the index in the struct and stores the struct. -/
def saveCheckpoint (job : Job) (i : Int) (next : Job → Phase) : Outcome :=
  some (.save (job.setIndex i), some (next (job.setIndex i)))

/-- An OCI call that panics. -/
def panicked (c : Call) (i : Int) (sent : Bool) (msg : String) : Outcome :=
  some (if sent then .call c i else .none, some (.recover msg))

/-- The part of the loop that the two runners share: loop test and shutdown test, status test, and the
two writes of a runner that gives its task back. -/
def loopControl (ctx : Ctx) (task : Int) (job : Job) (tenant : String) : Point → Outcome
  | .head i =>
    if i < job.total then
      if ctx.stop then some (.none, some (.loop job tenant (.park i "interrupted by shutdown")))
      else some (.none, some (.loop job tenant (.check i)))
    else some (.none, some (.loop job tenant .finish))
  | .check i =>
    if taskIsActive ctx.tasks task then some (.none, some (.loop job tenant (.announce i)))
    else some (.none, some (.loop job tenant (.park i "paused by user")))
  | .park i why => saveCheckpoint job i fun job => .loop job tenant (.requeue why)
  | .requeue why => some (.status .pending 0 why, none)
  | _ => none

/-- `maybeUpdateParent` returns at once unless the id is positive. -/
def enterParent (pid : Int) : Option Phase := if pid ≤ 0 then none else some (.parent pid)

/-- `maybeUpdateParent`: read the children, then write the parent. -/
def maybeUpdateParent (tasks : Tasks) (pid : Int) : Outcome :=
  match listTasksByParentID tasks pid with
  | [] => some (.none, none)
  | c :: cs =>
    let children := c :: cs
    let completed := (children.filter fun r => r.2.status = .completed).length
    let failed := (children.filter fun r => r.2.status = .failed).length
    let done := completed + failed
    let total := children.length
    let status : TaskStatus := if done ≥ total then .completed else .running
    let msg := s!"{done}/{total} tenants done" ++ (if failed > 0 then s!" ({failed} failed)" else "")
    some (.none, some (.parentWrite pid status (percent done total) msg))

/-- The prologue of `runBatchStart`. -/
def beginBatchStart (text : PayloadText) (name clientErr : Option String) : Phase :=
  match text.asStart with
  | .error e => .abort ("invalid payload: " ++ e) 0
  | .ok p =>
    match name, clientErr with
    | none, _ => .abort "tenant not found" 0
    | some _, some e => .abort ("oci client: " ++ e) 0
    | some n, none => .loop (.start p) n (.head p.completedIndex)

def runBatchStart (ctx : Ctx) (task : Int) (p : BatchStartPayload) (tenant : String) :
    Point → Answer → Outcome
  | .announce i, .none =>
    match instanceAt p i with
    | some id =>
      some (.status .running (percent i p.instanceIDs.length) (bareOCID id),
        some (.loop (.start p) tenant (.probe i)))
    | none => some (.none, some (.recover s!"runtime error: index out of range [{i}]"))
  | .probe i, .panic sent msg => panicked .getInstance i sent msg
  | .probe i, .oci err =>
    let instID := bareOCID ((instanceAt p i).getD "")
    let next : Point := match err with
      | some e => .report i ("skip " ++ instID ++ ": " ++ e) false
      | none => .launch i
    some (.call .getInstance i, some (.loop (.start p) tenant next))
  | .launch i, .panic sent msg => panicked .startInstance i sent msg
  | .launch i, .oci err =>
    let instID := bareOCID ((instanceAt p i).getD "")
    let next : Point := match err with
      | some e => .report i ("fail " ++ instID ++ ": " ++ e) false
      | none => .save i true
    some (.call .startInstance i, some (.loop (.start p) tenant next))
  | .report i msg ok, .none =>
    some (.status .running (percent i p.instanceIDs.length) msg, some (.loop (.start p) tenant (.save i ok)))
  | .save i _, .none => saveCheckpoint (.start p) (i + 1) fun job => .loop job tenant (.head (i + 1))
  | .finish, .none => some (.status .completed 100 "done", none)
  | pt, .none => loopControl ctx task (.start p) tenant pt
  | _, _ => none

/-- The prologue of `runBatchCreate`. -/
def beginBatchCreate (text : PayloadText) (name clientErr : Option String) : Phase :=
  match text.asCreate with
  | .error e => .abort ("invalid payload: " ++ e) 0
  | .ok p =>
    match name, clientErr with
    | none, _ => .abort "tenant not found" p.parentTaskID
    | some _, some e => .abort ("oci client: " ++ e) p.parentTaskID
    | some n, none => .loop (.create p) n (.head p.completedIndex)

def displayName (p : BatchCreatePayload) (tenant : String) (i : Int) : String :=
  s!"{p.displayNamePrefix}-{tenant}-{i + 1}"

def runBatchCreate (ctx : Ctx) (task : Int) (p : BatchCreatePayload) (tenant : String) :
    Point → Answer → Outcome
  | .announce i, .none =>
    if p.instancesPerTenant = 0 then some (.none, some (.recover "runtime error: integer divide by zero"))
    else
      some (.status .running (percent i p.instancesPerTenant) ("creating " ++ displayName p tenant i),
        some (.loop (.create p) tenant (.launch i)))
  | .launch i, .panic sent msg => panicked .launchInstance i sent msg
  | .launch i, .oci err =>
    let next : Point := match err with
      | some e => .report i ("failed " ++ displayName p tenant i ++ ": " ++ e) false
      | none => .report i ("created " ++ displayName p tenant i) true
    some (.call .launchInstance i, some (.loop (.create p) tenant next))
  | .report i msg ok, .none =>
    some (.status .running (percent i p.instancesPerTenant) msg, some (.loop (.create p) tenant (.save i ok)))
  | .save i ok, .none =>
    saveCheckpoint (.create p) (i + 1) fun job =>
      .loop job tenant (if ok then .sleep i else .head (i + 1))
  | .sleep i, .none =>
    if ctx.stop then some (.none, some (.loop (.create p) tenant (.park (i + 1) "interrupted by shutdown")))
    else some (.none, some (.loop (.create p) tenant (.head (i + 1))))
  | .finish, .none =>
    some (.status .completed 100 s!"created {p.instancesPerTenant} instances", enterParent p.parentTaskID)
  | pt, .none => loopControl ctx task (.create p) tenant pt
  | _, _ => none

/-- One step of a runner inside `runWithSem`, which recovers the panics of the body. -/
def Runner.step (ctx : Ctx) (r : Runner) (a : Answer) : Outcome :=
  match r.phase, a with
  | .acquire, .none => if ctx.free then some (.none, some .begin) else none
  | .begin, .tenant name clientErr =>
    match r.kind with
    | .batchStart => some (.none, some (beginBatchStart r.text name clientErr))
    | .batchCreate => some (.none, some (beginBatchCreate r.text name clientErr))
  | .begin, .panic _ msg => some (.none, some (.recover msg))
  | .abort msg pid, .none => some (.status .failed 0 msg, enterParent pid)
  | .loop (.start p) tenant pt, a => runBatchStart ctx r.task p tenant pt a
  | .loop (.create p) tenant pt, a => runBatchCreate ctx r.task p tenant pt a
  | .parent pid, .none => maybeUpdateParent ctx.tasks pid
  | .parentWrite pid s progress msg, .none => some (.parent pid s progress msg, none)
  | .recover msg, .none => some (.status .failed 0 ("panic: " ++ msg), none)
  | _, _ => none

/-! ## What a step can do -/

/-- The turns of the loop over the indices. -/
inductive LoopTurn (job : Job) (tenant : String) : Point → Effect → Option Phase → Prop
  | enter (i : Int) (pt : Point) (hpt : pt = .check i ∨ ∃ why, pt = .park i why) (hi : i < job.total) :
      LoopTurn job tenant (.head i) .none (some (.loop job tenant pt))
  | leave (i : Int) (hi : job.total ≤ i) : LoopTurn job tenant (.head i) .none (some (.loop job tenant .finish))
  | check (i : Int) (pt : Point) (hpt : pt = .announce i ∨ ∃ why, pt = .park i why) :
      LoopTurn job tenant (.check i) .none (some (.loop job tenant pt))
  | park (i : Int) (why : String) :
      LoopTurn job tenant (.park i why) (.save (job.setIndex i))
        (some (.loop (job.setIndex i) tenant (.requeue why)))
  | requeue (why : String) : LoopTurn job tenant (.requeue why) (.status .pending 0 why) none
  | announce (i progress : Int) (msg : String) (pt : Point)
      (hpt : pt = match job.kind with | .batchStart => .probe i | .batchCreate => .launch i) :
      LoopTurn job tenant (.announce i) (.status .running progress msg) (some (.loop job tenant pt))
  | crash (i : Int) (pt : Point) (msg : String) (hpt : pt = .announce i ∨ pt = .probe i ∨ pt = .launch i) :
      LoopTurn job tenant pt .none (some (.recover msg))
  | probe (i : Int) (next : Phase) (hk : job.kind = .batchStart)
      (hn : (∃ msg, next = .recover msg) ∨ (∃ msg ok, next = .loop job tenant (.report i msg ok)) ∨
        next = .loop job tenant (.launch i)) :
      LoopTurn job tenant (.probe i) (.call .getInstance i) (some next)
  | start (i : Int) (next : Phase) (hk : job.kind = .batchStart)
      (hn : (∃ msg, next = .recover msg) ∨ (∃ msg ok, next = .loop job tenant (.report i msg ok)) ∨
        ∃ ok, next = .loop job tenant (.save i ok)) :
      LoopTurn job tenant (.launch i) (.call .startInstance i) (some next)
  | launch (i : Int) (next : Phase) (hk : job.kind = .batchCreate)
      (hn : (∃ msg, next = .recover msg) ∨ ∃ msg ok, next = .loop job tenant (.report i msg ok)) :
      LoopTurn job tenant (.launch i) (.call .launchInstance i) (some next)
  | report (i progress : Int) (msg : String) (ok : Bool) :
      LoopTurn job tenant (.report i msg ok) (.status .running progress msg)
        (some (.loop job tenant (.save i ok)))
  | save (i : Int) (ok : Bool) (pt : Point) (hpt : pt = .sleep i ∨ pt = .head (i + 1)) :
      LoopTurn job tenant (.save i ok) (.save (job.setIndex (i + 1)))
        (some (.loop (job.setIndex (i + 1)) tenant pt))
  | sleep (i : Int) (pt : Point) (hpt : pt = .head (i + 1) ∨ ∃ why, pt = .park (i + 1) why) :
      LoopTurn job tenant (.sleep i) .none (some (.loop job tenant pt))
  | finish (msg : String) (next : Option Phase) (hn : next = none ∨ ∃ pid, next = enterParent pid) :
      LoopTurn job tenant .finish (.status .completed 100 msg) next

theorem loopTurn_of_loopControl {ctx : Ctx} {task : Int} {job : Job} {tenant : String} {pt : Point}
    {eff : Effect} {next : Option Phase}
    (h : loopControl ctx task job tenant pt = some (eff, next)) : LoopTurn job tenant pt eff next := by
  cases pt with
  | head i =>
    simp only [loopControl] at h
    split at h
    · split at h
      · cases h; exact .enter i _ (Or.inr ⟨_, rfl⟩) ‹_›
      · cases h; exact .enter i _ (Or.inl rfl) ‹_›
    · cases h; exact .leave i (not_lt.mp ‹_›)
  | check i =>
    simp only [loopControl] at h
    split at h
    · cases h; exact .check i _ (Or.inl rfl)
    · cases h; exact .check i _ (Or.inr ⟨_, rfl⟩)
  | park i why => cases h; exact .park i why
  | requeue why => cases h; exact .requeue why
  | _ => cases h

theorem loopTurn_of_panicked {c : Call} {i : Int} {sent : Bool} {msg : String} {job : Job}
    {tenant : String} {pt : Point} {eff : Effect} {next : Option Phase}
    (hc : LoopTurn job tenant pt (.call c i) (some (.recover msg)))
    (hn : LoopTurn job tenant pt .none (some (.recover msg)))
    (h : panicked c i sent msg = some (eff, next)) : LoopTurn job tenant pt eff next := by
  cases sent <;> cases h
  · exact hn
  · exact hc

theorem loopTurn_of_runBatchStart {ctx : Ctx} {task : Int} {p : BatchStartPayload} {tenant : String}
    {pt : Point} {a : Answer} {eff : Effect} {next : Option Phase}
    (h : runBatchStart ctx task p tenant pt a = some (eff, next)) :
    LoopTurn (.start p) tenant pt eff next := by
  unfold runBatchStart at h
  split at h
  · split at h
    · cases h; exact .announce _ _ _ _ rfl
    · cases h; exact .crash _ _ _ (Or.inl rfl)
  · exact loopTurn_of_panicked (.probe _ _ rfl (Or.inl ⟨_, rfl⟩)) (.crash _ _ _ (Or.inr (Or.inl rfl))) h
  · rename_i i err
    cases err <;> cases h
    · exact .probe _ _ rfl (Or.inr (Or.inr rfl))
    · exact .probe _ _ rfl (Or.inr (Or.inl ⟨_, _, rfl⟩))
  · exact loopTurn_of_panicked (.start _ _ rfl (Or.inl ⟨_, rfl⟩)) (.crash _ _ _ (Or.inr (Or.inr rfl))) h
  · rename_i i err
    cases err <;> cases h
    · exact .start _ _ rfl (Or.inr (Or.inr ⟨_, rfl⟩))
    · exact .start _ _ rfl (Or.inr (Or.inl ⟨_, _, rfl⟩))
  · cases h; exact .report _ _ _ _
  · cases h; exact .save _ _ _ (Or.inr rfl)
  · cases h; exact .finish _ _ (Or.inl rfl)
  · exact loopTurn_of_loopControl h
  · cases h

theorem loopTurn_of_runBatchCreate {ctx : Ctx} {task : Int} {p : BatchCreatePayload} {tenant : String}
    {pt : Point} {a : Answer} {eff : Effect} {next : Option Phase}
    (h : runBatchCreate ctx task p tenant pt a = some (eff, next)) :
    LoopTurn (.create p) tenant pt eff next := by
  unfold runBatchCreate at h
  split at h
  · split at h
    · cases h; exact .crash _ _ _ (Or.inl rfl)
    · cases h; exact .announce _ _ _ _ rfl
  · exact loopTurn_of_panicked (.launch _ _ rfl (Or.inl ⟨_, rfl⟩)) (.crash _ _ _ (Or.inr (Or.inr rfl))) h
  · rename_i i err
    cases err <;> cases h
    · exact .launch _ _ rfl (Or.inr ⟨_, _, rfl⟩)
    · exact .launch _ _ rfl (Or.inr ⟨_, _, rfl⟩)
  · cases h; exact .report _ _ _ _
  · rename_i i ok
    cases ok <;> cases h
    · exact .save _ _ _ (Or.inr rfl)
    · exact .save _ _ _ (Or.inl rfl)
  · split at h
    · cases h; exact .sleep _ _ (Or.inr ⟨_, rfl⟩)
    · cases h; exact .sleep _ _ (Or.inl rfl)
  · cases h; exact .finish _ _ (Or.inr ⟨_, rfl⟩)
  · exact loopTurn_of_loopControl h
  · cases h

/-- The turns of a runner with its payload text. -/
inductive Turn (kind : Kind) (text : PayloadText) : Phase → Effect → Option Phase → Prop
  | acquire : Turn kind text .acquire .none (some .begin)
  | reject (msg : String) (pid : Int) : Turn kind text .begin .none (some (.abort msg pid))
  | enter (job : Job) (tenant : String) (hd : Job.decode kind text = .ok job) :
      Turn kind text .begin .none (some (.loop job tenant (.head job.completedIndex)))
  | crash (msg : String) : Turn kind text .begin .none (some (.recover msg))
  | abort (msg : String) (pid : Int) :
      Turn kind text (.abort msg pid) (.status .failed 0 msg) (enterParent pid)
  | loop (job : Job) (tenant : String) (pt : Point) (eff : Effect) (next : Option Phase)
      (hl : LoopTurn job tenant pt eff next) : Turn kind text (.loop job tenant pt) eff next
  | parent (pid : Int) (next : Option Phase)
      (hn : next = none ∨ ∃ s progress msg, next = some (.parentWrite pid s progress msg)) :
      Turn kind text (.parent pid) .none next
  | parentWrite (pid : Int) (s : TaskStatus) (progress : Int) (msg : String) :
      Turn kind text (.parentWrite pid s progress msg) (.parent pid s progress msg) none
  | recover (msg msg' : String) : Turn kind text (.recover msg) (.status .failed 0 msg') none

theorem turn_of_beginBatchStart (text : PayloadText) (name clientErr : Option String) :
    Turn .batchStart text .begin .none (some (beginBatchStart text name clientErr)) := by
  unfold beginBatchStart
  split
  · exact .reject _ _
  · rename_i p hp
    split
    · exact .reject _ _
    · exact .reject _ _
    · exact .enter (.start p) _ (by rw [Job.decode, hp]; rfl)

theorem turn_of_beginBatchCreate (text : PayloadText) (name clientErr : Option String) :
    Turn .batchCreate text .begin .none (some (beginBatchCreate text name clientErr)) := by
  unfold beginBatchCreate
  split
  · exact .reject _ _
  · rename_i p hp
    split
    · exact .reject _ _
    · exact .reject _ _
    · exact .enter (.create p) _ (by rw [Job.decode, hp]; rfl)

theorem turn_of_maybeUpdateParent {kind : Kind} {text : PayloadText} {tasks : Tasks} {pid : Int}
    {eff : Effect} {next : Option Phase} (h : maybeUpdateParent tasks pid = some (eff, next)) :
    Turn kind text (.parent pid) eff next := by
  unfold maybeUpdateParent at h
  split at h
  · cases h; exact .parent pid _ (Or.inl rfl)
  · cases h; exact .parent pid _ (Or.inr ⟨_, _, _, rfl⟩)

/-- **Every step of a runner is a turn.** -/
theorem Runner.turn {ctx : Ctx} {r : Runner} {a : Answer} {eff : Effect} {next : Option Phase}
    (h : r.step ctx a = some (eff, next)) : Turn r.kind r.text r.phase eff next := by
  unfold Runner.step at h
  split at h
  · rename_i hp
    rw [hp]
    split at h
    · cases h; exact .acquire
    · cases h
  · rename_i hp
    rw [hp]
    split at h
    · rename_i hk
      cases h
      rw [hk]
      exact turn_of_beginBatchStart _ _ _
    · rename_i hk
      cases h
      rw [hk]
      exact turn_of_beginBatchCreate _ _ _
  · rename_i hp
    cases h
    rw [hp]
    exact .crash _
  · rename_i hp
    cases h
    rw [hp]
    exact .abort _ _
  · rename_i hp
    rw [hp]
    exact .loop _ _ _ _ _ (loopTurn_of_runBatchStart h)
  · rename_i hp
    rw [hp]
    exact .loop _ _ _ _ _ (loopTurn_of_runBatchCreate h)
  · rename_i hp
    rw [hp]
    exact turn_of_maybeUpdateParent h
  · rename_i hp
    cases h
    rw [hp]
    exact .parentWrite _ _ _ _
  · rename_i hp
    cases h
    rw [hp]
    exact .recover _ _
  · cases h

/-- A parent is written from the last phase only. -/
theorem Turn.phase_of_parent {k : Kind} {text : PayloadText} {phase : Phase} {pid : Int}
    {s : TaskStatus} {progress : Int} {msg : String} {next : Option Phase}
    (h : Turn k text phase (.parent pid s progress msg) next) :
    phase = .parentWrite pid s progress msg ∧ next = none := by
  cases h with
  | loop job tenant pt _ _ hl => cases hl
  | parentWrite => exact ⟨rfl, rfl⟩

end OciHelper.Worker
