import OciHelper.Lib.KeyTable

/-!
# The `tasks` table

* `Task` : one row; `Record` : the Go struct, a row with the id its owner believes it has;
* `PayloadText` : a payload text, given by what the two payload decoders read from it and by the two keys
  that only the text of a parent has;
* `createTask`, `claimTask`, `updateTaskStatus`, `listPendingTasks`, ... : the statements on the table.

Each statement is one atomic step and succeeds; times are ticks of one clock.
-/

namespace OciHelper.Db

inductive TaskStatus
  | pending
  | running
  | paused
  | cancelled
  | completed
  | failed
  deriving DecidableEq, Repr

inductive TaskType
  | batchStart
  | batchCreate
  | batchCreateMulti
  | other (name : String)
  deriving DecidableEq, Repr

structure BatchStartPayload where
  tenantID : Int := 0
  instanceIDs : List String := []
  completedIndex : Int := 0
  deriving DecidableEq, Repr

structure BatchCreatePayload where
  tenantID : Int := 0
  parentTaskID : Int := 0
  instancesPerTenant : Int := 0
  region : String := ""
  shape : String := ""
  imageID : String := ""
  subnetID : String := ""
  availabilityDomain : String := ""
  bootVolumeSizeGB : Int := 0
  displayNamePrefix : String := ""
  completedIndex : Int := 0
  deriving DecidableEq, Repr

/-- A payload text: what `json.Unmarshal` makes of it for each payload struct, or its error, and the keys
`tenant_ids` and `total_tenants`, which no payload struct has. -/
structure PayloadText where
  asStart : Except String BatchStartPayload
  asCreate : Except String BatchCreatePayload
  tenantIDs : List Int := []
  totalTenants : Int := 0

/-- `completedIndex` is the one key the two payload structs share. -/
def BatchStartPayload.marshal (p : BatchStartPayload) : PayloadText where
  asStart := .ok p
  asCreate := .ok { completedIndex := p.completedIndex }

def BatchCreatePayload.marshal (p : BatchCreatePayload) : PayloadText where
  asStart := .ok { completedIndex := p.completedIndex }
  asCreate := .ok p

structure Task where
  tenantId : Int := 0
  parentTaskId : Int := 0
  type : TaskType
  status : TaskStatus
  progress : Int := 0
  message : String := ""
  payload : PayloadText
  result : String := ""
  startedAt : Option Nat := none
  finishedAt : Option Nat := none

/-- A task whose work has not begun. -/
structure Task.Fresh (row : Task) : Prop where
  status : row.status = .pending ∨ row.status = .running ∧ row.type = .batchCreateMulti
  start : ∀ p, row.payload.asStart = .ok p → p.completedIndex = 0
  create : ∀ p, row.payload.asCreate = .ok p → p.completedIndex = 0

/-- The struct `db.Task`: a row and its `ID` field. -/
structure Record where
  id : Int := 0
  row : Task

abbrev Tasks := KeyTable Task

/-- `CreateTask` inserts five columns of the record. The record comes back as the caller then sees it:
its `ID` is not set. -/
def createTask (tasks : Tasks) (t : Record) : Tasks × Record :=
  (tasks.insert
    { tenantId := t.row.tenantId, parentTaskId := t.row.parentTaskId, type := t.row.type,
      status := t.row.status, payload := t.row.payload }, t)

def getTaskByID (tasks : Tasks) (id : Int) : Option Task := tasks.get id

/-- `ClaimTask` turns a pending task running and says whether it did. -/
def claimTask (tasks : Tasks) (now : Nat) (id : Int) : Tasks × Bool :=
  match tasks.get id with
  | some t =>
    if t.status = .pending then
      (tasks.update id fun t => { t with status := .running, startedAt := some now }, true)
    else (tasks, false)
  | none => (tasks, false)

def updateTaskStatus (tasks : Tasks) (now : Nat) (id : Int) (status : TaskStatus) (progress : Int)
    (message : String) : Tasks :=
  tasks.update id fun t =>
    { t with
      status := status
      progress := progress
      message := message
      startedAt := if t.startedAt = none ∧ status = .running then some now else t.startedAt
      finishedAt := if status = .completed ∨ status = .failed then some now else t.finishedAt }

/-- `ListPendingTasks`: at most 50 pending rows, by id. -/
def listPendingTasks (tasks : Tasks) : List (Int × Task) :=
  (tasks.rows.filter fun r => r.2.status = .pending).take 50

/-- `ListTasks`: the newest 200 rows, newest first. -/
def listTasks (tasks : Tasks) : List (Int × Task) := tasks.rows.reverse.take 200

def updateTaskPayload (tasks : Tasks) (id : Int) (payload : PayloadText) : Tasks :=
  tasks.update id fun t => { t with payload := payload }

def listTasksByParentID (tasks : Tasks) (parentID : Int) : List (Int × Task) :=
  tasks.rows.filter fun r => r.2.parentTaskId = parentID

def resetRunningTasks (tasks : Tasks) : Tasks :=
  tasks.map fun t =>
    if t.status = .running then
      { t with status := .pending, progress := 0, message := "restarting after server reboot" }
    else t

/-! ## What the statements leave alone -/

theorem mem_listPendingTasks {tasks : Tasks} {id : Int} {t : Task}
    (h : (id, t) ∈ listPendingTasks tasks) : tasks.get id = some t ∧ t.status = .pending := by
  obtain ⟨hm, hp⟩ := List.mem_filter.mp (List.mem_of_mem_take h)
  exact ⟨tasks.mem_rows_iff.mp hm, by simpa using hp⟩

theorem nodup_listPendingTasks (tasks : Tasks) : ((listPendingTasks tasks).map Prod.fst).Nodup := by
  refine List.pairwise_map.mpr (List.Pairwise.imp ?_ ((tasks.sorted.filter _).take))
  exact fun h => by omega

theorem claimTask_true {tasks tasks' : Tasks} {now : Nat} {id : Int}
    (h : claimTask tasks now id = (tasks', true)) :
    ∃ t, tasks.get id = some t ∧ t.status = .pending ∧
      tasks' = tasks.update id fun t => { t with status := .running, startedAt := some now } := by
  unfold claimTask at h
  cases hg : tasks.get id with
  | none => rw [hg] at h; cases h
  | some t =>
    rw [hg] at h
    by_cases hp : t.status = .pending
    · simp only [hp, if_true, Prod.mk.injEq, and_true] at h
      exact ⟨t, rfl, hp, h.symm⟩
    · simp [hp] at h

theorem claimTask_false {tasks tasks' : Tasks} {now : Nat} {id : Int}
    (h : claimTask tasks now id = (tasks', false)) :
    tasks' = tasks ∧ ∀ t, tasks.get id = some t → t.status ≠ .pending := by
  unfold claimTask at h
  cases hg : tasks.get id with
  | none => rw [hg] at h; cases h; exact ⟨rfl, fun _ h => by cases h⟩
  | some t =>
    rw [hg] at h
    by_cases hp : t.status = .pending
    · simp [hp] at h
    · simp only [hp, if_false, Prod.mk.injEq, and_true] at h
      exact ⟨h.symm, fun t' ht' => by cases ht'; exact hp⟩

/-- Every statement on one row changes neither its type nor its parent column. -/
theorem get_updateTaskStatus (tasks : Tasks) (now : Nat) (id k : Int) (s : TaskStatus) (p : Int)
    (m : String) : (updateTaskStatus tasks now id s p m).get k =
      if k = id then (tasks.get k).map fun t =>
        { t with
          status := s
          progress := p
          message := m
          startedAt := if t.startedAt = none ∧ s = .running then some now else t.startedAt
          finishedAt := if s = .completed ∨ s = .failed then some now else t.finishedAt }
      else tasks.get k :=
  KeyTable.get_update ..

theorem get_updateTaskPayload (tasks : Tasks) (id k : Int) (text : PayloadText) :
    (updateTaskPayload tasks id text).get k =
      if k = id then (tasks.get k).map fun t => { t with payload := text } else tasks.get k :=
  KeyTable.get_update ..

theorem get_resetRunningTasks (tasks : Tasks) (k : Int) :
    (resetRunningTasks tasks).get k = (tasks.get k).map fun t =>
      if t.status = .running then
        { t with status := .pending, progress := 0, message := "restarting after server reboot" }
      else t :=
  KeyTable.get_map ..

end OciHelper.Db
