import OciHelper.Api.Masks
import OciHelper.Db.Tables

/-!
# The handlers of recurring schedules

* `createCreateTask`, `updateCreateTask`, ... : the statements on all columns of `create_tasks`;
* `Request`, `Reply` : the requests that read or write schedules, and the JSON answers;
* `handle` : one request, by the handler that it reaches.

A statement fails as the schema makes it fail or by chance. A time in a reply is left out.
-/

namespace OciHelper.Recurring
open Db Api

/-- What a request meets: whether its read and its write succeed, and what its encryption reads from the random
source. -/
structure Chance where
  reads : Bool := true
  writes : Bool := true
  nonce : Nonce := zeroNonce

variable (gcm : Gcm) (key : Option Key)

/-! ## The statements -/

/-- `CreateCreateTask`, with the id of the new row. -/
def createCreateTask (x : Chance) (t : CreateTask) (db : Tables) : Option (Tables × Int) :=
  if x.writes then
    match createCreateTaskTx gcm key x.nonce db.tenants db.createTasks t with
    | .ok createTasks => some ({ db with createTasks }, db.createTasks.nextId)
    | .error _ => none
  else none

/-- `GetCreateTask`: `none` for an error, `some none` for no row. -/
def getCreateTask (x : Chance) (id : Int) (db : Tables) : Option (Option CreateTask) :=
  if x.reads then some ((db.createTasks.get id).map (scanCreateTask gcm key)) else none

/-- `ListCreateTasks`; an id of 0 is no filter. -/
def listCreateTasksOf (tenantID : Int) (db : Tables) : List (Int × CreateTask) :=
  (listCreateTasks gcm key db).filter fun r => tenantID = 0 ∨ r.2.tenantID = tenantID

/-- `UpdateCreateTask` writes every column but `last_run_at`. -/
def updateCreateTask (x : Chance) (id : Int) (t : CreateTask) (db : Tables) : Option Tables :=
  let stored := { t with rootPassword := encryptSecret gcm key x.nonce t.rootPassword }
  if x.writes then
    if (db.createTasks.get id).isSome ∧ ¬ (db.tenants.get t.tenantID).isSome then none
    else some { db with createTasks := db.createTasks.update id fun old => { stored with lastRunAt := old.lastRunAt } }
  else none

def setCreateTaskPaused (x : Chance) (id : Int) (paused : Bool) (db : Tables) : Option Tables :=
  if x.writes then
    some { db with createTasks := db.createTasks.update id fun t => { t with paused := paused } }
  else none

def deleteCreateTask (x : Chance) (id : Int) (db : Tables) : Option Tables :=
  if x.writes then some { db with createTasks := db.createTasks.erase id } else none

/-! ## Requests and replies -/

/-- The body of `POST /api/create-tasks/recurring`. -/
structure CreateBody where
  tenantID : Int := 0
  region : String := ""
  ocpus : Rat := 0
  memoryGB : Rat := 0
  disk : Int := 0
  architecture : String := ""
  intervalSeconds : Int := 0
  createNumbers : Int := 0
  operationSystem : String := ""
  rootPassword : String := ""

/-- The fields of the body of `POST /api/instances` that a schedule is made of. -/
structure InstanceBody where
  tenantID : Int := 0
  region : String := ""
  ocpus : Option Rat := none
  memoryGB : Option Rat := none
  bootVolumeSizeGB : Option Int := none
  architecture : String := ""
  intervalSeconds : Int := 0
  createNumbers : Int := 0
  operationSystem : String := ""
  rootPassword : String := ""

/-- A request; a body that does not decode is `none`. -/
inductive Request
  | list (tenantID : Int)
  | create (body : Option CreateBody)
  | update (id : Int) (body : Option CreateTask)
  | pause (id : Int)
  | resume (id : Int)
  | stop (id : Int)
  | delete (id : Int)
  | createInstance (body : Option InstanceBody)

/-- A schedule in a reply. The password stands apart, as the bytes of the text that is encoded. -/
structure Shown where
  id : Int
  row : CreateTask
  rootPassword : List UInt8
  deriving DecidableEq

inductive Reply
  | error (message : String)
  | tasks (data : List Shown)
  | task (t : Shown)
  | ok
  deriving DecidableEq

def Shown.of (id : Int) (t : CreateTask) (rootPassword : List UInt8) : Shown :=
  { id, row := { t with rootPassword := "" }, rootPassword }

/-- A copy with a masked password. -/
def masked (id : Int) (t : CreateTask) : Shown := .of id t (maskSecret t.rootPassword)

/-- The struct as it is. -/
def plain (id : Int) (t : CreateTask) : Shown := .of id t (bytes t.rootPassword)

/-! ## `handler_createtasks.go` -/

def CreateBody.normalize (req : CreateBody) : CreateBody :=
  { req with
    intervalSeconds := if req.intervalSeconds < 30 then 60 else req.intervalSeconds
    createNumbers := if req.createNumbers < 1 then 1 else req.createNumbers
    ocpus := if req.ocpus ≤ 0 then 1 else req.ocpus
    memoryGB := if req.memoryGB ≤ 0 then 1 else req.memoryGB
    disk := if req.disk ≤ 0 then 50 else req.disk
    architecture := if req.architecture = "" then "AMD" else req.architecture
    operationSystem := if req.operationSystem = "" then "Ubuntu" else req.operationSystem }

def CreateBody.task (req : CreateBody) : CreateTask :=
  { tenantID := req.tenantID, region := req.region, ocpus := req.ocpus, memoryGB := req.memoryGB,
    disk := req.disk, architecture := req.architecture, intervalSeconds := req.intervalSeconds,
    createNumbers := req.createNumbers, operationSystem := req.operationSystem, rootPassword := req.rootPassword }

/-- `GET /api/create-tasks/recurring` -/
def listRecurringTasks (x : Chance) (tenantID : Int) (db : Tables) : Reply :=
  if x.reads then .tasks ((listCreateTasksOf gcm key tenantID db).map fun r => masked r.1 r.2)
  else .error "list recurring tasks"

/-- `POST /api/create-tasks/recurring` -/
def createRecurringTask (x : Chance) (body : Option CreateBody) (db : Tables) : Tables × Reply :=
  match body with
  | none => (db, .error "invalid body")
  | some req =>
    if req.tenantID = 0 then (db, .error "tenant_id required")
    else if req.normalize.rootPassword = "" then (db, .error "root_password required")
    else
      match createCreateTask gcm key x req.normalize.task db with
      | none => (db, .error "create recurring task")
      | some (db', id) => (db', .task (masked id req.normalize.task))

/-- The password that `PUT` writes: an empty or a masked one means the current one. -/
def keptPassword (x : Chance) (id : Int) (req : CreateTask) (db : Tables) : String :=
  if req.rootPassword = "" ∨ hasMarker req.rootPassword then
    match getCreateTask gcm key x id db with
    | some (some cur) => cur.rootPassword
    | _ => req.rootPassword
  else req.rootPassword

/-- `PUT /api/create-tasks/recurring/{id}` -/
def updateRecurringTask (x : Chance) (id : Int) (body : Option CreateTask) (db : Tables) : Tables × Reply :=
  match body with
  | none => (db, .error "invalid body")
  | some req =>
    let req := { req with rootPassword := keptPassword gcm key x id req db }
    match updateCreateTask gcm key x id req db with
    | none => (db, .error "update recurring task")
    | some db' => (db', .task (masked id req))

/-- An action that answers with its status only. -/
def act (message : String) (result : Option Tables) (db : Tables) : Tables × Reply :=
  match result with
  | none => (db, .error message)
  | some db' => (db', .ok)

/-- `handleRecurringTaskByID` refuses an id that is no positive number first. -/
def recurringTaskByID (id : Int) (handler : Tables → Tables × Reply) (db : Tables) : Tables × Reply :=
  if id ≤ 0 then (db, .error "invalid recurring task id") else handler db

/-! ## `handler_instances.go` -/

def InstanceBody.task (req : InstanceBody) : CreateTask :=
  { tenantID := req.tenantID, region := req.region, ocpus := req.ocpus.getD 1, memoryGB := req.memoryGB.getD 1,
    disk := req.bootVolumeSizeGB.getD 50
    architecture := if req.architecture = "" then "AMD" else req.architecture
    intervalSeconds := req.intervalSeconds
    createNumbers := if req.createNumbers ≤ 0 then 1 else req.createNumbers
    operationSystem := if req.operationSystem = "" then "Ubuntu" else req.operationSystem
    rootPassword := req.rootPassword }

/-- `createInstance`; without an interval an instance is launched at once, and no schedule is read or written. -/
def createInstance (x : Chance) (body : Option InstanceBody) (db : Tables) : Option (Tables × Reply) :=
  match body with
  | none => some (db, .error "invalid body")
  | some req =>
    if 0 < req.intervalSeconds then
      if req.rootPassword = "" then some (db, .error "rootPassword required for recurring create task")
      else
        match createCreateTask gcm key x req.task db with
        | none => some (db, .error "create recurring task")
        | some (db', id) => some (db', .task (plain id req.task))
    else none

/-- The tables and the reply after a request; `none` where no schedule is concerned. -/
def handle (x : Chance) (db : Tables) : Request → Option (Tables × Reply)
  | .list tenantID => some (db, listRecurringTasks gcm key x tenantID db)
  | .create body => some (createRecurringTask gcm key x body db)
  | .update id body => some (recurringTaskByID id (updateRecurringTask gcm key x id body) db)
  | .pause id => some (recurringTaskByID id (fun db => act "pause" (setCreateTaskPaused x id true db) db) db)
  | .resume id => some (recurringTaskByID id (fun db => act "resume" (setCreateTaskPaused x id false db) db) db)
  | .stop id => some (recurringTaskByID id (fun db => act "stop" (deleteCreateTask x id db) db) db)
  | .delete id => some (recurringTaskByID id (fun db => act "delete" (deleteCreateTask x id db) db) db)
  | .createInstance body => createInstance gcm key x body db

/-! ## The tables after a request -/

variable {gcm key}

theorem recurringTaskByID_fst (id : Int) (handler : Tables → Tables × Reply) (db : Tables) :
    (recurringTaskByID id handler db).1 = if id ≤ 0 then db else (handler db).1 := by
  unfold recurringTaskByID
  split <;> rfl

theorem act_fst (message : String) (result : Option Tables) (db : Tables) :
    (act message result db).1 = result.getD db := by
  cases result <;> rfl

theorem createRecurringTask_fst (x : Chance) (req : CreateBody) (db : Tables) :
    (createRecurringTask gcm key x (some req) db).1 =
      if req.tenantID = 0 ∨ req.rootPassword = "" then db
      else ((createCreateTask gcm key x req.normalize.task db).map Prod.fst).getD db := by
  have hpass : req.normalize.rootPassword = req.rootPassword := rfl
  unfold createRecurringTask
  dsimp only
  rw [hpass]
  by_cases ht : req.tenantID = 0
  · simp [ht]
  · by_cases hp : req.rootPassword = ""
    · simp [ht, hp]
    · simp only [ht, hp, if_false, or_self]
      cases createCreateTask gcm key x req.normalize.task db <;> rfl

theorem updateRecurringTask_fst (x : Chance) (id : Int) (req : CreateTask) (db : Tables) :
    (updateRecurringTask gcm key x id (some req) db).1 =
      (updateCreateTask gcm key x id { req with rootPassword := keptPassword gcm key x id req db } db).getD db := by
  unfold updateRecurringTask
  dsimp only
  cases updateCreateTask gcm key x id { req with rootPassword := keptPassword gcm key x id req db } db <;> rfl

theorem createInstance_fst {x : Chance} {req : InstanceBody} {db : Tables} {out : Tables × Reply}
    (h : createInstance gcm key x (some req) db = some out) :
    0 < req.intervalSeconds ∧ out.1 =
      if req.rootPassword = "" then db else ((createCreateTask gcm key x req.task db).map Prod.fst).getD db := by
  unfold createInstance at h
  dsimp only at h
  split at h
  · next hinterval =>
    refine ⟨hinterval, ?_⟩
    split at h
    · cases h
      rw [if_pos ‹_›]
    · rw [if_neg ‹_›]
      cases hc : createCreateTask gcm key x req.task db with
      | none =>
        rw [hc] at h
        cases h
        rfl
      | some created =>
        rw [hc] at h
        cases h
        rfl
  · cases h

/-- One tenant and no schedule. -/
def exampleDb : Tables := { tenants := KeyTable.empty.insert { name := "acme" } }

end OciHelper.Recurring
