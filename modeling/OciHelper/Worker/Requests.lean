import OciHelper.Db.Tasks

/-!
# The handlers that write the `tasks` table

* `BatchRequest`, `Batch` : `handleBatchCreate`, one insertion a step;
* `handleBatchStart` : its single insertion;
* `Op` : the four status writes of `handleCreateTasks`.

Request bodies arrive decoded; audit lines and replies are left out.
-/

namespace OciHelper.Worker
open OciHelper.Db

/-! ## `handleBatchCreate` -/

structure BatchRequest where
  tenantIDs : List Int
  instancesPerTenant : Int := 0
  region : String := ""
  shape : String := ""
  imageID : String := ""
  subnetID : String := ""
  availabilityDomain : String := ""
  bootVolumeSizeGB : Int := 0
  displayNamePrefix : String := ""
  multiTenant : Bool := false

namespace BatchRequest

/-- The check and the defaults of the handler. -/
def normalize (req : BatchRequest) : Except String BatchRequest :=
  if req.tenantIDs.isEmpty then .error "at least one tenant required"
  else .ok
    { req with
      instancesPerTenant := if req.instancesPerTenant < 1 then 1 else req.instancesPerTenant
      bootVolumeSizeGB := if req.bootVolumeSizeGB < 50 then 50 else req.bootVolumeSizeGB
      displayNamePrefix := if req.displayNamePrefix = "" then "oci-helper" else req.displayNamePrefix }

def isMulti (req : BatchRequest) : Bool := req.multiTenant || decide (req.tenantIDs.length > 1)

/-- The text of the parent: five keys that a payload struct has, and two of its own. -/
def parentPayload (req : BatchRequest) : PayloadText where
  asStart := .ok {}
  asCreate := .ok
    { instancesPerTenant := req.instancesPerTenant, region := req.region, shape := req.shape,
      imageID := req.imageID, displayNamePrefix := req.displayNamePrefix }
  tenantIDs := req.tenantIDs
  totalTenants := req.tenantIDs.length

def parentTask (req : BatchRequest) : Record where
  row :=
    { type := .batchCreateMulti, status := .running, progress := 0,
      message := s!"0/{req.tenantIDs.length} tenants done", payload := req.parentPayload }

def childPayload (req : BatchRequest) (parentTaskID tid : Int) : BatchCreatePayload where
  tenantID := tid
  parentTaskID := parentTaskID
  instancesPerTenant := req.instancesPerTenant
  region := req.region
  shape := req.shape
  imageID := req.imageID
  subnetID := req.subnetID
  availabilityDomain := req.availabilityDomain
  bootVolumeSizeGB := req.bootVolumeSizeGB
  displayNamePrefix := req.displayNamePrefix

def childTask (req : BatchRequest) (parentTaskID tid : Int) : Record where
  row :=
    { tenantId := tid, parentTaskId := parentTaskID, type := .batchCreate, status := .pending,
      payload := (req.childPayload parentTaskID tid).marshal }

end BatchRequest

/-- Where a request stands: before the parent's insertion, or with the tenants still to insert. -/
inductive Stage
  | parent
  | children (parentTaskID : Int) (rest : List Int)
  deriving DecidableEq, Repr

/-- A request in flight. The table gave out the ids `parentRow` and `childRows`; the handler does not
read them. -/
structure Batch where
  req : BatchRequest
  stage : Stage
  parentRow : Option Int := none
  childRows : List Int := []

def Batch.start (req : BatchRequest) : Batch where
  req := req
  stage := if req.isMulti then .parent else .children 0 req.tenantIDs

/-- The next insertion of `handleBatchCreate`, `none` after the last one. The parent id the children
get is the one in the record that `CreateTask` was given. -/
def handleBatchCreate (tasks : Tasks) (b : Batch) : Option (Tasks × Batch) :=
  match b.stage with
  | .parent =>
    let created := createTask tasks b.req.parentTask
    some (created.1, { b with
      stage := .children created.2.id b.req.tenantIDs, parentRow := some tasks.nextId })
  | .children parentTaskID (tid :: rest) =>
    let created := createTask tasks (b.req.childTask parentTaskID tid)
    some (created.1, { b with
      stage := .children parentTaskID rest, childRows := b.childRows ++ [tasks.nextId] })
  | .children _ [] => none

/-- Every insertion of the handler adds one fresh row and changes no other row. -/
theorem handleBatchCreate_insert {tasks tasks' : Tasks} {b b' : Batch}
    (h : handleBatchCreate tasks b = some (tasks', b')) : ∃ row, tasks' = tasks.insert row ∧ row.Fresh := by
  unfold handleBatchCreate at h
  split at h
  · cases h
    exact ⟨_, rfl, Or.inr ⟨rfl, rfl⟩, fun p hp => by cases hp; rfl, fun p hp => by cases hp; rfl⟩
  · cases h
    exact ⟨_, rfl, Or.inl rfl, fun p hp => by cases hp; rfl, fun p hp => by cases hp; rfl⟩
  · cases h

/-! ## `handleBatchStart` -/

/-- The handler's check and its one insertion. -/
def handleBatchStart (tasks : Tasks) (tenantID : Int) (instanceIDs : List String) :
    Except String Tasks :=
  if tenantID = 0 ∨ instanceIDs = [] then .error "tenantId and instanceIds required"
  else
    let payload : BatchStartPayload := { tenantID := tenantID, instanceIDs := instanceIDs }
    .ok (createTask tasks
      { row :=
          { tenantId := tenantID, type := .batchStart, status := .pending,
            payload := payload.marshal } }).1

theorem handleBatchStart_insert {tasks tasks' : Tasks} {tenantID : Int} {instanceIDs : List String}
    (h : handleBatchStart tasks tenantID instanceIDs = .ok tasks') :
    ∃ row, tasks' = tasks.insert row ∧ row.Fresh := by
  unfold handleBatchStart at h
  split at h
  · cases h
  · cases h
    exact ⟨_, rfl, Or.inl rfl, fun p hp => by cases hp; rfl, fun p hp => by cases hp; rfl⟩

/-! ## `handleCreateTasks` -/

/-- The status requests on one task. -/
inductive Op
  | stop
  | pause
  | resume
  | delete
  deriving DecidableEq, Repr

def Op.status : Op → TaskStatus
  | .stop => .cancelled
  | .pause => .paused
  | .resume => .pending
  | .delete => .cancelled

def Op.message : Op → String
  | .stop => "stopped by user"
  | .pause => "paused by user"
  | .resume => "resumed by user"
  | .delete => "deleted by user"

/-- Every status request writes without reading the row first. -/
def handleCreateTasks (tasks : Tasks) (now : Nat) (id : Int) (op : Op) : Tasks :=
  updateTaskStatus tasks now id op.status 0 op.message

/-- A request that records a decision of the user to end or to hold the task. -/
def Op.decides : Op → Bool
  | .resume => false
  | _ => true

end OciHelper.Worker
