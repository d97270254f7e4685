import OciHelper.Backup.Copies
import OciHelper.Db.Tenants
import OciHelper.Lib.Text
import OciHelper.Recurring.Handlers

/-!
# Stored schedules are well formed

* `Fields` : what every schedule should satisfy; `WellFormed` : the stored ones do, and each has its tenant;
* `tgCreateRespond` : the dialogue that creates a schedule from messages;
* `step` : every operation that writes schedules or deletes tenants; `elsewhere` is any other one;
* `InRange` : the condition on the two requests whose numbers are not checked.

A float is the rational number it stands for. A run of a schedule may take a step wherever it stands.
-/

namespace OciHelper.Recurring
open Db Backup StepRun

/-! ## The dialogue -/

inductive Step
  | arch
  | config
  | os
  | password
  deriving DecidableEq, Repr

/-- `tgCreateState`, without the password that only passes through. -/
structure Dialogue where
  tenantID : Int
  step : Step := .arch
  architecture : String := ""
  ocpus : Rat := 0
  memoryGB : Rat := 0
  disk : Int := 0
  count : Int := 0
  interval : Int := 0
  os : String := ""
  deriving DecidableEq, Repr

/-- The schedule that the password completes. -/
def Dialogue.task (st : Dialogue) (password : String) : CreateTask :=
  { tenantID := st.tenantID, region := "", ocpus := st.ocpus, memoryGB := st.memoryGB, disk := st.disk,
    architecture := st.architecture, intervalSeconds := st.interval, createNumbers := st.count,
    operationSystem := st.os, rootPassword := password }

/-- `unicode.ToUpper`, and the float that `ParseFloat` returns with or without an error. -/
structure Reading where
  toUpper : Char → Char
  parseFloat : List Char → Rat

variable (reading : Reading)

/-- The dialogue after a message, and the schedule to create. -/
def tgCreateRespond (st : Dialogue) (text : String) : Option Dialogue × Option CreateTask :=
  let text := Text.trimSpace text.toList
  match st.step with
  | .arch => (some { st with architecture := String.ofList (text.map reading.toUpper), step := .config }, none)
  | .config =>
    match Text.fields text with
    | [ocpus, memory, disk, count, interval] =>
      let ocpu := reading.parseFloat ocpus
      let mem := reading.parseFloat memory
      let disk := Text.atoi disk
      let count := Text.atoi count
      let interval := Text.atoi interval
      if ocpu ≤ 0 ∨ mem ≤ 0 ∨ disk ≤ 0 ∨ count ≤ 0 ∨ interval < 30 then (some st, none)
      else
        (some { st with ocpus := ocpu, memoryGB := mem, disk := disk, count := count, interval := interval, step := .os },
          none)
    | _ => (some st, none)
  | .os => (some { st with os := String.ofList text, step := .password }, none)
  | .password => (none, some (st.task (String.ofList text)))

/-! ## Operations -/

structure State where
  db : Tables
  dialogues : Int → Option Dialogue := fun _ => none
  backups : List BackupData := []

inductive Event
  | request (r : Request) (x : Chance)
  | tgCreate (chat tenantID : Int)
  | tgMessage (chat : Int) (text : String) (x : Chance)
  | tgCancel (chat : Int)
  | start (id : Int) (now : Nat) (x : Chance)
  | run (r : Schedule.Run) (a : Schedule.Answer) (x : Chance)
  | deleteTenant (id : Int)
  | backup
  | restore (n : Nat) (rand : Nat → Nonce)
  | elsewhere (db : Tables)
  | restart

variable (gcm : Gcm) (key : Option Key)

/-- What `runCreateTask` writes to the schedules. -/
def runEffect (x : Chance) (id : Int) (db : Tables) : Schedule.Effect → Tables
  | .delete => (deleteCreateTask x id db).getD db
  | .settle remaining =>
    if remaining ≤ 0 then (deleteCreateTask x id db).getD db
    else if x.writes then
      { db with createTasks := db.createTasks.update id fun t => { t with createNumbers := remaining } }
    else db
  | _ => db

/-- `SetCreateTaskLastRun` -/
def setCreateTaskLastRun (x : Chance) (id : Int) (now : Nat) (db : Tables) : Tables :=
  if x.writes then
    { db with createTasks := db.createTasks.update id fun t => { t with lastRunAt := some now } }
  else db

/-- The schedule that a dialogue completed. -/
def tgCreated (x : Chance) (db : Tables) : Option CreateTask → Tables
  | some t => ((createCreateTask gcm key x t db).map Prod.fst).getD db
  | none => db

def step : StepRun.Step State Event
  | s, .request r x => (handle gcm key x s.db r).map fun out => { s with db := out.1 }
  | s, .tgCreate chat tenantID => some { s with dialogues := Function.update s.dialogues chat (some { tenantID }) }
  | s, .tgMessage chat text x =>
    match s.dialogues chat with
    | some st =>
      let (st', created) := tgCreateRespond reading st text
      some { s with db := tgCreated gcm key x s.db created, dialogues := Function.update s.dialogues chat st' }
    | none => none
  | s, .tgCancel chat => some { s with dialogues := Function.update s.dialogues chat none }
  | s, .start id now x => some { s with db := setCreateTaskLastRun x id now s.db }
  | s, .run r a x => (r.step a).map fun out => { s with db := runEffect x r.task s.db out.1 }
  | s, .deleteTenant id =>
    match deleteTenantCascade id s.db with
    | .ok db => some { s with db }
    | .error _ => some s
  | s, .backup => some { s with backups := collect gcm { db := s.db, secretKey := key } :: s.backups }
  | s, .restore n rand =>
    s.backups[n]?.map fun payload =>
      match restoreTx gcm key rand payload s.db with
      | .ok db => { s with db }
      | .error _ => s
  -- the other operations write no schedule and delete no tenant
  | s, .elsewhere db =>
    if ∀ r ∈ s.db.tenants.rows, (db.tenants.get r.1).isSome then
      some { s with db := { db with createTasks := s.db.createTasks } }
    else none
  | s, .restart => some { s with dialogues := fun _ => none }

/-! ## Well-formed schedules -/

structure Fields (t : CreateTask) : Prop where
  interval : 30 ≤ t.intervalSeconds
  numbers : 1 ≤ t.createNumbers
  ocpus : 0 < t.ocpus
  memory : 0 < t.memoryGB
  disk : 0 < t.disk

def WellFormed (db : Tables) : Prop :=
  db.createTasks.All fun t => Fields t ∧ (db.tenants.get t.tenantID).isSome

/-- A dialogue past its numbers has good ones. -/
def Dialogue.Checked (st : Dialogue) : Prop :=
  st.step = .os ∨ st.step = .password → ∀ password, Fields (st.task password)

/-- What is kept outside the tables is well formed too. -/
structure Kept (s : State) : Prop where
  dialogues : ∀ chat st, s.dialogues chat = some st → st.Checked
  backups : ∀ payload ∈ s.backups, ∀ r ∈ payload.createTasks, Fields r.2

/-- An edit that is written, and a schedule from the instance form that is inserted, have numbers in range. -/
def InRange (s : State) : Event → Prop
  | .request (.update id (some req)) x =>
    0 < id ∧ x.writes ∧ (s.db.createTasks.get id).isSome ∧ (s.db.tenants.get req.tenantID).isSome → Fields req
  | .request (.createInstance (some req)) x =>
    0 < req.intervalSeconds ∧ req.rootPassword ≠ "" ∧ x.writes ∧ (s.db.tenants.get req.tenantID).isSome →
      30 ≤ req.intervalSeconds ∧ 0 < req.ocpus.getD 1 ∧ 0 < req.memoryGB.getD 1 ∧ 0 < req.bootVolumeSizeGB.getD 50
  | _ => True

/-! ## What the statements keep -/

variable {gcm key}

/-- The other columns do not matter. -/
theorem Fields.of_eq {t t' : CreateTask} (hf : Fields t)
    (h : (t.intervalSeconds, t.createNumbers, t.ocpus, t.memoryGB, t.disk) =
      (t'.intervalSeconds, t'.createNumbers, t'.ocpus, t'.memoryGB, t'.disk)) : Fields t' := by
  simp only [Prod.mk.injEq] at h
  obtain ⟨hinterval, hnumbers, hocpus, hmemory, hdisk⟩ := h
  exact ⟨hinterval ▸ hf.interval, hnumbers ▸ hf.numbers, hocpus ▸ hf.ocpus, hmemory ▸ hf.memory, hdisk ▸ hf.disk⟩

theorem wellFormed_create {db : Tables} (h : WellFormed db) (x : Chance) (t : CreateTask) :
    WellFormed (((createCreateTask gcm key x t db).map Prod.fst).getD db) ↔
      (x.writes ∧ (db.tenants.get t.tenantID).isSome → Fields t) := by
  unfold createCreateTask createCreateTaskTx insertOfTenant
  by_cases hw : x.writes
  · by_cases ht : (db.tenants.get t.tenantID).isSome
    · simp only [hw, ht, if_true, Option.map_some, Option.getD_some, and_self, true_imp_iff]
      unfold WellFormed
      rw [KeyTable.all_insert]
      constructor
      · rintro ⟨-, hf, -⟩
        exact hf.of_eq rfl
      · intro hf
        exact ⟨h, hf.of_eq rfl, ht⟩
    · simp [hw, ht, h]
  · simp [hw, h]

theorem wellFormed_update {db : Tables} (h : WellFormed db) (x : Chance) (id : Int) (t : CreateTask) :
    WellFormed ((updateCreateTask gcm key x id t db).getD db) ↔
      (x.writes ∧ (db.createTasks.get id).isSome ∧ (db.tenants.get t.tenantID).isSome → Fields t) := by
  unfold updateCreateTask
  by_cases hw : x.writes
  · cases hget : db.createTasks.get id with
    | none =>
      simp only [hw, if_true, Option.isSome_none, Bool.false_eq_true, false_and, and_false, if_false, Option.getD_some,
        false_imp_iff, iff_true]
      unfold WellFormed
      rw [KeyTable.all_update]
      intro r hr
      rw [if_neg]
      · exact h r hr
      · rintro rfl
        rw [db.createTasks.mem_rows_iff.mp hr] at hget
        cases hget
    | some old =>
      by_cases ht : (db.tenants.get t.tenantID).isSome
      · simp only [hw, ht, if_true, Option.isSome_some, not_true_eq_false, and_false, if_false, Option.getD_some, and_self,
          true_imp_iff]
        refine (KeyTable.All.update_iff h hget _).trans ?_
        constructor
        · rintro ⟨hf, -⟩
          exact hf.of_eq rfl
        · intro hf
          exact ⟨hf.of_eq rfl, ht⟩
      · simp [hw, ht, h]
  · simp [hw, h]

theorem wellFormed_paused {db : Tables} (h : WellFormed db) (x : Chance) (id : Int) (paused : Bool) :
    WellFormed ((setCreateTaskPaused x id paused db).getD db) := by
  unfold setCreateTaskPaused
  split
  · refine KeyTable.All.update h id fun t ht => ?_
    exact ⟨⟨ht.1.interval, ht.1.numbers, ht.1.ocpus, ht.1.memory, ht.1.disk⟩, ht.2⟩
  · exact h

theorem wellFormed_delete {db : Tables} (h : WellFormed db) (x : Chance) (id : Int) :
    WellFormed ((deleteCreateTask x id db).getD db) := by
  unfold deleteCreateTask
  split
  · exact KeyTable.All.erase h id
  · exact h

theorem wellFormed_lastRun {db : Tables} (h : WellFormed db) (x : Chance) (id : Int) (now : Nat) :
    WellFormed (setCreateTaskLastRun x id now db) := by
  unfold setCreateTaskLastRun
  split
  · refine KeyTable.All.update h id fun t ht => ?_
    exact ⟨⟨ht.1.interval, ht.1.numbers, ht.1.ocpus, ht.1.memory, ht.1.disk⟩, ht.2⟩
  · exact h

/-- A count is written back only if something is left. -/
theorem wellFormed_runEffect {db : Tables} (h : WellFormed db) (x : Chance) (id : Int) (eff : Schedule.Effect) :
    WellFormed (runEffect x id db eff) := by
  unfold runEffect
  split
  · exact wellFormed_delete h x id
  · split
    · exact wellFormed_delete h x id
    · next hleft =>
      split
      · refine KeyTable.All.update h id fun t ht => ?_
        exact ⟨⟨ht.1.interval, by dsimp only; omega, ht.1.ocpus, ht.1.memory, ht.1.disk⟩, ht.2⟩
      · exact h
  · exact h

theorem wellFormed_withoutTenant {db : Tables} (h : WellFormed db) (id : Int) : WellFormed (withoutTenant id db) := by
  intro r hr
  have hne := createTasks_withoutTenant id db r hr
  obtain ⟨hf, ht⟩ := h r ((KeyTable.mem_rows_filter _ _ _).mp hr).1
  refine ⟨hf, ?_⟩
  unfold withoutTenant
  rw [KeyTable.get_erase_of_ne _ hne]
  exact ht

theorem fields_collect {db : Tables} (h : WellFormed db) :
    ∀ r ∈ (collect gcm { db, secretKey := key }).createTasks, Fields r.2 := by
  intro r hr
  obtain ⟨r', hr', rfl⟩ := List.mem_map.mp hr
  obtain ⟨hf, -⟩ := h r' (List.mem_reverse.mp hr')
  exact hf.of_eq rfl

theorem wellFormed_restoreTx {rand : Nat → Nonce} {payload : BackupData} {db db' : Tables}
    (hp : ∀ r ∈ payload.createTasks, Fields r.2) (h : restoreTx gcm key rand payload db = .ok db') :
    WellFormed db' := by
  have hfk := (restoreTx_consistent h).createTasks
  suffices hf : db'.createTasks.All Fields from fun r hr => ⟨hf r hr, hfk r hr⟩
  unfold restoreTx at h
  obtain ⟨tenants, -, h⟩ := bind_ok h
  obtain ⟨instances, -, h⟩ := bind_ok h
  obtain ⟨config, -, h⟩ := bind_ok h
  obtain ⟨users, -, h⟩ := bind_ok h
  obtain ⟨cfConfigs, -, h⟩ := bind_ok h
  obtain ⟨ipData, -, h⟩ := bind_ok h
  obtain ⟨sshKeys, -, h⟩ := bind_ok h
  obtain ⟨plans, -, h⟩ := bind_ok h
  obtain ⟨alerts, -, h⟩ := bind_ok h
  obtain ⟨tasks, -, h⟩ := bind_ok h
  obtain ⟨createTasks, hc, h⟩ := bind_ok h
  obtain ⟨bindings, -, h⟩ := bind_ok h
  cases h
  refine importEach_invariant (P := fun rows => rows.All Fields) ?_ (fun r hr => absurd hr List.not_mem_nil) hc
  intro rows r hr rows' hrows hstmt
  have hf := hp r.1 (List.fst_mem_of_mem_zipIdx hr)
  unfold createCreateTaskTx insertOfTenant at hstmt
  split at hstmt
  · cases hstmt
    exact (KeyTable.all_insert ..).mpr ⟨hrows, hf.of_eq rfl⟩
  · cases hstmt

theorem fields_normalize (req : CreateBody) : Fields req.normalize.task where
  interval := by
    unfold CreateBody.task CreateBody.normalize
    dsimp only
    split <;> omega
  numbers := by
    unfold CreateBody.task CreateBody.normalize
    dsimp only
    split <;> omega
  ocpus := by
    unfold CreateBody.task CreateBody.normalize
    dsimp only
    split
    · exact one_pos
    · next h => exact not_le.mp h
  memory := by
    unfold CreateBody.task CreateBody.normalize
    dsimp only
    split
    · exact one_pos
    · next h => exact not_le.mp h
  disk := by
    unfold CreateBody.task CreateBody.normalize
    dsimp only
    split <;> omega

theorem fields_instanceBody (req : InstanceBody) : Fields req.task ↔
    30 ≤ req.intervalSeconds ∧ 0 < req.ocpus.getD 1 ∧ 0 < req.memoryGB.getD 1 ∧ 0 < req.bootVolumeSizeGB.getD 50 := by
  constructor
  · intro h
    exact ⟨h.interval, h.ocpus, h.memory, h.disk⟩
  · rintro ⟨hinterval, hocpus, hmemory, hdisk⟩
    refine ⟨hinterval, ?_, hocpus, hmemory, hdisk⟩
    unfold InstanceBody.task
    dsimp only
    split <;> omega

/-! ## Requests and messages -/

theorem wellFormed_act {db : Tables} (h : WellFormed db) {id : Int} {message : String}
    {statement : Tables → Option Tables} (hdone : WellFormed ((statement db).getD db)) :
    WellFormed (recurringTaskByID id (fun db => act message (statement db) db) db).1 := by
  rw [recurringTaskByID_fst, act_fst]
  split
  · exact h
  · exact hdone

theorem wellFormed_handle {s : State} (h : WellFormed s.db) {r : Request} {x : Chance} {out : Tables × Reply}
    (hout : handle gcm key x s.db r = some out) : WellFormed out.1 ↔ InRange s (.request r x) := by
  cases r with
  | list tenantID =>
    cases hout
    exact iff_of_true h trivial
  | create body =>
    cases hout
    refine iff_of_true ?_ trivial
    cases body with
    | none => exact h
    | some req =>
      rw [createRecurringTask_fst]
      split
      · exact h
      · exact (wellFormed_create h x _).mpr fun _ => fields_normalize req
  | update id body =>
    cases hout
    rw [recurringTaskByID_fst]
    cases body with
    | none =>
      refine iff_of_true ?_ trivial
      split <;> exact h
    | some req =>
      unfold InRange
      dsimp only
      split
      · next hid => exact iff_of_true h fun hc => absurd hc.1 (by omega)
      · next hid =>
        rw [updateRecurringTask_fst, wellFormed_update h]
        constructor
        · rintro hf ⟨-, hc⟩
          exact (hf hc).of_eq rfl
        · intro hf hc
          exact (hf ⟨by omega, hc⟩).of_eq rfl
  | pause id =>
    cases hout
    exact iff_of_true (wellFormed_act h (wellFormed_paused h x id true)) trivial
  | resume id =>
    cases hout
    exact iff_of_true (wellFormed_act h (wellFormed_paused h x id false)) trivial
  | stop id =>
    cases hout
    exact iff_of_true (wellFormed_act h (wellFormed_delete h x id)) trivial
  | delete id =>
    cases hout
    exact iff_of_true (wellFormed_act h (wellFormed_delete h x id)) trivial
  | createInstance body =>
    cases body with
    | none =>
      cases hout
      exact iff_of_true h trivial
    | some req =>
      obtain ⟨hinterval, hdb⟩ := createInstance_fst hout
      rw [hdb]
      unfold InRange
      dsimp only
      split
      · next hp => exact iff_of_true h fun hc => absurd hp hc.2.1
      · next hp =>
        rw [wellFormed_create h, fields_instanceBody]
        exact ⟨fun hf hc => hf hc.2.2, fun hf hc => hf ⟨hinterval, hp, hc⟩⟩

/-- A dialogue goes on with good numbers and creates a schedule with these. -/
theorem checked_tgCreateRespond {st : Dialogue} (h : st.Checked) (text : String) :
    (∀ st', (tgCreateRespond reading st text).1 = some st' → st'.Checked) ∧
      ∀ t, (tgCreateRespond reading st text).2 = some t → Fields t := by
  unfold tgCreateRespond
  dsimp only
  split
  · refine ⟨fun st' he => ?_, fun t he => by cases he⟩
    cases he
    rintro (hs | hs) <;> cases hs
  · split
    · split
      · refine ⟨fun st' he => ?_, fun t he => by cases he⟩
        cases he
        exact h
      · next hgood =>
        refine ⟨fun st' he => ?_, fun t he => by cases he⟩
        cases he
        simp only [not_or, not_le, not_lt] at hgood
        obtain ⟨hocpus, hmemory, hdisk, hcount, hinterval⟩ := hgood
        exact fun _ _ => ⟨hinterval, hcount, hocpus, hmemory, hdisk⟩
    · refine ⟨fun st' he => ?_, fun t he => by cases he⟩
      cases he
      exact h
  · next hs =>
    refine ⟨fun st' he => ?_, fun t he => by cases he⟩
    cases he
    intro _ password
    exact (h (Or.inl hs) password).of_eq rfl
  · next hs =>
    refine ⟨fun st' he => ?_, fun t he => ?_⟩
    · cases he
    · cases he
      exact h (Or.inr hs) _

theorem wellFormed_tgCreated {db : Tables} (h : WellFormed db) (x : Chance) {created : Option CreateTask}
    (hf : ∀ t, created = some t → Fields t) : WellFormed (tgCreated gcm key x db created) := by
  cases created with
  | none => exact h
  | some t => exact (wellFormed_create h x t).mpr fun _ => hf t rfl

/-! ## Runs -/

theorem wellFormed_step_iff {s s' : State} {e : Event} (h : WellFormed s.db) (hk : Kept s)
    (hs : step reading gcm key s e = some s') : WellFormed s'.db ↔ InRange s e := by
  cases e with
  | request r x =>
    obtain ⟨out, hout, rfl⟩ := Option.map_eq_some_iff.mp hs
    exact wellFormed_handle h hout
  | tgCreate chat tenantID =>
    cases hs
    exact iff_of_true h trivial
  | tgMessage chat text x =>
    unfold step at hs
    dsimp only at hs
    split at hs
    · next st hst =>
      cases hs
      obtain ⟨-, hf⟩ := checked_tgCreateRespond reading (hk.dialogues chat st hst) text
      exact iff_of_true (wellFormed_tgCreated h x hf) trivial
    · cases hs
  | tgCancel chat =>
    cases hs
    exact iff_of_true h trivial
  | start id now x =>
    cases hs
    exact iff_of_true (wellFormed_lastRun h x id now) trivial
  | run r a x =>
    obtain ⟨out, -, rfl⟩ := Option.map_eq_some_iff.mp hs
    exact iff_of_true (wellFormed_runEffect h x r.task out.1) trivial
  | deleteTenant id =>
    refine iff_of_true ?_ trivial
    unfold step at hs
    dsimp only at hs
    obtain hok | ⟨herr, -⟩ := deleteTenantCascade_eq id s.db
    · rw [hok] at hs
      cases hs
      exact wellFormed_withoutTenant h id
    · rw [herr] at hs
      cases hs
      exact h
  | backup =>
    cases hs
    exact iff_of_true h trivial
  | restore n rand =>
    refine iff_of_true ?_ trivial
    obtain ⟨payload, hget, rfl⟩ := Option.map_eq_some_iff.mp hs
    split
    · next db hdb => exact wellFormed_restoreTx (hk.backups payload (List.mem_of_getElem? hget)) hdb
    · exact h
  | elsewhere db =>
    refine iff_of_true ?_ trivial
    unfold step at hs
    dsimp only at hs
    split at hs
    · next htenants =>
      cases hs
      intro r hr
      obtain ⟨hf, ht⟩ := h r hr
      obtain ⟨t, ht⟩ := Option.isSome_iff_exists.mp ht
      exact ⟨hf, htenants _ (s.db.tenants.mem_rows_iff.mpr ht)⟩
    · cases hs
  | restart =>
    cases hs
    exact iff_of_true h trivial

theorem Kept.update {s : State} (hk : Kept s) (chat : Int) (db : Tables) {next : Option Dialogue}
    (h : ∀ st, next = some st → st.Checked) :
    Kept { s with db := db, dialogues := Function.update s.dialogues chat next } := by
  refine ⟨fun chat' st hst => ?_, hk.backups⟩
  dsimp only at hst
  by_cases hc : chat' = chat
  · rw [hc, Function.update_self] at hst
    exact h st hst
  · rw [Function.update_of_ne hc] at hst
    exact hk.dialogues chat' st hst

theorem kept_step {s s' : State} {e : Event} (h : WellFormed s.db) (hk : Kept s)
    (hs : step reading gcm key s e = some s') : Kept s' := by
  cases e with
  | request r x =>
    obtain ⟨out, -, rfl⟩ := Option.map_eq_some_iff.mp hs
    exact ⟨hk.dialogues, hk.backups⟩
  | tgCreate chat tenantID =>
    cases hs
    refine hk.update chat s.db fun st hst => ?_
    cases hst
    rintro (hstep | hstep) <;> cases hstep
  | tgMessage chat text x =>
    unfold step at hs
    dsimp only at hs
    split at hs
    · next st hst =>
      cases hs
      obtain ⟨hnext, -⟩ := checked_tgCreateRespond reading (hk.dialogues chat st hst) text
      exact hk.update chat _ hnext
    · cases hs
  | tgCancel chat =>
    cases hs
    exact hk.update chat s.db fun st hst => by cases hst
  | start id now x =>
    cases hs
    exact ⟨hk.dialogues, hk.backups⟩
  | run r a x =>
    obtain ⟨out, -, rfl⟩ := Option.map_eq_some_iff.mp hs
    exact ⟨hk.dialogues, hk.backups⟩
  | deleteTenant id =>
    unfold step at hs
    dsimp only at hs
    split at hs <;> cases hs
    · exact ⟨hk.dialogues, hk.backups⟩
    · exact hk
  | backup =>
    cases hs
    exact ⟨hk.dialogues, List.forall_mem_cons.mpr ⟨fields_collect h, hk.backups⟩⟩
  | restore n rand =>
    obtain ⟨payload, -, rfl⟩ := Option.map_eq_some_iff.mp hs
    split
    · exact ⟨hk.dialogues, hk.backups⟩
    · exact hk
  | elsewhere db =>
    unfold step at hs
    dsimp only at hs
    split at hs
    · cases hs
      exact ⟨hk.dialogues, hk.backups⟩
    · cases hs
  | restart =>
    cases hs
    exact ⟨fun chat st hst => (by cases hst), hk.backups⟩

/-- **Stored schedules are well formed** in every state of a run if and only if every edit and every schedule from
the instance form has its numbers in range. -/
theorem schedules_wellFormed_iff {s t : State} {es : List Event} (h : WellFormed s.db) (hk : Kept s)
    (hexec : exec (step reading gcm key) s es = some t) :
    Throughout (step reading gcm key) (fun s => WellFormed s.db) s es ↔ Run (step reading gcm key) InRange s es t :=
  throughout_iff_of_invariant (J := Kept) (fun _ _ _ hi hj hs => wellFormed_step_iff reading hi hj hs)
    (fun _ _ _ hi hj _ hs => kept_step reading hi hj hs) h hk hexec

/-! ## A schedule and an edit of it -/

/-- A text of digits is its number. -/
def Reading.digits : Reading := { toUpper := Char.toUpper, parseFloat := fun s => Text.atoi s }

def posted : Event := .request (.create (some { tenantID := 1, intervalSeconds := 5, rootPassword := "pw" })) {}

/-- The body that names a tenant and pauses the schedule, and nothing else. -/
def pauseBody : CreateTask :=
  { tenantID := 1, intervalSeconds := 0, createNumbers := 0, paused := true, ocpus := 0, memoryGB := 0, disk := 0,
    architecture := "", operationSystem := "" }

def edited (req : CreateTask) : Event := .request (.update 1 (some req)) {}

theorem wellFormed_exampleDb : WellFormed exampleDb := fun _ hr => absurd hr List.not_mem_nil

theorem kept_exampleDb : Kept { db := exampleDb } :=
  ⟨fun chat st hst => (by cases hst), fun payload hp => absurd hp List.not_mem_nil⟩

/-- The defaults of the first request, and an edit with an interval of five minutes. -/
theorem schedules_wellFormed_edited :
    Throughout (step .digits .keyed none) (fun s => WellFormed s.db) { db := exampleDb }
      [posted, edited { tenantID := 1, intervalSeconds := 300, createNumbers := 2 }] := by
  refine (schedules_wellFormed_iff .digits wellFormed_exampleDb kept_exampleDb rfl).mpr ?_
  exact .cons trivial rfl (.cons (fun _ => ⟨by decide, by decide, by decide, by decide, by decide⟩) rfl (.nil _))

/-- What an edit does not name becomes 0. -/
theorem edit_zeroes : WellFormed exampleDb ∧ Kept { db := exampleDb } ∧
    ∃ t, exec (step .digits .keyed none) { db := exampleDb } [posted, edited pauseBody] = some t ∧
      ¬ WellFormed t.db := by
  refine ⟨wellFormed_exampleDb, kept_exampleDb, _, rfl, fun h => ?_⟩
  have hf := (h _ (List.mem_singleton.mpr rfl)).1.interval
  exact absurd hf (by decide)

end OciHelper.Recurring
