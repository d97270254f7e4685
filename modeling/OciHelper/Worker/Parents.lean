import OciHelper.Worker.World

/-!
# Parent tasks of batch requests

`handleBatchCreate` reads the parent's id from the record that `CreateTask` was given, which does not
set it; so the children carry parent id 0, and no runner ever updates the parent.

* `Batch.Settled`, `Batch.ParentDone` : all children are finished and no runner is left; the parent is
  completed;
* `leads_stopped`, `leads_inserted`, `leads_drained` : runs that stop every task, insert a batch, and
  let every pending task fail; `leads_settled` : so every batch can be settled;
* `Sound`, `Behind` : no row names a parent of the run, and no such parent is completed; `behind_step` keeps it;
* `parent_left_behind` : in no run is the parent of a batch ever done, and every request with a parent has a
  run that settles its batch.
-/

namespace OciHelper.Worker
open OciHelper.Db StepRun

/-- Every child of the batch was created and is completed or failed, and no runner is left. -/
structure Batch.Settled (b : Batch) (w : World) : Prop where
  inserted : ∃ pid, b.stage = .children pid []
  created : b.childRows.length = b.req.tenantIDs.length
  finished : ∀ id ∈ b.childRows, ∃ row, w.tasks.get id = some row ∧
    (row.status = .completed ∨ row.status = .failed)
  returned : ∀ rid, w.runners.get rid = none

/-- The parent of the batch is completed. -/
def Batch.ParentDone (b : Batch) (w : World) : Prop :=
  ∃ p row, b.parentRow = some p ∧ w.tasks.get p = some row ∧ row.status = .completed ∧ row.progress = 100

namespace World

/-! ## Every task is stopped -/

theorem leads_stopped (ids : List Int) : ∀ {w : World}, w.up = true →
    ∃ w', Leads step w w' ∧ w'.loop = w.loop ∧ w'.runners = w.runners ∧
      (∀ id ∈ ids, ∀ row, w'.tasks.get id = some row → row.status = .cancelled) ∧
      (∀ id, (w.tasks.get id = none → w'.tasks.get id = none) ∧
        ∀ row, w.tasks.get id = some row → row.status = .cancelled →
          ∀ row', w'.tasks.get id = some row' → row'.status = .cancelled) := by
  induction ids with
  | nil =>
    intro w _
    exact ⟨w, .refl w, rfl, rfl, fun id h => absurd h List.not_mem_nil, fun id => ⟨fun h => h,
      fun row hr hs row' hr' => by rw [hr] at hr'; cases hr'; exact hs⟩⟩
  | cons id ids ih =>
    intro w hu
    have hs : step w (.request id .stop) =
        some { w with tasks := handleCreateTasks w.tasks w.clock id .stop } := by
      simp [step, hu, stepRequest]
    obtain ⟨w', hl, hloop, hrun, hall, hkeep⟩ := ih (w := { w with
      tasks := handleCreateTasks w.tasks w.clock id .stop }) hu
    have hget : ∀ k, (handleCreateTasks w.tasks w.clock id .stop).get k =
        if k = id then (w.tasks.get k).map _ else w.tasks.get k := fun k => get_updateTaskStatus ..
    refine ⟨w', (Leads.of_step _ hs).trans hl, hloop, hrun, ?_, fun k => ⟨fun hn => ?_, ?_⟩⟩
    · intro k hk row' hr'
      rcases List.mem_cons.mp hk with rfl | hk
      · cases hr : w.tasks.get k with
        | none =>
          have := (hkeep k).1 (by rw [hget, if_pos rfl, hr]; rfl)
          rw [this] at hr'
          cases hr'
        | some row =>
          exact (hkeep k).2 _ (by rw [hget, if_pos rfl, hr]; rfl) rfl row' hr'
      · exact hall k hk row' hr'
    · refine (hkeep k).1 ?_
      rw [hget, hn]
      split <;> rfl
    · intro row hr hs' row' hr'
      by_cases hk : k = id
      · exact (hkeep k).2 _ (by rw [hget, if_pos hk, hr]; rfl) rfl row' hr'
      · exact (hkeep k).2 row (by rw [hget, if_neg hk, hr]) hs' row' hr'

/-! ## A batch is inserted -/

/-- A child of a batch whose parent id is 0. -/
def Orphan (row : Task) : Prop :=
  row.type = .batchCreate ∧ ∃ p, row.payload.asCreate = .ok p ∧ p.parentTaskID = 0

/-- The children of a batch so far are pending, and every pending task is such a child. -/
structure Inserting (b : Batch) (w : World) : Prop where
  children : ∀ id ∈ b.childRows, ∃ row, w.tasks.get id = some row ∧ row.status = .pending
  pending : ∀ id row, w.tasks.get id = some row → row.status = .pending → Orphan row

theorem step_insert {w : World} {bid : Int} {b b' : Batch} {tasks : Tasks} (hu : w.up = true)
    (hb : w.batches.get bid = some b) (h : handleBatchCreate w.tasks b = some (tasks, b')) :
    step w (.insert bid) = some { w with tasks := tasks, batches := w.batches.update bid fun _ => b' } := by
  simp [step, hu, stepRequest, hb, h]

theorem leads_inserted {bid : Int} : ∀ (rest : List Int) {w : World} {b : Batch}, w.up = true →
    w.batches.get bid = some b → b.stage = .children 0 rest → Inserting b w →
    ∃ w' b', Leads step w w' ∧ w'.batches.get bid = some b' ∧ b'.stage = .children 0 [] ∧
      b'.req = b.req ∧ b'.parentRow = b.parentRow ∧
      b'.childRows.length = b.childRows.length + rest.length ∧ Inserting b' w' ∧
      w'.loop = w.loop ∧ w'.runners = w.runners ∧
      ∀ k row, w.tasks.get k = some row → w'.tasks.get k = some row := by
  intro rest
  induction rest with
  | nil =>
    intro w b hu hb hst hi
    exact ⟨w, b, .refl w, hb, hst, rfl, rfl, rfl, hi, rfl, rfl, fun _ _ h => h⟩
  | cons tid rest ih =>
    intro w b hu hb hst hi
    -- the child that this step inserts
    have hstep : handleBatchCreate w.tasks b =
        some (w.tasks.insert
          { tenantId := tid, parentTaskId := 0, type := .batchCreate, status := .pending,
            payload := (b.req.childPayload 0 tid).marshal },
          { b with stage := .children 0 rest, childRows := b.childRows ++ [w.tasks.nextId] }) := by
      simp [handleBatchCreate, hst, createTask, BatchRequest.childTask]
    have hi' : Inserting { b with stage := .children 0 rest, childRows := b.childRows ++ [w.tasks.nextId] }
        { w with
          tasks := w.tasks.insert
            { tenantId := tid, parentTaskId := 0, type := .batchCreate, status := .pending,
              payload := (b.req.childPayload 0 tid).marshal },
          batches := w.batches.update bid fun _ =>
            { b with stage := .children 0 rest, childRows := b.childRows ++ [w.tasks.nextId] } } := by
      refine ⟨fun id hid => ?_, fun id row hr hp => ?_⟩
      · rcases List.mem_append.mp hid with hid | hid
        · obtain ⟨row, hr, hp⟩ := hi.children id hid
          exact ⟨row, w.tasks.get_insert_of_some _ hr, hp⟩
        · rw [List.mem_singleton.mp hid]
          exact ⟨_, w.tasks.get_insert_self _, rfl⟩
      · rw [KeyTable.get_insert] at hr
        split at hr
        · cases hr
          exact ⟨rfl, _, rfl, rfl⟩
        · exact hi.pending id row hr hp
    obtain ⟨w', b', hl, hb', hst', hreq, hpar, hlen, hins, hloop, hrun, hkeep⟩ :=
      ih (w := { w with
          tasks := w.tasks.insert
            { tenantId := tid, parentTaskId := 0, type := .batchCreate, status := .pending,
              payload := (b.req.childPayload 0 tid).marshal },
          batches := w.batches.update bid fun _ =>
            { b with stage := .children 0 rest, childRows := b.childRows ++ [w.tasks.nextId] } })
        (b := { b with stage := .children 0 rest, childRows := b.childRows ++ [w.tasks.nextId] })
        hu (by simp [hb]) rfl hi'
    refine ⟨w', b', (Leads.of_step _ (step_insert hu hb hstep)).trans hl, hb', hst', hreq, hpar, ?_, hins,
      hloop, hrun, fun k row hr => hkeep k row (w.tasks.get_insert_of_some _ hr)⟩
    simp only [List.length_append, List.length_cons, List.length_nil] at hlen ⊢
    omega

/-! ## Every pending task fails -/

theorem step_runner {w : World} {rid : Int} {a : Answer} {r : Runner} {eff : Effect} {next : Option Phase}
    (hu : w.up = true) (hr : w.runners.get rid = some r) (hs : r.step w.ctx a = some (eff, next)) :
    step w (.runner rid a) = some ((w.apply r.task eff).setPhase rid next) := by
  simp [step, hu, stepRunner, hr, hs]

/-- A runner that finds no tenant fails its task; with parent id 0 it looks for no parent. -/
theorem leads_returned {w : World} {rid id : Int} {text : PayloadText} {p : BatchCreatePayload}
    (hu : w.up = true) (hr : w.runners.get rid = some ⟨id, .batchCreate, text, .acquire⟩)
    (hfree : w.free = true) (hp : text.asCreate = .ok p) (h0 : p.parentTaskID = 0) :
    ∃ w', Leads step w w' ∧ w'.loop = w.loop ∧ w'.batches = w.batches ∧
      w'.tasks = updateTaskStatus w.tasks w.clock id .failed 0 "tenant not found" ∧
      w'.runners.get rid = none ∧ ∀ k, k ≠ rid → w'.runners.get k = w.runners.get k := by
  have hn : ∀ (k : Int) (v : World) (next : Option Phase), k ≠ rid →
      (v.setPhase rid next).runners.get k = v.runners.get k := by
    intro k v next hk
    cases next with
    | none => exact KeyTable.get_erase_of_ne _ hk
    | some phase => exact KeyTable.get_update_of_ne _ _ hk
  have hs₁ : Runner.step w.ctx ⟨id, .batchCreate, text, .acquire⟩ .none = some (.none, some .begin) := by
    simp [Runner.step, ctx, hfree]
  have h₁ := step_runner hu hr hs₁
  let w₁ := w.setPhase rid (some .begin)
  have hr₁ : w₁.runners.get rid = some ⟨id, .batchCreate, text, .begin⟩ := by simp [w₁, setPhase, hr]
  have hs₂ : Runner.step w₁.ctx ⟨id, .batchCreate, text, .begin⟩ (.tenant none none) =
      some (.none, some (.abort "tenant not found" 0)) := by
    simp [Runner.step, beginBatchCreate, hp, h0]
  have h₂ := step_runner (w := w₁) hu hr₁ hs₂
  let w₂ := w₁.setPhase rid (some (.abort "tenant not found" 0))
  have hr₂ : w₂.runners.get rid = some ⟨id, .batchCreate, text, .abort "tenant not found" 0⟩ := by
    simp [w₂, w₁, setPhase, hr]
  have hs₃ : Runner.step w₂.ctx ⟨id, .batchCreate, text, .abort "tenant not found" 0⟩ .none =
      some (.status .failed 0 "tenant not found", none) := by
    simp [Runner.step, enterParent]
  have h₃ := step_runner (w := w₂) hu hr₂ hs₃
  refine ⟨_, (Leads.of_step _ h₁).trans ((Leads.of_step _ h₂).trans (Leads.of_step _ h₃)), rfl, rfl, rfl,
    KeyTable.get_erase_self .., ?_⟩
  intro k hk
  rw [hn k _ none hk, runners_apply, hn k _ _ hk, hn k _ _ hk]

/-- The tasks among `ids` failed and nothing else changed. -/
structure Failed (ids : List Int) (w w' : World) : Prop where
  returned : ∀ rid, w'.runners.get rid = none
  batches : w'.batches = w.batches
  failed : ∀ id ∈ ids, ∃ row, w'.tasks.get id = some row ∧ row.status = .failed
  kept : ∀ id, id ∉ ids → w'.tasks.get id = w.tasks.get id

/-- The loop claims an orphan, whose runner fails it. -/
theorem leads_failed {w : World} {id : Int} {t row : Task} {todo : List (Int × Task)}
    (hl : w.loop = .scanning ((id, t) :: todo)) (hrun : ∀ rid, w.runners.get rid = none)
    (hr : w.tasks.get id = some row) (hp : row.status = .pending) (ht : Orphan t) :
    ∃ w', Leads step w w' ∧ w'.loop = .scanning todo ∧ Failed [id] w w' := by
  obtain ⟨htype, p, hpay, hpid⟩ := ht
  have hrows : w.runners.rows = [] := by
    refine List.eq_nil_iff_forall_not_mem.mpr fun r hr => ?_
    have := w.runners.mem_rows_iff.mp hr
    rw [hrun] at this
    cases this
  let w₁ : World := { w with
    tasks := w.tasks.update id fun t => { t with status := .running, startedAt := some w.clock }
    loop := .dispatch id t todo }
  let w₂ : World := { w₁.spawn id t .batchCreate with loop := .scanning todo }
  have h₁ : step w .claim = some w₁ := by
    simp [step, up, stepLoop, hl, claimTask, hr, hp, w₁]
  have h₂ : step w₁ .dispatch = some w₂ := by
    simp [step, up, stepLoop, processClaimed, htype, w₂, w₁]
  have hfree : w₂.free = true := by
    simp [free, w₂, w₁, spawn, KeyTable.insert, hrows]
  obtain ⟨w', h₃, hloop, hbatch, htasks, hgone, hother⟩ :=
    leads_returned (w := w₂) rfl (KeyTable.get_insert_self _ _) hfree hpay hpid
  refine ⟨w', (Leads.of_step _ h₁).trans ((Leads.of_step _ h₂).trans h₃), hloop, ?_, hbatch, ?_, ?_⟩
  · intro rid
    by_cases hrid : rid = w.runners.nextId
    · rw [hrid]
      exact hgone
    · rw [hother rid hrid]
      simp [w₂, w₁, spawn, KeyTable.get_insert, hrid, hrun]
  · intro id' hid
    rw [List.mem_singleton.mp hid, htasks, get_updateTaskStatus, if_pos rfl]
    simp [w₂, w₁, spawn, hr]
  · intro id' hid
    have hne : id' ≠ id := fun h => hid (by simp [h])
    rw [htasks, get_updateTaskStatus, if_neg hne]
    exact KeyTable.get_update_of_ne _ _ hne

/-- The loop works off its list of orphans. -/
theorem leads_listed : ∀ (todo : List (Int × Task)) {w : World}, w.loop = .scanning todo →
    (∀ rid, w.runners.get rid = none) → (todo.map Prod.fst).Nodup →
    (∀ r ∈ todo, Orphan r.2 ∧ ∃ row, w.tasks.get r.1 = some row ∧ row.status = .pending) →
    ∃ w', Leads step w w' ∧ w'.loop = .idle ∧ Failed (todo.map Prod.fst) w w' := by
  intro todo
  induction todo with
  | nil =>
    intro w hl hrun _ _
    have h : step w .claim = some { w with loop := .idle } := by simp [step, up, stepLoop, hl]
    exact ⟨_, .of_step _ h, rfl, hrun, rfl, fun id hid => absurd hid List.not_mem_nil, fun _ _ => rfl⟩
  | cons r todo ih =>
    intro w hl hrun hnd hall
    obtain ⟨ho, row, hr, hp⟩ := hall r (List.mem_cons_self ..)
    obtain ⟨hnot, hnd'⟩ := List.nodup_cons.mp (show (r.1 :: todo.map Prod.fst).Nodup from hnd)
    obtain ⟨w₁, h₁, hl₁, hf₁⟩ := leads_failed hl hrun hr hp ho
    obtain ⟨w₂, h₂, hl₂, hf₂⟩ := ih hl₁ hf₁.returned hnd' (by
      intro r' hr'
      obtain ⟨ho', row', hrow', hp'⟩ := hall r' (List.mem_cons_of_mem _ hr')
      refine ⟨ho', row', ?_, hp'⟩
      rw [hf₁.kept r'.1 fun h => hnot (List.mem_singleton.mp h ▸ List.mem_map_of_mem hr'), hrow'])
    refine ⟨w₂, h₁.trans h₂, hl₂, hf₂.returned, hf₂.batches.trans hf₁.batches, ?_, ?_⟩
    · intro id hid
      rcases List.mem_cons.mp hid with rfl | hid
      · obtain ⟨row', hr', hs'⟩ := hf₁.failed r.1 (List.mem_singleton_self _)
        exact ⟨row', (hf₂.kept r.1 hnot).trans hr', hs'⟩
      · exact hf₂.failed id hid
    · intro id hid
      obtain ⟨hne, hid'⟩ := not_or.mp (mt List.mem_cons.mpr hid)
      rw [hf₂.kept id hid', hf₁.kept id (mt List.mem_singleton.mp hne)]

/-- Polls until no task is pending; every pending orphan fails. -/
theorem leads_drained : ∀ (m : Nat) (ids : List Int) {w : World}, ids.length ≤ m → w.loop = .idle →
    (∀ rid, w.runners.get rid = none) →
    (∀ id row, w.tasks.get id = some row → row.status = .pending → id ∈ ids ∧ Orphan row) →
    ∃ w', Leads step w w' ∧ (∀ rid, w'.runners.get rid = none) ∧ w'.batches = w.batches ∧
      ∀ id row, w.tasks.get id = some row →
        (row.status = .pending → ∃ row', w'.tasks.get id = some row' ∧ row'.status = .failed) ∧
        (row.status ≠ .pending → w'.tasks.get id = some row) := by
  intro m
  induction m with
  | zero =>
    intro ids w hm _ hrun hall
    obtain rfl : ids = [] := List.eq_nil_of_length_eq_zero (Nat.le_zero.mp hm)
    refine ⟨w, .refl w, hrun, rfl, fun id row hr => ⟨fun hp => ?_, fun _ => hr⟩⟩
    exact absurd (hall id row hr hp).1 List.not_mem_nil
  | succ m ih =>
    intro ids w hm hl hrun hall
    have hpoll : step w .poll = some { w with loop := .scanning (listPendingTasks w.tasks) } := by
      simp [step, up, stepLoop, hl]
    have htodo : ∀ r ∈ listPendingTasks w.tasks, Orphan r.2 ∧
        ∃ row, w.tasks.get r.1 = some row ∧ row.status = .pending := by
      intro r hr
      obtain ⟨hget, hp⟩ := mem_listPendingTasks (show (r.1, r.2) ∈ _ from hr)
      exact ⟨(hall r.1 r.2 hget hp).2, r.2, hget, hp⟩
    obtain ⟨w₁, h₁, hl₁, hf₁⟩ := leads_listed (w := { w with loop := .scanning (listPendingTasks w.tasks) })
      _ rfl hrun (nodup_listPendingTasks w.tasks) htodo
    -- every listed id is gone from the list of ids that may be pending
    have hshort : ∀ r ∈ listPendingTasks w.tasks, r.1 ∈ ids := by
      intro r hr
      obtain ⟨hget, hp⟩ := mem_listPendingTasks (show (r.1, r.2) ∈ _ from hr)
      exact (hall r.1 r.2 hget hp).1
    cases hlist : listPendingTasks w.tasks with
    | nil =>
      refine ⟨w, .refl w, hrun, rfl, fun id row hr => ⟨fun hp => ?_, fun _ => hr⟩⟩
      have hmem : (id, row) ∈ w.tasks.rows.filter fun r => r.2.status = .pending :=
        List.mem_filter.mpr ⟨w.tasks.mem_rows_iff.mpr hr, by simpa using hp⟩
      rcases List.take_eq_nil_iff.mp hlist with h | h
      · cases h
      · rw [h] at hmem
        cases hmem
    | cons r rest =>
      have hr : r ∈ listPendingTasks w.tasks := hlist ▸ List.mem_cons_self ..
      let listed := (listPendingTasks w.tasks).map Prod.fst
      have hlt : (ids.filter fun id => id ∉ listed).length < ids.length := by
        refine List.length_filter_lt_length_iff_exists.mpr ⟨r.1, hshort r hr, ?_⟩
        simpa [listed] using ⟨r.2, hr⟩
      obtain ⟨w₂, h₂, hrun₂, hbatch₂, hend⟩ := ih (ids.filter fun id => id ∉ listed) (by omega) hl₁
        hf₁.returned (by
          intro id row hget hp
          have hnot : id ∉ listed := by
            intro hid
            obtain ⟨row', hget', hfail⟩ := hf₁.failed id hid
            obtain rfl : row = row' := Option.some.inj (hget.symm.trans hget')
            rw [hp] at hfail
            cases hfail
          rw [hf₁.kept id hnot] at hget
          exact ⟨List.mem_filter.mpr ⟨(hall id row hget hp).1, by simpa using hnot⟩, (hall id row hget hp).2⟩)
      refine ⟨w₂, (Leads.of_step _ hpoll).trans (h₁.trans h₂), hrun₂, hbatch₂.trans hf₁.batches, ?_⟩
      intro id row hget
      by_cases hid : id ∈ listed
      · obtain ⟨row', hget', hfail⟩ := hf₁.failed id hid
        refine ⟨fun _ => ⟨row', (hend id row' hget').2 (by rw [hfail]; decide), hfail⟩, fun hp => ?_⟩
        obtain ⟨r', hr', rfl⟩ := List.mem_map.mp hid
        obtain ⟨hget'', hp'⟩ := mem_listPendingTasks (show (r'.1, r'.2) ∈ _ from hr')
        obtain rfl : row = r'.2 := Option.some.inj (hget.symm.trans hget'')
        exact absurd hp' hp
      · exact hend id row ((hf₁.kept id hid).trans hget)

/-! ## The parent stays behind -/

/-- The loop is idle and every task is cancelled. -/
theorem leads_cleared (tasks : Tasks) : ∃ w, Leads step (off tasks) w ∧ w.loop = .idle ∧
    w.runners = .empty ∧ ∀ id row, w.tasks.get id = some row → row.status = .cancelled := by
  let w₁ : World := { off tasks with loop := .starting }
  let w₂ : World := { w₁ with tasks := resetRunningTasks tasks, loop := .idle }
  have h₁ : step (off tasks) .boot = some w₁ := rfl
  have h₂ : step w₁ .reset = some w₂ := rfl
  obtain ⟨w, h₃, hloop, hrun, hall, hkeep⟩ := leads_stopped (w₂.tasks.rows.map Prod.fst) (w := w₂) rfl
  refine ⟨w, (Leads.of_step _ h₁).trans ((Leads.of_step _ h₂).trans h₃), hloop, hrun, fun id row hr => ?_⟩
  cases hr₂ : w₂.tasks.get id with
  | none =>
    rw [(hkeep id).1 hr₂] at hr
    cases hr
  | some row₂ =>
    exact hall id (List.mem_map_of_mem (f := Prod.fst) (w₂.tasks.mem_rows_iff.mpr hr₂)) row hr

/-- From every table and for every request with a parent there is a run after which all children are finished
and all runners have returned. -/
theorem leads_settled (tasks : Tasks) {req req' : BatchRequest} (hn : req.normalize = .ok req')
    (hm : req'.isMulti = true) : ∃ w bid b, Leads step (off tasks) w ∧ w.batches.get bid = some b ∧
      b.req = req' ∧ b.Settled w ∧ b.parentRow ≠ none := by
  obtain ⟨w₁, h₁, hl₁, hrun₁, hall₁⟩ := leads_cleared tasks
  have hu : w₁.up = true := by simp [up, hl₁]
  -- the request arrives and inserts its parent
  let bid := w₁.batches.nextId
  let b₀ : Batch := ⟨req', .parent, none, []⟩
  let b₁ : Batch := ⟨req', .children 0 req'.tenantIDs, some w₁.tasks.nextId, []⟩
  let w₂ : World := { w₁ with batches := w₁.batches.insert b₀ }
  let w₃ : World := { w₂ with
    tasks := w₁.tasks.insert
      { type := .batchCreateMulti, status := .running, payload := req'.parentPayload }
    batches := w₂.batches.update bid fun _ => b₁ }
  have h₂ : step w₁ (.submit req) = some w₂ := by
    simp [step, hu, stepRequest, hn, Batch.start, hm, w₂, b₀]
  have h₃ : step w₂ (.insert bid) = some w₃ :=
    step_insert hu (KeyTable.get_insert_self _ _) rfl
  have hb₃ : w₃.batches.get bid = some b₁ := by simp [w₃, w₂, bid]
  have hins : Inserting b₁ w₃ := by
    refine ⟨fun id hid => absurd hid List.not_mem_nil, fun id row hr hp => ?_⟩
    rw [KeyTable.get_insert] at hr
    split at hr
    · cases hr
      cases hp
    · rw [hall₁ id row hr] at hp
      cases hp
  obtain ⟨w₄, b₂, h₄, hb₄, hst, hreq, hpar, hlen, hins₄, hl₄, hrun₄, -⟩ :=
    leads_inserted req'.tenantIDs (w := w₃) hu hb₃ rfl hins
  -- every task the loop finds is a child; all of them fail
  have hgone : ∀ rid, w₄.runners.get rid = none := by
    intro rid
    rw [hrun₄, show w₃.runners = w₁.runners from rfl, hrun₁]
    rfl
  obtain ⟨w₅, h₅, hrun₅, hbatch, hend⟩ := leads_drained (w₄.tasks.rows.map Prod.fst).length
    (w₄.tasks.rows.map Prod.fst) le_rfl (hl₄.trans hl₁) hgone fun id row hr hp =>
      ⟨List.mem_map_of_mem (f := Prod.fst) (w₄.tasks.mem_rows_iff.mpr hr), hins₄.pending id row hr hp⟩
  refine ⟨w₅, bid, b₂, h₁.trans ((Leads.of_step _ h₂).trans ((Leads.of_step _ h₃).trans (h₄.trans h₅))),
    hbatch ▸ hb₄, hreq, ⟨⟨0, hst⟩, ?_, ?_, hrun₅⟩, ?_⟩
  · rw [hlen, hreq]
    exact Nat.zero_add _
  · intro id hid
    obtain ⟨row, hr, hp⟩ := hins₄.children id hid
    obtain ⟨row', hr', hf⟩ := (hend id row hr).1 hp
    exact ⟨row', hr', Or.inr hf⟩
  · rw [hpar]
    simp [b₁]

/-! ## No parent is ever done -/

/-- With `n` ids given out before the run: no row names a later parent, and no later parent is completed. -/
structure Sound (n : Nat) (tasks : Tasks) : Prop where
  seq : n ≤ tasks.seq
  columns : ∀ id row, tasks.get id = some row → row.parentTaskId ≤ n
  parents : ∀ id row, (n : Int) < id → tasks.get id = some row → row.type = .batchCreateMulti →
    row.status ≠ .completed

/-- The row under an id has a type. -/
def OfType (tasks : Tasks) (id : Int) (type : TaskType) : Prop := ∃ row, tasks.get id = some row ∧ row.type = type

/-- Every row stays, with its type. -/
def KeepsTypes (tasks tasks' : Tasks) : Prop := ∀ id type, OfType tasks id type → OfType tasks' id type

/-- The children of a batch get no parent id; its parent is a row of the run. -/
structure Unlinked (n : Nat) (tasks : Tasks) (b : Batch) : Prop where
  unlinked : ∀ pid rest, b.stage = .children pid rest → pid = 0
  parent : ∀ p, b.parentRow = some p → n < p ∧ OfType tasks p .batchCreateMulti

/-- The invariant: the loop and the runners know the type of their task, and no runner is about to write a
parent of the run. -/
structure Behind (n : Nat) (w : World) : Prop where
  rows : Sound n w.tasks
  held : ∀ e ∈ w.loop.held, OfType w.tasks e.1 e.2.type
  worked : ∀ rid r, w.runners.get rid = some r → ∃ type, type ≠ .batchCreateMulti ∧ OfType w.tasks r.task type
  written : ∀ rid r pid s progress msg, w.runners.get rid = some r → r.phase = .parentWrite pid s progress msg →
    pid ≤ n
  batches : ∀ bid b, w.batches.get bid = some b → Unlinked n w.tasks b

/-! ### The statements on the table -/

theorem KeepsTypes.refl (tasks : Tasks) : KeepsTypes tasks tasks := fun _ _ h => h

theorem keepsTypes_insert (tasks : Tasks) (row : Task) : KeepsTypes tasks (tasks.insert row) := by
  rintro id type ⟨t, ht, rfl⟩
  exact ⟨t, tasks.get_insert_of_some row ht, rfl⟩

theorem keepsTypes_mapRows {tasks : Tasks} {f : Int → Task → Task} (hf : ∀ k t, (f k t).type = t.type) :
    KeepsTypes tasks (tasks.mapRows f) := by
  rintro id type ⟨t, ht, rfl⟩
  exact ⟨f id t, by rw [KeyTable.get_mapRows, ht]; rfl, hf id t⟩

theorem Sound.insert {n : Nat} {tasks : Tasks} (h : Sound n tasks) {row : Task} (hp : row.parentTaskId = 0)
    (hs : row.type = .batchCreateMulti → row.status ≠ .completed) : Sound n (tasks.insert row) where
  seq := h.seq.trans (Nat.le_succ _)
  columns := by
    intro id t ht
    rw [KeyTable.get_insert] at ht
    split at ht
    · cases ht
      omega
    · exact h.columns id t ht
  parents := by
    intro id t hid ht htype
    rw [KeyTable.get_insert] at ht
    split at ht
    · cases ht
      exact hs htype
    · exact h.parents id t hid ht htype

/-- A statement that keeps types and parent columns, and completes no parent of the run. -/
theorem Sound.mapRows {n : Nat} {tasks : Tasks} (h : Sound n tasks) {f : Int → Task → Task}
    (hf : ∀ k t, (f k t).type = t.type ∧ (f k t).parentTaskId = t.parentTaskId)
    (hs : ∀ k t, tasks.get k = some t → t.type = .batchCreateMulti → (n : Int) < k → t.status ≠ .completed →
      (f k t).status ≠ .completed) : Sound n (tasks.mapRows f) where
  seq := h.seq
  columns := by
    intro id t ht
    rw [KeyTable.get_mapRows] at ht
    obtain ⟨row, hr, rfl⟩ := Option.map_eq_some_iff.mp ht
    rw [(hf id row).2]
    exact h.columns id row hr
  parents := by
    intro id t hid ht htype
    rw [KeyTable.get_mapRows] at ht
    obtain ⟨row, hr, rfl⟩ := Option.map_eq_some_iff.mp ht
    rw [(hf id row).1] at htype
    exact hs id row hr htype hid (h.parents id row hid hr htype)

theorem Sound.updateTaskStatus {n : Nat} {tasks : Tasks} (h : Sound n tasks) (now : Nat) (id : Int)
    (s : TaskStatus) (progress : Int) (msg : String)
    (hs : s = .completed → id ≤ n ∨ ∃ type, type ≠ .batchCreateMulti ∧ OfType tasks id type) :
    Sound n (updateTaskStatus tasks now id s progress msg) := by
  unfold Db.updateTaskStatus KeyTable.update
  refine h.mapRows (fun k t => by split <;> exact ⟨rfl, rfl⟩) fun k t hk htype hlt hopen => ?_
  split
  · next he =>
    subst he
    intro hc
    obtain hle | ⟨type, hne, row, hr, rfl⟩ := hs hc
    · omega
    · obtain rfl : t = row := Option.some.inj (hk.symm.trans hr)
      exact hne htype
  · exact hopen

theorem keepsTypes_updateTaskStatus (tasks : Tasks) (now : Nat) (id : Int) (s : TaskStatus) (progress : Int)
    (msg : String) : KeepsTypes tasks (updateTaskStatus tasks now id s progress msg) :=
  keepsTypes_mapRows fun k t => by dsimp only; split <;> rfl

theorem Sound.updateTaskPayload {n : Nat} {tasks : Tasks} (h : Sound n tasks) (id : Int) (text : PayloadText) :
    Sound n (updateTaskPayload tasks id text) := by
  unfold Db.updateTaskPayload KeyTable.update
  refine h.mapRows (fun k t => by split <;> exact ⟨rfl, rfl⟩) fun k t _ _ _ hopen => ?_
  split <;> exact hopen

theorem keepsTypes_updateTaskPayload (tasks : Tasks) (id : Int) (text : PayloadText) :
    KeepsTypes tasks (updateTaskPayload tasks id text) :=
  keepsTypes_mapRows fun k t => by dsimp only; split <;> rfl

theorem Sound.resetRunningTasks {n : Nat} {tasks : Tasks} (h : Sound n tasks) : Sound n (resetRunningTasks tasks) := by
  unfold Db.resetRunningTasks KeyTable.map
  refine h.mapRows (fun k t => by dsimp only; split <;> exact ⟨rfl, rfl⟩) fun k t _ _ _ hopen => ?_
  dsimp only
  split
  · exact fun hc => by cases hc
  · exact hopen

theorem keepsTypes_resetRunningTasks (tasks : Tasks) : KeepsTypes tasks (resetRunningTasks tasks) :=
  keepsTypes_mapRows fun k t => by dsimp only; split <;> rfl

/-! ### One step -/

theorem Unlinked.keepsTypes {n : Nat} {tasks tasks' : Tasks} {b : Batch} (h : Unlinked n tasks b)
    (ht : KeepsTypes tasks tasks') : Unlinked n tasks' b :=
  ⟨h.unlinked, fun p hp => ⟨(h.parent p hp).1, ht _ _ (h.parent p hp).2⟩⟩

/-- A statement on the table, whatever else it is part of. -/
theorem Behind.write {n : Nat} {w : World} (h : Behind n w) {tasks : Tasks} (hs : Sound n tasks)
    (ht : KeepsTypes w.tasks tasks) : Behind n { w with tasks := tasks } where
  rows := hs
  held e he := ht _ _ (h.held e he)
  worked rid r hr := by
    obtain ⟨type, hne, hof⟩ := h.worked rid r hr
    exact ⟨type, hne, ht _ _ hof⟩
  written := h.written
  batches bid b hb := (h.batches bid b hb).keepsTypes ht

theorem Behind.move {n : Nat} {w : World} (h : Behind n w) {loop : Loop}
    (hl : ∀ e ∈ loop.held, OfType w.tasks e.1 e.2.type) : Behind n { w with loop := loop } := ⟨h.rows, hl, h.worked, h.written, h.batches⟩

/-- A runner that is about to write a parent has just read its children. -/
theorem phase_of_parentWrite {k : Kind} {text : PayloadText} {phase : Phase} {eff : Effect} {pid progress : Int}
    {s : TaskStatus} {msg : String} (h : Turn k text phase eff (some (.parentWrite pid s progress msg))) :
    ∃ pid', phase = .parent pid' := by
  have henter : ∀ {p : Int}, enterParent p ≠ some (.parentWrite pid s progress msg) := by
    intro p he
    unfold enterParent at he
    split at he <;> cases he
  generalize hnext : some (Phase.parentWrite pid s progress msg) = next at h
  cases h with
  | parent pid' => exact ⟨pid', rfl⟩
  | abort => exact absurd hnext.symm henter
  | loop job tenant pt _ _ hl =>
    cases hl with
    | probe _ _ _ hn | start _ _ _ hn | launch _ _ _ hn =>
      cases hnext
      simp at hn
    | finish _ _ hn =>
      obtain rfl | ⟨p, rfl⟩ := hn
      · cases hnext
      · exact absurd hnext.symm henter
    | _ => cases hnext
  | _ => cases hnext

/-- The id of the parent is one that a row names. -/
theorem named_of_parentWrite {ctx : Ctx} {r : Runner} {a : Answer} {eff : Effect} {pid progress : Int}
    {s : TaskStatus} {msg : String} (h : r.step ctx a = some (eff, some (.parentWrite pid s progress msg))) :
    ∃ id row, ctx.tasks.get id = some row ∧ row.parentTaskId = pid := by
  obtain ⟨pid', hph⟩ := phase_of_parentWrite (Runner.turn h)
  cases a <;> simp only [Runner.step, hph, reduceCtorEq] at h
  unfold maybeUpdateParent at h
  cases hl : listTasksByParentID ctx.tasks pid' with
  | nil =>
    rw [hl] at h
    cases h
  | cons c cs =>
    rw [hl] at h
    cases h
    obtain ⟨hm, hp⟩ := List.mem_filter.mp (show c ∈ listTasksByParentID ctx.tasks pid by rw [hl]; exact .head _)
    exact ⟨c.1, c.2, ctx.tasks.mem_rows_iff.mp hm, by simpa using hp⟩

theorem Behind.effect {n : Nat} {w : World} (h : Behind n w) {rid : Int} {r : Runner} {eff : Effect}
    {next : Option Phase} (hr : w.runners.get rid = some r) (ht : Turn r.kind r.text r.phase eff next) :
    Behind n (w.apply r.task eff) := by
  cases eff with
  | none => exact h
  | call c i => exact ⟨h.rows, h.held, h.worked, h.written, h.batches⟩
  | save job =>
    have := h.write (h.rows.updateTaskPayload r.task job.marshal) (keepsTypes_updateTaskPayload _ _ _)
    exact ⟨this.rows, this.held, this.worked, this.written, this.batches⟩
  | status s progress msg =>
    exact h.write (h.rows.updateTaskStatus _ _ _ _ _ fun _ => Or.inr (h.worked rid r hr))
      (keepsTypes_updateTaskStatus _ _ _ _ _ _)
  | parent pid s progress msg =>
    have hpid := h.written rid r pid s progress msg hr ht.phase_of_parent.1
    exact h.write (h.rows.updateTaskStatus _ _ _ _ _ fun _ => Or.inl hpid) (keepsTypes_updateTaskStatus _ _ _ _ _ _)

theorem Behind.runner {n : Nat} {w : World} (h : Behind n w) {rid : Int} {a : Answer} {r : Runner} {eff : Effect}
    {next : Option Phase} (hr : w.runners.get rid = some r) (hs : r.step w.ctx a = some (eff, next)) :
    Behind n ((w.apply r.task eff).setPhase rid next) := by
  have h' := h.effect hr (Runner.turn hs)
  refine ⟨by simpa using h'.rows, by simpa using h'.held, fun rid' r' hr' => ?_,
    fun rid' r' pid s progress msg hr' hph => ?_, fun bid b hb => ?_⟩
  · rw [tasks_setPhase]
    obtain ⟨-, hold⟩ | ⟨r₀, phase, rfl, hold, -, rfl⟩ := get_setPhase hr'
    · exact h'.worked rid' r' hold
    · exact h'.worked rid' r₀ hold
  · obtain ⟨-, hold⟩ | ⟨r₀, phase, rfl, hold, rfl, rfl⟩ := get_setPhase hr'
    · exact h'.written rid' r' pid s progress msg hold hph
    · obtain rfl : phase = _ := hph
      obtain ⟨id, row, hrow, rfl⟩ := named_of_parentWrite hs
      exact h.rows.columns id row hrow
  · rw [tasks_setPhase]
    refine h'.batches bid b ?_
    cases next <;> exact hb

theorem Behind.spawn {n : Nat} {w : World} (h : Behind n w) {id : Int} {t : Task} {k : Kind}
    (hof : OfType w.tasks id t.type) (hk : Kind.ofType t.type = some k) : Behind n (w.spawn id t k) := by
  have hne : t.type ≠ .batchCreateMulti := by
    intro he
    rw [he] at hk
    cases hk
  refine ⟨h.rows, h.held, fun rid r hr => ?_, fun rid r pid s progress msg hr hph => ?_, h.batches⟩
  · obtain ⟨-, rfl⟩ | hold := get_spawn hr
    · exact ⟨t.type, hne, hof⟩
    · exact h.worked rid r hold
  · obtain ⟨-, rfl⟩ | hold := get_spawn hr
    · cases hph
    · exact h.written rid r pid s progress msg hold hph

theorem unlinked_start (n : Nat) (tasks : Tasks) (req : BatchRequest) : Unlinked n tasks (.start req) where
  unlinked pid rest hst := by
    unfold Batch.start at hst
    dsimp only at hst
    split at hst <;> cases hst
    rfl
  parent p hp := by cases hp

/-- An insertion of the handler adds the parent, or a child that names none. -/
theorem handleBatchCreate_unlinked {n : Nat} {tasks tasks' : Tasks} {b b' : Batch} (hs : Sound n tasks)
    (hb : Unlinked n tasks b) (h : handleBatchCreate tasks b = some (tasks', b')) :
    Sound n tasks' ∧ KeepsTypes tasks tasks' ∧ Unlinked n tasks' b' := by
  unfold handleBatchCreate at h
  split at h
  · cases h
    refine ⟨hs.insert rfl (fun _ hc => by cases hc), keepsTypes_insert _ _, fun pid rest hst => ?_, fun p hp => ?_⟩
    · cases hst
      rfl
    · cases hp
      refine ⟨?_, _, tasks.get_insert_self _, rfl⟩
      have := hs.seq
      simp only [KeyTable.nextId]
      omega
  · next parentTaskID tid rest hst =>
    cases h
    obtain rfl := hb.unlinked _ _ hst
    refine ⟨hs.insert rfl (fun ht => by cases ht), keepsTypes_insert _ _, fun pid rest' hst' => ?_, fun p hp => ?_⟩
    · cases hst'
      rfl
    · exact ⟨(hb.parent p hp).1, keepsTypes_insert _ _ _ _ (hb.parent p hp).2⟩
  · cases h

theorem Behind.submit {n : Nat} {w w' : World} (h : Behind n w) {req : BatchRequest}
    (hs : step w (.submit req) = some w') : Behind n w' := by
  simp only [step, stepRequest] at hs
  split at hs
  · split at hs
    · cases hs
      refine ⟨h.rows, h.held, h.worked, h.written, fun bid b hb => ?_⟩
      rw [KeyTable.get_insert] at hb
      split at hb
      · cases hb
        exact unlinked_start n _ _
      · exact h.batches bid b hb
    · cases hs
      exact h
  · cases hs

theorem Behind.insert {n : Nat} {w w' : World} (h : Behind n w) {bid : Int}
    (hs : step w (.insert bid) = some w') : Behind n w' := by
  simp only [step, stepRequest] at hs
  split at hs
  · split at hs
    · next b hb =>
      split at hs
      · next tasks' b' hc =>
        cases hs
        obtain ⟨hsound, htyped, hb'⟩ := handleBatchCreate_unlinked h.rows (h.batches bid b hb) hc
        have hw := h.write hsound htyped
        refine ⟨hw.rows, hw.held, hw.worked, hw.written, fun k v hv => ?_⟩
        rw [KeyTable.get_update] at hv
        split at hv
        · next hk =>
          rw [hk, hb] at hv
          cases hv
          exact hb'
        · exact hw.batches k v hv
      · cases hs
    · cases hs
  · cases hs

theorem Behind.batchStart {n : Nat} {w w' : World} (h : Behind n w) {tid : Int} {ids : List String}
    (hs : step w (.batchStart tid ids) = some w') : Behind n w' := by
  simp only [step, stepRequest, handleBatchStart] at hs
  split at hs
  · split at hs
    · next hb =>
      split at hb
      · cases hb
      · cases hb
        cases hs
        exact h.write (h.rows.insert rfl fun ht => by cases ht) (keepsTypes_insert _ _)
    · cases hs
      exact h
  · cases hs

theorem behind_step {n : Nat} {w w' : World} {e : Event} (h : Behind n w) (hs : step w e = some w') : Behind n w' := by
  cases moves hs with
  | tick => exact ⟨h.rows, h.held, h.worked, h.written, h.batches⟩
  | boot | listed | loopPanic | loopStop => exact ⟨h.rows, fun e he => (nomatch he), h.worked, h.written, h.batches⟩
  | reset =>
    have := h.write h.rows.resetRunningTasks (keepsTypes_resetRunningTasks _)
    exact ⟨this.rows, fun e he => (nomatch he), this.worked, this.written, this.batches⟩
  | poll =>
    exact h.move fun e he => ⟨e.2, (mem_listPendingTasks (show (e.1, e.2) ∈ _ from he)).1, rfl⟩
  | claimed id t row todo hl =>
    have hw := h.write
      (h.rows.mapRows (f := fun k t => if k = id then { t with status := .running, startedAt := some w.clock } else t)
        (fun k t => by split <;> exact ⟨rfl, rfl⟩) fun k t _ _ _ hopen => by
          split
          · exact fun hc => by cases hc
          · exact hopen)
      (keepsTypes_mapRows fun k t => by split <;> rfl)
    exact hw.move fun e he => hw.held e (by rw [hl]; exact he)
  | lost id t todo hl =>
    refine h.move fun e he => h.held e ?_
    rw [hl]
    exact List.mem_cons_of_mem _ he
  | spawned id t todo k hl hk =>
    have hheld : ∀ e ∈ Loop.held (.dispatch id t todo), OfType w.tasks e.1 e.2.type := hl ▸ h.held
    exact (h.spawn (hheld (id, t) (List.mem_cons_self ..)) hk).move fun e he => hheld e (List.mem_cons_of_mem _ he)
  | marked id t todo s msg hl _ hst =>
    have hheld : ∀ e ∈ Loop.held (.dispatch id t todo), OfType w.tasks e.1 e.2.type := hl ▸ h.held
    have hw := h.write (h.rows.updateTaskStatus w.clock id s 0 msg
      fun hc => by obtain rfl | rfl := hst <;> cases hc) (keepsTypes_updateTaskStatus _ _ _ _ _ _)
    exact hw.move fun e he => hw.held e (by rw [hl]; exact List.mem_cons_of_mem _ he)
  | runner rid a r eff next hr hstep => exact h.runner hr hstep
  | request id op =>
    exact h.write (h.rows.updateTaskStatus _ _ _ _ _ fun hc => by cases op <;> cases hc)
      (keepsTypes_updateTaskStatus _ _ _ _ _ _)
  | edit id payload => exact h.write (h.rows.updateTaskPayload id payload) (keepsTypes_updateTaskPayload _ _ _)
  | rejected => exact h
  | submit => exact h.submit hs
  | insert => exact h.insert hs
  | batchStart => exact h.batchStart hs
  | closeStop => exact ⟨h.rows, h.held, h.worked, h.written, h.batches⟩
  | shutdownReset =>
    have := h.write h.rows.resetRunningTasks (keepsTypes_resetRunningTasks _)
    exact ⟨this.rows, this.held, this.worked, this.written, this.batches⟩
  | exit =>
    exact ⟨h.rows, fun e he => (nomatch he), fun rid r hr => (nomatch hr), fun rid r _ _ _ _ hr => (nomatch hr),
      fun bid b hb => (nomatch hb)⟩

theorem behind_off {tasks : Tasks} (h : ∀ id row, tasks.get id = some row → row.parentTaskId ≤ tasks.seq) :
    Behind tasks.seq (off tasks) where
  rows := ⟨le_rfl, h, fun id row hid hr => absurd (tasks.get_le_seq hr) (by omega)⟩
  held e he := nomatch he
  worked rid r hr := nomatch hr
  written rid r pid s progress msg hr := nomatch hr
  batches bid b hb := nomatch hb

/-- **The parent is left behind.** From a table whose rows name no id that is still to come: in no state of any run
is the parent of a batch done, and every request with a parent has a run that settles its batch. -/
theorem parent_left_behind {tasks : Tasks}
    (h : ∀ id row, tasks.get id = some row → row.parentTaskId ≤ tasks.seq) :
    (∀ es w bid b, Run step (Always World Event) (off tasks) es w → w.batches.get bid = some b →
      ¬ b.ParentDone w) ∧
    ∀ req req' : BatchRequest, req.normalize = .ok req' → req'.isMulti = true →
      ∃ es w bid b, Run step (Always World Event) (off tasks) es w ∧ w.batches.get bid = some b ∧ b.req = req' ∧
        b.parentRow ≠ none ∧ b.Settled w := by
  constructor
  · rintro es w bid b hr hb ⟨p, row, hp, hrow, hc, -⟩
    have hw := hr.invariant (fun _ _ _ _ hb hs => behind_step hb hs) (behind_off h)
    obtain ⟨hlt, row', hrow', htype⟩ := (hw.batches bid b hb).parent p hp
    obtain rfl : row = row' := Option.some.inj (hrow.symm.trans hrow')
    exact hw.rows.parents p row hlt hrow htype hc
  · intro req req' hn hm
    obtain ⟨w, bid, b, ⟨es, hr⟩, hb, hreq, hset, hp⟩ := leads_settled tasks hn hm
    exact ⟨es, w, bid, b, hr, hb, hreq, hp, hset⟩

/-- The task is completed or failed. -/
def ended (w : World) (id : Int) : Bool :=
  (w.tasks.get id).any fun row => decide (row.status = .completed ∨ row.status = .failed)

theorem settled_of_ended {b : Batch} {w : World} (hst : b.stage = .children 0 [])
    (hlen : b.childRows.length = b.req.tenantIDs.length) (hrun : w.runners.rows = [])
    (hall : b.childRows.all w.ended = true) : b.Settled w := by
  refine ⟨⟨0, hst⟩, hlen, fun id hid => ?_, fun rid => ?_⟩
  · have hany := List.all_eq_true.mp hall id hid
    cases hr : w.tasks.get id with
    | none =>
      rw [ended, hr] at hany
      cases hany
    | some row =>
      rw [ended, hr] at hany
      exact ⟨row, rfl, of_decide_eq_true hany⟩
  · rw [KeyTable.get, hrun]
    rfl

/-- Two tenants on a table with another task: one child launches its instance, the other one and the old task find
no tenant. -/
def oneLaunched : List Event :=
  [.boot, .reset, .submit { tenantIDs := [7, 8] }, .insert 1, .insert 1, .insert 1, .poll,
    .claim, .dispatch, .claim, .dispatch, .claim, .dispatch,
    .runner 2 .none, .runner 2 (.tenant (some "t") none), .runner 3 .none, .runner 2 .none, .runner 2 .none,
    .runner 3 (.tenant none none), .runner 2 .none, .runner 2 (.oci none), .runner 3 .none, .runner 2 .none,
    .runner 2 .none, .runner 2 .none, .runner 2 .none, .runner 2 .none,
    .runner 1 .none, .runner 1 (.tenant none none), .runner 1 .none]

theorem parent_left_behind_oneLaunched : ∃ w b, Run step (Always World Event) (off oneTask) oneLaunched w ∧
    w.batches.get 1 = some b ∧ b.parentRow = some 2 ∧ b.Settled w ∧ .call 3 .launchInstance 0 ∈ w.log ∧
    ¬ b.ParentDone w := by
  obtain ⟨w, hw⟩ : ∃ w, exec step (off oneTask) oneLaunched = some w := Option.isSome_iff_exists.mp rfl
  have hb : w.batches.get 1 =
      some ⟨⟨[7, 8], 1, "", "", "", "", "", 50, "oci-helper", false⟩, .children 0 [], some 2, [3, 4]⟩ :=
    read_of_exec (f := fun w => w.batches.get 1) hw rfl
  have hall : [3, 4].all w.ended = true := read_of_exec (f := fun w => [3, 4].all w.ended) hw rfl
  have hrun : w.runners.rows = [] := read_of_exec (f := fun w => w.runners.rows) hw rfl
  have hlog : w.log = [.call 3 .launchInstance 0, .saved 3 1] := read_of_exec (f := log) hw rfl
  have hnone : ∀ id row, oneTask.get id = some row → row.parentTaskId ≤ oneTask.seq := by
    intro id row hr
    have hmem := oneTask.mem_rows_iff.mpr hr
    rw [show oneTask.rows = [(1, _)] from rfl, List.mem_singleton] at hmem
    cases hmem
    decide
  exact ⟨w, _, run_of_exec hw, hb, rfl, settled_of_ended rfl rfl hrun hall, by simp [hlog],
    (parent_left_behind hnone).1 _ w 1 _ (run_of_exec hw) hb⟩

/-- Two tenants on an empty table: the loop claims the children one after the other. -/
def twoTenants : List Event :=
  [.boot, .reset, .submit { tenantIDs := [7, 8] }, .insert 1, .insert 1, .insert 1, .poll,
    .claim, .dispatch, .runner 1 .none, .runner 1 (.tenant none none), .runner 1 .none,
    .claim, .dispatch, .runner 2 .none, .runner 2 (.tenant none none), .runner 2 .none]

theorem twoTenants_left_behind : ∃ w b, Run step (Always World Event) (off .empty) twoTenants w ∧
    w.batches.get 1 = some b ∧ b.Settled w ∧ b.parentRow = some 1 ∧ ¬ b.ParentDone w := by
  obtain ⟨w, hw⟩ : ∃ w, exec step (off .empty) twoTenants = some w := Option.isSome_iff_exists.mp rfl
  have hb : w.batches.get 1 =
      some ⟨⟨[7, 8], 1, "", "", "", "", "", 50, "oci-helper", false⟩, .children 0 [], some 1, [2, 3]⟩ :=
    read_of_exec (f := fun w => w.batches.get 1) hw rfl
  have hall : [2, 3].all w.ended = true := read_of_exec (f := fun w => [2, 3].all w.ended) hw rfl
  have hrun : w.runners.rows = [] := read_of_exec (f := fun w => w.runners.rows) hw rfl
  have hst : (w.tasks.get 1).map Task.status = some .running :=
    read_of_exec (f := fun w => (w.tasks.get 1).map Task.status) hw rfl
  refine ⟨w, _, run_of_exec hw, hb, settled_of_ended rfl rfl hrun hall, rfl, ?_⟩
  rintro ⟨p, row, hp, hr, hc, -⟩
  obtain rfl : (1 : Int) = p := Option.some.inj hp
  rw [hr, Option.map_some, hc] at hst
  cases hst

end World

end OciHelper.Worker
