import OciHelper.Lib.StepRun
import OciHelper.Recurring.Handlers

/-!
# Passwords in replies

* `shownRows` : the schedules as a reply should show them; `Twins` : tables that show the same schedules;
* `step` : two sessions that get the same requests, with passwords of equal masks;
* `Hidden` : the condition under which the two replies to a request are equal.
-/

namespace OciHelper.Recurring.Passwords
open Db Api StepRun

variable (gcm : Gcm) (key : Option Key)

def withPassword (password : String) : Request → Request
  | .create (some body) => .create (some { body with rootPassword := password })
  | .update id (some body) => .update id (some { body with rootPassword := password })
  | .createInstance (some body) => .createInstance (some { body with rootPassword := password })
  | r => r

def shownRows (db : Tables) : List Shown :=
  db.createTasks.rows.map fun r => masked r.1 (scanCreateTask gcm key r.2)

/-- The stored passwords may differ where their masks are equal. -/
structure Twins (db db' : Tables) : Prop where
  tenants : db.tenants = db'.tenants
  seq : db.createTasks.seq = db'.createTasks.seq
  rows : shownRows gcm key db = shownRows gcm key db'

/-! ## Two sessions -/

/-- The tables, and the replies so far. -/
structure Session where
  db : Tables
  sent : List Reply := []

structure Pair where
  left : Session
  right : Session

/-- A request and the password of each session in it. -/
structure Event where
  request : Request
  left : String
  right : String
  masks : maskSecret left = maskSecret right
  chance : Chance := {}

def Session.serve (s : Session) (x : Chance) (r : Request) : Option Session :=
  (handle gcm key x s.db r).map fun out => { db := out.1, sent := s.sent ++ [out.2] }

def step : Step Pair Event := fun s e =>
  match s.left.serve gcm key e.chance (withPassword e.left e.request),
    s.right.serve gcm key e.chance (withPassword e.right e.request) with
  | some left, some right => some { left, right }
  | _, _ => none

/-- The passwords of an edit that is written agree in the mask marker, or the current one has their mask. -/
def EditHidden (x : Chance) (id : Int) (req : CreateTask) (p p' : String) (db : Tables) : Prop :=
  x.reads ∧ x.writes ∧ (db.tenants.get req.tenantID).isSome ∧ hasMarker p ≠ hasMarker p' →
    ∀ t, db.createTasks.get id = some t → maskSecret (decryptSecret gcm key t.rootPassword) = maskSecret p

/-- The passwords of a schedule that the instance form creates are equal. -/
def CreateHidden (x : Chance) (req : InstanceBody) (p p' : String) (db : Tables) : Prop :=
  x.writes ∧ (db.tenants.get req.tenantID).isSome → p = p'

def Hidden (s : Pair) (e : Event) : Prop :=
  match e.request with
  | .update id (some req) => 0 < id → EditHidden gcm key e.chance id req e.left e.right s.left.db
  | .createInstance (some req) => CreateHidden e.chance req e.left e.right s.left.db
  | _ => True

/-! ## The schedules after a statement -/

variable {gcm key}

theorem shownRows_insert (db : Tables) (t : CreateTask) :
    shownRows gcm key { db with createTasks := db.createTasks.insert t } =
      shownRows gcm key db ++ [masked db.createTasks.nextId (scanCreateTask gcm key t)] := by
  unfold shownRows KeyTable.insert
  rw [List.map_append]
  rfl

theorem shownRows_update (db : Tables) {id : Int} {f : CreateTask → CreateTask} {g : Shown → Shown}
    (hf : ∀ t, masked id (scanCreateTask gcm key (f t)) = g (masked id (scanCreateTask gcm key t))) :
    shownRows gcm key { db with createTasks := db.createTasks.update id f } =
      (shownRows gcm key db).map fun t => if t.id = id then g t else t := by
  unfold shownRows KeyTable.update KeyTable.mapRows
  dsimp only
  rw [List.map_map, List.map_map]
  refine List.map_congr_left fun r _ => ?_
  obtain ⟨k, t⟩ := r
  dsimp only [Function.comp]
  by_cases hk : k = id
  · subst hk
    rw [if_pos rfl, hf]
    exact (if_pos rfl).symm
  · rw [if_neg hk]
    exact (if_neg hk).symm

theorem shownRows_erase (db : Tables) (id : Int) :
    shownRows gcm key { db with createTasks := db.createTasks.erase id } =
      (shownRows gcm key db).filter fun t => t.id != id := by
  unfold shownRows KeyTable.erase
  rw [List.filter_map]
  rfl

theorem get_shownRows (db : Tables) (id : Int) :
    (db.createTasks.get id).map (fun t => masked id (scanCreateTask gcm key t)) =
      (shownRows gcm key db).find? fun t => t.id == id := by
  unfold shownRows KeyTable.get
  rw [List.find?_map, Option.map_map]
  refine Option.map_congr fun r hr => ?_
  have hid : r.1 = id := by simpa using List.find?_some hr
  rw [← hid]
  rfl

theorem listCreateTasksOf_shown (tenantID : Int) (db : Tables) :
    (listCreateTasksOf gcm key tenantID db).map (fun r => masked r.1 r.2) =
      (shownRows gcm key db).reverse.filter fun t => tenantID = 0 ∨ t.row.tenantID = tenantID := by
  unfold listCreateTasksOf listCreateTasks shownRows KeyTable.newest
  rw [← List.map_reverse, List.filter_map, List.filter_map, List.map_map]
  rfl

/-! ## Tables that show the same schedules -/

variable {db db' : Tables}

theorem Twins.get (h : Twins gcm key db db') (id : Int) :
    (db.createTasks.get id).map (fun t => masked id (scanCreateTask gcm key t)) =
      (db'.createTasks.get id).map (fun t => masked id (scanCreateTask gcm key t)) := by
  rw [get_shownRows, get_shownRows, h.rows]

theorem Twins.get_isSome (h : Twins gcm key db db') (id : Int) :
    (db.createTasks.get id).isSome = (db'.createTasks.get id).isSome := by
  have := congrArg Option.isSome (h.get id)
  simpa only [Option.isSome_map] using this

theorem Twins.update (h : Twins gcm key db db') {id : Int} {f f' : CreateTask → CreateTask} (g : Shown → Shown)
    (hf : ∀ t, masked id (scanCreateTask gcm key (f t)) = g (masked id (scanCreateTask gcm key t)))
    (hf' : ∀ t, masked id (scanCreateTask gcm key (f' t)) = g (masked id (scanCreateTask gcm key t))) :
    Twins gcm key { db with createTasks := db.createTasks.update id f }
      { db' with createTasks := db'.createTasks.update id f' } where
  tenants := h.tenants
  seq := h.seq
  rows := by rw [shownRows_update db hf, shownRows_update db' hf', h.rows]

theorem Twins.erase (h : Twins gcm key db db') (id : Int) :
    Twins gcm key { db with createTasks := db.createTasks.erase id }
      { db' with createTasks := db'.createTasks.erase id } where
  tenants := h.tenants
  seq := h.seq
  rows := by rw [shownRows_erase, shownRows_erase, h.rows]

/-- The same schedule is created under the same id, or in neither table. -/
theorem Twins.create (h : Twins gcm key db db') (x : Chance) (t : CreateTask) {p p' : String}
    (hm : maskSecret p = maskSecret p') :
    ¬ (x.writes ∧ (db.tenants.get t.tenantID).isSome) ∧
        createCreateTask gcm key x { t with rootPassword := p } db = none ∧
        createCreateTask gcm key x { t with rootPassword := p' } db' = none ∨
      (x.writes ∧ (db.tenants.get t.tenantID).isSome) ∧ ∃ d d' id,
        createCreateTask gcm key x { t with rootPassword := p } db = some (d, id) ∧
        createCreateTask gcm key x { t with rootPassword := p' } db' = some (d', id) ∧ Twins gcm key d d' := by
  have hid : db.createTasks.nextId = db'.createTasks.nextId := by
    unfold KeyTable.nextId
    rw [h.seq]
  have hexists : (db'.tenants.get t.tenantID).isSome = (db.tenants.get t.tenantID).isSome := by rw [h.tenants]
  unfold createCreateTask createCreateTaskTx insertOfTenant
  dsimp only
  rw [hexists, ← hid]
  by_cases hw : x.writes
  · by_cases ht : (db.tenants.get t.tenantID).isSome
    · refine Or.inr ⟨⟨hw, ht⟩, ?_⟩
      simp only [hw, ht, if_true]
      refine ⟨_, _, _, rfl, rfl, h.tenants, congrArg (· + 1) h.seq, ?_⟩
      rw [shownRows_insert, shownRows_insert, h.rows, hid]
      simp only [masked, Shown.of, scanCreateTask, decryptSecret_encryptSecret, hm]
    · exact Or.inl ⟨fun hc => ht hc.2, by simp [hw, ht]⟩
  · exact Or.inl ⟨fun hc => hw hc.1, by simp [hw]⟩

/-- The same edit is made of the row with an id, or in neither table. -/
theorem Twins.edit (h : Twins gcm key db db') (x : Chance) (id : Int) (t : CreateTask) (p p' : String) :
    ¬ (x.writes ∧ ((db.createTasks.get id).isSome → (db.tenants.get t.tenantID).isSome)) ∧
        updateCreateTask gcm key x id { t with rootPassword := p } db = none ∧
        updateCreateTask gcm key x id { t with rootPassword := p' } db' = none ∨
      (x.writes ∧ ((db.createTasks.get id).isSome → (db.tenants.get t.tenantID).isSome)) ∧ ∃ d d',
        updateCreateTask gcm key x id { t with rootPassword := p } db = some d ∧
        updateCreateTask gcm key x id { t with rootPassword := p' } db' = some d' ∧
        (maskSecret p = maskSecret p' → Twins gcm key d d') := by
  have hexists : (db'.tenants.get t.tenantID).isSome = (db.tenants.get t.tenantID).isSome := by rw [h.tenants]
  unfold updateCreateTask
  dsimp only
  rw [hexists, ← h.get_isSome id]
  by_cases hw : x.writes
  · by_cases ht : (db.createTasks.get id).isSome → (db.tenants.get t.tenantID).isSome
    · refine Or.inr ⟨⟨hw, ht⟩, ?_⟩
      have hok : ¬ ((db.createTasks.get id).isSome ∧ ¬ (db.tenants.get t.tenantID).isSome) := fun hc => hc.2 (ht hc.1)
      rw [if_pos hw, if_pos hw, if_neg hok, if_neg hok]
      refine ⟨_, _, rfl, rfl, fun hm => ?_⟩
      refine h.update (fun s => .of id { t with lastRunAt := s.row.lastRunAt } (maskSecret p)) ?_ ?_
      · intro old
        simp only [masked, Shown.of, scanCreateTask, decryptSecret_encryptSecret]
      · intro old
        simp only [masked, Shown.of, scanCreateTask, decryptSecret_encryptSecret, hm]
    · refine Or.inl ⟨fun hc => ht hc.2, ?_⟩
      rw [Classical.not_imp] at ht
      simp [hw, ht]
  · exact Or.inl ⟨fun hc => hw hc.1, by simp [hw]⟩

/-! ## Two replies to one request -/

theorem masked_eq_iff (id : Int) (t : CreateTask) (p p' : String) :
    masked id { t with rootPassword := p } = masked id { t with rootPassword := p' } ↔ maskSecret p = maskSecret p' := by
  simp [masked, Shown.of]

theorem plain_eq_iff (id : Int) (t : CreateTask) (p p' : String) :
    plain id { t with rootPassword := p } = plain id { t with rootPassword := p' } ↔ p = p' := by
  simp [plain, Shown.of, bytes_injective.eq_iff]

theorem eq_empty_iff {p p' : String} (hm : maskSecret p = maskSecret p') : p = "" ↔ p' = "" := by
  rw [← maskSecret_eq_nil_iff, hm, maskSecret_eq_nil_iff]

theorem createRecurringTask_twins (h : Twins gcm key db db') (x : Chance) (req : CreateBody) {p p' : String}
    (hm : maskSecret p = maskSecret p') :
    (createRecurringTask gcm key x (some { req with rootPassword := p }) db).2 =
        (createRecurringTask gcm key x (some { req with rootPassword := p' }) db').2 ∧
      Twins gcm key (createRecurringTask gcm key x (some { req with rootPassword := p }) db).1
        (createRecurringTask gcm key x (some { req with rootPassword := p' }) db').1 := by
  have htask : ∀ p, ({ req with rootPassword := p } : CreateBody).normalize.task =
      { req.normalize.task with rootPassword := p } := fun _ => rfl
  have hpass : ∀ p, ({ req with rootPassword := p } : CreateBody).normalize.rootPassword = p := fun _ => rfl
  unfold createRecurringTask
  dsimp only
  rw [hpass p, hpass p', htask p, htask p']
  split
  · exact ⟨rfl, h⟩
  · by_cases hp : p = ""
    · rw [if_pos hp, if_pos ((eq_empty_iff hm).mp hp)]
      exact ⟨rfl, h⟩
    · rw [if_neg hp, if_neg fun hp' => hp ((eq_empty_iff hm).mpr hp')]
      obtain ⟨-, hnone, hnone'⟩ | ⟨-, d, d', id, hsome, hsome', hd⟩ := h.create x req.normalize.task hm
      · rw [hnone, hnone']
        exact ⟨rfl, h⟩
      · rw [hsome, hsome']
        exact ⟨congrArg Reply.task ((masked_eq_iff ..).mpr hm), hd⟩

theorem maskSecret_keptPassword (x : Chance) (id : Int) (req : CreateTask) (db : Tables) :
    maskSecret (keptPassword gcm key x id req db) =
      if (req.rootPassword = "" ∨ hasMarker req.rootPassword) ∧ x.reads then
        ((db.createTasks.get id).map fun t => maskSecret (decryptSecret gcm key t.rootPassword)).getD
          (maskSecret req.rootPassword)
      else maskSecret req.rootPassword := by
  unfold keptPassword getCreateTask
  by_cases hkeep : req.rootPassword = "" ∨ hasMarker req.rootPassword
  · by_cases hr : x.reads
    · rw [if_pos (And.intro hkeep hr), if_pos hkeep]
      simp only [hr, if_true]
      cases db.createTasks.get id <;> rfl
    · rw [if_neg fun hc : _ ∧ _ => hr hc.2, if_pos hkeep]
      simp only [hr, Bool.false_eq_true, if_false]
  · rw [if_neg fun hc : _ ∧ _ => hkeep hc.1, if_neg hkeep]

theorem Twins.get_mask (h : Twins gcm key db db') (id : Int) :
    ((db.createTasks.get id).map fun t => maskSecret (decryptSecret gcm key t.rootPassword)) =
      (db'.createTasks.get id).map fun t => maskSecret (decryptSecret gcm key t.rootPassword) := by
  have := congrArg (Option.map Shown.rootPassword) (h.get id)
  rw [Option.map_map, Option.map_map] at this
  exact this

/-- Two kept passwords have one mask if both or neither of the given ones keep, or the current one has their mask. -/
theorem keptPassword_iff (h : Twins gcm key db db') (x : Chance) (id : Int) (req : CreateTask) {p p' : String}
    (hm : maskSecret p = maskSecret p') :
    maskSecret (keptPassword gcm key x id { req with rootPassword := p } db) =
        maskSecret (keptPassword gcm key x id { req with rootPassword := p' } db') ↔
      (x.reads ∧ hasMarker p ≠ hasMarker p' →
        ∀ t, db.createTasks.get id = some t → maskSecret (decryptSecret gcm key t.rootPassword) = maskSecret p) := by
  have hempty := eq_empty_iff hm
  rw [maskSecret_keptPassword, maskSecret_keptPassword]
  dsimp only
  rw [← h.get_mask id, ← hm]
  have hgetD : ((db.createTasks.get id).map fun t => maskSecret (decryptSecret gcm key t.rootPassword)).getD
      (maskSecret p) = maskSecret p ↔
        ∀ t, db.createTasks.get id = some t → maskSecret (decryptSecret gcm key t.rootPassword) = maskSecret p := by
    cases db.createTasks.get id <;> simp
  by_cases hr : x.reads
  · by_cases hsame : hasMarker p = hasMarker p'
    · simp [hempty, hsame]
    · have hp : p ≠ "" := by
        rintro rfl
        rw [hempty.mp rfl] at hsame
        exact hsame rfl
      have hp' : p' ≠ "" := fun e => hp (hempty.mpr e)
      rw [← hgetD]
      cases hmark : hasMarker p with
      | true =>
        cases hmark' : hasMarker p' with
        | true => exact absurd (hmark.trans hmark'.symm) hsame
        | false => simp [hp', hr]
      | false =>
        cases hmark' : hasMarker p' with
        | true => simp [hp, hr, eq_comm]
        | false => exact absurd (hmark.trans hmark'.symm) hsame
  · simp [hr]

theorem updateRecurringTask_twins (h : Twins gcm key db db') (x : Chance) (id : Int) (req : CreateTask) {p p' : String}
    (hm : maskSecret p = maskSecret p') :
    ((updateRecurringTask gcm key x id (some { req with rootPassword := p }) db).2 =
        (updateRecurringTask gcm key x id (some { req with rootPassword := p' }) db').2 ↔
      EditHidden gcm key x id req p p' db) ∧
      (EditHidden gcm key x id req p p' db →
        Twins gcm key (updateRecurringTask gcm key x id (some { req with rootPassword := p }) db).1
          (updateRecurringTask gcm key x id (some { req with rootPassword := p' }) db').1) := by
  have hkept := keptPassword_iff h x id req hm
  unfold updateRecurringTask
  dsimp only
  generalize keptPassword gcm key x id { req with rootPassword := p } db = q at hkept ⊢
  generalize keptPassword gcm key x id { req with rootPassword := p' } db' = q' at hkept ⊢
  obtain ⟨hfail, hnone, hnone'⟩ | ⟨hdone, d, d', hsome, hsome', hd⟩ := h.edit x id req q q'
  · rw [hnone, hnone']
    refine ⟨iff_of_true rfl ?_, fun _ => h⟩
    rintro ⟨-, hw, ht, -⟩
    exact absurd ⟨hw, fun _ => ht⟩ hfail
  · have hcond : EditHidden gcm key x id req p p' db ↔ maskSecret q = maskSecret q' := by
      rw [hkept]
      constructor
      · intro hc ⟨hr, hmark⟩ t hget
        exact hc ⟨hr, hdone.1, hdone.2 (by rw [hget]; rfl), hmark⟩ t hget
      · intro hc ⟨hr, _, _, hmark⟩
        exact hc ⟨hr, hmark⟩
    rw [hsome, hsome', hcond]
    refine ⟨?_, hd⟩
    rw [Reply.task.injEq, masked_eq_iff]

theorem createInstance_twins (h : Twins gcm key db db') (x : Chance) (req : InstanceBody) {p p' : String}
    (hm : maskSecret p = maskSecret p') {out out' : Tables × Reply}
    (hout : createInstance gcm key x (some { req with rootPassword := p }) db = some out)
    (hout' : createInstance gcm key x (some { req with rootPassword := p' }) db' = some out') :
    (out.2 = out'.2 ↔ CreateHidden x req p p' db) ∧ Twins gcm key out.1 out'.1 := by
  have htask : ∀ p, ({ req with rootPassword := p } : InstanceBody).task = { req.task with rootPassword := p } :=
    fun _ => rfl
  unfold createInstance at hout hout'
  dsimp only at hout hout'
  rw [htask p] at hout
  rw [htask p'] at hout'
  split at hout
  · next hinterval =>
    rw [if_pos hinterval] at hout'
    by_cases hp : p = ""
    · have hp' := (eq_empty_iff hm).mp hp
      rw [if_pos hp] at hout
      rw [if_pos hp'] at hout'
      cases hout
      cases hout'
      exact ⟨iff_of_true rfl fun _ => hp.trans hp'.symm, h⟩
    · rw [if_neg hp] at hout
      rw [if_neg fun hp' => hp ((eq_empty_iff hm).mpr hp')] at hout'
      obtain ⟨hfail, hnone, hnone'⟩ | ⟨hdone, d, d', id, hsome, hsome', hd⟩ := h.create x req.task hm
      · rw [hnone] at hout
        rw [hnone'] at hout'
        cases hout
        cases hout'
        exact ⟨iff_of_true rfl fun hc => absurd hc hfail, h⟩
      · rw [hsome] at hout
        rw [hsome'] at hout'
        cases hout
        cases hout'
        refine ⟨?_, hd⟩
        rw [Reply.task.injEq, plain_eq_iff]
        exact ⟨fun he _ => he, fun he => he hdone⟩
  · cases hout

theorem listRecurringTasks_twins (h : Twins gcm key db db') (x : Chance) (tenantID : Int) :
    listRecurringTasks gcm key x tenantID db = listRecurringTasks gcm key x tenantID db' := by
  unfold listRecurringTasks
  rw [listCreateTasksOf_shown, listCreateTasksOf_shown, h.rows]

theorem paused_twins (h : Twins gcm key db db') (x : Chance) (id : Int) (paused : Bool) (message : String) :
    (act message (setCreateTaskPaused x id paused db) db).2 = (act message (setCreateTaskPaused x id paused db') db').2 ∧
      Twins gcm key (act message (setCreateTaskPaused x id paused db) db).1
        (act message (setCreateTaskPaused x id paused db') db').1 := by
  unfold setCreateTaskPaused
  split
  · refine ⟨rfl, h.update (fun s => { s with row := { s.row with paused := paused } }) ?_ ?_⟩
    · exact fun _ => rfl
    · exact fun _ => rfl
  · exact ⟨rfl, h⟩

theorem delete_twins (h : Twins gcm key db db') (x : Chance) (id : Int) (message : String) :
    (act message (deleteCreateTask x id db) db).2 = (act message (deleteCreateTask x id db') db').2 ∧
      Twins gcm key (act message (deleteCreateTask x id db) db).1 (act message (deleteCreateTask x id db') db').1 := by
  unfold deleteCreateTask
  split
  · exact ⟨rfl, h.erase id⟩
  · exact ⟨rfl, h⟩

theorem recurringTaskByID_neg {id : Int} (hid : ¬ 0 < id) (handler : Tables → Tables × Reply) (db : Tables) :
    recurringTaskByID id handler db = (db, .error "invalid recurring task id") :=
  if_pos (by omega)

theorem recurringTaskByID_pos {id : Int} (hid : 0 < id) (handler : Tables → Tables × Reply) (db : Tables) :
    recurringTaskByID id handler db = handler db :=
  if_neg (by omega)

/-- A handler under an id, in two tables that agree. -/
theorem recurringTaskByID_twins (h : Twins gcm key db db') (id : Int) {f f' : Tables → Tables × Reply}
    (hf : (f db).2 = (f' db').2 ∧ Twins gcm key (f db).1 (f' db').1) :
    (recurringTaskByID id f db).2 = (recurringTaskByID id f' db').2 ∧
      Twins gcm key (recurringTaskByID id f db).1 (recurringTaskByID id f' db').1 := by
  by_cases hid : 0 < id
  · rw [recurringTaskByID_pos hid, recurringTaskByID_pos hid]
    exact hf
  · rw [recurringTaskByID_neg hid, recurringTaskByID_neg hid]
    exact ⟨rfl, h⟩

theorem handle_twins {s : Pair} (h : Twins gcm key s.left.db s.right.db) (e : Event) {out out' : Tables × Reply}
    (hout : handle gcm key e.chance s.left.db (withPassword e.left e.request) = some out)
    (hout' : handle gcm key e.chance s.right.db (withPassword e.right e.request) = some out') :
    (out.2 = out'.2 ↔ Hidden gcm key s e) ∧ (Hidden gcm key s e → Twins gcm key out.1 out'.1) := by
  obtain ⟨r, p, p', hm, x⟩ := e
  -- every handler but two answers alike
  have halike : out.2 = out'.2 ∧ Twins gcm key out.1 out'.1 → Hidden gcm key s ⟨r, p, p', hm, x⟩ →
      (out.2 = out'.2 ↔ Hidden gcm key s ⟨r, p, p', hm, x⟩) ∧
        (Hidden gcm key s ⟨r, p, p', hm, x⟩ → Twins gcm key out.1 out'.1) :=
    fun ha hh => ⟨iff_of_true ha.1 hh, fun _ => ha.2⟩
  cases r with
  | list tenantID =>
    cases hout
    cases hout'
    exact halike ⟨listRecurringTasks_twins h x tenantID, h⟩ trivial
  | create body =>
    cases body with
    | none =>
      cases hout
      cases hout'
      exact halike ⟨rfl, h⟩ trivial
    | some req =>
      cases hout
      cases hout'
      exact halike (createRecurringTask_twins h x req hm) trivial
  | update id body =>
    cases body with
    | none =>
      cases hout
      cases hout'
      exact halike (recurringTaskByID_twins h id ⟨rfl, h⟩) trivial
    | some req =>
      cases hout
      cases hout'
      unfold Hidden
      dsimp only
      by_cases hid : 0 < id
      · rw [recurringTaskByID_pos hid, recurringTaskByID_pos hid]
        obtain ⟨hiff, hkeep⟩ := updateRecurringTask_twins h x id req hm
        exact ⟨hiff.trans ⟨fun hc _ => hc, fun hc => hc hid⟩, fun hc => hkeep (hc hid)⟩
      · rw [recurringTaskByID_neg hid, recurringTaskByID_neg hid]
        exact ⟨iff_of_true rfl fun hpos => absurd hpos hid, fun _ => h⟩
  | pause id =>
    cases hout
    cases hout'
    exact halike (recurringTaskByID_twins h id (paused_twins h x id true "pause")) trivial
  | resume id =>
    cases hout
    cases hout'
    exact halike (recurringTaskByID_twins h id (paused_twins h x id false "resume")) trivial
  | stop id =>
    cases hout
    cases hout'
    exact halike (recurringTaskByID_twins h id (delete_twins h x id "stop")) trivial
  | delete id =>
    cases hout
    cases hout'
    exact halike (recurringTaskByID_twins h id (delete_twins h x id "delete")) trivial
  | createInstance body =>
    cases body with
    | none =>
      cases hout
      cases hout'
      exact halike ⟨rfl, h⟩ trivial
    | some req =>
      obtain ⟨hiff, hkeep⟩ := createInstance_twins h x req hm hout hout'
      exact ⟨hiff, fun _ => hkeep⟩

/-! ## Runs -/

theorem step_spec {s s' : Pair} {e : Event} (hs : step gcm key s e = some s') : ∃ out out',
    handle gcm key e.chance s.left.db (withPassword e.left e.request) = some out ∧
      handle gcm key e.chance s.right.db (withPassword e.right e.request) = some out' ∧
      s'.left = ⟨out.1, s.left.sent ++ [out.2]⟩ ∧ s'.right = ⟨out'.1, s.right.sent ++ [out'.2]⟩ := by
  unfold step Session.serve at hs
  cases hout : handle gcm key e.chance s.left.db (withPassword e.left e.request) with
  | none =>
    rw [hout] at hs
    cases hs
  | some out =>
    cases hout' : handle gcm key e.chance s.right.db (withPassword e.right e.request) with
    | none =>
      rw [hout, hout'] at hs
      cases hs
    | some out' =>
      rw [hout, hout'] at hs
      cases hs
      exact ⟨out, out', rfl, rfl, rfl, rfl⟩

/-- **Passwords show only through their masks**: two sessions that differ in passwords with equal masks get equal
replies throughout if and only if every edit and every schedule from the instance form hides its password. -/
theorem replies_equal_iff {s t : Pair} {es : List Event} (h : Twins gcm key s.left.db s.right.db)
    (hsent : s.left.sent = s.right.sent) (hexec : exec (step gcm key) s es = some t) :
    Throughout (step gcm key) (fun s => s.left.sent = s.right.sent) s es ↔ Run (step gcm key) (Hidden gcm key) s es t := by
  refine throughout_iff_of_invariant (J := fun s => Twins gcm key s.left.db s.right.db) ?_ ?_ hsent h hexec
  · intro s e s' hi hj hs
    obtain ⟨out, out', hout, hout', hl, hr⟩ := step_spec hs
    rw [hl, hr, hi, ← (handle_twins hj e hout hout').1]
    simp
  · intro s e s' _ hj hc hs
    obtain ⟨out, out', hout, hout', hl, hr⟩ := step_spec hs
    rw [hl, hr]
    exact (handle_twins hj e hout hout').2 hc

theorem Twins.refl (db : Tables) : Twins gcm key db db := ⟨rfl, rfl, rfl⟩

/-- Two short passwords in one request. -/
def asked (r : Request) : Event := { request := r, left := "secret", right := "hunter", masks := by decide }

/-- A schedule is created, and all are listed. -/
theorem replies_equal_created :
    Throughout (step .keyed none) (fun s => s.left.sent = s.right.sent) ⟨{ db := exampleDb }, { db := exampleDb }⟩
      [asked (.create (some { tenantID := 1 })), asked (.list 0)] :=
  (replies_equal_iff (Twins.refl exampleDb) rfl rfl).mpr (.cons trivial rfl (.cons trivial rfl (.nil _)))

/-- The reply to the instance form holds the password itself. -/
theorem instance_form_shows : Twins .keyed none exampleDb exampleDb ∧ ∃ t,
    exec (step .keyed none) ⟨{ db := exampleDb }, { db := exampleDb }⟩
      [asked (.createInstance (some { tenantID := 1, intervalSeconds := 60 }))] = some t ∧ t.left.sent ≠ t.right.sent :=
  ⟨Twins.refl exampleDb, _, rfl, by decide⟩

end OciHelper.Recurring.Passwords
