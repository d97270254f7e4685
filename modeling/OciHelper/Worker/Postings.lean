import OciHelper.Worker.Resume

/-!
# Batch requests whose insertions fail

* `Posting` : one request of `handleBatchCreate`, with what it inserted and its reply, among the steps of the others;
* `Posting.step` : the next insertion, which fails at one position, the reply, or a step of the worker or another
  request;
* `Posting.Atomic` : what the reply says about the table;
* `batch_create_atomic_iff` : the replies say so just when the request is refused or fails before its first child.
-/

namespace OciHelper.Worker
open OciHelper.Db StepRun

/-- What `handleBatchCreate` answers; an error with the words before its text. -/
inductive Reply
  | error (context : String)
  | ok (taskIDs : List Int) (parentTaskID : Int)

/-- A request in flight. `taskIDs` are the ids in the records after their insertion, `inserted` the rows that were
stored, with their ids. -/
structure Posting where
  world : World
  batch : Batch
  taskIDs : List Int := []
  inserted : List (Int × Task) := []
  reply : Option Reply := none

/-- A step of the request, or of anyone else. -/
inductive Act
  | insert
  | answer
  | other (e : Event)

namespace Posting

/-- The checks of the handler. -/
def post (w : World) (req : BatchRequest) : Posting :=
  match req.normalize with
  | .error text => { world := w, batch := .start req, reply := some (.error text) }
  | .ok req => { world := w, batch := .start req }

/-- The words before the error of the next insertion. -/
def context (b : Batch) : String :=
  match b.stage with
  | .parent => "create parent task: "
  | .children .. => "create task: "

/-- The id that the handler collects after the insertion. -/
def taskID (tasks : Tasks) (b : Batch) : List Int :=
  match b.stage with
  | .children parentTaskID (tid :: _) => [(createTask tasks (b.req.childTask parentTaskID tid)).2.id]
  | _ => []

/-- The next insertion; the one after `fails` others fails. -/
def insert (fails : Option Nat) (s : Posting) : Option Posting :=
  match handleBatchCreate s.world.tasks s.batch with
  | none => none
  | some (tasks, batch) =>
    if fails = some s.inserted.length then some { s with reply := some (.error (context s.batch)) }
    else
      let id := s.world.tasks.nextId
      some
        { s with
          world := { s.world with tasks }
          batch
          taskIDs := s.taskIDs ++ taskID s.world.tasks s.batch
          inserted := s.inserted ++ (tasks.get id).toList.map fun t => (id, t) }

/-- The reply after the last insertion. -/
def answer (s : Posting) : Option Posting :=
  match s.batch.stage with
  | .children parentTaskID [] => some { s with reply := some (.ok s.taskIDs parentTaskID) }
  | _ => none

/-- An exit of the process cuts off a request without a reply. -/
def step (fails : Option Nat) : Step Posting Act := fun s a =>
  match a, s.reply with
  | .insert, none => s.insert fails
  | .answer, none => s.answer
  | .other .exit, none => none
  | .other e, _ => (s.world.step e).map fun w => { s with world := w }
  | _, some _ => none

/-- The worker launches instances for the task, now or after it claimed it. -/
def Launches (t : Task) : Prop := t.type = .batchCreate ∧ (t.status = .pending ∨ t.status = .running)

/-- After an error no task of the request is left that launches instances; else there is a pending child for each
tenant, which has the id of the parent that was stored, and the ids of the reply are those of the rows. -/
def Atomic (req : BatchRequest) (s : Posting) : Reply → Prop
  | .error _ => ∀ r ∈ s.inserted, ∀ t, s.world.tasks.get r.1 = some t → ¬ Launches t
  | .ok taskIDs parentTaskID => ∃ (parent : Option (Int × Task)) (children : List (Int × Task)),
      s.inserted = parent.toList ++ children ∧ (parent.isSome ↔ req.isMulti) ∧
      parentTaskID = (parent.map Prod.fst).getD 0 ∧ taskIDs = children.map Prod.fst ∧
      List.Forall₂ (fun tid r => r.2.tenantId = tid ∧ r.2.type = .batchCreate ∧ r.2.status = .pending ∧
        r.2.parentTaskId = parentTaskID) req.tenantIDs children

/-! ## Steps -/

variable {fails : Option Nat} {s s' : Posting} {req : BatchRequest}

theorem step_cases {a : Act} (h : step fails s a = some s') :
    (a = .insert ∧ s.reply = none ∧ s.insert fails = some s') ∨
      (a = .answer ∧ s.reply = none ∧ s.answer = some s') ∨
      ∃ e w, a = .other e ∧ World.step s.world e = some w ∧ s' = { s with world := w } := by
  unfold step at h
  split at h
  · next hr => exact .inl ⟨rfl, hr, h⟩
  · next hr => exact .inr (.inl ⟨rfl, hr, h⟩)
  · cases h
  · next e _ =>
    obtain ⟨w, hw, rfl⟩ := Option.map_eq_some_iff.mp h
    exact .inr (.inr ⟨e, w, rfl, hw, rfl⟩)
  · cases h

theorem step_insert (h : s.reply = none) : step fails s .insert = s.insert fails := by
  unfold step
  rw [h]

theorem step_answer (h : s.reply = none) : step fails s .answer = s.answer := by
  unfold step
  rw [h]

/-- What is stored by an insertion that does not fail, and what the handler has then. -/
theorem insert_parent (hstage : s.batch.stage = .parent) (hf : fails ≠ some s.inserted.length) :
    ∃ t, t.type = .batchCreateMulti ∧ s.insert fails = some
      { s with
        world := { s.world with tasks := s.world.tasks.insert t }
        batch :=
          { s.batch with stage := .children 0 s.batch.req.tenantIDs, parentRow := some s.world.tasks.nextId }
        inserted := s.inserted ++ [(s.world.tasks.nextId, t)] } := by
  refine ⟨{ type := .batchCreateMulti, status := .running, payload := s.batch.req.parentPayload }, rfl, ?_⟩
  unfold insert handleBatchCreate
  rw [hstage]
  simp only [if_neg hf, createTask, KeyTable.get_insert_self, taskID, hstage, List.append_nil]
  rfl

theorem insert_child {parentTaskID tid : Int} {rest : List Int}
    (hstage : s.batch.stage = .children parentTaskID (tid :: rest)) (hf : fails ≠ some s.inserted.length) :
    ∃ t, Launches t ∧ s.insert fails = some
      { s with
        world := { s.world with tasks := s.world.tasks.insert t }
        batch :=
          { s.batch with
            stage := .children parentTaskID rest, childRows := s.batch.childRows ++ [s.world.tasks.nextId] }
        taskIDs := s.taskIDs ++ [0]
        inserted := s.inserted ++ [(s.world.tasks.nextId, t)] } := by
  refine ⟨{
      tenantId := tid
      parentTaskId := parentTaskID
      type := .batchCreate
      status := .pending
      payload := (s.batch.req.childPayload parentTaskID tid).marshal }, ⟨rfl, .inl rfl⟩, ?_⟩
  unfold insert handleBatchCreate
  rw [hstage]
  simp only [if_neg hf, createTask, KeyTable.get_insert_self, taskID, hstage]
  rfl

theorem insert_fails {n : Nat} (hlen : s.inserted.length = n) (hf : fails = some n)
    (hnext : (handleBatchCreate s.world.tasks s.batch).isSome) :
    s.insert fails = some { s with reply := some (.error (context s.batch)) } := by
  obtain ⟨r, hr⟩ := Option.isSome_iff_exists.mp hnext
  unfold insert
  rw [hr]
  exact if_pos (hlen ▸ hf)

/-! ## Before the first child -/

/-- At most a parent was inserted, and no reply is a success. -/
structure Early (n : Nat) (s : Posting) : Prop where
  inserted : s.inserted.length ≤ n
  stage : s.batch.stage = .parent ∧ s.inserted = [] ∧ n ≤ 1 ∨
    ∃ parentTaskID tid rest, s.batch.stage = .children parentTaskID (tid :: rest) ∧ n ≤ s.inserted.length
  parents : ∀ r ∈ s.inserted, ∃ t, s.world.tasks.get r.1 = some t ∧ t.type = .batchCreateMulti
  reply : ∀ r, s.reply = some r → ∃ text, r = .error text
  tenants : s.batch.req.tenantIDs ≠ []

theorem Early.step {n : Nat} {a : Act} (h : Early n s) (hf : fails = some n) (hs : step fails s a = some s') :
    Early n s' := by
  obtain ⟨rfl, -, hs⟩ | ⟨rfl, -, hs⟩ | ⟨e, w, rfl, hw, rfl⟩ := step_cases hs
  · by_cases hlen : s.inserted.length = n
    · -- The insertion fails.
      have hnext : (handleBatchCreate s.world.tasks s.batch).isSome := by
        obtain ⟨hstage, -⟩ | ⟨p, tid, rest, hstage, -⟩ := h.stage <;> rw [handleBatchCreate, hstage] <;> rfl
      rw [insert_fails hlen hf hnext] at hs
      cases hs
      exact ⟨h.inserted, h.stage, h.parents, fun r hr => ⟨_, (Option.some.inj hr).symm⟩, h.tenants⟩
    · have hle := h.inserted
      have hne : fails ≠ some s.inserted.length := fun he => hlen (Option.some.inj (he.symm.trans hf))
      obtain ⟨hstage, hnil, hn⟩ | ⟨p, tid, rest, hstage, hn⟩ := h.stage
      · obtain ⟨t, ht, hins⟩ := insert_parent hstage hne
        rw [hins, hnil] at hs
        cases hs
        obtain ⟨tid, rest, htenants⟩ := List.exists_cons_of_ne_nil h.tenants
        refine ⟨?_, .inr ⟨0, tid, rest, by rw [htenants], by simpa using hn⟩, ?_, h.reply, h.tenants⟩
        · rw [hnil] at hle hlen
          simp at hle hlen ⊢
          omega
        · intro r hr
          rw [List.nil_append, List.mem_singleton] at hr
          subst hr
          exact ⟨t, s.world.tasks.get_insert_self t, ht⟩
      · exact absurd (Nat.le_antisymm hle hn) hlen
  · obtain ⟨hstage, -⟩ | ⟨p, tid, rest, hstage, -⟩ := h.stage <;> rw [answer, hstage] at hs <;> cases hs
  · refine ⟨h.inserted, h.stage, fun r hr => ?_, h.reply, h.tenants⟩
    obtain ⟨t, hget, ht⟩ := h.parents r hr
    obtain ⟨t', hget', ht'⟩ := (World.moves hw).type hget
    exact ⟨t', hget', ht'.trans ht⟩

theorem Early.atomic {n : Nat} {r : Reply} (h : Early n s) (hr : s.reply = some r) : s.Atomic req r := by
  obtain ⟨text, rfl⟩ := h.reply r hr
  intro p hp t hget hl
  obtain ⟨t', hget', ht'⟩ := h.parents p hp
  rw [hget] at hget'
  cases hget'
  rw [hl.1] at ht'
  cases ht'

/-! ## After the first child -/

/-- A child that launches instances was inserted, and the handler has 0 for its id. -/
structure Late (s : Posting) : Prop where
  reply : s.reply = none
  child : ∃ r ∈ s.inserted, ∃ t, s.world.tasks.get r.1 = some t ∧ Launches t
  ids : ∀ r ∈ s.inserted, 0 < r.1
  zero : 0 ∈ s.taskIDs

theorem nextId_pos (tasks : Tasks) : 0 < tasks.nextId := by
  unfold KeyTable.nextId
  omega

theorem late_insert {parentTaskID tid : Int} {rest : List Int} (hr : s.reply = none)
    (hstage : s.batch.stage = .children parentTaskID (tid :: rest)) (hf : fails ≠ some s.inserted.length)
    (hids : ∀ r ∈ s.inserted, 0 < r.1) :
    ∃ s', step fails s .insert = some s' ∧ s'.batch.stage = .children parentTaskID rest ∧ Late s' := by
  obtain ⟨t, ht, hins⟩ := insert_child hstage hf
  refine ⟨_, (step_insert hr).trans hins, rfl, hr, ?_, ?_, ?_⟩
  · exact ⟨_, List.mem_append_right _ List.mem_cons_self, t, s.world.tasks.get_insert_self t, ht⟩
  · intro r hmem
    rw [List.mem_append, List.mem_singleton] at hmem
    rcases hmem with hmem | rfl
    · exact hids r hmem
    · exact nextId_pos _
  · exact List.mem_append_right _ List.mem_cons_self

theorem exists_insert_parent (hr : s.reply = none) (hstage : s.batch.stage = .parent) (hnil : s.inserted = [])
    (hf : fails ≠ some 0) : ∃ s', step fails s .insert = some s' ∧ s'.reply = none ∧
      s'.batch.stage = .children 0 s.batch.req.tenantIDs ∧ s'.inserted.length = 1 ∧ ∀ r ∈ s'.inserted, 0 < r.1 := by
  have hlen : s.inserted.length = 0 := List.length_eq_zero_iff.mpr hnil
  obtain ⟨t, -, hins⟩ := insert_parent hstage (hlen ▸ hf)
  refine ⟨_, (step_insert hr).trans hins, hr, rfl, ?_, fun r hmem => ?_⟩
  · rw [List.length_append, hlen]
    rfl
  · rw [hnil, List.nil_append, List.mem_singleton] at hmem
    rw [hmem]
    exact nextId_pos _

/-- The request alone gets to a reply that is not so. -/
theorem exists_not_atomic {parentTaskID : Int} : ∀ (rest : List Int) {s : Posting},
    s.batch.stage = .children parentTaskID rest → Late s →
    ∃ as s' r, exec (step fails) s as = some s' ∧ s'.reply = some r ∧ ¬ s'.Atomic req r := by
  intro rest
  induction rest with
  | nil =>
    intro s hstage h
    have hs : step fails s .answer = some { s with reply := some (.ok s.taskIDs parentTaskID) } := by
      rw [step_answer h.reply, answer, hstage]
    refine ⟨[.answer], _, _, by rw [exec, hs]; rfl, rfl, ?_⟩
    rintro ⟨parent, children, hins, -, -, hids, -⟩
    -- A stored child would have the id 0.
    have hzero := h.zero
    rw [hids] at hzero
    obtain ⟨r, hr, h0⟩ := List.mem_map.mp hzero
    have hpos := h.ids r (hins ▸ List.mem_append_right _ hr)
    omega
  | cons tid rest ih =>
    intro s hstage h
    by_cases hf : fails = some s.inserted.length
    · have hnext : (handleBatchCreate s.world.tasks s.batch).isSome := by
        rw [handleBatchCreate, hstage]
        rfl
      have hs : step fails s .insert = some { s with reply := some (.error (context s.batch)) } :=
        (step_insert h.reply).trans (insert_fails rfl hf hnext)
      refine ⟨[.insert], _, _, by rw [exec, hs]; rfl, rfl, fun hatomic => ?_⟩
      obtain ⟨r, hr, t, hget, ht⟩ := h.child
      exact hatomic r hr t hget ht
    · obtain ⟨s', hs, hstage', hlate⟩ := late_insert h.reply hstage hf h.ids
      obtain ⟨as, s'', r, hexec, hr, hnot⟩ := ih hstage' hlate
      exact ⟨.insert :: as, s'', r, by rw [exec, hs]; exact hexec, hr, hnot⟩

/-! ## The request as it comes -/

theorem exists_normalize (h : req.tenantIDs ≠ []) : ∃ req', req.normalize = .ok req' ∧
    req'.tenantIDs = req.tenantIDs ∧ req'.isMulti = req.isMulti := by
  unfold BatchRequest.normalize
  rw [if_neg (mt List.isEmpty_iff.mp h)]
  exact ⟨_, rfl, rfl, rfl⟩

theorem exists_post (w : World) (h : req.tenantIDs ≠ []) : ∃ req' : BatchRequest,
    post w req = { world := w, batch := .start req' } ∧ req'.tenantIDs = req.tenantIDs ∧
      req'.isMulti = req.isMulti := by
  obtain ⟨req', hreq, htenants, hmulti⟩ := exists_normalize h
  refine ⟨req', ?_, htenants, hmulti⟩
  unfold post
  rw [hreq]

theorem post_refused (w : World) (h : req.tenantIDs = []) :
    (post w req).inserted = [] ∧ ∃ text, (post w req).reply = some (.error text) := by
  simp [post, BatchRequest.normalize, h]

/-- A refused request has nothing to insert. -/
theorem atomic_of_refused {w : World} {as : List Act} {r : Reply} (h : req.tenantIDs = [])
    (hexec : exec (step fails) (post w req) as = some s) (hr : s.reply = some r) : s.Atomic req r := by
  have hinv : s.inserted = [] ∧ ∃ text, s.reply = some (.error text) := by
    refine (run_of_exec hexec).invariant (I := fun s => s.inserted = [] ∧ ∃ text, s.reply = some (.error text))
      (fun s a s' _ hi hs => ?_) (post_refused w h)
    obtain ⟨hnil, text, hreply⟩ := hi
    obtain ⟨-, hnone, -⟩ | ⟨-, hnone, -⟩ | ⟨e, w, -, -, rfl⟩ := step_cases hs
    · rw [hreply] at hnone
      cases hnone
    · rw [hreply] at hnone
      cases hnone
    · exact ⟨hnil, text, hreply⟩
  obtain ⟨hnil, text, hreply⟩ := hinv
  rw [hreply] at hr
  cases hr
  intro p hp
  rw [hnil] at hp
  cases hp

theorem atomic_of_early {w : World} {as : List Act} {r : Reply} {n : Nat} (h : req.tenantIDs ≠ [])
    (hn : n ≤ req.isMulti.toNat) (hexec : exec (step (some n)) (post w req) as = some s) (hr : s.reply = some r) :
    s.Atomic req r := by
  obtain ⟨req', hpost, htenants, hmulti⟩ := exists_post w h
  have hearly : Early n (post w req) := by
    rw [hpost]
    refine ⟨Nat.zero_le n, ?_, fun r hr => absurd hr List.not_mem_nil, fun r hr => (nomatch hr), htenants ▸ h⟩
    cases hm : req.isMulti with
    | true =>
      rw [hm] at hn hmulti
      exact .inl ⟨by rw [Batch.start, hmulti]; rfl, rfl, hn⟩
    | false =>
      obtain ⟨tid, rest, hcons⟩ := List.exists_cons_of_ne_nil (htenants ▸ h)
      rw [hm] at hn hmulti
      exact .inr ⟨0, tid, rest, by rw [Batch.start, hmulti, hcons]; rfl, hn⟩
  exact ((run_of_exec hexec).invariant (fun _ _ _ _ hi hs => hi.step rfl hs) hearly).atomic hr

theorem exists_not_atomic_post (w : World) (h : req.tenantIDs ≠ [])
    (hf : ∀ n, fails = some n → req.isMulti.toNat < n) :
    ∃ as s r, exec (step fails) (post w req) as = some s ∧ s.reply = some r ∧ ¬ s.Atomic req r := by
  obtain ⟨req', hpost, htenants, hmulti⟩ := exists_post w h
  obtain ⟨tid, rest, hcons⟩ := List.exists_cons_of_ne_nil (htenants ▸ h)
  have hne : ∀ n ≤ req.isMulti.toNat, fails ≠ some n := fun n hn he => by
    have := hf n he
    omega
  rw [hpost]
  cases hm : req.isMulti with
  | false =>
    have hstage : (Batch.start req').stage = .children 0 (tid :: rest) := by
      rw [Batch.start, hmulti, hm, hcons]
      rfl
    obtain ⟨s₁, hs₁, hstage₁, hlate⟩ := late_insert (s := { world := w, batch := .start req' }) rfl hstage
      (hne 0 (Nat.zero_le _)) (fun r hr => absurd hr List.not_mem_nil)
    obtain ⟨as, s, r, hexec, hr, hnot⟩ := exists_not_atomic rest hstage₁ hlate
    exact ⟨.insert :: as, s, r, by rw [exec, hs₁]; exact hexec, hr, hnot⟩
  | true =>
    have hstage : (Batch.start req').stage = .parent := by
      rw [Batch.start, hmulti, hm]
      rfl
    obtain ⟨s₁, hs₁, hr₁, hstage₁, hlen, hids⟩ := exists_insert_parent (s := { world := w, batch := .start req' }) rfl
      hstage rfl (hne 0 (Nat.zero_le _))
    obtain ⟨s₂, hs₂, hstage₂, hlate⟩ := late_insert hr₁ (hstage₁.trans (congrArg _ hcons))
      (hlen ▸ hne 1 (hm ▸ le_rfl)) hids
    obtain ⟨as, s, r, hexec, hr, hnot⟩ := exists_not_atomic rest hstage₂ hlate
    refine ⟨.insert :: .insert :: as, s, r, ?_, hr, hnot⟩
    rw [exec, hs₁, Option.bind_some, exec, hs₂]
    exact hexec

/-- **A batch request is atomic just when it is refused or fails before its first child**, whatever the worker and the
other requests do meanwhile. -/
theorem batch_create_atomic_iff (w : World) (req : BatchRequest) (fails : Option Nat) :
    (∀ as s r, exec (step fails) (post w req) as = some s → s.reply = some r → s.Atomic req r) ↔
      req.tenantIDs = [] ∨ ∃ n, fails = some n ∧ n ≤ req.isMulti.toNat := by
  constructor
  · intro h
    by_contra hnot
    push Not at hnot
    obtain ⟨as, s, r, hexec, hr, hbad⟩ := exists_not_atomic_post w hnot.1 hnot.2
    exact hbad (h as s r hexec hr)
  · intro h as s r hexec hr
    by_cases hnil : req.tenantIDs = []
    · exact atomic_of_refused hnil hexec hr
    · obtain ⟨n, rfl, hn⟩ := h.resolve_left hnil
      exact atomic_of_early hnil hn hexec hr

/-- Two tenants: the insertion of the second child fails, and the first child stays pending. -/
theorem first_child_left_pending : ¬ ∀ (w : World) (req : BatchRequest) (fails : Option Nat) (as : List Act)
    (s : Posting) (r : Reply),
    exec (step fails) (post w req) as = some s → s.reply = some r → s.Atomic req r := by
  intro h
  have hleft := h (.off .empty) { tenantIDs := [1, 2] } (some 2) [.insert, .insert, .insert] _ _ rfl rfl
  exact hleft _ (List.mem_cons_of_mem _ List.mem_cons_self) _ rfl ⟨rfl, .inl rfl⟩

end Posting

end OciHelper.Worker
