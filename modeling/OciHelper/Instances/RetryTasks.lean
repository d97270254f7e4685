import Mathlib.Data.List.AList
import OciHelper.Lib.Pool
import OciHelper.Lib.StepRun

/-!
# Retry tasks in memory

* `MemTask` : a task that changes an address or a configuration until that succeeds, and where its loop is;
* `step` : the loops and the requests, one critical section or call at a time;
* `Stops` : no change is started for a task that is paused or that a request has stopped;
* `Safe` : so it stays, however the attempts under way go on; `safe_iff` : no such attempt is paused or cancelled;
* `Heeded` : the condition on a step under which it stays safe.
-/

namespace OciHelper.Instances.RetryTasks
open StepRun

inductive TaskType
  | changeIP
  | updateCfg
  deriving DecidableEq, Repr

/-- `attempting` is after the check of the paused flag, `changing` after the start of the OCI change. -/
inductive Phase
  | started
  | waiting
  | attempting
  | changing
  | finished
  deriving DecidableEq, Repr

/-- `closes` counts how often `Cancel` was closed. -/
structure MemTask where
  id : String
  instanceID : String
  taskType : TaskType
  ocpus : String := ""
  memory : String := ""
  paused : Bool := false
  attempts : Nat := 0
  closes : Nat := 0
  phase : Phase := .started
  deriving DecidableEq, Repr

/-- The start of an OCI change: had a request that stops the task returned, and was the task paused? -/
structure Change where
  task : Nat
  stopped : Bool
  paused : Bool
  deriving DecidableEq, Repr

/-- `pending` are the tasks that a request has stopped, for each request that has not returned; `stopped` are those of
the requests that have. -/
structure State where
  tasks : Pool MemTask := {}
  memTasks : AList fun _ : String => Nat := ∅
  stopping : Bool := false
  pending : List (List Nat) := []
  stopped : List Nat := []
  changes : List Change := []

/-- `task` is the place of a task, `request` that of a request which has not returned. -/
inductive Event
  | add (id instanceID : String) (taskType : TaskType) (ocpus memory : String)
  | pause (ids : List String)
  | resume (ids : List String)
  | delete (ids : List String)
  | stopChangeIp (instanceID : String)
  | respond (request : Nat)
  | shutdown
  | attempt (task : Nat)
  | noTenant (task : Nat)
  | fail (task : Nat)
  | change (task : Nat)
  | answer (task : Nat) (ok : Bool)
  | cancelled (task : Nat)
  | quit (task : Nat)
  deriving DecidableEq, Repr

namespace MemTask

def close (t : MemTask) : MemTask := { t with closes := t.closes + 1 }

def setPaused (paused : Bool) (t : MemTask) : MemTask := { t with paused := paused }

def goTo (phase : Phase) (t : MemTask) : MemTask := { t with phase := phase }

/-- One more attempt. -/
def count (t : MemTask) : MemTask := { t with attempts := t.attempts + 1, phase := .attempting }

variable (positive : String → Bool)

/-- `positive` is whether `strconv.ParseFloat` reads a number above 0. -/
def parseFail (t : MemTask) : Bool :=
  (t.ocpus ≠ "" && !positive t.ocpus) || (t.memory ≠ "" && !positive t.memory)

/-- An attempt gets to its OCI change if the tenant and its client are there. -/
def callable (t : MemTask) : Bool :=
  match t.taskType with
  | .changeIP => true
  | .updateCfg => !t.parseFail positive

end MemTask

/-! ## Requests -/

/-- Look the id up in the map and change its task; the entry may be deleted. -/
def forEntry (f : MemTask → MemTask) (keep : Bool) (s : State) (id : String) : State :=
  match s.memTasks.lookup id with
  | none => s
  | some i =>
    { s with
      tasks := s.tasks.modify i f
      memTasks := if keep then s.memTasks else s.memTasks.erase id }

/-- The loop body of `pause` and `resume`. -/
def setPaused (paused : Bool) : State → String → State := forEntry (·.setPaused paused) true

/-- The loop body of `delete` and `stopChangeIp`. -/
def stopTask : State → String → State := forEntry (·.close) false

/-- The ids of the entries that `stopChangeIp` stops. -/
def idsOf (s : State) (instanceID : String) : List String :=
  (s.memTasks.entries.filter fun e =>
    (s.tasks.get? e.2).any fun t => t.instanceID = instanceID && t.taskType = .changeIP).map (·.1)

/-- The places of the tasks that a request is about. -/
def placesOf (s : State) (p : MemTask → Bool) : List Nat :=
  (List.range s.tasks.workers.length).filter fun i => (s.tasks.get? i).any p

/-! ## Steps -/

variable (positive : String → Bool)

/-- The ids that `generateID` makes are distinct. -/
def step : Step State Event
  | s, .add id instanceID taskType ocpus memory =>
    if s.tasks.workers.any (·.id = id) then none
    else
      some
        { s with
          tasks := s.tasks.join { id, instanceID, taskType, ocpus, memory }
          memTasks := s.memTasks.insert id s.tasks.workers.length }
  | s, .pause ids => some (ids.foldl (setPaused true) s)
  | s, .resume ids => some (ids.foldl (setPaused false) s)
  | s, .delete ids =>
    let stopped := placesOf s fun t => t.id ∈ ids
    some { ids.foldl stopTask s with pending := s.pending ++ [stopped] }
  | s, .stopChangeIp instanceID =>
    let stopped := placesOf s fun t => t.instanceID = instanceID && t.taskType = .changeIP
    some { (idsOf s instanceID).foldl stopTask s with pending := s.pending ++ [stopped] }
  | s, .respond request =>
    s.pending[request]?.map fun stopped =>
      { s with pending := s.pending.eraseIdx request, stopped := stopped ++ s.stopped }
  | s, .shutdown => some { s with stopping := true }
  | s, .attempt i =>
    ((s.tasks.get? i).filter fun t => t.phase = .started || t.phase = .waiting).map fun t =>
      { s with tasks := s.tasks.put i (if t.paused then t.goTo .waiting else t.count) }
  | s, .noTenant i =>
    ((s.tasks.get? i).filter fun t => t.phase = .attempting).map fun t =>
      { s with tasks := s.tasks.put i (t.goTo .finished), memTasks := s.memTasks.erase t.id }
  | s, .fail i =>
    ((s.tasks.get? i).filter fun t => t.phase = .attempting).map fun t =>
      { s with tasks := s.tasks.put i (t.goTo .waiting) }
  | s, .change i =>
    ((s.tasks.get? i).filter fun t => t.phase = .attempting && t.callable positive).map fun t =>
      { s with
        tasks := s.tasks.put i (t.goTo .changing)
        changes := s.changes ++ [⟨i, s.stopped.contains i, t.paused⟩] }
  | s, .answer i ok =>
    ((s.tasks.get? i).filter fun t => t.phase = .changing).map fun t =>
      if ok then { s with tasks := s.tasks.put i (t.goTo .finished), memTasks := s.memTasks.erase t.id }
      else { s with tasks := s.tasks.put i (t.goTo .waiting) }
  | s, .cancelled i =>
    ((s.tasks.get? i).filter fun t => t.phase = .waiting && 0 < t.closes).map fun t =>
      { s with tasks := s.tasks.put i (t.goTo .finished) }
  | s, .quit i =>
    ((s.tasks.get? i).filter fun t => t.phase = .waiting && s.stopping).map fun t =>
      { s with tasks := s.tasks.put i (t.goTo .finished) }

/-! ## The property -/

/-- No change was started for a task that was paused, or that a returned request had stopped. -/
def Stops (s : State) : Prop := ∀ c ∈ s.changes, c.stopped = false ∧ c.paused = false

/-- Requests return, and attempts under way go on. -/
def Event.goesOn : Event → Bool
  | .respond _ | .noTenant _ | .fail _ | .change _ | .answer _ _ => true
  | _ => false

def Safe (s : State) : Prop :=
  ∀ es t, (∀ e ∈ es, e.goesOn = true) → exec (step positive) s es = some t → Stops t

/-- The tasks that are meant are not between the check of the paused flag and the OCI change. -/
def Untouched (s : State) (p : MemTask → Bool) : Prop :=
  ∀ i t, s.tasks.get? i = some t → s.memTasks.lookup t.id = some i → p t = true → t.phase = .attempting →
    t.callable positive = false

/-- No attempt begins with `Cancel` closed, and no request touches a task between the check and the OCI change. -/
def Heeded (s : State) : Event → Prop
  | .attempt i =>
    ∀ t, s.tasks.get? i = some t → t.paused = true ∨ t.closes = 0 ∨ t.callable positive = false
  | .pause ids => Untouched positive s fun t => t.id ∈ ids
  | .delete ids => Untouched positive s fun t => t.id ∈ ids
  | .stopChangeIp instanceID =>
    Untouched positive s fun t => t.instanceID = instanceID && t.taskType = .changeIP
  | _ => True

/-! ## The map and the tasks -/

/-- A request that is under way or has returned is about the task. -/
def Targeted (s : State) (i : Nat) : Prop := i ∈ s.stopped ∨ ∃ stopped ∈ s.pending, i ∈ stopped

/-- The task under an id has that id. -/
def Keyed (s : State) : Prop := ∀ id i, s.memTasks.lookup id = some i → ∃ t, s.tasks.get? i = some t ∧ t.id = id

/-- A task is in the map until it is cancelled or its loop has ended. -/
structure Inv (s : State) : Prop where
  keyed : Keyed s
  listed : ∀ i t, s.tasks.get? i = some t → s.memTasks.lookup t.id = some i ∧ t.closes = 0 ∨
    s.memTasks.lookup t.id = none ∧ t.closes ≤ 1 ∧ (t.closes = 0 → t.phase = .finished)
  targets : ∀ i, Targeted s i → ∃ t, s.tasks.get? i = some t ∧ s.memTasks.lookup t.id = none
  closed : ∀ i t, s.tasks.get? i = some t → 0 < t.closes → Targeted s i

theorem mem_placesOf (s : State) (p : MemTask → Bool) (i : Nat) :
    i ∈ placesOf s p ↔ ∃ t, s.tasks.get? i = some t ∧ p t = true := by
  unfold placesOf
  rw [List.mem_filter, List.mem_range, Option.any_eq_true]
  constructor
  · rintro ⟨-, t, ht, hp⟩
    exact ⟨t, ht, hp⟩
  · rintro ⟨t, ht, hp⟩
    exact ⟨(List.getElem?_eq_some_iff.mp ht).1, t, ht, hp⟩

section Entries
variable {f : MemTask → MemTask} {keep : Bool}

theorem forEntry_lookup (s : State) (id k : String) :
    (forEntry f keep s id).memTasks.lookup k = if keep = false ∧ k = id then none else s.memTasks.lookup k := by
  unfold forEntry
  cases hl : s.memTasks.lookup id with
  | none =>
    dsimp only
    split
    · next h => rw [h.2, hl]
    · rfl
  | some i =>
    cases keep with
    | true => simp
    | false =>
      by_cases hk : k = id
      · subst hk
        simp
      · simp [hk, AList.lookup_erase_ne hk]

theorem forEntry_get? {s : State} (h : Keyed s) (id : String) (i : Nat) :
    (forEntry f keep s id).tasks.get? i =
      (s.tasks.get? i).map fun t => if t.id = id ∧ s.memTasks.lookup id = some i then f t else t := by
  unfold forEntry
  cases hl : s.memTasks.lookup id with
  | none => simp
  | some j =>
    dsimp only
    rw [Pool.get?_modify]
    obtain ⟨t, ht, hid⟩ := h id j hl
    by_cases hij : i = j
    · subst hij
      simp [ht, hid]
    · simp [hij, Ne.symm hij]

theorem Keyed.forEntry {s : State} (h : Keyed s) (hf : ∀ t, (f t).id = t.id) (id : String) :
    Keyed (forEntry f keep s id) := by
  intro k i hk
  rw [forEntry_lookup] at hk
  split at hk
  · cases hk
  · obtain ⟨t, ht, rfl⟩ := h k i hk
    refine ⟨_, by rw [forEntry_get? h, ht]; rfl, ?_⟩
    dsimp only
    split
    · exact hf t
    · rfl

variable (hf : ∀ t, (f t).id = t.id) (hidem : keep = true → ∀ t, f (f t) = f t)
include hf hidem

/-- What the loop over the ids of a request makes of the tasks. -/
theorem foldl_get? (i : Nat) : ∀ (ids : List String) {s : State}, Keyed s →
    (ids.foldl (forEntry f keep) s).tasks.get? i =
      (s.tasks.get? i).map fun t => if t.id ∈ ids ∧ s.memTasks.lookup t.id = some i then f t else t := by
  intro ids
  induction ids with
  | nil => intro s _; simp
  | cons id ids ih =>
    intro s h
    rw [List.foldl_cons, ih (h.forEntry hf id), forEntry_get? h]
    cases ht : s.tasks.get? i with
    | none => rfl
    | some t =>
      simp only [Option.map_some, Option.some.injEq]
      by_cases hid : t.id = id ∧ s.memTasks.lookup id = some i
      · obtain ⟨rfl, hl⟩ := hid
        cases keep with
        | false => simp [hl, hf, forEntry_lookup]
        | true => simp [hl, hf, forEntry_lookup, hidem rfl]
      · rw [if_neg hid]
        congr 1
        rw [eq_iff_iff, List.mem_cons, forEntry_lookup]
        by_cases he : t.id = id
        · have hl : s.memTasks.lookup t.id ≠ some i := fun hl => hid ⟨he, he ▸ hl⟩
          simp [hl]
        · simp [he]

end Entries

theorem foldl_lookup {f : MemTask → MemTask} {keep : Bool} (ids : List String) (s : State) (k : String) :
    (ids.foldl (forEntry f keep) s).memTasks.lookup k =
      if keep = false ∧ k ∈ ids then none else s.memTasks.lookup k := by
  induction ids generalizing s with
  | nil => simp
  | cons id ids ih =>
    rw [List.foldl_cons, ih, forEntry_lookup]
    cases keep with
    | true => simp
    | false =>
      by_cases hk : k = id
      · simp [hk]
      · simp [hk]

/-- The loop over the ids changes only the tasks and the map. -/
theorem foldl_rest (f : MemTask → MemTask) (keep : Bool) (ids : List String) (s : State) :
    (ids.foldl (forEntry f keep) s).pending = s.pending ∧ (ids.foldl (forEntry f keep) s).stopped = s.stopped ∧
      (ids.foldl (forEntry f keep) s).changes = s.changes := by
  induction ids generalizing s with
  | nil => exact ⟨rfl, rfl, rfl⟩
  | cons id ids ih =>
    obtain ⟨hp, hs, hc⟩ := ih (forEntry f keep s id)
    rw [List.foldl_cons, hp, hs, hc]
    unfold forEntry
    split <;> exact ⟨rfl, rfl, rfl⟩

/-! ## Steps keep the invariant -/

/-- The tasks keep their ids and are not cancelled. -/
theorem Inv.of_tasks {s s' : State} (h : Inv s) (hmap : ∀ id, s'.memTasks.lookup id = s.memTasks.lookup id)
    (hpending : s'.pending = s.pending) (hstopped : s'.stopped = s.stopped)
    (hget : ∀ k u', s'.tasks.get? k = some u' → ∃ u, s.tasks.get? k = some u ∧ u'.id = u.id ∧
      u'.closes = u.closes ∧ (u.phase = .finished → u'.phase = .finished))
    (hput : ∀ k u, s.tasks.get? k = some u → ∃ u', s'.tasks.get? k = some u' ∧ u'.id = u.id) : Inv s' := by
  have htargeted : ∀ k, Targeted s' k ↔ Targeted s k := by
    intro k
    unfold Targeted
    rw [hpending, hstopped]
  refine ⟨fun id k hl => ?_, fun k u' hu' => ?_, fun k hk => ?_, fun k u' hu' hpos => ?_⟩
  · rw [hmap] at hl
    obtain ⟨u, hu, rfl⟩ := h.keyed id k hl
    exact hput k u hu
  · obtain ⟨u, hu, hid, hcl, hfin⟩ := hget k u' hu'
    rw [hmap, hid, hcl]
    obtain hl | ⟨hl, hle, hzero⟩ := h.listed k u hu
    · exact .inl hl
    · exact .inr ⟨hl, hle, fun h0 => hfin (hzero h0)⟩
  · obtain ⟨u, hu, hl⟩ := h.targets k ((htargeted k).mp hk)
    obtain ⟨u', hu', hid⟩ := hput k u hu
    exact ⟨u', hu', by rw [hmap, hid, hl]⟩
  · obtain ⟨u, hu, -, hcl, -⟩ := hget k u' hu'
    exact (htargeted k).mpr (h.closed k u hu (hcl ▸ hpos))

/-- A loop that has not ended moves on. -/
theorem Inv.put {s : State} (h : Inv s) {i : Nat} {t : MemTask} (ht : s.tasks.get? i = some t)
    (hphase : t.phase ≠ .finished) (t' : MemTask) (hid : t'.id = t.id) (hcloses : t'.closes = t.closes)
    (changes : List Change) : Inv { s with tasks := s.tasks.put i t', changes := changes } := by
  refine h.of_tasks (fun _ => rfl) rfl rfl (fun k u' hu' => ?_) fun k u hu => ?_
  · dsimp only at hu'
    rw [Pool.get?_put _ ht] at hu'
    split at hu'
    · next hk =>
      obtain rfl := Option.some.inj hu'
      exact ⟨t, hk ▸ ht, hid, hcloses, fun hf => absurd hf hphase⟩
    · exact ⟨u', hu', rfl, rfl, id⟩
  · dsimp only
    rw [Pool.get?_put _ ht]
    split
    · next hk =>
      subst hk
      rw [ht] at hu
      obtain rfl := Option.some.inj hu
      exact ⟨t', rfl, hid⟩
    · exact ⟨u, hu, rfl⟩

/-- A loop that ends removes its task from the map. -/
theorem Inv.remove {s : State} (h : Inv s) {i : Nat} {t : MemTask} (ht : s.tasks.get? i = some t)
    (hphase : t.phase = .finished) : Inv { s with memTasks := s.memTasks.erase t.id } := by
  have hlookup : ∀ k, (s.memTasks.erase t.id).lookup k = if k = t.id then none else s.memTasks.lookup k := by
    intro k
    split
    · next hk => rw [hk, AList.lookup_erase]
    · next hk => exact AList.lookup_erase_ne hk
  refine ⟨fun id k hl => ?_, fun k u hu => ?_, fun k hk => ?_, h.closed⟩
  · rw [hlookup] at hl
    split at hl
    · cases hl
    · exact h.keyed id k hl
  · rw [hlookup]
    by_cases hid : u.id = t.id
    · rw [if_pos hid]
      obtain ⟨hl, h0⟩ | ⟨-, hrest⟩ := h.listed k u hu
      · refine .inr ⟨rfl, by omega, fun _ => ?_⟩
        -- the entry of the id is the task itself
        obtain ⟨hl', -⟩ | ⟨hl', -⟩ := h.listed i t ht
        · rw [← hid, hl] at hl'
          obtain rfl := Option.some.inj hl'
          rw [ht] at hu
          obtain rfl := Option.some.inj hu
          exact hphase
        · rw [← hid, hl] at hl'
          cases hl'
      · exact .inr ⟨rfl, hrest⟩
    · rw [if_neg hid]
      exact h.listed k u hu
  · obtain ⟨u, hu, hl⟩ := h.targets k hk
    refine ⟨u, hu, ?_⟩
    rw [hlookup]
    split
    · rfl
    · exact hl

theorem Inv.add {s : State} (h : Inv s) {t : MemTask} (hid : ∀ i u, s.tasks.get? i = some u → u.id ≠ t.id)
    (hcloses : t.closes = 0) :
    Inv { s with tasks := s.tasks.join t, memTasks := s.memTasks.insert t.id s.tasks.workers.length } := by
  have hlookup : ∀ k, (s.memTasks.insert t.id s.tasks.workers.length).lookup k =
      if k = t.id then some s.tasks.workers.length else s.memTasks.lookup k := by
    intro k
    split
    · next hk => rw [hk, AList.lookup_insert]
    · next hk => exact AList.lookup_insert_ne hk
  have hlt : ∀ i u, s.tasks.get? i = some u → i ≠ s.tasks.workers.length :=
    fun i u hu => Nat.ne_of_lt (List.getElem?_eq_some_iff.mp hu).1
  have hold : ∀ i u, s.tasks.get? i = some u → (s.tasks.join t).get? i = some u := by
    intro i u hu
    rw [Pool.get?_join, if_neg (hlt i u hu), hu]
  refine ⟨fun id i hl => ?_, fun i u hu => ?_, fun i hi => ?_, fun i u hu hpos => ?_⟩
  · rw [hlookup] at hl
    split at hl
    · next hk =>
      obtain rfl := Option.some.inj hl
      exact ⟨t, by rw [Pool.get?_join, if_pos rfl], hk.symm⟩
    · obtain ⟨u, hu, rfl⟩ := h.keyed id i hl
      exact ⟨u, hold i u hu, rfl⟩
  · rw [Pool.get?_join] at hu
    rw [hlookup]
    split at hu
    · next hi =>
      obtain rfl := Option.some.inj hu
      exact .inl ⟨by rw [if_pos rfl, hi], hcloses⟩
    · rw [if_neg (hid i u hu)]
      exact h.listed i u hu
  · obtain ⟨u, hu, hl⟩ := h.targets i hi
    exact ⟨u, hold i u hu, by rw [hlookup, if_neg (hid i u hu), hl]⟩
  · rw [Pool.get?_join] at hu
    split at hu
    · obtain rfl := Option.some.inj hu
      omega
    · exact h.closed i u hu hpos

theorem setPaused_get? {s : State} (h : Inv s) (paused : Bool) (ids : List String) (i : Nat) :
    (ids.foldl (setPaused paused) s).tasks.get? i = (s.tasks.get? i).map fun t =>
      if t.id ∈ ids ∧ s.memTasks.lookup t.id = some i then t.setPaused paused else t :=
  foldl_get? (f := (·.setPaused paused)) (fun _ => rfl) (fun _ _ => rfl) i ids h.keyed

theorem stopTask_get? {s : State} (h : Inv s) (ids : List String) (i : Nat) :
    (ids.foldl stopTask s).tasks.get? i = (s.tasks.get? i).map fun t =>
      if t.id ∈ ids ∧ s.memTasks.lookup t.id = some i then t.close else t :=
  foldl_get? (f := (·.close)) (fun _ => rfl) (fun h => by cases h) i ids h.keyed

theorem setPaused_lookup (s : State) (paused : Bool) (ids : List String) (id : String) :
    (ids.foldl (setPaused paused) s).memTasks.lookup id = s.memTasks.lookup id := by
  refine (foldl_lookup ids s id).trans (if_neg ?_)
  rintro ⟨h, -⟩
  cases h

theorem stopTask_lookup (s : State) (ids : List String) (id : String) :
    (ids.foldl stopTask s).memTasks.lookup id = if id ∈ ids then none else s.memTasks.lookup id := by
  refine (foldl_lookup ids s id).trans ?_
  simp only [true_and]

/-- A task after a request that stops tasks. -/
theorem stopTask_cases {s : State} (h : Inv s) {ids : List String} {i : Nat} {u : MemTask}
    (hu : (ids.foldl stopTask s).tasks.get? i = some u) : ∃ t, s.tasks.get? i = some t ∧ u.id = t.id ∧
      (t.id ∈ ids ∧ s.memTasks.lookup t.id = some i ∧ u = t.close ∨
        ¬ (t.id ∈ ids ∧ s.memTasks.lookup t.id = some i) ∧ u = t) := by
  rw [stopTask_get? h] at hu
  obtain ⟨t, ht, rfl⟩ := Option.map_eq_some_iff.mp hu
  refine ⟨t, ht, ?_⟩
  by_cases hc : t.id ∈ ids ∧ s.memTasks.lookup t.id = some i
  · rw [if_pos hc]
    exact ⟨rfl, .inl ⟨hc.1, hc.2, rfl⟩⟩
  · rw [if_neg hc]
    exact ⟨rfl, .inr ⟨hc, rfl⟩⟩

theorem exists_stopTask {s : State} (h : Inv s) (ids : List String) {i : Nat} {t : MemTask}
    (ht : s.tasks.get? i = some t) : ∃ u, (ids.foldl stopTask s).tasks.get? i = some u ∧ u.id = t.id := by
  refine ⟨_, by rw [stopTask_get? h, ht]; rfl, ?_⟩
  dsimp only
  split <;> rfl

theorem Inv.pause {s : State} (h : Inv s) (paused : Bool) (ids : List String) :
    Inv (ids.foldl (setPaused paused) s) := by
  obtain ⟨hpending, hstopped, -⟩ := foldl_rest (·.setPaused paused) true ids s
  refine h.of_tasks (setPaused_lookup s paused ids) hpending hstopped (fun k u' hu' => ?_) fun k u hu => ?_
  · rw [setPaused_get? h] at hu'
    obtain ⟨u, hu, rfl⟩ := Option.map_eq_some_iff.mp hu'
    refine ⟨u, hu, ?_⟩
    split <;> exact ⟨rfl, rfl, fun hf => hf⟩
  · refine ⟨_, by rw [setPaused_get? h, hu]; rfl, ?_⟩
    dsimp only
    split <;> rfl

/-- The ids are those of the tasks in the map that are meant. -/
def Means (s : State) (ids : List String) (p : MemTask → Bool) : Prop :=
  ∀ i t, s.tasks.get? i = some t → s.memTasks.lookup t.id = some i → (t.id ∈ ids ↔ p t = true)

theorem Inv.stop {s : State} (h : Inv s) {ids : List String} {p : MemTask → Bool} (hp : Means s ids p) :
    Inv { ids.foldl stopTask s with pending := s.pending ++ [placesOf s p] } := by
  obtain ⟨-, hstopped, -⟩ := foldl_rest (·.close) false ids s
  have htargeted : ∀ i, Targeted { ids.foldl stopTask s with pending := s.pending ++ [placesOf s p] } i ↔
      Targeted s i ∨ i ∈ placesOf s p := by
    intro i
    unfold Targeted
    dsimp only
    rw [show (ids.foldl stopTask s).stopped = s.stopped from hstopped]
    simp [or_and_right, exists_or, or_assoc]
  refine ⟨fun id i hl => ?_, fun i u hu => ?_, fun i hi => ?_, fun i u hu hpos => ?_⟩
  · dsimp only at hl ⊢
    rw [stopTask_lookup] at hl
    split at hl
    · cases hl
    · obtain ⟨t, ht, rfl⟩ := h.keyed id i hl
      exact exists_stopTask h ids ht
  · dsimp only at hu ⊢
    obtain ⟨t, ht, hid, ⟨hmem, hl, rfl⟩ | ⟨hnot, rfl⟩⟩ := stopTask_cases h hu
    · refine .inr ⟨by rw [hid, stopTask_lookup, if_pos hmem], ?_, fun h0 => ?_⟩
      · obtain ⟨-, h0⟩ | ⟨hl', -⟩ := h.listed i t ht
        · exact Nat.succ_le_succ (Nat.le_of_eq h0)
        · rw [hl] at hl'
          cases hl'
      · cases h0
    · rw [stopTask_lookup]
      obtain ⟨hl, h0⟩ | ⟨hl, hrest⟩ := h.listed i u ht
      · exact .inl ⟨by rw [if_neg fun hmem => hnot ⟨hmem, hl⟩, hl], h0⟩
      · exact .inr ⟨by simp [hl], hrest⟩
  · dsimp only
    obtain hi | hi := (htargeted i).mp hi
    · obtain ⟨t, ht, hl⟩ := h.targets i hi
      obtain ⟨u, hu, hid⟩ := exists_stopTask h ids ht
      exact ⟨u, hu, by rw [hid, stopTask_lookup]; simp [hl]⟩
    · obtain ⟨t, ht, hpt⟩ := (mem_placesOf s p i).mp hi
      obtain ⟨u, hu, hid⟩ := exists_stopTask h ids ht
      refine ⟨u, hu, ?_⟩
      rw [hid, stopTask_lookup]
      obtain ⟨hl, -⟩ | ⟨hl, -⟩ := h.listed i t ht
      · rw [if_pos ((hp i t ht hl).mpr hpt)]
      · simp [hl]
  · dsimp only at hu
    refine (htargeted i).mpr ?_
    obtain ⟨t, ht, -, ⟨hmem, hl, -⟩ | ⟨-, rfl⟩⟩ := stopTask_cases h hu
    · exact .inr ((mem_placesOf s p i).mpr ⟨t, ht, (hp i t ht hl).mp hmem⟩)
    · exact .inl (h.closed i u ht hpos)

theorem means_ids (s : State) (ids : List String) : Means s ids fun t => t.id ∈ ids :=
  fun _ _ _ _ => by simp

theorem means_idsOf (s : State) (instanceID : String) :
    Means s (idsOf s instanceID) fun t => t.instanceID = instanceID && t.taskType = .changeIP := by
  intro i t ht hl
  unfold idsOf
  rw [List.mem_map]
  constructor
  · rintro ⟨⟨id, j⟩, he, rfl⟩
    obtain ⟨he, hp⟩ := List.mem_filter.mp he
    have hj : s.memTasks.lookup t.id = some j := AList.mem_lookup_iff.mpr he
    rw [hl] at hj
    obtain rfl := Option.some.inj hj
    rw [ht] at hp
    simpa using hp
  · intro hp
    refine ⟨⟨t.id, i⟩, List.mem_filter.mpr ⟨AList.mem_lookup_iff.mp hl, ?_⟩, rfl⟩
    rw [ht]
    simpa using hp

theorem Inv.respond {s : State} (h : Inv s) {request : Nat} {stopped : List Nat}
    (hs : s.pending[request]? = some stopped) :
    Inv { s with pending := s.pending.eraseIdx request, stopped := stopped ++ s.stopped } := by
  have hold : ∀ i, Targeted { s with pending := s.pending.eraseIdx request, stopped := stopped ++ s.stopped } i →
      Targeted s i := by
    rintro i (hi | ⟨p, hp, hi⟩)
    · obtain hi | hi := List.mem_append.mp hi
      · exact .inr ⟨stopped, List.mem_of_getElem? hs, hi⟩
      · exact .inl hi
    · exact .inr ⟨p, List.mem_of_mem_eraseIdx hp, hi⟩
  refine ⟨h.keyed, h.listed, fun i hi => h.targets i (hold i hi), fun i t ht hpos => ?_⟩
  obtain hi | ⟨p, hp, hi⟩ := h.closed i t ht hpos
  · exact .inl (List.mem_append_right _ hi)
  · obtain ⟨k, hk, hkp⟩ := List.getElem_of_mem hp
    by_cases he : k = request
    · subst he
      rw [List.getElem?_eq_getElem hk, hkp] at hs
      obtain rfl := Option.some.inj hs
      exact .inl (List.mem_append_left _ hi)
    · exact .inr ⟨p, List.mem_eraseIdx_iff_getElem.mpr ⟨k, hk, he, hkp⟩, hi⟩

theorem Inv.finish {s : State} (h : Inv s) {i : Nat} {t : MemTask} (ht : s.tasks.get? i = some t)
    (hphase : t.phase ≠ .finished) :
    Inv { s with tasks := s.tasks.put i (t.goTo .finished), memTasks := s.memTasks.erase t.id } := by
  have hput := h.put ht hphase (t.goTo .finished) rfl rfl s.changes
  exact hput.remove (t := t.goTo .finished) (by dsimp only; rw [Pool.get?_put _ ht, if_pos rfl]) rfl

theorem step_task {s s' : State} {i : Nat} {guard : MemTask → Bool} {next : MemTask → State}
    (hs : ((s.tasks.get? i).filter guard).map next = some s') :
    ∃ t, s.tasks.get? i = some t ∧ guard t = true ∧ s' = next t := by
  obtain ⟨t, ht, rfl⟩ := Option.map_eq_some_iff.mp hs
  obtain ⟨ht, hg⟩ := Option.filter_eq_some_iff.mp ht
  exact ⟨t, ht, hg, rfl⟩

theorem inv_step {s s' : State} {e : Event} (h : Inv s) (hs : step positive s e = some s') : Inv s' := by
  cases e with
  | add id instanceID taskType ocpus memory =>
    unfold step at hs
    dsimp only at hs
    split at hs
    · cases hs
    · next hany =>
      cases hs
      refine h.add (t := { id, instanceID, taskType, ocpus, memory }) (fun i u hu he => hany ?_) rfl
      exact List.any_eq_true.mpr ⟨u, List.mem_of_getElem? hu, by simpa using he⟩
  | pause ids => cases hs; exact h.pause true ids
  | resume ids => cases hs; exact h.pause false ids
  | delete ids => cases hs; exact h.stop (means_ids s ids)
  | stopChangeIp instanceID => cases hs; exact h.stop (means_idsOf s instanceID)
  | respond request =>
    obtain ⟨stopped, hp, rfl⟩ := Option.map_eq_some_iff.mp hs
    exact h.respond hp
  | shutdown => cases hs; exact ⟨h.keyed, h.listed, h.targets, h.closed⟩
  | attempt i =>
    obtain ⟨t, ht, hg, rfl⟩ := step_task hs
    have hphase : t.phase ≠ .finished := by rintro hf; simp [hf] at hg
    refine h.put ht hphase _ ?_ ?_ s.changes <;> split <;> rfl
  | noTenant i =>
    obtain ⟨t, ht, hg, rfl⟩ := step_task hs
    exact h.finish ht (by rintro hf; simp [hf] at hg)
  | fail i =>
    obtain ⟨t, ht, hg, rfl⟩ := step_task hs
    exact h.put ht (by rintro hf; simp [hf] at hg) (t.goTo .waiting) rfl rfl s.changes
  | change i =>
    obtain ⟨t, ht, hg, rfl⟩ := step_task hs
    exact h.put ht (by rintro hf; simp [hf] at hg) (t.goTo .changing) rfl rfl _
  | answer i ok =>
    obtain ⟨t, ht, hg, rfl⟩ := step_task hs
    have hphase : t.phase ≠ .finished := by rintro hf; simp [hf] at hg
    cases ok with
    | true => exact h.finish ht hphase
    | false => exact h.put ht hphase (t.goTo .waiting) rfl rfl s.changes
  | cancelled i =>
    obtain ⟨t, ht, hg, rfl⟩ := step_task hs
    exact h.put ht (by rintro hf; simp [hf] at hg) (t.goTo .finished) rfl rfl s.changes
  | quit i =>
    obtain ⟨t, ht, hg, rfl⟩ := step_task hs
    exact h.put ht (by rintro hf; simp [hf] at hg) (t.goTo .finished) rfl rfl s.changes

theorem inv_start : Inv {} where
  keyed _ _ h := by cases h
  listed _ _ h := by cases h
  targets := by rintro i (h | ⟨p, h, -⟩) <;> cases h
  closed _ _ h := by cases h

/-! ## Attempts under way -/

/-- An attempt that will start its change is neither paused nor cancelled. -/
def MemTask.Clear (t : MemTask) : Prop :=
  t.phase = .attempting → t.callable positive = true → t.paused = false ∧ t.closes = 0

def Clear (s : State) : Prop := ∀ i t, s.tasks.get? i = some t → t.Clear positive

theorem clear_of_phase {t : MemTask} (h : t.phase ≠ .attempting) : t.Clear positive := fun hp => absurd hp h

/-- A request that changes the tasks that are meant. -/
theorem clear_request_iff {s s' : State} {f : MemTask → MemTask} {p : MemTask → Bool} {ids : List String}
    (h : Clear positive s) (hp : Means s ids p)
    (hget : ∀ i, s'.tasks.get? i = (s.tasks.get? i).map fun t =>
      if t.id ∈ ids ∧ s.memTasks.lookup t.id = some i then f t else t)
    (hf : ∀ t, t.phase = .attempting → t.callable positive = true → ¬ (f t).Clear positive)
    (hf' : ∀ t, t.phase = .attempting → t.callable positive = false → (f t).Clear positive)
    (hf'' : ∀ t, t.phase ≠ .attempting → (f t).Clear positive) :
    Clear positive s' ↔ Untouched positive s p := by
  constructor
  · intro hclear i t ht hl hpt hphase
    by_contra hcall
    refine hf t hphase (by simpa using hcall) (hclear i (f t) ?_)
    rw [hget, ht, Option.map_some, if_pos ⟨(hp i t ht hl).mpr hpt, hl⟩]
  · intro huntouched i u hu
    rw [hget] at hu
    obtain ⟨t, ht, rfl⟩ := Option.map_eq_some_iff.mp hu
    split
    · next hc =>
      by_cases hphase : t.phase = .attempting
      · exact hf' t hphase (huntouched i t ht hc.2 ((hp i t ht hc.2).mp hc.1) hphase)
      · exact hf'' t hphase
    · exact h i t ht

theorem clear_pause_iff {s : State} (hinv : Inv s) (h : Clear positive s) (ids : List String) :
    Clear positive (ids.foldl (setPaused true) s) ↔ Untouched positive s fun t => t.id ∈ ids := by
  refine clear_request_iff positive h (means_ids s ids) (setPaused_get? hinv true ids) ?_ ?_ ?_
  · intro t hphase hcall hclear
    cases (hclear hphase hcall).1
  · intro t _ hcall _ hcall'
    rw [show t.callable positive = true from hcall'] at hcall
    cases hcall
  · exact fun t hphase => clear_of_phase positive hphase

theorem clear_stop_iff {s : State} (hinv : Inv s) (h : Clear positive s) {ids : List String} {p : MemTask → Bool}
    (hp : Means s ids p) (pending : List (List Nat)) :
    Clear positive { ids.foldl stopTask s with pending := pending } ↔ Untouched positive s p := by
  refine clear_request_iff positive h hp (stopTask_get? hinv ids) ?_ ?_ ?_
  · intro t hphase hcall hclear
    cases (hclear hphase hcall).2
  · intro t _ hcall _ hcall'
    rw [show t.callable positive = true from hcall'] at hcall
    cases hcall
  · exact fun t hphase => clear_of_phase positive hphase

theorem clear_put_iff {s : State} (h : Clear positive s) {i : Nat} {t : MemTask} (ht : s.tasks.get? i = some t)
    (t' : MemTask) {s' : State} (hs : s'.tasks = s.tasks.put i t') :
    Clear positive s' ↔ t'.Clear positive := by
  unfold Clear
  rw [hs]
  exact Pool.forall_put_iff s.tasks ht h t'

theorem clear_goTo {s s' : State} (h : Clear positive s) {i : Nat} {t : MemTask} (ht : s.tasks.get? i = some t)
    {phase : Phase} (hphase : phase ≠ .attempting) (hs : s'.tasks = s.tasks.put i (t.goTo phase)) :
    Clear positive s' :=
  (clear_put_iff positive h ht _ hs).mpr (clear_of_phase positive hphase)

theorem clear_attempt_iff {s : State} (h : Clear positive s) {i : Nat} {t : MemTask} (ht : s.tasks.get? i = some t) :
    Clear positive { s with tasks := s.tasks.put i (if t.paused then t.goTo .waiting else t.count) } ↔
      Heeded positive s (.attempt i) := by
  rw [clear_put_iff positive h ht _ rfl]
  have hheeded : Heeded positive s (.attempt i) ↔
      (t.paused = true ∨ t.closes = 0 ∨ t.callable positive = false) := by
    refine ⟨fun hh => hh t ht, fun hh t' ht' => ?_⟩
    rw [ht] at ht'
    exact Option.some.inj ht' ▸ hh
  rw [hheeded]
  cases hpaused : t.paused with
  | true => exact iff_of_true (clear_of_phase positive (by simp [MemTask.goTo])) (.inl rfl)
  | false =>
    have hcount : t.count.Clear positive ↔ (t.callable positive = true → t.closes = 0) := by
      refine ⟨fun hclear hcall => (hclear rfl hcall).2, fun hclear _ hcall => ⟨hpaused, hclear hcall⟩⟩
    rw [if_neg Bool.false_ne_true, hcount]
    cases hcall : t.callable positive <;> simp

theorem clear_step_iff {s s' : State} {e : Event} (hinv : Inv s) (h : Clear positive s)
    (hs : step positive s e = some s') : Clear positive s' ↔ Heeded positive s e := by
  cases e with
  | add id instanceID taskType ocpus memory =>
    unfold step at hs
    dsimp only at hs
    split at hs
    · cases hs
    · cases hs
      refine iff_of_true (fun i u hu => ?_) trivial
      dsimp only at hu
      rw [Pool.get?_join] at hu
      split at hu
      · obtain rfl := Option.some.inj hu
        exact clear_of_phase positive (by simp)
      · exact h i u hu
  | pause ids => cases hs; exact clear_pause_iff positive hinv h ids
  | resume ids =>
    cases hs
    refine iff_of_true (fun i u hu => ?_) trivial
    rw [setPaused_get? hinv] at hu
    obtain ⟨t, ht, rfl⟩ := Option.map_eq_some_iff.mp hu
    split
    · exact fun hphase hcall => ⟨rfl, (h i t ht hphase hcall).2⟩
    · exact h i t ht
  | delete ids => cases hs; exact clear_stop_iff positive hinv h (means_ids s ids) _
  | stopChangeIp instanceID => cases hs; exact clear_stop_iff positive hinv h (means_idsOf s instanceID) _
  | respond request =>
    obtain ⟨stopped, -, rfl⟩ := Option.map_eq_some_iff.mp hs
    exact iff_of_true h trivial
  | shutdown => cases hs; exact iff_of_true h trivial
  | attempt i =>
    obtain ⟨t, ht, -, rfl⟩ := step_task hs
    exact clear_attempt_iff positive h ht
  | answer i ok =>
    obtain ⟨t, ht, -, rfl⟩ := step_task hs
    cases ok with
    | true =>
      have hphase : Phase.finished ≠ .attempting := by decide
      exact iff_of_true (clear_goTo positive h ht hphase rfl) trivial
    | false =>
      have hphase : Phase.waiting ≠ .attempting := by decide
      exact iff_of_true (clear_goTo positive h ht hphase rfl) trivial
  | noTenant i | fail i | change i | cancelled i | quit i =>
    obtain ⟨t, ht, -, rfl⟩ := step_task hs
    exact iff_of_true (clear_goTo positive h ht (by decide) rfl) trivial

/-- A request that stops a task has cancelled it, unless its loop has ended. -/
theorem Inv.not_targeted {s : State} (h : Inv s) {i : Nat} {t : MemTask} (ht : s.tasks.get? i = some t)
    (hphase : t.phase ≠ .finished) (hcloses : t.closes = 0) : ¬ Targeted s i := by
  intro hi
  obtain ⟨u, hu, hl⟩ := h.targets i hi
  rw [ht] at hu
  obtain rfl := Option.some.inj hu
  obtain ⟨hl', -⟩ | ⟨-, -, hfin⟩ := h.listed i t ht
  · rw [hl] at hl'
    cases hl'
  · exact hphase (hfin hcloses)

theorem stops_step {s s' : State} {e : Event} (hinv : Inv s) (hclear : Clear positive s) (h : Stops s)
    (hs : step positive s e = some s') : Stops s' := by
  have hfold : ∀ (f : MemTask → MemTask) (keep : Bool) (ids : List String),
      (ids.foldl (forEntry f keep) s).changes = s.changes := fun f keep ids => (foldl_rest f keep ids s).2.2
  cases e with
  | change i =>
    obtain ⟨t, ht, hg, rfl⟩ := step_task hs
    obtain ⟨hphase, hcall⟩ : t.phase = .attempting ∧ t.callable positive = true := by simpa using hg
    obtain ⟨hpaused, hcloses⟩ := hclear i t ht hphase hcall
    intro c hc
    obtain hc | hc := List.mem_append.mp hc
    · exact h c hc
    · obtain rfl := List.mem_singleton.mp hc
      have hnot : i ∉ s.stopped := fun hi => hinv.not_targeted ht (by rw [hphase]; decide) hcloses (.inl hi)
      exact ⟨by simpa using hnot, hpaused⟩
  | add id instanceID taskType ocpus memory =>
    unfold step at hs
    dsimp only at hs
    split at hs <;> cases hs
    exact h
  | pause ids => cases hs; exact fun c hc => h c (hfold _ _ ids ▸ hc)
  | resume ids => cases hs; exact fun c hc => h c (hfold _ _ ids ▸ hc)
  | delete ids => cases hs; exact fun c hc => h c (hfold _ _ ids ▸ hc)
  | stopChangeIp instanceID => cases hs; exact fun c hc => h c (hfold _ _ (idsOf s instanceID) ▸ hc)
  | respond request => obtain ⟨stopped, -, rfl⟩ := Option.map_eq_some_iff.mp hs; exact h
  | shutdown => cases hs; exact h
  | attempt i => obtain ⟨t, -, -, rfl⟩ := step_task hs; exact h
  | noTenant i => obtain ⟨t, -, -, rfl⟩ := step_task hs; exact h
  | fail i => obtain ⟨t, -, -, rfl⟩ := step_task hs; exact h
  | answer i ok => obtain ⟨t, -, -, rfl⟩ := step_task hs; cases ok <;> exact h
  | cancelled i => obtain ⟨t, -, -, rfl⟩ := step_task hs; exact h
  | quit i => obtain ⟨t, -, -, rfl⟩ := step_task hs; exact h

/-- The change of a task that is paused, or that a returned request has stopped. -/
theorem change_violates {s : State} {i : Nat} {t : MemTask} (ht : s.tasks.get? i = some t)
    (hphase : t.phase = .attempting) (hcall : t.callable positive = true) (h : i ∈ s.stopped ∨ t.paused = true) :
    ∃ s', step positive s (.change i) = some s' ∧ ¬ Stops s' := by
  have hfilter : (s.tasks.get? i).filter (fun t => t.phase = .attempting && t.callable positive) = some t := by
    rw [ht, Option.filter_some, if_pos (by simp [hphase, hcall])]
  refine ⟨_, by unfold step; dsimp only; rw [hfilter]; rfl, fun hstops => ?_⟩
  obtain ⟨hstopped, hpaused⟩ := hstops _ (List.mem_append_right _ (List.mem_singleton_self _))
  obtain h | h := h
  · simp [h] at hstopped
  · rw [h] at hpaused
    cases hpaused

theorem safe_iff {s : State} (hinv : Inv s) : Safe positive s ↔ Stops s ∧ Clear positive s := by
  constructor
  · intro h
    refine ⟨h [] s (fun _ he => absurd he List.not_mem_nil) rfl, fun i t ht hphase hcall => ?_⟩
    by_contra hnot
    -- the task is paused or stopped already, or the request that stops it has to return first
    obtain hnow | ⟨r, p, hp, hi⟩ : (i ∈ s.stopped ∨ t.paused = true) ∨
        ∃ (r : Nat) (p : List Nat), s.pending[r]? = some p ∧ i ∈ p := by
      by_cases hpaused : t.paused = true
      · exact .inl (.inr hpaused)
      · have hpos : 0 < t.closes := Nat.pos_of_ne_zero fun h0 => hnot ⟨by simpa using hpaused, h0⟩
        obtain hi | ⟨p, hp, hi⟩ := hinv.closed i t ht hpos
        · exact .inl (.inl hi)
        · obtain ⟨r, hr⟩ := List.mem_iff_getElem?.mp hp
          exact .inr ⟨r, p, hr, hi⟩
    · obtain ⟨s', hs', hviol⟩ := change_violates positive ht hphase hcall hnow
      exact hviol (h [.change i] s' (by simp [Event.goesOn]) (by simp [exec, hs']))
    · let s₁ : State := { s with pending := s.pending.eraseIdx r, stopped := p ++ s.stopped }
      have hs₁ : step positive s (.respond r) = some s₁ := by
        unfold step
        dsimp only
        rw [hp]
        rfl
      obtain ⟨s', hs', hviol⟩ := change_violates positive (s := s₁) ht hphase hcall (.inl (List.mem_append_left _ hi))
      exact hviol (h [.respond r, .change i] s' (by simp [Event.goesOn]) (by simp [exec, hs₁, hs']))
  · rintro ⟨hstops, hclear⟩ es t hes hexec
    have hrun := run_of_forall (C := fun e => e.goesOn = true) hes hexec
    have hkept := hrun.invariant (I := fun s => Inv s ∧ Stops s ∧ Clear positive s)
      (fun s e s' he hi hs => ?_) ⟨hinv, hstops, hclear⟩
    · exact hkept.2.1
    · refine ⟨inv_step positive hi.1 hs, stops_step positive hi.1 hi.2.2 hi.2.1 hs, ?_⟩
      refine (clear_step_iff positive hi.1 hi.2.2 hs).mpr ?_
      cases e <;> trivial

/-- **Retry tasks stop when they are told to**, however the attempts under way go on, just when no attempt begins with
`Cancel` closed and no request touches a task between the check of the paused flag and the OCI change. -/
theorem retryTasks_stop_iff {es : List Event} {t : State} (hexec : exec (step positive) {} es = some t) :
    (Throughout (step positive) (Safe positive) {} es ↔ Run (step positive) (Heeded positive) {} es t) ∧
      (Run (step positive) (Heeded positive) {} es t → Throughout (step positive) Stops {} es) ∧
      Throughout (step positive) (fun s => ∀ i task, s.tasks.get? i = some task → task.closes ≤ 1) {} es := by
  have hstart : Stops {} ∧ Clear positive {} := ⟨fun _ hc => absurd hc List.not_mem_nil, fun _ _ ht => by cases ht⟩
  have hall := run_of_exec hexec
  refine ⟨?_, fun hrun => ?_, ?_⟩
  · refine throughout_iff_of_invariant (J := Inv) (fun s e s' hi hj hs => ?_)
      (fun s e s' _ hj _ hs => inv_step positive hj hs) ((safe_iff positive inv_start).mpr hstart) inv_start hexec
    obtain ⟨hstops, hclear⟩ := (safe_iff positive hj).mp hi
    rw [safe_iff positive (inv_step positive hj hs), clear_step_iff positive hj hclear hs]
    exact and_iff_right (stops_step positive hj hclear hstops hs)
  · refine (hrun.throughout (I := fun s => Inv s ∧ Stops s ∧ Clear positive s) (fun s e s' hc hi hs => ?_)
      ⟨inv_start, hstart⟩).imp fun s h => h.2.1
    exact ⟨inv_step positive hi.1 hs, stops_step positive hi.1 hi.2.2 hi.2.1 hs,
      (clear_step_iff positive hi.1 hi.2.2 hs).mpr hc⟩
  · refine (hall.throughout (fun s e s' _ hi hs => inv_step positive hi hs) inv_start).imp fun s h i task ht => ?_
    obtain ⟨-, h0⟩ | ⟨-, hle, -⟩ := h.listed i task ht
    · omega
    · exact hle

/-- An attempt that fails, and a request that deletes the task. -/
def deleteWaiting : List Event :=
  [.add "1" "1:ocid1.instance" .changeIP "" "", .attempt 0, .change 0, .answer 0 false, .delete ["1"], .respond 0]

/-- The loop looks at `Cancel`. -/
theorem retryTasks_stop_cancelled :
    Throughout (step fun _ => true) (Safe fun _ => true) {} (deleteWaiting ++ [.cancelled 0]) := by
  refine (retryTasks_stop_iff (fun _ => true) rfl).1.mpr ?_
  refine .cons trivial rfl (.cons (fun t ht => ?_) rfl (.cons trivial rfl (.cons trivial rfl (.cons ?_ rfl
    (.cons trivial rfl (.cons trivial rfl (.nil _)))))))
  · cases ht
    exact .inr (.inl rfl)
  · intro i t ht _ _ hphase
    cases i with
    | zero => cases ht; cases hphase
    | succ i => cases ht

/-- The request has returned, and the select takes the tick that is ready as well. -/
theorem deleted_task_goes_on :
    ∃ t, exec (step fun _ => true) {} (deleteWaiting ++ [.attempt 0, .change 0]) = some t ∧ ¬ Stops t := by
  refine ⟨_, rfl, fun h => ?_⟩
  have hlast := h ⟨0, true, false⟩ (by decide)
  cases hlast.1

end OciHelper.Instances.RetryTasks
