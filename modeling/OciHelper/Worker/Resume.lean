import OciHelper.Worker.World

/-!
# One task and its checkpoint

The runs of one task follow the abstract work list of `Checkpoint`: `Sim` ties the row of the task, its
runner, the listed copies of its row and its part of the log to an abstract state.

* `Phase.Fits` : where a runner may stand, given the abstract state; `Turn.refines` : its steps are steps
  of the work list;
* `World.Safe` : the condition on a poll that the simulation needs;
* `Frame` : the steps that do not concern the task; `World.step_sim` : the simulation, step by step.
-/

namespace OciHelper.Worker
open OciHelper.Db Checkpoint

/-- The first call made for an index. -/
def Kind.opening : Kind → Call
  | .batchStart => .getInstance
  | .batchCreate => .launchInstance

/-! ## A runner on its work list -/

/-- What a payload text says of the work list: total `n`, next index `idx`. -/
def Reads (k : Kind) (n idx : Int) (text : PayloadText) : Prop :=
  ∀ job, Job.decode k text = .ok job → job.total = n ∧ job.completedIndex = idx

/-- A payload text a runner may start from. -/
def Ready (k : Kind) (n idx : Int) (opened : Bool) (text : PayloadText) : Prop :=
  ∀ job, Job.decode k text = .ok job → job.total = n ∧ job.completedIndex = idx ∧ opened = false

theorem exists_reads (k : Kind) (text : PayloadText) : ∃ n idx, Reads k n idx text := by
  cases h : Job.decode k text with
  | error e => exact ⟨0, 0, fun job hj => by rw [h] at hj; cases hj⟩
  | ok job =>
    refine ⟨job.total, job.completedIndex, fun job' hj => ?_⟩
    rw [h] at hj
    cases hj
    exact ⟨rfl, rfl⟩

def Point.Fits (k : Kind) (n idx : Int) (opened : Bool) : Point → Prop
  | .head i | .check i | .park i _ | .announce i | .probe i => i = idx ∧ opened = false
  | .launch i => i = idx ∧ opened = decide (k = .batchStart)
  | .report i _ _ | .save i _ => i = idx ∧ opened = true
  | .sleep i => i + 1 = idx ∧ opened = false
  | .requeue _ => True
  | .finish => n ≤ idx

def Phase.Fits (k : Kind) (n idx : Int) (opened : Bool) (text : PayloadText) : Phase → Prop
  | .acquire | .begin => Ready k n idx opened text
  | .loop job _ pt =>
    job.kind = k ∧ job.total = n ∧ job.completedIndex = idx ∧ pt.Fits k n idx opened
  | _ => True

def Runner.Fits (r : Runner) (k : Kind) (n idx : Int) (opened : Bool) : Prop :=
  r.kind = k ∧ r.phase.Fits k n idx opened r.text

/-- What an effect adds to the log of the work list. -/
def Effect.marks (k : Kind) : Effect → List Mark
  | .call c i => if c = k.opening then [.attempt i] else []
  | .save job => [.saved job.completedIndex]
  | _ => []

/-- The payload an effect stores reads as the work list stands. -/
def Effect.Stores (k : Kind) (n idx : Int) : Effect → Prop
  | .save job => job.kind = k ∧ job.total = n ∧ job.completedIndex = idx
  | _ => True

/-- The abstract state after a step: what it stands for, and that it stored the index if it moved. -/
structure Refined (k : Kind) (n : Int) (text : PayloadText) (c c' : State) (eff : Effect)
    (next : Option Phase) : Prop where
  steps : Relation.ReflTransGen Step c c'
  log : c'.log = c.log ++ eff.marks k
  stores : eff.Stores k n c'.index
  kept : (∀ job, eff ≠ .save job) → c'.index = c.index
  next : ∀ phase, next = some phase → phase.Fits k n c'.index c'.opened text

/-- A step that neither calls for the first time nor stores. -/
theorem Refined.quiet {k : Kind} {n : Int} {text : PayloadText} {c : State} {eff : Effect}
    {next : Option Phase} (hm : eff.marks k = []) (hs : ∀ job, eff ≠ .save job)
    (hn : ∀ phase, next = some phase → phase.Fits k n c.index c.opened text) :
    Refined k n text c c eff next where
  steps := .refl
  log := by rw [hm, List.append_nil]
  stores := by
    cases eff with
    | save job => exact absurd rfl (hs job)
    | _ => trivial
  kept := fun _ => rfl
  next := hn

/-- The first call for an index. -/
theorem Refined.attempt {k : Kind} {n : Int} {text : PayloadText} {c : State} {next : Phase}
    (ho : c.opened = false) (hn : next.Fits k n c.index true text) :
    Refined k n text c ⟨c.index, true, c.log ++ [.attempt c.index]⟩ (.call k.opening c.index) (some next) where
  steps := by
    obtain ⟨idx, o, l⟩ := c
    cases ho
    exact .single (.attempt idx l)
  log := by simp [Effect.marks]
  stores := trivial
  kept := fun _ => rfl
  next := fun phase h => by cases h; exact hn

/-- The store after a call. -/
theorem Refined.commit {k : Kind} {n : Int} {text : PayloadText} {c : State} {job : Job} {next : Phase}
    (ho : c.opened = true) (hk : job.kind = k) (ht : job.total = n)
    (hn : next.Fits k n (c.index + 1) false text) :
    Refined k n text c ⟨c.index + 1, false, c.log ++ [.saved (c.index + 1)]⟩
      (.save (job.setIndex (c.index + 1))) (some next) where
  steps := by
    obtain ⟨idx, o, l⟩ := c
    cases ho
    exact .single (.commit idx l)
  log := by simp [Effect.marks]
  stores := ⟨by simpa using hk, by simpa using ht, by simp⟩
  kept := fun h => absurd rfl (h _)
  next := fun phase h => by cases h; exact hn

/-- A store of the index that is stored already. -/
theorem Refined.resave {k : Kind} {n : Int} {text : PayloadText} {c : State} {job : Job} {next : Phase}
    (ho : c.opened = false) (hk : job.kind = k) (ht : job.total = n)
    (hn : next.Fits k n c.index false text) :
    Refined k n text c ⟨c.index, false, c.log ++ [.saved c.index]⟩ (.save (job.setIndex c.index))
      (some next) where
  steps := by
    obtain ⟨idx, o, l⟩ := c
    cases ho
    exact .single (.resave idx l)
  log := by simp [Effect.marks]
  stores := ⟨by simpa using hk, by simpa using ht, by simp⟩
  kept := fun h => absurd rfl (h _)
  next := fun phase h => by cases h; exact hn

theorem fits_enterParent {k : Kind} {n idx : Int} {o : Bool} {text : PayloadText} {pid : Int}
    {phase : Phase} (h : enterParent pid = some phase) : phase.Fits k n idx o text := by
  unfold enterParent at h
  split at h
  · cases h
  · cases h; trivial

/-- The turns of the loop are steps of the work list. -/
theorem LoopTurn.refines {k : Kind} {n : Int} {text : PayloadText} {c : State} {job : Job}
    {tenant : String} {pt : Point} {eff : Effect} {next : Option Phase}
    (h : LoopTurn job tenant pt eff next) (hk : job.kind = k) (ht : job.total = n)
    (hi : job.completedIndex = c.index) (hf : pt.Fits k n c.index c.opened) :
    ∃ c', Refined k n text c c' eff next := by
  cases h with
  | enter i pt' hpt _ =>
    refine ⟨c, .quiet rfl (fun _ h => by cases h) fun phase h => ?_⟩
    cases h
    rcases hpt with rfl | ⟨why, rfl⟩ <;> exact ⟨hk, ht, hi, hf⟩
  | leave i hle =>
    refine ⟨c, .quiet rfl (fun _ h => by cases h) fun phase h => ?_⟩
    cases h
    exact ⟨hk, ht, hi, show n ≤ c.index by rw [← ht, ← hf.1]; exact hle⟩
  | check i pt' hpt =>
    refine ⟨c, .quiet rfl (fun _ h => by cases h) fun phase h => ?_⟩
    cases h
    rcases hpt with rfl | ⟨why, rfl⟩ <;> exact ⟨hk, ht, hi, hf⟩
  | park i why =>
    obtain ⟨rfl, ho⟩ := hf
    exact ⟨_, .resave ho hk ht ⟨by simpa using hk, by simpa using ht, by simp, trivial⟩⟩
  | requeue why => exact ⟨c, .quiet rfl (fun _ h => by cases h) fun phase h => by cases h⟩
  | announce i progress msg pt' hpt =>
    refine ⟨c, .quiet rfl (fun _ h => by cases h) fun phase h => ?_⟩
    cases h
    subst hk
    refine ⟨rfl, ht, hi, ?_⟩
    cases hj : job.kind with
    | batchStart => rw [hj] at hpt; subst hpt; exact hf
    | batchCreate => rw [hj] at hpt; subst hpt; exact ⟨hf.1, by rw [hf.2]; rfl⟩
  | crash i pt' msg _ =>
    exact ⟨c, .quiet rfl (fun _ h => by cases h) fun phase h => by cases h; trivial⟩
  | probe i next' hj hn =>
    obtain ⟨rfl, ho⟩ := hf
    obtain rfl : k = .batchStart := hk.symm.trans hj
    refine ⟨_, .attempt (k := .batchStart) ho ?_⟩
    rcases hn with ⟨msg, rfl⟩ | ⟨msg, ok, rfl⟩ | rfl
    · trivial
    · exact ⟨hk, ht, hi, rfl, rfl⟩
    · exact ⟨hk, ht, hi, rfl, rfl⟩
  | start i next' hj hn =>
    obtain rfl : k = .batchStart := hk.symm.trans hj
    refine ⟨c, .quiet rfl (fun _ h => by cases h) fun phase h => ?_⟩
    cases h
    rcases hn with ⟨msg, rfl⟩ | ⟨msg, ok, rfl⟩ | ⟨ok, rfl⟩
    · trivial
    · exact ⟨hk, ht, hi, hf⟩
    · exact ⟨hk, ht, hi, hf⟩
  | launch i next' hj hn =>
    obtain ⟨rfl, ho⟩ := hf
    obtain rfl : k = .batchCreate := hk.symm.trans hj
    refine ⟨_, .attempt (k := .batchCreate) ho ?_⟩
    rcases hn with ⟨msg, rfl⟩ | ⟨msg, ok, rfl⟩
    · trivial
    · exact ⟨hk, ht, hi, rfl, rfl⟩
  | report i progress msg ok =>
    refine ⟨c, .quiet rfl (fun _ h => by cases h) fun phase h => ?_⟩
    cases h
    exact ⟨hk, ht, hi, hf⟩
  | save i ok pt' hpt =>
    obtain ⟨rfl, ho⟩ := hf
    refine ⟨_, .commit ho hk ht ⟨by simpa using hk, by simpa using ht, by simp, ?_⟩⟩
    rcases hpt with rfl | rfl <;> exact ⟨rfl, rfl⟩
  | sleep i pt' hpt =>
    refine ⟨c, .quiet rfl (fun _ h => by cases h) fun phase h => ?_⟩
    cases h
    rcases hpt with rfl | ⟨why, rfl⟩ <;> exact ⟨hk, ht, hi, hf⟩
  | finish msg next' hn =>
    refine ⟨c, .quiet rfl (fun _ h => by cases h) fun phase h => ?_⟩
    rcases hn with rfl | ⟨pid, rfl⟩
    · cases h
    · exact fits_enterParent h

/-- **The steps of a runner are steps of the work list.** -/
theorem Turn.refines {k : Kind} {n : Int} {text : PayloadText} {c : State} {phase : Phase} {eff : Effect}
    {next : Option Phase} (h : Turn k text phase eff next) (hf : phase.Fits k n c.index c.opened text) :
    ∃ c', Refined k n text c c' eff next := by
  cases h with
  | acquire =>
    exact ⟨c, .quiet rfl (fun _ h => by cases h) fun phase h => by cases h; exact hf⟩
  | reject msg pid => exact ⟨c, .quiet rfl (fun _ h => by cases h) fun phase h => by cases h; trivial⟩
  | enter job tenant hd =>
    obtain ⟨ht, hi, ho⟩ := hf job hd
    refine ⟨c, .quiet rfl (fun _ h => by cases h) fun phase h => ?_⟩
    cases h
    exact ⟨Job.kind_of_decode hd, ht, hi, hi, ho⟩
  | crash msg => exact ⟨c, .quiet rfl (fun _ h => by cases h) fun phase h => by cases h; trivial⟩
  | abort msg pid => exact ⟨c, .quiet rfl (fun _ h => by cases h) fun phase h => fits_enterParent h⟩
  | loop job tenant pt _ _ hl => exact hl.refines hf.1 hf.2.1 hf.2.2.1 hf.2.2.2
  | parent pid _ hn =>
    refine ⟨c, .quiet rfl (fun _ h => by cases h) fun phase h => ?_⟩
    rcases hn with rfl | ⟨s, progress, msg, rfl⟩
    · cases h
    · cases h; trivial
  | parentWrite pid s progress msg =>
    exact ⟨c, .quiet rfl (fun _ h => by cases h) fun phase h => by cases h⟩
  | recover msg msg' => exact ⟨c, .quiet rfl (fun _ h => by cases h) fun phase h => by cases h⟩

namespace World

/-! ## One runner a task -/

/-- No runner of the task is left. -/
def NoRunner (t : Int) (w : World) : Prop := ∀ rid r, w.runners.get rid = some r → r.task ≠ t

structure Alone (t : Int) (w : World) : Prop where
  unique : ∀ rid rid' r r', w.runners.get rid = some r → w.runners.get rid' = some r' →
    r.task = t → r'.task = t → rid = rid'
  nodup : (w.loop.held.map Prod.fst).Nodup
  listed : ∀ row, (t, row) ∈ w.loop.held → w.NoRunner t

/-- Every runner of the task was a runner of it before. -/
def SubRunners (t : Int) (w w' : World) : Prop :=
  ∀ rid r', w'.runners.get rid = some r' → r'.task = t → ∃ r, w.runners.get rid = some r ∧ r.task = t

theorem NoRunner.sub {t : Int} {w w' : World} (hn : w.NoRunner t) (hs : SubRunners t w w') :
    w'.NoRunner t := by
  intro rid r' hr' ht
  obtain ⟨r, hr, hrt⟩ := hs rid r' hr' ht
  exact hn rid r hr hrt

theorem Alone.sub {t : Int} {w w' : World} (ha : Alone t w) (hs : SubRunners t w w')
    (hh : w'.loop.held.Sublist w.loop.held) : Alone t w' where
  unique := by
    intro rid rid' r r' hr hr' ht ht'
    obtain ⟨s, hs₁, hst⟩ := hs rid r hr ht
    obtain ⟨s', hs₁', hst'⟩ := hs rid' r' hr' ht'
    exact ha.unique rid rid' s s' hs₁ hs₁' hst hst'
  nodup := ha.nodup.sublist (hh.map _)
  listed := fun row h => (ha.listed row (hh.subset h)).sub hs

theorem subRunners_of_eq {t : Int} {w w' : World} (h : w'.runners = w.runners) : SubRunners t w w' := by
  intro rid r' hr' ht
  exact ⟨r', h ▸ hr', ht⟩

theorem subRunners_step {t : Int} {w : World} {rid : Int} {r : Runner} {eff : Effect}
    {next : Option Phase} (hr : w.runners.get rid = some r) :
    SubRunners t w ((w.apply r.task eff).setPhase rid next) := by
  intro rid' r' hr' ht
  rcases get_setPhase hr' with ⟨-, h⟩ | ⟨r₀, phase, rfl, h, -, rfl⟩
  · exact ⟨r', by simpa using h, ht⟩
  · exact ⟨r₀, by simpa using h, ht⟩

/-- The log since the process started, newest first. -/
def sinceExit (w : World) : List Entry := w.log.reverse.takeWhile (· ≠ .exit)

/-- What a poll needs to know of a task it lists: no runner of it is left, and since the process started
no index at or past the stored one was called for. -/
structure Quiet (t : Int) (row : Task) (w : World) : Prop where
  noRunner : w.NoRunner t
  covered : ∀ k job i, Kind.ofType row.type = some k → Job.decode k row.payload = .ok job →
    .call t k.opening i ∈ w.sinceExit → i < job.completedIndex

/-- **The condition.** A poll that finds the task pending finds it quiet. -/
def Safe (t : Int) (w : World) : Event → Prop
  | .poll => ∀ row, w.tasks.get t = some row → row.status = .pending → Quiet t row w
  | _ => True

/-- The entry does not stand against a resumption of the task from the index that its row stores. -/
def covers (t : Int) (row : Task) : Entry → Bool
  | .call id c i =>
    match Kind.ofType row.type with
    | some k =>
      match Job.decode k row.payload with
      | .ok job => decide (id = t → c = k.opening → i < job.completedIndex)
      | .error _ => true
    | none => true
  | _ => true

/-- The test of the condition, for every task of the table. -/
def safe (w : World) : Event → Bool
  | .poll => w.tasks.rows.all fun r =>
      r.2.status ≠ .pending ||
        (w.runners.rows.all fun v => v.2.task ≠ r.1) && w.sinceExit.all (covers r.1 r.2)
  | _ => true

theorem safe_of_test {w : World} {e : Event} (h : w.safe e = true) (t : Int) : Safe t w e := by
  cases e with
  | poll =>
    intro row hr hp
    have hrow := List.all_eq_true.mp h (t, row) (w.tasks.mem_rows_iff.mpr hr)
    simp only [hp, ne_eq, not_true_eq_false, decide_false, Bool.false_or, Bool.and_eq_true,
      List.all_eq_true] at hrow
    refine ⟨fun rid r hrid => ?_, fun k job i hk hj hc => ?_⟩
    · exact of_decide_eq_true (hrow.1 (rid, r) (w.runners.mem_rows_iff.mpr hrid))
    · have hcov := hrow.2 _ hc
      simp only [covers, hk, hj, decide_eq_true_eq, forall_const] at hcov
      exact hcov
  | _ => trivial

theorem Alone.step {t : Int} {w w' : World} {e : Event} (h : Moves w e w') (hs : Safe t w e)
    (ha : Alone t w) : Alone t w' := by
  have same : ∀ v : World, v.runners = w.runners → v.loop = w.loop → Alone t v := fun v hr hl =>
    ha.sub (subRunners_of_eq hr) (by rw [hl])
  cases h with
  | tick => exact same _ rfl rfl
  | boot _ => exact ha.sub (subRunners_of_eq rfl) (List.nil_sublist _)
  | reset _ => exact ha.sub (subRunners_of_eq rfl) (List.nil_sublist _)
  | poll hl =>
    refine ⟨ha.unique, nodup_listPendingTasks _, fun row hm => ?_⟩
    obtain ⟨hr, hp⟩ := mem_listPendingTasks hm
    exact (hs row hr hp).noRunner
  | listed _ => exact ha.sub (subRunners_of_eq rfl) (List.nil_sublist _)
  | claimed id u row todo hl hr hp =>
    refine ha.sub (subRunners_of_eq rfl) ?_
    rw [hl]
    exact List.Sublist.refl _
  | lost id u todo hl hp =>
    refine ha.sub (subRunners_of_eq rfl) ?_
    rw [hl]
    exact List.sublist_cons_self _ _
  | spawned id u todo k hl hk =>
    have hd : (((id, u) :: todo).map Prod.fst).Nodup := by
      have := ha.nodup
      rwa [hl] at this
    by_cases hid : id = t
    · subst hid
      have hno : w.NoRunner id := ha.listed u (by rw [hl]; exact List.mem_cons_self ..)
      refine ⟨?_, (List.nodup_cons.mp hd).2, ?_⟩
      · intro rid rid' r r' hr hr' ht ht'
        rcases get_spawn hr with ⟨rfl, -⟩ | h
        · rcases get_spawn hr' with ⟨rfl, -⟩ | h'
          · rfl
          · exact absurd ht' (hno _ _ h')
        · exact absurd ht (hno _ _ h)
      · intro row hm
        exact absurd (List.mem_map_of_mem hm) (List.nodup_cons.mp hd).1
    · refine ha.sub ?_ (by rw [hl]; exact List.sublist_cons_self _ _)
      intro rid r hr ht
      rcases get_spawn hr with ⟨-, rfl⟩ | h
      · exact absurd ht hid
      · exact ⟨r, h, ht⟩
  | marked id u todo s msg hl hk _ =>
    refine ha.sub (subRunners_of_eq rfl) ?_
    rw [hl]
    exact List.sublist_cons_self _ _
  | loopPanic _ => exact ha.sub (subRunners_of_eq rfl) (List.nil_sublist _)
  | loopStop _ _ => exact ha.sub (subRunners_of_eq rfl) (List.nil_sublist _)
  | runner rid a r eff next hr _ =>
    exact ha.sub (subRunners_step hr) (by simp)
  | request id op => exact same _ rfl rfl
  | edit id payload => exact same _ rfl rfl
  | rejected e _ => exact ha
  | submit req b => exact same _ rfl rfl
  | insert bid b row _ => exact same _ rfl rfl
  | batchStart tid ids row _ => exact same _ rfl rfl
  | closeStop => exact same _ rfl rfl
  | shutdownReset => exact same _ rfl rfl
  | exit =>
    refine ⟨?_, List.nodup_nil, fun row hm => by cases hm⟩
    intro rid rid' r r' hr
    simp at hr

/-! ## The log of one task -/

/-- The entries of one task, as marks of its work list. -/
def mark (t : Int) (k : Kind) : Entry → Option Mark
  | .call id c i => if id = t ∧ c = k.opening then some (.attempt i) else none
  | .saved id i => if id = t then some (.saved i) else none
  | .exit => some .exit

def marks (t : Int) (k : Kind) (l : List Entry) : List Mark := l.filterMap (mark t k)

@[simp] theorem marks_append (t : Int) (k : Kind) (l l' : List Entry) :
    marks t k (l ++ l') = marks t k l ++ marks t k l' := List.filterMap_append

theorem mem_marks_attempt {t : Int} {k : Kind} {l : List Entry} {i : Int} :
    .attempt i ∈ marks t k l ↔ .call t k.opening i ∈ l := by
  simp only [marks, List.mem_filterMap]
  constructor
  · rintro ⟨e, he, hm⟩
    cases e with
    | call id c j =>
      simp only [mark] at hm
      split at hm
      · rename_i hc
        obtain ⟨rfl, rfl⟩ := hc
        cases hm
        exact he
      · cases hm
    | saved id j =>
      simp only [mark] at hm
      split at hm <;> cases hm
    | exit => cases hm
  · intro h
    exact ⟨_, h, by simp [mark]⟩

theorem mem_recent_marks {t : Int} {k : Kind} {w : World} {i : Int}
    (h : .attempt i ∈ recent (marks t k w.log)) : .call t k.opening i ∈ w.sinceExit := by
  have hrec : ∀ l : List Entry, (l.filterMap (mark t k)).takeWhile (· ≠ .exit) =
      (l.takeWhile (· ≠ .exit)).filterMap (mark t k) := by
    intro l
    simp only [ne_eq, decide_not]
    induction l with
    | nil => rfl
    | cons e l ih =>
      cases e with
      | call id c j =>
        by_cases hc : id = t ∧ c = k.opening
        · simp [mark, hc, ih]
        · simp [mark, hc, ih]
      | saved id j =>
        by_cases hc : id = t
        · simp [mark, hc, ih]
        · simp [mark, hc, ih]
      | exit => simp [mark]
  rw [recent, marks, ← List.filterMap_reverse, hrec] at h
  exact mem_marks_attempt.mp h

/-- The marks of an effect of one of the task's runners. -/
theorem marks_apply (t : Int) (k : Kind) (w : World) (eff : Effect) :
    marks t k (w.apply t eff).log = marks t k w.log ++ eff.marks k := by
  cases eff with
  | call c i => by_cases h : c = k.opening <;> simp [apply, marks, mark, Effect.marks, h]
  | save job => simp [apply, marks, mark, Effect.marks]
  | _ => simp [apply, Effect.marks]

theorem marks_apply_of_ne {t id : Int} (k : Kind) (w : World) (eff : Effect) (h : id ≠ t) :
    marks t k (w.apply id eff).log = marks t k w.log := by
  cases eff <;> simp [apply, marks, mark, h]

/-! ## The row of one task -/

/-- Every row keeps its type and its payload. -/
def SameWork (t : Int) (tasks tasks' : Tasks) : Prop :=
  ∀ row, tasks.get t = some row →
    ∃ row', tasks'.get t = some row' ∧ row'.type = row.type ∧ row'.payload = row.payload

theorem SameWork.refl {t : Int} {tasks : Tasks} : SameWork t tasks tasks :=
  fun row h => ⟨row, h, rfl, rfl⟩

theorem sameWork_mapRows {t : Int} {tasks : Tasks} {f : Int → Task → Task}
    (hf : ∀ row, (f t row).type = row.type ∧ (f t row).payload = row.payload) :
    SameWork t tasks (tasks.mapRows f) := by
  intro row h
  exact ⟨f t row, by rw [KeyTable.get_mapRows, h]; rfl, hf row⟩

theorem sameWork_update {t id : Int} {tasks : Tasks} {f : Task → Task}
    (hf : id = t → ∀ row, (f row).type = row.type ∧ (f row).payload = row.payload) :
    SameWork t tasks (tasks.update id f) := by
  refine sameWork_mapRows fun row => ?_
  split
  · exact hf (by omega) row
  · exact ⟨rfl, rfl⟩

theorem sameWork_insert {t : Int} {tasks : Tasks} (row : Task) : SameWork t tasks (tasks.insert row) :=
  fun r h => ⟨r, tasks.get_insert_of_some row h, rfl, rfl⟩

theorem sameWork_updateTaskStatus {t : Int} {tasks : Tasks} {now : Nat} {id : Int} {s : TaskStatus}
    {progress : Int} {msg : String} : SameWork t tasks (updateTaskStatus tasks now id s progress msg) :=
  sameWork_update fun _ _ => ⟨rfl, rfl⟩

theorem sameWork_resetRunningTasks {t : Int} {tasks : Tasks} : SameWork t tasks (resetRunningTasks tasks) := by
  refine sameWork_mapRows fun row => ?_
  by_cases h : row.status = .running <;> simp [h]

/-- Only a store of the task itself changes its payload. -/
theorem sameWork_apply {t id : Int} {w : World} {eff : Effect} (h : id = t → ∀ job, eff ≠ .save job) :
    SameWork t w.tasks (w.apply id eff).tasks := by
  cases eff with
  | status s progress msg => exact sameWork_updateTaskStatus
  | save job => exact sameWork_update fun he => absurd rfl (h he job)
  | parent pid s progress msg => exact sameWork_updateTaskStatus
  | _ => exact SameWork.refl

/-! ## The simulation -/

/-- The task `t` of kind `k` and total `n` stands as the work list `c`. -/
structure Sim (t : Int) (k : Kind) (n : Int) (w : World) (c : State) : Prop where
  alone : Alone t w
  row : ∃ row, w.tasks.get t = some row ∧ Kind.ofType row.type = some k ∧ Reads k n c.index row.payload
  log : marks t k w.log = c.log
  live : ∀ rid r, w.runners.get rid = some r → r.task = t → r.Fits k n c.index c.opened
  listed : ∀ row, (t, row) ∈ w.loop.held →
    Kind.ofType row.type = some k ∧ Ready k n c.index c.opened row.payload

/-- A step that leaves the work list of the task where it is. -/
structure Frame (t : Int) (w w' : World) : Prop where
  work : SameWork t w.tasks w'.tasks
  log : ∀ k, marks t k w'.log = marks t k w.log
  runners : ∀ rid r, w'.runners.get rid = some r → r.task = t → w.runners.get rid = some r
  held : w'.loop.held.Sublist w.loop.held

theorem Frame.sim {t : Int} {k : Kind} {n : Int} {w w' : World} {c : State} (hf : Frame t w w')
    (ha : Alone t w') (h : Sim t k n w c) : Sim t k n w' c where
  alone := ha
  row := by
    obtain ⟨row, hr, hk, hd⟩ := h.row
    obtain ⟨row', hr', ht, hp⟩ := hf.work row hr
    exact ⟨row', hr', ht ▸ hk, hp ▸ hd⟩
  log := (hf.log k).trans h.log
  live := fun rid r hr ht => h.live rid r (hf.runners rid r hr ht) ht
  listed := fun row hm => h.listed row (hf.held.subset hm)

/-- The steps that concern the task are polls, the spawn and the steps of its runner, the edits of its
payload, and exits; every other step is a frame. -/
def Event.Foreign (t : Int) (w : World) : Event → Prop
  | .poll => False
  | .exit => False
  | .edit id _ => id ≠ t
  | .dispatch => ∀ row todo, w.loop ≠ .dispatch t row todo
  | .runner rid _ => ∀ r, w.runners.get rid = some r → r.task ≠ t
  | _ => True

theorem Moves.frame {t : Int} {w w' : World} {e : Event} (h : Moves w e w') (he : Event.Foreign t w e) :
    Frame t w w' := by
  have own : ∀ rid r, w.runners.get rid = some r → r.task = t → w.runners.get rid = some r :=
    fun _ _ h _ => h
  cases h with
  | tick => exact ⟨.refl, fun _ => rfl, own, .refl _⟩
  | boot _ => exact ⟨.refl, fun _ => rfl, own, List.nil_sublist _⟩
  | reset _ => exact ⟨sameWork_resetRunningTasks, fun _ => rfl, own, List.nil_sublist _⟩
  | poll _ => exact he.elim
  | listed _ => exact ⟨.refl, fun _ => rfl, own, List.nil_sublist _⟩
  | claimed id u row todo hl _ _ =>
    refine ⟨sameWork_update fun _ _ => ⟨rfl, rfl⟩, fun _ => rfl, own, ?_⟩
    rw [hl]
    exact .refl _
  | lost id u todo hl _ =>
    refine ⟨.refl, fun _ => rfl, own, ?_⟩
    rw [hl]
    exact List.sublist_cons_self _ _
  | spawned id u todo k hl _ =>
    refine ⟨.refl, fun _ => rfl, ?_, by rw [hl]; exact List.sublist_cons_self _ _⟩
    intro rid r hr ht
    rcases get_spawn hr with ⟨-, rfl⟩ | h
    · cases ht
      exact absurd hl (he u todo)
    · exact h
  | marked id u todo s msg hl _ _ =>
    refine ⟨sameWork_updateTaskStatus, fun _ => rfl, own, ?_⟩
    rw [hl]
    exact List.sublist_cons_self _ _
  | loopPanic _ => exact ⟨.refl, fun _ => rfl, own, List.nil_sublist _⟩
  | loopStop _ _ => exact ⟨.refl, fun _ => rfl, own, List.nil_sublist _⟩
  | runner rid a r eff next hr _ =>
    have hne : r.task ≠ t := he r hr
    refine ⟨?_, fun k => ?_, ?_, by simp⟩
    · rw [tasks_setPhase]
      exact sameWork_apply fun h => absurd h hne
    · rw [log_setPhase, marks_apply_of_ne k w eff hne]
    · intro rid' r' hr' ht
      rcases get_setPhase hr' with ⟨-, h⟩ | ⟨r₀, phase, rfl, h, -, rfl⟩
      · simpa using h
      · rw [runners_apply, hr] at h
        cases h
        exact absurd ht hne
  | request id op _ => exact ⟨sameWork_updateTaskStatus, fun _ => rfl, own, .refl _⟩
  | edit id payload _ =>
    exact ⟨sameWork_update fun h => absurd h he, fun _ => rfl, own, .refl _⟩
  | rejected e _ => exact ⟨.refl, fun _ => rfl, own, .refl _⟩
  | submit req b => exact ⟨.refl, fun _ => rfl, own, .refl _⟩
  | insert bid b row _ => exact ⟨sameWork_insert row, fun _ => rfl, own, .refl _⟩
  | batchStart tid ids row _ => exact ⟨sameWork_insert row, fun _ => rfl, own, .refl _⟩
  | closeStop => exact ⟨.refl, fun _ => rfl, own, .refl _⟩
  | shutdownReset => exact ⟨sameWork_resetRunningTasks, fun _ => rfl, own, .refl _⟩
  | exit => exact he.elim

/-- A poll that finds the task quiet lists a copy a runner may start from. -/
theorem sim_poll {t : Int} {k : Kind} {n k₀ : Int} {w w' : World} {c : State} (h : Sim t k n w c)
    (hc : Reachable k₀ c) (ha : Alone t w') (hs : Safe t w .poll)
    (hw : w' = { w with loop := .scanning (listPendingTasks w.tasks) }) : Sim t k n w' c := by
  subst hw
  refine ⟨ha, h.row, h.log, h.live, fun row hm => ?_⟩
  obtain ⟨hr, hp⟩ := mem_listPendingTasks hm
  obtain ⟨row', hr', hk, hd⟩ := h.row
  obtain rfl : row = row' := Option.some.inj (hr.symm.trans hr')
  refine ⟨hk, fun job hj => ⟨(hd job hj).1, (hd job hj).2, ?_⟩⟩
  cases ho : c.opened with
  | false => rfl
  | true =>
    have hi : .attempt c.index ∈ recent (marks t k w.log) := h.log ▸ (inv_of_reachable hc).opened ho
    have hlt := (hs row hr hp).covered k job c.index hk hj (mem_recent_marks hi)
    rw [(hd job hj).2] at hlt
    omega

theorem sim_spawn {t : Int} {k k' : Kind} {n : Int} {w : World} {c : State} {row : Task}
    {todo : List (Int × Task)} (h : Sim t k n w c) (hl : w.loop = .dispatch t row todo)
    (hk : Kind.ofType row.type = some k')
    (ha : Alone t { w.spawn t row k' with loop := .scanning todo }) :
    Sim t k n { w.spawn t row k' with loop := .scanning todo } c := by
  have hm : (t, row) ∈ w.loop.held := by rw [hl]; exact List.mem_cons_self ..
  obtain ⟨hk', hd⟩ := h.listed row hm
  obtain rfl : k' = k := Option.some.inj (hk.symm.trans hk')
  refine ⟨ha, h.row, h.log, ?_, ?_⟩
  · intro rid r hr ht
    rcases get_spawn hr with ⟨-, rfl⟩ | hr
    · exact ⟨rfl, hd⟩
    · exact h.live rid r hr ht
  · intro row' hm'
    exact h.listed row' (by rw [hl]; exact List.mem_cons_of_mem _ hm')

theorem sim_runner {t : Int} {k : Kind} {n : Int} {w : World} {c : State} {rid : Int} {r : Runner}
    {a : Answer} {eff : Effect} {next : Option Phase} (h : Sim t k n w c)
    (hr : w.runners.get rid = some r) (ht : r.task = t) (hs : r.step w.ctx a = some (eff, next))
    (ha : Alone t ((w.apply r.task eff).setPhase rid next)) :
    ∃ c', Relation.ReflTransGen Step c c' ∧ Sim t k n ((w.apply r.task eff).setPhase rid next) c' := by
  obtain ⟨hk, hfit⟩ := h.live rid r hr ht
  have hturn := Runner.turn hs
  rw [hk] at hturn
  obtain ⟨c', href⟩ := hturn.refines hfit
  refine ⟨c', href.steps, ha, ?_, ?_, ?_, ?_⟩
  · rw [tasks_setPhase]
    obtain ⟨row, hrow, hkind, hd⟩ := h.row
    by_cases hsave : ∃ job, eff = .save job
    · obtain ⟨job, rfl⟩ := hsave
      obtain ⟨hjk, hjn, hji⟩ := href.stores
      refine ⟨{ row with payload := job.marshal }, ?_, hkind, ?_⟩
      · simp [apply, updateTaskPayload, ht, hrow]
      · intro job' hj
        rw [← hjk, Job.decode_marshal] at hj
        cases hj
        exact ⟨hjn, hji⟩
    · have hno : ∀ job, eff ≠ .save job := fun job he => hsave ⟨job, he⟩
      obtain ⟨row', hrow', htype, hpay⟩ := sameWork_apply (fun _ : r.task = t => hno) row hrow
      refine ⟨row', hrow', htype ▸ hkind, ?_⟩
      rw [href.kept hno, hpay]
      exact hd
  · rw [log_setPhase, ht, marks_apply, h.log, href.log]
  · intro rid' r' hr' ht'
    rcases get_setPhase hr' with ⟨hne, hr'⟩ | ⟨r₀, phase, rfl, hr₀, hn, rfl⟩
    · rw [runners_apply] at hr'
      exact absurd (h.alone.unique rid' rid r' r hr' hr ht' ht) hne
    · rw [runners_apply, hr] at hr₀
      cases hr₀
      exact ⟨hk, href.next phase hn⟩
  · intro row hm
    rw [loop_setPhase, loop_apply] at hm
    exact absurd ht (h.alone.listed row hm rid r hr)

theorem sim_exit {t : Int} {k : Kind} {n : Int} {w : World} {c : State} (h : Sim t k n w c)
    (ha : Alone t { w with
      loop := .down, runners := w.runners.clear, batches := w.batches.clear, log := w.log ++ [.exit] }) :
    ∃ c', Relation.ReflTransGen Step c c' ∧ Sim t k n { w with
      loop := .down, runners := w.runners.clear, batches := w.batches.clear, log := w.log ++ [.exit] } c' := by
  obtain ⟨idx, o, l⟩ := c
  refine ⟨_, .single (.exit idx o l), ha, h.row, ?_, ?_, fun row hm => by cases hm⟩
  · rw [marks_append, h.log]
    rfl
  · intro rid r hr
    simp at hr

/-- **The simulation, step by step.** -/
theorem step_sim {t : Int} {k : Kind} {n k₀ : Int} {w w' : World} {c : State} {e : Event}
    (hstep : step w e = some w') (hs : Safe t w e) (he : ∀ payload, e ≠ .edit t payload)
    (hc : Reachable k₀ c) (h : Sim t k n w c) :
    ∃ c', Relation.ReflTransGen Step c c' ∧ Sim t k n w' c' := by
  have hm := moves hstep
  have ha : Alone t w' := h.alone.step hm hs
  by_cases hf : Event.Foreign t w e
  · exact ⟨c, .refl, (hm.frame hf).sim ha h⟩
  · cases hm with
    | poll hl => exact ⟨c, .refl, sim_poll h hc ha hs rfl⟩
    | exit => exact sim_exit h ha
    | edit id payload _ => exact absurd (fun hid => he payload (by rw [hid])) hf
    | spawned id u todo k' hl hk =>
      have hid : id = t := by
        by_contra hne
        exact hf fun row todo' hl' => hne (by rw [hl] at hl'; cases hl'; rfl)
      subst hid
      exact ⟨c, .refl, sim_spawn h hl hk ha⟩
    | marked id u todo s msg hl hk _ =>
      refine absurd (fun row todo' hl' => ?_) hf
      rw [hl] at hl'
      cases hl'
      obtain ⟨hk', -⟩ := h.listed u (by rw [hl]; exact List.mem_cons_self ..)
      rw [hk] at hk'
      cases hk'
    | runner rid a r eff next hr hrs =>
      have ht : r.task = t := by
        by_contra hne
        exact hf fun r' hr' => by rw [hr] at hr'; cases hr'; exact hne
      exact sim_runner h hr ht hrs ha
    | rejected _ _ => exact ⟨c, .refl, h⟩
    | _ => exact absurd trivial hf

/-! ## From the creation of the task on -/

/-- Nothing but the table may know of the task. -/
structure Idle (t : Int) (w : World) : Prop where
  noRunner : w.NoRunner t
  nodup : (w.loop.held.map Prod.fst).Nodup
  unlisted : ∀ row, (t, row) ∉ w.loop.held
  log : ∀ k, ∀ m ∈ marks t k w.log, m = .exit

theorem Idle.alone {t : Int} {w : World} (h : Idle t w) : Alone t w where
  unique := fun rid _ r _ hr _ ht _ => absurd ht (h.noRunner rid r hr)
  nodup := h.nodup
  listed := fun row hm => absurd hm (h.unlisted row)

/-- An idle task with a row stands at the index of its payload. -/
theorem Idle.sim {t : Int} {k : Kind} {n idx : Int} {w : World} {row : Task} (h : Idle t w)
    (hr : w.tasks.get t = some row) (hk : Kind.ofType row.type = some k) (hd : Reads k n idx row.payload) :
    Reachable idx ⟨idx, false, marks t k w.log⟩ ∧ Sim t k n w ⟨idx, false, marks t k w.log⟩ := by
  refine ⟨reachable_of_exits idx (h.log k), h.alone, ⟨row, hr, hk, hd⟩, rfl, ?_, ?_⟩
  · exact fun rid r hr ht => absurd ht (h.noRunner rid r hr)
  · exact fun row hm => absurd hm (h.unlisted row)

theorem idle_off (t : Int) (tasks : Tasks) : Idle t (off tasks) where
  noRunner := fun rid r hr => by simp [off] at hr
  nodup := List.nodup_nil
  unlisted := fun row hm => by cases hm
  log := fun k m hm => absurd hm (List.not_mem_nil)

/-- A task without a row stays idle. -/
theorem Idle.step {t : Int} {w w' : World} {e : Event} (h : Moves w e w') (hn : w.tasks.get t = none)
    (hi : Idle t w) : Idle t w' := by
  have frame : Event.Foreign t w e → Idle t w' := by
    intro he
    have hf := h.frame he
    refine ⟨?_, hi.nodup.sublist (hf.held.map _), ?_, ?_⟩
    · exact fun rid r hr ht => hi.noRunner rid r (hf.runners rid r hr ht) ht
    · exact fun row hm => hi.unlisted row (hf.held.subset hm)
    · exact fun k m hm => hi.log k m (hf.log k ▸ hm)
  cases h with
  | poll hl =>
    refine ⟨hi.noRunner, nodup_listPendingTasks _, fun row hm => ?_, hi.log⟩
    obtain ⟨hr, -⟩ := mem_listPendingTasks hm
    rw [hn] at hr
    cases hr
  | exit =>
    refine ⟨fun rid r hr => by simp at hr, List.nodup_nil, fun row => List.not_mem_nil, fun k m hm => ?_⟩
    rcases List.mem_append.mp (marks_append t k .. ▸ hm) with hm | hm
    · exact hi.log k m hm
    · exact List.mem_singleton.mp hm
  | edit id payload _ =>
    exact ⟨hi.noRunner, hi.nodup, hi.unlisted, hi.log⟩
  | spawned id u todo k' hl hk =>
    refine frame fun row todo' hl' => hi.unlisted row ?_
    rw [hl']
    exact List.mem_cons_self ..
  | marked id u todo s msg hl _ _ =>
    refine frame fun row todo' hl' => hi.unlisted row ?_
    rw [hl']
    exact List.mem_cons_self ..
  | runner rid a r eff next hr _ =>
    exact frame fun r' hr' => hi.noRunner rid r' hr'
  | rejected _ _ => exact hi
  | _ => exact frame trivial

/-- A row that appears is one a handler inserted. -/
theorem Moves.fresh {t : Int} {w w' : World} {e : Event} {row : Task} (h : Moves w e w')
    (hn : w.tasks.get t = none) (hr : w'.tasks.get t = some row) : row.Fresh := by
  have mapped : ∀ f : Int → Task → Task, (w.tasks.mapRows f).get t ≠ some row := by
    intro f hf
    rw [KeyTable.get_mapRows, hn] at hf
    cases hf
  have same : w.tasks.get t ≠ some row := by rw [hn]; exact fun h => by cases h
  cases h with
  | reset _ => exact absurd hr (mapped _)
  | claimed id u row' todo _ _ _ => exact absurd hr (mapped _)
  | marked id u todo s msg _ _ _ => exact absurd hr (mapped _)
  | runner rid a r eff next _ _ =>
    rw [tasks_setPhase] at hr
    cases eff with
    | status s progress msg => exact absurd hr (mapped _)
    | save job => exact absurd hr (mapped _)
    | parent pid s progress msg => exact absurd hr (mapped _)
    | none => exact absurd hr same
    | call c i => exact absurd hr same
  | request id op _ => exact absurd hr (mapped _)
  | edit id payload _ => exact absurd hr (mapped _)
  | insert bid b row' hf =>
    simp only [KeyTable.get_insert] at hr
    split at hr
    · cases hr; exact hf
    · exact absurd hr same
  | batchStart tid ids row' hf =>
    simp only [KeyTable.get_insert] at hr
    split at hr
    · cases hr; exact hf
    · exact absurd hr same
  | shutdownReset => exact absurd hr (mapped _)
  | _ => exact absurd hr same

/-- No step changes the type of a row. -/
theorem Moves.type {t : Int} {w w' : World} {e : Event} {row : Task} (h : Moves w e w')
    (hr : w.tasks.get t = some row) : ∃ row', w'.tasks.get t = some row' ∧ row'.type = row.type := by
  have weaken : SameWork t w.tasks w'.tasks → ∃ row', w'.tasks.get t = some row' ∧ row'.type = row.type := by
    intro hw
    obtain ⟨row', hr', ht, -⟩ := hw row hr
    exact ⟨row', hr', ht⟩
  by_cases he : Event.Foreign t w e
  · exact weaken (h.frame he).work
  · cases h with
    | poll _ => exact ⟨row, hr, rfl⟩
    | exit => exact ⟨row, hr, rfl⟩
    | edit id payload _ =>
      refine ⟨if t = id then { row with payload := payload } else row, ?_, ?_⟩
      · rw [get_updateTaskPayload, hr]
        split <;> rfl
      · split <;> rfl
    | spawned id u todo k _ _ => exact ⟨row, hr, rfl⟩
    | marked id u todo s msg _ _ _ => exact weaken sameWork_updateTaskStatus
    | runner rid a r eff next _ _ =>
      rw [tasks_setPhase] at weaken ⊢
      cases eff with
      | save job =>
        refine ⟨if t = r.task then { row with payload := job.marshal } else row, ?_, ?_⟩
        · rw [apply, get_updateTaskPayload, hr]
          split <;> rfl
        · split <;> rfl
      | status s progress msg => exact weaken sameWork_updateTaskStatus
      | parent pid s progress msg => exact weaken sameWork_updateTaskStatus
      | none => exact ⟨row, hr, rfl⟩
      | call c i => exact ⟨row, hr, rfl⟩
    | rejected _ _ => exact ⟨row, hr, rfl⟩
    | _ => exact absurd trivial he

/-- The task has no row yet, or it follows a work list that began at an index in `P` and stands to it
as `Q` says. -/
def Follows (t : Int) (P : Int → Prop) (Q : Int → World → State → Prop) (w : World) : Prop :=
  (w.tasks.get t = none ∧ Idle t w) ∨
    ∃ row, w.tasks.get t = some row ∧ ∀ k, Kind.ofType row.type = some k →
      ∃ k₀ n c, P k₀ ∧ Reachable k₀ c ∧ Sim t k n w c ∧ Q n w c

theorem reads_of_fresh {row : Task} (h : row.Fresh) (k : Kind) : ∃ n, Reads k n 0 row.payload := by
  obtain ⟨n, idx, hr⟩ := exists_reads k row.payload
  refine ⟨n, fun job hj => ⟨(hr job hj).1, ?_⟩⟩
  cases k with
  | batchStart =>
    cases hp : row.payload.asStart with
    | error e => rw [Job.decode, hp] at hj; cases hj
    | ok p => rw [Job.decode, hp] at hj; cases hj; exact h.start p hp
  | batchCreate =>
    cases hp : row.payload.asCreate with
    | error e => rw [Job.decode, hp] at hj; cases hj
    | ok p => rw [Job.decode, hp] at hj; cases hj; exact h.create p hp

section Follows
variable {t : Int} {P : Int → Prop} {Q : Int → World → State → Prop}

theorem follows_of_idle {w : World} (hi : Idle t w)
    (h : ∀ row k, w.tasks.get t = some row → Kind.ofType row.type = some k →
      ∃ k₀ n, P k₀ ∧ Reads k n k₀ row.payload ∧ ∀ c, Q n w c) : Follows t P Q w := by
  cases hr : w.tasks.get t with
  | none => exact Or.inl ⟨hr, hi⟩
  | some row =>
    refine Or.inr ⟨row, hr, fun k hk => ?_⟩
    obtain ⟨k₀, n, hP, hd, hQ⟩ := h row k hr hk
    obtain ⟨hc, hsim⟩ := hi.sim hr hk hd
    exact ⟨k₀, n, _, hP, hc, hsim, hQ _⟩

theorem Follows.step {w w' : World} {e : Event} (h : Follows t P Q w) (hstep : step w e = some w')
    (hs : Safe t w e) (he : ∀ payload, e ≠ .edit t payload) (hP : P 0)
    (hnew : ∀ row n c, w'.tasks.get t = some row → row.Fresh → Q n w' c)
    (hQ : ∀ k n c c', Sim t k n w c → Relation.ReflTransGen Step c c' → Q n w c → Q n w' c') :
    Follows t P Q w' := by
  have hm := moves hstep
  rcases h with ⟨hn, hi⟩ | ⟨row, hr, h⟩
  · refine follows_of_idle (hi.step hm hn) fun row k hr hk => ?_
    have hf := hm.fresh hn hr
    obtain ⟨n, hd⟩ := reads_of_fresh hf k
    exact ⟨0, n, hP, hd, fun c => hnew row n c hr hf⟩
  · obtain ⟨row', hr', ht⟩ := hm.type hr
    refine Or.inr ⟨row', hr', fun k hk => ?_⟩
    obtain ⟨k₀, n, c, hk₀, hc, hsim, hq⟩ := h k (ht ▸ hk)
    obtain ⟨c', hcc, hsim'⟩ := step_sim hstep hs he hc hsim
    exact ⟨k₀, n, c', hk₀, hc.trans hcc, hsim', hQ k n c c' hsim hcc hq⟩

end Follows

end World

end OciHelper.Worker
